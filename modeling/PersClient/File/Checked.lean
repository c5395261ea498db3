import PersClient.File.Descriptors
import PersClient.File.Verify

/-! # The check under faults

Which of the openings of `pclVerifyConsistency` fail is told by the environment.
Its result, the descriptors it leaves open and the moment it ends follow from the
contents of the three files and from the errors met at three moments. The
descriptor it returns is never 0: another file stood open when it was opened.
-/

namespace PersClient.File

open Crash Handle

section Opening

def Env.admits (env : Env) (time : ℕ) (path : CStr) : Bool :=
  match env time path with
  | some (.err _) => false
  | _ => true

def Os.CanOpen (os : Os) (env : Env) (time : ℕ) (path : CStr) : Prop :=
  (os.content path).isSome ∧ env.admits time path

/-- Opening the path at this time reports that the file is not there. -/
def Os.NotThere (os : Os) (env : Env) (time : ℕ) (path : CStr) : Prop :=
  env time path = some (.err .enoent) ∨ env.admits time path ∧ os.content path = none

instance (os : Os) (env : Env) (time : ℕ) (path : CStr) : Decidable (os.CanOpen env time path) := by
  unfold Os.CanOpen
  infer_instance

instance (os : Os) (env : Env) (time : ℕ) (path : CStr) :
    Decidable (os.NotThere env time path) := by
  unfold Os.NotThere
  infer_instance

variable {os os' : Os} {env : Env} {path : CStr} {flags : OpenFlags} {time : ℕ}

theorem Env.openPath_admits (h : env.admits os.clock path) :
    os.openPath env path flags = os.tick.openFile path flags := by
  unfold admits at h
  unfold Os.openPath
  cases henv : env os.clock path with
  | none => rfl
  | some fault =>
    cases fault with
    | err e =>
      rw [henv] at h
      cases h
    | short n => rfl

theorem Env.openPath_refuses (flags : OpenFlags) (h : env.admits os.clock path = false) :
    ∃ e, env os.clock path = some (.err e) ∧ os.openPath env path flags = (-1, os.tick.fail e) := by
  unfold admits at h
  cases henv : env os.clock path with
  | none =>
    rw [henv] at h
    cases h
  | some fault =>
    rw [henv] at h
    cases fault with
    | err e =>
      refine ⟨e, rfl, ?_⟩
      rw [Os.openPath, henv]
    | short n => cases h

namespace Os

theorem CanOpen.openPath (h : os.CanOpen env os.clock path) (flags : OpenFlags)
    (hc : flags.trunc = false) :
    ∃ os' i, os.openPath env path flags = ((os.fds.lowestFree : ℤ), os') ∧
      os'.disk = os.disk ∧ os'.clock = os.clock + 1 ∧
      os.fs.names (resolve path) = some i ∧
      os'.fds.get = Function.update os.fds.get os.fds.lowestFree
        (some ⟨i, path, 0, flags.read, flags.write, true⟩) := by
  obtain ⟨c, hcontent⟩ := Option.isSome_iff_exists.mp h.1
  obtain ⟨i, hi, -⟩ := Fs.content_eq_some.mp hcontent
  have hi' : os.tick.fs.names (resolve path) = some i := hi
  rw [Env.openPath_admits h.2, openFile, hi', hc]
  exact ⟨_, i, rfl, rfl, rfl, hi, rfl⟩

theorem openPath_cannot (flags : OpenFlags) (h : ¬ os.CanOpen env os.clock path)
    (hc : flags.creat = false) :
    ∃ os', os.openPath env path flags = (-1, os') ∧ os.Same os' ∧ os'.clock = os.clock + 1 ∧
      (os'.errno = .enoent ↔ os.NotThere env os.clock path) := by
  cases hadmits : env.admits os.clock path with
  | false =>
    obtain ⟨e, henv, heq⟩ := Env.openPath_refuses flags hadmits
    refine ⟨_, heq, ⟨rfl, rfl⟩, rfl, ?_⟩
    unfold NotThere
    rw [henv, hadmits, Option.some.injEq, Fault.err.injEq]
    simp only [Bool.false_eq_true, false_and, or_false]
    exact Iff.rfl
  | true =>
    have hnone : os.content path = none := by
      by_contra hne
      exact h ⟨Option.isSome_iff_ne_none.mpr hne, hadmits⟩
    have hnames : os.tick.fs.names (resolve path) = none := Fs.content_eq_none.mp hnone
    rw [Env.openPath_admits hadmits, openFile, hnames, hc]
    exact ⟨_, rfl, ⟨rfl, rfl⟩, rfl, iff_of_true rfl (Or.inr ⟨hadmits, hnone⟩)⟩

theorem openPath_enoent_iff (flags : OpenFlags) (hplain : flags.creat = false ∧ flags.trunc = false) :
    (os.openPath env path flags).1 = -1 ∧ (os.openPath env path flags).2.errno = .enoent ↔
      os.NotThere env os.clock path := by
  by_cases hopen : os.CanOpen env os.clock path
  · obtain ⟨os', i, heq, -⟩ := hopen.openPath flags hplain.2
    obtain ⟨hthere, hadmits⟩ := hopen
    rw [heq]
    refine iff_of_false (fun h => absurd h.1 (by dsimp only; omega)) ?_
    rintro (herr | ⟨-, hnone⟩)
    · rw [Env.admits, herr] at hadmits
      cases hadmits
    · rw [hnone] at hthere
      cases hthere
  · obtain ⟨os', heq, -, -, herrno⟩ := openPath_cannot flags hopen hplain.1
    rw [heq]
    exact (and_iff_right rfl).trans herrno

theorem canOpen_of_disk (h : os'.disk = os.disk) :
    os'.CanOpen env time path ↔ os.CanOpen env time path := by
  unfold CanOpen content fs
  rw [h]

theorem notThere_of_disk (h : os'.disk = os.disk) :
    os'.NotThere env time path ↔ os.NotThere env time path := by
  unfold NotThere content fs
  rw [h]

end Os

end Opening

section Outcomes

/-- How the check ends: nothing was compared after so many openings, the original
stands open and is returned, the check failed, or it failed and left the
original open. -/
inductive CheckOutcome
  | unchecked (openings : ℕ)
  | kept
  | refused
  | lost
  deriving DecidableEq, Repr

variable (env : Env) (origPath backupPath csumPath : CStr) (readable : Bool) (os : Os)

def compareOutcome (time : ℕ) (sums : List Bytes) (mismatch : CheckOutcome) : CheckOutcome :=
  if os.CanOpen env time origPath then
    if judgeOrig readable (os.content origPath) sums = .keep then .kept else mismatch
  else .refused

/-- The outcome by the contents of the three files and the errors met. -/
def checkOutcome : CheckOutcome :=
  match os.content backupPath, os.content csumPath with
  | none, none => .unchecked 0
  | none, some csum =>
    if env.admits os.clock csumPath then
      compareOutcome env origPath readable os (os.clock + 1) [csumText csum] .lost
    else .refused
  | some backup, none =>
    if env.admits os.clock backupPath then
      compareOutcome env origPath readable os (os.clock + 1) [csumOf backup] .lost
    else .refused
  | some backup, some csum =>
    if env.admits os.clock backupPath ∧ env.admits (os.clock + 1) csumPath then
      if csum = [] then .unchecked 2
      else if csumText csum = csumOf backup then
        if os.CanOpen env (os.clock + 2) origPath then .kept else .refused
      else compareOutcome env origPath readable os (os.clock + 2)
        [csumText csum, csumOf backup] .refused
    else .refused

end Outcomes

section Ends

inductive Ends (os : Os) (A : Set ℤ) : CheckOutcome → ℤ × Os → Prop
  | unchecked {n : ℕ} {os' : Os} : os.Opens A os' → os'.disk = os.disk →
      os'.clock = os.clock + n → Ends os A (.unchecked n) (0, os')
  | kept {fd : ℤ} {os' : Os} : 0 < fd → fd ∉ A → os.Opens (insert fd A) os' →
      os'.fs.names = os.fs.names → Ends os A .kept (fd, os')
  | refused {os' : Os} : os.Opens A os' → Ends os A .refused (-1, os')
  | lost {fd : ℤ} {os' : Os} : fd ∉ A → os.Opens (insert fd A) os' → Ends os A .lost (-1, os')

variable {os os₁ : Os} {A : Set ℤ} {env : Env} {path : CStr} {flags : OpenFlags} {fd : ℤ}

theorem Ends.close {outcome : CheckOutcome} {r : ℤ × Os} (h : Ends os (insert fd A) outcome r)
    (hfd : fd ∉ A) : Ends os A outcome (r.1, (r.2.close fd).2) := by
  have hdisk : ∀ os' : Os, (os'.close fd).2.disk = os'.disk := fun os' => Os.close_disk fd os'
  have hclock : ∀ os' : Os, (os'.close fd).2.clock = os'.clock := by
    intro os'
    unfold Os.close
    split <;> rfl
  have swap : ∀ {k}, k ∉ insert fd A → insert k (insert fd A) \ {fd} = insert k A := by
    intro k hk
    rw [Set.insert_sdiff_of_notMem, Set.insert_sdiff_self_of_notMem hfd]
    exact fun heq => hk (Or.inl heq)
  cases h with
  | unchecked hopens hsame htime =>
    exact .unchecked (hopens.close_new hfd) ((hdisk _).trans hsame) ((hclock _).trans htime)
  | kept hpos hnew hopens hnames =>
    have hclosed := hopens.close (k := fd) (Or.inr (Or.inl rfl))
    rw [swap hnew] at hclosed
    refine .kept hpos (fun hmem => hnew (Or.inr hmem)) hclosed ?_
    rw [← hnames]
    exact congrArg Fs.names (congrArg Logged.now (hdisk _))
  | refused hopens => exact .refused (hopens.close_new hfd)
  | lost hnew hopens =>
    have hclosed := hopens.close (k := fd) (Or.inr (Or.inl rfl))
    rw [swap hnew] at hclosed
    exact .lost (fun hmem => hnew (Or.inr hmem)) hclosed

/-- The state in which a file of the check is opened: descriptor 0 is taken. -/
structure Midway (os : Os) (A : Set ℤ) (openings : ℕ) (os₁ : Os) : Prop where
  opens : os.Opens A os₁
  disk : os₁.disk = os.disk
  clock : os₁.clock = os.clock + openings
  zero : (os₁.fds.get 0).isSome

theorem Midway.keeps {n : ℕ} {os₂ : Os} (h : Midway os A n os₁) (hk : os₁.Keeps os₂)
    (hdisk : os₂.disk = os₁.disk) (hclock : os₂.clock = os₁.clock) : Midway os A n os₂ :=
  ⟨h.opens.keeps hk, hdisk.trans h.disk, hclock.trans h.clock, by rw [hk.isSome]; exact h.zero⟩

theorem Midway.lowestFree_pos {n : ℕ} (h : Midway os A n os₁) : (0 : ℤ) < os₁.fds.lowestFree := by
  have hfree : os₁.fds.get os₁.fds.lowestFree = none := FdTable.get_lowestFree
  rcases Nat.eq_zero_or_pos os₁.fds.lowestFree with hzero | hpos
  · rw [hzero, Nat.cast_zero] at hfree
    have hsome := h.zero
    rw [hfree] at hsome
    cases hsome
  · exact_mod_cast hpos

theorem midway_opened {n : ℕ} {os₂ : Os} {f : OpenFile} (hopens : os.Opens A os₁)
    (hclock : os₁.clock = os.clock + n) (hdisk₁ : os₁.disk = os.disk) (hdisk : os₂.disk = os₁.disk)
    (htime : os₂.clock = os₁.clock + 1)
    (hget : os₂.fds.get = Function.update os₁.fds.get os₁.fds.lowestFree (some f)) :
    (os₁.fds.lowestFree : ℤ) ∉ A ∧
      Midway os (insert (os₁.fds.lowestFree : ℤ) A) (n + 1) os₂ := by
  have hfree : os₁.fds.get os₁.fds.lowestFree = none := FdTable.get_lowestFree
  refine ⟨(hopens.free hfree).2, hopens.install hfree hget, hdisk.trans hdisk₁, by omega, ?_⟩
  rw [hget, Function.update_apply]
  split
  · rfl
  · have hpos : 0 < os₁.fds.lowestFree := by omega
    exact FdTable.mem_used.mp (FdTable.mem_used_of_lt_lowestFree hpos)

end Ends

section Clock

theorem Os.lseek_clock (fd offset : ℤ) (whence : Whence) (os : Os) :
    (os.lseek fd offset whence).2.clock = os.clock := by
  unfold lseek
  split
  · rfl
  · dsimp only
    split <;> split <;> rfl

theorem Os.read_clock (fd : ℤ) (count : ℕ) (os : Os) : (os.read fd count).2.clock = os.clock := by
  unfold read
  split
  · rfl
  · split <;> rfl

theorem readChunks_clock (fd : ℤ) (count n : ℕ) (os : Os) :
    (readChunks fd count n os).2.clock = os.clock := by
  induction n generalizing os with
  | zero => rfl
  | succ n ih =>
    have hread := Os.read_clock fd count os
    unfold readChunks
    split
    · rename_i b bs os₁ heq
      rw [heq] at hread
      exact (ih os₁).trans hread
    · rename_i os₁ _ heq
      rw [heq] at hread
      exact hread

theorem pclCalcCrc32Csum_clock (fd : ℤ) (os : Os) :
    (pclCalcCrc32Csum fd os).2.clock = os.clock := by
  unfold pclCalcCrc32Csum
  split
  · rfl
  · dsimp only
    rw [Os.lseek_clock, readChunks_clock]
    split
    · rw [Os.lseek_clock, Os.lseek_clock]
    · rw [Os.lseek_clock]

theorem Os.sendfile_names (env : Env) (outFd inFd : ℤ) (count : ℕ) (os : Os) :
    (os.sendfile env outFd inFd count).2.fs.names = os.fs.names := by
  have htransfer : ∀ (fault : Option Fault) (f : OpenFile) (b : Bytes) (os : Os),
      (os.transfer fault outFd f b).2.fs.names = os.fs.names := by
    intro fault f b os
    unfold transfer
    split <;> rfl
  unfold sendfile
  split
  · split
    · dsimp only
      split
      · exact htransfer _ _ _ os.tick
      · exact htransfer _ _ _ os.tick
    · rfl
  · rfl

theorem pclBackupDoFileCopy_names (env : Env) (srcFd dstFd : ℤ) (os : Os) :
    (pclBackupDoFileCopy env srcFd dstFd os).2.fs.names = os.fs.names := by
  unfold pclBackupDoFileCopy
  split
  · rfl
  · rename_i stSize _
    have hdisk := (Os.lseek_frame dstFd 0 .set (os.sendfile env dstFd srcFd stSize).2).1
    rw [← Os.sendfile_names env dstFd srcFd stSize os]
    exact congrArg Fs.names (congrArg Logged.now hdisk)

end Clock

section Functions

variable {os os₁ : Os} {A : Set ℤ} {env : Env} {origPath path : CStr} {flags : OpenFlags} {n : ℕ}

theorem openChecked_ends {check : ℤ → Os → ℤ × Os} {c : Bytes} {outcome : CheckOutcome}
    (hopens : os.Opens A os₁) (hdisk : os₁.disk = os.disk) (hclock : os₁.clock = os.clock + n)
    (hc : os.content path = some c)
    (hcheck : ∀ fd os₂ i, os₂.fds.get fd = some ⟨i, path, 0, true, false, true⟩ →
      os₂.fs.data i = c → Midway os (insert fd A) (n + 1) os₂ →
      Ends os (insert fd A) outcome (check fd os₂)) :
    Ends os A (if env.admits (os.clock + n) path then outcome else .refused)
      (openChecked env path check os₁) := by
  rw [← hclock]
  unfold openChecked
  have hfs : os₁.fs = os.fs := congrArg Logged.now hdisk
  cases hadmits : env.admits os₁.clock path with
  | false =>
    obtain ⟨e, -, heq⟩ := Env.openPath_refuses oRdonly hadmits
    simp only [heq, ne_eq, not_true_eq_false, if_false, Bool.false_eq_true]
    exact .refused (hopens.keeps (Os.Same.keeps ⟨rfl, rfl⟩))
  | true =>
    have hcan : os₁.CanOpen env os₁.clock path := by
      refine ⟨?_, hadmits⟩
      rw [Os.content, hfs]
      exact Option.isSome_iff_exists.mpr ⟨c, hc⟩
    obtain ⟨os₂, i, heq, hdisk₂, htime, hi, hget⟩ := hcan.openPath oRdonly rfl
    obtain ⟨hnew, hmid⟩ := midway_opened hopens hclock hdisk hdisk₂ htime hget
    have hne : (os₁.fds.lowestFree : ℤ) ≠ -1 := by omega
    have hdata : os₂.fs.data i = c := by
      rw [show os₂.fs = os₁.fs from congrArg Logged.now hdisk₂]
      rw [Os.content, ← hfs, Fs.content_of_names hi] at hc
      exact Option.some.inj hc
    simp only [heq, hne, ne_eq, not_false_eq_true, if_true]
    exact (hcheck _ os₂ i (by rw [hget, Function.update_self]; rfl) hdata hmid).close hnew

theorem compare_ends (env : Env) (origPath : CStr) (hplain : flags.Plain)
    (h : Midway os A n os₁) (sums : List Bytes) (mismatch : CheckOutcome) (drop : ℤ → Os → Os)
    (hdrop : ∀ fd os₂, fd ∉ A → os.Opens (insert fd A) os₂ →
      Ends os A mismatch (-1, drop fd os₂)) :
    Ends os A (compareOutcome env origPath flags.read os (os.clock + n) sums mismatch)
      (let (handle, os) := os₁.openPath env origPath flags
      if handle ≠ -1 then
        let (origCsum, os) := pclCalcCrc32Csum handle os
        if origCsum ∈ sums then (handle, os) else (-1, drop handle os)
      else (handle, os)) := by
  have hfs : os₁.fs = os.fs := congrArg Logged.now h.disk
  have hiff : os.CanOpen env (os.clock + n) origPath ↔ os₁.CanOpen env os₁.clock origPath := by
    rw [h.clock, Os.canOpen_of_disk h.disk]
  unfold compareOutcome
  simp only [hiff]
  by_cases hcan : os₁.CanOpen env os₁.clock origPath
  · obtain ⟨os₂, i, heq, hdisk₂, htime, hi, hget⟩ := hcan.openPath flags hplain.2
    have hfree : os₁.fds.get os₁.fds.lowestFree = none := FdTable.get_lowestFree
    have hnew := (h.opens.free hfree).2
    have hopens := h.opens.install hfree hget
    have hf : os₂.fds.get os₁.fds.lowestFree =
        some ⟨i, origPath, 0, flags.read, flags.write, true⟩ := by rw [hget, Function.update_self]
    obtain ⟨os₃, hcsum, hsame⟩ := pclCalcCrc32Csum_open hf
    have hfs₂ : os₂.fs = os.fs := (congrArg Logged.now hdisk₂).trans hfs
    have hne : (os₁.fds.lowestFree : ℤ) ≠ -1 := by omega
    have hcontent : os.content origPath = some (os.fs.data i) := by
      rw [Os.content, ← hfs, Fs.content_of_names hi]
    have hjudge : judgeOrig flags.read (os.content origPath) sums = .keep ↔
        seen flags.read (os.fs.data i) ∈ sums := by
      rw [hcontent]
      unfold judgeOrig
      dsimp only
      split <;> simp [*]
    have hkeeps := hopens.keeps hsame.keeps
    simp only [heq, hne, ne_eq, not_false_eq_true, if_true, hcan, hjudge, hcsum, hfs₂]
    split
    · refine .kept h.lowestFree_pos hnew hkeeps ?_
      rw [hsame.fs, hfs₂]
    · exact hdrop _ os₃ hnew hkeeps
  · obtain ⟨os₂, heq, hsame, -, -⟩ := Os.openPath_cannot flags hcan hplain.1
    simp only [heq, ne_eq, not_true_eq_false, if_false, hcan]
    exact .refused (h.opens.keeps hsame.keeps)

theorem keepIfMatching_ends (hplain : flags.Plain) (h : Midway os A n os₁) (csum : Bytes) :
    Ends os A (compareOutcome env origPath flags.read os (os.clock + n) [csum] .lost)
      (keepIfMatching env origPath flags csum os₁) := by
  have heq : keepIfMatching env origPath flags csum os₁ =
      (let (handle, os) := os₁.openPath env origPath flags
      if handle ≠ -1 then
        let (origCsum, os) := pclCalcCrc32Csum handle os
        if origCsum ∈ [csum] then (handle, os) else (-1, (os.close (-1)).2)
      else (handle, os)) := by
    simp only [keepIfMatching, List.mem_singleton, eq_comm (a := csum), ite_not]
  rw [heq]
  exact compare_ends env origPath hplain h [csum] .lost (fun _ os => (os.close (-1)).2)
    fun fd os₂ hnew hopens => .lost hnew (hopens.close_negative neg_one_lt_zero)

theorem pclRecoverFromBackup_ends (h : Midway os A n os₁) (fd : ℤ) :
    Ends os A (if os.CanOpen env (os.clock + n) origPath then .kept else .refused)
      (pclRecoverFromBackup env fd origPath os₁) := by
  have hfs : os₁.fs = os.fs := congrArg Logged.now h.disk
  have hiff : os.CanOpen env (os.clock + n) origPath ↔ os₁.CanOpen env os₁.clock origPath := by
    rw [h.clock, Os.canOpen_of_disk h.disk]
  simp only [hiff]
  unfold pclRecoverFromBackup
  split
  · rename_i hcan
    obtain ⟨c, hcontent⟩ := Option.isSome_iff_exists.mp hcan.1
    obtain ⟨i, hi, -⟩ := Fs.content_eq_some.mp hcontent
    have hfree : os₁.fds.get os₁.fds.lowestFree = none := FdTable.get_lowestFree
    obtain ⟨os₂, heq, hnames, hget⟩ : ∃ os₂,
        os₁.openPath env origPath { oRdwr with trunc := true } =
          ((os₁.fds.lowestFree : ℤ), os₂) ∧ os₂.fs.names = os₁.fs.names ∧
        os₂.fds.get = Function.update os₁.fds.get os₁.fds.lowestFree
          (some ⟨i, origPath, 0, true, true, true⟩) := by
      have hi' : os₁.tick.fs.names (resolve origPath) = some i := hi
      rw [Env.openPath_admits hcan.2, Os.openFile, hi']
      exact ⟨_, rfl, rfl, rfl⟩
    have hne : (os₁.fds.lowestFree : ℤ) ≠ -1 := by omega
    simp only [heq, hne, ne_eq, not_false_eq_true, if_true]
    refine .kept h.lowestFree_pos (h.opens.free hfree).2
      ((h.opens.install hfree hget).keeps (pclBackupDoFileCopy_keeps env fd _ os₂)) ?_
    rw [pclBackupDoFileCopy_names, hnames, hfs]
  · rename_i hcannot
    obtain ⟨os₂, heq, hsame, -, -⟩ :=
      Os.openPath_cannot { oRdwr with trunc := true } hcannot rfl
    simp only [heq, ne_eq, not_true_eq_false, if_false]
    exact .refused (h.opens.keeps hsame.keeps)

theorem readCsum_midway {fd : ℤ} {i : ℕ} (h : Midway os A n os₁)
    (hfd : os₁.fds.get fd = some ⟨i, path, 0, true, false, true⟩) :
    ∃ os₂, readCsum fd os₁ = ((os₁.fs.data i).take checksumBufSize, os₂) ∧
      Midway os A n os₂ := by
  obtain ⟨os₂, k, heq, hdisk, -⟩ := readCsum_open hfd rfl rfl
  have hkeeps := readCsum_keeps fd os₁
  have hclock := Os.read_clock fd checksumBufSize os₁
  have hclock₂ : (readCsum fd os₁).2.clock = os₁.clock := hclock
  rw [heq] at hkeeps hclock₂
  exact ⟨os₂, heq, h.keeps hkeeps hdisk hclock₂⟩

theorem pclCalcCrc32Csum_midway {fd : ℤ} {i : ℕ} (h : Midway os A n os₁)
    (hfd : os₁.fds.get fd = some ⟨i, path, 0, true, false, true⟩) :
    ∃ os₂, pclCalcCrc32Csum fd os₁ = (csumOf (os₁.fs.data i), os₂) ∧ Midway os A n os₂ ∧
      os₂.fds.get = os₁.fds.get ∧ os₂.fs = os₁.fs := by
  obtain ⟨os₂, heq, hsame⟩ := pclCalcCrc32Csum_open hfd
  have hclock := pclCalcCrc32Csum_clock fd os₁
  rw [heq] at hclock
  exact ⟨os₂, heq, h.keeps hsame.keeps hsame.disk hclock, hsame.get, hsame.fs⟩

end Functions

section Verify

variable {os : Os} {env : Env} {origPath backupPath csumPath : CStr} {flags : OpenFlags}
  {b c : Bytes}

theorem verifyCsumOnly_ends (hplain : flags.Plain) (hc : os.content csumPath = some c) :
    Ends os ∅ (if env.admits os.clock csumPath then
        compareOutcome env origPath flags.read os (os.clock + 1) [csumText c] .lost
      else .refused) (verifyCsumOnly env origPath csumPath flags os) := by
  rw [verifyCsumOnly_eq]
  refine openChecked_ends (n := 0) (.refl os) rfl rfl hc fun fd os₂ i hfd hdata hmid => ?_
  obtain ⟨os₃, heq, hmid₃⟩ := readCsum_midway hmid hfd
  rw [hdata] at heq
  unfold checkCsum
  rw [heq]
  exact keepIfMatching_ends hplain hmid₃ _

theorem verifyBackupOnly_ends (hplain : flags.Plain) (hb : os.content backupPath = some b) :
    Ends os ∅ (if env.admits os.clock backupPath then
        compareOutcome env origPath flags.read os (os.clock + 1) [csumOf b] .lost
      else .refused) (verifyBackupOnly env origPath backupPath flags os) := by
  rw [verifyBackupOnly_eq]
  refine openChecked_ends (n := 0) (.refl os) rfl rfl hb fun fd os₂ i hfd hdata hmid => ?_
  obtain ⟨os₃, heq, hmid₃, -, -⟩ := pclCalcCrc32Csum_midway hmid hfd
  rw [hdata] at heq
  unfold checkBackup
  rw [heq]
  exact keepIfMatching_ends hplain hmid₃ _

/-- With both side files open the original is restored, compared or left alone. -/
theorem judgeBoth_ends {A : Set ℤ} {os₁ : Os} (hplain : flags.Plain) (h : Midway os A 2 os₁)
    (fdBackup : ℤ) {fdCsum : ℤ} {i : ℕ}
    (hfd : os₁.fds.get fdCsum = some ⟨i, csumPath, 0, true, false, true⟩)
    (hdata : os₁.fs.data i = c) :
    Ends os A (if c = [] then .unchecked 2
      else if csumText c = csumOf b then
        if os.CanOpen env (os.clock + 2) origPath then .kept else .refused
      else compareOutcome env origPath flags.read os (os.clock + 2)
        [csumText c, csumOf b] .refused)
      (judgeBoth env origPath flags fdBackup (csumOf b) fdCsum os₁) := by
  obtain ⟨os₂, heq, hmid⟩ := readCsum_midway h hfd
  rw [hdata] at heq
  have hchunk : c.take checksumBufSize = [] ↔ c = [] := by simp [checksumBufSize]
  have htext : textOf (c.take checksumBufSize) = csumText c := rfl
  unfold judgeBoth
  simp only [heq, ne_eq, hchunk, htext]
  by_cases hnil : c = []
  · simp only [hnil, not_true_eq_false, if_false, if_true]
    exact .unchecked hmid.opens hmid.disk hmid.clock
  · simp only [hnil, not_false_eq_true, if_true, if_false]
    split
    · exact pclRecoverFromBackup_ends hmid fdBackup
    · have hiff : ∀ o, (csumText c ≠ o ∧ csumOf b ≠ o) ↔ ¬ o ∈ [csumText c, csumOf b] := by
        intro o
        simp [eq_comm]
      simp only [← ne_eq, hiff, ite_not]
      have hcompare := compare_ends env origPath hplain hmid
        [csumText c, csumOf b] .refused (fun fd os => (os.close fd).2)
        fun fd os₂ hnew hopens => .refused (hopens.close_new hnew)
      simp only [ne_eq, ite_not] at hcompare
      exact hcompare

theorem verifyBackupAndCsum_ends (hplain : flags.Plain) (hb : os.content backupPath = some b)
    (hc : os.content csumPath = some c) :
    Ends os ∅ (if env.admits os.clock backupPath ∧ env.admits (os.clock + 1) csumPath then
        if c = [] then .unchecked 2
        else if csumText c = csumOf b then
          if os.CanOpen env (os.clock + 2) origPath then .kept else .refused
        else compareOutcome env origPath flags.read os (os.clock + 2)
          [csumText c, csumOf b] .refused
      else .refused) (verifyBackupAndCsum env origPath backupPath csumPath flags os) := by
  rw [verifyBackupAndCsum_eq, ite_and]
  refine openChecked_ends (n := 0) (.refl os) rfl rfl hb fun fd os₂ i hfd hdata hmid => ?_
  obtain ⟨os₃, heq, hmid₃, -, -⟩ := pclCalcCrc32Csum_midway hmid hfd
  rw [hdata] at heq
  unfold checkBoth
  rw [heq]
  refine openChecked_ends (n := 1) hmid₃.opens hmid₃.disk hmid₃.clock hc
    fun fdCsum os₄ j hfdCsum hdata₄ hmid₄ => ?_
  exact judgeBoth_ends hplain hmid₄ fd hfdCsum hdata₄

/-- How `pclVerifyConsistency` ends, whatever the faults and whatever the three
files hold. -/
theorem pclVerifyConsistency_ends (env : Env) (origPath backupPath csumPath : CStr)
    (hplain : flags.Plain) (os : Os) :
    Ends os ∅ (checkOutcome env origPath backupPath csumPath flags.read os)
      (pclVerifyConsistency env origPath backupPath csumPath flags os) := by
  have hcheck : Ends os ∅ (checkOutcome env origPath backupPath csumPath flags.read os)
      (if os.access backupPath = 0 ∧ os.access csumPath = 0 then
        verifyBackupAndCsum env origPath backupPath csumPath flags os
      else if os.access csumPath = 0 then verifyCsumOnly env origPath csumPath flags os
      else if os.access backupPath = 0 then verifyBackupOnly env origPath backupPath flags os
      else (0, os)) := by
    simp only [Os.access_eq_zero]
    unfold checkOutcome
    cases hb : os.content backupPath with
    | none =>
      cases hc : os.content csumPath with
      | none =>
        simp only [ne_eq, not_true_eq_false, and_self, if_false]
        exact .unchecked (.refl os) rfl rfl
      | some c =>
        simp only [ne_eq, not_true_eq_false, false_and, if_false, reduceCtorEq, not_false_eq_true,
          if_true]
        exact verifyCsumOnly_ends hplain hc
    | some b =>
      cases hc : os.content csumPath with
      | none =>
        simp only [ne_eq, not_true_eq_false, and_false, if_false, reduceCtorEq, not_false_eq_true,
          if_true]
        exact verifyBackupOnly_ends hplain hb
      | some c =>
        simp only [ne_eq, reduceCtorEq, not_false_eq_true, and_self, if_true]
        exact verifyBackupAndCsum_ends hplain hb hc
  have removed : ∀ os' : Os, os'.Keeps
      (((os'.remove origPath).2.remove backupPath).2.remove csumPath).2 := fun os' =>
    ((remove_keeps origPath os').trans (remove_keeps backupPath _)).trans (remove_keeps csumPath _)
  unfold pclVerifyConsistency
  extract_lets
  generalize (if os.access backupPath = 0 ∧ os.access csumPath = 0 then
    verifyBackupAndCsum env origPath backupPath csumPath flags os
    else if os.access csumPath = 0 then verifyCsumOnly env origPath csumPath flags os
    else if os.access backupPath = 0 then verifyBackupOnly env origPath backupPath flags os
    else (0, os)) = r at hcheck
  generalize checkOutcome env origPath backupPath csumPath flags.read os = outcome at hcheck
  cases hcheck with
  | unchecked hopens hdisk hclock => exact .unchecked hopens hdisk hclock
  | kept hpos hnew hopens hnames =>
    dsimp only
    rw [if_neg (by omega)]
    exact .kept hpos hnew hopens hnames
  | refused hopens => exact .refused (hopens.keeps (removed _))
  | lost hnew hopens => exact .lost hnew (hopens.keeps (removed _))

end Verify

end PersClient.File
