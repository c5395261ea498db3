import PersClient.File.Calls
import PersClient.File.Names

/-! # The verdict on three files

`pclVerifyConsistency` looks at a resource's file, its backup and its checksum
file. What it does is a verdict on their contents: nothing is checked, the file
is kept, it is restored from the backup, or all three are removed.
-/

namespace PersClient.File

open Crash

section Judge

structure Trio where
  orig : Option Bytes
  backup : Option Bytes
  csum : Option Bytes
  deriving DecidableEq

def FileNames.trio {com : CommonObject} (n : FileNames com) (fs : Fs) : Trio :=
  ⟨fs.content (resolve n.orig), fs.content (resolve n.backup), fs.content (resolve n.csum)⟩

inductive Verdict
  | unchecked
  | keep
  | restore (backup : Bytes)
  | corrupt
  deriving DecidableEq

/-- The content of the file after a verdict that is not corrupt. -/
def Verdict.content (orig : Option Bytes) : Verdict → Option Bytes
  | .restore b => some b
  | _ => orig

/-- The checksum string the library reads from a checksum file. -/
def csumText (c : Bytes) : Bytes := textOf (c.take checksumBufSize)

def judgeOrig (readable : Bool) (orig : Option Bytes) (sums : List Bytes) : Verdict :=
  match orig with
  | some o => if seen readable o ∈ sums then .keep else .corrupt
  | none => .corrupt

def judge (readable : Bool) : Trio → Verdict
  | ⟨orig, some b, some c⟩ =>
    if c = [] then .unchecked
    else if csumText c = csumOf b then
      match orig with
      | some _ => .restore b
      | none => .corrupt
    else judgeOrig readable orig [csumText c, csumOf b]
  | ⟨orig, none, some c⟩ => judgeOrig readable orig [csumText c]
  | ⟨orig, some b, none⟩ => judgeOrig readable orig [csumOf b]
  | ⟨_, none, none⟩ => .unchecked

theorem judgeOrig_cases (readable : Bool) (orig : Option Bytes) (sums : List Bytes) :
    judgeOrig readable orig sums = .keep ∨ judgeOrig readable orig sums = .corrupt := by
  unfold judgeOrig
  split
  · split
    · exact Or.inl rfl
    · exact Or.inr rfl
  · exact Or.inr rfl

variable {t : Trio} {b c : Bytes} (readable : Bool)

theorem judge_both (hb : t.backup = some b) (hc : t.csum = some c) :
    judge readable t =
      if c = [] then .unchecked
      else if csumText c = csumOf b then
        match t.orig with
        | some _ => .restore b
        | none => .corrupt
      else judgeOrig readable t.orig [csumText c, csumOf b] := by
  obtain ⟨orig, backup, csum⟩ := t
  subst hb hc
  rfl

theorem judge_csum (hb : t.backup = none) (hc : t.csum = some c) :
    judge readable t = judgeOrig readable t.orig [csumText c] := by
  obtain ⟨orig, backup, csum⟩ := t
  subst hb hc
  rfl

theorem judge_backup (hb : t.backup = some b) (hc : t.csum = none) :
    judge readable t = judgeOrig readable t.orig [csumOf b] := by
  obtain ⟨orig, backup, csum⟩ := t
  subst hb hc
  rfl

theorem judge_none (hb : t.backup = none) (hc : t.csum = none) :
    judge readable t = .unchecked := by
  obtain ⟨orig, backup, csum⟩ := t
  subst hb hc
  rfl

theorem judge_missing (ho : t.orig = none) :
    judge readable t = .unchecked ∨ judge readable t = .corrupt := by
  obtain ⟨orig, backup | b, csum | c⟩ := t <;> subst ho
  · exact Or.inl rfl
  · exact Or.inr rfl
  · exact Or.inr rfl
  · rw [judge_both readable rfl rfl]
    split
    · exact Or.inl rfl
    · split <;> exact Or.inr rfl

variable {readable}

theorem judge_unchecked (h : judge readable t = .unchecked)
    (x : Option Bytes) : judge readable { t with orig := x } = .unchecked := by
  have notOrig : ∀ o sums, judgeOrig readable o sums ≠ .unchecked := by
    intro o sums
    rcases judgeOrig_cases readable o sums with heq | heq <;> simp [heq]
  obtain ⟨orig, backup | b, csum | c⟩ := t
  · rfl
  · exact absurd h (notOrig _ _)
  · exact absurd h (notOrig _ _)
  · rw [judge_both readable rfl rfl] at h ⊢
    split at h
    · rename_i hc
      rw [if_pos hc]
    · split at h
      · dsimp only at h
        split at h <;> cases h
      · exact absurd h (notOrig _ _)

theorem judge_restore {b : Bytes}
    (h : judge readable t = .restore b) (o : Bytes) :
    judge readable { t with orig := some o } = .restore b := by
  have notOrig : ∀ o sums, judgeOrig readable o sums ≠ .restore b := by
    intro o sums
    rcases judgeOrig_cases readable o sums with heq | heq <;> simp [heq]
  obtain ⟨orig, backup | b', csum | c⟩ := t
  · cases h
  · exact absurd h (notOrig _ _)
  · exact absurd h (notOrig _ _)
  · rw [judge_both readable rfl rfl] at h ⊢
    split at h
    · cases h
    · rename_i hc
      split at h
      · rename_i htext
        rw [if_neg hc, if_pos htext]
        dsimp only at h ⊢
        split at h
        · exact h
        · cases h
      · exact absurd h (notOrig _ _)

/-- Opened again, the three files give this content. -/
def Restores (readable : Bool) (t : Trio) (C : Bytes) : Prop :=
  judge readable t ≠ .corrupt ∧ (judge readable t).content t.orig = some C

theorem Restores.settled {C : Bytes} (h : Restores readable t C) :
    Restores readable { t with orig := some C } C := by
  obtain ⟨hv, hC⟩ := h
  unfold Restores
  cases hj : judge readable t with
  | unchecked =>
    rw [judge_unchecked hj]
    exact ⟨nofun, rfl⟩
  | keep =>
    rw [hj] at hC
    have hC : t.orig = some C := hC
    have ht : { t with orig := some C } = t := by rw [← hC]
    rw [ht, hj]
    exact ⟨nofun, hC⟩
  | restore b =>
    rw [hj] at hC
    rw [judge_restore hj]
    exact ⟨nofun, hC⟩
  | corrupt => exact absurd hj hv

theorem judgeOrig_gives {orig : Option Bytes} {sums : List Bytes} {C : Bytes} :
    (judgeOrig readable orig sums ≠ .corrupt ∧
      (judgeOrig readable orig sums).content orig = some C) ↔
      orig = some C ∧ seen readable C ∈ sums := by
  cases orig with
  | none => simp [judgeOrig]
  | some o =>
    unfold judgeOrig
    by_cases ho : o = C
    · subst ho
      by_cases hm : seen readable o ∈ sums <;> simp [hm, Verdict.content]
    · by_cases hm : seen readable o ∈ sums <;> simp [hm, Verdict.content, ho]

theorem restores_none {C : Bytes} (hb : t.backup = none) (hc : t.csum = none) :
    Restores readable t C ↔ t.orig = some C := by
  rw [Restores, judge_none readable hb hc]
  simp [Verdict.content]

theorem restores_csum {s C : Bytes} (hb : t.backup = none) (hs : t.csum = some s) :
    Restores readable t C ↔ t.orig = some C ∧ csumText s = seen readable C := by
  rw [Restores, judge_csum readable hb hs, judgeOrig_gives, List.mem_singleton, eq_comm (b := csumText s)]

theorem restores_backup {b C : Bytes} (hb : t.backup = some b) (hs : t.csum = none) :
    Restores readable t C ↔ t.orig = some C ∧ csumOf b = seen readable C := by
  rw [Restores, judge_backup readable hb hs, judgeOrig_gives, List.mem_singleton, eq_comm (b := csumOf b)]

theorem restores_both {b s C : Bytes} (hb : t.backup = some b) (hs : t.csum = some s)
    (ho : t.orig ≠ none) : Restores readable t C ↔
      if s = [] then t.orig = some C
      else if csumText s = csumOf b then b = C
      else t.orig = some C ∧ (csumText s = seen readable C ∨ csumOf b = seen readable C) := by
  obtain ⟨o, ho⟩ := Option.ne_none_iff_exists'.mp ho
  rw [Restores, judge_both readable hb hs, ho]
  split
  · simp [Verdict.content]
  · split
    · simp [Verdict.content]
    · rw [judgeOrig_gives]
      simp [eq_comm]

end Judge

section Outcome

variable {com : CommonObject}

/-- The original stands open, alone among the descriptors that are new. -/
structure Reopened (n : FileNames com) (read write : Bool) (k : ℕ) (os : Os) (handle : ℤ)
    (os' : Os) (f : OpenFile) : Prop where
  ino : os'.fs.names (resolve n.orig) = some f.ino
  same : os.fs.names (resolve n.orig) = some f.ino
  path : f.path = n.orig
  offset : f.offset = 0
  readable : f.readable = read
  writable : f.writable = write
  fresh : os.fds.get handle = none
  nonneg : 0 ≤ handle
  le : handle ≤ os.fds.used.card + k
  get : os'.fds.get = Function.update os.fds.get handle (some f)

/-- What a verdict means, up to `k` descriptors being open besides. -/
def Judged (n : FileNames com) (flags : OpenFlags) (k : ℕ) (os : Os) (handle : ℤ) (os' : Os) :
    Verdict → Prop
  | .unchecked => handle = 0 ∧ os.Same os'
  | .keep => os'.disk = os.disk ∧ ∃ f, Reopened n flags.read flags.write k os handle os' f
  | .restore b => (∃ os₁, os.Sets (resolve n.orig) (some []) os₁ ∧
      os₁.Sets (resolve n.orig) (some b) os') ∧ ∃ f, Reopened n true true k os handle os' f
  | .corrupt => handle = -1 ∧ os'.disk = os.disk

variable {n : FileNames com} {flags : OpenFlags} {k : ℕ} {os os₁ os' : Os} {h handle : ℤ}
  {f : OpenFile} {v : Verdict}

theorem update_shed {get : ℤ → Option OpenFile} (hfree : get h = none) (hne : handle ≠ h)
    (a b : Option OpenFile) :
    Function.update (Function.update (Function.update get h a) handle b) h none =
      Function.update get handle b := by
  rw [Function.update_comm hne, Function.update_idem, ← hfree, Function.update_eq_self]

theorem Reopened.close {r w : Bool} {g : OpenFile} {m : ℕ} (hm : h = m) (hfs₁ : os₁.fs = os.fs)
    (hfree : os.fds.get h = none)
    (hget : os₁.fds.get = Function.update os.fds.get h (some g))
    (hre : Reopened n r w k os₁ handle os' f) :
    (os'.close h).2.disk = os'.disk ∧ Reopened n r w (k + 1) os handle (os'.close h).2 f := by
  have hne : handle ≠ h := by
    rintro rfl
    have := hre.fresh
    rw [hget, Function.update_self] at this
    cases this
  have hh : os'.fds.get h = some g := by
    rw [hre.get, Function.update_of_ne hne.symm, hget, Function.update_self]
  obtain ⟨os'', heq, hdisk, hclosed⟩ := Os.close_open hh
  have hfs : os''.fs = os'.fs := congrArg Logged.now hdisk
  have hcard := FdTable.card_used_update (n := m) (by rw [← hm]; exact hget)
  rw [heq]
  refine ⟨hdisk, ⟨by rw [hfs]; exact hre.ino, by rw [← hfs₁]; exact hre.same, hre.path, hre.offset,
    hre.readable, hre.writable, ?_, hre.nonneg, ?_, ?_⟩⟩
  · have := hre.fresh
    rwa [hget, Function.update_of_ne hne] at this
  · have := hre.le
    push_cast
    omega
  · rw [hclosed, hre.get, hget, update_shed hfree hne]

theorem Judged.close {g : OpenFile} {m : ℕ} (hm : h = m) (hdisk : os₁.disk = os.disk)
    (hfree : os.fds.get h = none)
    (hget : os₁.fds.get = Function.update os.fds.get h (some g))
    (hj : Judged n flags k os₁ handle os' v) : Judged n flags (k + 1) os handle (os'.close h).2 v := by
  cases v with
  | unchecked =>
    obtain ⟨rfl, hsame⟩ := hj
    have hh : os'.fds.get h = some g := by rw [hsame.get, hget, Function.update_self]
    obtain ⟨os'', heq, hdisk', hclosed⟩ := Os.close_open hh
    rw [heq]
    refine ⟨rfl, hdisk'.trans (hsame.disk.trans hdisk), ?_⟩
    rw [hclosed, hsame.get, hget, Function.update_idem, ← hfree, Function.update_eq_self]
  | keep =>
    obtain ⟨hkept, f, hre⟩ := hj
    obtain ⟨hdisk', hre⟩ := hre.close hm (congrArg Logged.now hdisk) hfree hget
    exact ⟨hdisk'.trans (hkept.trans hdisk), f, hre⟩
  | restore b =>
    obtain ⟨⟨os₂, hempty, hfull⟩, f, hre⟩ := hj
    obtain ⟨hdisk', hre⟩ := hre.close hm (congrArg Logged.now hdisk) hfree hget
    exact ⟨⟨os₂, hempty.of_same hdisk, hfull.trans_same hdisk'⟩, f, hre⟩
  | corrupt =>
    obtain ⟨rfl, hsame⟩ := hj
    exact ⟨rfl, (Os.close_disk h os').trans (hsame.trans hdisk)⟩

theorem Judged.mono {m : ℕ} (hkm : k ≤ m) (hj : Judged n flags k os handle os' v) :
    Judged n flags m os handle os' v := by
  have weaken : ∀ {r w f}, Reopened n r w k os handle os' f → Reopened n r w m os handle os' f :=
    fun hre => { hre with le := hre.le.trans (by omega) }
  cases v with
  | unchecked => exact hj
  | keep =>
    obtain ⟨hdisk, f, hre⟩ := hj
    exact ⟨hdisk, f, weaken hre⟩
  | restore b =>
    obtain ⟨hsets, f, hre⟩ := hj
    exact ⟨hsets, f, weaken hre⟩
  | corrupt => exact hj

theorem Judged.eq_neg_one_iff (hj : Judged n flags k os handle os' v) :
    handle = -1 ↔ v = .corrupt := by
  cases v with
  | unchecked =>
    obtain ⟨rfl, -⟩ := hj
    simp
  | keep =>
    obtain ⟨-, f, hre⟩ := hj
    have := hre.nonneg
    simp
    omega
  | restore b =>
    obtain ⟨-, f, hre⟩ := hj
    have := hre.nonneg
    simp
    omega
  | corrupt => simp [hj.1]

theorem Judged.close_two {h₀ h₁ : ℕ} {g : OpenFile} (hfree₀ : os.fds.get h₀ = none)
    (hfree₁ : os.fds.get h₁ = none) (hne : (h₁ : ℤ) ≠ h₀) (hdisk : os₁.disk = os.disk)
    (hget : os₁.fds.get =
      Function.update (Function.update os.fds.get h₀ (some f)) h₁ (some g))
    (hj : Judged n flags k os₁ handle os' v) :
    Judged n flags (k + 2) os handle ((os'.close h₁).2.close h₀).2 v := by
  have hget₀ : (os.setFile h₀ f).fds.get = Function.update os.fds.get h₀ (some f) :=
    Os.get_setFile (Int.natCast_nonneg h₀)
  have hfree : (os.setFile h₀ f).fds.get h₁ = none := by
    rw [hget₀, Function.update_of_ne hne, hfree₁]
  have inner : Judged n flags (k + 1) (os.setFile h₀ f) handle (os'.close h₁).2 v :=
    hj.close rfl hdisk hfree (by rw [hget₀]; exact hget)
  exact Judged.close rfl (show (os.setFile h₀ f).disk = os.disk from rfl) hfree₀ hget₀ inner

end Outcome

section Functions

variable {com : CommonObject} {n : FileNames com} {flags : OpenFlags} {env : Env} {os : Os}

def OpenFlags.Plain (flags : OpenFlags) : Prop := flags.creat = false ∧ flags.trunc = false

theorem pclGetPosixPermission_plain (permission : PersistencePermission) :
    (pclGetPosixPermission permission).Plain := by
  cases permission <;> exact ⟨rfl, rfl⟩

theorem reopened_open (hplain : flags.Plain) (hq : env.Quiet n.orig) {i : ℕ}
    (hi : os.fs.names (resolve n.orig) = some i) :
    ∃ os' f, os.openPath env n.orig flags = ((os.fds.lowestFree : ℤ), os') ∧
      os'.disk = os.disk ∧ f.ino = i ∧
      Reopened n flags.read flags.write 0 os os.fds.lowestFree os' f := by
  obtain ⟨os', heq, hdisk, hget⟩ := Os.openPath_existing flags hq hi hplain.2
  have hfs : os'.fs = os.fs := congrArg Logged.now hdisk
  refine ⟨os', _, heq, hdisk, rfl, ⟨by rw [hfs]; exact hi, hi, rfl, rfl, rfl, rfl,
    FdTable.get_lowestFree, by omega, ?_, hget⟩⟩
  have := os.fds.lowestFree_le_card
  push_cast
  omega

/-- Open the original and keep it if its checksum string is one of these; a
descriptor that is not kept is dealt with by `drop`. -/
def compareOrig (n : FileNames com) (env : Env) (flags : OpenFlags) (sums : List Bytes)
    (drop : ℤ → Os → Os) (os : Os) : ℤ × Os :=
  let (handle, os) := os.openPath env n.orig flags
  if handle ≠ -1 then
    let (origCsum, os) := pclCalcCrc32Csum handle os
    if origCsum ∈ sums then (handle, os) else (-1, drop handle os)
  else (handle, os)

theorem compareOrig_judged (os : Os) (hplain : flags.Plain) (hq : env.Quiet n.orig) (sums : List Bytes)
    {drop : ℤ → Os → Os} (hdrop : ∀ h os, (drop h os).disk = os.disk) :
    Judged n flags 0 os (compareOrig n env flags sums drop os).1
      (compareOrig n env flags sums drop os).2 (judgeOrig flags.read (n.trio os.fs).orig sums) := by
  cases ho : os.fs.names (resolve n.orig) with
  | none =>
    obtain ⟨os₁, heq, hsame, -⟩ := Os.openPath_missing flags hq ho hplain.1
    have hnone : (n.trio os.fs).orig = none := Fs.content_eq_none.mpr ho
    simp only [compareOrig, heq, ne_eq, not_true_eq_false, if_false, judgeOrig, hnone]
    exact ⟨rfl, hsame.disk⟩
  | some i =>
    obtain ⟨os₁, f, heq, hdisk, rfl, hre⟩ := reopened_open hplain hq ho
    have hf : os₁.fds.get os.fds.lowestFree = some f := by rw [hre.get, Function.update_self]
    obtain ⟨os₂, hcsum, hsame⟩ := pclCalcCrc32Csum_open hf
    have hfs : os₁.fs = os.fs := congrArg Logged.now hdisk
    have hsome : (n.trio os.fs).orig = some (os.fs.data f.ino) := Fs.content_of_names ho
    have hne : (os.fds.lowestFree : ℤ) ≠ -1 := by omega
    rw [hfs, hre.readable] at hcsum
    simp only [compareOrig, heq, hne, ne_eq, not_false_eq_true, if_true, hcsum, judgeOrig, hsome]
    by_cases hm : seen flags.read (os.fs.data f.ino) ∈ sums
    · simp only [hm, if_true]
      exact ⟨hsame.disk.trans hdisk, f, { hre with
        ino := by rw [hsame.fs]; exact hre.ino, get := hsame.get.trans hre.get }⟩
    · simp only [hm, if_false]
      exact ⟨rfl, (hdrop _ _).trans (hsame.disk.trans hdisk)⟩

theorem keepIfMatching_judged (hplain : flags.Plain) (hq : env.Quiet n.orig) (csum : Bytes) :
    Judged n flags 0 os (keepIfMatching env n.orig flags csum os).1
      (keepIfMatching env n.orig flags csum os).2
      (judgeOrig flags.read (n.trio os.fs).orig [csum]) := by
  have heq : keepIfMatching env n.orig flags csum os =
      compareOrig n env flags [csum] (fun _ os => (os.close (-1)).2) os := by
    simp only [keepIfMatching, compareOrig, List.mem_singleton, eq_comm (a := csum), ite_not]
  rw [heq]
  exact compareOrig_judged os hplain hq [csum] fun _ os => Os.close_disk _ os

/-- Opening a side file and reading what it holds, when no fault is met or reported. -/
theorem openPath_rdonly {path : CStr}
    (hq : env.Quiet path ∨ (os.openPath env path oRdonly).1 ≠ -1) {c : Bytes}
    (hc : os.content path = some c) :
    ∃ os' i, os.openPath env path oRdonly = ((os.fds.lowestFree : ℤ), os') ∧
      os'.disk = os.disk ∧ os'.fs.names (resolve path) = some i ∧ os'.fs.data i = c ∧
      os'.fds.get = Function.update os.fds.get os.fds.lowestFree
        (some ⟨i, path, 0, true, false, true⟩) := by
  obtain ⟨i, hi, hdata⟩ := Fs.content_eq_some.mp hc
  have heq : os.openPath env path oRdonly = os.openPath .reliable path oRdonly := by
    rcases hq with hq | hne
    · rw [Os.openPath_quiet hq, Os.openPath_quiet (Env.quiet_reliable path)]
    · rcases Os.openPath_cases env path oRdonly os with ⟨e, hfail⟩ | heq
      · exact absurd (congrArg Prod.fst hfail) hne
      · rw [heq, Os.openPath_quiet (Env.quiet_reliable path)]
  obtain ⟨os', hopen, hdisk, hget⟩ :=
    Os.openPath_existing oRdonly (Env.quiet_reliable path) hi rfl
  have hfs : os'.fs = os.fs := congrArg Logged.now hdisk
  exact ⟨os', i, heq.trans hopen, hdisk, by rw [hfs]; exact hi, by rw [hfs]; exact hdata, hget⟩

theorem readCsum_open {fd : ℤ} {f : OpenFile} (h : os.fds.get fd = some f)
    (hr : f.readable = true) (h0 : f.offset = 0) :
    ∃ os' k, readCsum fd os = ((os.fs.data f.ino).take checksumBufSize, os') ∧
      os'.disk = os.disk ∧
      os'.fds.get = Function.update os.fds.get fd (some { f with offset := k }) := by
  obtain ⟨os', heq, hdisk, hget⟩ := Os.read_readable h hr checksumBufSize
  rw [h0, List.drop_zero] at heq
  exact ⟨os', _, by simp only [readCsum, heq, Option.getD_some], hdisk, hget⟩

theorem verifyCsumOnly_judged (hplain : flags.Plain) (ho : env.Quiet n.orig)
    (hs : env.Quiet n.csum ∨ (verifyCsumOnly env n.orig n.csum flags os).1 ≠ -1) {c : Bytes} (hc : (n.trio os.fs).csum = some c) :
    Judged n flags 1 os (verifyCsumOnly env n.orig n.csum flags os).1
      (verifyCsumOnly env n.orig n.csum flags os).2
      (judgeOrig flags.read (n.trio os.fs).orig [csumText c]) := by
  obtain ⟨os₁, i, hopen, hdisk₁, -, hdata, hget₁⟩ := openPath_rdonly
    (hs.imp_right fun hne hfail => hne (by simp [verifyCsumOnly, hfail])) hc
  have hne : (os.fds.lowestFree : ℤ) ≠ -1 := by omega
  have hf : os₁.fds.get os.fds.lowestFree = some ⟨i, n.csum, 0, true, false, true⟩ := by
    rw [hget₁, Function.update_self]
  obtain ⟨os₂, k, hread, hdisk₂, hget₂⟩ := readCsum_open hf rfl rfl
  rw [hdata] at hread
  have hdisk : os₂.disk = os.disk := hdisk₂.trans hdisk₁
  have hfs : os₂.fs = os.fs := congrArg Logged.now hdisk
  simp only [verifyCsumOnly, hopen, hne, ne_eq, not_false_eq_true, if_true, hread]
  rw [hget₁, Function.update_idem] at hget₂
  refine Judged.close rfl hdisk FdTable.get_lowestFree hget₂ ?_
  rw [← hfs]
  exact keepIfMatching_judged hplain ho _

theorem verifyBackupOnly_judged (hplain : flags.Plain) (ho : env.Quiet n.orig)
    (hb : env.Quiet n.backup ∨ (verifyBackupOnly env n.orig n.backup flags os).1 ≠ -1) {b : Bytes}
    (hbackup : (n.trio os.fs).backup = some b) :
    Judged n flags 1 os (verifyBackupOnly env n.orig n.backup flags os).1
      (verifyBackupOnly env n.orig n.backup flags os).2
      (judgeOrig flags.read (n.trio os.fs).orig [csumOf b]) := by
  obtain ⟨os₁, i, hopen, hdisk₁, -, hdata, hget₁⟩ := openPath_rdonly
    (hb.imp_right fun hne hfail => hne (by simp [verifyBackupOnly, hfail])) hbackup
  have hne : (os.fds.lowestFree : ℤ) ≠ -1 := by omega
  have hf : os₁.fds.get os.fds.lowestFree = some ⟨i, n.backup, 0, true, false, true⟩ := by
    rw [hget₁, Function.update_self]
  obtain ⟨os₂, hcsum, hsame₂⟩ := pclCalcCrc32Csum_open hf
  rw [hdata] at hcsum
  have hdisk : os₂.disk = os.disk := hsame₂.disk.trans hdisk₁
  have hfs : os₂.fs = os.fs := congrArg Logged.now hdisk
  simp only [verifyBackupOnly, hopen, hne, ne_eq, not_false_eq_true, if_true, hcsum]
  refine Judged.close rfl hdisk FdTable.get_lowestFree (hsame₂.get.trans hget₁) ?_
  rw [← hfs]
  exact keepIfMatching_judged hplain ho _

theorem pclRecoverFromBackup_judged (flags : OpenFlags) (hq : env.Quiet n.orig) {h : ℤ} {f : OpenFile}
    (hf : os.fds.get h = some f) (hr : f.readable = true) (h0 : f.offset = 0)
    (hino : os.fs.names (resolve n.backup) = some f.ino) :
    ∃ os₁ k, os₁.disk = os.disk ∧
      os₁.fds.get = Function.update os.fds.get h (some { f with offset := k }) ∧
      Judged n flags 0 os₁ (pclRecoverFromBackup env h n.orig os).1
        (pclRecoverFromBackup env h n.orig os).2
        (match (n.trio os.fs).orig with
          | some _ => .restore (os.fs.data f.ino)
          | none => .corrupt) := by
  cases ho : os.fs.names (resolve n.orig) with
  | none =>
    obtain ⟨os₁, heq, hsame, -⟩ := Os.openPath_missing { oRdwr with trunc := true } hq ho rfl
    have hnone : (n.trio os.fs).orig = none := Fs.content_eq_none.mpr ho
    refine ⟨os, f.offset, rfl, by rw [← hf, Function.update_eq_self], ?_⟩
    simp only [pclRecoverFromBackup, heq, ne_eq, not_true_eq_false, if_false, hnone]
    exact ⟨rfl, hsame.disk⟩
  | some i =>
    obtain ⟨os₁, heq, hempty, hi, hget₁⟩ := Os.openPath_truncated { oRdwr with trunc := true } hq ho
      rfl
    have hne : h ≠ os.fds.lowestFree := by
      rintro rfl
      rw [FdTable.get_lowestFree] at hf
      cases hf
    have hf₁ : os₁.fds.get h = some f := by rw [hget₁, Function.update_of_ne hne, hf]
    have hdata : os₁.fs.data f.ino = os.fs.data f.ino :=
      hempty.data n.orig_ne_backup.symm hino
    obtain ⟨m, os₂, hcopy, hfull, hi₂, k, b, hget₂⟩ := pclBackupDoFileCopy_open hf₁
      (by rw [hget₁, Function.update_self]) hne hq h0 rfl rfl hi (hempty.data_self hi)
    rw [hr, hdata] at hfull
    have hget : (os.setFile h { f with offset := k }).fds.get =
        Function.update os.fds.get h (some { f with offset := k }) :=
      Os.get_setFile (FdTable.nonneg_of_get hf).1
    have hsome : (n.trio os.fs).orig = some (os.fs.data i) := Fs.content_of_names ho
    have hne' : (os.fds.lowestFree : ℤ) ≠ -1 := by omega
    refine ⟨os.setFile h { f with offset := k }, k, rfl, hget, ?_⟩
    simp only [pclRecoverFromBackup, heq, hne', ne_eq, not_false_eq_true, if_true, hcopy, hsome]
    refine ⟨⟨os₁, hempty.of_same rfl, hfull⟩, ⟨i, n.orig, 0, true, true, b⟩, ⟨hi₂, ho, rfl, rfl, rfl, rfl, ?_, by omega, ?_, ?_⟩⟩
    · rw [hget, Function.update_of_ne hne.symm, FdTable.get_lowestFree]
    · have hused : (os.setFile h { f with offset := k }).fds.used = os.fds.used :=
        FdTable.used_congr fun x => by
          rw [hget, Function.update_apply]
          split
          · rename_i hx
            rw [hx, hf]
            rfl
          · rfl
      have := os.fds.lowestFree_le_card
      rw [hused]
      push_cast
      omega
    · rw [hget₂, hget₁, hget, Function.update_idem, Function.update_comm hne.symm]
      rfl

theorem verifyBackupAndCsum_judged (hplain : flags.Plain) (ho : env.Quiet n.orig)
    (hside : (env.Quiet n.backup ∧ env.Quiet n.csum) ∨
      (verifyBackupAndCsum env n.orig n.backup n.csum flags os).1 ≠ -1) {b c : Bytes}
    (hbackup : (n.trio os.fs).backup = some b) (hc : (n.trio os.fs).csum = some c) :
    Judged n flags 2 os (verifyBackupAndCsum env n.orig n.backup n.csum flags os).1
      (verifyBackupAndCsum env n.orig n.backup n.csum flags os).2
      (judge flags.read (n.trio os.fs)) := by
  -- the backup file
  obtain ⟨os₁, i, hopen₁, hdisk₁, hi, hdata₁, hget₁⟩ := openPath_rdonly
    (hside.imp And.left fun hne hfail => hne (by simp [verifyBackupAndCsum, hfail])) hbackup
  have hf : os₁.fds.get os.fds.lowestFree = some ⟨i, n.backup, 0, true, false, true⟩ := by
    rw [hget₁, Function.update_self]
  obtain ⟨os₂, hcsum, hsame₂⟩ := pclCalcCrc32Csum_open hf
  rw [hdata₁] at hcsum
  have hdisk₂ : os₂.disk = os.disk := hsame₂.disk.trans hdisk₁
  have hfs₂ : os₂.fs = os.fs := congrArg Logged.now hdisk₂
  -- the checksum file
  have hc₂ : os₂.content n.csum = some c := by rw [Os.content, hfs₂]; exact hc
  have hne₁ : (os.fds.lowestFree : ℤ) ≠ -1 := by omega
  obtain ⟨os₃, j, hopen₃, hdisk₃, -, hdata₃, hget₃⟩ := openPath_rdonly
    (hside.imp And.right fun hne hfail => hne (by
      simp [verifyBackupAndCsum, hopen₁, hne₁, hcsum, hfail])) hc₂
  have hg : os₃.fds.get os₂.fds.lowestFree = some ⟨j, n.csum, 0, true, false, true⟩ := by
    rw [hget₃, Function.update_self]
  obtain ⟨os₄, k, hread, hdisk₄, hget₄⟩ := readCsum_open hg rfl rfl
  rw [hdata₃] at hread
  have hdisk : os₄.disk = os.disk := hdisk₄.trans (hdisk₃.trans hdisk₂)
  have hfs : os₄.fs = os.fs := congrArg Logged.now hdisk
  rw [hget₃, hsame₂.get, hget₁, Function.update_idem] at hget₄
  have hne : (os₂.fds.lowestFree : ℤ) ≠ os.fds.lowestFree := by
    intro heq
    have hfree := os₂.fds.get_lowestFree
    rw [heq, hsame₂.get, hf] at hfree
    cases hfree
  have hfree : os.fds.get os₂.fds.lowestFree = none := by
    have hfree := os₂.fds.get_lowestFree
    rwa [hsame₂.get, hget₁, Function.update_of_ne hne] at hfree
  have hne₃ : (os₂.fds.lowestFree : ℤ) ≠ -1 := by omega
  have hchunk : c.take checksumBufSize = [] ↔ c = [] := by simp [checksumBufSize]
  have hbuf : textOf (c.take checksumBufSize) = csumText c := rfl
  rw [judge_both flags.read hbackup hc]
  simp only [verifyBackupAndCsum, hopen₁, hne₁, hcsum, seen_true, hopen₃, hne₃, ne_eq,
    not_false_eq_true, if_true, hread, hchunk, hbuf]
  by_cases hnil : c = []
  · simp only [hnil, not_true_eq_false, if_false, if_true]
    exact Judged.close_two FdTable.get_lowestFree hfree hne hdisk hget₄
      (k := 0) (v := .unchecked) ⟨rfl, .refl os₄⟩
  · simp only [hnil, not_false_eq_true, if_true, if_false]
    by_cases htext : csumText c = csumOf b
    · have hf₄ : os₄.fds.get os.fds.lowestFree = some ⟨i, n.backup, 0, true, false, true⟩ := by
        rw [hget₄, Function.update_of_ne hne.symm, Function.update_self]
      have hi₄ : os₄.fs.names (resolve n.backup) = some i := by
        rw [← hi, hfs, ← show os₁.fs = os.fs from congrArg Logged.now hdisk₁]
      have hdata : os₄.fs.data i = b := by
        rw [← hdata₁, hfs, ← show os₁.fs = os.fs from congrArg Logged.now hdisk₁]
      obtain ⟨os₅, m, hdisk₅, hget₅, hj⟩ :=
        pclRecoverFromBackup_judged flags ho hf₄ rfl rfl hi₄
      rw [hget₄, Function.update_comm hne, Function.update_idem] at hget₅
      simp only [hfs] at hj hdata
      simp only [hdata] at hj
      simp only [htext, if_true]
      exact Judged.close_two FdTable.get_lowestFree hfree hne (hdisk₅.trans hdisk) hget₅ hj
    · have hj := compareOrig_judged os₄ hplain ho [csumText c, csumOf b]
        (fun h os => Os.close_disk h os)
      rw [hfs] at hj
      have hiff : ∀ o, (csumText c ≠ o ∧ csumOf b ≠ o) ↔ ¬ o ∈ [csumText c, csumOf b] := by
        intro o
        simp [eq_comm]
      simp only [compareOrig, ne_eq, ite_not] at hj
      simp only [htext, if_false, hiff, ite_not]
      exact Judged.close_two FdTable.get_lowestFree hfree hne hdisk hget₄ hj

theorem remove_all (n : FileNames com) (os : Os) :
    n.trio ((((os.remove n.orig).2.remove n.backup).2.remove n.csum).2).fs = ⟨none, none, none⟩ := by
  have ho := (Os.remove_sets n.orig os).1
  generalize (os.remove n.orig).2 = os₁ at *
  have hb := (Os.remove_sets n.backup os₁).1
  generalize (os₁.remove n.backup).2 = os₂ at *
  have hc := (Os.remove_sets n.csum os₂).1
  simp only [FileNames.trio, hc.content, hb.content, ho.content, if_true, if_neg n.orig_ne_csum,
    if_neg n.orig_ne_backup, if_neg n.backup_ne_csum]

/-- What `pclVerifyConsistency` does is the verdict on the three files, unless a
fault on a side file makes it fail; a corrupt resource is removed with its side
files. -/
theorem pclVerifyConsistency_judged (os : Os) (hplain : flags.Plain) (ho : env.Quiet n.orig)
    (hside : (env.Quiet n.backup ∧ env.Quiet n.csum) ∨
      (pclVerifyConsistency env n.orig n.backup n.csum flags os).1 ≠ -1) :
    ∃ handle os', pclVerifyConsistency env n.orig n.backup n.csum flags os = (handle, os') ∧
      ((judge flags.read (n.trio os.fs) ≠ .corrupt ∧
        Judged n flags 2 os handle os' (judge flags.read (n.trio os.fs))) ∨
      (judge flags.read (n.trio os.fs) = .corrupt ∧ handle = -1 ∧
        n.trio os'.fs = ⟨none, none, none⟩)) := by
  generalize hr : (if os.access n.backup = 0 ∧ os.access n.csum = 0 then
      verifyBackupAndCsum env n.orig n.backup n.csum flags os
    else if os.access n.csum = 0 then verifyCsumOnly env n.orig n.csum flags os
    else if os.access n.backup = 0 then verifyBackupOnly env n.orig n.backup flags os
    else (0, os)) = r
  have hside : (env.Quiet n.backup ∧ env.Quiet n.csum) ∨ r.1 ≠ -1 := by
    refine hside.imp_right fun hne hfail => hne ?_
    obtain ⟨handle, os'⟩ := r
    obtain rfl : handle = -1 := hfail
    simp only [pclVerifyConsistency, hr, if_true]
  have hj : Judged n flags 2 os r.1 r.2 (judge flags.read (n.trio os.fs)) := by
    subst hr
    have missing : ∀ {path}, os.content path = none → os.access path ≠ 0 :=
      fun hnone h => Os.access_eq_zero.mp h hnone
    have there : ∀ {path c}, os.content path = some c → os.access path = 0 :=
      fun hsome => Os.access_eq_zero.mpr (by rw [hsome]; exact Option.some_ne_none _)
    cases hback : os.content n.backup with
    | none =>
      rw [if_neg fun h => missing hback h.1] at hside ⊢
      cases hcsum : os.content n.csum with
      | none =>
        rw [if_neg (missing hcsum), if_neg (missing hback), judge_none flags.read hback hcsum]
        exact ⟨rfl, .refl os⟩
      | some c =>
        rw [if_pos (there hcsum)] at hside ⊢
        rw [judge_csum flags.read hback hcsum]
        exact (verifyCsumOnly_judged hplain ho (hside.imp_left And.right) hcsum).mono one_le_two
    | some b =>
      cases hcsum : os.content n.csum with
      | none =>
        rw [if_neg fun h => missing hcsum h.2, if_neg (missing hcsum), if_pos (there hback)]
          at hside ⊢
        rw [judge_backup flags.read hback hcsum]
        exact (verifyBackupOnly_judged hplain ho (hside.imp_left And.left) hback).mono one_le_two
      | some c =>
        rw [if_pos ⟨there hback, there hcsum⟩] at hside ⊢
        exact verifyBackupAndCsum_judged hplain ho hside hback hcsum
  obtain ⟨handle, os'⟩ := r
  have hiff := hj.eq_neg_one_iff
  simp only [pclVerifyConsistency, hr]
  by_cases hh : handle = -1
  · rw [if_pos hh]
    exact ⟨_, _, rfl, Or.inr ⟨hiff.mp hh, hh, remove_all n os'⟩⟩
  · rw [if_neg hh]
    exact ⟨_, _, rfl, Or.inl ⟨fun hv => hh (hiff.mpr hv), hj⟩⟩

end Functions

end PersClient.File
