import PersClient.File.Checked
import PersClient.File.Runs

/-! # Openings and the records

An opening adds a descriptor and its record, or changes neither. But a failed
opening may keep a record of its error, creating the file of a path keeps the
record of a closed descriptor, and a check that fails may leave a descriptor
open. Which of these happens is told by the files, the errors met and the number
of open descriptors, before the call.
-/

namespace PersClient.File

open Access Crash Handle

section Effects

def Client.Records (c : Client) (fd : ℤ) : Prop := (Tree.lookup c.gFileHandleTree fd).isSome

/-- A call that neither opens nor closes a file, in the tables as in the system. -/
structure Client.Unmoved (c c' : Client) : Prop where
  opens : c.os.Opens ∅ c'.os
  records : ∀ x, c'.Records x ↔ c.Records x
  list : c'.gOpenFdList = c.gOpenFdList

structure Client.Gains (c c' : Client) (fd : ℤ) : Prop where
  opens : c.os.Opens (insert fd ∅) c'.os
  records : ∀ x, c'.Records x ↔ x = fd ∨ c.Records x
  list : c'.gOpenFdList = c.gOpenFdList ∨ c'.gOpenFdList = listItemInsert c.gOpenFdList fd

/-- A call that leaves a record without an open file, or opens a file besides. -/
inductive Client.Astray (c c' : Client) : Prop
  | record {x : ℤ} : c'.Records x → c'.os.fds.get x = none → Astray c c'
  | descriptor {x : ℤ} : c.os.fds.get x = none → (c'.os.fds.get x).isSome → Astray c c'

variable {com : CommonObject} {c c' : Client} {os : Os} {fd x : ℤ}

theorem Client.Unmoved.refl (c : Client) : c.Unmoved c := ⟨.refl c.os, fun _ => Iff.rfl, rfl⟩

theorem Client.unmoved_os (h : c.os.Opens ∅ os) : c.Unmoved { c with os } :=
  ⟨h, fun _ => Iff.rfl, rfl⟩

theorem Os.Opens.empty_keeps {os os' : Os} (h : os.Opens ∅ os') : os.Keeps os' :=
  fun x => h.kept x (Set.notMem_empty x)

theorem Os.Keeps.get_eq_none {os os' : Os} (h : os.Keeps os') :
    os'.fds.get x = none ↔ os.fds.get x = none := by
  rw [← Option.not_isSome_iff_eq_none, ← Option.not_isSome_iff_eq_none, h.isSome]

theorem Client.Unmoved.isSome (h : c.Unmoved c') (x : ℤ) :
    (c'.os.fds.get x).isSome = (c.os.fds.get x).isSome := h.opens.empty_keeps.isSome x

theorem isSome_lookup_setItem {tree : FileTree} {change : FileHandleData → FileHandleData}
    {fresh : FileHandleData} : (Tree.lookup (setItem tree fd change fresh) x).isSome ↔
      x = fd ∨ (Tree.lookup tree x).isSome := by
  rw [lookup_setItem]
  by_cases hx : x = fd
  · simp [hx]
  · simp [hx]

theorem registerRegular_records {ctx : DbContext} {wantBackup : ℤ} :
    (registerRegular com ctx fd wantBackup c).Records x ↔ x = fd ∨ c.Records x := by
  unfold registerRegular Client.Records
  dsimp only
  split
  · show (Tree.lookup (setItem _ fd _ _) x).isSome ↔ _
    rw [isSome_lookup_setItem]
    show _ ∨ (Tree.lookup (setItem _ fd _ _) x).isSome ↔ _
    rw [isSome_lookup_setItem, ← or_assoc, or_self]
  · show (Tree.lookup (setItem _ fd _ _) x).isSome ↔ _
    exact isSome_lookup_setItem

theorem registerRegular_os {ctx : DbContext} {wantBackup : ℤ} :
    (registerRegular com ctx fd wantBackup c).os = c.os := by
  unfold registerRegular
  dsimp only
  split <;> rfl

theorem registerRegular_list {ctx : DbContext} {wantBackup : ℤ} :
    (registerRegular com ctx fd wantBackup c).gOpenFdList = c.gOpenFdList ∨
      (registerRegular com ctx fd wantBackup c).gOpenFdList =
        listItemInsert c.gOpenFdList fd := by
  unfold registerRegular
  dsimp only
  split
  · exact Or.inr rfl
  · exact Or.inl rfl

theorem gains_registerRegular {ctx : DbContext} {wantBackup : ℤ}
    (hopens : c.os.Opens (insert fd ∅) c'.os) (hkeeps : ∀ x, c'.Records x → x = fd ∨ c.Records x)
    (hkept : ∀ x, c.Records x → c'.Records x) (hlist : c'.gOpenFdList = c.gOpenFdList) :
    c.Gains (registerRegular com ctx fd wantBackup c') fd := by
  refine ⟨by rw [registerRegular_os]; exact hopens, fun x => ?_, ?_⟩
  · rw [registerRegular_records]
    constructor
    · rintro (hx | hx)
      · exact Or.inl hx
      · exact hkeeps x hx
    · exact fun hx => hx.imp_right (hkept x)
  · rw [← hlist]
    exact registerRegular_list

theorem astray_registerRegular {ctx : DbContext} {wantBackup : ℤ} (hneg : fd < 0) :
    c.Astray (registerRegular com ctx fd wantBackup c') :=
  .record (registerRegular_records.mpr (Or.inl rfl)) (FdTable.get_out _ fd (Or.inl hneg))

end Effects

section Opening

variable (com : CommonObject) (appId : CStr) (env : Env)

def CanCreate (time : ℕ) (path : CStr) : Prop := (createPath com path).any (env.admits time)

instance (time : ℕ) (path : CStr) : Decidable (CanCreate com env time path) := by
  unfold CanCreate
  infer_instance

/-- The file of this path can be opened at this time or, if it is not there, be
created with a descriptor below the limit. -/
def Obtains (time : ℕ) (path : CStr) (os : Os) : Prop :=
  os.CanOpen env time path ∨
    os.NotThere env time path ∧ CanCreate com env (time + 1) path ∧
      os.fds.lowestFree < maxPersHandle

instance (time : ℕ) (path : CStr) (os : Os) : Decidable (Obtains com env time path os) := by
  unfold Obtains
  infer_instance

variable {com env} {os : Os} {path : CStr}

theorem pclCreateFile_can (h : CanCreate com env os.clock path) :
    ∃ os' f, pclCreateFile com env path os = ((os.fds.lowestFree : ℤ), os') ∧
      os'.fds.get = Function.update os.fds.get os.fds.lowestFree (some f) := by
  unfold CanCreate at h
  cases hp : createPath com path with
  | none =>
    rw [hp] at h
    cases h
  | some p =>
    rw [hp] at h
    obtain ⟨os', i, heq, -, -, hget⟩ := Os.openFile_emptied os.tick
      { oRdwr with creat := true, trunc := true } rfl rfl (createPath_resolve hp).2
    refine ⟨os', _, ?_, hget⟩
    unfold pclCreateFile
    rw [hp]
    exact (Env.openPath_admits h).trans heq

theorem pclCreateFile_cannot (h : ¬ CanCreate com env os.clock path) :
    ∃ os', pclCreateFile com env path os = (-1, os') ∧ os.Same os' := by
  unfold CanCreate at h
  unfold pclCreateFile
  cases hp : createPath com path with
  | none => exact ⟨os, rfl, .refl os⟩
  | some p =>
    rw [hp, Option.any_some, Bool.not_eq_true] at h
    obtain ⟨e, -, heq⟩ := Env.openPath_refuses { oRdwr with creat := true, trunc := true } h
    exact ⟨_, heq, rfl, rfl⟩

end Opening

section Regular

variable (com : CommonObject) (appId : CStr) (env : Env) (ctx : DbContext) (resourceId : CStr)

/-- `openValid` behind the check, with the handle and the state it left. -/
def openFrom (wantBackup handle : ℤ) (os : Os) (c : Client) : ℤ × Client :=
  let ((handle, os), cacheStatus) :=
    if handle ≤ 0 then
      (os.openPath env ctx.dbPath (pclGetPosixPermission ctx.configKey.permission),
        cacheStatusOf com ctx.dbPath)
    else ((handle, os), -1)
  let c := { c with os }
  if handle < maxPersHandle then
    let (handle, c) :=
      if handle = -1 ∧ os.errno = .enoent then
        createRegular com appId env ctx resourceId cacheStatus c
      else (handle, c)
    (handle, registerRegular com ctx handle wantBackup c)
  else (epersMaxhandle, { c with os := (os.close handle).2 })

theorem openValid_eq (c : Client) : openValid com appId env ctx resourceId c =
    if wantsBackup com c ctx && (checkOriginal com env ctx c).1 = -1 then
      (-1, { c with
        os := ((checkOriginal com env ctx c).2.close (checkOriginal com env ctx c).1).2 })
    else openFrom com appId env ctx resourceId (if wantsBackup com c ctx then 0 else 1)
      (checkOriginal com env ctx c).1 (checkOriginal com env ctx c).2 c := rfl

variable {com appId env ctx resourceId} {c : Client} {os : Os} {n : ℕ} {wantBackup handle : ℤ}

theorem openFrom_kept (hpos : 0 < handle) (hopens : c.os.Opens (insert handle ∅) os) :
    let r := openFrom com appId env ctx resourceId wantBackup handle os c
    r.1 < 0 ∧ c.Unmoved r.2 ∨ 0 ≤ r.1 ∧ c.Gains r.2 r.1 := by
  unfold openFrom
  rw [if_neg (not_le.mpr hpos)]
  dsimp only
  split
  · rw [if_neg (show ¬ (handle = -1 ∧ os.errno = .enoent) by omega)]
    exact Or.inr ⟨hpos.le, gains_registerRegular hopens (fun _ => Or.inr) (fun _ => id) rfl⟩
  · exact Or.inl ⟨show epersMaxhandle < 0 by decide,
      Client.unmoved_os (hopens.close_new (Set.notMem_empty _))⟩

theorem createRegular_can (appId resourceId : CStr) {A : Set ℤ} (hos : os.Opens A c.os)
    (h : CanCreate com env c.os.clock ctx.dbPath)
    (hroom : c.os.fds.lowestFree < maxPersHandle) (cacheStatus : ℤ) :
    ∃ os', createRegular com appId env ctx resourceId cacheStatus c =
        ((c.os.fds.lowestFree : ℤ), { c with
          os := os'
          gFileHandleTree := setFileCacheStatus c.gFileHandleTree c.os.fds.lowestFree
            cacheStatus }) ∧
      os.Opens (insert (c.os.fds.lowestFree : ℤ) A) os' := by
  obtain ⟨os₁, f, heq, hget⟩ := pclCreateFile_can h
  have hopens := hos.install FdTable.get_lowestFree hget
  have hne : (c.os.fds.lowestFree : ℤ) ≠ -1 := by omega
  have hlt : ¬ ((c.os.fds.lowestFree : ℤ) ≥ (maxPersHandle : ℕ)) := by omega
  unfold createRegular
  simp only [heq, hne, if_false, hlt]
  exact ⟨_, rfl, pclFileGetDefaultData_opens hopens com appId env _ _ _⟩

theorem createRegular_cannot (appId resourceId : CStr)
    (h : ¬ (CanCreate com env c.os.clock ctx.dbPath ∧ c.os.fds.lowestFree < maxPersHandle))
    (cacheStatus : ℤ) :
    (createRegular com appId env ctx resourceId cacheStatus c).1 < 0 := by
  unfold createRegular
  by_cases hcan : CanCreate com env c.os.clock ctx.dbPath
  · obtain ⟨os₁, f, heq, -⟩ := pclCreateFile_can hcan
    have hne : (c.os.fds.lowestFree : ℤ) ≠ -1 := by omega
    have hge : (c.os.fds.lowestFree : ℤ) ≥ (maxPersHandle : ℕ) := by
      have := not_lt.mp fun hlt => h ⟨hcan, hlt⟩
      omega
    simp only [heq, hne, if_false, hge, if_true]
    exact show epersMaxhandle < 0 by decide
  · obtain ⟨os₁, heq, -⟩ := pclCreateFile_cannot hcan
    simp only [heq, if_true]
    exact neg_one_lt_zero

/-- Without a handle from the check the file is obtained, or its error recorded. -/
theorem openFrom_unchecked (hle : handle ≤ 0) (hopens : c.os.Opens ∅ os)
    (hdisk : os.disk = c.os.disk) (hclock : os.clock = c.os.clock + n) :
    let r := openFrom com appId env ctx resourceId wantBackup handle os c
    (Obtains com env (c.os.clock + n) ctx.dbPath c.os →
      r.1 < 0 ∧ c.Unmoved r.2 ∨ 0 ≤ r.1 ∧ c.Gains r.2 r.1) ∧
    (¬ Obtains com env (c.os.clock + n) ctx.dbPath c.os → r.1 < 0 ∧ c.Astray r.2) := by
  have hplain := pclGetPosixPermission_plain ctx.configKey.permission
  have hfree : os.fds.lowestFree = c.os.fds.lowestFree :=
    FdTable.lowestFree_eq fun x => hopens.empty_keeps.isSome x
  have hcan : os.CanOpen env os.clock ctx.dbPath ↔
      c.os.CanOpen env (c.os.clock + n) ctx.dbPath := by
    rw [hclock, Os.canOpen_of_disk hdisk]
  have hthere : os.NotThere env os.clock ctx.dbPath ↔
      c.os.NotThere env (c.os.clock + n) ctx.dbPath := by
    rw [hclock, Os.notThere_of_disk hdisk]
  unfold Obtains openFrom
  rw [if_pos hle, ← hcan, ← hthere, ← hfree]
  by_cases hopen : os.CanOpen env os.clock ctx.dbPath
  · obtain ⟨os₁, i, heq, -, -, -, hget⟩ := hopen.openPath _ hplain.2
    have hnew := hopens.install FdTable.get_lowestFree hget
    refine ⟨fun _ => ?_, fun hnot => absurd (Or.inl hopen) hnot⟩
    rw [heq]
    dsimp only
    split
    · rw [if_neg (show ¬ ((os.fds.lowestFree : ℤ) = -1 ∧ os₁.errno = .enoent) by omega)]
      exact Or.inr ⟨by omega, gains_registerRegular hnew (fun _ => Or.inr) (fun _ => id) rfl⟩
    · exact Or.inl ⟨show epersMaxhandle < 0 by decide,
        Client.unmoved_os (hnew.close_new (Set.notMem_empty _))⟩
  · obtain ⟨os₁, heq, hsame, htime, herrno⟩ := Os.openPath_cannot _ hopen hplain.1
    have hopens₁ := hopens.keeps hsame.keeps
    have hfree₁ : os₁.fds.lowestFree = os.fds.lowestFree :=
      FdTable.lowestFree_eq fun x => hsame.keeps.isSome x
    have hlt : (-1 : ℤ) < (maxPersHandle : ℕ) := by decide
    rw [heq]
    simp only [hlt, if_true, true_and, hopen, false_or, ← herrno]
    split
    · rename_i hmissing
      rw [← hclock, ← htime, ← hfree₁]
      constructor
      · rintro ⟨-, hcreate, hroom⟩
        obtain ⟨os₂, hcreated, hopens₂⟩ := createRegular_can appId resourceId
          (c := { c with os := os₁ }) hopens₁ hcreate hroom (cacheStatusOf com ctx.dbPath)
        rw [hcreated]
        exact Or.inr ⟨Int.natCast_nonneg _, gains_registerRegular hopens₂
          (fun _ => isSome_lookup_setItem.mp) (fun _ hx => isSome_lookup_setItem.mpr (Or.inr hx))
          rfl⟩
      · intro hnot
        have hneg := createRegular_cannot appId resourceId
          (c := { c with os := os₁ }) (fun h => hnot ⟨hmissing, h⟩) (cacheStatusOf com ctx.dbPath)
        exact ⟨hneg, astray_registerRegular hneg⟩
    · rename_i hother
      exact ⟨fun h => absurd h.1 hother, fun _ => ⟨neg_one_lt_zero,
        astray_registerRegular neg_one_lt_zero⟩⟩

end Regular

section Open

variable (com : CommonObject) (appId : CStr) (env : Env) (ctx : DbContext) (resourceId : CStr)
  (userNo seatNo : UInt32) (c : Client)

/-- A listed file is kept by the check or obtained, or the check fails and loses
nothing. -/
def OrderlyValid : Prop :=
  if wantsBackup com c ctx then
    match regularOutcome com env ctx c with
    | .unchecked openings => Obtains com env (c.os.clock + openings) ctx.dbPath c.os
    | .kept => True
    | .refused => True
    | .lost => False
  else Obtains com env c.os.clock ctx.dbPath c.os

/-- Default data are there, a listed file is orderly, another file can be created. -/
def OrderlyOpen : Prop :=
  if userNo = pclUserDefaultdata then
    c.os.CanOpen env c.os.clock
      (defaultDataPath com appId ctx.configKey.policy com.configDefaultDataFolderName resourceId)
  else if 0 ≤ ctx.rval then OrderlyValid com env ctx c
  else CanCreate com env c.os.clock
    (snprintf com.maxLengthPathFilename (getLocalCacheFilePath com appId userNo seatNo resourceId))

instance : Decidable (OrderlyValid com env ctx c) := by
  unfold OrderlyValid
  split
  · split <;> infer_instance
  · infer_instance

instance : Decidable (OrderlyOpen com appId env ctx resourceId userNo seatNo c) := by
  unfold OrderlyOpen
  infer_instance

variable {com appId env ctx resourceId userNo seatNo c}

def Client.Settles (c : Client) (orderly : Prop) (r : ℤ × Client) : Prop :=
  (orderly → r.1 < 0 ∧ c.Unmoved r.2 ∨ 0 ≤ r.1 ∧ c.Gains r.2 r.1) ∧
    (¬ orderly → r.1 < 0 ∧ c.Astray r.2)

theorem openValid_settles : c.Settles (OrderlyValid com env ctx c)
    (openValid com appId env ctx resourceId c) := by
  have hplain := pclGetPosixPermission_plain ctx.configKey.permission
  rw [openValid_eq]
  unfold OrderlyValid
  cases hwanted : wantsBackup com c ctx with
  | false =>
    have hcheck : checkOriginal com env ctx c = (-1, c.os) := by
      rw [checkOriginal, hwanted]
      rfl
    rw [hcheck]
    simp only [Bool.false_and, Bool.false_eq_true, if_false]
    exact openFrom_unchecked (n := 0) (by decide) (.refl c.os) rfl rfl
  | true =>
    have hends := pclVerifyConsistency_ends env ctx.dbPath
      (backupPath com ctx.configKey.policy ctx.dbPath)
      (csumPath com ctx.configKey.policy ctx.dbPath) hplain c.os
    have hcheck : checkOriginal com env ctx c = pclVerifyConsistency env ctx.dbPath
        (backupPath com ctx.configKey.policy ctx.dbPath)
        (csumPath com ctx.configKey.policy ctx.dbPath)
        (pclGetPosixPermission ctx.configKey.permission) c.os := by
      rw [checkOriginal, if_pos hwanted]
    rw [← hcheck] at hends
    unfold regularOutcome
    generalize checkOriginal com env ctx c = r at hends
    generalize checkOutcome env ctx.dbPath (backupPath com ctx.configKey.policy ctx.dbPath)
      (csumPath com ctx.configKey.policy ctx.dbPath)
      (pclGetPosixPermission ctx.configKey.permission).read c.os = outcome at hends
    simp only [if_true, Bool.true_and, decide_eq_true_eq]
    cases hends with
    | unchecked hopens hdisk hclock =>
      dsimp only
      rw [if_neg (by omega)]
      exact openFrom_unchecked le_rfl hopens hdisk hclock
    | kept hpos hnew hopens hnames =>
      dsimp only
      rw [if_neg (by omega)]
      exact ⟨fun _ => openFrom_kept hpos hopens, fun hnot => absurd trivial hnot⟩
    | refused hopens =>
      rw [if_pos rfl]
      exact ⟨fun _ => Or.inl ⟨neg_one_lt_zero,
        Client.unmoved_os (hopens.close_negative neg_one_lt_zero)⟩, fun hnot => absurd trivial hnot⟩
    | lost hnew hopens =>
      rw [if_pos rfl]
      have hclosed := hopens.close_negative (k := -1) neg_one_lt_zero
      have hlost := hclosed.opened _ (Set.mem_insert _ _)
      exact ⟨False.elim, fun _ => ⟨neg_one_lt_zero, .descriptor hlost.1 hlost.2⟩⟩

theorem openUnlisted_settles :
    c.Settles (CanCreate com env c.os.clock (snprintf com.maxLengthPathFilename
      (getLocalCacheFilePath com appId userNo seatNo resourceId)))
      (openUnlisted com appId env ctx resourceId userNo seatNo c) := by
  unfold openUnlisted
  extract_lets dbPath
  by_cases hcan : CanCreate com env c.os.clock dbPath
  · refine ⟨fun _ => ?_, fun hnot => absurd hcan hnot⟩
    obtain ⟨os₁, f, heq, hget⟩ := pclCreateFile_can hcan
    have hnew := (Os.Opens.refl c.os).install FdTable.get_lowestFree hget
    rw [heq]
    dsimp only
    split
    · split
      swap
      · omega
      refine Or.inr ⟨Int.natCast_nonneg _, hnew, fun x => ?_, Or.inr rfl⟩
      show (Tree.lookup (setItem (setItem (setItem _ _ _ _) _ _ _) _ _ _) x).isSome ↔ _
      rw [isSome_lookup_setItem, isSome_lookup_setItem, isSome_lookup_setItem]
      simp only [← or_assoc, or_self]
      exact Iff.rfl
    · exact Or.inl ⟨show epersMaxhandle < 0 by decide,
        Client.unmoved_os (hnew.close_new (Set.notMem_empty _))⟩
  · refine ⟨fun h => absurd h hcan, fun _ => ?_⟩
    obtain ⟨os₁, heq, -⟩ := pclCreateFile_cannot hcan
    have hlt : (-1 : ℤ) < (maxPersHandle : ℕ) := by decide
    rw [heq]
    simp only [hlt, if_true, ne_eq, not_true_eq_false, if_false]
    exact ⟨neg_one_lt_zero, .record (x := -1) (isSome_lookup_setItem.mpr (Or.inl rfl))
      (FdTable.get_out _ _ (Or.inl neg_one_lt_zero))⟩

theorem pclFileOpen_settles (com : CommonObject) (appId : CStr) (env : Env) (resourceId : CStr)
    (userNo seatNo : UInt32) (hinit : 0 < c.gPclInitCounter)
    (hfile : ctx.configKey.type = .file) :
    c.Settles (OrderlyOpen com appId env ctx resourceId userNo seatNo c)
      (pclFileOpen com appId env ctx resourceId userNo seatNo c) := by
  unfold pclFileOpen OrderlyOpen
  rw [if_pos hinit, if_pos hfile]
  split
  · have hplain := pclGetPosixPermission_plain ctx.configKey.permission
    unfold pclFileOpenDefaultData
    by_cases hcan : c.os.CanOpen env c.os.clock
      (defaultDataPath com appId ctx.configKey.policy com.configDefaultDataFolderName resourceId)
    · refine ⟨fun _ => ?_, fun hnot => absurd hcan hnot⟩
      obtain ⟨os₁, i, heq, -, -, -, hget⟩ := hcan.openPath _ hplain.2
      have hnew := (Os.Opens.refl c.os).install FdTable.get_lowestFree hget
      rw [heq]
      dsimp only
      split
      · exact Or.inl ⟨show epersMaxhandle < 0 by decide,
          Client.unmoved_os (hnew.close_new (Set.notMem_empty _))⟩
      · refine Or.inr ⟨Int.natCast_nonneg _, hnew, fun x => ?_, Or.inl rfl⟩
        show (Tree.lookup (setItem (setItem _ _ _ _) _ _ _) x).isSome ↔ _
        rw [isSome_lookup_setItem, isSome_lookup_setItem, ← or_assoc, or_self]
        exact Iff.rfl
    · refine ⟨fun h => absurd h hcan, fun _ => ?_⟩
      obtain ⟨os₁, heq, -⟩ := Os.openPath_cannot _ hcan hplain.1
      have hlt : ¬ ((-1 : ℤ) ≥ (maxPersHandle : ℕ)) := by decide
      rw [heq]
      simp only [hlt, if_false]
      exact ⟨neg_one_lt_zero, .record (x := -1) (isSome_lookup_setItem.mpr (Or.inl rfl))
        (FdTable.get_out _ _ (Or.inl neg_one_lt_zero))⟩
  · unfold pclFileOpenRegular
    split
    · exact openValid_settles
    · exact openUnlisted_settles

end Open

section Path

variable (com : CommonObject) (appId : CStr) (env : Env) (ctx : DbContext) (resourceId : CStr)
  (userNo seatNo : UInt32) (c : Client)

/-- The pool hands out a number that `pclFileCreatePath` goes on with. -/
def Drawn (pool : HandlePool) : Prop :=
  (getPersistenceHandleIdx pool).1 ≠ -1 ∧ (getPersistenceHandleIdx pool).1 < maxPersHandle

instance (pool : HandlePool) : Decidable (Drawn pool) := by
  unfold Drawn
  infer_instance

def NothingToCreate : Prop := (c.os.content ctx.dbPath).isSome ∨ ¬ Drawn c.pool

def pathOutcome : CheckOutcome :=
  checkOutcome env ctx.dbPath
    (snprintf (com.maxLengthPathFilename - 1) (ctx.dbPath ++ gBackupPostfix))
    (snprintf (com.maxLengthPathFilename - 1) (ctx.dbPath ++ gBackupCsPostfix))
    (pclGetPosixPermission ctx.configKey.permission).read c.os

/-- The path leads to a file that need not be created, or the check fails and
loses nothing. -/
def OrderlyPath : Prop :=
  0 ≤ ctx.rval →
    if pathWantsBackup com c ctx then
      match pathOutcome com env ctx c with
      | .unchecked _ => NothingToCreate ctx c
      | .kept => True
      | .refused => True
      | .lost => False
    else NothingToCreate ctx c

instance : Decidable (NothingToCreate ctx c) := by
  unfold NothingToCreate
  infer_instance

instance : Decidable (OrderlyPath com env ctx c) := by
  have : Decidable (if pathWantsBackup com c ctx then
      match pathOutcome com env ctx c with
      | .unchecked _ => NothingToCreate ctx c
      | .kept => True
      | .refused => True
      | .lost => False
    else NothingToCreate ctx c) := by
    split
    · split <;> infer_instance
    · infer_instance
  unfold OrderlyPath
  infer_instance

variable {com appId env ctx resourceId userNo seatNo c} {c' : Client} {backup csum : CStr}

theorem Client.Unmoved.trans {c'' : Client} (h : c.Unmoved c') (h' : c'.Unmoved c'') :
    c.Unmoved c'' :=
  ⟨h.opens.keeps h'.opens.empty_keeps, fun x => (h'.records x).trans (h.records x),
    h'.list.trans h.list⟩

theorem Client.Astray.of_unmoved (h : c.Unmoved c') {c'' : Client} (h' : c'.Astray c'') :
    c.Astray c'' := by
  cases h' with
  | record hrecord hclosed => exact .record hrecord hclosed
  | descriptor hfree hopen =>
    exact .descriptor (h.opens.empty_keeps.get_eq_none.mp hfree) hopen

theorem createForPath_there (h : (c.os.content ctx.dbPath).isSome) :
    createForPath com appId env ctx resourceId c = c := by
  unfold createForPath
  have hthere : c.os.access ctx.dbPath = 0 :=
    Os.access_eq_zero.mpr (Option.isSome_iff_ne_none.mp h)
  rw [if_neg (by rw [hthere]; decide)]

theorem createForPath_astray (h : ¬ (c.os.content ctx.dbPath).isSome) :
    c.Astray (createForPath com appId env ctx resourceId c) := by
  have hmissing : c.os.access ctx.dbPath = -1 := by
    have hne : c.os.access ctx.dbPath ≠ 0 := fun h0 =>
      h (Option.isSome_iff_ne_none.mpr (Os.access_eq_zero.mp h0))
    unfold Os.access at hne ⊢
    split at hne
    · exact absurd rfl hne
    · rfl
  unfold createForPath
  rw [if_pos hmissing]
  by_cases hcan : CanCreate com env c.os.clock ctx.dbPath
  · obtain ⟨os₁, f, heq, hget⟩ := pclCreateFile_can hcan
    have hfree : c.os.fds.get c.os.fds.lowestFree = none := FdTable.get_lowestFree
    have hnew := (Os.Opens.refl c.os).install hfree hget
    have hne : ¬ (c.os.fds.lowestFree : ℤ) = -1 := by omega
    have hclosed := (pclFileGetDefaultData_opens hnew com appId env c.os.fds.lowestFree
      resourceId ctx.configKey.policy).close_new (Set.notMem_empty _)
    rw [heq]
    dsimp only
    rw [if_neg hne]
    refine .record (x := c.os.fds.lowestFree) (isSome_lookup_setItem.mpr (Or.inl rfl)) ?_
    exact hclosed.empty_keeps.get_eq_none.mpr hfree
  · obtain ⟨os₁, heq, -⟩ := pclCreateFile_cannot hcan
    rw [heq]
    dsimp only
    rw [if_pos rfl]
    exact .record (x := -1) (isSome_lookup_setItem.mpr (Or.inl rfl))
      (FdTable.get_out _ _ (Or.inl neg_one_lt_zero))

def Client.UnmovedIf (c : Client) (orderly : Prop) (c' : Client) : Prop :=
  (orderly → c.Unmoved c') ∧ (¬ orderly → c.Astray c')

theorem enterPath_settles (com : CommonObject) (appId : CStr) (env : Env) (ctx : DbContext)
    (resourceId backup csum : CStr) (c : Client) : c.UnmovedIf (NothingToCreate ctx c)
    (enterPath com appId env ctx resourceId backup csum c).2 := by
  unfold Client.UnmovedIf NothingToCreate Drawn enterPath
  generalize getPersistenceHandleIdx c.pool = r
  obtain ⟨handle, pool⟩ := r
  dsimp only
  by_cases hcontent : (c.os.content ctx.dbPath).isSome
  · refine ⟨fun _ => ?_, fun hnot => absurd (Or.inl hcontent) hnot⟩
    rw [createForPath_there (c := { c with pool }) hcontent]
    split
    · split
      · exact ⟨.refl c.os, fun _ => Iff.rfl, rfl⟩
      · exact ⟨.refl c.os, fun _ => Iff.rfl, rfl⟩
    · exact ⟨.refl c.os, fun _ => Iff.rfl, rfl⟩
  · by_cases hdrawn : handle ≠ -1 ∧ handle < maxPersHandle
    · refine ⟨fun h => absurd hdrawn (h.resolve_left hcontent), fun _ => ?_⟩
      rw [if_pos hdrawn.1, if_pos hdrawn.2]
      have hastray : Client.Astray { c with pool }
          (createForPath com appId env ctx resourceId { c with pool }) :=
        createForPath_astray hcontent
      cases hastray with
      | record hrecord hclosed => exact .record hrecord hclosed
      | descriptor hfree hopen => exact .descriptor hfree hopen
    · refine ⟨fun _ => ?_, fun hnot => absurd (Or.inr hdrawn) hnot⟩
      split
      · rename_i hne
        rw [if_neg fun hlt => hdrawn ⟨hne, hlt⟩]
        exact ⟨.refl c.os, fun _ => Iff.rfl, rfl⟩
      · exact ⟨.refl c.os, fun _ => Iff.rfl, rfl⟩

theorem enterUnlisted_unmoved :
    c.Unmoved (enterUnlisted com appId resourceId userNo seatNo c).2 := by
  unfold enterUnlisted
  extract_lets dbPath
  split
  dsimp only
  split
  · split
    · exact ⟨.refl c.os, fun _ => Iff.rfl, rfl⟩
    · exact ⟨.refl c.os, fun _ => Iff.rfl, rfl⟩
  · exact ⟨.refl c.os, fun _ => Iff.rfl, rfl⟩

theorem isSome_of_kept {origPath : CStr} {readable : Bool} {os : Os}
    (h : checkOutcome env origPath backup csum readable os = .kept) :
    (os.content origPath).isSome := by
  have compared : ∀ {time : ℕ} {sums : List Bytes} {mismatch : CheckOutcome},
      compareOutcome env origPath readable os time sums mismatch = .kept →
      (os.content origPath).isSome := by
    intro time sums mismatch h
    unfold compareOutcome at h
    split at h
    · rename_i hcan
      exact hcan.1
    · cases h
  unfold checkOutcome at h
  split at h
  · cases h
  · split at h
    · exact compared h
    · cases h
  · split at h
    · exact compared h
    · cases h
  · split at h
    · split at h
      · cases h
      · split at h
        · split at h
          · rename_i hcan
            exact hcan.1
          · cases h
        · exact compared h
    · cases h

theorem pclFileCreatePath_settles (com : CommonObject) (appId : CStr) (env : Env)
    (resourceId : CStr) (userNo seatNo : UInt32) (hinit : 0 < c.gPclInitCounter)
    (hfile : ctx.configKey.type = .file) : c.UnmovedIf (OrderlyPath com env ctx c)
      (pclFileCreatePath com appId env ctx resourceId userNo seatNo c).2 := by
  unfold pclFileCreatePath OrderlyPath
  rw [if_pos hinit, if_pos hfile]
  by_cases hrval : 0 ≤ ctx.rval
  swap
  · rw [if_neg hrval]
    exact ⟨fun _ => enterUnlisted_unmoved, fun hnot => absurd (fun h => absurd h hrval) hnot⟩
  simp only [hrval, if_true, forall_const]
  split
  swap
  · exact enterPath_settles com appId env ctx resourceId [] [] c
  have hends := pclVerifyConsistency_ends env ctx.dbPath
    (snprintf (com.maxLengthPathFilename - 1) (ctx.dbPath ++ gBackupPostfix))
    (snprintf (com.maxLengthPathFilename - 1) (ctx.dbPath ++ gBackupCsPostfix))
    (pclGetPosixPermission_plain ctx.configKey.permission) c.os
  have hkept : pathOutcome com env ctx c = .kept → (c.os.content ctx.dbPath).isSome :=
    isSome_of_kept
  unfold pathOutcome at hkept ⊢
  generalize checkOutcome env ctx.dbPath _ _ _ c.os = outcome at *
  generalize pclVerifyConsistency env ctx.dbPath _ _ _ c.os = r at *
  -- the file is found behind the check as before it
  have entered : ∀ {os : Os}, c.os.Opens ∅ os → os.fs.names = c.os.fs.names → ∀ backup csum,
      c.UnmovedIf (NothingToCreate ctx c)
        (enterPath com appId env ctx resourceId backup csum { c with os }).2 := by
    intro os hopens hnames backup csum
    have hsettles := enterPath_settles com appId env ctx resourceId backup csum { c with os }
    have hiff : NothingToCreate ctx { c with os } ↔ NothingToCreate ctx c := by
      unfold NothingToCreate Os.content Fs.content
      rw [Option.isSome_map, Option.isSome_map, hnames]
    rw [hiff] at hsettles
    exact ⟨fun h => (Client.unmoved_os hopens).trans (hsettles.1 h),
      fun h => .of_unmoved (Client.unmoved_os hopens) (hsettles.2 h)⟩
  cases hends with
  | unchecked hopens hdisk hclock =>
    exact entered hopens (congrArg Fs.names (congrArg Logged.now hdisk)) _ _
  | kept hpos hnew hopens hnames =>
    dsimp only
    rw [if_neg (by omega), if_pos hpos]
    have hclosed := hopens.close_new (Set.notMem_empty _)
    refine ⟨fun _ => (entered hclosed ?_ _ _).1 (Or.inl (hkept rfl)),
      fun hnot => absurd trivial hnot⟩
    rw [← hnames]
    exact congrArg Fs.names (congrArg Logged.now (Os.close_disk _ _))
  | refused hopens =>
    exact ⟨fun _ => Client.unmoved_os hopens, fun hnot => absurd trivial hnot⟩
  | lost hnew hopens =>
    have hlost := hopens.opened _ (Set.mem_insert _ _)
    exact ⟨False.elim, fun _ => .descriptor hlost.1 hlost.2⟩

end Path

end PersClient.File
