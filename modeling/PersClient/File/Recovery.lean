import PersClient.File.Descriptors

/-! # The recovery decision

The table an opening decides by when it finds a backup or a checksum file, and
the states of the three files in which `pclVerifyConsistency` follows it. The
code departs from the table where the original is missing, where the checksum
file is empty, where the original cannot be read through the descriptor, and
where it forgets the descriptor of an original it rejects.
-/

namespace PersClient.File

section Lost

variable {os os₁ : Os} {A : Set ℤ} {k fd : ℤ} {env : Env} {lost : Prop}

/-- The call ends in one of the outcomes; where it fails, a descriptor it does
not return stays open exactly if `lost` says so. -/
def GrantsLosing (lost : Prop) (os : Os) (A : Set ℤ) (r : ℤ × Os) : Prop :=
  ∃ B, Outcome A r.1 B ∧ os.Opens B r.2 ∧ (r.1 = -1 → (B ≠ A ↔ lost))

theorem GrantsLosing.close {h : ℤ} {os' : Os}
    (hg : GrantsLosing lost os (insert k A) (h, os')) (hk : k ∉ A) :
    GrantsLosing lost os A (h, (os'.close k).2) := by
  obtain ⟨B, hout, hopens, hlost⟩ := hg
  have hmem : k ∈ B := hout.subset (Set.mem_insert k A)
  refine ⟨B \ {k}, hout.diff hk, hopens.close hmem, fun hneg => ?_⟩
  rw [← hlost hneg, not_iff_not]
  constructor
  · rintro rfl
    rw [Set.insert_sdiff_singleton, Set.insert_eq_of_mem hmem]
  · rintro rfl
    exact Set.insert_sdiff_self_of_notMem hk

theorem GrantsLosing.keeps {h : ℤ} {os' os'' : Os} (hg : GrantsLosing lost os A (h, os'))
    (hk : os'.Keeps os'') : GrantsLosing lost os A (h, os'') := by
  obtain ⟨B, hout, hopens, hlost⟩ := hg
  exact ⟨B, hout, hopens.keeps hk, hlost⟩

theorem openPath_ne_neg_one {path : CStr} (flags : OpenFlags) (hq : env.Quiet path)
    (ht : flags.trunc = false) (hc : os.content path ≠ none) :
    (os.openPath env path flags).1 ≠ -1 := by
  obtain ⟨c, hc⟩ := Option.ne_none_iff_exists'.mp hc
  obtain ⟨i, hi, -⟩ := Fs.content_eq_some.mp hc
  obtain ⟨os', heq, -⟩ := Os.openPath_existing flags hq hi ht
  rw [heq]
  show (os.fds.lowestFree : ℤ) ≠ -1
  omega

theorem Os.Opens.openSide (h : os.Opens A os₁) {path : CStr} (hq : env.Quiet path)
    (hc : os₁.content path ≠ none) (check : ℤ → Os → ℤ × Os)
    (hcheck : ∀ fd os₂, 0 ≤ fd → fd ∉ A → os.Opens (insert fd A) os₂ → os₂.disk = os₁.disk →
      GrantsLosing lost os (insert fd A) (check fd os₂)) :
    GrantsLosing lost os A (openChecked env path check os₁) := by
  unfold openChecked
  have hne := openPath_ne_neg_one oRdonly hq rfl hc
  rcases h.openPath env path oRdonly with ⟨hneg, -⟩ | ⟨hpos, hnew, hopens⟩
  · exact absurd hneg hne
  · simp only [hne, ne_eq, not_false_eq_true, if_true]
    exact (hcheck _ _ hpos hnew hopens (Os.openPath_disk rfl rfl)).close hnew

variable {origPath backupPath csumPath : CStr} {flags : OpenFlags}

theorem openPath_missing_neg_one (hq : env.Quiet origPath) (hplain : flags.Plain)
    (ho : os₁.content origPath = none) : (os₁.openPath env origPath flags).1 = -1 := by
  obtain ⟨os', heq, -⟩ := Os.openPath_missing flags hq (Fs.content_eq_none.mp ho) hplain.1
  rw [heq]

theorem keepIfMatching_losing (h : os.Opens A os₁) (hq : env.Quiet origPath)
    (hplain : flags.Plain) (csum : Bytes) :
    GrantsLosing (os₁.content origPath ≠ none) os A
      (keepIfMatching env origPath flags csum os₁) := by
  unfold keepIfMatching
  rcases h.openPath env origPath flags with ⟨hneg, hopens⟩ | ⟨hpos, hnew, hopens⟩
  · simp only [hneg, ne_eq, not_true_eq_false, if_false]
    refine ⟨A, .failed, hopens, fun _ => iff_of_false (by simp) ?_⟩
    intro ho
    exact openPath_ne_neg_one flags hq hplain.2 ho hneg
  · have hne : (os₁.openPath env origPath flags).1 ≠ -1 := by omega
    have ho : os₁.content origPath ≠ none := fun ho => hne (openPath_missing_neg_one hq hplain ho)
    have hsum := hopens.keeps (pclCalcCrc32Csum_keeps (os₁.openPath env origPath flags).1 _)
    simp only [hne, ne_eq, not_false_eq_true, if_true]
    split
    · refine ⟨_, .leaked hpos hnew, hsum.close_negative neg_one_lt_zero,
        fun _ => iff_of_true ?_ ho⟩
      intro heq
      exact hnew (heq ▸ Set.mem_insert _ A)
    · exact ⟨_, .opened hpos hnew, hsum, fun hneg => absurd hneg hne⟩

theorem judgeBoth_losing (h : os.Opens A os₁) (fdBackup : ℤ) (backCsum : Bytes) (fdCsum : ℤ) :
    GrantsLosing False os A (judgeBoth env origPath flags fdBackup backCsum fdCsum os₁) := by
  have hread := h.keeps (readCsum_keeps fdCsum os₁)
  have hfailed : ∀ {os' : Os}, os.Opens A os' → GrantsLosing False os A (-1, os') :=
    fun hopens => ⟨A, .failed, hopens, fun _ => by simp⟩
  have hopened : ∀ {handle : ℤ} {os' : Os}, 0 ≤ handle → handle ∉ A →
      os.Opens (insert handle A) os' → GrantsLosing False os A (handle, os') := by
    intro handle os' hpos hnew hopens
    refine ⟨_, .opened hpos hnew, hopens, fun hneg => ?_⟩
    simp only at hneg
    omega
  unfold judgeBoth
  dsimp only
  split
  · split
    · unfold pclRecoverFromBackup
      rcases hread.openPath env origPath { oRdwr with trunc := true } with
        ⟨hneg, hopens⟩ | ⟨hpos, hnew, hopens⟩
      · simp only [hneg, ne_eq, not_true_eq_false, if_false]
        exact hfailed hopens
      · have hne := show ((readCsum fdCsum os₁).2.openPath env origPath
          { oRdwr with trunc := true }).1 ≠ -1 by omega
        simp only [hne, ne_eq, not_false_eq_true, if_true]
        exact hopened hpos hnew (hopens.keeps (pclBackupDoFileCopy_keeps env fdBackup _ _))
    · rcases hread.openPath env origPath flags with ⟨hneg, hopens⟩ | ⟨hpos, hnew, hopens⟩
      · simp only [hneg, ne_eq, not_true_eq_false, if_false]
        exact hfailed hopens
      · have hne : ((readCsum fdCsum os₁).2.openPath env origPath flags).1 ≠ -1 := by omega
        have hsum := hopens.keeps
          (pclCalcCrc32Csum_keeps ((readCsum fdCsum os₁).2.openPath env origPath flags).1 _)
        simp only [hne, ne_eq, not_false_eq_true, if_true]
        split
        · exact hfailed (hsum.close_new hnew)
        · exact hopened hpos hnew hsum
  · exact ⟨_, .unopened, hread, fun hneg => absurd (show (0 : ℤ) = -1 from hneg) (by decide)⟩

variable (h : os.Opens A os₁) (ho : env.Quiet origPath) (hplain : flags.Plain)

include h ho hplain

theorem verifyCsumOnly_losing (hs : env.Quiet csumPath) (hc : os₁.content csumPath ≠ none) :
    GrantsLosing (os₁.content origPath ≠ none) os A
      (verifyCsumOnly env origPath csumPath flags os₁) := by
  rw [verifyCsumOnly_eq]
  apply h.openSide hs hc
  intro fd os₂ _ _ hopens hdisk
  have hread := (Os.read_frame fd checksumBufSize os₂).1
  have hcontent : (readCsum fd os₂).2.content origPath = os₁.content origPath := by
    unfold Os.content Os.fs
    rw [← hdisk, ← hread]
    rfl
  rw [← hcontent]
  exact keepIfMatching_losing (hopens.keeps (readCsum_keeps fd os₂)) ho hplain _

theorem verifyBackupOnly_losing (hb : env.Quiet backupPath) (hc : os₁.content backupPath ≠ none) :
    GrantsLosing (os₁.content origPath ≠ none) os A
      (verifyBackupOnly env origPath backupPath flags os₁) := by
  rw [verifyBackupOnly_eq]
  apply h.openSide hb hc
  intro fd os₂ _ _ hopens hdisk
  obtain ⟨f, hf⟩ := Option.isSome_iff_exists.mp (hopens.opened fd (Set.mem_insert fd A)).2
  obtain ⟨os₃, hsum, hsame⟩ := pclCalcCrc32Csum_open hf
  have hcontent : os₃.content origPath = os₁.content origPath := by
    unfold Os.content Os.fs
    rw [← hdisk, ← hsame.disk]
  simp only [checkBackup, hsum]
  rw [← hcontent]
  exact keepIfMatching_losing (hopens.keeps hsame.keeps) ho hplain _

omit ho hplain in
theorem verifyBackupAndCsum_losing (hb : env.Quiet backupPath) (hs : env.Quiet csumPath)
    (hbackup : os₁.content backupPath ≠ none) (hc : os₁.content csumPath ≠ none) :
    GrantsLosing False os A (verifyBackupAndCsum env origPath backupPath csumPath flags os₁) := by
  rw [verifyBackupAndCsum_eq]
  apply h.openSide hb hbackup
  intro fdBackup os₂ _ _ hopens hdisk
  obtain ⟨f, hf⟩ := Option.isSome_iff_exists.mp (hopens.opened fdBackup (Set.mem_insert fdBackup A)).2
  obtain ⟨os₃, hsum, hsame⟩ := pclCalcCrc32Csum_open hf
  have hcsum : os₃.content csumPath ≠ none := by
    unfold Os.content Os.fs
    rw [hsame.disk, hdisk]
    exact hc
  simp only [checkBoth, hsum]
  exact (hopens.keeps hsame.keeps).openSide hs hcsum
    (judgeBoth env origPath flags fdBackup (seen f.readable (os₂.fs.data f.ino)))
    fun fdCsum os₄ _ _ hopens _ => judgeBoth_losing hopens fdBackup _ fdCsum

def OneSide (orig backup csum : Option Bytes) : Prop :=
  orig ≠ none ∧ (backup = none ↔ csum ≠ none)

theorem pclVerifyConsistency_losing (hb : env.Quiet backupPath) (hs : env.Quiet csumPath) :
    GrantsLosing (OneSide (os₁.content origPath) (os₁.content backupPath) (os₁.content csumPath))
      os A (pclVerifyConsistency env origPath backupPath csumPath flags os₁) := by
  have hcheck : GrantsLosing
      (OneSide (os₁.content origPath) (os₁.content backupPath) (os₁.content csumPath)) os A
      (if os₁.access backupPath = 0 ∧ os₁.access csumPath = 0 then
        verifyBackupAndCsum env origPath backupPath csumPath flags os₁
      else if os₁.access csumPath = 0 then verifyCsumOnly env origPath csumPath flags os₁
      else if os₁.access backupPath = 0 then verifyBackupOnly env origPath backupPath flags os₁
      else (0, os₁)) := by
    simp only [Os.access_eq_zero]
    unfold OneSide
    by_cases hbackup : os₁.content backupPath = none <;>
      by_cases hcsum : os₁.content csumPath = none <;>
      simp only [hbackup, hcsum, ne_eq, not_true_eq_false, not_false_eq_true, and_self, and_false,
        and_true, if_true, if_false, iff_true, iff_false, iff_self]
    · exact ⟨A, .unopened, h, fun hneg => absurd (show (0 : ℤ) = -1 from hneg) (by decide)⟩
    · exact verifyCsumOnly_losing h ho hplain hs hcsum
    · exact verifyBackupOnly_losing h ho hplain hb hbackup
    · exact verifyBackupAndCsum_losing h hb hs hbackup hcsum
  generalize hr : (if os₁.access backupPath = 0 ∧ os₁.access csumPath = 0 then
      verifyBackupAndCsum env origPath backupPath csumPath flags os₁
    else if os₁.access csumPath = 0 then verifyCsumOnly env origPath csumPath flags os₁
    else if os₁.access backupPath = 0 then verifyBackupOnly env origPath backupPath flags os₁
    else (0, os₁)) = r at hcheck
  simp only [pclVerifyConsistency, hr]
  split
  · exact ((hcheck.keeps (remove_keeps origPath _)).keeps (remove_keeps backupPath _)).keeps
      (remove_keeps csumPath _)
  · exact hcheck

end Lost

section Table

def keepOrig (orig : Option Bytes) (sums : List Bytes) : Verdict :=
  match orig with
  | some o => if sums.contains (csumOf o) then .keep else .corrupt
  | none => .corrupt

/-- What is to be done about the three files. -/
def table : Trio → Verdict
  | ⟨orig, some b, some c⟩ =>
    if textOf c = csumOf b then .restore b else keepOrig orig [textOf c, csumOf b]
  | ⟨orig, none, some c⟩ => keepOrig orig [textOf c]
  | ⟨orig, some b, none⟩ => keepOrig orig [csumOf b]
  | ⟨_, none, none⟩ => .unchecked

/-- Three paths of different files. -/
structure DifferentFiles (origPath backupPath csumPath : CStr) : Prop where
  orig_ne_backup : resolve origPath ≠ resolve backupPath
  orig_ne_csum : resolve origPath ≠ resolve csumPath
  backup_ne_csum : resolve backupPath ≠ resolve csumPath
  backup_ne_nil : resolve backupPath ≠ []
  csum_ne_nil : resolve csumPath ≠ []

variable (origPath backupPath csumPath : CStr)

/-- The contents of the three files. -/
def trioAt (os : Os) : Trio := ⟨os.content origPath, os.content backupPath, os.content csumPath⟩

def NewDescriptor (os : Os) (handle : ℤ) (os' : Os) : Prop :=
  os.fds.get handle = none ∧
    ∃ f, os'.fds.get handle = some f ∧ os'.fs.names (resolve origPath) = some f.ino

/-- A verdict has been carried out. -/
def CarriedOut (os : Os) (handle : ℤ) (os' : Os) : Verdict → Prop
  | .unchecked => handle = 0 ∧ os'.disk = os.disk
  | .keep => os'.disk = os.disk ∧ NewDescriptor origPath os handle os'
  | .restore b => os'.content origPath = some b ∧ NewDescriptor origPath os handle os'
  | .corrupt => handle = -1 ∧ trioAt origPath backupPath csumPath os' = ⟨none, none, none⟩

/-- The only new descriptor is the one returned. -/
def OnlyReturned (os : Os) (handle : ℤ) (os' : Os) : Prop :=
  ∀ fd, os.fds.get fd = none → os'.fds.get fd ≠ none → fd = handle

/-- The state of the files shows what is to be done, through a descriptor that
can be read or not. -/
def Discerns (readable : Bool) : Trio → Prop
  | ⟨orig, some b, some c⟩ => c ≠ [] ∧
    if textOf c = csumOf b then orig ≠ none
    else ∀ o, orig = some o →
      readable = true ∨ (textOf c = [] ∨ b = [] ↔ csumOf o ∈ [textOf c, csumOf b])
  | ⟨orig, none, some c⟩ => ∀ o, orig = some o → csumOf o = textOf c ∧ (readable = true ∨ o = [])
  | ⟨orig, some b, none⟩ => ∀ o, orig = some o → csumOf o = csumOf b ∧ (readable = true ∨ o = [])
  | ⟨_, none, none⟩ => True

end Table

section Sums

theorem csumOf_length_le (c : Bytes) : (csumOf c).length ≤ 8 := by
  unfold csumOf
  split
  · exact Nat.zero_le _
  · have hlt : (pclCrc32 0 c).toNat < 16 ^ 8 := UInt32.toNat_lt _
    simpa [CStr.toBytes] using Text.hex_length_le (by omega) hlt

theorem seen_length_le (readable : Bool) (c : Bytes) : (seen readable c).length ≤ 8 := by
  cases readable with
  | false => exact Nat.zero_le _
  | true => exact csumOf_length_le c

/-- What stands behind the buffer makes no difference to a comparison with a checksum. -/
theorem csumText_eq_iff {c s : Bytes} (hs : s.length ≤ 8) : csumText c = s ↔ textOf c = s := by
  have hcut : csumText c = (textOf c).take checksumBufSize := List.take_takeWhile.symm
  rw [hcut]
  constructor
  · rintro rfl
    have hshort : (textOf c).length ≤ checksumBufSize := by
      rw [List.length_take] at hs
      unfold checksumBufSize at hs ⊢
      omega
    exact (List.take_of_length_le hshort).symm
  · rintro rfl
    exact List.take_of_length_le (hs.trans (by decide))

theorem seen_eq_csumOf_iff {readable : Bool} {o : Bytes} :
    seen readable o = csumOf o ↔ readable = true ∨ o = [] := by
  cases readable with
  | false =>
    show [] = csumOf o ↔ _
    constructor
    · intro h
      exact Or.inr (csumOf_eq_nil h.symm)
    · rintro (h | rfl)
      · cases h
      · rfl
  | true => simp

theorem csumOf_eq_nil_iff {c : Bytes} : csumOf c = [] ↔ c = [] :=
  ⟨csumOf_eq_nil, fun h => by rw [h, csumOf_nil]⟩

end Sums

section Decision

variable {origPath backupPath csumPath : CStr} {os os' : Os} {handle : ℤ} {env : Env}
  {flags : OpenFlags}

/-- Buffers that hold no path at all: with these every three paths of different
files are the paths of a resource. -/
def noRoom : CommonObject := { CommonObject.standard with maxLengthPathFilename := 0 }

theorem createPath_noRoom (path : CStr) : createPath noRoom path = none := rfl

/-- The paths as `Verify` takes them. -/
def DifferentFiles.names (h : DifferentFiles origPath backupPath csumPath) : FileNames noRoom where
  orig := origPath
  backup := backupPath
  csum := csumPath
  orig_ne_backup := h.orig_ne_backup
  orig_ne_csum := h.orig_ne_csum
  backup_ne_csum := h.backup_ne_csum
  backup_ne_nil := h.backup_ne_nil
  csum_ne_nil := h.csum_ne_nil
  created p hp := by rw [createPath_noRoom] at hp; cases hp
  made p hp := by rw [createPath_noRoom] at hp; cases hp

theorem not_newDescriptor_neg_one : ¬ NewDescriptor origPath os (-1) os' := by
  rintro ⟨-, f, hf, -⟩
  have := (FdTable.nonneg_of_get hf).1
  omega

theorem Reopened.newDescriptor {com : CommonObject} {n : FileNames com} {r w : Bool} {k : ℕ}
    {f : OpenFile} (h : Reopened n r w k os handle os' f) : NewDescriptor n.orig os handle os' :=
  ⟨h.fresh, f, by rw [h.get, Function.update_self], h.ino⟩

theorem carriedOut_unchecked_iff (hnil : handle = 0) (hsame : os.Same os') {v : Verdict} :
    CarriedOut origPath backupPath csumPath os handle os' v ↔ v = .unchecked := by
  have hno : ¬ NewDescriptor origPath os handle os' := by
    rintro ⟨hfree, f, hf, -⟩
    rw [hsame.get, hfree] at hf
    cases hf
  subst hnil
  cases v with
  | unchecked => simp [CarriedOut, hsame.disk]
  | keep => simp [CarriedOut, hno]
  | restore b => simp [CarriedOut, hno]
  | corrupt => simp [CarriedOut]

theorem carriedOut_corrupt_iff (hneg : handle = -1)
    (hnone : trioAt origPath backupPath csumPath os' = ⟨none, none, none⟩) {v : Verdict} :
    CarriedOut origPath backupPath csumPath os handle os' v ↔ v = .corrupt := by
  subst hneg
  cases v with
  | unchecked => simp [CarriedOut]
  | keep => simp [CarriedOut, not_newDescriptor_neg_one]
  | restore b => simp [CarriedOut, not_newDescriptor_neg_one]
  | corrupt => simp [CarriedOut, hnone]

theorem Os.Opens.mem_iff {B : Set ℤ} (h : os.Opens B os') (fd : ℤ) :
    fd ∈ B ↔ os.fds.get fd = none ∧ os'.fds.get fd ≠ none := by
  constructor
  · intro hfd
    obtain ⟨hfree, hopen⟩ := h.opened fd hfd
    exact ⟨hfree, Option.isSome_iff_ne_none.mp hopen⟩
  · rintro ⟨hfree, hopen⟩
    by_contra hfd
    have hkept := h.kept fd hfd
    rw [hfree, Option.map_none, Option.map_eq_none_iff] at hkept
    exact hopen hkept

theorem GrantsLosing.onlyReturned_iff {lost : Prop} (h : GrantsLosing lost os ∅ (handle, os')) :
    OnlyReturned os handle os' ↔ (handle = -1 → ¬ lost) := by
  obtain ⟨B, hout, hopens, hlost⟩ := h
  have honly : OnlyReturned os handle os' ↔ ∀ fd ∈ B, fd = handle :=
    forall_congr' fun fd => by rw [hopens.mem_iff fd, and_imp]
  simp only at hout hlost
  rw [honly]
  cases hout with
  | failed => exact iff_of_true (by simp) fun hneg hl => ((hlost hneg).mpr hl) rfl
  | opened hpos _ => exact iff_of_true (by simp) fun hneg => absurd hneg (by omega)
  | leaked hpos _ =>
    refine iff_of_false (fun hall => ?_) fun hno => hno rfl ((hlost rfl).mp ?_)
    · have := hall _ (Set.mem_insert _ _)
      omega
    · exact (Set.insert_nonempty _ _).ne_empty
  | unopened => exact iff_of_true (by simp) fun hneg => absurd hneg (by omega)

theorem one_side_iff {readable : Bool} {orig : Option Bytes} {s : Bytes} :
    (judgeOrig readable orig [s] = keepOrig orig [s] ∧
      (judgeOrig readable orig [s] = .corrupt → orig = none)) ↔
      ∀ o, orig = some o → csumOf o = s ∧ (readable = true ∨ o = []) := by
  cases orig with
  | none => simp [judgeOrig, keepOrig]
  | some o =>
    simp only [judgeOrig, keepOrig, List.contains_iff_mem, List.mem_singleton, Option.some.injEq, forall_eq', reduceCtorEq,
      imp_false]
    rw [← seen_eq_csumOf_iff]
    constructor
    · rintro ⟨hsame, hkept⟩
      have hseen : seen readable o = s := by
        by_contra hne
        exact hkept (if_neg hne)
      rw [if_pos hseen] at hsame
      have hsum : csumOf o = s := by
        by_contra hne
        rw [if_neg hne] at hsame
        cases hsame
      exact ⟨hsum, hseen.trans hsum.symm⟩
    · rintro ⟨hsum, hseen⟩
      rw [if_pos (hseen.trans hsum), if_pos hsum]
      exact ⟨rfl, by simp⟩

theorem judgeOrig_eq_keepOrig_iff {readable : Bool} {orig : Option Bytes} {c b : Bytes} :
    judgeOrig readable orig [textOf c, csumOf b] = keepOrig orig [textOf c, csumOf b] ↔
      ∀ o, orig = some o →
        readable = true ∨ (textOf c = [] ∨ b = [] ↔ csumOf o ∈ [textOf c, csumOf b]) := by
  cases orig with
  | none => simp [judgeOrig, keepOrig]
  | some o =>
    have hverdicts : ∀ {p q : Prop} [Decidable p] [Decidable q],
        ((if p then Verdict.keep else .corrupt) = if q then .keep else .corrupt) ↔ (p ↔ q) := by
      intro p q _ _
      by_cases hp : p <;> by_cases hq : q <;> simp [hp, hq]
    simp only [judgeOrig, keepOrig, List.contains_iff_mem, Option.some.injEq, forall_eq', hverdicts]
    cases readable with
    | true => simp
    | false =>
      have hempty : seen false o ∈ [textOf c, csumOf b] ↔ textOf c = [] ∨ b = [] := by
        show [] ∈ [textOf c, csumOf b] ↔ _
        rw [List.mem_pair, eq_comm (b := textOf c), eq_comm (b := csumOf b), csumOf_eq_nil_iff]
      simp only [hempty, Bool.false_eq_true, false_or]

theorem judge_both_eq (readable : Bool) (orig : Option Bytes) (b c : Bytes) :
    judge readable ⟨orig, some b, some c⟩ =
      if c = [] then .unchecked
      else if textOf c = csumOf b then (match orig with | some _ => .restore b | none => .corrupt)
      else judgeOrig readable orig [textOf c, csumOf b] := by
  have hmem : ∀ o, seen readable o ∈ [csumText c, csumOf b] ↔
      seen readable o ∈ [textOf c, csumOf b] := by
    intro o
    rw [List.mem_pair, List.mem_pair, eq_comm, csumText_eq_iff (seen_length_le readable o), eq_comm]
  cases orig with
  | none => simp only [judge, csumText_eq_iff (csumOf_length_le b), judgeOrig]
  | some o => simp only [judge, csumText_eq_iff (csumOf_length_le b), judgeOrig, hmem]

theorem judge_csum_eq (readable : Bool) (orig : Option Bytes) (c : Bytes) :
    judge readable ⟨orig, none, some c⟩ = judgeOrig readable orig [textOf c] := by
  have hmem : ∀ o, seen readable o ∈ [csumText c] ↔ seen readable o ∈ [textOf c] := by
    intro o
    rw [List.mem_singleton, List.mem_singleton, eq_comm,
      csumText_eq_iff (seen_length_le readable o), eq_comm]
  simp only [judge, judgeOrig, hmem]

theorem discerns_iff (readable : Bool) (t : Trio) :
    Discerns readable t ↔ judge readable t = table t ∧
      (judge readable t = .corrupt → ¬ OneSide t.orig t.backup t.csum) := by
  obtain ⟨orig, backup, csum⟩ := t
  cases backup with
  | none =>
    cases csum with
    | none => simp [Discerns, judge, table]
    | some c =>
      rw [judge_csum_eq]
      simp only [Discerns, table, OneSide]
      rw [← one_side_iff]
      simp
  | some b =>
    cases csum with
    | none =>
      simp only [Discerns, judge, table, OneSide]
      rw [← one_side_iff]
      simp
    | some c =>
      rw [judge_both_eq]
      simp only [Discerns, table, OneSide]
      by_cases hnil : c = []
      · refine iff_of_false (fun h => h.1 hnil) fun h => ?_
        rw [if_pos hnil] at h
        have := h.1
        split at this
        · cases this
        · unfold keepOrig at this
          split at this
          · split at this <;> cases this
          · cases this
      · by_cases htext : textOf c = csumOf b
        · cases orig <;> simp [hnil, htext]
        · rw [if_neg hnil, if_neg htext, if_neg htext, if_neg htext, judgeOrig_eq_keepOrig_iff]
          simp [hnil]

theorem keepOrig_cases (orig : Option Bytes) (sums : List Bytes) :
    keepOrig orig sums = .keep ∨ keepOrig orig sums = .corrupt := by
  unfold keepOrig
  split
  · split
    · exact Or.inl rfl
    · exact Or.inr rfl
  · exact Or.inr rfl

theorem table_of_keep {readable : Bool} {t : Trio} (h : judge readable t = .keep) :
    table t = .keep ∨ table t = .corrupt := by
  obtain ⟨orig, backup | b, csum | c⟩ := t
  · cases h
  · exact keepOrig_cases _ _
  · exact keepOrig_cases _ _
  · rw [judge_both_eq] at h
    split at h
    · cases h
    · rename_i hne
      split at h
      · split at h <;> cases h
      · rename_i htext
        simp only [table, if_neg htext]
        exact keepOrig_cases _ _

theorem table_of_restore {readable : Bool} {t : Trio} {x : Bytes}
    (h : judge readable t = .restore x) : table t = .restore x := by
  have hkept : ∀ {orig sums}, judgeOrig readable orig sums ≠ .restore x := by
    intro orig sums hr
    rcases judgeOrig_cases readable orig sums with hk | hk <;> rw [hk] at hr <;> cases hr
  obtain ⟨orig, backup | b, csum | c⟩ := t
  · cases h
  · exact absurd h hkept
  · exact absurd h hkept
  · rw [judge_both_eq] at h
    split at h
    · cases h
    · split at h
      · rename_i htext
        split at h
        · simp only [table, if_pos htext]
          exact h
        · cases h
      · exact absurd h hkept

/-- What the code does is what the table says exactly if the verdicts are the same. -/
theorem carriedOut_table_iff (hpaths : DifferentFiles origPath backupPath csumPath)
    {t : Trio} {k : ℕ}
    (h : (judge flags.read t ≠ .corrupt ∧
        Judged hpaths.names flags k os handle os' (judge flags.read t)) ∨
      (judge flags.read t = .corrupt ∧ handle = -1 ∧
        trioAt origPath backupPath csumPath os' = ⟨none, none, none⟩)) :
    (CarriedOut origPath backupPath csumPath os handle os' (table t) ↔
      judge flags.read t = table t) ∧ (handle = -1 ↔ judge flags.read t = .corrupt) := by
  rcases h with ⟨hne, hj⟩ | ⟨hv, hneg, hnone⟩
  · refine ⟨?_, hj.eq_neg_one_iff⟩
    cases hv : judge flags.read t with
    | unchecked =>
      rw [hv] at hj
      rw [carriedOut_unchecked_iff hj.1 hj.2, eq_comm]
    | keep =>
      rw [hv] at hj
      obtain ⟨hdisk, f, hre⟩ := hj
      rcases table_of_keep hv with ht | ht <;> rw [ht]
      · exact iff_of_true ⟨hdisk, hre.newDescriptor⟩ rfl
      · refine iff_of_false ?_ (by simp)
        rintro ⟨hneg, -⟩
        have := hre.nonneg
        omega
    | restore x =>
      rw [hv] at hj
      obtain ⟨⟨os₁, -, hfull⟩, f, hre⟩ := hj
      rw [table_of_restore hv]
      refine iff_of_true ⟨?_, hre.newDescriptor⟩ rfl
      exact (hfull.content (resolve origPath)).trans (if_pos rfl)
    | corrupt => exact absurd hv hne
  · rw [carriedOut_corrupt_iff hneg hnone, hv, eq_comm]
    exact ⟨Iff.rfl, by simp [hneg]⟩

/-- For a writable resource the table is followed and no descriptor but the one
returned stays open exactly if the three files show what is to be done. -/
theorem recovery_follows_table_iff (hpaths : DifferentFiles origPath backupPath csumPath)
    (hflags : flags = oRdwr ∨ flags = oWronly) (ho : env.Quiet origPath)
    (hb : env.Quiet backupPath) (hs : env.Quiet csumPath) (os : Os) :
    (∃ handle os', pclVerifyConsistency env origPath backupPath csumPath flags os = (handle, os') ∧
      CarriedOut origPath backupPath csumPath os handle os'
        (table (trioAt origPath backupPath csumPath os)) ∧
      OnlyReturned os handle os') ↔
    Discerns flags.read (trioAt origPath backupPath csumPath os) := by
  have hplain : flags.Plain := by
    rcases hflags with rfl | rfl <;> exact ⟨rfl, rfl⟩
  obtain ⟨handle, os', heq, hverdict⟩ := pclVerifyConsistency_judged (n := hpaths.names) os hplain
    ho (Or.inl ⟨hb, hs⟩)
  have hlosing := pclVerifyConsistency_losing (Os.Opens.refl os) ho hplain hb hs
  replace heq : pclVerifyConsistency env origPath backupPath csumPath flags os = (handle, os') := heq
  rw [heq] at hlosing ⊢
  replace hverdict : (judge flags.read (trioAt origPath backupPath csumPath os) ≠ .corrupt ∧
      Judged hpaths.names flags 2 os handle os'
        (judge flags.read (trioAt origPath backupPath csumPath os))) ∨
      (judge flags.read (trioAt origPath backupPath csumPath os) = .corrupt ∧ handle = -1 ∧
        trioAt origPath backupPath csumPath os' = ⟨none, none, none⟩) := hverdict
  obtain ⟨hcarried, hneg⟩ := carriedOut_table_iff hpaths hverdict
  rw [discerns_iff]
  constructor
  · rintro ⟨handle', os'', hsame, htable, honly⟩
    cases hsame
    exact ⟨hcarried.mp htable, fun hv => hlosing.onlyReturned_iff.mp honly (hneg.mpr hv)⟩
  · rintro ⟨hsame, hkept⟩
    exact ⟨handle, os', rfl, hcarried.mpr hsame,
      hlosing.onlyReturned_iff.mpr fun h => hkept (hneg.mp h)⟩

/-- A document and its side files, as far as there are any. -/
def threeFiles (orig backup csum : Option Bytes) : Os where
  disk := ⟨[(cstr "/doc", orig), (cstr "/doc~", backup), (cstr "/doc.crc", csum)].foldl
    (fun fs (path, content) => content.elim fs ((fs.create (resolve path)).setData fs.next))
    Fs.empty, []⟩
  fds := .empty
  errno := .other
  clock := 0

theorem doc_different : DifferentFiles (cstr "/doc") (cstr "/doc~") (cstr "/doc.crc") := by
  constructor <;> decide +kernel

theorem doc_recovers :
    ∃ handle os', pclVerifyConsistency .reliable (cstr "/doc") (cstr "/doc~") (cstr "/doc.crc")
        oRdwr (threeFiles (some [66]) (some [65]) (some (csumOf [65]))) = (handle, os') ∧
      CarriedOut (cstr "/doc") (cstr "/doc~") (cstr "/doc.crc")
        (threeFiles (some [66]) (some [65]) (some (csumOf [65]))) handle os'
        (table (trioAt (cstr "/doc") (cstr "/doc~") (cstr "/doc.crc")
          (threeFiles (some [66]) (some [65]) (some (csumOf [65]))))) ∧
      OnlyReturned (threeFiles (some [66]) (some [65]) (some (csumOf [65]))) handle os' := by
  refine (recovery_follows_table_iff doc_different (Or.inl rfl) (Env.quiet_reliable _)
    (Env.quiet_reliable _) (Env.quiet_reliable _) _).mpr ?_
  have htrio : trioAt (cstr "/doc") (cstr "/doc~") (cstr "/doc.crc")
      (threeFiles (some [66]) (some [65]) (some (csumOf [65]))) =
      ⟨some [66], some [65], some (csumOf [65])⟩ := by decide +kernel
  rw [htrio]
  exact ⟨by decide +kernel, by rw [if_pos (by decide +kernel)]; simp⟩

/-- A document that does not match its only side file is removed, but its
descriptor stays open; and a good backup is removed with its checksum file
where the document is missing. -/
theorem mismatch_leaks :
    ¬ (∀ {origPath backupPath csumPath : CStr} {env : Env} {flags : OpenFlags},
      DifferentFiles origPath backupPath csumPath → flags = oRdwr ∨ flags = oWronly →
      env.Quiet origPath → env.Quiet backupPath → env.Quiet csumPath → ∀ os : Os,
      ∃ handle os', pclVerifyConsistency env origPath backupPath csumPath flags os = (handle, os') ∧
        CarriedOut origPath backupPath csumPath os handle os'
          (table (trioAt origPath backupPath csumPath os)) ∧
        OnlyReturned os handle os') ∧
    table ⟨none, some [65], some (csumOf [65])⟩ = .restore [65] ∧
    trioAt (cstr "/doc") (cstr "/doc~") (cstr "/doc.crc")
        (pclVerifyConsistency .reliable (cstr "/doc") (cstr "/doc~") (cstr "/doc.crc") oRdwr
          (threeFiles none (some [65]) (some (csumOf [65])))).2 = ⟨none, none, none⟩ := by
  refine ⟨fun h => ?_, by decide +kernel, by decide +kernel⟩
  obtain ⟨handle, os', heq, -, honly⟩ := h doc_different (Or.inl rfl) (Env.quiet_reliable _)
    (Env.quiet_reliable _) (Env.quiet_reliable _) (threeFiles (some [66]) (some [65]) none)
  have hleft : (pclVerifyConsistency .reliable (cstr "/doc") (cstr "/doc~") (cstr "/doc.crc") oRdwr
      (threeFiles (some [66]) (some [65]) none)).1 = -1 ∧
      (threeFiles (some [66]) (some [65]) none).fds.get 1 = none ∧
      (pclVerifyConsistency .reliable (cstr "/doc") (cstr "/doc~") (cstr "/doc.crc") oRdwr
        (threeFiles (some [66]) (some [65]) none)).2.fds.get 1 ≠ none := by decide +kernel
  rw [heq] at hleft
  have hreturned : (1 : ℤ) = -1 := (honly 1 hleft.2.1 hleft.2.2).trans hleft.1
  cases hreturned

end Decision

end PersClient.File
