import Mathlib.Data.Set.Insert
import PersClient.File.Open

/-! # The descriptors a call leaves open

Whatever goes wrong, each step of the file functions leaves the descriptors
there were alone and opens at most a few new ones. A step may return the new
descriptor, fail without one, or lose one: the consistency check forgets the
descriptor of an original that matches neither of its witnesses.
-/

namespace PersClient.File

open Crash Handle

section Opens

/-- The descriptors in `new` were closed and stand open, all others are as they were. -/
structure Os.Opens (os : Os) (new : Set ℤ) (os' : Os) : Prop where
  kept : ∀ x, x ∉ new → (os'.fds.get x).map OpenFile.file = (os.fds.get x).map OpenFile.file
  opened : ∀ x ∈ new, os.fds.get x = none ∧ (os'.fds.get x).isSome

/-- What a call that opens a file makes of the set of new descriptors. -/
inductive Outcome (A : Set ℤ) : ℤ → Set ℤ → Prop
  | failed : Outcome A (-1) A
  | opened {k : ℤ} : 0 ≤ k → k ∉ A → Outcome A k (insert k A)
  /-- a descriptor stands open that is not returned -/
  | leaked {k : ℤ} : 0 ≤ k → k ∉ A → Outcome A (-1) (insert k A)
  /-- the result stands for success without a descriptor -/
  | unopened : Outcome A 0 A

variable {os os₁ os₂ : Os} {A B : Set ℤ} {k fd : ℤ} {f : OpenFile}

namespace Os

theorem Opens.refl (os : Os) : Opens os ∅ os := ⟨fun _ _ => rfl, fun _ h => absurd h id⟩

theorem Opens.keeps (h : Opens os A os₁) (hk : Keeps os₁ os₂) : Opens os A os₂ := by
  refine ⟨fun x hx => (hk x).trans (h.kept x hx), fun x hx => ⟨(h.opened x hx).1, ?_⟩⟩
  rw [hk.isSome]
  exact (h.opened x hx).2

/-- A descriptor that was open before is no new one and still leads to its file. -/
theorem Opens.get (h : Opens os A os₁) (hf : os.fds.get fd = some f) :
    fd ∉ A ∧ ∃ f', os₁.fds.get fd = some f' ∧ f'.file = f.file := by
  have hnew : fd ∉ A := by
    intro hmem
    rw [(h.opened fd hmem).1] at hf
    cases hf
  have hmap := h.kept fd hnew
  rw [hf, Option.map_some, Option.map_eq_some_iff] at hmap
  exact ⟨hnew, hmap⟩

theorem Opens.free (h : Opens os A os₁) (hfree : os₁.fds.get fd = none) :
    os.fds.get fd = none ∧ fd ∉ A := by
  have hnew : fd ∉ A := by
    intro hmem
    have hsome := (h.opened fd hmem).2
    rw [hfree] at hsome
    cases hsome
  have hmap := h.kept fd hnew
  rw [hfree, Option.map_none] at hmap
  exact ⟨Option.map_eq_none_iff.mp hmap.symm, hnew⟩

theorem Opens.install (h : Opens os A os₁) (hfree : os₁.fds.get fd = none)
    (hget : os₂.fds.get = Function.update os₁.fds.get fd (some f)) : Opens os (insert fd A) os₂ := by
  obtain ⟨hnone, hnew⟩ := h.free hfree
  constructor
  · intro x hx
    rw [Set.mem_insert_iff, not_or] at hx
    rw [hget, Function.update_of_ne hx.1]
    exact h.kept x hx.2
  · intro x hx
    rw [hget]
    rcases Set.mem_insert_iff.mp hx with rfl | hx
    · exact ⟨hnone, by rw [Function.update_self]; rfl⟩
    · rw [Function.update_of_ne (ne_of_mem_of_not_mem hx hnew)]
      exact h.opened x hx

/-- The result of a call that fails or adds a descriptor and returns it. -/
def OpensOne (os : Os) (A : Set ℤ) (r : ℤ × Os) : Prop :=
  r.1 = -1 ∧ Opens os A r.2 ∨ 0 ≤ r.1 ∧ r.1 ∉ A ∧ Opens os (insert r.1 A) r.2

theorem Opens.openPath (h : Opens os A os₁) (env : Env) (path : CStr) (flags : OpenFlags) :
    OpensOne os A (os₁.openPath env path flags) := by
  unfold OpensOne
  rcases openPath_fds env path flags os₁ with ⟨hneg, hget⟩ | ⟨hpos, f, -, hget⟩
  · exact Or.inl ⟨hneg, h.keeps fun x => by rw [hget]⟩
  · have hfree : os₁.fds.get os₁.fds.lowestFree = none := FdTable.get_lowestFree
    rw [hpos]
    exact Or.inr ⟨by omega, (h.free hfree).2, h.install hfree hget⟩

theorem Opens.close (h : Opens os B os₁) (hk : k ∈ B) : Opens os (B \ {k}) (os₁.close k).2 := by
  obtain ⟨hnone, hsome⟩ := h.opened k hk
  obtain ⟨f, hf⟩ := Option.isSome_iff_exists.mp hsome
  obtain ⟨os₂, heq, -, hget⟩ := close_open hf
  rw [heq]
  constructor
  · intro x hx
    rw [hget, Function.update_apply]
    split
    · rename_i hxk
      rw [hxk, hnone]
    · rename_i hxk
      exact h.kept x fun hxB => hx ⟨hxB, hxk⟩
  · rintro x ⟨hx, hxk⟩
    rw [hget, Function.update_of_ne hxk]
    exact h.opened x hx

theorem Opens.close_new (h : Opens os (insert k A) os₁) (hk : k ∉ A) :
    Opens os A (os₁.close k).2 := by
  have hclose := h.close (Set.mem_insert k A)
  rwa [Set.insert_sdiff_self_of_notMem hk] at hclose

theorem Opens.close_negative (h : Opens os A os₁) (hk : k < 0) : Opens os A (os₁.close k).2 := by
  obtain ⟨os₂, heq, hsame⟩ : ∃ os₂, os₁.close k = (-1, os₂) ∧ Same os₁ os₂ := Os.close_negative hk
  rw [heq]
  exact h.keeps hsame.keeps

end Os

/-- A result in terms of the descriptors new since `os`. -/
def Grants (os : Os) (A : Set ℤ) (r : ℤ × Os) : Prop := ∃ B, Outcome A r.1 B ∧ os.Opens B r.2

theorem Outcome.subset {e : ℤ} (h : Outcome A e B) : A ⊆ B := by
  cases h with
  | failed => exact subset_rfl
  | opened => exact Set.subset_insert _ _
  | leaked => exact Set.subset_insert _ _
  | unopened => exact subset_rfl

theorem Outcome.diff {e : ℤ} (h : Outcome (insert k A) e B) (hk : k ∉ A) : Outcome A e (B \ {k}) := by
  have shrink : insert k A \ {k} = A := Set.insert_sdiff_self_of_notMem hk
  have swap : ∀ {j}, j ∉ insert k A → insert j (insert k A) \ {k} = insert j A := by
    intro j hj
    rw [Set.insert_sdiff_of_notMem, shrink]
    exact fun heq => hj (Or.inl heq)
  have out : ∀ {j}, j ∉ insert k A → j ∉ A := fun hj hmem => hj (Or.inr hmem)
  cases h with
  | failed =>
    rw [shrink]
    exact .failed
  | opened hj hnew =>
    rw [swap hnew]
    exact .opened hj (out hnew)
  | leaked hj hnew =>
    rw [swap hnew]
    exact .leaked hj (out hnew)
  | unopened =>
    rw [shrink]
    exact .unopened

theorem Grants.close {h : ℤ} {os' : Os} (hg : Grants os (insert k A) (h, os')) (hk : k ∉ A) :
    Grants os A (h, (os'.close k).2) := by
  obtain ⟨B, hout, hopens⟩ := hg
  exact ⟨B \ {k}, hout.diff hk, hopens.close (hout.subset (Set.mem_insert k A))⟩

theorem Grants.keeps {h : ℤ} {os' os'' : Os} (hg : Grants os A (h, os')) (hk : os'.Keeps os'') :
    Grants os A (h, os'') := by
  obtain ⟨B, hout, hopens⟩ := hg
  exact ⟨B, hout, hopens.keeps hk⟩

end Opens

section Checks

variable {os os₁ : Os} {A : Set ℤ} {env : Env}

theorem readChunks_keeps (fd : ℤ) (count n : ℕ) (os : Os) : os.Keeps (readChunks fd count n os).2 := by
  induction n generalizing os with
  | zero => exact .refl os
  | succ n ih =>
    have hread := (Os.read_frame fd count os).2
    unfold readChunks
    split
    · rename_i b bs os₁ heq
      rw [heq] at hread
      exact hread.trans (ih os₁)
    · rename_i os₁ _ heq
      rw [heq] at hread
      exact hread

theorem pclCalcCrc32Csum_keeps (fd : ℤ) (os : Os) : os.Keeps (pclCalcCrc32Csum fd os).2 := by
  unfold pclCalcCrc32Csum
  split
  · exact .refl os
  · rename_i n _
    have hcur := (Os.lseek_frame fd 0 .cur os).2
    dsimp only
    split
    · exact (((hcur.trans (Os.lseek_frame fd 0 .set _).2).trans (readChunks_keeps fd n _ _)).trans
        (Os.lseek_frame fd _ .set _).2)
    · exact (hcur.trans (readChunks_keeps fd n _ _)).trans (Os.lseek_frame fd _ .set _).2

theorem pclBackupDoFileCopy_keeps (env : Env) (srcFd dstFd : ℤ) (os : Os) :
    os.Keeps (pclBackupDoFileCopy env srcFd dstFd os).2 := by
  unfold pclBackupDoFileCopy
  split
  · exact .refl os
  · exact (Os.sendfile_keeps env dstFd srcFd _ os).trans (Os.lseek_frame dstFd 0 .set _).2

theorem readCsum_keeps (fd : ℤ) (os : Os) : os.Keeps (readCsum fd os).2 :=
  (Os.read_frame fd checksumBufSize os).2

theorem remove_keeps (path : CStr) (os : Os) : os.Keeps (os.remove path).2 := fun x => by
  rw [(Os.remove_sets path os).2]

theorem pclRecoverFromBackup_grants (h : os.Opens A os₁) (env : Env) (fd : ℤ) (original : CStr) :
    Grants os A (pclRecoverFromBackup env fd original os₁) := by
  unfold pclRecoverFromBackup
  rcases h.openPath env original { oRdwr with trunc := true } with ⟨hneg, hopens⟩ | ⟨hpos, hnew, hopens⟩
  · simp only [hneg, ne_eq, not_true_eq_false, if_false]
    exact ⟨A, .failed, hopens⟩
  · have hne : (os₁.openPath env original { oRdwr with trunc := true }).1 ≠ -1 := by omega
    simp only [hne, ne_eq, not_false_eq_true, if_true]
    exact ⟨_, .opened hpos hnew, hopens.keeps (pclBackupDoFileCopy_keeps env fd _ _)⟩

theorem keepIfMatching_grants (h : os.Opens A os₁) (env : Env) (origPath : CStr) (flags : OpenFlags)
    (csum : Bytes) : Grants os A (keepIfMatching env origPath flags csum os₁) := by
  unfold keepIfMatching
  rcases h.openPath env origPath flags with ⟨hneg, hopens⟩ | ⟨hpos, hnew, hopens⟩
  · simp only [hneg, ne_eq, not_true_eq_false, if_false]
    exact ⟨A, .failed, hopens⟩
  · have hne : (os₁.openPath env origPath flags).1 ≠ -1 := by omega
    have hsum := hopens.keeps (pclCalcCrc32Csum_keeps (os₁.openPath env origPath flags).1 _)
    simp only [hne, ne_eq, not_false_eq_true, if_true]
    split
    · exact ⟨_, .leaked hpos hnew, hsum.close_negative neg_one_lt_zero⟩
    · exact ⟨_, .opened hpos hnew, hsum⟩

def openChecked (env : Env) (path : CStr) (check : ℤ → Os → ℤ × Os) (os : Os) : ℤ × Os :=
  let (fd, os) := os.openPath env path oRdonly
  if fd ≠ -1 then
    let (handle, os) := check fd os
    (handle, (os.close fd).2)
  else (-1, os)

theorem Os.Opens.checked (h : os.Opens A os₁) (env : Env) (path : CStr)
    (check : ℤ → Os → ℤ × Os)
    (hcheck : ∀ fd os₂, 0 ≤ fd → fd ∉ A → os.Opens (insert fd A) os₂ →
      Grants os (insert fd A) (check fd os₂)) :
    Grants os A (openChecked env path check os₁) := by
  unfold openChecked
  rcases h.openPath env path oRdonly with ⟨hneg, hopens⟩ | ⟨hpos, hnew, hopens⟩
  · simp only [hneg, ne_eq, not_true_eq_false, if_false]
    exact ⟨A, .failed, hopens⟩
  · have hne : (os₁.openPath env path oRdonly).1 ≠ -1 := by omega
    simp only [hne, ne_eq, not_false_eq_true, if_true]
    exact (hcheck _ _ hpos hnew hopens).close hnew

variable (h : os.Opens A os₁) (env : Env) (origPath backupPath csumPath : CStr) (flags : OpenFlags)

/-- What `verifyBackupAndCsum` does while both side files stand open. -/
def judgeBoth (fdBackup : ℤ) (backCsum : Bytes) (fdCsum : ℤ) (os : Os) : ℤ × Os :=
  let (csumBuf, os) := readCsum fdCsum os
  if csumBuf ≠ [] then
    if textOf csumBuf = backCsum then pclRecoverFromBackup env fdBackup origPath os
    else
      let (handle, os) := os.openPath env origPath flags
      if handle ≠ -1 then
        let (origCsum, os) := pclCalcCrc32Csum handle os
        if textOf csumBuf ≠ origCsum ∧ backCsum ≠ origCsum then (-1, (os.close handle).2)
        else (handle, os)
      else (handle, os)
  else (0, os)

/-- What `verifyCsumOnly` does with the open checksum file. -/
def checkCsum (fdCsum : ℤ) (os : Os) : ℤ × Os :=
  let (csumBuf, os) := readCsum fdCsum os
  keepIfMatching env origPath flags (textOf csumBuf) os

/-- What `verifyBackupOnly` does with the open backup. -/
def checkBackup (fdBackup : ℤ) (os : Os) : ℤ × Os :=
  let (backCsum, os) := pclCalcCrc32Csum fdBackup os
  keepIfMatching env origPath flags backCsum os

/-- What `verifyBackupAndCsum` does with the open backup. -/
def checkBoth (fdBackup : ℤ) (os : Os) : ℤ × Os :=
  let (backCsum, os) := pclCalcCrc32Csum fdBackup os
  openChecked env csumPath (judgeBoth env origPath flags fdBackup backCsum) os

theorem verifyCsumOnly_eq (os : Os) : verifyCsumOnly env origPath csumPath flags os =
    openChecked env csumPath (checkCsum env origPath flags) os := rfl

theorem verifyBackupOnly_eq (os : Os) : verifyBackupOnly env origPath backupPath flags os =
    openChecked env backupPath (checkBackup env origPath flags) os := rfl

theorem verifyBackupAndCsum_eq (os : Os) :
    verifyBackupAndCsum env origPath backupPath csumPath flags os =
      openChecked env backupPath (checkBoth env origPath csumPath flags) os := rfl

include h

theorem judgeBoth_grants (fdBackup : ℤ) (backCsum : Bytes) (fdCsum : ℤ) :
    Grants os A (judgeBoth env origPath flags fdBackup backCsum fdCsum os₁) := by
  have hread := h.keeps (readCsum_keeps fdCsum os₁)
  unfold judgeBoth
  dsimp only
  split
  · split
    · exact pclRecoverFromBackup_grants hread env fdBackup origPath
    · rcases hread.openPath env origPath flags with ⟨hneg, hopens⟩ | ⟨hpos, hnew, hopens⟩
      · simp only [hneg, ne_eq, not_true_eq_false, if_false]
        exact ⟨_, .failed, hopens⟩
      · have hne : ((readCsum fdCsum os₁).2.openPath env origPath flags).1 ≠ -1 := by omega
        have hsum := hopens.keeps
          (pclCalcCrc32Csum_keeps ((readCsum fdCsum os₁).2.openPath env origPath flags).1 _)
        simp only [hne, ne_eq, not_false_eq_true, if_true]
        split
        · exact ⟨_, .failed, hsum.close_new hnew⟩
        · exact ⟨_, .opened hpos hnew, hsum⟩
  · exact ⟨_, .unopened, hread⟩

theorem verifyCsumOnly_grants : Grants os A (verifyCsumOnly env origPath csumPath flags os₁) := by
  rw [verifyCsumOnly_eq]
  apply h.checked
  intro fd os₂ _ _ hopens
  exact keepIfMatching_grants (hopens.keeps (readCsum_keeps fd os₂)) env origPath flags _

theorem verifyBackupOnly_grants :
    Grants os A (verifyBackupOnly env origPath backupPath flags os₁) := by
  rw [verifyBackupOnly_eq]
  apply h.checked
  intro fd os₂ _ _ hopens
  exact keepIfMatching_grants (hopens.keeps (pclCalcCrc32Csum_keeps fd os₂)) env origPath flags _

theorem verifyBackupAndCsum_grants :
    Grants os A (verifyBackupAndCsum env origPath backupPath csumPath flags os₁) := by
  rw [verifyBackupAndCsum_eq]
  apply h.checked
  intro fdBackup os₂ _ _ hopens
  have hsum := hopens.keeps (pclCalcCrc32Csum_keeps fdBackup os₂)
  exact hsum.checked env csumPath
    (judgeBoth env origPath flags fdBackup (pclCalcCrc32Csum fdBackup os₂).1)
    fun fdCsum os₃ _ _ hopens => judgeBoth_grants hopens env origPath flags fdBackup _ fdCsum

theorem pclVerifyConsistency_grants :
    Grants os A (pclVerifyConsistency env origPath backupPath csumPath flags os₁) := by
  have hcheck : Grants os A
      (if os₁.access backupPath = 0 ∧ os₁.access csumPath = 0 then
        verifyBackupAndCsum env origPath backupPath csumPath flags os₁
      else if os₁.access csumPath = 0 then verifyCsumOnly env origPath csumPath flags os₁
      else if os₁.access backupPath = 0 then verifyBackupOnly env origPath backupPath flags os₁
      else (0, os₁)) := by
    split
    · exact verifyBackupAndCsum_grants h env origPath backupPath csumPath flags
    · split
      · exact verifyCsumOnly_grants h env origPath csumPath flags
      · split
        · exact verifyBackupOnly_grants h env origPath backupPath flags
        · exact ⟨A, .unopened, h⟩
  unfold pclVerifyConsistency
  extract_lets
  split
  rename_i handle os₂ heq
  rw [heq] at hcheck
  split
  · exact hcheck.keeps (((remove_keeps origPath os₂).trans (remove_keeps backupPath _)).trans
      (remove_keeps csumPath _))
  · exact hcheck

end Checks

section Borrowed

variable {os os₁ : Os} {A : Set ℤ}

theorem pclCreateFile_opensOne (h : os.Opens A os₁) (com : CommonObject) (env : Env) (path : CStr) :
    os.OpensOne A (pclCreateFile com env path os₁) := by
  unfold pclCreateFile
  split
  · exact Or.inl ⟨rfl, h⟩
  · exact h.openPath env _ _

theorem Os.OpensOne.borrow {r : ℤ × Os} (h : os.OpensOne A r) {use : ℤ → Os → Os}
    (huse : ∀ fd os₂, Os.Keeps os₂ (use fd os₂)) :
    os.Opens A (if r.1 ≠ -1 then ((use r.1 r.2).close r.1).2 else r.2) := by
  rcases h with ⟨hneg, hopens⟩ | ⟨hpos, hnew, hopens⟩
  · rw [if_neg (not_not.mpr hneg)]
    exact hopens
  · have hne : r.1 ≠ -1 := by omega
    rw [if_pos hne]
    exact (hopens.keeps (huse r.1 r.2)).close_new hnew

theorem copyDefaultData_keeps (env : Env) (handle defaultHandle : ℤ) (os : Os) :
    os.Keeps (copyDefaultData env handle defaultHandle os).2 := by
  unfold copyDefaultData
  split
  · exact .refl os
  · have keeps := Os.sendfile_keeps env handle defaultHandle
    dsimp only
    split
    · exact (keeps _ os).trans (Os.lseek_frame handle 0 .set _).2
    · exact keeps _ os

theorem pclFileGetDefaultData_opens (h : os.Opens A os₁) (com : CommonObject) (appId : CStr)
    (env : Env) (handle : ℤ) (resourceId : CStr) (policy : PersistencePolicy) :
    os.Opens A (pclFileGetDefaultData com appId env handle resourceId policy os₁).2 := by
  unfold pclFileGetDefaultData
  extract_lets configured defaultPath
  have hborrow := (h.openPath env defaultPath oRdonly).borrow
    (fun fd os₂ => copyDefaultData_keeps env handle fd os₂)
  split
  rename_i defaultHandle os₂ heq
  rw [heq] at hborrow
  split
  · rw [if_pos ‹_›] at hborrow
    exact hborrow
  · rw [if_neg ‹_›] at hborrow
    exact hborrow

theorem makeBackupFile_opens (h : os.Opens A os₁) (com : CommonObject) (env : Env) (dstPath : CStr) :
    os.Opens A (makeBackupFile com env dstPath os₁) := by
  unfold makeBackupFile
  split
  · exact (pclCreateFile_opensOne h com env _).borrow (fun _ os₂ => .refl os₂)
  · exact h

theorem writeCsumFile_opens (h : os.Opens A os₁) (env : Env) (csumPath : CStr) (csumBuf : Bytes) :
    os.Opens A (writeCsumFile env csumPath csumBuf os₁) :=
  (h.openPath env csumPath _).borrow (fun fd os₂ => Os.write_keeps env fd csumBuf os₂)

theorem copyToBackup_opens (h : os.Opens A os₁) (env : Env) (dstPath : CStr) (srcfd : ℤ) :
    os.Opens A (copyToBackup env dstPath srcfd os₁).2 := by
  unfold copyToBackup
  rcases h.openPath env dstPath { oWronly with creat := true, trunc := true } with
    ⟨hneg, hopens⟩ | ⟨hpos, hnew, hopens⟩
  · simp only [hneg, ne_eq, not_true_eq_false, if_false]
    exact hopens
  · have hne : (os₁.openPath env dstPath { oWronly with creat := true, trunc := true }).1 ≠ -1 := by
      omega
    have hcur := hopens.keeps (Os.lseek_frame srcfd 0 .cur _).2
    simp only [hne, ne_eq, not_false_eq_true, if_true]
    refine Os.Opens.keeps (Os.Opens.close_new (Os.Opens.keeps ?_
      (pclBackupDoFileCopy_keeps env srcfd _ _)) hnew) (Os.lseek_frame srcfd _ .set _).2
    split
    · exact hcur.keeps (Os.lseek_frame srcfd 0 .set _).2
    · exact hcur

theorem pclCreateBackup_opens (h : os.Opens A os₁) (com : CommonObject) (env : Env) (dstPath : CStr)
    (srcfd : ℤ) (csumPath : CStr) (csumBuf : Bytes) :
    os.Opens A (pclCreateBackup com env dstPath srcfd csumPath csumBuf os₁).2 :=
  copyToBackup_opens (writeCsumFile_opens (makeBackupFile_opens h com env dstPath) env csumPath
    csumBuf) env dstPath srcfd

end Borrowed

end PersClient.File
