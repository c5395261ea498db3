import PersClient.File.WriteThrough

/-! # The names of the side files

The name of a backup and of a checksum file is the path of the resource below
the backup folder with an ending, cut to its buffer. Names that keep the tilde
and one character more are told apart by the text before their last tilde; of a
longer path the two names are one.
-/

namespace PersClient.File

open Text Prct

section Endings

variable {p q s t : CStr}

theorem tilde_append_inj (hs : '~' ∉ s) (ht : '~' ∉ t) :
    p ++ '~' :: s = q ++ '~' :: t ↔ p = q ∧ s = t := by
  have hreverse : p ++ '~' :: s = q ++ '~' :: t ↔
      s.reverse ++ '~' :: p.reverse = t.reverse ++ '~' :: q.reverse := by
    rw [← List.reverse_inj]
    simp only [List.reverse_append, List.reverse_cons, List.append_assoc, List.singleton_append]
  have hs' : '~' ∉ s.reverse := fun h => hs (List.mem_reverse.mp h)
  have ht' : '~' ∉ t.reverse := fun h => ht (List.mem_reverse.mp h)
  rw [hreverse, field_append_inj hs' ht', List.reverse_inj, List.reverse_inj, and_comm]

/-- Two names of different files, cut to `n` characters, are four names
exactly when the tilde and one character behind it remain of each. -/
theorem cut_names_nodup_iff {n : ℕ} (hne : p ≠ q) :
    [(p ++ gBackupPostfix).take n, (p ++ gBackupCsPostfix).take n,
      (q ++ gBackupPostfix).take n, (q ++ gBackupCsPostfix).take n].Nodup ↔
      p.length + 2 ≤ n ∧ q.length + 2 ≤ n := by
  have hback : gBackupPostfix = ['~'] := by simp [gBackupPostfix, cstr_eq]
  have hcsum : gBackupCsPostfix = '~' :: ['.', 'c', 'r', 'c'] := by
    simp [gBackupCsPostfix, cstr_eq]
  rw [hback, hcsum]
  have hcut : ∀ r : CStr, n < r.length + 2 →
      (r ++ ['~']).take n = (r ++ '~' :: ['.', 'c', 'r', 'c']).take n := by
    intro r hlong
    have hsplit : r ++ '~' :: ['.', 'c', 'r', 'c'] = (r ++ ['~']) ++ ['.', 'c', 'r', 'c'] := by simp
    have hle : n ≤ (r ++ ['~']).length := by
      rw [List.length_append, List.length_singleton]
      omega
    rw [hsplit, List.take_append_of_le_length hle]
  constructor
  · intro h
    simp only [List.nodup_cons, List.mem_cons, not_or] at h
    refine ⟨?_, ?_⟩
    · by_contra hlong
      exact h.1.1 (hcut p (by omega))
    · by_contra hlong
      exact h.2.2.1.1 (hcut q (by omega))
  · rintro ⟨hp, hq⟩
    -- what is left of the longer ending
    have hends : ∀ r : CStr, r.length + 2 ≤ n → ∃ s, '~' ∉ '.' :: s ∧
        (r ++ '~' :: ['.', 'c', 'r', 'c']).take n = r ++ '~' :: '.' :: s := by
      intro r hr
      obtain ⟨k, rfl⟩ : ∃ k, n = r.length + (k + 2) := ⟨n - r.length - 2, by omega⟩
      refine ⟨['c', 'r', 'c'].take k, ?_, ?_⟩
      · rw [List.mem_cons, not_or]
        exact ⟨by decide, fun h => absurd (List.mem_of_mem_take h) (by decide)⟩
      · rw [List.take_length_add_append]
        rfl
    have hshort : ∀ r : CStr, r.length + 2 ≤ n → (r ++ ['~']).take n = r ++ ['~'] := by
      intro r hr
      refine List.take_of_length_le ?_
      simp only [List.length_append, List.length_singleton]
      omega
    obtain ⟨s, hs, hcsump⟩ := hends p hp
    obtain ⟨t, ht, hcsumq⟩ := hends q hq
    rw [hshort p hp, hshort q hq, hcsump, hcsumq]
    have hnil : '~' ∉ ([] : CStr) := List.not_mem_nil
    simp only [List.nodup_cons, List.mem_cons, List.not_mem_nil, or_false, not_false_eq_true,
      List.nodup_nil, and_true, tilde_append_inj hnil hnil, tilde_append_inj hnil hs,
      tilde_append_inj hnil ht, tilde_append_inj hs ht, tilde_append_inj hs hnil, hne,
      List.nil_eq, reduceCtorEq, false_and, and_false]

end Endings

variable {com : CommonObject}

/-- For paths of any length: the side files of two resources have four names
exactly when the names keep the tilde and one character behind it. -/
theorem sidePaths_nodup_iff {policy policy' : PersistencePolicy} {dbPath dbPath' : CStr}
    (hne : fileSubPath com policy dbPath ≠ fileSubPath com policy' dbPath') :
    [backupPath com policy dbPath, csumPath com policy dbPath,
      backupPath com policy' dbPath', csumPath com policy' dbPath'].Nodup ↔
      (gBackupPrefix com ++ fileSubPath com policy dbPath).length + 4 ≤ com.maxLengthPathFilename ∧
        (gBackupPrefix com ++ fileSubPath com policy' dbPath').length + 4 ≤
          com.maxLengthPathFilename := by
  unfold backupPath csumPath sidePath snprintf
  rw [cut_names_nodup_iff fun heq => hne (List.append_cancel_left heq)]
  constructor
  · rintro ⟨h, h'⟩
    omega
  · rintro ⟨h, h'⟩
    omega

namespace FileResource

variable (r : FileResource com)

/-- The path of the resource behind the prefix of its policy. -/
def behindPrefix : CStr := r.dbContext.dbPath.drop (policyPrefix com r.info.configKey.policy).length

/-- The names `pclFileOpenRegular` derives for the resource. -/
def sideNames : List CStr :=
  [backupPath com r.info.configKey.policy r.dbContext.dbPath,
    csumPath com r.info.configKey.policy r.dbContext.dbPath]

theorem behindPrefix_eq (h : com.Roomy) : r.behindPrefix = r.subPath := by
  rw [behindPrefix, r.dbPath_eq h, List.drop_left]

theorem fileSubPath_eq (h : com.Roomy) :
    fileSubPath com r.info.configKey.policy r.dbContext.dbPath = r.subPath := by
  have hlen := r.subPath_length_le h
  have hlength : (if r.info.configKey.policy = .wc then (cachePrefix com).length
      else (wtPrefix com).length) = (policyPrefix com r.info.configKey.policy).length := by
    cases hp : r.info.configKey.policy with
    | wc => rfl
    | wt => rfl
    | na => exact absurd hp r.stored
  rw [fileSubPath, hlength, r.dbPath_eq h, List.drop_left]
  exact snprintf_of_lt (by omega)

theorem sideName_ne_dbPath (h : com.Roomy) (r r' : FileResource com) :
    r'.dbContext.dbPath ∉ r.sideNames := by
  have hside : ∀ ending : CStr, ending.length ≤ 5 → r'.dbContext.dbPath ≠
      sidePath com ending r.info.configKey.policy r.dbContext.dbPath := by
    intro ending he heq
    rw [r.sidePath_eq h he, r'.dbPath_eq h] at heq
    cases hp : r'.info.configKey.policy with
    | na => exact r'.stored hp
    | wc =>
      rw [hp, policyPrefix, cachePrefix] at heq
      simp [cstr_eq] at heq
    | wt =>
      rw [hp, policyPrefix, wtPrefix] at heq
      simp [cstr_eq] at heq
  simp only [sideNames, List.mem_cons, List.not_mem_nil, or_false, not_or]
  exact ⟨hside _ (by simp [gBackupPostfix, cstr_eq]), hside _ (by simp [gBackupCsPostfix, cstr_eq])⟩

/-- Two file resources with different paths behind their prefixes have four
different side names, and no resource has one of them for its path. -/
theorem sideNames_distinct (h : com.Roomy) (X Y : FileResource com)
    (hne : X.behindPrefix ≠ Y.behindPrefix) :
    (X.sideNames ++ Y.sideNames).Nodup ∧
      ∀ Z : FileResource com, Z.dbContext.dbPath ∉ X.sideNames ++ Y.sideNames := by
  have hX := X.subPath_length_le h
  have hY := Y.subPath_length_le h
  have hfolder : (cstr "/mnt-backup/").length = 12 := by simp [cstr_eq]
  constructor
  · refine (sidePaths_nodup_iff ?_).mpr ⟨?_, ?_⟩
    · rwa [X.fileSubPath_eq h, Y.fileSubPath_eq h, ← X.behindPrefix_eq h, ← Y.behindPrefix_eq h]
    · rw [X.fileSubPath_eq h, gBackupPrefix, List.length_append, List.length_append, hfolder]
      omega
    · rw [Y.fileSubPath_eq h, gBackupPrefix, List.length_append, List.length_append, hfolder]
      omega
  · intro Z hZ
    rcases List.mem_append.mp hZ with hZ | hZ
    · exact sideName_ne_dbPath h X Z hZ
    · exact sideName_ne_dbPath h Y Z hZ

/-- A cached and a write-through file of one application. -/
theorem document_journal_distinct :
    ((document .readWrite).sideNames ++ journal.sideNames).Nodup ∧
      ∀ Z : FileResource CommonObject.standard,
        Z.dbContext.dbPath ∉ (document .readWrite).sideNames ++ journal.sideNames :=
  sideNames_distinct CommonObject.standard_roomy _ _ (by decide +kernel)

end FileResource

end PersClient.File
