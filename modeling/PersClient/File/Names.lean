import PersClient.File.Client
import PersClient.Prct.Address

/-! # The three files of a resource

A file resource has its file below the prefix of its policy and, in the backup
folder, a backup file and a checksum file. Whatever the application, the
context and the resource id, these are three different files, and what
`pclCreateFile` makes for the backup is neither of the other two.
-/

namespace PersClient.File

open Text Prct

/-- What `pclCreateFile` splits a path at. -/
def splits (c : Char) : Bool := c == '/' || c == '\n'

variable {com : CommonObject}

/-- The file `pclCreateFile` makes is named by the tokens of the path. -/
theorem createPath_resolve {path p : CStr} (h : createPath com path = some p) :
    resolve p = tokens splits (snprintf com.maxLengthPathFilename path) ∧ resolve p ≠ [] := by
  simp only [createPath] at h
  split at h
  · rename_i hlen
    have hres : resolve p = tokens splits (snprintf com.maxLengthPathFilename path) := by
      rw [← Option.some.inj h]
      refine tokens_flatMap rfl fun t ht => ?_
      obtain ⟨hne, hfree⟩ := mem_tokens ht
      exact ⟨hne, fun c hc => (Bool.or_eq_false_iff.mp (hfree c hc)).1⟩
    refine ⟨hres, fun hnil => ?_⟩
    rw [hres] at hnil
    have : 2 ≤ (tokens splits (snprintf com.maxLengthPathFilename path)).length := hlen.1
    rw [hnil] at this
    cases this
  · cases h

structure FileNames (com : CommonObject) where
  orig : CStr
  backup : CStr
  csum : CStr
  orig_ne_backup : resolve orig ≠ resolve backup
  orig_ne_csum : resolve orig ≠ resolve csum
  backup_ne_csum : resolve backup ≠ resolve csum
  backup_ne_nil : resolve backup ≠ []
  csum_ne_nil : resolve csum ≠ []
  created : ∀ p, createPath com (snprintf com.maxLengthPathFilename backup) = some p →
    resolve p ≠ resolve orig ∧ resolve p ≠ resolve csum
  made : ∀ p, createPath com orig = some p →
    resolve p ≠ resolve backup ∧ resolve p ≠ resolve csum

/-- A cached or write-through file resource as an application names it. -/
structure FileResource (com : CommonObject) where
  appId : AppId com
  info : PersistenceInfo
  resourceId : CStr
  behindKey : CStr := []
  isFile : info.configKey.type = .file
  stored : info.configKey.policy ≠ .na

namespace FileResource

variable (r : FileResource com)

def address : DbAddress := getDbPathAndKey com r.appId.chars r.info r.resourceId []

/-- What `get_db_context` finds for the resource. -/
def dbContext : DbContext where
  rval := 0
  configKey := r.info.configKey
  dbKey := r.address.dbKey
  dbPath := r.address.dbPath
  behindKey := r.behindKey

def subPath : CStr := r.appId.chars ++ folder r.info.context.ldbid ++ r.address.dbKey

theorem subPath_length_le (h : com.Roomy) :
    r.subPath.length + com.rootPath.length + 26 ≤ com.maxLengthPathFilename := by
  have := r.appId.bounded
  have := folder_length_le r.info.context.ldbid
  have : r.address.dbKey.length ≤ com.maxLengthKeyName := by
    simp only [address, getDbPathAndKey, getDbKey, snprintf, List.length_take]
    omega
  have := h.room
  simp only [subPath, List.length_append]
  omega

theorem dbPath_eq (h : com.Roomy) :
    r.dbContext.dbPath = policyPrefix com r.info.configKey.policy ++ r.subPath := by
  have hlen := r.subPath_length_le h
  have hprefix := @policyPrefix_length_le com r.info.configKey.policy
  have htype : r.info.configKey.type ≠ .key := by
    rw [r.isFile]
    decide
  have hfit : (policyPrefix com r.info.configKey.policy ++ r.appId.chars ++
      folder r.info.context.ldbid ++ r.address.dbKey).length < com.maxLengthPathFilename - 1 := by
    simp only [subPath, List.length_append] at hlen ⊢
    omega
  rw [subPath, ← List.append_assoc, ← List.append_assoc]
  exact getDbPath_eq r.stored (by rw [if_neg htype]; rfl) hfit []

theorem sidePath_eq (h : com.Roomy) {ending : CStr} (he : ending.length ≤ 5) :
    sidePath com ending r.info.configKey.policy r.dbContext.dbPath =
      com.rootPath ++ cstr "/mnt-backup/" ++ r.subPath ++ ending := by
  have hlen := r.subPath_length_le h
  have hfolder : (cstr "/mnt-backup/").length = 12 := by simp [cstr_eq]
  have hsub : fileSubPath com r.info.configKey.policy r.dbContext.dbPath = r.subPath := by
    rw [fileSubPath, r.dbPath_eq h]
    have hdrop : ∀ p ≠ PersistencePolicy.na, (policyPrefix com p ++ r.subPath).drop
        (if p = .wc then (cachePrefix com).length else (wtPrefix com).length) = r.subPath := by
      rintro (_ | _ | _) hp
      · exact List.drop_left
      · exact List.drop_left
      · exact absurd rfl hp
    rw [hdrop _ r.stored]
    exact snprintf_of_lt (by omega)
  rw [sidePath, hsub, gBackupPrefix]
  refine snprintf_of_lt ?_
  simp only [List.length_append, hfolder]
  omega

theorem tokens_below {delim : Char → Bool} (hd : delim '/' = true) (name : CStr)
    (hname : ∀ c ∈ name, delim c = false) (hne : name ≠ []) (root rest : CStr) :
    tokens delim (root ++ '/' :: (name ++ '/' :: rest)) =
      tokens delim root ++ name :: tokens delim rest := by
  rw [tokens_append_delim hd, tokens_append_delim hd, tokens_of_forall hname hne]
  rfl

def policyFolder : PersistencePolicy → CStr
  | .wc => cstr "mnt-c"
  | _ => cstr "mnt-wt"

theorem tokens_dbPath {delim : Char → Bool} (h : com.Roomy) (hd : delim '/' = true)
    (hwc : ∀ c ∈ cstr "mnt-c", delim c = false) (hwt : ∀ c ∈ cstr "mnt-wt", delim c = false) :
    tokens delim r.dbContext.dbPath =
      tokens delim com.rootPath ++ policyFolder r.info.configKey.policy :: tokens delim r.subPath := by
  rw [r.dbPath_eq h]
  cases hp : r.info.configKey.policy with
  | wc =>
    simp only [policyPrefix, cachePrefix, policyFolder]
    rw [← tokens_below hd _ hwc (by simp [cstr_eq])]
    simp [cstr_eq]
  | wt =>
    simp only [policyPrefix, wtPrefix, policyFolder]
    rw [← tokens_below hd _ hwt (by simp [cstr_eq])]
    simp [cstr_eq]
  | na => exact absurd hp r.stored

theorem resolve_dbPath (h : com.Roomy) : resolve r.dbContext.dbPath =
    resolve com.rootPath ++ policyFolder r.info.configKey.policy :: resolve r.subPath :=
  r.tokens_dbPath h rfl (by simp [cstr_eq]) (by simp [cstr_eq])

theorem tokens_side {delim : Char → Bool} (hd : delim '/' = true)
    (hname : ∀ c ∈ cstr "mnt-backup", delim c = false) (ending : CStr) :
    tokens delim (com.rootPath ++ cstr "/mnt-backup/" ++ r.subPath ++ ending) =
      tokens delim com.rootPath ++ cstr "mnt-backup" :: tokens delim (r.subPath ++ ending) := by
  rw [← tokens_below hd _ hname (by simp [cstr_eq])]
  simp [cstr_eq]

theorem policyFolder_ne (p : PersistencePolicy) : policyFolder p ≠ cstr "mnt-backup" := by
  cases p <;> simp [policyFolder, cstr_eq]

variable {r}

theorem resolve_side (h : com.Roomy) {ending : CStr} (he : ending.length ≤ 5) :
    resolve (sidePath com ending r.info.configKey.policy r.dbContext.dbPath) =
      resolve com.rootPath ++ cstr "mnt-backup" :: resolve (r.subPath ++ ending) := by
  rw [r.sidePath_eq h he]
  exact r.tokens_side rfl (by simp [cstr_eq]) ending

theorem orig_ne_side (h : com.Roomy) {ending : CStr} (he : ending.length ≤ 5) :
    resolve r.dbContext.dbPath ≠
      resolve (sidePath com ending r.info.configKey.policy r.dbContext.dbPath) := by
  rw [r.resolve_dbPath h, resolve_side h he]
  intro heq
  exact policyFolder_ne _ (List.cons.inj (List.append_cancel_left heq)).1

theorem backup_ends (delim : Char → Bool) (hd : delim '~' = false) (h : com.Roomy) :
    ∃ t, (tokens delim (backupPath com r.info.configKey.policy r.dbContext.dbPath)).getLast? =
      some (t ++ ['~']) := by
  have hpost : gBackupPostfix = ['~'] := by simp [gBackupPostfix, cstr_eq]
  rw [backupPath, r.sidePath_eq h (by simp [hpost]), hpost]
  exact tokens_getLast hd _

theorem csum_ends (h : com.Roomy) :
    ∃ t, (resolve (csumPath com r.info.configKey.policy r.dbContext.dbPath)).getLast? =
      some (t ++ ['c']) := by
  have hpost : gBackupCsPostfix = ['~', '.', 'c', 'r'] ++ ['c'] := by
    simp [gBackupCsPostfix, cstr_eq]
  rw [csumPath, r.sidePath_eq h (by simp [hpost]), hpost, ← List.append_assoc]
  exact tokens_getLast rfl _

/-- A list whose last token ends in one character differs from one whose last
token ends in another. -/
theorem ne_of_ends {ts us : List CStr} {c d : Char} (hcd : c ≠ d)
    (ht : ∃ t, ts.getLast? = some (t ++ [c])) (hu : ∃ u, us.getLast? = some (u ++ [d])) :
    ts ≠ us := by
  obtain ⟨t, ht⟩ := ht
  obtain ⟨u, hu⟩ := hu
  rintro rfl
  rw [ht, Option.some.injEq] at hu
  exact hcd (by simpa using (List.append_inj' hu rfl).2)

theorem tokens_root (h : com.Roomy) : tokens splits com.rootPath = resolve com.rootPath :=
  tokens_congr fun c hc => by
    have : c ≠ '\n' := fun hn => h.root (hn ▸ hc)
    simp [splits, this]

theorem resolve_createPath {path p : CStr} (hlen : path.length < com.maxLengthPathFilename)
    (h : createPath com path = some p) : resolve p = tokens splits path := by
  rw [(createPath_resolve h).1, snprintf_of_lt hlen]

theorem created_backup (h : com.Roomy) {p : CStr}
    (hp : createPath com (snprintf com.maxLengthPathFilename
      (backupPath com r.info.configKey.policy r.dbContext.dbPath)) = some p) :
    resolve p ≠ resolve r.dbContext.dbPath ∧
      resolve p ≠ resolve (csumPath com r.info.configKey.policy r.dbContext.dbPath) := by
  have he : gBackupPostfix.length = 1 := by simp [gBackupPostfix, cstr_eq]
  have heq := r.sidePath_eq h (show gBackupPostfix.length ≤ 5 by omega)
  have hlen : (backupPath com r.info.configKey.policy r.dbContext.dbPath).length <
      com.maxLengthPathFilename := by
    have := r.subPath_length_le h
    have hfolder : (cstr "/mnt-backup/").length = 12 := by simp [cstr_eq]
    rw [backupPath, heq]
    simp only [List.length_append, hfolder]
    omega
  have hends := backup_ends (r := r) splits rfl h
  rw [snprintf_of_lt hlen] at hp
  rw [resolve_createPath hlen hp]
  refine ⟨fun hr => ?_, ne_of_ends (by decide) hends (csum_ends h)⟩
  rw [backupPath, heq, r.tokens_side rfl (by simp [splits, cstr_eq]), tokens_root h,
    r.resolve_dbPath h] at hr
  exact policyFolder_ne _ (List.cons.inj (List.append_cancel_left hr)).1.symm

theorem created_orig (h : com.Roomy) {p ending : CStr} (he : ending.length ≤ 5)
    (hp : createPath com r.dbContext.dbPath = some p) :
    resolve p ≠ resolve (sidePath com ending r.info.configKey.policy r.dbContext.dbPath) := by
  have hlen : r.dbContext.dbPath.length < com.maxLengthPathFilename := by
    have := r.subPath_length_le h
    have := @policyPrefix_length_le com r.info.configKey.policy
    rw [r.dbPath_eq h, List.length_append]
    omega
  rw [resolve_createPath hlen hp, resolve_side h he,
    r.tokens_dbPath h rfl (by simp [splits, cstr_eq]) (by simp [splits, cstr_eq]), tokens_root h]
  intro heq
  exact policyFolder_ne _ (List.cons.inj (List.append_cancel_left heq)).1

variable (r)

/-- The three files of the resource. -/
def names (h : com.Roomy) : FileNames com where
  orig := r.dbContext.dbPath
  backup := backupPath com r.info.configKey.policy r.dbContext.dbPath
  csum := csumPath com r.info.configKey.policy r.dbContext.dbPath
  orig_ne_backup := orig_ne_side h (by simp [gBackupPostfix, cstr_eq])
  orig_ne_csum := orig_ne_side h (by simp [gBackupCsPostfix, cstr_eq])
  backup_ne_csum := ne_of_ends (by decide) (backup_ends _ rfl h) (csum_ends h)
  backup_ne_nil := by
    rw [backupPath, resolve_side h (by simp [gBackupPostfix, cstr_eq])]
    simp
  csum_ne_nil := by
    rw [csumPath, resolve_side h (by simp [gBackupCsPostfix, cstr_eq])]
    simp
  created _ := created_backup h
  made _ hp := ⟨created_orig h (by simp [gBackupPostfix, cstr_eq]) hp,
    created_orig h (by simp [gBackupCsPostfix, cstr_eq]) hp⟩

/-- The resource's name has no line end, at which `pclCreateFile` would cut it too. -/
def OneLine : Prop := '\n' ∉ r.subPath

/-- `pclCreateFile` can make the folders of the backup, and the checksum file is
beside it. -/
def SidesCreatable (h : com.Roomy) : Prop :=
  (createPath com (snprintf com.maxLengthPathFilename (r.names h).backup)).isSome

end FileResource

end PersClient.File
