import PersClient.Data.Organization

/-! # Database path and key of a resource

`get_db_path_and_key` joins the context of a resource into a key string and
chooses the database it lies in. Optional parts are joined without escaping:
a resource id may spell the seat part of another context, and these pairs are
the only ones with a common address.
-/

namespace PersClient

open Text

namespace Prct

variable (com : CommonObject)

/-- The key text before `snprintf` cuts it to its buffer. -/
def dbKeyText (context : PersistenceDbContext) (resourceId : CStr) : CStr :=
  if context.ldbid < 0x80 ∨ context.ldbid = pclLdbidLocal then
    if context.userNo = 0 ∧ context.seatNo = 0 then
      com.gNode ++ '/' :: resourceId
    else if context.seatNo = 0 then
      com.gUser ++ decimal context.userNo.toNat ++ '/' :: resourceId
    else
      com.gUser ++ decimal context.userNo.toNat ++ com.gSeat ++
        decimal context.seatNo.toNat ++ '/' :: resourceId
  else if context.seatNo ≠ 0 then
    '/' :: hex context.ldbid.toNat ++ com.gUser ++ decimal context.userNo.toNat ++ com.gSeat ++
      decimal context.seatNo.toNat ++ '/' :: resourceId
  else
    '/' :: hex context.ldbid.toNat ++ com.gUser ++ decimal context.userNo.toNat ++
      '/' :: resourceId

/-- The content of `dbKey` afterwards. -/
def getDbKey (context : PersistenceDbContext) (resourceId : CStr) : CStr :=
  snprintf com.maxLengthKeyName (dbKeyText com context resourceId)

/-- The content of `dbPath` afterwards; a policy that is neither cached nor
write-through leaves the buffer as it was. -/
def getDbPath (appId : CStr) (info : PersistenceInfo) (dbKey dbPath : CStr) : CStr :=
  let size := com.maxLengthPathFilename
  let ldbid := info.context.ldbid
  let isKey := info.configKey.type = PersistenceResourceType.key
  if ldbid < 0x80 then
    if ldbid ≠ pclLdbidPublic then
      match info.configKey.policy with
      | .wc => snprintf size (if isKey then getSharedCachePath com appId ldbid
          else getSharedCachePathKey com appId ldbid dbKey)
      | .wt => snprintf size (if isKey then getSharedWtPath com appId ldbid
          else getSharedWtPathKey com appId ldbid dbKey)
      | .na => dbPath
    else
      match info.configKey.policy with
      | .wc => snprintf size (if isKey then getSharedPublicCachePath com appId
          else getSharedPublicCachePathKey com appId dbKey)
      | .wt => snprintf size (if isKey then getSharedPublicWtPath com appId
          else getSharedPublicWtPathKey com appId dbKey)
      | .na => dbPath
  else
    match info.configKey.policy with
    | .wc => snprintf size (if isKey then getLocalCachePath com appId
        else getLocalCachePathKey com appId dbKey)
    -- the local write-through branch alone prints into a buffer one shorter
    | .wt => snprintf (size - 1) (if isKey then getLocalWtPath com appId
        else getLocalWtPathKey com appId dbKey)
    | .na => dbPath

/-- What `get_db_path_and_key` returns and leaves in its two buffers. -/
structure DbAddress where
  storePolicy : PersistenceStorage
  dbKey : CStr
  dbPath : CStr
  deriving DecidableEq, Repr

def getDbPathAndKey (appId : CStr) (info : PersistenceInfo) (resourceId dbPath : CStr) :
    DbAddress where
  storePolicy := if info.context.ldbid < 0x80 then .shared else .local
  dbKey := getDbKey com info.context resourceId
  dbPath := getDbPath com appId info (getDbKey com info.context resourceId) dbPath

section Layout

variable {com}

def folder (ldbid : UInt32) : CStr :=
  if ldbid < 0x80 then
    if ldbid ≠ pclLdbidPublic then sharedGroupFolder ldbid else sharedPublicFolder
  else []

theorem hex_ldbid_length_le (a : UInt32) : (hex a.toNat).length ≤ 8 := by
  refine hex_length_le (by omega) ?_
  have := a.toNat_lt
  omega

theorem sharedGroupFolder_length_le (a : UInt32) : (sharedGroupFolder a).length ≤ 22 := by
  have group : (cstr "/shared_group_").length = 14 := by simp [cstr_eq]
  have digits := hex_ldbid_length_le a
  simp only [sharedGroupFolder, List.length_append, group]
  omega

theorem folder_length_le (a : UInt32) : (folder a).length ≤ 22 := by
  have public_le : sharedPublicFolder.length ≤ 22 := by simp [sharedPublicFolder, cstr_eq]
  unfold folder
  split
  · split
    · exact sharedGroupFolder_length_le a
    · exact public_le
  · exact Nat.zero_le _

def policyPrefix (com : CommonObject) : PersistencePolicy → CStr
  | .wc => cachePrefix com
  | .wt => wtPrefix com
  | .na => []

theorem policyPrefix_length_le (p : PersistencePolicy) :
    (policyPrefix com p).length ≤ com.rootPath.length + 8 := by
  cases p <;> simp [policyPrefix, cachePrefix, wtPrefix, cstr_eq]

/-- Below the buffer limits, a path is its policy's prefix, the application and
the folder, and for a file the key behind them. -/
theorem getDbPath_eq {appId dbKey tail : CStr} {info : PersistenceInfo}
    (hpolicy : info.configKey.policy ≠ .na)
    (htail : tail = if info.configKey.type = .key then [] else dbKey)
    (hfit : (policyPrefix com info.configKey.policy ++ appId ++ folder info.context.ldbid ++
      tail).length < com.maxLengthPathFilename - 1) (dbPath : CStr) :
    getDbPath com appId info dbKey dbPath =
      policyPrefix com info.configKey.policy ++ appId ++ folder info.context.ldbid ++ tail := by
  have hfit' := hfit.trans_le (Nat.sub_le _ 1)
  unfold folder at hfit hfit' ⊢
  unfold getDbPath
  by_cases htype : info.configKey.type = .key <;> simp only [htype, if_true, if_false] at htail ⊢ <;>
    subst htail <;>
    by_cases hl : info.context.ldbid < 0x80 <;>
    by_cases hp : info.context.ldbid = pclLdbidPublic <;>
    simp only [hl, hp, if_true, if_false, ne_eq, not_true_eq_false, not_false_eq_true,
      List.append_nil] at hfit hfit' ⊢ <;>
    cases hpol : info.configKey.policy <;> simp only [hpol, policyPrefix] at hfit hfit' ⊢ <;>
    first
      | exact snprintf_of_lt hfit'
      | exact snprintf_of_lt hfit
      | exact absurd hpol hpolicy

/-- A path is its policy's prefix, the application and the folder, or shorter;
without a policy it is what the buffer held. -/
theorem getDbPath_length_le {appId dbKey : CStr} {info : PersistenceInfo}
    (htype : info.configKey.type = .key) (dbPath : CStr) :
    (getDbPath com appId info dbKey dbPath).length ≤
      max dbPath.length (com.rootPath.length + 8 + appId.length + 22) := by
  have hcut : ∀ n (s : CStr), s.length ≤ com.rootPath.length + 8 + appId.length + 22 →
      (snprintf n s).length ≤ max dbPath.length (com.rootPath.length + 8 + appId.length + 22) :=
    fun n s hs => le_max_of_le_right ((List.length_take_le' _ _).trans hs)
  have hcache := @policyPrefix_length_le com .wc
  have hwt := @policyPrefix_length_le com .wt
  simp only [policyPrefix] at hcache hwt
  have hgroup := sharedGroupFolder_length_le info.context.ldbid
  have hpublic : sharedPublicFolder.length ≤ 22 := by simp [sharedPublicFolder, cstr_eq]
  unfold getDbPath
  simp only [htype, if_true]
  split
  · split
    · split
      · refine hcut _ _ ?_
        simp only [getSharedCachePath, List.length_append]
        omega
      · refine hcut _ _ ?_
        simp only [getSharedWtPath, List.length_append]
        omega
      · exact le_max_left _ _
    · split
      · refine hcut _ _ ?_
        simp only [getSharedPublicCachePath, List.length_append]
        omega
      · refine hcut _ _ ?_
        simp only [getSharedPublicWtPath, List.length_append]
        omega
      · exact le_max_left _ _
  · split
    · refine hcut _ _ ?_
      simp only [getLocalCachePath, List.length_append]
      omega
    · refine hcut _ _ ?_
      simp only [getLocalWtPath, List.length_append]
      omega
    · exact le_max_left _ _

end Layout

end Prct

end PersClient
