import PersClient.Lib.Text

/-! # Data organization

The constants, enumerations and records every part of the client library
shares, and the path formats of `data_organization.c`. The macros and plugin
strings of the persistence common object are not part of the repository; they
are the fields of `CommonObject`.
-/

namespace PersClient

open Text

section ErrorCodes

def epersCommon : ℤ := -1
def epersLockfs : ℤ := -2
def epersBadpol : ℤ := -3
def epersMaxhandle : ℤ := -4
def epersNoprctable : ℤ := -6
def epersNokey : ℤ := -7
def epersNokeydata : ℤ := -8
def epersNotifySig : ℤ := -31
def epersNotInitialized : ℤ := -32
def epersResourceNoFile : ℤ := -38
def epersResourceReadOnly : ℤ := -39
def epersShutdownMaxCancel : ℤ := -40
def epersShutdownNoPermit : ℤ := -42
def epersNotRespApp : ℤ := -44
def epersNoPluginFunct : ℤ := -45
def epersInvalidHandle : ℤ := -1000

end ErrorCodes

def pclLdbidLocal : UInt32 := 0xFF

def pclLdbidPublic : UInt32 := 0

def pclUserDefaultdata : UInt32 := 0xFFFFFFFF

def maxPersHandle : ℕ := 512

def prctDbTableSize : ℕ := 1024

def dbTableSize : ℕ := 1024

def checksumBufSize : ℕ := 64

def shutdownMaxCount : ℕ := 3

inductive PersistencePolicy
  | wc
  | wt
  | na
  deriving DecidableEq, Repr

inductive PersistenceStorage
  | local
  | shared
  | custom
  | lastEntry
  deriving DecidableEq, Repr

inductive PersistencePermission
  | readWrite
  | readOnly
  | writeOnly
  | lastEntry
  deriving DecidableEq, Repr

inductive PersistenceResourceType
  | key
  | file
  | lastEntry
  deriving DecidableEq, Repr

/-- `PersistenceDbContext_s`: the logical database, user and seat of a resource. -/
structure PersistenceDbContext where
  ldbid : UInt32
  userNo : UInt32
  seatNo : UInt32
  deriving DecidableEq, Repr

/-- `PersistenceConfigurationKey_s`: one entry of a resource configuration table. -/
structure PersistenceConfigurationKey where
  policy : PersistencePolicy
  storage : PersistenceStorage
  type : PersistenceResourceType
  permission : PersistencePermission
  maxSize : ℕ
  reponsible : CStr
  customName : CStr
  customID : CStr
  deriving DecidableEq, Repr

structure PersistenceInfo where
  context : PersistenceDbContext
  configKey : PersistenceConfigurationKey
  deriving DecidableEq, Repr

/-- What the persistence common object defines: its buffer sizes, its root path
and the strings its plugin exports. -/
structure CommonObject where
  /-- `PERS_ORG_ROOT_PATH` -/
  rootPath : CStr
  /-- `PERS_ORG_MAX_LENGTH_PATH_FILENAME` -/
  maxLengthPathFilename : ℕ
  /-- `PERS_DB_MAX_LENGTH_KEY_NAME` -/
  maxLengthKeyName : ℕ
  /-- `PERS_DB_MAX_SIZE_KEY_DATA` -/
  maxSizeKeyData : ℕ
  /-- `PERS_RCT_MAX_LENGTH_RESPONSIBLE` -/
  maxLengthResponsible : ℕ
  /-- `PERS_ORG_CONFIG_DEFAULT_DATA_FOLDER_NAME_` -/
  configDefaultDataFolderName : CStr
  /-- `PERS_ORG_DEFAULT_DATA_FOLDER_NAME_` -/
  defaultDataFolderName : CStr
  /-- `PERS_ORG_USER_FOLDER_NAME_` -/
  userFolderName : CStr
  /-- `PERS_ORG_SEAT_FOLDER_NAME_` -/
  seatFolderName : CStr
  gNode : CStr
  gUser : CStr
  gSeat : CStr
  gLocalWt : CStr
  gLocalCached : CStr
  gLocalConfigurableDefault : CStr
  gLocalFactoryDefault : CStr
  gResTableCfg : CStr
  /-- the numeric value of `PersistenceStorage_e` -/
  storageCode : PersistenceStorage → UInt32

/-- The documented values the results below rely on: the plugin strings, and
path buffers with room for a root, an application id and a group folder. -/
structure CommonObject.Standard (com : CommonObject) : Prop where
  node : com.gNode = cstr "/node"
  user : com.gUser = cstr "/user/"
  seat : com.gSeat = cstr "/seat/"
  path_room : com.rootPath.length + com.maxLengthResponsible + 32 ≤ com.maxLengthPathFilename

/-- The documented sizes leave room for the paths of file resources, and the
root path is one line. -/
structure CommonObject.Roomy (com : CommonObject) : Prop where
  root : '\n' ∉ com.rootPath
  room : com.rootPath.length + com.maxLengthResponsible + com.maxLengthKeyName + 48 ≤
    com.maxLengthPathFilename

/-- `gAppId`: `pclInitLibrary` ends it inside its buffer. -/
structure AppId (com : CommonObject) where
  chars : CStr
  bounded : chars.length < com.maxLengthResponsible

section Paths

variable (com : CommonObject)

def cachePrefix : CStr := com.rootPath ++ cstr "/mnt-c/"

def wtPrefix : CStr := com.rootPath ++ cstr "/mnt-wt/"

/-- The folder of a shared group, `/shared_group_%x`. -/
def sharedGroupFolder (ldbid : UInt32) : CStr := cstr "/shared_group_" ++ hex ldbid.toNat

/-- The folder of the public data, `/shared_public`. -/
def sharedPublicFolder : CStr := cstr "/shared_public"

variable (appId : CStr) (ldbid : UInt32) (key : CStr)

def getLocalCachePath : CStr := cachePrefix com ++ appId

def getLocalWtPath : CStr := wtPrefix com ++ appId

def getSharedCachePath : CStr := cachePrefix com ++ appId ++ sharedGroupFolder ldbid

def getSharedWtPath : CStr := wtPrefix com ++ appId ++ sharedGroupFolder ldbid

def getSharedPublicCachePath : CStr := cachePrefix com ++ appId ++ sharedPublicFolder

def getSharedPublicWtPath : CStr := wtPrefix com ++ appId ++ sharedPublicFolder

def getLocalCachePathKey : CStr := getLocalCachePath com appId ++ key

def getLocalWtPathKey : CStr := getLocalWtPath com appId ++ key

def getSharedCachePathKey : CStr := getSharedCachePath com appId ldbid ++ key

def getSharedWtPathKey : CStr := getSharedWtPath com appId ldbid ++ key

def getSharedPublicCachePathKey : CStr := getSharedPublicCachePath com appId ++ key

def getSharedPublicWtPathKey : CStr := getSharedPublicWtPath com appId ++ key

/-- The text of `%d` for an unsigned argument: it is printed as a signed one. -/
def signedDecimal (n : UInt32) : CStr :=
  if n < 0x80000000 then decimal n.toNat else '-' :: decimal (0 - n).toNat

/-- `getLocalCacheFilePath`, printed. -/
def getLocalCacheFilePath (userNo seatNo : UInt32) (resourceId : CStr) : CStr :=
  cachePrefix com ++ appId ++ com.userFolderName ++ signedDecimal userNo ++ com.seatFolderName ++
    signedDecimal seatNo ++ '/' :: resourceId

end Paths

/-- A common object with the strings and sizes the documentation gives. -/
def CommonObject.standard : CommonObject where
  rootPath := cstr "/Data"
  maxLengthPathFilename := 512
  maxLengthKeyName := 128
  maxSizeKeyData := 8028
  maxLengthResponsible := 64
  configDefaultDataFolderName := cstr "/configurableDefaultData"
  defaultDataFolderName := cstr "/defaultData"
  userFolderName := cstr "/user/"
  seatFolderName := cstr "/seat/"
  gNode := cstr "/node"
  gUser := cstr "/user/"
  gSeat := cstr "/seat/"
  gLocalWt := cstr "/wt.itz"
  gLocalCached := cstr "/cached.itz"
  gLocalConfigurableDefault := cstr "/default-data.itz"
  gLocalFactoryDefault := cstr "/default-data.itz"
  gResTableCfg := cstr "/resource-table-cfg.itz"
  storageCode
    | .local => 0
    | .shared => 1
    | .custom => 2
    | .lastEntry => 3

theorem CommonObject.standard_standard : CommonObject.standard.Standard where
  node := rfl
  user := rfl
  seat := rfl
  path_room := by simp [CommonObject.standard, cstr_eq]

theorem CommonObject.standard_roomy : CommonObject.standard.Roomy where
  root := by simp [CommonObject.standard, cstr_eq]
  room := by simp [CommonObject.standard, cstr_eq]

theorem app_bounded : (cstr "app").length < CommonObject.standard.maxLengthResponsible := by
  simp [CommonObject.standard, cstr_eq]

end PersClient
