import PersClient.Key.Context
import PersClient.Access.Notification

/-! # Key databases

`db_access.c`: the handles of the value and default databases are kept in a
table by storage, logical database and type. Data are read from the value
database and then from the defaults; custom resources are handed to their
library.
-/

namespace PersClient.Key

open File Text Access

variable {W : Type*} (S : Setup W)

section Handles

def databaseFile (com : CommonObject) : DbType → Option (CStr × UInt8)
  | .policy .wt => some (com.gLocalWt, 0x01 ||| 0x02)
  | .policy .wc => some (com.gLocalCached, 0x01)
  | .confdefault => some (com.gLocalConfigurableDefault, 0x01)
  | .default => some (com.gLocalFactoryDefault, 0x01)
  | .policy .na => none

/-- The slot of a database: storage and logical database, added as 32-bit numbers. -/
def arrayIdx (com : CommonObject) (info : PersistenceInfo) : ℕ :=
  (com.storageCode info.configKey.storage + info.context.ldbid).toNat

def databaseGet (info : PersistenceInfo) (dbPath : CStr) (dbType : DbType) (lib : Library W) :
    ℤ × Library W :=
  if arrayIdx S.com info < dbTableSize then
    match lib.gHandlesDB (arrayIdx S.com info, dbType) with
    | some handleDB => (handleDB, lib)
    | none =>
      match databaseFile S.com dbType with
      | none => (-2, lib)
      | some (name, openFlags) =>
        match S.plugin.persComDbOpen with
        | none => (epersNoPluginFunct, lib)
        | some dbOpen =>
          let (handleDB, world) :=
            dbOpen (snprintf S.com.maxLengthPathFilename (dbPath ++ name)) openFlags lib.world
          if 0 ≤ handleDB then
            (handleDB, { lib with
              world
              gHandlesDB :=
                Function.update lib.gHandlesDB (arrayIdx S.com info, dbType) (some handleDB) })
          else (handleDB, { lib with world })
  else (-1, lib)

/-- One entry of the loop of `database_close_all`. -/
def databaseClose (slot : ℕ × DbType) (lib : Library W) : Library W :=
  match lib.gHandlesDB slot, S.plugin.persComDbClose with
  | some handleDB, some dbClose =>
    let (iErrorCode, world) := dbClose handleDB lib.world
    if iErrorCode < 0 then { lib with world }
    else { lib with world, gHandlesDB := Function.update lib.gHandlesDB slot none }
  | _, _ => lib

def dbTypes : List DbType :=
  [.policy .wc, .policy .wt, .policy .na, .confdefault, .default]

def databaseCloseAll (lib : Library W) : Library W :=
  ((List.range dbTableSize).flatMap fun i => dbTypes.map fun j => (i, j)).foldl
    (fun lib slot => databaseClose S slot lib) lib

/-- One entry of the loop of `pers_rct_close_all`; the result of the close is
only logged. -/
def rctClose (i : ℕ) (lib : Library W) : Library W :=
  if getResourceCfgTableByIdx i lib ≠ -1 then
    match S.plugin.persComRctClose with
    | none => lib
    | some close =>
      let (_, world) := close (getResourceCfgTableByIdx i lib) lib.world
      invalidateResourceCfgTable i { lib with world }
  else lib

def persRctCloseAll (lib : Library W) : Library W :=
  (List.range prctDbTableSize).foldl (fun lib i => rctClose S i lib) lib

end Handles

section Defaults

inductive PersGetDefault
  | data
  | size
  deriving DecidableEq, Repr

/-- The plugin call `pers_get_defaults` makes for its job. -/
def fetchDefault (job : PersGetDefault) (handleDefaultDB : ℤ) (key : CStr) (buffer : Bytes)
    (bufferSize : ℤ) (world : W) : (ℤ × Bytes) × W :=
  match job with
  | .data =>
    match S.plugin.persComDbReadKey with
    | some readKey => readKey handleDefaultDB key buffer bufferSize world
    | none => ((epersNoPluginFunct, buffer), world)
  | .size =>
    match S.plugin.persComDbGetKeySize with
    | some getKeySize =>
      let (size, world) := getKeySize handleDefaultDB key world
      ((size, buffer), world)
    | none => ((epersNoPluginFunct, buffer), world)

/-- The loop of `pers_get_defaults` over the default databases. -/
def defaultsFrom (dbPath key : CStr) (info : PersistenceInfo) (bufferSize : ℤ)
    (job : PersGetDefault) : List DbType → ℤ → Bytes → Library W → (ℤ × Bytes) × Library W
  | [], readSize, buffer, lib => ((readSize, buffer), lib)
  | i :: is, readSize, buffer, lib =>
    let (handleDefaultDB, lib) := databaseGet S info dbPath i lib
    if 0 ≤ handleDefaultDB then
      let ((readSize, buffer), world) :=
        fetchDefault S job handleDefaultDB key buffer bufferSize lib.world
      let lib := { lib with world }
      if readSize < 0 then
        defaultsFrom dbPath key info bufferSize job is
          (if readSize = S.plugin.persComErrNotFound then epersNokey else readSize) buffer lib
      else ((readSize, buffer), lib)
    else defaultsFrom dbPath key info bufferSize job is readSize buffer lib

def persGetDefaults (dbPath key : CStr) (info : PersistenceInfo) (buffer : Bytes)
    (bufferSize : ℤ) (job : PersGetDefault) (lib : Library W) : (ℤ × Bytes) × Library W :=
  defaultsFrom S dbPath key info bufferSize job [.confdefault, .default] epersNokey buffer lib

end Defaults

section Custom

def hexPrefix (n : UInt32) : CStr :=
  cstr "0x" ++ ((hex n.toNat).map Char.toUpper).leftpad 8 '0'

def pathKeyString (info : PersistenceInfo) (key : CStr) : CStr :=
  snprintf 128 <|
    if info.configKey.customID = [] then
      hexPrefix info.context.ldbid ++ '/' :: (info.configKey.customName ++ '/' :: key)
    else hexPrefix info.context.ldbid ++ '/' :: info.configKey.customID

/-- A custom resource without data: the defaults of the local or shared key of
its name, if they are more than empty. -/
def customDefaults (dbPath resourceID : CStr) (info : PersistenceInfo)
    (buffer : Bytes) (bufferSize : ℤ) (job : PersGetDefault) (readSize : ℤ) (lib : Library W) :
    (ℤ × Bytes) × Library W :=
  if readSize < 1 then
    let info := { info with
      configKey := { info.configKey with policy := .wc, type := .key } }
    let dbPath := Prct.getDbPath S.com S.appId info [] dbPath
    let ((retDefaults, buffer), lib) :=
      persGetDefaults S dbPath resourceID info buffer bufferSize job lib
    ((if 0 < retDefaults then retDefaults else readSize, buffer), lib)
  else ((readSize, buffer), lib)

end Custom

section Access

/-- `persistence_get_data`, `none` where a function is called that is not loaded. -/
def persistenceGetData (dbPath key resourceID : CStr) (info : PersistenceInfo) (buffer : Bytes)
    (bufferSize : ℤ) (lib : Library W) : Option ((ℤ × Bytes) × Library W) :=
  match info.configKey.storage with
  | .shared | .local =>
    let (handleDB, lib) := databaseGet S info dbPath (.policy info.configKey.policy) lib
    if 0 ≤ handleDB then
      match S.plugin.persComDbReadKey with
      | none => some ((epersNoPluginFunct, buffer), lib)
      | some readKey =>
        let ((readSize, buffer), world) := readKey handleDB key buffer bufferSize lib.world
        let lib := { lib with world }
        if readSize < 0 then
          some (persGetDefaults S dbPath resourceID info buffer bufferSize .data lib)
        else some ((readSize, buffer), lib)
    else some ((-1, buffer), lib)
  | .custom =>
    let idx := customClientNameToId dbPath
    if idx ≠ .lastEntry then
      -- the size function is asked for first, not the data function
      let (available, lib) := customAvailable S.plugin idx
        (fun functs => functs.customPluginGetSize.isSome)
        (fun functs => functs.customPluginGetData.isSome) lib
      if available then
        ((lib.gPersCustomFuncs idx).customPluginGetData).map fun getData =>
          let ((readSize, buffer), world) :=
            getData (pathKeyString info key) buffer bufferSize lib.world
          customDefaults S dbPath resourceID info buffer bufferSize .data readSize
            { lib with world }
      else some (customDefaults S dbPath resourceID info buffer bufferSize .data
        epersNopluginfunct lib)
    else some (customDefaults S dbPath resourceID info buffer bufferSize .data
      epersNopluginfunct lib)
  | .lastEntry => some ((-1, buffer), lib)

def persistenceGetDataSize (dbPath key resourceID : CStr) (info : PersistenceInfo)
    (lib : Library W) : ℤ × Library W :=
  match info.configKey.storage with
  | .shared | .local =>
    let (handleDB, lib) := databaseGet S info dbPath (.policy info.configKey.policy) lib
    if 0 ≤ handleDB then
      match S.plugin.persComDbGetKeySize with
      | none => (epersNoPluginFunct, lib)
      | some getKeySize =>
        let (readSize, world) := getKeySize handleDB key lib.world
        let lib := { lib with world }
        if readSize < 0 then
          let ((readSize, _), lib) := persGetDefaults S dbPath resourceID info [] 0 .size lib
          (readSize, lib)
        else (readSize, lib)
    else (-1, lib)
  | .custom =>
    let idx := customClientNameToId dbPath
    let (readSize, lib) :=
      if idx ≠ .lastEntry then
        let (available, lib) := customAvailable S.plugin idx
          (fun functs => functs.customPluginGetSize.isSome)
          (fun functs => functs.customPluginGetSize.isSome) lib
        match available, (lib.gPersCustomFuncs idx).customPluginGetSize with
        | true, some getSize =>
          let (readSize, world) := getSize (pathKeyString info key) lib.world
          (readSize, { lib with world })
        | _, _ => (epersNopluginfunct, lib)
      else (epersNopluginfunct, lib)
    let ((readSize, _), lib) := customDefaults S dbPath resourceID info [] 0 .size readSize lib
    (readSize, lib)
  | .lastEntry => (-1, lib)

def persSendNotificationSignal (frame : CallFrame) (resourceId : CStr)
    (context : PersistenceDbContext) (reason : NotifyStatus) (lib : Library W) : ℤ × Library W :=
  let (rval, loop) :=
    Access.persSendNotificationSignal S.com frame.written resourceId context reason lib.client.loop
  (rval, { lib with client := { lib.client with loop } })

/-- A write was successful: its result is the one of the signal, if that failed. -/
def notifyChanged (frame : CallFrame) (resourceId : CStr) (context : PersistenceDbContext)
    (writeSize : ℤ) (lib : Library W) : ℤ × Library W :=
  let (rval, lib) := persSendNotificationSignal S frame resourceId context .changed lib
  (if rval ≤ 0 then rval else writeSize, lib)

def persistenceSetData (frame : CallFrame) (dbPath key resourceId : CStr) (info : PersistenceInfo)
    (buffer : Bytes) (bufferSize : ℤ) (lib : Library W) : ℤ × Library W :=
  match info.configKey.storage with
  | .local | .shared =>
    let isDefault := info.context.userNo = pclUserDefaultdata
    let dbType := if isDefault then .confdefault else .policy info.configKey.policy
    let dbInput := if isDefault then resourceId else key
    let (handleDB, lib) := databaseGet S info dbPath dbType lib
    if 0 ≤ handleDB then
      match S.plugin.persComDbWriteKey with
      | none => (epersNoPluginFunct, lib)
      | some writeKey =>
        let (writeSize, world) := writeKey handleDB dbInput buffer bufferSize lib.world
        let lib := { lib with world }
        if writeSize < 0 then (writeSize, lib)
        else if info.configKey.storage = .shared then
          notifyChanged S frame resourceId info.context writeSize lib
        else (writeSize, lib)
    else (epersNoprctable, lib)
  | .custom =>
    let idx := customClientNameToId dbPath
    if idx ≠ .lastEntry then
      let (available, lib) := customAvailable S.plugin idx
        (fun functs => functs.customPluginSetData.isSome)
        (fun functs => functs.customPluginSetData.isSome) lib
      match available, (lib.gPersCustomFuncs idx).customPluginSetData with
      | true, some setData =>
        let (writeSize, world) := setData (pathKeyString info key) buffer bufferSize lib.world
        let lib := { lib with world }
        if 0 < writeSize ∧ writeSize = bufferSize then
          notifyChanged S frame resourceId info.context writeSize lib
        else (writeSize, lib)
      | _, _ => (epersNopluginfunct, lib)
    else (epersNopluginfunct, lib)
  | .lastEntry => (-1, lib)

def persistenceDeleteData (frame : CallFrame) (dbPath key resourceId : CStr)
    (info : PersistenceInfo) (lib : Library W) : ℤ × Library W :=
  if info.configKey.storage ≠ .custom then
    let (handleDB, lib) := databaseGet S info dbPath (.policy info.configKey.policy) lib
    if 0 ≤ handleDB then
      match S.plugin.persComDbDeleteKey with
      | none => (epersNoPluginFunct, lib)
      | some deleteKey =>
        let (ret, world) := deleteKey handleDB key lib.world
        let lib := { lib with world }
        let ret :=
          if ret < 0 then
            if ret = S.plugin.persComErrNotFound then epersNokey else epersDbErrorInternal
          else ret
        if info.configKey.storage = .shared then
          -- also when nothing was deleted
          (ret, (persSendNotificationSignal S frame resourceId info.context .deleted lib).2)
        else (ret, lib)
    else (epersNoprctable, lib)
  else
    let idx := customClientNameToId dbPath
    if idx ≠ .lastEntry then
      let (available, lib) := customAvailable S.plugin idx
        (fun functs => functs.customPluginDeleteData.isSome)
        (fun functs => functs.customPluginDeleteData.isSome) lib
      match available, (lib.gPersCustomFuncs idx).customPluginDeleteData with
      | true, some deleteData =>
        let (ret, world) := deleteData (pathKeyString info key) lib.world
        let lib := { lib with world }
        if 0 ≤ ret then
          (ret, (persSendNotificationSignal S frame resourceId info.context .deleted lib).2)
        else (ret, lib)
      | _, _ => (epersNopluginfunct, lib)
    else (epersNopluginfunct, lib)

end Access

end PersClient.Key
