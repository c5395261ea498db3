import PersClient.Access.MainLoop
import PersClient.File.Backup
import PersClient.Handle.Records

/-! # The client and its file functions

The state of the library in one process, and the functions of `file.c` on it.
What `get_db_context` finds for a resource is an argument here, so that every
content of the resource tables is covered.
-/

namespace PersClient.File

open Access Handle

/-- The variables of the library a file or handle function touches. -/
structure Client where
  os : Os
  gFileHandleTree : FileTree := none
  gOssFileHandleTree : FileTree := none
  gKeyHandleTree : KeyTree := none
  gOpenFdList : List ℤ := []
  gCPOpenFdList : List ℤ := []
  pool : HandlePool := HandlePool.reset
  gRbTreeBl : Option (List UInt32) := none
  gPclInitCounter : UInt32 := 1
  loop : MainLoop := {}

/-- A process after `pclInitLibrary`, with the disk and the descriptors it finds. -/
def Client.start (fs : Fs) (fds : FdTable) : Client where
  os := { disk := ⟨fs, []⟩, fds, errno := .other, clock := 0 }
  gKeyHandleTree := some Tree.new

/-- The outcome of `get_db_context` for a resource: its return value, the
configuration it leaves and the two buffers, and what lies behind `dbKey`. -/
structure DbContext where
  rval : ℤ
  configKey : PersistenceConfigurationKey
  dbKey : CStr
  dbPath : CStr
  behindKey : CStr := []
  deriving DecidableEq

section SideFiles

variable (com : CommonObject)

def gBackupPrefix : CStr := com.rootPath ++ cstr "/mnt-backup/"

def gBackupPostfix : CStr := cstr "~"

def gBackupCsPostfix : CStr := cstr "~.crc"

def fileSubPath (policy : PersistencePolicy) (dbPath : CStr) : CStr :=
  let length := if policy = .wc then (cachePrefix com).length else (wtPrefix com).length
  snprintf com.maxLengthPathFilename (dbPath.drop length)

/-- The side file of `pclFileOpenRegular` with the given ending. -/
def sidePath (ending : CStr) (policy : PersistencePolicy) (dbPath : CStr) : CStr :=
  snprintf (com.maxLengthPathFilename - 1)
    (gBackupPrefix com ++ fileSubPath com policy dbPath ++ ending)

def backupPath : PersistencePolicy → CStr → CStr := sidePath com gBackupPostfix

def csumPath : PersistencePolicy → CStr → CStr := sidePath com gBackupCsPostfix

def cacheStatusOf (dbPath : CStr) : ℤ := if wtPrefix com <:+: dbPath then 0 else 1

end SideFiles

section Open

variable (com : CommonObject) (appId : CStr) (env : Env)

def wantsBackup (c : Client) (ctx : DbContext) : Bool :=
  ctx.configKey.permission ≠ .readOnly &&
    pclBackupNeeded c.gRbTreeBl (getRawString com.maxLengthKeyName ctx.dbKey ctx.behindKey)

def createRegular (ctx : DbContext) (resourceId : CStr) (cacheStatus : ℤ) (c : Client) :
    ℤ × Client :=
  let (handle, os) := pclCreateFile com env ctx.dbPath c.os
  if handle = -1 then (handle, { c with os })
  else if handle ≥ maxPersHandle then
    (epersMaxhandle, { c with os := (os.close handle).2 })
  else
    let (_, os) := pclFileGetDefaultData com appId env handle resourceId ctx.configKey.policy os
    (handle, { c with
      os
      gFileHandleTree := setFileCacheStatus c.gFileHandleTree handle cacheStatus })

def registerRegular (ctx : DbContext) (handle wantBackup : ℤ) (c : Client) : Client :=
  let tree := setFileHandleData c.gFileHandleTree handle ctx.configKey.permission
    (backupPath com ctx.configKey.policy ctx.dbPath)
    (csumPath com ctx.configKey.policy ctx.dbPath) none
  if ctx.configKey.permission ≠ .readOnly then
    { c with
      gFileHandleTree := setFileBackupStatus tree handle wantBackup
      gOpenFdList := listItemInsert c.gOpenFdList handle }
  else { c with gFileHandleTree := tree }

/-- `pclFileOpenRegular` with a valid database context. -/
def openValid (ctx : DbContext) (resourceId : CStr) (c : Client) : ℤ × Client :=
  let flags := pclGetPosixPermission ctx.configKey.permission
  let wanted := wantsBackup com c ctx
  let (handle, os) :=
    if wanted then
      pclVerifyConsistency env ctx.dbPath (backupPath com ctx.configKey.policy ctx.dbPath)
        (csumPath com ctx.configKey.policy ctx.dbPath) flags c.os
    else (-1, c.os)
  if wanted && handle = -1 then (-1, { c with os := (os.close handle).2 })
  else
    let ((handle, os), cacheStatus) :=
      if handle ≤ 0 then (os.openPath env ctx.dbPath flags, cacheStatusOf com ctx.dbPath)
      else ((handle, os), -1)
    let c := { c with os }
    if handle < maxPersHandle then
      let (handle, c) :=
        if handle = -1 ∧ os.errno = .enoent then
          createRegular com appId env ctx resourceId cacheStatus c
        else (handle, c)
      (handle, registerRegular com ctx handle (if wanted then 0 else 1) c)
    else (epersMaxhandle, { c with os := (os.close handle).2 })

/-- `pclFileOpenRegular` for a resource that no table names: a local, cached file. -/
def openUnlisted (ctx : DbContext) (resourceId : CStr) (userNo seatNo : UInt32) (c : Client) :
    ℤ × Client :=
  let dbPath := snprintf com.maxLengthPathFilename
    (getLocalCacheFilePath com appId userNo seatNo resourceId)
  let (handle, os) := pclCreateFile com env dbPath c.os
  if handle < maxPersHandle then
    let tree := setFileCacheStatus c.gFileHandleTree handle 1
    if handle ≠ -1 then
      let tree := setFileHandleData tree handle .readWrite
        (backupPath com ctx.configKey.policy ctx.dbPath)
        (csumPath com ctx.configKey.policy ctx.dbPath) none
      (handle, { c with
        os
        gFileHandleTree := setFileBackupStatus tree handle 1
        gOpenFdList := listItemInsert c.gOpenFdList handle })
    else (handle, { c with os, gFileHandleTree := tree })
  else (epersMaxhandle, { c with os := (os.close handle).2 })

def pclFileOpenRegular (ctx : DbContext) (resourceId : CStr) (userNo seatNo : UInt32)
    (c : Client) : ℤ × Client :=
  if 0 ≤ ctx.rval then openValid com appId env ctx resourceId c
  else openUnlisted com appId env ctx resourceId userNo seatNo c

def pclFileOpenDefaultData (ctx : DbContext) (resourceId : CStr) (os : Os) : ℤ × Os :=
  os.openPath env
    (defaultDataPath com appId ctx.configKey.policy com.configDefaultDataFolderName resourceId)
    (pclGetPosixPermission ctx.configKey.permission)

def defaultDataUser : ℤ := -1

def pclFileOpen (ctx : DbContext) (resourceId : CStr) (userNo seatNo : UInt32) (c : Client) :
    ℤ × Client :=
  if 0 < c.gPclInitCounter then
    if ctx.configKey.type = .file then
      if userNo = pclUserDefaultdata then
        let (handle, os) := pclFileOpenDefaultData com appId env ctx resourceId c.os
        if handle ≥ maxPersHandle then (epersMaxhandle, { c with os := (os.close handle).2 })
        else
          let tree := setFileUserId c.gFileHandleTree handle defaultDataUser
          (handle, { c with
            os
            gFileHandleTree := setFileHandleData tree handle .readWrite [] [] none })
      else pclFileOpenRegular com appId env ctx resourceId userNo seatNo c
    else (epersResourceNoFile, c)
  else (epersNotInitialized, c)

end Open

section Use

def pclFileClose (fd : ℤ) (c : Client) : ℤ × Client :=
  if 0 < c.gPclInitCounter then
    match getFilePermission c.gFileHandleTree fd with
    | none => (epersMaxhandle, c)
    | some permission =>
      let os :=
        if permission ≠ .readOnly ∧ permission ≠ .lastEntry then
          let (_, os) := c.os.remove ((getFileBackupPath c.gFileHandleTree fd).getD [])
          let (_, os) := os.remove ((getFileChecksumPath c.gFileHandleTree fd).getD [])
          os
        else c.os
      let (_, os) := os.fsync fd
      let (rval, os) := os.close fd
      (rval, { c with
        os
        gFileHandleTree := removeFileHandleData c.gFileHandleTree fd
        gOpenFdList := listItemRemove c.gOpenFdList fd })
  else (epersNotInitialized, c)

/-- The first write through a descriptor: checksum, side files, status. -/
def backupBeforeWrite (com : CommonObject) (env : Env) (fd : ℤ) (c : Client) : Client :=
  if getFileBackupStatus c.gFileHandleTree fd = 0 ∧
      getFileUserId c.gFileHandleTree fd ≠ defaultDataUser then
    let (csumBuf, os) := pclCalcCrc32Csum fd c.os
    let (_, os) :=
      match getFileBackupPath c.gFileHandleTree fd, getFileChecksumPath c.gFileHandleTree fd with
      | some backup, some csum => pclCreateBackup com env backup fd csum csumBuf os
      | _, _ => (-1, os)
    { c with os, gFileHandleTree := setFileBackupStatus c.gFileHandleTree fd 1 }
  else c

def pclFileWriteData (com : CommonObject) (env : Env) (fd : ℤ) (buffer : Bytes) (c : Client) :
    ℤ × Client :=
  if 0 < c.gPclInitCounter then
    if ¬ Locked c.loop then
      match getFilePermission c.gFileHandleTree fd with
      | none => (epersMaxhandle, c)
      | some permission =>
        if permission ≠ .readOnly then
          let c := backupBeforeWrite com env fd c
          let (size, os) := c.os.write env fd buffer
          let os := if getFileCacheStatus c.gFileHandleTree fd = 1 then (os.fsync fd).2 else os
          (size, { c with os })
        else (epersResourceReadOnly, c)
    else (epersLockfs, c)
  else (epersNotInitialized, c)

def int (n : ℤ) : ℤ := n.bmod (2 ^ 32)

def pclFileSeek (fd offset : ℤ) (whence : Whence) (c : Client) : ℤ × Client :=
  if 0 < c.gPclInitCounter then
    if ¬ Locked c.loop then
      let (rval, os) := c.os.lseek fd offset whence
      (int rval, { c with os })
    else (epersLockfs, c)
  else (epersNotInitialized, c)

def pclFileReadData (fd : ℤ) (count : ℕ) (c : Client) : Option Bytes × ℤ × Client :=
  if 0 < c.gPclInitCounter then
    let (bytes, os) := c.os.read fd count
    (bytes, (bytes.map fun b => (b.length : ℤ)).getD (-1), { c with os })
  else (none, epersNotInitialized, c)

def pclFileGetSize (fd : ℤ) (c : Client) : ℤ :=
  if 0 < c.gPclInitCounter then ((c.os.fstat fd).map fun n : ℕ => int n).getD (-1)
  else epersNotInitialized

def pclFileRemove (ctx : DbContext) (c : Client) : ℤ × Client :=
  if 0 < c.gPclInitCounter then
    if ¬ Locked c.loop then
      if 0 ≤ ctx.rval ∧ ctx.configKey.type = .file then
        let (rval, os) := c.os.remove ctx.dbPath
        (rval, { c with os })
      else (ctx.rval, c)
    else (epersLockfs, c)
  else (epersNotInitialized, c)

end Use

section PathHandles

variable (com : CommonObject) (appId : CStr) (env : Env)

/-- The file behind a path handle does not exist yet: create it, get default
data, close it again. -/
def createForPath (ctx : DbContext) (resourceId : CStr) (c : Client) : Client :=
  if c.os.access ctx.dbPath = -1 then
    let cacheStatus := cacheStatusOf com ctx.dbPath
    let (handle, os) := pclCreateFile com env ctx.dbPath c.os
    -- the record is made for the result, be it a descriptor or -1, and stays
    let c := { c with
      os
      gFileHandleTree := setFileCacheStatus c.gFileHandleTree handle cacheStatus }
    if handle = -1 then c
    else
      let (_, os) := pclFileGetDefaultData com appId env handle resourceId ctx.configKey.policy c.os
      { c with os := (os.close handle).2 }
  else c

/-- `pclFileCreatePath` from the point where it draws a handle. -/
def enterPath (ctx : DbContext) (resourceId backup csum : CStr) (c : Client) : ℤ × Client :=
  let (handle, pool) := getPersistenceHandleIdx c.pool
  let c := { c with pool }
  if handle ≠ -1 then
    if handle < maxPersHandle then
      let c := createForPath com appId env ctx resourceId c
      (handle, { c with
        gOssFileHandleTree := setOssfileHandleData c.gOssFileHandleTree handle
          ctx.configKey.permission 0 backup csum (some ctx.dbPath)
        gCPOpenFdList := listItemInsert c.gCPOpenFdList handle })
    else (epersMaxhandle, { c with pool := setPersistenceHandleCloseIdx handle c.pool })
  else (handle, c)

/-- `pclFileCreatePath` for a resource without a database context. -/
def enterUnlisted (resourceId : CStr) (userNo seatNo : UInt32) (c : Client) : ℤ × Client :=
  let dbPath := snprintf com.maxLengthPathFilename
    (getLocalCacheFilePath com appId userNo seatNo resourceId)
  let (handle, pool) := getPersistenceHandleIdx c.pool
  let c := { c with pool }
  if handle ≠ -1 then
    if handle < maxPersHandle then
      let backup := snprintf com.maxLengthPathFilename (dbPath ++ gBackupPostfix)
      let csum := snprintf com.maxLengthPathFilename (dbPath ++ gBackupCsPostfix)
      (handle, { c with
        gOssFileHandleTree := setOssfileHandleData c.gOssFileHandleTree handle .readWrite 0
          backup csum none
        gCPOpenFdList := listItemInsert c.gCPOpenFdList handle })
    else (epersMaxhandle, { c with pool := setPersistenceHandleCloseIdx handle c.pool })
  else (handle, c)

/-- The blacklist test of `pclFileCreatePath`, on the path instead of the key. -/
def pathWantsBackup (c : Client) (ctx : DbContext) : Bool :=
  ctx.configKey.permission ≠ .readOnly &&
    pclBackupNeeded c.gRbTreeBl (getRawString com.maxLengthKeyName ctx.dbPath
      (ctx.dbPath.drop com.maxLengthKeyName))

def pclFileCreatePath (ctx : DbContext) (resourceId : CStr) (userNo seatNo : UInt32)
    (c : Client) : ℤ × Client :=
  if 0 < c.gPclInitCounter then
    if ctx.configKey.type = .file then
      if 0 ≤ ctx.rval then
        if pathWantsBackup com c ctx then
          let backup := snprintf (com.maxLengthPathFilename - 1) (ctx.dbPath ++ gBackupPostfix)
          let csum := snprintf (com.maxLengthPathFilename - 1) (ctx.dbPath ++ gBackupCsPostfix)
          let (handle, os) := pclVerifyConsistency env ctx.dbPath backup csum
            (pclGetPosixPermission ctx.configKey.permission) c.os
          if handle = -1 then (-1, { c with os })
          else
            let os := if handle > 0 then (os.close handle).2 else os
            enterPath com appId env ctx resourceId backup csum { c with os }
        else enterPath com appId env ctx resourceId [] [] c
      else enterUnlisted com appId resourceId userNo seatNo c
    else (epersResourceNoFile, c)
  else (epersNotInitialized, c)

def pclFileReleasePath (pathHandle : ℤ) (c : Client) : ℤ × Client :=
  if 0 < c.gPclInitCounter then
    match getFilePermission c.gOssFileHandleTree pathHandle with
    | none => (epersMaxhandle, c)
    | some permission =>
      let os :=
        if permission ≠ .readOnly then
          let (_, os) := c.os.remove ((getFileBackupPath c.gOssFileHandleTree pathHandle).getD [])
          let (_, os) := os.remove ((getFileChecksumPath c.gOssFileHandleTree pathHandle).getD [])
          os
        else c.os
      (1, { c with
        os
        pool := setPersistenceHandleCloseIdx pathHandle c.pool
        gOssFileHandleTree := removeFileHandleData
          (setOssfileFilePath c.gOssFileHandleTree pathHandle none) pathHandle
        gCPOpenFdList := listItemRemove c.gCPOpenFdList pathHandle })
  else (epersNotInitialized, c)

end PathHandles

section KeyHandles

variable (com : CommonObject)

def pclKeyHandleOpen (ctx : DbContext) (ldbid : UInt32) (resourceId : CStr)
    (userNo seatNo : UInt32) (c : Client) : ℤ × Client :=
  if 0 < c.gPclInitCounter then
    if 0 ≤ ctx.rval ∧ ctx.configKey.type = .key then
      if ctx.configKey.storage ≠ .lastEntry then
        let (idx, pool) := getPersistenceHandleIdx c.pool
        (idx, { c with
          pool
          gKeyHandleTree :=
            setKeyHandleData com c.gKeyHandleTree idx resourceId ldbid userNo seatNo })
      else (epersBadpol, c)
    else (epersNotInitialized, c)
  else (epersNotInitialized, c)

def pclKeyHandleClose (keyHandle : ℤ) (c : Client) : ℤ × Client :=
  if 0 < c.gPclInitCounter then
    match getKeyHandleData c.gKeyHandleTree keyHandle with
    | none => (epersMaxhandle, c)
    | some persHandle =>
      if persHandle.resourceId ≠ [] then
        (1, { c with
          pool := setPersistenceHandleCloseIdx keyHandle c.pool
          gKeyHandleTree := clearKeyHandleArray c.gKeyHandleTree keyHandle })
      else (epersInvalidHandle, c)
  else (epersNotInitialized, c)

end KeyHandles

section Shutdown

/-- `close_all_persistence_handle`: the pool and the lists start over, the trees stay. -/
def closeAllPersistenceHandle (c : Client) : Client :=
  { c with pool := HandlePool.reset, gCPOpenFdList := [], gOpenFdList := [] }

/-- `list_iterate` with a callback on the client. -/
def listIterate (callback : ℤ → Client → Client) (list : List ℤ) (c : Client) : Client :=
  list.foldl (fun c fd => callback fd c) c

/-- `process_prepare_shutdown` on the client. -/
def processPrepareShutdown (complete : UInt32) (c : Client) : Client :=
  let c := { c with loop := Access.processPrepareShutdown complete c.loop }
  let c :=
    if complete = shutdownFull then
      listIterate (fun fd c => (pclFileClose fd c).2) c.gOpenFdList c
    else if complete = shutdownPartial then
      listIterate (fun fd c => { c with os := (c.os.fsync fd).2 }) c.gOpenFdList c
    else c
  if 0 < complete then closeAllPersistenceHandle c else c

end Shutdown

end PersClient.File
