import PersClient.File.System

/-! # Backup, checksum and recovery

`backup_filelist.c` and the default data of `file.c`: how a file is created,
how its checksum is taken, how a backup is written, and how three files are
judged when the resource is opened again.
-/

namespace PersClient.File

open Text

section CreateFile

/-- The path `pclCreateFile` puts together from the tokens of its argument. A
single token is left out: the code would append a null pointer to it. -/
def createPath (com : CommonObject) (path : CStr) : Option CStr :=
  let toks := tokens (fun c => c == '/' || c == '\n') (snprintf com.maxLengthPathFilename path)
  if 2 ≤ toks.length ∧ toks.length < 24 then some (toks.flatMap fun t => '/' :: t) else none

def pclCreateFile (com : CommonObject) (env : Env) (path : CStr) (os : Os) : ℤ × Os :=
  match createPath com path with
  | none => (-1, os)
  | some p => os.openPath env p { oRdwr with creat := true, trunc := true }

end CreateFile

section Checksum

def readChunks (fd : ℤ) (count : ℕ) : ℕ → Os → List Bytes × Os
  | 0, os => ([], os)
  | n + 1, os =>
    match os.read fd count with
    | (some (b :: bs), os) =>
      let (chunks, os) := readChunks fd count n os
      ((b :: bs) :: chunks, os)
    | (_, os) => ([], os)

def pclCalcCrc32Csum (fd : ℤ) (os : Os) : Bytes × Os :=
  match os.fstat fd with
  | none => ([], os)
  | some stSize =>
    let (curPos, os) := os.lseek fd 0 .cur
    let os := if curPos ≠ 0 then (os.lseek fd 0 .set).2 else os
    let (chunks, os) := readChunks fd stSize (stSize + 1) os
    let (_, os) := os.lseek fd curPos .set
    (CStr.toBytes (csumOfReads stSize [] [] chunks), os)

end Checksum

section Copy

def pclBackupDoFileCopy (env : Env) (srcFd dstFd : ℤ) (os : Os) : ℤ × Os :=
  match os.fstat srcFd with
  | none => (-1, os)
  | some stSize =>
    let (rval, os) := os.sendfile env dstFd srcFd stSize
    let (_, os) := os.lseek dstFd 0 .set
    (rval, os)

def pclRecoverFromBackup (env : Env) (backupFd : ℤ) (original : CStr) (os : Os) : ℤ × Os :=
  let (handle, os) := os.openPath env original { oRdwr with trunc := true }
  if handle ≠ -1 then
    let (_, os) := pclBackupDoFileCopy env backupFd handle os
    (handle, os)
  else (handle, os)

def makeBackupFile (com : CommonObject) (env : Env) (dstPath : CStr) (os : Os) : Os :=
  if os.access dstPath ≠ 0 then
    let (handle, os) := pclCreateFile com env (snprintf com.maxLengthPathFilename dstPath) os
    if handle ≠ -1 then (os.close handle).2 else os
  else os

def writeCsumFile (env : Env) (csumPath : CStr) (csumBuf : Bytes) (os : Os) : Os :=
  let (csfd, os) := os.openPath env csumPath { oWronly with creat := true, trunc := true }
  if csfd ≠ -1 then
    let (_, os) := os.write env csfd csumBuf
    (os.close csfd).2
  else os

def copyToBackup (env : Env) (dstPath : CStr) (srcfd : ℤ) (os : Os) : ℤ × Os :=
  let (dstFd, os) := os.openPath env dstPath { oWronly with creat := true, trunc := true }
  if dstFd ≠ -1 then
    let (curPos, os) := os.lseek srcfd 0 .cur
    let os := if curPos ≠ 0 then (os.lseek srcfd 0 .set).2 else os
    let (readSize, os) := pclBackupDoFileCopy env srcfd dstFd os
    let (_, os) := os.close dstFd
    let (_, os) := os.lseek srcfd curPos .set
    (readSize, os)
  else (-1, os)

/-- `pclCreateBackup` on paths that are not null. The result of every step but
the last is ignored. -/
def pclCreateBackup (com : CommonObject) (env : Env) (dstPath : CStr) (srcfd : ℤ)
    (csumPath : CStr) (csumBuf : Bytes) (os : Os) : ℤ × Os :=
  copyToBackup env dstPath srcfd
    (writeCsumFile env csumPath csumBuf (makeBackupFile com env dstPath os))

end Copy

section Verify

variable (env : Env) (origPath backupPath csumPath : CStr) (openFlags : OpenFlags)

def readCsum (fdCsum : ℤ) (os : Os) : Bytes × Os :=
  let (chunk, os) := os.read fdCsum checksumBufSize
  (chunk.getD [], os)

def verifyBackupAndCsum (os : Os) : ℤ × Os :=
  let (fdBackup, os) := os.openPath env backupPath oRdonly
  if fdBackup ≠ -1 then
    let (backCsum, os) := pclCalcCrc32Csum fdBackup os
    let (fdCsum, os) := os.openPath env csumPath oRdonly
    let (handle, os) :=
      if fdCsum ≠ -1 then
        let (csumBuf, os) := readCsum fdCsum os
        let (handle, os) :=
          if csumBuf ≠ [] then
            if textOf csumBuf = backCsum then pclRecoverFromBackup env fdBackup origPath os
            else
              let (handle, os) := os.openPath env origPath openFlags
              if handle ≠ -1 then
                let (origCsum, os) := pclCalcCrc32Csum handle os
                if textOf csumBuf ≠ origCsum ∧ backCsum ≠ origCsum then
                  (-1, (os.close handle).2)
                else (handle, os)
              else (handle, os)
          -- an empty checksum file: nothing is compared, nothing is opened
          else (0, os)
        (handle, (os.close fdCsum).2)
      else (-1, os)
    (handle, (os.close fdBackup).2)
  else (-1, os)

def keepIfMatching (csum : Bytes) (os : Os) : ℤ × Os :=
  let (handle, os) := os.openPath env origPath openFlags
  if handle ≠ -1 then
    let (origCsum, os) := pclCalcCrc32Csum handle os
    -- the descriptor is overwritten before it is closed
    if csum ≠ origCsum then (-1, (os.close (-1)).2) else (handle, os)
  else (handle, os)

def verifyCsumOnly (os : Os) : ℤ × Os :=
  let (fdCsum, os) := os.openPath env csumPath oRdonly
  if fdCsum ≠ -1 then
    let (csumBuf, os) := readCsum fdCsum os
    let (handle, os) := keepIfMatching env origPath openFlags (textOf csumBuf) os
    (handle, (os.close fdCsum).2)
  else (-1, os)

def verifyBackupOnly (os : Os) : ℤ × Os :=
  let (fdBackup, os) := os.openPath env backupPath oRdonly
  if fdBackup ≠ -1 then
    let (backCsum, os) := pclCalcCrc32Csum fdBackup os
    let (handle, os) := keepIfMatching env origPath openFlags backCsum os
    (handle, (os.close fdBackup).2)
  else (-1, os)

def pclVerifyConsistency (os : Os) : ℤ × Os :=
  let backupAvail := os.access backupPath
  let csumAvail := os.access csumPath
  let (handle, os) :=
    if backupAvail = 0 ∧ csumAvail = 0 then
      verifyBackupAndCsum env origPath backupPath csumPath openFlags os
    else if csumAvail = 0 then verifyCsumOnly env origPath csumPath openFlags os
    else if backupAvail = 0 then verifyBackupOnly env origPath backupPath openFlags os
    else (0, os)
  if handle = -1 then
    let (_, os) := os.remove origPath
    let (_, os) := os.remove backupPath
    let (_, os) := os.remove csumPath
    (handle, os)
  else (handle, os)

end Verify

section Policy

/-- `need_backup_key`: the blacklist keeps the checksums of its names. -/
def needBackupKey (gRbTreeBl : Option (List UInt32)) (key : UInt32) : Bool :=
  match gRbTreeBl with
  | none => true
  | some keys => key ∉ keys

def pclBackupNeeded (gRbTreeBl : Option (List UInt32)) (path : CStr) : Bool :=
  needBackupKey gRbTreeBl (pclCrc32 0 (CStr.toBytes path))

def fifthSlash (buf : CStr) : Option ℕ :=
  (List.range buf.length).find? fun i => (buf.take (i + 1)).count '/' ≥ 5

/-- `get_raw_string`: the text from the fifth slash on; if the first `limit`
characters have none, what lies behind them in memory. -/
def getRawString (limit : ℕ) (buf behind : CStr) : CStr :=
  match fifthSlash (buf.take limit) with
  | some i => buf.drop i
  | none => behind

def pclGetPosixPermission : PersistencePermission → OpenFlags
  | .readWrite => oRdwr
  | .readOnly => oRdonly
  | .writeOnly => oWronly
  | .lastEntry => oRdonly

end Policy

section DefaultData

variable (com : CommonObject) (appId : CStr)

/-- The path of the default data of a file resource in one of the two folders. -/
def defaultDataPath (policy : PersistencePolicy) (folder resourceId : CStr) : CStr :=
  let pathPrefix := match policy with
    | .wc => snprintf com.maxLengthPathFilename (getLocalCachePath com appId)
    | .wt => snprintf com.maxLengthPathFilename (getLocalWtPath com appId)
    | .na => []
  snprintf com.maxLengthPathFilename (pathPrefix ++ folder ++ '/' :: resourceId)

/-- Copy the default data that stand open to the start of the new file. -/
def copyDefaultData (env : Env) (handle defaultHandle : ℤ) (os : Os) : ℤ × Os :=
  match os.fstat defaultHandle with
  | none => (0, os)
  | some stSize =>
    let (rval, os) := os.sendfile env handle defaultHandle stSize
    if rval ≠ -1 then os.lseek handle 0 .set else (rval, os)

def pclFileGetDefaultData (env : Env) (handle : ℤ) (resourceId : CStr)
    (policy : PersistencePolicy) (os : Os) : ℤ × Os :=
  let configured := defaultDataPath com appId policy com.configDefaultDataFolderName resourceId
  let defaultPath :=
    if os.access configured ≠ 0 then
      defaultDataPath com appId policy com.defaultDataFolderName resourceId
    else configured
  let (defaultHandle, os) := os.openPath env defaultPath oRdonly
  if defaultHandle ≠ -1 then
    let (rval, os) := copyDefaultData env handle defaultHandle os
    (rval, (os.close defaultHandle).2)
  else (-1, os)

end DefaultData

end PersClient.File
