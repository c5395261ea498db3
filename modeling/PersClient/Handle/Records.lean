import PersClient.Data.Organization
import PersClient.Lib.Tree

/-! # Handle records

The records behind file, path and key handles, the trees that keep them and the
pool path and key handles are drawn from. A tree that has not been made yet is
`none`, as is the permission the source stores as -1.
-/

namespace PersClient.Handle

section FileRecords

structure FileHandleData where
  permission : Option PersistencePermission
  backupCreated : ℤ
  cacheStatus : ℤ
  userId : ℤ
  backupPath : CStr
  csumPath : CStr
  filePath : Option CStr
  deriving DecidableEq, Repr

abbrev FileTree := Option (Tree FileHandleData)

variable (tree : FileTree) (idx : ℤ)

/-- What every setter does: change the item found or insert a new one, by erase
and insert, making the tree first if it is missing. -/
def setItem (change : FileHandleData → FileHandleData) (fresh : FileHandleData) : FileTree :=
  let t := tree.getD Tree.new
  match t.find idx with
  | none => some (t.insert idx fresh)
  | some found => some ((t.erase idx).insert idx (change found))

def setFileHandleData (permission : PersistencePermission) (backup csumPath : CStr)
    (filePath : Option CStr) : FileTree :=
  setItem tree idx
    (fun found => { found with
      permission := some permission, filePath, backupPath := backup, csumPath })
    { permission := some permission, backupCreated := 0, cacheStatus := -1, userId := 0,
      backupPath := backup, csumPath, filePath }

/-- `set_file_backup_status`; a new item keeps whatever its paths held. -/
def setFileBackupStatus (status : ℤ) : FileTree :=
  setItem tree idx (fun found => { found with backupCreated := status })
    { permission := some .lastEntry, backupCreated := status, cacheStatus := -1, userId := 0,
      backupPath := [], csumPath := [], filePath := none }

def setFileCacheStatus (status : ℤ) : FileTree :=
  setItem tree idx (fun found => { found with cacheStatus := status })
    { permission := some .lastEntry, backupCreated := 0, cacheStatus := status, userId := 0,
      backupPath := [], csumPath := [], filePath := none }

def setFileUserId (userId : ℤ) : FileTree :=
  setItem tree idx (fun found => { found with userId })
    { permission := none, backupCreated := 0, cacheStatus := -1, userId,
      backupPath := [], csumPath := [], filePath := none }

/-- `get_file_permission`: no item is -1, no tree is the last entry. -/
def getFilePermission : Option PersistencePermission :=
  match tree with
  | none => some .lastEntry
  | some _ => (Tree.lookup tree idx).bind FileHandleData.permission

def getFileBackupPath : Option CStr := (Tree.lookup tree idx).map FileHandleData.backupPath

def getFileChecksumPath : Option CStr := (Tree.lookup tree idx).map FileHandleData.csumPath

def getFileFilePath : Option CStr := (Tree.lookup tree idx).bind FileHandleData.filePath

def getFileBackupStatus : ℤ := ((Tree.lookup tree idx).map FileHandleData.backupCreated).getD (-1)

def getFileCacheStatus : ℤ := ((Tree.lookup tree idx).map FileHandleData.cacheStatus).getD (-1)

def getFileUserId : ℤ := ((Tree.lookup tree idx).map FileHandleData.userId).getD (-1)

def removeFileHandleData : FileTree := tree.map fun t => t.erase idx

def setOssfileHandleData (permission : PersistencePermission) (backupCreated : ℤ)
    (backup csumPath : CStr) (filePath : Option CStr) : FileTree :=
  setItem tree idx
    (fun found => { found with
      permission := some permission, filePath, backupPath := backup, csumPath })
    { permission := some permission, backupCreated, cacheStatus := -1, userId := 0,
      backupPath := backup, csumPath, filePath }

def setOssfileFilePath (file : Option CStr) : FileTree :=
  setItem tree idx (fun found => { found with filePath := file })
    { permission := none, backupCreated := 0, cacheStatus := -1, userId := 0,
      backupPath := [], csumPath := [], filePath := file }

section Lemmas

variable {tree idx} {j : ℤ} {change : FileHandleData → FileHandleData} {fresh : FileHandleData}

theorem lookup_setItem : Tree.lookup (setItem tree idx change fresh) j =
    if j = idx then some (((Tree.lookup tree idx).map change).getD fresh)
    else Tree.lookup tree j := by
  simp only [setItem, Tree.find_getD_new]
  cases h : Tree.lookup tree idx with
  | none => rw [Tree.lookup_insert, h]; rfl
  | some found => exact Tree.lookup_erase_insert

theorem isSome_setItem : (setItem tree idx change fresh).isSome := by
  simp only [setItem]
  split <;> rfl

theorem lookup_removeFileHandleData : Tree.lookup (removeFileHandleData tree idx) j =
    if j = idx then none else Tree.lookup tree j := Tree.lookup_map_erase

end Lemmas

end FileRecords

section Lists

def listItemInsert (list : List ℤ) (fd : ℤ) : List ℤ := list ++ [fd]

/-- `list_item_remove`: the first item of this descriptor. -/
def listItemRemove (list : List ℤ) (fd : ℤ) : List ℤ := list.erase fd

end Lists

section KeyRecords

structure PersistenceKeyHandle where
  ldbid : UInt32
  userNo : UInt32
  seatNo : UInt32
  resourceId : CStr
  deriving DecidableEq, Repr

abbrev KeyTree := Option (Tree PersistenceKeyHandle)

/-- `set_key_handle_data`: the identifier is cut to its field, an item that
exists is kept. -/
def setKeyHandleData (com : CommonObject) (tree : KeyTree) (idx : ℤ) (id : CStr)
    (ldbid userNo seatNo : UInt32) : KeyTree :=
  some ((tree.getD Tree.new).insert idx
    { ldbid, userNo, seatNo, resourceId := snprintf com.maxLengthKeyName id })

def getKeyHandleData (tree : KeyTree) (idx : ℤ) : Option PersistenceKeyHandle :=
  Tree.lookup tree idx

def clearKeyHandleArray (tree : KeyTree) (idx : ℤ) : KeyTree := tree.map fun t => t.erase idx

variable {com : CommonObject} {tree : KeyTree} {idx j : ℤ}

theorem getKeyHandleData_set {id : CStr} {l u s : UInt32} :
    getKeyHandleData (setKeyHandleData com tree idx id l u s) j =
      if j = idx then
        some ((getKeyHandleData tree idx).getD ⟨l, u, s, snprintf com.maxLengthKeyName id⟩)
      else getKeyHandleData tree j := Tree.lookup_insert

theorem getKeyHandleData_clear : getKeyHandleData (clearKeyHandleArray tree idx) j =
    if j = idx then none else getKeyHandleData tree j := Tree.lookup_map_erase

end KeyRecords

section Pool

/-- `gHandleIdx`, `gFreeHandleArray` and `gFreeHandleIdxHead`. -/
structure HandlePool where
  gHandleIdx : ℤ
  gFreeHandleArray : ℕ → ℤ
  gFreeHandleIdxHead : ℕ

def HandlePool.reset : HandlePool := ⟨1, fun _ => 0, 0⟩

def getPersistenceHandleIdx (p : HandlePool) : ℤ × HandlePool :=
  if 0 < p.gFreeHandleIdxHead ∧ p.gFreeHandleIdxHead < maxPersHandle then
    (p.gFreeHandleArray (p.gFreeHandleIdxHead - 1),
      { p with gFreeHandleIdxHead := p.gFreeHandleIdxHead - 1 })
  else if p.gHandleIdx < maxPersHandle - 1 then
    (p.gHandleIdx, { p with gHandleIdx := p.gHandleIdx + 1 })
  else (epersMaxhandle, p)

def setPersistenceHandleCloseIdx (handle : ℤ) (p : HandlePool) : HandlePool :=
  if p.gFreeHandleIdxHead < maxPersHandle then
    { p with
      gFreeHandleArray := Function.update p.gFreeHandleArray p.gFreeHandleIdxHead handle
      gFreeHandleIdxHead := p.gFreeHandleIdxHead + 1 }
  else p

end Pool

end PersClient.Handle
