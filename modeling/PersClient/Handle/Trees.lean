import PersClient.Handle.PathStore
import PersClient.Handle.StoreCalls

/-! # The life of the handle trees

The calls on the three trees of handle records, in any order, and
`deleteHandleTrees` after them. The trees of path and key handles answer as the
records the rest of the library is modelled with. When the trees are deleted,
everything has been released but the items `set_ossfile_handle_data` searched
with where it found a record.
-/

namespace PersClient.Handle

open Rbtree FileStore

section Model

structure HandleTrees where
  files : FileStore
  paths : PathStore
  keys : KeyStore

namespace HandleTrees

def init : HandleTrees := ⟨.init, .init, .init⟩

/-- `jsw_rbdelete` of a tree that was made. -/
def deleteTree {α : Type} (m : Memory α) : Option JswRbtree → Option (Memory α)
  | none => some m
  | some tree => jswRbdelete m tree

def deleteHandleTrees (trees : HandleTrees) : Option HandleTrees := do
  let keys ← deleteTree trees.keys.memory trees.keys.gKeyHandleTree
  let files ← deleteTree trees.files.memory trees.files.gFileHandleTree
  let paths ← deleteTree trees.paths.memory trees.paths.gOssFileHandleTree
  some ⟨⟨none, files⟩, ⟨none, paths⟩, ⟨none, keys⟩⟩

end HandleTrees

inductive FileGetter
  | permission | backupPath | checksumPath | backupStatus | cacheStatus | userId
  deriving DecidableEq, Repr

def FileGetter.perform (junk : ℕ → FileHandleData) (store : FileStore) (idx : ℤ) :
    FileGetter → Option FileStore
  | permission => (store.getFilePermission junk idx).map Prod.snd
  | backupPath => (store.getFileBackupPath junk idx).map Prod.snd
  | checksumPath => (store.getFileChecksumPath junk idx).map Prod.snd
  | backupStatus => (store.getFileBackupStatus junk idx).map Prod.snd
  | cacheStatus => (store.getFileCacheStatus junk idx).map Prod.snd
  | userId => (store.getFileUserId junk idx).map Prod.snd

inductive PathCall
  | setOssfileHandleData (idx : ℤ) (permission : PersistencePermission) (backupCreated : ℤ)
      (backup csumPath : CStr) (filePath : Option CStr)
  | setOssfileFilePath (idx : ℤ) (file : Option CStr)
  | removeOssfileHandleData (idx : ℤ)
  | getOssfilePermission (idx : ℤ)
  | getOssfileBackupPath (idx : ℤ)
  | getOssfileFilePath (idx : ℤ)
  | getOssfileChecksumPath (idx : ℤ)
  deriving DecidableEq, Repr

namespace PathCall

variable (com : CommonObject) (junk : ℕ → FileHandleData)

def perform (store : PathStore) : PathCall → Option PathStore
  | setOssfileHandleData idx permission backupCreated backup csumPath filePath =>
    store.setOssfileHandleData com junk idx permission backupCreated backup csumPath filePath
  | setOssfileFilePath idx file => store.setOssfileFilePath junk idx file
  | removeOssfileHandleData idx => (store.removeOssfileHandleData junk idx).map Prod.snd
  | getOssfilePermission idx => (store.getOssfilePermission junk idx).map Prod.snd
  | getOssfileBackupPath idx => (store.getOssfileBackupPath junk idx).map Prod.snd
  | getOssfileFilePath idx => (store.getOssfileFilePath junk idx).map Prod.snd
  | getOssfileChecksumPath idx => (store.getOssfileChecksumPath junk idx).map Prod.snd

def records (tree : FileTree) : PathCall → FileTree
  | setOssfileHandleData idx permission backupCreated backup csumPath filePath =>
    Handle.setOssfileHandleData tree idx permission backupCreated (pathField com backup)
      (pathField com csumPath) filePath
  | setOssfileFilePath idx file => Handle.setOssfileFilePath tree idx file
  | removeOssfileHandleData idx => Handle.removeFileHandleData tree idx
  | _ => tree

def leaks (tree : FileTree) : PathCall → ℕ
  | setOssfileHandleData idx .. => if (Tree.lookup tree idx).isSome then 1 else 0
  | _ => 0

end PathCall

inductive KeyCall
  | setKeyHandleData (idx : ℤ) (id : CStr) (ldbid userNo seatNo : UInt32)
  | getKeyHandleData (idx : ℤ)
  | initKeyHandleArray
  | clearKeyHandleArray (idx : ℤ)
  deriving DecidableEq, Repr

namespace KeyCall

variable (com : CommonObject) (junk : ℕ → PersistenceKeyHandle)

def perform (store : KeyStore) : KeyCall → Option KeyStore
  | setKeyHandleData idx id ldbid userNo seatNo =>
    (store.setKeyHandleData com idx id ldbid userNo seatNo).map Prod.snd
  | getKeyHandleData idx => (store.getKeyHandleData junk idx).map Prod.snd
  | initKeyHandleArray => store.initKeyHandleArray
  | clearKeyHandleArray idx => store.clearKeyHandleArray junk idx

def records (tree : KeyTree) : KeyCall → KeyTree
  | setKeyHandleData idx id ldbid userNo seatNo =>
    Handle.setKeyHandleData com tree idx id ldbid userNo seatNo
  | getKeyHandleData _ => tree
  | initKeyHandleArray => some Tree.new
  | clearKeyHandleArray idx => Handle.clearKeyHandleArray tree idx

end KeyCall

inductive TreeCall
  | file (call : FileHandleCall)
  | getFile (getter : FileGetter) (idx : ℤ)
  | path (call : PathCall)
  | key (call : KeyCall)
  deriving DecidableEq, Repr

namespace TreeCall

def file? : TreeCall → Option FileHandleCall
  | file call => some call
  | _ => none

def path? : TreeCall → Option PathCall
  | path call => some call
  | _ => none

def key? : TreeCall → Option KeyCall
  | key call => some call
  | _ => none

variable (com : CommonObject) (junk : ℕ → FileHandleData) (keyJunk : ℕ → PersistenceKeyHandle)

def perform (trees : HandleTrees) : TreeCall → Option HandleTrees
  | file call => do some { trees with files := ← call.perform com junk trees.files }
  | getFile getter idx => do some { trees with files := ← getter.perform junk trees.files idx }
  | path call => do some { trees with paths := ← call.perform com junk trees.paths }
  | key call => do some { trees with keys := ← call.perform com keyJunk trees.keys }

def performAll (calls : List TreeCall) : Option HandleTrees :=
  calls.foldlM (perform com junk keyJunk) .init

end TreeCall

/-- The records of path handles after these calls, and the items leaked on the way. -/
def pathRecords (com : CommonObject) (calls : List PathCall) : FileTree × ℕ :=
  calls.foldl (fun r call => (call.records com r.1, r.2 + call.leaks r.1)) (none, 0)

def keyRecords (com : CommonObject) (calls : List KeyCall) : KeyTree :=
  calls.foldl (KeyCall.records com) none

end Model

/-- Deleting a tree that was not made leaves the memory alone, as deleting a new one does. -/
theorem deleteTree_eq {α : Type} (m : Memory α) (g : Option JswRbtree) :
    HandleTrees.deleteTree m g = jswRbdelete m (g.getD jswRbnew) := by
  cases g <;> rfl

section Paths

variable {com : CommonObject} {junk : ℕ → FileHandleData} {store : PathStore} {r : FileTree × ℕ}
  {tree : FileTree} {t t' : Tree FileHandleTreeItem} {idx : ℤ}
  {change : FileHandleData → FileHandleData} {fresh : FileHandleData}

def Holding (t : Tree FileHandleTreeItem) (tree : FileTree) : Prop :=
  ∀ k, t.find k = (Tree.lookup tree k).map (FileHandleTreeItem.mk k)

theorem Holding.set (h : Holding t tree) (hset : Changed t t' idx change fresh) :
    Holding t' (Handle.setItem tree idx change fresh) := by
  intro k
  rw [hset.find, lookup_setItem, h idx, h k]
  by_cases hk : k = idx
  · subst hk
    rw [if_pos rfl, if_pos rfl, Option.map_map]
    rfl
  · rw [if_neg hk, if_neg hk]

theorem Holding.remove (h : Holding t tree)
    (hremove : ∀ k, t'.find k = if k = idx then none else t.find k) :
    Holding t' (Handle.removeFileHandleData tree idx) := by
  intro k
  rw [hremove, lookup_removeFileHandleData, h k]
  by_cases hk : k = idx
  · rw [if_pos hk, if_pos hk]
    rfl
  · rw [if_neg hk, if_neg hk]

/-- The store has the records, and beside its tree as many items as were leaked. -/
def PathStore.Keeping (store : PathStore) (r : FileTree × ℕ) : Prop :=
  store.gOssFileHandleTree.isSome = r.1.isSome ∧ ∃ t s held,
    Kept FileHandleTreeItem.key store.memory (store.gOssFileHandleTree.getD jswRbnew) t s held ∧
      held.length = r.2 ∧ Holding t r.1

theorem pathStore_keeping_init : PathStore.init.Keeping (none, 0) :=
  ⟨rfl, Tree.new, .nil, [], kept_new, rfl, fun _ => rfl⟩

theorem PathStore.Keeping.getItem {β : Type} (junk : ℕ → FileHandleData) (idx : ℤ)
    (missing absent : β) (field : FileHandleData → β) (h : store.Keeping r) :
    ∃ store', store.getItem junk idx missing absent field =
        some (if r.1.isSome then ((Tree.lookup r.1 idx).map field).getD absent else missing,
          store') ∧ store'.Keeping r := by
  obtain ⟨hmade, t, s, held, hkept, hheld, hrecords⟩ := h
  obtain ⟨m', hcall, hkept'⟩ := getItem_kept junk idx missing absent field hkept
  refine ⟨⟨store.gOssFileHandleTree, m'⟩, ?_, hmade, t, s, held, hkept', hheld, hrecords⟩
  have hfind : (t.find idx).map (fun a => field a.value) = (Tree.lookup r.1 idx).map field := by
    rw [hrecords idx, Option.map_map]
    rfl
  rw [hmade, hfind] at hcall
  exact congrArg (fun answer => answer.bind fun answer => some (answer.1, ofFiles answer.2)) hcall

theorem PathCall.perform_keeping (com : CommonObject) (junk : ℕ → FileHandleData)
    (h : store.Keeping r) (call : PathCall) :
    ∃ store', call.perform com junk store = some store' ∧
      store'.Keeping (call.records com r.1, r.2 + call.leaks r.1) := by
  have hgetter : ∀ {β : Type} (idx : ℤ) (missing absent : β) (field : FileHandleData → β),
      ∃ store', (store.getItem junk idx missing absent field).map Prod.snd = some store' ∧
        store'.Keeping r := by
    intro β idx missing absent field
    obtain ⟨store', hcall, hkeeping⟩ := h.getItem junk idx missing absent field
    exact ⟨store', by rw [hcall]; rfl, hkeeping⟩
  obtain ⟨g, m⟩ := store
  cases call with
  | setOssfileHandleData idx permission backupCreated backup csumPath filePath =>
    obtain ⟨hmade, t, s, held, hkept, hheld, hrecords⟩ := h
    obtain ⟨rb, m', t', s', held', hcall, hkept', hlength, hset⟩ :=
      PathStore.setOssfileHandleData_kept com junk idx permission backupCreated backup csumPath
        filePath hkept
    refine ⟨⟨some rb, m'⟩, hcall, isSome_setItem.symm, t', s', held', hkept', ?_, hrecords.set hset⟩
    rw [hlength, hheld, hrecords idx, Option.isSome_map]
    rfl
  | setOssfileFilePath idx file =>
    obtain ⟨hmade, t, s, held, hkept, hheld, hrecords⟩ := h
    obtain ⟨found, rb, m', t', s', hcall, hkept', hset, -⟩ := setItem_kept junk idx
      (fun found => { found with filePath := file })
      (fun _ => { filePath := file, backupCreated := 0, permission := none, cacheStatus := -1
                  userId := 0, csumPath := [], backupPath := [] }) hkept
    refine ⟨⟨some rb, m'⟩, ?_, isSome_setItem.symm, t', s', held, hkept', hheld, hrecords.set hset⟩
    exact congrArg (fun r => r.bind fun r => some (PathStore.ofFiles r.2)) hcall
  | removeOssfileHandleData idx =>
    obtain ⟨hmade, t, s, held, hkept, hheld, hrecords⟩ := h
    obtain ⟨rval, g', m', t', s', hcall, hkept', hmade', hremove⟩ :=
      removeFileHandleData_kept junk idx hkept
    refine ⟨⟨g', m'⟩, ?_, ?_, t', s', held, hkept', hheld, hrecords.remove hremove⟩
    · exact congrArg (fun r => (r.bind fun r => some (r.1, PathStore.ofFiles r.2)).map Prod.snd)
        hcall
    · rw [hmade', hmade]
      exact (Option.isSome_map).symm
  | getOssfilePermission idx => exact hgetter idx _ _ _
  | getOssfileBackupPath idx => exact hgetter idx _ _ _
  | getOssfileFilePath idx => exact hgetter idx _ _ _
  | getOssfileChecksumPath idx => exact hgetter idx _ _ _

end Paths

section Keys

variable {com : CommonObject} {store : KeyStore} {tree : KeyTree}

def KeyStore.Keeping (store : KeyStore) (tree : KeyTree) : Prop :=
  store.gKeyHandleTree.isSome = tree.isSome ∧ ∃ t s,
    Kept KeyHandleTreeItem.key store.memory (store.gKeyHandleTree.getD jswRbnew) t s [] ∧
      ∀ k, t.find k = (Handle.getKeyHandleData tree k).map (KeyHandleTreeItem.mk k)

theorem keyStore_keeping_init : KeyStore.init.Keeping none :=
  ⟨rfl, Tree.new, .nil, kept_new, fun _ => rfl⟩

theorem KeyStore.Keeping.getKeyHandleData (junk : ℕ → PersistenceKeyHandle) (idx : ℤ)
    (h : store.Keeping tree) :
    ∃ store', store.getKeyHandleData junk idx = some (Handle.getKeyHandleData tree idx, store') ∧
      store'.Keeping tree := by
  obtain ⟨hmade, t, s, hkept, hrecords⟩ := h
  obtain ⟨m', hcall, hkept'⟩ := KeyStore.getKeyHandleData_kept junk idx hkept
  refine ⟨⟨store.gKeyHandleTree, m'⟩, hcall.trans ?_, hmade, t, s, hkept', hrecords⟩
  rw [hmade, hrecords idx, Option.map_map]
  cases tree with
  | none => rfl
  | some tree => exact congrArg (fun answer => some (answer, _)) Option.map_id'

theorem KeyStore.Keeping.delete (h : store.Keeping tree) :
    ∃ m, jswRbdelete store.memory (store.gKeyHandleTree.getD jswRbnew) = some m ∧
      (∀ j, m.nodes j = none) ∧ ∀ d, m.items d = none := by
  obtain ⟨-, t, s, hkept, -⟩ := h
  obtain ⟨m, hcall, hnodes, hitems, -⟩ := hkept.delete
  refine ⟨m, hcall, hnodes, fun d => ?_⟩
  rw [← Option.not_isSome_iff_eq_none, hitems]
  exact List.not_mem_nil

theorem KeyCall.perform_keeping (com : CommonObject) (junk : ℕ → PersistenceKeyHandle)
    (h : store.Keeping tree) (call : KeyCall) :
    ∃ store', call.perform com junk store = some store' ∧
      store'.Keeping (call.records com tree) := by
  cases call with
  | setKeyHandleData idx id ldbid userNo seatNo =>
    obtain ⟨g, m⟩ := store
    obtain ⟨hmade, t, s, hkept, hrecords⟩ := h
    obtain ⟨rb, m', s', hcall, hkept'⟩ :=
      KeyStore.setKeyHandleData_kept com idx id ldbid userNo seatNo hkept
    refine ⟨⟨some rb, m'⟩, congrArg (Option.map Prod.snd) hcall, rfl, _, s', hkept', fun k => ?_⟩
    have hset : Handle.getKeyHandleData (KeyCall.records com tree
        (.setKeyHandleData idx id ldbid userNo seatNo)) k = _ := getKeyHandleData_set
    rw [hset, Tree.find_insert, hrecords idx, hrecords k]
    by_cases hk : k = idx
    · subst hk
      rw [if_pos rfl, if_pos rfl]
      cases Handle.getKeyHandleData tree k <;> rfl
    · rw [if_neg hk, if_neg hk]
  | getKeyHandleData idx =>
    obtain ⟨store', hcall, hkeeping⟩ := h.getKeyHandleData junk idx
    exact ⟨store', congrArg (Option.map Prod.snd) hcall, hkeeping⟩
  | initKeyHandleArray =>
    obtain ⟨m', hcall, hnodes, hitems⟩ := h.delete
    refine ⟨⟨some jswRbnew, m'⟩, ?_, rfl, Tree.new, .nil, kept_of_empty hnodes hitems, fun _ => rfl⟩
    obtain ⟨g, m⟩ := store
    cases g with
    | none =>
      obtain rfl : m = m' := Option.some.inj hcall
      rfl
    | some rb => exact congrArg (fun r : Option (Memory KeyHandleTreeItem) => r.bind fun m =>
      some (KeyStore.mk (some jswRbnew) m)) hcall
  | clearKeyHandleArray idx =>
    obtain ⟨g, m⟩ := store
    obtain ⟨hmade, t, s, hkept, hrecords⟩ := h
    have hclear : ∀ k, Handle.getKeyHandleData (KeyCall.records com tree
      (.clearKeyHandleArray idx)) k = _ := fun k => getKeyHandleData_clear
    cases g with
    | none =>
      refine ⟨⟨none, m⟩, rfl, hmade.trans (Option.isSome_map).symm, t, s, hkept, fun k => ?_⟩
      have hnone : tree = none := by
        cases tree with
        | none => rfl
        | some tree => cases hmade
      rw [hrecords k, hnone]
      rfl
    | some rb₀ =>
      obtain ⟨rb, m', s', hcall, hkept'⟩ := KeyStore.clearKeyHandleArray_kept junk idx hkept rfl
      refine ⟨⟨some rb, m'⟩, hcall, hmade.trans (Option.isSome_map).symm, _, s', hkept',
        fun k => ?_⟩
      rw [hclear, Tree.find_erase, hrecords k]
      by_cases hk : k = idx
      · rw [if_pos hk, if_pos hk]
        rfl
      · rw [if_neg hk, if_neg hk]

end Keys

section Files

variable {com : CommonObject} {junk : ℕ → FileHandleData} {store : FileStore}
  {calls : List FileHandleCall} {c : FileHandleCall}

/-- The store has a record for each index that was set, and nothing beside its tree. -/
def FileStore.Released (store : FileStore) (calls : List FileHandleCall) : Prop :=
  ∃ t s, Kept FileHandleTreeItem.key store.memory (store.gFileHandleTree.getD jswRbnew) t s [] ∧
    ∀ k, t.find k = none ↔ sinceRemoval calls k = []

theorem fileStore_released_init : FileStore.init.Released [] :=
  ⟨Tree.new, .nil, kept_new, fun _ => iff_of_true rfl rfl⟩

theorem FileGetter.perform_released (junk : ℕ → FileHandleData) (h : store.Released calls)
    (idx : ℤ) (getter : FileGetter) :
    ∃ store', getter.perform junk store idx = some store' ∧ store'.Released calls := by
  have hgetter : ∀ {β : Type} (missing absent : β) (field : FileHandleData → β),
      ∃ store', (FileStore.getItem junk store idx missing absent field).map Prod.snd =
        some store' ∧ store'.Released calls := by
    intro β missing absent field
    obtain ⟨t, s, hkept, hrecords⟩ := h
    obtain ⟨m', hcall, hkept'⟩ := getItem_kept junk idx missing absent field hkept
    exact ⟨⟨store.gFileHandleTree, m'⟩, congrArg (Option.map Prod.snd) hcall, t, s, hkept',
      hrecords⟩
  cases getter <;> exact hgetter _ _ _

/-- A setter releases what it allocates, if the user id is set for a new record only. -/
theorem perform_released (com : CommonObject) (junk : ℕ → FileHandleData)
    (h : store.Released calls)
    (hfirst : ∀ idx userId, c = .setFileUserId idx userId → sinceRemoval calls idx = []) :
    ∃ store', c.perform com junk store = some store' ∧ store'.Released (calls ++ [c]) := by
  obtain ⟨g, m⟩ := store
  obtain ⟨t, s, hkept, hrecords⟩ := h
  cases hset : c.setter with
  | true =>
    obtain ⟨found, rb, m', t', s', hcall, hkept', hchanged, hfound⟩ :=
      setItem_kept junk c.idx (c.change com) (c.fresh com) hkept
    refine ⟨⟨some rb, m'⟩, ?_, t', s', hkept', fun k => ?_⟩
    · cases c with
      | setFileHandleData idx permission backup csumPath filePath =>
        exact congrArg (fun r => r.bind fun r => some r.2) hcall
      | setFileBackupStatus idx status => exact congrArg (fun r => r.bind fun r => some r.2) hcall
      | setFileCacheStatus idx status => exact congrArg (fun r => r.bind fun r => some r.2) hcall
      | setFileUserId idx userId =>
        obtain rfl := hfound ((hrecords idx).mpr (hfirst idx userId rfl))
        exact congrArg (fun r : Option (Option ℕ × FileStore) => r.bind fun r =>
          (rel r.2.memory r.1).bind fun m => some { r.2 with memory := m }) hcall
      | removeFileHandleData idx => cases hset
    · rw [hchanged.find]
      by_cases hk : k = c.idx
      · rw [if_pos hk, sinceRemoval_append_setter hk.symm hset]
        exact iff_of_false (Option.some_ne_none _) (List.cons_ne_nil _ _)
      · rw [if_neg hk, sinceRemoval_append_ne (Ne.symm hk)]
        exact hrecords k
  | false =>
    cases c with
    | removeFileHandleData idx =>
      obtain ⟨rval, g', m', t', s', hcall, hkept', -, hremove⟩ :=
        removeFileHandleData_kept junk idx hkept
      refine ⟨⟨g', m'⟩, congrArg (Option.map Prod.snd) hcall, t', s', hkept', fun k => ?_⟩
      rw [hremove]
      by_cases hk : k = idx
      · have heq : (FileHandleCall.removeFileHandleData idx).idx = k := hk.symm
        rw [if_pos hk, sinceRemoval_append_remove heq rfl]
        exact iff_of_true rfl rfl
      · have hne : (FileHandleCall.removeFileHandleData idx).idx ≠ k := Ne.symm hk
        rw [if_neg hk, sinceRemoval_append_ne hne]
        exact hrecords k
    | _ => cases hset

end Files

section Runs

open TreeCall

variable {com : CommonObject} {junk : ℕ → FileHandleData} {keyJunk : ℕ → PersistenceKeyHandle}
  {trees : HandleTrees} {calls : List TreeCall}

structure After (com : CommonObject) (trees : HandleTrees) (calls : List TreeCall) : Prop where
  files : trees.files.Released (calls.filterMap file?)
  paths : trees.paths.Keeping (pathRecords com (calls.filterMap path?))
  keys : trees.keys.Keeping (keyRecords com (calls.filterMap key?))

theorem after_nil (com : CommonObject) : After com .init [] :=
  ⟨fileStore_released_init, pathStore_keeping_init, keyStore_keeping_init⟩

theorem pathRecords_append (com : CommonObject) (calls : List PathCall) (call : PathCall) :
    pathRecords com (calls ++ [call]) = (call.records com (pathRecords com calls).1,
      (pathRecords com calls).2 + call.leaks (pathRecords com calls).1) :=
  List.foldl_concat ..

theorem keyRecords_append (com : CommonObject) (calls : List KeyCall) (call : KeyCall) :
    keyRecords com (calls ++ [call]) = call.records com (keyRecords com calls) :=
  List.foldl_concat ..

theorem After.perform (h : After com trees calls) (junk : ℕ → FileHandleData)
    (keyJunk : ℕ → PersistenceKeyHandle) (call : TreeCall)
    (hfirst : UserIdsFirst ((calls ++ [call]).filterMap file?)) :
    ∃ trees', call.perform com junk keyJunk trees = some trees' ∧
      After com trees' (calls ++ [call]) := by
  obtain ⟨hfiles, hpaths, hkeys⟩ := h
  cases call with
  | file call =>
    rw [List.filterMap_append] at hfirst
    obtain ⟨files, hcall, hfiles'⟩ :=
      perform_released com junk hfiles (userIdsFirst_append.mp hfirst).2
    refine ⟨{ trees with files }, by simp [TreeCall.perform, hcall], ?_, ?_, ?_⟩
    · simpa [List.filterMap_cons, file?] using hfiles'
    · simpa [List.filterMap_cons, path?] using hpaths
    · simpa [List.filterMap_cons, key?] using hkeys
  | getFile getter idx =>
    obtain ⟨files, hcall, hfiles'⟩ := getter.perform_released junk hfiles idx
    refine ⟨{ trees with files }, by simp [TreeCall.perform, hcall], ?_, ?_, ?_⟩
    · simpa [List.filterMap_cons, file?] using hfiles'
    · simpa [List.filterMap_cons, path?] using hpaths
    · simpa [List.filterMap_cons, key?] using hkeys
  | path call =>
    obtain ⟨paths, hcall, hpaths'⟩ := call.perform_keeping com junk hpaths
    refine ⟨{ trees with paths }, by simp [TreeCall.perform, hcall], ?_, ?_, ?_⟩
    · simpa [List.filterMap_cons, file?] using hfiles
    · simpa [List.filterMap_cons, path?, pathRecords_append] using hpaths'
    · simpa [List.filterMap_cons, key?] using hkeys
  | key call =>
    obtain ⟨keys, hcall, hkeys'⟩ := call.perform_keeping com keyJunk hkeys
    refine ⟨{ trees with keys }, by simp [TreeCall.perform, hcall], ?_, ?_, ?_⟩
    · simpa [List.filterMap_cons, file?] using hfiles
    · simpa [List.filterMap_cons, path?] using hpaths
    · simpa [List.filterMap_cons, key?, keyRecords_append] using hkeys'

theorem performAll_after (com : CommonObject) (junk : ℕ → FileHandleData)
    (keyJunk : ℕ → PersistenceKeyHandle) (hfirst : UserIdsFirst (calls.filterMap file?)) :
    ∃ trees, performAll com junk keyJunk calls = some trees ∧ After com trees calls := by
  induction calls using List.reverseRecOn with
  | nil => exact ⟨.init, rfl, after_nil com⟩
  | append_singleton calls call ih =>
    have hbefore : UserIdsFirst (calls.filterMap file?) := by
      intro before idx userId after heq
      refine hfirst before idx userId (after ++ [call].filterMap file?) ?_
      rw [List.filterMap_append, heq, List.append_assoc]
      rfl
    obtain ⟨trees, hcalls, hafter⟩ := ih hbefore
    obtain ⟨trees', hcall, hafter'⟩ := hafter.perform junk keyJunk call hfirst
    refine ⟨trees', ?_, hafter'⟩
    rw [performAll, List.foldlM_append]
    simp only [performAll] at hcalls
    simp [hcalls, hcall]

/-- Nothing is left of a memory but this many items. -/
def Left {α : Type} (m : Memory α) (items : ℕ) : Prop :=
  (∀ j, m.nodes j = none) ∧
    ∃ left : Finset ℕ, left.card = items ∧ ∀ d, (m.items d).isSome ↔ d ∈ left

theorem left_of_kept {α : Type} {key : α → ℤ} {m : Memory α} {g : Option JswRbtree} {t : Tree α}
    {s : LinkedTree.Shape} {held : List (ℕ × α)} (h : Kept key m (g.getD jswRbnew) t s held) :
    ∃ m', HandleTrees.deleteTree m g = some m' ∧ Left m' held.length := by
  obtain ⟨m', hcall, hnodes, hitems, -⟩ := h.delete
  refine ⟨m', by rw [deleteTree_eq, hcall], hnodes, (held.map Prod.fst).toFinset, ?_, fun d => ?_⟩
  · rw [List.toFinset_card_of_nodup h.nodup, List.length_map]
  · rw [hitems, List.mem_toFinset]

theorem PathStore.Keeping.answer {β : Type} {store : PathStore} {r : FileTree × ℕ}
    (h : store.Keeping r) (idx : ℤ) (missing absent : β) (field : FileHandleData → β) :
    (store.getItem junk idx missing absent field).map Prod.fst =
      some (if r.1.isSome then ((Tree.lookup r.1 idx).map field).getD absent else missing) := by
  obtain ⟨store', hcall, -⟩ := h.getItem junk idx missing absent field
  rw [hcall]
  rfl

theorem PathStore.Keeping.path {store : PathStore} {r : FileTree × ℕ} (h : store.Keeping r)
    (idx : ℤ) (field : FileHandleData → Option CStr) :
    (store.getItem junk idx none none field).map Prod.fst =
      some ((Tree.lookup r.1 idx).bind field) := by
  rw [h.answer]
  obtain ⟨tree, leaked⟩ := r
  cases tree with
  | none => rfl
  | some tree =>
    simp only [Option.isSome_some, if_true]
    cases Tree.lookup (some tree) idx <;> rfl

/-- In any run of calls that sets no user id of a record, path and key handles
answer as their records, and `deleteHandleTrees` releases everything but the
items that `set_ossfile_handle_data` leaked. -/
theorem handle_trees_released (com : CommonObject) (junk : ℕ → FileHandleData)
    (keyJunk : ℕ → PersistenceKeyHandle) (calls : List TreeCall)
    (hfirst : UserIdsFirst (calls.filterMap file?)) :
    ∃ trees, performAll com junk keyJunk calls = some trees ∧
      (∀ idx, (trees.paths.getOssfilePermission junk idx).map Prod.fst =
          some (getFilePermission (pathRecords com (calls.filterMap path?)).1 idx) ∧
        (trees.paths.getOssfileBackupPath junk idx).map Prod.fst =
          some (getFileBackupPath (pathRecords com (calls.filterMap path?)).1 idx) ∧
        (trees.paths.getOssfileFilePath junk idx).map Prod.fst =
          some (getFileFilePath (pathRecords com (calls.filterMap path?)).1 idx) ∧
        (trees.paths.getOssfileChecksumPath junk idx).map Prod.fst =
          some (getFileChecksumPath (pathRecords com (calls.filterMap path?)).1 idx) ∧
        (trees.keys.getKeyHandleData keyJunk idx).map Prod.fst =
          some (getKeyHandleData (keyRecords com (calls.filterMap key?)) idx)) ∧
      ∃ trees', trees.deleteHandleTrees = some trees' ∧ Left trees'.files.memory 0 ∧
        Left trees'.keys.memory 0 ∧
        Left trees'.paths.memory (pathRecords com (calls.filterMap path?)).2 := by
  obtain ⟨trees, hrun, hafter⟩ := performAll_after com junk keyJunk hfirst
  refine ⟨trees, hrun, fun idx => ⟨?_, ?_, ?_, ?_, ?_⟩, ?_⟩
  · refine (hafter.paths.answer idx _ _ _).trans (congrArg some ?_)
    cases htree : (pathRecords com (calls.filterMap path?)).1 with
    | none => rfl
    | some tree => cases h : Tree.lookup (some tree) idx <;> simp [getFilePermission, h]
  · exact (hafter.paths.path idx _).trans (congrArg some Option.map_eq_bind.symm)
  · exact hafter.paths.path idx _
  · exact (hafter.paths.path idx _).trans (congrArg some Option.map_eq_bind.symm)
  · obtain ⟨store', hcall, -⟩ := hafter.keys.getKeyHandleData keyJunk idx
    rw [hcall]
    rfl
  · obtain ⟨t, s, hfiles, -⟩ := hafter.files
    obtain ⟨-, t', s', held, hpaths, hheld, -⟩ := hafter.paths
    obtain ⟨-, t'', s'', hkeys, -⟩ := hafter.keys
    obtain ⟨files, hdeleteFiles, hleftFiles⟩ := left_of_kept hfiles
    obtain ⟨paths, hdeletePaths, hleftPaths⟩ := left_of_kept hpaths
    obtain ⟨keys, hdeleteKeys, hleftKeys⟩ := left_of_kept hkeys
    refine ⟨⟨⟨none, files⟩, ⟨none, paths⟩, ⟨none, keys⟩⟩, ?_, hleftFiles, hleftKeys,
      hheld ▸ hleftPaths⟩
    simp [HandleTrees.deleteHandleTrees, hdeleteFiles, hdeletePaths, hdeleteKeys]

/-- A path entered twice for one index costs an item. -/
theorem entered_twice_leaks :
    ∃ trees, performAll .standard (fun _ => clearedItem) (fun _ => ⟨0, 0, 0, []⟩)
        [.file (.setFileUserId 4 7), .path (.setOssfileHandleData 1 .readWrite 0 [] [] none),
          .key (.setKeyHandleData 2 (cstr "k") 0xFF 1 1), .getFile .userId 4,
          .path (.setOssfileHandleData 1 .readOnly 0 [] [] none)] = some trees ∧
      ∃ trees', trees.deleteHandleTrees = some trees' ∧ Left trees'.files.memory 0 ∧
        Left trees'.keys.memory 0 ∧ Left trees'.paths.memory 1 := by
  have hfirst : UserIdsFirst ([] ++ [.setFileUserId 4 7]) := by
    refine userIdsFirst_append.mpr ⟨fun before _ _ _ h => ?_, fun _ _ _ => rfl⟩
    cases before <;> cases h
  obtain ⟨trees, hrun, -, hdelete⟩ := handle_trees_released .standard (fun _ => clearedItem)
    (fun _ => ⟨0, 0, 0, []⟩)
    [.file (.setFileUserId 4 7), .path (.setOssfileHandleData 1 .readWrite 0 [] [] none),
      .key (.setKeyHandleData 2 (cstr "k") 0xFF 1 1), .getFile .userId 4,
      .path (.setOssfileHandleData 1 .readOnly 0 [] [] none)] hfirst
  exact ⟨trees, hrun, hdelete⟩

end Runs

end PersClient.Handle
