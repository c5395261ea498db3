import PersClient.Handle.Store
import PersClient.Rbtree.Delete

/-! # The path and key handle stores in memory

The records of path handles are those of file handles on a tree of their own,
with one difference: `set_ossfile_handle_data` does not release the item it
searched with where it finds a record. The records of key handles are inserted
and never changed.
-/

namespace PersClient.Handle

open Rbtree

namespace FileStore

section Kept

variable {junk : ℕ → FileHandleData} {idx : ℤ} {change fresh : FileHandleData → FileHandleData}
  {m : Memory FileHandleTreeItem} {g : Option JswRbtree} {t : Tree FileHandleTreeItem}
  {s : LinkedTree.Shape} {held : List (ℕ × FileHandleTreeItem)} {found : FileHandleData}
  {a : FileHandleTreeItem} {d : ℕ}

theorem kept_writeItem (h : Kept FileHandleTreeItem.key m (g.getD jswRbnew) t s ((d, a) :: held))
    (value : FileHandleData) :
    ∃ m', writeItem m d value = some m' ∧
      Kept FileHandleTreeItem.key m' (g.getD jswRbnew) t s ((d, { a with value }) :: held) :=
  ⟨_, by simp [writeItem, h.there], h.write _⟩

theorem kept_mallocItem (h : Kept FileHandleTreeItem.key m (g.getD jswRbnew) t s held) :
    Kept FileHandleTreeItem.key (mallocItem junk m idx).2 (g.getD jswRbnew) t s
      ((m.nextItem, ⟨idx, junk m.nextItem⟩) :: held) := h.newItem _

theorem kept_find (h : Kept FileHandleTreeItem.key m (g.getD jswRbnew) t s ((d, a) :: held)) :
    (t.find a.key = none ∧ jswRbfind fhKeyValCmp m (g.getD jswRbnew) d = some none) ∨
      ∃ e found, t.find a.key = some ⟨a.key, found⟩ ∧
        jswRbfind fhKeyValCmp m (g.getD jswRbnew) d = some (some e) ∧
        m.items e = some ⟨a.key, found⟩ := by
  obtain ⟨answer, hcall, hnone, hsome⟩ := h.find h.there
  cases answer with
  | none => exact Or.inl ⟨hnone rfl, hcall⟩
  | some e =>
    obtain ⟨⟨k, found⟩, he, hkey, hfind⟩ := hsome e rfl
    obtain rfl : k = a.key := hkey
    exact Or.inr ⟨e, found, hfind, hcall, he⟩

structure Changed (t t' : Tree FileHandleTreeItem) (idx : ℤ)
    (change : FileHandleData → FileHandleData) (fresh : FileHandleData) : Prop where
  find : ∀ k, t'.find k = if k = idx then
    some ⟨idx, ((t.find idx).map fun a => change a.value).getD fresh⟩ else t.find k

theorem set_absent (h : t.find idx = none) {fresh : FileHandleData} :
    Changed t (t.insert idx ⟨idx, fresh⟩) idx change fresh := by
  refine ⟨fun k => ?_⟩
  rw [Tree.find_insert, h]
  rfl

variable (change) in
theorem set_present (h : t.find idx = some ⟨idx, found⟩) {fresh : FileHandleData} :
    Changed t ((t.erase idx).insert idx ⟨idx, change found⟩) idx change fresh := by
  refine ⟨fun k => ?_⟩
  rw [Tree.find_insert, Tree.find_erase, Tree.find_erase, if_pos rfl, h]
  by_cases hk : k = idx
  · rw [if_pos hk, if_pos hk]
    rfl
  · rw [if_neg hk, if_neg hk, if_neg hk]

theorem kept_replace {copy : ℕ} {rb : JswRbtree}
    (h : Kept FileHandleTreeItem.key m rb t s ((copy, a) :: held))
    (hd : m.items d = some ⟨a.key, found⟩) :
    ∃ rb₁ m₁ rb₂ m₂ m₃ s', jswRberase fhKeyValCmp m rb d = some (rb₁, m₁) ∧
      jswRbinsert fhKeyValCmp m₁ rb₁ copy = some (rb₂, m₂) ∧ freeItem m₂ copy = some m₃ ∧
      Kept FileHandleTreeItem.key m₃ rb₂ ((t.erase a.key).insert a.key a) s' held := by
  obtain ⟨rb₁, m₁, s₁, herase, hk₁⟩ := h.erase hd
  obtain ⟨rb₂, m₂, s₂, hinsert, hk₂⟩ := hk₁.insert hk₁.there
  obtain ⟨m₃, hfree, hk₃⟩ := hk₂.free
  exact ⟨rb₁, m₁, rb₂, m₂, m₃, s₂, herase, hinsert, hfree, hk₃⟩

variable (junk idx change found d) in
theorem kept_copy {item : ℕ}
    (h : Kept FileHandleTreeItem.key m (g.getD jswRbnew) t s ((item, a) :: held)) :
    ∃ m₁, writeItem (mallocItem junk m idx).2 m.nextItem (change found) = some m₁ ∧
      Kept FileHandleTreeItem.key m₁ (g.getD jswRbnew) t s
        ((m.nextItem, ⟨idx, change found⟩) :: (item, a) :: held) ∧
      ∀ b, d < m.nextItem → m.items d = some b → m₁.items d = some b := by
  obtain ⟨m₁, hwrite, hk⟩ := kept_writeItem (kept_mallocItem h) (change found)
  refine ⟨m₁, hwrite, hk, fun b hlt hb => ?_⟩
  simp only [writeItem, mallocItem, newItem, Function.update_self, Option.bind_eq_bind,
    Option.bind_some, Option.some.injEq] at hwrite
  subst hwrite
  refine (Function.update_of_ne hlt.ne _ _).trans ?_
  exact (Function.update_of_ne hlt.ne _ _).trans hb

variable (junk idx change) in
theorem setItem_kept (fresh : FileHandleData → FileHandleData)
    (h : Kept FileHandleTreeItem.key m (g.getD jswRbnew) t s held) :
    ∃ found rb m' t' s', setItem junk ⟨g, m⟩ idx change fresh = some (found, ⟨some rb, m'⟩) ∧
      Kept FileHandleTreeItem.key m' rb t' s' held ∧
      Changed t t' idx change (fresh (junk m.nextItem)) ∧ (t.find idx = none → found = none) := by
  have hmalloc : mallocItem junk m idx = (m.nextItem, (mallocItem junk m idx).2) := rfl
  have hk₁ : Kept FileHandleTreeItem.key (mallocItem junk m idx).2 (g.getD jswRbnew) t s
    ((m.nextItem, ⟨idx, junk m.nextItem⟩) :: held) := kept_mallocItem h
  rcases kept_find hk₁ with ⟨habsent, hcall⟩ | ⟨e, found, hpresent, hcall, he⟩
  · obtain ⟨m₂, hwrite, hk₂⟩ := kept_writeItem hk₁ (fresh (junk m.nextItem))
    obtain ⟨rb, m₃, s₃, hinsert, hk₃⟩ := hk₂.insert hk₂.there
    obtain ⟨m₄, hfree, hk₄⟩ := hk₃.free
    refine ⟨none, rb, m₄, _, s₃, ?_, hk₄, set_absent habsent, fun _ => rfl⟩
    unfold setItem
    rw [hmalloc]
    simp only [fhKeyValCmp] at hcall ⊢
    simp only [hcall, hwrite, hinsert, hfree, Option.bind_eq_bind, Option.bind_some]
  · set m₁ := (mallocItem junk m idx).2 with hm₁
    have hlt : e < m₁.nextItem := by
      by_contra hge
      cases he.symm.trans (hk₁.keeps.itemsFresh e (not_lt.mp hge))
    obtain ⟨m₂, hwrite, hk₂, hkeep⟩ := kept_copy junk idx change found e hk₁
    obtain ⟨rb₁, m₃, rb₂, m₄, m₅, s₅, herase, hinsert, hfree, hk₅⟩ :=
      kept_replace hk₂ (hkeep _ hlt he)
    obtain ⟨m₆, hfree₆, hk₆⟩ := hk₅.free
    refine ⟨some e, rb₂, m₆, _, s₅, ?_, hk₆, set_present change hpresent, fun hnone => ?_⟩
    · have hmalloc₁ : mallocItem junk m₁ idx = (m₁.nextItem, (mallocItem junk m₁ idx).2) := rfl
      unfold setItem
      rw [hmalloc]
      simp only [hcall, he, Option.bind_eq_bind, Option.bind_some]
      rw [hmalloc₁]
      simp only [hwrite, herase, hinsert, hfree, hfree₆, Option.bind_some]
    · cases hpresent.symm.trans hnone

variable (junk idx) in
/-- A getter gives the field of the record, and releases the item it searched with. -/
theorem getItem_kept {β : Type} (missing absent : β) (field : FileHandleData → β)
    (h : Kept FileHandleTreeItem.key m (g.getD jswRbnew) t s held) :
    ∃ m', getItem junk ⟨g, m⟩ idx missing absent field =
        some (if g.isSome then ((t.find idx).map fun a => field a.value).getD absent else missing,
          ⟨g, m'⟩) ∧
      Kept FileHandleTreeItem.key m' (g.getD jswRbnew) t s held := by
  cases g with
  | none => exact ⟨m, rfl, h⟩
  | some rb =>
    have hmalloc : mallocItem junk m idx = (m.nextItem, (mallocItem junk m idx).2) := rfl
    have hk₁ : Kept FileHandleTreeItem.key (mallocItem junk m idx).2 ((some rb).getD jswRbnew) t s
      ((m.nextItem, ⟨idx, junk m.nextItem⟩) :: held) := kept_mallocItem h
    obtain ⟨m₂, hfree, hk₂⟩ := hk₁.free
    refine ⟨m₂, ?_, hk₂⟩
    simp only [getItem]
    rw [hmalloc]
    rcases kept_find hk₁ with ⟨habsent, hcall⟩ | ⟨e, found, hpresent, hcall, he⟩
    · have hcall' : jswRbfind fhKeyValCmp (mallocItem junk m idx).2 rb m.nextItem = some none :=
        hcall
      simp only at habsent
      simp [hcall', hfree, habsent]
    · have hcall' : jswRbfind fhKeyValCmp (mallocItem junk m idx).2 rb m.nextItem = some (some e) :=
        hcall
      simp only at hpresent
      simp [hcall', he, hfree, hpresent]

theorem find_of_new (h : Kept FileHandleTreeItem.key m jswRbnew t s held) (k : ℤ) :
    t.find k = none := by
  have hnil : s = .nil := by
    cases s with
    | nil => rfl
    | node i red d sub => cases h.keeps.root
  subst hnil
  rw [Option.eq_none_iff_forall_not_mem]
  intro a ha
  obtain ⟨d, hd, -⟩ := (h.keeps.find k a).mp ha
  cases hd

variable (junk idx) in
theorem removeFileHandleData_kept (h : Kept FileHandleTreeItem.key m (g.getD jswRbnew) t s held) :
    ∃ rval g' m' t' s', removeFileHandleData junk ⟨g, m⟩ idx = some (rval, ⟨g', m'⟩) ∧
      Kept FileHandleTreeItem.key m' (g'.getD jswRbnew) t' s' held ∧ g'.isSome = g.isSome ∧
      ∀ k, t'.find k = if k = idx then none else t.find k := by
  cases g with
  | none =>
    refine ⟨-1, none, m, t, s, rfl, h, rfl, fun k => ?_⟩
    rw [find_of_new h k, ite_self]
  | some rb =>
    have hmalloc : mallocItem junk m idx = (m.nextItem, (mallocItem junk m idx).2) := rfl
    have hk₁ : Kept FileHandleTreeItem.key (mallocItem junk m idx).2 rb t s
      ((m.nextItem, ⟨idx, junk m.nextItem⟩) :: held) := h.newItem _
    obtain ⟨rb₂, m₂, s₂, herase, hk₂⟩ := hk₁.erase hk₁.there
    obtain ⟨m₃, hfree, hk₃⟩ := hk₂.free
    refine ⟨1, some rb₂, m₃, _, s₂, ?_, hk₃, rfl, Tree.find_erase t idx⟩
    have herase' : jswRberase fhKeyValCmp (mallocItem junk m idx).2 rb m.nextItem =
      some (rb₂, m₂) := herase
    simp only [removeFileHandleData]
    rw [hmalloc]
    simp only [herase', hfree, Option.bind_eq_bind, Option.bind_some]

end Kept

end FileStore

section Paths

/-- `gOssFileHandleTree`, and the memory of its nodes and items. -/
structure PathStore where
  gOssFileHandleTree : Option JswRbtree
  memory : Memory FileHandleTreeItem

namespace PathStore

def init : PathStore := ⟨none, Memory.empty⟩

def asFiles (store : PathStore) : FileStore := ⟨store.gOssFileHandleTree, store.memory⟩

def ofFiles (store : FileStore) : PathStore := ⟨store.gFileHandleTree, store.memory⟩

variable (com : CommonObject) (junk : ℕ → FileHandleData) (store : PathStore) (idx : ℤ)

/-- `set_ossfile_handle_data`; where an item is found, `item` is not released. -/
def setOssfileHandleData (permission : PersistencePermission) (backupCreated : ℤ)
    (backup csumPath : CStr) (filePath : Option CStr) : Option PathStore := do
  let tree := store.gOssFileHandleTree.getD jswRbnew
  let (item, m) := FileStore.mallocItem junk store.memory idx
  match ← jswRbfind FileStore.fhKeyValCmp m tree item with
  | none =>
    let m ← FileStore.writeItem m item
      { permission := some permission, backupCreated, cacheStatus := -1, userId := 0, filePath
        backupPath := FileStore.pathField com backup, csumPath := FileStore.pathField com csumPath }
    let (tree, m) ← jswRbinsert FileStore.fhKeyValCmp m tree item
    let m ← freeItem m item
    some ⟨some tree, m⟩
  | some foundItem =>
    let found ← m.items foundItem
    let (newItem, m) := FileStore.mallocItem junk m idx
    let m ← FileStore.writeItem m newItem { found.value with
      permission := some permission, filePath
      backupPath := FileStore.pathField com backup, csumPath := FileStore.pathField com csumPath }
    let (tree, m) ← jswRberase FileStore.fhKeyValCmp m tree foundItem
    let (tree, m) ← jswRbinsert FileStore.fhKeyValCmp m tree newItem
    let m ← freeItem m newItem
    some ⟨some tree, m⟩

def setOssfileFilePath (file : Option CStr) : Option PathStore := do
  let (_, store) ← FileStore.setItem junk store.asFiles idx
    (fun found => { found with filePath := file })
    (fun _ => { filePath := file, backupCreated := 0, permission := none, cacheStatus := -1
                userId := 0, csumPath := [], backupPath := [] })
  some (ofFiles store)

def getItem {β : Type} (missing absent : β) (field : FileHandleData → β) :
    Option (β × PathStore) := do
  let (answer, store) ← FileStore.getItem junk store.asFiles idx missing absent field
  some (answer, ofFiles store)

/-- `get_ossfile_permission`; -1 is `none`. -/
def getOssfilePermission : Option (Option PersistencePermission × PathStore) :=
  getItem junk store idx (some .lastEntry) none FileHandleData.permission

def getOssfileBackupPath : Option (Option CStr × PathStore) :=
  getItem junk store idx none none fun data => some data.backupPath

def getOssfileFilePath : Option (Option CStr × PathStore) :=
  getItem junk store idx none none FileHandleData.filePath

def getOssfileChecksumPath : Option (Option CStr × PathStore) :=
  getItem junk store idx none none fun data => some data.csumPath

def removeOssfileHandleData : Option (ℤ × PathStore) := do
  let (rval, store) ← FileStore.removeFileHandleData junk store.asFiles idx
  some (rval, ofFiles store)

section Kept

variable (com : CommonObject) (junk : ℕ → FileHandleData) (idx : ℤ) {m : Memory FileHandleTreeItem}
  {g : Option JswRbtree} {t : Tree FileHandleTreeItem} {s : LinkedTree.Shape}
  {held : List (ℕ × FileHandleTreeItem)}

theorem setOssfileHandleData_kept (permission : PersistencePermission) (backupCreated : ℤ)
    (backup csumPath : CStr) (filePath : Option CStr)
    (h : Kept FileHandleTreeItem.key m (g.getD jswRbnew) t s held) :
    ∃ rb m' t' s' held',
      setOssfileHandleData com junk ⟨g, m⟩ idx permission backupCreated backup csumPath filePath =
        some ⟨some rb, m'⟩ ∧
      Kept FileHandleTreeItem.key m' rb t' s' held' ∧
      held'.length = held.length + (if (t.find idx).isSome then 1 else 0) ∧
      FileStore.Changed t t' idx
        (fun found => { found with
          permission := some permission, filePath
          backupPath := FileStore.pathField com backup
          csumPath := FileStore.pathField com csumPath })
        { permission := some permission, backupCreated, cacheStatus := -1, userId := 0, filePath
          backupPath := FileStore.pathField com backup
          csumPath := FileStore.pathField com csumPath } := by
  have hmalloc : FileStore.mallocItem junk m idx =
    (m.nextItem, (FileStore.mallocItem junk m idx).2) := rfl
  have hk₁ : Kept FileHandleTreeItem.key (FileStore.mallocItem junk m idx).2 (g.getD jswRbnew) t s
    ((m.nextItem, ⟨idx, junk m.nextItem⟩) :: held) := FileStore.kept_mallocItem h
  rcases FileStore.kept_find hk₁ with ⟨habsent, hcall⟩ | ⟨e, found, hpresent, hcall, he⟩
  · simp only at habsent
    obtain ⟨m₂, hwrite, hk₂⟩ := FileStore.kept_writeItem hk₁
      { permission := some permission, backupCreated, cacheStatus := -1, userId := 0, filePath
        backupPath := FileStore.pathField com backup, csumPath := FileStore.pathField com csumPath }
    obtain ⟨rb, m₃, s₃, hinsert, hk₃⟩ := hk₂.insert hk₂.there
    obtain ⟨m₄, hfree, hk₄⟩ := hk₃.free
    refine ⟨rb, m₄, _, s₃, held, ?_, hk₄, by rw [habsent]; rfl, FileStore.set_absent habsent⟩
    unfold setOssfileHandleData
    rw [hmalloc]
    simp only [FileStore.fhKeyValCmp] at hcall ⊢
    simp only [hcall, hwrite, hinsert, hfree, Option.bind_eq_bind, Option.bind_some]
  · simp only at hpresent
    set m₁ := (FileStore.mallocItem junk m idx).2 with hm₁
    have hlt : e < m₁.nextItem := by
      by_contra hge
      cases he.symm.trans (hk₁.keeps.itemsFresh e (not_lt.mp hge))
    set change := fun found : FileHandleData => { found with
      permission := some permission, filePath
      backupPath := FileStore.pathField com backup
      csumPath := FileStore.pathField com csumPath } with hchange
    obtain ⟨m₂, hwrite, hk₂, hkeep⟩ := FileStore.kept_copy junk idx change found e hk₁
    obtain ⟨rb₁, m₃, rb₂, m₄, m₅, s₅, herase, hinsert, hfree, hk₅⟩ :=
      FileStore.kept_replace hk₂ (hkeep _ hlt he)
    refine ⟨rb₂, m₅, _, s₅, _, ?_, hk₅, by rw [hpresent]; rfl,
      FileStore.set_present change hpresent⟩
    have hmalloc₁ : FileStore.mallocItem junk m₁ idx =
      (m₁.nextItem, (FileStore.mallocItem junk m₁ idx).2) := rfl
    unfold setOssfileHandleData
    rw [hmalloc]
    simp only [hcall, he, Option.bind_eq_bind, Option.bind_some]
    rw [hmalloc₁]
    simp only [hchange] at hwrite
    simp only [hwrite, herase, hinsert, hfree, Option.bind_some]

end Kept

end PathStore

end Paths

section Keys

structure KeyHandleTreeItem where
  key : ℤ
  value : PersistenceKeyHandle
  deriving DecidableEq, Repr

/-- `gKeyHandleTree`, and the memory of its nodes and items. -/
structure KeyStore where
  gKeyHandleTree : Option JswRbtree
  memory : Memory KeyHandleTreeItem

namespace KeyStore

def init : KeyStore := ⟨none, Memory.empty⟩

variable (com : CommonObject) (junk : ℕ → PersistenceKeyHandle) (store : KeyStore) (idx : ℤ)

def khKeyValCmp : KeyHandleTreeItem → KeyHandleTreeItem → ℤ := keyValCmp KeyHandleTreeItem.key

/-- `set_key_handle_data`: its result and the store. -/
def setKeyHandleData (id : CStr) (ldbid userNo seatNo : UInt32) : Option (ℤ × KeyStore) := do
  let tree := store.gKeyHandleTree.getD jswRbnew
  let (item, m) := newItem store.memory
    ⟨idx, ldbid, userNo, seatNo, snprintf com.maxLengthKeyName id⟩
  let (tree, m) ← jswRbinsert khKeyValCmp m tree item
  let m ← freeItem m item
  some (idx, ⟨some tree, m⟩)

/-- `get_key_handle_data`; the handle structure is left alone where it gives -1. -/
def getKeyHandleData : Option (Option PersistenceKeyHandle × KeyStore) :=
  match store.gKeyHandleTree with
  | none => some (none, store)
  | some tree => do
    let (item, m) := newItem store.memory ⟨idx, junk store.memory.nextItem⟩
    match ← jswRbfind khKeyValCmp m tree item with
    | none =>
      let m ← freeItem m item
      some (none, { store with memory := m })
    | some foundItem =>
      let found ← m.items foundItem
      let m ← freeItem m item
      some (some found.value, { store with memory := m })

def initKeyHandleArray : Option KeyStore :=
  match store.gKeyHandleTree with
  | none => some { store with gKeyHandleTree := some jswRbnew }
  | some tree => do
    let m ← jswRbdelete store.memory tree
    some ⟨some jswRbnew, m⟩

def clearKeyHandleArray : Option KeyStore :=
  match store.gKeyHandleTree with
  | none => some store
  | some tree => do
    let (item, m) := newItem store.memory ⟨idx, junk store.memory.nextItem⟩
    let (tree, m) ← jswRberase khKeyValCmp m tree item
    let m ← freeItem m item
    some ⟨some tree, m⟩

section Kept

variable (com : CommonObject) (junk : ℕ → PersistenceKeyHandle) (idx : ℤ)
  {m : Memory KeyHandleTreeItem} {g : Option JswRbtree} {t : Tree KeyHandleTreeItem}
  {s : LinkedTree.Shape} {held : List (ℕ × KeyHandleTreeItem)}

theorem setKeyHandleData_kept (id : CStr) (ldbid userNo seatNo : UInt32)
    (h : Kept KeyHandleTreeItem.key m (g.getD jswRbnew) t s held) :
    ∃ rb m' s', setKeyHandleData com ⟨g, m⟩ idx id ldbid userNo seatNo =
        some (idx, ⟨some rb, m'⟩) ∧
      Kept KeyHandleTreeItem.key m' rb
        (t.insert idx ⟨idx, ldbid, userNo, seatNo, snprintf com.maxLengthKeyName id⟩) s' held := by
  have hk₁ := h.newItem ⟨idx, ldbid, userNo, seatNo, snprintf com.maxLengthKeyName id⟩
  obtain ⟨rb, m₂, s₂, hinsert, hk₂⟩ := hk₁.insert hk₁.there
  obtain ⟨m₃, hfree, hk₃⟩ := hk₂.free
  refine ⟨rb, m₃, s₂, ?_, hk₃⟩
  have hnew : ∀ a : KeyHandleTreeItem, newItem m a = (m.nextItem, (newItem m a).2) := fun _ => rfl
  simp only [setKeyHandleData]
  rw [hnew]
  simp only [khKeyValCmp, hinsert, hfree, Option.bind_eq_bind, Option.bind_some]

theorem getKeyHandleData_kept (h : Kept KeyHandleTreeItem.key m (g.getD jswRbnew) t s held) :
    ∃ m', getKeyHandleData junk ⟨g, m⟩ idx =
        some (if g.isSome then (t.find idx).map KeyHandleTreeItem.value else none, ⟨g, m'⟩) ∧
      Kept KeyHandleTreeItem.key m' (g.getD jswRbnew) t s held := by
  cases g with
  | none => exact ⟨m, rfl, h⟩
  | some rb =>
    have hk₁ := h.newItem ⟨idx, junk m.nextItem⟩
    obtain ⟨m₂, hfree, hk₂⟩ := hk₁.free
    obtain ⟨answer, hfind, hnone, hsome⟩ := hk₁.find hk₁.there
    refine ⟨m₂, ?_, hk₂⟩
    have hnew : newItem m ⟨idx, junk m.nextItem⟩ =
      (m.nextItem, (newItem m ⟨idx, junk m.nextItem⟩).2) := rfl
    have hcall : jswRbfind khKeyValCmp (newItem m ⟨idx, junk m.nextItem⟩).2 rb m.nextItem =
      some answer := hfind
    simp only [getKeyHandleData]
    rw [hnew]
    cases answer with
    | none =>
      have habsent : t.find idx = none := hnone rfl
      simp [hcall, hfree, habsent]
    | some e =>
      obtain ⟨a, ha, -, hpresent⟩ := hsome e rfl
      simp only at hpresent
      simp [hcall, ha, hfree, hpresent]

theorem clearKeyHandleArray_kept (h : Kept KeyHandleTreeItem.key m (g.getD jswRbnew) t s held)
    (hmade : g.isSome) :
    ∃ rb m' s', clearKeyHandleArray junk ⟨g, m⟩ idx = some ⟨some rb, m'⟩ ∧
      Kept KeyHandleTreeItem.key m' rb (t.erase idx) s' held := by
  obtain ⟨rb₀, rfl⟩ := Option.isSome_iff_exists.mp hmade
  have hk₁ := h.newItem ⟨idx, junk m.nextItem⟩
  obtain ⟨rb, m₂, s₂, herase, hk₂⟩ := hk₁.erase hk₁.there
  obtain ⟨m₃, hfree, hk₃⟩ := hk₂.free
  refine ⟨rb, m₃, s₂, ?_, hk₃⟩
  have hnew : newItem m ⟨idx, junk m.nextItem⟩ =
    (m.nextItem, (newItem m ⟨idx, junk m.nextItem⟩).2) := rfl
  have hcall : jswRberase khKeyValCmp (newItem m ⟨idx, junk m.nextItem⟩).2 rb₀ m.nextItem =
    some (rb, m₂) := herase
  simp only [clearKeyHandleArray]
  rw [hnew]
  simp only [hcall, hfree, Option.bind_eq_bind, Option.bind_some]

end Kept

end KeyStore

end Keys

end PersClient.Handle
