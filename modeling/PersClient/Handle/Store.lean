import PersClient.Handle.Records
import PersClient.Rbtree.Ownership

/-! # The file handle store in memory

The setters and getters of the file handle records on the red-black tree, with
the items they allocate and release. An update copies the item found, erases it
and inserts the copy. All but `set_file_user_id` then release their own two
items; that one also releases the item found, which erasing has released.
-/

namespace PersClient.Handle

open Rbtree

structure FileHandleTreeItem where
  key : ℤ
  value : FileHandleData
  deriving DecidableEq, Repr

/-- `gFileHandleTree`, and the memory of its nodes and items. -/
structure FileStore where
  gFileHandleTree : Option JswRbtree
  memory : Memory FileHandleTreeItem

namespace FileStore

def init : FileStore := ⟨none, Memory.empty⟩

section Model

variable (com : CommonObject) (junk : ℕ → FileHandleData)

def fhKeyValCmp : FileHandleTreeItem → FileHandleTreeItem → ℤ := keyValCmp FileHandleTreeItem.key

/-- `malloc` of an item and `item->key = idx`; the rest holds what was there. -/
def mallocItem (m : Memory FileHandleTreeItem) (idx : ℤ) : ℕ × Memory FileHandleTreeItem :=
  newItem m ⟨idx, junk m.nextItem⟩

def writeItem (m : Memory FileHandleTreeItem) (item : ℕ) (value : FileHandleData) :
    Option (Memory FileHandleTreeItem) := do
  let old ← m.items item
  some { m with items := Function.update m.items item (some { old with value }) }

variable (store : FileStore) (idx : ℤ)

def setItem (change fresh : FileHandleData → FileHandleData) : Option (Option ℕ × FileStore) := do
  let tree := store.gFileHandleTree.getD jswRbnew
  let (item, m) := mallocItem junk store.memory idx
  match ← jswRbfind fhKeyValCmp m tree item with
  | none =>
    let m ← writeItem m item (fresh (junk item))
    let (tree, m) ← jswRbinsert fhKeyValCmp m tree item
    let m ← freeItem m item
    some (none, ⟨some tree, m⟩)
  | some foundItem =>
    let found ← m.items foundItem
    let (copy, m) := mallocItem junk m idx
    let m ← writeItem m copy (change found.value)
    let (tree, m) ← jswRberase fhKeyValCmp m tree foundItem
    let (tree, m) ← jswRbinsert fhKeyValCmp m tree copy
    let m ← freeItem m copy
    let m ← freeItem m item
    some (some foundItem, ⟨some tree, m⟩)

/-- `strncpy` to a path field, with a null at its end. -/
def pathField (path : CStr) : CStr := snprintf com.maxLengthPathFilename path

def setFileHandleData (permission : PersistencePermission) (backup csumPath : CStr)
    (filePath : Option CStr) : Option FileStore := do
  let (_, store) ← setItem junk store idx
    (fun found => { found with
      permission := some permission, filePath
      backupPath := pathField com backup, csumPath := pathField com csumPath })
    (fun _ => { permission := some permission, backupCreated := 0, cacheStatus := -1, userId := 0
                filePath, backupPath := pathField com backup, csumPath := pathField com csumPath })
  some store

def setFileBackupStatus (status : ℤ) : Option FileStore := do
  let (_, store) ← setItem junk store idx
    (fun found => { found with backupCreated := status })
    (fun item => { item with
      backupCreated := status, permission := some .lastEntry, cacheStatus := -1, userId := 0
      filePath := none })
  some store

def setFileCacheStatus (status : ℤ) : Option FileStore := do
  let (_, store) ← setItem junk store idx
    (fun found => { found with cacheStatus := status })
    (fun _ => { cacheStatus := status, backupCreated := 0, permission := some .lastEntry
                userId := 0, filePath := none, csumPath := [], backupPath := [] })
  some store

def setFileUserId (userId : ℤ) : Option FileStore := do
  let (foundItem, store) ← setItem junk store idx
    (fun found => { found with userId })
    (fun _ => { userId, backupCreated := 0, permission := none, cacheStatus := -1
                filePath := none, csumPath := [], backupPath := [] })
  -- the item found is released once more
  let m ← rel store.memory foundItem
  some { store with memory := m }

/-- `remove_file_handle_data`: its result and the store. -/
def removeFileHandleData : Option (ℤ × FileStore) :=
  match store.gFileHandleTree with
  | none => some (-1, store)
  | some tree => do
    let (item, m) := mallocItem junk store.memory idx
    let (tree, m) ← jswRberase fhKeyValCmp m tree item
    let m ← freeItem m item
    some (1, ⟨some tree, m⟩)

/-- What every getter does: `missing` without a tree, `absent` without an item. -/
def getItem {β : Type} (missing absent : β) (field : FileHandleData → β) : Option (β × FileStore) :=
  match store.gFileHandleTree with
  | none => some (missing, store)
  | some tree => do
    let (item, m) := mallocItem junk store.memory idx
    match ← jswRbfind fhKeyValCmp m tree item with
    | none =>
      let m ← freeItem m item
      some (absent, { store with memory := m })
    | some foundItem =>
      let found ← m.items foundItem
      let m ← freeItem m item
      some (field found.value, { store with memory := m })

/-- `get_file_permission`; -1 is `none`. -/
def getFilePermission : Option (Option PersistencePermission × FileStore) :=
  getItem junk store idx (some .lastEntry) none FileHandleData.permission

def getFileBackupPath : Option (Option CStr × FileStore) :=
  getItem junk store idx none none fun data => some data.backupPath

def getFileChecksumPath : Option (Option CStr × FileStore) :=
  getItem junk store idx none none fun data => some data.csumPath

def getFileBackupStatus : Option (ℤ × FileStore) :=
  getItem junk store idx (-1) (-1) FileHandleData.backupCreated

def getFileCacheStatus : Option (ℤ × FileStore) :=
  getItem junk store idx (-1) (-1) FileHandleData.cacheStatus

def getFileUserId : Option (ℤ × FileStore) :=
  getItem junk store idx (-1) (-1) FileHandleData.userId

end Model

section Refinement

variable {junk : ℕ → FileHandleData} {store : FileStore} {idx : ℤ} {tree : FileTree}
  {change fresh : FileHandleData → FileHandleData} {m m' : Memory FileHandleTreeItem}
  {t : Tree FileHandleTreeItem} {rb : JswRbtree} {s : LinkedTree.Shape} {item d : ℕ}

def Keeping (store : FileStore) (tree : FileTree) : Prop :=
  store.gFileHandleTree.isSome = tree.isSome ∧ ∃ t s,
    Keeps FileHandleTreeItem.key store.memory (store.gFileHandleTree.getD jswRbnew) t s ∧
      ∀ k, t.find k = (Tree.lookup tree k).map (FileHandleTreeItem.mk k)

theorem keeping_init : Keeping init none :=
  ⟨rfl, Tree.new, .nil, keeps_new, fun _ => rfl⟩

structure Owned (m : Memory FileHandleTreeItem) (s : LinkedTree.Shape) (d : ℕ)
    (a : FileHandleTreeItem) : Prop where
  there : m.items d = some a
  outside : d ∉ labels s

variable {a b : FileHandleTreeItem}

theorem owned_iff : Owned m s d a ↔ Held m s d a :=
  ⟨fun h => ⟨h.there, h.outside⟩, fun h => ⟨h.there, h.outside⟩⟩

theorem Owned.lt (h : Owned m s d a) (hk : Keeps FileHandleTreeItem.key m rb t s) :
    d < m.nextItem := (owned_iff.mp h).lt hk

variable (junk idx) in
theorem mallocItem_spec (h : Keeps FileHandleTreeItem.key m rb t s) :
    Keeps FileHandleTreeItem.key (mallocItem junk m idx).2 rb t s ∧
      Owned (mallocItem junk m idx).2 s m.nextItem ⟨idx, junk m.nextItem⟩ ∧
      ∀ d a, Owned m s d a → Owned (mallocItem junk m idx).2 s d a := by
  refine ⟨h.newItem _, owned_iff.mpr (h.held_new _), fun d a hd => ?_⟩
  exact owned_iff.mpr ((owned_iff.mp hd).beside_new h _)

theorem writeItem_spec (h : Keeps FileHandleTreeItem.key m rb t s) (hd : Owned m s d a)
    (value : FileHandleData) :
    ∃ m', writeItem m d value = some m' ∧ Keeps FileHandleTreeItem.key m' rb t s ∧
      m'.nextItem = m.nextItem ∧ m'.items = Function.update m.items d (some { a with value }) := by
  refine ⟨{ m with items := Function.update m.items d (some { a with value }) },
    by simp [writeItem, hd.there], h.congr rfl rfl (fun e he => ?_) fun j hj => ?_, rfl, rfl⟩
  · refine Function.update_of_ne ?_ _ _
    rintro rfl
    exact hd.outside he
  · refine (Function.update_of_ne ?_ _ _).trans (h.itemsFresh j hj)
    have hlt := hd.lt h
    have hle : m.nextItem ≤ j := hj
    omega

theorem Owned.added {s' : LinkedTree.Shape} (h : Owned m s d a)
    (hk : Keeps FileHandleTreeItem.key m rb t s) (hadded : Added m m' s s') : Owned m' s' d a :=
  owned_iff.mpr ((owned_iff.mp h).added hk hadded)

theorem Owned.dropped {s' : LinkedTree.Shape} {k : ℤ} (h : Owned m s d a)
    (hdropped : Dropped FileHandleTreeItem.key k m m' s s') : Owned m' s' d a :=
  owned_iff.mpr ((owned_iff.mp h).dropped hdropped)

theorem Owned.update {v : Option FileHandleTreeItem} {e : ℕ} (h : Owned m s d a) (hne : d ≠ e)
    (hitems : m'.items = Function.update m.items e v) : Owned m' s d a := by
  refine ⟨?_, h.outside⟩
  rw [hitems]
  exact (Function.update_of_ne hne _ _).trans h.there

theorem setItem_absent (h : Keeping store tree) (habsent : Tree.lookup tree idx = none) :
    ∃ store', setItem junk store idx change fresh = some (none, store') ∧
      Keeping store' (Handle.setItem tree idx change (fresh (junk store.memory.nextItem))) := by
  obtain ⟨hsome, t, s, hk, hfind⟩ := h
  obtain ⟨hk₁, hitem, -⟩ := mallocItem_spec junk idx hk
  obtain ⟨found, hcall, -, hfound⟩ := jswRbfind_spec hk₁ hitem.there
  have htfind : t.find idx = none := by rw [hfind, habsent, Option.map_none]
  obtain rfl : found = none := by
    cases found with
    | none => rfl
    | some d =>
      obtain ⟨-, a, -, -, hd⟩ := hfound d rfl
      cases htfind.symm.trans hd
  obtain ⟨m₂, hwrite, hk₂, hnext₂, hitems₂⟩ :=
    writeItem_spec hk₁ hitem (fresh (junk store.memory.nextItem))
  have hitem₂ : Owned m₂ s store.memory.nextItem ⟨idx, fresh (junk store.memory.nextItem)⟩ :=
    ⟨by rw [hitems₂]; exact Function.update_self .., hitem.outside⟩
  obtain ⟨rb, m₃, s₃, hinsert, hk₃, hadded⟩ := jswRbinsert_spec hk₂ hitem₂.there
  have hitem₃ := hitem₂.added hk₂ hadded
  obtain ⟨m₄, hfree, hk₄, -, -⟩ := hk₃.freeItem hitem₃.outside hitem₃.there
  refine ⟨⟨some rb, m₄⟩, ?_, isSome_setItem.symm, _, s₃, hk₄, fun k => ?_⟩
  · have hmalloc : mallocItem junk store.memory idx =
        (store.memory.nextItem, (mallocItem junk store.memory idx).2) := rfl
    unfold setItem
    rw [hmalloc]
    simp only [fhKeyValCmp, hcall, hwrite, hinsert, hfree, Option.bind_eq_bind, Option.bind_some]
  · simp only [Tree.find_insert, lookup_setItem, htfind, habsent, Option.getD_none, Option.map_none]
    split
    · rename_i hk
      rw [hk, Option.map_some]
    · exact hfind k

theorem setItem_present {found : FileHandleData} (h : Keeping store tree)
    (hpresent : Tree.lookup tree idx = some found) :
    ∃ d store', setItem junk store idx change fresh = some (some d, store') ∧
      store'.memory.items d = none ∧
      Keeping store' (Handle.setItem tree idx change (fresh (junk store.memory.nextItem))) := by
  obtain ⟨hsome, t, s, hk, hfind⟩ := h
  obtain ⟨hk₁, hitem, -⟩ := mallocItem_spec junk idx hk
  obtain ⟨answer, hcall, hnone, hanswer⟩ := jswRbfind_spec hk₁ hitem.there
  have htfind : t.find idx = some ⟨idx, found⟩ := by rw [hfind, hpresent, Option.map_some]
  obtain ⟨d, rfl⟩ : ∃ d, answer = some d := by
    cases answer with
    | none => cases htfind.symm.trans (hnone rfl)
    | some d => exact ⟨d, rfl⟩
  obtain ⟨hd, a, hda, hkey, hta⟩ := hanswer d rfl
  obtain rfl : a = ⟨idx, found⟩ := Option.some.inj (hta.symm.trans htfind)
  -- the copy
  set m₁ := (mallocItem junk store.memory idx).2 with hm₁
  obtain ⟨hk₂, hcopy, hkeep⟩ := mallocItem_spec junk idx hk₁
  have hitem₂ := hkeep _ _ hitem
  obtain ⟨m₃, hwrite, hk₃, hnext₃, hitems₃⟩ := writeItem_spec hk₂ hcopy (change found)
  have hne : store.memory.nextItem ≠ m₁.nextItem := (hitem.lt hk₁).ne
  have hcopy₃ : Owned m₃ s m₁.nextItem ⟨idx, change found⟩ :=
    ⟨by rw [hitems₃]; exact Function.update_self .., hcopy.outside⟩
  have hitem₃ := hitem₂.update hne hitems₃
  have hdlt : d < m₁.nextItem := by
    by_contra hge
    cases hda.symm.trans (hk₁.itemsFresh d (not_lt.mp hge))
  have hd₃ : m₃.items d = some ⟨idx, found⟩ := by
    rw [hitems₃]
    refine (Function.update_of_ne hdlt.ne _ _).trans ?_
    exact (Function.update_of_ne hdlt.ne _ _).trans hda
  -- the item found is erased, the copy inserted
  obtain ⟨rb₄, m₄, s₄, herase, hk₄, hdropped⟩ := jswRberase_spec hk₃ hd₃
  have hd₄ : m₄.items d = none := hdropped.released d hd _ hd₃ rfl
  have hcopy₄ := hcopy₃.dropped hdropped
  have hitem₄ := hitem₃.dropped hdropped
  obtain ⟨rb₅, m₅, s₅, hinsert, hk₅, hadded⟩ := jswRbinsert_spec hk₄ hcopy₄.there
  have hd₅ : m₅.items d = none := by
    refine (hadded.items d ?_).trans hd₄
    have hlt := hcopy₄.lt hk₄
    omega
  obtain ⟨m₆, hfree₆, hk₆, -, hitems₆⟩ :=
    hk₅.freeItem (hcopy₄.added hk₄ hadded).outside (hcopy₄.added hk₄ hadded).there
  have hitem₆ := (hitem₄.added hk₄ hadded).update hne hitems₆
  obtain ⟨m₇, hfree₇, hk₇, -, hitems₇⟩ := hk₆.freeItem hitem₆.outside hitem₆.there
  refine ⟨d, ⟨some rb₅, m₇⟩, ?_, ?_, isSome_setItem.symm, _, s₅, hk₇, fun k => ?_⟩
  · have hmalloc : mallocItem junk store.memory idx = (store.memory.nextItem, m₁) := rfl
    have hmalloc₁ : mallocItem junk m₁ idx = (m₁.nextItem, (mallocItem junk m₁ idx).2) := rfl
    unfold setItem
    rw [hmalloc]
    simp only [fhKeyValCmp, hcall, hda, Option.bind_eq_bind, Option.bind_some]
    rw [hmalloc₁]
    simp only [hwrite, herase, hinsert, hfree₆, hfree₇, Option.bind_some]
  · have hreleased : ∀ {items items' : ℕ → Option FileHandleTreeItem} {e : ℕ}, items d = none →
        items' = Function.update items e none → items' d = none := by
      rintro items items' e hnone rfl
      rw [Function.update_apply]
      split
      · rfl
      · exact hnone
    exact hreleased (hreleased hd₅ hitems₆) hitems₇
  · simp only [Tree.find_insert, Tree.find_erase, lookup_setItem, hpresent, if_true,
      Option.getD_none, Option.map_some, Option.getD_some]
    split
    · rename_i hk
      rw [hk, Option.map_some]
    · exact hfind k

theorem removeFileHandleData_spec (h : Keeping store tree) :
    ∃ rval store', removeFileHandleData junk store idx = some (rval, store') ∧
      Keeping store' (Handle.removeFileHandleData tree idx) := by
  obtain ⟨hsome, t, s, hk, hfind⟩ := h
  cases hgtree : store.gFileHandleTree with
  | none =>
    obtain rfl : tree = none := by
      rw [hgtree] at hsome
      exact Option.isNone_iff_eq_none.mp (by simp [← Option.not_isSome, ← hsome])
    exact ⟨-1, store, by simp [removeFileHandleData, hgtree], by rw [hgtree]; rfl, t, s, hk,
      hfind⟩
  | some rb =>
    rw [hgtree] at hsome hk
    obtain ⟨hk₁, hitem, -⟩ := mallocItem_spec junk idx hk
    obtain ⟨rb₂, m₂, s₂, herase, hk₂, hdropped⟩ := jswRberase_spec hk₁ hitem.there
    have hitem₂ := hitem.dropped hdropped
    obtain ⟨m₃, hfree, hk₃, -, -⟩ := hk₂.freeItem hitem₂.outside hitem₂.there
    refine ⟨1, ⟨some rb₂, m₃⟩, ?_, ?_, _, s₂, hk₃, fun k => ?_⟩
    · have hmalloc : mallocItem junk store.memory idx =
          (store.memory.nextItem, (mallocItem junk store.memory idx).2) := rfl
      have herase' : jswRberase fhKeyValCmp (mallocItem junk store.memory idx).2 rb
          store.memory.nextItem = some (rb₂, m₂) := herase
      simp only [removeFileHandleData, hgtree]
      rw [hmalloc]
      simp only [herase', hfree, Option.bind_eq_bind, Option.bind_some]
    · rw [Handle.removeFileHandleData, Option.isSome_map]
      exact hsome
    · rw [Tree.find_erase, lookup_removeFileHandleData]
      split
      · rfl
      · exact hfind k

theorem getItem_spec {β : Type} {missing absent : β} {field : FileHandleData → β}
    (h : Keeping store tree) :
    ∃ store', getItem junk store idx missing absent field =
        some (if tree.isSome then ((Tree.lookup tree idx).map field).getD absent else missing, store') ∧
      Keeping store' tree := by
  obtain ⟨hsome, t, s, hk, hfind⟩ := h
  cases hgtree : store.gFileHandleTree with
  | none =>
    rw [hgtree] at hsome
    refine ⟨store, ?_, by rw [hgtree, hsome], t, s, hk, hfind⟩
    simp [getItem, hgtree, ← hsome]
  | some rb =>
    rw [hgtree] at hsome hk
    obtain ⟨hk₁, hitem, -⟩ := mallocItem_spec junk idx hk
    obtain ⟨answer, hcall, hnone, hanswer⟩ := jswRbfind_spec hk₁ hitem.there
    obtain ⟨m₂, hfree, hk₂, -, -⟩ := hk₁.freeItem hitem.outside hitem.there
    have hkeeping : Keeping ⟨store.gFileHandleTree, m₂⟩ tree :=
      ⟨by rw [hgtree, hsome], t, s, by rw [hgtree]; exact hk₂, hfind⟩
    refine ⟨⟨store.gFileHandleTree, m₂⟩, ?_, hkeeping⟩
    have hmalloc : mallocItem junk store.memory idx =
        (store.memory.nextItem, (mallocItem junk store.memory idx).2) := rfl
    have hcall' : jswRbfind fhKeyValCmp (mallocItem junk store.memory idx).2 rb
        store.memory.nextItem = some answer := hcall
    have hsome' : tree.isSome = true := hsome.symm
    simp only [getItem, hgtree]
    rw [hmalloc]
    simp only [hcall', Option.bind_eq_bind, Option.bind_some, hsome', if_true]
    cases answer with
    | none =>
      have hlookup : Tree.lookup tree idx = none := by
        have habsent := hnone rfl
        rwa [hfind, Option.map_eq_none_iff] at habsent
      simp [hfree, hlookup]
    | some d =>
      obtain ⟨-, a, hda, hkey, hta⟩ := hanswer d rfl
      rw [hfind] at hta
      obtain ⟨data, hdata, rfl⟩ := Option.map_eq_some_iff.mp hta
      have hdata' : Tree.lookup tree idx = some data := hdata
      simp [hda, hfree, hdata']

end Refinement

end FileStore

end PersClient.Handle
