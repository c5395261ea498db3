import PersClient.Handle.StoreCalls
import PersClient.Key.Calls
import PersClient.Lib.Steps
import PersClient.Rbtree.Ownership

/-! # The items of the registrations and of the file handles

`persistence_notify_on_change` on the tree in memory, with the items it allocates
and releases. To register a key again releases the item that the tree keeps for
it, to set the user id of a record once more releases an item that erasing has
released. All other calls leave both trees with items of their own.
-/

namespace PersClient.Key

open Handle Rbtree Steps FileStore

section Source

structure KeyValue where
  key : UInt32
  value : CStr
  deriving DecidableEq, Repr

def KeyValue.index (item : KeyValue) : ℤ := item.key.toNat

/-- `gNotificationTree`, the memory of its nodes and items, and the callback. -/
structure NotificationStore where
  gNotificationTree : Option JswRbtree := none
  memory : Memory KeyValue := Memory.empty
  gChangeNotifyCallback : Option ℕ := none

/-- What `persistence_notify_on_change` does to the tree; what its search item
holds beside the key was there before. -/
def notifyOnChange (junk : ℕ → CStr) (hashKey : UInt32) (callback : ℕ)
    (regPolicy : PersNotifyRegPolicy) (s : NotificationStore) : Option NotificationStore := do
  let tree := s.gNotificationTree.getD jswRbnew
  let (searchItem, m) := newItem s.memory ⟨hashKey, junk s.memory.nextItem⟩
  let foundItem ← jswRbfind (keyValCmp KeyValue.index) m tree searchItem
  match regPolicy, foundItem with
  | .register, none =>
    let (item, m) := newItem m ⟨hashKey, []⟩
    let (tree, m) ← jswRbinsert (keyValCmp KeyValue.index) m tree item
    let m ← freeItem m item
    let m ← freeItem m searchItem
    some ⟨some tree, m, some callback⟩
  | .register, some foundItem =>
    let m ← freeItem m foundItem
    let m ← freeItem m searchItem
    some ⟨some tree, m, s.gChangeNotifyCallback⟩
  | .unregister, some foundItem =>
    let (tree, m) ← jswRberase (keyValCmp KeyValue.index) m tree foundItem
    let m ← freeItem m searchItem
    some ⟨some tree, m, if jswRbsize tree = 0 then none else s.gChangeNotifyCallback⟩
  | .unregister, none =>
    let m ← freeItem m searchItem
    some ⟨some tree, m, s.gChangeNotifyCallback⟩

end Source

section Notifications

variable {s : NotificationStore} {keys : Finset UInt32} {hashKey : UInt32}

def NotificationStore.Keeping (s : NotificationStore) (keys : Finset UInt32) : Prop :=
  ∃ t shape, Keeps KeyValue.index s.memory (s.gNotificationTree.getD jswRbnew) t shape ∧
    ∀ k : UInt32, (t.find k.toNat).isSome ↔ k ∈ keys

theorem keeping_empty : NotificationStore.Keeping {} ∅ :=
  ⟨Tree.new, .nil, keeps_new, fun k => iff_of_false Bool.false_ne_true (Finset.notMem_empty k)⟩

theorem NotificationStore.Keeping.owns (h : s.Keeping keys) :
    Owns s.memory s.gNotificationTree := by
  obtain ⟨t, shape, hk, -⟩ := h
  cases htree : s.gNotificationTree with
  | none => exact owns_none
  | some tree =>
    rw [htree] at hk
    exact hk.owns

theorem cast_toNat_inj {k hashKey : UInt32} : (k.toNat : ℤ) = hashKey.toNat ↔ k = hashKey :=
  Nat.cast_inj.trans UInt32.toNat_inj

variable (junk : ℕ → CStr) (callback : ℕ)

theorem search_spec (h : s.Keeping keys) (hashKey : UInt32) :
    ∃ t shape m found, newItem s.memory ⟨hashKey, junk s.memory.nextItem⟩ =
        (s.memory.nextItem, m) ∧
      Keeps KeyValue.index m (s.gNotificationTree.getD jswRbnew) t shape ∧
      (∀ k : UInt32, (t.find k.toNat).isSome ↔ k ∈ keys) ∧
      Held m shape s.memory.nextItem ⟨hashKey, junk s.memory.nextItem⟩ ∧
      jswRbfind (keyValCmp KeyValue.index) m (s.gNotificationTree.getD jswRbnew)
        s.memory.nextItem = some found ∧
      (found = none ↔ hashKey ∉ keys) ∧
      ∀ d, found = some d → d ∈ labels shape ∧
        ∃ a, m.items d = some a ∧ a.index = hashKey.toNat := by
  obtain ⟨t, shape, hk, hfind⟩ := h
  have hk₁ := hk.newItem ⟨hashKey, junk s.memory.nextItem⟩
  have hsearch := hk.held_new ⟨hashKey, junk s.memory.nextItem⟩
  obtain ⟨found, hcall, hnone, hsome⟩ := jswRbfind_spec hk₁ hsearch.there
  refine ⟨t, shape, _, found, rfl, hk₁, hfind, hsearch, hcall, ?_, ?_⟩
  · rw [← hfind hashKey, Option.not_isSome_iff_eq_none]
    constructor
    · exact hnone
    · intro habsent
      cases found with
      | none => rfl
      | some d =>
        obtain ⟨-, a, -, -, ha⟩ := hsome d rfl
        cases habsent.symm.trans ha
  · rintro d hd
    obtain ⟨hmem, a, ha, hindex, -⟩ := hsome d hd
    exact ⟨hmem, a, ha, hindex⟩

theorem register_new (h : s.Keeping keys) (hnew : hashKey ∉ keys) :
    ∃ s', notifyOnChange junk hashKey callback .register s = some s' ∧
      s'.Keeping (insert hashKey keys) := by
  obtain ⟨t, shape, m, found, hnewItem, hk, hfind, hsearch, hcall, hnone, -⟩ :=
    search_spec junk h hashKey
  obtain rfl := hnone.mpr hnew
  -- the new item is copied, then both are released
  have hk₁ := hk.newItem ⟨hashKey, []⟩
  have hitem₁ := hk.held_new ⟨hashKey, []⟩
  have hsearch₁ := hsearch.beside_new hk ⟨hashKey, []⟩
  have hne := (hsearch.lt hk).ne
  obtain ⟨tree₂, m₂, shape₂, hinsert, hk₂, hadded⟩ := jswRbinsert_spec hk₁ hitem₁.there
  obtain ⟨m₃, hfree₃, hk₃, hheld₃⟩ := (hitem₁.added hk₁ hadded).free hk₂
  have hsearch₃ := hheld₃ _ _ hne (hsearch₁.added hk₁ hadded)
  obtain ⟨m₄, hfree₄, hk₄, -⟩ := hsearch₃.free hk₃
  refine ⟨⟨some tree₂, m₄, some callback⟩, ?_, _, shape₂, hk₄, fun k => ?_⟩
  · have hitem : newItem m ⟨hashKey, []⟩ = (m.nextItem, (newItem m ⟨hashKey, []⟩).2) := rfl
    unfold notifyOnChange
    simp only [hnewItem, hcall, Option.bind_eq_bind, Option.bind_some]
    rw [hitem]
    simp only [hinsert, hfree₃, hfree₄, Option.bind_some]
  · have hkey : (k.toNat : ℤ) = KeyValue.index ⟨hashKey, []⟩ ↔ k = hashKey := cast_toNat_inj
    rw [Tree.find_insert, Finset.mem_insert, ← hfind k]
    by_cases hk : k = hashKey
    · rw [if_pos (hkey.mpr hk)]
      exact iff_of_true rfl (Or.inl hk)
    · rw [if_neg (mt hkey.mp hk)]
      exact (or_iff_right hk).symm

theorem register_again (h : s.Keeping keys) (hmem : hashKey ∈ keys) :
    ∃ s', notifyOnChange junk hashKey callback .register s = some s' ∧
      ¬ Owns s'.memory s'.gNotificationTree := by
  obtain ⟨t, shape, m, found, hnewItem, hk, hfind, hsearch, hcall, hnone, hsome⟩ :=
    search_spec junk h hashKey
  obtain ⟨d, rfl⟩ := Option.ne_none_iff_exists'.mp (mt hnone.mp (not_not.mpr hmem))
  obtain ⟨hd, a, ha, -⟩ := hsome d rfl
  have hne : s.memory.nextItem ≠ d := by
    rintro rfl
    exact hsearch.outside hd
  let m₁ : Memory KeyValue := { m with items := Function.update m.items d none }
  have hfree₁ : freeItem m d = some m₁ := by simp [freeItem, ha, m₁]
  have hsearch₁ : m₁.items s.memory.nextItem = some ⟨hashKey, junk s.memory.nextItem⟩ :=
    (Function.update_of_ne hne _ _).trans hsearch.there
  let m₂ : Memory KeyValue :=
    { m₁ with items := Function.update m₁.items s.memory.nextItem none }
  have hfree₂ : freeItem m₁ s.memory.nextItem = some m₂ := by simp [freeItem, hsearch₁, m₂]
  refine ⟨⟨some (s.gNotificationTree.getD jswRbnew), m₂, s.gChangeNotifyCallback⟩, ?_, ?_⟩
  · unfold notifyOnChange
    simp only [hnewItem, hcall, hfree₁, hfree₂, Option.bind_eq_bind, Option.bind_some]
  · have hreleased : m₂.items d = none :=
      (Function.update_of_ne hne.symm _ _).trans (Function.update_self ..)
    exact hk.not_owns hd rfl hreleased

theorem unregister_spec (hashKey : UInt32) (h : s.Keeping keys) :
    ∃ s', notifyOnChange junk hashKey callback .unregister s = some s' ∧
      s'.Keeping (keys.erase hashKey) := by
  obtain ⟨t, shape, m, found, hnewItem, hk, hfind, hsearch, hcall, hnone, hsome⟩ :=
    search_spec junk h hashKey
  cases found with
  | none =>
    obtain ⟨m₁, hfree, hk₁, -⟩ := hsearch.free hk
    refine ⟨⟨some (s.gNotificationTree.getD jswRbnew), m₁, s.gChangeNotifyCallback⟩, ?_, t, shape,
      hk₁, fun k => ?_⟩
    · unfold notifyOnChange
      simp only [hnewItem, hcall, hfree, Option.bind_eq_bind, Option.bind_some]
    · rw [Finset.erase_eq_of_notMem (hnone.mp rfl)]
      exact hfind k
  | some d =>
    obtain ⟨hd, a, ha, hindex⟩ := hsome d rfl
    obtain ⟨tree₁, m₁, shape₁, herase, hk₁, hdropped⟩ := jswRberase_spec hk ha
    obtain ⟨m₂, hfree, hk₂, -⟩ := (hsearch.dropped hdropped).free hk₁
    refine ⟨⟨some tree₁, m₂, if jswRbsize tree₁ = 0 then none else s.gChangeNotifyCallback⟩, ?_, _,
      shape₁, hk₂, fun k => ?_⟩
    · unfold notifyOnChange
      simp only [hnewItem, hcall, herase, hfree, Option.bind_eq_bind, Option.bind_some]
    · rw [Tree.find_erase, Finset.mem_erase, ← hfind k, hindex]
      by_cases hk : k = hashKey
      · rw [if_pos (cast_toNat_inj.mpr hk)]
        exact iff_of_false Bool.false_ne_true fun h => h.1 hk
      · rw [if_neg (mt cast_toNat_inj.mp hk)]
        exact (and_iff_right hk).symm

/-- The tree of keys says what the tree in memory keeps, and whether it still
refers to an item that was released. -/
theorem notifyOnChange_refines {W : Type*} {tree : NotificationTree} (lib : Library W)
    (h : s.Keeping tree.keys.toFinset) (hnodup : tree.keys.Nodup)
    (hintact : tree.released = false) (regPolicy : PersNotifyRegPolicy) :
    ∃ s' tree', notifyOnChange junk hashKey callback regPolicy s = some s' ∧
      (notifyTree hashKey callback regPolicy tree lib).gNotificationTree = some tree' ∧
      (tree'.released = false → s'.Keeping tree'.keys.toFinset ∧ tree'.keys.Nodup) ∧
      (tree'.released = true → ¬ Owns s'.memory s'.gNotificationTree) := by
  cases regPolicy with
  | register =>
    by_cases hmem : hashKey ∈ tree.keys
    · obtain ⟨s', hcall, howns⟩ :=
        register_again junk callback h (List.mem_toFinset.mpr hmem)
      refine ⟨s', { tree with released := true }, hcall, ?_, fun h => (by cases h), fun _ => howns⟩
      simp [notifyTree, hmem]
    · obtain ⟨s', hcall, hkeeps⟩ := register_new junk callback h (mt List.mem_toFinset.mp hmem)
      refine ⟨s', { tree with keys := hashKey :: tree.keys }, hcall, ?_, fun _ => ⟨?_, ?_⟩, ?_⟩
      · simp [notifyTree, hmem]
      · rwa [List.toFinset_cons]
      · exact List.nodup_cons.mpr ⟨hmem, hnodup⟩
      · exact fun hreleased => absurd (hintact.symm.trans hreleased) Bool.false_ne_true
  | unregister =>
    obtain ⟨s', hcall, hkeeps⟩ := unregister_spec junk callback hashKey h
    refine ⟨s', { tree with keys := tree.keys.erase hashKey }, hcall, ?_, fun _ => ⟨?_, ?_⟩, ?_⟩
    · by_cases hmem : hashKey ∈ tree.keys
      · simp [notifyTree, hmem]
      · simp [notifyTree, hmem, List.erase_of_not_mem hmem]
    · have hkeys : (tree.keys.erase hashKey).toFinset = tree.keys.toFinset.erase hashKey := by
        ext k
        rw [List.mem_toFinset, hnodup.mem_erase_iff, Finset.mem_erase, List.mem_toFinset]
      rwa [hkeys]
    · exact hnodup.erase hashKey
    · exact fun hreleased => absurd (hintact.symm.trans hreleased) Bool.false_ne_true

end Notifications

section Calls

/-- A call that changes one of the trees. -/
inductive TreeCall
  | notifyOnChange (dbKey : CStr) (callback : ℕ) (regPolicy : PersNotifyRegPolicy)
  | fileHandle (call : FileHandleCall)

/-- Both trees, each with its memory. -/
structure TreeStore where
  notifications : NotificationStore := {}
  files : FileStore := FileStore.init

variable (com : CommonObject) (junk : ℕ → CStr) (junkData : ℕ → FileHandleData)

/-- A call, `none` where it reads an item that is not there or releases one twice. -/
def TreeStore.perform (s : TreeStore) : TreeCall → Option TreeStore
  | .notifyOnChange dbKey callback regPolicy =>
    (Key.notifyOnChange junk (notificationKey dbKey) callback regPolicy s.notifications).map
      fun notifications => { s with notifications }
  | .fileHandle call =>
    (FileHandleCall.perform com junkData s.files call).map fun files => { s with files }

def TreeStore.performAll (s : TreeStore) (calls : List TreeCall) : Option TreeStore :=
  calls.foldlM (TreeStore.perform com junk junkData) s

/-- Both trees refer to items that were not released. -/
def TreeStore.OwnsItems (s : TreeStore) : Prop :=
  Owns s.notifications.memory s.notifications.gNotificationTree ∧
    Owns s.files.memory s.files.gFileHandleTree

/-- The keys registered, and the indexes with a record. -/
structure TreeKeys where
  registered : Finset UInt32 := ∅
  recorded : Finset ℤ := ∅

def TreeKeys.step (t : TreeKeys) : TreeCall → TreeKeys
  | .notifyOnChange dbKey _ .register =>
    { t with registered := insert (notificationKey dbKey) t.registered }
  | .notifyOnChange dbKey _ .unregister =>
    { t with registered := t.registered.erase (notificationKey dbKey) }
  | .fileHandle (.removeFileHandleData idx) => { t with recorded := t.recorded.erase idx }
  | .fileHandle call => { t with recorded := insert call.idx t.recorded }

/-- The call registers no key that is registered, and sets the user id of no
record that is there. -/
def TreeKeys.Unrepeated (t : TreeKeys) : TreeCall → Prop
  | .notifyOnChange dbKey _ .register => notificationKey dbKey ∉ t.registered
  | .fileHandle (.setFileUserId idx _) => idx ∉ t.recorded
  | _ => True

structure TreeStore.Tracks (s : TreeStore) (t : TreeKeys) : Prop where
  notifications : s.notifications.Keeping t.registered
  files : ∃ tree, FileStore.Keeping s.files tree ∧
    ∀ idx, Tree.lookup tree idx ≠ none ↔ idx ∈ t.recorded

end Calls

section Step

variable {s : TreeStore} {t : TreeKeys} {e : TreeCall} {c : FileHandleCall} {store : FileStore}
  {tree : FileTree} {recorded : Finset ℤ}

theorem tracks_start : TreeStore.Tracks {} {} :=
  ⟨keeping_empty, none, keeping_init, fun idx => iff_of_false (fun h => h rfl)
    (Finset.notMem_empty idx)⟩

theorem fileStore_owns (h : FileStore.Keeping store tree) :
    Owns store.memory store.gFileHandleTree := by
  obtain ⟨-, t, shape, hk, -⟩ := h
  cases hgtree : store.gFileHandleTree with
  | none => exact owns_none
  | some rb =>
    rw [hgtree] at hk
    exact hk.owns

theorem TreeStore.Tracks.ownsItems (h : s.Tracks t) : s.OwnsItems := by
  obtain ⟨tree, hkeeping, -⟩ := h.files
  exact ⟨h.notifications.owns, fileStore_owns hkeeping⟩

variable (com : CommonObject) (junk : ℕ → CStr) (junkData : ℕ → FileHandleData)

theorem setter_tracks (h : FileStore.Keeping store tree)
    (hidx : ∀ idx, Tree.lookup tree idx ≠ none ↔ idx ∈ recorded) (hset : c.setter)
    (hstale : ¬ c.Stale tree) :
    ∃ store', FileHandleCall.perform com junkData store c = some store' ∧
      ∃ tree', FileStore.Keeping store' tree' ∧
        ∀ idx, Tree.lookup tree' idx ≠ none ↔ idx ∈ insert c.idx recorded := by
  obtain ⟨store', hcall, hkeeping⟩ :
      ∃ store', FileHandleCall.perform com junkData store c = some store' ∧ _ :=
    perform_setter h hset hstale
  refine ⟨store', hcall, _, hkeeping, fun idx => ?_⟩
  rw [lookup_setItem, Finset.mem_insert, ← hidx idx]
  by_cases heq : idx = c.idx
  · rw [if_pos heq]
    exact iff_of_true (Option.some_ne_none _) (Or.inl heq)
  · rw [if_neg heq]
    exact (or_iff_right heq).symm

theorem TreeStore.Tracks.step (h : s.Tracks t) (he : t.Unrepeated e) :
    ∃ s', s.perform com junk junkData e = some s' ∧ s'.Tracks (t.step e) := by
  obtain ⟨hnotifications, tree, hkeeping, hidx⟩ := h
  have hsetter : ∀ c : FileHandleCall, c.setter → ¬ c.Stale tree → ∃ s',
      s.perform com junk junkData (.fileHandle c) = some s' ∧
        s'.Tracks { t with recorded := insert c.idx t.recorded } := by
    intro c hset hstale
    obtain ⟨store', hcall, htracks⟩ := setter_tracks com junkData hkeeping hidx hset hstale
    exact ⟨{ s with files := store' }, congrArg (Option.map _) hcall, hnotifications, htracks⟩
  cases e with
  | notifyOnChange dbKey callback regPolicy =>
    cases regPolicy with
    | register =>
      obtain ⟨s', hcall, hkeeps⟩ := register_new junk callback hnotifications he
      exact ⟨{ s with notifications := s' }, congrArg (Option.map _) hcall, hkeeps, tree, hkeeping,
        hidx⟩
    | unregister =>
      obtain ⟨s', hcall, hkeeps⟩ :=
        unregister_spec junk callback (notificationKey dbKey) hnotifications
      exact ⟨{ s with notifications := s' }, congrArg (Option.map _) hcall, hkeeps, tree, hkeeping,
        hidx⟩
  | fileHandle c =>
    cases c with
    | removeFileHandleData idx =>
      obtain ⟨store', hcall, hkeeping'⟩ : ∃ store', FileHandleCall.perform com junkData s.files
          (.removeFileHandleData idx) = some store' ∧ _ := perform_remove hkeeping
      refine ⟨{ s with files := store' }, congrArg (Option.map _) hcall, hnotifications, _,
        hkeeping', fun j => ?_⟩
      rw [lookup_removeFileHandleData, TreeKeys.step, Finset.mem_erase, ← hidx j]
      split
      · rename_i heq
        exact iff_of_false (fun hne => hne rfl) fun hne => hne.1 heq
      · rename_i hne
        exact (and_iff_right hne).symm
    | setFileHandleData idx permission backup csumPath filePath => exact hsetter _ rfl id
    | setFileBackupStatus idx status => exact hsetter _ rfl id
    | setFileCacheStatus idx status => exact hsetter _ rfl id
    | setFileUserId idx userId => exact hsetter _ rfl fun hne => he ((hidx idx).mp hne)

/-- A call that repeats one leaves a tree with an item that is not its own, or
releases an item twice. -/
theorem TreeStore.Tracks.repeated (h : s.Tracks t) (he : ¬ t.Unrepeated e) :
    ¬ ∃ s', s.perform com junk junkData e = some s' ∧ s'.OwnsItems := by
  obtain ⟨hnotifications, tree, hkeeping, hidx⟩ := h
  cases e with
  | notifyOnChange dbKey callback regPolicy =>
    cases regPolicy with
    | register =>
      obtain ⟨s', hcall, howns⟩ := register_again junk callback hnotifications (not_not.mp he)
      rintro ⟨s'', hcall', howns', -⟩
      have hperform : s.perform com junk junkData (.notifyOnChange dbKey callback .register) =
          some { s with notifications := s' } := congrArg (Option.map _) hcall
      cases hperform.symm.trans hcall'
      exact howns howns'
    | unregister => exact absurd trivial he
  | fileHandle c =>
    cases c with
    | setFileUserId idx userId =>
      have hstale : (FileHandleCall.setFileUserId idx userId).Stale tree :=
        (hidx idx).mpr (not_not.mp he)
      rintro ⟨s', hcall, -⟩
      have hperform :
          s.perform com junk junkData (.fileHandle (.setFileUserId idx userId)) = none :=
        congrArg (Option.map _) (perform_stale hkeeping hstale)
      cases hperform.symm.trans hcall
    | _ => exact absurd trivial he

theorem performAll_cons {es : List TreeCall} : s.performAll com junk junkData (e :: es) =
    (s.perform com junk junkData e).bind fun s' => s'.performAll com junk junkData es := by
  simp [TreeStore.performAll]

theorem TreeStore.Tracks.run_iff (h : s.Tracks t) (es : List TreeCall) :
    (∀ fs, fs <+: es → ∃ s', s.performAll com junk junkData fs = some s' ∧ s'.OwnsItems) ↔
      Guarded TreeKeys.step TreeKeys.Unrepeated t es := by
  induction es generalizing s t with
  | nil =>
    refine iff_of_true (fun fs hfs => ?_) trivial
    rw [List.prefix_nil.mp hfs]
    exact ⟨s, rfl, h.ownsItems⟩
  | cons e es ih =>
    by_cases he : t.Unrepeated e
    · obtain ⟨s', hcall, htracks⟩ := h.step com junk junkData he
      have hguarded : Guarded TreeKeys.step TreeKeys.Unrepeated t (e :: es) ↔
          Guarded TreeKeys.step TreeKeys.Unrepeated (t.step e) es := and_iff_right he
      rw [hguarded, ← ih htracks]
      constructor
      · intro hall fs hfs
        have hrun := hall (e :: fs) (List.cons_prefix_cons.mpr ⟨rfl, hfs⟩)
        rwa [performAll_cons, hcall, Option.bind_some] at hrun
      · intro hall fs hfs
        cases fs with
        | nil => exact ⟨s, rfl, h.ownsItems⟩
        | cons f fs =>
          obtain ⟨rfl, hrest⟩ := List.cons_prefix_cons.mp hfs
          rw [performAll_cons, hcall, Option.bind_some]
          exact hall fs hrest
    · refine iff_of_false (fun hall => ?_) fun hguarded => he hguarded.1
      apply h.repeated com junk junkData he
      obtain ⟨s', hrun, howns⟩ := hall [e] ⟨es, rfl⟩
      rw [performAll_cons] at hrun
      obtain ⟨s'', hcall, hrest⟩ := Option.bind_eq_some_iff.mp hrun
      cases hrest
      exact ⟨s', hcall, howns⟩

end Step

/-- Both trees refer to items of their own throughout a run exactly when it
registers no key that is registered and sets the user id of no record. -/
theorem ownsItems_run_iff (com : CommonObject) (junk : ℕ → CStr) (junkData : ℕ → FileHandleData)
    (calls : List TreeCall) :
    (∀ fs, fs <+: calls → ∃ s, TreeStore.performAll com junk junkData {} fs = some s ∧
      s.OwnsItems) ↔ Guarded TreeKeys.step TreeKeys.Unrepeated {} calls :=
  tracks_start.run_iff com junk junkData calls

/-- A key that is registered twice: the tree refers to an item that was released. -/
theorem registered_twice_released :
    ¬ ∀ calls fs : List TreeCall, fs <+: calls → ∃ s, TreeStore.performAll CommonObject.standard
      (fun _ => []) (fun _ => clearedItem) {} fs = some s ∧ s.OwnsItems := by
  intro h
  let again : TreeCall := .notifyOnChange (cstr "key") 1 .register
  have hguarded := (tracks_start.run_iff _ _ _ [again, again]).mp (h [again, again])
  exact hguarded.2.1 (Finset.mem_insert_self _ _)

end PersClient.Key
