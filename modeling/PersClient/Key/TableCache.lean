import PersClient.Key.Database
import PersClient.Lib.Steps

/-! # The cache of resource tables

A table is opened when a context first needs it, and its handle kept in the slot
of its class and group. Whether it is open is kept twice, as a flag and as a
handle that is not negative; what closes the tables goes by a third thing, a
handle other than -1. A failed open may leave other negative values.
-/

namespace PersClient.Key

open File Steps Function

variable {W : Type*}

inductive TableCall
  | opened (path : CStr) (handle : ℤ)
  | closed (handle : ℤ)
  deriving DecidableEq, Repr

section Logged

def plain {α : Type*} (f : W → α × W) (s : W × List TableCall) : α × (W × List TableCall) :=
  ((f s.1).1, ((f s.1).2, s.2))

/-- A function with a note of its result. -/
def noting (call : ℤ → TableCall) (f : W → ℤ × W) (s : W × List TableCall) :
    ℤ × (W × List TableCall) :=
  ((f s.1).1, ((f s.1).2, s.2 ++ [call (f s.1).1]))

def PersCustomFuncts.logged (functs : PersCustomFuncts W) :
    PersCustomFuncts (W × List TableCall) where
  customPluginInit := functs.customPluginInit.map fun f s => (f s.1, s.2)
  customPluginInitAsync := functs.customPluginInitAsync.map fun f s => (f s.1, s.2)
  customPluginDeinit := functs.customPluginDeinit.map fun f s => (f s.1, s.2)
  customPluginGetSize := functs.customPluginGetSize.map fun f key => plain (f key)
  customPluginGetData := functs.customPluginGetData.map fun f key buffer size =>
    plain (f key buffer size)
  customPluginSetData := functs.customPluginSetData.map fun f key buffer size =>
    plain (f key buffer size)
  customPluginDeleteData := functs.customPluginDeleteData.map fun f key => plain (f key)

def Plugin.logged (plugin : Plugin W) : Plugin (W × List TableCall) where
  persComDbOpen := plugin.persComDbOpen.map fun f path flags => plain (f path flags)
  persComDbClose := plugin.persComDbClose.map fun f handle => plain (f handle)
  persComDbWriteKey := plugin.persComDbWriteKey.map fun f handle key buffer size =>
    plain (f handle key buffer size)
  persComDbReadKey := plugin.persComDbReadKey.map fun f handle key buffer size =>
    plain (f handle key buffer size)
  persComDbGetKeySize := plugin.persComDbGetKeySize.map fun f handle key => plain (f handle key)
  persComDbDeleteKey := plugin.persComDbDeleteKey.map fun f handle key => plain (f handle key)
  persComRctOpen := plugin.persComRctOpen.map fun f path flags =>
    noting (.opened path) (f path flags)
  persComRctClose := plugin.persComRctClose.map fun f handle =>
    noting (fun _ => .closed handle) (f handle)
  persComRctRead := plugin.persComRctRead.map fun f handle key => plain (f handle key)
  persComErrNotFound := plugin.persComErrNotFound
  dlopen name := (plugin.dlopen name).map PersCustomFuncts.logged
  gCustomLibArray := plugin.gCustomLibArray

def Setup.logged (S : Setup W) : Setup (W × List TableCall) where
  com := S.com
  appId := S.appId
  plugin := S.plugin.logged

end Logged

/-- A library with the notes of its plugin. -/
abbrev LoggedLibrary (W : Type*) := Library (W × List TableCall)

def Library.notes (lib : LoggedLibrary W) : List TableCall := lib.world.2

/-- A process that has not opened a table yet. -/
def Library.tableless (lib : LoggedLibrary W) : LoggedLibrary W :=
  { lib with
    world := (lib.world.1, [])
    gResourceTable := fun _ => -1
    gResourceOpen := fun _ => false }

section Purpose

def tableSlot (ldbid : UInt32) : ℕ := (getTableId ldbid).1.code + (getTableId ldbid).2.toNat

def tableFile (S : Setup W) (ldbid : UInt32) : CStr :=
  rctFilename S (getTableId ldbid).1 (getTableId ldbid).2

def OpenedFor (notes : List TableCall) (path : CStr) (handle : ℤ) : Prop :=
  ∃ before after, notes = before ++ .opened path handle :: after ∧ .closed handle ∉ after

def IsOpen (notes : List TableCall) (handle : ℤ) : Prop :=
  0 ≤ handle ∧ ∃ path, OpenedFor notes path handle

inductive TableStep
  | getDbContext (frame : CallFrame) (context : PersistenceDbContext) (resourceId : CStr)
    (isFile : Bool)
  | persRctCloseAll

def tableStep (S : Setup W) (lib : LoggedLibrary W) : TableStep → LoggedLibrary W
  | .getDbContext frame context resourceId isFile =>
    (getDbContext S.logged frame context resourceId isFile lib).2
  | .persRctCloseAll => persRctCloseAll S.logged lib

/-- What a step promises: a handle that is found was opened for the table of its
logical database, whose slot has no other table; what is closed is open, and
closed once. -/
def CoherentTables (S : Setup W) (lib : LoggedLibrary W) : TableStep → Prop
  | .getDbContext _ context _ _ =>
    let (handle, lib) :=
      getResourceCfgTable S.logged (getTableId context.ldbid).1 (getTableId context.ldbid).2 lib
    (0 ≤ handle → OpenedFor lib.notes (tableFile S context.ldbid) handle) ∧
      ∀ ldbid, tableSlot ldbid = tableSlot context.ldbid →
        getTableId ldbid = getTableId context.ldbid
  | .persRctCloseAll =>
    ∃ handles : List ℤ,
      (persRctCloseAll S.logged lib).notes = lib.notes ++ handles.map .closed ∧
        handles.Nodup ∧ ∀ handle ∈ handles, IsOpen lib.notes handle

/-- The condition on closing: it cannot close anything, or every slot holds -1
or a handle, and no two slots the same handle. -/
def ClosesTables (S : Setup W) (lib : LoggedLibrary W) : Prop :=
  S.plugin.persComRctClose = none ∨
    (∀ i < prctDbTableSize, lib.gResourceTable i = -1 ∨ 0 ≤ lib.gResourceTable i) ∧
      ∀ i < prctDbTableSize, ∀ j < prctDbTableSize, 0 ≤ lib.gResourceTable i →
        lib.gResourceTable i = lib.gResourceTable j → i = j

def ClosesOpen (S : Setup W) (lib : LoggedLibrary W) : TableStep → Prop
  | .getDbContext _ _ _ _ => True
  | .persRctCloseAll => ClosesTables S lib

end Purpose

section Slots

theorem getTableId_group (ldbid : UInt32) : (getTableId ldbid).2.toNat < 0x80 := by
  unfold getTableId
  split
  · rename_i hshared
    split
    · exact UInt32.lt_iff_toNat_lt.mp hshared
    · decide
  · decide

theorem tableSlot_lt (ldbid : UInt32) : tableSlot ldbid < prctDbTableSize := by
  have hgroup := getTableId_group ldbid
  have hcode : (getTableId ldbid).1.code ≤ 2 := by
    cases (getTableId ldbid).1 <;> decide
  unfold tableSlot prctDbTableSize
  omega

theorem getTableId_eq_of_slot {ldbid ldbid' : UInt32} (h : tableSlot ldbid = tableSlot ldbid') :
    getTableId ldbid = getTableId ldbid' := by
  have hslot : ∀ ldbid : UInt32,
      (getTableId ldbid = (.local, 0) ∧ tableSlot ldbid = 0) ∨
        (getTableId ldbid = (.sharedPublic, 0) ∧ tableSlot ldbid = 1) ∨
          (getTableId ldbid = (.sharedGroup, ldbid) ∧ tableSlot ldbid = ldbid.toNat + 2 ∧
            ldbid ≠ 0) := by
    intro ldbid
    unfold tableSlot getTableId
    split
    · split
      · rename_i hne
        exact Or.inr (Or.inr ⟨rfl, Nat.add_comm _ _, hne⟩)
      · exact Or.inr (Or.inl ⟨rfl, rfl⟩)
    · exact Or.inl ⟨rfl, rfl⟩
  have hpos : ∀ ldbid : UInt32, ldbid ≠ 0 → 0 < ldbid.toNat := fun ldbid hne =>
    Nat.pos_of_ne_zero fun hzero => hne (UInt32.toNat_inj.mp hzero)
  rcases hslot ldbid with ⟨hid, hs⟩ | ⟨hid, hs⟩ | ⟨hid, hs, hne⟩ <;>
    rcases hslot ldbid' with ⟨hid', hs'⟩ | ⟨hid', hs'⟩ | ⟨hid', hs', hne'⟩ <;>
    rw [hid, hid'] <;> rw [hs, hs'] at h <;> first | rfl | omega | skip
  · rw [UInt32.toNat_inj.mp (show ldbid.toNat = ldbid'.toNat by omega)]

end Slots

section Invariant

variable {S : Setup W} {lib : LoggedLibrary W} {ldbid : UInt32}

theorem OpenedFor.concat {notes : List TableCall} {path : CStr} {handle : ℤ}
    (h : OpenedFor notes path handle) (path' : CStr) (handle' : ℤ) :
    OpenedFor (notes ++ [.opened path' handle']) path handle := by
  obtain ⟨before, after, rfl, hafter⟩ := h
  refine ⟨before, after ++ [.opened path' handle'], by simp, ?_⟩
  rw [List.mem_append, List.mem_singleton]
  rintro (hmem | heq)
  · exact hafter hmem
  · cases heq

structure TablesInv (S : Setup W) (lib : LoggedLibrary W) : Prop where
  flag : ∀ i, lib.gResourceOpen i = true ↔ 0 ≤ lib.gResourceTable i
  opened : ∀ ldbid, 0 ≤ lib.gResourceTable (tableSlot ldbid) →
    OpenedFor lib.notes (tableFile S ldbid) (lib.gResourceTable (tableSlot ldbid))
  slots : ∀ i, lib.gResourceTable i ≠ -1 → ∃ ldbid, i = tableSlot ldbid

theorem not_nonneg_neg_one : ¬ (0 : ℤ) ≤ -1 := by decide

theorem tableless_inv (S : Setup W) (lib : LoggedLibrary W) : TablesInv S lib.tableless where
  flag _ := iff_of_false Bool.false_ne_true not_nonneg_neg_one
  opened _ h := absurd h not_nonneg_neg_one
  slots _ h := absurd rfl h

theorem TablesInv.fill (inv : TablesInv S lib) (ldbid : UInt32) (handle : ℤ) (world : W) :
    TablesInv S { lib with
      world := (world, lib.notes ++ [.opened (tableFile S ldbid) handle])
      gResourceTable := update lib.gResourceTable (tableSlot ldbid) handle
      gResourceOpen := update lib.gResourceOpen (tableSlot ldbid) (0 ≤ handle) } := by
  have hother : ∀ i, i ≠ tableSlot ldbid →
      update lib.gResourceTable (tableSlot ldbid) handle i = lib.gResourceTable i :=
    fun i hi => update_of_ne hi _ _
  constructor
  · intro i
    by_cases hi : i = tableSlot ldbid
    · subst hi
      simp
    · dsimp only
      rw [update_of_ne hi, update_of_ne hi]
      exact inv.flag i
  · intro ldbid'
    dsimp only [Library.notes]
    by_cases hslot : tableSlot ldbid' = tableSlot ldbid
    · have hfile : tableFile S ldbid' = tableFile S ldbid := by
        unfold tableFile
        rw [getTableId_eq_of_slot hslot]
      intro _
      rw [hslot, update_self, hfile]
      exact ⟨lib.world.2, [], rfl, List.not_mem_nil⟩
    · rw [hother _ hslot]
      exact fun h => (inv.opened ldbid' h).concat _ _
  · intro i
    dsimp only
    by_cases hi : i = tableSlot ldbid
    · exact fun _ => ⟨ldbid, hi⟩
    · rw [hother i hi]
      exact inv.slots i

theorem TablesInv.openResourceCfgTable (inv : TablesInv S lib) (ldbid : UInt32) :
    TablesInv S (openResourceCfgTable S.logged (getTableId ldbid).1 (getTableId ldbid).2
      (tableSlot ldbid) lib) := by
  unfold Key.openResourceCfgTable
  split
  · exact inv
  · cases hopen : S.plugin.persComRctOpen with
    | none =>
      have hlogged : S.logged.plugin.persComRctOpen = none := congrArg (Option.map _) hopen
      rw [hlogged]
      exact inv
    | some rctOpen =>
      have hlogged : S.logged.plugin.persComRctOpen = some fun path flags =>
          noting (.opened path) (rctOpen path flags) := congrArg (Option.map _) hopen
      rw [hlogged]
      exact inv.fill ldbid _ _

theorem getResourceCfgTable_eq (ldbid : UInt32) (lib : LoggedLibrary W) :
    getResourceCfgTable S.logged (getTableId ldbid).1 (getTableId ldbid).2 lib =
      ((openResourceCfgTable S.logged (getTableId ldbid).1 (getTableId ldbid).2 (tableSlot ldbid)
          lib).gResourceTable (tableSlot ldbid),
        openResourceCfgTable S.logged (getTableId ldbid).1 (getTableId ldbid).2 (tableSlot ldbid)
          lib) := by
  have hlt := tableSlot_lt ldbid
  unfold tableSlot at hlt ⊢
  unfold getResourceCfgTable
  rw [if_pos hlt]

theorem TablesInv.getDbContext (inv : TablesInv S lib) (frame : CallFrame)
    (context : PersistenceDbContext) (resourceId : CStr) (isFile : Bool) :
    TablesInv S (getDbContext S.logged frame context resourceId isFile lib).2 := by
  have hopen := inv.openResourceCfgTable context.ldbid
  show TablesInv S (lookupEntry S.logged context resourceId lib).2
  unfold lookupEntry
  dsimp only
  rw [getResourceCfgTable_eq]
  split
  · cases hread : S.plugin.persComRctRead with
    | none =>
      have hlogged : S.logged.plugin.persComRctRead = none := congrArg (Option.map _) hread
      rw [hlogged]
      exact hopen
    | some rctRead =>
      have hlogged : S.logged.plugin.persComRctRead = some fun handle key =>
          plain (rctRead handle key) := congrArg (Option.map _) hread
      rw [hlogged]
      exact ⟨hopen.flag, hopen.opened, hopen.slots⟩
  · exact hopen

theorem TablesInv.coherent (inv : TablesInv S lib) (frame : CallFrame)
    (context : PersistenceDbContext) (resourceId : CStr) (isFile : Bool) :
    CoherentTables S lib (.getDbContext frame context resourceId isFile) := by
  have hopen := inv.openResourceCfgTable context.ldbid
  unfold CoherentTables
  dsimp only
  rw [getResourceCfgTable_eq]
  exact ⟨hopen.opened context.ldbid, fun _ => getTableId_eq_of_slot⟩

end Invariant

section Closing

variable {S : Setup W} {lib : LoggedLibrary W}

theorem persRctCloseAll_missing (h : S.plugin.persComRctClose = none) (lib : LoggedLibrary W) :
    persRctCloseAll S.logged lib = lib := by
  have hlogged : S.logged.plugin.persComRctClose = none := congrArg (Option.map _) h
  have hone : ∀ (lib : LoggedLibrary W) i, rctClose S.logged i lib = lib := by
    intro lib i
    unfold rctClose
    rw [hlogged]
    split <;> rfl
  unfold persRctCloseAll
  generalize List.range prctDbTableSize = is
  induction is with
  | nil => rfl
  | cons i is ih => rw [List.foldl_cons, hone, ih]

/-- What closing does to a slot: it is emptied, and its handle closed unless it is -1. -/
structure ClosedAt (lib lib' : LoggedLibrary W) (i : ℕ) : Prop where
  table : lib'.gResourceTable = update lib.gResourceTable i (-1)
  flag : ∀ j, lib'.gResourceOpen j = true ↔ 0 ≤ lib'.gResourceTable j
  notes : lib'.notes = lib.notes ++
    if lib.gResourceTable i ≠ -1 then [.closed (lib.gResourceTable i)] else []

theorem rctClose_closedAt {close : ℤ → W → ℤ × W} (h : S.plugin.persComRctClose = some close)
    {i : ℕ} (hi : i < prctDbTableSize)
    (hflag : ∀ j, lib.gResourceOpen j = true ↔ 0 ≤ lib.gResourceTable j) :
    ClosedAt lib (rctClose S.logged i lib) i := by
  have hlogged : S.logged.plugin.persComRctClose =
      some fun handle => noting (fun _ => .closed handle) (close handle) :=
    congrArg (Option.map _) h
  have hindex : ∀ lib : LoggedLibrary W, getResourceCfgTableByIdx i lib = lib.gResourceTable i := by
    intro lib
    rw [getResourceCfgTableByIdx, if_pos hi]
  have hafter : ∀ (open' : ℕ → Bool) (table' : ℕ → ℤ), open' = update lib.gResourceOpen i false →
      table' = update lib.gResourceTable i (-1) → ∀ j, open' j = true ↔ 0 ≤ table' j := by
    rintro _ _ rfl rfl j
    by_cases hj : j = i
    · subst hj
      rw [update_self, update_self]
      exact iff_of_false Bool.false_ne_true not_nonneg_neg_one
    · rw [update_of_ne hj, update_of_ne hj]
      exact hflag j
  unfold rctClose
  rw [hindex, hlogged]
  by_cases hempty : lib.gResourceTable i = -1
  · rw [if_neg (not_not.mpr hempty)]
    have htable : lib.gResourceTable = update lib.gResourceTable i (-1) := by
      rw [← hempty, update_eq_self]
    refine ⟨htable, hflag, ?_⟩
    rw [if_neg (not_not.mpr hempty), List.append_nil]
  · rw [if_pos hempty]
    dsimp only
    unfold invalidateResourceCfgTable
    rw [if_pos hi]
    refine ⟨rfl, hafter _ _ rfl rfl, ?_⟩
    rw [if_pos hempty]
    rfl

theorem foldl_rctClose {close : ℤ → W → ℤ × W} (h : S.plugin.persComRctClose = some close)
    {is : List ℕ} (hnodup : is.Nodup) (hlt : ∀ i ∈ is, i < prctDbTableSize)
    (hflag : ∀ j, lib.gResourceOpen j = true ↔ 0 ≤ lib.gResourceTable j) :
    (∀ j, (is.foldl (fun lib i => rctClose S.logged i lib) lib).gResourceTable j =
        if j ∈ is then -1 else lib.gResourceTable j) ∧
      (∀ j, (is.foldl (fun lib i => rctClose S.logged i lib) lib).gResourceOpen j = true ↔
        0 ≤ (is.foldl (fun lib i => rctClose S.logged i lib) lib).gResourceTable j) ∧
      (is.foldl (fun lib i => rctClose S.logged i lib) lib).notes =
        lib.notes ++ ((is.filter fun i => lib.gResourceTable i ≠ -1).map
          lib.gResourceTable).map .closed := by
  induction is generalizing lib with
  | nil => exact ⟨fun j => rfl, hflag, (List.append_nil _).symm⟩
  | cons i is ih =>
    rw [List.nodup_cons] at hnodup
    have hone := rctClose_closedAt h (hlt i List.mem_cons_self) hflag
    obtain ⟨htable, hflag', hnotes⟩ :=
      ih hnodup.2 (fun j hj => hlt j (List.mem_cons_of_mem i hj)) hone.flag
    rw [List.foldl_cons]
    refine ⟨fun j => ?_, hflag', ?_⟩
    · rw [htable j, hone.table]
      by_cases hj : j = i
      · subst hj
        simp
      · rw [update_of_ne hj]
        simp [hj]
    · have hrest : ((is.filter fun j => (rctClose S.logged i lib).gResourceTable j ≠ -1).map
          (rctClose S.logged i lib).gResourceTable) =
          (is.filter fun j => lib.gResourceTable j ≠ -1).map lib.gResourceTable := by
        have hsame : ∀ j ∈ is, (rctClose S.logged i lib).gResourceTable j = lib.gResourceTable j := by
          intro j hj
          rw [hone.table, update_of_ne]
          rintro rfl
          exact hnodup.1 hj
        rw [List.filter_congr fun j hj => by rw [hsame j hj]]
        exact List.map_congr_left fun j hj => hsame j (List.mem_of_mem_filter hj)
      rw [hnotes, hone.notes, hrest, List.append_assoc]
      congr 1
      by_cases hempty : lib.gResourceTable i = -1
      · rw [if_neg (not_not.mpr hempty), List.filter_cons_of_neg (by simp [hempty])]
        rfl
      · rw [if_pos hempty, List.filter_cons_of_pos (by simp [hempty])]
        rfl

/-- The handles `pers_rct_close_all` passes to the plugin. -/
def closedHandles (lib : LoggedLibrary W) : List ℤ :=
  ((List.range prctDbTableSize).filter fun i => lib.gResourceTable i ≠ -1).map lib.gResourceTable

theorem TablesInv.closeAll {close : ℤ → W → ℤ × W} (inv : TablesInv S lib)
    (h : S.plugin.persComRctClose = some close) :
    TablesInv S (persRctCloseAll S.logged lib) ∧
      (persRctCloseAll S.logged lib).notes = lib.notes ++ (closedHandles lib).map .closed := by
  have hlt : ∀ i, i ∈ List.range prctDbTableSize ↔ i < prctDbTableSize := fun i => List.mem_range
  have hnodup : (List.range prctDbTableSize).Nodup := List.nodup_range
  unfold persRctCloseAll closedHandles
  generalize List.range prctDbTableSize = is at hlt hnodup
  obtain ⟨htable, hflag, hnotes⟩ := foldl_rctClose h hnodup (fun i => (hlt i).mp) inv.flag
  generalize is.foldl (fun lib i => rctClose S.logged i lib) lib = lib' at htable hflag hnotes
  have hempty : ∀ i, lib'.gResourceTable i = -1 := by
    intro i
    rw [htable i]
    by_cases hi : i ∈ is
    · rw [if_pos hi]
    · rw [if_neg hi]
      by_contra hne
      obtain ⟨ldbid, rfl⟩ := inv.slots i hne
      exact hi ((hlt _).mpr (tableSlot_lt ldbid))
  refine ⟨⟨hflag, fun ldbid hopen => ?_, fun i hne => absurd (hempty i) hne⟩, hnotes⟩
  rw [hempty] at hopen
  exact absurd hopen not_nonneg_neg_one

theorem TablesInv.step (inv : TablesInv S lib) (e : TableStep) : TablesInv S (tableStep S lib e) := by
  cases e with
  | getDbContext frame context resourceId isFile =>
    exact inv.getDbContext frame context resourceId isFile
  | persRctCloseAll =>
    cases hclose : S.plugin.persComRctClose with
    | none =>
      show TablesInv S (persRctCloseAll S.logged lib)
      rw [persRctCloseAll_missing hclose lib]
      exact inv
    | some close => exact (inv.closeAll hclose).1

/-- The handles that are closed are open, and closed once, if and only if every
slot holds -1 or a handle of its own. -/
theorem TablesInv.closes_iff (inv : TablesInv S lib) :
    CoherentTables S lib .persRctCloseAll ↔ ClosesTables S lib := by
  unfold CoherentTables ClosesTables
  cases hclose : S.plugin.persComRctClose with
  | none =>
    refine iff_of_true ⟨[], ?_, List.nodup_nil, ?_⟩ (Or.inl rfl)
    · rw [persRctCloseAll_missing hclose, List.map_nil, List.append_nil]
    · exact fun handle h => absurd h List.not_mem_nil
  | some close =>
    have hmem : ∀ i, i ∈ (List.range prctDbTableSize).filter (fun i => lib.gResourceTable i ≠ -1) ↔
        i < prctDbTableSize ∧ lib.gResourceTable i ≠ -1 := by
      intro i
      simp
    have hinj : (closedHandles lib).Nodup ↔
        ∀ i < prctDbTableSize, ∀ j < prctDbTableSize, lib.gResourceTable i ≠ -1 →
          lib.gResourceTable i = lib.gResourceTable j → i = j := by
      unfold closedHandles
      rw [List.nodup_map_iff_inj_on (List.nodup_range.filter _)]
      constructor
      · intro h i hi j hj hne heq
        exact h i ((hmem i).mpr ⟨hi, hne⟩) j ((hmem j).mpr ⟨hj, heq ▸ hne⟩) heq
      · intro h i hi j hj heq
        obtain ⟨hi, hne⟩ := (hmem i).mp hi
        exact h i hi j ((hmem j).mp hj).1 hne heq
    have hopen : (∀ handle ∈ closedHandles lib, IsOpen lib.notes handle) ↔
        ∀ i < prctDbTableSize, lib.gResourceTable i = -1 ∨ 0 ≤ lib.gResourceTable i := by
      constructor
      · intro h i hi
        by_cases hne : lib.gResourceTable i = -1
        · exact Or.inl hne
        · exact Or.inr (h _ (List.mem_map_of_mem ((hmem i).mpr ⟨hi, hne⟩))).1
      · intro h handle hhandle
        obtain ⟨i, hi, rfl⟩ := List.mem_map.mp hhandle
        obtain ⟨hi, hne⟩ := (hmem i).mp hi
        have hpos := (h i hi).resolve_left hne
        obtain ⟨ldbid, rfl⟩ := inv.slots i hne
        exact ⟨hpos, _, inv.opened ldbid hpos⟩
    constructor
    · rintro ⟨handles, hnotes, hnodup, hall⟩
      have hsame : handles = closedHandles lib := by
        have hclosed : Injective TableCall.closed := fun _ _ h => TableCall.closed.inj h
        have heq : (closedHandles lib).map TableCall.closed = handles.map TableCall.closed :=
          List.append_cancel_left ((inv.closeAll hclose).2.symm.trans hnotes)
        exact (List.map_injective_iff.mpr hclosed heq).symm
      rw [hsame] at hnodup hall
      have hpos := hopen.mp hall
      refine Or.inr ⟨hpos, fun i hi j hj hnonneg heq => hinj.mp hnodup i hi j hj ?_ heq⟩
      rintro hneg
      rw [hneg] at hnonneg
      exact not_nonneg_neg_one hnonneg
    · rintro (hnone | ⟨hpos, hown⟩)
      · cases hnone
      · have hnodup := hinj.mpr fun i hi j hj hne heq =>
          hown i hi j hj ((hpos i hi).resolve_left hne) heq
        have hall := hopen.mpr hpos
        have hnotes := (inv.closeAll hclose).2
        generalize closedHandles lib = handles at hnodup hall hnotes
        exact ⟨handles, hnotes, hnodup, hall⟩

/-- The cache of tables is coherent throughout a run exactly when, wherever the
tables are closed, every slot holds -1 or a handle of its own. -/
theorem tables_coherent_iff (S : Setup W) (lib : LoggedLibrary W) (es : List TableStep) :
    Guarded (tableStep S) (CoherentTables S) lib.tableless es ↔
      Guarded (tableStep S) (ClosesOpen S) lib.tableless es := by
  have hstep : ∀ lib e, TablesInv S lib → TablesInv S (tableStep S lib e) :=
    fun lib e inv => inv.step e
  have hiff : ∀ lib e, TablesInv S lib → (CoherentTables S lib e ↔ ClosesOpen S lib e) := by
    intro lib e inv
    cases e with
    | getDbContext frame context resourceId isFile =>
      exact iff_of_true (inv.coherent frame context resourceId isFile) trivial
    | persRctCloseAll => exact inv.closes_iff
  exact guarded_congr hstep hiff (tableless_inv S lib) es

end Closing

section Failing

def tableEntry : PersistenceConfigurationKey where
  policy := .wc
  storage := .local
  type := .key
  permission := .readWrite
  maxSize := 16
  reponsible := []
  customName := []
  customID := []

/-- A plugin that finds no table and says so with -5. -/
def failingSetup : Setup Unit :=
  ⟨.standard, cstr "app", { Plugin.constant tableEntry with
    persComRctOpen := some fun _ _ w => (-5, w) }⟩

def failingLibrary : LoggedLibrary Unit :=
  ⟨.start .empty .empty, ((), []), fun _ => -1, fun _ => false, fun _ => none, fun _ => {}, none,
    none⟩

/-- The result of an open that failed is closed like a handle. -/
theorem failed_open_closed :
    ¬ ∀ es, Guarded (tableStep failingSetup) (CoherentTables failingSetup)
      failingLibrary.tableless es := by
  intro h
  have inv := (tableless_inv failingSetup failingLibrary).step
    (.getDbContext ⟨tableEntry, [], true⟩ ⟨0, 0, 0⟩ (cstr "doc") false)
  obtain ⟨-, hclose, -⟩ := h
    [.getDbContext ⟨tableEntry, [], true⟩ ⟨0, 0, 0⟩ (cstr "doc") false, .persRctCloseAll]
  rcases inv.closes_iff.mp hclose with hnone | ⟨hpos, -⟩
  · cases hnone
  · rcases hpos 1 (by decide) with hempty | hopen
    · exact absurd hempty (by decide)
    · exact absurd hopen (by decide)

end Failing

end PersClient.Key
