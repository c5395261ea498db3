import PersClient.Key.HandleCache

/-! # Entries of databases

A database maps keys to data. A handle leads to the database it was opened for,
and a request for a database to the one behind its slot of the table, or to the
file of its own if the slot is free. To open databases and to read them changes
no entry and leaves every other request with the database it had.
-/

namespace PersClient.Key

open File Access

variable {W : Type*}

section Laws

/-- An entry of a database, and the sizes of the buffers it can be read into. -/
structure DbEntry where
  data : Bytes
  readable : ℤ → Bool
  fits : ∀ size, readable size = true → (data.length : ℤ) ≤ size

def DbEntry.plain (data : Bytes) : DbEntry where
  data
  readable size := data.length ≤ size
  fits _ h := of_decide_eq_true h

/-- The call delivers these data at the start of the buffer. -/
def Delivers (r : ℤ × Bytes) (data : Bytes) : Prop :=
  r.1 = data.length ∧ r.2.take data.length = data

/-- What to open and to read databases does: `entry` tells the entry of a key in
the database of a path. -/
structure ReadLaws (plugin : Plugin W) (bound : W → ℤ → Option CStr)
    (entry : W → CStr → CStr → Option DbEntry) : Prop where
  handles : DbHandleLaws plugin bound
  open_entry : ∀ f, plugin.persComDbOpen = some f → ∀ path flags w,
    entry (f path flags w).2 = entry w
  read_entry : ∀ f, plugin.persComDbReadKey = some f → ∀ handle key buffer size w,
    entry (f handle key buffer size w).2 = entry w
  read_missing : ∀ f, plugin.persComDbReadKey = some f → ∀ handle path key buffer size w,
    bound w handle = some path → entry w path key = none →
      (f handle key buffer size w).1.1 = plugin.persComErrNotFound
  read_found : ∀ f, plugin.persComDbReadKey = some f → ∀ handle path key buffer size w e,
    bound w handle = some path → entry w path key = some e → e.readable size = true →
      Delivers (f handle key buffer size w).1 e.data
  read_refused : ∀ f, plugin.persComDbReadKey = some f → ∀ handle path key buffer size w e,
    bound w handle = some path → entry w path key = some e → e.readable size = false →
      (f handle key buffer size w).1.1 < 0 ∧
        (f handle key buffer size w).1.1 ≠ plugin.persComErrNotFound
  notFound_neg : plugin.persComErrNotFound < 0

end Laws

section Requests

variable (S : Setup W) (bound : W → ℤ → Option CStr)

/-- Every handle of the table is open. -/
def OpenHandles (lib : Library W) : Prop :=
  ∀ slot handle, lib.gHandlesDB slot = some handle →
    slot.1 < dbTableSize ∧ 0 ≤ handle ∧ bound lib.world handle ≠ none

namespace Get

def file (g : Get) : Option CStr :=
  (databaseFile S.com g.dbType).map fun (name, _) =>
    snprintf S.com.maxLengthPathFilename (g.dbPath ++ name)

def behind (lib : Library W) (g : Get) : Option CStr :=
  match lib.gHandlesDB (g.slot S) with
  | some handle => bound lib.world handle
  | none => g.file S

def entryOf (entry : W → CStr → CStr → Option DbEntry) (lib : Library W) (key : CStr) (g : Get) :
    Option DbEntry :=
  (g.behind S bound lib).bind fun path => entry lib.world path key

structure Opens (g : Get) : Prop where
  slot : arrayIdx S.com g.info < dbTableSize
  opened : ∃ name flags f, databaseFile S.com g.dbType = some (name, flags) ∧
    S.plugin.persComDbOpen = some f ∧
      ∀ w, 0 ≤ (f (snprintf S.com.maxLengthPathFilename (g.dbPath ++ name)) flags w).1

/-- What a request that gets a handle leaves; `obs` is what is seen of the databases. -/
structure Leads {α : Type*} (g : Get) (obs : W → α) (lib : Library W) (handle : ℤ) (path : CStr)
    (lib' : Library W) : Prop where
  perform : g.perform S lib = (handle, lib')
  nonneg : 0 ≤ handle
  behind : g.behind S bound lib = some path
  open_handle : bound lib'.world handle = some path
  same : obs lib'.world = obs lib.world
  handles : OpenHandles bound lib'
  others : ∀ g' : Get, g' = g ∨ g'.slot S ≠ g.slot S → g'.behind S bound lib' = g'.behind S bound lib
  cached : lib'.gHandlesDB (g.slot S) = some handle
  table : ∀ slot, slot ≠ g.slot S → lib'.gHandlesDB slot = lib.gHandlesDB slot
  client : lib'.client = lib.client
  customFuncs : lib'.gPersCustomFuncs = lib.gPersCustomFuncs

end Get

/-- The request for one of the databases of a key. -/
def keyGet (info : PersistenceInfo) (dbPath : CStr) (dbType : DbType) : Get := ⟨info, dbPath, dbType⟩

variable {S bound} {α : Type*} {obs : W → α} {entry : W → CStr → CStr → Option DbEntry}
  {lib : Library W} {g : Get}

theorem keyGet_slot_ne {info : PersistenceInfo} {dbPath : CStr} {t t' : DbType} (hne : t ≠ t') :
    (keyGet info dbPath t).slot S ≠ (keyGet info dbPath t').slot S :=
  fun heq => hne (congrArg Prod.snd heq)

theorem behind_world {w : W} (hbound : bound w = bound lib.world) (g : Get) :
    g.behind S bound { lib with world := w } = g.behind S bound lib := by
  unfold Get.behind
  rw [hbound]

theorem entryOf_world {w : W} (hbound : bound w = bound lib.world) (hentry : entry w = entry lib.world)
    (key : CStr) (g : Get) :
    g.entryOf S bound entry { lib with world := w } key = g.entryOf S bound entry lib key := by
  unfold Get.entryOf
  rw [behind_world hbound, hentry]

theorem OpenHandles.world (h : OpenHandles bound lib) {w : W} (hbound : bound w = bound lib.world) :
    OpenHandles bound { lib with world := w } := by
  intro slot handle hslot
  rw [hbound]
  exact h slot handle hslot

theorem Get.leads_cached (h : OpenHandles bound lib) {handle : ℤ}
    (hslot : lib.gHandlesDB (g.slot S) = some handle) :
    ∃ path, g.Leads S bound obs lib handle path lib := by
  obtain ⟨hsize, hpos, hbound⟩ := h _ _ hslot
  replace hsize : arrayIdx S.com g.info < dbTableSize := hsize
  obtain ⟨path, hpath⟩ := Option.ne_none_iff_exists'.mp hbound
  refine ⟨path, ?_, hpos, ?_, hpath, rfl, h, fun _ _ => rfl, hslot, fun _ _ => rfl, rfl, rfl⟩
  · unfold Get.slot at hslot
    rw [Get.perform, databaseGet, if_pos hsize, hslot]
  · rw [Get.behind, hslot]
    exact hpath

theorem Get.leads_opened (h : OpenHandles bound lib) (handles : DbHandleLaws S.plugin bound)
    (hobs : ∀ f, S.plugin.persComDbOpen = some f → ∀ path flags w, obs (f path flags w).2 = obs w)
    (hsize : arrayIdx S.com g.info < dbTableSize) (hslot : lib.gHandlesDB (g.slot S) = none)
    {name : CStr} {flags : UInt8} (hfile : databaseFile S.com g.dbType = some (name, flags))
    {f : CStr → UInt8 → W → ℤ × W} (hopen : S.plugin.persComDbOpen = some f)
    (hpos : 0 ≤ (f (snprintf S.com.maxLengthPathFilename (g.dbPath ++ name)) flags lib.world).1) :
    ∃ handle path lib', g.Leads S bound obs lib handle path lib' := by
  generalize hpath : snprintf S.com.maxLengthPathFilename (g.dbPath ++ name) = path at hpos
  obtain ⟨hfresh, hbound⟩ := handles.opened f hopen path flags lib.world hpos
  have hsame := hobs f hopen path flags lib.world
  generalize hworld : f path flags lib.world = opened at *
  obtain ⟨handle, w⟩ := opened
  -- no handle of the table is the new one
  have hnew : ∀ slot handle', lib.gHandlesDB slot = some handle' → handle' ≠ handle := by
    rintro slot handle' hslot' rfl
    exact (h _ _ hslot').2.2 hfresh
  refine ⟨handle, path, { lib with
    world := w
    gHandlesDB := Function.update lib.gHandlesDB (g.slot S) (some handle) }, ?_, hpos, ?_, ?_,
    hsame, ?_, ?_, Function.update_self .., fun slot hne => Function.update_of_ne hne .., rfl, rfl⟩
  · have hslot' := hslot
    unfold Get.slot at hslot'
    simp only [Get.perform, databaseGet, if_pos hsize, hslot', hfile, hopen, hpath, hworld]
    rw [if_pos hpos]
    rfl
  · rw [Get.behind, hslot, Get.file, hfile]
    exact congrArg some hpath
  · dsimp only
    rw [hbound, Function.update_self]
  · intro slot handle' hslot'
    dsimp only at hslot' ⊢
    rw [Function.update_apply] at hslot'
    split at hslot'
    · rename_i heq
      cases hslot'
      refine ⟨by rw [heq]; exact hsize, hpos, ?_⟩
      rw [hbound, Function.update_self]
      exact Option.some_ne_none path
    · rw [hbound, Function.update_of_ne (hnew slot handle' hslot')]
      exact h slot handle' hslot'
  · rintro g' (rfl | hne)
    · rw [Get.behind, Get.behind, hslot, Get.file, hfile]
      dsimp only
      rw [Function.update_self]
      dsimp only
      rw [hbound, Function.update_self]
      exact congrArg some hpath.symm
    · unfold Get.behind
      dsimp only
      rw [Function.update_of_ne hne]
      split
      · rename_i handle' hslot'
        rw [hbound, Function.update_of_ne (hnew _ _ hslot')]
      · rfl

theorem Get.leads_or_fails (g : Get) (h : OpenHandles bound lib) (handles : DbHandleLaws S.plugin bound)
    (hobs : ∀ f, S.plugin.persComDbOpen = some f → ∀ path flags w, obs (f path flags w).2 = obs w) :
    (∃ handle path lib', g.Leads S bound obs lib handle path lib') ∨
      ∃ error w, g.perform S lib = (error, { lib with world := w }) ∧ error < 0 ∧
        bound w = bound lib.world ∧ obs w = obs lib.world := by
  by_cases hsize : arrayIdx S.com g.info < dbTableSize
  swap
  · refine Or.inr ⟨-1, lib.world, ?_, by decide, rfl, rfl⟩
    rw [Get.perform, databaseGet, if_neg hsize]
  cases hslot : lib.gHandlesDB (g.slot S) with
  | some handle =>
    obtain ⟨path, hleads⟩ : ∃ path, g.Leads S bound obs lib handle path lib :=
      Get.leads_cached h hslot
    exact Or.inl ⟨handle, path, lib, hleads⟩
  | none =>
    have hslot' := hslot
    unfold Get.slot at hslot'
    cases hfile : databaseFile S.com g.dbType with
    | none =>
      refine Or.inr ⟨-2, lib.world, ?_, by decide, rfl, rfl⟩
      simp only [Get.perform, databaseGet, if_pos hsize, hslot', hfile]
    | some file =>
      obtain ⟨name, flags⟩ := file
      cases hopen : S.plugin.persComDbOpen with
      | none =>
        refine Or.inr ⟨epersNoPluginFunct, lib.world, ?_, by decide, rfl, rfl⟩
        simp only [Get.perform, databaseGet, if_pos hsize, hslot', hfile, hopen]
      | some f =>
        by_cases hpos : 0 ≤ (f (snprintf S.com.maxLengthPathFilename (g.dbPath ++ name)) flags
            lib.world).1
        · exact Or.inl (Get.leads_opened h handles hobs hsize hslot hfile hopen hpos)
        · have hneg := not_le.mp hpos
          refine Or.inr ⟨_, _, ?_, hneg, handles.notOpened f hopen _ _ _ hneg, hobs f hopen _ _ _⟩
          simp only [Get.perform, databaseGet, if_pos hsize, hslot', hfile, hopen, if_neg hpos]

theorem Get.Opens.leads (hopens : g.Opens S) (h : OpenHandles bound lib)
    (handles : DbHandleLaws S.plugin bound)
    (hobs : ∀ f, S.plugin.persComDbOpen = some f → ∀ path flags w, obs (f path flags w).2 = obs w) :
    ∃ handle path lib', g.Leads S bound obs lib handle path lib' := by
  obtain ⟨name, flags, f, hfile, hopen, hpos⟩ := hopens.opened
  cases hslot : lib.gHandlesDB (g.slot S) with
  | some handle =>
    obtain ⟨path, hleads⟩ : ∃ path, g.Leads S bound obs lib handle path lib :=
      Get.leads_cached h hslot
    exact ⟨handle, path, lib, hleads⟩
  | none => exact Get.leads_opened h handles hobs hopens.slot hslot hfile hopen (hpos _)

def Get.Openable (S : Setup W) (lib : Library W) (g : Get) : Prop :=
  arrayIdx S.com g.info < dbTableSize ∧ (lib.gHandlesDB (g.slot S) ≠ none ∨
    ∃ name flags f, databaseFile S.com g.dbType = some (name, flags) ∧
      S.plugin.persComDbOpen = some f ∧
        0 ≤ (f (snprintf S.com.maxLengthPathFilename (g.dbPath ++ name)) flags lib.world).1)

theorem Get.perform_nonneg_iff (h : OpenHandles bound lib) :
    0 ≤ (g.perform S lib).1 ↔ g.Openable S lib := by
  unfold Get.Openable Get.perform databaseGet Get.slot
  by_cases hsize : arrayIdx S.com g.info < dbTableSize
  swap
  · rw [if_neg hsize]
    exact iff_of_false (show ¬ (0 : ℤ) ≤ -1 by decide) fun ho => hsize ho.1
  rw [if_pos hsize]
  cases hslot : lib.gHandlesDB (arrayIdx S.com g.info, g.dbType) with
  | some handle =>
    exact iff_of_true (h _ _ hslot).2.1 ⟨hsize, Or.inl (Option.some_ne_none handle)⟩
  | none =>
    cases hfile : databaseFile S.com g.dbType with
    | none =>
      refine iff_of_false (show ¬ (0 : ℤ) ≤ -2 by decide) ?_
      rintro ⟨-, hno | ⟨name, flags, f, hfile', -⟩⟩
      · exact hno rfl
      · cases hfile'
    | some file =>
      obtain ⟨name, flags⟩ := file
      cases hopen : S.plugin.persComDbOpen with
      | none =>
        refine iff_of_false (show ¬ 0 ≤ epersNoPluginFunct by decide) ?_
        rintro ⟨-, hno | ⟨name', flags', f, -, hopen', -⟩⟩
        · exact hno rfl
        · cases hopen'
      | some f =>
        dsimp only
        constructor
        · intro hpos
          refine ⟨hsize, Or.inr ⟨name, flags, f, rfl, rfl, ?_⟩⟩
          split at hpos <;> exact hpos
        · rintro ⟨-, hno | ⟨name', flags', f', hfile', hopen', hpos⟩⟩
          · exact absurd rfl hno
          · cases hfile'
            cases hopen'
            rw [if_pos hpos]
            exact hpos

end Requests

section Store

/-- The databases by path and key, and the open handles. -/
structure Store where
  handles : List (Option CStr) := []
  entries : CStr → CStr → Option Bytes

namespace Store

def bound (w : Store) : ℤ → Option CStr := numberedBound w.handles

def entry (w : Store) (path key : CStr) : Option DbEntry := (w.entries path key).map .plain

def set (w : Store) (path key : CStr) (data : Option Bytes) : Store :=
  { w with entries := Function.update w.entries path (Function.update (w.entries path) key data) }

def get (w : Store) (handle : ℤ) (key : CStr) : Option Bytes :=
  (w.bound handle).bind fun path => w.entries path key

end Store

/-- A plugin that keeps its databases in memory and whose tables give every
resource the same entry. -/
def Plugin.store (configKey : PersistenceConfigurationKey) : Plugin Store where
  persComDbOpen := some fun path _ w =>
    (w.handles.length, { w with handles := w.handles ++ [some path] })
  persComDbClose := some fun handle w =>
    if numberedBound w.handles handle = none then (-1, w)
    else (0, { w with handles := w.handles.set handle.toNat none })
  persComDbWriteKey := some fun handle key buffer size w =>
    match w.bound handle with
    | some path =>
      if size < 0 then (-2, w) else (size, w.set path key (some (buffer.take size.toNat)))
    | none => (-2, w)
  persComDbReadKey := some fun handle key buffer size w =>
    match w.get handle key with
    | some data =>
      if data.length ≤ size then ((data.length, data ++ buffer.drop data.length), w)
      else ((-2, buffer), w)
    | none => ((-1, buffer), w)
  persComDbGetKeySize := some fun handle key w =>
    match w.get handle key with
    | some data => (data.length, w)
    | none => (-1, w)
  persComDbDeleteKey := some fun handle key w =>
    match w.bound handle with
    | some path =>
      match w.entries path key with
      | some _ => (0, w.set path key none)
      | none => (-1, w)
    | none => (-2, w)
  persComRctOpen := some fun _ _ w => (0, w)
  persComRctClose := some fun _ w => (0, w)
  persComRctRead := some fun _ _ w => (some configKey, w)
  persComErrNotFound := -1
  dlopen := fun _ => none
  gCustomLibArray := fun _ => ⟨[], .undefined, .undefined⟩

variable {configKey : PersistenceConfigurationKey}

theorem store_handles : DbHandleLaws (Plugin.store configKey) Store.bound where
  opened := by
    rintro f ⟨⟩ path flags w hpos
    exact numbered_laws.opened _ rfl path flags w.handles hpos
  notOpened := by
    rintro f ⟨⟩ path flags w hneg
    exact numbered_laws.notOpened _ rfl path flags w.handles hneg
  closed := by
    rintro f ⟨⟩ handle w hpos
    have := numbered_laws.closed _ rfl handle w.handles
    dsimp only at this hpos ⊢
    split at hpos
    · omega
    · rename_i hopen
      rw [if_neg hopen] at this ⊢
      exact this le_rfl
  notClosed := by
    rintro f ⟨⟩ handle w hneg
    dsimp only at hneg ⊢
    split at hneg
    · rename_i hnone
      rw [if_pos hnone]
    · omega
  writeKey := by
    rintro f ⟨⟩ handle key buffer size w
    dsimp only
    split
    · split <;> rfl
    · rfl
  readKey := by
    rintro f ⟨⟩ handle key buffer size w
    dsimp only
    split
    · split <;> rfl
    · rfl
  getKeySize := by
    rintro f ⟨⟩ handle key w
    dsimp only
    split <;> rfl
  deleteKey := by
    rintro f ⟨⟩ handle key w
    dsimp only
    split
    · split <;> rfl
    · rfl
  rctOpen := by
    rintro f ⟨⟩ path flags w
    rfl
  rctRead := by
    rintro f ⟨⟩ handle id w
    rfl
  custom := by rintro name functs ⟨⟩

theorem Store.get_of_bound {w : Store} {handle : ℤ} {path : CStr} (h : w.bound handle = some path)
    (key : CStr) : w.get handle key = w.entries path key := by
  rw [Store.get, h]
  rfl

theorem store_reads : ReadLaws (Plugin.store configKey) Store.bound Store.entry where
  handles := store_handles
  open_entry := by
    rintro f ⟨⟩ path flags w
    rfl
  read_entry := by
    rintro f ⟨⟩ handle key buffer size w
    dsimp only
    split
    · split <;> rfl
    · rfl
  read_missing := by
    rintro f ⟨⟩ handle path key buffer size w hbound hnone
    rw [Store.entry, Option.map_eq_none_iff] at hnone
    dsimp only
    rw [Store.get_of_bound hbound, hnone]
    rfl
  read_found := by
    rintro f ⟨⟩ handle path key buffer size w e hbound hsome hr
    obtain ⟨data, hdata, rfl⟩ := Option.map_eq_some_iff.mp hsome
    dsimp only
    rw [Store.get_of_bound hbound, hdata]
    dsimp only
    rw [if_pos (of_decide_eq_true hr)]
    exact ⟨rfl, List.take_left⟩
  read_refused := by
    rintro f ⟨⟩ handle path key buffer size w e hbound hsome hr
    obtain ⟨data, hdata, rfl⟩ := Option.map_eq_some_iff.mp hsome
    dsimp only
    rw [Store.get_of_bound hbound, hdata]
    dsimp only
    rw [if_neg (of_decide_eq_false hr)]
    exact ⟨show (-2 : ℤ) < 0 by decide, show (-2 : ℤ) ≠ -1 by decide⟩
  notFound_neg := show (-1 : ℤ) < 0 by decide

/-- A library whose table of handles is empty. -/
def storeLibrary (entries : CStr → CStr → Option Bytes) : Library Store where
  client := .start .empty .empty
  world := { entries }

theorem storeLibrary_openHandles (entries : CStr → CStr → Option Bytes) :
    OpenHandles Store.bound (storeLibrary entries) := nofun

def storeSetup (configKey : PersistenceConfigurationKey) : Setup Store where
  com := { CommonObject.standard with
    gLocalConfigurableDefault := cstr "/configurable-default-data.itz" }
  appId := cstr "app"
  plugin := .store configKey

end Store

end PersClient.Key
