import PersClient.Key.LayeredStore

/-! # Calls on the store

A request for a database opens the file of its own, or finds it open. So long
as requests that share a slot share a file, every request of a run gets its own
database, whichever requests came before it, and a lookup, a write or a deletion
does to the store what its places tell.
-/

namespace PersClient.Key

open File Handle Access Prct

variable {W : Type} {S : Setup W} {V : StoreView W} {R : Set Get} {lib lib' : Library W}

section Homed

/-- The handles in the table are open, different, and lead each request home. -/
structure Homed (S : Setup W) (V : StoreView W) (R : Set Get) (lib : Library W) : Prop where
  handles : OpenHandles V.bound lib
  distinct : ∀ slot slot' handle, lib.gHandlesDB slot = some handle →
    lib.gHandlesDB slot' = some handle → slot = slot'
  home : ∀ g ∈ R, ∀ handle, lib.gHandlesDB (g.slot S) = some handle →
    V.bound lib.world handle = g.home S lib.world

structure Beside (V : StoreView W) (lib lib' : Library W) : Prop where
  table : lib'.gResourceTable = lib.gResourceTable
  opened : lib'.gResourceOpen = lib.gResourceOpen
  tableBound : V.tableBound lib'.world = V.tableBound lib.world
  counter : lib'.client.gPclInitCounter = lib.client.gPclInitCounter
  lock : lib'.client.loop.gLockAccess = lib.client.loop.gLockAccess

theorem Beside.refl (lib : Library W) : Beside V lib lib := ⟨rfl, rfl, rfl, rfl, rfl⟩

theorem Beside.world {w : W} (h : V.tableBound w = V.tableBound lib.world) :
    Beside V lib { lib with world := w } := ⟨rfl, rfl, h, rfl, rfl⟩

theorem Beside.trans {lib'' : Library W} (h : Beside V lib lib') (h' : Beside V lib' lib'') :
    Beside V lib lib'' where
  table := h'.table.trans h.table
  opened := h'.opened.trans h.opened
  tableBound := h'.tableBound.trans h.tableBound
  counter := h'.counter.trans h.counter
  lock := h'.lock.trans h.lock

theorem Homed.keep (laws : DatabaseLaws S.plugin V) (h : Homed S V R lib)
    (table : lib'.gHandlesDB = lib.gHandlesDB) (bound : V.bound lib'.world = V.bound lib.world) :
    Homed S V R lib' := by
  constructor
  · unfold OpenHandles
    rw [table, bound]
    exact h.handles
  · rw [table]
    exact h.distinct
  · intro g hg handle hin
    rw [table] at hin
    rw [bound, h.home g hg handle hin]
    exact Get.home_congr laws.toLookLaws _ _ g

theorem Get.perform_cached {g : Get} {handle : ℤ} (h : OpenHandles V.bound lib)
    (hslot : lib.gHandlesDB (g.slot S) = some handle) : g.perform S lib = (handle, lib) := by
  have hsize : arrayIdx S.com g.info < dbTableSize := (h _ _ hslot).1
  unfold Get.slot at hslot
  rw [Get.perform, databaseGet, if_pos hsize, hslot]

theorem Get.perform_home {g : Get} {path : CStr} (hslot : lib.gHandlesDB (g.slot S) = none)
    (hhome : g.home S lib.world = some path) :
    ∃ dbOpen flags, S.plugin.persComDbOpen = some dbOpen ∧ 0 ≤ (dbOpen path flags lib.world).1 ∧
      g.perform S lib = ((dbOpen path flags lib.world).1, { lib with
        world := (dbOpen path flags lib.world).2
        gHandlesDB :=
          Function.update lib.gHandlesDB (g.slot S) (some (dbOpen path flags lib.world).1) }) := by
  obtain ⟨hsize, hpath, name, flags, dbOpen, hfile, hopen, hpos⟩ := Get.home_eq_some hhome
  refine ⟨dbOpen, flags, hopen, hpos, ?_⟩
  rw [Get.file, hfile] at hpath
  have hpath' := Option.some.inj hpath
  unfold Get.slot at hslot ⊢
  simp only [Get.perform, databaseGet, if_pos hsize, hslot, hfile, hopen]
  dsimp only at hpath'
  rw [hpath', if_pos hpos]

theorem Get.perform_homeless (laws : DatabaseLaws S.plugin V) {g : Get}
    (hslot : lib.gHandlesDB (g.slot S) = none) (hhome : g.home S lib.world = none) :
    ∃ error w, g.perform S lib = (error, { lib with world := w }) ∧ error < 0 ∧
      V.bound w = V.bound lib.world ∧ V.seen w = V.seen lib.world := by
  unfold Get.slot at hslot
  by_cases hsize : arrayIdx S.com g.info < dbTableSize
  swap
  · refine ⟨-1, lib.world, ?_, by decide, rfl, rfl⟩
    rw [Get.perform, databaseGet, if_neg hsize]
  rw [Get.home, if_pos hsize] at hhome
  cases hfile : databaseFile S.com g.dbType with
  | none =>
    refine ⟨-2, lib.world, ?_, by decide, rfl, rfl⟩
    simp only [Get.perform, databaseGet, if_pos hsize, hslot, hfile]
  | some file =>
    obtain ⟨name, flags⟩ := file
    cases hopen : S.plugin.persComDbOpen with
    | none =>
      refine ⟨epersNoPluginFunct, lib.world, ?_, by decide, rfl, rfl⟩
      simp only [Get.perform, databaseGet, if_pos hsize, hslot, hfile, hopen]
    | some dbOpen =>
      rw [hfile, hopen] at hhome
      simp only [Option.bind_some] at hhome
      split at hhome
      · cases hhome
      rename_i hneg
      refine ⟨_, _, ?_, not_le.mp hneg, laws.handles.notOpened dbOpen hopen _ _ _ (not_le.mp hneg),
        laws.open_seen dbOpen hopen _ _ _⟩
      simp only [Get.perform, databaseGet, if_pos hsize, hslot, hfile, hopen, if_neg hneg]

structure Stays (S : Setup W) (V : StoreView W) (R : Set Get) (lib lib' : Library W) : Prop where
  homed : Homed S V R lib'
  beside : Beside V lib lib'
  data : V.data lib'.world = V.data lib.world

theorem Homed.stays (h : Homed S V R lib) : Stays S V R lib lib := ⟨h, .refl lib, rfl⟩

theorem Stays.trans {lib'' : Library W} (h : Stays S V R lib lib') (h' : Stays S V R lib' lib'') :
    Stays S V R lib lib'' := ⟨h'.homed, h.beside.trans h'.beside, h'.data.trans h.data⟩

theorem Homed.world (laws : DatabaseLaws S.plugin V) (h : Homed S V R lib) {w : W}
    (bound : V.bound w = V.bound lib.world) (seen : V.seen w = V.seen lib.world) :
    Stays S V R lib { lib with world := w } :=
  ⟨h.keep laws rfl bound, .world (congrArg Prod.snd seen), congrArg Prod.fst seen⟩

/-- What a request leaves: the handle of its home, or an error without one. -/
structure Got (S : Setup W) (V : StoreView W) (R : Set Get) (w : W) (lib : Library W) (g : Get)
    (handle : ℤ) (lib' : Library W) : Prop extends Stays S V R lib lib' where
  leads : (∃ path, g.home S w = some path ∧ 0 ≤ handle ∧
      V.bound lib'.world handle = some path) ∨
    (g.home S w = none ∧ handle < 0)

theorem Homed.fill (laws : DatabaseLaws S.plugin V) (hR : Separate S R) (h : Homed S V R lib)
    {g : Get} (hg : g ∈ R) {path : CStr} {handle : ℤ} {w : W} (hpos : 0 ≤ handle)
    (hhome : g.home S lib.world = some path) (hfresh : V.bound lib.world handle = none)
    (hbound : V.bound w = Function.update (V.bound lib.world) handle (some path)) :
    Homed S V R { lib with
      world := w
      gHandlesDB := Function.update lib.gHandlesDB (g.slot S) (some handle) } := by
  -- no slot holds the new handle yet
  have hnew : ∀ slot handle', lib.gHandlesDB slot = some handle' → handle' ≠ handle := by
    rintro slot handle' hin rfl
    exact (h.handles _ _ hin).2.2 hfresh
  constructor
  · intro slot handle' hin
    dsimp only at hin ⊢
    rw [Function.update_apply] at hin
    split at hin
    · rename_i heq
      cases hin
      refine ⟨by rw [heq]; exact (Get.home_eq_some hhome).1, hpos, ?_⟩
      rw [hbound, Function.update_self]
      exact Option.some_ne_none path
    · rw [hbound, Function.update_of_ne (hnew slot handle' hin)]
      exact h.handles slot handle' hin
  · intro slot slot' handle' hin hin'
    dsimp only at hin hin'
    rw [Function.update_apply] at hin hin'
    split at hin <;> split at hin'
    · simp [*]
    · cases hin
      exact absurd rfl (hnew slot' _ hin')
    · cases hin'
      exact absurd rfl (hnew slot _ hin)
    · exact h.distinct slot slot' handle' hin hin'
  · intro g' hg' handle' hin
    dsimp only at hin ⊢
    rw [Function.update_apply] at hin
    rw [Get.home_congr laws.toLookLaws w lib.world g', hbound]
    split at hin
    · rename_i heq
      cases hin
      rw [Function.update_self, Get.home_of_file heq (hR g' hg' g hg heq), hhome]
    · rw [Function.update_of_ne (hnew _ handle' hin)]
      exact h.home g' hg' handle' hin

theorem Homed.get (laws : DatabaseLaws S.plugin V) (hR : Separate S R) (h : Homed S V R lib)
    (w : W) {g : Get} (hg : g ∈ R) :
    Got S V R w lib g (g.perform S lib).1 (g.perform S lib).2 := by
  have hcongr := Get.home_congr laws.toLookLaws w lib.world g
  cases hslot : lib.gHandlesDB (g.slot S) with
  | some handle =>
    obtain ⟨-, hpos, hopen⟩ := h.handles _ _ hslot
    obtain ⟨path, hpath⟩ := Option.ne_none_iff_exists'.mp hopen
    rw [Get.perform_cached h.handles hslot]
    refine ⟨h.stays, Or.inl ⟨path, ?_, hpos, hpath⟩⟩
    rw [hcongr, ← h.home g hg handle hslot]
    exact hpath
  | none =>
    cases hhome : g.home S lib.world with
    | some path =>
      obtain ⟨dbOpen, flags, hopen, hpos, hperform⟩ := Get.perform_home hslot hhome
      obtain ⟨hfresh, hbound⟩ := laws.handles.opened dbOpen hopen path flags lib.world hpos
      have hseen := laws.open_seen dbOpen hopen path flags lib.world
      rw [hperform]
      generalize dbOpen path flags lib.world = made at *
      refine ⟨⟨h.fill laws hR hg hpos hhome hfresh hbound,
        ⟨rfl, rfl, congrArg Prod.snd hseen, rfl, rfl⟩, congrArg Prod.fst hseen⟩,
        Or.inl ⟨path, hcongr.trans hhome, hpos, ?_⟩⟩
      · dsimp only
        rw [hbound, Function.update_self]
    | none =>
      obtain ⟨error, w, hperform, hneg, hbound, hseen⟩ := Get.perform_homeless laws hslot hhome
      rw [hperform]
      exact ⟨h.world laws hbound hseen, Or.inr ⟨hcongr.trans hhome, hneg⟩⟩

theorem Homed.close (laws : DatabaseLaws S.plugin V) (h : Homed S V R lib) (slot : ℕ × DbType) :
    Stays S V R lib (databaseClose S slot lib) := by
  unfold databaseClose
  split
  swap
  · exact h.stays
  rename_i handle dbClose hslot hclose
  have hseen := laws.close_seen dbClose hclose handle lib.world
  have hnot := laws.handles.notClosed dbClose hclose handle lib.world
  have hclosed := laws.handles.closed dbClose hclose handle lib.world
  generalize dbClose handle lib.world = made at *
  obtain ⟨iErrorCode, w⟩ := made
  dsimp only at hseen hnot hclosed ⊢
  split
  · rename_i hneg
    exact h.world laws (hnot hneg) hseen
  rename_i hneg
  have hbound := hclosed (not_lt.mp hneg)
  -- another slot has another handle
  have hother : ∀ slot' handle', Function.update lib.gHandlesDB slot none slot' = some handle' →
      lib.gHandlesDB slot' = some handle' ∧ handle' ≠ handle := by
    intro slot' handle' hin
    rw [Function.update_apply] at hin
    split at hin
    · cases hin
    · rename_i hne
      refine ⟨hin, ?_⟩
      rintro rfl
      exact hne (h.distinct slot' slot _ hin hslot)
  refine ⟨⟨?_, ?_, ?_⟩, ⟨rfl, rfl, congrArg Prod.snd hseen, rfl, rfl⟩, congrArg Prod.fst hseen⟩
  · intro slot' handle' hin
    obtain ⟨hin, hne⟩ := hother slot' handle' hin
    dsimp only
    rw [hbound, Function.update_of_ne hne]
    exact h.handles slot' handle' hin
  · intro slot' slot'' handle' hin hin'
    exact h.distinct slot' slot'' handle' (hother _ _ hin).1 (hother _ _ hin').1
  · intro g hg handle' hin
    obtain ⟨hin, hne⟩ := hother _ handle' hin
    dsimp only
    rw [hbound, Function.update_of_ne hne, Get.home_congr laws.toLookLaws w lib.world g]
    exact h.home g hg handle' hin

theorem Homed.closeAll (laws : DatabaseLaws S.plugin V) (h : Homed S V R lib) :
    Stays S V R lib (databaseCloseAll S lib) := by
  have hclose : ∀ (lib' : Library W) (slot : ℕ × DbType), Stays S V R lib lib' →
      Stays S V R lib (databaseClose S slot lib') := by
    intro lib' slot hstays
    exact hstays.trans (hstays.homed.close laws slot)
  exact Steps.run_invariant_of_forall hclose h.stays _

end Homed

section Lookups

def PersGetDefault.takes (job : PersGetDefault) (size : ℤ) (data : Bytes) : Bool :=
  match job with
  | .data => fits size data
  | .size => true

def PersGetDefault.Gives (job : PersGetDefault) (r : ℤ × Bytes) (data : Bytes) : Prop :=
  match job with
  | .data => Delivers r data
  | .size => r.1 = data.length

theorem PersGetDefault.Gives.length_eq {job : PersGetDefault} {r : ℤ × Bytes} {data : Bytes}
    (h : job.Gives r data) : r.1 = data.length := by
  cases job with
  | data => exact h.1
  | size => exact h

theorem PersGetDefault.Gives.not_neg {job : PersGetDefault} {r : ℤ × Bytes} {data : Bytes}
    (h : job.Gives r data) : ¬ r.1 < 0 := by
  have := h.length_eq
  omega

inductive Fetched (job : PersGetDefault) (size missing : ℤ) (entry : Option Bytes) (r : ℤ × Bytes) :
    Prop
  | given (data : Bytes) (there : entry = some data) (taken : job.takes size data = true)
      (gives : job.Gives r data)
  | kept (data : Bytes) (there : entry = some data) (left : job.takes size data = false)
      (neg : r.1 < 0)
  | missing (none : entry = none) (result : r.1 = missing)

theorem fetchDefault_fetched (laws : DatabaseLaws S.plugin V) (job : PersGetDefault) {handle : ℤ}
    {path : CStr} {w : W} (hbound : V.bound w handle = some path) (key : CStr) (buffer : Bytes)
    (size : ℤ) :
    Fetched job size S.plugin.persComErrNotFound (V.data w path key)
      (fetchDefault S job handle key buffer size w).1 ∧
      V.bound (fetchDefault S job handle key buffer size w).2 = V.bound w ∧
      V.seen (fetchDefault S job handle key buffer size w).2 = V.seen w := by
  refine ⟨?_, fetchDefault_same laws.toLookLaws job handle key buffer size w⟩
  cases job with
  | data =>
    obtain ⟨f, hf⟩ := Option.isSome_iff_exists.mp laws.read_loaded
    simp only [fetchDefault, hf]
    cases hentry : V.data w path key with
    | none =>
      exact .missing rfl (laws.read_missing f hf handle path key buffer size w hbound hentry)
    | some data =>
      have hread := laws.read f hf handle path key buffer size w data hbound hentry
      cases hfits : fits size data with
      | true =>
        rw [if_pos hfits] at hread
        exact .given data rfl hfits hread
      | false =>
        rw [if_neg (by rw [hfits]; exact Bool.false_ne_true)] at hread
        exact .kept data rfl hfits hread
  | size =>
    obtain ⟨f, hf⟩ := Option.isSome_iff_exists.mp laws.size_loaded
    simp only [fetchDefault, hf]
    cases hentry : V.data w path key with
    | none => exact .missing rfl (laws.size_missing f hf handle path key w hbound hentry)
    | some data =>
      exact .given data rfl rfl (laws.size f hf handle path key w data hbound hentry)

/-- How a job on entries in their order ends, where `before` was the result so far. -/
structure Looked (job : PersGetDefault) (size : ℤ) (entries : List (Option Bytes)) (before : ℤ)
    (r : ℤ × Bytes) : Prop where
  found : ∀ data, entries.findSome? (Option.filter (job.takes size)) = some data → job.Gives r data
  unread : entries.findSome? (Option.filter (job.takes size)) = none → r.1 < 0
  bare : (∀ entry ∈ entries, entry = none) → before = epersNokey → r.1 = epersNokey

variable {job : PersGetDefault} {size before before' : ℤ} {entry : Option Bytes}
  {entries : List (Option Bytes)} {r : ℤ × Bytes} {data : Bytes}

theorem Looked.take (there : entry = some data) (taken : job.takes size data = true)
    (gives : job.Gives r data) : Looked job size (entry :: entries) before r := by
  have hfilter : entry.filter (job.takes size) = some data := by
    rw [there, Option.filter_some, if_pos taken]
  constructor
  · intro data' hfound
    rw [List.findSome?_cons, hfilter] at hfound
    cases hfound
    exact gives
  · intro hnone
    rw [List.findSome?_cons, hfilter] at hnone
    cases hnone
  · intro hbare
    rw [hbare entry List.mem_cons_self] at there
    cases there

theorem Looked.skip (h : Looked job size entries before' r)
    (left : entry.filter (job.takes size) = none)
    (missing : entry = none → before = epersNokey → before' = epersNokey) :
    Looked job size (entry :: entries) before r := by
  have hrest : (entry :: entries).findSome? (Option.filter (job.takes size)) =
      entries.findSome? (Option.filter (job.takes size)) := by
    rw [List.findSome?_cons, left]
  constructor
  · intro data hfound
    exact h.found data (hrest ▸ hfound)
  · intro hnone
    exact h.unread (hrest ▸ hnone)
  · intro hbare hbefore
    exact h.bare (fun e he => hbare e (List.mem_cons_of_mem entry he))
      (missing (hbare entry List.mem_cons_self) hbefore)

variable {info : PersistenceInfo} {dbPath key : CStr}

def placeOf (S : Setup W) (w : W) (info : PersistenceInfo) (dbPath key : CStr) (t : DbType) :
    Place :=
  ⟨(keyGet info dbPath t).home S w, key⟩

variable (job size key) in
theorem defaultsFrom_looked (laws : DatabaseLaws S.plugin V) (hR : Separate S R) (w : W)
    {ts : List DbType} (hts : ∀ t ∈ ts, keyGet info dbPath t ∈ R) {readSize : ℤ}
    (hneg : readSize < 0) (buffer : Bytes) (h : Homed S V R lib) :
    Stays S V R lib (defaultsFrom S dbPath key info size job ts readSize buffer lib).2 ∧
      Looked job size (ts.map fun t => (placeOf S w info dbPath key t).entry (V.data lib.world))
        readSize (defaultsFrom S dbPath key info size job ts readSize buffer lib).1 := by
  induction ts generalizing readSize buffer lib with
  | nil =>
    refine ⟨h.stays, ?_, fun _ => hneg, fun _ hread => hread⟩
    rintro data ⟨⟩
  | cons t ts ih =>
    have hrest := fun t' ht' => hts t' (List.mem_cons_of_mem t ht')
    have hgot := h.get laws hR w (hts t List.mem_cons_self)
    replace hgot : Got S V R w lib (keyGet info dbPath t) (databaseGet S info dbPath t lib).1
      (databaseGet S info dbPath t lib).2 := hgot
    unfold defaultsFrom
    rw [List.map_cons]
    generalize hplace : (placeOf S w info dbPath key t).entry (V.data lib.world) = entry
    generalize databaseGet S info dbPath t lib = got at *
    obtain ⟨handle, lib₁⟩ := got
    dsimp only at hgot ⊢
    obtain ⟨hstays, ⟨path, hhome, hpos, hbound⟩ | ⟨hhome, hfail⟩⟩ := hgot
    · have hentry : entry = V.data lib₁.world path key := by
        rw [← hplace, hstays.data, Place.entry, placeOf, hhome]
        rfl
      obtain ⟨hfetched, hbound', hseen'⟩ := fetchDefault_fetched laws job hbound key buffer size
      have hstays' := hstays.trans (hstays.homed.world laws hbound' hseen')
      rw [← hentry] at hfetched
      simp only [if_pos hpos]
      generalize fetchDefault S job handle key buffer size lib₁.world = fetched at *
      obtain ⟨⟨n, buffer'⟩, w'⟩ := fetched
      dsimp only at hfetched hstays' ⊢
      cases hfetched with
      | given data there taken gives =>
        rw [if_neg gives.not_neg]
        exact ⟨hstays', .take there taken gives⟩
      | kept data there left neg =>
        rw [if_pos neg]
        have hneg' : (if n = S.plugin.persComErrNotFound then epersNokey else n) < 0 := by
          split
          · decide
          · exact neg
        obtain ⟨hlast, hlooked⟩ := ih hrest hneg' buffer' hstays'.homed
        refine ⟨hstays'.trans hlast, ?_⟩
        rw [hstays'.data] at hlooked
        refine hlooked.skip ?_ fun hnone => ?_
        · rw [there, Option.filter_some, if_neg (by rw [left]; exact Bool.false_ne_true)]
        · rw [hnone] at there
          cases there
      | missing none result =>
        replace result : n = S.plugin.persComErrNotFound := result
        have hn : n < 0 := result ▸ laws.notFound_neg
        rw [if_pos hn, if_pos result]
        obtain ⟨hlast, hlooked⟩ := ih hrest (show epersNokey < 0 by decide) buffer' hstays'.homed
        refine ⟨hstays'.trans hlast, ?_⟩
        rw [hstays'.data] at hlooked
        exact hlooked.skip (by rw [none]; rfl) fun _ _ => rfl
    · have hentry : entry = none := by
        rw [← hplace, Place.entry, placeOf, hhome]
        rfl
      rw [if_neg (not_le.mpr hfail)]
      obtain ⟨hlast, hlooked⟩ := ih hrest hneg buffer hstays.homed
      refine ⟨hstays.trans hlast, ?_⟩
      rw [hstays.data] at hlooked
      exact hlooked.skip (by rw [hentry]; rfl) fun _ hbefore => hbefore

end Lookups

section Resources

variable (S) in
def lookup (job : PersGetDefault) (dbPath key resourceID : CStr) (info : PersistenceInfo)
    (buffer : Bytes) (size : ℤ) (lib : Library W) : (ℤ × Bytes) × Library W :=
  let (handleDB, lib) := databaseGet S info dbPath (.policy info.configKey.policy) lib
  if 0 ≤ handleDB then
    let ((readSize, buffer), world) := fetchDefault S job handleDB key buffer size lib.world
    let lib := { lib with world }
    if readSize < 0 then persGetDefaults S dbPath resourceID info buffer size job lib
    else ((readSize, buffer), lib)
  else ((-1, buffer), lib)

def shelfOf (S : Setup W) (w : W) (info : PersistenceInfo) (dbPath key resourceID : CStr) :
    Shelf where
  own := placeOf S w info dbPath key (.policy info.configKey.policy)
  configurable := placeOf S w info dbPath resourceID .confdefault
  factory := placeOf S w info dbPath resourceID .default
  written := placeOf S w info dbPath (writtenKey info key resourceID) (writtenType info)
  shared := info.configKey.storage = .shared

def Among (R : Set Get) (info : PersistenceInfo) (dbPath : CStr) : Prop :=
  ∀ t ∈ [DbType.policy info.configKey.policy, .confdefault, .default], keyGet info dbPath t ∈ R

variable {info : PersistenceInfo} {dbPath key resourceID : CStr}

theorem persistenceGetData_lookup (hstorage : info.configKey.storage = .local ∨
    info.configKey.storage = .shared) (laws : DatabaseLaws S.plugin V) (buffer : Bytes) (size : ℤ) :
    persistenceGetData S dbPath key resourceID info buffer size lib =
      some (lookup S .data dbPath key resourceID info buffer size lib) := by
  obtain ⟨f, hf⟩ := Option.isSome_iff_exists.mp laws.read_loaded
  rw [persistenceGetData_stored_eq hstorage, lookup]
  simp only [fetchDefault, hf]
  split
  · split <;> rfl
  · rfl

theorem persistenceGetDataSize_lookup (hstorage : info.configKey.storage = .local ∨
    info.configKey.storage = .shared) (laws : DatabaseLaws S.plugin V) :
    persistenceGetDataSize S dbPath key resourceID info lib =
      ((lookup S .size dbPath key resourceID info [] 0 lib).1.1,
        (lookup S .size dbPath key resourceID info [] 0 lib).2) := by
  obtain ⟨f, hf⟩ := Option.isSome_iff_exists.mp laws.size_loaded
  rw [persistenceGetDataSize_stored_eq hstorage, lookup]
  simp only [fetchDefault, hf]
  split
  · split <;> rfl
  · rfl

/-- The entries of a resource, in their order. -/
def Shelf.entries (shelf : Shelf) (v : Volume) : List (Option Bytes) :=
  [shelf.own.entry v, shelf.configurable.entry v, shelf.factory.entry v]

theorem Shelf.first_eq (shelf : Shelf) (v : Volume) (takes : Bytes → Bool) :
    shelf.first v takes = (shelf.entries v).findSome? (Option.filter takes) := by
  simp only [first, entries, List.findSome?_cons, List.findSome?_nil]

theorem Shelf.bare_iff {shelf : Shelf} {v : Volume} :
    shelf.Bare v ↔ ∀ entry ∈ shelf.entries v, entry = none := by
  rw [Bare, first_eq, List.findSome?_eq_none_iff]
  refine forall₂_congr fun entry _ => ?_
  cases entry <;> simp

theorem lookup_looked (laws : DatabaseLaws S.plugin V) (hR : Separate S R) (w : W)
    (hamong : Among R info dbPath) (h : Homed S V R lib) (job : PersGetDefault)
    (key resourceID : CStr) (buffer : Bytes) (size : ℤ) :
    Stays S V R lib (lookup S job dbPath key resourceID info buffer size lib).2 ∧
      (((shelfOf S w info dbPath key resourceID).own.file = none ∧
          (lookup S job dbPath key resourceID info buffer size lib).1 = (-1, buffer)) ∨
        ((shelfOf S w info dbPath key resourceID).own.file.isSome ∧
          Looked job size ((shelfOf S w info dbPath key resourceID).entries (V.data lib.world))
            epersNokey (lookup S job dbPath key resourceID info buffer size lib).1)) := by
  have hgot := h.get laws hR w (hamong (.policy info.configKey.policy) (by simp))
  replace hgot : Got S V R w lib (keyGet info dbPath (.policy info.configKey.policy))
    (databaseGet S info dbPath (.policy info.configKey.policy) lib).1
    (databaseGet S info dbPath (.policy info.configKey.policy) lib).2 := hgot
  have hdefaults : ∀ t ∈ [DbType.confdefault, .default], keyGet info dbPath t ∈ R :=
    fun t ht => hamong t (List.mem_cons_of_mem _ ht)
  unfold lookup
  generalize databaseGet S info dbPath (.policy info.configKey.policy) lib = got at *
  obtain ⟨handle, lib₁⟩ := got
  dsimp only at hgot ⊢
  obtain ⟨hstays, ⟨path, hhome, hpos, hbound⟩ | ⟨hhome, hfail⟩⟩ := hgot
  swap
  · rw [if_neg (not_le.mpr hfail)]
    exact ⟨hstays, Or.inl ⟨hhome, rfl⟩⟩
  have hown : (shelfOf S w info dbPath key resourceID).own.entry (V.data lib.world) =
      V.data lib₁.world path key := by
    rw [hstays.data, Place.entry, shelfOf, placeOf, hhome]
    rfl
  have hfile : (shelfOf S w info dbPath key resourceID).own.file.isSome :=
    Option.isSome_of_mem hhome
  obtain ⟨hfetched, hbound', hseen'⟩ := fetchDefault_fetched laws job hbound key buffer size
  have hstays' := hstays.trans (hstays.homed.world laws hbound' hseen')
  rw [← hown] at hfetched
  simp only [if_pos hpos]
  generalize fetchDefault S job handle key buffer size lib₁.world = fetched at *
  obtain ⟨⟨n, buffer'⟩, w'⟩ := fetched
  dsimp only at hfetched hstays' ⊢
  -- the defaults follow where the entry of the resource itself is not given
  have hrest := defaultsFrom_looked job size resourceID laws hR w hdefaults
    (show epersNokey < 0 by decide) buffer' hstays'.homed
  rw [hstays'.data] at hrest
  cases hfetched with
  | given data there taken gives =>
    rw [if_neg gives.not_neg]
    exact ⟨hstays', Or.inr ⟨hfile, .take there taken gives⟩⟩
  | kept data there left neg =>
    rw [if_pos neg]
    refine ⟨hstays'.trans hrest.1, Or.inr ⟨hfile, hrest.2.skip ?_ fun _ _ => rfl⟩⟩
    rw [there, Option.filter_some, if_neg (by rw [left]; exact Bool.false_ne_true)]
  | missing none result =>
    replace result : n = S.plugin.persComErrNotFound := result
    rw [if_pos (result ▸ laws.notFound_neg)]
    refine ⟨hstays'.trans hrest.1, Or.inr ⟨hfile, hrest.2.skip ?_ fun _ _ => rfl⟩⟩
    rw [none]
    rfl

end Resources

section Answering

variable {info : PersistenceInfo} {dbPath key resourceID : CStr} {shelf : Shelf} {told : Bool}
  {v : Volume} {r : ℤ × Bytes}

theorem Looked.answers_read {size : ℤ} (h : Looked .data size (shelf.entries v) epersNokey r)
    (hfile : shelf.own.file.isSome) (buffer : Bytes) :
    shelf.Answers told v (.read buffer size) r v := by
  cases hfirst : shelf.first v (fits size) with
  | some data => exact .read buffer size hfile hfirst (h.found data (shelf.first_eq v _ ▸ hfirst))
  | none =>
    refine .unread buffer size hfile hfirst (h.unread (shelf.first_eq v _ ▸ hfirst)) fun hbare => ?_
    exact h.bare (Shelf.bare_iff.mp hbare) rfl

theorem Looked.answers_size {size : ℤ} (h : Looked .size size (shelf.entries v) epersNokey r)
    (hfile : shelf.own.file.isSome) : shelf.Answers told v .getSize (r.1, []) v := by
  cases hfirst : shelf.first v (fun _ => true) with
  | some data =>
    have hlength : r.1 = data.length := h.found data (shelf.first_eq v _ ▸ hfirst)
    rw [hlength]
    exact .size hfile hfirst
  | none =>
    rw [h.bare (Shelf.bare_iff.mp hfirst) rfl]
    exact .unsized hfile hfirst

theorem enqueue_beside (frame : CallFrame) (data : MainLoopData) (lib : Library W) :
    Beside V lib (enqueue frame data lib) := by
  unfold enqueue
  split
  · exact ⟨rfl, rfl, rfl, rfl, rfl⟩
  · exact .refl lib

theorem Homed.enqueue (laws : DatabaseLaws S.plugin V) (h : Homed S V R lib) (frame : CallFrame)
    (data : MainLoopData) : Homed S V R (enqueue frame data lib) := by
  have htable : (Key.enqueue frame data lib).gHandlesDB = lib.gHandlesDB := by
    unfold Key.enqueue
    split <;> rfl
  exact h.keep laws htable (by rw [enqueue_world])

variable (laws : DatabaseLaws S.plugin V) (hR : Separate S R) (w : W)
  (hstorage : info.configKey.storage = .local ∨ info.configKey.storage = .shared)
  (hamong : Among R info dbPath) (h : Homed S V R lib) (frame : CallFrame)
include laws hR hstorage hamong h

variable (key resourceID) in
theorem persistenceSetData_answers (buffer : Bytes) (size : ℤ) :
    let ended := persistenceSetData S frame dbPath key resourceID info buffer size lib
    Homed S V R ended.2 ∧ Beside V lib ended.2 ∧
      (shelfOf S w info dbPath key resourceID).Answers frame.written (V.data lib.world)
        (.write buffer size) (ended.1, []) (V.data ended.2.world) := by
  have hmem : keyGet info dbPath (writtenType info) ∈ R := by
    apply hamong
    unfold writtenType
    split <;> simp
  have hgot : Got S V R w lib (keyGet info dbPath (writtenType info))
    (databaseGet S info dbPath (writtenType info) lib).1
    (databaseGet S info dbPath (writtenType info) lib).2 := h.get laws hR w hmem
  dsimp only
  rw [persistenceSetData_stored_eq hstorage]
  generalize databaseGet S info dbPath (writtenType info) lib = got at *
  obtain ⟨handle, lib₁⟩ := got
  dsimp only at hgot ⊢
  obtain ⟨hstays, ⟨path, hhome, hpos, hbound⟩ | ⟨-, hfail⟩⟩ := hgot
  swap
  · rw [if_neg (not_le.mpr hfail), ← hstays.data]
    exact ⟨hstays.homed, hstays.beside, .refused buffer size (show epersNoprctable < 0 by decide)⟩
  rw [if_pos hpos, ← hstays.data]
  cases hf : S.plugin.persComDbWriteKey with
  | none =>
    exact ⟨hstays.homed, hstays.beside,
      .refused buffer size (show epersNoPluginFunct < 0 by decide)⟩
  | some f =>
    have hwrite := laws.write f hf handle path (writtenKey info key resourceID) buffer size
      lib₁.world hbound
    have htables := laws.write_tables f hf handle (writtenKey info key resourceID) buffer size
      lib₁.world
    have hkeeps := laws.handles.writeKey f hf handle (writtenKey info key resourceID) buffer size
      lib₁.world
    dsimp only
    generalize f handle (writtenKey info key resourceID) buffer size lib₁.world = written at *
    obtain ⟨writeSize, w'⟩ := written
    dsimp only at hwrite htables hkeeps ⊢
    have hhomed : Homed S V R { lib₁ with world := w' } := hstays.homed.keep laws rfl hkeeps
    have hbeside := hstays.beside.trans (Beside.world htables)
    split
    · rename_i hneg
      rw [if_neg (not_le.mpr hneg)] at hwrite
      dsimp only
      rw [hwrite]
      exact ⟨hhomed, hbeside, .refused buffer size hneg⟩
    · rename_i hneg
      rw [if_pos (not_lt.mp hneg)] at hwrite
      split
      · rename_i hshared
        rw [notifyChanged_eq]
        dsimp only
        rw [enqueue_world]
        dsimp only
        rw [hwrite]
        refine ⟨hhomed.enqueue laws .., hbeside.trans (enqueue_beside ..),
          .write buffer size hhome ?_⟩
        split
        · exact Or.inl (not_lt.mp hneg)
        · rename_i htold
          refine Or.inr ⟨?_, Bool.eq_false_of_not_eq_true htold, rfl⟩
          simp [shelfOf, hshared]
      · dsimp only
        rw [hwrite]
        exact ⟨hhomed, hbeside, .write buffer size hhome (Or.inl (not_lt.mp hneg))⟩

variable (key resourceID) in
theorem persistenceDeleteData_answers :
    let ended := persistenceDeleteData S frame dbPath key resourceID info lib
    Homed S V R ended.2 ∧ Beside V lib ended.2 ∧
      (shelfOf S w info dbPath key resourceID).Answers frame.written (V.data lib.world) .delete
        (ended.1, []) (V.data ended.2.world) := by
  have hnot : info.configKey.storage ≠ .custom := by
    rcases hstorage with hs | hs <;> rw [hs] <;> decide
  have hgot : Got S V R w lib (keyGet info dbPath (.policy info.configKey.policy))
    (databaseGet S info dbPath (.policy info.configKey.policy) lib).1
    (databaseGet S info dbPath (.policy info.configKey.policy) lib).2 :=
    h.get laws hR w (hamong _ (by simp))
  obtain ⟨f, hf⟩ := Option.isSome_iff_exists.mp laws.delete_loaded
  dsimp only
  rw [persistenceDeleteData, if_pos hnot, hf]
  generalize databaseGet S info dbPath (.policy info.configKey.policy) lib = got at *
  obtain ⟨handle, lib₁⟩ := got
  dsimp only at hgot ⊢
  obtain ⟨hstays, ⟨path, hhome, hpos, hbound⟩ | ⟨hhome, hfail⟩⟩ := hgot
  swap
  · rw [if_neg (not_le.mpr hfail), hstays.data]
    exact ⟨hstays.homed, hstays.beside, .shutDelete hhome⟩
  rw [if_pos hpos, ← hstays.data]
  obtain ⟨hresult, hdelete⟩ := laws.delete f hf handle path key lib₁.world hbound
  have htables := laws.delete_tables f hf handle key lib₁.world
  have hkeeps := laws.handles.deleteKey f hf handle key lib₁.world
  generalize f handle key lib₁.world = deleted at *
  obtain ⟨ret, w'⟩ := deleted
  dsimp only at hresult hdelete htables hkeeps ⊢
  have hhomed : Homed S V R { lib₁ with world := w' } := hstays.homed.keep laws rfl hkeeps
  have hbeside := hstays.beside.trans (Beside.world htables)
  -- the result told to the application
  have hret : ∀ ret', ret' = (if ret < 0 then
      if ret = S.plugin.persComErrNotFound then epersNokey else epersDbErrorInternal else ret) →
      if ((shelfOf S w info dbPath key resourceID).own.entry (V.data lib₁.world)).isSome then
        0 ≤ ret'
      else ret' = epersNokey := by
    rintro ret' rfl
    have hentry : (shelfOf S w info dbPath key resourceID).own.entry (V.data lib₁.world) =
        V.data lib₁.world path key := by
      rw [Place.entry, shelfOf, placeOf, hhome]
      rfl
    rw [hentry]
    split
    · rename_i hthere
      rw [if_pos hthere] at hresult
      rw [if_neg (not_lt.mpr hresult)]
      exact hresult
    · rename_i hthere
      rw [if_neg hthere] at hresult
      rw [if_pos (hresult ▸ laws.notFound_neg), if_pos hresult]
  split
  · rw [persSendNotificationSignal_eq (Or.inr rfl)]
    dsimp only
    rw [enqueue_world]
    dsimp only
    rw [hdelete]
    exact ⟨hhomed.enqueue laws .., hbeside.trans (enqueue_beside ..), .delete hhome (hret _ rfl)⟩
  · dsimp only
    rw [hdelete]
    exact ⟨hhomed, hbeside, .delete hhome (hret _ rfl)⟩

variable (info dbPath) in
theorem reach_answers {X : KeyResource} {ctx : DbContext}
    (hinfo : info = ⟨X.context, ctx.configKey⟩) (hpath : dbPath = ctx.dbPath) (access : KeyAccess) :
    ∃ r lib', access.reach S frame X ctx lib = some (r, lib') ∧ Homed S V R lib' ∧
      Beside V lib lib' ∧ (shelfOf S w info dbPath ctx.dbKey X.resourceId).Answers frame.written
        (V.data lib.world) access r (V.data lib'.world) := by
  subst hinfo hpath
  cases access with
  | delete =>
    have hended := persistenceDeleteData_answers ctx.dbKey X.resourceId laws hR w hstorage hamong h
      frame
    exact ⟨_, _, rfl, hended⟩
  | write buffer size =>
    have hended := persistenceSetData_answers ctx.dbKey X.resourceId laws hR w hstorage hamong h
      frame buffer size
    exact ⟨_, _, rfl, hended⟩
  | getSize =>
    obtain ⟨hstays, hlooked⟩ := lookup_looked laws hR w hamong h .size ctx.dbKey X.resourceId [] 0
    have hreach : KeyAccess.getSize.reach S frame X ctx lib =
        some (((lookup S .size ctx.dbPath ctx.dbKey X.resourceId ⟨X.context, ctx.configKey⟩ [] 0
          lib).1.1, []), (lookup S .size ctx.dbPath ctx.dbKey X.resourceId
            ⟨X.context, ctx.configKey⟩ [] 0 lib).2) := by
      rw [KeyAccess.reach, persistenceGetDataSize_lookup hstorage laws]
    generalize lookup S .size ctx.dbPath ctx.dbKey X.resourceId ⟨X.context, ctx.configKey⟩ [] 0
      lib = looked at *
    refine ⟨(looked.1.1, []), looked.2, hreach, ?_⟩
    rw [hstays.data]
    refine ⟨hstays.homed, hstays.beside, ?_⟩
    rcases hlooked with ⟨hshut, hresult⟩ | ⟨hfile, hlooked⟩
    · rw [hresult]
      exact .shutSize hshut
    · exact hlooked.answers_size hfile
  | read buffer size =>
    obtain ⟨hstays, hlooked⟩ := lookup_looked laws hR w hamong h .data ctx.dbKey X.resourceId
      buffer size
    have hreach : (KeyAccess.read buffer size).reach S frame X ctx lib =
        some (lookup S .data ctx.dbPath ctx.dbKey X.resourceId ⟨X.context, ctx.configKey⟩ buffer
          size lib) := persistenceGetData_lookup hstorage laws buffer size
    generalize lookup S .data ctx.dbPath ctx.dbKey X.resourceId ⟨X.context, ctx.configKey⟩ buffer
      size lib = looked at *
    refine ⟨looked.1, looked.2, hreach, ?_⟩
    rw [hstays.data]
    refine ⟨hstays.homed, hstays.beside, ?_⟩
    rcases hlooked with ⟨hshut, hresult⟩ | ⟨hfile, hlooked⟩
    · rw [hresult]
      exact .shutRead buffer size hshut
    · exact hlooked.answers_read hfile buffer

end Answering

end PersClient.Key
