import PersClient.Access.Budget
import PersClient.Key.Files
import PersClient.Key.HandleCache
import PersClient.Key.Sequences
import PersClient.Lib.Turns

/-! # The life of the custom libraries

An initialisation of the library loads the custom libraries that are configured
for it, a key call loads one on demand, and a shutdown deinitialises what is
loaded. So each library is initialised, then used, then deinitialised, and never
used or initialised twice out of this turn, over any session of an application.
-/

namespace PersClient.Key

open File Handle Access Prct Turns

variable {W : Type}

section Loading

/-- `check_valid_idx`, where the configuration leaves these marks. -/
def checkValidIdx (valid : PersistenceCustomLibs → ℤ) (idx : PersistenceCustomLibs) : ℤ :=
  if idx = .lastEntry then -1 else valid idx

def invalidateCustomPlugin (idx : PersistenceCustomLibs) (lib : Library W) : Library W :=
  { lib with gPersCustomFuncs := Function.update lib.gPersCustomFuncs idx {} }

/-- A turn of the loop of `load_custom_plugins`; the result is that of the last load. -/
def loadConfigured (plugin : Plugin W) (valid : PersistenceCustomLibs → ℤ) (s : ℤ × Library W)
    (idx : PersistenceCustomLibs) : ℤ × Library W :=
  if checkValidIdx valid idx ≠ -1 then
    if (plugin.gCustomLibArray idx).loadingType = .pclInit then loadCustomLibrary plugin idx s.2
    else s
  else s

/-- `load_custom_plugins`, where `get_custom_libraries` leaves these marks; `none`
where it fails. -/
def loadCustomPlugins (plugin : Plugin W) (config : Option (PersistenceCustomLibs → ℤ))
    (lib : Library W) : ℤ × Library W :=
  match config with
  | none => (epersCommon, lib)
  | some valid =>
    customLibs.foldl (loadConfigured plugin valid)
      (0, customLibs.foldl (fun lib idx => invalidateCustomPlugin idx lib) lib)

/-- What the rest of an initialisation meets: whether the main loop runs or can
be set up, and the marks of `get_custom_libraries`. -/
structure InitEnv where
  mainloop : Bool := true
  config : Option (PersistenceCustomLibs → ℤ)

/-- `private_pclInitLibrary`, built without the interface to the administrator. -/
def privatePclInitLibrary (plugin : Plugin W) (env : InitEnv) (lib : Library W) : ℤ × Library W :=
  if ¬ env.mainloop then (epersDbusMainloop, lib)
  else
    let (rval, lib) := loadCustomPlugins plugin env.config lib
    if rval < 0 then (rval, lib)
    else
      (rval, { lib with client := { lib.client with
        gKeyHandleTree := some Tree.new
        loop := persUnlockAccess lib.client.loop } })

def pclInitLibrary (plugin : Plugin W) (appName : Option CStr) (env : InitEnv) (lib : Library W) :
    ℤ × Library W :=
  match appName with
  | none => (epersCommon, lib)
  | some name =>
    if 0 < name.length ∧ name.length < 256 then
      if lib.client.gPclInitCounter = 0 then
        let (rval, lib) := privatePclInitLibrary plugin env lib
        if 0 ≤ rval then
          (rval, { lib with client := { lib.client with
            gPclInitCounter := lib.client.gPclInitCounter + 1 } })
        else (rval, lib)
      else
        (1, { lib with client := { lib.client with
          gPclInitCounter := lib.client.gPclInitCounter + 1 } })
    else (epersCommon, lib)

/-- `pclDeinitLibrary`, behind the main loop that has worked through its pipe and
has ended; `rval` is the result of `unregister_lifecycle`, or 1 without it. -/
def pclDeinitLibrary (S : Setup W) (rval : ℤ) (lib : Library W) : ℤ × Library W :=
  if lib.client.gPclInitCounter = 1 then
    let lib := processPrepareShutdown S shutdownFull lib
    (rval, { lib with
      gNotificationTree := none
      client := { lib.client with
        gKeyHandleTree := none
        gFileHandleTree := none
        gOssFileHandleTree := none
        gRbTreeBl := none
        gPclInitCounter := lib.client.gPclInitCounter - 1 } })
  else if lib.client.gPclInitCounter > 1 then
    (1, { lib with client := { lib.client with
      gPclInitCounter := lib.client.gPclInitCounter - 1 } })
  else (epersNotInitialized, lib)

end Loading

section Sessions

/-- What happens to a library in the life of a process. -/
inductive LifeStep
  | initLibrary (appName : Option CStr) (env : InitEnv)
  | call (frame : CallFrame) (call : KeyCall)
  | shutdown (complete : UInt32)
  /-- anything that only touches the rest of the state -/
  | elsewhere (client : Client)
  | deinitLibrary (rval : ℤ)

/-- The library after a step; `none` where a call does not return. -/
def LifeStep.next (S : Setup W) (lib : Library W) : LifeStep → Option (Library W)
  | initLibrary appName env => some (pclInitLibrary S.plugin appName env lib).2
  | call frame keyCall => (keyCall.perform S frame lib).map Prod.snd
  | shutdown complete => some (processPrepareShutdown S complete lib)
  | elsewhere client =>
    some { lib with client := { client with gPclInitCounter := lib.client.gPclInitCounter } }
  | deinitLibrary rval => some (pclDeinitLibrary S rval lib).2

def life (S : Setup W) (lib : Library W) (steps : List LifeStep) : Option (Library W) :=
  steps.foldlM (LifeStep.next S) lib

/-- What is done with a custom library. -/
inductive LibraryCall
  | init
  | use
  | deinit
  deriving DecidableEq, Repr

/-- A library is initialised while it is down, and used and deinitialised while it is up. -/
def LibraryCall.next (up : Bool) : LibraryCall → Option Bool
  | init => if up then none else some true
  | use => if up then some true else none
  | deinit => if up then some false else none

/-- The functions of a library note under its name that they were called. -/
structure NotedFuncts (name : CStr) (functs : PersCustomFuncts W)
    (noted : W → List (CStr × LibraryCall)) : Prop where
  init : ∀ f, functs.customPluginInit = some f → ∀ w, noted (f w) = noted w ++ [(name, .init)]
  initAsync : ∀ f, functs.customPluginInitAsync = some f → ∀ w,
    noted (f w) = noted w ++ [(name, .init)]
  deinit : ∀ f, functs.customPluginDeinit = some f → ∀ w, noted (f w) = noted w ++ [(name, .deinit)]
  getSize : ∀ f, functs.customPluginGetSize = some f → ∀ key w,
    noted (f key w).2 = noted w ++ [(name, .use)]
  getData : ∀ f, functs.customPluginGetData = some f → ∀ key buffer size w,
    noted (f key buffer size w).2 = noted w ++ [(name, .use)]
  setData : ∀ f, functs.customPluginSetData = some f → ∀ key buffer size w,
    noted (f key buffer size w).2 = noted w ++ [(name, .use)]
  deleteData : ∀ f, functs.customPluginDeleteData = some f → ∀ key w,
    noted (f key w).2 = noted w ++ [(name, .use)]

/-- The calls of custom libraries are noted, and no others. -/
structure NotedLaws (plugin : Plugin W) (noted : W → List (CStr × LibraryCall)) : Prop where
  dbOpen : ∀ f, plugin.persComDbOpen = some f → ∀ path flags w, noted (f path flags w).2 = noted w
  dbClose : ∀ f, plugin.persComDbClose = some f → ∀ handle w, noted (f handle w).2 = noted w
  writeKey : ∀ f, plugin.persComDbWriteKey = some f → ∀ handle key buffer size w,
    noted (f handle key buffer size w).2 = noted w
  readKey : ∀ f, plugin.persComDbReadKey = some f → ∀ handle key buffer size w,
    noted (f handle key buffer size w).2 = noted w
  getKeySize : ∀ f, plugin.persComDbGetKeySize = some f → ∀ handle key w,
    noted (f handle key w).2 = noted w
  deleteKey : ∀ f, plugin.persComDbDeleteKey = some f → ∀ handle key w,
    noted (f handle key w).2 = noted w
  rctOpen : ∀ f, plugin.persComRctOpen = some f → ∀ path flags w, noted (f path flags w).2 = noted w
  rctClose : ∀ f, plugin.persComRctClose = some f → ∀ handle w, noted (f handle w).2 = noted w
  rctRead : ∀ f, plugin.persComRctRead = some f → ∀ handle id w, noted (f handle id w).2 = noted w
  custom : ∀ name functs, plugin.dlopen name = some functs → NotedFuncts name functs noted

/-- The slots of libraries with custom functions. -/
def Custom (idx : PersistenceCustomLibs) : Prop := idx ≠ .default ∧ idx ≠ .lastEntry

instance (idx : PersistenceCustomLibs) : Decidable (Custom idx) := by
  unfold Custom
  infer_instance

/-- The library can be initialised in this way. -/
def PersInitType.Served (functs : PersCustomFuncts W) : PersInitType → Prop
  | synchronous => functs.customPluginInit.isSome
  | asynchronous => functs.customPluginInitAsync.isSome
  | undefined => False

/-- The libraries that are there export what they are asked for, and each is
configured for one slot. -/
structure Complete (plugin : Plugin W) : Prop where
  init : ∀ idx, Custom idx → ∀ functs, plugin.dlopen (plugin.gCustomLibArray idx).libname = some functs →
    (plugin.gCustomLibArray idx).initFunction.Served functs
  deinit : ∀ idx, Custom idx → ∀ functs,
    plugin.dlopen (plugin.gCustomLibArray idx).libname = some functs →
      functs.customPluginDeinit.isSome
  onDemand : ∀ idx, Custom idx → ∀ functs,
    plugin.dlopen (plugin.gCustomLibArray idx).libname = some functs →
      (plugin.gCustomLibArray idx).loadingType = .onDemand → functs.customPluginGetSize.isSome ∧
        functs.customPluginSetData.isSome ∧ functs.customPluginDeleteData.isSome
  distinct : ∀ idx idx', Custom idx → Custom idx' →
    (plugin.dlopen (plugin.gCustomLibArray idx).libname).isSome →
      (plugin.gCustomLibArray idx).libname = (plugin.gCustomLibArray idx').libname → idx = idx'

/-- The libraries to load at an initialisation are there. -/
def InitEnv.Startable (plugin : Plugin W) (env : InitEnv) : Prop :=
  ∀ valid, env.config = some valid → ∀ idx, checkValidIdx valid idx ≠ -1 →
    (plugin.gCustomLibArray idx).loadingType = .pclInit →
      (plugin.dlopen (plugin.gCustomLibArray idx).libname).isSome

def LifeStep.Startable (plugin : Plugin W) : LifeStep → Prop
  | initLibrary _ env => env.Startable plugin
  | call _ _ | shutdown _ | elsewhere _ | deinitLibrary _ => True

end Sessions

section Uncalled

variable {S : Setup W} {noted : W → List (CStr × LibraryCall)} {lib lib' : Library W}

/-- The functions that are loaded are those of the library of their slot, and
every library is in turn, up exactly while its functions are loaded. -/
structure InTurn (plugin : Plugin W) (noted : W → List (CStr × LibraryCall)) (lib : Library W) :
    Prop where
  functs : ∀ idx, lib.gPersCustomFuncs idx = {} ∨
    Custom idx ∧ plugin.dlopen (plugin.gCustomLibArray idx).libname = some (lib.gPersCustomFuncs idx)
  turn : ∀ idx, Custom idx →
    stateAfter LibraryCall.next false (plugin.gCustomLibArray idx).libname (noted lib.world) =
      some (lib.gPersCustomFuncs idx).customPluginDeinit.isSome

structure Uncalled (noted : W → List (CStr × LibraryCall)) (lib lib' : Library W) : Prop where
  noted : noted lib'.world = noted lib.world
  functs : lib'.gPersCustomFuncs = lib.gPersCustomFuncs
  counter : lib'.client.gPclInitCounter = lib.client.gPclInitCounter

theorem Uncalled.refl (lib : Library W) : Uncalled noted lib lib := ⟨rfl, rfl, rfl⟩

theorem Uncalled.trans {lib'' : Library W} (h : Uncalled noted lib lib') (h' : Uncalled noted lib' lib'') :
    Uncalled noted lib lib'' :=
  ⟨h'.noted.trans h.noted, h'.functs.trans h.functs, h'.counter.trans h.counter⟩

theorem Uncalled.world {w : W} (h : noted w = noted lib.world) :
    Uncalled noted lib { lib with world := w } := ⟨h, rfl, rfl⟩

theorem InTurn.uncalled (h : InTurn S.plugin noted lib) (huncalled : Uncalled noted lib lib') :
    InTurn S.plugin noted lib' := by
  constructor
  · rw [huncalled.functs]
    exact h.functs
  · rw [huncalled.noted, huncalled.functs]
    exact h.turn

structure Called (plugin : Plugin W) (noted : W → List (CStr × LibraryCall)) (lib lib' : Library W) :
    Prop where
  turn : InTurn plugin noted lib'
  counter : lib'.client.gPclInitCounter = lib.client.gPclInitCounter

theorem InTurn.called (h : InTurn S.plugin noted lib) (huncalled : Uncalled noted lib lib') :
    Called S.plugin noted lib lib' := ⟨h.uncalled huncalled, huncalled.counter⟩

theorem Called.uncalled {lib'' : Library W} (h : Called S.plugin noted lib lib')
    (huncalled : Uncalled noted lib' lib'') : Called S.plugin noted lib lib'' :=
  ⟨h.turn.uncalled huncalled, huncalled.counter.trans h.counter⟩

variable (laws : NotedLaws S.plugin noted)
include laws

theorem databaseGet_uncalled (info : PersistenceInfo) (dbPath : CStr) (t : DbType) (lib : Library W) :
    Uncalled noted lib (databaseGet S info dbPath t lib).2 := by
  unfold databaseGet
  split
  · split
    · exact .refl lib
    · split
      · exact .refl lib
      · split
        · exact .refl lib
        · rename_i dbOpen hopen
          dsimp only
          split <;> exact ⟨laws.dbOpen dbOpen hopen .., rfl, rfl⟩
  · exact .refl lib

theorem fetchDefault_noted (job : PersGetDefault) (handle : ℤ) (key : CStr) (buffer : Bytes)
    (size : ℤ) (w : W) : noted (fetchDefault S job handle key buffer size w).2 = noted w := by
  cases job with
  | data =>
    unfold fetchDefault
    dsimp only
    split
    · exact laws.readKey _ ‹_› ..
    · rfl
  | size =>
    unfold fetchDefault
    dsimp only
    split
    · exact laws.getKeySize _ ‹_› ..
    · rfl

theorem defaultsFrom_uncalled (dbPath key : CStr) (info : PersistenceInfo) (size : ℤ)
    (job : PersGetDefault) (ts : List DbType) (readSize : ℤ) (buffer : Bytes) (lib : Library W) :
    Uncalled noted lib (defaultsFrom S dbPath key info size job ts readSize buffer lib).2 := by
  induction ts generalizing readSize buffer lib with
  | nil => exact .refl lib
  | cons t ts ih =>
    unfold defaultsFrom
    have hget := databaseGet_uncalled laws info dbPath t lib
    generalize databaseGet S info dbPath t lib = got at *
    obtain ⟨handle, lib₁⟩ := got
    dsimp only at hget ⊢
    split
    · have hfetch := fetchDefault_noted laws job handle key buffer size lib₁.world
      generalize fetchDefault S job handle key buffer size lib₁.world = fetched at *
      obtain ⟨⟨n, buffer'⟩, w'⟩ := fetched
      have hread := hget.trans (Uncalled.world hfetch)
      dsimp only
      split
      · exact hread.trans (ih ..)
      · exact hread
    · exact hget.trans (ih ..)

theorem customDefaults_uncalled (dbPath resourceID : CStr) (info : PersistenceInfo) (buffer : Bytes)
    (size : ℤ) (job : PersGetDefault) (readSize : ℤ) (lib : Library W) :
    Uncalled noted lib (customDefaults S dbPath resourceID info buffer size job readSize lib).2 := by
  unfold customDefaults
  split
  · exact defaultsFrom_uncalled laws ..
  · exact .refl lib

theorem getDbContext_uncalled (frame : CallFrame) (X : KeyResource) (lib : Library W) :
    Uncalled noted lib (getDbContext S frame X.context X.resourceId false lib).2 := by
  have htable : ∀ rct group, Uncalled noted lib (getResourceCfgTable S rct group lib).2 := by
    intro rct group
    unfold getResourceCfgTable openResourceCfgTable
    dsimp only
    split
    · split
      · exact .refl lib
      · split
        · exact ⟨rfl, rfl, rfl⟩
        · exact ⟨laws.rctOpen _ ‹_› .., rfl, rfl⟩
    · exact .refl lib
  unfold getDbContext lookupEntry
  dsimp only
  split
  · split
    · exact htable ..
    · exact (htable ..).trans (.world (laws.rctRead _ ‹_› ..))
  · exact htable ..

end Uncalled

section Turns

variable {S : Setup W} {noted : W → List (CStr × LibraryCall)} {lib : Library W}
  {idx : PersistenceCustomLibs}

theorem InTurn.loaded (h : InTurn S.plugin noted lib) (hne : lib.gPersCustomFuncs idx ≠ {}) :
    Custom idx ∧
      S.plugin.dlopen (S.plugin.gCustomLibArray idx).libname = some (lib.gPersCustomFuncs idx) :=
  (h.functs idx).resolve_left hne

theorem InTurn.down (h : InTurn S.plugin noted lib) (hidx : Custom idx)
    (hempty : lib.gPersCustomFuncs idx = {}) :
    stateAfter LibraryCall.next false (S.plugin.gCustomLibArray idx).libname (noted lib.world) =
      some false := by
  rw [h.turn idx hidx, hempty]
  rfl

theorem initCustomLibrary_served {functs : PersCustomFuncts W} {info : PersCustomLibInfo}
    {name : CStr} (hfuncts : NotedFuncts name functs noted) (hserved : info.initFunction.Served functs)
    (w : W) : (initCustomLibrary info functs w).1 = 1 ∧
      noted (initCustomLibrary info functs w).2 = noted w ++ [(name, .init)] := by
  unfold initCustomLibrary
  cases hinit : info.initFunction with
  | synchronous =>
    rw [hinit] at hserved
    obtain ⟨f, hf⟩ := Option.isSome_iff_exists.mp hserved
    rw [hf]
    exact ⟨rfl, hfuncts.init f hf w⟩
  | asynchronous =>
    rw [hinit] at hserved
    obtain ⟨f, hf⟩ := Option.isSome_iff_exists.mp hserved
    rw [hf]
    exact ⟨rfl, hfuncts.initAsync f hf w⟩
  | undefined =>
    rw [hinit] at hserved
    exact hserved.elim

variable (hcomplete : Complete S.plugin)
include hcomplete

theorem InTurn.up (h : InTurn S.plugin noted lib) (hne : lib.gPersCustomFuncs idx ≠ {}) :
    stateAfter LibraryCall.next false (S.plugin.gCustomLibArray idx).libname (noted lib.world) =
      some true := by
  obtain ⟨hidx, hopen⟩ := h.loaded hne
  rw [h.turn idx hidx, hcomplete.deinit idx hidx _ hopen]

theorem InTurn.others (h : InTurn S.plugin noted lib)
    (hopen : (S.plugin.dlopen (S.plugin.gCustomLibArray idx).libname).isSome) (hidx : Custom idx)
    {w : W} {call : LibraryCall}
    (hnoted : noted w = noted lib.world ++ [((S.plugin.gCustomLibArray idx).libname, call)])
    {other : PersistenceCustomLibs} (hother : Custom other) (hne : other ≠ idx) :
    stateAfter LibraryCall.next false (S.plugin.gCustomLibArray other).libname (noted w) =
      some (lib.gPersCustomFuncs other).customPluginDeinit.isSome := by
  rw [hnoted, stateAfter_other]
  · exact h.turn other hother
  · intro hname
    exact hne (hcomplete.distinct idx other hidx hother hopen hname).symm

theorem InTurn.use (h : InTurn S.plugin noted lib) (hne : lib.gPersCustomFuncs idx ≠ {}) {w : W}
    (hnoted : noted w = noted lib.world ++ [((S.plugin.gCustomLibArray idx).libname, .use)]) :
    InTurn S.plugin noted { lib with world := w } := by
  obtain ⟨hidx, hopen⟩ := h.loaded hne
  constructor
  · exact h.functs
  · intro other hother
    by_cases heq : other = idx
    · subst heq
      dsimp only
      rw [hnoted, stateAfter_self, h.up hcomplete hne, hcomplete.deinit other hidx _ hopen]
      rfl
    · exact h.others hcomplete (Option.isSome_of_mem hopen) hidx hnoted hother heq

variable (laws : NotedLaws S.plugin noted)
include laws

theorem InTurn.load (h : InTurn S.plugin noted lib) (hempty : lib.gPersCustomFuncs idx = {}) :
    InTurn S.plugin noted (loadCustomLibrary S.plugin idx lib).2 ∧
      (loadCustomLibrary S.plugin idx lib).2.client = lib.client ∧
      (idx ≠ .lastEntry → (S.plugin.dlopen (S.plugin.gCustomLibArray idx).libname).isSome →
        (loadCustomLibrary S.plugin idx lib).1 = 1) ∧
      ∀ other, other ≠ idx →
        (loadCustomLibrary S.plugin idx lib).2.gPersCustomFuncs other = lib.gPersCustomFuncs other := by
  unfold loadCustomLibrary
  split
  · rename_i hlast
    exact ⟨h, rfl, fun hne => absurd hlast hne, fun _ _ => rfl⟩
  rename_i hlast
  cases hopen : S.plugin.dlopen (S.plugin.gCustomLibArray idx).libname with
  | none => exact ⟨h, rfl, fun _ hsome => absurd hsome Bool.false_ne_true, fun _ _ => rfl⟩
  | some functs =>
    dsimp only
    split
    · exact ⟨h, rfl, fun _ _ => rfl, fun _ _ => rfl⟩
    rename_i hdefault
    have hidx : Custom idx := ⟨hdefault, hlast⟩
    obtain ⟨hresult, hnoted⟩ := initCustomLibrary_served
      (laws.custom _ functs hopen) (hcomplete.init idx hidx functs hopen) lib.world
    generalize initCustomLibrary (S.plugin.gCustomLibArray idx) functs lib.world = made at *
    obtain ⟨rval, w⟩ := made
    dsimp only at hresult hnoted ⊢
    refine ⟨⟨?_, ?_⟩, rfl, fun _ _ => hresult, fun other hne => Function.update_of_ne hne ..⟩
    · intro other
      dsimp only
      by_cases heq : other = idx
      · subst heq
        rw [Function.update_self]
        exact Or.inr ⟨hidx, hopen⟩
      · rw [Function.update_of_ne heq]
        exact h.functs other
    · intro other hother
      dsimp only
      by_cases heq : other = idx
      · subst heq
        rw [Function.update_self, hnoted, stateAfter_self, h.down hidx hempty,
          hcomplete.deinit other hidx functs hopen]
        rfl
      · rw [Function.update_of_ne heq]
        exact h.others hcomplete (Option.isSome_of_mem hopen) hidx hnoted hother heq

theorem InTurn.available (h : InTurn S.plugin noted lib) {present : PersCustomFuncts W → Bool}
    (hpresent : ∀ functs : PersCustomFuncts W, functs.customPluginGetSize.isSome →
      functs.customPluginSetData.isSome → functs.customPluginDeleteData.isSome →
        present functs = true) (wanted : PersCustomFuncts W → Bool) :
    Called S.plugin noted lib (customAvailable S.plugin idx present wanted lib).2 := by
  unfold customAvailable
  split
  · exact ⟨h, rfl⟩
  rename_i habsent
  cases hloading : (S.plugin.gCustomLibArray idx).loadingType with
  | pclInit | undefined => exact ⟨h, rfl⟩
  | onDemand =>
    have hempty : lib.gPersCustomFuncs idx = {} := by
      rcases h.functs idx with hempty | ⟨hidx, hopen⟩
      · exact hempty
      · -- a library on demand that is loaded has the function
        obtain ⟨hsize, hset, hdelete⟩ := hcomplete.onDemand idx hidx _ hopen hloading
        exact absurd (hpresent _ hsize hset hdelete) habsent
    obtain ⟨hload, hclient, -⟩ := h.load hcomplete laws hempty
    exact ⟨hload, congrArg Client.gPclInitCounter hclient⟩

theorem Called.use {lib₁ : Library W} (h : Called S.plugin noted lib lib₁)
    (hne : lib₁.gPersCustomFuncs idx ≠ {}) {w : W}
    (hnoted : NotedFuncts (S.plugin.gCustomLibArray idx).libname (lib₁.gPersCustomFuncs idx) noted →
      noted w = noted lib₁.world ++ [((S.plugin.gCustomLibArray idx).libname, .use)]) :
    Called S.plugin noted lib { lib₁ with world := w } :=
  ⟨h.turn.use hcomplete hne (hnoted (laws.custom _ _ (h.turn.loaded hne).2)), h.counter⟩

variable {info : PersistenceInfo} {dbPath key resourceID : CStr} {buffer : Bytes} {size : ℤ}

theorem persistenceGetData_called (h : InTurn S.plugin noted lib) {r : ℤ × Bytes} {lib' : Library W}
    (hget : persistenceGetData S dbPath key resourceID info buffer size lib = some (r, lib')) :
    Called S.plugin noted lib lib' := by
  have hlib : ∀ {result : (ℤ × Bytes) × Library W}, some result = some (r, lib') →
      lib' = result.2 := fun heq => (congrArg Prod.snd (Option.some.inj heq)).symm
  unfold persistenceGetData at hget
  cases hstorage : info.configKey.storage with
  | lastEntry =>
    simp only [hstorage] at hget
    cases hget
    exact h.called (.refl lib)
  | «local» | shared =>
    simp only [hstorage] at hget
    have hopen := databaseGet_uncalled laws info dbPath (.policy info.configKey.policy) lib
    generalize databaseGet S info dbPath (.policy info.configKey.policy) lib = got at *
    obtain ⟨handle, lib₁⟩ := got
    dsimp only at hopen hget
    split at hget
    · split at hget
      · cases hget
        exact h.called hopen
      · rename_i readKey hread
        have hnoted := laws.readKey readKey hread handle key buffer size lib₁.world
        split at hget
        · rw [hlib hget]
          exact h.called (hopen.trans ((Uncalled.world hnoted).trans (defaultsFrom_uncalled laws ..)))
        · cases hget
          exact h.called (hopen.trans (.world hnoted))
    · cases hget
      exact h.called hopen
  | custom =>
    simp only [hstorage] at hget
    split at hget
    swap
    · rw [hlib hget]
      exact h.called (customDefaults_uncalled laws ..)
    generalize customClientNameToId dbPath = idx at hget
    have hcalled := @InTurn.available W S noted lib idx hcomplete laws h
      (fun functs => functs.customPluginGetSize.isSome) (fun _ hsize _ _ => hsize)
      (fun functs => functs.customPluginGetData.isSome)
    generalize customAvailable S.plugin idx (fun functs => functs.customPluginGetSize.isSome)
      (fun functs => functs.customPluginGetData.isSome) lib = made at *
    obtain ⟨available, lib₁⟩ := made
    dsimp only at hcalled hget
    split at hget
    · obtain ⟨getData, hgetData, heq⟩ := Option.map_eq_some_iff.mp hget
      have hne : lib₁.gPersCustomFuncs idx ≠ {} := by
        intro hempty
        rw [hempty] at hgetData
        cases hgetData
      have hused := hcalled.use hcomplete laws hne fun hfuncts =>
        hfuncts.getData getData hgetData (pathKeyString info key) buffer size lib₁.world
      rw [hlib (congrArg some heq)]
      exact hused.uncalled (customDefaults_uncalled laws ..)
    · rw [hlib hget]
      exact hcalled.uncalled (customDefaults_uncalled laws ..)

theorem persistenceGetDataSize_called (h : InTurn S.plugin noted lib) :
    Called S.plugin noted lib (persistenceGetDataSize S dbPath key resourceID info lib).2 := by
  unfold persistenceGetDataSize
  cases hstorage : info.configKey.storage with
  | lastEntry => exact h.called (.refl lib)
  | «local» | shared =>
    have hopen := databaseGet_uncalled laws info dbPath (.policy info.configKey.policy) lib
    generalize databaseGet S info dbPath (.policy info.configKey.policy) lib = got at *
    obtain ⟨handle, lib₁⟩ := got
    dsimp only at hopen ⊢
    split
    · split
      · exact h.called hopen
      · rename_i getKeySize hsize
        have hnoted := laws.getKeySize getKeySize hsize handle key lib₁.world
        split
        · exact h.called (hopen.trans ((Uncalled.world hnoted).trans (defaultsFrom_uncalled laws ..)))
        · exact h.called (hopen.trans (.world hnoted))
    · exact h.called hopen
  | custom =>
    dsimp only
    split
    swap
    · exact h.called (customDefaults_uncalled laws ..)
    generalize customClientNameToId dbPath = idx
    have hcalled := @InTurn.available W S noted lib idx hcomplete laws h
      (fun functs => functs.customPluginGetSize.isSome) (fun _ hsize _ _ => hsize)
      (fun functs => functs.customPluginGetSize.isSome)
    generalize customAvailable S.plugin idx (fun functs => functs.customPluginGetSize.isSome)
      (fun functs => functs.customPluginGetSize.isSome) lib = made at *
    obtain ⟨available, lib₁⟩ := made
    dsimp only at hcalled ⊢
    split
    · rename_i getSize hsize
      have hne : lib₁.gPersCustomFuncs idx ≠ {} := by
        intro hempty
        rw [hempty] at hsize
        cases hsize
      have hused := hcalled.use hcomplete laws hne fun hfuncts =>
        hfuncts.getSize getSize hsize (pathKeyString info key) lib₁.world
      exact hused.uncalled (customDefaults_uncalled laws ..)
    · exact hcalled.uncalled (customDefaults_uncalled laws ..)

theorem persistenceSetData_called (h : InTurn S.plugin noted lib) (frame : CallFrame) :
    Called S.plugin noted lib
      (persistenceSetData S frame dbPath key resourceID info buffer size lib).2 := by
  unfold persistenceSetData
  cases hstorage : info.configKey.storage with
  | lastEntry => exact h.called (.refl lib)
  | «local» | shared =>
    dsimp only
    generalize (if info.context.userNo = pclUserDefaultdata then DbType.confdefault
      else .policy info.configKey.policy) = dbType
    generalize (if info.context.userNo = pclUserDefaultdata then resourceID else key) = dbInput
    have hopen := databaseGet_uncalled laws info dbPath dbType lib
    generalize databaseGet S info dbPath dbType lib = got at *
    obtain ⟨handle, lib₁⟩ := got
    dsimp only at hopen ⊢
    split
    · split
      · exact h.called hopen
      · rename_i writeKey hwrite
        have hnoted := hopen.trans
          (.world (laws.writeKey writeKey hwrite handle dbInput buffer size lib₁.world))
        split
        · exact h.called hnoted
        · split
          · exact h.called (hnoted.trans ⟨rfl, rfl, rfl⟩)
          · exact h.called hnoted
    · exact h.called hopen
  | custom =>
    dsimp only
    split
    swap
    · exact h.called (.refl lib)
    generalize customClientNameToId dbPath = idx
    have hcalled := @InTurn.available W S noted lib idx hcomplete laws h
      (fun functs => functs.customPluginSetData.isSome) (fun _ _ hset _ => hset)
      (fun functs => functs.customPluginSetData.isSome)
    generalize customAvailable S.plugin idx (fun functs => functs.customPluginSetData.isSome)
      (fun functs => functs.customPluginSetData.isSome) lib = made at *
    obtain ⟨available, lib₁⟩ := made
    dsimp only at hcalled ⊢
    split
    · rename_i setData hset
      have hne : lib₁.gPersCustomFuncs idx ≠ {} := by
        intro hempty
        rw [hempty] at hset
        cases hset
      have hused := hcalled.use hcomplete laws hne fun hfuncts =>
        hfuncts.setData setData hset (pathKeyString info key) buffer size lib₁.world
      split
      · exact hused.uncalled ⟨rfl, rfl, rfl⟩
      · exact hused
    · exact hcalled

theorem persistenceDeleteData_called (h : InTurn S.plugin noted lib) (frame : CallFrame) :
    Called S.plugin noted lib
      (persistenceDeleteData S frame dbPath key resourceID info lib).2 := by
  unfold persistenceDeleteData
  split
  · have hopen := databaseGet_uncalled laws info dbPath (.policy info.configKey.policy) lib
    generalize databaseGet S info dbPath (.policy info.configKey.policy) lib = got at *
    obtain ⟨handle, lib₁⟩ := got
    dsimp only at hopen ⊢
    split
    · split
      · exact h.called hopen
      · rename_i deleteKey hdelete
        have hnoted := laws.deleteKey deleteKey hdelete handle key lib₁.world
        split
        · exact h.called (hopen.trans ⟨hnoted, rfl, rfl⟩)
        · exact h.called (hopen.trans (.world hnoted))
    · exact h.called hopen
  · dsimp only
    split
    swap
    · exact h.called (.refl lib)
    generalize customClientNameToId dbPath = idx
    have hcalled := @InTurn.available W S noted lib idx hcomplete laws h
      (fun functs => functs.customPluginDeleteData.isSome) (fun _ _ _ hdelete => hdelete)
      (fun functs => functs.customPluginDeleteData.isSome)
    generalize customAvailable S.plugin idx (fun functs => functs.customPluginDeleteData.isSome)
      (fun functs => functs.customPluginDeleteData.isSome) lib = made at *
    obtain ⟨available, lib₁⟩ := made
    dsimp only at hcalled ⊢
    split
    · rename_i deleteData hdelete
      have hne : lib₁.gPersCustomFuncs idx ≠ {} := by
        intro hempty
        rw [hempty] at hdelete
        cases hdelete
      have hused := hcalled.use hcomplete laws hne fun hfuncts =>
        hfuncts.deleteData deleteData hdelete (pathKeyString info key) lib₁.world
      split
      · exact hused.uncalled ⟨rfl, rfl, rfl⟩
      · exact hused
    · exact hcalled

end Turns

section Calls

variable {S : Setup W} {noted : W → List (CStr × LibraryCall)} {lib lib' : Library W}
  {frame : CallFrame} {X : KeyResource} {result : ℤ × Bytes}

theorem persistenceNotifyOnChange_counter {resourceId dbKey : CStr}
    {context : PersistenceDbContext} {callback : ℕ} {regPolicy : PersNotifyRegPolicy} {rval : ℤ}
    (h : persistenceNotifyOnChange S frame resourceId dbKey context callback regPolicy lib =
      some (rval, lib')) : lib'.client.gPclInitCounter = lib.client.gPclInitCounter := by
  unfold persistenceNotifyOnChange at h
  dsimp only at h
  split at h
  · cases h
  · cases h
    unfold notifyTree
    dsimp only
    split <;> split <;> rfl

theorem regNotifyOnChange_counter {context : PersistenceDbContext} {resourceId : CStr}
    {callback : ℕ} {regPolicy : PersNotifyRegPolicy} {rval : ℤ}
    (h : regNotifyOnChange S frame context resourceId callback regPolicy lib = some (rval, lib')) :
    lib'.client.gPclInitCounter = lib.client.gPclInitCounter := by
  have hclient : (getDbContext S frame context resourceId false lib).2.client = lib.client :=
    (@getDbContext_same W S context resourceId lib frame false).client
  unfold regNotifyOnChange at h
  split at h
  · dsimp only at h
    split at h
    · split at h
      · rw [persistenceNotifyOnChange_counter h, hclient]
      · cases h
        rw [hclient]
    · cases h
      rw [hclient]
  · cases h
    rfl

theorem perform_counter {call : KeyCall} (htarget : call.target lib.client = none)
    (h : call.perform S frame lib = some (result, lib')) :
    lib'.client.gPclInitCounter = lib.client.gPclInitCounter := by
  have honce : ∀ {callback : ℕ} {register : Option (ℤ × Library W)} {rval : ℤ},
      oneCallback callback lib register = some (rval, lib') →
        register = some (rval, lib') ∨ lib' = lib := by
    intro callback register rval hone
    unfold oneCallback at hone
    split at hone
    · exact Or.inl hone
    · cases hone
      exact Or.inr rfl
  have hhandle : ∀ {keyHandle : ℤ} {callback : ℕ} {regPolicy : PersNotifyRegPolicy} {rval : ℤ},
      handleRegNotifyOnChange S frame keyHandle callback regPolicy lib = some (rval, lib') →
        lib'.client.gPclInitCounter = lib.client.gPclInitCounter := by
    intro keyHandle callback regPolicy rval hreg
    rw [handleRegNotifyOnChange, withKeyHandle_eq] at hreg
    split at hreg
    · cases hreg
      rfl
    · exact regNotifyOnChange_counter hreg
  have hplain : ∀ {register : Option (ℤ × Library W)},
      register.map KeyCall.plain = some (result, lib') → ∃ rval, register = some (rval, lib') := by
    intro register hregister
    obtain ⟨⟨rval, lib''⟩, hsome, heq⟩ := Option.map_eq_some_iff.mp hregister
    cases heq
    exact ⟨rval, hsome⟩
  cases call with
  | direct X access => cases htarget
  | handleGetSize keyHandle | handleRead keyHandle _ _ | handleWrite keyHandle _ _ =>
    rw [KeyCall.perform_byHandle rfl] at h
    cases hresource : handleResource lib.client keyHandle with
    | error rval =>
      rw [hresource] at h
      cases h
      rfl
    | ok X => simp [KeyCall.target, KeyCall.byHandle, hresource, Except.toOption] at htarget
  | handleOpen X =>
    cases h
    unfold pclKeyHandleOpen
    split
    · dsimp only
      rw [← (@getDbContext_same W S X.context X.resourceId lib frame false).client]
      unfold File.pclKeyHandleOpen
      split
      · split
        · split <;> rfl
        · rfl
      · rfl
    · rfl
  | handleClose keyHandle =>
    cases h
    have hclose : (File.pclKeyHandleClose keyHandle lib.client).2.gPclInitCounter =
        lib.client.gPclInitCounter := by
      unfold File.pclKeyHandleClose
      split
      · split
        · rfl
        · split <;> rfl
      · rfl
    exact hclose
  | register X callback =>
    obtain ⟨rval, hregister⟩ := hplain h
    rcases honce hregister with hreg | rfl
    · exact regNotifyOnChange_counter hreg
    · rfl
  | unregister X callback =>
    obtain ⟨rval, hreg⟩ := hplain h
    exact regNotifyOnChange_counter hreg
  | handleRegister keyHandle callback =>
    obtain ⟨rval, hregister⟩ := hplain h
    rcases honce hregister with hreg | rfl
    · exact hhandle hreg
    · rfl
  | handleUnregister keyHandle callback =>
    obtain ⟨rval, hreg⟩ := hplain h
    exact hhandle hreg

variable (hcomplete : Complete S.plugin) (laws : NotedLaws S.plugin noted)
include hcomplete laws

theorem access_called (h : InTurn S.plugin noted lib) {access : KeyAccess}
    (hperform : access.perform S frame X lib = some (result, lib')) :
    Called S.plugin noted lib lib' ∧
      (lib.client.gPclInitCounter = 0 → lib'.gPersCustomFuncs = lib.gPersCustomFuncs) := by
  rw [KeyAccess.perform_eq] at hperform
  cases hearly : access.earlyRefusal S lib.client with
  | some rval =>
    rw [hearly] at hperform
    cases hperform
    exact ⟨h.called (.refl lib), fun _ => rfl⟩
  | none =>
    have hinit : lib.client.gPclInitCounter ≠ 0 := by
      intro hzero
      unfold KeyAccess.earlyRefusal at hearly
      rw [hzero, if_pos (by decide)] at hearly
      cases hearly
    refine ⟨?_, fun hzero => absurd hzero hinit⟩
    rw [hearly] at hperform
    have hcontext := getDbContext_uncalled laws frame X lib
    generalize getDbContext S frame X.context X.resourceId false lib = found at *
    obtain ⟨ctx, lib₁⟩ := found
    dsimp only at hcontext hperform
    have h₁ := h.uncalled hcontext
    have hlast : Called S.plugin noted lib₁ lib' → Called S.plugin noted lib lib' :=
      fun hcalled => ⟨hcalled.turn, hcalled.counter.trans hcontext.counter⟩
    cases hlate : access.lateRefusal S ctx with
    | some rval =>
      rw [hlate] at hperform
      cases hperform
      exact h.called hcontext
    | none =>
      rw [hlate] at hperform
      apply hlast
      cases access with
      | delete =>
        cases hperform
        exact persistenceDeleteData_called hcomplete laws h₁ frame
      | getSize =>
        cases hperform
        exact persistenceGetDataSize_called hcomplete laws h₁
      | write buffer size =>
        cases hperform
        exact persistenceSetData_called hcomplete laws h₁ frame
      | read buffer size => exact persistenceGetData_called hcomplete laws h₁ hperform

/-- A call keeps the libraries in turn, and loads none before the initialisation. -/
theorem call_called (h : InTurn S.plugin noted lib) {call : KeyCall}
    (hperform : call.perform S frame lib = some (result, lib')) :
    Called S.plugin noted lib lib' ∧
      (lib.client.gPclInitCounter = 0 → lib'.gPersCustomFuncs = lib.gPersCustomFuncs) := by
  cases htarget : call.target lib.client with
  | some target =>
    rw [KeyCall.perform_target htarget] at hperform
    exact access_called hcomplete laws h hperform
  | none =>
    have hcounter := perform_counter htarget hperform
    rcases KeyCall.perform_searches htarget hperform with hsame | ⟨X, hsame⟩
    · have huncalled : Uncalled noted lib lib' := ⟨by rw [hsame.world], hsame.customFuncs, hcounter⟩
      exact ⟨h.called huncalled, fun _ => huncalled.functs⟩
    · have hcontext := getDbContext_uncalled laws frame X lib
      have huncalled : Uncalled noted lib lib' :=
        ⟨by rw [hsame.world, hcontext.noted], hsame.customFuncs.trans hcontext.functs, hcounter⟩
      exact ⟨h.called huncalled, fun _ => huncalled.functs⟩

end Calls

section Ends

variable {S : Setup W} {noted : W → List (CStr × LibraryCall)} {lib : Library W}

/-- Closing a file is no matter of the state shared with the main loop. -/
theorem pclFileClose_shared (fd : ℤ) (c : Client) :
    (File.pclFileClose fd c).2.gPclInitCounter = c.gPclInitCounter ∧
      (File.pclFileClose fd c).2.loop = c.loop := by
  unfold File.pclFileClose
  split
  · split <;> exact ⟨rfl, rfl⟩
  · exact ⟨rfl, rfl⟩

theorem listIterate_shared {callback : ℤ → Client → Client}
    (hcallback : ∀ fd c, (callback fd c).gPclInitCounter = c.gPclInitCounter ∧
      (callback fd c).loop = c.loop) (list : List ℤ) (c : Client) :
    (listIterate callback list c).gPclInitCounter = c.gPclInitCounter ∧
      (listIterate callback list c).loop = c.loop := by
  unfold listIterate
  induction list generalizing c with
  | nil => exact ⟨rfl, rfl⟩
  | cons fd list ih =>
    obtain ⟨hcounter, hloop⟩ := hcallback fd c
    exact ⟨(ih _).1.trans hcounter, (ih _).2.trans hloop⟩

theorem processPrepareShutdown_shared (complete : UInt32) (c : Client) :
    (File.processPrepareShutdown complete c).gPclInitCounter = c.gPclInitCounter ∧
      (File.processPrepareShutdown complete c).loop = persLockAccess c.loop := by
  have hclose : ∀ c : Client, (if 0 < complete then closeAllPersistenceHandle c else c).gPclInitCounter =
      c.gPclInitCounter ∧ (if 0 < complete then closeAllPersistenceHandle c else c).loop = c.loop := by
    intro c
    split <;> exact ⟨rfl, rfl⟩
  unfold File.processPrepareShutdown
  dsimp only
  rw [(hclose _).1, (hclose _).2]
  split
  · exact listIterate_shared pclFileClose_shared ..
  · split
    · apply listIterate_shared
      exact fun fd c => ⟨rfl, rfl⟩
    · exact ⟨rfl, rfl⟩

theorem mem_customLibs {idx : PersistenceCustomLibs} (h : Custom idx) : idx ∈ customLibs := by
  obtain ⟨hdefault, hlast⟩ := h
  cases idx <;> first | exact absurd rfl hlast | decide

variable (laws : NotedLaws S.plugin noted)
include laws

theorem databaseCloseAll_uncalled (lib : Library W) : Uncalled noted lib (databaseCloseAll S lib) := by
  have hclose : ∀ (slot : ℕ × DbType) (lib : Library W),
      Uncalled noted lib (databaseClose S slot lib) := by
    intro slot lib
    unfold databaseClose
    split
    · dsimp only
      split <;> exact ⟨laws.dbClose _ ‹_› .., rfl, rfl⟩
    · exact .refl lib
  have hstep : ∀ (lib' : Library W) (slot : ℕ × DbType), Uncalled noted lib lib' →
      Uncalled noted lib (databaseClose S slot lib') := by
    intro lib' slot huncalled
    exact huncalled.trans (hclose slot lib')
  exact Steps.run_invariant_of_forall hstep (.refl lib) _

theorem persRctCloseAll_uncalled (lib : Library W) : Uncalled noted lib (persRctCloseAll S lib) := by
  have hclose : ∀ (i : ℕ) (lib : Library W), Uncalled noted lib (rctClose S i lib) := by
    intro i lib
    unfold rctClose invalidateResourceCfgTable
    split
    · split
      · exact .refl lib
      · dsimp only
        split <;> exact ⟨laws.rctClose _ ‹_› .., rfl, rfl⟩
    · exact .refl lib
  have hstep : ∀ (lib' : Library W) (i : ℕ), Uncalled noted lib lib' →
      Uncalled noted lib (rctClose S i lib') := by
    intro lib' i huncalled
    exact huncalled.trans (hclose i lib')
  exact Steps.run_invariant_of_forall hstep (.refl lib) _

end Ends

section Shared

variable {S : Setup W} {lib : Library W} {env : InitEnv} {running : Bool}

def Library.process (lib : Library W) (running : Bool) : Process where
  loop := lib.client.loop
  gPclInitCounter := lib.client.gPclInitCounter
  gDbusMainloopRunning := running

def InitEnv.startup (env : InitEnv) (plugin : Plugin W) (lib : Library W) : Startup where
  mainloop := env.mainloop
  plugins := (loadCustomPlugins plugin env.config lib).1

/-- The main loop is there if it runs, and its pipe is new if it does not. -/
structure InitEnv.Fits (env : InitEnv) (running : Bool) (lib : Library W) : Prop where
  mode : lib.client.loop.gShutdownMode = pclShutdownTypeNone
  there : running = true → env.mainloop = true
  fresh : running = false → lib.client.loop.pipe = [] ∧ lib.client.loop.quit = false

theorem loadCustomPlugins_client (plugin : Plugin W) (config : Option (PersistenceCustomLibs → ℤ))
    (lib : Library W) : (loadCustomPlugins plugin config lib).2.client = lib.client := by
  have hload : ∀ (idx : PersistenceCustomLibs) (lib : Library W),
      (loadCustomLibrary plugin idx lib).2.client = lib.client := by
    intro idx lib
    unfold loadCustomLibrary
    split
    · rfl
    · split
      · rfl
      · split <;> rfl
  have hloads : ∀ (valid : PersistenceCustomLibs → ℤ) (s : ℤ × Library W)
      (idx : PersistenceCustomLibs), s.2.client = lib.client →
        (loadConfigured plugin valid s idx).2.client = lib.client := by
    intro valid s idx hs
    unfold loadConfigured
    split
    · split
      · exact (hload idx s.2).trans hs
      · exact hs
    · exact hs
  unfold loadCustomPlugins
  cases config with
  | none => rfl
  | some valid =>
    have hinvalidate : ∀ (lib : Library W) idx, (invalidateCustomPlugin idx lib).client = lib.client :=
      fun _ _ => rfl
    exact Steps.run_invariant_of_forall (hloads valid) (foldl_client hinvalidate _) _

/-- An initialisation does to the shared state what it does without the libraries. -/
theorem privatePclInitLibrary_process (plugin : Plugin W) (h : env.Fits running lib) :
    Access.privatePclInitLibrary (env.startup plugin lib) pclShutdownTypeNone (lib.process running) =
      ((privatePclInitLibrary plugin env lib).1,
        (privatePclInitLibrary plugin env lib).2.process env.mainloop) := by
  have hmode : { lib.client.loop with gShutdownMode := pclShutdownTypeNone } = lib.client.loop := by
    rw [← h.mode]
  have hloop : (if running then { lib.client.loop with gShutdownMode := pclShutdownTypeNone }
      else { lib.client.loop with gShutdownMode := pclShutdownTypeNone, pipe := [], quit := false }) =
        lib.client.loop := by
    split
    · exact hmode
    · rename_i hrunning
      obtain ⟨hpipe, hquit⟩ := h.fresh (Bool.eq_false_iff.mpr hrunning)
      rw [← hpipe, ← hquit]
      exact hmode
  have hclient := loadCustomPlugins_client plugin env.config lib
  have hnone : ¬ pclShutdownTypeNone ≠ pclShutdownTypeNone := not_not.mpr rfl
  unfold privatePclInitLibrary Access.privatePclInitLibrary InitEnv.startup Library.process
  dsimp only
  rw [if_neg hnone, hloop, hmode]
  cases hmainloop : env.mainloop with
  | false =>
    cases hrunning : running with
    | true => cases hmainloop.symm.trans (h.there hrunning)
    | false => simp
  | true =>
    rw [if_neg (fun hne => hne.2 rfl), if_neg (not_not.mpr rfl)]
    split
    · rw [hclient]
    · rw [hclient]

theorem pclInitLibrary_process (plugin : Plugin W) (appName : Option CStr)
    (h : env.Fits running lib) :
    ∃ running', Access.pclInitLibrary (env.startup plugin lib) appName pclShutdownTypeNone
        (lib.process running) =
      ((pclInitLibrary plugin appName env lib).1,
        (pclInitLibrary plugin appName env lib).2.process running') := by
  have hprivate := privatePclInitLibrary_process plugin h
  unfold pclInitLibrary Access.pclInitLibrary
  cases appName with
  | none => exact ⟨running, rfl⟩
  | some name =>
    dsimp only
    split
    · by_cases hzero : lib.client.gPclInitCounter = 0
      · rw [if_pos hzero, if_pos (show (lib.process running).gPclInitCounter = 0 from hzero), hprivate]
        refine ⟨env.mainloop, ?_⟩
        dsimp only
        split <;> rfl
      · rw [if_neg hzero, if_neg (show (lib.process running).gPclInitCounter ≠ 0 from hzero)]
        exact ⟨running, rfl⟩
    · exact ⟨running, rfl⟩

/-- The end of the last initialisation is a full shutdown. -/
theorem pclDeinitLibrary_one {ended : Library W}
    (hended : processPrepareShutdown S shutdownFull lib = ended)
    (hone : lib.client.gPclInitCounter = 1) (rval : ℤ) :
    ∃ client : Client,
      pclDeinitLibrary S rval lib = (rval, { ended with gNotificationTree := none, client }) ∧
      client.gPclInitCounter = ended.client.gPclInitCounter - 1 ∧
      client.loop = ended.client.loop := by
  unfold pclDeinitLibrary
  rw [if_pos hone, hended]
  exact ⟨_, rfl, rfl, rfl⟩

/-- The end of an initialisation returns the same and leaves the same counter and
lock, if the main loop works through its pipe. -/
theorem pclDeinitLibrary_process (hmode : lib.client.loop.gShutdownMode = pclShutdownTypeNone)
    (hquit : ¬ lib.client.loop.quit) (hpipe : ∀ data ∈ lib.client.loop.pipe, data.cmd ≠ .quit) :
    (Access.pclDeinitLibrary true (lib.process running)).1 = (pclDeinitLibrary S 1 lib).1 ∧
      (Access.pclDeinitLibrary true (lib.process running)).2.gPclInitCounter =
        (pclDeinitLibrary S 1 lib).2.client.gPclInitCounter ∧
      (Access.pclDeinitLibrary true (lib.process running)).2.loop.gLockAccess =
        (pclDeinitLibrary S 1 lib).2.client.loop.gLockAccess := by
  by_cases hone : lib.client.gPclInitCounter = 1
  · have hprocess : Access.pclDeinitLibrary true (lib.process running) =
        (1, { loop := privatePclDeinitLibrary true lib.client.loop
              gPclInitCounter := lib.client.gPclInitCounter - 1 }) := if_pos hone
    obtain ⟨client, heq, hcounter, hloop⟩ := pclDeinitLibrary_one (S := S) rfl hone 1
    obtain ⟨hkept, hlock⟩ := processPrepareShutdown_shared shutdownFull lib.client
    rw [processPrepareShutdown_client] at hcounter hloop
    rw [hprocess, heq]
    refine ⟨rfl, ?_, ?_⟩
    · rw [hcounter, hkept]
    · rw [hloop, hlock]
      exact locked_privatePclDeinitLibrary hmode hquit hpipe
  · unfold pclDeinitLibrary Access.pclDeinitLibrary
    rw [if_neg hone, if_neg (show (lib.process running).gPclInitCounter ≠ 1 from hone)]
    by_cases hgt : lib.client.gPclInitCounter > 1
    · rw [if_pos hgt, if_pos (show (lib.process running).gPclInitCounter > 1 from hgt)]
      exact ⟨rfl, rfl, rfl⟩
    · rw [if_neg hgt, if_neg (show ¬ (lib.process running).gPclInitCounter > 1 from hgt)]
      exact ⟨rfl, rfl, rfl⟩

end Shared

section Down

variable {S : Setup W} {noted : W → List (CStr × LibraryCall)} {lib : Library W}
  (hcomplete : Complete S.plugin) (laws : NotedLaws S.plugin noted)
include hcomplete laws

theorem InTurn.deinit (h : InTurn S.plugin noted lib) (idx : PersistenceCustomLibs) :
    Called S.plugin noted lib (customDeinit idx lib) ∧
      (customDeinit idx lib).gPersCustomFuncs idx = {} ∧
      ∀ other, lib.gPersCustomFuncs other = {} →
        (customDeinit idx lib).gPersCustomFuncs other = {} := by
  unfold customDeinit
  split
  · rename_i hnone
    refine ⟨⟨h, rfl⟩, ?_, fun _ hempty => hempty⟩
    rcases h.functs idx with hempty | ⟨hidx, hopen⟩
    · exact hempty
    · have hsome := hcomplete.deinit idx hidx _ hopen
      rw [hnone] at hsome
      cases hsome
  · rename_i deinit hdeinit
    have hne : lib.gPersCustomFuncs idx ≠ {} := by
      intro hempty
      rw [hempty] at hdeinit
      cases hdeinit
    obtain ⟨hidx, hopen⟩ := h.loaded hne
    have hnoted := (laws.custom _ _ hopen).deinit deinit hdeinit lib.world
    refine ⟨⟨⟨?_, ?_⟩, rfl⟩, Function.update_self .., ?_⟩
    · intro other
      dsimp only
      rw [Function.update_apply]
      split
      · exact Or.inl rfl
      · exact h.functs other
    · intro other hother
      dsimp only
      by_cases heq : other = idx
      · subst heq
        rw [Function.update_self, hnoted, stateAfter_self, h.up hcomplete hne]
        rfl
      · rw [Function.update_of_ne heq]
        exact h.others hcomplete (Option.isSome_of_mem hopen) hidx hnoted hother heq
    · intro other hempty
      dsimp only
      rw [Function.update_apply]
      split
      · rfl
      · exact hempty

theorem InTurn.deinits (idxs : List PersistenceCustomLibs) (h : InTurn S.plugin noted lib) :
    Called S.plugin noted lib (idxs.foldl (fun lib idx => customDeinit idx lib) lib) ∧
      (∀ idx ∈ idxs,
        (idxs.foldl (fun lib idx => customDeinit idx lib) lib).gPersCustomFuncs idx = {}) ∧
      ∀ other, lib.gPersCustomFuncs other = {} →
        (idxs.foldl (fun lib idx => customDeinit idx lib) lib).gPersCustomFuncs other = {} := by
  induction idxs generalizing lib with
  | nil => exact ⟨⟨h, rfl⟩, fun _ hin => absurd hin List.not_mem_nil, fun _ hempty => hempty⟩
  | cons idx idxs ih =>
    obtain ⟨hfirst, hidx, hothers⟩ := h.deinit hcomplete laws idx
    obtain ⟨hrest, hidxs, hkept⟩ := ih hfirst.turn
    refine ⟨⟨hrest.turn, hrest.counter.trans hfirst.counter⟩, ?_,
      fun other hempty => hkept other (hothers other hempty)⟩
    intro other hin
    rcases List.mem_cons.mp hin with rfl | hin
    · exact hkept _ hidx
    · exact hidxs other hin

/-- A shutdown keeps the libraries in turn, and a full one takes all of them down. -/
theorem InTurn.shutdown (h : InTurn S.plugin noted lib) (complete : UInt32) :
    Called S.plugin noted lib (processPrepareShutdown S complete lib) ∧
      (0 < complete → ∀ idx, (processPrepareShutdown S complete lib).gPersCustomFuncs idx = {}) ∧
      ∀ idx, lib.gPersCustomFuncs idx = {} →
        (processPrepareShutdown S complete lib).gPersCustomFuncs idx = {} := by
  unfold processPrepareShutdown
  dsimp only
  have hclient : Uncalled noted lib
      { lib with client := File.processPrepareShutdown complete lib.client } :=
    ⟨rfl, rfl, (processPrepareShutdown_shared complete lib.client).1⟩
  have hclosed := hclient.trans
    ((persRctCloseAll_uncalled laws _).trans (databaseCloseAll_uncalled laws _))
  generalize databaseCloseAll S (persRctCloseAll S
    { lib with client := File.processPrepareShutdown complete lib.client }) = lib₁ at *
  split
  · rename_i hpos
    obtain ⟨hcalled, hdown, hkept⟩ := (h.uncalled hclosed).deinits hcomplete laws customLibs
    refine ⟨⟨hcalled.turn, hcalled.counter.trans hclosed.counter⟩, fun _ idx => ?_,
      fun idx hempty => hkept idx (by rw [hclosed.functs]; exact hempty)⟩
    rcases (h.uncalled hclosed).functs idx with hempty | ⟨hidx, -⟩
    · exact hkept idx hempty
    · exact hdown idx (mem_customLibs hidx)
  · rename_i hpos
    exact ⟨h.called hclosed, fun hlt => absurd hlt hpos,
      fun idx hempty => by rw [hclosed.functs]; exact hempty⟩

end Down

section Lives

variable {S : Setup W} {noted : W → List (CStr × LibraryCall)} {lib lib' : Library W}
  (hcomplete : Complete S.plugin) (laws : NotedLaws S.plugin noted)
include hcomplete laws

theorem InTurn.loadAll {valid : PersistenceCustomLibs → ℤ} {idxs : List PersistenceCustomLibs}
    (h : InTurn S.plugin noted lib) {rval : ℤ} (hrval : 0 ≤ rval) (hnodup : idxs.Nodup)
    (hempty : ∀ idx ∈ idxs, lib.gPersCustomFuncs idx = {})
    (hstart : ∀ idx, checkValidIdx valid idx ≠ -1 →
      (S.plugin.gCustomLibArray idx).loadingType = .pclInit →
        (S.plugin.dlopen (S.plugin.gCustomLibArray idx).libname).isSome) :
    Called S.plugin noted lib (idxs.foldl (loadConfigured S.plugin valid) (rval, lib)).2 ∧
      0 ≤ (idxs.foldl (loadConfigured S.plugin valid) (rval, lib)).1 := by
  induction idxs generalizing lib rval with
  | nil => exact ⟨⟨h, rfl⟩, hrval⟩
  | cons idx idxs ih =>
    obtain ⟨hnotin, hrest⟩ := List.nodup_cons.mp hnodup
    have htail := fun other hin => hempty other (List.mem_cons_of_mem idx hin)
    have hkeep : loadConfigured S.plugin valid (rval, lib) idx = (rval, lib) →
        Called S.plugin noted lib
          ((idx :: idxs).foldl (loadConfigured S.plugin valid) (rval, lib)).2 ∧
        0 ≤ ((idx :: idxs).foldl (loadConfigured S.plugin valid) (rval, lib)).1 := by
      intro heq
      rw [List.foldl_cons, heq]
      exact ih h hrval hrest htail
    by_cases hvalid : checkValidIdx valid idx ≠ -1
    swap
    · exact hkeep (if_neg hvalid)
    by_cases hloading : (S.plugin.gCustomLibArray idx).loadingType = .pclInit
    swap
    · apply hkeep
      rw [loadConfigured, if_pos hvalid, if_neg hloading]
    have hlast : idx ≠ .lastEntry := by
      rintro rfl
      exact hvalid rfl
    obtain ⟨hload, hclient, hresult, hothers⟩ :=
      h.load hcomplete laws (hempty idx List.mem_cons_self)
    rw [List.foldl_cons, loadConfigured, if_pos hvalid, if_pos hloading]
    dsimp only
    have hone := hresult hlast (hstart idx hvalid hloading)
    generalize loadCustomLibrary S.plugin idx lib = made at *
    obtain ⟨rval', lib₁⟩ := made
    dsimp only at hload hclient hothers hone ⊢
    obtain ⟨hcalled, hnonneg⟩ := ih hload (show 0 ≤ rval' by omega) hrest fun other hin => by
      rw [hothers other (by rintro rfl; exact hnotin hin)]
      exact htail other hin
    exact ⟨⟨hcalled.turn, hcalled.counter.trans (congrArg Client.gPclInitCounter hclient)⟩, hnonneg⟩

omit hcomplete laws in
theorem invalidate_empty (idxs : List PersistenceCustomLibs)
    (hempty : ∀ idx, lib.gPersCustomFuncs idx = {}) :
    idxs.foldl (fun lib idx => invalidateCustomPlugin idx lib) lib = lib := by
  induction idxs with
  | nil => rfl
  | cons idx idxs ih =>
    have hsame : invalidateCustomPlugin idx lib = lib := by
      unfold invalidateCustomPlugin
      rw [← hempty idx, Function.update_eq_self]
    rw [List.foldl_cons, hsame, ih]

omit hcomplete laws in
theorem nodup_customLibs : customLibs.Nodup := by decide

theorem InTurn.plugins (h : InTurn S.plugin noted lib)
    (hempty : ∀ idx, lib.gPersCustomFuncs idx = {}) {env : InitEnv}
    (hstart : env.Startable S.plugin) :
    Called S.plugin noted lib (loadCustomPlugins S.plugin env.config lib).2 ∧
      ((loadCustomPlugins S.plugin env.config lib).1 < 0 →
        (loadCustomPlugins S.plugin env.config lib).2 = lib) := by
  cases hconfig : env.config with
  | none => exact ⟨⟨h, rfl⟩, fun _ => rfl⟩
  | some valid =>
    unfold loadCustomPlugins
    rw [invalidate_empty customLibs hempty]
    obtain ⟨hcalled, hnonneg⟩ := h.loadAll hcomplete laws le_rfl nodup_customLibs
      (fun idx _ => hempty idx) (hstart valid hconfig)
    exact ⟨hcalled, fun hneg => absurd hneg (not_lt.mpr hnonneg)⟩

/-- What holds in the life of a process: while no initialisation is open, all
libraries are down. -/
structure Alive (plugin : Plugin W) (noted : W → List (CStr × LibraryCall)) (n : ℕ)
    (lib : Library W) : Prop where
  turn : InTurn plugin noted lib
  down : lib.client.gPclInitCounter = 0 → ∀ idx, lib.gPersCustomFuncs idx = {}
  count : lib.client.gPclInitCounter.toNat ≤ n

variable {n : ℕ}

omit hcomplete laws in
theorem counter_succ {k : UInt32} (hk : k.toNat ≤ n) (hn : n + 1 < 2 ^ 32) :
    (k + 1).toNat = k.toNat + 1 := by
  rw [UInt32.toNat_add]
  exact Nat.mod_eq_of_lt (by simp; omega)

omit hcomplete laws in
theorem Alive.opened (h : InTurn S.plugin noted lib') {k : UInt32}
    (hcounter : lib'.client.gPclInitCounter = k + 1) (hk : k.toNat ≤ n) (hn : n + 1 < 2 ^ 32) :
    Alive S.plugin noted (n + 1) lib' := by
  have hsucc := counter_succ hk hn
  refine ⟨h, fun hzero => ?_, ?_⟩
  · rw [hcounter] at hzero
    rw [hzero] at hsucc
    cases hsucc
  · rw [hcounter, hsucc]
    omega

theorem InTurn.privateInit (h : InTurn S.plugin noted lib)
    (hempty : ∀ idx, lib.gPersCustomFuncs idx = {}) {env : InitEnv}
    (hstart : env.Startable S.plugin) :
    Called S.plugin noted lib (privatePclInitLibrary S.plugin env lib).2 ∧
      ((privatePclInitLibrary S.plugin env lib).1 < 0 →
        (privatePclInitLibrary S.plugin env lib).2 = lib) := by
  unfold privatePclInitLibrary
  split
  · exact ⟨⟨h, rfl⟩, fun _ => rfl⟩
  · obtain ⟨hcalled, hfailed⟩ := h.plugins hcomplete laws hempty hstart
    generalize loadCustomPlugins S.plugin env.config lib = loaded at *
    obtain ⟨rval, lib₁⟩ := loaded
    dsimp only at hcalled hfailed ⊢
    split
    · exact ⟨hcalled, hfailed⟩
    · rename_i hnonneg
      exact ⟨⟨⟨hcalled.turn.functs, hcalled.turn.turn⟩, hcalled.counter⟩,
        fun hneg => absurd hneg hnonneg⟩

theorem Alive.init (h : Alive S.plugin noted n lib) (hn : n + 1 < 2 ^ 32) (appName : Option CStr)
    {env : InitEnv} (hstart : env.Startable S.plugin) :
    Alive S.plugin noted (n + 1) (pclInitLibrary S.plugin appName env lib).2 := by
  have hsame : Alive S.plugin noted (n + 1) lib :=
    ⟨h.turn, h.down, h.count.trans (Nat.le_succ n)⟩
  unfold pclInitLibrary
  split
  · exact hsame
  split
  · split
    · rename_i hzero
      obtain ⟨hcalled, hfailed⟩ := h.turn.privateInit hcomplete laws (h.down hzero) hstart
      generalize privatePclInitLibrary S.plugin env lib = begun at *
      obtain ⟨rval, lib₁⟩ := begun
      dsimp only at hcalled hfailed ⊢
      split
      · exact .opened ⟨hcalled.turn.functs, hcalled.turn.turn⟩
          (congrArg (· + 1) hcalled.counter) h.count hn
      · rename_i hneg
        rw [hfailed (not_le.mp hneg)]
        exact hsame
    · exact .opened ⟨h.turn.functs, h.turn.turn⟩ rfl h.count hn
  · exact hsame

omit hcomplete laws in
theorem Alive.shut (h : InTurn S.plugin noted lib) (hempty : ∀ idx, lib.gPersCustomFuncs idx = {})
    {client : Client} (hzero : client.gPclInitCounter = 0) :
    Alive S.plugin noted n { lib with gNotificationTree := none, client } := by
  refine ⟨⟨h.functs, h.turn⟩, fun _ => hempty, ?_⟩
  dsimp only
  rw [hzero, UInt32.toNat_zero]
  exact Nat.zero_le n

theorem Alive.deinit (h : Alive S.plugin noted n lib) (rval : ℤ) :
    Alive S.plugin noted n (pclDeinitLibrary S rval lib).2 := by
  by_cases hone : lib.client.gPclInitCounter = 1
  · obtain ⟨client, heq, hclient, -⟩ := @pclDeinitLibrary_one W S lib _ rfl hone rval
    obtain ⟨hcalled, hdown, -⟩ := h.turn.shutdown hcomplete laws shutdownFull
    rw [heq]
    apply Alive.shut hcalled.turn (hdown (by decide))
    rw [hclient, hcalled.counter, hone, UInt32.sub_self]
  · unfold pclDeinitLibrary
    rw [if_neg hone]
    split
    · rename_i hgt
      have hpos := UInt32.lt_iff_toNat_lt.mp hgt
      rw [UInt32.toNat_one] at hpos
      have hcount := h.count
      have hpred := UInt32.toNat_sub_of_le _ _ (UInt32.le_of_lt hgt)
      rw [UInt32.toNat_one] at hpred
      refine ⟨⟨h.turn.functs, h.turn.turn⟩, fun hzero => ?_, ?_⟩
      · dsimp only at hzero
        rw [hzero, UInt32.toNat_zero] at hpred
        omega
      · dsimp only
        omega
    · exact h

theorem Alive.step (h : Alive S.plugin noted n lib) (hn : n + 1 < 2 ^ 32) {step : LifeStep}
    (hstart : step.Startable S.plugin) (hnext : step.next S lib = some lib') :
    Alive S.plugin noted (n + 1) lib' := by
  have hlater := h.count.trans (Nat.le_succ n)
  cases step with
  | initLibrary appName env =>
    cases hnext
    exact h.init hcomplete laws hn appName hstart
  | call frame keyCall =>
    obtain ⟨⟨result, lib₁⟩, hperform, rfl⟩ := Option.map_eq_some_iff.mp hnext
    obtain ⟨hcalled, hsame⟩ := call_called hcomplete laws h.turn hperform
    refine ⟨hcalled.turn, fun hzero idx => ?_, by rw [hcalled.counter]; exact hlater⟩
    rw [hcalled.counter] at hzero
    rw [hsame hzero]
    exact h.down hzero idx
  | shutdown complete =>
    cases hnext
    obtain ⟨hcalled, -, hkept⟩ := h.turn.shutdown hcomplete laws complete
    refine ⟨hcalled.turn, fun hzero idx => ?_, by rw [hcalled.counter]; exact hlater⟩
    rw [hcalled.counter] at hzero
    exact hkept idx (h.down hzero idx)
  | elsewhere client =>
    cases hnext
    exact ⟨⟨h.turn.functs, h.turn.turn⟩, h.down, hlater⟩
  | deinitLibrary rval =>
    cases hnext
    have hdeinit := h.deinit hcomplete laws rval
    exact ⟨hdeinit.turn, hdeinit.down, hdeinit.count.trans (Nat.le_succ n)⟩

theorem Alive.run (h : Alive S.plugin noted n lib) {steps : List LifeStep}
    (hn : n + steps.length < 2 ^ 32) (hstart : ∀ step ∈ steps, step.Startable S.plugin)
    (hrun : life S lib steps = some lib') : Alive S.plugin noted (n + steps.length) lib' := by
  induction steps generalizing lib n with
  | nil =>
    cases hrun
    exact h
  | cons step steps ih =>
    obtain ⟨lib₁, hnext, hrest⟩ := Option.bind_eq_some_iff.mp hrun
    rw [List.length_cons] at hn ⊢
    have hstep := h.step hcomplete laws (by omega) (hstart step List.mem_cons_self) hnext
    have hlast := ih hstep (by omega) (fun step hin => hstart step (List.mem_cons_of_mem _ hin)) hrest
    rwa [Nat.add_right_comm, Nat.add_assoc] at hlast

end Lives

section Example

def notingFuncts (name : CStr) : PersCustomFuncts (List (CStr × LibraryCall)) where
  customPluginInit := some fun w => w ++ [(name, .init)]
  customPluginInitAsync := some fun w => w ++ [(name, .init)]
  customPluginDeinit := some fun w => w ++ [(name, .deinit)]
  customPluginGetSize := some fun _ w => (0, w ++ [(name, .use)])
  customPluginGetData := some fun _ buffer _ w => ((0, buffer), w ++ [(name, .use)])
  customPluginSetData := some fun _ _ size w => (size, w ++ [(name, .use)])
  customPluginDeleteData := some fun _ w => (0, w ++ [(name, .use)])

/-- A library is loaded at the start and one on demand, which serves every key. -/
def Plugin.noting : Plugin (List (CStr × LibraryCall)) where
  persComDbOpen := some fun _ _ w => (0, w)
  persComDbClose := some fun _ w => (0, w)
  persComDbWriteKey := some fun _ _ _ size w => (size, w)
  persComDbReadKey := some fun _ _ buffer _ w => ((-1, buffer), w)
  persComDbGetKeySize := some fun _ _ w => (-1, w)
  persComDbDeleteKey := some fun _ _ w => (-1, w)
  persComRctOpen := some fun _ _ w => (0, w)
  persComRctClose := some fun _ w => (0, w)
  persComRctRead := some fun _ _ w =>
    (some { localKeyEntry .na with storage := .custom, customName := cstr "hwinfo" }, w)
  persComErrNotFound := -1
  dlopen := fun name =>
    if name = cstr "libsecure.so" ∨ name = cstr "libhwinfo.so" then some (notingFuncts name)
    else none
  gCustomLibArray
    | .secure => ⟨cstr "libsecure.so", .asynchronous, .pclInit⟩
    | .hwInfo => ⟨cstr "libhwinfo.so", .synchronous, .onDemand⟩
    | _ => ⟨[], .undefined, .undefined⟩

def notingSetup : Setup (List (CStr × LibraryCall)) := ⟨.standard, cstr "app", .noting⟩

def notingLibrary : Library (List (CStr × LibraryCall)) where
  client := { Client.start .empty .empty with gPclInitCounter := 0 }
  world := []

theorem noting_dlopen {name : CStr} {functs : PersCustomFuncts (List (CStr × LibraryCall))}
    (h : Plugin.noting.dlopen name = some functs) : functs = notingFuncts name := by
  unfold Plugin.noting at h
  dsimp only at h
  split at h
  · cases h
    rfl
  · cases h

theorem noting_laws : NotedLaws Plugin.noting id where
  dbOpen := by rintro f ⟨⟩ path flags w; rfl
  dbClose := by rintro f ⟨⟩ handle w; rfl
  writeKey := by rintro f ⟨⟩ handle key buffer size w; rfl
  readKey := by rintro f ⟨⟩ handle key buffer size w; rfl
  getKeySize := by rintro f ⟨⟩ handle key w; rfl
  deleteKey := by rintro f ⟨⟩ handle key w; rfl
  rctOpen := by rintro f ⟨⟩ path flags w; rfl
  rctClose := by rintro f ⟨⟩ handle w; rfl
  rctRead := by rintro f ⟨⟩ handle id w; rfl
  custom := by
    intro name functs hfound
    rw [noting_dlopen hfound]
    exact
      { init := by rintro f ⟨⟩ w; rfl
        initAsync := by rintro f ⟨⟩ w; rfl
        deinit := by rintro f ⟨⟩ w; rfl
        getSize := by rintro f ⟨⟩ key w; rfl
        getData := by rintro f ⟨⟩ key buffer size w; rfl
        setData := by rintro f ⟨⟩ key buffer size w; rfl
        deleteData := by rintro f ⟨⟩ key w; rfl }

theorem noting_missing : Plugin.noting.dlopen [] = none := by decide +kernel

theorem noting_slots {idx : PersistenceCustomLibs}
    (h : (Plugin.noting.dlopen (Plugin.noting.gCustomLibArray idx).libname).isSome) :
    idx = .secure ∨ idx = .hwInfo := by
  cases idx
  case secure => exact Or.inl rfl
  case hwInfo => exact Or.inr rfl
  all_goals exact absurd noting_missing (Option.isSome_iff_ne_none.mp h)

theorem noting_complete : Complete Plugin.noting where
  init := by
    intro idx _ functs hfound
    rw [noting_dlopen hfound]
    rcases noting_slots (Option.isSome_of_eq_some hfound) with rfl | rfl
    · rfl
    · rfl
  deinit := by
    intro idx _ functs hfound
    rw [noting_dlopen hfound]
    rfl
  onDemand := by
    intro idx _ functs hfound _
    rw [noting_dlopen hfound]
    exact ⟨rfl, rfl, rfl⟩
  distinct := by
    have hnames : cstr "libsecure.so" ≠ cstr "libhwinfo.so" := by decide +kernel
    intro idx idx' _ _ hfound hsame
    have hfound' := hsame ▸ hfound
    rcases noting_slots hfound with rfl | rfl <;> rcases noting_slots hfound' with rfl | rfl
    · rfl
    · exact absurd hsame hnames
    · exact absurd hsame.symm hnames
    · rfl

/-- The library is initialised, and a custom key read and written. -/
def readAndWrite : List LifeStep :=
  [.initLibrary (some (cstr "app")) { config := some fun _ => 0 },
    .call plainFrame (.direct ⟨⟨pclLdbidLocal, 0, 0⟩, cstr "serial"⟩ (.read [] 0)),
    .call plainFrame (.direct ⟨⟨pclLdbidLocal, 0, 0⟩, cstr "serial"⟩ (.write [0x31] 1))]

theorem readAndWrite_startable : ∀ step ∈ readAndWrite ++ [.deinitLibrary 1],
    step.Startable notingSetup.plugin := by
  have hinit : InitEnv.Startable notingSetup.plugin { config := some fun _ => 0 } := by
    rintro valid ⟨⟩ idx - hloading
    cases idx
    case secure => decide +kernel
    all_goals cases hloading
  intro step hin
  simp only [readAndWrite, List.cons_append, List.nil_append, List.mem_cons, List.not_mem_nil,
    or_false] at hin
  rcases hin with rfl | rfl | rfl | rfl
  · exact hinit
  · trivial
  · trivial
  · trivial

end Example

end PersClient.Key
