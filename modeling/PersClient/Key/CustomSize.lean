import PersClient.Key.SizeRead

/-! # Sizes and reads of custom resources

The size query looks for the size function of the library. The read looks for
the size function too, and only where there is none for the data function: it
may call a data function that is not there, or find data where the query found
nothing. Which functions a library exports, when it is loaded and which of its
functions the table holds decides whether the two stay in step.
-/

namespace PersClient.Key

open File Access

section State

structure Exports where
  init : Bool
  initAsync : Bool
  getSize : Bool
  getData : Bool
  deriving DecidableEq

def exportsOf {W : Type} (functs : PersCustomFuncts W) : Exports where
  init := functs.customPluginInit.isSome
  initAsync := functs.customPluginInitAsync.isSome
  getSize := functs.customPluginGetSize.isSome
  getData := functs.customPluginGetData.isSome

/-- What decides whether the functions of a custom library are found: its
configuration, the functions in the table and those the loader finds. -/
structure CustomState where
  idx : PersistenceCustomLibs
  loadingType : PersLoadingType
  initFunction : PersInitType
  table : Exports
  exported : Option Exports
  deriving DecidableEq

def customState {W : Type} (S : Setup W) (dbPath : CStr) (lib : Library W) : CustomState where
  idx := customClientNameToId dbPath
  loadingType := (S.plugin.gCustomLibArray (customClientNameToId dbPath)).loadingType
  initFunction := (S.plugin.gCustomLibArray (customClientNameToId dbPath)).initFunction
  table := exportsOf (lib.gPersCustomFuncs (customClientNameToId dbPath))
  exported := (S.plugin.dlopen (S.plugin.gCustomLibArray (customClientNameToId dbPath)).libname).map
    exportsOf

/-- What a size query and a read find: both find their function or neither does,
only the read finds its own, or the read takes a missing function for found. -/
inductive Lookups
  | matched
  | stray
  | absent
  deriving DecidableEq

namespace CustomState

def initialises (st : CustomState) (e : Exports) : Bool :=
  match st.initFunction with
  | .synchronous => e.init
  | .asynchronous => e.initAsync
  | .undefined => false

def lookups (st : CustomState) : Lookups :=
  if st.idx = .lastEntry then .matched
  else if st.table.getSize then if st.table.getData then .matched else .absent
  else
    match st.loadingType, st.exported with
    | .undefined, _ => .matched
    | .pclInit, _ => if st.table.getData then .stray else .matched
    | .onDemand, none => .matched
    | .onDemand, some e =>
      -- the functions of the default library do not enter the table
      if st.idx = .default then if st.table.getData then .stray else .matched
      else if e.getSize then
        if e.getData then if st.initialises e then .matched else .stray else .absent
      else if e.getData && st.initialises e then .stray else .matched

end CustomState

end State

section Lookups

variable {W : Type} {S : Setup W} {V : SizeView W} {lib lib' : Library W} {dbPath : CStr}

/-- The function a size query calls, and the library after looking for it. -/
def sizeLookup (S : Setup W) (dbPath : CStr) (lib : Library W) :
    Option (CStr → W → ℤ × W) × Library W :=
  let idx := customClientNameToId dbPath
  if idx ≠ .lastEntry then
    let (available, lib) := customAvailable S.plugin idx
      (fun functs => functs.customPluginGetSize.isSome)
      (fun functs => functs.customPluginGetSize.isSome) lib
    (if available then (lib.gPersCustomFuncs idx).customPluginGetSize else none, lib)
  else (none, lib)

/-- The function a read calls, which may be absent, and the library after looking for it. -/
def dataLookup (S : Setup W) (dbPath : CStr) (lib : Library W) :
    Option (Option (CStr → Bytes → ℤ → W → (ℤ × Bytes) × W)) × Library W :=
  let idx := customClientNameToId dbPath
  if idx ≠ .lastEntry then
    let (available, lib) := customAvailable S.plugin idx
      (fun functs => functs.customPluginGetSize.isSome)
      (fun functs => functs.customPluginGetData.isSome) lib
    (if available then some (lib.gPersCustomFuncs idx).customPluginGetData else none, lib)
  else (none, lib)

theorem sizeLookup_eq_some {getSize : CStr → W → ℤ × W}
    (h : (sizeLookup S dbPath lib).1 = some getSize) :
    ((sizeLookup S dbPath lib).2.gPersCustomFuncs
      (customClientNameToId dbPath)).customPluginGetSize = some getSize := by
  unfold sizeLookup at h ⊢
  dsimp only at h ⊢
  split
  · rename_i hidx
    rw [if_pos hidx] at h
    dsimp only at h ⊢
    split at h
    · exact h
    · cases h
  · rename_i hidx
    rw [if_neg hidx] at h
    cases h

theorem dataLookup_eq_some {getData : Option (CStr → Bytes → ℤ → W → (ℤ × Bytes) × W)}
    (h : (dataLookup S dbPath lib).1 = some getData) :
    ((dataLookup S dbPath lib).2.gPersCustomFuncs
      (customClientNameToId dbPath)).customPluginGetData = getData := by
  unfold dataLookup at h ⊢
  dsimp only at h ⊢
  split
  · rename_i hidx
    rw [if_pos hidx] at h
    dsimp only at h ⊢
    split at h
    · cases h
      rfl
    · cases h
  · rename_i hidx
    rw [if_neg hidx] at h
    cases h

structure LookedUp (V : SizeView W) (idx : PersistenceCustomLibs) (lib lib' : Library W) : Prop where
  handles : lib'.gHandlesDB = lib.gHandlesDB
  bound : V.bound lib'.world = V.bound lib.world
  seen : V.seen lib'.world = V.seen lib.world
  functs : CustomLaws (lib.gPersCustomFuncs idx) V → CustomLaws (lib'.gPersCustomFuncs idx) V

theorem LookedUp.refl {idx : PersistenceCustomLibs} : LookedUp V idx lib lib :=
  ⟨rfl, rfl, rfl, id⟩

theorem initCustomLibrary_keeps {functs : PersCustomFuncts W} (laws : CustomLaws functs V)
    (info : PersCustomLibInfo) (w : W) : V.bound (initCustomLibrary info functs w).2 = V.bound w ∧
      V.seen (initCustomLibrary info functs w).2 = V.seen w := by
  unfold initCustomLibrary
  split
  · split
    · rename_i init hinit
      exact ⟨laws.bound.init init hinit w, laws.init_seen init hinit w⟩
    · exact ⟨rfl, rfl⟩
  · split
    · rename_i init hinit
      exact ⟨laws.bound.initAsync init hinit w, laws.initAsync_seen init hinit w⟩
    · exact ⟨rfl, rfl⟩
  · exact ⟨rfl, rfl⟩

theorem loadCustomLibrary_lookedUp (laws : SizeLaws S.plugin V) (idx : PersistenceCustomLibs) :
    LookedUp V idx lib (loadCustomLibrary S.plugin idx lib).2 := by
  unfold loadCustomLibrary
  split
  · exact .refl
  · split
    · exact .refl
    · rename_i functs hopen
      split
      · exact .refl
      · have hlaws := laws.custom _ functs hopen
        obtain ⟨hbound, hseen⟩ :=
          initCustomLibrary_keeps hlaws (S.plugin.gCustomLibArray idx) lib.world
        refine ⟨rfl, hbound, hseen, fun _ => ?_⟩
        dsimp only
        rw [Function.update_self]
        exact hlaws

theorem customAvailable_lookedUp (laws : SizeLaws S.plugin V) (idx : PersistenceCustomLibs)
    (present wanted : PersCustomFuncts W → Bool) :
    LookedUp V idx lib (customAvailable S.plugin idx present wanted lib).2 := by
  unfold customAvailable
  split
  · exact .refl
  · split
    · exact loadCustomLibrary_lookedUp laws idx
    · exact .refl
    · exact .refl

theorem sizeLookup_lookedUp (laws : SizeLaws S.plugin V) (dbPath : CStr) (lib : Library W) :
    LookedUp V (customClientNameToId dbPath) lib (sizeLookup S dbPath lib).2 := by
  unfold sizeLookup
  dsimp only
  split
  · exact customAvailable_lookedUp laws ..
  · exact .refl

theorem dataLookup_lookedUp (laws : SizeLaws S.plugin V) (dbPath : CStr) (lib : Library W) :
    LookedUp V (customClientNameToId dbPath) lib (dataLookup S dbPath lib).2 := by
  unfold dataLookup
  dsimp only
  split
  · exact customAvailable_lookedUp laws ..
  · exact .refl

/-- What a size query finds in `lib` and a read that follows in `lib'`. -/
inductive Found (S : Setup W) (dbPath : CStr) (lib lib' : Library W) : Lookups → Prop
  | neither (size : (sizeLookup S dbPath lib).1 = none)
      (data : (dataLookup S dbPath lib').1 = none) : Found S dbPath lib lib' .matched
  | both {getSize : CStr → W → ℤ × W} {getData : CStr → Bytes → ℤ → W → (ℤ × Bytes) × W}
      (size : (sizeLookup S dbPath lib).1 = some getSize)
      (data : (dataLookup S dbPath lib').1 = some (some getData)) : Found S dbPath lib lib' .matched
  | stray {getData : CStr → Bytes → ℤ → W → (ℤ × Bytes) × W}
      (size : (sizeLookup S dbPath lib).1 = none)
      (data : (dataLookup S dbPath lib').1 = some (some getData)) : Found S dbPath lib lib' .stray
  | absent (data : (dataLookup S dbPath lib').1 = some none) : Found S dbPath lib lib' .absent

theorem initCustomLibrary_eq_one {info : PersCustomLibInfo} {functs : PersCustomFuncts W} {w : W}
    {st : CustomState} (h : st.initFunction = info.initFunction) :
    (initCustomLibrary info functs w).1 = 1 ↔ st.initialises (exportsOf functs) = true := by
  unfold initCustomLibrary CustomState.initialises exportsOf
  rw [h]
  cases info.initFunction with
  | synchronous => cases functs.customPluginInit <;> simp [epersCommon]
  | asynchronous => cases functs.customPluginInitAsync <;> simp [epersCommon]
  | undefined => simp [epersCommon]

theorem found_of_size {getSize : CStr → W → ℤ × W} (hidx : customClientNameToId dbPath ≠ .lastEntry)
    (hsize : (lib.gPersCustomFuncs (customClientNameToId dbPath)).customPluginGetSize = some getSize)
    (htable : lib'.gPersCustomFuncs = (sizeLookup S dbPath lib).2.gPersCustomFuncs) :
    Found S dbPath lib lib'
      (if (lib.gPersCustomFuncs (customClientNameToId dbPath)).customPluginGetData.isSome then
        .matched else .absent) := by
  have hfound : sizeLookup S dbPath lib = (some getSize, lib) := by
    simp [sizeLookup, customAvailable, hidx, hsize]
  rw [hfound] at htable
  have hread : dataLookup S dbPath lib' =
      (some (lib.gPersCustomFuncs (customClientNameToId dbPath)).customPluginGetData, lib') := by
    simp [dataLookup, customAvailable, hidx, htable, hsize]
  cases hdata : (lib.gPersCustomFuncs (customClientNameToId dbPath)).customPluginGetData with
  | some getData =>
    rw [hdata] at hread
    exact .both (congrArg Prod.fst hfound) (congrArg Prod.fst hread)
  | none =>
    rw [hdata] at hread
    exact .absent (congrArg Prod.fst hread)

theorem found_of_load {functs : PersCustomFuncts W}
    (hidx : customClientNameToId dbPath ≠ .lastEntry)
    (hdefault : customClientNameToId dbPath ≠ .default)
    (hsize : (lib.gPersCustomFuncs (customClientNameToId dbPath)).customPluginGetSize = none)
    (hloading : (S.plugin.gCustomLibArray (customClientNameToId dbPath)).loadingType = .onDemand)
    (hopen : S.plugin.dlopen (S.plugin.gCustomLibArray (customClientNameToId dbPath)).libname =
      some functs)
    (htable : lib'.gPersCustomFuncs = (sizeLookup S dbPath lib).2.gPersCustomFuncs) :
    Found S dbPath lib lib'
      (if functs.customPluginGetSize.isSome then
        if functs.customPluginGetData.isSome then
          if (customState S dbPath lib).initialises (exportsOf functs) then .matched else .stray
        else .absent
      else if functs.customPluginGetData.isSome &&
        (customState S dbPath lib).initialises (exportsOf functs) then .stray else .matched) := by
  have hinit : ∀ w, (initCustomLibrary (S.plugin.gCustomLibArray (customClientNameToId dbPath))
      functs w).1 = 1 ↔ (customState S dbPath lib).initialises (exportsOf functs) = true :=
    fun w => initCustomLibrary_eq_one rfl
  generalize (customState S dbPath lib).initialises (exportsOf functs) = ok at hinit ⊢
  have hsizes : (sizeLookup S dbPath lib).1 =
      if ok then functs.customPluginGetSize else none := by
    have hone := hinit lib.world
    cases ok <;>
      simp_all [sizeLookup, customAvailable, loadCustomLibrary]
  simp only [sizeLookup, customAvailable, loadCustomLibrary, hidx, hsize, hloading, hopen, hdefault,
    ne_eq, not_false_eq_true, if_true, if_false, Option.isSome_none, Bool.false_eq_true] at htable
  have htable' : lib'.gPersCustomFuncs (customClientNameToId dbPath) = functs := by
    rw [htable, Function.update_self]
  have hdatas : (dataLookup S dbPath lib').1 =
      if functs.customPluginGetSize.isSome || functs.customPluginGetData.isSome && ok then
        some functs.customPluginGetData else none := by
    have hone := hinit lib'.world
    cases hsome : functs.customPluginGetSize with
    | some getSize => simp [dataLookup, customAvailable, hidx, htable', hsome]
    | none =>
      cases ok <;> cases hdata : functs.customPluginGetData <;>
        simp_all [dataLookup, customAvailable, loadCustomLibrary]
  cases hexported : functs.customPluginGetSize with
  | some getSize =>
    simp only [hexported, Option.isSome_some, Bool.true_or, if_true] at hsizes hdatas ⊢
    cases hdata : functs.customPluginGetData with
    | none => exact .absent (hdatas.trans (congrArg some hdata))
    | some getData =>
      cases ok with
      | true => exact .both hsizes (hdatas.trans (congrArg some hdata))
      | false => exact .stray hsizes (hdatas.trans (congrArg some hdata))
  | none =>
    rw [hexported, ite_self] at hsizes
    simp only [hexported, Option.isSome_none, Bool.false_or] at hdatas ⊢
    cases hdata : functs.customPluginGetData with
    | none =>
      simp only [hdata, Option.isSome_none, Bool.false_and] at hdatas ⊢
      exact .neither hsizes hdatas
    | some getData =>
      simp only [hdata, Option.isSome_some, Bool.true_and] at hdatas ⊢
      cases ok with
      | true => exact .stray hsizes hdatas
      | false => exact .neither hsizes hdatas

/-- What is found of a library that is not loaded by the query, and has no size
function in the table. -/
theorem found_of_no_load (hidx : customClientNameToId dbPath ≠ .lastEntry)
    (hsize : (lib.gPersCustomFuncs (customClientNameToId dbPath)).customPluginGetSize = none)
    (hloading : (S.plugin.gCustomLibArray (customClientNameToId dbPath)).loadingType = .pclInit ∨
      (S.plugin.gCustomLibArray (customClientNameToId dbPath)).loadingType = .onDemand ∧
        customClientNameToId dbPath = .default ∧ ∃ functs,
          S.plugin.dlopen (S.plugin.gCustomLibArray (customClientNameToId dbPath)).libname =
            some functs)
    (htable : lib'.gPersCustomFuncs = (sizeLookup S dbPath lib).2.gPersCustomFuncs) :
    Found S dbPath lib lib'
      (if (lib.gPersCustomFuncs (customClientNameToId dbPath)).customPluginGetData.isSome then
        .stray else .matched) := by
  have hfound : sizeLookup S dbPath lib = (none, lib) := by
    rcases hloading with hloading | ⟨hloading, hdefault, functs, hopen⟩
    · simp [sizeLookup, customAvailable, hidx, hsize, hloading]
    · rw [hdefault] at hsize hloading hopen
      simp [sizeLookup, customAvailable, loadCustomLibrary, hdefault, hsize, hloading, hopen]
  rw [hfound] at htable
  have hread : (dataLookup S dbPath lib').1 =
      if (lib.gPersCustomFuncs (customClientNameToId dbPath)).customPluginGetData.isSome then
        some (lib.gPersCustomFuncs (customClientNameToId dbPath)).customPluginGetData else none := by
    rcases hloading with hloading | ⟨hloading, hdefault, functs, hopen⟩
    · simp [dataLookup, customAvailable, hidx, htable, hsize, hloading]
    · rw [hdefault] at hsize hloading hopen
      simp [dataLookup, customAvailable, loadCustomLibrary, hdefault, htable, hsize, hloading, hopen]
  cases hdata : (lib.gPersCustomFuncs (customClientNameToId dbPath)).customPluginGetData with
  | some getData =>
    rw [hdata] at hread
    exact .stray (congrArg Prod.fst hfound) hread
  | none =>
    rw [hdata] at hread
    exact .neither (congrArg Prod.fst hfound) hread

/-- What the two functions find is decided by the state of the custom library. -/
theorem found (htable : lib'.gPersCustomFuncs = (sizeLookup S dbPath lib).2.gPersCustomFuncs) :
    Found S dbPath lib lib' (customState S dbPath lib).lookups := by
  unfold CustomState.lookups
  by_cases hidx : customClientNameToId dbPath = .lastEntry
  · rw [if_pos (show (customState S dbPath lib).idx = .lastEntry from hidx)]
    exact .neither (by simp [sizeLookup, hidx]) (by simp [dataLookup, hidx])
  rw [if_neg (show (customState S dbPath lib).idx ≠ .lastEntry from hidx)]
  simp only [customState]
  cases hsize : (lib.gPersCustomFuncs (customClientNameToId dbPath)).customPluginGetSize with
  | some getSize =>
    simp only [exportsOf, hsize, Option.isSome_some, if_true]
    exact found_of_size hidx hsize htable
  | none =>
    simp only [exportsOf, hsize, Option.isSome_none, Bool.false_eq_true, if_false]
    cases hloading : (S.plugin.gCustomLibArray (customClientNameToId dbPath)).loadingType with
    | undefined =>
      simp only [sizeLookup, customAvailable, hsize, hloading] at htable
      apply Found.neither
      · simp [sizeLookup, customAvailable, hidx, hsize, hloading]
      · simp [dataLookup, customAvailable, hidx, hsize, hloading, htable]
    | pclInit => exact found_of_no_load hidx hsize (Or.inl hloading) htable
    | onDemand =>
      cases hopen : S.plugin.dlopen
          (S.plugin.gCustomLibArray (customClientNameToId dbPath)).libname with
      | none =>
        have hfail : ¬ epersDlopenerror = 1 := by decide
        simp only [sizeLookup, customAvailable, loadCustomLibrary, hidx, hsize, hloading, hopen]
          at htable
        apply Found.neither
        · simp [sizeLookup, customAvailable, loadCustomLibrary, hidx, hsize, hloading, hopen, hfail]
        · simp [dataLookup, customAvailable, loadCustomLibrary, hidx, hsize, hloading, hopen,
            htable, hfail]
      | some functs =>
        simp only [Option.map_some]
        split
        · rename_i hdefault
          exact found_of_no_load hidx hsize (Or.inr ⟨hloading, hdefault, functs, hopen⟩) htable
        · rename_i hdefault
          exact found_of_load hidx hdefault hsize hloading hopen htable

end Lookups

section Answers

variable {W : Type} {S : Setup W} {V : SizeView W} {lib : Library W} {info : PersistenceInfo}
  {dbPath key resourceID : CStr}

def customDefault (S : Setup W) (V : SizeView W) (info : PersistenceInfo) (dbPath : CStr)
    (lib : Library W) (resourceID : CStr) : Option Bytes :=
  firstOf S V (defaultsInfo info) (defaultsPath S info dbPath) lib resourceID [.confdefault, .default]

def orDefault (readSize : ℤ) : Option Bytes → ℤ
  | some data => if 0 < data.length then data.length else readSize
  | none => readSize

/-- How a size query or a read of a custom resource ends whose library holds
`own` for it. -/
structure CustomAnswer (S : Setup W) (V : SizeView W) (info : PersistenceInfo)
    (dbPath resourceID : CStr) (lib : Library W) (own : Option Bytes) (job : PersGetDefault)
    (size readSize n : ℤ) (asked : ℕ) : Prop where
  own : Answers size own readSize job
  plugin : 1 ≤ readSize → n = readSize ∧ asked = 0
  defaults : readSize < 1 → Room job size (customDefault S V info dbPath lib resourceID) →
    n = orDefault readSize (customDefault S V info dbPath lib resourceID) ∧
      asked = askedOf S V (defaultsInfo info) (defaultsPath S info dbPath) lib resourceID
        [.confdefault, .default]

theorem customDefaultsGets_of_lt {readSize : ℤ} (h : readSize < 1) (buffer : Bytes) (size : ℤ)
    (job : PersGetDefault) :
    customDefaultsGets S dbPath resourceID info buffer size job readSize lib =
      persGetDefaultsGets S (defaultsPath S info dbPath) resourceID (defaultsInfo info) buffer size
        job lib :=
  if_pos h

theorem customDefaults_answers (laws : SizeLaws S.plugin V) {lib₁ : Library W}
    (hsame : SameSources S V.bound V.seen (defaultsInfo info) (defaultsPath S info dbPath) lib lib₁)
    {own : Option Bytes} {job : PersGetDefault} {size readSize : ℤ}
    (hown : Answers size own readSize job) (buffer : Bytes) :
    CustomAnswer S V info dbPath resourceID lib own job size readSize
      (customDefaults S dbPath resourceID info buffer size job readSize lib₁).1.1
      (customDefaultsGets S dbPath resourceID info buffer size job readSize lib₁).length := by
  refine ⟨hown, fun hpos => ?_, fun hneg hroom => ?_⟩
  · have hnot : ¬ readSize < 1 := not_lt.mpr hpos
    rw [customDefaults, customDefaultsGets, if_neg hnot, if_neg hnot]
    exact ⟨rfl, rfl⟩
  · obtain ⟨hsizes, hasked, -⟩ := persGetDefaults_answers laws job size buffer hsame.handles
      (defaultsInfo info) (defaultsPath S info dbPath) resourceID (by rwa [hsame.firstOf])
    rw [customDefaults_of_lt hneg, customDefaultsGets_of_lt hneg]
    refine ⟨?_, hasked.trans (hsame.askedOf ..)⟩
    rw [hsame.firstOf] at hsizes
    unfold customDefault
    generalize firstOf S V (defaultsInfo info) (defaultsPath S info dbPath) lib resourceID
      [.confdefault, .default] = o at hsizes ⊢
    generalize persGetDefaults S (defaultsPath S info dbPath) resourceID (defaultsInfo info) buffer
      size job lib₁ = result at hsizes ⊢
    obtain ⟨⟨retDefaults, buffer'⟩, lib'⟩ := result
    cases o with
    | some data =>
      obtain rfl : retDefaults = data.length := hsizes
      simp only [orDefault, Nat.cast_pos]
    | none => exact if_neg (not_lt.mpr (le_of_lt hsizes))

theorem customDefaults_same (laws : SizeLaws S.plugin V) {lib₁ : Library W}
    (h : OpenHandles V.bound lib₁) (readSize : ℤ) :
    SameSources S V.bound V.seen (defaultsInfo info) (defaultsPath S info dbPath) lib₁
      (customDefaults S dbPath resourceID info [] 0 .size readSize lib₁).2 := by
  by_cases hneg : readSize < 1
  · rw [customDefaults_of_lt hneg]
    exact (persGetDefaults_answers laws .size 0 [] h _ _ _ nofun).same
  · rw [customDefaults, if_neg hneg]
    exact .keep laws.toLookLaws h rfl rfl rfl

theorem defaultsFrom_customFuncs {size : ℤ} {job : PersGetDefault} (ts : List DbType)
    {readSize : ℤ} {buffer : Bytes} :
    (defaultsFrom S dbPath key info size job ts readSize buffer lib).2.gPersCustomFuncs =
      lib.gPersCustomFuncs := by
  induction ts generalizing readSize buffer lib with
  | nil => rfl
  | cons t ts ih =>
    have hget : (databaseGet S info dbPath t lib).2.gPersCustomFuncs = lib.gPersCustomFuncs :=
      databaseGet_customFuncs
    unfold defaultsFrom
    dsimp only
    split
    · split
      · exact ih.trans hget
      · exact hget
    · exact ih.trans hget

theorem customDefaults_customFuncs {buffer : Bytes} {size readSize : ℤ} {job : PersGetDefault} :
    (customDefaults S dbPath resourceID info buffer size job readSize lib).2.gPersCustomFuncs =
      lib.gPersCustomFuncs := by
  unfold customDefaults
  split
  · exact defaultsFrom_customFuncs _
  · rfl

def ownData {α : Type*} (V : SizeView W) (info : PersistenceInfo) (key : CStr) (lib : Library W)
    (found : Option α) : Option Bytes :=
  if found.isSome then V.held lib.world (pathKeyString info key) else none

def customSize (S : Setup W) (dbPath key : CStr) (info : PersistenceInfo) (lib : Library W) :
    ℤ × Library W :=
  match sizeLookup S dbPath lib with
  | (some getSize, lib) =>
    let (readSize, world) := getSize (pathKeyString info key) lib.world
    (readSize, { lib with world })
  | (none, lib) => (epersNopluginfunct, lib)

theorem customSize_eq : customSize S dbPath key info lib =
    let idx := customClientNameToId dbPath
    if idx ≠ .lastEntry then
      let (available, lib) := customAvailable S.plugin idx
        (fun functs => functs.customPluginGetSize.isSome)
        (fun functs => functs.customPluginGetSize.isSome) lib
      match available, (lib.gPersCustomFuncs idx).customPluginGetSize with
      | true, some getSize =>
        let (readSize, world) := getSize (pathKeyString info key) lib.world
        (readSize, { lib with world })
      | _, _ => (epersNopluginfunct, lib)
    else (epersNopluginfunct, lib) := by
  unfold customSize sizeLookup
  by_cases hidx : customClientNameToId dbPath ≠ .lastEntry
  · simp only [if_pos hidx]
    generalize customAvailable S.plugin (customClientNameToId dbPath) _ _ lib = made
    obtain ⟨available, lib₁⟩ := made
    cases available with
    | false => rfl
    | true =>
      dsimp only
      rw [if_pos rfl]
      cases (lib₁.gPersCustomFuncs (customClientNameToId dbPath)).customPluginGetSize <;> rfl
  · simp only [if_neg hidx]

theorem persistenceGetDataSize_custom_eq (hstorage : info.configKey.storage = .custom) :
    persistenceGetDataSize S dbPath key resourceID info lib =
      let (readSize, lib) := customSize S dbPath key info lib
      let ((readSize, _), lib) := customDefaults S dbPath resourceID info [] 0 .size readSize lib
      (readSize, lib) := by
  rw [customSize_eq, persistenceGetDataSize, hstorage]
  rfl

theorem getDataSizeGets_custom_eq (hstorage : info.configKey.storage = .custom) :
    getDataSizeGets S dbPath key resourceID info lib =
      let (readSize, lib) := customSize S dbPath key info lib
      customDefaultsGets S dbPath resourceID info [] 0 .size readSize lib := by
  rw [customSize_eq, getDataSizeGets, hstorage]
  rfl

theorem persistenceGetDataSize_custom (laws : SizeLaws S.plugin V) (h : OpenHandles V.bound lib)
    (table : CustomLaws (lib.gPersCustomFuncs (customClientNameToId dbPath)) V)
    (hstorage : info.configKey.storage = .custom) (key resourceID : CStr) :
    let lib' := (persistenceGetDataSize S dbPath key resourceID info lib).2
    SameSources S V.bound V.seen (defaultsInfo info) (defaultsPath S info dbPath) lib lib' ∧
      lib'.gPersCustomFuncs = (sizeLookup S dbPath lib).2.gPersCustomFuncs ∧
      CustomLaws (lib'.gPersCustomFuncs (customClientNameToId dbPath)) V ∧
      ∃ readSize, CustomAnswer S V info dbPath resourceID lib
        (ownData V info key lib (sizeLookup S dbPath lib).1) .size 0 readSize
        (persistenceGetDataSize S dbPath key resourceID info lib).1
        (getDataSizeGets S dbPath key resourceID info lib).length := by
  have hfunct : ∀ getSize, (sizeLookup S dbPath lib).1 = some getSize → _ :=
    fun getSize => sizeLookup_eq_some
  have hlooked := sizeLookup_lookedUp laws dbPath lib
  rw [persistenceGetDataSize_custom_eq hstorage, getDataSizeGets_custom_eq hstorage]
  unfold customSize
  generalize sizeLookup S dbPath lib = looked at *
  obtain ⟨found, lib₁⟩ := looked
  have hlaws := hlooked.functs table
  have hsame : SameSources S V.bound V.seen (defaultsInfo info) (defaultsPath S info dbPath) lib lib₁ :=
    .keep laws.toLookLaws h hlooked.handles hlooked.bound hlooked.seen
  cases found with
  | none =>
    refine ⟨hsame.trans (customDefaults_same laws hsame.handles _), customDefaults_customFuncs,
      ?_, epersNopluginfunct, customDefaults_answers laws hsame ?_ []⟩
    · dsimp only
      rw [customDefaults_customFuncs]
      exact hlaws
    · exact show epersNopluginfunct < 0 by decide
  | some getSize =>
    have hget := hfunct getSize rfl
    dsimp only at hget hlaws hlooked ⊢
    have hown := hlaws.size getSize hget (pathKeyString info key) lib₁.world
    have hbound := hlaws.bound.getSize getSize hget (pathKeyString info key) lib₁.world
    have hseen := hlaws.size_seen getSize hget (pathKeyString info key) lib₁.world
    rw [show V.held lib₁.world = V.held lib.world from congrArg Prod.snd hlooked.seen] at hown
    have hsame' := hsame.trans (.world laws.toLookLaws hsame.handles hbound hseen)
    generalize getSize (pathKeyString info key) lib₁.world = sized at *
    obtain ⟨readSize, w⟩ := sized
    refine ⟨hsame'.trans (customDefaults_same laws hsame'.handles _), customDefaults_customFuncs,
      ?_, readSize, customDefaults_answers laws hsame' ?_ []⟩
    · dsimp only
      rw [customDefaults_customFuncs]
      exact hlaws
    · exact hown

/-- The read of a custom resource; `none` where the function it calls is absent. -/
theorem persistenceGetData_custom_eq (hstorage : info.configKey.storage = .custom)
    (buffer : Bytes) (size : ℤ) :
    persistenceGetData S dbPath key resourceID info buffer size lib =
      match dataLookup S dbPath lib with
      | (some getData, lib) => getData.map fun getData =>
          let ((readSize, buffer), world) := getData (pathKeyString info key) buffer size lib.world
          customDefaults S dbPath resourceID info buffer size .data readSize { lib with world }
      | (none, lib) =>
        some (customDefaults S dbPath resourceID info buffer size .data epersNopluginfunct lib) := by
  rw [persistenceGetData, hstorage]
  unfold dataLookup
  by_cases hidx : customClientNameToId dbPath ≠ .lastEntry
  · simp only [if_pos hidx]
    generalize customAvailable S.plugin (customClientNameToId dbPath) _ _ lib = made
    obtain ⟨available, lib₁⟩ := made
    cases available <;> rfl
  · simp only [if_neg hidx]

theorem getDataGets_custom_eq (hstorage : info.configKey.storage = .custom)
    (buffer : Bytes) (size : ℤ) :
    getDataGets S dbPath key resourceID info buffer size lib =
      match dataLookup S dbPath lib with
      | (some (some getData), lib) =>
        let ((readSize, buffer), world) := getData (pathKeyString info key) buffer size lib.world
        customDefaultsGets S dbPath resourceID info buffer size .data readSize { lib with world }
      | (some none, _) => []
      | (none, lib) =>
        customDefaultsGets S dbPath resourceID info buffer size .data epersNopluginfunct lib := by
  rw [getDataGets, hstorage]
  unfold dataLookup
  by_cases hidx : customClientNameToId dbPath ≠ .lastEntry
  · simp only [if_pos hidx]
    generalize customAvailable S.plugin (customClientNameToId dbPath) _ _ lib = made
    obtain ⟨available, lib₁⟩ := made
    cases available with
    | false => rfl
    | true =>
      dsimp only
      rw [if_pos rfl, if_pos rfl]
      cases (lib₁.gPersCustomFuncs (customClientNameToId dbPath)).customPluginGetData <;> rfl
  · simp only [if_neg hidx]

theorem persistenceGetData_absent (hstorage : info.configKey.storage = .custom)
    (habsent : (dataLookup S dbPath lib).1 = some none) (buffer : Bytes) (size : ℤ) :
    persistenceGetData S dbPath key resourceID info buffer size lib = none := by
  rw [persistenceGetData_custom_eq hstorage]
  generalize dataLookup S dbPath lib = looked at *
  obtain ⟨found, lib₁⟩ := looked
  obtain rfl : found = some none := habsent
  rfl

theorem persistenceGetData_custom (laws : SizeLaws S.plugin V) (h : OpenHandles V.bound lib)
    (table : CustomLaws (lib.gPersCustomFuncs (customClientNameToId dbPath)) V)
    (hstorage : info.configKey.storage = .custom) (key resourceID : CStr)
    (hthere : (dataLookup S dbPath lib).1 ≠ some none) (buffer : Bytes) (size : ℤ) :
    ∃ r lib' readSize,
      persistenceGetData S dbPath key resourceID info buffer size lib = some (r, lib') ∧
      CustomAnswer S V info dbPath resourceID lib
        (ownData V info key lib (dataLookup S dbPath lib).1) .data size readSize r.1
        (getDataGets S dbPath key resourceID info buffer size lib).length := by
  have hfunct : ∀ getData, (dataLookup S dbPath lib).1 = some getData → _ :=
    fun getData => dataLookup_eq_some
  have hlooked := dataLookup_lookedUp laws dbPath lib
  rw [persistenceGetData_custom_eq hstorage, getDataGets_custom_eq hstorage]
  generalize dataLookup S dbPath lib = looked at *
  obtain ⟨found, lib₁⟩ := looked
  have hlaws := hlooked.functs table
  have hsame : SameSources S V.bound V.seen (defaultsInfo info) (defaultsPath S info dbPath) lib lib₁ :=
    .keep laws.toLookLaws h hlooked.handles hlooked.bound hlooked.seen
  cases found with
  | none =>
    refine ⟨_, _, epersNopluginfunct, rfl, customDefaults_answers laws hsame ?_ buffer⟩
    exact show epersNopluginfunct < 0 by decide
  | some getData =>
    cases getData with
    | none => exact absurd rfl hthere
    | some getData =>
      have hget := hfunct (some getData) rfl
      dsimp only at hget hlaws hlooked ⊢
      have hown := hlaws.read getData hget (pathKeyString info key) buffer size lib₁.world
      have hbound := hlaws.bound.getData getData hget (pathKeyString info key) buffer size lib₁.world
      have hseen := hlaws.read_seen getData hget (pathKeyString info key) buffer size lib₁.world
      rw [show V.held lib₁.world = V.held lib.world from congrArg Prod.snd hlooked.seen] at hown
      have hsame' := hsame.trans (.world laws.toLookLaws hsame.handles hbound hseen)
      rw [Option.map_some]
      generalize getData (pathKeyString info key) buffer size lib₁.world = fetched at *
      obtain ⟨⟨readSize, buffer'⟩, w⟩ := fetched
      refine ⟨_, _, readSize, rfl, customDefaults_answers laws hsame' ?_ buffer'⟩
      exact hown

end Answers

section Agreement

variable {W : Type} {S : Setup W} {V : SizeView W} {lib lib' : Library W} {info : PersistenceInfo}
  {dbPath key resourceID : CStr}

theorem askedOf_pos {ts : List DbType} (h : ts ≠ []) : 0 < askedOf S V info dbPath lib key ts := by
  cases ts with
  | nil => exact absurd rfl h
  | cons t ts =>
    unfold askedOf
    split <;> omega

theorem orDefault_none {readSize : ℤ} : orDefault readSize none = readSize := rfl

theorem orDefault_some {readSize : ℤ} {data : Bytes} :
    orDefault readSize (some data) = if 0 < data.length then (data.length : ℤ) else readSize := rfl

theorem orDefault_neg {readSize : ℤ} {o : Option Bytes} (h : orDefault readSize o < 0) :
    (∀ data, o = some data → data = []) ∧ readSize < 0 := by
  cases o with
  | none => exact ⟨nofun, h⟩
  | some data =>
    rw [orDefault_some] at h
    split at h
    · omega
    · rename_i hnot
      refine ⟨?_, h⟩
      rintro data' ⟨⟩
      exact List.length_eq_zero_iff.mp (by omega)

theorem orDefault_pos {readSize : ℤ} {o : Option Bytes} (hsmall : readSize < 1)
    (h : 0 < orDefault readSize o) : ∃ data, o = some data ∧ data ≠ [] := by
  cases o with
  | none =>
    rw [orDefault_none] at h
    omega
  | some data =>
    refine ⟨data, rfl, ?_⟩
    rintro rfl
    rw [orDefault_some, if_neg (by simp)] at h
    omega

theorem orDefault_of_ne {readSize : ℤ} {data : Bytes} (h : data ≠ []) :
    orDefault readSize (some data) = data.length :=
  if_pos (List.length_pos_iff.mpr h)

theorem orDefault_of_empty {readSize : ℤ} {o : Option Bytes} (h : ∀ data, o = some data → data = []) :
    orDefault readSize o = readSize := by
  cases o with
  | none => rfl
  | some data =>
    rw [h data rfl]
    rfl

/-- The query and a read into a buffer of its size end alike, if what the read
finds in the library is what the query found, or is empty where there are
defaults for it. -/
theorem CustomAnswer.in_step {own own' : Option Bytes} {n n' size size' readSize readSize' : ℤ}
    {asked asked' : ℕ}
    (hsame : SameSources S V.bound V.seen (defaultsInfo info) (defaultsPath S info dbPath) lib lib')
    (hfound : own' = own ∨ own = none ∧ own' = some [] ∧
      ∃ data, customDefault S V info dbPath lib resourceID = some data ∧ data ≠ [])
    (h : CustomAnswer S V info dbPath resourceID lib own .size size readSize n asked)
    (h' : CustomAnswer S V info dbPath resourceID lib' own' .data size' readSize' n' asked')
    (hsize : 0 ≤ size') :
    (0 < n → n ≤ size' → n' = n ∧ asked' = asked) ∧ (n < 0 → n' < 0) := by
  have hdefault : customDefault S V info dbPath lib' resourceID =
      customDefault S V info dbPath lib resourceID := hsame.firstOf ..
  have hsizes : Sizes own readSize := h.own
  have hreads : Reads size' own' readSize' := h'.own
  have hdefaults' := h'.defaults
  rw [hdefault, hsame.askedOf] at hdefaults'
  by_cases hlarge : 1 ≤ readSize
  · -- the library told the size
    obtain ⟨hn, hasked⟩ := h.plugin hlarge
    cases own with
    | none =>
      have hneg : readSize < 0 := hsizes
      omega
    | some data =>
      obtain rfl : readSize = data.length := hsizes
      rcases hfound with rfl | ⟨hno, -⟩
      · refine ⟨fun _ hle => ?_, fun hneg => by omega⟩
        obtain rfl : readSize' = data.length := hreads (by omega)
        obtain ⟨hn', hasked'⟩ := h'.plugin hlarge
        exact ⟨hn'.trans hn.symm, hasked'.trans hasked.symm⟩
      · cases hno
  · obtain ⟨hn, hasked⟩ := h.defaults (by omega) nofun
    have hown : own = none ∨ own = some [] := by
      cases own with
      | none => exact Or.inl rfl
      | some data =>
        have hlength : readSize = data.length := hsizes
        exact Or.inr (congrArg some (List.length_eq_zero_iff.mp (by omega)))
    have hown' : own' = none ∨ own' = some [] := by
      rcases hfound with rfl | ⟨-, hempty, -⟩
      · exact hown
      · exact Or.inr hempty
    -- an empty value fits every buffer
    have hsmall : readSize' < 1 := by
      rcases hown' with rfl | rfl
      · exact lt_trans (show readSize' < 0 from hreads) one_pos
      · exact (hreads hsize).trans_lt one_pos
    constructor
    · intro hpos hle
      obtain ⟨data, hdata, hne⟩ := orDefault_pos (by omega) (hn ▸ hpos)
      rw [hdata] at hn hdefaults'
      rw [orDefault_of_ne hne] at hn hdefaults'
      obtain ⟨hn', hasked'⟩ := hdefaults' hsmall (by
        rintro - data' ⟨⟩
        exact hn ▸ hle)
      exact ⟨hn'.trans hn.symm, hasked'.trans hasked.symm⟩
    · intro hneg
      obtain ⟨hempty, hneg'⟩ := orDefault_neg (hn ▸ hneg)
      obtain ⟨hn', -⟩ := hdefaults' hsmall fun _ data hdata => by
        rw [hempty data hdata]
        exact hsize
      rw [hn', orDefault_of_empty hempty]
      rcases hfound with rfl | ⟨-, -, data, hdata, hne⟩
      · rcases hown with rfl | rfl
        · exact hreads
        · exact absurd (show readSize = 0 from hsizes) (by omega)
      · exact absurd (hempty data hdata) hne

/-- Where the query finds nothing and the read something, they are in step only
on an empty value that has defaults. -/
theorem CustomAnswer.not_in_step {data : Bytes} {n : ℤ} {asked : ℕ}
    (hsame : SameSources S V.bound V.seen (defaultsInfo info) (defaultsPath S info dbPath) lib lib')
    {readSize : ℤ}
    (h : CustomAnswer S V info dbPath resourceID lib none .size 0 readSize n asked)
    (h' : ∀ size, 0 ≤ size → ∃ readSize' n' asked',
      CustomAnswer S V info dbPath resourceID lib' (some data) .data size readSize' n' asked' ∧
        (0 < n → n ≤ size → n' = n ∧ asked' = asked) ∧ (n < 0 → n' < 0)) :
    data = [] ∧ ∃ default, customDefault S V info dbPath lib resourceID = some default ∧
      default ≠ [] := by
  have hneg : readSize < 0 := h.own
  obtain ⟨hn, hasked⟩ := h.defaults (by omega) nofun
  -- a buffer that is large enough for both
  obtain ⟨readSize', n', asked', hread, hpos, hfail⟩ := h' (data.length + n.toNat) (by omega)
  obtain rfl : readSize' = data.length := hread.own (by omega)
  by_cases hempty : ∀ default, customDefault S V info dbPath lib resourceID = some default →
      default = []
  · -- the query fails, and the read does not
    rw [orDefault_of_empty hempty] at hn
    have hbad := hfail (by omega)
    by_cases hlarge : (1 : ℤ) ≤ data.length
    · have := (hread.plugin hlarge).1
      omega
    · have hdefaults := (hread.defaults (by omega) (by
        rintro - default hdefault
        rw [show customDefault S V info dbPath lib' resourceID = _ from hsame.firstOf ..] at hdefault
        rw [hempty default hdefault]
        simp only [List.length_nil]
        omega)).1
      rw [show customDefault S V info dbPath lib' resourceID = _ from hsame.firstOf ..,
        show firstOf .. = customDefault S V info dbPath lib resourceID from rfl,
        orDefault_of_empty hempty] at hdefaults
      omega
  · push Not at hempty
    obtain ⟨default, hdefault, hne⟩ := hempty
    refine ⟨?_, default, hdefault, hne⟩
    rw [hdefault, orDefault_of_ne hne] at hn
    have hlong := List.length_pos_iff.mpr hne
    obtain ⟨-, hsource⟩ := hpos (by omega) (by omega)
    by_contra hdata
    have hlarge : (1 : ℤ) ≤ data.length := by
      have := List.length_pos_iff.mpr hdata
      omega
    have hzero := (hread.plugin hlarge).2
    have hsome : 0 < asked := hasked ▸ askedOf_pos (by simp)
    omega

/-- A custom resource whose query and read stay in step: they find the same, or
what only the read finds makes no difference. -/
def CustomInStep (S : Setup W) (V : SizeView W) (dbPath key resourceID : CStr)
    (info : PersistenceInfo) (lib : Library W) : Prop :=
  match (customState S dbPath lib).lookups with
  | .matched => True
  | .stray =>
    V.held lib.world (pathKeyString info key) = none ∨
      V.held lib.world (pathKeyString info key) = some [] ∧
        ∃ data, customDefault S V info dbPath lib resourceID = some data ∧ data ≠ []
  | .absent => False

theorem custom_in_step_iff (laws : SizeLaws S.plugin V) (h : OpenHandles V.bound lib)
    (table : CustomLaws (lib.gPersCustomFuncs (customClientNameToId dbPath)) V)
    (hstorage : info.configKey.storage = .custom) :
    InStep S dbPath key resourceID info lib ↔ CustomInStep S V dbPath key resourceID info lib := by
  obtain ⟨hsame, htable, table', readSize, hsize⟩ :=
    persistenceGetDataSize_custom laws h table hstorage key resourceID
  have hfound := found htable
  have hread := persistenceGetData_custom laws hsame.handles table' hstorage key resourceID
  unfold InStep CustomInStep
  generalize persistenceGetDataSize S dbPath key resourceID info lib = queried at *
  obtain ⟨n, lib'⟩ := queried
  dsimp only at hsame hfound hread hsize
  have hheld : V.held lib'.world = V.held lib.world := congrArg Prod.snd hsame.seen
  simp only [ownData, hheld] at hsize hread
  generalize (customState S dbPath lib).lookups = lookups at hfound ⊢
  cases hfound with
  | neither size data =>
    rw [size] at hsize
    rw [data] at hread
    refine iff_of_true ?_ trivial
    rintro _ _ ⟨⟩ buffer room hroom
    obtain ⟨r, lib'', readSize', heq, hanswer⟩ := hread nofun buffer room
    exact ⟨r, lib'', heq, hsize.in_step hsame (Or.inl rfl) hanswer hroom⟩
  | both size data =>
    rw [size] at hsize
    rw [data] at hread
    refine iff_of_true ?_ trivial
    rintro _ _ ⟨⟩ buffer room hroom
    obtain ⟨r, lib'', readSize', heq, hanswer⟩ := hread nofun buffer room
    exact ⟨r, lib'', heq, hsize.in_step hsame (Or.inl rfl) hanswer hroom⟩
  | stray size data =>
    rw [size] at hsize
    rw [data] at hread
    simp only [Option.isSome_none, Option.isSome_some, if_true, Bool.false_eq_true, if_false]
      at hsize hread
    constructor
    · intro hstep
      cases hdata : V.held lib.world (pathKeyString info key) with
      | none => exact Or.inl rfl
      | some own =>
        rw [hdata] at hread
        obtain ⟨rfl, hdefault⟩ := CustomAnswer.not_in_step hsame hsize fun room hroom => by
          obtain ⟨r, lib'', heq, hends⟩ := hstep n lib' rfl [] room hroom
          obtain ⟨r', lib₂, readSize', heq', hanswer⟩ := hread nofun [] room
          rw [heq] at heq'
          cases heq'
          exact ⟨_, _, _, hanswer, hends⟩
        exact Or.inr ⟨rfl, hdefault⟩
    · intro hheld'
      rintro _ _ ⟨⟩ buffer room hroom
      obtain ⟨r, lib'', readSize', heq, hanswer⟩ := hread nofun buffer room
      refine ⟨r, lib'', heq, hsize.in_step hsame ?_ hanswer hroom⟩
      exact hheld'.imp id fun hempty => ⟨rfl, hempty⟩
  | absent data =>
    refine iff_of_false (fun hstep => ?_) id
    obtain ⟨r, lib'', heq, -⟩ := hstep n lib' rfl [] 0 le_rfl
    rw [persistenceGetData_absent hstorage data] at heq
    cases heq

/-- Size queries and reads are in step exactly if the key is not a custom
resource, or its library is one whose functions the two find alike. -/
theorem size_read_in_step_iff (laws : SizeLaws S.plugin V) (h : OpenHandles V.bound lib)
    (table : ∀ idx, CustomLaws (lib.gPersCustomFuncs idx) V) :
    InStep S dbPath key resourceID info lib ↔
      (info.configKey.storage = .custom → CustomInStep S V dbPath key resourceID info lib) := by
  cases hstorage : info.configKey.storage with
  | custom =>
    rw [custom_in_step_iff laws h (table _) hstorage]
    exact ⟨fun hstep _ => hstep, fun hstep => hstep rfl⟩
  | «local» => exact iff_of_true (stored_in_step laws h (Or.inl hstorage)) nofun
  | shared => exact iff_of_true (stored_in_step laws h (Or.inr hstorage)) nofun
  | lastEntry =>
    refine iff_of_true (fun n lib' heq buffer size _ => ?_) nofun
    rw [persistenceGetDataSize, hstorage] at heq
    cases heq
    refine ⟨(-1, buffer), lib, ?_, fun hpos => absurd hpos (by decide),
      fun _ => show (-1 : ℤ) < 0 by decide⟩
    rw [persistenceGetData, hstorage]

end Agreement

section Example

/-- A library of hardware information that holds the same data for every key,
with or without a size function. -/
def hwFunctions (data : Bytes) (sized : Bool) : PersCustomFuncts Store where
  customPluginInit := some id
  customPluginGetSize := if sized then some fun _ w => (data.length, w) else none
  customPluginGetData := some fun _ buffer size w =>
    if data.length ≤ size then ((data.length, data ++ buffer.drop data.length), w)
    else ((epersBuflimit, buffer), w)

def hwView (data : Bytes) : SizeView Store where
  bound := Store.bound
  data w := w.entries
  held _ _ := some data

theorem hwFunctions_laws (data : Bytes) (sized : Bool) :
    CustomLaws (hwFunctions data sized) (hwView data) where
  bound :=
    { init := by rintro f ⟨⟩ w; rfl
      initAsync := nofun
      getSize := by
        intro f hf key w
        cases sized <;> cases hf
        rfl
      getData := by
        rintro f ⟨⟩ key buffer size w
        dsimp only
        split <;> rfl
      setData := nofun
      deleteData := nofun }
  init_seen := by rintro f ⟨⟩ w; rfl
  initAsync_seen := nofun
  size_seen := by
    intro f hf key w
    cases sized <;> cases hf
    rfl
  read_seen := by
    rintro f ⟨⟩ key buffer size w
    dsimp only
    split <;> rfl
  size := by
    intro f hf key w
    cases sized <;> cases hf
    rfl
  read := by
    rintro f ⟨⟩ key buffer size w hfits
    dsimp only
    rw [if_pos hfits]

def hwInfo : PersistenceInfo where
  context := { ldbid := 0xFF, userNo := 0, seatNo := 0 }
  configKey := { localKeyEntry .na with
    storage := .custom
    permission := .readOnly
    customName := cstr "hwinfo" }

def hwSetup (data : Bytes) (sized : Bool) (loadingType : PersLoadingType) : Setup Store :=
  { storeSetup hwInfo.configKey with
    plugin := { Plugin.store hwInfo.configKey with
      dlopen := fun _ => some (hwFunctions data sized)
      gCustomLibArray := fun _ => ⟨cstr "libhwinfo.so", .synchronous, loadingType⟩ } }

theorem hwSetup_laws (data : Bytes) (sized : Bool) (loadingType : PersLoadingType) :
    SizeLaws (hwSetup data sized loadingType).plugin (hwView data) where
  handles := { (store_handles : DbHandleLaws (Plugin.store hwInfo.configKey) Store.bound) with
    custom := by
      rintro name functs ⟨⟩
      exact (hwFunctions_laws data sized).bound }
  open_alike := by
    rintro f ⟨⟩ path flags w w' -
    exact Int.natCast_nonneg _
  open_seen := by rintro f ⟨⟩ path flags w; rfl
  read_seen := by
    rintro f ⟨⟩ handle key buffer size w
    dsimp only
    split
    · split <;> rfl
    · rfl
  size_seen := by
    rintro f ⟨⟩ handle key w
    dsimp only
    split <;> rfl
  loaded := rfl
  size := by
    rintro f ⟨⟩ handle path key w hbound
    dsimp only [hwView] at hbound ⊢
    rw [Store.get_of_bound hbound]
    cases w.entries path key with
    | some data => rfl
    | none => exact show (-1 : ℤ) < 0 by decide
  read := by
    rintro f ⟨⟩ handle path key buffer size w hbound
    dsimp only [hwView] at hbound ⊢
    rw [Store.get_of_bound hbound]
    cases w.entries path key with
    | some data =>
      intro hfits
      dsimp only
      rw [if_pos hfits]
    | none => exact show (-1 : ℤ) < 0 by decide
  custom := by
    rintro name functs ⟨⟩
    exact hwFunctions_laws data sized

theorem noFunctions_laws {W : Type} (V : SizeView W) : CustomLaws {} V :=
  ⟨⟨nofun, nofun, nofun, nofun, nofun, nofun⟩, nofun, nofun, nofun, nofun, nofun, nofun⟩

/-- A library with both functions that is loaded on demand. -/
theorem hwInfo_in_step :
    InStep (hwSetup [0x31, 0x32] true .onDemand) (cstr "hwinfo") (cstr "serial") (cstr "serial")
      hwInfo (storeLibrary fun _ _ => none) := by
  refine (size_read_in_step_iff (hwSetup_laws [0x31, 0x32] true .onDemand)
    (storeLibrary_openHandles _) fun _ => noFunctions_laws _).mpr fun _ => ?_
  have hlookups : (customState (hwSetup [0x31, 0x32] true .onDemand) (cstr "hwinfo")
      (storeLibrary fun _ _ => none)).lookups = .matched := by decide +kernel
  unfold CustomInStep
  rw [hlookups]
  trivial

/-- A library that is loaded at the start and has no size function: the query
fails, and the read delivers data. -/
theorem unsized_out_of_step :
    ¬ (∀ (data : Bytes) (sized : Bool) (loadingType : PersLoadingType) (key resourceID : CStr),
      InStep (hwSetup data sized loadingType) (cstr "hwinfo") key resourceID hwInfo
        (loadCustomLibrary (hwSetup data sized loadingType).plugin .hwInfo
          (storeLibrary fun _ _ => none)).2) := by
  intro h
  have hstep := h [0x31, 0x32] false .pclInit (cstr "serial") (cstr "serial")
  have hquery : (persistenceGetDataSize (hwSetup [0x31, 0x32] false .pclInit) (cstr "hwinfo")
      (cstr "serial") (cstr "serial") hwInfo
      (loadCustomLibrary (hwSetup [0x31, 0x32] false .pclInit).plugin .hwInfo
        (storeLibrary fun _ _ => none)).2).1 = epersNopluginfunct := by decide +kernel
  have hread : (persistenceGetData (hwSetup [0x31, 0x32] false .pclInit) (cstr "hwinfo")
      (cstr "serial") (cstr "serial") hwInfo [0, 0] 2
      (persistenceGetDataSize (hwSetup [0x31, 0x32] false .pclInit) (cstr "hwinfo")
        (cstr "serial") (cstr "serial") hwInfo
        (loadCustomLibrary (hwSetup [0x31, 0x32] false .pclInit).plugin .hwInfo
          (storeLibrary fun _ _ => none)).2).2).map Prod.fst = some (2, [0x31, 0x32]) := by
    decide +kernel
  unfold InStep at hstep
  generalize persistenceGetDataSize (hwSetup [0x31, 0x32] false .pclInit) (cstr "hwinfo")
    (cstr "serial") (cstr "serial") hwInfo _ = queried at hstep hquery hread
  obtain ⟨n, lib'⟩ := queried
  obtain rfl : n = epersNopluginfunct := hquery
  obtain ⟨r, lib'', heq, -, hneg⟩ := hstep _ _ rfl [0, 0] 2 (by decide)
  rw [heq, Option.map_some, Option.some.injEq] at hread
  obtain rfl : r = (2, [0x31, 0x32]) := hread
  exact absurd (hneg (by decide)) (by decide)

end Example

end PersClient.Key
