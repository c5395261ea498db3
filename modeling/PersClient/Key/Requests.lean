import PersClient.Key.Sequences
import PersClient.Lib.Steps

/-! # Requests for databases

A slot of the table of handles stands for a storage, a logical database and a
database type, while the path asked for also depends on the policy. The handle
in a slot belongs to the path of the request that filled it, so a later request
gets the database it asks for exactly if it asks for the same path.
-/

namespace PersClient.Key

open File Handle Access Prct Steps

variable {W : Type*}

section Requests

/-- The arguments of a call of `database_get`. -/
structure Get where
  info : PersistenceInfo
  dbPath : CStr
  dbType : DbType
  deriving DecidableEq

namespace Get

variable (S : Setup W) (g : Get)

def slot : ℕ × DbType := (arrayIdx S.com g.info, g.dbType)

def path : Option CStr := (databaseFile S.com g.dbType).map fun (name, _) => g.dbPath ++ name

def perform (lib : Library W) : ℤ × Library W := databaseGet S g.info g.dbPath g.dbType lib

/-- The path fits the buffer it is printed into. -/
def Fits : Prop :=
  ∀ name flags, databaseFile S.com g.dbType = some (name, flags) →
    (g.dbPath ++ name).length < S.com.maxLengthPathFilename

end Get

end Requests

section Traces

variable (S : Setup W)

/-- The requests of `defaultsFrom`, each with the library it meets. -/
def defaultsGets (dbPath key : CStr) (info : PersistenceInfo) (bufferSize : ℤ)
    (job : PersGetDefault) : List DbType → Bytes → Library W → List (Get × Library W)
  | [], _, _ => []
  | i :: is, buffer, lib =>
    (⟨info, dbPath, i⟩, lib) ::
      let (handleDefaultDB, lib) := databaseGet S info dbPath i lib
      if 0 ≤ handleDefaultDB then
        let ((readSize, buffer), world) :=
          fetchDefault S job handleDefaultDB key buffer bufferSize lib.world
        if readSize < 0 then
          defaultsGets dbPath key info bufferSize job is buffer { lib with world }
        else []
      else defaultsGets dbPath key info bufferSize job is buffer lib

/-- The requests of `persGetDefaults`. -/
def persGetDefaultsGets (dbPath key : CStr) (info : PersistenceInfo) (buffer : Bytes)
    (bufferSize : ℤ) (job : PersGetDefault) (lib : Library W) : List (Get × Library W) :=
  defaultsGets S dbPath key info bufferSize job [.confdefault, .default] buffer lib

/-- The requests of `customDefaults`. -/
def customDefaultsGets (dbPath resourceID : CStr) (info : PersistenceInfo) (buffer : Bytes)
    (bufferSize : ℤ) (job : PersGetDefault) (readSize : ℤ) (lib : Library W) :
    List (Get × Library W) :=
  if readSize < 1 then
    let info := { info with
      configKey := { info.configKey with policy := .wc, type := .key } }
    persGetDefaultsGets S (getDbPath S.com S.appId info [] dbPath) resourceID info buffer
      bufferSize job lib
  else []

/-- The requests of `persistenceGetData`. -/
def getDataGets (dbPath key resourceID : CStr) (info : PersistenceInfo) (buffer : Bytes)
    (bufferSize : ℤ) (lib : Library W) : List (Get × Library W) :=
  match info.configKey.storage with
  | .shared | .local =>
    (⟨info, dbPath, .policy info.configKey.policy⟩, lib) ::
      let (handleDB, lib) := databaseGet S info dbPath (.policy info.configKey.policy) lib
      if 0 ≤ handleDB then
        match S.plugin.persComDbReadKey with
        | none => []
        | some readKey =>
          let ((readSize, buffer), world) := readKey handleDB key buffer bufferSize lib.world
          if readSize < 0 then
            persGetDefaultsGets S dbPath resourceID info buffer bufferSize .data
              { lib with world }
          else []
      else []
  | .custom =>
    let idx := customClientNameToId dbPath
    if idx ≠ .lastEntry then
      let (available, lib) := customAvailable S.plugin idx
        (fun functs => functs.customPluginGetSize.isSome)
        (fun functs => functs.customPluginGetData.isSome) lib
      if available then
        match (lib.gPersCustomFuncs idx).customPluginGetData with
        | none => []
        | some getData =>
          let ((readSize, buffer), world) :=
            getData (pathKeyString info key) buffer bufferSize lib.world
          customDefaultsGets S dbPath resourceID info buffer bufferSize .data readSize
            { lib with world }
      else
        customDefaultsGets S dbPath resourceID info buffer bufferSize .data epersNopluginfunct lib
    else
      customDefaultsGets S dbPath resourceID info buffer bufferSize .data epersNopluginfunct lib
  | .lastEntry => []

/-- The requests of `persistenceGetDataSize`. -/
def getDataSizeGets (dbPath key resourceID : CStr) (info : PersistenceInfo) (lib : Library W) :
    List (Get × Library W) :=
  match info.configKey.storage with
  | .shared | .local =>
    (⟨info, dbPath, .policy info.configKey.policy⟩, lib) ::
      let (handleDB, lib) := databaseGet S info dbPath (.policy info.configKey.policy) lib
      if 0 ≤ handleDB then
        match S.plugin.persComDbGetKeySize with
        | none => []
        | some getKeySize =>
          let (readSize, world) := getKeySize handleDB key lib.world
          if readSize < 0 then
            persGetDefaultsGets S dbPath resourceID info [] 0 .size { lib with world }
          else []
      else []
  | .custom =>
    let idx := customClientNameToId dbPath
    let (readSize, lib) :=
      if idx ≠ .lastEntry then
        let (available, lib) := customAvailable S.plugin idx
          (fun functs => functs.customPluginGetSize.isSome)
          (fun functs => functs.customPluginGetSize.isSome) lib
        match available, (lib.gPersCustomFuncs idx).customPluginGetSize with
        | true, some getSize =>
          let (readSize, world) := getSize (pathKeyString info key) lib.world
          (readSize, { lib with world })
        | _, _ => (epersNopluginfunct, lib)
      else (epersNopluginfunct, lib)
    customDefaultsGets S dbPath resourceID info [] 0 .size readSize lib
  | .lastEntry => []

/-- The request of `persistenceSetData`. -/
def setDataGets (dbPath : CStr) (info : PersistenceInfo) (lib : Library W) :
    List (Get × Library W) :=
  match info.configKey.storage with
  | .local | .shared =>
    let dbType := if info.context.userNo = pclUserDefaultdata then .confdefault
      else .policy info.configKey.policy
    [(⟨info, dbPath, dbType⟩, lib)]
  | .custom | .lastEntry => []

/-- The request of `persistenceDeleteData`. -/
def deleteDataGets (dbPath : CStr) (info : PersistenceInfo) (lib : Library W) :
    List (Get × Library W) :=
  if info.configKey.storage ≠ .custom then
    [(⟨info, dbPath, .policy info.configKey.policy⟩, lib)]
  else []

def KeyAccess.reachGets (X : KeyResource) (ctx : DbContext) (lib : Library W) :
    KeyAccess → List (Get × Library W)
  | delete => deleteDataGets ctx.dbPath ⟨X.context, ctx.configKey⟩ lib
  | getSize =>
    getDataSizeGets S ctx.dbPath ctx.dbKey X.resourceId ⟨X.context, ctx.configKey⟩ lib
  | read buffer bufferSize =>
    getDataGets S ctx.dbPath ctx.dbKey X.resourceId ⟨X.context, ctx.configKey⟩ buffer bufferSize
      lib
  | write _ _ => setDataGets ctx.dbPath ⟨X.context, ctx.configKey⟩ lib

def KeyAccess.gets (frame : CallFrame) (X : KeyResource) (lib : Library W) (access : KeyAccess) :
    List (Get × Library W) :=
  match access.earlyRefusal S lib.client with
  | some _ => []
  | none =>
    let (ctx, lib) := getDbContext S frame X.context X.resourceId false lib
    match access.lateRefusal S ctx with
    | some _ => []
    | none => access.reachGets S X ctx lib

def KeyCall.gets (frame : CallFrame) (lib : Library W) (call : KeyCall) : List (Get × Library W) :=
  match call.target lib.client with
  | some (X, access) => access.gets S frame X lib
  | none => []

/-- A step of a sequence: a key call, or `database_close_all`. -/
inductive DbStep
  | call (frame : CallFrame) (call : KeyCall)
  | closeAll

/-- The library after a step; `none` where the call does not return. -/
def DbStep.next (lib : Library W) : DbStep → Option (Library W)
  | .call frame keyCall => (keyCall.perform S frame lib).map Prod.snd
  | .closeAll => some (databaseCloseAll S lib)

def DbStep.gets (lib : Library W) : DbStep → List (Get × Library W)
  | .call frame keyCall => keyCall.gets S frame lib
  | .closeAll => []

/-- All requests of a sequence of steps, in order. -/
def sequenceGets : List DbStep → Library W → List (Get × Library W)
  | [], _ => []
  | dbStep :: steps, lib =>
    dbStep.gets S lib ++
      match dbStep.next S lib with
      | none => []
      | some lib => sequenceGets steps lib

end Traces

section Laws

variable {α : Type*}

/-- The functions of a custom library leave what is observed of the world. -/
structure PersCustomFuncts.Leave (functs : PersCustomFuncts W) (obs : W → α) : Prop where
  init : ∀ f, functs.customPluginInit = some f → ∀ w, obs (f w) = obs w
  initAsync : ∀ f, functs.customPluginInitAsync = some f → ∀ w, obs (f w) = obs w
  getSize : ∀ f, functs.customPluginGetSize = some f → ∀ key w, obs (f key w).2 = obs w
  getData : ∀ f, functs.customPluginGetData = some f →
    ∀ key buffer size w, obs (f key buffer size w).2 = obs w
  setData : ∀ f, functs.customPluginSetData = some f →
    ∀ key buffer size w, obs (f key buffer size w).2 = obs w
  deleteData : ∀ f, functs.customPluginDeleteData = some f → ∀ key w, obs (f key w).2 = obs w

/-- What the library relies on of the plugin: `bound` tells the path an open
database handle was opened for. An open returns a fresh handle bound to its
path, a close frees its handle, and nothing else changes what handles are bound to. -/
structure DbHandleLaws (plugin : Plugin W) (bound : W → ℤ → Option CStr) : Prop where
  opened : ∀ f, plugin.persComDbOpen = some f → ∀ path flags w, 0 ≤ (f path flags w).1 →
    bound w (f path flags w).1 = none ∧
      bound (f path flags w).2 = Function.update (bound w) (f path flags w).1 (some path)
  notOpened : ∀ f, plugin.persComDbOpen = some f → ∀ path flags w, (f path flags w).1 < 0 →
    bound (f path flags w).2 = bound w
  closed : ∀ f, plugin.persComDbClose = some f → ∀ handle w, 0 ≤ (f handle w).1 →
    bound (f handle w).2 = Function.update (bound w) handle none
  notClosed : ∀ f, plugin.persComDbClose = some f → ∀ handle w, (f handle w).1 < 0 →
    bound (f handle w).2 = bound w
  writeKey : ∀ f, plugin.persComDbWriteKey = some f →
    ∀ handle key buffer size w, bound (f handle key buffer size w).2 = bound w
  readKey : ∀ f, plugin.persComDbReadKey = some f →
    ∀ handle key buffer size w, bound (f handle key buffer size w).2 = bound w
  getKeySize : ∀ f, plugin.persComDbGetKeySize = some f →
    ∀ handle key w, bound (f handle key w).2 = bound w
  deleteKey : ∀ f, plugin.persComDbDeleteKey = some f →
    ∀ handle key w, bound (f handle key w).2 = bound w
  rctOpen : ∀ f, plugin.persComRctOpen = some f →
    ∀ path flags w, bound (f path flags w).2 = bound w
  rctRead : ∀ f, plugin.persComRctRead = some f → ∀ handle id w, bound (f handle id w).2 = bound w
  custom : ∀ name functs, plugin.dlopen name = some functs → functs.Leave bound

/-- Each custom library is not loaded, or is one the loader finds. -/
def Loaded (plugin : Plugin W) (lib : Library W) : Prop :=
  ∀ idx, lib.gPersCustomFuncs idx = {} ∨
    ∃ name, plugin.dlopen name = some (lib.gPersCustomFuncs idx)

/-- The documented sizes leave room for the databases of every application. -/
def DatabaseNamesFit (com : CommonObject) : Prop :=
  ∀ dbType name flags, databaseFile com dbType = some (name, flags) →
    com.rootPath.length + com.maxLengthResponsible + 30 + name.length ≤ com.maxLengthPathFilename

end Laws

section Coherence

variable (S : Setup W) (bound : W → ℤ → Option CStr)

/-- `Traced lib trace lib'`: from `lib` to `lib'` the requests of the trace are
made, and nothing else touches the table or the bindings of handles. -/
inductive Traced : Library W → List (Get × Library W) → Library W → Prop
  | keep {lib lib' : Library W} (handles : lib'.gHandlesDB = lib.gHandlesDB)
      (bindings : bound lib'.world = bound lib.world)
      (loaded : Loaded S.plugin lib → Loaded S.plugin lib') : Traced lib [] lib'
  | get {lib : Library W} (g : Get) (fits : g.Fits S) : Traced lib [(g, lib)] (g.perform S lib).2
  | close {lib : Library W} (slot : ℕ × DbType) : Traced lib [] (databaseClose S slot lib)
  | append {lib lib₁ lib₂ : Library W} {t u : List (Get × Library W)} (first : Traced lib t lib₁)
      (second : Traced lib₁ u lib₂) : Traced lib (t ++ u) lib₂

/-- The path of the request that last found each slot empty. -/
def noteFill (fill : ℕ × DbType → Option CStr) (e : Get × Library W) : ℕ × DbType → Option CStr :=
  if e.2.gHandlesDB (e.1.slot S) = none then Function.update fill (e.1.slot S) (e.1.path S)
  else fill

/-- The condition on a request: if it finds its slot in use, the slot was filled
for the path it asks for. -/
def FilledFor (fill : ℕ × DbType → Option CStr) (e : Get × Library W) : Prop :=
  e.2.gHandlesDB (e.1.slot S) ≠ none → fill (e.1.slot S) = e.1.path S

/-- A handle the request returns was opened for exactly its path, and is open. -/
def Served (e : Get × Library W) : Prop :=
  0 ≤ (e.1.perform S e.2).1 → ∃ path, e.1.path S = some path ∧
    bound (e.1.perform S e.2).2.world (e.1.perform S e.2).1 = some path

/-- Each slot in use holds an open handle of its own, bound to the path it was filled for. -/
structure Coherent (fill : ℕ × DbType → Option CStr) (lib : Library W) : Prop where
  cached : ∀ slot handle, lib.gHandlesDB slot = some handle → slot.1 < dbTableSize ∧ 0 ≤ handle ∧
    ∃ path, fill slot = some path ∧ bound lib.world handle = some path
  distinct : ∀ slot slot' handle, lib.gHandlesDB slot = some handle →
    lib.gHandlesDB slot' = some handle → slot = slot'

variable {S bound} {fill : ℕ × DbType → Option CStr} {lib lib' : Library W}

theorem Coherent.keep (h : Coherent bound fill lib) (handles : lib'.gHandlesDB = lib.gHandlesDB)
    (bindings : bound lib'.world = bound lib.world) : Coherent bound fill lib' := by
  constructor
  · rw [handles, bindings]
    exact h.cached
  · rw [handles]
    exact h.distinct

theorem perform_cached {g : Get} {handle : ℤ} (h : Coherent bound fill lib)
    (hcached : lib.gHandlesDB (g.slot S) = some handle) : g.perform S lib = (handle, lib) := by
  have hsize : arrayIdx S.com g.info < dbTableSize := (h.cached _ _ hcached).1
  unfold Get.slot at hcached
  rw [Get.perform, databaseGet, if_pos hsize, hcached]

theorem perform_free {g : Get} (laws : DbHandleLaws S.plugin bound) (hfits : g.Fits S)
    (hfree : lib.gHandlesDB (g.slot S) = none) :
    ((g.perform S lib).1 < 0 ∧ (g.perform S lib).2.gHandlesDB = lib.gHandlesDB ∧
      bound (g.perform S lib).2.world = bound lib.world) ∨
    (0 ≤ (g.perform S lib).1 ∧ arrayIdx S.com g.info < dbTableSize ∧
      (g.perform S lib).2.gHandlesDB =
        Function.update lib.gHandlesDB (g.slot S) (some (g.perform S lib).1) ∧
      bound lib.world (g.perform S lib).1 = none ∧
      ∃ path, g.path S = some path ∧ bound (g.perform S lib).2.world =
        Function.update (bound lib.world) (g.perform S lib).1 (some path)) := by
  unfold Get.slot at hfree ⊢
  unfold Get.perform databaseGet Get.path
  split
  · rename_i hsize
    rw [hfree]
    cases hfile : databaseFile S.com g.dbType with
    | none => exact Or.inl ⟨(by decide : (-2 : ℤ) < 0), rfl, rfl⟩
    | some file =>
      obtain ⟨name, openFlags⟩ := file
      cases hopen : S.plugin.persComDbOpen with
      | none => exact Or.inl ⟨(by decide : epersNoPluginFunct < 0), rfl, rfl⟩
      | some dbOpen =>
        dsimp only
        rw [snprintf_of_lt (hfits name openFlags hfile)]
        split
        · rename_i hnonneg
          obtain ⟨hfresh, hbound⟩ := laws.opened dbOpen hopen _ _ _ hnonneg
          exact Or.inr ⟨hnonneg, hsize, rfl, hfresh, _, rfl, hbound⟩
        · rename_i hneg
          have hneg := not_le.mp hneg
          exact Or.inl ⟨hneg, rfl, laws.notOpened dbOpen hopen _ _ _ hneg⟩
  · exact Or.inl ⟨(by decide : (-1 : ℤ) < 0), rfl, rfl⟩

theorem Coherent.get {g : Get} (h : Coherent bound fill lib) (laws : DbHandleLaws S.plugin bound)
    (hfits : g.Fits S) : Coherent bound (noteFill S fill (g, lib)) (g.perform S lib).2 := by
  cases hslot : lib.gHandlesDB (g.slot S) with
  | some handle =>
    rw [perform_cached h hslot]
    simpa only [noteFill, hslot, reduceCtorEq, if_false] using h
  | none =>
    simp only [noteFill, hslot, if_true]
    have hother : ∀ slot handle, lib.gHandlesDB slot = some handle → slot ≠ g.slot S := by
      rintro slot handle hcached rfl
      rw [hslot] at hcached
      cases hcached
    rcases perform_free laws hfits hslot with
      ⟨-, hhandles, hbound⟩ | ⟨hnonneg, hsize, hhandles, hfresh, path, hpath, hbound⟩
    · constructor
      · intro slot handle hcached
        rw [hhandles] at hcached
        rw [hbound, Function.update_of_ne (hother slot handle hcached)]
        exact h.cached slot handle hcached
      · rw [hhandles]
        exact h.distinct
    · generalize (g.perform S lib).1 = opened at *
      -- the handle opened is bound to nothing before, so no slot holds it
      have hnew : ∀ slot handle, lib.gHandlesDB slot = some handle → handle ≠ opened := by
        rintro slot handle hcached rfl
        obtain ⟨-, -, path, -, hb⟩ := h.cached slot handle hcached
        rw [hfresh] at hb
        cases hb
      constructor
      · intro slot handle hcached
        rw [hhandles, Function.update_apply] at hcached
        rw [hbound]
        split at hcached
        · rename_i heq
          cases hcached
          subst heq
          exact ⟨hsize, hnonneg, path, by rw [Function.update_self, hpath],
            Function.update_self ..⟩
        · rename_i hne
          rw [Function.update_of_ne hne, Function.update_of_ne (hnew slot handle hcached)]
          exact h.cached slot handle hcached
      · intro slot slot' handle hcached hcached'
        rw [hhandles, Function.update_apply] at hcached hcached'
        split at hcached <;> split at hcached'
        · simp [*]
        · cases hcached
          exact absurd rfl (hnew slot' _ hcached')
        · cases hcached'
          exact absurd rfl (hnew slot _ hcached)
        · exact h.distinct slot slot' handle hcached hcached'

theorem Coherent.close (h : Coherent bound fill lib) (laws : DbHandleLaws S.plugin bound)
    (slot : ℕ × DbType) : Coherent bound fill (databaseClose S slot lib) := by
  unfold databaseClose
  split
  · rename_i handle dbClose hslot hclose
    dsimp only
    split
    · rename_i hneg
      exact h.keep rfl (laws.notClosed dbClose hclose _ _ hneg)
    · rename_i hnonneg
      have hbound := laws.closed dbClose hclose _ _ (not_lt.mp hnonneg)
      constructor
      · intro other cached hcached
        dsimp only at hcached
        rw [Function.update_apply] at hcached
        split at hcached
        · cases hcached
        · rename_i hne
          rw [hbound, Function.update_of_ne ?_]
          · exact h.cached other cached hcached
          · rintro rfl
            exact hne (h.distinct other slot _ hcached hslot)
      · intro other other' cached hcached hcached'
        dsimp only at hcached hcached'
        rw [Function.update_apply] at hcached hcached'
        split at hcached
        · cases hcached
        · split at hcached'
          · cases hcached'
          · exact h.distinct other other' cached hcached hcached'
  · exact h

theorem Coherent.served_iff {g : Get} (h : Coherent bound fill lib)
    (laws : DbHandleLaws S.plugin bound) (hfits : g.Fits S) :
    Served S bound (g, lib) ↔ FilledFor S fill (g, lib) := by
  unfold Served FilledFor
  dsimp only
  cases hslot : lib.gHandlesDB (g.slot S) with
  | none =>
    refine iff_of_true (fun hnonneg => ?_) (fun hne => absurd rfl hne)
    rcases perform_free laws hfits hslot with ⟨hneg, -⟩ | ⟨-, -, -, -, path, hpath, hbound⟩
    · omega
    · exact ⟨path, hpath, by rw [hbound, Function.update_self]⟩
  | some handle =>
    obtain ⟨-, hnonneg, path, hfill, hbound⟩ := h.cached _ _ hslot
    rw [perform_cached h hslot, hfill, hbound]
    constructor
    · rintro hserved -
      obtain ⟨path', hpath', heq⟩ := hserved hnonneg
      rw [heq, hpath']
    · intro hfilled _
      exact ⟨path, (hfilled (by simp)).symm, rfl⟩

/-- The requests of a trace get what they ask for exactly if each that finds its
slot in use asks for the path the slot was filled for. -/
theorem Coherent.traced {t : List (Get × Library W)} (laws : DbHandleLaws S.plugin bound)
    (htraced : Traced S bound lib t lib') (h : Coherent bound fill lib) :
    Coherent bound (run (noteFill S) fill t) lib' ∧
      ((∀ e ∈ t, Served S bound e) ↔ Guarded (noteFill S) (FilledFor S) fill t) := by
  induction htraced generalizing fill with
  | keep handles bindings loaded => exact ⟨h.keep handles bindings, by simp [Guarded]⟩
  | get g fits =>
    refine ⟨h.get laws fits, ?_⟩
    simp [Guarded, h.served_iff laws fits]
  | close slot => exact ⟨h.close laws slot, by simp [Guarded]⟩
  | append first second ihfirst ihsecond =>
    obtain ⟨hmiddle, hiff⟩ := ihfirst h
    obtain ⟨hend, hiff'⟩ := ihsecond hmiddle
    rw [run_append, guarded_append, ← hiff, ← hiff', List.forall_mem_append]
    exact ⟨hend, Iff.rfl⟩

end Coherence

end PersClient.Key
