import PersClient.File.Client

/-! # The libraries behind keys

The persistence common object and the custom libraries are loaded at run time.
They are the parameters of the key functions: what a loaded function does to the
world behind it, where a function that could not be loaded is `none`.
-/

namespace PersClient.Key

open File

section ErrorCodes

def epersBuflimit : ℤ := -5
def epersDlopenerror : ℤ := -23
def epersNopluginfunct : ℤ := -24
def epersDbErrorInternal : ℤ := -27
def epersNotifyNotAllowed : ℤ := -37

end ErrorCodes

/-- The databases of one path: `PersistencePolicy_e` and behind it the default
databases of `PersistenceDB_e`. -/
inductive DbType
  | policy (p : PersistencePolicy)
  | confdefault
  | default
  deriving DecidableEq, Repr

inductive PersistenceCustomLibs
  | default
  | early
  | secure
  | emergency
  | hwInfo
  | custom1
  | custom2
  | custom3
  | lastEntry
  deriving DecidableEq, Repr

inductive PersLoadingType
  | pclInit
  | onDemand
  | undefined
  deriving DecidableEq, Repr

inductive PersInitType
  | synchronous
  | asynchronous
  | undefined
  deriving DecidableEq, Repr

/-- `PersCustomLibInfo`: the configuration of a custom library. -/
structure PersCustomLibInfo where
  libname : CStr
  initFunction : PersInitType
  loadingType : PersLoadingType
  deriving DecidableEq, Repr

/-- `Pers_custom_functs_s`: the functions of a custom library. -/
structure PersCustomFuncts (W : Type*) where
  customPluginInit : Option (W → W) := none
  customPluginInitAsync : Option (W → W) := none
  customPluginDeinit : Option (W → W) := none
  customPluginGetSize : Option (CStr → W → ℤ × W) := none
  /-- the buffer is handed in and comes back -/
  customPluginGetData : Option (CStr → Bytes → ℤ → W → (ℤ × Bytes) × W) := none
  customPluginSetData : Option (CStr → Bytes → ℤ → W → ℤ × W) := none
  customPluginDeleteData : Option (CStr → W → ℤ × W) := none

/-- The functions and error codes of the persistence common object, the loader,
and the configuration of the custom libraries. -/
structure Plugin (W : Type*) where
  persComDbOpen : Option (CStr → UInt8 → W → ℤ × W)
  persComDbClose : Option (ℤ → W → ℤ × W)
  persComDbWriteKey : Option (ℤ → CStr → Bytes → ℤ → W → ℤ × W)
  /-- the buffer is handed in and comes back -/
  persComDbReadKey : Option (ℤ → CStr → Bytes → ℤ → W → (ℤ × Bytes) × W)
  persComDbGetKeySize : Option (ℤ → CStr → W → ℤ × W)
  persComDbDeleteKey : Option (ℤ → CStr → W → ℤ × W)
  persComRctOpen : Option (CStr → UInt8 → W → ℤ × W)
  persComRctClose : Option (ℤ → W → ℤ × W)
  /-- `none` where the result is not the size of an entry -/
  persComRctRead : Option (ℤ → CStr → W → Option PersistenceConfigurationKey × W)
  /-- `PERS_COM_ERR_NOT_FOUND` -/
  persComErrNotFound : ℤ
  /-- what `dlopen` and `dlsym` find in a library -/
  dlopen : CStr → Option (PersCustomFuncts W)
  gCustomLibArray : PersistenceCustomLibs → PersCustomLibInfo

/-- A tree of notification keys. An item that was released while the tree still
refers to it makes every later search read released memory. -/
structure NotificationTree where
  keys : List UInt32 := []
  released : Bool := false
  deriving DecidableEq, Repr

/-- The state of the library: what keys and files share, the world behind the
plugin, and the tables of handles into it. -/
structure Library (W : Type*) where
  client : Client
  world : W
  gResourceTable : ℕ → ℤ := fun _ => -1
  gResourceOpen : ℕ → Bool := fun _ => false
  /-- an entry of `gHandlesDB` counts while its `gHandlesDBCreated` is set -/
  gHandlesDB : ℕ × DbType → Option ℤ := fun _ => none
  gPersCustomFuncs : PersistenceCustomLibs → PersCustomFuncts W := fun _ => {}
  gNotificationTree : Option NotificationTree := none
  /-- the registered callback, functions being numbered -/
  gChangeNotifyCallback : Option ℕ := none

/-- The parameters of every key function: the constants, the application and
the plugin. -/
structure Setup (W : Type*) where
  com : CommonObject
  appId : CStr
  plugin : Plugin W

/-- A plugin whose tables give every resource the same entry and whose
databases are empty. -/
def Plugin.constant (entry : PersistenceConfigurationKey) : Plugin Unit where
  persComDbOpen := some fun _ _ w => (0, w)
  persComDbClose := some fun _ w => (0, w)
  persComDbWriteKey := some fun _ _ _ size w => (size, w)
  persComDbReadKey := some fun _ _ buffer _ w => ((-1, buffer), w)
  persComDbGetKeySize := some fun _ _ w => (-1, w)
  persComDbDeleteKey := some fun _ _ w => (-1, w)
  persComRctOpen := some fun _ _ w => (0, w)
  persComRctClose := some fun _ w => (0, w)
  persComRctRead := some fun _ _ w => (some entry, w)
  persComErrNotFound := -1
  dlopen := fun _ => none
  gCustomLibArray := fun _ => ⟨[], .undefined, .undefined⟩

section CustomLoader

variable {W : Type*}

def contains (text pattern : CStr) : Bool := pattern <:+: text

/-- `custom_client_name_to_id` for a substring. -/
def customClientNameToId (libName : CStr) : PersistenceCustomLibs :=
  if contains libName (cstr "default") then .default
  else if contains libName (cstr "early") then .early
  else if contains libName (cstr "secure") then .secure
  else if contains libName (cstr "emergency") then .emergency
  else if contains libName (cstr "hwinfo") then .hwInfo
  else if contains libName (cstr "custom1") then .custom1
  else if contains libName (cstr "custom2") then .custom2
  else if contains libName (cstr "custom3") then .custom3
  else .lastEntry

/-- The end of `load_custom_library`: the init function of the given kind is called. -/
def initCustomLibrary (info : PersCustomLibInfo) (functs : PersCustomFuncts W) (world : W) :
    ℤ × W :=
  match info.initFunction with
  | .synchronous =>
    match functs.customPluginInit with
    | some init => (1, init world)
    | none => (epersCommon, world)
  | .asynchronous =>
    match functs.customPluginInitAsync with
    | some init => (1, init world)
    | none => (epersCommon, world)
  | .undefined => (epersCommon, world)

/-- `load_custom_library`. The default library holds no custom functions: its
own ones are those of the plugin. -/
def loadCustomLibrary (plugin : Plugin W) (customLib : PersistenceCustomLibs) (lib : Library W) :
    ℤ × Library W :=
  if customLib = .lastEntry then (epersDlopenerror, lib)
  else
    match plugin.dlopen (plugin.gCustomLibArray customLib).libname with
    | none => (epersDlopenerror, lib)
    | some functs =>
      if customLib = .default then (1, lib)
      else
        let (rval, world) := initCustomLibrary (plugin.gCustomLibArray customLib) functs lib.world
        (rval, { lib with
          world
          gPersCustomFuncs := Function.update lib.gPersCustomFuncs customLib functs })

/-- Make a function of a custom library available: it is there (`present`), or
is wanted of a library that is loaded now or was at the start. -/
def customAvailable (plugin : Plugin W) (idx : PersistenceCustomLibs)
    (present wanted : PersCustomFuncts W → Bool) (lib : Library W) : Bool × Library W :=
  if present (lib.gPersCustomFuncs idx) then (true, lib)
  else
    match (plugin.gCustomLibArray idx).loadingType with
    | .onDemand =>
      let (rval, lib) := loadCustomLibrary plugin idx lib
      (rval = 1 && wanted (lib.gPersCustomFuncs idx), lib)
    | .pclInit => (wanted (lib.gPersCustomFuncs idx), lib)
    | .undefined => (false, lib)

end CustomLoader

end PersClient.Key
