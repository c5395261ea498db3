import PersClient.Key.Plugin
import PersClient.Prct.Address

/-! # The context of a resource

`prct_access.c`: the resource configuration tables are opened when they are
first needed and their handles kept. The context of a resource is the entry of
its table with the key and the path made from it; local resources that no table
names get default entries.
-/

namespace PersClient.Key

open File

inductive PersistenceRCT
  | local
  | sharedPublic
  | sharedGroup
  deriving DecidableEq, Repr

def PersistenceRCT.code : PersistenceRCT → ℕ
  | .local => 0
  | .sharedPublic => 1
  | .sharedGroup => 2

def getTableId (ldbid : UInt32) : PersistenceRCT × UInt32 :=
  if ldbid < 0x80 then
    if ldbid ≠ 0 then (.sharedGroup, ldbid) else (.sharedPublic, 0)
  else (.local, 0)

/-- What a call finds and does not control: the memory its local configuration
lies in, what stands behind its key buffer, and whether the pipe to the main
loop takes a command. -/
structure CallFrame where
  leftover : PersistenceConfigurationKey
  behindKey : CStr := []
  written : Bool := true
  deriving DecidableEq

section Tables

variable {W : Type*} (S : Setup W)

def rctFilename (rct : PersistenceRCT) (group : UInt32) : CStr :=
  snprintf S.com.maxLengthPathFilename <|
    match rct with
    | .local => getLocalWtPathKey S.com S.appId S.com.gResTableCfg
    | .sharedPublic => getSharedPublicWtPathKey S.com S.appId S.com.gResTableCfg
    | .sharedGroup => getSharedWtPathKey S.com S.appId group S.com.gResTableCfg

def getResourceCfgTableByIdx (i : ℕ) (lib : Library W) : ℤ :=
  if i < prctDbTableSize then lib.gResourceTable i else -1

def invalidateResourceCfgTable (i : ℕ) (lib : Library W) : Library W :=
  if i < prctDbTableSize then
    { lib with
      gResourceTable := Function.update lib.gResourceTable i (-1)
      gResourceOpen := Function.update lib.gResourceOpen i false }
  else lib

def openResourceCfgTable (rct : PersistenceRCT) (group : UInt32) (arrayIdx : ℕ)
    (lib : Library W) : Library W :=
  if lib.gResourceOpen arrayIdx then lib
  else
    match S.plugin.persComRctOpen with
    | none => lib
    | some rctOpen =>
      let (handle, world) := rctOpen (rctFilename S rct group) 0x04 lib.world
      { lib with
        world
        gResourceTable := Function.update lib.gResourceTable arrayIdx handle
        gResourceOpen := Function.update lib.gResourceOpen arrayIdx (0 ≤ handle) }

def getResourceCfgTable (rct : PersistenceRCT) (group : UInt32) (lib : Library W) :
    ℤ × Library W :=
  let arrayIdx := rct.code + group.toNat
  if arrayIdx < prctDbTableSize then
    let lib := openResourceCfgTable S rct group arrayIdx lib
    -- also after an open that failed or was not possible
    (lib.gResourceTable arrayIdx, lib)
  else (epersNoprctable, lib)

end Tables

section Context

variable {W : Type*} (S : Setup W)

/-- The entry of a local resource that no table names. The last two strings are
copied without their end, over what the memory held. -/
def defaultConfigKey (com : CommonObject) (isFile : Bool) (leftover : PersistenceConfigurationKey) :
    PersistenceConfigurationKey where
  policy := .wc
  storage := .local
  type := if isFile then .file else .key
  permission := .readWrite
  maxSize := com.maxSizeKeyData
  reponsible := cstr "default" ++ leftover.reponsible.drop 7
  customName := cstr "default" ++ leftover.customName.drop 7
  customID := cstr "A_CUSTOM_ID"

def contextOfEntry (context : PersistenceDbContext) (resourceId behindKey : CStr)
    (configKey : PersistenceConfigurationKey) : DbContext :=
  if configKey.storage ≠ .custom then
    let address := Prct.getDbPathAndKey S.com S.appId ⟨context, configKey⟩ resourceId []
    { rval := 0, configKey, dbKey := address.dbKey, dbPath := address.dbPath, behindKey }
  else { rval := 0, configKey, dbKey := resourceId, dbPath := configKey.customName, behindKey }

/-- `get_db_context` before its default: the entry of the table, or the error. -/
def lookupEntry (context : PersistenceDbContext) (resourceId : CStr) (lib : Library W) :
    Except ℤ PersistenceConfigurationKey × Library W :=
  let (rct, groupId) := getTableId context.ldbid
  let (handleRCT, lib) := getResourceCfgTable S rct groupId lib
  if 0 ≤ handleRCT then
    match S.plugin.persComRctRead with
    | none => (.error epersNoPluginFunct, lib)
    | some rctRead =>
      let (entry, world) := rctRead handleRCT resourceId lib.world
      (match entry with
        | none => .error epersNokeydata
        | some configKey => .ok configKey, { lib with world })
  else (.error handleRCT, lib)

/-- The table of the logical database can be read and has the entry. -/
def TableEntry (context : PersistenceDbContext) (resourceId : CStr) (lib : Library W)
    (configKey : PersistenceConfigurationKey) : Prop :=
  let (rct, groupId) := getTableId context.ldbid
  let (handleRCT, lib) := getResourceCfgTable S rct groupId lib
  0 ≤ handleRCT ∧ ∃ rctRead, S.plugin.persComRctRead = some rctRead ∧
    (rctRead handleRCT resourceId lib.world).1 = some configKey

/-- `get_db_context` on buffers filled with zeros. -/
def getDbContext (frame : CallFrame) (context : PersistenceDbContext) (resourceId : CStr)
    (isFile : Bool) (lib : Library W) : DbContext × Library W :=
  let (entry, lib) := lookupEntry S context resourceId lib
  (match entry with
    | .ok configKey => contextOfEntry S context resourceId frame.behindKey configKey
    | .error rval =>
      if context.ldbid = pclLdbidLocal then
        contextOfEntry S context resourceId frame.behindKey
          (defaultConfigKey S.com isFile frame.leftover)
      else { rval, configKey := frame.leftover, dbKey := [], dbPath := [],
             behindKey := frame.behindKey }, lib)

/-- What the search for a context leaves alone: all but the tables and the world. -/
structure SameButTables (lib lib' : Library W) : Prop where
  client : lib'.client = lib.client
  handlesDB : lib'.gHandlesDB = lib.gHandlesDB
  customFuncs : lib'.gPersCustomFuncs = lib.gPersCustomFuncs
  notificationTree : lib'.gNotificationTree = lib.gNotificationTree
  changeNotifyCallback : lib'.gChangeNotifyCallback = lib.gChangeNotifyCallback

variable {S} {context : PersistenceDbContext} {resourceId : CStr} {lib : Library W}

theorem openResourceCfgTable_same {rct : PersistenceRCT} {group : UInt32} {i : ℕ} :
    SameButTables lib (openResourceCfgTable S rct group i lib) := by
  unfold openResourceCfgTable
  split
  · constructor <;> rfl
  · split <;> constructor <;> rfl

theorem getResourceCfgTable_same {rct : PersistenceRCT} {group : UInt32} :
    SameButTables lib (getResourceCfgTable S rct group lib).2 := by
  unfold getResourceCfgTable
  extract_lets arrayIdx lib₁
  split
  · exact openResourceCfgTable_same
  · constructor <;> rfl

theorem lookupEntry_same : SameButTables lib (lookupEntry S context resourceId lib).2 := by
  have hsame := @getResourceCfgTable_same W S lib (getTableId context.ldbid).1
    (getTableId context.ldbid).2
  unfold lookupEntry
  dsimp only
  split
  · split
    · exact hsame
    · exact ⟨hsame.client, hsame.handlesDB, hsame.customFuncs, hsame.notificationTree,
        hsame.changeNotifyCallback⟩
  · exact hsame

theorem getDbContext_same {frame : CallFrame} {isFile : Bool} :
    SameButTables lib (getDbContext S frame context resourceId isFile lib).2 := lookupEntry_same

theorem lookupEntry_error {rval : ℤ} (h : (lookupEntry S context resourceId lib).1 = .error rval) :
    rval < 0 := by
  unfold lookupEntry at h
  dsimp only at h
  split at h
  · split at h
    · cases h
      decide
    · dsimp only at h
      split at h <;> cases h
      decide
  · rename_i hneg
    cases h
    exact not_le.mp hneg

theorem tableEntry_iff {configKey : PersistenceConfigurationKey} :
    TableEntry S context resourceId lib configKey ↔
      (lookupEntry S context resourceId lib).1 = .ok configKey := by
  unfold TableEntry lookupEntry
  dsimp only
  constructor
  · rintro ⟨hopen, rctRead, hread, hentry⟩
    rw [if_pos hopen, hread]
    dsimp only
    rw [hentry]
  · intro hfound
    split at hfound
    · rename_i hopen
      refine ⟨hopen, ?_⟩
      cases hread : S.plugin.persComRctRead with
      | none =>
        rw [hread] at hfound
        cases hfound
      | some rctRead =>
        rw [hread] at hfound
        dsimp only at hfound
        split at hfound
        · cases hfound
        · rename_i hentry
          cases hfound
          exact ⟨rctRead, rfl, hentry⟩
    · cases hfound

theorem contextOfEntry_configKey {behindKey : CStr} {configKey : PersistenceConfigurationKey} :
    (contextOfEntry S context resourceId behindKey configKey).configKey = configKey := by
  unfold contextOfEntry
  split <;> rfl

theorem getDbContext_cases (S : Setup W) (frame : CallFrame) (context : PersistenceDbContext)
    (resourceId : CStr) (isFile : Bool) (lib : Library W) :
    (∃ configKey, (getDbContext S frame context resourceId isFile lib).1 =
      contextOfEntry S context resourceId frame.behindKey configKey) ∨
    ((getDbContext S frame context resourceId isFile lib).1.rval < 0 ∧
      (getDbContext S frame context resourceId isFile lib).1.configKey = frame.leftover) := by
  unfold getDbContext
  dsimp only
  split
  · exact Or.inl ⟨_, rfl⟩
  · rename_i rval herror
    split
    · exact Or.inl ⟨_, rfl⟩
    · exact Or.inr ⟨lookupEntry_error herror, rfl⟩

end Context

end PersClient.Key
