import PersClient.Lib.Buffer
import PersClient.Key.Context

/-! # The buffers of a context

`get_db_context` fills two arrays of its caller. Most routes print into them
with the array's size as bound; custom resources are copied with the length of
the source as bound.
-/

namespace PersClient.Key

open File Text Prct

section Printing

variable (com : CommonObject) (appId : CStr)

/-- The `snprintf` of `get_db_path_and_key` on `dbPath`, its bound and its text. -/
def dbPathPrint (info : PersistenceInfo) (dbKey : CStr) : Option (ℕ × CStr) :=
  let size := com.maxLengthPathFilename
  let ldbid := info.context.ldbid
  let isKey := info.configKey.type = PersistenceResourceType.key
  if ldbid < 0x80 then
    if ldbid ≠ pclLdbidPublic then
      match info.configKey.policy with
      | .wc => some (size, if isKey then getSharedCachePath com appId ldbid
          else getSharedCachePathKey com appId ldbid dbKey)
      | .wt => some (size, if isKey then getSharedWtPath com appId ldbid
          else getSharedWtPathKey com appId ldbid dbKey)
      | .na => none
    else
      match info.configKey.policy with
      | .wc => some (size, if isKey then getSharedPublicCachePath com appId
          else getSharedPublicCachePathKey com appId dbKey)
      | .wt => some (size, if isKey then getSharedPublicWtPath com appId
          else getSharedPublicWtPathKey com appId dbKey)
      | .na => none
  else
    match info.configKey.policy with
    | .wc => some (size, if isKey then getLocalCachePath com appId
        else getLocalCachePathKey com appId dbKey)
    | .wt => some (size - 1, if isKey then getLocalWtPath com appId
        else getLocalWtPathKey com appId dbKey)
    | .na => none

theorem getDbPath_print {info : PersistenceInfo} {dbKey dbPath : CStr} :
    getDbPath com appId info dbKey dbPath =
      match dbPathPrint com appId info dbKey with
      | some (size, text) => PersClient.snprintf size text
      | none => dbPath := by
  unfold getDbPath dbPathPrint
  dsimp only
  cases info.configKey.policy <;> split <;> first | rfl | (split <;> rfl)

variable {com appId}

/-- The print is bounded by the array, and its text is the folder of the
database with, for a file, the key behind it. -/
theorem dbPathPrint_some {info : PersistenceInfo} {dbKey text : CStr} {size : ℕ}
    (h : dbPathPrint com appId info dbKey = some (size, text)) :
    size ≤ com.maxLengthPathFilename ∧
      text = policyPrefix com info.configKey.policy ++ appId ++ folder info.context.ldbid ++
        if info.configKey.type = .key then [] else dbKey := by
  have hlow : pclLdbidPublic < 0x80 := by decide
  unfold dbPathPrint at h
  unfold folder
  by_cases hldbid : info.context.ldbid < 0x80 <;>
    by_cases hpublic : info.context.ldbid = pclLdbidPublic <;>
    by_cases htype : info.configKey.type = .key <;>
    cases hpolicy : info.configKey.policy <;>
    simp only [hldbid, hpublic, htype, hpolicy, ne_eq, not_true_eq_false, not_false_eq_true,
      if_true, if_false, reduceCtorEq, Option.some.injEq, Prod.mk.injEq] at h <;>
    obtain ⟨rfl, rfl⟩ := h <;>
    simp [hlow, hldbid, hpublic, htype, policyPrefix, getSharedCachePath, getSharedWtPath,
      getSharedPublicCachePath,
      getSharedPublicWtPath, getLocalCachePath, getLocalWtPath, getSharedCachePathKey,
      getSharedWtPathKey, getSharedPublicCachePathKey, getSharedPublicWtPathKey,
      getLocalCachePathKey, getLocalWtPathKey]

end Printing

structure DbBuffers where
  dbKey : Buffer
  dbPath : Buffer
  deriving DecidableEq

def DbBuffers.zeros (com : CommonObject) : DbBuffers where
  dbKey := .zeros com.maxLengthKeyName
  dbPath := .zeros com.maxLengthPathFilename

structure DbBuffers.Hold (b : DbBuffers) : Prop where
  dbKey : b.dbKey.Holds
  dbPath : b.dbPath.Holds

section Fill

variable {W : Type*} (S : Setup W)

/-- What `get_db_path_and_key` does to the arrays. A file's path is made from
the key as it stands in its array. -/
def DbBuffers.getDbPathAndKey (info : PersistenceInfo) (resourceId : CStr) (b : DbBuffers) :
    DbBuffers :=
  let dbKey := b.dbKey.snprintf S.com.maxLengthKeyName (dbKeyText S.com info.context resourceId)
  match dbPathPrint S.com S.appId info dbKey.string with
  | some (size, text) => { dbKey, dbPath := b.dbPath.snprintf size text }
  | none => { dbKey, dbPath := b.dbPath }

def DbBuffers.ofEntry (context : PersistenceDbContext) (resourceId : CStr)
    (configKey : PersistenceConfigurationKey) : DbBuffers :=
  if configKey.storage ≠ .custom then
    (DbBuffers.zeros S.com).getDbPathAndKey S ⟨context, configKey⟩ resourceId
  else
    { dbKey := (Buffer.zeros S.com.maxLengthKeyName).strncpy resourceId resourceId.length
      dbPath := (Buffer.zeros S.com.maxLengthPathFilename).strncpy configKey.customName
        configKey.customName.length }

/-- What `get_db_context` leaves in the arrays, which its caller filled with zeros. -/
def dbContextBuffers (frame : CallFrame) (context : PersistenceDbContext) (resourceId : CStr)
    (isFile : Bool) (lib : Library W) : DbBuffers :=
  match (lookupEntry S context resourceId lib).1 with
  | .ok configKey => DbBuffers.ofEntry S context resourceId configKey
  | .error _ =>
    if context.ldbid = pclLdbidLocal then
      DbBuffers.ofEntry S context resourceId (defaultConfigKey S.com isFile frame.leftover)
    else DbBuffers.zeros S.com

end Fill

/-- The sizes of the arrays: both have room for an end, and a path array holds
what fits the field of a custom name. -/
structure BufferSizes (com : CommonObject) (maxLengthCustomName : ℕ) : Prop where
  key : 0 < com.maxLengthKeyName
  path : 0 < com.maxLengthPathFilename
  custom : maxLengthCustomName ≤ com.maxLengthPathFilename

section Hold

variable {W : Type*} {S : Setup W} {context : PersistenceDbContext} {resourceId : CStr}
  {lib : Library W} {maxLengthCustomName : ℕ} {configKey : PersistenceConfigurationKey}

theorem BufferSizes.zeros_hold (sizes : BufferSizes S.com maxLengthCustomName) :
    (DbBuffers.zeros S.com).Hold where
  dbKey := (Buffer.zeros_spells sizes.key).holds
  dbPath := (Buffer.zeros_spells sizes.path).holds

theorem BufferSizes.print_hold (sizes : BufferSizes S.com maxLengthCustomName)
    (info : PersistenceInfo) :
    ((DbBuffers.zeros S.com).getDbPathAndKey S info resourceId).Hold := by
  have hzeros := sizes.zeros_hold
  have hkey : ((DbBuffers.zeros S.com).dbKey.snprintf S.com.maxLengthKeyName
      (dbKeyText S.com info.context resourceId)).Holds :=
    hzeros.dbKey.snprintf Buffer.zeros_length.ge
  unfold DbBuffers.getDbPathAndKey
  dsimp only
  split
  · rename_i hprint
    exact ⟨hkey, hzeros.dbPath.snprintf ((dbPathPrint_some hprint).1.trans Buffer.zeros_length.ge)⟩
  · exact ⟨hkey, hzeros.dbPath⟩

theorem BufferSizes.custom_hold_iff (sizes : BufferSizes S.com maxLengthCustomName)
    (hid : nul ∉ resourceId) (hstorage : configKey.storage = .custom)
    (hname : configKey.customName.length < maxLengthCustomName) :
    (DbBuffers.ofEntry S context resourceId configKey).Hold ↔
      resourceId.length < S.com.maxLengthKeyName := by
  unfold DbBuffers.ofEntry
  rw [if_neg (not_not.mpr hstorage)]
  constructor
  · rintro ⟨hkey, -⟩
    by_contra hlong
    exact Buffer.strncpy_not_holds (Buffer.zeros_length.trans_le (not_lt.mp hlong)) hid hkey
  · intro hshort
    exact ⟨Buffer.strncpy_zeros_holds hshort,
      Buffer.strncpy_zeros_holds (hname.trans_le sizes.custom)⟩

theorem BufferSizes.ofEntry_hold (sizes : BufferSizes S.com maxLengthCustomName)
    (hstorage : configKey.storage ≠ .custom) :
    (DbBuffers.ofEntry S context resourceId configKey).Hold := by
  unfold DbBuffers.ofEntry
  rw [if_pos hstorage]
  exact sizes.print_hold _

/-- The arrays hold what is put into them exactly when no custom resource has
an identifier as long as the array of the key. -/
theorem buffers_hold_iff (sizes : BufferSizes S.com maxLengthCustomName) (hid : nul ∉ resourceId)
    (hname : ∀ configKey, TableEntry S context resourceId lib configKey →
      configKey.customName.length < maxLengthCustomName)
    (frame : CallFrame) (isFile : Bool) :
    (dbContextBuffers S frame context resourceId isFile lib).Hold ↔
      ∀ configKey, TableEntry S context resourceId lib configKey →
        configKey.storage = .custom → resourceId.length < S.com.maxLengthKeyName := by
  unfold dbContextBuffers
  simp only [tableEntry_iff] at hname ⊢
  cases hentry : (lookupEntry S context resourceId lib).1 with
  | ok configKey =>
    dsimp only
    by_cases hstorage : configKey.storage = .custom
    · rw [sizes.custom_hold_iff hid hstorage (hname configKey hentry)]
      constructor
      · exact fun hshort _ _ _ => hshort
      · exact fun h => h configKey rfl hstorage
    · constructor
      · rintro - configKey' heq hcustom
        cases heq
        exact absurd hcustom hstorage
      · exact fun _ => sizes.ofEntry_hold hstorage
  | error rval =>
    dsimp only
    constructor
    · rintro - configKey' heq
      cases heq
    · intro _
      split
      · refine sizes.ofEntry_hold ?_
        unfold defaultConfigKey
        exact PersistenceStorage.noConfusion
      · exact sizes.zeros_hold

section Custom

def customEntry : PersistenceConfigurationKey where
  policy := .wc
  storage := .custom
  type := .key
  permission := .readWrite
  maxSize := 16
  reponsible := []
  customName := cstr "hwinfo"
  customID := []

def customSetup : Setup Unit := ⟨.standard, cstr "app", Plugin.constant customEntry⟩

def customLibrary : Library Unit :=
  ⟨.start .empty .empty, (), fun _ => -1, fun _ => false, fun _ => none, fun _ => {}, none, none⟩

theorem customSetup_sizes : BufferSizes customSetup.com 64 where
  key := by decide
  path := by decide
  custom := by decide

theorem customSetup_entry {resourceId : CStr} {configKey : PersistenceConfigurationKey} :
    TableEntry customSetup ⟨0, 0, 0⟩ resourceId customLibrary configKey ↔
      configKey = customEntry := by
  rw [tableEntry_iff]
  constructor
  · intro h
    cases h
    rfl
  · rintro rfl
    rfl

theorem customEntry_name : customEntry.customName.length < 64 := by
  simp [customEntry, cstr_eq]

theorem serial_hold :
    (dbContextBuffers customSetup ⟨customEntry, [], true⟩ ⟨0, 0, 0⟩ (cstr "serial") false
      customLibrary).Hold := by
  refine (buffers_hold_iff customSetup_sizes (by simp [nul, cstr_eq])
    (fun configKey h => ?_) _ _).mpr fun _ _ _ => by simp [customSetup, CommonObject.standard, cstr_eq]
  rw [customSetup_entry.mp h]
  exact customEntry_name

/-- A custom resource with an identifier of 128 characters leaves no end in the
array of its key. -/
theorem long_custom_id_unended :
    ¬ ∀ resourceId : CStr, nul ∉ resourceId →
      (dbContextBuffers customSetup ⟨customEntry, [], true⟩ ⟨0, 0, 0⟩ resourceId false
        customLibrary).Hold := by
  intro h
  have hid : nul ∉ List.replicate 128 'a' := fun hmem =>
    absurd (List.eq_of_mem_replicate hmem) (by decide)
  have hentry : TableEntry customSetup ⟨0, 0, 0⟩ (List.replicate 128 'a') customLibrary
      customEntry := customSetup_entry.mpr rfl
  have hhold := h (List.replicate 128 'a') hid
  unfold dbContextBuffers at hhold
  rw [tableEntry_iff.mp hentry] at hhold
  have hshort := (customSetup_sizes.custom_hold_iff hid rfl customEntry_name).mp hhold
  simp [customSetup, CommonObject.standard] at hshort

end Custom

end Hold

section Strings

/-- The strings of the common object, the application and a resource have no
zero inside. -/
structure ZeroFree {W : Type*} (S : Setup W) (resourceId : CStr) : Prop where
  root : nul ∉ S.com.rootPath
  node : nul ∉ S.com.gNode
  user : nul ∉ S.com.gUser
  seat : nul ∉ S.com.gSeat
  appId : nul ∉ S.appId
  resourceId : nul ∉ resourceId

variable {W : Type*} {S : Setup W} {context : PersistenceDbContext} {resourceId : CStr}
  {lib : Library W} {maxLengthCustomName : ℕ}

theorem nul_notMem_decimal (n : ℕ) : nul ∉ decimal n := by
  intro h
  exact absurd (isDigit_of_mem_decimal h) (by decide)

theorem nul_notMem_hex (n : ℕ) : nul ∉ hex n := by
  intro h
  exact absurd (mem_hexAlphabet_of_mem_hex h) (by decide)

theorem ZeroFree.dbKeyText (free : ZeroFree S resourceId) :
    nul ∉ dbKeyText S.com context resourceId := by
  have hslash : nul ≠ '/' := by decide
  unfold Prct.dbKeyText
  split
  · split
    · simp [free.node, free.resourceId, hslash]
    · split <;> simp [free.user, free.seat, free.resourceId, nul_notMem_decimal, hslash]
  · split <;>
      simp [free.user, free.seat, free.resourceId, nul_notMem_decimal, nul_notMem_hex, hslash]

theorem ZeroFree.dbPathPrint (free : ZeroFree S resourceId) {info : PersistenceInfo}
    {dbKey text : CStr} {size : ℕ} (hkey : nul ∉ dbKey)
    (h : dbPathPrint S.com S.appId info dbKey = some (size, text)) : nul ∉ text := by
  have hpolicy : nul ∉ policyPrefix S.com info.configKey.policy := by
    cases info.configKey.policy <;>
      simp [nul, policyPrefix, cachePrefix, wtPrefix, free.root, cstr_eq]
  have hfolder : nul ∉ folder info.context.ldbid := by
    unfold folder
    split
    · split
      · simp [nul, sharedGroupFolder, nul_notMem_hex, cstr_eq]
      · simp [nul, sharedPublicFolder, cstr_eq]
    · exact List.not_mem_nil
  rw [(dbPathPrint_some h).2]
  split <;> simp [hpolicy, hfolder, free.appId, hkey]

theorem zeros_snprintf_string {n size : ℕ} {text : CStr} (hn : 0 < n) (hsize : size ≤ n)
    (hfree : nul ∉ text) :
    ((Buffer.zeros n).snprintf size text).string = PersClient.snprintf size text := by
  by_cases hzero : size = 0
  · subst hzero
    exact Buffer.zeros_string
  · exact ((Buffer.zeros_spells hn).holds.snprintf_spells (Nat.pos_of_ne_zero hzero)
      (hsize.trans Buffer.zeros_length.ge) hfree).string_eq

theorem BufferSizes.print_string (sizes : BufferSizes S.com maxLengthCustomName)
    (free : ZeroFree S resourceId) (info : PersistenceInfo) :
    ((DbBuffers.zeros S.com).getDbPathAndKey S info resourceId).dbKey.string =
        getDbKey S.com info.context resourceId ∧
      ((DbBuffers.zeros S.com).getDbPathAndKey S info resourceId).dbPath.string =
        getDbPath S.com S.appId info (getDbKey S.com info.context resourceId) [] := by
  have hkey : ((DbBuffers.zeros S.com).dbKey.snprintf S.com.maxLengthKeyName
      (Prct.dbKeyText S.com info.context resourceId)).string =
      getDbKey S.com info.context resourceId :=
    zeros_snprintf_string sizes.key le_rfl free.dbKeyText
  have hfree : nul ∉ getDbKey S.com info.context resourceId :=
    fun hmem => free.dbKeyText (List.mem_of_mem_take hmem)
  unfold DbBuffers.getDbPathAndKey
  dsimp only
  rw [hkey, getDbPath_print]
  cases hprint : Key.dbPathPrint S.com S.appId info (getDbKey S.com info.context resourceId) with
  | none => exact ⟨hkey, Buffer.zeros_string⟩
  | some print =>
    obtain ⟨size, text⟩ := print
    exact ⟨hkey, zeros_snprintf_string sizes.path (dbPathPrint_some hprint).1
      (free.dbPathPrint hfree hprint)⟩

/-- The arrays against the key and the path the other modules take from
`get_db_context`: they spell them where they hold what is put into them. -/
theorem dbContextBuffers_string (sizes : BufferSizes S.com maxLengthCustomName)
    (free : ZeroFree S resourceId)
    (hname : ∀ configKey, TableEntry S context resourceId lib configKey →
      configKey.customName.length < maxLengthCustomName ∧ nul ∉ configKey.customName)
    (frame : CallFrame) (isFile : Bool)
    (hold : (dbContextBuffers S frame context resourceId isFile lib).Hold) :
    (dbContextBuffers S frame context resourceId isFile lib).dbKey.string =
        (getDbContext S frame context resourceId isFile lib).1.dbKey ∧
      (dbContextBuffers S frame context resourceId isFile lib).dbPath.string =
        (getDbContext S frame context resourceId isFile lib).1.dbPath := by
  have hentry : ∀ configKey : PersistenceConfigurationKey,
      (configKey.storage = .custom → resourceId.length < S.com.maxLengthKeyName ∧
        configKey.customName.length < S.com.maxLengthPathFilename ∧ nul ∉ configKey.customName) →
      (DbBuffers.ofEntry S context resourceId configKey).dbKey.string =
          (contextOfEntry S context resourceId frame.behindKey configKey).dbKey ∧
        (DbBuffers.ofEntry S context resourceId configKey).dbPath.string =
          (contextOfEntry S context resourceId frame.behindKey configKey).dbPath := by
    intro configKey hcustom
    unfold DbBuffers.ofEntry contextOfEntry
    by_cases hstorage : configKey.storage = .custom
    · obtain ⟨hshort, hfit, hfree⟩ := hcustom hstorage
      rw [if_neg (not_not.mpr hstorage), if_neg (not_not.mpr hstorage)]
      exact ⟨(Buffer.strncpy_zeros_spells hshort free.resourceId).string_eq,
        (Buffer.strncpy_zeros_spells hfit hfree).string_eq⟩
    · rw [if_pos hstorage, if_pos hstorage]
      exact sizes.print_string free _
  unfold dbContextBuffers at hold ⊢
  unfold getDbContext
  simp only [tableEntry_iff] at hname
  dsimp only
  cases hlookup : (lookupEntry S context resourceId lib).1 with
  | ok configKey =>
    rw [hlookup] at hold
    refine hentry configKey fun hcustom => ?_
    obtain ⟨hlength, hfree⟩ := hname configKey hlookup
    have hshort := (sizes.custom_hold_iff free.resourceId hcustom hlength).mp hold
    exact ⟨hshort, hlength.trans_le sizes.custom, hfree⟩
  | error rval =>
    dsimp only
    split
    · refine hentry _ fun hcustom => ?_
      unfold defaultConfigKey at hcustom
      exact PersistenceStorage.noConfusion hcustom
    · exact ⟨Buffer.zeros_string, Buffer.zeros_string⟩

end Strings

end PersClient.Key
