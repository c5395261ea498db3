import PersClient.Key.Sources

/-! # Writing, reading and deleting one entry

Reads, size queries and deletions of a local or shared key ask its value
database for its key. So does a write, except that of the user of the default
data: it goes to the configurable defaults under the resource id, where reads
only fall back to and deletions never come.
-/

namespace PersClient.Key

open File Access Steps

variable {W : Type}

section Laws

def setEntry (data : CStr → CStr → Option Bytes) (path key : CStr) (entry : Option Bytes) :
    CStr → CStr → Option Bytes :=
  Function.update data path (Function.update (data path) key entry)

theorem setEntry_self {data : CStr → CStr → Option Bytes} {path key : CStr} {entry : Option Bytes} :
    setEntry data path key entry path key = entry := by
  rw [setEntry, Function.update_self, Function.update_self]

theorem setEntry_of_ne {data : CStr → CStr → Option Bytes} {path key path' key' : CStr}
    {entry : Option Bytes} (h : ¬ (path' = path ∧ key' = key)) :
    setEntry data path key entry path' key' = data path' key' := by
  unfold setEntry
  by_cases hpath : path' = path
  · subst hpath
    rw [Function.update_self, Function.update_of_ne fun hkey => h ⟨rfl, hkey⟩]
  · rw [Function.update_of_ne hpath]

/-- The databases behave as maps from keys to data. -/
structure MapLaws (plugin : Plugin W) (bound : W → ℤ → Option CStr)
    (data : W → CStr → CStr → Option Bytes) : Prop extends LookLaws plugin bound data where
  read_loaded : plugin.persComDbReadKey.isSome = true
  size_loaded : plugin.persComDbGetKeySize.isSome = true
  delete_loaded : plugin.persComDbDeleteKey.isSome = true
  read : ∀ f, plugin.persComDbReadKey = some f → ∀ handle path key buffer size w d,
    bound w handle = some path → data w path key = some d → (d.length : ℤ) ≤ size →
      Delivers (f handle key buffer size w).1 d
  size : ∀ f, plugin.persComDbGetKeySize = some f → ∀ handle path key w d,
    bound w handle = some path → data w path key = some d → (f handle key w).1 = d.length
  write : ∀ f, plugin.persComDbWriteKey = some f → ∀ handle path key buffer size w,
    bound w handle = some path → 0 ≤ (f handle key buffer size w).1 →
      data (f handle key buffer size w).2 =
        setEntry (data w) path key (some (buffer.take size.toNat))
  delete : ∀ f, plugin.persComDbDeleteKey = some f → ∀ handle path key w,
    bound w handle = some path →
      data (f handle key w).2 = setEntry (data w) path key none

end Laws

section Entry

variable {S : Setup W} {bound : W → ℤ → Option CStr} {data : W → CStr → CStr → Option Bytes}
  {lib lib' : Library W} {info : PersistenceInfo} {dbPath key resourceID path : CStr} {d : Bytes}

theorem persistenceGetData_of_entry (laws : MapLaws S.plugin bound data) (h : OpenHandles bound lib)
    (hstorage : info.configKey.storage = .local ∨ info.configKey.storage = .shared)
    (hsource : (keyGet info dbPath (.policy info.configKey.policy)).source S bound lib = some path)
    (hentry : data lib.world path key = some d) (buffer : Bytes) {size : ℤ}
    (hfits : (d.length : ℤ) ≤ size) :
    ∃ r lib', persistenceGetData S dbPath key resourceID info buffer size lib = some (r, lib') ∧
      Delivers r d := by
  obtain ⟨hsame, hget⟩ :=
    SameSources.get laws.toLookLaws h info dbPath (.policy info.configKey.policy)
  obtain ⟨f, hf⟩ := Option.isSome_iff_exists.mp laws.read_loaded
  rw [persistenceGetData_stored_eq hstorage, hf]
  generalize databaseGet S info dbPath (.policy info.configKey.policy) lib = got at *
  obtain ⟨handle, lib₁⟩ := got
  rw [hsource] at hget
  rcases hget with ⟨path', hpath, hpos, hbound⟩ | ⟨hno, -⟩
  · cases hpath
    dsimp only at hpos hbound hsame ⊢
    have hread := laws.read f hf handle path key buffer size lib₁.world d hbound
      (by rw [hsame.seen]; exact hentry) hfits
    have hnonneg : ¬ (f handle key buffer size lib₁.world).1.1 < 0 := by
      rw [hread.1]
      omega
    rw [if_pos hpos, if_neg hnonneg]
    exact ⟨_, _, rfl, hread⟩
  · cases hno

theorem persistenceGetDataSize_of_entry (laws : MapLaws S.plugin bound data)
    (h : OpenHandles bound lib)
    (hstorage : info.configKey.storage = .local ∨ info.configKey.storage = .shared)
    (hsource : (keyGet info dbPath (.policy info.configKey.policy)).source S bound lib = some path)
    (hentry : data lib.world path key = some d) :
    (persistenceGetDataSize S dbPath key resourceID info lib).1 = d.length := by
  obtain ⟨hsame, hget⟩ :=
    SameSources.get laws.toLookLaws h info dbPath (.policy info.configKey.policy)
  obtain ⟨f, hf⟩ := Option.isSome_iff_exists.mp laws.size_loaded
  rw [persistenceGetDataSize_stored_eq hstorage, hf]
  generalize databaseGet S info dbPath (.policy info.configKey.policy) lib = got at *
  obtain ⟨handle, lib₁⟩ := got
  rw [hsource] at hget
  rcases hget with ⟨path', hpath, hpos, hbound⟩ | ⟨hno, -⟩
  · cases hpath
    dsimp only at hpos hbound hsame ⊢
    have hsize := laws.size f hf handle path key lib₁.world d hbound
      (by rw [hsame.seen]; exact hentry)
    have hnonneg : ¬ (f handle key lib₁.world).1 < 0 := by
      rw [hsize]
      omega
    rw [if_pos hpos, if_neg hnonneg]
    exact hsize
  · cases hno

/-- A deletion removes the entry of the key from its value database, and no other. -/
theorem persistenceDeleteData_entries (laws : MapLaws S.plugin bound data)
    (h : OpenHandles bound lib)
    (hstorage : info.configKey.storage = .local ∨ info.configKey.storage = .shared)
    (frame : CallFrame) :
    data (persistenceDeleteData S frame dbPath key resourceID info lib).2.world =
      match (keyGet info dbPath (.policy info.configKey.policy)).source S bound lib with
      | some path => setEntry (data lib.world) path key none
      | none => data lib.world := by
  obtain ⟨hsame, hget⟩ :=
    SameSources.get laws.toLookLaws h info dbPath (.policy info.configKey.policy)
  obtain ⟨f, hf⟩ := Option.isSome_iff_exists.mp laws.delete_loaded
  have hnot : info.configKey.storage ≠ .custom := by
    rcases hstorage with hs | hs <;> rw [hs] <;> nofun
  rw [persistenceDeleteData, if_pos hnot, hf]
  generalize databaseGet S info dbPath (.policy info.configKey.policy) lib = got at *
  obtain ⟨handle, lib₁⟩ := got
  rcases hget with ⟨path, hpath, hpos, hbound⟩ | ⟨hno, hneg⟩
  · dsimp only at hpos hbound hsame ⊢
    rw [hpath, if_pos hpos]
    have hdelete := laws.delete f hf handle path key lib₁.world hbound
    rw [hsame.seen] at hdelete
    split <;> exact hdelete
  · dsimp only at hneg hsame ⊢
    rw [hno, if_neg (not_le.mpr hneg)]
    exact hsame.seen

end Entry

section Written

variable {S : Setup W} {bound : W → ℤ → Option CStr} {data : W → CStr → CStr → Option Bytes}
  {lib lib' : Library W} {info : PersistenceInfo} {dbPath key resourceID : CStr} {d : Bytes}

def writtenType (info : PersistenceInfo) : DbType :=
  if info.context.userNo = pclUserDefaultdata then .confdefault else .policy info.configKey.policy

def writtenKey (info : PersistenceInfo) (key resourceID : CStr) : CStr :=
  if info.context.userNo = pclUserDefaultdata then resourceID else key

theorem persistenceSetData_stored_eq
    (hstorage : info.configKey.storage = .local ∨ info.configKey.storage = .shared)
    (frame : CallFrame) (buffer : Bytes) (size : ℤ) :
    persistenceSetData S frame dbPath key resourceID info buffer size lib =
      let (handleDB, lib) := databaseGet S info dbPath (writtenType info) lib
      if 0 ≤ handleDB then
        match S.plugin.persComDbWriteKey with
        | none => (epersNoPluginFunct, lib)
        | some writeKey =>
          let (writeSize, world) :=
            writeKey handleDB (writtenKey info key resourceID) buffer size lib.world
          let lib := { lib with world }
          if writeSize < 0 then (writeSize, lib)
          else if info.configKey.storage = .shared then
            notifyChanged S frame resourceID info.context writeSize lib
          else (writeSize, lib)
      else (epersNoprctable, lib) := by
  unfold persistenceSetData
  rcases hstorage with hs | hs <;> rw [hs] <;> rfl

theorem persistenceSetData_writes (laws : MapLaws S.plugin bound data) (h : OpenHandles bound lib)
    (hstorage : info.configKey.storage = .local ∨ info.configKey.storage = .shared)
    {frame : CallFrame} {n : ℤ}
    (hset : persistenceSetData S frame dbPath key resourceID info d d.length lib = (n, lib'))
    (hn : 0 ≤ n) :
    ∃ path, (keyGet info dbPath (writtenType info)).source S bound lib = some path ∧
      data lib'.world =
        setEntry (data lib.world) path (writtenKey info key resourceID) (some d) ∧
      OpenHandles bound lib' ∧
      ∀ t, (keyGet info dbPath t).source S bound lib' =
        (keyGet info dbPath t).source S bound lib := by
  obtain ⟨hsame, hget⟩ := SameSources.get laws.toLookLaws h info dbPath (writtenType info)
  rw [persistenceSetData_stored_eq hstorage] at hset
  generalize databaseGet S info dbPath (writtenType info) lib = got at *
  obtain ⟨handle, lib₁⟩ := got
  dsimp only at hset hsame hget
  rcases hget with ⟨path, hpath, hpos, hbound⟩ | ⟨-, hneg⟩
  swap
  · rw [if_neg (not_le.mpr hneg)] at hset
    cases hset
    exact absurd hn (by decide)
  rw [if_pos hpos] at hset
  cases hf : S.plugin.persComDbWriteKey with
  | none =>
    rw [hf] at hset
    cases hset
    exact absurd hn (by decide)
  | some f =>
    rw [hf] at hset
    have hwrite := laws.write f hf handle path (writtenKey info key resourceID) d d.length
      lib₁.world hbound
    have hkeeps := laws.handles.writeKey f hf handle (writtenKey info key resourceID) d d.length
      lib₁.world
    dsimp only at hset hwrite hkeeps
    generalize f handle (writtenKey info key resourceID) d d.length lib₁.world = written at *
    obtain ⟨writeSize, w⟩ := written
    dsimp only at hset hwrite hkeeps
    split at hset
    · cases hset
      omega
    · rename_i hnonneg
      have hworld : lib'.gHandlesDB = lib₁.gHandlesDB ∧ lib'.world = w := by
        split at hset
        · rw [← show _ = lib' from congrArg Prod.snd hset]
          exact ⟨rfl, rfl⟩
        · cases hset
          exact ⟨rfl, rfl⟩
      obtain ⟨hhandles, hsource⟩ := Get.source_keep laws.toLookLaws hsame.handles hworld.1
        (by rw [hworld.2, hkeeps])
      refine ⟨path, hpath, ?_, hhandles, fun t => (hsource _).trans (hsame.source t)⟩
      rw [hworld.2, hwrite (not_lt.mp hnonneg), hsame.seen, Int.toNat_natCast, List.take_length]

inductive Look
  | querySize
  | read (buffer : Bytes) (bufferSize : ℤ)

/-- The library after a size query or a read of the key. -/
def Look.perform (S : Setup W) (dbPath key resourceID : CStr) (info : PersistenceInfo)
    (lib : Library W) : Look → Library W
  | .querySize => (persistenceGetDataSize S dbPath key resourceID info lib).2
  | .read buffer bufferSize =>
    match persistenceGetData S dbPath key resourceID info buffer bufferSize lib with
    | some (_, lib) => lib
    | none => lib

theorem look_same (laws : LookLaws S.plugin bound data)
    (hstorage : info.configKey.storage = .local ∨ info.configKey.storage = .shared)
    (h : OpenHandles bound lib) (look : Look) :
    SameSources S bound data info dbPath lib (look.perform S dbPath key resourceID info lib) := by
  cases look with
  | querySize => exact persistenceGetDataSize_same laws h hstorage
  | read buffer bufferSize =>
    dsimp only [Look.perform]
    split
    · rename_i heq
      exact persistenceGetData_same laws h hstorage heq
    · exact .keep laws h rfl rfl rfl

theorem looks_same (laws : LookLaws S.plugin bound data)
    (hstorage : info.configKey.storage = .local ∨ info.configKey.storage = .shared)
    (h : OpenHandles bound lib) (dbPath key resourceID : CStr) (looks : List Look) :
    SameSources S bound data info dbPath lib
      (run (Look.perform S dbPath key resourceID info) lib looks) := by
  have hstep : ∀ lib₁ look, SameSources S bound data info dbPath lib lib₁ →
      SameSources S bound data info dbPath lib
        (Look.perform S dbPath key resourceID info lib₁ look) :=
    fun lib₁ look hsame => hsame.trans (look_same laws hstorage hsame.handles look)
  exact run_invariant_of_forall hstep (.keep laws h rfl rfl rfl) looks

/-- After the write of `d` that led from `lib` to `lib'`, and whatever size
queries and reads followed: a read delivers `d`, a size query tells its length
and a deletion removes the entry that was written. -/
def Addressed (S : Setup W) (bound : W → ℤ → Option CStr) (data : W → CStr → CStr → Option Bytes)
    (dbPath key resourceID : CStr) (info : PersistenceInfo) (d : Bytes) (lib lib' : Library W) :
    Prop :=
  ∀ looks : List Look,
    let lib₁ := run (Look.perform S dbPath key resourceID info) lib' looks
    (∀ buffer size, (d.length : ℤ) ≤ size → ∃ r lib₂,
      persistenceGetData S dbPath key resourceID info buffer size lib₁ = some (r, lib₂) ∧
        Delivers r d) ∧
    (persistenceGetDataSize S dbPath key resourceID info lib₁).1 = d.length ∧
    ∀ frame path, (keyGet info dbPath (writtenType info)).source S bound lib = some path →
      data (persistenceDeleteData S frame dbPath key resourceID info lib₁).2.world path
        (writtenKey info key resourceID) = none

/-- The calls of a local or shared key address one entry exactly if its user is
not the one of the default data, or its value database is its configurable
default database and its key the resource id. -/
theorem write_read_delete_iff (laws : MapLaws S.plugin bound data) (h : OpenHandles bound lib)
    (hstorage : info.configKey.storage = .local ∨ info.configKey.storage = .shared)
    {frame : CallFrame} {n : ℤ}
    (hset : persistenceSetData S frame dbPath key resourceID info d d.length lib = (n, lib'))
    (hn : 0 ≤ n) :
    Addressed S bound data dbPath key resourceID info d lib lib' ↔
      info.context.userNo ≠ pclUserDefaultdata ∨ key = resourceID ∧
        (keyGet info dbPath (.policy info.configKey.policy)).source S bound lib =
          (keyGet info dbPath .confdefault).source S bound lib := by
  obtain ⟨path, hpath, hdata, h', hsource⟩ :=
    persistenceSetData_writes laws h hstorage hset hn
  have hlooks := looks_same laws.toLookLaws hstorage h' dbPath key resourceID
  constructor
  · intro haddressed
    by_contra hother
    push Not at hother
    obtain ⟨huser, hother⟩ := hother
    have htype : writtenType info = .confdefault := if_pos huser
    have hkey : writtenKey info key resourceID = resourceID := if_pos huser
    rw [htype] at hpath
    rw [hkey] at hdata
    have hgone := (haddressed []).2.2 frame path (by rw [htype]; exact hpath)
    rw [hkey, run_nil, persistenceDeleteData_entries laws h' hstorage, hsource] at hgone
    -- the deletion spares the entry that was written
    have hthere : data lib'.world path resourceID = some d := by
      rw [hdata]
      exact setEntry_self
    cases hvalue : (keyGet info dbPath (.policy info.configKey.policy)).source S bound lib with
    | none =>
      rw [hvalue] at hgone
      exact absurd (hthere.symm.trans hgone) nofun
    | some path' =>
      rw [hvalue] at hgone hother
      dsimp only at hgone
      rw [setEntry_of_ne] at hgone
      · rw [hthere] at hgone
        cases hgone
      · rintro ⟨rfl, rfl⟩
        exact hother rfl (by rw [hpath])
  · intro hone looks
    -- the write went where reads and deletions come
    have hvalue : (keyGet info dbPath (.policy info.configKey.policy)).source S bound lib =
        some path ∧ writtenKey info key resourceID = key := by
      by_cases huser : info.context.userNo = pclUserDefaultdata
      · obtain hno | ⟨hkey, heq⟩ := hone
        · exact absurd huser hno
        · rw [writtenType, if_pos huser] at hpath
          exact ⟨heq.trans hpath, (if_pos huser).trans hkey.symm⟩
      · rw [writtenType, if_neg huser] at hpath
        exact ⟨hpath, if_neg huser⟩
    obtain ⟨hvalue, hkey⟩ := hvalue
    rw [hkey] at hdata
    have hlook := hlooks looks
    dsimp only
    generalize run (Look.perform S dbPath key resourceID info) lib' looks = lib₁ at hlook ⊢
    have hvalue₁ : (keyGet info dbPath (.policy info.configKey.policy)).source S bound lib₁ =
        some path := by rw [hlook.source, hsource, hvalue]
    have hentry : data lib₁.world path key = some d := by
      rw [hlook.seen, hdata]
      exact setEntry_self
    refine ⟨fun buffer size hfits => persistenceGetData_of_entry laws hlook.handles hstorage
      hvalue₁ hentry buffer hfits, persistenceGetDataSize_of_entry laws hlook.handles hstorage
      hvalue₁ hentry, fun frame path' hpath' => ?_⟩
    rw [hpath, Option.some.injEq] at hpath'
    subst hpath'
    rw [hkey, persistenceDeleteData_entries laws hlook.handles hstorage, hvalue₁]
    exact setEntry_self

end Written

section Example

variable {configKey : PersistenceConfigurationKey}

theorem store_maps : MapLaws (Plugin.store configKey) Store.bound Store.entries where
  handles := store_handles
  open_alike := by
    rintro f ⟨⟩ path flags w w' -
    exact Int.natCast_nonneg _
  open_seen := by
    rintro f ⟨⟩ path flags w
    rfl
  read_seen := by
    rintro f ⟨⟩ handle key buffer size w
    dsimp only
    split
    · split <;> rfl
    · rfl
  size_seen := by
    rintro f ⟨⟩ handle key w
    dsimp only
    split <;> rfl
  read_loaded := rfl
  size_loaded := rfl
  delete_loaded := rfl
  read := by
    rintro f ⟨⟩ handle path key buffer size w d hbound hentry hfits
    dsimp only
    rw [Store.get_of_bound hbound, hentry]
    dsimp only
    rw [if_pos hfits]
    exact ⟨rfl, List.take_left⟩
  size := by
    rintro f ⟨⟩ handle path key w d hbound hentry
    dsimp only
    rw [Store.get_of_bound hbound, hentry]
  write := by
    rintro f ⟨⟩ handle path key buffer size w hbound hpos
    dsimp only at hpos ⊢
    rw [hbound] at hpos ⊢
    dsimp only at hpos ⊢
    split
    · rename_i hneg
      rw [if_pos hneg] at hpos
      exact absurd hpos (show ¬ (0 : ℤ) ≤ -2 by decide)
    · rfl
  delete := by
    rintro f ⟨⟩ handle path key w hbound
    dsimp only
    rw [hbound]
    dsimp only
    cases hentry : w.entries path key with
    | some d => rfl
    | none =>
      -- there is nothing to remove
      funext path' key'
      by_cases hsame : path' = path ∧ key' = key
      · obtain ⟨rfl, rfl⟩ := hsame
        rw [setEntry_self]
        exact hentry
      · rw [setEntry_of_ne hsame]

def volumeInfo (userNo : UInt32) : PersistenceInfo :=
  ⟨⟨pclLdbidLocal, userNo, 0⟩, localKeyEntry .wc⟩

/-- The write of a volume to databases without entries. -/
def writeVolume (userNo : UInt32) : ℤ × Library Store :=
  persistenceSetData (storeSetup (volumeInfo userNo).configKey) ⟨localKeyEntry .wc, [], true⟩
    (cstr "/Data") (cstr "/node/volume") (cstr "volume") (volumeInfo userNo) [0x35] 1
    (storeLibrary fun _ _ => none)

theorem volume_addressed :
    Addressed (storeSetup (volumeInfo 1).configKey) Store.bound Store.entries (cstr "/Data")
      (cstr "/node/volume") (cstr "volume") (volumeInfo 1) [0x35] (storeLibrary fun _ _ => none)
      (writeVolume 1).2 :=
  (write_read_delete_iff store_maps (storeLibrary_openHandles _) (Or.inl rfl)
    (show writeVolume 1 = ((writeVolume 1).1, (writeVolume 1).2) from rfl)
    (by decide +kernel)).mpr (Or.inl (by decide))

/-- A configurable default that was written stays when it is deleted. -/
theorem default_volume_stays :
    ¬ (∀ userNo, 0 ≤ (writeVolume userNo).1 →
      Addressed (storeSetup (volumeInfo userNo).configKey) Store.bound Store.entries (cstr "/Data")
        (cstr "/node/volume") (cstr "volume") (volumeInfo userNo) [0x35]
        (storeLibrary fun _ _ => none) (writeVolume userNo).2) := by
  intro h
  have hsource : (keyGet (volumeInfo pclUserDefaultdata) (cstr "/Data")
      (writtenType (volumeInfo pclUserDefaultdata))).source
        (storeSetup (volumeInfo pclUserDefaultdata).configKey) Store.bound
        (storeLibrary fun _ _ => none) = some (cstr "/Data/configurable-default-data.itz") := by
    decide +kernel
  have hgone := (h pclUserDefaultdata (by decide +kernel) []).2.2 ⟨localKeyEntry .wc, [], true⟩ _
    hsource
  have hstays : (persistenceDeleteData (storeSetup (volumeInfo pclUserDefaultdata).configKey)
      ⟨localKeyEntry .wc, [], true⟩ (cstr "/Data") (cstr "/node/volume") (cstr "volume")
      (volumeInfo pclUserDefaultdata) (writeVolume pclUserDefaultdata).2).2.world.entries
        (cstr "/Data/configurable-default-data.itz") (cstr "volume") = some [0x35] := by
    decide +kernel
  exact absurd (hstays.symm.trans hgone) nofun

end Example

end PersClient.Key
