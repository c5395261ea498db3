import PersClient.Key.Entries

/-! # Read precedence

A key of its own comes before the configurable default, and that before the
factory default. The code goes on to the next database after every error and
not only where there is no entry: it ends with the first entry that can be read
into the buffer, where the first entry is wanted.
-/

namespace PersClient.Key

open File Access

variable {W : Type*}

structure Layers where
  own : Option DbEntry
  configurable : Option DbEntry
  factory : Option DbEntry

section Wanted

/-- There is no entry, or it cannot be read into a buffer of this size. -/
def Unreadable (size : ℤ) (layer : Option DbEntry) : Prop :=
  ∀ e, layer = some e → e.readable size = false

/-- What a read is to deliver, where `asked` databases were asked: the last of
them is the one the data are from. -/
structure Precedes (L : Layers) (r : ℤ × Bytes) (asked : ℕ) : Prop where
  own : ∀ e, L.own = some e → r.1 < 0 ∨ Delivers r e.data ∧ asked = 1
  configurable : L.own = none → ∀ e, L.configurable = some e → Delivers r e.data ∧ asked = 2
  factory : L.own = none → L.configurable = none → ∀ e, L.factory = some e →
    Delivers r e.data ∧ asked = 3
  missing : L.own = none → L.configurable = none → L.factory = none → r.1 = epersNokey

/-- The first entry can be read, or it is the key's own and none can. -/
def FirstReadable (size : ℤ) (L : Layers) : Prop :=
  match L.own, L.configurable, L.factory with
  | some e, configurable, factory =>
    e.readable size = true ∨ Unreadable size configurable ∧ Unreadable size factory
  | none, some e, _ => e.readable size = true
  | none, none, some e => e.readable size = true
  | none, none, none => True

/-- How a read ends: with the first entry that can be read, or with an error. -/
inductive ReadOutcome (size : ℤ) (L : Layers) (r : ℤ × Bytes) (asked : ℕ) : Prop
  | own (e : DbEntry) (there : L.own = some e) (readable : e.readable size = true)
      (delivers : Delivers r e.data) (last : asked = 1)
  | configurable (e : DbEntry) (own : Unreadable size L.own) (there : L.configurable = some e)
      (readable : e.readable size = true) (delivers : Delivers r e.data) (last : asked = 2)
  | factory (e : DbEntry) (own : Unreadable size L.own)
      (configurable : Unreadable size L.configurable) (there : L.factory = some e)
      (readable : e.readable size = true) (delivers : Delivers r e.data) (last : asked = 3)
  | refused (own : Unreadable size L.own) (configurable : Unreadable size L.configurable)
      (factory : Unreadable size L.factory) (neg : r.1 < 0)
      (missing : L.factory = none → r.1 = epersNokey)

variable {size : ℤ} {L : Layers} {r : ℤ × Bytes} {asked : ℕ} {e : DbEntry}

theorem not_unreadable (h : e.readable size = true) : ¬ Unreadable size (some e) := by
  intro hno
  rw [hno e rfl] at h
  cases h

theorem Delivers.not_neg {data : Bytes} (h : Delivers r data) : ¬ r.1 < 0 := by
  have := h.1
  omega

/-- The read ends as it should exactly if the first entry can be read, or if
none can and the first is the key's own. -/
theorem ReadOutcome.precedes_iff (h : ReadOutcome size L r asked) :
    Precedes L r asked ↔ FirstReadable size L := by
  obtain ⟨own, configurable, factory⟩ := L
  cases h with
  | own e there readable delivers last =>
    obtain rfl : own = some e := there
    refine iff_of_true ⟨?_, nofun, nofun, nofun⟩ (Or.inl readable)
    rintro e' ⟨⟩
    exact Or.inr ⟨delivers, last⟩
  | configurable e hown there readable delivers last =>
    obtain rfl : configurable = some e := there
    cases own with
    | some e' =>
      -- the key has an entry of its own, and gets a default
      refine iff_of_false (fun hp => ?_) ?_
      · rcases hp.own e' rfl with hneg | ⟨-, hlast⟩
        · exact delivers.not_neg hneg
        · omega
      · rintro (hr | ⟨hno, -⟩)
        · exact not_unreadable hr hown
        · exact not_unreadable readable hno
    | none =>
      refine iff_of_true ⟨nofun, ?_, nofun, nofun⟩ readable
      rintro - e' ⟨⟩
      exact ⟨delivers, last⟩
  | factory e hown hconfigurable there readable delivers last =>
    obtain rfl : factory = some e := there
    cases own with
    | some e' =>
      refine iff_of_false (fun hp => ?_) ?_
      · rcases hp.own e' rfl with hneg | ⟨-, hlast⟩
        · exact delivers.not_neg hneg
        · omega
      · rintro (hr | ⟨-, hno⟩)
        · exact not_unreadable hr hown
        · exact not_unreadable readable hno
    | none =>
      cases configurable with
      | some e' =>
        -- the configurable default is passed over
        refine iff_of_false (fun hp => ?_) fun hr => not_unreadable hr hconfigurable
        have := (hp.configurable rfl e' rfl).2
        omega
      | none =>
        refine iff_of_true ⟨nofun, nofun, ?_, nofun⟩ readable
        rintro - - e' ⟨⟩
        exact ⟨delivers, last⟩
  | refused hown hconfigurable hfactory neg missing =>
    cases own with
    | some e =>
      exact iff_of_true ⟨fun _ _ => Or.inl neg, nofun, nofun, nofun⟩
        (Or.inr ⟨hconfigurable, hfactory⟩)
    | none =>
      cases configurable with
      | some e =>
        exact iff_of_false (fun hp => (hp.configurable rfl e rfl).1.not_neg neg)
          fun hr => not_unreadable hr hconfigurable
      | none =>
        cases factory with
        | some e =>
          exact iff_of_false (fun hp => (hp.factory rfl rfl e rfl).1.not_neg neg)
            fun hr => not_unreadable hr hfactory
        | none => exact iff_of_true ⟨nofun, nofun, nofun, fun _ _ _ => missing rfl⟩ trivial

end Wanted

section Layer

variable {S : Setup W} {bound : W → ℤ → Option CStr} {entry : W → CStr → CStr → Option DbEntry}
  {f : ℤ → CStr → Bytes → ℤ → W → (ℤ × Bytes) × W}

theorem ReadLaws.read_cases (laws : ReadLaws S.plugin bound entry)
    (hf : S.plugin.persComDbReadKey = some f) {handle : ℤ} {path : CStr} {w : W}
    (hbound : bound w handle = some path) (key : CStr) (buffer : Bytes) (size : ℤ) :
    (∃ e, entry w path key = some e ∧ e.readable size = true ∧
      Delivers (f handle key buffer size w).1 e.data) ∨
    (Unreadable size (entry w path key) ∧ (f handle key buffer size w).1.1 < 0 ∧
      (entry w path key = none → (f handle key buffer size w).1.1 = S.plugin.persComErrNotFound)) := by
  cases hentry : entry w path key with
  | none =>
    have hmissing := laws.read_missing f hf handle path key buffer size w hbound hentry
    refine Or.inr ⟨nofun, ?_, fun _ => hmissing⟩
    rw [hmissing]
    exact laws.notFound_neg
  | some e =>
    cases hr : e.readable size with
    | true =>
      exact Or.inl ⟨e, rfl, hr, laws.read_found f hf handle path key buffer size w e hbound hentry hr⟩
    | false =>
      refine Or.inr ⟨?_, (laws.read_refused f hf handle path key buffer size w e hbound hentry hr).1,
        nofun⟩
      rintro e' ⟨⟩
      exact hr

variable {info : PersistenceInfo} {dbPath key resourceID : CStr} {buffer : Bytes} {size : ℤ}
  {lib : Library W}

/-- The entries of a key in the databases its requests lead to. -/
def layersOf (S : Setup W) (bound : W → ℤ → Option CStr) (entry : W → CStr → CStr → Option DbEntry)
    (info : PersistenceInfo) (dbPath key resourceID : CStr) (lib : Library W) : Layers where
  own := (keyGet info dbPath (.policy info.configKey.policy)).entryOf S bound entry lib key
  configurable := (keyGet info dbPath .confdefault).entryOf S bound entry lib resourceID
  factory := (keyGet info dbPath .default).entryOf S bound entry lib resourceID

/-- The three databases of a key can be opened. -/
def AllOpen (S : Setup W) (info : PersistenceInfo) (dbPath : CStr) : Prop :=
  ∀ t ∈ [.policy info.configKey.policy, .confdefault, .default], (keyGet info dbPath t).Opens S

theorem Get.Leads.entryOf {g : Get} {handle : ℤ} {path : CStr} {lib' : Library W}
    (h : g.Leads S bound entry lib handle path lib') (key : CStr) :
    g.entryOf S bound entry lib key = entry lib'.world path key := by
  rw [Get.entryOf, h.behind, h.same]
  rfl

theorem Get.Leads.entryOf_of_ne {g g' : Get} {handle : ℤ} {path : CStr} {lib' : Library W}
    (h : g.Leads S bound entry lib handle path lib') (hne : g'.slot S ≠ g.slot S) (key : CStr) :
    g'.entryOf S bound entry lib' key = g'.entryOf S bound entry lib key := by
  rw [Get.entryOf, Get.entryOf, h.others g' (Or.inr hne), h.same]

theorem persGetDefaults_outcome (laws : ReadLaws S.plugin bound entry)
    (hf : S.plugin.persComDbReadKey = some f) (h : OpenHandles bound lib)
    (hopen : AllOpen S info dbPath) {own : Option DbEntry} (hown : Unreadable size own)
    (resourceID : CStr) (buffer : Bytes) :
    ReadOutcome size ⟨own, (keyGet info dbPath .confdefault).entryOf S bound entry lib resourceID,
        (keyGet info dbPath .default).entryOf S bound entry lib resourceID⟩
      (persGetDefaults S dbPath resourceID info buffer size .data lib).1
      ((persGetDefaultsGets S dbPath resourceID info buffer size .data lib).length + 1) := by
  obtain ⟨handle₁, path₁, lib₁, lead₁⟩ := (hopen .confdefault (by simp)).leads h laws.handles laws.open_entry
  have hget₁ : databaseGet S info dbPath .confdefault lib = (handle₁, lib₁) := lead₁.perform
  rw [lead₁.entryOf, ← lead₁.entryOf_of_ne (keyGet_slot_ne (by simp))]
  simp only [persGetDefaults, persGetDefaultsGets, defaultsFrom, defaultsGets, hget₁,
    if_pos lead₁.nonneg, fetchDefault, hf]
  have hread₁ := laws.read_cases hf lead₁.open_handle resourceID buffer size
  have hbound₁ := laws.handles.readKey f hf handle₁ resourceID buffer size lib₁.world
  have hentry₁ := laws.read_entry f hf handle₁ resourceID buffer size lib₁.world
  generalize f handle₁ resourceID buffer size lib₁.world = r₁ at *
  rcases hread₁ with ⟨e, hthere, hr, hd⟩ | ⟨hno, hneg, -⟩
  · simp only [if_neg hd.not_neg]
    exact .configurable e hown hthere hr hd rfl
  · simp only [if_pos hneg]
    obtain ⟨handle₂, path₂, lib₂, lead₂⟩ := (hopen .default (by simp)).leads
      (lead₁.handles.world hbound₁) laws.handles laws.open_entry
    have hget₂ : databaseGet S info dbPath .default { lib₁ with world := r₁.2 } =
      (handle₂, lib₂) := lead₂.perform
    rw [← entryOf_world hbound₁ hentry₁, lead₂.entryOf]
    simp only [hget₂, if_pos lead₂.nonneg]
    have hread₂ := laws.read_cases hf lead₂.open_handle resourceID r₁.1.2 size
    generalize f handle₂ resourceID r₁.1.2 size lib₂.world = r₂ at *
    rcases hread₂ with ⟨e, hthere, hr, hd⟩ | ⟨hno', hneg', hmissing⟩
    · simp only [if_neg hd.not_neg]
      exact .factory e hown hno hthere hr hd rfl
    · simp only [if_pos hneg']
      refine .refused hown hno hno' ?_ fun hnone => ?_
      · dsimp only
        split
        · decide
        · exact hneg'
      · exact if_pos (hmissing hnone)

/-- A read of a local or shared key delivers the first entry that can be read. -/
theorem persistenceGetData_ends (laws : ReadLaws S.plugin bound entry)
    (hf : S.plugin.persComDbReadKey = some f) (h : OpenHandles bound lib)
    (hopen : AllOpen S info dbPath)
    (hstorage : info.configKey.storage = .local ∨ info.configKey.storage = .shared)
    (key resourceID : CStr) (buffer : Bytes) (size : ℤ) :
    ∃ r lib', persistenceGetData S dbPath key resourceID info buffer size lib = some (r, lib') ∧
      ReadOutcome size (layersOf S bound entry info dbPath key resourceID lib) r
        (getDataGets S dbPath key resourceID info buffer size lib).length := by
  obtain ⟨handle, path, lib₁, lead⟩ :=
    (hopen (.policy info.configKey.policy) (by simp)).leads h laws.handles laws.open_entry
  have hget : databaseGet S info dbPath (.policy info.configKey.policy) lib = (handle, lib₁) :=
    lead.perform
  have hread := laws.read_cases hf lead.open_handle key buffer size
  have hbound := laws.handles.readKey f hf handle key buffer size lib₁.world
  have hentry := laws.read_entry f hf handle key buffer size lib₁.world
  have hlayers : layersOf S bound entry info dbPath key resourceID lib =
      ⟨entry lib₁.world path key,
        (keyGet info dbPath .confdefault).entryOf S bound entry
          { lib₁ with world := (f handle key buffer size lib₁.world).2 } resourceID,
        (keyGet info dbPath .default).entryOf S bound entry
          { lib₁ with world := (f handle key buffer size lib₁.world).2 } resourceID⟩ := by
    rw [entryOf_world hbound hentry, entryOf_world hbound hentry,
      lead.entryOf_of_ne (keyGet_slot_ne (by simp)), lead.entryOf_of_ne (keyGet_slot_ne (by simp)),
      ← lead.entryOf]
    rfl
  rw [hlayers]
  have hends := fun buffer (hno : Unreadable size (entry lib₁.world path key)) =>
    persGetDefaults_outcome laws hf (lead.handles.world hbound) hopen hno resourceID buffer
  generalize hr₁ : f handle key buffer size lib₁.world = r₁ at *
  have hdata : persistenceGetData S dbPath key resourceID info buffer size lib =
      some (if r₁.1.1 < 0 then
        persGetDefaults S dbPath resourceID info r₁.1.2 size .data { lib₁ with world := r₁.2 }
      else (r₁.1, { lib₁ with world := r₁.2 })) := by
    unfold persistenceGetData
    rcases hstorage with hs | hs <;>
      simp only [hs, hget, if_pos lead.nonneg, hf, hr₁] <;> split <;> rfl
  have hgets : (getDataGets S dbPath key resourceID info buffer size lib).length =
      (if r₁.1.1 < 0 then
        persGetDefaultsGets S dbPath resourceID info r₁.1.2 size .data { lib₁ with world := r₁.2 }
      else []).length + 1 := by
    unfold getDataGets
    rcases hstorage with hs | hs <;>
      simp only [hs, hget, if_pos lead.nonneg, hf, hr₁, List.length_cons]
  rw [hdata, hgets]
  rcases hread with ⟨e, hthere, hr, hd⟩ | ⟨hno, hneg, -⟩
  · rw [if_neg hd.not_neg, if_neg hd.not_neg]
    exact ⟨_, _, rfl, .own e hthere hr hd rfl⟩
  · rw [if_pos hneg, if_pos hneg]
    exact ⟨_, _, rfl, hends _ hno⟩

/-- A read of a local or shared key delivers what comes first exactly if the
first of the three databases with an entry can give it into the buffer, or that
is the key's own and neither default can be given. -/
theorem read_precedence_iff (laws : ReadLaws S.plugin bound entry)
    (hf : S.plugin.persComDbReadKey = some f) (h : OpenHandles bound lib)
    (hopen : AllOpen S info dbPath)
    (hstorage : info.configKey.storage = .local ∨ info.configKey.storage = .shared)
    (key resourceID : CStr) (buffer : Bytes) (size : ℤ) :
    (∃ r lib', persistenceGetData S dbPath key resourceID info buffer size lib = some (r, lib') ∧
      Precedes (layersOf S bound entry info dbPath key resourceID lib) r
        (getDataGets S dbPath key resourceID info buffer size lib).length) ↔
    FirstReadable size (layersOf S bound entry info dbPath key resourceID lib) := by
  obtain ⟨r, lib', heq, hends⟩ := persistenceGetData_ends laws hf h hopen hstorage key
    resourceID buffer size
  rw [← hends.precedes_iff]
  constructor
  · rintro ⟨r', lib'', heq', hprecedes⟩
    rw [heq] at heq'
    cases heq'
    exact hprecedes
  · exact fun hprecedes => ⟨r, lib', heq, hprecedes⟩

end Layer

section Example

def langInfo : PersistenceInfo := ⟨⟨pclLdbidLocal, 0, 0⟩, localKeyEntry .wc⟩

/-- The key's own entry and its configurable default. -/
def langEntries (own configurable : Option Bytes) (path key : CStr) : Option Bytes :=
  if path = cstr "/Data/cached.itz" ∧ key = cstr "/node/lang" then own
  else if path = cstr "/Data/configurable-default-data.itz" ∧ key = cstr "lang" then configurable
  else none

theorem lang_allOpen : AllOpen (storeSetup langInfo.configKey) langInfo (cstr "/Data") := by
  intro t ht
  simp only [List.mem_cons, List.not_mem_nil, or_false] at ht
  rcases ht with rfl | rfl | rfl <;>
    exact ⟨by decide, _, _, _, rfl, rfl, fun w => Int.natCast_nonneg w.handles.length⟩

theorem lang_own (own configurable : Option Bytes) :
    (layersOf (storeSetup langInfo.configKey) Store.bound Store.entry langInfo (cstr "/Data")
      (cstr "/node/lang") (cstr "lang") (storeLibrary (langEntries own configurable))).own =
      own.map .plain := by
  have hfile : (keyGet langInfo (cstr "/Data") (.policy .wc)).file
      (storeSetup langInfo.configKey) = some (cstr "/Data/cached.itz") := by decide +kernel
  show (((keyGet langInfo (cstr "/Data") (.policy .wc)).file (storeSetup langInfo.configKey)).bind
    fun path => (langEntries own configurable path (cstr "/node/lang")).map DbEntry.plain) = _
  rw [hfile, Option.bind_some, langEntries, if_pos ⟨rfl, rfl⟩]

theorem lang_configurable (own configurable : Option Bytes) :
    (layersOf (storeSetup langInfo.configKey) Store.bound Store.entry langInfo (cstr "/Data")
      (cstr "/node/lang") (cstr "lang")
      (storeLibrary (langEntries own configurable))).configurable = configurable.map .plain := by
  have hfile : (keyGet langInfo (cstr "/Data") .confdefault).file (storeSetup langInfo.configKey) =
      some (cstr "/Data/configurable-default-data.itz") := by decide +kernel
  show (((keyGet langInfo (cstr "/Data") .confdefault).file (storeSetup langInfo.configKey)).bind
    fun path => (langEntries own configurable path (cstr "lang")).map DbEntry.plain) = _
  rw [hfile, Option.bind_some, langEntries, if_neg (by decide +kernel), if_pos ⟨rfl, rfl⟩]

/-- A key without an entry of its own gets the configurable default. -/
theorem lang_default :
    ∃ r lib', persistenceGetData (storeSetup langInfo.configKey) (cstr "/Data")
        (cstr "/node/lang") (cstr "lang") langInfo [0, 0] 2
        (storeLibrary (langEntries none (some [0x65]))) = some (r, lib') ∧
      Precedes (layersOf (storeSetup langInfo.configKey) Store.bound Store.entry langInfo
          (cstr "/Data") (cstr "/node/lang") (cstr "lang")
          (storeLibrary (langEntries none (some [0x65])))) r
        (getDataGets (storeSetup langInfo.configKey) (cstr "/Data") (cstr "/node/lang")
          (cstr "lang") langInfo [0, 0] 2
          (storeLibrary (langEntries none (some [0x65])))).length := by
  refine (read_precedence_iff store_reads rfl (storeLibrary_openHandles _) lang_allOpen
    (Or.inl rfl) _ _ _ _).mpr ?_
  unfold FirstReadable
  rw [lang_own, lang_configurable]
  rfl

/-- A key whose own entry does not fit the buffer gets its configurable default. -/
theorem long_entry_defaults :
    ¬ (∀ (info : PersistenceInfo) (dbPath key resourceID : CStr) (buffer : Bytes) (size : ℤ)
      (entries : CStr → CStr → Option Bytes), AllOpen (storeSetup info.configKey) info dbPath →
      info.configKey.storage = .local ∨ info.configKey.storage = .shared →
      ∃ r lib', persistenceGetData (storeSetup info.configKey) dbPath key resourceID info buffer
          size (storeLibrary entries) = some (r, lib') ∧
        Precedes (layersOf (storeSetup info.configKey) Store.bound Store.entry info dbPath key
            resourceID (storeLibrary entries)) r
          (getDataGets (storeSetup info.configKey) dbPath key resourceID info buffer size
            (storeLibrary entries)).length) ∧
    (persistenceGetData (storeSetup langInfo.configKey) (cstr "/Data") (cstr "/node/lang")
      (cstr "lang") langInfo [0, 0] 2
      (storeLibrary (langEntries (some [0x64, 0x65, 0x43, 0x48]) (some [0x65])))).map Prod.fst =
      some (1, [0x65, 0]) := by
  have hdefault : (persistenceGetData (storeSetup langInfo.configKey) (cstr "/Data")
      (cstr "/node/lang") (cstr "lang") langInfo [0, 0] 2
      (storeLibrary (langEntries (some [0x64, 0x65, 0x43, 0x48]) (some [0x65])))).map Prod.fst =
      some (1, [0x65, 0]) := by decide +kernel
  refine ⟨fun h => ?_, hdefault⟩
  obtain ⟨r, lib', heq, hprecedes⟩ := h langInfo (cstr "/Data") (cstr "/node/lang") (cstr "lang")
    [0, 0] 2 (langEntries (some [0x64, 0x65, 0x43, 0x48]) (some [0x65])) lang_allOpen (Or.inl rfl)
  rw [heq, Option.map_some, Option.some.injEq] at hdefault
  obtain rfl : r = (1, [0x65, 0]) := hdefault
  rcases hprecedes.own (.plain [0x64, 0x65, 0x43, 0x48]) (lang_own _ _) with hneg | ⟨hd, -⟩
  · exact absurd hneg (by decide)
  · exact absurd hd.1 (by decide)

end Example

end PersClient.Key
