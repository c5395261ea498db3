import PersClient.Key.Entries

/-! # Where the data of a key come from

The database a request gets is its source. To open databases and to read them
leaves every request of a key with the source it had, and all that is seen of
the databases as it was. A custom resource falls back to the defaults of the
key of its name.
-/

namespace PersClient.Key

open File Access

section Sources

variable {W : Type} {α : Type}

/-- To open and to read databases changes nothing that is seen of them, nor
whether a database can be opened. -/
structure LookLaws (plugin : Plugin W) (bound : W → ℤ → Option CStr) (obs : W → α) : Prop where
  handles : DbHandleLaws plugin bound
  open_alike : ∀ f, plugin.persComDbOpen = some f → ∀ path flags w w',
    0 ≤ (f path flags w).1 → 0 ≤ (f path flags w').1
  open_seen : ∀ f, plugin.persComDbOpen = some f → ∀ path flags w,
    obs (f path flags w).2 = obs w
  read_seen : ∀ f, plugin.persComDbReadKey = some f → ∀ handle key buffer size w,
    obs (f handle key buffer size w).2 = obs w
  size_seen : ∀ f, plugin.persComDbGetKeySize = some f → ∀ handle key w,
    obs (f handle key w).2 = obs w

/-- The database a request gets, if it gets one. -/
def Get.source (S : Setup W) (bound : W → ℤ → Option CStr) (lib : Library W) (g : Get) :
    Option CStr :=
  if 0 ≤ (g.perform S lib).1 then g.behind S bound lib else none

structure SameSources (S : Setup W) (bound : W → ℤ → Option CStr) (obs : W → α)
    (info : PersistenceInfo) (dbPath : CStr) (lib lib' : Library W) : Prop where
  handles : OpenHandles bound lib'
  seen : obs lib'.world = obs lib.world
  source : ∀ t, (keyGet info dbPath t).source S bound lib' =
    (keyGet info dbPath t).source S bound lib

variable {S : Setup W} {bound : W → ℤ → Option CStr} {obs : W → α} {lib lib' : Library W}
  {info : PersistenceInfo} {dbPath : CStr}

theorem SameSources.trans {lib'' : Library W} (h : SameSources S bound obs info dbPath lib lib')
    (h' : SameSources S bound obs info dbPath lib' lib'') :
    SameSources S bound obs info dbPath lib lib'' :=
  ⟨h'.handles, h'.seen.trans h.seen, fun t => (h'.source t).trans (h.source t)⟩

theorem Get.openable_of_table (laws : LookLaws S.plugin bound obs) {g : Get}
    (htable : lib'.gHandlesDB (g.slot S) = lib.gHandlesDB (g.slot S)) (h : g.Openable S lib) :
    g.Openable S lib' := by
  obtain ⟨hsize, hcached | ⟨name, flags, f, hfile, hopen, hpos⟩⟩ := h
  · exact ⟨hsize, Or.inl (by rwa [htable])⟩
  · exact ⟨hsize, Or.inr ⟨name, flags, f, hfile, hopen, laws.open_alike f hopen _ _ _ _ hpos⟩⟩

theorem Get.source_congr (laws : LookLaws S.plugin bound obs) (h : OpenHandles bound lib)
    (h' : OpenHandles bound lib') {g : Get}
    (htable : lib'.gHandlesDB (g.slot S) = lib.gHandlesDB (g.slot S))
    (hbehind : g.behind S bound lib' = g.behind S bound lib) :
    g.source S bound lib' = g.source S bound lib := by
  have hiff : 0 ≤ (g.perform S lib').1 ↔ 0 ≤ (g.perform S lib).1 := by
    rw [Get.perform_nonneg_iff h, Get.perform_nonneg_iff h']
    exact ⟨Get.openable_of_table laws htable.symm, Get.openable_of_table laws htable⟩
  simp only [Get.source, hiff, hbehind]

theorem Get.source_keep (laws : LookLaws S.plugin bound obs) (h : OpenHandles bound lib)
    (htable : lib'.gHandlesDB = lib.gHandlesDB) (hbound : bound lib'.world = bound lib.world) :
    OpenHandles bound lib' ∧ ∀ g : Get, g.source S bound lib' = g.source S bound lib := by
  have h' : OpenHandles bound lib' := by
    intro slot handle hslot
    rw [hbound]
    exact h slot handle (by rwa [← htable])
  refine ⟨h', fun g => Get.source_congr laws h h' (by rw [htable]) ?_⟩
  unfold Get.behind
  rw [htable, hbound]

theorem SameSources.keep (laws : LookLaws S.plugin bound obs) (h : OpenHandles bound lib)
    (htable : lib'.gHandlesDB = lib.gHandlesDB) (hbound : bound lib'.world = bound lib.world)
    (hseen : obs lib'.world = obs lib.world) : SameSources S bound obs info dbPath lib lib' := by
  obtain ⟨h', hsource⟩ := Get.source_keep laws h htable hbound
  exact ⟨h', hseen, fun t => hsource _⟩

theorem SameSources.world (laws : LookLaws S.plugin bound obs) (h : OpenHandles bound lib) {w : W}
    (hbound : bound w = bound lib.world) (hseen : obs w = obs lib.world) :
    SameSources S bound obs info dbPath lib { lib with world := w } :=
  .keep laws h rfl hbound hseen

/-- A request for a database of the key: it gets its source, and the other
requests keep theirs. -/
theorem SameSources.get (laws : LookLaws S.plugin bound obs) (h : OpenHandles bound lib)
    (info : PersistenceInfo) (dbPath : CStr) (t : DbType) :
    SameSources S bound obs info dbPath lib (databaseGet S info dbPath t lib).2 ∧
      ((∃ path, (keyGet info dbPath t).source S bound lib = some path ∧
          0 ≤ (databaseGet S info dbPath t lib).1 ∧
          bound (databaseGet S info dbPath t lib).2.world (databaseGet S info dbPath t lib).1 =
            some path) ∨
        ((keyGet info dbPath t).source S bound lib = none ∧
          (databaseGet S info dbPath t lib).1 < 0)) := by
  rcases (keyGet info dbPath t).leads_or_fails h laws.handles laws.open_seen with
    ⟨handle, path, lib₁, lead⟩ | ⟨error, w, hperform, hneg, hbound, hseen⟩
  · have heq : databaseGet S info dbPath t lib = (handle, lib₁) := lead.perform
    have hsource : (keyGet info dbPath t).source S bound lib = some path := by
      rw [Get.source, lead.perform, if_pos lead.nonneg, lead.behind]
    rw [heq]
    refine ⟨⟨lead.handles, lead.same, fun t' => ?_⟩,
      Or.inl ⟨path, hsource, lead.nonneg, lead.open_handle⟩⟩
    by_cases ht : t' = t
    · subst ht
      obtain ⟨path', lead'⟩ :
          ∃ path', (keyGet info dbPath t').Leads S bound obs lib₁ handle path' lib₁ :=
        Get.leads_cached lead.handles lead.cached
      rw [hsource, Get.source, lead'.perform, if_pos lead'.nonneg, lead.others _ (Or.inl rfl),
        lead.behind]
    · have hne : (keyGet info dbPath t').slot S ≠ (keyGet info dbPath t).slot S :=
        keyGet_slot_ne ht
      exact Get.source_congr laws h lead.handles (lead.table _ hne) (lead.others _ (Or.inr hne))
  · have heq : databaseGet S info dbPath t lib = (error, { lib with world := w }) := hperform
    rw [heq]
    refine ⟨.world laws h hbound hseen, Or.inr ⟨?_, hneg⟩⟩
    rw [Get.source, hperform, if_neg (by simpa using hneg)]

theorem fetchDefault_same (laws : LookLaws S.plugin bound obs) (job : PersGetDefault) (handle : ℤ)
    (key : CStr) (buffer : Bytes) (size : ℤ) (w : W) :
    bound (fetchDefault S job handle key buffer size w).2 = bound w ∧
      obs (fetchDefault S job handle key buffer size w).2 = obs w := by
  unfold fetchDefault
  cases job with
  | data =>
    cases hread : S.plugin.persComDbReadKey with
    | none => exact ⟨rfl, rfl⟩
    | some readKey =>
      exact ⟨laws.handles.readKey readKey hread .., laws.read_seen readKey hread ..⟩
  | size =>
    cases hsize : S.plugin.persComDbGetKeySize with
    | none => exact ⟨rfl, rfl⟩
    | some getKeySize =>
      exact ⟨laws.handles.getKeySize getKeySize hsize .., laws.size_seen getKeySize hsize ..⟩

theorem defaultsFrom_same (laws : LookLaws S.plugin bound obs) (key : CStr) (job : PersGetDefault)
    (size : ℤ) (ts : List DbType) (readSize : ℤ) (buffer : Bytes) (h : OpenHandles bound lib) :
    SameSources S bound obs info dbPath lib
      (defaultsFrom S dbPath key info size job ts readSize buffer lib).2 := by
  induction ts generalizing readSize buffer lib with
  | nil => exact .keep laws h rfl rfl rfl
  | cons t ts ih =>
    obtain ⟨hsame, -⟩ := SameSources.get laws h info dbPath t
    unfold defaultsFrom
    generalize databaseGet S info dbPath t lib = got at *
    obtain ⟨handle, lib₁⟩ := got
    dsimp only at hsame ⊢
    split
    · obtain ⟨hbound, hseen⟩ := fetchDefault_same laws job handle key buffer size lib₁.world
      have hsame' := hsame.trans (.world laws hsame.handles hbound hseen)
      generalize fetchDefault S job handle key buffer size lib₁.world = fetched at *
      obtain ⟨⟨readSize', buffer'⟩, w⟩ := fetched
      dsimp only at hsame' ⊢
      split
      · exact hsame'.trans (ih _ _ hsame'.handles)
      · exact hsame'
    · exact hsame.trans (ih _ _ hsame.handles)

end Sources

section Stored

variable {W : Type} {S : Setup W} {lib : Library W} {info : PersistenceInfo}
  {dbPath key resourceID : CStr}

theorem persistenceGetDataSize_stored_eq
    (hstorage : info.configKey.storage = .local ∨ info.configKey.storage = .shared) :
    persistenceGetDataSize S dbPath key resourceID info lib =
      let (handleDB, lib) := databaseGet S info dbPath (.policy info.configKey.policy) lib
      if 0 ≤ handleDB then
        match S.plugin.persComDbGetKeySize with
        | none => (epersNoPluginFunct, lib)
        | some getKeySize =>
          let (readSize, world) := getKeySize handleDB key lib.world
          let lib := { lib with world }
          if readSize < 0 then
            let ((readSize, _), lib) := persGetDefaults S dbPath resourceID info [] 0 .size lib
            (readSize, lib)
          else (readSize, lib)
      else (-1, lib) := by
  unfold persistenceGetDataSize
  rcases hstorage with hs | hs <;> rw [hs] <;> rfl

theorem persistenceGetData_stored_eq
    (hstorage : info.configKey.storage = .local ∨ info.configKey.storage = .shared) (buffer : Bytes) (size : ℤ) :
    persistenceGetData S dbPath key resourceID info buffer size lib =
      let (handleDB, lib) := databaseGet S info dbPath (.policy info.configKey.policy) lib
      if 0 ≤ handleDB then
        match S.plugin.persComDbReadKey with
        | none => some ((epersNoPluginFunct, buffer), lib)
        | some readKey =>
          let ((readSize, buffer), world) := readKey handleDB key buffer size lib.world
          let lib := { lib with world }
          if readSize < 0 then
            some (persGetDefaults S dbPath resourceID info buffer size .data lib)
          else some ((readSize, buffer), lib)
      else some ((-1, buffer), lib) := by
  unfold persistenceGetData
  rcases hstorage with hs | hs <;> rw [hs] <;> rfl

variable {α : Type} {bound : W → ℤ → Option CStr} {obs : W → α}

theorem persistenceGetDataSize_same (laws : LookLaws S.plugin bound obs) (h : OpenHandles bound lib)
    (hstorage : info.configKey.storage = .local ∨ info.configKey.storage = .shared) :
    SameSources S bound obs info dbPath lib
      (persistenceGetDataSize S dbPath key resourceID info lib).2 := by
  obtain ⟨hsame, -⟩ := SameSources.get laws h info dbPath (.policy info.configKey.policy)
  rw [persistenceGetDataSize_stored_eq hstorage]
  generalize databaseGet S info dbPath (.policy info.configKey.policy) lib = got at *
  obtain ⟨handle, lib₁⟩ := got
  dsimp only at hsame ⊢
  split
  · cases hf : S.plugin.persComDbGetKeySize with
    | none => exact hsame
    | some getKeySize =>
      have hsame' := hsame.trans (.world laws hsame.handles
        (laws.handles.getKeySize getKeySize hf handle key lib₁.world)
        (laws.size_seen getKeySize hf handle key lib₁.world))
      dsimp only
      split
      · exact hsame'.trans (defaultsFrom_same laws resourceID .size 0 _ _ [] hsame'.handles)
      · exact hsame'
  · exact hsame

theorem persistenceGetData_same (laws : LookLaws S.plugin bound obs) (h : OpenHandles bound lib)
    (hstorage : info.configKey.storage = .local ∨ info.configKey.storage = .shared)
    {buffer : Bytes} {size : ℤ} {r : ℤ × Bytes} {lib' : Library W}
    (heq : persistenceGetData S dbPath key resourceID info buffer size lib = some (r, lib')) :
    SameSources S bound obs info dbPath lib lib' := by
  obtain ⟨hsame, -⟩ := SameSources.get laws h info dbPath (.policy info.configKey.policy)
  rw [persistenceGetData_stored_eq hstorage] at heq
  generalize databaseGet S info dbPath (.policy info.configKey.policy) lib = got at *
  obtain ⟨handle, lib₁⟩ := got
  dsimp only at hsame heq
  split at heq
  · cases hf : S.plugin.persComDbReadKey with
    | none =>
      rw [hf] at heq
      cases heq
      exact hsame
    | some readKey =>
      rw [hf] at heq
      have hsame' := hsame.trans (.world laws hsame.handles
        (laws.handles.readKey readKey hf handle key buffer size lib₁.world)
        (laws.read_seen readKey hf handle key buffer size lib₁.world))
      dsimp only at heq
      split at heq
      · rw [← show _ = lib' from congrArg Prod.snd (Option.some.inj heq)]
        exact hsame'.trans (defaultsFrom_same laws resourceID .data size _ _ _ hsame'.handles)
      · cases heq
        exact hsame'
  · cases heq
    exact hsame

end Stored

section Custom

variable {W : Type} {S : Setup W} {lib : Library W} {info : PersistenceInfo}
  {dbPath resourceID : CStr}

def defaultsInfo (info : PersistenceInfo) : PersistenceInfo :=
  { info with configKey := { info.configKey with policy := .wc, type := .key } }

def defaultsPath (S : Setup W) (info : PersistenceInfo) (dbPath : CStr) : CStr :=
  Prct.getDbPath S.com S.appId (defaultsInfo info) [] dbPath

theorem customDefaults_of_lt {readSize : ℤ} (h : readSize < 1) (buffer : Bytes) (size : ℤ)
    (job : PersGetDefault) : customDefaults S dbPath resourceID info buffer size job readSize lib =
      let ((retDefaults, buffer), lib) := persGetDefaults S (defaultsPath S info dbPath) resourceID
        (defaultsInfo info) buffer size job lib
      ((if 0 < retDefaults then retDefaults else readSize, buffer), lib) :=
  if_pos h

end Custom

end PersClient.Key
