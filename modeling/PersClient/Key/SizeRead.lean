import PersClient.Key.Sources

/-! # Size queries and reads

An application asks for the size of a key and reads it into a buffer of that
size. For local and shared keys the two functions ask the same databases. For a
custom resource each of them looks for its own function of the library: they
stay in step as long as both find theirs or neither does.
-/

namespace PersClient.Key

open File Access

section Laws

variable {W : Type}

def Sizes : Option Bytes → ℤ → Prop
  | some data, n => n = data.length
  | none, n => n < 0

/-- The result of a read into a buffer of this size that agrees with the data. -/
def Reads (size : ℤ) : Option Bytes → ℤ → Prop
  | some data, n => (data.length : ℤ) ≤ size → n = data.length
  | none, n => n < 0

/-- What size queries and reads see: the paths of handles, the entries of the
databases and what a custom library holds for a key. -/
structure SizeView (W : Type) where
  bound : W → ℤ → Option CStr
  data : W → CStr → CStr → Option Bytes
  held : W → CStr → Option Bytes

def SizeView.seen (V : SizeView W) (w : W) : (CStr → CStr → Option Bytes) × (CStr → Option Bytes) :=
  (V.data w, V.held w)

/-- The size and the read function of a custom library agree. -/
structure CustomLaws (functs : PersCustomFuncts W) (V : SizeView W) : Prop where
  bound : functs.Leave V.bound
  init_seen : ∀ f, functs.customPluginInit = some f → ∀ w, V.seen (f w) = V.seen w
  initAsync_seen : ∀ f, functs.customPluginInitAsync = some f → ∀ w, V.seen (f w) = V.seen w
  size_seen : ∀ f, functs.customPluginGetSize = some f → ∀ key w, V.seen (f key w).2 = V.seen w
  read_seen : ∀ f, functs.customPluginGetData = some f →
    ∀ key buffer size w, V.seen (f key buffer size w).2 = V.seen w
  size : ∀ f, functs.customPluginGetSize = some f → ∀ key w, Sizes (V.held w key) (f key w).1
  read : ∀ f, functs.customPluginGetData = some f → ∀ key buffer size w,
    Reads size (V.held w key) (f key buffer size w).1.1

/-- The size and the read function of the plugin agree. -/
structure SizeLaws (plugin : Plugin W) (V : SizeView W) : Prop
    extends LookLaws plugin V.bound V.seen where
  loaded : plugin.persComDbReadKey.isSome = plugin.persComDbGetKeySize.isSome
  size : ∀ f, plugin.persComDbGetKeySize = some f → ∀ handle path key w,
    V.bound w handle = some path → Sizes (V.data w path key) (f handle key w).1
  read : ∀ f, plugin.persComDbReadKey = some f → ∀ handle path key buffer size w,
    V.bound w handle = some path → Reads size (V.data w path key) (f handle key buffer size w).1.1
  custom : ∀ name functs, plugin.dlopen name = some functs → CustomLaws functs V

end Laws

section Data

variable {W : Type} {S : Setup W} {V : SizeView W} {lib lib' : Library W} {info : PersistenceInfo}
  {dbPath : CStr}

/-- The data of a key in a database, as far as there are functions to get them. -/
def dataIn (S : Setup W) (V : SizeView W) (w : W) (path key : CStr) : Option Bytes :=
  if S.plugin.persComDbReadKey.isSome then V.data w path key else none

def dataOf (S : Setup W) (V : SizeView W) (info : PersistenceInfo) (dbPath : CStr)
    (lib : Library W) (t : DbType) (key : CStr) : Option Bytes :=
  ((keyGet info dbPath t).source S V.bound lib).bind fun path => dataIn S V lib.world path key

theorem SameSources.dataOf (h : SameSources S V.bound V.seen info dbPath lib lib') (t : DbType) (key : CStr) :
    dataOf S V info dbPath lib' t key = dataOf S V info dbPath lib t key := by
  have hdata : V.data lib'.world = V.data lib.world := congrArg Prod.fst h.seen
  simp only [Key.dataOf, dataIn, h.source, hdata]

end Data

section Defaults

variable {W : Type} {S : Setup W} {V : SizeView W} {lib : Library W} {info : PersistenceInfo}
  {dbPath key : CStr} {job : PersGetDefault} {buffer : Bytes} {size : ℤ} {o : Option Bytes} {n : ℤ}

/-- The result of the job agrees with the data. -/
def Answers (size : ℤ) (o : Option Bytes) (n : ℤ) : PersGetDefault → Prop
  | .size => Sizes o n
  | .data => Reads size o n

def Room (job : PersGetDefault) (size : ℤ) (o : Option Bytes) : Prop :=
  job = .data → ∀ data, o = some data → (data.length : ℤ) ≤ size

theorem Answers.sizes (h : Answers size o n job) (hroom : Room job size o) : Sizes o n := by
  cases job with
  | size => exact h
  | data =>
    cases o with
    | none => exact h
    | some data => exact h (hroom rfl data rfl)

theorem fetchDefault_answers (laws : SizeLaws S.plugin V) {handle : ℤ} {path : CStr} {w : W}
    (hbound : V.bound w handle = some path) (job : PersGetDefault) (key : CStr) (buffer : Bytes)
    (size : ℤ) :
    Answers size (dataIn S V w path key) (fetchDefault S job handle key buffer size w).1.1 job ∧
      V.bound (fetchDefault S job handle key buffer size w).2 = V.bound w ∧
      V.seen (fetchDefault S job handle key buffer size w).2 = V.seen w := by
  have hloaded := laws.loaded
  unfold dataIn fetchDefault
  cases job with
  | data =>
    cases hread : S.plugin.persComDbReadKey with
    | none => exact ⟨show epersNoPluginFunct < 0 by decide, rfl, rfl⟩
    | some readKey =>
      exact ⟨laws.read readKey hread handle path key buffer size w hbound,
        laws.handles.readKey readKey hread .., laws.read_seen readKey hread ..⟩
  | size =>
    cases hsize : S.plugin.persComDbGetKeySize with
    | none =>
      rw [hsize] at hloaded
      rw [hloaded]
      exact ⟨show epersNoPluginFunct < 0 by decide, rfl, rfl⟩
    | some getKeySize =>
      rw [hsize] at hloaded
      rw [hloaded]
      exact ⟨laws.size getKeySize hsize handle path key w hbound,
        laws.handles.getKeySize getKeySize hsize .., laws.size_seen getKeySize hsize ..⟩

def firstOf (S : Setup W) (V : SizeView W) (info : PersistenceInfo) (dbPath : CStr)
    (lib : Library W) (key : CStr) (ts : List DbType) : Option Bytes :=
  ts.findSome? fun t => dataOf S V info dbPath lib t key

def askedOf (S : Setup W) (V : SizeView W) (info : PersistenceInfo) (dbPath : CStr)
    (lib : Library W) (key : CStr) : List DbType → ℕ
  | [] => 0
  | t :: ts =>
    if (dataOf S V info dbPath lib t key).isSome then 1
    else askedOf S V info dbPath lib key ts + 1

theorem SameSources.firstOf {lib' : Library W} (h : SameSources S V.bound V.seen info dbPath lib lib')
    (key : CStr) (ts : List DbType) :
    firstOf S V info dbPath lib' key ts = firstOf S V info dbPath lib key ts := by
  simp only [Key.firstOf, h.dataOf]

theorem SameSources.askedOf {lib' : Library W} (h : SameSources S V.bound V.seen info dbPath lib lib')
    (key : CStr) (ts : List DbType) :
    askedOf S V info dbPath lib' key ts = askedOf S V info dbPath lib key ts := by
  induction ts with
  | nil => rfl
  | cons t ts ih => simp only [Key.askedOf, h.dataOf, ih]

structure FromDefaults (S : Setup W) (V : SizeView W) (info : PersistenceInfo) (dbPath key : CStr)
    (lib : Library W) (ts : List DbType) (r : (ℤ × Bytes) × Library W) (asked : ℕ) : Prop where
  sizes : Sizes (firstOf S V info dbPath lib key ts) r.1.1
  asked : asked = askedOf S V info dbPath lib key ts
  same : SameSources S V.bound V.seen info dbPath lib r.2

theorem defaultsFrom_answers (laws : SizeLaws S.plugin V) (ts : List DbType) {readSize : ℤ}
    (hneg : readSize < 0) (buffer : Bytes) (h : OpenHandles V.bound lib)
    (hroom : Room job size (firstOf S V info dbPath lib key ts)) :
    FromDefaults S V info dbPath key lib ts
      (defaultsFrom S dbPath key info size job ts readSize buffer lib)
      (defaultsGets S dbPath key info size job ts buffer lib).length := by
  induction ts generalizing readSize buffer lib with
  | nil => exact ⟨hneg, rfl, .keep laws.toLookLaws h rfl rfl rfl⟩
  | cons t ts ih =>
    obtain ⟨hsame, hget⟩ := SameSources.get laws.toLookLaws h info dbPath t
    -- what the other databases give after the request for this one
    have rest : ∀ {lib₁ : Library W} {readSize : ℤ} (buffer : Bytes),
        SameSources S V.bound V.seen info dbPath lib lib₁ → dataOf S V info dbPath lib t key = none →
        readSize < 0 →
        FromDefaults S V info dbPath key lib (t :: ts)
          (defaultsFrom S dbPath key info size job ts readSize buffer lib₁)
          ((defaultsGets S dbPath key info size job ts buffer lib₁).length + 1) := by
      intro lib₁ readSize buffer hsame₁ hnone hneg
      have hfirst : firstOf S V info dbPath lib key (t :: ts) =
          firstOf S V info dbPath lib₁ key ts := by
        rw [hsame₁.firstOf, firstOf, List.findSome?_cons_of_isNone (by simp [hnone])]
        rfl
      have hrest := ih hneg buffer hsame₁.handles (by rwa [← hfirst])
      refine ⟨?_, ?_, hsame₁.trans hrest.same⟩
      · rw [hfirst]
        exact hrest.sizes
      · rw [hrest.asked, hsame₁.askedOf, askedOf, hnone]
        rfl
    unfold defaultsFrom defaultsGets
    generalize databaseGet S info dbPath t lib = got at *
    obtain ⟨handle, lib₁⟩ := got
    dsimp only at hsame hget ⊢
    rcases hget with ⟨path, hsource, hpos, hbound⟩ | ⟨hsource, hfail⟩
    · simp only [if_pos hpos]
      obtain ⟨hanswers, hbound', hseen'⟩ := fetchDefault_answers laws hbound job key buffer size
      have hdata : dataOf S V info dbPath lib t key = dataIn S V lib₁.world path key := by
        rw [← hsame.dataOf, dataOf, hsame.source, hsource]
        rfl
      have hsame' := hsame.trans (.world laws.toLookLaws hsame.handles hbound' hseen')
      generalize fetchDefault S job handle key buffer size lib₁.world = fetched at *
      obtain ⟨⟨readSize', buffer'⟩, w⟩ := fetched
      dsimp only at hanswers hsame' ⊢
      cases hthere : dataIn S V lib₁.world path key with
      | none =>
        rw [hthere] at hanswers hdata
        have hneg' : readSize' < 0 := by cases job <;> exact hanswers
        simp only [if_pos hneg']
        refine rest buffer' hsame' hdata ?_
        split
        · decide
        · exact hneg'
      | some data =>
        rw [hthere] at hanswers hdata
        have hfirst : firstOf S V info dbPath lib key (t :: ts) = some data := by
          rw [firstOf, List.findSome?_cons_of_isSome (by simp [hdata])]
          exact hdata
        rw [hfirst] at hroom
        have hsizes := hanswers.sizes hroom
        have hnonneg : ¬ readSize' < 0 := by
          have : readSize' = data.length := hsizes
          omega
        simp only [if_neg hnonneg]
        refine ⟨?_, ?_, hsame'⟩
        · rw [hfirst]
          exact hsizes
        · rw [askedOf, hdata]
          rfl
    · have hnone : dataOf S V info dbPath lib t key = none := by
        rw [dataOf, hsource]
        rfl
      simp only [if_neg (not_le.mpr hfail)]
      exact rest buffer hsame hnone hneg

theorem persGetDefaults_answers (laws : SizeLaws S.plugin V) (job : PersGetDefault) (size : ℤ)
    (buffer : Bytes) (h : OpenHandles V.bound lib) (info : PersistenceInfo) (dbPath key : CStr)
    (hroom : Room job size (firstOf S V info dbPath lib key [.confdefault, .default])) :
    FromDefaults S V info dbPath key lib [.confdefault, .default]
      (persGetDefaults S dbPath key info buffer size job lib)
      (persGetDefaultsGets S dbPath key info buffer size job lib).length :=
  defaultsFrom_answers laws _ (show epersNokey < 0 by decide) buffer h hroom

end Defaults

/-- A read that follows the size query gives what the query told, from the same
database, and no function is called that is not there. -/
def InStep {W : Type} (S : Setup W) (dbPath key resourceID : CStr) (info : PersistenceInfo)
    (lib : Library W) : Prop :=
  ∀ n lib', persistenceGetDataSize S dbPath key resourceID info lib = (n, lib') →
    ∀ buffer size, 0 ≤ size → ∃ r lib'',
      persistenceGetData S dbPath key resourceID info buffer size lib' = some (r, lib'') ∧
      (0 < n → n ≤ size → r.1 = n ∧
        (getDataGets S dbPath key resourceID info buffer size lib').length =
          (getDataSizeGets S dbPath key resourceID info lib).length) ∧
      (n < 0 → r.1 < 0)

section Stored

variable {W : Type} {S : Setup W} {V : SizeView W} {lib : Library W} {info : PersistenceInfo}
  {dbPath key resourceID : CStr}

def Shut (S : Setup W) (V : SizeView W) (info : PersistenceInfo) (dbPath : CStr)
    (lib : Library W) : Prop :=
  S.plugin.persComDbReadKey.isSome = false ∨
    (keyGet info dbPath (.policy info.configKey.policy)).source S V.bound lib = none

inductive StoredAnswer (S : Setup W) (V : SizeView W) (info : PersistenceInfo)
    (dbPath key resourceID : CStr) (lib : Library W) (job : PersGetDefault) (size n : ℤ)
    (asked : ℕ) : Prop
  | shut (shut : Shut S V info dbPath lib) (neg : n < 0)
  | own (data : Bytes)
      (there : dataOf S V info dbPath lib (.policy info.configKey.policy) key = some data)
      (answers : Answers size (some data) n job)
      (asked_eq : Room job size (some data) → asked = 1)
  | defaults (not_shut : ¬ Shut S V info dbPath lib)
      (missing : dataOf S V info dbPath lib (.policy info.configKey.policy) key = none)
      (sizes : Room job size (firstOf S V info dbPath lib resourceID [.confdefault, .default]) →
        Sizes (firstOf S V info dbPath lib resourceID [.confdefault, .default]) n ∧
          asked = askedOf S V info dbPath lib resourceID [.confdefault, .default] + 1)

theorem not_shut_of_data {data : Bytes}
    (h : dataOf S V info dbPath lib (.policy info.configKey.policy) key = some data) :
    ¬ Shut S V info dbPath lib := by
  rintro (hno | hno)
  · simp [dataOf, dataIn, hno] at h
  · rw [dataOf, hno] at h
    cases h

theorem SameSources.shut_iff {lib' : Library W} (h : SameSources S V.bound V.seen info dbPath lib lib') :
    Shut S V info dbPath lib' ↔ Shut S V info dbPath lib := by
  unfold Shut
  rw [h.source]

theorem StoredAnswer.in_step {n n' size size' : ℤ} {asked asked' : ℕ} {lib' : Library W}
    (hsame : SameSources S V.bound V.seen info dbPath lib lib')
    (h : StoredAnswer S V info dbPath key resourceID lib .size size n asked)
    (h' : StoredAnswer S V info dbPath key resourceID lib' .data size' n' asked') :
    (0 < n → n ≤ size' → n' = n ∧ asked' = asked) ∧ (n < 0 → n' < 0) := by
  cases h with
  | shut shut neg =>
    refine ⟨fun hpos => absurd neg (not_lt.mpr hpos.le), fun _ => ?_⟩
    cases h' with
    | shut _ neg' => exact neg'
    | own data there => exact absurd (hsame.shut_iff.mpr shut) (not_shut_of_data there)
    | defaults not_shut => exact absurd (hsame.shut_iff.mpr shut) not_shut
  | own data there answers asked_eq =>
    replace answers : n = data.length := answers
    refine ⟨fun _ hle => ?_, fun hneg => by omega⟩
    cases h' with
    | shut shut => exact absurd (hsame.shut_iff.mp shut) (not_shut_of_data there)
    | own data' there' answers' asked_eq' =>
      rw [hsame.dataOf, there, Option.some.injEq] at there'
      subst there'
      have hroom : Room .data size' (some data) := by
        rintro - data' ⟨⟩
        exact answers ▸ hle
      exact ⟨(answers' (answers ▸ hle)).trans answers.symm,
        (asked_eq' hroom).trans (asked_eq nofun).symm⟩
    | defaults _ missing =>
      rw [hsame.dataOf, there] at missing
      cases missing
  | defaults not_shut missing sizes =>
    obtain ⟨hsizes, hasked⟩ := sizes nofun
    cases h' with
    | shut shut => exact absurd (hsame.shut_iff.mp shut) not_shut
    | own data' there' =>
      rw [hsame.dataOf, missing] at there'
      cases there'
    | defaults _ _ sizes' =>
      rw [hsame.firstOf, hsame.askedOf] at sizes'
      cases hfirst : firstOf S V info dbPath lib resourceID [.confdefault, .default] with
      | none =>
        rw [hfirst] at hsizes sizes'
        exact ⟨fun hpos => absurd hsizes (not_lt.mpr hpos.le), fun _ => (sizes' nofun).1⟩
      | some data =>
        rw [hfirst] at hsizes sizes'
        replace hsizes : n = data.length := hsizes
        refine ⟨fun _ hle => ?_, fun hneg => by omega⟩
        obtain ⟨hsizes', hasked'⟩ := sizes' (by
          rintro - data' ⟨⟩
          exact hsizes ▸ hle)
        exact ⟨hsizes'.trans hsizes.symm, hasked'.trans hasked.symm⟩

theorem getDataSizeGets_stored_eq
    (hstorage : info.configKey.storage = .local ∨ info.configKey.storage = .shared) :
    getDataSizeGets S dbPath key resourceID info lib =
      (keyGet info dbPath (.policy info.configKey.policy), lib) ::
        let (handleDB, lib) := databaseGet S info dbPath (.policy info.configKey.policy) lib
        if 0 ≤ handleDB then
          match S.plugin.persComDbGetKeySize with
          | none => []
          | some getKeySize =>
            let (readSize, world) := getKeySize handleDB key lib.world
            if readSize < 0 then
              persGetDefaultsGets S dbPath resourceID info [] 0 .size { lib with world }
            else []
        else [] := by
  unfold getDataSizeGets
  rcases hstorage with hs | hs <;> rw [hs] <;> rfl

theorem getDataGets_stored_eq
    (hstorage : info.configKey.storage = .local ∨ info.configKey.storage = .shared)
    (buffer : Bytes) (size : ℤ) :
    getDataGets S dbPath key resourceID info buffer size lib =
      (keyGet info dbPath (.policy info.configKey.policy), lib) ::
        let (handleDB, lib) := databaseGet S info dbPath (.policy info.configKey.policy) lib
        if 0 ≤ handleDB then
          match S.plugin.persComDbReadKey with
          | none => []
          | some readKey =>
            let ((readSize, buffer), world) := readKey handleDB key buffer size lib.world
            if readSize < 0 then
              persGetDefaultsGets S dbPath resourceID info buffer size .data { lib with world }
            else []
        else [] := by
  unfold getDataGets
  rcases hstorage with hs | hs <;> rw [hs] <;> rfl

theorem persistenceGetDataSize_stored (laws : SizeLaws S.plugin V) (h : OpenHandles V.bound lib)
    (hstorage : info.configKey.storage = .local ∨ info.configKey.storage = .shared)
    (dbPath key resourceID : CStr) :
    SameSources S V.bound V.seen info dbPath lib (persistenceGetDataSize S dbPath key resourceID info lib).2 ∧
      StoredAnswer S V info dbPath key resourceID lib .size 0
        (persistenceGetDataSize S dbPath key resourceID info lib).1
        (getDataSizeGets S dbPath key resourceID info lib).length := by
  obtain ⟨hsame, hget⟩ := SameSources.get laws.toLookLaws h info dbPath (.policy info.configKey.policy)
  have hloaded := laws.loaded
  rw [persistenceGetDataSize_stored_eq hstorage, getDataSizeGets_stored_eq hstorage]
  generalize databaseGet S info dbPath (.policy info.configKey.policy) lib = got at *
  obtain ⟨handle, lib₁⟩ := got
  dsimp only at hsame hget ⊢
  rcases hget with ⟨path, hsource, hpos, hbound⟩ | ⟨hsource, hfail⟩
  swap
  · simp only [if_neg (not_le.mpr hfail)]
    exact ⟨hsame, .shut (Or.inr hsource) (by decide)⟩
  simp only [if_pos hpos]
  cases hf : S.plugin.persComDbGetKeySize with
  | none =>
    rw [hf] at hloaded
    exact ⟨hsame, .shut (Or.inl hloaded) (show epersNoPluginFunct < 0 by decide)⟩
  | some getKeySize =>
    have hanswer := laws.size getKeySize hf handle path key lib₁.world hbound
    have hsame' := hsame.trans (.world laws.toLookLaws hsame.handles
      (laws.handles.getKeySize getKeySize hf handle key lib₁.world)
      (laws.size_seen getKeySize hf handle key lib₁.world))
    have hdata : dataOf S V info dbPath lib (.policy info.configKey.policy) key =
        V.data lib₁.world path key := by
      rw [hf] at hloaded
      rw [← hsame.dataOf, dataOf, hsame.source, hsource, Option.bind_some, dataIn, hloaded]
      rfl
    have hnot_shut : ¬ Shut S V info dbPath lib := by
      rintro (hno | hno)
      · rw [hno, hf] at hloaded
        cases hloaded
      · rw [hsource] at hno
        cases hno
    dsimp only
    generalize getKeySize handle key lib₁.world = sized at *
    obtain ⟨readSize, w⟩ := sized
    dsimp only at hanswer hsame' ⊢
    cases hthere : V.data lib₁.world path key with
    | some data =>
      rw [hthere] at hanswer hdata
      have hnonneg : ¬ readSize < 0 := by
        have : readSize = data.length := hanswer
        omega
      simp only [if_neg hnonneg]
      exact ⟨hsame', .own data hdata hanswer fun _ => rfl⟩
    | none =>
      rw [hthere] at hanswer hdata
      have hneg : readSize < 0 := hanswer
      simp only [if_pos hneg, List.length_cons]
      have hdefaults := persGetDefaults_answers laws .size 0 [] hsame'.handles info dbPath
        resourceID fun hjob => PersGetDefault.noConfusion hjob
      refine ⟨hsame'.trans hdefaults.same, .defaults hnot_shut hdata fun _ => ?_⟩
      rw [← hsame'.firstOf, ← hsame'.askedOf, hdefaults.asked]
      exact ⟨hdefaults.sizes, rfl⟩

theorem persistenceGetData_stored (laws : SizeLaws S.plugin V) (h : OpenHandles V.bound lib)
    (hstorage : info.configKey.storage = .local ∨ info.configKey.storage = .shared)
    (dbPath key resourceID : CStr) (buffer : Bytes) (size : ℤ) :
    ∃ r lib', persistenceGetData S dbPath key resourceID info buffer size lib = some (r, lib') ∧
      StoredAnswer S V info dbPath key resourceID lib .data size r.1
        (getDataGets S dbPath key resourceID info buffer size lib).length := by
  obtain ⟨hsame, hget⟩ := SameSources.get laws.toLookLaws h info dbPath (.policy info.configKey.policy)
  rw [persistenceGetData_stored_eq hstorage, getDataGets_stored_eq hstorage]
  generalize databaseGet S info dbPath (.policy info.configKey.policy) lib = got at *
  obtain ⟨handle, lib₁⟩ := got
  dsimp only at hsame hget ⊢
  rcases hget with ⟨path, hsource, hpos, hbound⟩ | ⟨hsource, hfail⟩
  swap
  · simp only [if_neg (not_le.mpr hfail)]
    exact ⟨_, _, rfl, .shut (Or.inr hsource) (show (-1 : ℤ) < 0 by decide)⟩
  simp only [if_pos hpos]
  cases hf : S.plugin.persComDbReadKey with
  | none =>
    exact ⟨_, _, rfl, .shut (Or.inl (by rw [hf]; rfl)) (show epersNoPluginFunct < 0 by decide)⟩
  | some readKey =>
    have hanswer := laws.read readKey hf handle path key buffer size lib₁.world hbound
    have hsame' := hsame.trans (.world laws.toLookLaws hsame.handles
      (laws.handles.readKey readKey hf handle key buffer size lib₁.world)
      (laws.read_seen readKey hf handle key buffer size lib₁.world))
    have hdata : dataOf S V info dbPath lib (.policy info.configKey.policy) key =
        V.data lib₁.world path key := by
      rw [← hsame.dataOf, dataOf, hsame.source, hsource, Option.bind_some, dataIn, hf]
      rfl
    have hnot_shut : ¬ Shut S V info dbPath lib := by
      rintro (hno | hno)
      · rw [hf] at hno
        cases hno
      · rw [hsource] at hno
        cases hno
    dsimp only
    generalize readKey handle key buffer size lib₁.world = fetched at *
    obtain ⟨⟨readSize, buffer'⟩, w⟩ := fetched
    dsimp only at hanswer hsame' ⊢
    cases hthere : V.data lib₁.world path key with
    | some data =>
      rw [hthere] at hanswer hdata
      by_cases hfits : (data.length : ℤ) ≤ size
      · have hlength : readSize = data.length := hanswer hfits
        have hnonneg : ¬ readSize < 0 := by omega
        simp only [if_neg hnonneg]
        exact ⟨_, _, rfl, .own data hdata hanswer fun _ => rfl⟩
      · -- an entry that does not fit may be refused, and the defaults read instead
        have hno : ∀ n, Answers size (some data) n .data := fun n h => absurd h hfits
        have hroom : ¬ Room .data size (some data) := fun h => hfits (h rfl data rfl)
        split
        · exact ⟨_, _, rfl, .own data hdata (hno _) fun h => absurd h hroom⟩
        · exact ⟨_, _, rfl, .own data hdata (hno _) fun h => absurd h hroom⟩
    | none =>
      rw [hthere] at hanswer hdata
      have hneg : readSize < 0 := hanswer
      simp only [if_pos hneg, List.length_cons]
      refine ⟨_, _, rfl, .defaults hnot_shut hdata fun hroom => ?_⟩
      have hdefaults := persGetDefaults_answers laws .data size buffer' hsame'.handles info dbPath
        resourceID (by rwa [hsame'.firstOf])
      rw [← hsame'.firstOf, ← hsame'.askedOf, hdefaults.asked]
      exact ⟨hdefaults.sizes, rfl⟩

theorem stored_in_step (laws : SizeLaws S.plugin V) (h : OpenHandles V.bound lib)
    (hstorage : info.configKey.storage = .local ∨ info.configKey.storage = .shared) :
    InStep S dbPath key resourceID info lib := by
  intro n lib' heq buffer size _
  obtain ⟨hsame, hsize⟩ := persistenceGetDataSize_stored laws h hstorage dbPath key resourceID
  rw [heq] at hsame hsize
  obtain ⟨r, lib'', heq', hread⟩ := persistenceGetData_stored laws hsame.handles hstorage dbPath
    key resourceID buffer size
  exact ⟨r, lib'', heq', hsize.in_step hsame hread⟩

end Stored

end PersClient.Key
