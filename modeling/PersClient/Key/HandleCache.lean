import PersClient.Key.Registrations
import PersClient.Key.Requests

/-! # The cache of database handles

Each function of the key layer makes the requests its trace tells, and touches
the table in no other way. So what requests do to the table carries over to
every sequence of key calls, with all databases closed in between or not.
-/

namespace PersClient.Key

open File Handle Access Prct Steps

variable {W : Type*}

section Calls

variable {S : Setup W} {bound : W → ℤ → Option CStr} {lib lib' : Library W}

theorem databaseGet_customFuncs {info : PersistenceInfo} {dbPath : CStr} {dbType : DbType} :
    (databaseGet S info dbPath dbType lib).2.gPersCustomFuncs = lib.gPersCustomFuncs := by
  unfold databaseGet
  split
  · split
    · rfl
    · split
      · rfl
      · split
        · rfl
        · dsimp only
          split <;> rfl
  · rfl

theorem databaseClose_customFuncs {slot : ℕ × DbType} :
    (databaseClose S slot lib).gPersCustomFuncs = lib.gPersCustomFuncs := by
  unfold databaseClose
  split
  · dsimp only
    split <;> rfl
  · rfl

theorem Traced.loaded {t : List (Get × Library W)} (h : Traced S bound lib t lib')
    (hloaded : Loaded S.plugin lib) : Loaded S.plugin lib' := by
  induction h with
  | keep handles bindings loaded => exact loaded hloaded
  | get g fits =>
    intro idx
    rw [Get.perform, databaseGet_customFuncs]
    exact hloaded idx
  | close slot =>
    intro idx
    rw [databaseClose_customFuncs]
    exact hloaded idx
  | append first second ihfirst ihsecond => exact ihsecond (ihfirst hloaded)

theorem Traced.refl (lib : Library W) : Traced S bound lib [] lib := .keep rfl rfl id

theorem Traced.world {world : W} (h : bound world = bound lib.world) :
    Traced S bound lib [] { lib with world } := .keep rfl h id

theorem Traced.trans {lib₁ lib₂ : Library W} {t : List (Get × Library W)}
    (h : Traced S bound lib [] lib₁) (h' : Traced S bound lib₁ t lib₂) :
    Traced S bound lib t lib₂ := h.append h'

theorem Traced.next {lib₁ lib₂ : Library W} {e : Get × Library W} {t : List (Get × Library W)}
    (h : Traced S bound lib [e] lib₁) (h' : Traced S bound lib₁ t lib₂) :
    Traced S bound lib (e :: t) lib₂ := h.append h'

theorem Loaded.leave (hloaded : Loaded S.plugin lib) (laws : DbHandleLaws S.plugin bound)
    (idx : PersistenceCustomLibs) : (lib.gPersCustomFuncs idx).Leave bound := by
  rcases hloaded idx with hempty | ⟨name, hfound⟩
  · rw [hempty]
    constructor <;> exact fun _ h => by cases h
  · exact laws.custom name _ hfound

theorem initCustomLibrary_bound {info : PersCustomLibInfo} {functs : PersCustomFuncts W} {w : W}
    (h : functs.Leave bound) : bound (initCustomLibrary info functs w).2 = bound w := by
  unfold initCustomLibrary
  split
  · split
    · exact h.init _ ‹_› w
    · rfl
  · split
    · exact h.initAsync _ ‹_› w
    · rfl
  · rfl

theorem loadCustomLibrary_traced (laws : DbHandleLaws S.plugin bound)
    (idx : PersistenceCustomLibs) :
    Traced S bound lib [] (loadCustomLibrary S.plugin idx lib).2 := by
  unfold loadCustomLibrary
  split
  · exact .refl lib
  · split
    · exact .refl lib
    · rename_i functs hfound
      split
      · exact .refl lib
      · refine .keep rfl (initCustomLibrary_bound (laws.custom _ functs hfound)) ?_
        intro hloaded other
        dsimp only
        rw [Function.update_apply]
        split
        · exact Or.inr ⟨_, hfound⟩
        · exact hloaded other

theorem customAvailable_traced (laws : DbHandleLaws S.plugin bound) (idx : PersistenceCustomLibs)
    (present wanted : PersCustomFuncts W → Bool) :
    Traced S bound lib [] (customAvailable S.plugin idx present wanted lib).2 := by
  unfold customAvailable
  split
  · exact .refl lib
  · split
    · exact loadCustomLibrary_traced laws idx
    · exact .refl lib
    · exact .refl lib

/-- Where a library is looked for: the functions found leave the handles open. -/
theorem customAvailable_leaves (laws : DbHandleLaws S.plugin bound) (hloaded : Loaded S.plugin lib)
    {idx : PersistenceCustomLibs} {present wanted : PersCustomFuncts W → Bool} {available : Bool}
    (h : customAvailable S.plugin idx present wanted lib = (available, lib')) :
    Traced S bound lib [] lib' ∧ (lib'.gPersCustomFuncs idx).Leave bound := by
  have havailable := @customAvailable_traced W S bound lib laws idx present wanted
  rw [h] at havailable
  exact ⟨havailable, (havailable.loaded hloaded).leave laws idx⟩

theorem fetchDefault_bound (laws : DbHandleLaws S.plugin bound) {job : PersGetDefault}
    {handle : ℤ} {key : CStr} {buffer : Bytes} {bufferSize : ℤ} {w : W} :
    bound (fetchDefault S job handle key buffer bufferSize w).2 = bound w := by
  unfold fetchDefault
  split
  · split
    · exact laws.readKey _ ‹_› ..
    · rfl
  · split
    · exact laws.getKeySize _ ‹_› ..
    · rfl

theorem defaultsFrom_traced (laws : DbHandleLaws S.plugin bound) {dbPath key : CStr}
    {info : PersistenceInfo} {bufferSize : ℤ} {job : PersGetDefault} {is : List DbType}
    (hfits : ∀ i, (⟨info, dbPath, i⟩ : Get).Fits S) (readSize : ℤ) (buffer : Bytes) :
    Traced S bound lib (defaultsGets S dbPath key info bufferSize job is buffer lib)
      (defaultsFrom S dbPath key info bufferSize job is readSize buffer lib).2 := by
  induction is generalizing lib readSize buffer with
  | nil => exact .refl lib
  | cons i is ih =>
    refine .next (.get ⟨info, dbPath, i⟩ (hfits i)) ?_
    unfold defaultsFrom
    dsimp only [Get.perform]
    split
    · split
      · exact (Traced.world (fetchDefault_bound laws)).trans (ih _ _)
      · exact .world (fetchDefault_bound laws)
    · exact ih _ _

theorem fits_of_length (hnames : DatabaseNamesFit S.com)
    (happ : S.appId.length < S.com.maxLengthResponsible) {info : PersistenceInfo} {dbPath : CStr}
    (hlength : dbPath.length ≤ S.com.rootPath.length + 8 + S.appId.length + 22)
    (dbType : DbType) : (⟨info, dbPath, dbType⟩ : Get).Fits S := by
  intro name flags hfile
  have := hnames dbType name flags hfile
  rw [List.length_append]
  dsimp only
  omega

/-- What the results about the table take for granted. -/
structure Sound (S : Setup W) (bound : W → ℤ → Option CStr) : Prop where
  laws : DbHandleLaws S.plugin bound
  names : DatabaseNamesFit S.com
  appId : S.appId.length < S.com.maxLengthResponsible

variable (hS : Sound S bound)
include hS

theorem customDefaults_traced {dbPath resourceID : CStr} {info : PersistenceInfo} {buffer : Bytes}
    {bufferSize : ℤ} {job : PersGetDefault} {readSize : ℤ} :
    Traced S bound lib (customDefaultsGets S dbPath resourceID info buffer bufferSize job readSize lib)
      (customDefaults S dbPath resourceID info buffer bufferSize job readSize lib).2 := by
  unfold customDefaultsGets customDefaults
  split
  · refine defaultsFrom_traced hS.laws (fits_of_length hS.names hS.appId ?_) _ _
    generalize hinfo : ({ info with
      configKey := { info.configKey with policy := .wc, type := .key } } : PersistenceInfo) = info'
    have htype : info'.configKey.type = .key := by rw [← hinfo]
    -- with a cached policy the path does not depend on what the buffer held
    have hpath : getDbPath S.com S.appId info' [] dbPath = getDbPath S.com S.appId info' [] [] := by
      subst hinfo
      rfl
    rw [hpath]
    exact (getDbPath_length_le htype []).trans (by simp)
  · exact .refl lib

variable {dbPath key resourceID : CStr} {info : PersistenceInfo} {buffer : Bytes} {bufferSize : ℤ}

theorem persistenceGetData_traced (hloaded : Loaded S.plugin lib)
    (hfits : info.configKey.storage ≠ .custom → ∀ i, (⟨info, dbPath, i⟩ : Get).Fits S)
    {result : ℤ × Bytes} (h : persistenceGetData S dbPath key resourceID info buffer bufferSize
      lib = some (result, lib')) :
    Traced S bound lib (getDataGets S dbPath key resourceID info buffer bufferSize lib) lib' := by
  have hdatabase : info.configKey.storage ≠ .custom →
      Traced S bound lib [(⟨info, dbPath, .policy info.configKey.policy⟩, lib)]
        (databaseGet S info dbPath (.policy info.configKey.policy) lib).2 :=
    fun hne => .get ⟨info, dbPath, .policy info.configKey.policy⟩ (hfits hne _)
  have hlib : ∀ {r : (ℤ × Bytes) × Library W}, some r = some (result, lib') → lib' = r.2 :=
    fun hr => (congrArg Prod.snd (Option.some.inj hr)).symm
  unfold persistenceGetData at h
  unfold getDataGets
  cases hstorage : info.configKey.storage with
  | lastEntry =>
    rw [hstorage] at h
    cases h
    exact .refl lib
  | «local» | shared =>
    have hne : info.configKey.storage ≠ .custom := by simp [hstorage]
    simp only [hstorage] at h ⊢
    refine (hdatabase hne).next ?_
    split at h
    · rename_i hnonneg
      rw [if_pos hnonneg]
      cases hread : S.plugin.persComDbReadKey with
      | none =>
        simp only [hread] at h ⊢
        cases h
        exact .refl _
      | some readKey =>
        simp only [hread] at h ⊢
        have hworld := hS.laws.readKey readKey hread
        split at h
        · rename_i hneg
          rw [if_pos hneg, hlib h]
          exact (Traced.world (hworld ..)).trans (defaultsFrom_traced hS.laws (hfits hne) _ _)
        · rename_i hneg
          cases h
          rw [if_neg hneg]
          exact .world (hworld ..)
    · rename_i hneg
      cases h
      rw [if_neg hneg]
      exact .refl _
  | custom =>
    simp only [hstorage] at h ⊢
    split at h
    · rename_i hidx
      rw [if_pos hidx]
      generalize hmade : customAvailable S.plugin (customClientNameToId dbPath) _ _ lib = made at h ⊢
      obtain ⟨available, lib₁⟩ := made
      obtain ⟨havailable, hleave⟩ := customAvailable_leaves hS.laws hloaded hmade
      dsimp only at h ⊢
      refine havailable.trans ?_
      split at h
      · rename_i htrue
        rw [if_pos htrue]
        obtain ⟨getData, hget, heq⟩ := Option.map_eq_some_iff.mp h
        rw [hget, hlib (congrArg some heq)]
        exact (Traced.world (hleave.getData getData hget ..)).trans (customDefaults_traced hS)
      · rename_i hfalse
        rw [if_neg hfalse, hlib h]
        exact customDefaults_traced hS
    · rename_i hidx
      rw [if_neg hidx, hlib h]
      exact customDefaults_traced hS

omit hS in
theorem getDataGets_eq_nil (h : persistenceGetData S dbPath key resourceID info buffer bufferSize
    lib = none) : getDataGets S dbPath key resourceID info buffer bufferSize lib = [] := by
  unfold persistenceGetData at h
  unfold getDataGets
  cases hstorage : info.configKey.storage with
  | lastEntry => rfl
  | «local» | shared =>
    simp only [hstorage] at h
    split at h
    · cases hread : S.plugin.persComDbReadKey with
      | none => simp [hread] at h
      | some readKey =>
        simp only [hread] at h
        split at h <;> cases h
    · cases h
  | custom =>
    simp only [hstorage] at h ⊢
    split at h
    · rename_i hidx
      rw [if_pos hidx]
      split at h
      · rename_i htrue
        rw [if_pos htrue, Option.map_eq_none_iff.mp h]
      · cases h
    · cases h

theorem persistenceGetDataSize_traced (hloaded : Loaded S.plugin lib)
    (hfits : info.configKey.storage ≠ .custom → ∀ i, (⟨info, dbPath, i⟩ : Get).Fits S) :
    Traced S bound lib (getDataSizeGets S dbPath key resourceID info lib)
      (persistenceGetDataSize S dbPath key resourceID info lib).2 := by
  have hdatabase : info.configKey.storage ≠ .custom →
      Traced S bound lib [(⟨info, dbPath, .policy info.configKey.policy⟩, lib)]
        (databaseGet S info dbPath (.policy info.configKey.policy) lib).2 :=
    fun hne => .get ⟨info, dbPath, .policy info.configKey.policy⟩ (hfits hne _)
  unfold persistenceGetDataSize getDataSizeGets
  cases hstorage : info.configKey.storage with
  | lastEntry => exact .refl lib
  | «local» | shared =>
    have hne : info.configKey.storage ≠ .custom := by simp [hstorage]
    refine (hdatabase hne).next ?_
    dsimp only
    split
    · cases hsize : S.plugin.persComDbGetKeySize with
      | none => exact .refl _
      | some getKeySize =>
        have hworld := hS.laws.getKeySize getKeySize hsize
        dsimp only
        split
        · exact (Traced.world (hworld ..)).trans (defaultsFrom_traced hS.laws (hfits hne) _ _)
        · exact .world (hworld ..)
    · exact .refl _
  | custom =>
    dsimp only
    split
    · generalize hmade : customAvailable S.plugin (customClientNameToId dbPath) _ _ lib = made
      obtain ⟨available, lib₁⟩ := made
      obtain ⟨havailable, hleave⟩ := customAvailable_leaves hS.laws hloaded hmade
      dsimp only
      refine havailable.trans ?_
      cases available <;>
        cases hsize : (lib₁.gPersCustomFuncs (customClientNameToId dbPath)).customPluginGetSize
      · exact customDefaults_traced hS
      · exact customDefaults_traced hS
      · exact customDefaults_traced hS
      · exact (Traced.world (hleave.getSize _ hsize ..)).trans (customDefaults_traced hS)
    · exact customDefaults_traced hS

omit hS in
theorem notifyChanged_traced {frame : CallFrame} {context : PersistenceDbContext} {writeSize : ℤ} :
    Traced S bound lib [] (notifyChanged S frame resourceID context writeSize lib).2 :=
  .keep rfl rfl id

theorem persistenceSetData_traced {frame : CallFrame} (hloaded : Loaded S.plugin lib)
    (hfits : info.configKey.storage ≠ .custom → ∀ i, (⟨info, dbPath, i⟩ : Get).Fits S) :
    Traced S bound lib (setDataGets dbPath info lib)
      (persistenceSetData S frame dbPath key resourceID info buffer bufferSize lib).2 := by
  unfold persistenceSetData setDataGets
  cases hstorage : info.configKey.storage with
  | lastEntry => exact .refl lib
  | «local» | shared =>
    have hne : info.configKey.storage ≠ .custom := by simp [hstorage]
    dsimp only
    generalize (if info.context.userNo = pclUserDefaultdata then DbType.confdefault
      else .policy info.configKey.policy) = dbType
    generalize (if info.context.userNo = pclUserDefaultdata then resourceID else key) = dbInput
    refine .next (.get ⟨info, dbPath, dbType⟩ (hfits hne dbType)) ?_
    dsimp only [Get.perform]
    split
    · cases hwrite : S.plugin.persComDbWriteKey with
      | none => exact .refl _
      | some writeKey =>
        have hworld := hS.laws.writeKey writeKey hwrite
        dsimp only
        split
        · exact .world (hworld ..)
        · split
          · exact (Traced.world (hworld ..)).trans notifyChanged_traced
          · exact .world (hworld ..)
    · exact .refl _
  | custom =>
    dsimp only
    split
    · generalize hmade : customAvailable S.plugin (customClientNameToId dbPath) _ _ lib = made
      obtain ⟨available, lib₁⟩ := made
      obtain ⟨havailable, hleave⟩ := customAvailable_leaves hS.laws hloaded hmade
      dsimp only
      refine havailable.trans ?_
      split
      · rename_i setData hset
        have hworld := hleave.setData setData hset
        split
        · exact (Traced.world (hworld ..)).trans notifyChanged_traced
        · exact .world (hworld ..)
      · exact .refl _
    · exact .refl _

theorem persistenceDeleteData_traced {frame : CallFrame} (hloaded : Loaded S.plugin lib)
    (hfits : info.configKey.storage ≠ .custom → ∀ i, (⟨info, dbPath, i⟩ : Get).Fits S) :
    Traced S bound lib (deleteDataGets dbPath info lib)
      (persistenceDeleteData S frame dbPath key resourceID info lib).2 := by
  unfold persistenceDeleteData deleteDataGets
  split
  · rename_i hne
    refine .next (.get ⟨info, dbPath, .policy info.configKey.policy⟩ (hfits hne _)) ?_
    dsimp only [Get.perform]
    split
    · cases hdelete : S.plugin.persComDbDeleteKey with
      | none => exact .refl _
      | some deleteKey =>
        have hworld := hS.laws.deleteKey deleteKey hdelete
        dsimp only
        split
        · exact .keep rfl (hworld ..) id
        · exact .keep rfl (hworld ..) id
    · exact .refl _
  · dsimp only
    split
    · generalize hmade : customAvailable S.plugin (customClientNameToId dbPath) _ _ lib = made
      obtain ⟨available, lib₁⟩ := made
      obtain ⟨havailable, hleave⟩ := customAvailable_leaves hS.laws hloaded hmade
      dsimp only
      refine havailable.trans ?_
      split
      · rename_i deleteData hdelete
        have hworld := hleave.deleteData deleteData hdelete
        split
        · exact .keep rfl (hworld ..) id
        · exact .keep rfl (hworld ..) id
      · exact .refl _
    · exact .refl _

end Calls

section Sequences

variable {S : Setup W} {bound : W → ℤ → Option CStr} (hS : Sound S bound)
include hS

theorem getDbContext_traced {frame : CallFrame} {X : KeyResource} {isFile : Bool}
    (lib : Library W) :
    Traced S bound lib [] (getDbContext S frame X.context X.resourceId isFile lib).2 := by
  have hsame := @getDbContext_same W S X.context X.resourceId lib frame isFile
  refine .keep hsame.handlesDB ?_ fun hloaded idx => by
    rw [hsame.customFuncs]
    exact hloaded idx
  have htable : ∀ rct group, bound (getResourceCfgTable S rct group lib).2.world =
      bound lib.world := by
    intro rct group
    unfold getResourceCfgTable openResourceCfgTable
    dsimp only
    split
    · split
      · rfl
      · split
        · rfl
        · exact hS.laws.rctOpen _ ‹_› ..
    · rfl
  unfold getDbContext lookupEntry
  dsimp only
  split
  · split
    · exact htable ..
    · exact (hS.laws.rctRead _ ‹_› ..).trans (htable ..)
  · exact htable ..

theorem getDbContext_fits {frame : CallFrame} {X : KeyResource} {lib : Library W}
    (htype : (getDbContext S frame X.context X.resourceId false lib).1.configKey.type = .key)
    (hrval : 0 ≤ (getDbContext S frame X.context X.resourceId false lib).1.rval)
    (hne : (getDbContext S frame X.context X.resourceId false lib).1.configKey.storage ≠ .custom)
    (dbType : DbType) :
    (⟨⟨X.context, (getDbContext S frame X.context X.resourceId false lib).1.configKey⟩,
      (getDbContext S frame X.context X.resourceId false lib).1.dbPath, dbType⟩ : Get).Fits S := by
  refine fits_of_length hS.names hS.appId ?_ dbType
  rcases getDbContext_cases S frame X.context X.resourceId false lib with
    ⟨configKey, hctx⟩ | ⟨hneg, -⟩
  · rw [hctx, contextOfEntry_configKey] at htype hne
    rw [hctx, contextOfEntry, if_pos hne]
    exact (getDbPath_length_le htype []).trans (by simp)
  · omega

/-- A call makes the requests of a trace; one that does not return makes none. -/
def TracedBy (S : Setup W) (bound : W → ℤ → Option CStr) (lib : Library W)
    (gets : List (Get × Library W)) : Option ((ℤ × Bytes) × Library W) → Prop
  | some (_, lib') => Traced S bound lib gets lib'
  | none => gets = []

theorem reach_traced {frame : CallFrame} {X : KeyResource} {ctx : DbContext}
    {access : KeyAccess} {lib : Library W} (hloaded : Loaded S.plugin lib)
    (hfits : ctx.configKey.storage ≠ .custom →
      ∀ i, (⟨⟨X.context, ctx.configKey⟩, ctx.dbPath, i⟩ : Get).Fits S) :
    TracedBy S bound lib (access.reachGets S X ctx lib) (access.reach S frame X ctx lib) := by
  cases access with
  | delete => exact persistenceDeleteData_traced hS hloaded hfits
  | getSize => exact persistenceGetDataSize_traced hS hloaded hfits
  | write buffer bufferSize => exact persistenceSetData_traced hS hloaded hfits
  | read buffer bufferSize =>
    dsimp only [KeyAccess.reach, KeyAccess.reachGets]
    unfold TracedBy
    split
    · rename_i result lib' heq
      exact persistenceGetData_traced hS hloaded hfits heq
    · rename_i hnone
      exact getDataGets_eq_nil hnone

theorem access_traced {frame : CallFrame} {X : KeyResource} {access : KeyAccess} {lib : Library W}
    (hloaded : Loaded S.plugin lib) :
    TracedBy S bound lib (access.gets S frame X lib) (access.perform S frame X lib) := by
  rw [KeyAccess.perform_eq]
  unfold KeyAccess.gets
  cases access.earlyRefusal S lib.client with
  | some rval => exact .refl lib
  | none =>
    have hcontext := @getDbContext_traced W S bound hS frame X false lib
    have hfits := @getDbContext_fits W S bound hS frame X lib
    generalize getDbContext S frame X.context X.resourceId false lib = found at *
    obtain ⟨ctx, lib₁⟩ := found
    dsimp only at hcontext hfits ⊢
    cases hlate : access.lateRefusal S ctx with
    | some rval => exact hcontext
    | none =>
      have hvalid : 0 ≤ ctx.rval ∧ ctx.configKey.type = .key := by
        by_contra hinvalid
        unfold KeyAccess.lateRefusal at hlate
        rw [if_neg hinvalid] at hlate
        cases access <;> cases hlate
      have hreach := @reach_traced W S bound hS frame X ctx access lib₁ (hcontext.loaded hloaded)
        (hfits hvalid.2 hvalid.1)
      dsimp only
      cases hresult : access.reach S frame X ctx lib₁ with
      | none =>
        rw [hresult] at hreach
        exact hreach
      | some result =>
        rw [hresult] at hreach
        exact hcontext.trans hreach

theorem call_traced {frame : CallFrame} {call : KeyCall} {lib : Library W}
    (hloaded : Loaded S.plugin lib) :
    TracedBy S bound lib (call.gets S frame lib) (call.perform S frame lib) := by
  unfold KeyCall.gets
  cases htarget : call.target lib.client with
  | some target =>
    rw [KeyCall.perform_target htarget]
    exact access_traced hS hloaded
  | none =>
    cases hperform : call.perform S frame lib with
    | none => exact rfl
    | some result =>
      obtain ⟨result, lib'⟩ := result
      have huntouched : ∀ {lib₁ : Library W}, KeyCall.Untouched lib₁ lib' →
          Traced S bound lib₁ [] lib' := fun h => .keep h.handlesDB (by rw [h.world]) fun hl idx => by
        rw [h.customFuncs]
        exact hl idx
      rcases KeyCall.perform_searches htarget hperform with h | ⟨X, h⟩
      · exact huntouched h
      · exact (getDbContext_traced hS lib).trans (huntouched h)

omit hS in
theorem databaseCloseAll_traced (lib : Library W) :
    Traced S bound lib [] (databaseCloseAll S lib) := by
  have hclose : ∀ (lib' : Library W) (slot : ℕ × DbType), Traced S bound lib [] lib' →
      Traced S bound lib [] (databaseClose S slot lib') := by
    intro lib' slot htraced
    exact htraced.trans (.close slot)
  exact run_invariant_of_forall hclose (.refl lib) _

theorem sequence_traced (steps : List DbStep) {lib : Library W} (hloaded : Loaded S.plugin lib) :
    ∃ lib', Traced S bound lib (sequenceGets S steps lib) lib' := by
  induction steps generalizing lib with
  | nil => exact ⟨lib, .refl lib⟩
  | cons step steps ih =>
    have hnext : ∀ {lib₁ : Library W} {t : List (Get × Library W)}, Traced S bound lib t lib₁ →
        ∃ lib', Traced S bound lib (t ++ sequenceGets S steps lib₁) lib' := by
      intro lib₁ t ht
      obtain ⟨lib', hlib'⟩ := ih (ht.loaded hloaded)
      exact ⟨lib', ht.append hlib'⟩
    cases step with
    | closeAll => exact hnext (databaseCloseAll_traced lib)
    | call frame keyCall =>
      have hcall := @call_traced W S bound hS frame keyCall lib hloaded
      unfold sequenceGets
      simp only [DbStep.gets, DbStep.next]
      cases hperform : keyCall.perform S frame lib with
      | none =>
        rw [hperform] at hcall
        have hgets : keyCall.gets S frame lib = [] := hcall
        exact ⟨lib, by simpa [hgets] using Traced.refl lib⟩
      | some result =>
        rw [hperform] at hcall
        exact hnext hcall

end Sequences

/-- In every sequence of key calls and of closing all databases, each request
that returns a handle gets an open one for exactly its path, if and only if each
request that finds its slot in use asks for the path the slot was filled for. -/
theorem sequence_served_iff {S : Setup W} {bound : W → ℤ → Option CStr} (hS : Sound S bound)
    (steps : List DbStep) {lib : Library W} (hloaded : Loaded S.plugin lib)
    (hempty : lib.gHandlesDB = fun _ => none) :
    (∀ e ∈ sequenceGets S steps lib, Served S bound e) ↔
      Guarded (noteFill S) (FilledFor S) (fun _ => none) (sequenceGets S steps lib) := by
  obtain ⟨lib', htraced⟩ := sequence_traced hS steps hloaded
  have hcoherent : Coherent bound (fun _ => none) lib := by
    constructor <;> simp [hempty]
  exact (hcoherent.traced hS.laws htraced).2

section Policies

def localKeyEntry (policy : PersistencePolicy) : PersistenceConfigurationKey where
  policy
  storage := .local
  type := .key
  permission := .readWrite
  maxSize := 16
  reponsible := []
  customName := []
  customID := []

/-- The path of an open database, handles being numbered in the order they are opened. -/
def numberedBound (world : List (Option CStr)) (handle : ℤ) : Option CStr :=
  if 0 ≤ handle then world[handle.toNat]?.join else none

/-- A plugin that numbers its handles. Its databases are empty, and each resource
is a local key whose policy is told by its name. -/
def Plugin.numbered : Plugin (List (Option CStr)) where
  persComDbOpen := some fun path _ world => (world.length, world ++ [some path])
  persComDbClose := some fun handle world =>
    if numberedBound world handle = none then (-1, world) else (0, world.set handle.toNat none)
  persComDbWriteKey := some fun _ _ _ size world => (size, world)
  persComDbReadKey := some fun _ _ buffer _ world => ((-1, buffer), world)
  persComDbGetKeySize := some fun _ _ world => (-1, world)
  persComDbDeleteKey := some fun _ _ world => (-1, world)
  persComRctOpen := some fun _ _ world => (0, world)
  persComRctClose := some fun _ world => (0, world)
  persComRctRead := some fun _ id world =>
    (some (localKeyEntry (if id = cstr "cached" then .wc else .wt)), world)
  persComErrNotFound := -1
  dlopen := fun _ => none
  gCustomLibArray := fun _ => ⟨[], .undefined, .undefined⟩

def numberedSetup : Setup (List (Option CStr)) := ⟨.standard, cstr "app", .numbered⟩

def numberedLibrary : Library (List (Option CStr)) where
  client := .start .empty .empty
  world := []

theorem numbered_laws : DbHandleLaws Plugin.numbered numberedBound where
  opened := by
    rintro f ⟨⟩ path flags world -
    refine ⟨by simp [numberedBound], ?_⟩
    ext1 handle
    rw [Function.update_apply]
    unfold numberedBound
    dsimp only
    split
    · rename_i hnonneg
      obtain ⟨n, rfl⟩ := Int.eq_ofNat_of_zero_le hnonneg
      rw [Int.toNat_natCast, List.getElem?_append]
      rcases lt_trichotomy n world.length with hlt | rfl | hgt
      · rw [if_pos hlt, if_neg (by omega)]
      · simp
      · rw [if_neg (by omega), if_neg (by omega), List.getElem?_eq_none (by simp; omega),
          List.getElem?_eq_none (by omega)]
    · rw [if_neg (by omega)]
  notOpened := by
    rintro f ⟨⟩ path flags world hneg
    dsimp only at hneg
    omega
  closed := by
    rintro f ⟨⟩ handle world hnonneg
    dsimp only at hnonneg ⊢
    split at hnonneg
    · omega
    · rename_i hopen
      rw [if_neg hopen]
      have hhandle : 0 ≤ handle := by
        by_contra hneg
        exact hopen (if_neg hneg)
      ext1 other
      rw [Function.update_apply]
      unfold numberedBound
      by_cases hother : 0 ≤ other
      · rw [if_pos hother, if_pos hother, List.getElem?_set]
        by_cases heq : other = handle
        · subst heq
          simp
          split <;> rfl
        · rw [if_neg (by omega), if_neg heq]
      · rw [if_neg hother, if_neg hother, if_neg (by omega)]
  notClosed := by
    rintro f ⟨⟩ handle world hneg
    dsimp only at hneg ⊢
    split at hneg
    · rename_i hnone
      rw [if_pos hnone]
    · omega
  writeKey := by rintro f ⟨⟩ handle key buffer size world; rfl
  readKey := by rintro f ⟨⟩ handle key buffer size world; rfl
  getKeySize := by rintro f ⟨⟩ handle key world; rfl
  deleteKey := by rintro f ⟨⟩ handle key world; rfl
  rctOpen := by rintro f ⟨⟩ path flags world; rfl
  rctRead := by rintro f ⟨⟩ handle id world; rfl
  custom := by rintro name functs ⟨⟩

theorem standard_databaseNamesFit : DatabaseNamesFit .standard := by
  intro dbType name flags hfile
  rcases dbType with p | _ | _
  · cases p <;> cases hfile <;> simp [CommonObject.standard, cstr_eq]
  · cases hfile
    simp [CommonObject.standard, cstr_eq]
  · cases hfile
    simp [CommonObject.standard, cstr_eq]

theorem numbered_sound : Sound numberedSetup numberedBound where
  laws := numbered_laws
  names := standard_databaseNamesFit
  appId := by simp [numberedSetup, CommonObject.standard, cstr_eq]

def readLocal (id : CStr) : DbStep :=
  .call plainFrame (.direct ⟨⟨pclLdbidLocal, 0, 0⟩, id⟩ (.read [] 0))

/-- The databases are closed between reads of keys with different policies. -/
theorem closed_between_served :
    (∀ e ∈ sequenceGets numberedSetup [readLocal (cstr "cached"), .closeAll,
      readLocal (cstr "through")] numberedLibrary, Served numberedSetup numberedBound e) ↔
      Guarded (noteFill numberedSetup) (FilledFor numberedSetup) (fun _ => none)
        (sequenceGets numberedSetup [readLocal (cstr "cached"), .closeAll,
          readLocal (cstr "through")] numberedLibrary) :=
  sequence_served_iff numbered_sound _ (fun _ => Or.inl rfl) rfl

/-- The defaults of a write-through key are looked for in the database the
defaults of a cached key were read from. -/
theorem shared_default_slot_not_served :
    ¬ ∀ steps : List DbStep, ∀ e ∈ sequenceGets numberedSetup steps numberedLibrary,
      Served numberedSetup numberedBound e := by
  intro h
  have hother : ∃ e ∈ sequenceGets numberedSetup
      [readLocal (cstr "cached"), readLocal (cstr "through")] numberedLibrary,
      0 ≤ (e.1.perform numberedSetup e.2).1 ∧ e.1.path numberedSetup ≠
        numberedBound (e.1.perform numberedSetup e.2).2.world (e.1.perform numberedSetup e.2).1 := by
    decide +kernel
  obtain ⟨e, he, hnonneg, hother⟩ := hother
  obtain ⟨path, hpath, hbound⟩ := h _ e he hnonneg
  exact hother (hpath.trans hbound.symm)

end Policies

end PersClient.Key
