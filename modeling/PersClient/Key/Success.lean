import PersClient.Key.Executed

/-! # What results tell

A result that is not negative should tell that the plugin did what the key
function was called for, and a negative result of a write or a deletion that it
changed nothing. The result of the search for the context stands in for a
resource that is no key, and that of the notification for a write that was
done: these two are where the result tells something else.
-/

namespace PersClient.Key

open File Handle Access Prct

variable {W D : Type}

section Refusals

variable {S : Setup W} {client : Client} {ctx : DbContext} {access : KeyAccess} {rval : ℤ}

theorem KeyAccess.earlyRefusal_neg (h : access.earlyRefusal S client = some rval) : rval < 0 := by
  have hinit : epersNotInitialized < 0 := by decide
  have hlock : epersLockfs < 0 := by decide
  have hlimit : epersBuflimit < 0 := by decide
  unfold KeyAccess.earlyRefusal at h
  split at h
  · cases h
    exact hinit
  · cases access with
    | getSize => cases h
    | delete | read _ _ =>
      dsimp only at h
      split_ifs at h
      cases h
      exact hlock
    | write _ _ =>
      dsimp only at h
      split_ifs at h
      · cases h
        exact hlock
      · cases h
        exact hlimit

/-- A refusal for what the search finds is an error, unless the entry is no key. -/
theorem KeyAccess.lateRefusal_neg (h : access.lateRefusal S ctx = some rval)
    (hkey : 0 ≤ ctx.rval → ctx.configKey.type = .key) : rval < 0 := by
  have hpol : epersBadpol < 0 := by decide
  have hread : epersResourceReadOnly < 0 := by decide
  have hresp : epersNotRespApp < 0 := by decide
  unfold KeyAccess.lateRefusal at h
  split at h
  · cases access <;> dsimp only at h <;> split_ifs at h <;> cases h <;> assumption
  · rename_i hno
    have hneg : ctx.rval < 0 := by
      by_contra hpos
      exact hno ⟨not_lt.mp hpos, hkey (not_lt.mp hpos)⟩
    cases access <;> cases h <;> assumption

theorem KeyAccess.key_of_lateRefusal (h : access.lateRefusal S ctx = none) :
    0 ≤ ctx.rval ∧ ctx.configKey.type = .key := by
  by_contra hno
  unfold KeyAccess.lateRefusal at h
  rw [if_neg hno] at h
  cases access <;> cases h

theorem KeyAccess.lateRefusal_of_not_key (hsize : access ≠ .getSize)
    (hkey : ctx.configKey.type ≠ .key) : access.lateRefusal S ctx = some ctx.rval := by
  unfold KeyAccess.lateRefusal
  rw [if_neg fun h => hkey h.2]
  cases access with
  | getSize => exact absurd rfl hsize
  | delete | read _ _ | write _ _ => rfl

end Refusals

section Truth

variable {S : Setup W} {calls : W → List PluginCall} {stored : W → D} {frame : CallFrame}
  {X : KeyResource} {access : KeyAccess} {lib lib' : Library W} {n : ℤ}

def KeyAccess.changes : KeyAccess → Bool
  | delete | write _ _ => true
  | getSize | read _ _ => false

/-- The calls of the plugin that do what the key function was called for. -/
def Serves (X : KeyResource) (ctx : DbContext) (access : KeyAccess) (e : PluginCall) : Prop :=
  match access with
  | .delete => DeleteCall ⟨X.context, ctx.configKey⟩ ctx.dbKey e
  | .read _ size => ReadCall ⟨X.context, ctx.configKey⟩ ctx.dbKey X.resourceId size e
  | .write buffer size => WriteCall ⟨X.context, ctx.configKey⟩ ctx.dbKey X.resourceId buffer size e
  | .getSize => False

/-- A result that is not negative tells that the plugin did it, and a negative
result of a write or a deletion that the plugin changed nothing. -/
def TellsTruth (calls : W → List PluginCall) (stored : W → D) (X : KeyResource) (ctx : DbContext)
    (access : KeyAccess) (lib : Library W) (n : ℤ) (lib' : Library W) : Prop :=
  ∃ events, calls lib'.world = calls lib.world ++ events ∧
    (0 ≤ n → ∃ e ∈ events, Serves X ctx access e ∧ 0 ≤ e.result) ∧
    (access.changes = true → n < 0 → (∀ e ∈ events, e.changes = true → e.result < 0) ∧
      stored lib'.world = stored lib.world)

/-- The entry a call finds is a key, and the pipe takes the command of a write
that is to be announced; `got` is what the search for the context gives. -/
structure Reportable (S : Setup W) (frame : CallFrame) (X : KeyResource) (access : KeyAccess)
    (client : Client) (got : DbContext × Library W) : Prop where
  key_entry : access.earlyRefusal S client = none → 0 ≤ got.1.rval → got.1.configKey.type = .key
  announced : ∀ buffer size, access = .write buffer size → access.earlyRefusal S client = none →
    access.lateRefusal S got.1 = none →
    WriteDue S ⟨X.context, got.1.configKey⟩ got.1.dbPath got.1.dbKey X.resourceId buffer size
      got.2 → frame.written = true

theorem TellsTruth.refused {ctx : DbContext} (h : Prepared calls stored lib lib') (hneg : n < 0) :
    TellsTruth calls stored X ctx access lib n lib' :=
  ⟨[], by rw [h.asked, List.append_nil], fun hpos => absurd hneg (not_lt.mpr hpos),
    fun _ _ => ⟨nofun, h.kept⟩⟩

theorem tellsTruth_prepared {ctx : DbContext} {lib₁ : Library W}
    (h : Prepared calls stored lib lib₁) :
    TellsTruth calls stored X ctx access lib n lib' ↔
      TellsTruth calls stored X ctx access lib₁ n lib' := by
  unfold TellsTruth
  rw [h.asked, h.kept]

theorem TellsTruth.once {ctx : DbContext} {e : PluginCall}
    (hcalls : calls lib'.world = calls lib.world ++ [e]) (hserves : Serves X ctx access e)
    (hkept : e.result < 0 → stored lib'.world = stored lib.world)
    (hresult : n < 0 ↔ e.result < 0) : TellsTruth calls stored X ctx access lib n lib' := by
  refine ⟨[e], hcalls, fun hpos => ⟨e, List.mem_singleton_self e, hserves, ?_⟩, fun _ hneg => ?_⟩
  · by_contra hneg
    exact not_lt.mpr hpos (hresult.mpr (not_le.mp hneg))
  · exact ⟨List.forall_mem_singleton.mpr fun _ => hresult.mp hneg, hkept (hresult.mp hneg)⟩

theorem SetEnds.tellsTruth_iff {ctx : DbContext} {buffer : Bytes} {size : ℤ}
    (h : SetEnds S calls stored frame ⟨X.context, ctx.configKey⟩ ctx.dbPath ctx.dbKey X.resourceId
      buffer size lib n lib') :
    TellsTruth calls stored X ctx (.write buffer size) lib n lib' ↔
      (WriteDue S ⟨X.context, ctx.configKey⟩ ctx.dbPath ctx.dbKey X.resourceId buffer size lib →
        frame.written = true) := by
  cases h with
  | refused neg prepared not_due =>
    exact iff_of_true (.refused prepared neg) fun hdue => absurd hdue not_due
  | silent e call asked kept client result not_due failed =>
    exact iff_of_true (.once asked call kept (by rw [result])) fun hdue => absurd hdue not_due
  | announced e call asked success client result due =>
    cases hwritten : frame.written with
    | true =>
      rw [hwritten] at result
      refine iff_of_true (.once asked call (fun hneg => absurd success (not_le.mpr hneg)) ?_)
        fun _ => rfl
      rw [result]
      rfl
    | false =>
      rw [hwritten] at result
      have hneg : n < 0 := result ▸ show epersNotifySig < 0 by decide
      refine iff_of_false ?_ fun h => absurd (h due) nofun
      rintro ⟨events, hasked, -, hunchanged⟩
      rw [asked, List.append_cancel_left_eq] at hasked
      subst hasked
      have hchanges : e.changes = true := by
        rcases call with ⟨_, _, rfl⟩ | ⟨_, rfl⟩ <;> rfl
      have := (hunchanged rfl hneg).1 e (List.mem_singleton_self e) hchanges
      omega

/-- Results of deletions, reads and writes tell the truth exactly if the entry
is a key, where one is found, and the pipe takes the command of each write that
is to be announced. -/
theorem tells_truth_iff (laws : CallLaws S.plugin calls stored)
    (table : ∀ idx, CustomCallLaws (lib.gPersCustomFuncs idx) calls stored)
    (hsize : access ≠ .getSize) {r : ℤ × Bytes}
    (hperform : access.perform S frame X lib = some (r, lib')) :
    TellsTruth calls stored X (getDbContext S frame X.context X.resourceId false lib).1 access lib
      r.1 lib' ↔ Reportable S frame X access lib.client
        (getDbContext S frame X.context X.resourceId false lib) := by
  rw [KeyAccess.perform_eq] at hperform
  cases hearly : access.earlyRefusal S lib.client with
  | some rval =>
    rw [hearly] at hperform
    cases hperform
    refine iff_of_true (.refused .refl (KeyAccess.earlyRefusal_neg hearly)) ⟨?_, ?_⟩
    · rw [hearly]
      exact nofun
    · rintro buffer size rfl hno
      rw [hearly] at hno
      cases hno
  | none =>
    have hcontext := getDbContext_prepared laws frame X.context X.resourceId false lib
    rw [hearly] at hperform
    generalize getDbContext S frame X.context X.resourceId false lib = got at *
    obtain ⟨ctx, lib₁⟩ := got
    have hfuncts := hcontext.functs table
    dsimp only at hperform hcontext hfuncts ⊢
    cases hlate : access.lateRefusal S ctx with
    | some rval =>
      rw [hlate] at hperform
      cases hperform
      by_cases hkey : 0 ≤ ctx.rval → ctx.configKey.type = .key
      · refine iff_of_true (.refused hcontext (KeyAccess.lateRefusal_neg hlate hkey))
          ⟨fun _ => hkey, ?_⟩
        exact fun _ _ _ _ hno => absurd (hlate.symm.trans hno) nofun
      · refine iff_of_false ?_ fun h => hkey (h.key_entry hearly)
        rintro ⟨events, hasked, hdone, -⟩
        -- no key: the result of the search is returned
        push Not at hkey
        rw [KeyAccess.lateRefusal_of_not_key hsize hkey.2, Option.some.injEq] at hlate
        obtain ⟨e, hmem, -⟩ := hdone (hlate ▸ hkey.1)
        have hnone : events = [] := by simpa [hcontext.asked] using hasked
        rw [hnone] at hmem
        cases hmem
    | none =>
      rw [hlate] at hperform
      have hkey := (KeyAccess.key_of_lateRefusal hlate).2
      cases access with
      | getSize => exact absurd rfl hsize
      | delete =>
        have hends := persistenceDeleteData_ends laws hfuncts frame ctx.dbPath ctx.dbKey
          X.resourceId ⟨X.context, ctx.configKey⟩
        dsimp only [KeyAccess.reach] at hperform
        generalize persistenceDeleteData S frame ctx.dbPath ctx.dbKey X.resourceId
          ⟨X.context, ctx.configKey⟩ lib₁ = done at hends hperform
        generalize deletion S ⟨X.context, ctx.configKey⟩ ctx.dbPath ctx.dbKey lib₁ = tried at hends
        cases hperform
        refine iff_of_true ((tellsTruth_prepared hcontext).mpr ?_) ⟨fun _ _ => hkey, nofun⟩
        cases hends with
        | refused neg prepared => exact .refused prepared neg
        | asked e call asked kept neg_iff client => exact .once asked call kept neg_iff
      | read buffer size =>
        obtain ⟨hkept, events, hasked, hall, hsuccess⟩ :=
          persistenceGetData_ends_in_reads laws hfuncts hperform
        refine iff_of_true ((tellsTruth_prepared hcontext).mpr
          ⟨events, hasked, fun hpos => ?_, nofun⟩)
          ⟨fun _ _ => hkey, nofun⟩
        obtain ⟨e, hmem, hresult⟩ := hsuccess hpos
        exact ⟨e, hmem, hall e hmem, hresult⟩
      | write buffer size =>
        have hends := persistenceSetData_ends laws hfuncts frame ctx.dbPath ctx.dbKey X.resourceId
          ⟨X.context, ctx.configKey⟩ buffer size
        dsimp only [KeyAccess.reach] at hperform
        generalize persistenceSetData S frame ctx.dbPath ctx.dbKey X.resourceId
          ⟨X.context, ctx.configKey⟩ buffer size lib₁ = done at hends hperform
        cases hperform
        rw [tellsTruth_prepared hcontext, hends.tellsTruth_iff]
        constructor
        · intro hdue
          refine ⟨fun _ _ => hkey, ?_⟩
          rintro _ _ ⟨⟩ - -
          exact hdue
        · exact fun hreport => hreport.announced buffer size rfl hearly hlate

end Truth

section Example

/-- Databases in memory that note the calls, behind tables with one entry. -/
def recordedSetup (configKey : PersistenceConfigurationKey) : Setup (Store × List PluginCall) where
  com := .standard
  appId := cstr "app"
  plugin := (Plugin.store configKey).recorded

def recordedLibrary : Library (Store × List PluginCall) where
  client := .start .empty .empty
  world := ({ entries := fun _ _ => none }, [])

theorem recordedLibrary_functs (idx : PersistenceCustomLibs) :
    CustomCallLaws (recordedLibrary.gPersCustomFuncs idx) Prod.snd fun w => w.1.entries :=
  ⟨nofun, nofun, nofun, nofun, nofun⟩

def volumeKey : KeyResource := ⟨⟨0x10, 1, 0⟩, cstr "volume"⟩

/-- A write of a shared key, announced. -/
theorem shared_write_told :
    ∃ r lib', (KeyAccess.write [0x35] 1).perform (recordedSetup sharedEntry) plainFrame volumeKey
        recordedLibrary = some (r, lib') ∧
      TellsTruth Prod.snd (fun w => w.1.entries) volumeKey
        (getDbContext (recordedSetup sharedEntry) plainFrame volumeKey.context
          volumeKey.resourceId false recordedLibrary).1 (.write [0x35] 1) recordedLibrary r.1 lib' := by
  have hreturns : ((KeyAccess.write [0x35] 1).perform (recordedSetup sharedEntry) plainFrame
      volumeKey recordedLibrary).isSome = true := by decide +kernel
  have hkey : (getDbContext (recordedSetup sharedEntry) plainFrame volumeKey.context
      volumeKey.resourceId false recordedLibrary).1.configKey.type = .key := by decide +kernel
  obtain ⟨⟨r, lib'⟩, hperform⟩ := Option.isSome_iff_exists.mp hreturns
  refine ⟨r, lib', hperform, ?_⟩
  have hwrite : KeyAccess.write [0x35] 1 ≠ .getSize := by decide
  exact (tells_truth_iff store_calls recordedLibrary_functs hwrite hperform).mpr
    ⟨fun _ _ => hkey, fun _ _ _ _ _ _ => rfl⟩

/-- The deletion of a resource whose entry is a file returns 0 and asks the
plugin for nothing. -/
theorem file_delete_untold :
    ¬ (∀ (configKey : PersistenceConfigurationKey) (access : KeyAccess) r lib',
      access ≠ .getSize →
      access.perform (recordedSetup configKey) plainFrame volumeKey recordedLibrary =
        some (r, lib') →
      TellsTruth Prod.snd (fun w => w.1.entries) volumeKey
        (getDbContext (recordedSetup configKey) plainFrame volumeKey.context
          volumeKey.resourceId false recordedLibrary).1 access recordedLibrary r.1 lib') := by
  intro h
  have hnothing : (KeyAccess.delete.perform (recordedSetup { sharedEntry with type := .file })
      plainFrame volumeKey recordedLibrary).map (fun result => (result.1.1, result.2.world.2)) =
      some (0, []) := by decide +kernel
  obtain ⟨⟨r, lib'⟩, hperform, hresult⟩ := Option.map_eq_some_iff.mp hnothing
  have hdelete : KeyAccess.delete ≠ .getSize := by decide
  obtain ⟨events, hasked, hdone, -⟩ := h _ _ r lib' hdelete hperform
  rw [Prod.mk.injEq] at hresult
  obtain ⟨e, hmem, -⟩ := hdone (by rw [hresult.1])
  have hnone : events = [] := by
    simpa [recordedLibrary, show lib'.world.2 = [] from hresult.2] using hasked
  rw [hnone] at hmem
  cases hmem

end Example

end PersClient.Key
