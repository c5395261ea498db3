import PersClient.Key.Calls
import PersClient.Prct.Namespaces

/-! # Registrations for changes

The tree of registrations keeps checksums of database keys, and the callback is
dropped with the last of them. As long as no two contexts in use share a
checksum, and none is registered twice, the tree mirrors the registered
contexts.
-/

namespace PersClient.Key

open File Handle Access Prct

variable {W : Type*}

/-- A call that registers a key or ends its registration, by its context or by a
handle. -/
inductive RegistrationCall
  | register (X : KeyResource)
  | unregister (X : KeyResource)
  | handleRegister (keyHandle : ℤ)
  | handleUnregister (keyHandle : ℤ)

namespace RegistrationCall

def policy : RegistrationCall → PersNotifyRegPolicy
  | register _ | handleRegister _ => .register
  | unregister _ | handleUnregister _ => .unregister

def ofHandle (keyHandle : ℤ) (lib : Library W) : Option KeyResource :=
  (getKeyHandleData lib.client.gKeyHandleTree keyHandle).map fun persHandle =>
    ⟨⟨persHandle.ldbid, persHandle.userNo, persHandle.seatNo⟩, persHandle.resourceId⟩

def resource (lib : Library W) : RegistrationCall → Option KeyResource
  | register X | unregister X => some X
  | handleRegister keyHandle | handleUnregister keyHandle => ofHandle keyHandle lib

def perform (S : Setup W) (frame : CallFrame) (callback : ℕ) (lib : Library W) :
    RegistrationCall → Option (ℤ × Library W)
  | register X => pclKeyRegisterNotifyOnChange S frame X.context X.resourceId callback lib
  | unregister X => pclKeyUnRegisterNotifyOnChange S frame X.context X.resourceId callback lib
  | handleRegister keyHandle =>
    pclKeyHandleRegisterNotifyOnChange S frame keyHandle callback lib
  | handleUnregister keyHandle =>
    pclKeyHandleUnRegisterNotifyOnChange S frame keyHandle callback lib

end RegistrationCall

/-- The library and the contexts registered and not unregistered since. -/
structure Registered (W : Type*) where
  lib : Library W
  contexts : List KeyResource

def registerContext (policy : PersNotifyRegPolicy) (X : KeyResource) (contexts : List KeyResource) :
    List KeyResource :=
  match policy with
  | .register => if X ∈ contexts then contexts else X :: contexts
  | .unregister => contexts.erase X

def KeyResource.notificationKey (com : CommonObject) (X : KeyResource) : UInt32 :=
  Key.notificationKey (getDbKey com X.context X.resourceId)

/-- The entry of the context has the shared storage. -/
def SharedKey (S : Setup W) (frame : CallFrame) (X : KeyResource) (lib : Library W) : Prop :=
  (getDbContext S frame X.context X.resourceId false lib).1.configKey.storage = .shared

/-- The condition on a call: its checksum is that of no registered context, or
it ends the registration of this context. -/
def Apart (S : Setup W) (contexts : List KeyResource) (policy : PersNotifyRegPolicy)
    (X : KeyResource) : Prop :=
  ∀ Y ∈ contexts, KeyResource.notificationKey S.com Y = KeyResource.notificationKey S.com X →
    policy = .unregister ∧ Y = X

section Run

variable (S : Setup W) (callback : ℕ)

inductive Succeeds (frame : CallFrame) (call : RegistrationCall) (s s' : Registered W) : Prop
  | intro (X : KeyResource) (resource : call.resource s.lib = some X)
      (shared : SharedKey S frame X s.lib)
      (result : call.perform S frame callback s.lib = some (0, s'.lib))
      (contexts : s'.contexts = registerContext call.policy X s.contexts)

/-- The states of the runs from a library without registrations, if each call
meets a condition. -/
inductive RegistrationRun (ok : Registered W → RegistrationCall → Prop) : Registered W → Prop
  | start {lib : Library W} (tree : lib.gNotificationTree.getD {} = {})
      (callback : lib.gChangeNotifyCallback = none) : RegistrationRun ok ⟨lib, []⟩
  | call {s s' : Registered W} {frame : CallFrame} {call : RegistrationCall}
      (run : RegistrationRun ok s) (allowed : ok s call)
      (step : Succeeds S callback frame call s s') : RegistrationRun ok s'

/-- The condition on a call in a state. -/
def Registered.Allows (s : Registered W) (call : RegistrationCall) : Prop :=
  ∀ X, call.resource s.lib = some X → Apart S s.contexts call.policy X

/-- The callback stands for the registered contexts. -/
def Registered.Faithful (s : Registered W) : Prop :=
  s.lib.gChangeNotifyCallback.isSome ↔ s.contexts ≠ []

/-- The tree holds the checksums of the registered contexts, one for each. -/
structure Registered.Mirrored (s : Registered W) : Prop where
  distinct : s.contexts.Nodup
  intact : (s.lib.gNotificationTree.getD {}).released = false
  keys_nodup : (s.lib.gNotificationTree.getD {}).keys.Nodup
  mem_keys : ∀ k, k ∈ (s.lib.gNotificationTree.getD {}).keys ↔
    ∃ X ∈ s.contexts, KeyResource.notificationKey S.com X = k
  injective : ∀ X ∈ s.contexts, ∀ Y ∈ s.contexts,
    KeyResource.notificationKey S.com X = KeyResource.notificationKey S.com Y → X = Y
  faithful : s.Faithful

end Run

section Step

variable {S : Setup W} {frame : CallFrame} {callback : ℕ} {X : KeyResource} {lib lib' : Library W}
  {policy : PersNotifyRegPolicy} {call : RegistrationCall}

theorem dbKey_of_sharedKey (h : SharedKey S frame X lib)
    (hrval : (getDbContext S frame X.context X.resourceId false lib).1.rval = 0) :
    (getDbContext S frame X.context X.resourceId false lib).1.dbKey =
      getDbKey S.com X.context X.resourceId := by
  unfold SharedKey at h
  rcases getDbContext_cases S frame X.context X.resourceId false lib with
    ⟨configKey, hctx⟩ | ⟨hneg, -⟩
  · rw [hctx, contextOfEntry_configKey] at h
    rw [hctx, contextOfEntry, if_pos (by rw [h]; decide)]
    rfl
  · omega

structure SameNotifications (lib lib' : Library W) : Prop where
  tree : lib'.gNotificationTree = lib.gNotificationTree
  callback : lib'.gChangeNotifyCallback = lib.gChangeNotifyCallback

def Notified (S : Setup W) (callback : ℕ) (policy : PersNotifyRegPolicy) (X : KeyResource)
    (lib lib' : Library W) : Prop :=
  ∃ lib₁, SameNotifications lib lib₁ ∧ SameNotifications (notifyTree
    (KeyResource.notificationKey S.com X) callback policy (lib.gNotificationTree.getD {}) lib₁) lib'

/-- With an intact tree a call returns; its result is 0 only if it got as far as
the tree. -/
theorem regNotifyOnChange_spec (hshared : SharedKey S frame X lib)
    (hintact : (lib.gNotificationTree.getD {}).released = false) :
    ∃ rval lib', regNotifyOnChange S frame X.context X.resourceId callback policy lib =
      some (rval, lib') ∧ (rval = 0 → Notified S callback policy X lib lib') := by
  have hsame := @getDbContext_same W S X.context X.resourceId lib frame false
  have hkey := dbKey_of_sharedKey hshared
  unfold regNotifyOnChange
  split
  · dsimp only
    split
    · rename_i hrval
      split
      · unfold persistenceNotifyOnChange
        rw [hsame.notificationTree, hkey hrval]
        dsimp only
        rw [if_neg (by simp [hintact])]
        refine ⟨_, _, rfl, fun _ => ⟨_, ⟨hsame.notificationTree, hsame.changeNotifyCallback⟩, ?_⟩⟩
        constructor <;> rfl
      · refine ⟨_, _, rfl, fun h => ?_⟩
        cases h
    · rename_i hrval
      exact ⟨_, _, rfl, fun h => absurd h hrval⟩
  · refine ⟨_, _, rfl, fun h => ?_⟩
    cases h

theorem perform_spec (hresource : call.resource lib = some X) (hshared : SharedKey S frame X lib)
    (hintact : (lib.gNotificationTree.getD {}).released = false) :
    ∃ rval lib', call.perform S frame callback lib = some (rval, lib') ∧
      (rval = 0 → Notified S callback call.policy X lib lib') := by
  have hfail : ∀ {rval : ℤ} (policy : PersNotifyRegPolicy), rval ≠ 0 →
      ∃ rval' lib', some (rval, lib) = some (rval', lib') ∧
        (rval' = 0 → Notified S callback policy X lib lib') :=
    fun _ hne => ⟨_, _, rfl, fun h => absurd h hne⟩
  have hdirect : ∀ policy, ∃ rval lib',
      regNotifyOnChange S frame X.context X.resourceId callback policy lib = some (rval, lib') ∧
        (rval = 0 → Notified S callback policy X lib lib') :=
    fun policy => regNotifyOnChange_spec hshared hintact
  have honce : ∀ {register : Option (ℤ × Library W)} (policy : PersNotifyRegPolicy),
      (∃ rval lib', register = some (rval, lib') ∧ (rval = 0 → Notified S callback policy X lib lib')) →
      ∃ rval lib', oneCallback callback lib register = some (rval, lib') ∧
        (rval = 0 → Notified S callback policy X lib lib') := by
    intro register policy hregister
    unfold oneCallback
    split
    · exact hregister
    · exact hfail policy (by decide)
  have hhandle : ∀ {keyHandle : ℤ} (policy : PersNotifyRegPolicy),
      RegistrationCall.ofHandle keyHandle lib = some X →
      ∃ rval lib', handleRegNotifyOnChange S frame keyHandle callback policy lib = some (rval, lib') ∧
        (rval = 0 → Notified S callback policy X lib lib') := by
    intro keyHandle policy hof
    unfold handleRegNotifyOnChange withKeyHandle
    unfold RegistrationCall.ofHandle at hof
    split
    · split
      · exact hfail policy (by decide)
      · rename_i persHandle hdata
        rw [hdata, Option.map_some] at hof
        obtain rfl := Option.some.inj hof
        split
        · exact hdirect policy
        · exact hfail policy (by decide)
    · exact hfail policy (by decide)
  cases call with
  | register Y =>
    obtain rfl := Option.some.inj hresource
    exact honce _ (hdirect _)
  | unregister Y =>
    obtain rfl := Option.some.inj hresource
    exact hdirect _
  | handleRegister keyHandle => exact honce _ (hhandle _ hresource)
  | handleUnregister keyHandle => exact hhandle _ hresource

theorem Registered.Mirrored.mem_keys_iff {s : Registered W} (h : s.Mirrored S)
    (hapart : Apart S s.contexts policy X) :
    KeyResource.notificationKey S.com X ∈ (s.lib.gNotificationTree.getD {}).keys ↔
      X ∈ s.contexts := by
  rw [h.mem_keys]
  constructor
  · rintro ⟨Y, hY, hkey⟩
    rwa [← (hapart Y hY hkey).2]
  · exact fun hX => ⟨X, hX, rfl⟩

theorem mirrored_register {s : Registered W} (h : s.Mirrored S)
    (hapart : Apart S s.contexts .register X)
    (hnotified : Notified S callback .register X s.lib lib') :
    Registered.Mirrored S ⟨lib', registerContext .register X s.contexts⟩ := by
  obtain ⟨lib₁, -, hafter⟩ := hnotified
  have hnew : X ∉ s.contexts := by
    intro hX
    cases (hapart X hX rfl).1
  have hkey := mt (h.mem_keys_iff hapart).mp hnew
  unfold notifyTree at hafter
  dsimp only at hafter
  rw [if_neg hkey] at hafter
  have htree := hafter.tree
  have hcallback := hafter.callback
  dsimp only at htree hcallback
  rw [registerContext, if_neg hnew]
  constructor
  · exact List.nodup_cons.mpr ⟨hnew, h.distinct⟩
  · simpa only [htree, Option.getD_some] using h.intact
  · simpa only [htree, Option.getD_some] using List.nodup_cons.mpr ⟨hkey, h.keys_nodup⟩
  · intro k
    rw [htree, Option.getD_some, List.mem_cons, h.mem_keys]
    simp only [List.mem_cons, exists_eq_or_imp]
    exact or_congr_left eq_comm
  · intro Y hY Z hZ heq
    rcases List.mem_cons.mp hY with rfl | hY' <;> rcases List.mem_cons.mp hZ with rfl | hZ'
    · rfl
    · exact (hapart Z hZ' heq.symm).2.symm
    · exact (hapart Y hY' heq).2
    · exact h.injective Y hY' Z hZ' heq
  · simp [Registered.Faithful, hcallback]

theorem keys_eq_nil_iff {keys : List UInt32} {contexts : List KeyResource}
    (hmem : ∀ k, k ∈ keys ↔ ∃ X ∈ contexts, KeyResource.notificationKey S.com X = k) :
    keys = [] ↔ contexts = [] := by
  constructor
  · rintro rfl
    refine List.eq_nil_iff_forall_not_mem.mpr fun X hX => ?_
    cases (hmem _).mpr ⟨X, hX, rfl⟩
  · rintro rfl
    refine List.eq_nil_iff_forall_not_mem.mpr fun k hk => ?_
    obtain ⟨X, hX, -⟩ := (hmem k).mp hk
    cases hX

/-- The end of a registration takes its checksum out of the tree and no other. -/
theorem Registered.Mirrored.mem_erase {s : Registered W} (h : s.Mirrored S) (hX : X ∈ s.contexts)
    (k : UInt32) :
    k ∈ (s.lib.gNotificationTree.getD {}).keys.erase (KeyResource.notificationKey S.com X) ↔
      ∃ Y ∈ s.contexts.erase X, KeyResource.notificationKey S.com Y = k := by
  rw [h.keys_nodup.mem_erase_iff, h.mem_keys]
  constructor
  · rintro ⟨hne, Y, hY, rfl⟩
    refine ⟨Y, h.distinct.mem_erase_iff.mpr ⟨?_, hY⟩, rfl⟩
    rintro rfl
    exact hne rfl
  · rintro ⟨Y, hY, rfl⟩
    obtain ⟨hne, hY⟩ := h.distinct.mem_erase_iff.mp hY
    exact ⟨fun heq => hne (h.injective Y hY X hX heq), Y, hY, rfl⟩

theorem mirrored_unregister {s : Registered W} (h : s.Mirrored S)
    (hapart : Apart S s.contexts .unregister X)
    (hnotified : Notified S callback .unregister X s.lib lib') :
    Registered.Mirrored S ⟨lib', registerContext .unregister X s.contexts⟩ := by
  obtain ⟨lib₁, hbefore, hafter⟩ := hnotified
  have hmem := h.mem_keys_iff hapart
  have hcallback := hbefore.callback
  unfold notifyTree at hafter
  dsimp only at hafter
  by_cases hX : X ∈ s.contexts
  · rw [if_pos (hmem.mpr hX)] at hafter
    have htree : lib'.gNotificationTree.getD {} = _ := congrArg (·.getD {}) hafter.tree
    have hcallback' := hafter.callback
    dsimp only [Option.getD_some] at htree hcallback'
    constructor
    · exact h.distinct.erase X
    · rw [htree]
      exact h.intact
    · rw [htree]
      exact h.keys_nodup.erase _
    · rw [htree]
      exact h.mem_erase hX
    · intro Y hY Z hZ heq
      exact h.injective Y (List.mem_of_mem_erase hY) Z (List.mem_of_mem_erase hZ) heq
    · have hsome := h.faithful.mpr (List.ne_nil_of_mem hX)
      unfold Registered.Faithful registerContext
      rw [hcallback', ne_eq, ← keys_eq_nil_iff (h.mem_erase hX)]
      split
      · rename_i hnil
        simp [hnil]
      · rename_i hne
        simp [hne, hcallback, hsome]
  · rw [if_neg (mt hmem.mp hX)] at hafter
    have htree : lib'.gNotificationTree.getD {} = _ := congrArg (·.getD {}) hafter.tree
    dsimp only [Option.getD_some] at htree
    rw [registerContext, List.erase_of_not_mem hX]
    constructor
    · exact h.distinct
    · rw [htree]
      exact h.intact
    · rw [htree]
      exact h.keys_nodup
    · rw [htree]
      exact h.mem_keys
    · exact h.injective
    · unfold Registered.Faithful
      rw [hafter.callback, hcallback]
      exact h.faithful

theorem mirrored_step {s s' : Registered W} (h : s.Mirrored S) (hallows : s.Allows S call)
    (hstep : Succeeds S callback frame call s s') : s'.Mirrored S := by
  obtain ⟨X, hresource, hshared, hresult, hcontexts⟩ := hstep
  have hnotified : Notified S callback call.policy X s.lib s'.lib := by
    obtain ⟨rval, lib', hperform, hnotified⟩ := perform_spec hresource hshared h.intact
    cases hresult.symm.trans hperform
    exact hnotified rfl
  have hapart := hallows X hresource
  obtain ⟨lib', contexts⟩ := s'
  obtain rfl : contexts = _ := hcontexts
  cases hpolicy : call.policy with
  | register =>
    rw [hpolicy] at hapart hnotified
    exact mirrored_register h hapart hnotified
  | unregister =>
    rw [hpolicy] at hapart hnotified
    exact mirrored_unregister h hapart hnotified

theorem mirrored_run {s : Registered W} (h : RegistrationRun S callback (Registered.Allows S) s) :
    s.Mirrored S := by
  induction h with
  | start htree hcallback =>
    constructor
    · exact List.nodup_nil
    · rw [htree]
    · rw [htree]
      exact List.nodup_nil
    · simp [htree]
    · simp
    · simp [Registered.Faithful, hcallback]
  | call _ hallows hstep ih => exact mirrored_step ih hallows hstep

end Step

/-- In every run whose calls meet the condition the callback stands for the
registered contexts, and the next call about a shared key returns. -/
theorem faithful_run {S : Setup W} {callback : ℕ} {s : Registered W}
    (h : RegistrationRun S callback (Registered.Allows S) s) :
    s.Faithful ∧ ∀ (frame : CallFrame) (call : RegistrationCall) (X : KeyResource),
      call.resource s.lib = some X → SharedKey S frame X s.lib →
      call.perform S frame callback s.lib ≠ none := by
  have hmirrored := mirrored_run h
  refine ⟨hmirrored.faithful, fun frame call X hresource hshared hnone => ?_⟩
  obtain ⟨rval, lib', hperform, -⟩ := perform_spec hresource hshared hmirrored.intact
  cases hnone.symm.trans hperform

section Groups

def groupKey (ldbid : UInt32) : KeyResource := ⟨⟨ldbid, 0, 0⟩, cstr "a"⟩

def sharedEntry : PersistenceConfigurationKey where
  policy := .wc
  storage := .shared
  type := .key
  permission := .readWrite
  maxSize := 16
  reponsible := cstr "app"
  customName := []
  customID := []

def sharedSetup : Setup Unit := ⟨.standard, cstr "app", Plugin.constant sharedEntry⟩

def freshLibrary : Library Unit where
  client := .start .empty .empty
  world := ()

def plainFrame : CallFrame where
  leftover := sharedEntry

def afterCall (lib : Library Unit) (call : RegistrationCall) : Library Unit :=
  ((call.perform sharedSetup plainFrame 1 lib).getD (0, lib)).2

theorem succeeds_afterCall {s : Registered Unit} {call : RegistrationCall} {X : KeyResource}
    (hresource : call.resource s.lib = some X) (hshared : SharedKey sharedSetup plainFrame X s.lib)
    (hzero : (call.perform sharedSetup plainFrame 1 s.lib).map Prod.fst = some 0) :
    Succeeds sharedSetup 1 plainFrame call s
      ⟨afterCall s.lib call, registerContext call.policy X s.contexts⟩ := by
  refine ⟨X, hresource, hshared, ?_, rfl⟩
  obtain ⟨⟨rval, lib⟩, hresult, rfl⟩ := Option.map_eq_some_iff.mp hzero
  simp only [afterCall, hresult, Option.getD_some]

theorem register_run {ok : Registered Unit → RegistrationCall → Prop}
    (hok : ok ⟨freshLibrary, []⟩ (.register (groupKey 1))) :
    RegistrationRun sharedSetup 1 ok
      ⟨afterCall freshLibrary (.register (groupKey 1)), [groupKey 1]⟩ :=
  .call (.start rfl rfl) hok (succeeds_afterCall rfl (by
    unfold SharedKey
    decide +kernel) (by decide +kernel))

def otherKey : KeyResource := ⟨⟨1, 0, 0⟩, cstr "b"⟩

/-- Two keys are registered, one is unregistered, and the callback stays for the other. -/
theorem registered_key_faithful :
    Registered.Faithful
      ⟨afterCall (afterCall (afterCall freshLibrary (.register (groupKey 1))) (.register otherKey))
        (.unregister (groupKey 1)), [otherKey]⟩ := by
  have hfirst : RegistrationRun sharedSetup 1 (Registered.Allows sharedSetup)
      ⟨afterCall freshLibrary (.register (groupKey 1)), [groupKey 1]⟩ :=
    register_run fun X _ Y hY => absurd hY List.not_mem_nil
  have hsecond : RegistrationRun sharedSetup 1 (Registered.Allows sharedSetup)
      ⟨afterCall (afterCall freshLibrary (.register (groupKey 1))) (.register otherKey),
        registerContext .register otherKey [groupKey 1]⟩ := by
    refine .call hfirst ?_ (succeeds_afterCall rfl ?_ (by decide +kernel))
    · rintro X hX Y hY heq
      obtain rfl := Option.some.inj hX
      obtain rfl := List.mem_singleton.mp hY
      exact absurd heq (by decide +kernel)
    · unfold SharedKey
      decide +kernel
  have hboth : registerContext .register otherKey [groupKey 1] = [otherKey, groupKey 1] := by
    decide +kernel
  rw [hboth] at hsecond
  have hthird : RegistrationRun sharedSetup 1 (Registered.Allows sharedSetup)
      ⟨afterCall (afterCall (afterCall freshLibrary (.register (groupKey 1))) (.register otherKey))
        (.unregister (groupKey 1)), registerContext .unregister (groupKey 1) [otherKey, groupKey 1]⟩ := by
    refine .call hsecond ?_ (succeeds_afterCall rfl ?_ (by decide +kernel))
    · rintro X hX Y hY heq
      obtain rfl := Option.some.inj hX
      rcases List.mem_pair.mp hY with rfl | rfl
      · exact absurd heq (by decide +kernel)
      · exact ⟨rfl, rfl⟩
    · unfold SharedKey
      decide +kernel
  have hrest : registerContext .unregister (groupKey 1) [otherKey, groupKey 1] = [otherKey] := by
    decide +kernel
  rw [hrest] at hthird
  exact (faithful_run hthird).1

/-- To unregister the key of one group drops the callback of the other group. -/
theorem group_unregister_not_faithful :
    ¬ ∀ s : Registered Unit, RegistrationRun sharedSetup 1 (fun _ _ => True) s → s.Faithful := by
  intro h
  have hshared : SharedKey sharedSetup plainFrame (groupKey 2)
      (afterCall freshLibrary (.register (groupKey 1))) := by
    unfold SharedKey
    decide +kernel
  have hstep : Succeeds sharedSetup 1 plainFrame (.unregister (groupKey 2))
      ⟨afterCall freshLibrary (.register (groupKey 1)), [groupKey 1]⟩ _ :=
    succeeds_afterCall rfl hshared (by decide +kernel)
  have hkept : registerContext .unregister (groupKey 2) [groupKey 1] = [groupKey 1] := by
    decide +kernel
  have hdropped : (afterCall (afterCall freshLibrary (.register (groupKey 1)))
      (.unregister (groupKey 2))).gChangeNotifyCallback = none := by decide +kernel
  have hfaithful : Registered.Faithful
      ⟨afterCall (afterCall freshLibrary (.register (groupKey 1))) (.unregister (groupKey 2)),
        registerContext .unregister (groupKey 2) [groupKey 1]⟩ :=
    h _ (.call (register_run trivial) trivial hstep)
  rw [hkept, Registered.Faithful, hdropped] at hfaithful
  cases hfaithful.mpr (List.cons_ne_nil _ _)

end Groups

end PersClient.Key
