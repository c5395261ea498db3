import PersClient.Key.CustomSize
import PersClient.Key.WriteBack

/-! # What the plugin was asked to do

The world keeps the history of the reads, writes and deletions the plugin was
called for, with their results. A write or a deletion of a key makes one such
call at most, and a read none but reads.
-/

namespace PersClient.Key

open File Access

variable {W D : Type}

section Laws

inductive PluginCall
  | writeKey (handle : ℤ) (key : CStr) (buffer : Bytes) (size result : ℤ)
  | readKey (handle : ℤ) (key : CStr) (size result : ℤ)
  | deleteKey (handle : ℤ) (key : CStr) (result : ℤ)
  | setData (key : CStr) (buffer : Bytes) (size result : ℤ)
  | getData (key : CStr) (size result : ℤ)
  | deleteData (key : CStr) (result : ℤ)
  deriving DecidableEq

namespace PluginCall

def result : PluginCall → ℤ
  | writeKey _ _ _ _ result | readKey _ _ _ result | deleteKey _ _ result
  | setData _ _ _ result | getData _ _ result | deleteData _ result => result

def changes : PluginCall → Bool
  | writeKey .. | deleteKey .. | setData .. | deleteData .. => true
  | readKey .. | getData .. => false

end PluginCall

/-- A custom library notes the calls of its functions, and its data change by
writes and deletions that succeed alone. -/
structure CustomCallLaws (functs : PersCustomFuncts W) (calls : W → List PluginCall)
    (stored : W → D) : Prop where
  init : ∀ f, functs.customPluginInit = some f → ∀ w, calls (f w) = calls w ∧ stored (f w) = stored w
  initAsync : ∀ f, functs.customPluginInitAsync = some f → ∀ w,
    calls (f w) = calls w ∧ stored (f w) = stored w
  getData : ∀ f, functs.customPluginGetData = some f → ∀ key buffer size w,
    calls (f key buffer size w).2 =
        calls w ++ [.getData key size (f key buffer size w).1.1] ∧
      stored (f key buffer size w).2 = stored w
  setData : ∀ f, functs.customPluginSetData = some f → ∀ key buffer size w,
    calls (f key buffer size w).2 =
        calls w ++ [.setData key buffer size (f key buffer size w).1] ∧
      ((f key buffer size w).1 < 0 → stored (f key buffer size w).2 = stored w)
  deleteData : ∀ f, functs.customPluginDeleteData = some f → ∀ key w,
    calls (f key w).2 = calls w ++ [.deleteData key (f key w).1] ∧
      ((f key w).1 < 0 → stored (f key w).2 = stored w)

/-- The history notes each call of the plugin, and the stored data change by
writes and deletions that succeed alone. -/
structure CallLaws (plugin : Plugin W) (calls : W → List PluginCall) (stored : W → D) : Prop where
  dbOpen : ∀ f, plugin.persComDbOpen = some f → ∀ path flags w,
    calls (f path flags w).2 = calls w ∧ stored (f path flags w).2 = stored w
  rctOpen : ∀ f, plugin.persComRctOpen = some f → ∀ path flags w,
    calls (f path flags w).2 = calls w ∧ stored (f path flags w).2 = stored w
  rctRead : ∀ f, plugin.persComRctRead = some f → ∀ handle id w,
    calls (f handle id w).2 = calls w ∧ stored (f handle id w).2 = stored w
  readKey : ∀ f, plugin.persComDbReadKey = some f → ∀ handle key buffer size w,
    calls (f handle key buffer size w).2 =
        calls w ++ [.readKey handle key size (f handle key buffer size w).1.1] ∧
      stored (f handle key buffer size w).2 = stored w
  writeKey : ∀ f, plugin.persComDbWriteKey = some f → ∀ handle key buffer size w,
    calls (f handle key buffer size w).2 =
        calls w ++ [.writeKey handle key buffer size (f handle key buffer size w).1] ∧
      ((f handle key buffer size w).1 < 0 → stored (f handle key buffer size w).2 = stored w)
  deleteKey : ∀ f, plugin.persComDbDeleteKey = some f → ∀ handle key w,
    calls (f handle key w).2 = calls w ++ [.deleteKey handle key (f handle key w).1] ∧
      ((f handle key w).1 < 0 → stored (f handle key w).2 = stored w)
  custom : ∀ name functs, plugin.dlopen name = some functs → CustomCallLaws functs calls stored

end Laws

section Preparation

variable {S : Setup W} {calls : W → List PluginCall} {stored : W → D} {lib lib' : Library W}

/-- What looks for databases, tables and functions does: nothing is asked of the data. -/
structure Prepared (calls : W → List PluginCall) (stored : W → D) (lib lib' : Library W) :
    Prop where
  asked : calls lib'.world = calls lib.world
  kept : stored lib'.world = stored lib.world
  client : lib'.client = lib.client
  functs : (∀ idx, CustomCallLaws (lib.gPersCustomFuncs idx) calls stored) →
    ∀ idx, CustomCallLaws (lib'.gPersCustomFuncs idx) calls stored

theorem Prepared.refl : Prepared calls stored lib lib := ⟨rfl, rfl, rfl, id⟩

theorem Prepared.trans {lib'' : Library W} (h : Prepared calls stored lib lib')
    (h' : Prepared calls stored lib' lib'') : Prepared calls stored lib lib'' :=
  ⟨h'.asked.trans h.asked, h'.kept.trans h.kept, h'.client.trans h.client,
    fun hlaws => h'.functs (h.functs hlaws)⟩

theorem databaseGet_prepared (laws : CallLaws S.plugin calls stored) (info : PersistenceInfo)
    (dbPath : CStr) (t : DbType) (lib : Library W) :
    Prepared calls stored lib (databaseGet S info dbPath t lib).2 := by
  unfold databaseGet
  split
  · split
    · exact .refl
    · split
      · exact .refl
      · split
        · exact .refl
        · rename_i dbOpen hopen
          obtain ⟨hcalls, hstored⟩ := laws.dbOpen dbOpen hopen
            (snprintf S.com.maxLengthPathFilename (dbPath ++ _)) _ lib.world
          dsimp only
          split <;> exact ⟨hcalls, hstored, rfl, id⟩
  · exact .refl

theorem initCustomLibrary_prepared {functs : PersCustomFuncts W}
    (laws : CustomCallLaws functs calls stored) (info : PersCustomLibInfo) (w : W) :
    calls (initCustomLibrary info functs w).2 = calls w ∧
      stored (initCustomLibrary info functs w).2 = stored w := by
  unfold initCustomLibrary
  split
  · split
    · rename_i init hinit
      exact laws.init init hinit w
    · exact ⟨rfl, rfl⟩
  · split
    · rename_i init hinit
      exact laws.initAsync init hinit w
    · exact ⟨rfl, rfl⟩
  · exact ⟨rfl, rfl⟩

theorem customAvailable_prepared (laws : CallLaws S.plugin calls stored)
    (idx : PersistenceCustomLibs) (present wanted : PersCustomFuncts W → Bool) (lib : Library W) :
    Prepared calls stored lib (customAvailable S.plugin idx present wanted lib).2 := by
  have hload : Prepared calls stored lib (loadCustomLibrary S.plugin idx lib).2 := by
    unfold loadCustomLibrary
    split
    · exact .refl
    · split
      · exact .refl
      · rename_i functs hopen
        split
        · exact .refl
        · have hlaws := laws.custom _ functs hopen
          obtain ⟨hcalls, hstored⟩ := initCustomLibrary_prepared hlaws
            (S.plugin.gCustomLibArray idx) lib.world
          refine ⟨hcalls, hstored, rfl, fun htable idx' => ?_⟩
          dsimp only
          rw [Function.update_apply]
          split
          · exact hlaws
          · exact htable idx'
  unfold customAvailable
  split
  · exact .refl
  · split
    · exact hload
    · exact .refl
    · exact .refl

theorem getResourceCfgTable_prepared (laws : CallLaws S.plugin calls stored) (rct : PersistenceRCT)
    (group : UInt32) (lib : Library W) :
    Prepared calls stored lib (getResourceCfgTable S rct group lib).2 := by
  unfold getResourceCfgTable
  extract_lets arrayIdx lib₁
  split
  · show Prepared calls stored lib lib₁
    unfold lib₁ openResourceCfgTable
    split
    · exact .refl
    · split
      · exact .refl
      · rename_i rctOpen hopen
        obtain ⟨hcalls, hstored⟩ := laws.rctOpen rctOpen hopen (rctFilename S rct group) 0x04
          lib.world
        exact ⟨hcalls, hstored, rfl, id⟩
  · exact .refl

theorem getDbContext_prepared (laws : CallLaws S.plugin calls stored) (frame : CallFrame)
    (context : PersistenceDbContext) (resourceId : CStr) (isFile : Bool) (lib : Library W) :
    Prepared calls stored lib (getDbContext S frame context resourceId isFile lib).2 := by
  have htable := getResourceCfgTable_prepared laws (getTableId context.ldbid).1
    (getTableId context.ldbid).2 lib
  show Prepared calls stored lib (lookupEntry S context resourceId lib).2
  unfold lookupEntry
  dsimp only
  split
  · split
    · exact htable
    · rename_i rctRead hread
      obtain ⟨hcalls, hstored⟩ := laws.rctRead rctRead hread
        (getResourceCfgTable S (getTableId context.ldbid).1 (getTableId context.ldbid).2 lib).1
        resourceId
        (getResourceCfgTable S (getTableId context.ldbid).1 (getTableId context.ldbid).2 lib).2.world
      exact htable.trans ⟨hcalls, hstored, rfl, id⟩
  · exact htable

end Preparation

section Changes

variable {S : Setup W} {calls : W → List PluginCall} {stored : W → D} {frame : CallFrame}
  {lib : Library W} {info : PersistenceInfo} {dbPath key resourceID : CStr} {buffer : Bytes}
  {size : ℤ}

def enqueue (frame : CallFrame) (data : MainLoopData) (lib : Library W) : Library W :=
  if frame.written then
    { lib with client := { lib.client with
      loop := { lib.client.loop with pipe := lib.client.loop.pipe ++ [data] } } }
  else lib

@[simp] theorem enqueue_world {data : MainLoopData} : (enqueue frame data lib).world = lib.world := by
  unfold enqueue
  split <;> rfl

theorem persSendNotificationSignal_eq {reason : NotifyStatus}
    (hreason : reason = .changed ∨ reason = .deleted) (context : PersistenceDbContext) :
    persSendNotificationSignal S frame resourceID context reason lib =
      (if frame.written then 1 else epersNotifySig,
        enqueue frame (notificationCommand S.com resourceID context reason) lib) := by
  unfold enqueue persSendNotificationSignal
  cases hwritten : frame.written <;> rcases hreason with rfl | rfl <;> rfl

theorem notifyChanged_eq (context : PersistenceDbContext) (n : ℤ) :
    notifyChanged S frame resourceID context n lib =
      (if frame.written then n else epersNotifySig,
        enqueue frame (notificationCommand S.com resourceID context .changed) lib) := by
  rw [notifyChanged, persSendNotificationSignal_eq (Or.inl rfl)]
  cases frame.written <;> rfl

def WriteDue (S : Setup W) (info : PersistenceInfo) (dbPath key resourceID : CStr) (buffer : Bytes)
    (size : ℤ) (lib : Library W) : Prop :=
  match info.configKey.storage with
  | .shared =>
    let (handleDB, lib) := databaseGet S info dbPath (writtenType info) lib
    0 ≤ handleDB ∧ ∃ f, S.plugin.persComDbWriteKey = some f ∧
      0 ≤ (f handleDB (writtenKey info key resourceID) buffer size lib.world).1
  | .custom =>
    let (available, lib) := customAvailable S.plugin (customClientNameToId dbPath)
      (fun functs => functs.customPluginSetData.isSome)
      (fun functs => functs.customPluginSetData.isSome) lib
    customClientNameToId dbPath ≠ .lastEntry ∧ available = true ∧
      ∃ f, (lib.gPersCustomFuncs (customClientNameToId dbPath)).customPluginSetData = some f ∧
        0 < (f (pathKeyString info key) buffer size lib.world).1 ∧
        (f (pathKeyString info key) buffer size lib.world).1 = size
  | .local | .lastEntry => False

def WriteCall (info : PersistenceInfo) (key resourceID : CStr) (buffer : Bytes) (size : ℤ)
    (e : PluginCall) : Prop :=
  (∃ handle result, e = .writeKey handle (writtenKey info key resourceID) buffer size result) ∨
    ∃ result, e = .setData (pathKeyString info key) buffer size result

inductive SetEnds (S : Setup W) (calls : W → List PluginCall) (stored : W → D) (frame : CallFrame)
    (info : PersistenceInfo) (dbPath key resourceID : CStr) (buffer : Bytes) (size : ℤ)
    (lib : Library W) (n : ℤ) (lib' : Library W) : Prop
  | refused (neg : n < 0) (prepared : Prepared calls stored lib lib')
      (not_due : ¬ WriteDue S info dbPath key resourceID buffer size lib)
  | silent (e : PluginCall) (call : WriteCall info key resourceID buffer size e)
      (asked : calls lib'.world = calls lib.world ++ [e])
      (kept : e.result < 0 → stored lib'.world = stored lib.world)
      (client : lib'.client = lib.client) (result : n = e.result)
      (not_due : ¬ WriteDue S info dbPath key resourceID buffer size lib)
      (failed : info.configKey.storage = .shared → e.result < 0)
  | announced (e : PluginCall) (call : WriteCall info key resourceID buffer size e)
      (asked : calls lib'.world = calls lib.world ++ [e]) (success : 0 ≤ e.result)
      (client : lib'.client = (enqueue frame
        (notificationCommand S.com resourceID info.context .changed) lib).client)
      (result : n = if frame.written then e.result else epersNotifySig)
      (due : WriteDue S info dbPath key resourceID buffer size lib)

theorem enqueue_client {lib' : Library W} {data : MainLoopData} (h : lib'.client = lib.client)
    (w : W) :
    (enqueue frame data { lib' with world := w }).client = (enqueue frame data lib).client := by
  unfold enqueue
  rw [h]
  split <;> rfl

theorem persistenceSetData_stored_ends (laws : CallLaws S.plugin calls stored)
    (hstorage : info.configKey.storage = .local ∨ info.configKey.storage = .shared)
    (frame : CallFrame) (dbPath key resourceID : CStr) (buffer : Bytes) (size : ℤ)
    (lib : Library W) :
    SetEnds S calls stored frame info dbPath key resourceID buffer size lib
      (persistenceSetData S frame dbPath key resourceID info buffer size lib).1
      (persistenceSetData S frame dbPath key resourceID info buffer size lib).2 := by
  have hprepared := databaseGet_prepared laws info dbPath (writtenType info) lib
  have hdue : WriteDue S info dbPath key resourceID buffer size lib ↔
      info.configKey.storage = .shared ∧
        0 ≤ (databaseGet S info dbPath (writtenType info) lib).1 ∧
        ∃ f, S.plugin.persComDbWriteKey = some f ∧
          0 ≤ (f (databaseGet S info dbPath (writtenType info) lib).1
            (writtenKey info key resourceID) buffer size
            (databaseGet S info dbPath (writtenType info) lib).2.world).1 := by
    unfold WriteDue
    rcases hstorage with hs | hs <;> rw [hs]
    · exact iff_of_false id fun h => nomatch h.1
    · exact (and_iff_right rfl).symm
  rw [persistenceSetData_stored_eq hstorage]
  generalize databaseGet S info dbPath (writtenType info) lib = got at *
  obtain ⟨handle, lib₁⟩ := got
  dsimp only at hprepared hdue ⊢
  by_cases hpos : 0 ≤ handle
  swap
  · rw [if_neg hpos]
    exact .refused (show epersNoprctable < 0 by decide) hprepared fun h => hpos (hdue.mp h).2.1
  rw [if_pos hpos]
  cases hf : S.plugin.persComDbWriteKey with
  | none =>
    refine .refused (show epersNoPluginFunct < 0 by decide) hprepared fun h => ?_
    obtain ⟨-, -, f, hf', -⟩ := hdue.mp h
    rw [hf] at hf'
    cases hf'
  | some f =>
    obtain ⟨hcalls, hkept⟩ := laws.writeKey f hf handle (writtenKey info key resourceID) buffer size
      lib₁.world
    rw [hprepared.asked] at hcalls
    rw [hprepared.kept] at hkept
    have hdue' : WriteDue S info dbPath key resourceID buffer size lib ↔
        info.configKey.storage = .shared ∧
          0 ≤ (f handle (writtenKey info key resourceID) buffer size lib₁.world).1 := by
      rw [hdue, hf]
      constructor
      · rintro ⟨hshared, -, f', ⟨⟩, hnonneg⟩
        exact ⟨hshared, hnonneg⟩
      · rintro ⟨hshared, hnonneg⟩
        exact ⟨hshared, hpos, f, rfl, hnonneg⟩
    dsimp only
    generalize f handle (writtenKey info key resourceID) buffer size lib₁.world = made at *
    obtain ⟨writeSize, w⟩ := made
    dsimp only at hcalls hkept hdue' ⊢
    have hcall : WriteCall info key resourceID buffer size
        (.writeKey handle (writtenKey info key resourceID) buffer size writeSize) :=
      Or.inl ⟨_, _, rfl⟩
    split
    · rename_i hneg
      refine .silent _ hcall hcalls hkept hprepared.client rfl (fun h => ?_) fun _ => hneg
      have := (hdue'.mp h).2
      omega
    · rename_i hnonneg
      split
      · rename_i hshared
        rw [notifyChanged_eq]
        refine .announced _ hcall (by rwa [enqueue_world]) (not_lt.mp hnonneg) ?_ rfl
          (hdue'.mpr ⟨hshared, not_lt.mp hnonneg⟩)
        exact enqueue_client hprepared.client w
      · rename_i hlocal
        exact .silent _ hcall hcalls hkept hprepared.client rfl (fun h => hlocal (hdue'.mp h).1)
          fun hshared => absurd hshared hlocal

theorem writeDue_custom (hstorage : info.configKey.storage = .custom) {made : Bool × Library W}
    (hmade : customAvailable S.plugin (customClientNameToId dbPath)
      (fun functs => functs.customPluginSetData.isSome)
      (fun functs => functs.customPluginSetData.isSome) lib = made) :
    WriteDue S info dbPath key resourceID buffer size lib ↔
      customClientNameToId dbPath ≠ .lastEntry ∧ made.1 = true ∧
        ∃ f, (made.2.gPersCustomFuncs (customClientNameToId dbPath)).customPluginSetData = some f ∧
          0 < (f (pathKeyString info key) buffer size made.2.world).1 ∧
          (f (pathKeyString info key) buffer size made.2.world).1 = size := by
  subst hmade
  rw [WriteDue, hstorage]

theorem persistenceSetData_custom_ends (laws : CallLaws S.plugin calls stored)
    (table : ∀ idx, CustomCallLaws (lib.gPersCustomFuncs idx) calls stored)
    (hstorage : info.configKey.storage = .custom) :
    SetEnds S calls stored frame info dbPath key resourceID buffer size lib
      (persistenceSetData S frame dbPath key resourceID info buffer size lib).1
      (persistenceSetData S frame dbPath key resourceID info buffer size lib).2 := by
  have hrefused : epersNopluginfunct < 0 := by decide
  rw [persistenceSetData, hstorage]
  by_cases hidx : customClientNameToId dbPath ≠ .lastEntry
  swap
  · simp only [if_neg hidx]
    refine .refused hrefused .refl ?_
    rw [WriteDue, hstorage]
    exact fun h => hidx h.1
  have hprepared := customAvailable_prepared laws (customClientNameToId dbPath)
    (fun functs => functs.customPluginSetData.isSome)
    (fun functs => functs.customPluginSetData.isSome) lib
  simp only [if_pos hidx]
  generalize hmade : customAvailable S.plugin (customClientNameToId dbPath) _ _ lib = made at *
  have hdue : WriteDue S info dbPath key resourceID buffer size lib ↔ _ :=
    writeDue_custom hstorage hmade
  obtain ⟨available, lib₁⟩ := made
  have hlaws := hprepared.functs table (customClientNameToId dbPath)
  dsimp only at hprepared hdue hlaws ⊢
  cases available with
  | false => exact .refused hrefused hprepared fun h => absurd (hdue.mp h).2.1 nofun
  | true =>
    cases hf : (lib₁.gPersCustomFuncs (customClientNameToId dbPath)).customPluginSetData with
    | none =>
      refine .refused hrefused hprepared fun h => ?_
      obtain ⟨-, -, f, hf', -⟩ := hdue.mp h
      rw [hf] at hf'
      cases hf'
    | some f =>
      obtain ⟨hcalls, hkept⟩ := hlaws.setData f hf (pathKeyString info key) buffer size lib₁.world
      rw [hprepared.asked] at hcalls
      rw [hprepared.kept] at hkept
      have hdue' : WriteDue S info dbPath key resourceID buffer size lib ↔
          0 < (f (pathKeyString info key) buffer size lib₁.world).1 ∧
            (f (pathKeyString info key) buffer size lib₁.world).1 = size := by
        rw [hdue, hf]
        constructor
        · rintro ⟨-, -, f', ⟨⟩, hwhole⟩
          exact hwhole
        · exact fun hwhole => ⟨hidx, rfl, f, rfl, hwhole⟩
      dsimp only
      generalize f (pathKeyString info key) buffer size lib₁.world = done at *
      obtain ⟨writeSize, w⟩ := done
      dsimp only at hcalls hkept hdue' ⊢
      have hcall : WriteCall info key resourceID buffer size
          (.setData (pathKeyString info key) buffer size writeSize) := Or.inr ⟨_, rfl⟩
      split
      · rename_i hwhole
        rw [notifyChanged_eq]
        refine .announced _ hcall (by rwa [enqueue_world]) hwhole.1.le ?_ rfl (hdue'.mpr hwhole)
        exact enqueue_client hprepared.client w
      · rename_i hpart
        refine .silent _ hcall hcalls hkept hprepared.client rfl (fun h => hpart (hdue'.mp h))
          fun hshared => ?_
        rw [hstorage] at hshared
        cases hshared

theorem persistenceSetData_ends (laws : CallLaws S.plugin calls stored)
    (table : ∀ idx, CustomCallLaws (lib.gPersCustomFuncs idx) calls stored) (frame : CallFrame)
    (dbPath key resourceID : CStr) (info : PersistenceInfo) (buffer : Bytes) (size : ℤ) :
    SetEnds S calls stored frame info dbPath key resourceID buffer size lib
      (persistenceSetData S frame dbPath key resourceID info buffer size lib).1
      (persistenceSetData S frame dbPath key resourceID info buffer size lib).2 := by
  cases hstorage : info.configKey.storage with
  | «local» => exact persistenceSetData_stored_ends laws (Or.inl hstorage) ..
  | shared => exact persistenceSetData_stored_ends laws (Or.inr hstorage) ..
  | custom => exact persistenceSetData_custom_ends laws table hstorage
  | lastEntry =>
    rw [persistenceSetData, hstorage]
    refine .refused (show (-1 : ℤ) < 0 by decide) .refl ?_
    rw [WriteDue, hstorage]
    exact id

def DeleteCall (info : PersistenceInfo) (key : CStr) (e : PluginCall) : Prop :=
  (∃ handle result, e = .deleteKey handle key result) ∨
    ∃ result, e = .deleteData (pathKeyString info key) result

def deletion (S : Setup W) (info : PersistenceInfo) (dbPath key : CStr) (lib : Library W) :
    Option ℤ :=
  if info.configKey.storage ≠ .custom then
    let (handleDB, lib) := databaseGet S info dbPath (.policy info.configKey.policy) lib
    if 0 ≤ handleDB then S.plugin.persComDbDeleteKey.map fun f => (f handleDB key lib.world).1
    else none
  else if customClientNameToId dbPath ≠ .lastEntry then
    let (available, lib) := customAvailable S.plugin (customClientNameToId dbPath)
      (fun functs => functs.customPluginDeleteData.isSome)
      (fun functs => functs.customPluginDeleteData.isSome) lib
    if available then
      (lib.gPersCustomFuncs (customClientNameToId dbPath)).customPluginDeleteData.map
        fun f => (f (pathKeyString info key) lib.world).1
    else none
  else none

inductive DeleteEnds (S : Setup W) (calls : W → List PluginCall) (stored : W → D)
    (frame : CallFrame) (info : PersistenceInfo) (key resourceID : CStr) (lib : Library W) (n : ℤ)
    (lib' : Library W) : Option ℤ → Prop
  | refused (neg : n < 0) (prepared : Prepared calls stored lib lib') :
      DeleteEnds S calls stored frame info key resourceID lib n lib' none
  | asked (e : PluginCall) (call : DeleteCall info key e)
      (asked : calls lib'.world = calls lib.world ++ [e])
      (kept : e.result < 0 → stored lib'.world = stored lib.world)
      (neg_iff : n < 0 ↔ e.result < 0)
      (client : lib'.client =
        if info.configKey.storage = .shared ∨ info.configKey.storage = .custom ∧ 0 ≤ e.result then
          (enqueue frame (notificationCommand S.com resourceID info.context .deleted) lib).client
        else lib.client) :
      DeleteEnds S calls stored frame info key resourceID lib n lib' (some e.result)

theorem persistenceDeleteData_stored_ends (laws : CallLaws S.plugin calls stored)
    (hstorage : info.configKey.storage ≠ .custom) (frame : CallFrame)
    (dbPath key resourceID : CStr) (lib : Library W) :
    DeleteEnds S calls stored frame info key resourceID lib
      (persistenceDeleteData S frame dbPath key resourceID info lib).1
      (persistenceDeleteData S frame dbPath key resourceID info lib).2
      (deletion S info dbPath key lib) := by
  have hprepared := databaseGet_prepared laws info dbPath (.policy info.configKey.policy) lib
  rw [persistenceDeleteData, deletion, if_pos hstorage, if_pos hstorage]
  generalize databaseGet S info dbPath (.policy info.configKey.policy) lib = got at *
  obtain ⟨handle, lib₁⟩ := got
  dsimp only at hprepared ⊢
  by_cases hpos : 0 ≤ handle
  swap
  · rw [if_neg hpos, if_neg hpos]
    exact .refused (show epersNoprctable < 0 by decide) hprepared
  rw [if_pos hpos, if_pos hpos]
  cases hf : S.plugin.persComDbDeleteKey with
  | none => exact .refused (show epersNoPluginFunct < 0 by decide) hprepared
  | some f =>
    obtain ⟨hcalls, hkept⟩ := laws.deleteKey f hf handle key lib₁.world
    rw [hprepared.asked] at hcalls
    rw [hprepared.kept] at hkept
    rw [Option.map_some]
    dsimp only
    generalize f handle key lib₁.world = made at *
    obtain ⟨ret, w⟩ := made
    dsimp only at hcalls hkept ⊢
    have hcall : DeleteCall info key (.deleteKey handle key ret) := Or.inl ⟨_, _, rfl⟩
    have hneg : (if ret < 0 then if ret = S.plugin.persComErrNotFound then epersNokey
        else epersDbErrorInternal else ret) < 0 ↔ ret < 0 := by
      have hnokey : epersNokey < 0 := by decide
      have hinternal : epersDbErrorInternal < 0 := by decide
      split_ifs <;> omega
    split
    · rename_i hshared
      rw [persSendNotificationSignal_eq (Or.inr rfl)]
      refine .asked _ hcall ?_ ?_ hneg ?_
      · dsimp only
        rwa [enqueue_world]
      · dsimp only
        rwa [enqueue_world]
      · rw [if_pos (Or.inl hshared)]
        exact enqueue_client hprepared.client w
    · rename_i hlocal
      refine .asked _ hcall hcalls hkept hneg (hprepared.client.trans (if_neg ?_).symm)
      rintro (hshared | ⟨hcustom, -⟩)
      · exact hlocal hshared
      · exact hstorage hcustom

theorem persistenceDeleteData_custom_ends (laws : CallLaws S.plugin calls stored)
    (table : ∀ idx, CustomCallLaws (lib.gPersCustomFuncs idx) calls stored)
    (hstorage : info.configKey.storage = .custom) :
    DeleteEnds S calls stored frame info key resourceID lib
      (persistenceDeleteData S frame dbPath key resourceID info lib).1
      (persistenceDeleteData S frame dbPath key resourceID info lib).2
      (deletion S info dbPath key lib) := by
  have hrefused : epersNopluginfunct < 0 := by decide
  rw [persistenceDeleteData, deletion, if_neg (not_not.mpr hstorage), if_neg (not_not.mpr hstorage)]
  by_cases hidx : customClientNameToId dbPath ≠ .lastEntry
  swap
  · simp only [if_neg hidx]
    exact .refused hrefused .refl
  have hprepared := customAvailable_prepared laws (customClientNameToId dbPath)
    (fun functs => functs.customPluginDeleteData.isSome)
    (fun functs => functs.customPluginDeleteData.isSome) lib
  simp only [if_pos hidx]
  generalize customAvailable S.plugin (customClientNameToId dbPath) _ _ lib = made at *
  obtain ⟨available, lib₁⟩ := made
  have hlaws := hprepared.functs table (customClientNameToId dbPath)
  dsimp only at hprepared hlaws ⊢
  cases available with
  | false => exact .refused hrefused hprepared
  | true =>
    rw [if_pos rfl]
    cases hf : (lib₁.gPersCustomFuncs (customClientNameToId dbPath)).customPluginDeleteData with
    | none => exact .refused hrefused hprepared
    | some f =>
      obtain ⟨hcalls, hkept⟩ := hlaws.deleteData f hf (pathKeyString info key) lib₁.world
      rw [hprepared.asked] at hcalls
      rw [hprepared.kept] at hkept
      rw [Option.map_some]
      dsimp only
      generalize f (pathKeyString info key) lib₁.world = done at *
      obtain ⟨ret, w⟩ := done
      dsimp only at hcalls hkept ⊢
      have hcall : DeleteCall info key (.deleteData (pathKeyString info key) ret) :=
        Or.inr ⟨_, rfl⟩
      split
      · rename_i hpos
        rw [persSendNotificationSignal_eq (Or.inr rfl)]
        refine .asked _ hcall ?_ ?_ Iff.rfl ?_
        · dsimp only
          rwa [enqueue_world]
        · dsimp only
          rwa [enqueue_world]
        · rw [if_pos (Or.inr ⟨hstorage, hpos⟩)]
          exact enqueue_client hprepared.client w
      · rename_i hneg
        refine .asked _ hcall hcalls hkept Iff.rfl (hprepared.client.trans (if_neg ?_).symm)
        rintro (hshared | ⟨-, hpos⟩)
        · rw [hstorage] at hshared
          cases hshared
        · exact hneg hpos

theorem persistenceDeleteData_ends (laws : CallLaws S.plugin calls stored)
    (table : ∀ idx, CustomCallLaws (lib.gPersCustomFuncs idx) calls stored) (frame : CallFrame)
    (dbPath key resourceID : CStr) (info : PersistenceInfo) :
    DeleteEnds S calls stored frame info key resourceID lib
      (persistenceDeleteData S frame dbPath key resourceID info lib).1
      (persistenceDeleteData S frame dbPath key resourceID info lib).2
      (deletion S info dbPath key lib) := by
  by_cases hstorage : info.configKey.storage = .custom
  · exact persistenceDeleteData_custom_ends laws table hstorage
  · exact persistenceDeleteData_stored_ends laws hstorage ..

end Changes

section Reads

variable {S : Setup W} {calls : W → List PluginCall} {stored : W → D} {lib lib' : Library W}
  {info : PersistenceInfo} {dbPath key resourceID : CStr} {size n : ℤ}

/-- The calls of the plugin for a read: of the key, of the resource in the
defaults, or of a custom library. -/
def ReadCall (info : PersistenceInfo) (key resourceID : CStr) (size : ℤ) (e : PluginCall) : Prop :=
  (∃ handle k result, e = .readKey handle k size result ∧ (k = key ∨ k = resourceID)) ∨
    ∃ result, e = .getData (pathKeyString info key) size result

/-- Reads that leave the data, one of which succeeded if the result says so. -/
structure ReadEnds (calls : W → List PluginCall) (stored : W → D) (read : PluginCall → Prop)
    (lib : Library W) (n : ℤ) (lib' : Library W) : Prop where
  kept : stored lib'.world = stored lib.world
  asked : ∃ events, calls lib'.world = calls lib.world ++ events ∧ (∀ e ∈ events, read e) ∧
    (0 ≤ n → ∃ e ∈ events, 0 ≤ e.result)

theorem ReadEnds.failed {read : PluginCall → Prop} (h : Prepared calls stored lib lib')
    (hneg : n < 0) : ReadEnds calls stored read lib n lib' :=
  ⟨h.kept, [], by rw [h.asked, List.append_nil], nofun, fun hpos => absurd hneg (not_lt.mpr hpos)⟩

theorem ReadEnds.after {read : PluginCall → Prop} {lib₁ : Library W}
    (h : Prepared calls stored lib lib₁) (hends : ReadEnds calls stored read lib₁ n lib') :
    ReadEnds calls stored read lib n lib' := by
  obtain ⟨events, hasked, hread, hsuccess⟩ := hends.asked
  exact ⟨hends.kept.trans h.kept, events, by rw [hasked, h.asked], hread, hsuccess⟩

theorem ReadEnds.cons {read : PluginCall → Prop} {w : W} {e : PluginCall}
    (hcalls : calls w = calls lib.world ++ [e]) (hkept : stored w = stored lib.world)
    (hread : read e) (hends : ReadEnds calls stored read { lib with world := w } n lib') :
    ReadEnds calls stored read lib n lib' := by
  obtain ⟨events, hasked, hall, hsuccess⟩ := hends.asked
  refine ⟨hends.kept.trans hkept, e :: events, ?_, ?_, fun hpos => ?_⟩
  · rw [hasked, hcalls, List.append_assoc]
    rfl
  · exact List.forall_mem_cons.mpr ⟨hread, hall⟩
  · obtain ⟨e', hmem, hpos'⟩ := hsuccess hpos
    exact ⟨e', List.mem_cons_of_mem e hmem, hpos'⟩

theorem ReadEnds.single {read : PluginCall → Prop} {e : PluginCall}
    (hcalls : calls lib'.world = calls lib.world ++ [e])
    (hkept : stored lib'.world = stored lib.world) (hread : read e)
    (hresult : 0 ≤ n → 0 ≤ e.result) : ReadEnds calls stored read lib n lib' :=
  ⟨hkept, [e], hcalls, List.forall_mem_singleton.mpr hread,
    fun hpos => ⟨e, List.mem_singleton_self e, hresult hpos⟩⟩

theorem defaultsFrom_ends (laws : CallLaws S.plugin calls stored) (ts : List DbType)
    {readSize : ℤ} (hneg : readSize < 0) (buffer : Bytes) :
    ReadEnds calls stored (ReadCall info key resourceID size) lib
      (defaultsFrom S dbPath resourceID info size .data ts readSize buffer lib).1.1
      (defaultsFrom S dbPath resourceID info size .data ts readSize buffer lib).2 := by
  induction ts generalizing readSize buffer lib with
  | nil => exact .failed .refl hneg
  | cons t ts ih =>
    have hprepared := databaseGet_prepared laws info dbPath t lib
    unfold defaultsFrom
    generalize databaseGet S info dbPath t lib = got at *
    obtain ⟨handle, lib₁⟩ := got
    dsimp only at hprepared ⊢
    by_cases hpos : 0 ≤ handle
    swap
    · rw [if_neg hpos]
      exact (ih hneg buffer).after hprepared
    rw [if_pos hpos]
    apply ReadEnds.after hprepared
    unfold fetchDefault
    cases hf : S.plugin.persComDbReadKey with
    | none =>
      have hmissing : epersNoPluginFunct < 0 := by decide
      simp only [if_pos hmissing]
      apply ih
      split <;> decide
    | some f =>
      obtain ⟨hcalls, hkept⟩ := laws.readKey f hf handle resourceID buffer size lib₁.world
      have hread : ReadCall info key resourceID size
          (.readKey handle resourceID size (f handle resourceID buffer size lib₁.world).1.1) :=
        Or.inl ⟨_, _, _, rfl, Or.inr rfl⟩
      dsimp only
      by_cases hneg' : (f handle resourceID buffer size lib₁.world).1.1 < 0
      · simp only [if_pos hneg']
        apply ReadEnds.cons hcalls hkept hread
        apply ih
        split
        · decide
        · exact hneg'
      · simp only [if_neg hneg']
        exact .single hcalls hkept hread id

theorem persGetDefaults_ends (laws : CallLaws S.plugin calls stored) (dbPath key resourceID : CStr)
    (info : PersistenceInfo) (buffer : Bytes) (size : ℤ) (lib : Library W) :
    ReadEnds calls stored (ReadCall info key resourceID size) lib
      (persGetDefaults S dbPath resourceID info buffer size .data lib).1.1
      (persGetDefaults S dbPath resourceID info buffer size .data lib).2 :=
  defaultsFrom_ends laws _ (show epersNokey < 0 by decide) buffer

theorem ReadEnds.weaken {read read' : PluginCall → Prop} (h : ReadEnds calls stored read lib n lib')
    (hread : ∀ e, read e → read' e) {n' : ℤ} (hn : 0 ≤ n' → 0 ≤ n) :
    ReadEnds calls stored read' lib n' lib' := by
  obtain ⟨events, hasked, hall, hsuccess⟩ := h.asked
  exact ⟨h.kept, events, hasked, fun e he => hread e (hall e he), fun hpos => hsuccess (hn hpos)⟩

theorem customDefaults_ends (laws : CallLaws S.plugin calls stored) (dbPath key resourceID : CStr)
    (info : PersistenceInfo) (buffer : Bytes) (size readSize : ℤ) (lib : Library W) :
    ∃ m, ReadEnds calls stored (ReadCall info key resourceID size) lib m
        (customDefaults S dbPath resourceID info buffer size .data readSize lib).2 ∧
      ((customDefaults S dbPath resourceID info buffer size .data readSize lib).1.1 = readSize ∨
        (customDefaults S dbPath resourceID info buffer size .data readSize lib).1.1 = m) := by
  by_cases hsmall : readSize < 1
  · have hends := persGetDefaults_ends laws (defaultsPath S info dbPath) key resourceID
      (defaultsInfo info) buffer size lib
    rw [customDefaults_of_lt hsmall]
    refine ⟨_, hends, ?_⟩
    dsimp only
    split
    · exact Or.inr rfl
    · exact Or.inl rfl
  · rw [customDefaults, if_neg hsmall]
    exact ⟨-1, .failed .refl (by decide), Or.inl rfl⟩

theorem persistenceGetData_stored_reads (laws : CallLaws S.plugin calls stored)
    (hstorage : info.configKey.storage = .local ∨ info.configKey.storage = .shared)
    {buffer : Bytes} {r : ℤ × Bytes}
    (h : persistenceGetData S dbPath key resourceID info buffer size lib = some (r, lib')) :
    ReadEnds calls stored (ReadCall info key resourceID size) lib r.1 lib' := by
  have hprepared := databaseGet_prepared laws info dbPath (.policy info.configKey.policy) lib
  rw [persistenceGetData_stored_eq hstorage] at h
  generalize databaseGet S info dbPath (.policy info.configKey.policy) lib = got at *
  obtain ⟨handle, lib₁⟩ := got
  dsimp only at h hprepared
  split at h
  · cases hf : S.plugin.persComDbReadKey with
    | none =>
      rw [hf] at h
      cases h
      exact .failed hprepared (show epersNoPluginFunct < 0 by decide)
    | some f =>
      rw [hf] at h
      obtain ⟨hcalls, hkept⟩ := laws.readKey f hf handle key buffer size lib₁.world
      have hread : ReadCall info key resourceID size
          (.readKey handle key size (f handle key buffer size lib₁.world).1.1) :=
        Or.inl ⟨_, _, _, rfl, Or.inl rfl⟩
      apply ReadEnds.after hprepared
      dsimp only at h
      split at h
      · have hends := persGetDefaults_ends laws dbPath key resourceID info
          (f handle key buffer size lib₁.world).1.2 size
          { lib₁ with world := (f handle key buffer size lib₁.world).2 }
        rw [Option.some.inj h] at hends
        exact .cons hcalls hkept hread hends
      · cases h
        exact .single hcalls hkept hread id
  · cases h
    exact .failed hprepared (show (-1 : ℤ) < 0 by decide)

theorem dataLookup_prepared (laws : CallLaws S.plugin calls stored) (dbPath : CStr)
    (lib : Library W) :
    Prepared calls stored lib (dataLookup S dbPath lib).2 := by
  unfold dataLookup
  dsimp only
  split
  · exact customAvailable_prepared laws ..
  · exact .refl

theorem persistenceGetData_custom_reads (laws : CallLaws S.plugin calls stored)
    (table : ∀ idx, CustomCallLaws (lib.gPersCustomFuncs idx) calls stored)
    (hstorage : info.configKey.storage = .custom) {buffer : Bytes} {r : ℤ × Bytes}
    (h : persistenceGetData S dbPath key resourceID info buffer size lib = some (r, lib')) :
    ReadEnds calls stored (ReadCall info key resourceID size) lib r.1 lib' := by
  have hprepared := dataLookup_prepared laws dbPath lib
  have hfunct : ∀ getData, (dataLookup S dbPath lib).1 = some getData → _ :=
    fun getData => dataLookup_eq_some
  rw [persistenceGetData_custom_eq hstorage] at h
  generalize dataLookup S dbPath lib = looked at *
  obtain ⟨found, lib₁⟩ := looked
  apply ReadEnds.after hprepared
  cases found with
  | none =>
    dsimp only at h
    obtain ⟨m, hends, hresult⟩ := customDefaults_ends laws dbPath key resourceID info buffer
      size epersNopluginfunct lib₁
    rw [Option.some.inj h] at hends hresult
    refine hends.weaken (fun _ => id) fun hpos => ?_
    rcases hresult with hno | hm
    · exact absurd hpos (by rw [hno]; decide)
    · exact hm ▸ hpos
  | some getData =>
    cases getData with
    | none => cases h
    | some f =>
      have hlaws := hprepared.functs table (customClientNameToId dbPath)
      obtain ⟨hcalls, hkept⟩ := hlaws.getData f (hfunct (some f) rfl) (pathKeyString info key)
        buffer size lib₁.world
      dsimp only [Option.map_some] at h hcalls hkept
      obtain ⟨m, hends, hresult⟩ := customDefaults_ends laws dbPath key resourceID info
        (f (pathKeyString info key) buffer size lib₁.world).1.2 size
        (f (pathKeyString info key) buffer size lib₁.world).1.1
        { lib₁ with world := (f (pathKeyString info key) buffer size lib₁.world).2 }
      rw [Option.some.inj h] at hends hresult
      -- what the library gave, or a default
      obtain ⟨events, hasked, hall, hsuccess⟩ := hends.asked
      refine ⟨hends.kept.trans hkept, .getData (pathKeyString info key) size
        (f (pathKeyString info key) buffer size lib₁.world).1.1 :: events, ?_, ?_, fun hpos => ?_⟩
      · rw [hasked, hcalls, List.append_assoc]
        rfl
      · exact List.forall_mem_cons.mpr ⟨Or.inr ⟨_, rfl⟩, hall⟩
      · rcases hresult with hown | hm
        · exact ⟨_, List.mem_cons_self, hown ▸ hpos⟩
        · obtain ⟨e, hmem, he⟩ := hsuccess (hm ▸ hpos)
          exact ⟨e, List.mem_cons_of_mem _ hmem, he⟩

/-- A read that returns asks the plugin for reads alone, and one of them was
successful if the result says so. -/
theorem persistenceGetData_ends_in_reads (laws : CallLaws S.plugin calls stored)
    (table : ∀ idx, CustomCallLaws (lib.gPersCustomFuncs idx) calls stored) {buffer : Bytes}
    {r : ℤ × Bytes}
    (h : persistenceGetData S dbPath key resourceID info buffer size lib = some (r, lib')) :
    ReadEnds calls stored (ReadCall info key resourceID size) lib r.1 lib' := by
  cases hstorage : info.configKey.storage with
  | «local» => exact persistenceGetData_stored_reads laws (Or.inl hstorage) h
  | shared => exact persistenceGetData_stored_reads laws (Or.inr hstorage) h
  | custom => exact persistenceGetData_custom_reads laws table hstorage h
  | lastEntry =>
    rw [persistenceGetData, hstorage] at h
    cases h
    exact .failed .refl (show (-1 : ℤ) < 0 by decide)

end Reads

section Recorder

def unnoted {α : Type} (r : α × W) (history : List PluginCall) : α × (W × List PluginCall) :=
  (r.1, (r.2, history))

/-- A step of the world that is noted in the history. -/
def noted {α : Type} (r : α × W) (history : List PluginCall) (e : PluginCall) :
    α × (W × List PluginCall) := (r.1, (r.2, history ++ [e]))

def PersCustomFuncts.recorded (functs : PersCustomFuncts W) :
    PersCustomFuncts (W × List PluginCall) where
  customPluginInit := functs.customPluginInit.map fun f w => (f w.1, w.2)
  customPluginInitAsync := functs.customPluginInitAsync.map fun f w => (f w.1, w.2)
  customPluginDeinit := functs.customPluginDeinit.map fun f w => (f w.1, w.2)
  customPluginGetSize := functs.customPluginGetSize.map fun f key w => unnoted (f key w.1) w.2
  customPluginGetData := functs.customPluginGetData.map fun f key buffer size w =>
    noted (f key buffer size w.1) w.2 (.getData key size (f key buffer size w.1).1.1)
  customPluginSetData := functs.customPluginSetData.map fun f key buffer size w =>
    noted (f key buffer size w.1) w.2 (.setData key buffer size (f key buffer size w.1).1)
  customPluginDeleteData := functs.customPluginDeleteData.map fun f key w =>
    noted (f key w.1) w.2 (.deleteData key (f key w.1).1)

def Plugin.recorded (plugin : Plugin W) : Plugin (W × List PluginCall) where
  persComDbOpen := plugin.persComDbOpen.map fun f path flags w => unnoted (f path flags w.1) w.2
  persComDbClose := plugin.persComDbClose.map fun f handle w => unnoted (f handle w.1) w.2
  persComDbWriteKey := plugin.persComDbWriteKey.map fun f handle key buffer size w =>
    noted (f handle key buffer size w.1) w.2
      (.writeKey handle key buffer size (f handle key buffer size w.1).1)
  persComDbReadKey := plugin.persComDbReadKey.map fun f handle key buffer size w =>
    noted (f handle key buffer size w.1) w.2
      (.readKey handle key size (f handle key buffer size w.1).1.1)
  persComDbGetKeySize := plugin.persComDbGetKeySize.map fun f handle key w =>
    unnoted (f handle key w.1) w.2
  persComDbDeleteKey := plugin.persComDbDeleteKey.map fun f handle key w =>
    noted (f handle key w.1) w.2 (.deleteKey handle key (f handle key w.1).1)
  persComRctOpen := plugin.persComRctOpen.map fun f path flags w => unnoted (f path flags w.1) w.2
  persComRctClose := plugin.persComRctClose.map fun f handle w => unnoted (f handle w.1) w.2
  persComRctRead := plugin.persComRctRead.map fun f handle id w => unnoted (f handle id w.1) w.2
  persComErrNotFound := plugin.persComErrNotFound
  dlopen := fun name => (plugin.dlopen name).map PersCustomFuncts.recorded
  gCustomLibArray := plugin.gCustomLibArray

theorem store_calls {configKey : PersistenceConfigurationKey} :
    CallLaws (Plugin.store configKey).recorded Prod.snd fun w => w.1.entries where
  dbOpen := by
    rintro f ⟨⟩ path flags w
    exact ⟨rfl, rfl⟩
  rctOpen := by
    rintro f ⟨⟩ path flags w
    exact ⟨rfl, rfl⟩
  rctRead := by
    rintro f ⟨⟩ handle id w
    exact ⟨rfl, rfl⟩
  readKey := by
    rintro f ⟨⟩ handle key buffer size w
    refine ⟨rfl, ?_⟩
    dsimp only [noted]
    split
    · split <;> rfl
    · rfl
  writeKey := by
    rintro f ⟨⟩ handle key buffer size w
    refine ⟨rfl, fun hneg => ?_⟩
    dsimp only [noted] at hneg ⊢
    split
    · rename_i path hbound
      rw [hbound] at hneg
      dsimp only at hneg
      split
      · rfl
      · rename_i hsize
        rw [if_neg hsize] at hneg
        exact absurd hneg hsize
    · rfl
  deleteKey := by
    rintro f ⟨⟩ handle key w
    refine ⟨rfl, fun hneg => ?_⟩
    dsimp only [noted] at hneg ⊢
    split
    · rename_i path hbound
      rw [hbound] at hneg
      dsimp only at hneg
      split
      · rename_i data hdata
        rw [hdata] at hneg
        exact absurd hneg (show ¬ (0 : ℤ) < 0 by decide)
      · rfl
    · rfl
  custom := by rintro name functs ⟨⟩

end Recorder

end PersClient.Key
