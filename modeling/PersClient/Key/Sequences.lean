import PersClient.Key.Calls
import PersClient.Prct.Namespaces

/-! # Calls of the key functions

The calls an application can make, as data. A call that reads or changes a
resource refuses for what it knows before the search for the context, refuses
for what the search finds, or hands the resource to the databases; the functions
with a handle are those without on the resource the handle stands for.
-/

namespace PersClient.Key

open File Handle Access Prct

variable {W : Type*}

/-- What a key function does with its resource. -/
inductive KeyAccess
  | delete
  | getSize
  | read (buffer : Bytes) (bufferSize : ℤ)
  | write (buffer : Bytes) (bufferSize : ℤ)
  deriving DecidableEq

namespace KeyAccess

/-- The buffer the caller hands in to be filled. -/
def buffer : KeyAccess → Bytes
  | read buffer _ => buffer
  | delete | getSize | write _ _ => []

section Perform

variable (S : Setup W) (frame : CallFrame) (X : KeyResource)

/-- The function without a handle; `none` where it does not return. -/
def perform (lib : Library W) : KeyAccess → Option ((ℤ × Bytes) × Library W)
  | delete =>
    let (rval, lib) := pclKeyDelete S frame X.context X.resourceId lib
    some ((rval, []), lib)
  | getSize =>
    let (rval, lib) := pclKeyGetSize S frame X.context X.resourceId lib
    some ((rval, []), lib)
  | read buffer bufferSize =>
    pclKeyReadData S frame X.context X.resourceId buffer bufferSize lib
  | write buffer bufferSize =>
    let (rval, lib) := pclKeyWriteData S frame X.context X.resourceId buffer bufferSize lib
    some ((rval, []), lib)

def earlyRefusal (client : Client) (access : KeyAccess) : Option ℤ :=
  if ¬ 0 < client.gPclInitCounter then some epersNotInitialized
  else
    match access with
    | getSize => none
    | delete | read _ _ => if Locked client.loop then some epersLockfs else none
    | write _ bufferSize =>
      if Locked client.loop then some epersLockfs
      else if S.com.maxSizeKeyData < bufferSize then some epersBuflimit
      else none

def lateRefusal (ctx : DbContext) (access : KeyAccess) : Option ℤ :=
  if 0 ≤ ctx.rval ∧ ctx.configKey.type = .key then
    match access with
    | delete | getSize | read _ _ =>
      if ctx.configKey.storage = .lastEntry then some epersBadpol else none
    | write _ _ =>
      if ctx.configKey.permission = .readOnly then some epersResourceReadOnly
      else if ctx.configKey.storage = .lastEntry then some epersBadpol
      else if ctx.configKey.storage = .shared ∧ notResponsible S ctx.configKey then
        some epersNotRespApp
      else none
  else
    match access with
    | getSize => some epersBadpol
    | delete | read _ _ | write _ _ => some ctx.rval

/-- The call of `db_access.c` behind the checks. -/
def reach (ctx : DbContext) (lib : Library W) : KeyAccess → Option ((ℤ × Bytes) × Library W)
  | delete =>
    let (rval, lib) := persistenceDeleteData S frame ctx.dbPath ctx.dbKey X.resourceId
      ⟨X.context, ctx.configKey⟩ lib
    some ((rval, []), lib)
  | getSize =>
    let (rval, lib) := persistenceGetDataSize S ctx.dbPath ctx.dbKey X.resourceId
      ⟨X.context, ctx.configKey⟩ lib
    some ((rval, []), lib)
  | read buffer bufferSize =>
    persistenceGetData S ctx.dbPath ctx.dbKey X.resourceId ⟨X.context, ctx.configKey⟩ buffer
      bufferSize lib
  | write buffer bufferSize =>
    let (rval, lib) := persistenceSetData S frame ctx.dbPath ctx.dbKey X.resourceId
      ⟨X.context, ctx.configKey⟩ buffer bufferSize lib
    some ((rval, []), lib)

variable {S frame X}

theorem perform_eq (lib : Library W) (access : KeyAccess) :
    access.perform S frame X lib =
      match access.earlyRefusal S lib.client with
      | some rval => some ((rval, access.buffer), lib)
      | none =>
        let (ctx, lib) := getDbContext S frame X.context X.resourceId false lib
        match access.lateRefusal S ctx with
        | some rval => some ((rval, access.buffer), lib)
        | none => access.reach S frame X ctx lib := by
  unfold earlyRefusal lateRefusal
  by_cases hinit : 0 < lib.client.gPclInitCounter
  swap
  · rw [if_pos hinit]
    cases access <;>
      simp only [perform, pclKeyDelete, pclKeyGetSize, pclKeyReadData, pclKeyWriteData,
        if_neg hinit, buffer]
  rw [if_neg (not_not.mpr hinit)]
  cases access with
  | getSize =>
    simp only [perform, pclKeyGetSize, if_pos hinit]
    generalize getDbContext S frame X.context X.resourceId false lib = found
    obtain ⟨ctx, lib₁⟩ := found
    by_cases hkey : 0 ≤ ctx.rval ∧ ctx.configKey.type = .key
    · by_cases hlast : ctx.configKey.storage = .lastEntry
      · simp only [if_pos hkey, hlast, buffer, ne_eq, not_true_eq_false, if_true, if_false]
      · simp only [if_pos hkey, hlast, ne_eq, not_false_eq_true, if_true, if_false, reach]
    · simp only [if_neg hkey, buffer]
  | delete =>
    simp only [perform, pclKeyDelete, if_pos hinit]
    by_cases hlock : Locked lib.client.loop
    · simp only [hlock, not_true_eq_false, if_true, if_false, buffer]
    simp only [hlock, not_false_eq_true, if_true, if_false]
    generalize getDbContext S frame X.context X.resourceId false lib = found
    obtain ⟨ctx, lib₁⟩ := found
    by_cases hkey : 0 ≤ ctx.rval ∧ ctx.configKey.type = .key
    · by_cases hlast : ctx.configKey.storage = .lastEntry
      · simp only [if_pos hkey, hlast, buffer, ne_eq, not_true_eq_false, if_true, if_false]
      · simp only [if_pos hkey, hlast, ne_eq, not_false_eq_true, if_true, if_false, reach]
    · simp only [if_neg hkey, buffer]
  | read buffer bufferSize =>
    simp only [perform, pclKeyReadData, if_pos hinit]
    by_cases hlock : Locked lib.client.loop
    · simp only [hlock, not_true_eq_false, if_true, if_false, KeyAccess.buffer]
    simp only [hlock, not_false_eq_true, if_true, if_false]
    generalize getDbContext S frame X.context X.resourceId false lib = found
    obtain ⟨ctx, lib₁⟩ := found
    by_cases hkey : 0 ≤ ctx.rval ∧ ctx.configKey.type = .key
    · by_cases hlast : ctx.configKey.storage = .lastEntry
      · simp only [if_pos hkey, hlast, KeyAccess.buffer, ne_eq, not_true_eq_false, if_true,
          if_false]
      · simp only [if_pos hkey, hlast, ne_eq, not_false_eq_true, if_true, if_false, reach]
    · simp only [if_neg hkey, KeyAccess.buffer]
  | write buffer bufferSize =>
    simp only [perform, pclKeyWriteData, if_pos hinit]
    by_cases hlock : Locked lib.client.loop
    · simp only [hlock, not_true_eq_false, if_true, if_false, KeyAccess.buffer]
    simp only [hlock, not_false_eq_true, if_true, if_false]
    by_cases hlimit : S.com.maxSizeKeyData < bufferSize
    · simp only [if_pos hlimit, if_neg (not_le.mpr hlimit), KeyAccess.buffer]
    simp only [if_neg hlimit, if_pos (not_lt.mp hlimit)]
    generalize getDbContext S frame X.context X.resourceId false lib = found
    obtain ⟨ctx, lib₁⟩ := found
    by_cases hkey : 0 ≤ ctx.rval ∧ ctx.configKey.type = .key
    swap
    · simp only [if_neg hkey, KeyAccess.buffer]
    by_cases hperm : ctx.configKey.permission = .readOnly
    · simp only [if_pos hkey, hperm, KeyAccess.buffer, ne_eq, not_true_eq_false, if_true, if_false]
    by_cases hlast : ctx.configKey.storage = .lastEntry
    · simp only [if_pos hkey, hperm, hlast, KeyAccess.buffer, ne_eq, not_true_eq_false,
        not_false_eq_true, if_true, if_false]
    by_cases hresp : ctx.configKey.storage = .shared ∧ notResponsible S ctx.configKey
    · simp only [if_pos hkey, hperm, hlast, if_pos hresp, KeyAccess.buffer, ne_eq,
        not_false_eq_true, if_true, if_false]
    · simp only [if_pos hkey, hperm, hlast, if_neg hresp, ne_eq, not_false_eq_true, if_true,
        if_false, reach]

end Perform

end KeyAccess

/-- The resource a handle stands for, or the error of every function with a handle. -/
def handleResource (client : Client) (keyHandle : ℤ) : Except ℤ KeyResource :=
  if 0 < client.gPclInitCounter then
    match getKeyHandleData client.gKeyHandleTree keyHandle with
    | none => .error epersMaxhandle
    | some persHandle =>
      if persHandle.resourceId ≠ [] then
        .ok ⟨⟨persHandle.ldbid, persHandle.userNo, persHandle.seatNo⟩, persHandle.resourceId⟩
      else .error epersInvalidHandle
  else .error epersNotInitialized

theorem withKeyHandle_eq {α : Type*} (keyHandle : ℤ) (lib : Library W) (failed : ℤ → α)
    (call : PersistenceDbContext → CStr → α) :
    withKeyHandle keyHandle lib failed call =
      match handleResource lib.client keyHandle with
      | .error rval => failed rval
      | .ok X => call X.context X.resourceId := by
  unfold withKeyHandle handleResource
  split
  · cases getKeyHandleData lib.client.gKeyHandleTree keyHandle with
    | none => rfl
    | some persHandle =>
      dsimp only
      split <;> rfl
  · rfl

inductive KeyCall
  | direct (X : KeyResource) (access : KeyAccess)
  | handleOpen (X : KeyResource)
  | handleClose (keyHandle : ℤ)
  | handleGetSize (keyHandle : ℤ)
  | handleRead (keyHandle : ℤ) (buffer : Bytes) (bufferSize : ℤ)
  | handleWrite (keyHandle : ℤ) (buffer : Bytes) (bufferSize : ℤ)
  | register (X : KeyResource) (callback : ℕ)
  | unregister (X : KeyResource) (callback : ℕ)
  | handleRegister (keyHandle : ℤ) (callback : ℕ)
  | handleUnregister (keyHandle : ℤ) (callback : ℕ)
  deriving DecidableEq

namespace KeyCall

section Perform

variable (S : Setup W) (frame : CallFrame)

def plain (result : ℤ × Library W) : (ℤ × Bytes) × Library W := ((result.1, []), result.2)

/-- The call; `none` where it does not return. -/
def perform (lib : Library W) : KeyCall → Option ((ℤ × Bytes) × Library W)
  | direct X access => access.perform S frame X lib
  | handleOpen X => some (plain (pclKeyHandleOpen S frame X.context X.resourceId lib))
  | handleClose keyHandle => some (plain (pclKeyHandleClose keyHandle lib))
  | handleGetSize keyHandle => some (plain (pclKeyHandleGetSize S frame keyHandle lib))
  | handleRead keyHandle buffer bufferSize =>
    pclKeyHandleReadData S frame keyHandle buffer bufferSize lib
  | handleWrite keyHandle buffer bufferSize =>
    some (plain (pclKeyHandleWriteData S frame keyHandle buffer bufferSize lib))
  | register X callback =>
    (pclKeyRegisterNotifyOnChange S frame X.context X.resourceId callback lib).map plain
  | unregister X callback =>
    (pclKeyUnRegisterNotifyOnChange S frame X.context X.resourceId callback lib).map plain
  | handleRegister keyHandle callback =>
    (pclKeyHandleRegisterNotifyOnChange S frame keyHandle callback lib).map plain
  | handleUnregister keyHandle callback =>
    (pclKeyHandleUnRegisterNotifyOnChange S frame keyHandle callback lib).map plain

end Perform

def byHandle : KeyCall → Option (ℤ × KeyAccess)
  | handleGetSize keyHandle => some (keyHandle, .getSize)
  | handleRead keyHandle buffer bufferSize => some (keyHandle, .read buffer bufferSize)
  | handleWrite keyHandle buffer bufferSize => some (keyHandle, .write buffer bufferSize)
  | direct _ _ | handleOpen _ | handleClose _ | register _ _ | unregister _ _ | handleRegister _ _
  | handleUnregister _ _ => none

def target (client : Client) (call : KeyCall) : Option (KeyResource × KeyAccess) :=
  match call with
  | direct X access => some (X, access)
  | call => call.byHandle.bind fun (keyHandle, access) =>
    (handleResource client keyHandle).toOption.map fun X => (X, access)

variable {S : Setup W} {frame : CallFrame} {lib : Library W} {call : KeyCall}

theorem perform_byHandle {keyHandle : ℤ} {access : KeyAccess}
    (h : call.byHandle = some (keyHandle, access)) :
    call.perform S frame lib =
      match handleResource lib.client keyHandle with
      | .error rval => some ((rval, access.buffer), lib)
      | .ok X => access.perform S frame X lib := by
  cases call <;> cases h <;>
    simp only [perform, pclKeyHandleGetSize, pclKeyHandleReadData, pclKeyHandleWriteData,
      withKeyHandle_eq] <;>
    cases handleResource lib.client keyHandle <;> rfl

theorem perform_target {X : KeyResource} {access : KeyAccess}
    (h : call.target lib.client = some (X, access)) :
    call.perform S frame lib = access.perform S frame X lib := by
  cases call with
  | direct Y access => cases h; rfl
  | handleGetSize keyHandle | handleRead keyHandle _ _ | handleWrite keyHandle _ _ =>
    rw [perform_byHandle rfl]
    unfold target byHandle at h
    dsimp only [Option.bind_some] at h
    cases hresource : handleResource lib.client keyHandle with
    | error rval => simp [hresource, Except.toOption] at h
    | ok Y =>
      simp only [hresource, Except.toOption, Option.map_some] at h
      cases h
      rfl
  | _ => cases h

structure Untouched (lib lib' : Library W) : Prop where
  world : lib'.world = lib.world
  handlesDB : lib'.gHandlesDB = lib.gHandlesDB
  customFuncs : lib'.gPersCustomFuncs = lib.gPersCustomFuncs
  resourceTable : lib'.gResourceTable = lib.gResourceTable
  resourceOpen : lib'.gResourceOpen = lib.gResourceOpen

theorem notifyTree_untouched {hashKey : UInt32} {callback : ℕ} {regPolicy : PersNotifyRegPolicy}
    {tree : NotificationTree} : Untouched lib (notifyTree hashKey callback regPolicy tree lib) := by
  unfold notifyTree
  split <;> split <;> constructor <;> rfl

theorem persistenceNotifyOnChange_untouched {resourceId dbKey : CStr}
    {context : PersistenceDbContext} {callback : ℕ} {regPolicy : PersNotifyRegPolicy} {rval : ℤ}
    {lib' : Library W} (h : persistenceNotifyOnChange S frame resourceId dbKey context callback
      regPolicy lib = some (rval, lib')) : Untouched lib lib' := by
  unfold persistenceNotifyOnChange at h
  dsimp only at h
  split at h
  · cases h
  · cases h
    have hnotify := @notifyTree_untouched W lib (notificationKey dbKey) callback regPolicy
      (lib.gNotificationTree.getD {})
    exact ⟨hnotify.world, hnotify.handlesDB, hnotify.customFuncs, hnotify.resourceTable,
      hnotify.resourceOpen⟩

def Searches (S : Setup W) (frame : CallFrame) (lib lib' : Library W) : Prop :=
  Untouched lib lib' ∨
    ∃ X : KeyResource, Untouched (getDbContext S frame X.context X.resourceId false lib).2 lib'

theorem Untouched.refl (lib : Library W) : Untouched lib lib := by
  constructor <;> rfl

theorem regNotifyOnChange_searches {context : PersistenceDbContext} {resourceId : CStr}
    {callback : ℕ} {regPolicy : PersNotifyRegPolicy} {rval : ℤ} {lib' : Library W}
    (h : regNotifyOnChange S frame context resourceId callback regPolicy lib = some (rval, lib')) :
    Searches S frame lib lib' := by
  unfold regNotifyOnChange at h
  split at h
  · right
    refine ⟨⟨context, resourceId⟩, ?_⟩
    dsimp only at h
    split at h
    · split at h
      · exact persistenceNotifyOnChange_untouched h
      · cases h
        exact Untouched.refl _
    · cases h
      exact Untouched.refl _
  · cases h
    exact Or.inl (Untouched.refl lib)

theorem perform_searches {result : ℤ × Bytes} {lib' : Library W}
    (htarget : call.target lib.client = none) (h : call.perform S frame lib = some (result, lib')) :
    Searches S frame lib lib' := by
  have hbyHandle : ∀ {keyHandle access}, call.byHandle = some (keyHandle, access) →
      Searches S frame lib lib' := by
    intro keyHandle access hby
    rw [perform_byHandle hby] at h
    cases hresource : handleResource lib.client keyHandle with
    | error rval =>
      rw [hresource] at h
      cases h
      exact Or.inl (Untouched.refl lib)
    | ok X =>
      cases call <;> cases hby <;>
        simp [target, byHandle, hresource, Except.toOption] at htarget
  have hnotify : ∀ {register : Option (ℤ × Library W)}, register.map plain = some (result, lib') →
      ∃ rval, register = some (rval, lib') := by
    intro register hregister
    obtain ⟨⟨rval, lib''⟩, hsome, hplain⟩ := Option.map_eq_some_iff.mp hregister
    cases hplain
    exact ⟨rval, hsome⟩
  have honce : ∀ {callback : ℕ} {register : Option (ℤ × Library W)} {rval : ℤ},
      oneCallback callback lib register = some (rval, lib') →
      register = some (rval, lib') ∨ lib' = lib := by
    intro callback register rval hone
    unfold oneCallback at hone
    split at hone
    · exact Or.inl hone
    · cases hone
      exact Or.inr rfl
  have hhandle : ∀ {keyHandle : ℤ} {callback : ℕ} {regPolicy : PersNotifyRegPolicy} {rval : ℤ},
      handleRegNotifyOnChange S frame keyHandle callback regPolicy lib = some (rval, lib') →
      Searches S frame lib lib' := by
    intro keyHandle callback regPolicy rval hreg
    rw [handleRegNotifyOnChange, withKeyHandle_eq] at hreg
    split at hreg
    · cases hreg
      exact Or.inl (Untouched.refl lib)
    · exact regNotifyOnChange_searches hreg
  cases call with
  | direct X access => cases htarget
  | handleGetSize _ | handleRead _ _ _ | handleWrite _ _ _ => exact hbyHandle rfl
  | handleOpen X =>
    cases h
    unfold pclKeyHandleOpen
    split
    · exact Or.inr ⟨X, by constructor <;> rfl⟩
    · exact Or.inl (Untouched.refl lib)
  | handleClose keyHandle =>
    cases h
    exact Or.inl (by constructor <;> rfl)
  | register X callback =>
    obtain ⟨rval, hregister⟩ := hnotify h
    rcases honce hregister with hreg | rfl
    · exact regNotifyOnChange_searches hreg
    · exact Or.inl (Untouched.refl _)
  | unregister X callback =>
    obtain ⟨rval, hreg⟩ := hnotify h
    exact regNotifyOnChange_searches hreg
  | handleRegister keyHandle callback =>
    obtain ⟨rval, hregister⟩ := hnotify h
    rcases honce hregister with hreg | rfl
    · exact hhandle hreg
    · exact Or.inl (Untouched.refl _)
  | handleUnregister keyHandle callback =>
    obtain ⟨rval, hreg⟩ := hnotify h
    exact hhandle hreg

end KeyCall

end PersClient.Key
