import PersClient.Key.Database

/-! # The key functions

`key.c`: each function checks the initialisation, the lock (not all of them),
the context and the entry before it reaches the databases. The functions with a
handle call those without on the context the handle stands for.
-/

namespace PersClient.Key

open File Handle Access

variable {W : Type*} (S : Setup W) (frame : CallFrame)

section Direct

variable (context : PersistenceDbContext) (resourceId : CStr)

def pclKeyDelete (lib : Library W) : ℤ × Library W :=
  if 0 < lib.client.gPclInitCounter then
    if ¬ Locked lib.client.loop then
      let (ctx, lib) := getDbContext S frame context resourceId false lib
      if 0 ≤ ctx.rval ∧ ctx.configKey.type = .key then
        if ctx.configKey.storage ≠ .lastEntry then
          persistenceDeleteData S frame ctx.dbPath ctx.dbKey resourceId ⟨context, ctx.configKey⟩ lib
        else (epersBadpol, lib)
      else (ctx.rval, lib)
    else (epersLockfs, lib)
  else (epersNotInitialized, lib)

def pclKeyGetSize (lib : Library W) : ℤ × Library W :=
  if 0 < lib.client.gPclInitCounter then
    let (ctx, lib) := getDbContext S frame context resourceId false lib
    if 0 ≤ ctx.rval ∧ ctx.configKey.type = .key then
      if ctx.configKey.storage ≠ .lastEntry then
        persistenceGetDataSize S ctx.dbPath ctx.dbKey resourceId ⟨context, ctx.configKey⟩ lib
      else (epersBadpol, lib)
    else (epersBadpol, lib)
  else (epersNotInitialized, lib)

def pclKeyReadData (buffer : Bytes) (bufferSize : ℤ) (lib : Library W) :
    Option ((ℤ × Bytes) × Library W) :=
  if 0 < lib.client.gPclInitCounter then
    if ¬ Locked lib.client.loop then
      let (ctx, lib) := getDbContext S frame context resourceId false lib
      if 0 ≤ ctx.rval ∧ ctx.configKey.type = .key then
        if ctx.configKey.storage ≠ .lastEntry then
          persistenceGetData S ctx.dbPath ctx.dbKey resourceId ⟨context, ctx.configKey⟩ buffer
            bufferSize lib
        else some ((epersBadpol, buffer), lib)
      else some ((ctx.rval, buffer), lib)
    else some ((epersLockfs, buffer), lib)
  else some ((epersNotInitialized, buffer), lib)

/-- `strncmp` of the responsible application with `gAppId` finds a difference. -/
def notResponsible (configKey : PersistenceConfigurationKey) : Bool :=
  configKey.reponsible.take S.com.maxLengthResponsible ≠ S.appId.take S.com.maxLengthResponsible

def pclKeyWriteData (buffer : Bytes) (bufferSize : ℤ) (lib : Library W) : ℤ × Library W :=
  if 0 < lib.client.gPclInitCounter then
    if ¬ Locked lib.client.loop then
      if bufferSize ≤ S.com.maxSizeKeyData then
        let (ctx, lib) := getDbContext S frame context resourceId false lib
        if 0 ≤ ctx.rval ∧ ctx.configKey.type = .key then
          if ctx.configKey.permission ≠ .readOnly then
            if ctx.configKey.storage ≠ .lastEntry then
              if ctx.configKey.storage = .shared ∧ notResponsible S ctx.configKey then
                (epersNotRespApp, lib)
              else
                persistenceSetData S frame ctx.dbPath ctx.dbKey resourceId
                  ⟨context, ctx.configKey⟩ buffer bufferSize lib
            else (epersBadpol, lib)
          else (epersResourceReadOnly, lib)
        else (ctx.rval, lib)
      else (epersBuflimit, lib)
    else (epersLockfs, lib)
  else (epersNotInitialized, lib)

end Direct

section ByHandle

def pclKeyHandleOpen (context : PersistenceDbContext) (resourceId : CStr) (lib : Library W) :
    ℤ × Library W :=
  if 0 < lib.client.gPclInitCounter then
    let (ctx, lib) := getDbContext S frame context resourceId false lib
    let (handle, client) := File.pclKeyHandleOpen S.com ctx context.ldbid resourceId context.userNo
      context.seatNo lib.client
    (handle, { lib with client })
  else (epersNotInitialized, lib)

def pclKeyHandleClose (keyHandle : ℤ) (lib : Library W) : ℤ × Library W :=
  let (rval, client) := File.pclKeyHandleClose keyHandle lib.client
  (rval, { lib with client })

/-- What every function with a handle does first: find the context the handle
stands for, or end with `failed` and an error code. -/
def withKeyHandle {α : Type*} (keyHandle : ℤ) (lib : Library W) (failed : ℤ → α)
    (call : PersistenceDbContext → CStr → α) : α :=
  if 0 < lib.client.gPclInitCounter then
    match getKeyHandleData lib.client.gKeyHandleTree keyHandle with
    | none => failed epersMaxhandle
    | some persHandle =>
      if persHandle.resourceId ≠ [] then
        call ⟨persHandle.ldbid, persHandle.userNo, persHandle.seatNo⟩ persHandle.resourceId
      else failed epersInvalidHandle
  else failed epersNotInitialized

def pclKeyHandleGetSize (keyHandle : ℤ) (lib : Library W) : ℤ × Library W :=
  withKeyHandle keyHandle lib (fun rval => (rval, lib))
    fun context resourceId => pclKeyGetSize S frame context resourceId lib

def pclKeyHandleReadData (keyHandle : ℤ) (buffer : Bytes) (bufferSize : ℤ) (lib : Library W) :
    Option ((ℤ × Bytes) × Library W) :=
  withKeyHandle keyHandle lib (fun rval => some ((rval, buffer), lib))
    fun context resourceId => pclKeyReadData S frame context resourceId buffer bufferSize lib

def pclKeyHandleWriteData (keyHandle : ℤ) (buffer : Bytes) (bufferSize : ℤ) (lib : Library W) :
    ℤ × Library W :=
  withKeyHandle keyHandle lib (fun rval => (rval, lib))
    fun context resourceId => pclKeyWriteData S frame context resourceId buffer bufferSize lib

end ByHandle

section Notify

inductive PersNotifyRegPolicy
  | register
  | unregister
  deriving DecidableEq, Repr

def PersNotifyRegPolicy.code : PersNotifyRegPolicy → UInt32
  | .register => 0
  | .unregister => 1

def notificationKey (dbKey : CStr) : UInt32 := pclCrc32 0 (CStr.toBytes dbKey)

/-- What a registration or its end does to the tree and the callback. To
register a key again releases the item the tree keeps. -/
def notifyTree (hashKey : UInt32) (callback : ℕ) (regPolicy : PersNotifyRegPolicy)
    (tree : NotificationTree) (lib : Library W) : Library W :=
  match regPolicy with
  | .register =>
    if hashKey ∈ tree.keys then
      { lib with gNotificationTree := some { tree with released := true } }
    else { lib with
      gNotificationTree := some { tree with keys := hashKey :: tree.keys }
      gChangeNotifyCallback := some callback }
  | .unregister =>
    if hashKey ∈ tree.keys then
      let keys := tree.keys.erase hashKey
      { lib with
        gNotificationTree := some { tree with keys }
        gChangeNotifyCallback := if keys = [] then none else lib.gChangeNotifyCallback }
    else { lib with gNotificationTree := some tree }

/-- `persistence_notify_on_change`, `none` where the tree cannot be searched. -/
def persistenceNotifyOnChange (resourceId dbKey : CStr) (context : PersistenceDbContext)
    (callback : ℕ) (regPolicy : PersNotifyRegPolicy) (lib : Library W) : Option (ℤ × Library W) :=
  let tree := lib.gNotificationTree.getD {}
  if tree.released then none
  else
    let lib := notifyTree (notificationKey dbKey) callback regPolicy tree lib
    let (rval, loop) := deliverToMainloopNM frame.written
      { cmd := .regNotifySignal
        param0 := context.ldbid
        param1 := context.userNo
        param2 := context.seatNo
        param3 := regPolicy.code
        string := snprintf S.com.maxLengthKeyName resourceId } lib.client.loop
    some (rval, { lib with client := { lib.client with loop } })

def regNotifyOnChange (context : PersistenceDbContext) (resourceId : CStr) (callback : ℕ)
    (regPolicy : PersNotifyRegPolicy) (lib : Library W) : Option (ℤ × Library W) :=
  if 0 < lib.client.gPclInitCounter then
    let (ctx, lib) := getDbContext S frame context resourceId false lib
    if ctx.rval = 0 then
      if ctx.configKey.storage ≠ .local ∧ ctx.configKey.type = .key then
        persistenceNotifyOnChange S frame resourceId ctx.dbKey context callback regPolicy lib
      else some (epersNotifyNotAllowed, lib)
    else some (ctx.rval, lib)
  else some (epersNotInitialized, lib)

def oneCallback (callback : ℕ) (lib : Library W) (register : Option (ℤ × Library W)) :
    Option (ℤ × Library W) :=
  if lib.gChangeNotifyCallback = some callback ∨ lib.gChangeNotifyCallback = none then register
  else some (epersNotifyNotAllowed, lib)

def pclKeyRegisterNotifyOnChange (context : PersistenceDbContext) (resourceId : CStr)
    (callback : ℕ) (lib : Library W) : Option (ℤ × Library W) :=
  oneCallback callback lib (regNotifyOnChange S frame context resourceId callback .register lib)

def pclKeyUnRegisterNotifyOnChange (context : PersistenceDbContext) (resourceId : CStr)
    (callback : ℕ) (lib : Library W) : Option (ℤ × Library W) :=
  regNotifyOnChange S frame context resourceId callback .unregister lib

def handleRegNotifyOnChange (keyHandle : ℤ) (callback : ℕ) (regPolicy : PersNotifyRegPolicy)
    (lib : Library W) : Option (ℤ × Library W) :=
  withKeyHandle keyHandle lib (fun rval => some (rval, lib))
    fun context resourceId => regNotifyOnChange S frame context resourceId callback regPolicy lib

def pclKeyHandleRegisterNotifyOnChange (keyHandle : ℤ) (callback : ℕ) (lib : Library W) :
    Option (ℤ × Library W) :=
  oneCallback callback lib (handleRegNotifyOnChange S frame keyHandle callback .register lib)

def pclKeyHandleUnRegisterNotifyOnChange (keyHandle : ℤ) (callback : ℕ) (lib : Library W) :
    Option (ℤ × Library W) :=
  handleRegNotifyOnChange S frame keyHandle callback .unregister lib

end Notify

end PersClient.Key
