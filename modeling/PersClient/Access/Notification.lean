import PersClient.Access.MainLoop

/-! # The signal of a changed resource

A change travels as a command to the main loop, as a signal over D-Bus with all
numbers printed, and as a call of the registered callback. Printing and parsing
are inverse on numbers of 32 bits. The receiver does not know the member name
the sender gives to a created resource.
-/

namespace PersClient.Access

open Text

inductive NotifyStatus
  | noChanged
  | created
  | changed
  | deleted
  | lastEntry
  deriving DecidableEq, Repr

def NotifyStatus.code : NotifyStatus → UInt32
  | .noChanged => 0
  | .created => 1
  | .changed => 2
  | .deleted => 3
  | .lastEntry => 4

structure PclNotification where
  status : NotifyStatus
  resourceId : CStr
  context : PersistenceDbContext
  deriving DecidableEq, Repr

inductive MessageType
  | signal
  | methodCall
  deriving DecidableEq, Repr

/-- A D-Bus message whose arguments are strings. -/
structure DBusMessage where
  type : MessageType
  path : CStr
  interface : CStr
  member : CStr
  args : List CStr
  deriving DecidableEq, Repr

section Constants

def gChangeSignal : CStr := cstr "PersistenceResChange"
def gDeleteSignal : CStr := cstr "PersistenceResDelete"
def gCreateSignal : CStr := cstr "PersistenceResCreate"

def gDbusPersAdminConsInterface : CStr := cstr "org.genivi.persistence.adminconsumer"
def gPersAdminConsumerPath : CStr := cstr "/org/genivi/persistence/adminconsumer"

def dbusSubMatchSize : ℕ := 12

end Constants

section Sender

variable (com : CommonObject)

/-- The command `pers_send_Notification_Signal` puts into the pipe. -/
def notificationCommand (key : CStr) (context : PersistenceDbContext) (reason : NotifyStatus) :
    MainLoopData where
  cmd := .sendNotifySignal
  param0 := context.ldbid
  param1 := context.userNo
  param2 := context.seatNo
  param3 := reason.code
  string := snprintf com.maxLengthKeyName key

/-- The wait of the blocking delivery changes nothing of this state. -/
def persSendNotificationSignal (written : Bool) (key : CStr) (context : PersistenceDbContext)
    (reason : NotifyStatus) (s : MainLoop) : ℤ × MainLoop :=
  if reason.code < NotifyStatus.lastEntry.code then
    let (rval, s) := deliverToMainloopNM written (notificationCommand com key context reason) s
    (if rval = -1 then epersNotifySig else 1, s)
  else (epersNotifySig, s)

def notifyReasonString (notifyReason : UInt32) : Option CStr :=
  if notifyReason = NotifyStatus.deleted.code then some gDeleteSignal
  else if notifyReason = NotifyStatus.created.code then some gCreateSignal
  else if notifyReason = NotifyStatus.changed.code then some gChangeSignal
  else none

def processSendNotificationSignal (notifyLdbid notifyUserNo notifySeatNo notifyReason : UInt32)
    (notifyKey : CStr) : Option DBusMessage :=
  (notifyReasonString notifyReason).map fun member =>
    { type := .signal
      path := gPersAdminConsumerPath
      interface := gDbusPersAdminConsInterface
      member
      args := [notifyKey, snprintf dbusSubMatchSize (decimal notifyLdbid.toNat),
        snprintf dbusSubMatchSize (decimal notifyUserNo.toNat),
        snprintf dbusSubMatchSize (decimal notifySeatNo.toNat)] }

/-- The signal `dispatchInternalCommand` sends for a command. -/
def MainLoopData.signal (data : MainLoopData) : Option DBusMessage :=
  if data.cmd = .sendNotifySignal then
    processSendNotificationSignal data.param0 data.param1 data.param2 data.param3 data.string
  else none

end Sender

section Receiver

def memberStatus (member : CStr) : Option NotifyStatus :=
  if member = cstr "PersistenceResChange" then some .changed
  else if member = cstr "PersistenceResDelete" then some .deleted
  else if member = cstr "PersistenceRes" then some .created
  else none

def handleObjectPathMessageFallback (registered : Bool) (message : DBusMessage) :
    List PclNotification :=
  if message.interface = gDbusPersAdminConsInterface ∧ message.type = .signal then
    match memberStatus message.member, message.args with
    | some status, resourceId :: ldbid :: userNo :: seatNo :: _ =>
      if registered then
        [{ status, resourceId,
           context := ⟨(atoi ldbid).toUInt32, (atoi userNo).toUInt32, (atoi seatNo).toUInt32⟩ }]
      else []
    -- a message with other arguments is answered with an error
    | _, _ => []
  else []

/-- The calls that follow from the dispatch of a command, if its signal arrives unchanged. -/
def MainLoopData.calls (registered : Bool) (data : MainLoopData) : List PclNotification :=
  data.signal.toList.flatMap (handleObjectPathMessageFallback registered)

end Receiver

section RoundTrip

variable {com : CommonObject}

theorem snprintf_decimal (n : UInt32) :
    snprintf dbusSubMatchSize (decimal n.toNat) = decimal n.toNat := by
  apply snprintf_of_lt
  have hn := n.toNat_lt
  have hlength : (decimal n.toNat).length ≤ 10 := decimal_length_le (by omega) (by omega)
  exact Nat.lt_of_le_of_lt hlength (by decide)

theorem memberStatus_reason {reason : NotifyStatus}
    (hreason : reason = .created ∨ reason = .changed ∨ reason = .deleted) :
    ∃ member, notifyReasonString reason.code = some member ∧
      memberStatus member = if reason = .created then none else some reason := by
  rcases hreason with rfl | rfl | rfl
  · exact ⟨gCreateSignal, rfl, by simp [memberStatus, gCreateSignal, cstr_eq]⟩
  · exact ⟨gChangeSignal, rfl, by simp [memberStatus, gChangeSignal]⟩
  · exact ⟨gDeleteSignal, rfl, by simp [memberStatus, gDeleteSignal, cstr_eq]⟩

theorem calls_notificationCommand {key : CStr} (hkey : key.length < com.maxLengthKeyName)
    (context : PersistenceDbContext) {reason : NotifyStatus}
    (hreason : reason = .created ∨ reason = .changed ∨ reason = .deleted) :
    (notificationCommand com key context reason).calls true =
      if reason = .created then [] else [⟨reason, key, context⟩] := by
  obtain ⟨member, hmember, hstatus⟩ := memberStatus_reason hreason
  simp only [MainLoopData.calls, MainLoopData.signal, notificationCommand, if_true,
    processSendNotificationSignal, hmember, Option.map_some, Option.toList_some,
    List.flatMap_cons, List.flatMap_nil, List.append_nil, snprintf_decimal,
    snprintf_of_lt hkey, handleObjectPathMessageFallback, hstatus, and_self]
  by_cases hcreated : reason = .created
  · simp [hcreated]
  · simp [hcreated, atoi_decimal]

theorem persSendNotificationSignal_pipe {reason : NotifyStatus}
    (hreason : reason = .created ∨ reason = .changed ∨ reason = .deleted) (key : CStr)
    (context : PersistenceDbContext) (s : MainLoop) :
    (persSendNotificationSignal com true key context reason s).2.pipe =
      s.pipe ++ [notificationCommand com key context reason] := by
  rcases hreason with rfl | rfl | rfl <;> rfl

end RoundTrip

/-- The command that a change puts into the pipe ends in exactly one call of the
callback with the same values, unless the resource was created. -/
theorem notified_iff {com : CommonObject} {key : CStr} (hkey : key.length < com.maxLengthKeyName)
    (context : PersistenceDbContext) {reason : NotifyStatus}
    (hreason : reason = .created ∨ reason = .changed ∨ reason = .deleted) (s : MainLoop) :
    (∃ data, (persSendNotificationSignal com true key context reason s).2.pipe = s.pipe ++ [data] ∧
      data.calls true = [⟨reason, key, context⟩]) ↔ reason ≠ .created := by
  rw [persSendNotificationSignal_pipe hreason]
  constructor
  · rintro ⟨data, hdata, hcalls⟩ hcreated
    rw [← List.singleton_inj.mp (List.append_cancel_left hdata),
      calls_notificationCommand hkey context hreason, if_pos hcreated] at hcalls
    cases hcalls
  · intro hknown
    refine ⟨_, rfl, ?_⟩
    rw [calls_notificationCommand hkey context hreason, if_neg hknown]

theorem changed_is_notified :
    (∃ data, (persSendNotificationSignal .standard true ['a'] ⟨0xFFFFFFFF, 1, 2⟩ .changed {}).2.pipe =
        [] ++ [data] ∧
      data.calls true = [⟨.changed, ['a'], ⟨0xFFFFFFFF, 1, 2⟩⟩]) ↔
      NotifyStatus.changed ≠ .created :=
  notified_iff (by decide) _ (Or.inr (Or.inl rfl)) {}

/-- The creation of a resource never reaches the callback. -/
theorem created_not_notified :
    ¬ ∀ (key : CStr) (context : PersistenceDbContext) (reason : NotifyStatus) (s : MainLoop),
      key.length < CommonObject.standard.maxLengthKeyName →
      reason = .created ∨ reason = .changed ∨ reason = .deleted →
      ∃ data, (persSendNotificationSignal .standard true key context reason s).2.pipe =
          s.pipe ++ [data] ∧
        data.calls true = [⟨reason, key, context⟩] := by
  intro h
  obtain ⟨data, hdata, hcalls⟩ := h ['a'] ⟨0xFF, 1, 2⟩ .created {} (by decide) (Or.inl rfl)
  have hcommand : notificationCommand .standard ['a'] ⟨0xFF, 1, 2⟩ .created = data :=
    List.singleton_inj.mp hdata
  rw [← hcommand, calls_notificationCommand (by decide) _ (Or.inl rfl)] at hcalls
  cases hcalls

end PersClient.Access
