import PersClient.Data.Organization

/-! # The main-loop queue and the access lock

Block requests travel through the pipe of the main loop and lock the access
when they are dispatched; unblock requests decrement the lock counter in the
thread that makes them. The state is the part of the library both sides share.
-/

namespace PersClient.Access

inductive Cmd
  | none
  | pasBlockAndWriteBack
  | lcPrepareShutdown
  | sendNotifySignal
  | regNotifySignal
  | sendPasRegister
  | sendLcRegister
  | quit
  deriving DecidableEq, Repr

structure MainLoopData where
  cmd : Cmd
  param0 : UInt32 := 0
  param1 : UInt32 := 0
  param2 : UInt32 := 0
  param3 : UInt32 := 0
  string : CStr := []
  deriving DecidableEq, Repr

/-- The shared state: the lock counter, the commands in the pipe, the shutdown
mode and the number of shutdowns announced so far. -/
structure MainLoop where
  gLockAccess : Int32 := 0
  pipe : List MainLoopData := []
  gShutdownMode : Int32 := 0
  gCancelCounter : Int32 := 0
  quit : Bool := false
  deriving DecidableEq

section Constants

/-- `AccessNoLock`: despite its name the value of a locked access. -/
def accessNoLock : Int32 := 1

def pasMsgBlock : UInt32 := 0x0001
def pasMsgUnblock : UInt32 := 0x0002
def pasMsgWriteBack : UInt32 := 0x0010

def pasErrorStatusRespPend : UInt32 := 0x0001
def pasErrorStatusOk : UInt32 := 0x0002
def pasErrorStatusFail : UInt32 := 0x8000

def pclShutdownTypeNone : Int32 := 0
def pclShutdown : Int32 := 1
def pclShutdownCancel : Int32 := 0

def shutdownPartial : UInt32 := 0
def shutdownFull : UInt32 := 1

end Constants

section Lock

def persLockAccess (s : MainLoop) : MainLoop := { s with gLockAccess := 0 + 1 }

def persUnlockAccess (s : MainLoop) : MainLoop := { s with gLockAccess := s.gLockAccess - 1 }

def isAccessLocked (s : MainLoop) : Int32 := s.gLockAccess

/-- The test every guarded entry point makes. -/
def Locked (s : MainLoop) : Prop := isAccessLocked s = accessNoLock

instance (s : MainLoop) : Decidable (Locked s) := by
  unfold Locked
  infer_instance

end Lock

section Requests

/-- `deliverToMainloop_NM`; `written` says whether the write to the pipe succeeds. -/
def deliverToMainloopNM (written : Bool) (data : MainLoopData) (s : MainLoop) : ℤ × MainLoop :=
  if written then (0, { s with pipe := s.pipe ++ [data] }) else (-1, s)

def checkPasRequest (written : Bool) (request requestID : UInt32) (s : MainLoop) :
    UInt32 × MainLoop :=
  if request = pasMsgBlock ||| pasMsgWriteBack then
    let data : MainLoopData :=
      { cmd := .pasBlockAndWriteBack, param0 := request, param1 := requestID }
    let (rval, s) := deliverToMainloopNM written data s
    (if rval = -1 then pasErrorStatusFail else pasErrorStatusRespPend, s)
  else if request = pasMsgUnblock then
    (pasErrorStatusOk, persUnlockAccess s)
  else
    (pasErrorStatusFail, s)

def pclLifecycleSet (written : Bool) (shutdown : Int32) (s : MainLoop) : ℤ × MainLoop :=
  if s.gShutdownMode = pclShutdownTypeNone then
    if shutdown = pclShutdown then
      let data : MainLoopData := { cmd := .lcPrepareShutdown, param0 := shutdownPartial }
      -- the result of the write is not looked at
      let (_, s) := deliverToMainloopNM written data s
      (0, { s with gCancelCounter := s.gCancelCounter + 1 })
    else if shutdown = pclShutdownCancel then
      if s.gCancelCounter < Int32.ofNat shutdownMaxCount then (0, persUnlockAccess s)
      else (epersShutdownMaxCancel, s)
    else (epersCommon, s)
  else (epersShutdownNoPermit, s)

end Requests

section Dispatch

def processBlockAndWriteDataBack (s : MainLoop) : MainLoop := persLockAccess s

/-- What `process_prepare_shutdown` does to the shared state, for either extent:
it blocks the access before it writes anything back. -/
def processPrepareShutdown (_complete : UInt32) (s : MainLoop) : MainLoop := persLockAccess s

def dispatchInternalCommand (data : MainLoopData) (s : MainLoop) : MainLoop :=
  match data.cmd with
  | .pasBlockAndWriteBack => processBlockAndWriteDataBack s
  | .lcPrepareShutdown =>
    if data.param1 = 0 then processPrepareShutdown data.param0 s
    else processPrepareShutdown shutdownFull s
  | .quit => { s with quit := true }
  | .sendNotifySignal | .regNotifySignal | .sendPasRegister | .sendLcRegister | .none => s

/-- One turn of `mainLoop`: read the oldest command and dispatch it. -/
def mainLoopTurn (s : MainLoop) : MainLoop :=
  if s.quit then s
  else match s.pipe with
    | [] => s
    | data :: rest => dispatchInternalCommand data { s with pipe := rest }

def MainLoopData.Blocks (data : MainLoopData) : Prop :=
  data.cmd = .pasBlockAndWriteBack ∨ data.cmd = .lcPrepareShutdown

instance (data : MainLoopData) : Decidable data.Blocks := by
  unfold MainLoopData.Blocks
  infer_instance

variable {s : MainLoop} {data : MainLoopData} {rest : List MainLoopData}

theorem pipe_dispatch (data : MainLoopData) (s : MainLoop) :
    (dispatchInternalCommand data s).pipe = s.pipe := by
  unfold dispatchInternalCommand
  cases data.cmd with
  | lcPrepareShutdown =>
    dsimp only
    split <;> rfl
  | _ => rfl

theorem quit_dispatch_of_ne (s : MainLoop) (hcmd : data.cmd ≠ .quit) :
    (dispatchInternalCommand data s).quit = s.quit := by
  unfold dispatchInternalCommand
  cases hdata : data.cmd with
  | quit => exact absurd hdata hcmd
  | lcPrepareShutdown =>
    dsimp only
    split <;> rfl
  | _ => rfl

theorem mainLoopTurn_cons (hquit : ¬ s.quit) (hpipe : s.pipe = data :: rest) :
    mainLoopTurn s = dispatchInternalCommand data { s with pipe := rest } := by
  rw [mainLoopTurn, if_neg hquit, hpipe]

theorem pipe_mainLoopTurn (hquit : ¬ s.quit) (hpipe : s.pipe = data :: rest) :
    (mainLoopTurn s).pipe = rest := by
  rw [mainLoopTurn_cons hquit hpipe, pipe_dispatch]

end Dispatch

end PersClient.Access
