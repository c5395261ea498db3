import Mathlib.Data.List.Perm.Basic
import PersClient.Access.MainLoop
import PersClient.Lib.Steps

/-! # Lifecycle requests and their responses

The library answers a lifecycle request with "response pending" before it looks
at it. The request kind and the request number then travel in a command, in
which the number 0 marks an internal shutdown. The responses sent and those
still in the pipe are, in order, the promised ones whose kind the library knows
and whose number is not the marker.
-/

namespace PersClient.Access

open Steps

section Constants

def nsmShutdownNormal : UInt32 := 1

def nsmErrorStatusOk : Int32 := 1
def nsmErrorStatusFail : Int32 := -1
def nsmErrorStatusResponsePending : Int32 := 7

end Constants

/-- The arguments of a `LifecycleRequest` message. -/
structure LifecycleRequest where
  request : UInt32
  requestID : UInt32
  deriving DecidableEq, Repr

/-- The arguments of a `LifecycleRequestComplete` message. -/
structure LifecycleRequestComplete where
  requestId : UInt32
  status : UInt32
  deriving DecidableEq, Repr

/-- The main loop with the messages it has exchanged with the node state manager. -/
structure Lifecycle where
  mainLoop : MainLoop := {}
  /-- the requests answered and the answer of each -/
  replies : List (LifecycleRequest × Int32) := []
  sent : List LifecycleRequestComplete := []

section Requests

def checkLcRequest (written : Bool) (message : LifecycleRequest) (s : MainLoop) :
    Int32 × MainLoop :=
  if message.request = nsmShutdownNormal then
    let data : MainLoopData :=
      { cmd := .lcPrepareShutdown, param0 := message.request, param1 := message.requestID }
    let (rval, s) := deliverToMainloopNM written data s
    (if rval = -1 then nsmErrorStatusFail else nsmErrorStatusOk, s)
  else (0, s)

/-- `none` stands for a message whose arguments cannot be read: it gets an error
reply and is left to other handlers. -/
def msgLifecycleRequest (written : Bool) (message : Option LifecycleRequest) (s : Lifecycle) :
    Lifecycle :=
  match message with
  | none => s
  | some message =>
    { s with
      replies := s.replies ++ [(message, nsmErrorStatusResponsePending)]
      mainLoop := (checkLcRequest written message s.mainLoop).2 }

def processSendLifecycleRequest (requestId status : UInt32) : LifecycleRequestComplete :=
  ⟨requestId, status⟩

/-- What `dispatchInternalCommand` sends to the node state manager for a command. -/
def MainLoopData.response (data : MainLoopData) : Option LifecycleRequestComplete :=
  if data.cmd = .lcPrepareShutdown then
    if data.param1 = 0 then none
    else some (processSendLifecycleRequest data.param1 data.param0)
  else none

/-- One turn of `mainLoop` with what it sends. -/
def lifecycleTurn (s : Lifecycle) : Lifecycle :=
  if s.mainLoop.quit then s
  else match s.mainLoop.pipe with
    | [] => s
    | data :: _ =>
      { s with mainLoop := mainLoopTurn s.mainLoop, sent := s.sent ++ data.response.toList }

end Requests

section Runs

/-- A command of another source; all internal shutdowns carry the marker. -/
def InternalCommand : Type :=
  { data : MainLoopData // data.cmd = .lcPrepareShutdown → data.param1 = 0 }

inductive LifecycleEvent
  | message (args : Option LifecycleRequest)
  | command (data : InternalCommand)
  | dispatch

/-- The main loop itself reads the messages, so none is handled once it has ended. -/
def lifecycleStep (s : Lifecycle) : LifecycleEvent → Lifecycle
  | .message args => if s.mainLoop.quit then s else msgLifecycleRequest true args s
  | .command data => { s with mainLoop := (deliverToMainloopNM true data.1 s.mainLoop).2 }
  | .dispatch => lifecycleTurn s

/-- The requests that were promised a response. -/
def Lifecycle.promised (s : Lifecycle) : List LifecycleRequest :=
  (s.replies.filter fun reply => reply.2 = nsmErrorStatusResponsePending).map Prod.fst

/-- A request that becomes a command with a response. -/
def LifecycleRequest.Proper (message : LifecycleRequest) : Prop :=
  message.request = nsmShutdownNormal ∧ message.requestID ≠ 0

instance (message : LifecycleRequest) : Decidable message.Proper := by
  unfold LifecycleRequest.Proper
  infer_instance

/-- Each response promised is sent once, and no other. -/
def Lifecycle.Answered (s : Lifecycle) : Prop :=
  (s.sent.map (·.requestId)).Perm (s.promised.map (·.requestID))

instance (s : Lifecycle) : Decidable s.Answered := by
  unfold Lifecycle.Answered
  infer_instance

/-- The responses sent and those in the pipe, in order, are those of the proper requests. -/
def Lifecycle.InOrder (s : Lifecycle) : Prop :=
  (s.sent ++ s.mainLoop.pipe.filterMap MainLoopData.response).map (·.requestId) =
    (s.promised.filter LifecycleRequest.Proper).map (·.requestID)

end Runs

section Preservation

variable {s : Lifecycle}

theorem response_command (data : InternalCommand) : data.1.response = none := by
  unfold MainLoopData.response
  split
  · exact if_pos (data.2 ‹_›)
  · rfl

theorem pipe_deliver (data : MainLoopData) (s : MainLoop) :
    (deliverToMainloopNM true data s).2.pipe = s.pipe ++ [data] := rfl

theorem promised_msgLifecycleRequest (message : LifecycleRequest) :
    (msgLifecycleRequest true (some message) s).promised = s.promised ++ [message] := by
  simp [msgLifecycleRequest, Lifecycle.promised]

theorem inOrder_start : Lifecycle.InOrder {} := rfl

theorem Lifecycle.InOrder.message (h : s.InOrder) (message : LifecycleRequest) :
    (msgLifecycleRequest true (some message) s).InOrder := by
  have hpipe : (checkLcRequest true message s.mainLoop).2.pipe.filterMap MainLoopData.response =
      s.mainLoop.pipe.filterMap MainLoopData.response ++
        if message.Proper then [⟨message.requestID, message.request⟩] else [] := by
    unfold checkLcRequest
    split
    · rename_i hknown
      simp only [pipe_deliver, List.filterMap_append]
      congr 1
      by_cases hmarker : message.requestID = 0 <;>
        simp [MainLoopData.response, LifecycleRequest.Proper, processSendLifecycleRequest,
          hknown, hmarker]
    · rename_i hunknown
      simp [LifecycleRequest.Proper, hunknown]
  unfold Lifecycle.InOrder at h ⊢
  rw [promised_msgLifecycleRequest]
  simp only [msgLifecycleRequest, hpipe, List.filter_append, List.map_append, ← h,
    List.append_assoc]
  congr 2
  by_cases hproper : message.Proper <;> simp [hproper]

theorem Lifecycle.InOrder.command (h : s.InOrder) (data : InternalCommand) :
    (lifecycleStep s (.command data)).InOrder := by
  unfold Lifecycle.InOrder at h ⊢
  simp only [lifecycleStep, pipe_deliver, List.filterMap_append, List.filterMap_cons,
    response_command, List.filterMap_nil, List.append_nil]
  exact h

/-- The response of the oldest command moves from the pipe to the messages sent. -/
theorem Lifecycle.InOrder.turn (h : s.InOrder) : (lifecycleTurn s).InOrder := by
  unfold lifecycleTurn
  split
  · exact h
  · rename_i hquit
    split
    · exact h
    · rename_i data rest hpipe
      unfold Lifecycle.InOrder at h ⊢
      rw [hpipe, List.filterMap_cons] at h
      simp only [pipe_mainLoopTurn hquit hpipe, List.append_assoc]
      cases hresponse : data.response with
      | none =>
        simp only [hresponse] at h
        exact h
      | some response =>
        simp only [hresponse] at h
        exact h

theorem Lifecycle.InOrder.step (h : s.InOrder) (e : LifecycleEvent) :
    (lifecycleStep s e).InOrder := by
  cases e with
  | message args =>
    simp only [lifecycleStep]
    split
    · exact h
    · cases args with
      | none => exact h
      | some message => exact h.message message
  | command data => exact h.command data
  | dispatch => exact h.turn

/-- Once the pipe is drained, exactly the proper requests have had their response. -/
theorem Lifecycle.InOrder.answered_iff (h : s.InOrder) (hdrained : s.mainLoop.pipe = []) :
    s.Answered ↔ ∀ message ∈ s.promised, message.Proper := by
  unfold Lifecycle.InOrder at h
  rw [hdrained, List.filterMap_nil, List.append_nil] at h
  unfold Lifecycle.Answered
  rw [h]
  constructor
  · intro hperm
    have hlength := hperm.length_eq
    rw [List.length_map, List.length_map, List.length_filter_eq_length_iff] at hlength
    exact fun message hmem => of_decide_eq_true (hlength message hmem)
  · intro hproper
    rw [List.filter_eq_self.mpr fun message hmem => decide_eq_true (hproper message hmem)]

end Preservation

/-- In a run that has drained the pipe, each promised response is sent once and
no other, exactly when every promise was made for a normal shutdown with a
request number other than 0. -/
theorem responses_sent_iff (es : List LifecycleEvent)
    (hdrained : (run lifecycleStep {} es).mainLoop.pipe = []) :
    (run lifecycleStep {} es).Answered ↔
      ∀ message ∈ (run lifecycleStep {} es).promised, message.Proper := by
  have hstep : ∀ (s : Lifecycle) (e : LifecycleEvent), s.InOrder → (lifecycleStep s e).InOrder :=
    fun _ e h => h.step e
  exact (run_invariant_of_forall hstep inOrder_start es).answered_iff hdrained

/-- A normal shutdown with the request number 0 is taken for an internal one. -/
theorem request_zero_not_answered :
    ¬ ∀ es : List LifecycleEvent, (run lifecycleStep {} es).mainLoop.pipe = [] →
      (run lifecycleStep {} es).Answered := by
  intro h
  exact absurd (h [.message (some ⟨nsmShutdownNormal, 0⟩), .dispatch] rfl) (by decide)

theorem request_five_answered :
    (run lifecycleStep {} [.message (some ⟨nsmShutdownNormal, 5⟩), .dispatch]).Answered ↔
      ∀ message ∈ (run lifecycleStep {} [.message (some ⟨nsmShutdownNormal, 5⟩),
        .dispatch]).promised, message.Proper :=
  responses_sent_iff _ rfl

end PersClient.Access
