import PersClient.Access.Lifecycle
import PersClient.Access.Notification

/-! # Administration requests

The administration service asks for a block, waits for the message that the
block is complete, works on the data and asks for the access to be unblocked.
A block is announced before it is queued and completed when the main loop has
locked the access, which takes it two stores. A function that looks at the lock
does so once and modifies data behind the check, so the calls that are behind it
at the time may still do so, and so may those that look between the two stores
of another block. Not all functions look.
-/

namespace PersClient.Access

open Steps

variable {τ : Type*}

/-- The arguments of a `PersistenceAdminRequest` message. -/
structure PersistenceAdminRequest where
  request : Int32
  requestID : Int32
  deriving DecidableEq, Repr

/-- The arguments of a `PersistenceAdminRequestCompleted` message. -/
structure PersistenceAdminRequestCompleted where
  requestID : UInt32
  status : Int32
  deriving DecidableEq, Repr

/-- A message to the object of the library; `none` are arguments that cannot be read. -/
structure AdminMessage where
  interface : CStr
  member : CStr
  args : Option PersistenceAdminRequest
  deriving DecidableEq, Repr

inductive HandlerResult
  | handled
  | notYetHandled
  deriving DecidableEq, Repr

inductive EntryPoint
  | keyDelete
  | keyGetSize
  | keyReadData
  | keyWriteData
  | keyHandleOpen
  | keyHandleClose
  | keyHandleGetSize
  | keyHandleReadData
  | keyHandleWriteData
  | keyRegisterNotifyOnChange
  | keyUnRegisterNotifyOnChange
  | keyHandleRegisterNotifyOnChange
  | keyHandleUnRegisterNotifyOnChange
  | fileOpen
  | fileClose
  | fileGetSize
  | fileReadData
  | fileWriteData
  | fileSeek
  | fileRemove
  | fileMapData
  | fileUnmapData
  | fileCreatePath
  | fileReleasePath
  deriving DecidableEq, Repr

/-- The function looks at the lock before it does anything. -/
def EntryPoint.looks : EntryPoint → Bool
  | keyDelete | keyReadData | keyWriteData | keyHandleReadData | keyHandleWriteData
  | fileWriteData | fileSeek | fileRemove | fileMapData | fileUnmapData => true
  | keyGetSize | keyHandleOpen | keyHandleClose | keyHandleGetSize | keyRegisterNotifyOnChange
  | keyUnRegisterNotifyOnChange | keyHandleRegisterNotifyOnChange
  | keyHandleUnRegisterNotifyOnChange | fileOpen | fileClose | fileGetSize | fileReadData
  | fileCreatePath | fileReleasePath => false

/-- The main loop with the messages it has exchanged with the administration
service, and the calls of the threads. -/
structure Administration (τ : Type*) where
  mainLoop : MainLoop := {}
  /-- the command the main loop is dispatching, between the two stores of its lock -/
  dispatching : Option MainLoopData := none
  /-- the requests answered and the answer of each -/
  replies : List (PersistenceAdminRequest × UInt32) := []
  sent : List PersistenceAdminRequestCompleted := []
  /-- the call each thread is in, behind its look at the lock if it takes one -/
  inside : τ → Option EntryPoint := fun _ => none
  /-- who has modified data in which function, in order -/
  modified : List (τ × EntryPoint) := []

section Source

def gDbusPersAdminConsMsg : CStr := cstr "PersistenceAdminRequest"

/-- `msg_persAdminRequest`; a message that cannot be read gets an error reply. -/
def msgPersAdminRequest (written : Bool) (args : Option PersistenceAdminRequest)
    (s : Administration τ) : HandlerResult × Administration τ :=
  match args with
  | none => (.notYetHandled, s)
  | some message =>
    let (errorReturn, mainLoop) :=
      checkPasRequest written message.request.toUInt32 message.requestID.toUInt32 s.mainLoop
    (.handled, { s with mainLoop, replies := s.replies ++ [(message, errorReturn)] })

def checkPersAdminMsg (written : Bool) (message : AdminMessage) (s : Administration τ) :
    HandlerResult × Administration τ :=
  if message.interface = gDbusPersAdminConsInterface then
    if message.member = gDbusPersAdminConsMsg then msgPersAdminRequest written message.args s
    else (.notYetHandled, s)
  else (.notYetHandled, s)

def processSendPasRequest (requestID : UInt32) (status : Int32) :
    PersistenceAdminRequestCompleted := ⟨requestID, status⟩

/-- What `dispatchInternalCommand` sends to the administration service for a command. -/
def MainLoopData.completion (data : MainLoopData) : Option PersistenceAdminRequestCompleted :=
  if data.cmd = .pasBlockAndWriteBack then
    some (processSendPasRequest data.param1 data.param0.toInt32)
  else none

/-- The two stores of `pers_lock_access`; other threads may act in between. -/
def persLockReset (s : MainLoop) : MainLoop := { s with gLockAccess := 0 }

def persLockAdd (s : MainLoop) : MainLoop := { s with gLockAccess := s.gLockAccess + 1 }

theorem persLockAdd_persLockReset (s : MainLoop) :
    persLockAdd (persLockReset s) = persLockAccess s := rfl

/-- `mainLoop` reads a command. With one that blocks it gets as far as the first store. -/
def beginDispatch (s : Administration τ) : Administration τ :=
  if s.mainLoop.quit ∨ s.dispatching.isSome then s
  else match s.mainLoop.pipe with
    | [] => s
    | data :: rest =>
      if data.Blocks then
        { s with
          mainLoop := persLockReset { s.mainLoop with pipe := rest }
          dispatching := some data }
      else { s with mainLoop := mainLoopTurn s.mainLoop }

/-- The second store, and what is sent behind it. -/
def endDispatch (s : Administration τ) : Administration τ :=
  match s.dispatching with
  | none => s
  | some data =>
    { s with
      mainLoop := persLockAdd s.mainLoop
      dispatching := none
      sent := s.sent ++ data.completion.toList }

/-- With nobody in between, the two make one turn of the main loop. -/
theorem endDispatch_beginDispatch {s : Administration τ} (hnone : s.dispatching = none) :
    (endDispatch (beginDispatch s)).mainLoop = mainLoopTurn s.mainLoop := by
  unfold beginDispatch mainLoopTurn
  by_cases hquit : s.mainLoop.quit
  · rw [if_pos (Or.inl hquit), if_pos hquit, endDispatch, hnone]
  · rw [if_neg (by simp [hquit, hnone]), if_neg hquit]
    cases hpipe : s.mainLoop.pipe with
    | nil =>
      dsimp only
      rw [endDispatch, hnone]
    | cons data rest =>
      dsimp only
      by_cases hblocks : data.Blocks
      · rw [if_pos hblocks, endDispatch]
        dsimp only
        rw [persLockAdd_persLockReset]
        rcases hblocks with hcmd | hcmd
        · rw [dispatchInternalCommand, hcmd]
          rfl
        · rw [dispatchInternalCommand, hcmd]
          dsimp only
          split <;> rfl
      · rw [if_neg hblocks, endDispatch]
        dsimp only
        rw [hnone]

end Source

section Runs

inductive AdminEvent (τ : Type*)
  | message (written : Bool) (message : AdminMessage)
  | lifecycleSet (written : Bool) (shutdown : Int32)
  /-- a command of another source -/
  | command (data : { data : MainLoopData // data.cmd ≠ .pasBlockAndWriteBack })
  | beginDispatch
  | endDispatch
  | enter (t : τ) (function : EntryPoint)
  | modify (t : τ)
  | leave (t : τ)

/-- The main loop itself reads the messages, so none is handled while it
dispatches a command or once it has ended. -/
def administrationStep [DecidableEq τ] (s : Administration τ) : AdminEvent τ → Administration τ
  | .message written message =>
    if s.mainLoop.quit ∨ s.dispatching.isSome then s else (checkPersAdminMsg written message s).2
  | .lifecycleSet written shutdown =>
    { s with mainLoop := (pclLifecycleSet written shutdown s.mainLoop).2 }
  | .command data => { s with mainLoop := (deliverToMainloopNM true data.1 s.mainLoop).2 }
  | .beginDispatch => beginDispatch s
  | .endDispatch => endDispatch s
  | .enter t function =>
    if (s.inside t).isSome ∨ function.looks ∧ Locked s.mainLoop then s
    else { s with inside := Function.update s.inside t (some function) }
  | .modify t =>
    match s.inside t with
    | some function => { s with modified := s.modified ++ [(t, function)] }
    | none => s
  | .leave t => { s with inside := Function.update s.inside t none }

/-- The event may unlock the access. -/
def AdminEvent.unblocks : AdminEvent τ → Bool
  | .message _ received => received.args.any fun args => args.request.toUInt32 = pasMsgUnblock
  | .lifecycleSet _ shutdown => shutdown = pclShutdownCancel
  | _ => false

/-- The main loop begins another block. -/
def Administration.Reblocks (s : Administration τ) (e : AdminEvent τ) : Prop :=
  e = .beginDispatch ∧ ∃ data rest, s.mainLoop.pipe = data :: rest ∧ data.Blocks

/-- The commands that are not dispatched to their end. -/
def Administration.underway (s : Administration τ) : List MainLoopData :=
  s.dispatching.toList ++ s.mainLoop.pipe

/-- The completion a request asks for. -/
def PersistenceAdminRequest.completed (r : PersistenceAdminRequest) :
    PersistenceAdminRequestCompleted := ⟨r.requestID.toUInt32, r.request⟩

/-- The requests that were promised a completion. -/
def Administration.promised (s : Administration τ) : List PersistenceAdminRequest :=
  (s.replies.filter fun reply => reply.2 = pasErrorStatusRespPend).map Prod.fst

end Runs

section Completions

variable {s : Administration τ}

/-- The completions sent and those underway are, in order, those promised. -/
def Administration.InOrder (s : Administration τ) : Prop :=
  s.sent ++ s.underway.filterMap MainLoopData.completion =
    s.promised.map PersistenceAdminRequest.completed

theorem completion_of_ne {data : MainLoopData} (h : data.cmd ≠ .pasBlockAndWriteBack) :
    data.completion = none := if_neg h

theorem checkPersAdminMsg_cases (written : Bool) (message : AdminMessage) :
    (checkPersAdminMsg written message s).2 = s ∨ ∃ args, message.args = some args ∧
      (checkPersAdminMsg written message s).2 = (msgPersAdminRequest written (some args) s).2 := by
  unfold checkPersAdminMsg
  by_cases hinterface : message.interface = gDbusPersAdminConsInterface
  · by_cases hmember : message.member = gDbusPersAdminConsMsg
    · rw [if_pos hinterface, if_pos hmember]
      cases message.args with
      | none => exact Or.inl rfl
      | some args => exact Or.inr ⟨args, rfl, rfl⟩
    · rw [if_pos hinterface, if_neg hmember]
      exact Or.inl rfl
  · rw [if_neg hinterface]
    exact Or.inl rfl

theorem checkPasRequest_completions (written : Bool) (r : PersistenceAdminRequest) (m : MainLoop) :
    (checkPasRequest written r.request.toUInt32 r.requestID.toUInt32 m).2.pipe.filterMap
        MainLoopData.completion =
      m.pipe.filterMap MainLoopData.completion ++
        if (checkPasRequest written r.request.toUInt32 r.requestID.toUInt32 m).1 =
          pasErrorStatusRespPend then [r.completed] else [] := by
  have hfail : pasErrorStatusFail ≠ pasErrorStatusRespPend := by decide
  unfold checkPasRequest
  by_cases hblock : r.request.toUInt32 = pasMsgBlock ||| pasMsgWriteBack
  · rw [if_pos hblock]
    cases written with
    | true =>
      simp [deliverToMainloopNM, MainLoopData.completion, processSendPasRequest,
        PersistenceAdminRequest.completed]
    | false =>
      simp only [deliverToMainloopNM, Bool.false_eq_true, if_false, if_true, if_neg hfail,
        List.append_nil]
  · rw [if_neg hblock]
    split
    · simp [pasErrorStatusOk, pasErrorStatusRespPend, persUnlockAccess]
    · rw [List.append_nil]

theorem Administration.InOrder.message (h : s.InOrder) (written : Bool)
    (message : PersistenceAdminRequest) :
    (msgPersAdminRequest written (some message) s).2.InOrder := by
  have hpipe := checkPasRequest_completions written message s.mainLoop
  unfold Administration.InOrder Administration.promised Administration.underway at h ⊢
  simp only [msgPersAdminRequest]
  rw [List.filterMap_append, hpipe, ← List.append_assoc, ← List.append_assoc, List.append_assoc s.sent,
    ← List.filterMap_append, h, List.filter_append, List.map_append, List.map_append,
    List.append_cancel_left_eq]
  split
  · rename_i hpend
    simp [hpend]
  · rename_i hno
    simp [hno]

theorem Administration.InOrder.beginDispatch (h : s.InOrder) : (beginDispatch s).InOrder := by
  unfold Access.beginDispatch
  split
  · exact h
  · rename_i hfree
    rw [not_or, Option.not_isSome_iff_eq_none] at hfree
    obtain ⟨hquit, hnone⟩ := hfree
    split
    · exact h
    · rename_i data rest hpipe
      unfold Administration.InOrder Administration.underway at h ⊢
      rw [hnone, hpipe] at h
      split
      · exact h
      · rename_i hblocks
        have hcompletion : data.completion = none := completion_of_ne fun hcmd => hblocks (Or.inl hcmd)
        rw [List.filterMap_append, List.filterMap_cons, hcompletion] at h
        rw [hnone, List.filterMap_append, pipe_mainLoopTurn hquit hpipe]
        exact h

theorem Administration.InOrder.endDispatch (h : s.InOrder) : (endDispatch s).InOrder := by
  unfold Access.endDispatch
  split
  · exact h
  · rename_i data hdata
    unfold Administration.InOrder Administration.underway at h ⊢
    rw [hdata, Option.toList_some, List.singleton_append, List.filterMap_cons] at h
    rw [List.append_assoc]
    cases hcompletion : data.completion with
    | none =>
      rw [hcompletion] at h
      exact h
    | some completion =>
      rw [hcompletion] at h
      exact h

theorem Administration.InOrder.step [DecidableEq τ] (h : s.InOrder) (e : AdminEvent τ) :
    (administrationStep s e).InOrder := by
  cases e with
  | message written message =>
    simp only [administrationStep]
    split
    · exact h
    · rcases checkPersAdminMsg_cases (s := s) written message with heq | ⟨args, -, heq⟩
      · rw [heq]
        exact h
      · rw [heq]
        exact h.message written args
  | lifecycleSet written shutdown =>
    have hpipe : (pclLifecycleSet written shutdown s.mainLoop).2.pipe.filterMap
        MainLoopData.completion = s.mainLoop.pipe.filterMap MainLoopData.completion := by
      unfold pclLifecycleSet
      split
      · split
        · cases written <;> simp [deliverToMainloopNM, MainLoopData.completion]
        · split
          · split <;> rfl
          · rfl
      · rfl
    unfold Administration.InOrder Administration.underway at h ⊢
    rw [List.filterMap_append] at h ⊢
    simp only [administrationStep, hpipe]
    exact h
  | command data =>
    unfold Administration.InOrder Administration.underway at h ⊢
    simp only [administrationStep, pipe_deliver, ← List.append_assoc, List.filterMap_append,
      List.filterMap_cons, completion_of_ne data.2, List.filterMap_nil, List.append_nil] at h ⊢
    exact h
  | beginDispatch => exact h.beginDispatch
  | endDispatch => exact h.endDispatch
  | enter t function =>
    simp only [administrationStep]
    split <;> exact h
  | modify t =>
    simp only [administrationStep]
    split <;> exact h
  | leave t => exact h

/-- Whatever happens, the completions sent are those of the requests answered with
"response pending", each once and in their order, and those not sent yet are in
the pipe or under dispatch; each names the number and the kind of its request. -/
theorem completions_in_order [DecidableEq τ] (es : List (AdminEvent τ)) :
    (run administrationStep {} es).sent ++
        (run administrationStep {} es).underway.filterMap MainLoopData.completion =
      (run administrationStep {} es).promised.map PersistenceAdminRequest.completed := by
  have hstep : ∀ (s : Administration τ) (e : AdminEvent τ), s.InOrder →
      (administrationStep s e).InOrder := fun _ e h => h.step e
  have hstart : Administration.InOrder ({} : Administration τ) := rfl
  exact run_invariant_of_forall hstep hstart es

end Completions

section Block

variable [DecidableEq τ] {s : Administration τ}

/-- The event ends the call of a thread. -/
def AdminEvent.leaves (t : τ) : AdminEvent τ → Bool
  | .leave u => u = t
  | _ => false

/-- A thread tries to modify data. -/
def AdminEvent.modifies (t : τ) : AdminEvent τ → Bool
  | .modify u => u = t
  | _ => false

def Administration.Held (s : Administration τ) : Prop :=
  s.mainLoop.gLockAccess = if s.dispatching.isSome then 0 else 1

omit [DecidableEq τ] in
theorem Administration.Held.locked (h : s.Held) (hnone : s.dispatching = none) :
    Locked s.mainLoop := by
  unfold Administration.Held at h
  rw [hnone] at h
  exact h

theorem lock_checkPasRequest (m : MainLoop) (written : Bool) {request : UInt32}
    (requestID : UInt32) (hrequest : request ≠ pasMsgUnblock) :
    (checkPasRequest written request requestID m).2.gLockAccess = m.gLockAccess := by
  unfold checkPasRequest
  by_cases hblock : request = pasMsgBlock ||| pasMsgWriteBack
  · rw [if_pos hblock]
    cases written <;> rfl
  · rw [if_neg hblock, if_neg hrequest]

theorem lock_pclLifecycleSet (m : MainLoop) (written : Bool) {shutdown : Int32}
    (hshutdown : shutdown ≠ pclShutdownCancel) :
    (pclLifecycleSet written shutdown m).2.gLockAccess = m.gLockAccess := by
  unfold pclLifecycleSet
  by_cases hmode : m.gShutdownMode = pclShutdownTypeNone
  · rw [if_pos hmode]
    by_cases hset : shutdown = pclShutdown
    · rw [if_pos hset]
      cases written <;> rfl
    · rw [if_neg hset, if_neg hshutdown]
  · rw [if_neg hmode]

theorem lock_mainLoopTurn {m : MainLoop} {data : MainLoopData} {rest : List MainLoopData}
    (hpipe : m.pipe = data :: rest) (hblocks : ¬ data.Blocks) :
    (mainLoopTurn m).gLockAccess = m.gLockAccess := by
  unfold mainLoopTurn
  split
  · rfl
  · rw [hpipe]
    unfold MainLoopData.Blocks at hblocks
    rw [not_or] at hblocks
    simp only [dispatchInternalCommand]
    cases hcmd : data.cmd with
    | pasBlockAndWriteBack => exact absurd hcmd hblocks.1
    | lcPrepareShutdown => exact absurd hcmd hblocks.2
    | _ => rfl

omit [DecidableEq τ] in
theorem Administration.Held.beginDispatch (h : s.Held) : (beginDispatch s).Held := by
  unfold Access.beginDispatch
  split
  · exact h
  · split
    · exact h
    · rename_i data rest hpipe
      split
      · rfl
      · rename_i hblocks
        exact (lock_mainLoopTurn hpipe hblocks).trans h

omit [DecidableEq τ] in
theorem Administration.Held.endDispatch (h : s.Held) : (endDispatch s).Held := by
  unfold Access.endDispatch
  split
  · exact h
  · rename_i data hdata
    unfold Administration.Held at h ⊢
    rw [hdata] at h
    show s.mainLoop.gLockAccess + 1 = 1
    rw [h]
    rfl

theorem Administration.Held.step (h : s.Held) {e : AdminEvent τ} (he : e.unblocks = false) :
    (administrationStep s e).Held := by
  cases e with
  | message written message =>
    simp only [administrationStep]
    split
    · exact h
    · rcases checkPersAdminMsg_cases (s := s) written message with heq | ⟨args, hargs, heq⟩
      · rw [heq]
        exact h
      · have hrequest : args.request.toUInt32 ≠ pasMsgUnblock := by
          simpa [AdminEvent.unblocks, hargs] using he
        rw [heq]
        exact (lock_checkPasRequest s.mainLoop written _ hrequest).trans h
  | lifecycleSet written shutdown =>
    have hshutdown : shutdown ≠ pclShutdownCancel := by simpa [AdminEvent.unblocks] using he
    exact (lock_pclLifecycleSet s.mainLoop written hshutdown).trans h
  | command data => exact h
  | beginDispatch => exact h.beginDispatch
  | endDispatch => exact h.endDispatch
  | enter t function =>
    simp only [administrationStep]
    split <;> exact h
  | modify t =>
    simp only [administrationStep]
    split <;> exact h
  | leave t => exact h

theorem Administration.Held.run (h : s.Held) {es : List (AdminEvent τ)}
    (hes : ∀ e ∈ es, e.unblocks = false) : (run administrationStep s es).Held := by
  induction es generalizing s with
  | nil => exact h
  | cons e es ih =>
    exact ih (h.step (hes e List.mem_cons_self)) fun f hf => hes f (List.mem_cons_of_mem _ hf)

omit [DecidableEq τ] in
theorem held_of_begun (hnone : s.dispatching = none) (hsome : (beginDispatch s).dispatching ≠ none) :
    (beginDispatch s).Held := by
  unfold beginDispatch at hsome ⊢
  split at hsome
  · exact absurd hnone hsome
  · rename_i hfree
    rw [if_neg hfree]
    split at hsome
    · exact absurd hnone hsome
    · rename_i data rest hpipe
      split at hsome
      · rename_i hblocks
        rw [if_pos hblocks]
        rfl
      · exact absurd hnone hsome

section Frames

omit [DecidableEq τ]

variable {written : Bool} {message : AdminMessage}

/-- A message from the bus concerns no call and nothing the main loop is at. -/
theorem checkPersAdminMsg_frame :
    (checkPersAdminMsg written message s).2.inside = s.inside ∧
      (checkPersAdminMsg written message s).2.modified = s.modified ∧
      (checkPersAdminMsg written message s).2.dispatching = s.dispatching := by
  rcases checkPersAdminMsg_cases (s := s) written message with heq | ⟨args, -, heq⟩
  · rw [heq]
    exact ⟨rfl, rfl, rfl⟩
  · rw [heq]
    exact ⟨rfl, rfl, rfl⟩

@[simp] theorem inside_beginDispatch : (beginDispatch s).inside = s.inside := by
  unfold beginDispatch
  split
  · rfl
  · split
    · rfl
    · split <;> rfl

@[simp] theorem modified_beginDispatch : (beginDispatch s).modified = s.modified := by
  unfold beginDispatch
  split
  · rfl
  · split
    · rfl
    · split <;> rfl

@[simp] theorem inside_endDispatch : (endDispatch s).inside = s.inside := by
  unfold endDispatch
  split <;> rfl

@[simp] theorem modified_endDispatch : (endDispatch s).modified = s.modified := by
  unfold endDispatch
  split <;> rfl

end Frames

theorem dispatching_step (hnone : s.dispatching = none) {e : AdminEvent τ} (he : ¬ s.Reblocks e) :
    (administrationStep s e).dispatching = none := by
  cases e with
  | message written message =>
    simp only [administrationStep]
    split
    · exact hnone
    · exact checkPersAdminMsg_frame.2.2.trans hnone
  | beginDispatch =>
    simp only [administrationStep, beginDispatch]
    split
    · exact hnone
    · split
      · exact hnone
      · rename_i data rest hpipe
        rw [if_neg fun hblocks => he ⟨rfl, data, rest, hpipe, hblocks⟩]
        exact hnone
  | endDispatch =>
    simp only [administrationStep, endDispatch, hnone]
  | enter t function =>
    simp only [administrationStep]
    split <;> exact hnone
  | modify t =>
    simp only [administrationStep]
    split <;> exact hnone
  | _ => exact hnone

/-- While the access is locked a thread that is in a function that looks at the
lock can only leave it, and no thread gets into one. -/
theorem inside_step (h : Locked s.mainLoop) (e : AdminEvent τ) (t : τ) {function : EntryPoint}
    (hlooks : function.looks = true) :
    (administrationStep s e).inside t = some function ↔
      s.inside t = some function ∧ e.leaves t = false := by
  cases e with
  | message written message =>
    simp only [administrationStep, AdminEvent.leaves, and_true]
    split
    · rfl
    · rw [checkPersAdminMsg_frame.1]
  | enter u other =>
    simp only [administrationStep, AdminEvent.leaves, and_true]
    split
    · rfl
    · rename_i henter
      rw [not_or, Option.not_isSome_iff_eq_none] at henter
      dsimp only
      rw [Function.update_apply]
      split
      · rename_i htu
        rw [htu, henter.1]
        constructor
        · rintro ⟨⟩
          exact absurd ⟨hlooks, h⟩ henter.2
        · exact nofun
      · rfl
  | modify u =>
    simp only [administrationStep, AdminEvent.leaves, and_true]
    split <;> rfl
  | leave u =>
    simp only [administrationStep, AdminEvent.leaves, Function.update_apply]
    by_cases htu : t = u
    · simp [htu]
    · simp [htu, Ne.symm htu]
  | _ => simp [administrationStep, AdminEvent.leaves]

theorem modified_step (e : AdminEvent τ) (t : τ) (function : EntryPoint) :
    (administrationStep s e).modified.count (t, function) = s.modified.count (t, function) +
      if s.inside t = some function ∧ e.modifies t then 1 else 0 := by
  cases e with
  | message written message =>
    simp only [administrationStep, AdminEvent.modifies, Bool.false_eq_true, and_false, if_false]
    split
    · rfl
    · rw [checkPersAdminMsg_frame.2.1, Nat.add_zero]
  | enter u other =>
    simp only [administrationStep, AdminEvent.modifies, Bool.false_eq_true, and_false, if_false]
    split <;> rfl
  | modify u =>
    simp only [administrationStep, AdminEvent.modifies, decide_eq_true_eq]
    by_cases htu : u = t
    · subst htu
      cases hinside : s.inside u with
      | none => simp
      | some other =>
        by_cases heq : other = function
        · simp [heq]
        · simp [heq]
    · cases hinside : s.inside u <;> simp [htu]
  | _ => simp [administrationStep, AdminEvent.modifies]

/-- What a function that looks at the lock modifies while the access is locked it
modifies in the call its thread is in. -/
theorem modified_run (h : s.Held) (hnone : s.dispatching = none) {es : List (AdminEvent τ)}
    (hes : ∀ e ∈ es, e.unblocks = false)
    (honce : Guarded administrationStep (fun s e => ¬ s.Reblocks e) s es) (t : τ)
    {function : EntryPoint} (hlooks : function.looks = true) :
    (run administrationStep s es).modified.count (t, function) = s.modified.count (t, function) +
      if s.inside t = some function then
        (es.takeWhile fun e => !e.leaves t).countP (·.modifies t)
      else 0 := by
  induction es generalizing s with
  | nil => simp
  | cons e es ih =>
    have hlocked := h.locked hnone
    have hinto := inside_step hlocked e t hlooks
    rw [run_cons, ih (h.step (hes e List.mem_cons_self)) (dispatching_step hnone honce.1)
      (fun f hf => hes f (List.mem_cons_of_mem _ hf)) honce.2, modified_step]
    simp only [hinto]
    by_cases hinside : s.inside t = some function
    · cases hleaves : e.leaves t with
      | false =>
        have htake : (e :: es).takeWhile (fun e => !e.leaves t) =
            e :: es.takeWhile fun e => !e.leaves t := by simp [hleaves]
        rw [htake, List.countP_cons]
        cases e.modifies t <;> simp [hinside, Nat.add_assoc, Nat.add_comm, Nat.add_left_comm]
      | true =>
        have hnot : e.modifies t = false := by
          cases e with
          | leave u => rfl
          | _ => cases hleaves
        simp [hinside, hleaves, hnot]
    · simp [hinside]

/-- A second block opens the access between its stores. -/
example : (run administrationStep {} [.command ⟨{ cmd := .lcPrepareShutdown }, by decide⟩,
    .command ⟨{ cmd := .lcPrepareShutdown }, by decide⟩, .beginDispatch, .endDispatch,
    .enter 0 .fileRemove, .beginDispatch, .enter 1 .fileRemove, .endDispatch,
    .modify (0 : ℕ), .modify 1]).modified = [(1, .fileRemove)] := by decide +kernel

end Block

end PersClient.Access
