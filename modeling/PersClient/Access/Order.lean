import PersClient.Access.MainLoop
import PersClient.Lib.Steps

/-! # The order of block and unblock requests

The access is locked once the queue is empty exactly when it was locked or
about to be right after the last accepted request. Only a request that changes
this promise as its kind asks takes effect in order.
-/

namespace PersClient.Access

open Steps

/-- What may happen next: a request of either source, another command for the
main loop, or a turn of the main loop. A turn reads a command and dispatches it,
so the pipe stands for the commands that are accepted and not dispatched. -/
inductive Event
  | pasRequest (written : Bool) (request requestID : UInt32)
  | lifecycleSet (written : Bool) (shutdown : Int32)
  | otherCommand (data : { data : MainLoopData // ¬ data.Blocks })
  | dispatch

def step (s : MainLoop) : Event → MainLoop
  | .pasRequest written request requestID => (checkPasRequest written request requestID s).2
  | .lifecycleSet written shutdown => (pclLifecycleSet written shutdown s).2
  | .otherCommand data => (deliverToMainloopNM true data.1 s).2
  | .dispatch => mainLoopTurn s

inductive Kind
  | block
  | unblock
  deriving DecidableEq, Repr

def accepted? (s : MainLoop) : Event → Option Kind
  | .pasRequest written request requestID =>
    if (checkPasRequest written request requestID s).1 = pasErrorStatusFail then none
    else if request = pasMsgUnblock then some .unblock else some .block
  | .lifecycleSet written shutdown =>
    if (pclLifecycleSet written shutdown s).1 < 0 then none
    else if shutdown = pclShutdownCancel then some .unblock else some .block
  | .otherCommand _ | .dispatch => none

def lastRequest (s : MainLoop) (es : List Event) : Option (MainLoop × Event) :=
  lastStep step (fun s e => (accepted? s e).isSome) s es

/-- The last accepted request was a block request. -/
def LastIsBlock (s : MainLoop) (es : List Event) : Prop :=
  ∃ t e, lastRequest s es = some (t, e) ∧ accepted? t e = some .block

/-- A block command waits in the pipe. -/
def BlockPending (s : MainLoop) : Prop := ∃ data ∈ s.pipe, data.Blocks

instance (s : MainLoop) : Decidable (BlockPending s) := by
  unfold BlockPending
  infer_instance

/-- The access is locked, or will be when the pipe has drained. -/
def WillLock (s : MainLoop) : Prop := Locked s ∨ BlockPending s

/-- The pipe takes the command of the event, if it has one. -/
def Event.written : Event → Bool
  | .pasRequest written _ _ => written
  | .lifecycleSet written _ => written
  | .otherCommand _ | .dispatch => true

/-- A request is in order in a state: a block request reaches the pipe or finds
the access locked or about to be; an unblock request finds no block command
waiting and a counter it does not take back to the locked value. -/
def InOrder (s : MainLoop) (e : Event) : Prop :=
  match accepted? s e with
  | some .block => e.written = true ∨ WillLock s
  | some .unblock => ¬ BlockPending s ∧ s.gLockAccess ≠ 2
  | none => True

/-- The last accepted request of a run, if there is one, was in order. -/
def LastInOrder (s : MainLoop) (es : List Event) : Prop :=
  ∀ t e, lastRequest s es = some (t, e) → InOrder t e

section Effects

variable {s : MainLoop}

theorem accepted_pasRequest (written : Bool) (request requestID : UInt32) :
    accepted? s (.pasRequest written request requestID) =
      if request = pasMsgBlock ||| pasMsgWriteBack then
        if written then some .block else none
      else if request = pasMsgUnblock then some .unblock else none := by
  unfold accepted? checkPasRequest deliverToMainloopNM
  by_cases hb : request = pasMsgBlock ||| pasMsgWriteBack
  · subst hb
    cases written <;> rfl
  · by_cases hu : request = pasMsgUnblock
    · subst hu
      rfl
    · simp [hb, hu]

theorem accepted_lifecycleSet (written : Bool) (shutdown : Int32) :
    accepted? s (.lifecycleSet written shutdown) =
      if s.gShutdownMode = pclShutdownTypeNone then
        if shutdown = pclShutdown then some .block
        else if shutdown = pclShutdownCancel ∧
          s.gCancelCounter < Int32.ofNat shutdownMaxCount then some .unblock
        else none
      else none := by
  unfold accepted? pclLifecycleSet
  by_cases hm : s.gShutdownMode = pclShutdownTypeNone
  · by_cases hb : shutdown = pclShutdown
    · subst hb
      simp [hm, pclShutdown, pclShutdownCancel]
    · by_cases hu : shutdown = pclShutdownCancel
      · subst hu
        by_cases hc : s.gCancelCounter < Int32.ofNat shutdownMaxCount <;>
          simp [hm, hb, hc, epersShutdownMaxCancel]
      · simp [hm, hb, hu, epersCommon]
  · simp [hm, epersShutdownNoPermit]

theorem willLock_deliver (data : MainLoopData) (counter : Int32) :
    WillLock { s with pipe := s.pipe ++ [data], gCancelCounter := counter } ↔
      data.Blocks ∨ WillLock s := by
  simp only [WillLock, BlockPending, Locked, isAccessLocked, List.mem_append,
    List.mem_singleton, or_and_right, exists_or, exists_eq_left]
  rw [← or_assoc, or_comm]

theorem willLock_persUnlockAccess :
    WillLock (persUnlockAccess s) ↔ s.gLockAccess = 2 ∨ BlockPending s := by
  have h : s.gLockAccess - 1 = 1 ↔ s.gLockAccess = 2 := by
    exact Int32.sub_eq_iff_eq_add
  exact or_congr h Iff.rfl

theorem willLock_mainLoopTurn : WillLock (mainLoopTurn s) ↔ WillLock s := by
  unfold mainLoopTurn
  split
  · exact Iff.rfl
  · split
    · exact Iff.rfl
    · rename_i data rest hpipe
      have hpending : BlockPending s ↔ data.Blocks ∨ ∃ d ∈ rest, d.Blocks := by
        simp [BlockPending, hpipe]
      have hlocked : ∀ t : MainLoop, t.gLockAccess = 0 + 1 → WillLock t := fun t h => Or.inl h
      simp only [WillLock, hpending, MainLoopData.Blocks]
      cases hcmd : data.cmd with
      | pasBlockAndWriteBack =>
        exact iff_of_true (hlocked _ (by simp [dispatchInternalCommand, hcmd,
          processBlockAndWriteDataBack, persLockAccess])) (by simp)
      | lcPrepareShutdown =>
        refine iff_of_true (hlocked _ ?_) (by simp)
        simp only [dispatchInternalCommand, hcmd]
        split <;> rfl
      | _ => simp [dispatchInternalCommand, hcmd, BlockPending, MainLoopData.Blocks, Locked,
          isAccessLocked]

theorem willLock_step (s : MainLoop) (e : Event) :
    WillLock (step s e) ↔
      match accepted? s e with
      | some .block => e.written = true ∨ WillLock s
      | some .unblock => s.gLockAccess = 2 ∨ BlockPending s
      | none => WillLock s := by
  cases e with
  | pasRequest written request requestID =>
    rw [accepted_pasRequest]
    unfold step checkPasRequest
    by_cases hb : request = pasMsgBlock ||| pasMsgWriteBack
    · cases written with
      | true =>
        simp only [hb, if_true, deliverToMainloopNM, Event.written, true_or, iff_true]
        exact (willLock_deliver _ s.gCancelCounter).mpr (Or.inl (Or.inl rfl))
      | false => simp [hb, deliverToMainloopNM]
    · by_cases hu : request = pasMsgUnblock
      · simp only [hu, if_true]
        exact willLock_persUnlockAccess
      · simp [hb, hu]
  | lifecycleSet written shutdown =>
    rw [accepted_lifecycleSet]
    unfold step pclLifecycleSet
    by_cases hm : s.gShutdownMode = pclShutdownTypeNone
    · by_cases hb : shutdown = pclShutdown
      · cases written with
        | true =>
          simp only [hm, hb, if_true, deliverToMainloopNM, Event.written, true_or, iff_true]
          exact (willLock_deliver _ (s.gCancelCounter + 1)).mpr (Or.inl (Or.inr rfl))
        | false =>
          simp only [hm, hb, if_true, deliverToMainloopNM, Event.written, Bool.false_eq_true,
            if_false, false_or]
          rfl
      · by_cases hu : shutdown = pclShutdownCancel
        · by_cases hc : s.gCancelCounter < Int32.ofNat shutdownMaxCount
          · simp only [hm, hu, hc, if_true, and_self]
            exact willLock_persUnlockAccess
          · simp [hm, hu, hc, pclShutdown, pclShutdownCancel]
        · simp [hm, hb, hu]
    · simp [hm]
  | otherCommand data =>
    simp only [accepted?, step, deliverToMainloopNM, if_true]
    exact (willLock_deliver data.1 s.gCancelCounter).trans (or_iff_right data.2)
  | dispatch => exact willLock_mainLoopTurn

end Effects

section Runs

variable {s : MainLoop}

theorem willLock_iff_locked (h : s.pipe = []) : WillLock s ↔ Locked s := by
  simp [WillLock, BlockPending, h]

theorem lastRequest_concat (es : List Event) (e : Event) :
    lastRequest s (es ++ [e]) =
      bif (accepted? (run step s es) e).isSome then some (run step s es, e)
      else lastRequest s es :=
  lastStep_concat step _ s es e

/-- The promise at the end of a run is the one the last accepted request left;
without one it is still the promise of the start. -/
theorem willLock_run (es : List Event) :
    WillLock (run step s es) ↔
      match lastRequest s es with
      | some (t, e) => WillLock (step t e)
      | none => WillLock s := by
  induction es using List.reverseRecOn with
  | nil => exact Iff.rfl
  | append_singleton es e ih =>
    rw [run_concat, lastRequest_concat]
    cases hacc : accepted? (run step s es) e with
    | none =>
      rw [willLock_step, hacc]
      exact ih
    | some k => exact Iff.rfl

theorem accepted_of_lastRequest {es : List Event} {t : MainLoop} {e : Event}
    (h : lastRequest s es = some (t, e)) : ∃ k, accepted? t e = some k := by
  induction es using List.reverseRecOn with
  | nil => cases h
  | append_singleton es f ih =>
    rw [lastRequest_concat] at h
    cases hacc : accepted? (run step s es) f with
    | none => exact ih (by simpa [hacc] using h)
    | some k =>
      simp only [hacc, Option.isSome_some, cond_true, Option.some.injEq, Prod.mk.injEq] at h
      exact ⟨k, by rw [← h.1, ← h.2, hacc]⟩

/-- An accepted request leaves the promise of its kind exactly when it was in order. -/
theorem willLock_step_iff_inOrder {e : Event} {k : Kind} (h : accepted? s e = some k) :
    (WillLock (step s e) ↔ k = .block) ↔ InOrder s e := by
  rw [willLock_step]
  cases k with
  | block => simp [InOrder, h]
  | unblock =>
    simp only [InOrder, h, reduceCtorEq, iff_false, not_or]
    exact and_comm

theorem lastIsBlock_iff {es : List Event} {t : MainLoop} {e : Event}
    (h : lastRequest s es = some (t, e)) : LastIsBlock s es ↔ accepted? t e = some .block := by
  constructor
  · rintro ⟨t', e', h', ha⟩
    rw [h] at h'
    cases h'
    exact ha
  · exact fun ha => ⟨t, e, h, ha⟩

theorem lastInOrder_iff {es : List Event} {t : MainLoop} {e : Event}
    (h : lastRequest s es = some (t, e)) : LastInOrder s es ↔ InOrder t e := by
  constructor
  · exact fun hall => hall t e h
  · rintro ho t' e' h'
    rw [h] at h'
    cases h'
    exact ho

/-- Whenever the queue is empty, the access is locked exactly if the most recent
accepted request was a block request, provided that request was in order, and
only then. -/
theorem locked_iff_lastIsBlock_iff (hlock : ¬ Locked s) (hpipe : ¬ BlockPending s)
    (es : List Event) (hempty : (run step s es).pipe = []) :
    (Locked (run step s es) ↔ LastIsBlock s es) ↔ LastInOrder s es := by
  rw [← willLock_iff_locked hempty, willLock_run]
  cases hlast : lastRequest s es with
  | none =>
    have hstart : ¬ WillLock s := by
      rintro (h | h)
      · exact hlock h
      · exact hpipe h
    simp [hstart, LastIsBlock, LastInOrder, hlast]
  | some te =>
    obtain ⟨t, e⟩ := te
    obtain ⟨k, hk⟩ := accepted_of_lastRequest hlast
    rw [lastIsBlock_iff hlast, lastInOrder_iff hlast, hk, Option.some.injEq]
    exact willLock_step_iff_inOrder hk

/-- Block, unblock, and only then the turn that dispatches the block command. -/
theorem cancelled_shutdown_locks :
    ¬ ∀ es : List Event, (run step {} es).pipe = [] →
      (Locked (run step {} es) ↔ LastIsBlock {} es) := by
  intro h
  have h := h [.lifecycleSet true pclShutdown, .lifecycleSet true pclShutdownCancel, .dispatch] rfl
  obtain ⟨t, e, hlast, hkind⟩ := h.mp (by decide)
  have : (t, e) = (run step {} [.lifecycleSet true pclShutdown],
      .lifecycleSet true pclShutdownCancel) := (Option.some.inj hlast).symm
  simp only [Prod.mk.injEq] at this
  rw [this.1, this.2] at hkind
  exact absurd hkind (by decide)

/-- The same requests with the turn between them end unlocked. -/
theorem dispatched_shutdown_unlocks :
    let es : List Event :=
      [.lifecycleSet true pclShutdown, .dispatch, .lifecycleSet true pclShutdownCancel]
    (Locked (run step {} es) ↔ LastIsBlock {} es) ↔ LastInOrder {} es :=
  locked_iff_lastIsBlock_iff (by decide) (by decide) _ (by decide)

end Runs

end PersClient.Access
