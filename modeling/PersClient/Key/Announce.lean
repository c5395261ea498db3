import PersClient.Key.Success

/-! # What is announced of shared keys

A change of a shared key is announced by a command in the pipe to the main
loop. A write that the plugin takes is announced, unless the pipe does not take
the command. A deletion is announced whenever the plugin was asked for it, also
when nothing was deleted.
-/

namespace PersClient.Key

open File Access Steps

variable {W D : Type}

section Operations

inductive SharedChange
  | write (buffer : Bytes) (size : ℤ)
  | delete
  deriving DecidableEq

structure SharedOp where
  frame : CallFrame
  info : PersistenceInfo
  shared : info.configKey.storage = .shared
  dbPath : CStr
  key : CStr
  resourceId : CStr
  change : SharedChange

namespace SharedOp

def perform (S : Setup W) (op : SharedOp) (lib : Library W) : Library W :=
  match op.change with
  | .write buffer size =>
    (persistenceSetData S op.frame op.dbPath op.key op.resourceId op.info buffer size lib).2
  | .delete => (persistenceDeleteData S op.frame op.dbPath op.key op.resourceId op.info lib).2

/-- The command that announces the change. -/
def command (S : Setup W) (op : SharedOp) : MainLoopData :=
  notificationCommand S.com op.resourceId op.info.context
    (match op.change with
      | .write _ _ => .changed
      | .delete => .deleted)

/-- The pipe takes the command of a write the plugin takes; it takes the command
of a deletion the plugin is asked for exactly if the deletion succeeds. -/
def Matched (S : Setup W) (op : SharedOp) (lib : Library W) : Prop :=
  match op.change with
  | .write buffer size =>
    WriteDue S op.info op.dbPath op.key op.resourceId buffer size lib → op.frame.written = true
  | .delete =>
    ∀ result, deletion S op.info op.dbPath op.key lib = some result →
      (0 ≤ result ↔ op.frame.written = true)

end SharedOp

/-- An operation on a shared key, or a turn of the main loop. -/
inductive SharedEvent
  | op (op : SharedOp)
  | turn

/-- The library, the commands that entered the pipe so far and the commands of
the operations for which the plugin reported success. -/
structure Watched (W : Type) where
  lib : Library W
  enqueued : List MainLoopData := []
  due : List MainLoopData := []

def newCalls (calls : W → List PluginCall) (lib lib' : Library W) : List PluginCall :=
  (calls lib'.world).drop (calls lib.world).length

def newCommands (lib lib' : Library W) : List MainLoopData :=
  lib'.client.loop.pipe.drop lib.client.loop.pipe.length

def PluginCall.succeeded (e : PluginCall) : Bool := e.changes && decide (0 ≤ e.result)

def dueCommands (S : Setup W) (calls : W → List PluginCall) (op : SharedOp) (lib lib' : Library W) :
    List MainLoopData :=
  ((newCalls calls lib lib').filter PluginCall.succeeded).map fun _ => op.command S

def sharedStep (S : Setup W) (calls : W → List PluginCall) (s : Watched W) :
    SharedEvent → Watched W
  | .op op =>
    let lib := op.perform S s.lib
    { lib
      enqueued := s.enqueued ++ newCommands s.lib lib
      due := s.due ++ dueCommands S calls op s.lib lib }
  | .turn => { s with lib := { s.lib with
      client := { s.lib.client with loop := mainLoopTurn s.lib.client.loop } } }

def MatchedEvent (S : Setup W) (s : Watched W) : SharedEvent → Prop
  | .op op => op.Matched S s.lib
  | .turn => True

end Operations

section Step

variable {S : Setup W} {calls : W → List PluginCall} {stored : W → D} {lib lib' : Library W}
  {op : SharedOp}

theorem newCommands_enqueue {frame : CallFrame} {data : MainLoopData}
    (h : lib'.client = (enqueue frame data lib).client) :
    newCommands lib lib' = if frame.written then [data] else [] := by
  unfold newCommands enqueue at *
  rw [h]
  split
  · exact List.drop_left
  · exact List.drop_length

theorem newCommands_same (h : lib'.client = lib.client) : newCommands lib lib' = [] := by
  rw [newCommands, h]
  exact List.drop_length

theorem dueCommands_one {e : PluginCall} (h : calls lib'.world = calls lib.world ++ [e]) :
    dueCommands S calls op lib lib' = if e.succeeded then [op.command S] else [] := by
  rw [dueCommands, newCalls, h, List.drop_left]
  cases hsucceeded : e.succeeded <;> simp [hsucceeded]

theorem dueCommands_none (h : calls lib'.world = calls lib.world) :
    dueCommands S calls op lib lib' = [] := by
  rw [dueCommands, newCalls, h, List.drop_length]
  rfl

theorem SharedOp.matches_iff (laws : CallLaws S.plugin calls stored) (op : SharedOp)
    (lib : Library W) :
    newCommands lib (op.perform S lib) = dueCommands S calls op lib (op.perform S lib) ↔
      op.Matched S lib := by
  unfold SharedOp.Matched SharedOp.perform
  cases hchange : op.change with
  | write buffer size =>
    have hends := persistenceSetData_stored_ends laws (Or.inr op.shared) op.frame op.dbPath op.key
      op.resourceId buffer size lib
    have hcommand : op.command S =
        notificationCommand S.com op.resourceId op.info.context .changed := by
      rw [SharedOp.command, hchange]
    dsimp only
    generalize persistenceSetData S op.frame op.dbPath op.key op.resourceId op.info buffer size lib =
      done at hends ⊢
    cases hends with
    | refused neg prepared not_due =>
      rw [newCommands_same prepared.client, dueCommands_none prepared.asked]
      exact iff_of_true rfl fun hdue => absurd hdue not_due
    | silent e call asked kept client result not_due failed =>
      have hfailed : e.succeeded = false := by
        have := failed op.shared
        simp [PluginCall.succeeded, this]
      rw [newCommands_same client, dueCommands_one asked, hfailed]
      exact iff_of_true rfl fun hdue => absurd hdue not_due
    | announced e call asked success client result due =>
      have hsucceeded : e.succeeded = true := by
        rcases call with ⟨_, _, rfl⟩ | ⟨_, rfl⟩ <;>
          simpa [PluginCall.succeeded, PluginCall.changes] using success
      rw [newCommands_enqueue client, dueCommands_one asked, ← hcommand, hsucceeded]
      cases op.frame.written with
      | true => exact iff_of_true rfl fun _ => rfl
      | false => exact iff_of_false nofun fun h => absurd (h due) nofun
  | delete =>
    have hnot : op.info.configKey.storage ≠ .custom := by
      rw [op.shared]
      exact nofun
    have hends := persistenceDeleteData_stored_ends laws hnot op.frame op.dbPath op.key
      op.resourceId lib
    have hcommand : op.command S =
        notificationCommand S.com op.resourceId op.info.context .deleted := by
      rw [SharedOp.command, hchange]
    dsimp only
    generalize persistenceDeleteData S op.frame op.dbPath op.key op.resourceId op.info lib =
      done at hends ⊢
    generalize deletion S op.info op.dbPath op.key lib = tried at hends ⊢
    cases hends with
    | refused neg prepared =>
      rw [newCommands_same prepared.client, dueCommands_none prepared.asked]
      exact iff_of_true rfl nofun
    | asked e call asked kept neg_iff client =>
      rw [if_pos (Or.inl op.shared)] at client
      have hsucceeded : e.succeeded = true ↔ 0 ≤ e.result := by
        rcases call with ⟨_, _, rfl⟩ | ⟨_, rfl⟩ <;>
          simp [PluginCall.succeeded, PluginCall.changes]
      rw [newCommands_enqueue client, dueCommands_one asked, ← hcommand]
      simp only [Option.some.injEq, forall_eq', ← hsucceeded]
      cases e.succeeded <;> cases op.frame.written <;> simp

theorem sharedStep_matched_iff (laws : CallLaws S.plugin calls stored) {s : Watched W}
    (hs : s.enqueued = s.due) (event : SharedEvent) :
    (sharedStep S calls s event).enqueued = (sharedStep S calls s event).due ↔
      MatchedEvent S s event := by
  cases event with
  | op op =>
    simp only [sharedStep, hs, List.append_cancel_left_eq]
    exact op.matches_iff laws s.lib
  | turn => exact iff_of_true hs trivial

theorem announced_from_iff (laws : CallLaws S.plugin calls stored) (events : List SharedEvent)
    {s : Watched W} (hs : s.enqueued = s.due) :
    (∀ k, (run (sharedStep S calls) s (events.take k)).enqueued =
        (run (sharedStep S calls) s (events.take k)).due) ↔
      Guarded (sharedStep S calls) (MatchedEvent S) s events := by
  induction events generalizing s with
  | nil =>
    refine iff_of_true (fun k => ?_) trivial
    rw [List.take_nil]
    exact hs
  | cons event events ih =>
    have hstep := sharedStep_matched_iff laws hs event
    constructor
    · intro hall
      have hnext : (sharedStep S calls s event).enqueued = (sharedStep S calls s event).due :=
        hall 1
      exact ⟨hstep.mp hnext, (ih hnext).mp fun k => hall (k + 1)⟩
    · rintro ⟨hevent, hevents⟩ k
      cases k with
      | zero => exact hs
      | succ k => exact (ih (hstep.mpr hevent)).mpr hevents k

/-- In all states of a run the commands that entered the pipe are those of the
operations for which the plugin reported success, one for each, exactly if each
operation of the run is matched. -/
theorem announced_iff (laws : CallLaws S.plugin calls stored) (lib : Library W)
    (events : List SharedEvent) :
    (∀ k, (run (sharedStep S calls) { lib } (events.take k)).enqueued =
        (run (sharedStep S calls) { lib } (events.take k)).due) ↔
      Guarded (sharedStep S calls) (MatchedEvent S) { lib } events :=
  announced_from_iff laws events rfl

end Step

section Example

/-- An operation on a shared volume, with a pipe that takes every command. -/
def volumeOp (change : SharedChange) : SharedOp where
  frame := plainFrame
  info := ⟨volumeKey.context, sharedEntry⟩
  shared := rfl
  dbPath := cstr "/Data"
  key := cstr "/node/volume"
  resourceId := cstr "volume"
  change

/-- A volume is written, and the main loop takes the command. -/
theorem volume_announced :
    (run (sharedStep (recordedSetup sharedEntry) Prod.snd) { lib := recordedLibrary }
        [.op (volumeOp (.write [0x35] 1)), .turn]).enqueued =
      (run (sharedStep (recordedSetup sharedEntry) Prod.snd) { lib := recordedLibrary }
        [.op (volumeOp (.write [0x35] 1)), .turn]).due :=
  (announced_iff store_calls recordedLibrary [.op (volumeOp (.write [0x35] 1)), .turn]).mpr
    ⟨fun _ => rfl, trivial, trivial⟩ 2

/-- A deletion that finds nothing to delete is announced. -/
theorem missing_volume_announced :
    ¬ ∀ (events : List SharedEvent) (k : ℕ),
      (run (sharedStep (recordedSetup sharedEntry) Prod.snd) { lib := recordedLibrary }
        (events.take k)).enqueued =
      (run (sharedStep (recordedSetup sharedEntry) Prod.snd) { lib := recordedLibrary }
        (events.take k)).due := by
  intro h
  have hdiffer : (run (sharedStep (recordedSetup sharedEntry) Prod.snd) { lib := recordedLibrary }
      [.op (volumeOp .delete)]).enqueued ≠
      (run (sharedStep (recordedSetup sharedEntry) Prod.snd) { lib := recordedLibrary }
        [.op (volumeOp .delete)]).due := by decide +kernel
  exact hdiffer (h [.op (volumeOp .delete)] 1)

end Example

end PersClient.Key
