import PersClient.Access.MainLoop
import PersClient.Lib.Steps

/-! # The cancel budget

`pclLifecycleSet` lets a shutdown be cancelled while its counter is below the
limit. The counter is not that of the cancels: it counts the shutdowns, and it
does not start over with a lifecycle. A cancel goes as documented exactly where
both counts are on the same side of the limit.
-/

namespace PersClient.Access

open Steps

def epersDbusMainloop : ℤ := -34

/-- The library in one process: the state it shares with its main loop, the
initialisations that are open and whether the main loop runs. -/
structure Process where
  loop : MainLoop := {}
  gPclInitCounter : UInt32 := 0
  gDbusMainloopRunning : Bool := false
  deriving DecidableEq

/-- What an initialisation meets: whether the main loop can be set up, whether
the pipe takes the registration, and the result of `load_custom_plugins`. -/
structure Startup where
  mainloop : Bool := true
  written : Bool := true
  plugins : ℤ := 0
  deriving DecidableEq

section Calls

def registerLifecycle (written : Bool) (regType : UInt32) (shutdownMode : Int32) (s : MainLoop) :
    MainLoop :=
  (deliverToMainloopNM written
    { cmd := .sendLcRegister, param0 := regType, param1 := shutdownMode.toUInt32 } s).2

/-- `private_pclInitLibrary`, built without the interface to the administrator. -/
def privatePclInitLibrary (start : Startup) (shutdownMode : Int32) (s : Process) : ℤ × Process :=
  let s := { s with loop := { s.loop with gShutdownMode := shutdownMode } }
  if ¬ s.gDbusMainloopRunning ∧ ¬ start.mainloop then (epersDbusMainloop, s)
  else
    -- a main loop that is set up starts with a new pipe
    let loop := if s.gDbusMainloopRunning then s.loop else { s.loop with pipe := [], quit := false }
    let loop := if shutdownMode ≠ pclShutdownTypeNone then
        registerLifecycle start.written 1 shutdownMode loop
      else loop
    let s := { s with loop, gDbusMainloopRunning := true }
    if start.plugins < 0 then (start.plugins, s)
    else (start.plugins, { s with loop := persUnlockAccess s.loop })

def pclInitLibrary (start : Startup) (appName : Option CStr) (shutdownMode : Int32) (s : Process) :
    ℤ × Process :=
  match appName with
  | none => (epersCommon, s)
  | some name =>
    if 0 < name.length ∧ name.length < 256 then
      if s.gPclInitCounter = 0 then
        let (rval, s) := privatePclInitLibrary start shutdownMode s
        (rval, if 0 ≤ rval then { s with gPclInitCounter := s.gPclInitCounter + 1 } else s)
      else (1, { s with gPclInitCounter := s.gPclInitCounter + 1 })
    else (epersCommon, s)

/-- The main loop works through its pipe; the last command makes it end. -/
def joinMainLoop (s : MainLoop) : MainLoop :=
  (List.range s.pipe.length).foldl (fun s _ => mainLoopTurn s) s

/-- `private_pclDeinitLibrary`; it returns when the main loop has read the command
to quit. Its result, the one of `unregister_lifecycle`, is 1 without a registration. -/
def privatePclDeinitLibrary (written : Bool) (s : MainLoop) : MainLoop :=
  let s := if s.gShutdownMode ≠ pclShutdownTypeNone then
      registerLifecycle written 0 s.gShutdownMode s
    else s
  let (_, s) := deliverToMainloopNM written { cmd := .lcPrepareShutdown, param0 := shutdownFull } s
  let (_, s) := deliverToMainloopNM true { cmd := .quit } s
  joinMainLoop s

def pclDeinitLibrary (written : Bool) (s : Process) : ℤ × Process :=
  if s.gPclInitCounter = 1 then
    (1, { loop := privatePclDeinitLibrary written s.loop
          gPclInitCounter := s.gPclInitCounter - 1
          gDbusMainloopRunning := false })
  else if s.gPclInitCounter > 1 then (1, { s with gPclInitCounter := s.gPclInitCounter - 1 })
  else (epersNotInitialized, s)

end Calls

section Runs

/-- The calls of an application that manages its shutdown itself, and the turns
of the main loop between them. -/
inductive ProcessEvent
  | initLibrary (start : Startup) (appName : Option CStr)
  | deinitLibrary (written : Bool)
  | lifecycleSet (written : Bool) (shutdown : Int32)
  | turn

def processStep (s : Process) : ProcessEvent → Process
  | .initLibrary start appName => (pclInitLibrary start appName pclShutdownTypeNone s).2
  | .deinitLibrary written => (pclDeinitLibrary written s).2
  | .lifecycleSet written shutdown =>
    { s with loop := (pclLifecycleSet written shutdown s.loop).2 }
  | .turn => { s with loop := mainLoopTurn s.loop }

/-- How many initialisations wait for their end, and how many cancels were
requested since the first of them. -/
structure Account where
  depth : ℕ := 0
  cancels : ℕ := 0

/-- The account after an event in a state: a lifecycle begins with a successful
initialisation where none is open. -/
def Account.next (h : Account) (s : Process) : ProcessEvent → Account
  | .initLibrary start appName =>
    if 0 ≤ (pclInitLibrary start appName pclShutdownTypeNone s).1 then
      { depth := h.depth + 1, cancels := if h.depth = 0 then 0 else h.cancels }
    else h
  | .deinitLibrary written =>
    if 0 ≤ (pclDeinitLibrary written s).1 then { h with depth := h.depth - 1 } else h
  | .lifecycleSet _ shutdown =>
    if shutdown = pclShutdownCancel then { h with cancels := h.cancels + 1 } else h
  | .turn => h

def accountStep (t : Process × Account) (e : ProcessEvent) : Process × Account :=
  (processStep t.1 e, t.2.next t.1 e)

/-- The process after a list of events, and its account. -/
def afterEvents (es : List ProcessEvent) : Process × Account := run accountStep ({}, {}) es

def ProcessEvent.announces : ProcessEvent → Bool
  | .lifecycleSet _ shutdown => shutdown = pclShutdown
  | _ => false

/-- The shutdowns a list of events announces, as a number of 32 bits. -/
def announced (es : List ProcessEvent) : Int32 := Int32.ofNat (es.countP ProcessEvent.announces)

/-- A cancel behaves as documented: the first three of a lifecycle succeed and
unlock the access, the later ones return the error and leave the lock. -/
def CancelAsDocumented (written : Bool) (t : Process × Account) : Prop :=
  if t.2.cancels < shutdownMaxCount then
    0 ≤ (pclLifecycleSet written pclShutdownCancel t.1.loop).1 ∧
      (pclLifecycleSet written pclShutdownCancel t.1.loop).2 = persUnlockAccess t.1.loop
  else
    (pclLifecycleSet written pclShutdownCancel t.1.loop).1 = epersShutdownMaxCancel ∧
      (pclLifecycleSet written pclShutdownCancel t.1.loop).2.gLockAccess = t.1.loop.gLockAccess

instance (written : Bool) (t : Process × Account) : Decidable (CancelAsDocumented written t) := by
  unfold CancelAsDocumented
  infer_instance

/-- `P` holds at each cancel a run requests inside a lifecycle. -/
def AtCancels (es : List ProcessEvent) (P : Bool → List ProcessEvent → Prop) : Prop :=
  ∀ before written behind, es = before ++ .lifecycleSet written pclShutdownCancel :: behind →
    0 < (afterEvents before).2.depth → P written before

end Runs

section Join

variable {s : MainLoop} {data : MainLoopData} {rest : List MainLoopData}

theorem joinMainLoop_cons (hquit : ¬ s.quit) (hpipe : s.pipe = data :: rest) :
    joinMainLoop s = joinMainLoop (mainLoopTurn s) := by
  unfold joinMainLoop
  rw [pipe_mainLoopTurn hquit hpipe, hpipe, List.length_cons, List.range_succ_eq_map,
    List.foldl_cons, List.foldl_map]

/-- Whatever waits in the pipe, a full shutdown behind it leaves the access locked. -/
theorem locked_joinMainLoop {front : List MainLoopData} (hrunning : ¬ s.quit)
    (hpipe : s.pipe = front ++ [{ cmd := .lcPrepareShutdown, param0 := shutdownFull }, { cmd := .quit }])
    (hfront : ∀ data ∈ front, data.cmd ≠ .quit) : Locked (joinMainLoop s) := by
  induction front generalizing s with
  | nil =>
    have hturn : mainLoopTurn s = persLockAccess { s with pipe := [{ cmd := .quit }] } :=
      mainLoopTurn_cons hrunning hpipe
    have hopen : ¬ (persLockAccess { s with pipe := [{ cmd := .quit }] }).quit := hrunning
    rw [joinMainLoop_cons hrunning hpipe, hturn, joinMainLoop_cons hopen rfl,
      mainLoopTurn_cons hopen rfl]
    rfl
  | cons data front ih =>
    rw [List.forall_mem_cons] at hfront
    rw [joinMainLoop_cons hrunning hpipe]
    apply ih _ (pipe_mainLoopTurn hrunning hpipe) hfront.2
    rw [mainLoopTurn_cons hrunning hpipe, quit_dispatch_of_ne _ hfront.1]
    exact hrunning

/-- The end of the last initialisation locks the access. -/
theorem locked_privatePclDeinitLibrary (hmode : s.gShutdownMode = pclShutdownTypeNone)
    (hrunning : ¬ s.quit) (hpipe : ∀ data ∈ s.pipe, data.cmd ≠ .quit) :
    Locked (privatePclDeinitLibrary true s) := by
  unfold privatePclDeinitLibrary
  rw [if_neg (not_not.mpr hmode)]
  have hrest : ∀ data ∈ s.pipe, data.cmd ≠ .quit := hpipe
  exact locked_joinMainLoop (by exact hrunning) (List.append_assoc ..) hrest

end Join

section Counter

structure Counts (s : MainLoop) (n : Int32) : Prop where
  mode : s.gShutdownMode = pclShutdownTypeNone
  counter : s.gCancelCounter = n

variable {s : MainLoop} {n : Int32}

theorem Counts.deliver (h : Counts s n) (written : Bool) (data : MainLoopData) :
    Counts (deliverToMainloopNM written data s).2 n := by
  cases written
  · exact h
  · exact ⟨h.mode, h.counter⟩

theorem Counts.turn (h : Counts s n) : Counts (mainLoopTurn s) n := by
  unfold mainLoopTurn dispatchInternalCommand
  split
  · exact h
  · split
    · exact h
    · split
      · exact ⟨h.mode, h.counter⟩
      · split <;> exact ⟨h.mode, h.counter⟩
      all_goals exact ⟨h.mode, h.counter⟩

theorem Counts.join (h : Counts s n) : Counts (joinMainLoop s) n := by
  unfold joinMainLoop
  generalize List.range s.pipe.length = turns
  induction turns generalizing s with
  | nil => exact h
  | cons i turns ih => exact ih h.turn

theorem Counts.deinit (h : Counts s n) (written : Bool) :
    Counts (privatePclDeinitLibrary written s) n := by
  unfold privatePclDeinitLibrary
  rw [if_neg (not_not.mpr h.mode)]
  exact ((h.deliver written _).deliver true _).join

theorem Counts.init {s : Process} (h : Counts s.loop n) (start : Startup) :
    Counts (privatePclInitLibrary start pclShutdownTypeNone s).2.loop n := by
  have hloop : Counts (if s.gDbusMainloopRunning then
      { s.loop with gShutdownMode := pclShutdownTypeNone } else
      { s.loop with gShutdownMode := pclShutdownTypeNone, pipe := [], quit := false }) n := by
    split <;> exact ⟨rfl, h.counter⟩
  have hmode : ¬ pclShutdownTypeNone ≠ pclShutdownTypeNone := not_not.mpr rfl
  unfold privatePclInitLibrary
  dsimp only
  rw [if_neg hmode]
  split
  · exact ⟨rfl, h.counter⟩
  · split
    · exact hloop
    · exact ⟨hloop.mode, hloop.counter⟩

theorem Counts.lifecycleSet (h : Counts s n) (written : Bool) (shutdown : Int32) :
    Counts (pclLifecycleSet written shutdown s).2
      (if shutdown = pclShutdown then n + 1 else n) := by
  unfold pclLifecycleSet
  rw [if_pos h.mode]
  split
  · have hdeliver := h.deliver written { cmd := .lcPrepareShutdown, param0 := shutdownPartial }
    exact ⟨hdeliver.mode, congrArg (· + 1) hdeliver.counter⟩
  · split
    · split
      · exact ⟨h.mode, h.counter⟩
      · exact h
    · exact h

theorem counts_step {s : Process} (h : Counts s.loop n) (e : ProcessEvent) :
    Counts (processStep s e).loop (if e.announces then n + 1 else n) := by
  cases e with
  | initLibrary start appName =>
    unfold processStep pclInitLibrary
    dsimp only
    split
    · exact h
    · split
      · split
        · split
          · exact h.init start
          · exact h.init start
        · exact h
      · exact h
  | deinitLibrary written =>
    unfold processStep pclDeinitLibrary
    dsimp only
    split
    · exact h.deinit written
    · split <;> exact h
  | lifecycleSet written shutdown =>
    simpa only [processStep, ProcessEvent.announces, decide_eq_true_eq] using
      h.lifecycleSet written shutdown
  | turn => exact h.turn

/-- The counter of a run is the number of its shutdowns, whatever else it does. -/
theorem counts_afterEvents (es : List ProcessEvent) :
    Counts (afterEvents es).1.loop (announced es) := by
  induction es using List.reverseRecOn with
  | nil => exact ⟨rfl, rfl⟩
  | append_singleton es e ih =>
    have hstep := counts_step ih e
    have hcount : announced (es ++ [e]) =
        if e.announces then announced es + 1 else announced es := by
      unfold announced
      rw [List.countP_append, List.countP_singleton]
      split
      · exact Int32.ofNat_add _ _
      · rfl
    rw [hcount, afterEvents, run_concat]
    exact hstep

end Counter

theorem cancelAsDocumented_iff (es : List ProcessEvent) (written : Bool) :
    CancelAsDocumented written (afterEvents es) ↔
      ((afterEvents es).2.cancels < shutdownMaxCount ↔
        announced es < Int32.ofNat shutdownMaxCount) := by
  have hcounts := counts_afterEvents es
  have hcancel : pclShutdownCancel ≠ pclShutdown := by decide
  have hset : pclLifecycleSet written pclShutdownCancel (afterEvents es).1.loop =
      if announced es < Int32.ofNat shutdownMaxCount then
        (0, persUnlockAccess (afterEvents es).1.loop)
      else (epersShutdownMaxCancel, (afterEvents es).1.loop) := by
    unfold pclLifecycleSet
    rw [if_pos hcounts.mode, if_neg hcancel, if_pos rfl, hcounts.counter]
  unfold CancelAsDocumented
  rw [hset]
  by_cases hbudget : (afterEvents es).2.cancels < shutdownMaxCount <;>
    by_cases hcount : announced es < Int32.ofNat shutdownMaxCount
  · simp [hbudget, hcount]
  · simp [hbudget, hcount, epersShutdownMaxCancel]
  · simp [hbudget, hcount, epersShutdownMaxCancel]
  · simp [hbudget, hcount]

/-- The cancels of a run go as documented exactly when at each of them the
shutdowns of the process and the cancels of the lifecycle are both below the
limit, or neither is. -/
theorem cancel_budget_iff (es : List ProcessEvent) :
    AtCancels es (fun written before => CancelAsDocumented written (afterEvents before)) ↔
      AtCancels es (fun _ before => (afterEvents before).2.cancels < shutdownMaxCount ↔
        announced before < Int32.ofNat shutdownMaxCount) := by
  constructor
  · intro h before written behind hsplit hdepth
    exact (cancelAsDocumented_iff before written).mp (h before written behind hsplit hdepth)
  · intro h before written behind hsplit hdepth
    exact (cancelAsDocumented_iff before written).mpr (h before written behind hsplit hdepth)

/-- Three shutdowns use up the cancels of an application that never cancelled. -/
theorem three_shutdowns_no_cancel :
    ¬ ∀ es, AtCancels es fun written before =>
      CancelAsDocumented written (afterEvents before) := by
  intro h
  have hcancel := h
    [.initLibrary {} (some ['a']), .lifecycleSet true pclShutdown, .lifecycleSet true pclShutdown,
      .lifecycleSet true pclShutdown, .lifecycleSet true pclShutdownCancel]
    [.initLibrary {} (some ['a']), .lifecycleSet true pclShutdown, .lifecycleSet true pclShutdown,
      .lifecycleSet true pclShutdown] true [] rfl (by decide)
  exact absurd hcancel (by decide)

end PersClient.Access
