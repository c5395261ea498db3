import PersClient.Access.MainLoop
import PersClient.Access.PollTable

/-! # The rounds of the main loop

A round lets libdbus dispatch, polls, and goes through the entries that have
events. Callbacks change the table meanwhile, and other threads write commands
to the pipe. Whether there is another round is left to the last entry that was
acted on, in this round or an earlier one.
-/

namespace PersClient.Access

open Steps

/-- What the main loop has done about an entry. -/
inductive Act
  | timeout
  | readFailed
  | command (data : MainLoopData)
  /-- what `dbus_watch_handle` gave -/
  | watch (handled : Bool)
  deriving DecidableEq, Repr

structure Visit where
  revents : UInt16 := 0
  /-- the commands other threads have written to the pipe by then -/
  posted : List MainLoopData := []
  /-- the pipe can be read -/
  readable : Bool := true
  /-- what `dbus_watch_handle` will give -/
  handled : Bool := true
  callbacks : List BusEvent := []

/-- What happens in a round: the callbacks before it polls, the result of
`poll`, and what happens at each entry. -/
structure Round where
  callbacks : List BusEvent := []
  poll : ℤ
  visits : ℕ → Visit

structure PollLoop where
  bus : Bus
  mainLoop : MainLoop := {}
  bContinue : Bool := false
  /-- the commands ever written to the pipe -/
  written : List MainLoopData := []
  acts : List Act := []

section Source

namespace PollLoop

def post (s : PollLoop) (posted : List MainLoopData) : PollLoop :=
  { s with
    mainLoop := { s.mainLoop with pipe := s.mainLoop.pipe ++ posted }
    written := s.written ++ posted }

def act (s : PollLoop) (v : Visit) (a : Act) (bContinue : Bool) : PollLoop :=
  { s with bus := run busStep s.bus v.callbacks, bContinue, acts := s.acts ++ [a] }

end PollLoop

/-- The body of the loop over the entries: `bQuit`, and the main loop after it. -/
def visitEntry (pipe : ℤ) (v : Visit) (i : ℕ) (s : PollLoop) : Bool × PollLoop :=
  let s := s.post v.posted
  if v.revents ≠ 0 then
    if (s.bus.table.objects i).objtype = .timeout then
      -- whether the timer can be read and the timeout handled is only logged
      (false, s.act v .timeout true)
    else if (s.bus.table.fds i).fd = pipe then
      if v.revents &&& pollin ≠ 0 then
        match v.readable, s.mainLoop.pipe with
        | true, data :: rest =>
          let mainLoop := dispatchInternalCommand data { s.mainLoop with pipe := rest }
          let quit := decide (data.cmd = .quit)
          (quit, { s with mainLoop }.act v (.command data) !quit)
        | _, _ => (false, s.act v .readFailed true)
      else (false, s)
    else (false, s.act v (.watch v.handled) v.handled)
  else (false, s)

/-- The loop over the entries from `i` on. -/
def visitEntries (pipe : ℤ) (visits : ℕ → Visit) : ℕ → ℕ → PollLoop → PollLoop
  | 0, _, s => s
  | fuel + 1, i, s =>
    if i < s.bus.table.nfds then
      let (bQuit, s) := visitEntry pipe (visits i) i s
      if bQuit then s else visitEntries pipe visits fuel (i + 1) s
    else s

/-- The body of the loop of `mainLoop`. -/
def pollRound (pipe : ℤ) (r : Round) (s : PollLoop) : PollLoop :=
  let s := { s with bus := run busStep s.bus r.callbacks }
  if 0 < r.poll then visitEntries pipe r.visits arraySize 0 s else s

/-- `mainLoop`, and whether it has ended after these rounds. -/
def mainLoop (pipe : ℤ) : List Round → PollLoop → Bool × PollLoop
  | [], s => (false, s)
  | r :: rs, s =>
    let s := pollRound pipe r s
    if s.bContinue then mainLoop pipe rs s else (true, s)

/-- The main loop as `setup_dbus_mainloop` starts it. -/
def PollLoop.start (pipe : ℤ) (mainLoop : MainLoop) : PollLoop where
  bus := Bus.start pipe
  mainLoop := mainLoop
  written := mainLoop.pipe

end Source

section Table

variable {pipe : ℤ} {t t' : PollInfo} {b : Bus} {e : Polled}

/-- The pipe is in the first entry, and the table is within its arrays. -/
structure PollInfo.Seated (t : PollInfo) (pipe : ℤ) : Prop where
  first : 1 ≤ t.nfds
  bounded : t.nfds ≤ arraySize
  pipe : t.entry 0 = ⟨.none, 0, pipe, pollin⟩

theorem start_seated (pipe : ℤ) : (Bus.start pipe).table.Seated pipe :=
  ⟨le_rfl, Nat.le_of_ble_eq_true rfl, rfl⟩

theorem PollInfo.Seated.same (h : t.Seated pipe) (hsame : SamePolled t t') : t'.Seated pipe :=
  ⟨hsame.nfds ▸ h.first, hsame.nfds ▸ h.bounded, (hsame.zero h.first).trans h.pipe⟩

theorem PollInfo.Seated.too (h : t.Seated pipe) (htoo : PolledToo t t' e) : t'.Seated pipe := by
  have hroom := htoo.room
  have hnfds := htoo.nfds
  exact ⟨by omega, by omega, (htoo.zero h.first).trans h.pipe⟩

theorem PollInfo.Seated.addWatch (h : t.Seated pipe) (address : ℕ) (watch : DBusWatch) :
    (Access.addWatch address watch t).2.Seated pipe := by
  by_cases hroom : t.nfds < arraySize
  · cases henabled : watch.enabled with
    | true => exact h.too (addWatch_enabled address hroom henabled).2
    | false => exact h.same (addWatch_disabled address hroom henabled).2
  · rw [addWatch_full watch hroom]
    exact h

theorem PollInfo.Seated.step (h : b.table.Seated pipe) (e : BusEvent) :
    (busStep b e).table.Seated pipe := by
  cases e with
  | addWatch address watch => exact h.addWatch address watch
  | removeWatch address => exact h
  | watchToggled address =>
    simp only [busStep]
    split
    · simp only [watchToggled]
      split
      · exact h.addWatch address _
      · exact h
    · exact h
  | addTimeout address timeout tfd settime =>
    simp only [busStep]
    by_cases hroom : b.table.nfds < arraySize ∧ Armed timeout tfd settime
    · exact h.too (addTimeout_armed address hroom.1 hroom.2).2
    · rw [addTimeout_refused hroom]
      exact h
  | removeTimeout address =>
    obtain ⟨hfirst, hzero⟩ :
      1 ≤ (removeTimeout address b.table).nfds ∧ _ := removeTimeout_first h.first
    exact ⟨hfirst, removeTimeout_nfds_le.trans h.bounded, hzero.trans h.pipe⟩

theorem PollInfo.Seated.run (h : b.table.Seated pipe) (es : List BusEvent) :
    (Steps.run busStep b es).table.Seated pipe := by
  have hstep : ∀ (b : Bus) (e : BusEvent), b.table.Seated pipe → (busStep b e).table.Seated pipe :=
    fun _ e h => h.step e
  exact run_invariant_of_forall hstep h es

end Table

section Visits

variable {pipe : ℤ} {v : Visit} {i : ℕ} {s s' : PollLoop} {visits : ℕ → Visit} {bQuit : Bool}

/-- An act that is the last of the main loop, if no other follows. -/
def Act.ends : Act → Bool
  | .command data => decide (data.cmd = Cmd.quit)
  | .watch handled => !handled
  | _ => false

def Act.command? : Act → Option MainLoopData
  | .command data => some data
  | _ => none

/-- What looking at an entry can do: nothing, or one act that decides whether
the main loop goes on; a command is the oldest one, and quits or not. -/
inductive Visited (v : Visit) (s : PollLoop) : Bool → PollLoop → Prop
  | idle : Visited v s false s
  | acted (a : Act) (hcommand : a.command? = none) : Visited v s false (s.act v a !a.ends)
  | command {data : MainLoopData} {rest : List MainLoopData}
      (hpipe : s.mainLoop.pipe = data :: rest) :
    Visited v s (decide (data.cmd = Cmd.quit))
      ({ s with mainLoop := dispatchInternalCommand data { s.mainLoop with pipe := rest } }.act v
        (.command data) !(Act.command data).ends)

theorem visitEntry_visited (pipe : ℤ) (v : Visit) (i : ℕ) (s : PollLoop) :
    Visited v (s.post v.posted) (visitEntry pipe v i s).1 (visitEntry pipe v i s).2 := by
  unfold visitEntry
  by_cases hevents : v.revents ≠ 0
  · rw [if_pos hevents]
    by_cases htimeout : ((s.post v.posted).bus.table.objects i).objtype = .timeout
    · rw [if_pos htimeout]
      exact .acted .timeout rfl
    · rw [if_neg htimeout]
      by_cases hpipe : ((s.post v.posted).bus.table.fds i).fd = pipe
      · rw [if_pos hpipe]
        by_cases hin : v.revents &&& pollin ≠ 0
        · rw [if_pos hin]
          cases hreadable : v.readable with
          | false => exact .acted .readFailed rfl
          | true =>
            cases hwaiting : (s.post v.posted).mainLoop.pipe with
            | nil => exact .acted .readFailed rfl
            | cons data rest => exact .command hwaiting
        · rw [if_neg hin]
          exact .idle
      · rw [if_neg hpipe]
        have hwatch : v.handled = !(Act.watch v.handled).ends := by simp [Act.ends]
        have hacted := Visited.acted (v := v) (s := s.post v.posted) (.watch v.handled) rfl
        rwa [← hwatch] at hacted
  · rw [if_neg hevents]
    exact .idle

/-- The commands dispatched and those in the pipe are, in order, those written,
and the last act decides whether the main loop goes on. -/
structure PollLoop.Kept (s : PollLoop) : Prop where
  fifo : s.acts.filterMap Act.command? ++ s.mainLoop.pipe = s.written
  continues : s.bContinue = s.acts.getLast?.any fun a => !a.ends

def PollLoop.Open (s : PollLoop) : Prop := ∀ data, Act.command data ∈ s.acts → data.cmd ≠ .quit

def PollLoop.QuitsLast (s : PollLoop) : Prop :=
  ∀ data, Act.command data ∈ s.acts.dropLast → data.cmd ≠ .quit

theorem PollLoop.Open.quitsLast (h : s.Open) : s.QuitsLast :=
  fun data hdata => h data (List.dropLast_subset _ hdata)

theorem PollLoop.Kept.post (h : s.Kept) (posted : List MainLoopData) : (s.post posted).Kept := by
  refine ⟨?_, h.continues⟩
  simp only [PollLoop.post, ← h.fifo, List.append_assoc]

structure PollLoop.Rounded (s : PollLoop) : Prop where
  kept : s.Kept
  last : s.QuitsLast
  running : s.bContinue = true → s.Open

theorem PollLoop.Open.rounded (h : s.Open) (hkept : s.Kept) : s.Rounded :=
  ⟨hkept, h.quitsLast, fun _ => h⟩

theorem Visited.spec (h : Visited v s bQuit s') (hkept : s.Kept) (hopen : s.Open) :
    s'.Rounded ∧ (bQuit = false → s'.Open) := by
  have hopenAct : ∀ {a : Act}, a.command? = none → ∀ data, Act.command data ∈ s.acts ++ [a] →
      data.cmd ≠ .quit := by
    intro a ha data hdata
    rcases List.mem_append.mp hdata with hbefore | hlast
    · exact hopen data hbefore
    · obtain rfl := List.mem_singleton.mp hlast
      cases ha
  cases h with
  | idle => exact ⟨hopen.rounded hkept, fun _ => hopen⟩
  | acted a hcommand =>
    have hopen' : (s.act v a !a.ends).Open := hopenAct hcommand
    refine ⟨hopen'.rounded ⟨?_, ?_⟩, fun _ => hopen'⟩
    · simp [PollLoop.act, List.filterMap_append, hcommand, ← hkept.fifo]
    · simp [PollLoop.act]
  | command hpipe =>
    rename_i data rest
    refine ⟨⟨⟨?_, ?_⟩, ?_, fun hcontinue => ?_⟩, fun hquit => ?_⟩
    · simp [PollLoop.act, pipe_dispatch, List.filterMap_append, Act.command?, ← hkept.fifo, hpipe]
    · simp [PollLoop.act]
    · intro data' hdata'
      simp only [PollLoop.act, List.dropLast_concat] at hdata'
      exact hopen data' hdata'
    · intro data' hdata'
      rcases List.mem_append.mp hdata' with hbefore | hlast
      · exact hopen data' hbefore
      · cases List.mem_singleton.mp hlast
        simpa [PollLoop.act, Act.ends] using hcontinue
    · intro data' hdata'
      rcases List.mem_append.mp hdata' with hbefore | hlast
      · exact hopen data' hbefore
      · cases List.mem_singleton.mp hlast
        exact of_decide_eq_false hquit

theorem visitEntries_succ {fuel : ℕ} (hi : i < s.bus.table.nfds) :
    visitEntries pipe visits (fuel + 1) i s =
      if (visitEntry pipe (visits i) i s).1 then (visitEntry pipe (visits i) i s).2
      else visitEntries pipe visits fuel (i + 1) (visitEntry pipe (visits i) i s).2 := by
  rw [visitEntries, if_pos hi]

theorem visitEntries_rounded (pipe : ℤ) (visits : ℕ → Visit) (fuel i : ℕ) (hkept : s.Kept)
    (hopen : s.Open) : (visitEntries pipe visits fuel i s).Rounded := by
  induction fuel generalizing i s with
  | zero => exact hopen.rounded hkept
  | succ fuel ih =>
    by_cases hi : i < s.bus.table.nfds
    · rw [visitEntries_succ hi]
      have hvisited := visitEntry_visited pipe (visits i) i s
      obtain ⟨hrounded, hrest⟩ := hvisited.spec (hkept.post _) hopen
      cases hquit : (visitEntry pipe (visits i) i s).1 with
      | true => exact hrounded
      | false => exact ih (i + 1) hrounded.kept (hrest hquit)
    · rw [visitEntries, if_neg hi]
      exact hopen.rounded hkept

theorem pollRound_rounded (pipe : ℤ) (r : Round) (hkept : s.Kept) (hopen : s.Open) :
    (pollRound pipe r s).Rounded := by
  unfold pollRound
  split
  · exact visitEntries_rounded pipe r.visits _ _ ⟨hkept.fifo, hkept.continues⟩ hopen
  · exact PollLoop.Open.rounded hopen ⟨hkept.fifo, hkept.continues⟩

theorem Visited.seated (h : Visited v s bQuit s') (hs : s.bus.table.Seated pipe) :
    s'.bus.table.Seated pipe := by
  cases h with
  | idle => exact hs
  | acted a hcommand => exact hs.run v.callbacks
  | command hpipe => exact hs.run v.callbacks

theorem visitEntries_seated (fuel i : ℕ) (h : s.bus.table.Seated pipe) :
    (visitEntries pipe visits fuel i s).bus.table.Seated pipe := by
  induction fuel generalizing i s with
  | zero => exact h
  | succ fuel ih =>
    by_cases hi : i < s.bus.table.nfds
    · rw [visitEntries_succ hi]
      have hseated := (visitEntry_visited pipe (visits i) i s).seated h
      cases (visitEntry pipe (visits i) i s).1 with
      | true => exact hseated
      | false => exact ih (i + 1) hseated
    · rw [visitEntries, if_neg hi]
      exact h

end Visits

section Runs

variable {pipe : ℤ} {s : PollLoop}

theorem mainLoop_rounded (pipe : ℤ) (rounds : List Round) (hkept : s.Kept) (hopen : s.Open) :
    (mainLoop pipe rounds s).2.Rounded ∧
      (rounds ≠ [] → (mainLoop pipe rounds s).1 = !(mainLoop pipe rounds s).2.bContinue) := by
  induction rounds generalizing s with
  | nil => exact ⟨hopen.rounded hkept, fun h => absurd rfl h⟩
  | cons r rs ih =>
    have hround := pollRound_rounded pipe r hkept hopen
    simp only [mainLoop]
    cases hcontinue : (pollRound pipe r s).bContinue with
    | false =>
      simp only [Bool.false_eq_true, if_false]
      exact ⟨hround, fun _ => by rw [hcontinue]; rfl⟩
    | true =>
      simp only [if_true]
      obtain ⟨hrest, hended⟩ := ih hround.kept (hround.running hcontinue)
      refine ⟨hrest, fun _ => ?_⟩
      cases rs with
      | nil => simp only [mainLoop, hcontinue, Bool.not_true]
      | cons r' rs => exact hended (List.cons_ne_nil _ _)

end Runs

section Turns

variable {pipe : ℤ} {v : Visit} {bQuit : Bool} {s s' s'' : PollLoop} {visits : ℕ → Visit}

def turnStep (m : MainLoop) : Option MainLoopData → MainLoop
  | some data => (deliverToMainloopNM true data m).2
  | none => mainLoopTurn m

/-- What the rounds do to the shared state, writes to the pipe and turns do, too. -/
def PollLoop.TurnsTo (s s' : PollLoop) : Prop :=
  ∃ turns, s'.mainLoop = run turnStep s.mainLoop turns ∧ s'.written = s.written ++ turns.filterMap id

theorem PollLoop.TurnsTo.refl (s : PollLoop) : s.TurnsTo s := ⟨[], rfl, by simp⟩

theorem PollLoop.TurnsTo.trans (h : s.TurnsTo s') (h' : s'.TurnsTo s'') : s.TurnsTo s'' := by
  obtain ⟨turns, hloop, hwritten⟩ := h
  obtain ⟨turns', hloop', hwritten'⟩ := h'
  refine ⟨turns ++ turns', ?_, ?_⟩
  · rw [hloop', hloop, run_append]
  · rw [hwritten', hwritten, List.filterMap_append, List.append_assoc]

theorem PollLoop.TurnsTo.post (s : PollLoop) (posted : List MainLoopData) :
    s.TurnsTo (s.post posted) ∧ (s.post posted).mainLoop.quit = s.mainLoop.quit := by
  refine ⟨⟨posted.map some, ?_, by simp [PollLoop.post]⟩, rfl⟩
  induction posted generalizing s with
  | nil => simp [PollLoop.post]
  | cons data posted ih =>
    rw [List.map_cons, run_cons]
    have hrest := ih (s.post [data])
    simp only [PollLoop.post, List.append_assoc, List.singleton_append] at hrest ⊢
    exact hrest

theorem Visited.turns (h : Visited v s bQuit s') (hquit : s.mainLoop.quit = false) :
    s.TurnsTo s' ∧ (s'.mainLoop.quit = true → bQuit = true ∧ s'.bContinue = false) := by
  have hrunning : s.mainLoop.quit ≠ true := by simp [hquit]
  cases h with
  | idle => exact ⟨.refl s, fun h => absurd h hrunning⟩
  | acted a hcommand => exact ⟨⟨[], rfl, by simp [PollLoop.act]⟩, fun h => absurd h hrunning⟩
  | command hpipe =>
    rename_i data rest
    refine ⟨⟨[none], ?_, by simp [PollLoop.act]⟩, fun hnow => ?_⟩
    · exact (mainLoopTurn_cons hrunning hpipe).symm
    · have hcmd : data.cmd = .quit := by
        by_contra hne
        have hsame := quit_dispatch_of_ne { s.mainLoop with pipe := rest } hne
        exact hrunning (hsame.symm.trans hnow)
      simp [hcmd, PollLoop.act, Act.ends]

theorem visitEntries_turns (fuel i : ℕ) (hquit : s.mainLoop.quit = false) :
    s.TurnsTo (visitEntries pipe visits fuel i s) ∧
      ((visitEntries pipe visits fuel i s).mainLoop.quit = true →
        (visitEntries pipe visits fuel i s).bContinue = false) := by
  have hidle : s.TurnsTo s ∧ (s.mainLoop.quit = true → s.bContinue = false) :=
    ⟨.refl s, fun h => absurd h (by simp [hquit])⟩
  induction fuel generalizing i s with
  | zero => exact hidle
  | succ fuel ih =>
    by_cases hi : i < s.bus.table.nfds
    · rw [visitEntries_succ hi]
      obtain ⟨hpost, hsame⟩ := PollLoop.TurnsTo.post s (visits i).posted
      obtain ⟨hturns, hends⟩ := (visitEntry_visited pipe (visits i) i s).turns (hsame.trans hquit)
      have hvisit := hpost.trans hturns
      cases hleft : (visitEntry pipe (visits i) i s).1 with
      | true => exact ⟨hvisit, fun h => (hends h).2⟩
      | false =>
        have hopen : (visitEntry pipe (visits i) i s).2.mainLoop.quit = false := by
          cases hnow : (visitEntry pipe (visits i) i s).2.mainLoop.quit with
          | false => rfl
          | true => cases hleft.symm.trans (hends hnow).1
        obtain ⟨hrest, hlast⟩ := ih (i + 1) hopen
          ⟨.refl _, fun h => absurd h (by simp [hopen])⟩
        exact ⟨hvisit.trans hrest, hlast⟩
    · rw [visitEntries, if_neg hi]
      exact hidle

/-- The rounds of the main loop are turns of it, between the writes to its pipe. -/
theorem mainLoop_turns (pipe : ℤ) (rounds : List Round) (hquit : s.mainLoop.quit = false) :
    s.TurnsTo (mainLoop pipe rounds s).2 := by
  induction rounds generalizing s with
  | nil => exact .refl s
  | cons r rs ih =>
    have hround : s.TurnsTo (pollRound pipe r s) ∧
        ((pollRound pipe r s).mainLoop.quit = true → (pollRound pipe r s).bContinue = false) := by
      unfold pollRound
      split
      · exact visitEntries_turns (s := { s with bus := run busStep s.bus r.callbacks }) _ _ hquit
      · exact ⟨⟨[], rfl, by simp⟩, fun h => absurd h (by simp [hquit])⟩
    obtain ⟨hturns, hends⟩ := hround
    simp only [mainLoop]
    cases hcontinue : (pollRound pipe r s).bContinue with
    | false => exact hturns
    | true =>
      refine hturns.trans (ih ?_)
      cases hnow : (pollRound pipe r s).mainLoop.quit with
      | false => rfl
      | true => cases (hends hnow).symm.trans hcontinue

end Turns

section Ends

variable {pipe : ℤ} {s : PollLoop}

/-- A command that makes the main loop quit is among the first of the pipe. -/
def PollLoop.QuitWithin (s : PollLoop) (n : ℕ) : Prop :=
  ∃ m ≤ n, ∃ data, s.mainLoop.pipe[m]? = some data ∧ data.cmd = .quit

variable {v : Visit} {n i : ℕ} {bQuit : Bool} {s' : PollLoop} {visits : ℕ → Visit}

theorem PollLoop.QuitWithin.post (h : s.QuitWithin n) (posted : List MainLoopData) :
    (s.post posted).QuitWithin n := by
  obtain ⟨m, hm, data, hdata, hquit⟩ := h
  obtain ⟨hlt, -⟩ := List.getElem?_eq_some_iff.mp hdata
  exact ⟨m, hm, data, (List.getElem?_append_left hlt).trans hdata, hquit⟩

theorem Visited.quitWithin (h : Visited v s bQuit s') (hs : s.QuitWithin n) :
    bQuit = true ∧ s'.bContinue = false ∨ s'.QuitWithin n := by
  obtain ⟨m, hm, data, hdata, hquit⟩ := hs
  cases h with
  | idle => exact Or.inr ⟨m, hm, data, hdata, hquit⟩
  | acted a hcommand => exact Or.inr ⟨m, hm, data, hdata, hquit⟩
  | command hpipe =>
    rw [hpipe] at hdata
    cases m with
    | zero =>
      cases hdata
      exact Or.inl ⟨decide_eq_true hquit, by simp [PollLoop.act, Act.ends, hquit]⟩
    | succ m =>
      refine Or.inr ⟨m, by omega, data, ?_, hquit⟩
      simpa [PollLoop.act, pipe_dispatch] using hdata

/-- The round polls, finds the pipe readable and can read it. -/
structure Round.Reads (r : Round) : Prop where
  polled : 0 < r.poll
  events : (r.visits 0).revents &&& pollin ≠ 0
  readable : (r.visits 0).readable = true

theorem visitEntry_pipe (h : s.bus.table.Seated pipe) (hevents : v.revents &&& pollin ≠ 0)
    (hreadable : v.readable = true) (hs : s.QuitWithin n) :
    (visitEntry pipe v 0 s).1 = true ∧ (visitEntry pipe v 0 s).2.bContinue = false ∨
      1 ≤ n ∧ (visitEntry pipe v 0 s).2.QuitWithin (n - 1) := by
  obtain ⟨m, hm, data, hdata, hquit⟩ := hs.post v.posted
  have hobjtype : ((s.post v.posted).bus.table.objects 0).objtype ≠ .timeout := by
    have hnone := congrArg Polled.objtype h.pipe
    intro htimeout
    cases hnone.symm.trans htimeout
  have hfd : ((s.post v.posted).bus.table.fds 0).fd = pipe := congrArg Polled.fd h.pipe
  have hnonzero : v.revents ≠ 0 := by
    intro hzero
    rw [hzero] at hevents
    exact hevents (UInt16.zero_and)
  obtain ⟨first, rest, hpipe⟩ : ∃ first rest, (s.post v.posted).mainLoop.pipe = first :: rest := by
    cases hpipe : (s.post v.posted).mainLoop.pipe with
    | nil =>
      rw [hpipe] at hdata
      cases hdata
    | cons first rest => exact ⟨first, rest, rfl⟩
  unfold visitEntry
  rw [if_pos hnonzero, if_neg hobjtype, if_pos hfd, if_pos hevents, hreadable, hpipe]
  rw [hpipe] at hdata
  cases m with
  | zero =>
    cases hdata
    refine Or.inl ⟨decide_eq_true hquit, ?_⟩
    simp [PollLoop.act, hquit]
  | succ m =>
    refine Or.inr ⟨by omega, m, by omega, data, ?_, hquit⟩
    simpa [PollLoop.act, pipe_dispatch] using hdata

theorem visitEntries_quitWithin (fuel i : ℕ) (hs : s.QuitWithin n) :
    (visitEntries pipe visits fuel i s).bContinue = false ∨
      (visitEntries pipe visits fuel i s).QuitWithin n := by
  induction fuel generalizing i s with
  | zero => exact Or.inr hs
  | succ fuel ih =>
    by_cases hi : i < s.bus.table.nfds
    · rw [visitEntries_succ hi]
      have hvisited := visitEntry_visited pipe (visits i) i s
      rcases hvisited.quitWithin (hs.post _) with ⟨hquit, hends⟩ | hrest
      · rw [if_pos hquit]
        exact Or.inl hends
      · cases (visitEntry pipe (visits i) i s).1 with
        | true => exact Or.inr hrest
        | false => exact ih (i + 1) hrest
    · rw [visitEntries, if_neg hi]
      exact Or.inr hs

theorem pollRound_quitWithin {r : Round} (hr : r.Reads) (h : s.bus.table.Seated pipe)
    (hs : s.QuitWithin n) :
    (pollRound pipe r s).bContinue = false ∨
      1 ≤ n ∧ (pollRound pipe r s).QuitWithin (n - 1) := by
  have hseated : ({ s with bus := run busStep s.bus r.callbacks } : PollLoop).bus.table.Seated pipe :=
    h.run r.callbacks
  have harray : arraySize = 9 + 1 := rfl
  unfold pollRound
  rw [if_pos hr.polled, harray, visitEntries_succ (Nat.zero_lt_of_lt hseated.first)]
  rcases visitEntry_pipe hseated hr.events hr.readable hs with ⟨hquit, hends⟩ | ⟨hn, hrest⟩
  · rw [if_pos hquit]
    exact Or.inl hends
  · cases (visitEntry pipe (r.visits 0) 0 { s with bus := run busStep s.bus r.callbacks }).1 with
    | true => exact Or.inr ⟨hn, hrest⟩
    | false => exact (visitEntries_quitWithin 9 1 hrest).imp_right fun hrest => ⟨hn, hrest⟩

theorem pollRound_seated (r : Round) (h : s.bus.table.Seated pipe) :
    (pollRound pipe r s).bus.table.Seated pipe := by
  unfold pollRound
  split
  · exact visitEntries_seated _ _ (h.run r.callbacks)
  · exact h.run r.callbacks

theorem mainLoop_quitWithin {rounds : List Round} (hrounds : ∀ r ∈ rounds, r.Reads)
    (h : s.bus.table.Seated pipe) (hs : s.QuitWithin n) (hn : n < rounds.length) :
    (mainLoop pipe rounds s).1 = true := by
  induction rounds generalizing s n with
  | nil => simp at hn
  | cons r rs ih =>
    simp only [mainLoop]
    cases hcontinue : (pollRound pipe r s).bContinue with
    | false => rfl
    | true =>
      rcases pollRound_quitWithin (hrounds r List.mem_cons_self) h hs with hends | ⟨hpos, hrest⟩
      · cases hends.symm.trans hcontinue
      · refine ih (fun r' hr' => hrounds r' (List.mem_cons_of_mem _ hr')) (pollRound_seated r h)
          hrest ?_
        rw [List.length_cons] at hn
        omega

/-- Whatever happens in the rounds, the commands dispatched are the first ones
ever written, in their order and each once; the main loop has ended exactly if
nothing was done in its rounds, or the last thing done was to quit or a watch
that could not be handled; and nothing is done behind a command that makes it quit. -/
theorem mainLoop_follows_last_act (pipe : ℤ) (m : MainLoop) (rounds : List Round) :
    ((mainLoop pipe rounds (.start pipe m)).2.acts.filterMap Act.command? ++
        (mainLoop pipe rounds (.start pipe m)).2.mainLoop.pipe =
      (mainLoop pipe rounds (.start pipe m)).2.written) ∧
    ((mainLoop pipe rounds (.start pipe m)).1 = true ↔ rounds ≠ [] ∧
      ∀ a, (mainLoop pipe rounds (.start pipe m)).2.acts.getLast? = some a → a.ends = true) ∧
    ∀ data, Act.command data ∈ (mainLoop pipe rounds (.start pipe m)).2.acts.dropLast →
      data.cmd ≠ .quit := by
  have hkept : (PollLoop.start pipe m).Kept := ⟨rfl, rfl⟩
  have hopen : (PollLoop.start pipe m).Open := fun _ h => absurd h List.not_mem_nil
  obtain ⟨hrounded, hended⟩ := mainLoop_rounded pipe rounds hkept hopen
  refine ⟨hrounded.kept.fifo, ?_, hrounded.last⟩
  by_cases hrounds : rounds = []
  · subst hrounds
    simp [mainLoop]
  · rw [hended hrounds, hrounded.kept.continues]
    cases (mainLoop pipe rounds (.start pipe m)).2.acts.getLast? <;> simp [hrounds]

/-- A command that makes the main loop quit ends it after as many rounds that
read the pipe as there are commands up to it, unless the main loop has ended
before, whatever else happens in those rounds. -/
theorem quit_ends_mainLoop (pipe : ℤ) (m : MainLoop) (n : ℕ) (data : MainLoopData)
    (hdata : m.pipe[n]? = some data) (hquit : data.cmd = .quit) (rounds : List Round)
    (hrounds : ∀ r ∈ rounds, r.Reads) (hn : n < rounds.length) :
    (mainLoop pipe rounds (.start pipe m)).1 = true :=
  mainLoop_quitWithin hrounds (start_seated pipe) ⟨n, le_rfl, data, hdata, hquit⟩ hn

/-- A round in which the pipe can be read. -/
def readingRound : Round := { poll := 1, visits := fun _ => { revents := pollin } }

/-- The two commands of the end of the library. -/
theorem deinit_ends_mainLoop :
    (mainLoop 3 [readingRound, readingRound] (.start 3
      { pipe := [{ cmd := .lcPrepareShutdown, param0 := shutdownFull }, { cmd := .quit }] })).1 =
      true := by
  refine quit_ends_mainLoop 3 _ 1 { cmd := .quit } rfl rfl [readingRound, readingRound] ?_
    (by decide)
  intro r hr
  obtain rfl : r = readingRound := by simpa using hr
  exact ⟨by decide, by decide, rfl⟩

end Ends

end PersClient.Access
