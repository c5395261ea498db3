import Mathlib.Logic.Function.Basic
import PersClient.Access.MainLoop
import PersClient.Lib.Steps

/-! # Blocking delivery to the main loop

`deliverToMainloop` writes its payload to the pipe and waits for a flag. The
main loop sets the flag for each command it dispatches, also for the commands of
`deliverToMainloop_NM`, which nobody waits for. The flag belongs to the waiting
call as long as no such command is on its way when the call writes.
-/

namespace PersClient.Access

open Steps

variable {τ : Type*}

section Threads

structure Ticket where
  number : ℕ
  data : MainLoopData
  deriving DecidableEq

/-- How far a thread is in `deliverToMainloop`. -/
inductive Place
  | outside
  /-- it holds `gDeliverpMtx` -/
  | entered (data : MainLoopData)
  /-- its payload is written, it waits for the flag -/
  | waiting (number : ℕ)
  /-- it has seen the flag and released `gMainCondMtx` -/
  | woken (number : ℕ)
  /-- it has cleared the flag -/
  | cleared (number : ℕ)
  deriving DecidableEq

/-- The threads of a process, its main loop and the pipe between them. -/
structure Delivery (τ : Type*) where
  pipe : List Ticket := []
  /-- what the main loop has read and not dispatched yet -/
  readData : Option Ticket := none
  gMainLoopCondValue : Bool := false
  gDeliverpMtx : Option τ := none
  place : τ → Place := fun _ => .outside
  written : ℕ := 0
  quit : Bool := false
  dispatched : List ℕ := []
  /-- the payloads of the calls of `deliverToMainloop` that have returned -/
  returned : List ℕ := []

/-- What can happen next, by thread. -/
inductive Turn (τ : Type*)
  | enter (t : τ) (data : MainLoopData)
  | write (t : τ)
  | look (t : τ)
  | clear (t : τ)
  | leave (t : τ)
  | post (data : MainLoopData)
  | read
  | dispatch

namespace Delivery

def send (s : Delivery τ) (data : MainLoopData) : Delivery τ :=
  { s with pipe := s.pipe ++ [⟨s.written, data⟩], written := s.written + 1 }

def move [DecidableEq τ] (s : Delivery τ) (t : τ) (place : Place) : Delivery τ :=
  { s with place := Function.update s.place t place }

/-- One atomic step; a thread that cannot go on stays where it is. The main loop
dispatches and sets the flag in one section of `gMainCondMtx`, in which a waiting
thread cannot look at the flag; the flag is cleared outside of it. -/
def step [DecidableEq τ] (s : Delivery τ) : Turn τ → Delivery τ
  | .enter t data =>
    if s.place t = .outside ∧ s.gDeliverpMtx = none then
      { s.move t (.entered data) with gDeliverpMtx := some t }
    else s
  | .write t =>
    match s.place t with
    | .entered data => (s.send data).move t (.waiting s.written)
    | _ => s
  | .look t =>
    match s.place t with
    | .waiting number => if s.gMainLoopCondValue then s.move t (.woken number) else s
    | _ => s
  | .clear t =>
    match s.place t with
    | .woken number => { s.move t (.cleared number) with gMainLoopCondValue := false }
    | _ => s
  | .leave t =>
    match s.place t with
    | .cleared number =>
      { s.move t .outside with gDeliverpMtx := none, returned := number :: s.returned }
    | _ => s
  | .post data => s.send data
  | .read =>
    match s.readData, s.pipe with
    | none, data :: rest => if s.quit then s else { s with readData := some data, pipe := rest }
    | _, _ => s
  | .dispatch =>
    match s.readData with
    | some data =>
      { s with
        readData := none
        dispatched := data.number :: s.dispatched
        quit := s.quit || data.data.cmd = .quit
        gMainLoopCondValue := true }
    | none => s

/-- Nothing is on its way to the main loop, and the flag is not set. -/
structure Quiet (s : Delivery τ) : Prop where
  pipe : s.pipe = []
  readData : s.readData = none
  flag : s.gMainLoopCondValue = false

/-- A blocking call writes only when nothing is on its way. -/
def Undisturbed (s : Delivery τ) : Turn τ → Prop
  | .write t => (∃ data, s.place t = .entered data) → s.Quiet
  | _ => True

def NextInLine (s : Delivery τ) (number : ℕ) : Prop :=
  s.gMainLoopCondValue = false ∧
    ((∃ data, s.readData = some data ∧ data.number = number) ∨
      s.readData = none ∧ ∃ data rest, s.pipe = data :: rest ∧ data.number = number)

def Placed (s : Delivery τ) : Place → Prop
  | .outside | .entered _ => True
  | .waiting number => number ∈ s.dispatched ∨ s.NextInLine number
  | .woken number | .cleared number => number ∈ s.dispatched

/-- Only the owner of the mutex is inside a call, a payload that is waited for
is dispatched or next, and the calls that returned had theirs dispatched. -/
structure Inv (s : Delivery τ) : Prop where
  owner : ∀ t, s.place t ≠ .outside → s.gDeliverpMtx = some t
  placed : ∀ t, s.Placed (s.place t)
  returned : ∀ number ∈ s.returned, number ∈ s.dispatched

variable {s s' : Delivery τ}

theorem Placed.congr {place : Place} (h : s.Placed place) (hpipe : s'.pipe = s.pipe)
    (hread : s'.readData = s.readData) (hflag : s'.gMainLoopCondValue = s.gMainLoopCondValue)
    (hdisp : s'.dispatched = s.dispatched) : s'.Placed place := by
  cases place with
  | outside => trivial
  | entered data => trivial
  | waiting number => simpa only [Placed, NextInLine, hpipe, hread, hflag, hdisp] using h
  | woken number => simpa only [Placed, hdisp] using h
  | cleared number => simpa only [Placed, hdisp] using h

theorem NextInLine.send {number : ℕ} (h : s.NextInLine number) (data : MainLoopData) :
    (s.send data).NextInLine number := by
  obtain ⟨hflag, hread | ⟨hread, first, rest, hpipe, hnum⟩⟩ := h
  · exact ⟨hflag, Or.inl hread⟩
  · refine ⟨hflag, Or.inr ⟨hread, first, rest ++ [⟨s.written, data⟩], ?_, hnum⟩⟩
    rw [Delivery.send, hpipe]
    rfl

theorem Placed.send {place : Place} (h : s.Placed place) (data : MainLoopData) :
    (s.send data).Placed place := by
  cases place with
  | waiting number => exact h.imp id fun hnext => hnext.send data
  | _ => exact h

theorem Inv.outside (h : Inv s) {t u : τ} (ht : s.place t ≠ .outside) (hne : u ≠ t) :
    s.place u = .outside := by
  by_contra hu
  have := (h.owner u hu).symm.trans (h.owner t ht)
  exact hne (Option.some.inj this)

theorem Inv.send (h : Inv s) (data : MainLoopData) : Inv (s.send data) :=
  ⟨h.owner, fun t => (h.placed t).send data, h.returned⟩

theorem inv_start : Inv ({} : Delivery τ) :=
  ⟨fun _ h => absurd rfl h, fun _ => trivial, fun _ h => absurd h List.not_mem_nil⟩

variable [DecidableEq τ]

theorem place_move (t u : τ) (place : Place) :
    (s.move t place).place u = if u = t then place else s.place u := Function.update_apply ..

theorem Inv.move (h : Inv s) {t : τ} {place : Place} (howner : s.place t ≠ .outside)
    (hplaced : s.Placed place) : Inv (s.move t place) := by
  refine ⟨fun u hu => ?_, fun u => ?_, h.returned⟩
  · rw [place_move] at hu
    split at hu
    · rename_i hut
      rw [hut]
      exact h.owner t howner
    · exact h.owner u hu
  · rw [place_move]
    split
    · exact hplaced.congr rfl rfl rfl rfl
    · exact (h.placed u).congr rfl rfl rfl rfl

theorem Inv.enter (h : Inv s) (t : τ) (data : MainLoopData) : Inv (s.step (.enter t data)) := by
  simp only [step]
  split
  · rename_i hfree
    refine ⟨fun u hu => ?_, fun u => ?_, h.returned⟩
    · rcases eq_or_ne u t with rfl | hne
      · rfl
      · have hout : s.place u = .outside := by
          by_contra hin
          rw [h.owner u hin] at hfree
          cases hfree.2
        exact absurd ((place_move t u _).trans ((if_neg hne).trans hout)) hu
    · show Placed _ ((s.move t (.entered data)).place u)
      rw [place_move]
      split
      · trivial
      · exact (h.placed u).congr rfl rfl rfl rfl
  · exact h

theorem Inv.write (h : Inv s) {t : τ} (hok : s.Undisturbed (.write t)) :
    Inv (s.step (.write t)) := by
  simp only [step]
  split
  · rename_i data hplace
    have quiet := hok ⟨data, hplace⟩
    have howner : (s.send data).place t ≠ .outside := by
      rw [show (s.send data).place t = .entered data from hplace]
      nofun
    refine (h.send data).move howner (Or.inr ⟨quiet.flag, Or.inr ⟨quiet.readData,
      ⟨s.written, data⟩, [], ?_, rfl⟩⟩)
    rw [Delivery.send, quiet.pipe]
    rfl
  · exact h

theorem Inv.look (h : Inv s) (t : τ) : Inv (s.step (.look t)) := by
  simp only [step]
  split
  · rename_i number hplace
    split
    · rename_i hflag
      have hplaced := h.placed t
      rw [hplace] at hplaced
      refine h.move (by rw [hplace]; nofun) (hplaced.resolve_right fun hnext => ?_)
      rw [hnext.1] at hflag
      cases hflag
    · exact h
  · exact h

theorem Inv.clear (h : Inv s) (t : τ) : Inv (s.step (.clear t)) := by
  simp only [step]
  split
  · rename_i number hplace
    have hin : s.place t ≠ .outside := by
      rw [hplace]
      nofun
    have hplaced := h.placed t
    rw [hplace] at hplaced
    have moved : Inv (s.move t (.cleared number)) := h.move hin hplaced
    refine ⟨moved.owner, fun u => ?_, h.returned⟩
    show Placed _ ((s.move t (.cleared number)).place u)
    rw [place_move]
    split
    · exact hplaced
    · rename_i hne
      rw [h.outside hin hne]
      trivial
  · exact h

theorem Inv.leave (h : Inv s) (t : τ) : Inv (s.step (.leave t)) := by
  simp only [step]
  split
  · rename_i number hplace
    have hin : s.place t ≠ .outside := by
      rw [hplace]
      nofun
    have hplaced := h.placed t
    rw [hplace] at hplaced
    have out : ∀ u, (s.move t .outside).place u = .outside := by
      intro u
      rw [place_move]
      split
      · rfl
      · exact h.outside hin ‹_›
    refine ⟨fun u hu => absurd (out u) hu, fun u => ?_, fun k hk => ?_⟩
    · show Placed _ ((s.move t .outside).place u)
      rw [out u]
      trivial
    · rcases List.mem_cons.mp hk with rfl | hk
      · exact hplaced
      · exact h.returned k hk
  · exact h

theorem Inv.read (h : Inv s) : Inv (s.step .read) := by
  simp only [step]
  split
  · rename_i data rest hread hpipe
    split
    · exact h
    · refine ⟨h.owner, fun t => ?_, h.returned⟩
      have hplaced := h.placed t
      show Placed _ (s.place t)
      cases hp : s.place t with
      | waiting number =>
        rw [hp] at hplaced
        refine hplaced.imp id fun hnext => ⟨hnext.1, Or.inl ⟨data, rfl, ?_⟩⟩
        obtain ⟨-, ⟨d, hd, -⟩ | ⟨-, d, r, hd, hnum⟩⟩ := hnext
        · rw [hread] at hd
          cases hd
        · rw [hpipe] at hd
          rw [(List.cons.inj hd).1, hnum]
      | outside => trivial
      | entered d => trivial
      | woken number =>
        rw [hp] at hplaced
        exact hplaced
      | cleared number =>
        rw [hp] at hplaced
        exact hplaced
  · exact h

theorem Inv.dispatch (h : Inv s) : Inv (s.step .dispatch) := by
  simp only [step]
  split
  · rename_i data hread
    refine ⟨h.owner, fun t => ?_, fun k hk => List.mem_cons_of_mem _ (h.returned k hk)⟩
    have hplaced := h.placed t
    show Placed _ (s.place t)
    cases hp : s.place t with
    | waiting number =>
      rw [hp] at hplaced
      left
      rcases hplaced with hdone | ⟨-, ⟨d, hd, hnum⟩ | ⟨hnone, -⟩⟩
      · exact List.mem_cons_of_mem _ hdone
      · rw [hread] at hd
        rw [← hnum, ← Option.some.inj hd]
        exact List.mem_cons_self
      · rw [hread] at hnone
        cases hnone
    | outside => trivial
    | entered d => trivial
    | woken number =>
      rw [hp] at hplaced
      exact List.mem_cons_of_mem _ hplaced
    | cleared number =>
      rw [hp] at hplaced
      exact List.mem_cons_of_mem _ hplaced
  · exact h

theorem Inv.step (h : Inv s) (turn : Turn τ) (hok : s.Undisturbed turn) : Inv (s.step turn) := by
  cases turn with
  | enter t data => exact h.enter t data
  | write t => exact h.write hok
  | look t => exact h.look t
  | clear t => exact h.clear t
  | leave t => exact h.leave t
  | post data => exact h.send data
  | read => exact h.read
  | dispatch => exact h.dispatch

end Delivery

variable [DecidableEq τ]

/-- If blocking calls write only when nothing is on its way, a call that has
returned had its own payload dispatched. -/
theorem deliverToMainloop_blocks (turns : List (Turn τ))
    (hok : Guarded Delivery.step Delivery.Undisturbed ({} : Delivery τ) turns) :
    ∀ number ∈ (run Delivery.step ({} : Delivery τ) turns).returned,
      number ∈ (run Delivery.step ({} : Delivery τ) turns).dispatched := by
  have hstep : ∀ (s : Delivery τ) (turn : Turn τ), s.Inv → s.Undisturbed turn → (s.step turn).Inv :=
    fun _ turn h ok => h.step turn ok
  exact (run_invariant hstep Delivery.inv_start hok).returned

/-- The flag of a command that nobody waited for ends the wait of the next call. -/
theorem posted_command_ends_wait :
    ¬ ∀ (turns : List (Turn Unit)),
      ∀ number ∈ (run Delivery.step ({} : Delivery Unit) turns).returned,
      number ∈ (run Delivery.step ({} : Delivery Unit) turns).dispatched := by
  intro h
  exact absurd (h [.post { cmd := .none }, .read, .dispatch, .enter () { cmd := .none }, .write (),
    .look (), .clear (), .leave ()] 1 (by decide)) (by decide)

theorem waited_command_is_dispatched :
    0 ∈ (run Delivery.step ({} : Delivery Unit) [.enter () { cmd := .none }, .write (), .read,
      .dispatch, .look (), .clear (), .leave ()]).dispatched :=
  deliverToMainloop_blocks [.enter () { cmd := .none }, .write (), .read, .dispatch, .look (),
      .clear (), .leave ()]
    ⟨trivial, fun _ => ⟨rfl, rfl, rfl⟩, trivial, trivial, trivial, trivial, trivial, trivial⟩ 0
    (by decide)

end Threads

end PersClient.Access
