import Mathlib.Data.Finset.Basic
import PersClient.Lib.Steps

/-! # Allocators of finitely many handles

A ledger notes from the answers of an allocator which handles are live and in
which order the others were given back, and says what a set allocator may
answer. An implementation that keeps up with the ledger in each call does so in
every run in which only live handles are given back.
-/

namespace PersClient.Allocator

open Steps

variable {α σ : Type*}

/-- The live handles, and those given back and not taken since, the latest first. -/
structure Ledger (α : Type*) where
  live : Finset α
  returned : List α
  nodup : returned.Nodup
  apart : ∀ h ∈ returned, h ∉ live

inductive Call (α : Type*)
  | take
  | giveBack (handle : α)
  | reset
  deriving DecidableEq

namespace Ledger

def empty : Ledger α := ⟨∅, [], List.nodup_nil, fun _ h => absurd h List.not_mem_nil⟩

/-- What a set allocator of these handles may answer. -/
structure Answers (handles : Set α) (l : Ledger α) (answer : Option α) : Prop where
  refused : answer = none ↔ ∀ h ∈ handles, h ∈ l.live
  free : ∀ h, answer = some h → h ∈ handles ∧ h ∉ l.live
  latest : ∀ h, l.returned.head? = some h → answer = some h

def Permits (l : Ledger α) : Call α → Prop
  | .giveBack h => h ∈ l.live
  | .take | .reset => True

variable [DecidableEq α]

/-- An answer to a request for a handle. -/
def take (l : Ledger α) : Option α → Ledger α
  | none => l
  | some h =>
    { live := insert h l.live
      returned := l.returned.erase h
      nodup := l.nodup.erase h
      apart := by
        intro k hk
        obtain ⟨hne, hk⟩ := l.nodup.mem_erase_iff.mp hk
        exact fun hmem => (Finset.mem_insert.mp hmem).elim hne (l.apart k hk) }

def giveBack (l : Ledger α) (h : α) : Ledger α where
  live := l.live.erase h
  returned := h :: l.returned.erase h
  nodup := List.nodup_cons.mpr ⟨l.nodup.not_mem_erase, l.nodup.erase h⟩
  apart := by
    intro k hk hlive
    obtain ⟨hne, hlive⟩ := Finset.mem_erase.mp hlive
    rcases List.mem_cons.mp hk with heq | hk
    · exact hne heq
    · exact l.apart k (List.mem_of_mem_erase hk) hlive

instance (l : Ledger α) (c : Call α) : Decidable (l.Permits c) :=
  match c with
  | .giveBack h => inferInstanceAs (Decidable (h ∈ l.live))
  | .take | .reset => inferInstanceAs (Decidable True)

@[simp] theorem live_take {l : Ledger α} {h : α} : (l.take (some h)).live = insert h l.live := rfl

@[simp] theorem returned_take {l : Ledger α} {h : α} :
    (l.take (some h)).returned = l.returned.erase h := rfl

@[simp] theorem live_giveBack {l : Ledger α} {h : α} : (l.giveBack h).live = l.live.erase h := rfl

theorem returned_giveBack {l : Ledger α} {h : α} (hlive : h ∈ l.live) :
    (l.giveBack h).returned = h :: l.returned := by
  have hnot : h ∉ l.returned := fun hmem => l.apart h hmem hlive
  exact congrArg (List.cons h) (List.erase_of_not_mem hnot)

end Ledger

/-- The functions of an allocator; `none` where a call goes astray. -/
structure Implementation (α σ : Type*) where
  take : σ → Option (Option α × σ)
  giveBack : α → σ → Option σ
  reset : σ → σ

namespace Implementation

section Runs

variable [DecidableEq α] (I : Implementation α σ)

def step (s : Option (σ × Ledger α)) (c : Call α) : Option (σ × Ledger α) :=
  s.bind fun (s, l) =>
    match c with
    | .take => (I.take s).map fun (answer, s) => (s, l.take answer)
    | .giveBack h => (I.giveBack h s).map fun s => (s, l.giveBack h)
    | .reset => some (I.reset s, .empty)

/-- Only live handles are given back, as far as the run has come. -/
def Permitted (s : Option (σ × Ledger α)) (c : Call α) : Prop :=
  match s with
  | some (_, l) => l.Permits c
  | none => True

instance (s : Option (σ × Ledger α)) (c : Call α) : Decidable (Permitted s c) :=
  match s with
  | some (_, l) => inferInstanceAs (Decidable (l.Permits c))
  | none => inferInstanceAs (Decidable True)

/-- The implementation keeps up with the ledger, and answers as it allows. -/
structure Simulates (handles : Set α) (rel : σ → Ledger α → Prop) : Prop where
  take : ∀ {s l}, rel s l → ∃ answer s', I.take s = some (answer, s') ∧
    l.Answers handles answer ∧ rel s' (l.take answer)
  giveBack : ∀ {s l h}, rel s l → h ∈ l.live →
    ∃ s', I.giveBack h s = some s' ∧ rel s' (l.giveBack h)
  reset : ∀ {s l}, rel s l → rel (I.reset s) .empty

variable {I} {handles : Set α} {rel : σ → Ledger α → Prop} {s : σ} {l : Ledger α} {c : Call α}
  {calls : List (Call α)}

theorem Simulates.step (sim : I.Simulates handles rel) (h : rel s l) (hc : l.Permits c) :
    ∃ s' l', I.step (some (s, l)) c = some (s', l') ∧ rel s' l' := by
  cases c with
  | take =>
    obtain ⟨answer, s', hcall, -, hrel⟩ := sim.take h
    refine ⟨s', l.take answer, ?_, hrel⟩
    simp only [Implementation.step, Option.bind_some, hcall, Option.map_some]
  | giveBack handle =>
    obtain ⟨s', hcall, hrel⟩ := sim.giveBack h hc
    refine ⟨s', l.giveBack handle, ?_, hrel⟩
    simp only [Implementation.step, Option.bind_some, hcall, Option.map_some]
  | reset => exact ⟨I.reset s, .empty, rfl, sim.reset h⟩

/-- The run has not gone astray and the implementation is where the ledger says. -/
def Kept (rel : σ → Ledger α → Prop) (x : Option (σ × Ledger α)) : Prop :=
  ∃ s l, x = some (s, l) ∧ rel s l

theorem Simulates.run (sim : I.Simulates handles rel) (h : rel s l)
    (hcalls : Guarded I.step Permitted (some (s, l)) calls) :
    Kept rel (Steps.run I.step (some (s, l)) calls) := by
  have hstep : ∀ x c, Kept rel x → Permitted x c → Kept rel (I.step x c) := by
    rintro _ c ⟨s, l, rfl, hrel⟩ hc
    exact sim.step hrel hc
  exact run_invariant hstep ⟨s, l, rfl, h⟩ hcalls

end Runs

end Implementation

end PersClient.Allocator
