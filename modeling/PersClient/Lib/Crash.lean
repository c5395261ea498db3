import Mathlib.Logic.Relation
import Mathlib.Data.List.Basic

/-! # Durable states and crashes

A program that changes durable storage leaves a log of the states it went
through. A crash keeps any one of them and nothing else. What holds of every
state of the log holds after a crash; what recovery keeps along its own log
holds after any number of crashes inside recovery.
-/

namespace PersClient.Crash

variable {δ : Type*}

structure Logged (δ : Type*) where
  now : δ
  trail : List δ := []

namespace Logged

def put (l : Logged δ) (d : δ) : Logged δ := ⟨d, l.now :: l.trail⟩

/-- Forget the states before this one. -/
def mark (l : Logged δ) : Logged δ := ⟨l.now, []⟩

/-- A crash can leave the storage in state `d`. -/
def Leaves (l : Logged δ) (d : δ) : Prop := d = l.now ∨ d ∈ l.trail

/-- Every state a crash can leave satisfies `P`. -/
def Always (P : δ → Prop) (l : Logged δ) : Prop := P l.now ∧ ∀ d ∈ l.trail, P d

@[simp] theorem always_mark {P : δ → Prop} {l : Logged δ} : Always P l.mark ↔ P l.now := by
  simp [Always, mark]

@[simp] theorem always_put {P : δ → Prop} {l : Logged δ} {d : δ} :
    Always P (l.put d) ↔ Always P l ∧ P d := by
  simp only [Always, put, List.mem_cons, forall_eq_or_imp]
  exact and_comm

theorem Always.leaves {P : δ → Prop} {l : Logged δ} (h : Always P l) {d : δ} (hd : l.Leaves d) :
    P d := by
  rcases hd with rfl | hd
  · exact h.1
  · exact h.2 d hd

end Logged

/-- `Reboots recovery d d'`: any number of crashes inside a recovery that starts
from what the last crash left turn `d` into `d'`. -/
def Reboots (recovery : δ → Logged δ) : δ → δ → Prop :=
  Relation.ReflTransGen fun d d' => (recovery d).Leaves d'

theorem Reboots.refl {recovery : δ → Logged δ} (d : δ) : Reboots recovery d d :=
  Relation.ReflTransGen.refl

theorem Reboots.invariant {recovery : δ → Logged δ} {P : δ → Prop}
    (hP : ∀ d, P d → (recovery d).Always P) {d d' : δ} (h : Reboots recovery d d') (hd : P d) :
    P d' := by
  induction h with
  | refl => exact hd
  | tail _ hstep ih => exact (hP _ ih).leaves hstep

end PersClient.Crash
