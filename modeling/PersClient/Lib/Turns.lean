import Mathlib.Data.List.Basic

/-! # Parties that act in turn

A history notes who did what. Each party is an automaton of its own, which an
action out of turn brings to a halt: the state of a party is that of its own
actions in their order, whatever the others did in between.
-/

namespace PersClient.Turns

variable {τ α σ : Type*} [DecidableEq τ]

/-- The state of a party after a history; `none` once it has acted out of turn. -/
def stateAfter (next : σ → α → Option σ) (start : σ) (party : τ) (history : List (τ × α)) :
    Option σ :=
  (history.filter fun entry => entry.1 = party).foldlM (fun s entry => next s entry.2) start

variable {next : σ → α → Option σ} {start : σ} {party other : τ} {history rest : List (τ × α)}
  {a : α}

theorem stateAfter_append :
    stateAfter next start party (history ++ rest) =
      (stateAfter next start party history).bind fun s => stateAfter next s party rest := by
  unfold stateAfter
  rw [List.filter_append, List.foldlM_append]
  rfl

theorem stateAfter_self :
    stateAfter next start party (history ++ [(party, a)]) =
      (stateAfter next start party history).bind fun s => next s a := by
  rw [stateAfter_append]
  congr 1
  funext s
  simp [stateAfter]

theorem stateAfter_other (h : other ≠ party) :
    stateAfter next start party (history ++ [(other, a)]) = stateAfter next start party history := by
  unfold stateAfter
  rw [List.filter_append, List.filter_cons_of_neg (by simpa using h), List.filter_nil,
    List.append_nil]

end PersClient.Turns
