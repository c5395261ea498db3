import Mathlib.Data.List.Basic
import Mathlib.Algebra.Ring.Nat
import Mathlib.Algebra.BigOperators.Group.List.Basic

/-! # Pieces of a list between separators

`List.splitOnP` cuts a list at its separators. A piece is found again in the
list behind the pieces before it and their separators, and every piece but the
last is followed by one.
-/

namespace PersClient.Pieces

variable {α : Type*} {p : α → Bool}

def startOf (pieces : List (List α)) (j : ℕ) : ℕ :=
  ((pieces.take j).map fun piece => piece.length + 1).sum

@[simp] theorem startOf_zero (pieces : List (List α)) : startOf pieces 0 = 0 := rfl

@[simp] theorem startOf_cons (piece : List α) (pieces : List (List α)) (j : ℕ) :
    startOf (piece :: pieces) (j + 1) = piece.length + 1 + startOf pieces j := rfl

theorem startOf_modifyHead {pieces : List (List α)} (hne : pieces ≠ []) (x : α) (j : ℕ) :
    startOf (pieces.modifyHead (List.cons x)) (j + 1) = startOf pieces (j + 1) + 1 := by
  cases pieces with
  | nil => exact absurd rfl hne
  | cons piece pieces =>
    rw [List.modifyHead_cons, startOf_cons, startOf_cons, List.length_cons]
    omega

theorem split_cases (p : α → Bool) (l : List α) :
    (∀ x ∈ l, p x = false) ∨
      ∃ a c b, l = a ++ c :: b ∧ (∀ x ∈ a, p x = false) ∧ p c = true := by
  induction l with
  | nil => exact Or.inl fun x hx => absurd hx List.not_mem_nil
  | cons x l ih =>
    cases hx : p x with
    | true => exact Or.inr ⟨[], x, l, rfl, fun y hy => absurd hy List.not_mem_nil, hx⟩
    | false =>
      rcases ih with hfree | ⟨a, c, b, rfl, hfree, hc⟩
      · exact Or.inl fun y hy => by
          rcases List.mem_cons.mp hy with rfl | hy
          · exact hx
          · exact hfree y hy
      · refine Or.inr ⟨x :: a, c, b, rfl, fun y hy => ?_, hc⟩
        rcases List.mem_cons.mp hy with rfl | hy
        · exact hx
        · exact hfree y hy

theorem drop_piece (a b : List α) (c : α) (n : ℕ) : (a ++ c :: b).drop (a.length + 1 + n) = b.drop n := by
  rw [← List.drop_drop, ← List.drop_drop, List.drop_left]
  rfl

theorem splitOnP_flatMap {pieces : List (List α × α)}
    (h : ∀ q ∈ pieces, (∀ x ∈ q.1, p x = false) ∧ p q.2 = true) (rest : List α) :
    ((pieces.flatMap fun q => q.1 ++ [q.2]) ++ rest).splitOnP p =
      pieces.map Prod.fst ++ rest.splitOnP p := by
  induction pieces with
  | nil => rfl
  | cons q pieces ih =>
    obtain ⟨hfree, hsep⟩ := h q List.mem_cons_self
    have hrest := ih fun r hr => h r (List.mem_cons_of_mem _ hr)
    have hsplit : ((q :: pieces).flatMap fun q => q.1 ++ [q.2]) ++ rest =
        q.1 ++ q.2 :: ((pieces.flatMap fun q => q.1 ++ [q.2]) ++ rest) := by simp
    rw [hsplit, List.splitOnP_append_cons_of_forall_mem hfree _ hsep, hrest]
    rfl

/-- Every piece but the last stands at its start, free of separators and with
one behind it. -/
theorem drop_startOf {l : List α} {j : ℕ} (hj : j + 1 < (l.splitOnP p).length) :
    ∃ c rest, p c = true ∧ (∀ x ∈ (l.splitOnP p)[j], p x = false) ∧
      l.drop (startOf (l.splitOnP p) j) = (l.splitOnP p)[j] ++ c :: rest := by
  induction j generalizing l with
  | zero =>
    rcases split_cases p l with hfree | ⟨a, c, b, rfl, hfree, hc⟩
    · rw [List.splitOnP_eq_singleton hfree] at hj
      exact absurd hj (by simp)
    · have hsplit := List.splitOnP_append_cons_of_forall_mem hfree c hc b
      refine ⟨c, b, hc, ?_, ?_⟩
      · simpa only [hsplit, List.getElem_cons_zero] using hfree
      · simp only [hsplit, List.getElem_cons_zero, startOf_zero, List.drop_zero]
  | succ j ih =>
    rcases split_cases p l with hfree | ⟨a, c, b, rfl, hfree, hc⟩
    · rw [List.splitOnP_eq_singleton hfree] at hj
      exact absurd hj (by simp)
    · have hsplit := List.splitOnP_append_cons_of_forall_mem hfree c hc b
      have hj' : j + 1 < (b.splitOnP p).length := by
        rw [hsplit, List.length_cons] at hj
        omega
      obtain ⟨d, rest, hd, hpiece, hdrop⟩ := ih hj'
      refine ⟨d, rest, hd, ?_, ?_⟩
      · simpa only [hsplit, List.getElem_cons_succ] using hpiece
      · simp only [hsplit, List.getElem_cons_succ, startOf_cons, drop_piece, hdrop]

theorem drop_startOf_last {l : List α} {j : ℕ} (hj : (l.splitOnP p).length ≤ j + 1) :
    ∀ x ∈ l.drop (startOf (l.splitOnP p) j), p x = false := by
  induction j generalizing l with
  | zero =>
    rcases split_cases p l with hfree | ⟨a, c, b, rfl, hfree, hc⟩
    · exact hfree
    · rw [List.splitOnP_append_cons_of_forall_mem hfree c hc b, List.length_cons] at hj
      have := List.length_pos_iff.mpr (List.splitOnP_ne_nil p b)
      omega
  | succ j ih =>
    rcases split_cases p l with hfree | ⟨a, c, b, rfl, hfree, hc⟩
    · have hlong : l.length ≤ startOf [l] (j + 1) := by
        rw [startOf_cons]
        omega
      rw [List.splitOnP_eq_singleton hfree, List.drop_eq_nil_of_le hlong]
      exact fun x hx => absurd hx List.not_mem_nil
    · have hsplit := List.splitOnP_append_cons_of_forall_mem hfree c hc b
      have hj' : (b.splitOnP p).length ≤ j + 1 := by
        rw [hsplit, List.length_cons] at hj
        omega
      rw [hsplit, startOf_cons, drop_piece]
      exact ih hj'

end PersClient.Pieces
