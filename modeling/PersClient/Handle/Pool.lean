import Mathlib.Data.Finset.Card
import Mathlib.Data.Int.Interval
import PersClient.Handle.Records

/-! # The handle pool

The pool numbers handles from one and keeps the returned ones on a stack. A
handle is live when it has been numbered and does not lie on the stack: an
allocation makes one handle live that was not, a return of a live handle undoes
this and nothing else.
-/

namespace PersClient.Handle

namespace HandlePool

def freeStack (p : HandlePool) : List ℤ :=
  (List.range p.gFreeHandleIdxHead).map p.gFreeHandleArray

def Issued (p : HandlePool) (h : ℤ) : Prop := 0 < h ∧ h < p.gHandleIdx

def Live (p : HandlePool) (h : ℤ) : Prop := p.Issued h ∧ h ∉ p.freeStack

def Exhausted (p : HandlePool) : Prop :=
  p.freeStack = [] ∧ (maxPersHandle : ℤ) - 1 ≤ p.gHandleIdx

structure Wf (p : HandlePool) : Prop where
  idx_pos : 1 ≤ p.gHandleIdx
  idx_le : p.gHandleIdx ≤ (maxPersHandle : ℤ) - 1
  free_issued : ∀ h ∈ p.freeStack, p.Issued h
  free_nodup : p.freeStack.Nodup

variable {p : HandlePool} {h k : ℤ}

@[simp] theorem freeStack_reset : reset.freeStack = [] := rfl

theorem wf_reset : reset.Wf where
  idx_pos := le_rfl
  idx_le := by decide
  free_issued h hh := by simp at hh
  free_nodup := List.nodup_nil

theorem freeStack_eq_nil : p.freeStack = [] ↔ p.gFreeHandleIdxHead = 0 := by
  simp [freeStack, List.range_eq_nil]

theorem length_freeStack : p.freeStack.length = p.gFreeHandleIdxHead := by simp [freeStack]

theorem Wf.head_lt (inv : p.Wf) : p.gFreeHandleIdxHead < maxPersHandle := by
  have hsub : p.freeStack.toFinset ⊆ Finset.Ioo 0 p.gHandleIdx := by
    intro h hh
    exact Finset.mem_Ioo.mpr (inv.free_issued h (List.mem_toFinset.mp hh))
  have hcard := Finset.card_le_card hsub
  rw [List.toFinset_card_of_nodup inv.free_nodup, length_freeStack, Int.card_Ioo] at hcard
  have := inv.idx_le
  have : (maxPersHandle : ℤ) = 512 := rfl
  have : maxPersHandle = 512 := rfl
  omega

theorem freeStack_succ {n : ℕ} (hn : p.gFreeHandleIdxHead = n + 1) :
    p.freeStack = { p with gFreeHandleIdxHead := n }.freeStack ++ [p.gFreeHandleArray n] := by
  simp only [freeStack, hn, List.range_succ, List.map_append, List.map_cons, List.map_nil]

theorem freeStack_push (h : ℤ) :
    { p with
      gFreeHandleArray := Function.update p.gFreeHandleArray p.gFreeHandleIdxHead h
      gFreeHandleIdxHead := p.gFreeHandleIdxHead + 1 : HandlePool }.freeStack =
      p.freeStack ++ [h] := by
  simp only [freeStack, List.range_succ, List.map_append, List.map_cons, List.map_nil,
    Function.update_self]
  congr 1
  refine List.map_congr_left fun i hi => ?_
  exact Function.update_of_ne (Nat.ne_of_lt (List.mem_range.mp hi)) _ _

theorem freeStack_close (inv : p.Wf) :
    (setPersistenceHandleCloseIdx h p).freeStack = p.freeStack ++ [h] := by
  rw [setPersistenceHandleCloseIdx, if_pos inv.head_lt]
  exact freeStack_push h

theorem gHandleIdx_close : (setPersistenceHandleCloseIdx h p).gHandleIdx = p.gHandleIdx := by
  unfold setPersistenceHandleCloseIdx
  split <;> rfl

/-- An allocation takes the last returned handle, numbers a new one, or fails. -/
theorem get_cases (p : HandlePool) :
    (∃ rest, p.freeStack = rest ++ [(getPersistenceHandleIdx p).1] ∧
      (getPersistenceHandleIdx p).2.freeStack = rest ∧
      (getPersistenceHandleIdx p).2.gHandleIdx = p.gHandleIdx) ∨
    ((p.gFreeHandleIdxHead < maxPersHandle → p.freeStack = []) ∧
      ((p.gHandleIdx < (maxPersHandle : ℤ) - 1 ∧ (getPersistenceHandleIdx p).1 = p.gHandleIdx ∧
        (getPersistenceHandleIdx p).2.freeStack = p.freeStack ∧
        (getPersistenceHandleIdx p).2.gHandleIdx = p.gHandleIdx + 1) ∨
      ((maxPersHandle : ℤ) - 1 ≤ p.gHandleIdx ∧
        getPersistenceHandleIdx p = (epersMaxhandle, p)))) := by
  unfold getPersistenceHandleIdx
  by_cases hpop : 0 < p.gFreeHandleIdxHead ∧ p.gFreeHandleIdxHead < maxPersHandle
  · obtain ⟨n, hn⟩ := Nat.exists_eq_succ_of_ne_zero hpop.1.ne'
    rw [if_pos hpop]
    refine Or.inl ⟨_, ?_, rfl, rfl⟩
    simp only [hn, Nat.succ_sub_one]
    exact freeStack_succ hn
  rw [if_neg hpop]
  refine Or.inr ⟨fun hlt => freeStack_eq_nil.mpr (by omega), ?_⟩
  by_cases hfresh : p.gHandleIdx < (maxPersHandle : ℤ) - 1
  · rw [if_pos hfresh]
    exact Or.inl ⟨hfresh, rfl, rfl, rfl⟩
  · rw [if_neg hfresh]
    exact Or.inr ⟨not_lt.mp hfresh, rfl⟩

/-- As long as the stack is not full, a handle on it is taken before a new one. -/
theorem Wf.get_cases (inv : p.Wf) :
    (∃ rest h, p.freeStack = rest ++ [h] ∧ (getPersistenceHandleIdx p).1 = h ∧
      (getPersistenceHandleIdx p).2.freeStack = rest ∧
      (getPersistenceHandleIdx p).2.gHandleIdx = p.gHandleIdx) ∨
    (p.freeStack = [] ∧ p.gHandleIdx < (maxPersHandle : ℤ) - 1 ∧
      (getPersistenceHandleIdx p).1 = p.gHandleIdx ∧
      (getPersistenceHandleIdx p).2.freeStack = [] ∧
      (getPersistenceHandleIdx p).2.gHandleIdx = p.gHandleIdx + 1) ∨
    (p.Exhausted ∧ getPersistenceHandleIdx p = (epersMaxhandle, p)) := by
  rcases HandlePool.get_cases p with ⟨rest, hstack, hrest, hidx⟩ |
    ⟨hnil, ⟨hfresh, hret, hrest, hidx⟩ | ⟨hfull, heq⟩⟩
  · exact Or.inl ⟨rest, _, hstack, rfl, hrest, hidx⟩
  · have hnil := hnil inv.head_lt
    exact Or.inr (Or.inl ⟨hnil, hfresh, hret, hrest.trans hnil, hidx⟩)
  · exact Or.inr (Or.inr ⟨⟨hnil inv.head_lt, hfull⟩, heq⟩)

theorem Wf.get (inv : p.Wf) (hp : ¬ p.Exhausted) :
    (getPersistenceHandleIdx p).2.Wf ∧ ¬ p.Live (getPersistenceHandleIdx p).1 ∧
      0 < (getPersistenceHandleIdx p).1 ∧ (getPersistenceHandleIdx p).1 < (maxPersHandle : ℤ) - 1 ∧
      ∀ k, (getPersistenceHandleIdx p).2.Live k ↔ p.Live k ∨ k = (getPersistenceHandleIdx p).1 := by
  have idx_pos := inv.idx_pos
  have idx_le := inv.idx_le
  rcases inv.get_cases with ⟨rest, h, hstack, hret, hfree, hidx⟩ | ⟨hnil, hlt, hret, hfree, hidx⟩ | h
  · have hnodup := inv.free_nodup
    rw [hstack, List.nodup_append] at hnodup
    have hh : p.Issued h := inv.free_issued h (by simp [hstack])
    have hnot : h ∉ rest := fun hr => hnodup.2.2 h hr h (by simp) rfl
    rw [hret]
    refine ⟨⟨hidx ▸ idx_pos, hidx ▸ idx_le, ?_, hfree ▸ hnodup.1⟩, fun hl => hl.2 (by simp [hstack]),
      hh.1, by have := hh.2; omega, fun k => ?_⟩
    · intro k hk
      rw [hfree] at hk
      rw [Issued, hidx]
      exact inv.free_issued k (by simp [hstack, hk])
    · simp only [Live, Issued, hfree, hidx, hstack, List.mem_append, List.mem_singleton, not_or]
      constructor
      · rintro ⟨hk, hnk⟩
        by_cases hkh : k = h
        · exact Or.inr hkh
        · exact Or.inl ⟨hk, hnk, hkh⟩
      · rintro (⟨hk, hnk, -⟩ | rfl)
        · exact ⟨hk, hnk⟩
        · exact ⟨hh, hnot⟩
  · rw [hret]
    refine ⟨⟨by omega, by omega, by simp [hfree], by simp [hfree]⟩,
      fun hl => lt_irrefl _ hl.1.2, by omega, hlt, fun k => ?_⟩
    simp only [Live, Issued, hfree, hidx, hnil, List.not_mem_nil, not_false_eq_true, and_true]
    omega
  · exact absurd h.1 hp

theorem Wf.close (inv : p.Wf) (hl : p.Live h) :
    (setPersistenceHandleCloseIdx h p).Wf ∧
      ∀ k, (setPersistenceHandleCloseIdx h p).Live k ↔ p.Live k ∧ k ≠ h := by
  have hfree := freeStack_close (h := h) inv
  have hidx := gHandleIdx_close (p := p) (h := h)
  refine ⟨⟨hidx ▸ inv.idx_pos, hidx ▸ inv.idx_le, ?_, ?_⟩, fun k => ?_⟩
  · intro k hk
    rw [hfree, List.mem_append, List.mem_singleton] at hk
    rw [Issued, hidx]
    rcases hk with hk | rfl
    · exact inv.free_issued k hk
    · exact hl.1
  · rw [hfree]
    exact List.Nodup.append inv.free_nodup (List.nodup_singleton h)
      (by simpa using hl.2)
  · simp only [Live, Issued, hfree, hidx, List.mem_append, List.mem_singleton, not_or, ne_eq]
    exact and_assoc.symm

end HandlePool

end PersClient.Handle
