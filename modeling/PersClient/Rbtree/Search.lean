import Mathlib.Order.Defs.LinearOrder
import PersClient.Rbtree.Rotations

/-! # Search order

The comparison functions turn the usual order around: greater keys lie on the
left side. A way down leaves greater keys before its hole and smaller ones after
it, so the hole is the only place for the key, and the search finds it.
-/

namespace PersClient.Rbtree

open LinkedTree Shape

variable {α : Type} {κ : Type*} [LinearOrder κ] {key : α → κ}

section Compare

theorem keyValCmp_eq_zero_iff {first second : α} :
    keyValCmp key first second = 0 ↔ key second = key first := by
  unfold keyValCmp
  split_ifs <;> simp [*]

theorem keyValCmp_neg_iff {first second : α} :
    keyValCmp key first second < 0 ↔ key second < key first := by
  unfold keyValCmp
  split_ifs with heq hlt <;> simp [*]

end Compare

section Order

variable (items : ℕ → Option α) (key)

structure Sorted (l : List (ℕ × ℕ)) : Prop where
  present : ∀ x ∈ l, ∃ a, items x.2 = some a
  falling : l.Pairwise fun x y => ∀ a b, items x.2 = some a → items y.2 = some b → key b < key a

/-- The labels before the hole lead to greater keys, those after it to smaller ones. -/
structure Searching (k : κ) (path : List Frame) : Prop where
  before : ∀ x ∈ before path, ∃ a, items x.2 = some a ∧ k < key a
  after : ∀ x ∈ after path, ∃ a, items x.2 = some a ∧ key a < k

theorem searching_nil (k : κ) : Searching key items k [] :=
  ⟨fun _ h => (by cases h), fun _ h => (by cases h)⟩

variable {key items} {k : κ} {path : List Frame} {i data : ℕ} {red dir : Bool} {s o : Shape}

theorem Sorted.of_append {l l' : List (ℕ × ℕ)} (h : Sorted key items (l ++ l')) :
    Sorted key items l ∧ Sorted key items l' ∧
      ∀ x ∈ l, ∀ y ∈ l', ∀ a b, items x.2 = some a → items y.2 = some b → key b < key a := by
  obtain ⟨hl, hl', hcross⟩ := List.pairwise_append.mp h.falling
  exact ⟨⟨fun x hx => h.present x (List.mem_append_left _ hx), hl⟩,
    ⟨fun x hx => h.present x (List.mem_append_right _ hx), hl'⟩, hcross⟩

theorem Sorted.of_plug (h : Sorted key items (plug path s).inorder) :
    Sorted key items s.inorder := by
  rw [inorder_plug] at h
  exact h.of_append.1.of_append.2.1

theorem Searching.cons (h : Searching key items k path) {a : α} (hitem : items data = some a)
    (hsorted : Sorted key items (Shape.node i red data (sides dir s o)).inorder)
    (hdir : if dir then k < key a else key a < k) :
    Searching key items k (⟨i, red, data, dir, o⟩ :: path) := by
  have hmember : ∀ x ∈ o.inorder, ∃ b, items x.2 = some b ∧
      if dir then k < key b else key b < k := by
    intro x hx
    obtain ⟨b, hb⟩ := hsorted.present x (by
      rw [inorder_sides]
      split <;> simp [hx])
    refine ⟨b, hb, ?_⟩
    cases dir with
    | true =>
      have hcross := hsorted.of_append.2.2 x hx (i, data) List.mem_cons_self
      exact lt_trans hdir (hcross b a hb hitem)
    | false =>
      have hcons := (List.pairwise_cons.mp hsorted.of_append.2.1.falling).1 x hx
      exact lt_trans (hcons a b hitem hb) hdir
  constructor
  · intro x hx
    simp only [LinkedTree.before, List.mem_append] at hx
    rcases hx with hx | hx
    · exact h.before x hx
    · cases dir with
      | true =>
        simp only [if_true, List.mem_append, List.mem_singleton] at hx
        rcases hx with hx | rfl
        · exact hmember x hx
        · exact ⟨a, hitem, hdir⟩
      | false => cases hx
  · intro x hx
    simp only [LinkedTree.after, List.mem_append] at hx
    rcases hx with hx | hx
    · cases dir with
      | true => cases hx
      | false =>
        rcases List.mem_cons.mp hx with rfl | hx
        · exact ⟨a, hitem, hdir⟩
        · exact hmember x hx
    · exact h.after x hx

end Order

section Find

variable {m : Memory α} {s : Shape} {root : Option ℕ} {data : ℕ} {item : α}

theorem compareAt_node {i d : ℕ} {red : Bool} {sub : Bool → Shape} {a : α}
    (hs : (Shape.node i red d sub).Holds m.nodes) (ha : m.items d = some a)
    (hitem : m.items data = some item) :
    compareAt m (keyValCmp key) (some i) data = some (keyValCmp key a item) := by
  simp [compareAt, hs.1, ha, hitem]

/-- The search ends with the node of the item that has the key, or without one. -/
theorem findLoop_spec (hs : s.Holds m.nodes) (hsorted : Sorted key m.items s.inorder)
    (hitem : m.items data = some item) {turns : ℕ} (hturns : s.size < turns) :
    ∃ found, findLoop (keyValCmp key) m data turns s.ptr = some found ∧
      (∀ i, found = some i → ∃ d a, (i, d) ∈ s.inorder ∧ m.items d = some a ∧ key a = key item) ∧
      (found = none → ∀ x ∈ s.inorder, ∀ a, m.items x.2 = some a → key a ≠ key item) := by
  induction s generalizing turns with
  | nil =>
    obtain ⟨turns, rfl⟩ : ∃ n, turns = n + 1 := ⟨turns - 1, by omega⟩
    exact ⟨none, rfl, fun _ h => (by cases h), fun _ _ h => (by cases h)⟩
  | node i red d sub ih =>
    obtain ⟨turns, rfl⟩ : ∃ n, turns = n + 1 := ⟨turns - 1, by omega⟩
    have hmem : (i, d) ∈ (Shape.node i red d sub).inorder := by simp [inorder]
    obtain ⟨a, ha⟩ := hsorted.present (i, d) hmem
    have hcompare : compareAt m (keyValCmp key) (some i) data = some (keyValCmp key a item) :=
      compareAt_node hs ha hitem
    obtain ⟨hleft, hright, hcross⟩ := Sorted.of_append hsorted
    have htail := List.pairwise_cons.mp hright.falling
    simp only [ptr_node, findLoop, hcompare, Option.bind_eq_bind, Option.bind_some]
    split
    · rename_i hzero
      exact ⟨some i, rfl, fun j hj => ⟨d, a, by cases hj; exact hmem, ha,
        (keyValCmp_eq_zero_iff.mp hzero).symm⟩, fun h => (by cases h)⟩
    · rename_i hne
      have hne : key item ≠ key a := mt keyValCmp_eq_zero_iff.mpr hne
      rw [getLink_node hs, Option.bind_some]
      have hsize : ∀ side, (sub side).size < turns := by
        simp only [size] at hturns
        intro side
        cases side <;> omega
      by_cases hlt : key item < key a
      · -- the key is smaller, the items on the left are greater
        rw [decide_eq_true (keyValCmp_neg_iff.mpr hlt)]
        obtain ⟨found, hloop, hsome, hnone⟩ := ih true hs.2.2
          ⟨fun x hx => hright.present x (List.mem_cons_of_mem _ hx), htail.2⟩ (hsize true)
        refine ⟨found, hloop, fun j hj => ?_, fun hn x hx b hb => ?_⟩
        · obtain ⟨d', b, hx, hrest⟩ := hsome j hj
          exact ⟨d', b, by simp [inorder, hx], hrest⟩
        · simp only [inorder, List.mem_append, List.mem_cons] at hx
          rcases hx with hx | rfl | hx
          · exact (hlt.trans (hcross x hx (i, d) List.mem_cons_self b a hb ha)).ne'
          · cases ha.symm.trans hb
            exact hne.symm
          · exact hnone hn x hx b hb
      · have hgt := lt_of_le_of_ne (not_lt.mp hlt) hne.symm
        rw [decide_eq_false (mt keyValCmp_neg_iff.mp hlt)]
        obtain ⟨found, hloop, hsome, hnone⟩ := ih false hs.2.1 hleft (hsize false)
        refine ⟨found, hloop, fun j hj => ?_, fun hn x hx b hb => ?_⟩
        · obtain ⟨d', b, hx, hrest⟩ := hsome j hj
          exact ⟨d', b, by simp [inorder, hx], hrest⟩
        · simp only [inorder, List.mem_append, List.mem_cons] at hx
          rcases hx with hx | rfl | hx
          · exact hnone hn x hx b hb
          · cases ha.symm.trans hb
            exact hne.symm
          · exact ((htail.1 x hx a b ha hb).trans hgt).ne

end Find

end PersClient.Rbtree
