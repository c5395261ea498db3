import Mathlib.Data.List.Nodup
import Mathlib.Data.List.Range
import Mathlib.Data.List.Perm.Subperm
import Mathlib.Logic.Function.Basic

/-! # Lists linked in memory

An item has a value and the place of the next one. A place that was given back
holds nothing, so reading it fails. A segment is what lies on the way from one
place to another; a list is a segment that ends nowhere, from its head on.
-/

namespace PersClient.LinkedList

variable {α : Type*}

structure Item (α : Type*) where
  value : α
  next : Option ℕ

section Segments

/-- The items on the way from one place to another, with their places. -/
def Segment (items : ℕ → Option (Item α)) : Option ℕ → List (ℕ × α) → Option ℕ → Prop
  | p, [], q => p = q
  | p, (i, a) :: cells, q =>
    p = some i ∧ ∃ next, items i = some ⟨a, next⟩ ∧ Segment items next cells q

variable {items items' : ℕ → Option (Item α)} {p q q' : Option ℕ} {cells xs ys : List (ℕ × α)}

theorem segment_append :
    Segment items p (xs ++ ys) q ↔ ∃ r, Segment items p xs r ∧ Segment items r ys q := by
  induction xs generalizing p with
  | nil =>
    constructor
    · exact fun h => ⟨p, rfl, h⟩
    · rintro ⟨r, rfl, h⟩
      exact h
  | cons cell xs ih =>
    simp only [List.cons_append, Segment, ih]
    constructor
    · rintro ⟨rfl, next, hi, r, hxs, hys⟩
      exact ⟨r, ⟨rfl, next, hi, hxs⟩, hys⟩
    · rintro ⟨r, ⟨rfl, next, hi, hxs⟩, hys⟩
      exact ⟨rfl, next, hi, r, hxs, hys⟩

theorem Segment.congr (h : Segment items p cells q)
    (hsame : ∀ cell ∈ cells, items' cell.1 = items cell.1) : Segment items' p cells q := by
  induction cells generalizing p with
  | nil => exact h
  | cons cell cells ih =>
    obtain ⟨hp, next, hi, hrest⟩ := h
    refine ⟨hp, next, ?_, ih hrest fun c hc => hsame c (List.mem_cons_of_mem _ hc)⟩
    rw [← hi]
    exact hsame cell List.mem_cons_self

theorem Segment.isSome (h : Segment items p cells q) : ∀ cell ∈ cells, (items cell.1).isSome := by
  induction cells generalizing p with
  | nil => exact fun cell hcell => absurd hcell List.not_mem_nil
  | cons cell cells ih =>
    obtain ⟨-, next, hi, hrest⟩ := h
    rintro c hc
    rcases List.mem_cons.mp hc with rfl | hc
    · exact Option.isSome_of_eq_some hi
    · exact ih hrest c hc

theorem Segment.relink {j : ℕ} {b : α} (h : Segment items p (cells ++ [(j, b)]) q)
    (hsame : ∀ cell ∈ cells, items' cell.1 = items cell.1) (hnew : items' j = some ⟨b, q'⟩) :
    Segment items' p (cells ++ [(j, b)]) q' := by
  obtain ⟨r, hcells, rfl, -⟩ := segment_append.mp h
  exact segment_append.mpr ⟨some j, hcells.congr hsame, rfl, q', hnew, rfl⟩

end Segments

/-- A list in memory: its head, the items, and the first place never used. -/
structure Linked (α : Type*) where
  head : Option ℕ
  items : ℕ → Option (Item α)
  fresh : ℕ
  unused : ∀ i, fresh ≤ i → items i = none

namespace Linked

def empty : Linked α where
  head := none
  items _ := none
  fresh := 0
  unused _ _ := rfl

def setHead (s : Linked α) (head : Option ℕ) : Linked α := { s with head }

def free (s : Linked α) (i : ℕ) : Linked α where
  head := s.head
  items := Function.update s.items i none
  fresh := s.fresh
  unused j hj := by
    rw [Function.update_apply]
    split
    · rfl
    · exact s.unused j hj

def setNext (s : Linked α) (i : ℕ) (next : Option ℕ) : Linked α where
  head := s.head
  items := Function.update s.items i ((s.items i).map fun item => { item with next })
  fresh := s.fresh
  unused j hj := by
    rw [Function.update_apply]
    split
    · rename_i heq
      rw [← heq, s.unused j hj, Option.map_none]
    · exact s.unused j hj

def alloc (s : Linked α) (a : α) : Linked α where
  head := s.head
  items := Function.update s.items s.fresh (some ⟨a, none⟩)
  fresh := s.fresh + 1
  unused j hj := by
    rw [Function.update_of_ne (by omega)]
    exact s.unused j (by omega)

structure Holds (s : Linked α) (cells : List (ℕ × α)) : Prop where
  segment : Segment s.items s.head cells none
  nodup : (cells.map Prod.fst).Nodup

/-- The values of the list in their order. -/
def Represents (s : Linked α) (l : List α) : Prop :=
  ∃ cells, s.Holds cells ∧ cells.map Prod.snd = l

variable {s : Linked α} {cells xs ys : List (ℕ × α)} {i j : ℕ} {a b : α} {next : Option ℕ}

@[simp] theorem items_free_self : (s.free i).items i = none := Function.update_self ..

theorem items_free (h : j ≠ i) : (s.free i).items j = s.items j := Function.update_of_ne h ..

theorem items_setNext (h : j ≠ i) : (s.setNext i next).items j = s.items j :=
  Function.update_of_ne h ..

theorem items_setNext_self {old : Option ℕ} (h : s.items i = some ⟨a, old⟩) :
    (s.setNext i next).items i = some ⟨a, next⟩ := by
  change Function.update s.items i _ i = _
  rw [Function.update_self, h, Option.map_some]

theorem items_alloc (h : j ≠ s.fresh) : (s.alloc a).items j = s.items j :=
  Function.update_of_ne h ..

theorem items_alloc_self : (s.alloc a).items s.fresh = some ⟨a, none⟩ := Function.update_self ..

theorem empty_represents : (empty : Linked α).Represents [] := ⟨[], ⟨rfl, List.nodup_nil⟩, rfl⟩

theorem represents_nil : s.Represents [] ↔ s.head = none := by
  constructor
  · rintro ⟨cells, hs, hl⟩
    rw [List.map_eq_nil_iff.mp hl] at hs
    exact hs.segment
  · exact fun hhead => ⟨[], ⟨hhead, List.nodup_nil⟩, rfl⟩

theorem Holds.lt_fresh (h : s.Holds cells) : ∀ cell ∈ cells, cell.1 < s.fresh := by
  intro cell hcell
  by_contra hge
  have hsome := h.segment.isSome cell hcell
  rw [s.unused cell.1 (not_lt.mp hge)] at hsome
  cases hsome

theorem Holds.length_le (h : s.Holds cells) : cells.length ≤ s.fresh := by
  have hsub : cells.map Prod.fst ⊆ List.range s.fresh := by
    intro i hi
    obtain ⟨cell, hcell, rfl⟩ := List.mem_map.mp hi
    exact List.mem_range.mpr (h.lt_fresh cell hcell)
  have hlength := (h.nodup.subperm hsub).length_le
  rwa [List.length_map, List.length_range] at hlength

theorem Holds.place_ne (h : s.Holds (xs ++ (i, a) :: ys)) :
    (∀ cell ∈ xs, cell.1 ≠ i) ∧ ∀ cell ∈ ys, cell.1 ≠ i := by
  have hnodup := h.nodup
  rw [List.map_append, List.map_cons, List.nodup_middle, List.nodup_cons,
    ← List.map_append] at hnodup
  constructor
  · rintro cell hcell rfl
    exact hnodup.1 (List.mem_map.mpr ⟨cell, List.mem_append_left _ hcell, rfl⟩)
  · rintro cell hcell rfl
    exact hnodup.1 (List.mem_map.mpr ⟨cell, List.mem_append_right _ hcell, rfl⟩)

theorem Holds.head_ne (h : s.Holds (xs ++ (i, a) :: ys)) (hne : xs ≠ []) : s.head ≠ some i := by
  obtain ⟨cell, xs, rfl⟩ := List.exists_cons_of_ne_nil hne
  have hfirst := h.place_ne.1 cell List.mem_cons_self
  rw [h.segment.1]
  exact fun heq => hfirst (Option.some.inj heq)

theorem Holds.nodup_erase (h : s.Holds (xs ++ (i, a) :: ys)) :
    ((xs ++ ys).map Prod.fst).Nodup := by
  have hnodup := h.nodup
  rw [List.map_append, List.map_cons, List.nodup_middle, List.nodup_cons] at hnodup
  rw [List.map_append]
  exact hnodup.2

theorem Holds.unlink_head (h : s.Holds ((i, a) :: cells)) (hi : s.items i = some ⟨a, next⟩) :
    ((s.setHead next).free i).Holds cells := by
  obtain ⟨-, next', hi', hrest⟩ := h.segment
  rw [hi] at hi'
  cases hi'
  have h' : s.Holds ([] ++ (i, a) :: cells) := h
  have hne := h'.place_ne.2
  exact ⟨hrest.congr fun cell hcell => items_free (hne cell hcell), h'.nodup_erase⟩

theorem Holds.unlink (h : s.Holds (xs ++ (j, b) :: (i, a) :: ys))
    (hi : s.items i = some ⟨a, next⟩) :
    ((s.setNext j next).free i).Holds (xs ++ (j, b) :: ys) := by
  have hassoc : xs ++ (j, b) :: (i, a) :: ys = (xs ++ [(j, b)]) ++ (i, a) :: ys := by simp
  have hj := h.place_ne
  rw [hassoc] at h
  have hne := h.place_ne
  have hji : j ≠ i := hne.1 (j, b) (by simp)
  obtain ⟨r, hfront, rfl, next', hi', hrest⟩ := segment_append.mp h.segment
  rw [hi] at hi'
  cases hi'
  obtain ⟨-, hxs, -, old, hold, -⟩ := segment_append.mp hfront
  have hsame : ∀ cell ∈ xs ++ ys, ((s.setNext j next).free i).items cell.1 = s.items cell.1 := by
    intro cell hcell
    rcases List.mem_append.mp hcell with hcell | hcell
    · rw [items_free (hne.1 cell (List.mem_append_left _ hcell)), items_setNext (hj.1 cell hcell)]
    · rw [items_free (hne.2 cell hcell), items_setNext (hj.2 cell (List.mem_cons_of_mem _ hcell))]
  constructor
  · have hshape : xs ++ (j, b) :: ys = (xs ++ [(j, b)]) ++ ys := by simp
    rw [hshape]
    refine segment_append.mpr ⟨next, hfront.relink ?_ ?_, hrest.congr ?_⟩
    · exact fun cell hcell => hsame cell (List.mem_append_left _ hcell)
    · rw [items_free hji, items_setNext_self hold]
    · exact fun cell hcell => hsame cell (List.mem_append_right _ hcell)
  · have hnodup := h.nodup_erase
    rwa [List.append_assoc] at hnodup

theorem alloc_holds : ((s.alloc a).setHead (some s.fresh)).Holds [(s.fresh, a)] :=
  ⟨⟨rfl, none, items_alloc_self, rfl⟩, List.nodup_singleton _⟩

theorem Holds.alloc_last (h : s.Holds (xs ++ [(j, b)])) :
    ((s.alloc a).setNext j (some s.fresh)).Holds (xs ++ [(j, b)] ++ [(s.fresh, a)]) := by
  have hlt := h.lt_fresh
  have hj : j < s.fresh := hlt (j, b) (by simp)
  have hne := h.place_ne.1
  obtain ⟨-, -, -, old, hold, -⟩ := segment_append.mp h.segment
  constructor
  · refine segment_append.mpr ⟨some s.fresh, h.segment.relink ?_ ?_, rfl, none, ?_, rfl⟩
    · intro cell hcell
      have hcell' := hlt cell (List.mem_append_left _ hcell)
      rw [items_setNext (hne cell hcell), items_alloc hcell'.ne]
    · rw [items_setNext_self]
      rw [items_alloc hj.ne, hold]
    · rw [items_setNext hj.ne', items_alloc_self]
  · rw [List.map_append, List.nodup_append]
    refine ⟨h.nodup, List.nodup_singleton _, ?_⟩
    rintro i hi k hk rfl
    obtain ⟨cell, hcell, rfl⟩ := List.mem_map.mp hi
    have := hlt cell hcell
    simp only [List.map_cons, List.map_nil, List.mem_singleton] at hk
    omega

end Linked

end PersClient.LinkedList
