import Mathlib.Data.Finset.Card
import Mathlib.Data.Set.Insert
import PersClient.Rbtree.Ownership

/-! # What the trees allocate

Every operation of a tree is followed through the places of its nodes: rotations
and colours change none, an insertion takes a new place for each item it copies,
a removal gives one up for the item it releases, and the head node is given up
by the call that made it. So the memory holds the nodes and items of the tree,
what its users hold beside it, and nothing else.
-/

namespace PersClient.Rbtree

open LinkedTree Shape

def allocated (h : Nodes) : Set ℕ := {j | (h j).isSome}

section Links

variable {h h' : Nodes} {p q root top : Option ℕ} {i : ℕ} {n n' : Node} {dir red : Bool}

theorem allocated_update (hi : h i = some n) :
    allocated (Function.update h i (some n')) = allocated h := by
  ext j
  by_cases hj : j = i
  · subst hj
    simp [allocated, hi]
  · simp [allocated, Function.update_of_ne hj]

theorem allocated_insert (h : Nodes) (i : ℕ) (n : Node) :
    allocated (Function.update h i (some n)) = insert i (allocated h) := by
  ext j
  by_cases hj : j = i
  · subst hj
    simp [allocated]
  · simp [allocated, hj]

theorem allocated_erase (h : Nodes) (i : ℕ) :
    allocated (Function.update h i none) = allocated h \ {i} := by
  ext j
  by_cases hj : j = i
  · subst hj
    simp [allocated]
  · simp [allocated, hj]

theorem setLink_allocated (hset : setLink h p dir q = some h') : allocated h' = allocated h := by
  simp only [setLink, Option.bind_eq_bind, Option.bind_eq_some_iff, Option.some.injEq] at hset
  obtain ⟨i, -, n, hn, rfl⟩ := hset
  exact allocated_update hn

theorem setRed_allocated (hset : setRed h p red = some h') : allocated h' = allocated h := by
  simp only [setRed, Option.bind_eq_bind, Option.bind_eq_some_iff, Option.some.injEq] at hset
  obtain ⟨i, -, n, hn, rfl⟩ := hset
  exact allocated_update hn

theorem jswSingle_allocated (hrot : jswSingle h root dir = some (top, h')) :
    allocated h' = allocated h := by
  cases root with
  | none =>
    cases hrot
    rfl
  | some i =>
    simp only [jswSingle, Option.bind_eq_bind, Option.bind_eq_some_iff, Option.some.injEq,
      Prod.mk.injEq] at hrot
    obtain ⟨save, -, link, -, h₁, hlink, h₂, hroot, h₃, hred, h₄, hblack, -, rfl⟩ := hrot
    rw [setRed_allocated hblack, setRed_allocated hred, setLink_allocated hroot,
      setLink_allocated hlink]

theorem jswDouble_allocated (hrot : jswDouble h root dir = some (top, h')) :
    allocated h' = allocated h := by
  simp only [jswDouble, Option.bind_eq_bind, Option.bind_eq_some_iff] at hrot
  obtain ⟨link, -, ⟨inner, h₁⟩, hinner, h₂, hlink, houter⟩ := hrot
  rw [jswSingle_allocated houter, setLink_allocated hlink, jswSingle_allocated hinner]

theorem repairRed_allocated {i : ℕ} {s : Descent} (hrepair : repairRed h i s = some h') :
    allocated h' = allocated h := by
  simp only [repairRed, Option.bind_eq_bind, Option.bind_eq_some_iff] at hrepair
  obtain ⟨redQ, -, redP, -, hrepair⟩ := hrepair
  cases hboth : redQ && redP with
  | false =>
    rw [hboth, if_neg Bool.false_ne_true] at hrepair
    cases hrepair
    rfl
  | true =>
    rw [hboth, if_pos rfl, Option.bind_eq_some_iff] at hrepair
    obtain ⟨link, -, hrepair⟩ := hrepair
    rw [Option.bind_eq_some_iff] at hrepair
    obtain ⟨last, -, hrepair⟩ := hrepair
    by_cases hlast : some i = last
    · rw [if_pos hlast, Option.bind_eq_some_iff] at hrepair
      obtain ⟨⟨top, h₁⟩, hrot, hlink⟩ := hrepair
      rw [setLink_allocated hlink, jswSingle_allocated hrot]
    · rw [if_neg hlast, Option.bind_eq_some_iff] at hrepair
      obtain ⟨⟨top, h₁⟩, hrot, hlink⟩ := hrepair
      rw [setLink_allocated hlink, jswDouble_allocated hrot]

/-- The nephew's rotation of `borrow`, if there is one, and the link to its result. -/
theorem borrow_allocated {g s : Option ℕ} {last : Bool} (hborrow : borrow h g p q s last = some h') :
    allocated h' = allocated h := by
  simp only [borrow, Option.bind_eq_bind, Option.bind_eq_some_iff] at hborrow
  obtain ⟨link, -, nephew, -, redNephew, -, other, -, redOther, -, hborrow⟩ := hborrow
  have hcolours : ∀ {h₁ : Nodes}, ((getLink h₁ g (decide (link = p))).bind fun top =>
      (setRed h₁ top true).bind fun h => (setRed h q true).bind fun h =>
        (getLink h top false).bind fun left => (setRed h left false).bind fun h =>
          (getLink h top true).bind fun right => setRed h right false) = some h' →
      allocated h' = allocated h₁ := by
    intro h₁ hrest
    simp only [Option.bind_eq_some_iff] at hrest
    obtain ⟨top, -, h₂, htop, h₃, hq, left, -, h₄, hleft, right, -, hright⟩ := hrest
    rw [setRed_allocated hright, setRed_allocated hleft, setRed_allocated hq,
      setRed_allocated htop]
  cases redNephew with
  | true =>
    rw [if_pos rfl] at hborrow
    obtain ⟨⟨top, h₁⟩, hrot, hborrow⟩ := Option.bind_eq_some_iff.mp hborrow
    obtain ⟨h₂, hlink, hrest⟩ := Option.bind_eq_some_iff.mp hborrow
    rw [hcolours hrest, setLink_allocated hlink, jswDouble_allocated hrot]
  | false =>
    rw [if_neg Bool.false_ne_true] at hborrow
    cases redOther with
    | true =>
      rw [if_pos rfl] at hborrow
      obtain ⟨⟨top, h₁⟩, hrot, hborrow⟩ := Option.bind_eq_some_iff.mp hborrow
      obtain ⟨h₂, hlink, hrest⟩ := Option.bind_eq_some_iff.mp hborrow
      rw [hcolours hrest, setLink_allocated hlink, jswSingle_allocated hrot]
    | false =>
      rw [if_neg Bool.false_ne_true] at hborrow
      exact hcolours hborrow

theorem pushDown_allocated {g : Option ℕ} {last : Bool}
    (hpush : pushDown h g p q dir last = some (top, h')) : allocated h' = allocated h := by
  simp only [pushDown, Option.bind_eq_bind, Option.bind_eq_some_iff] at hpush
  obtain ⟨redQ, -, child, -, redChild, -, hpush⟩ := hpush
  by_cases hblack : (!redQ && !redChild) = true
  · rw [if_pos hblack] at hpush
    obtain ⟨other, -, hpush⟩ := Option.bind_eq_some_iff.mp hpush
    obtain ⟨redOther, -, hpush⟩ := Option.bind_eq_some_iff.mp hpush
    cases redOther with
    | true =>
      rw [if_pos rfl] at hpush
      obtain ⟨⟨top', h₁⟩, hrot, hpush⟩ := Option.bind_eq_some_iff.mp hpush
      obtain ⟨h₂, hlink, heq⟩ := Option.bind_eq_some_iff.mp hpush
      cases heq
      rw [setLink_allocated hlink, jswSingle_allocated hrot]
    | false =>
      rw [if_neg Bool.false_ne_true] at hpush
      obtain ⟨sibling, -, hpush⟩ := Option.bind_eq_some_iff.mp hpush
      cases sibling with
      | none =>
        cases hpush
        rfl
      | some s =>
        simp only [Option.bind_eq_some_iff] at hpush
        obtain ⟨-, -, redOuter, -, -, -, redInner, -, hpush⟩ := hpush
        by_cases hflip : (!redOuter && !redInner) = true
        · rw [if_pos hflip] at hpush
          simp only [Option.bind_eq_some_iff] at hpush
          obtain ⟨h₁, hp, h₂, hs, h₃, hq, heq⟩ := hpush
          cases heq
          rw [setRed_allocated hq, setRed_allocated hs, setRed_allocated hp]
        · rw [if_neg hflip, Option.bind_eq_some_iff] at hpush
          obtain ⟨h₁, hborrow, heq⟩ := hpush
          cases heq
          exact borrow_allocated hborrow
  · rw [if_neg hblack] at hpush
    cases hpush
    rfl

end Links

section Calls

variable {α : Type} {cmp : α → α → ℤ} {m m' m₁ m₂ : Memory α} {data d turns : ℕ}

structure Takes (m m' : Memory α) (places : Finset ℕ) : Prop where
  nodes : allocated m'.nodes = allocated m.nodes ∪ places
  nextNode : m.nextNode ≤ m'.nextNode
  nextItem : m'.nextItem = m.nextItem + places.card
  fresh : ∀ j ∈ places, m.nextNode ≤ j ∧ j < m'.nextNode

theorem Takes.refl (m : Memory α) : Takes m m ∅ :=
  ⟨by simp, le_rfl, rfl, fun _ hj => absurd hj (Finset.notMem_empty _)⟩

theorem Takes.trans {places places' : Finset ℕ} (h : Takes m m₁ places) (h' : Takes m₁ m₂ places') :
    Takes m m₂ (places ∪ places') := by
  have hdisjoint : Disjoint places places' := by
    rw [Finset.disjoint_left]
    intro j hj hj'
    exact absurd (h'.fresh j hj').1 (not_le.mpr (h.fresh j hj).2)
  refine ⟨?_, h.nextNode.trans h'.nextNode, ?_, fun j hj => ?_⟩
  · rw [h'.nodes, h.nodes, Finset.coe_union, Set.union_assoc]
  · rw [h'.nextItem, h.nextItem, Finset.card_union_of_disjoint hdisjoint, Nat.add_assoc]
  · rcases Finset.mem_union.mp hj with hj | hj
    · exact ⟨(h.fresh j hj).1, (h.fresh j hj).2.trans_le h'.nextNode⟩
    · exact ⟨h.nextNode.trans (h'.fresh j hj).1, (h'.fresh j hj).2⟩

theorem Takes.nodes_congr {places : Finset ℕ} {nodes : Nodes} (h : Takes m m' places)
    (hnodes : allocated nodes = allocated m'.nodes) : Takes m { m' with nodes } places :=
  ⟨hnodes.trans h.nodes, h.nextNode, h.nextItem, h.fresh⟩

theorem newNode_takes {n : ℕ} (hnew : newNode m data = some (n, m')) : Takes m m' {m.nextNode} := by
  simp only [newNode, dup, Option.bind_eq_bind, Option.bind_eq_some_iff, Option.some.injEq] at hnew
  obtain ⟨-, ⟨item, -, rfl⟩, heq⟩ := hnew
  cases heq
  refine ⟨?_, Nat.le_succ _, rfl, fun j hj => ?_⟩
  · rw [Finset.coe_singleton, Set.union_singleton]
    exact allocated_insert ..
  · rw [Finset.mem_singleton.mp hj]
    exact ⟨le_rfl, Nat.lt_succ_self _⟩

theorem insertHere_takes {q : ℕ} {s : Descent} (hhere : insertHere m data s = some (q, m')) :
    ∃ places, Takes m m' places := by
  unfold insertHere at hhere
  cases hq : s.q with
  | none =>
    rw [hq] at hhere
    simp only [Option.bind_eq_bind, Option.bind_eq_some_iff] at hhere
    obtain ⟨⟨n, m₁⟩, hnew, nodes, hlink, heq⟩ := hhere
    cases heq
    exact ⟨_, (newNode_takes hnew).nodes_congr (setLink_allocated hlink)⟩
  | some q =>
    rw [hq] at hhere
    simp only [Option.bind_eq_bind, Option.bind_eq_some_iff] at hhere
    obtain ⟨left, -, right, -, redLeft, -, redRight, -, hhere⟩ := hhere
    by_cases hboth : (redLeft && redRight) = true
    · rw [if_pos hboth] at hhere
      simp only [Option.bind_eq_some_iff] at hhere
      obtain ⟨h₁, hroot, h₂, hleft, h₃, hright, heq⟩ := hhere
      cases heq
      refine ⟨∅, (Takes.refl m).nodes_congr ?_⟩
      rw [setRed_allocated hright, setRed_allocated hleft, setRed_allocated hroot]
    · rw [if_neg hboth] at hhere
      cases hhere
      exact ⟨∅, .refl m⟩

theorem insertLoop_takes {s : Descent} (hloop : insertLoop cmp data turns m s = some m') :
    ∃ places, Takes m m' places := by
  induction turns generalizing m s with
  | zero => cases hloop
  | succ turns ih =>
    simp only [insertLoop, Option.bind_eq_bind, Option.bind_eq_some_iff] at hloop
    obtain ⟨⟨q, m₁⟩, hhere, nodes, hrepair, order, -, hloop⟩ := hloop
    obtain ⟨places, htakes⟩ := insertHere_takes hhere
    have htakes' := htakes.nodes_congr (repairRed_allocated hrepair)
    by_cases hzero : order = 0
    · rw [if_pos hzero] at hloop
      cases hloop
      exact ⟨places, htakes'⟩
    · rw [if_neg hzero, Option.bind_eq_some_iff] at hloop
      obtain ⟨child, -, hloop⟩ := hloop
      obtain ⟨places', hrest⟩ := ih hloop
      exact ⟨places ∪ places', htakes'.trans hrest⟩

theorem finishInsert_allocated {tree tree' : JswRbtree} {root : Option ℕ}
    (hfinish : finishInsert m tree root = some (tree', m')) :
    allocated m'.nodes = allocated m.nodes ∧ m'.nextItem = m.nextItem := by
  simp only [finishInsert, Option.bind_eq_bind, Option.bind_eq_some_iff] at hfinish
  obtain ⟨nodes, hred, heq⟩ := hfinish
  cases heq
  exact ⟨setRed_allocated hred, rfl⟩

theorem freeNode_allocated {i : ℕ} (hfree : freeNode m i = some m') :
    (∃ n, m.nodes i = some n) ∧ m' = { m with nodes := Function.update m.nodes i none } := by
  simp only [freeNode, Option.bind_eq_bind, Option.bind_eq_some_iff, Option.some.injEq] at hfree
  obtain ⟨n, hn, rfl⟩ := hfree
  exact ⟨⟨n, hn⟩, rfl⟩

/-- An insertion leaves as many new nodes as new items; the head node is gone. -/
theorem jswRbinsert_allocated {tree tree' : JswRbtree} (hfresh : m.nodes m.nextNode = none)
    (hcall : jswRbinsert cmp m tree data = some (tree', m')) :
    ∃ places : Finset ℕ, allocated m'.nodes = allocated m.nodes ∪ places ∧
      m'.nextItem = m.nextItem + places.card := by
  cases hroot : tree.root with
  | none =>
    simp only [jswRbinsert, hroot, Option.bind_eq_bind, Option.bind_eq_some_iff] at hcall
    obtain ⟨⟨n, m₁⟩, hnew, hfinish⟩ := hcall
    have htakes := newNode_takes hnew
    obtain ⟨hnodes, hitem⟩ := finishInsert_allocated hfinish
    exact ⟨_, hnodes.trans htakes.nodes, hitem.trans htakes.nextItem⟩
  | some i =>
    have hmalloc : ∀ n, mallocNode m n = (m.nextNode, (mallocNode m n).2) := fun _ => rfl
    simp only [jswRbinsert, hroot] at hcall
    rw [hmalloc] at hcall
    simp only [Option.bind_eq_bind, Option.bind_eq_some_iff] at hcall
    obtain ⟨m₁, hloop, root, -, m₂, hfree, hfinish⟩ := hcall
    obtain ⟨places, htakes⟩ := insertLoop_takes hloop
    obtain ⟨-, rfl⟩ := freeNode_allocated hfree
    obtain ⟨hnodes, hitem⟩ := finishInsert_allocated hfinish
    refine ⟨places, ?_, hitem.trans htakes.nextItem⟩
    have hhead : m.nextNode ∉ allocated m.nodes := by simp [allocated, hfresh]
    have hplaces : m.nextNode ∉ (places : Set ℕ) := fun hmem =>
      absurd (htakes.fresh _ hmem).1 (Nat.not_succ_le_self _)
    have hfirst : allocated (mallocNode m ⟨false, none, sides true (some i) none⟩).2.nodes =
        insert m.nextNode (allocated m.nodes) := allocated_insert ..
    rw [hnodes, allocated_erase, htakes.nodes, hfirst, Set.insert_union,
      Set.insert_sdiff_self_of_notMem fun hmem => hmem.elim hhead hplaces]

theorem eraseLoop_allocated {s s' : Pushing} (hloop : eraseLoop cmp data turns m s = some (s', m')) :
    ∃ nodes, m' = { m with nodes } ∧ allocated nodes = allocated m.nodes := by
  induction turns generalizing m s with
  | zero => cases hloop
  | succ turns ih =>
    simp only [eraseLoop, Option.bind_eq_bind, Option.bind_eq_some_iff] at hloop
    obtain ⟨link, -, hloop⟩ := hloop
    cases link with
    | none =>
      cases hloop
      exact ⟨m'.nodes, rfl, rfl⟩
    | some q =>
      simp only [Option.bind_eq_some_iff] at hloop
      obtain ⟨order, -, ⟨p, nodes⟩, hpush, hloop⟩ := hloop
      obtain ⟨nodes', rfl, hnodes⟩ := ih hloop
      exact ⟨nodes', rfl, hnodes.trans (pushDown_allocated hpush)⟩

theorem removeFound_allocated {s : Pushing} (hremove : removeFound m s = some m') :
    m' = m ∨ ∃ q ∈ allocated m.nodes, allocated m'.nodes = allocated m.nodes \ {q} := by
  unfold removeFound at hremove
  cases hf : s.f with
  | none =>
    rw [hf] at hremove
    cases hremove
    exact Or.inl rfl
  | some f =>
    rw [hf] at hremove
    simp only [Option.bind_eq_bind, Option.bind_eq_some_iff] at hremove
    obtain ⟨n, hn, m₁, hrel, q, -, last, -, n', hn', link, -, left, -, child, -, nodes, hlink,
      hfree⟩ := hremove
    have hm₁ : m₁.nodes = m.nodes := by
      unfold rel at hrel
      cases hdata : n.data with
      | none =>
        rw [hdata] at hrel
        cases hrel
        rfl
      | some e =>
        rw [hdata] at hrel
        simp only [freeItem, Option.bind_eq_bind, Option.bind_eq_some_iff, Option.some.injEq] at hrel
        obtain ⟨-, -, rfl⟩ := hrel
        rfl
    have hsame : allocated nodes = allocated m.nodes := by
      rw [setLink_allocated hlink, allocated_update hn', hm₁]
    obtain ⟨⟨last', hq⟩, rfl⟩ := freeNode_allocated hfree
    refine Or.inr ⟨q, ?_, ?_⟩
    · rw [← hsame]
      exact Option.isSome_of_eq_some hq
    · rw [allocated_erase, hsame]

theorem blackenRoot_allocated {h h' : Nodes} {root : Option ℕ}
    (hblack : blackenRoot h root = some h') : allocated h' = allocated h := by
  cases root with
  | none =>
    cases hblack
    rfl
  | some i => exact setRed_allocated hblack

/-- An erasure gives up one node of the tree, or leaves the items as they are. -/
theorem jswRberase_allocated {tree tree' : JswRbtree} (hfresh : m.nodes m.nextNode = none)
    (hcall : jswRberase cmp m tree data = some (tree', m')) :
    (allocated m'.nodes = allocated m.nodes ∧ m'.items = m.items) ∨
      ∃ q ∈ allocated m.nodes, allocated m'.nodes = allocated m.nodes \ {q} := by
  cases hroot : tree.root with
  | none =>
    simp only [jswRberase, hroot] at hcall
    cases hcall
    exact Or.inl ⟨rfl, rfl⟩
  | some i =>
    have hmalloc : ∀ n, mallocNode m n = (m.nextNode, (mallocNode m n).2) := fun _ => rfl
    simp only [jswRberase, hroot] at hcall
    rw [hmalloc] at hcall
    simp only [Option.bind_eq_bind, Option.bind_eq_some_iff] at hcall
    obtain ⟨⟨s, m₁⟩, hloop, m₂, hremove, root, -, m₃, hfree, nodes, hblack, heq⟩ := hcall
    cases heq
    obtain ⟨nodes₁, rfl, hnodes₁⟩ := eraseLoop_allocated hloop
    obtain ⟨⟨n, hhead⟩, rfl⟩ := freeNode_allocated hfree
    have hnew : m.nextNode ∉ allocated m.nodes := by simp [allocated, hfresh]
    have hfirst : allocated nodes₁ = insert m.nextNode (allocated m.nodes) :=
      hnodes₁.trans (allocated_insert ..)
    have hlast : allocated nodes = allocated m₂.nodes \ {m.nextNode} := by
      rw [blackenRoot_allocated hblack, allocated_erase]
    rcases removeFound_allocated hremove with rfl | ⟨q, hq, hgone⟩
    · refine Or.inl ⟨?_, rfl⟩
      rw [hlast, hfirst, Set.insert_sdiff_self_of_notMem hnew]
    · have hne : q ≠ m.nextNode := by
        rintro rfl
        have hmem : m.nextNode ∈ allocated m₂.nodes := Option.isSome_of_eq_some hhead
        rw [hgone] at hmem
        exact hmem.2 rfl
      refine Or.inr ⟨q, ?_, ?_⟩
      · rw [hfirst] at hq
        exact hq.resolve_left hne
      · rw [hlast, hgone, hfirst, Set.sdiff_sdiff_comm, Set.insert_sdiff_self_of_notMem hnew]

end Calls

section Accounts

variable {α : Type} {key : α → ℤ} {m m' : Memory α} {tree tree' : JswRbtree} {t : Tree α}
  {s s' : Shape} {data d : ℕ} {item a : α} {held : List ℕ}

/-- In memory are the nodes and items of the tree and the held items, nothing else. -/
structure Accounts (m : Memory α) (s : Shape) (held : List ℕ) : Prop where
  nodes : allocated m.nodes = {j | j ∈ s.ids}
  items : ∀ d, (m.items d).isSome ↔ d ∈ labels s ∨ d ∈ held

theorem labels_length (s : Shape) : (labels s).length = s.ids.length := by
  have hperm := (map_fst_inorder_perm (s := s)).length_eq
  rw [List.length_map] at hperm
  rw [labels, List.length_map, hperm]

theorem Sorted.labels_nodup {items : ℕ → Option α} (h : Sorted key items s.inorder) :
    (labels s).Nodup := by
  refine List.pairwise_map.mpr (h.falling.imp_of_mem fun {x y} hx hy hxy heq => ?_)
  obtain ⟨a, ha⟩ := h.present x hx
  exact lt_irrefl _ (hxy a a ha (heq ▸ ha))

theorem ids_eq_of_card (places : Finset ℕ) {h : Nodes} (hs : s.Holds h) (hn : s.ids.Nodup)
    (hsub : allocated h ⊆ places) (hcard : places.card ≤ s.ids.length) :
    allocated h = {j | j ∈ s.ids} := by
  have hmem : ∀ j ∈ s.ids, j ∈ allocated h := fun j hj => by
    obtain ⟨n, hn⟩ := Holds.mem hs j hj
    exact Option.isSome_of_eq_some hn
  have heq : s.ids.toFinset = places := by
    refine Finset.eq_of_subset_of_card_le (fun j hj => hsub (hmem j (List.mem_toFinset.mp hj))) ?_
    rwa [List.toFinset_card_of_nodup hn]
  ext j
  refine ⟨fun hj => ?_, hmem j⟩
  have hin := hsub hj
  rw [← heq] at hin
  exact List.mem_toFinset.mp hin

theorem Accounts.newItem (h : Accounts m s held) (item : α) :
    Accounts (newItem m item).2 s (m.nextItem :: held) := by
  refine ⟨h.nodes, fun d => ?_⟩
  have hitem : (Rbtree.newItem m item).2.items d = if d = m.nextItem then some item else m.items d :=
    Function.update_apply ..
  rw [hitem, List.mem_cons]
  by_cases hd : d = m.nextItem
  · simp [hd]
  · rw [if_neg hd, h.items d]
    tauto

theorem Accounts.free (h : Accounts m s (d :: held)) (hd : d ∉ labels s) (hheld : d ∉ held)
    (hfree : freeItem m d = some m') : Accounts m' s held := by
  simp only [freeItem, Option.bind_eq_bind, Option.bind_eq_some_iff, Option.some.injEq] at hfree
  obtain ⟨-, -, rfl⟩ := hfree
  refine ⟨h.nodes, fun e => ?_⟩
  change (Function.update m.items d none e).isSome ↔ _
  rw [Function.update_apply]
  by_cases he : e = d
  · subst he
    simp [hd, hheld]
  · rw [if_neg he, h.items e, List.mem_cons]
    tauto

theorem Accounts.insert (h : Accounts m s held) (hk : Keeps key m tree t s)
    (hcall : jswRbinsert (keyValCmp key) m tree data = some (tree', m'))
    (hgrown : Grown key m s item m' tree' s') : Accounts m' s' held := by
  obtain ⟨places, hnodes, hnext⟩ := jswRbinsert_allocated (hk.nodesFresh _ le_rfl) hcall
  rw [h.nodes] at hnodes
  have hsub : allocated m'.nodes ⊆ (s.ids.toFinset ∪ places : Finset ℕ) := by
    rw [hnodes]
    intro j hj
    simpa using hj
  have hcard : (s.ids.toFinset ∪ places).card ≤ s.ids.length + places.card :=
    (Finset.card_union_le _ _).trans (Nat.add_le_add_right s.ids.toFinset_card_le _)
  rw [← labels_length] at hcard
  rcases hgrown.effect with ⟨horder, hitems, hsame, -⟩ |
    ⟨l₁, l₂, i, hl, horder, hitems, hmore, -, -⟩
  · have hlabels : labels s' = labels s := congrArg (List.map Prod.snd) horder
    refine ⟨ids_eq_of_card _ hgrown.holds hgrown.nodup hsub ?_, fun d => ?_⟩
    · rw [← labels_length, hlabels]
      omega
    · rw [hitems, hlabels]
      exact h.items d
  · have hmem : ∀ d, d ∈ labels s' ↔ d ∈ labels s ∨ d = m.nextItem := by
      intro d
      simp only [labels, hl, horder, List.map_append, List.map_cons, List.mem_append, List.mem_cons]
      tauto
    refine ⟨ids_eq_of_card _ hgrown.holds hgrown.nodup hsub ?_, fun d => ?_⟩
    · have hlength : (labels s').length = (labels s).length + 1 := by
        simp only [labels, hl, horder, List.map_append, List.map_cons, List.length_append,
          List.length_cons]
        omega
      rw [← labels_length, hlength]
      omega
    · rw [hitems, hmem, Function.update_apply]
      by_cases hd : d = m.nextItem
      · simp [hd]
      · rw [if_neg hd, h.items d]
        tauto

theorem Accounts.erase {k : ℤ} (h : Accounts m s held) (hk : Keeps key m tree t s)
    (hheld : ∀ d ∈ held, d ∉ labels s)
    (hcall : jswRberase (keyValCmp key) m tree data = some (tree', m'))
    (hshrunk : Shrunk key m s k m' tree' s') : Accounts m' s' held := by
  have hallocated := jswRberase_allocated (hk.nodesFresh _ le_rfl) hcall
  rw [h.nodes] at hallocated
  rcases hshrunk.effect with ⟨horder, hitems, -⟩ | ⟨l₁, d, l₂, a, hl, horder, hd, -, hitems⟩
  · have hlabels : labels s' = labels s := congrArg (List.map Prod.snd) horder
    refine ⟨ids_eq_of_card s.ids.toFinset hshrunk.holds hshrunk.nodup ?_ ?_, fun d => ?_⟩
    · rcases hallocated with ⟨hnodes, -⟩ | ⟨q, -, hnodes⟩
      · rw [hnodes]
        exact fun j hj => List.mem_toFinset.mpr hj
      · rw [hnodes]
        exact fun j hj => List.mem_toFinset.mpr hj.1
    · rw [← labels_length, hlabels, labels_length]
      exact s.ids.toFinset_card_le
    · rw [hitems, hlabels]
      exact h.items d
  · obtain ⟨q, hq, hnodes⟩ : ∃ q ∈ {j | j ∈ s.ids}, allocated m'.nodes = {j | j ∈ s.ids} \ {q} := by
      rcases hallocated with ⟨-, hsame⟩ | hgone
      · rw [hitems] at hsame
        have hnone := congrFun hsame d
        rw [Function.update_self, hd] at hnone
        cases hnone
      · exact hgone
    have hnodup : (labels s).Nodup := hk.sorted.labels_nodup
    rw [hl] at hnodup
    have hout : d ∉ l₁ ++ l₂ := (List.nodup_middle.mp hnodup).notMem
    refine ⟨ids_eq_of_card (s.ids.toFinset.erase q) hshrunk.holds hshrunk.nodup ?_ ?_,
      fun e => ?_⟩
    · rw [hnodes]
      intro j hj
      rw [Finset.mem_coe, Finset.mem_erase, List.mem_toFinset]
      exact ⟨hj.2, hj.1⟩
    · have hlength : (labels s).length = (labels s').length + 1 := by
        simp only [hl, horder, List.length_append, List.length_cons]
        omega
      rw [Finset.card_erase_of_mem (List.mem_toFinset.mpr hq), List.toFinset_card_of_nodup hk.nodup,
        ← labels_length, hlength, labels_length, Nat.add_sub_cancel]
    · rw [hitems, horder, Function.update_apply]
      by_cases he : e = d
      · subst he
        have hnot : e ∉ held := fun hmem => hheld e hmem (by simp [hl])
        simp [hout, hnot]
      · rw [if_neg he, h.items e, hl]
        simp only [List.mem_append, List.mem_cons]
        tauto

end Accounts

end PersClient.Rbtree
