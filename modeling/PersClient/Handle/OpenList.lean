import PersClient.Handle.Records
import PersClient.Lib.LinkedList

/-! # The items of the lists of descriptors

The list functions of `handle.c` item by item, `none` where an item is read that
was given back. Inserting and removing are those of the list of descriptors.
`list_iterate` reads the item again after its callback.
-/

namespace PersClient.Handle.Items

open LinkedList

section Source

/-- `PersList_item_s`, from the pointer to the first one. -/
abbrev PersList := Linked ℤ

/-- The walk of `list_item_insert` to the last item. -/
def insertFrom (fd : ℤ) : ℕ → ℕ → PersList → Option PersList
  | 0, _, _ => none
  | n + 1, tmp, list =>
    (list.items tmp).bind fun item =>
      match item.next with
      | none => some ((list.alloc fd).setNext tmp (some list.fresh))
      | some next => insertFrom fd n next list

def listItemInsert (list : PersList) (fd : ℤ) : Option (ℤ × PersList) :=
  match list.head with
  | some tmp => (insertFrom fd list.fresh tmp list).map fun list => (1, list)
  | none => some (1, (list.alloc fd).setHead (some list.fresh))

/-- The walk of `list_item_remove`, behind the item `last`. -/
def removeFrom (fd : ℤ) : ℕ → Option ℕ → Option ℕ → PersList → Option (ℤ × PersList)
  | _, _, none, list => some (-1, list)
  | 0, _, some _, _ => none
  | n + 1, last, some tmp, list =>
    (list.items tmp).bind fun item =>
      if item.value = fd then
        if list.head = some tmp then some (1, (list.setHead item.next).free tmp)
        else last.map fun last => (1, (list.setNext last item.next).free tmp)
      else removeFrom fd n (some tmp) item.next list

def listItemRemove (list : PersList) (fd : ℤ) : Option (ℤ × PersList) :=
  removeFrom fd list.fresh none list.head list

/-- The walk of `list_destroy`: the next item is read before one is given back. -/
def destroyFrom : ℕ → Option ℕ → PersList → Option PersList
  | _, none, list => some list
  | 0, some _, _ => none
  | n + 1, some tmp, list =>
    (list.items tmp).bind fun item => destroyFrom n item.next (list.free tmp)

def listDestroy (list : PersList) : Option PersList :=
  (destroyFrom list.fresh list.head list).map fun list => list.setHead none

variable {σ : Type*} (list : σ → PersList) (callback : ℤ → σ → Option σ)

/-- The walk of `list_iterate` in a state that has the list. -/
def iterateFrom : ℕ → Option ℕ → σ → Option σ
  | _, none, s => some s
  | 0, some _, _ => none
  | n + 1, some tmp, s =>
    ((list s).items tmp).bind fun item =>
      (callback item.value s).bind fun s =>
        ((list s).items tmp).bind fun item => iterateFrom n item.next s

def listIterate (s : σ) : Option σ := iterateFrom list callback (list s).fresh (list s).head s

end Source

section Refinement

variable {list : PersList} {fd : ℤ} {l : List ℤ} {done todo pre post : List (ℕ × ℤ)}
  {i n tmp : ℕ} {p : Option ℕ}

theorem insertFrom_holds (fd : ℤ) (hlist : list.Holds (done ++ todo)) (hne : todo ≠ [])
    (htodo : Segment list.items (some tmp) todo none) (hn : todo.length ≤ n) :
    ∃ list', insertFrom fd n tmp list = some list' ∧
      list'.Holds (done ++ todo ++ [(list.fresh, fd)]) := by
  induction n generalizing done todo tmp with
  | zero => exact absurd (List.length_eq_zero_iff.mp (Nat.le_zero.mp hn)) hne
  | succ n ih =>
    obtain ⟨⟨j, b⟩, rest, rfl⟩ := List.exists_cons_of_ne_nil hne
    obtain ⟨hj, next, hitem, hrest⟩ := htodo
    cases hj
    rw [insertFrom, hitem, Option.bind_some]
    cases next with
    | none =>
      have hlast : rest = [] := by
        cases rest with
        | nil => rfl
        | cons cell rest => cases hrest.1
      subst hlast
      exact ⟨_, rfl, hlist.alloc_last⟩
    | some next =>
      have hmore : rest ≠ [] := by
        rintro rfl
        cases hrest
      have hshift : done ++ (tmp, b) :: rest = done ++ [(tmp, b)] ++ rest := by simp
      rw [hshift] at hlist ⊢
      exact ih hlist hmore hrest (Nat.le_of_succ_le_succ hn)

/-- `list_item_insert` on the items is that on the descriptors. -/
theorem listItemInsert_represents (fd : ℤ) (hlist : list.Represents l) :
    ∃ list', listItemInsert list fd = some (1, list') ∧
      list'.Represents (Handle.listItemInsert l fd) := by
  obtain ⟨cells, hcells, rfl⟩ := hlist
  unfold listItemInsert Handle.listItemInsert
  cases hhead : list.head with
  | none =>
    have hempty : cells.map Prod.snd = [] := by
      have hsegment := hcells.segment
      rw [hhead] at hsegment
      cases cells with
      | nil => rfl
      | cons cell cells => cases hsegment.1
    exact ⟨_, rfl, [(list.fresh, fd)], Linked.alloc_holds, by rw [hempty]; rfl⟩
  | some tmp =>
    have hne : cells ≠ [] := by
      rintro rfl
      cases hhead.symm.trans hcells.segment
    have hsegment := hcells.segment
    rw [hhead] at hsegment
    have hcells' : list.Holds ([] ++ cells) := hcells
    obtain ⟨list', hinsert, hholds⟩ := insertFrom_holds fd hcells' hne hsegment hcells.length_le
    refine ⟨list', ?_, _, hholds, by simp⟩
    simp only [hinsert, Option.map_some]

theorem removeFrom_absent (htodo : Segment list.items p todo none) (hn : todo.length ≤ n)
    (hfree : ∀ cell ∈ todo, cell.2 ≠ fd) (last : Option ℕ) :
    removeFrom fd n last p list = some (-1, list) := by
  induction todo generalizing n p last with
  | nil =>
    cases htodo
    cases n <;> rfl
  | cons cell todo ih =>
    obtain ⟨rfl, next, hitem, hrest⟩ := htodo
    cases n with
    | zero => exact absurd hn (Nat.not_succ_le_zero _)
    | succ n =>
      rw [removeFrom, hitem, Option.bind_some, if_neg (hfree cell List.mem_cons_self)]
      exact ih hrest (Nat.le_of_succ_le_succ hn)
        (fun c hc => hfree c (List.mem_cons_of_mem _ hc)) _

theorem removeFrom_found (hlist : list.Holds (done ++ (pre ++ (i, fd) :: post)))
    (htodo : Segment list.items p (pre ++ (i, fd) :: post) none)
    (hn : (pre ++ (i, fd) :: post).length ≤ n) (hfree : ∀ cell ∈ pre, cell.2 ≠ fd) :
    ∃ list', removeFrom fd n (done.getLast?.map Prod.fst) p list = some (1, list') ∧
      list'.Holds (done ++ (pre ++ post)) ∧ list'.items i = none := by
  induction pre generalizing done n p with
  | nil =>
    obtain ⟨rfl, next, hitem, hrest⟩ := htodo
    cases n with
    | zero => exact absurd hn (Nat.not_succ_le_zero _)
    | succ n =>
      rw [removeFrom, hitem, Option.bind_some, if_pos rfl]
      rcases List.eq_nil_or_concat' done with rfl | ⟨done, ⟨j, b⟩, rfl⟩
      · rw [if_pos hlist.segment.1]
        exact ⟨_, rfl, hlist.unlink_head hitem, Linked.items_free_self⟩
      · have hhead : list.head ≠ some i := hlist.head_ne (by simp)
        have hshape : done ++ [(j, b)] ++ ([] ++ (i, fd) :: post) =
            done ++ (j, b) :: (i, fd) :: post := by simp
        rw [hshape] at hlist
        rw [if_neg hhead, List.getLast?_append_cons]
        have hunlink := hlist.unlink hitem
        refine ⟨_, rfl, ?_, Linked.items_free_self⟩
        simpa using hunlink
  | cons cell pre ih =>
    obtain ⟨rfl, next, hitem, hrest⟩ := htodo
    cases n with
    | zero => exact absurd hn (Nat.not_succ_le_zero _)
    | succ n =>
      rw [removeFrom, hitem, Option.bind_some, if_neg (hfree cell List.mem_cons_self)]
      have hshift : done ++ (cell :: pre ++ (i, fd) :: post) =
          done ++ [cell] ++ (pre ++ (i, fd) :: post) := by simp
      rw [hshift] at hlist
      obtain ⟨list', hremove, hholds, hfreed⟩ := ih hlist hrest (Nat.le_of_succ_le_succ hn)
        fun c hc => hfree c (List.mem_cons_of_mem _ hc)
      rw [List.getLast?_append_cons] at hremove
      exact ⟨list', hremove, by simpa using hholds, hfreed⟩

theorem listItemRemove_found (hlist : list.Holds (pre ++ (i, fd) :: post))
    (hfree : ∀ cell ∈ pre, cell.2 ≠ fd) :
    ∃ list', listItemRemove list fd = some (1, list') ∧ list'.Holds (pre ++ post) ∧
      list'.items i = none := by
  have hlist' : list.Holds ([] ++ (pre ++ (i, fd) :: post)) := hlist
  exact removeFrom_found hlist' hlist.segment hlist.length_le hfree

/-- `list_item_remove` on the items is that on the descriptors. -/
theorem listItemRemove_represents (fd : ℤ) (hlist : list.Represents l) :
    ∃ rval list', listItemRemove list fd = some (rval, list') ∧
      list'.Represents (Handle.listItemRemove l fd) := by
  obtain ⟨cells, hcells, rfl⟩ := hlist
  by_cases hmem : fd ∈ cells.map Prod.snd
  · obtain ⟨front, back, hsplit, hfront⟩ := List.eq_append_cons_of_mem hmem
    obtain ⟨pre, rest, rfl, rfl, hrest⟩ := List.map_eq_append_iff.mp hsplit
    obtain ⟨⟨i, a⟩, post, rfl, rfl, rfl⟩ := List.map_eq_cons_iff.mp hrest
    have hfree : ∀ cell ∈ pre, cell.2 ≠ a := by
      rintro cell hcell rfl
      exact hfront (List.mem_map.mpr ⟨cell, hcell, rfl⟩)
    obtain ⟨list', hremove, hholds, -⟩ := listItemRemove_found hcells hfree
    refine ⟨1, list', hremove, pre ++ post, hholds, ?_⟩
    rw [Handle.listItemRemove, hsplit, List.erase_append_right _ hfront, List.erase_cons_head,
      List.map_append]
  · have hfree : ∀ cell ∈ cells, cell.2 ≠ fd := by
      rintro cell hcell rfl
      exact hmem (List.mem_map.mpr ⟨cell, hcell, rfl⟩)
    have habsent := removeFrom_absent hcells.segment hcells.length_le hfree none
    exact ⟨-1, list, habsent, cells, hcells, (List.erase_of_not_mem hmem).symm⟩

theorem destroyFrom_some (htodo : Segment list.items p todo none)
    (hnodup : (todo.map Prod.fst).Nodup) (hn : todo.length ≤ n) :
    ∃ list', destroyFrom n p list = some list' := by
  induction todo generalizing n p list with
  | nil =>
    cases htodo
    cases n <;> exact ⟨list, rfl⟩
  | cons cell todo ih =>
    obtain ⟨rfl, next, hitem, hrest⟩ := htodo
    obtain ⟨hne, hnodup⟩ := List.nodup_cons.mp hnodup
    cases n with
    | zero => exact absurd hn (Nat.not_succ_le_zero _)
    | succ n =>
      rw [destroyFrom, hitem, Option.bind_some]
      refine ih (hrest.congr fun c hc => Linked.items_free ?_) hnodup (Nat.le_of_succ_le_succ hn)
      rintro heq
      exact hne (List.mem_map.mpr ⟨c, hc, heq⟩)

/-- `list_destroy` on the items leaves the empty list. -/
theorem listDestroy_represents (hlist : list.Represents l) :
    ∃ list', listDestroy list = some list' ∧ list'.Represents [] := by
  obtain ⟨cells, hcells, rfl⟩ := hlist
  obtain ⟨list', hdestroy⟩ := destroyFrom_some hcells.segment hcells.nodup hcells.length_le
  refine ⟨list'.setHead none, ?_, Linked.represents_nil.mpr rfl⟩
  rw [listDestroy, hdestroy, Option.map_some]

theorem exists_represents (l : List ℤ) : ∃ list : PersList, list.Represents l := by
  induction l using List.reverseRecOn with
  | nil => exact ⟨Linked.empty, Linked.empty_represents⟩
  | append_singleton l fd ih =>
    obtain ⟨list, hlist⟩ := ih
    obtain ⟨list', -, hlist'⟩ := listItemInsert_represents fd hlist
    exact ⟨list', hlist'⟩

end Refinement

section Iterate

variable {σ : Type*} {list : σ → PersList} {callback : ℤ → σ → Option σ} {s s' : σ}
  {pre cells : List (ℕ × ℤ)} {i n : ℕ} {fd : ℤ} {p : Option ℕ}

/-- A callback that leaves the items as they are is called for one after the other. -/
theorem iterateFrom_foldl {inv : σ → Prop} {f : ℤ → σ → σ} {items : ℕ → Option (Item ℤ)}
    (hitems : ∀ s, inv s → (list s).items = items)
    (hcallback : ∀ cell ∈ cells, ∀ s, inv s → callback cell.2 s = some (f cell.2 s) ∧
      inv (f cell.2 s))
    (hcells : Segment items p cells none) (hn : cells.length ≤ n) (hs : inv s) :
    iterateFrom list callback n p s =
      some ((cells.map Prod.snd).foldl (fun s fd => f fd s) s) := by
  induction cells generalizing n p s with
  | nil =>
    cases hcells
    cases n <;> rfl
  | cons cell cells ih =>
    obtain ⟨rfl, next, hitem, hrest⟩ := hcells
    obtain ⟨hcall, hinv⟩ := hcallback cell List.mem_cons_self s hs
    cases n with
    | zero => exact absurd hn (Nat.not_succ_le_zero _)
    | succ n =>
      rw [iterateFrom, hitems s hs, hitem, Option.bind_some, hcall, Option.bind_some,
        hitems _ hinv, hitem, Option.bind_some]
      exact ih (fun c hc => hcallback c (List.mem_cons_of_mem _ hc)) hrest
        (Nat.le_of_succ_le_succ hn) hinv

/-- `list_iterate` with such a callback is a fold over the descriptors. -/
theorem listIterate_foldl {inv : σ → Prop} (f : ℤ → σ → σ) {l : List ℤ}
    (hlist : (list s).Represents l) (hitems : ∀ t, inv t → (list t).items = (list s).items)
    (hcallback : ∀ fd ∈ l, ∀ t, inv t → callback fd t = some (f fd t) ∧ inv (f fd t))
    (hs : inv s) : listIterate list callback s = some (l.foldl (fun t fd => f fd t) s) := by
  obtain ⟨cells, hcells, rfl⟩ := hlist
  exact iterateFrom_foldl hitems
    (fun cell hcell => hcallback cell.2 (List.mem_map_of_mem hcell)) hcells.segment
    hcells.length_le hs

/-- Once a callback gives the item back it was called for, the walk goes astray. -/
theorem iterateFrom_none (hcells : Segment (list s).items p (pre ++ (i, fd) :: cells) none)
    (hpre : ∀ cell ∈ pre, callback cell.2 s = some s) (hcall : callback fd s = some s')
    (hfreed : (list s').items i = none) (n : ℕ) : iterateFrom list callback n p s = none := by
  induction pre generalizing n p with
  | nil =>
    obtain ⟨rfl, next, hitem, -⟩ := hcells
    cases n with
    | zero => rfl
    | succ n =>
      rw [iterateFrom, hitem, Option.bind_some, hcall, Option.bind_some, hfreed, Option.bind_none]
  | cons cell pre ih =>
    obtain ⟨rfl, next, hitem, hrest⟩ := hcells
    cases n with
    | zero => rfl
    | succ n =>
      rw [iterateFrom, hitem, Option.bind_some, hpre cell List.mem_cons_self, Option.bind_some,
        hitem, Option.bind_some]
      exact ih hrest (fun c hc => hpre c (List.mem_cons_of_mem _ hc)) n

end Iterate

end PersClient.Handle.Items
