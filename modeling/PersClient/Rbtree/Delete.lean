import PersClient.Rbtree.Accounting

/-! # Deleting a tree, and the life of a tree

`jsw_rbdelete` turns left links to the right until the node at hand has none,
releases its item and the node, and goes on to the right. With the accounts of
the operations, whatever a tree was used for, deleting it gives back everything
that was allocated, and each place once.
-/

namespace PersClient.Rbtree

open LinkedTree Shape

section Delete

variable {α : Type}

def deleteLoop : ℕ → Memory α → Option ℕ → Option (Memory α)
  | 0, _, _ => none
  | _ + 1, m, none => some m
  | turns + 1, m, some it => do
    match ← getLink m.nodes (some it) false with
    | none =>
      let save ← getLink m.nodes (some it) true
      let n ← m.nodes it
      let m ← rel m n.data
      let m ← freeNode m it
      deleteLoop turns m save
    | some save =>
      let nodes ← setLink m.nodes (some it) false (← getLink m.nodes (some save) true)
      let nodes ← setLink nodes (some save) true (some it)
      deleteLoop turns { m with nodes } (some save)

/-- `jsw_rbdelete`: what is left when the tree is gone. -/
def jswRbdelete (m : Memory α) (tree : JswRbtree) : Option (Memory α) :=
  deleteLoop (2 * m.nextNode + 1) m tree.root

variable {m m' : Memory α} {s a b c : Shape} {i j d e turns : ℕ} {red red' : Bool}

def spine : Shape → ℕ
  | .nil => 0
  | .node _ _ _ sub => spine (sub true) + 1

theorem spine_le_size (s : Shape) : spine s ≤ s.size := by
  induction s with
  | nil => exact le_rfl
  | node i red d sub ih =>
    have hright := ih true
    simp only [spine, Shape.size]
    omega

structure Cleared (m : Memory α) (s : Shape) (m' : Memory α) : Prop where
  nodes : ∀ j, m'.nodes j = if j ∈ s.ids then none else m.nodes j
  items : ∀ d, m'.items d = if d ∈ labels s then none else m.items d

structure Deletable (m : Memory α) (s : Shape) : Prop where
  holds : s.Holds m.nodes
  nodup : s.ids.Nodup
  labels : (labels s).Nodup
  present : ∀ d ∈ Rbtree.labels s, (m.items d).isSome

theorem deleteLoop_turn
    (h : Deletable m (.node i red d (sides false (.node j red' e (sides false a b)) c))) :
    ∃ nodes, deleteLoop (turns + 1) m (some i) = deleteLoop turns { m with nodes } (some j) ∧
      Deletable { m with nodes } (.node j red' e (sides false a (.node i red d (sides false b c)))) ∧
      ∀ k ∉ (Shape.node i red d (sides false (.node j red' e (sides false a b)) c)).ids,
        nodes k = m.nodes k := by
  obtain ⟨hi, hleft, hc⟩ := Holds.sides_iff.mp h.holds
  obtain ⟨hj, ha, hb⟩ := Holds.sides_iff.mp hleft
  obtain ⟨hij, hic, hnleft, -, hdisjoint⟩ := nodup_sides h.nodup
  obtain ⟨hja, hjb, -, -, -⟩ := nodup_sides hnleft
  have hmem : ∀ {k}, k ∈ (Shape.node j red' e (sides false a b)).ids ↔
      k = j ∨ k ∈ a.ids ∨ k ∈ b.ids := mem_ids_sides
  have hjc : j ∉ c.ids := fun hin => hdisjoint (hmem.mpr (Or.inl rfl)) hin
  have hne : i ≠ j := fun heq => hij (hmem.mpr (Or.inl heq))
  have hia : i ∉ a.ids := fun hin => hij (hmem.mpr (Or.inr (Or.inl hin)))
  have hib : i ∉ b.ids := fun hin => hij (hmem.mpr (Or.inr (Or.inr hin)))
  set nodes₁ := Function.update m.nodes i (some ⟨red, some d, sides false b.ptr c.ptr⟩) with hnodes₁
  set nodes₂ := Function.update nodes₁ j (some ⟨red', some e, sides false a.ptr (some i)⟩) with hnodes₂
  have hj₁ : nodes₁ j = some ⟨red', some e, sides false a.ptr b.ptr⟩ :=
    (Function.update_of_ne hne.symm _ _).trans hj
  have hfirst : setLink m.nodes (some i) false b.ptr = some nodes₁ := by
    simp only [setLink, Option.bind_eq_bind, Option.bind_some, hi, update_sides_self, hnodes₁]
  have hsecond : setLink nodes₁ (some j) true (some i) = some nodes₂ := by
    have hupdate : Function.update (sides false a.ptr b.ptr) true (some i) =
        sides false a.ptr (some i) := update_sides_not false _ _ _
    simp only [setLink, Option.bind_eq_bind, Option.bind_some, hj₁, hupdate, hnodes₂]
  refine ⟨nodes₂, ?_, ⟨?_, ?_, ?_, ?_⟩, fun k hk => ?_⟩
  · have hlink : getLink m.nodes (some i) false = some (some j) := getLink_self h.holds
    have hright : getLink m.nodes (some j) true = some b.ptr := getLink_not hleft
    simp only [deleteLoop, hlink, hright, hfirst, hsecond, Option.bind_eq_bind, Option.bind_some]
  · refine Holds.sides_iff.mpr ⟨Function.update_self .., ?_, Holds.sides_iff.mpr ⟨?_, ?_, ?_⟩⟩
    · exact (ha.update_of_not_mem hia).update_of_not_mem hja
    · exact (Function.update_of_ne hne _ _).trans (Function.update_self ..)
    · exact (hb.update_of_not_mem hib).update_of_not_mem hjb
    · exact (hc.update_of_not_mem hic).update_of_not_mem hjc
  · exact ids_single_perm.nodup_iff.mp h.nodup
  · have hlabels := h.labels
    rwa [labels, inorder_single] at hlabels
  · have hpresent := h.present
    rwa [labels, inorder_single] at hpresent
  · rw [mem_ids_sides, hmem] at hk
    push Not at hk
    exact (Function.update_of_ne hk.2.1.1 _ _).trans (Function.update_of_ne hk.1 _ _)

theorem deleteLoop_release (h : Deletable m (.node i red d (sides false .nil c))) :
    ∃ m₁, deleteLoop (turns + 1) m (some i) = deleteLoop turns m₁ c.ptr ∧ Deletable m₁ c ∧
      m₁.nodes = Function.update m.nodes i none ∧ m₁.items = Function.update m.items d none := by
  obtain ⟨hi, -, hc⟩ := Holds.sides_iff.mp h.holds
  obtain ⟨-, hic, -, hnc, -⟩ := nodup_sides h.nodup
  have hlabels : labels (.node i red d (sides false .nil c)) = d :: labels c := rfl
  have hcons := h.labels
  rw [hlabels, List.nodup_cons] at hcons
  obtain ⟨item, hitem⟩ := Option.isSome_iff_exists.mp (h.present d (by simp [hlabels]))
  set m₁ : Memory α := { m with
    nodes := Function.update m.nodes i none, items := Function.update m.items d none } with hm₁
  refine ⟨m₁, ?_, ⟨hc.update_of_not_mem hic, hnc, hcons.2, fun f hf => ?_⟩, rfl, rfl⟩
  · have hleft : getLink m.nodes (some i) false = some none := getLink_self h.holds
    have hright : getLink m.nodes (some i) true = some c.ptr := getLink_not h.holds
    simp only [deleteLoop, hleft, hright, hi, rel, freeItem, hitem, freeNode, hm₁,
      Option.bind_eq_bind, Option.bind_some]
  · have hne : f ≠ d := by
      rintro rfl
      exact hcons.1 hf
    have hsame : m₁.items f = m.items f := Function.update_of_ne hne _ _
    rw [hsame]
    exact h.present f (by simp [hlabels, hf])

/-- The loop deletes a shape. Each turn gives up a node or adds one to the way
to the right. -/
theorem deleteLoop_spec (h : Deletable m s) (hturns : 2 * s.size - spine s < turns) :
    ∃ m', deleteLoop turns m s.ptr = some m' ∧ Cleared m s m' := by
  induction turns generalizing m s with
  | zero => omega
  | succ turns ih =>
    by_cases hs : s = .nil
    · subst hs
      exact ⟨m, rfl, fun _ => rfl, fun _ => rfl⟩
    · obtain ⟨i, red, d, left, c, rfl⟩ := Shape.exists_sides false hs
      by_cases hleft : left = .nil
      · subst hleft
        obtain ⟨m₁, hturn, hrest, hnodes, hitems⟩ := deleteLoop_release h
        have hspine := spine_le_size c
        have hmeasure : 2 * c.size - spine c < turns := by
          have hsize : (Shape.node i red d (sides false .nil c)).size = 0 + c.size + 1 := rfl
          have hway : spine (.node i red d (sides false .nil c)) = spine c + 1 := rfl
          omega
        obtain ⟨m', hloop, hcleared⟩ := ih hrest hmeasure
        refine ⟨m', hturn.trans hloop, fun k => ?_, fun f => ?_⟩
        · rw [hcleared.nodes, hnodes, Function.update_apply]
          have hmem : k ∈ (Shape.node i red d (sides false .nil c)).ids ↔ k = i ∨ k ∈ c.ids := by
            rw [mem_ids_sides]
            simp [ids]
          simp only [hmem]
          by_cases hk : k ∈ c.ids <;> simp [hk]
        · rw [hcleared.items, hitems, Function.update_apply]
          have hmem : f ∈ labels (.node i red d (sides false .nil c)) ↔ f = d ∨ f ∈ labels c :=
            List.mem_cons
          simp only [hmem]
          by_cases hf : f ∈ labels c <;> simp [hf]
      · obtain ⟨j, red', e, a, b, rfl⟩ := Shape.exists_sides false hleft
        obtain ⟨nodes, hturn, hrest, hout⟩ := deleteLoop_turn h
        have hspine := spine_le_size c
        have hmeasure : 2 * (Shape.node j red' e (sides false a (.node i red d (sides false b c)))).size -
            spine (.node j red' e (sides false a (.node i red d (sides false b c)))) < turns := by
          have hsize : (Shape.node i red d (sides false (.node j red' e (sides false a b)) c)).size =
              (a.size + b.size + 1) + c.size + 1 := rfl
          have hsize' : (Shape.node j red' e
              (sides false a (.node i red d (sides false b c)))).size =
              a.size + (b.size + c.size + 1) + 1 := rfl
          have hway : spine (.node i red d (sides false (.node j red' e (sides false a b)) c)) =
              spine c + 1 := rfl
          have hway' : spine (.node j red' e (sides false a (.node i red d (sides false b c)))) =
              spine c + 1 + 1 := rfl
          omega
        obtain ⟨m', hloop, hcleared⟩ := ih hrest hmeasure
        refine ⟨m', hturn.trans hloop, fun k => ?_, fun f => ?_⟩
        · rw [hcleared.nodes]
          by_cases hk : k ∈ (Shape.node i red d (sides false (.node j red' e (sides false a b)) c)).ids
          · rw [if_pos hk, if_pos (ids_single_perm.mem_iff.mp hk)]
          · rw [if_neg hk, if_neg fun hin => hk (ids_single_perm.mem_iff.mpr hin)]
            exact hout k hk
        · have hlabels : labels (.node i red d (sides false (.node j red' e (sides false a b)) c)) =
              labels (.node j red' e (sides false a (.node i red d (sides false b c)))) := by
            rw [labels, labels, inorder_single]
          rw [hcleared.items, hlabels]

end Delete

section Life

variable {α : Type} {key : α → ℤ} {m : Memory α} {tree : JswRbtree} {t : Tree α} {s : Shape}
  {data d : ℕ} {item a b : α} {held held' : List (ℕ × α)}

theorem Keeps.deletable (h : Keeps key m tree t s) : Deletable m s :=
  ⟨h.holds, h.nodup, h.sorted.labels_nodup, fun d hd => by
    obtain ⟨a, ha, -⟩ := h.item_of_mem hd
    exact Option.isSome_of_eq_some ha⟩

/-- `jsw_rbdelete` releases the nodes and items of the tree, each once. -/
theorem jswRbdelete_spec (h : Keeps key m tree t s) :
    ∃ m', jswRbdelete m tree = some m' ∧ Cleared m s m' := by
  have hsize := h.size_le
  unfold jswRbdelete
  rw [h.root]
  exact deleteLoop_spec h.deletable (by omega)

/-- The memory is that of a tree, which keeps a keyed tree, and of items held
beside it, each with its content. -/
structure Kept (key : α → ℤ) (m : Memory α) (tree : JswRbtree) (t : Tree α) (s : Shape)
    (held : List (ℕ × α)) : Prop where
  keeps : Keeps key m tree t s
  accounts : Accounts m s (held.map Prod.fst)
  beside : ∀ x ∈ held, Held m s x.1 x.2
  nodup : (held.map Prod.fst).Nodup

/-- A new tree in a memory without nodes and items, whatever it was used for before. -/
theorem kept_of_empty (hnodes : ∀ j, m.nodes j = none) (hitems : ∀ d, m.items d = none) :
    Kept key m jswRbnew Tree.new .nil [] := by
  refine ⟨⟨rfl, trivial, List.nodup_nil, ⟨0, rfl⟩, rfl, ⟨fun _ h => (by cases h), List.Pairwise.nil⟩,
    fun j _ => hnodes j, fun d _ => hitems d, fun k a => ?_⟩, ⟨?_, fun d => ?_⟩,
    fun _ hx => absurd hx List.not_mem_nil, List.nodup_nil⟩
  · exact ⟨fun h => (by cases h), fun ⟨_, h, _⟩ => (by cases h)⟩
  · ext j
    simp [allocated, hnodes, ids]
  · simp [hitems, labels, inorder]

theorem kept_new : Kept key (Memory.empty : Memory α) jswRbnew Tree.new .nil [] :=
  kept_of_empty (fun _ => rfl) fun _ => rfl

theorem Kept.there (h : Kept key m tree t s ((d, a) :: held)) : m.items d = some a :=
  (h.beside _ List.mem_cons_self).there

theorem Kept.newItem (h : Kept key m tree t s held) (a : α) :
    Kept key (newItem m a).2 tree t s ((m.nextItem, a) :: held) := by
  refine ⟨h.keeps.newItem a, h.accounts.newItem a, ?_, ?_⟩
  · intro x hx
    rcases List.mem_cons.mp hx with rfl | hx
    · exact h.keeps.held_new a
    · exact (h.beside x hx).beside_new h.keeps a
  · refine List.nodup_cons.mpr ⟨fun hmem => ?_, h.nodup⟩
    obtain ⟨x, hx, heq⟩ := List.mem_map.mp hmem
    exact absurd heq ((h.beside x hx).lt h.keeps).ne

theorem Kept.free (h : Kept key m tree t s ((d, a) :: held)) :
    ∃ m', freeItem m d = some m' ∧ Kept key m' tree t s held := by
  have hd := h.beside _ List.mem_cons_self
  obtain ⟨hout, hnodup⟩ := List.nodup_cons.mp h.nodup
  obtain ⟨m', hfree, hk, hrest⟩ := hd.free h.keeps
  refine ⟨m', hfree, hk, h.accounts.free hd.outside hout hfree, fun x hx => ?_, hnodup⟩
  refine hrest x.1 x.2 (fun heq => hout ?_) (h.beside x (List.mem_cons_of_mem _ hx))
  rw [← heq]
  exact List.mem_map_of_mem hx

theorem Kept.write (h : Kept key m tree t s ((d, a) :: held)) (b : α) :
    Kept key { m with items := Function.update m.items d (some b) } tree t s ((d, b) :: held) := by
  have hd := h.beside _ List.mem_cons_self
  have hout := (List.nodup_cons.mp h.nodup).1
  have hne : ∀ e ∈ labels s, e ≠ d := by
    rintro e he rfl
    exact hd.outside he
  refine ⟨h.keeps.congr rfl rfl (fun e he => Function.update_of_ne (hne e he) _ _) fun j hj => ?_,
    ⟨h.accounts.nodes, fun e => ?_⟩, ?_, h.nodup⟩
  · have hlt := hd.lt h.keeps
    have hle : m.nextItem ≤ j := hj
    have hfar : j ≠ d := by
      simp only at hlt
      omega
    exact (Function.update_of_ne hfar _ _).trans (h.keeps.itemsFresh j hj)
  · refine Iff.trans ?_ (h.accounts.items e)
    by_cases he : e = d
    · subst he
      simp [hd.there]
    · simp [Function.update_of_ne he]
  · intro x hx
    rcases List.mem_cons.mp hx with rfl | hx
    · exact ⟨Function.update_self .., hd.outside⟩
    · have hx' := h.beside x (List.mem_cons_of_mem _ hx)
      have hmem : x.1 ∈ held.map Prod.fst := List.mem_map_of_mem hx
      have hne : x.1 ≠ d := fun heq => hout (heq ▸ hmem)
      exact ⟨(Function.update_of_ne hne _ _).trans hx'.there, hx'.outside⟩

theorem Kept.insert (h : Kept key m tree t s held) (hitem : m.items data = some item) :
    ∃ tree' m' s', jswRbinsert (keyValCmp key) m tree data = some (tree', m') ∧
      Kept key m' tree' (t.insert (key item) item) s' held := by
  obtain ⟨tree', m', s', hcall, -, hgrown⟩ := jswRbinsert_grown h.keeps hitem
  obtain ⟨hk, hadded⟩ := h.keeps.insert hgrown.root hgrown.holds hgrown.nodup hgrown.balanced
    hgrown.black hgrown.fresh hgrown.effect
  exact ⟨tree', m', s', hcall, hk, h.accounts.insert h.keeps hcall hgrown,
    fun x hx => (h.beside x hx).added h.keeps hadded, h.nodup⟩

theorem Kept.erase (h : Kept key m tree t s held) (hitem : m.items data = some item) :
    ∃ tree' m' s', jswRberase (keyValCmp key) m tree data = some (tree', m') ∧
      Kept key m' tree' (t.erase (key item)) s' held := by
  obtain ⟨tree', m', s', hcall, -, hshrunk⟩ := jswRberase_shrunk h.keeps hitem
  obtain ⟨hk, hdropped⟩ := h.keeps.erase hshrunk.root hshrunk.holds hshrunk.nodup hshrunk.balanced
    hshrunk.black hshrunk.fresh hshrunk.nextItem hshrunk.effect
  have hheld : ∀ d ∈ held.map Prod.fst, d ∉ labels s := by
    intro d hd
    obtain ⟨x, hx, rfl⟩ := List.mem_map.mp hd
    exact (h.beside x hx).outside
  exact ⟨tree', m', s', hcall, hk, h.accounts.erase h.keeps hheld hcall hshrunk,
    fun x hx => (h.beside x hx).dropped hdropped, h.nodup⟩

theorem Kept.find (h : Kept key m tree t s held) (hitem : m.items data = some item) :
    ∃ found, jswRbfind (keyValCmp key) m tree data = some found ∧
      (found = none → t.find (key item) = none) ∧
      ∀ d, found = some d → ∃ a, m.items d = some a ∧ key a = key item ∧
        t.find (key item) = some a := by
  obtain ⟨found, hcall, hnone, hsome⟩ := jswRbfind_spec h.keeps hitem
  exact ⟨found, hcall, hnone, fun d hd => (hsome d hd).2⟩

theorem Kept.delete (h : Kept key m tree t s held) :
    ∃ m', jswRbdelete m tree = some m' ∧ (∀ j, m'.nodes j = none) ∧
      (∀ d, (m'.items d).isSome ↔ d ∈ held.map Prod.fst) ∧ ∀ x ∈ held, m'.items x.1 = some x.2 := by
  obtain ⟨m', hcall, hcleared⟩ := jswRbdelete_spec h.keeps
  refine ⟨m', hcall, fun j => ?_, fun d => ?_, fun x hx => ?_⟩
  · rw [hcleared.nodes]
    by_cases hj : j ∈ s.ids
    · rw [if_pos hj]
    · rw [if_neg hj, ← Option.not_isSome_iff_eq_none]
      intro hsome
      have hmem : j ∈ allocated m.nodes := hsome
      rw [h.accounts.nodes] at hmem
      exact hj hmem
  · rw [hcleared.items]
    by_cases hd : d ∈ labels s
    · rw [if_pos hd]
      refine iff_of_false Bool.false_ne_true fun hmem => ?_
      obtain ⟨x, hx, rfl⟩ := List.mem_map.mp hmem
      exact (h.beside x hx).outside hd
    · rw [if_neg hd, h.accounts.items d]
      exact or_iff_right hd
  · rw [hcleared.items, if_neg (h.beside x hx).outside]
    exact (h.beside x hx).there

end Life

section Uses

variable {α : Type}

/-- A use of a tree: an item is allocated, a call is made with it, and it is released. -/
inductive TreeUse (α : Type)
  | insert (item : α)
  | erase (item : α)
  | find (item : α)

namespace TreeUse

def perform (cmp : α → α → ℤ) (u : JswRbtree × Memory α) : TreeUse α → Option (JswRbtree × Memory α)
  | insert item => do
    let (data, m) := newItem u.2 item
    let (tree, m) ← jswRbinsert cmp m u.1 data
    some (tree, ← freeItem m data)
  | erase item => do
    let (data, m) := newItem u.2 item
    let (tree, m) ← jswRberase cmp m u.1 data
    some (tree, ← freeItem m data)
  | find item => do
    let (data, m) := newItem u.2 item
    let _ ← jswRbfind cmp m u.1 data
    some (u.1, ← freeItem m data)

/-- The uses of a tree since it was made. -/
def performAll (cmp : α → α → ℤ) (uses : List (TreeUse α)) : Option (JswRbtree × Memory α) :=
  uses.foldlM (perform cmp) (jswRbnew, Memory.empty)

/-- What a use does to the keyed tree. -/
def change (key : α → ℤ) (t : Tree α) : TreeUse α → Tree α
  | insert item => t.insert (key item) item
  | erase item => t.erase (key item)
  | find _ => t

/-- The item that a search with an item gives. -/
def lookupItem (cmp : α → α → ℤ) (u : JswRbtree × Memory α) (item : α) : Option (Option α) := do
  let (data, m) := newItem u.2 item
  match ← jswRbfind cmp m u.1 data with
  | none => some none
  | some found =>
    let found ← m.items found
    some (some found)

end TreeUse

variable {key : α → ℤ} {u : JswRbtree × Memory α} {t : Tree α} {s : Shape} {item : α}

abbrev Resting (key : α → ℤ) (u : JswRbtree × Memory α) (t : Tree α) (s : Shape) : Prop :=
  Kept key u.2 u.1 t s []

/-- A use of a resting tree goes through, changes the keyed tree and leaves the tree resting. -/
theorem Resting.use (h : Resting key u t s) (use : TreeUse α) :
    ∃ u' s', use.perform (keyValCmp key) u = some u' ∧ Resting key u' (use.change key t) s' := by
  obtain ⟨tree, m⟩ := u
  have hnew : ∀ item : α, newItem m item = (m.nextItem, (newItem m item).2) := fun _ => rfl
  cases use with
  | insert item =>
    have hk := h.newItem item
    obtain ⟨tree', m₁, s', hcall, hk'⟩ := hk.insert hk.there
    obtain ⟨m₂, hfree, hrest⟩ := hk'.free
    refine ⟨(tree', m₂), s', ?_, hrest⟩
    simp only [TreeUse.perform]
    rw [hnew]
    simp only [hcall, hfree, Option.bind_eq_bind, Option.bind_some]
  | erase item =>
    have hk := h.newItem item
    obtain ⟨tree', m₁, s', hcall, hk'⟩ := hk.erase hk.there
    obtain ⟨m₂, hfree, hrest⟩ := hk'.free
    refine ⟨(tree', m₂), s', ?_, hrest⟩
    simp only [TreeUse.perform]
    rw [hnew]
    simp only [hcall, hfree, Option.bind_eq_bind, Option.bind_some]
  | find item =>
    have hk := h.newItem item
    obtain ⟨found, hcall, -, -⟩ := hk.find hk.there
    obtain ⟨m₂, hfree, hrest⟩ := hk.free
    refine ⟨(tree, m₂), s, ?_, hrest⟩
    simp only [TreeUse.perform]
    rw [hnew]
    simp only [hcall, hfree, Option.bind_eq_bind, Option.bind_some]

theorem Resting.uses (h : Resting key u t s) (uses : List (TreeUse α)) :
    ∃ u' s', uses.foldlM (TreeUse.perform (keyValCmp key)) u = some u' ∧
      Resting key u' (uses.foldl (TreeUse.change key) t) s' := by
  induction uses generalizing u t s with
  | nil => exact ⟨u, s, rfl, h⟩
  | cons use uses ih =>
    obtain ⟨u₁, s₁, hfirst, h₁⟩ := h.use use
    obtain ⟨u₂, s₂, hrest, h₂⟩ := ih h₁
    refine ⟨u₂, s₂, ?_, h₂⟩
    rw [List.foldlM_cons, hfirst]
    exact hrest

theorem Resting.lookup (h : Resting key u t s) (item : α) :
    TreeUse.lookupItem (keyValCmp key) u item = some (t.find (key item)) := by
  obtain ⟨tree, m⟩ := u
  have hk := h.newItem item
  obtain ⟨found, hcall, hnone, hsome⟩ := hk.find hk.there
  have hnew : newItem m item = (m.nextItem, (newItem m item).2) := rfl
  simp only [TreeUse.lookupItem]
  rw [hnew]
  simp only [hcall, Option.bind_eq_bind, Option.bind_some]
  cases found with
  | none => rw [hnone rfl]
  | some d =>
    obtain ⟨a, ha, -, hfind⟩ := hsome d rfl
    simp only [ha, hfind, Option.bind_some]

/-- Whatever a tree was used for, it answers as the keyed tree does, and deleting
it leaves nothing allocated; no place was given back twice on the way. -/
theorem tree_lives (key : α → ℤ) (uses : List (TreeUse α)) :
    ∃ u, TreeUse.performAll (keyValCmp key) uses = some u ∧
      (∀ item, TreeUse.lookupItem (keyValCmp key) u item =
        some ((uses.foldl (TreeUse.change key) Tree.new).find (key item))) ∧
      ∃ m, jswRbdelete u.2 u.1 = some m ∧ (∀ j, m.nodes j = none) ∧ ∀ d, m.items d = none := by
  have hstart : Resting key (jswRbnew, Memory.empty) Tree.new .nil := kept_new
  obtain ⟨u, s, hrun, hrest⟩ := hstart.uses uses
  obtain ⟨m, hdelete, hnodes, hitems, -⟩ := hrest.delete
  refine ⟨u, hrun, hrest.lookup, m, hdelete, hnodes, fun d => ?_⟩
  rw [← Option.not_isSome_iff_eq_none, hitems]
  exact List.not_mem_nil

end Uses

end PersClient.Rbtree
