import PersClient.Rbtree.Map

/-! # Items a tree refers to

What the links of a tree lead to is found in the memory alone, whatever was done
to it. A tree that keeps a keyed tree refers to items that are there, and still
refers to an item that is released behind its back.
-/

namespace PersClient.Rbtree

open LinkedTree

inductive Reaches (h : Nodes) : Option ℕ → ℕ → Prop
  | here {i d : ℕ} {n : Node} (node : h i = some n) (data : n.data = some d) :
    Reaches h (some i) d
  | link {i d : ℕ} {n : Node} (dir : Bool) (node : h i = some n) (rest : Reaches h (n.link dir) d) :
    Reaches h (some i) d

def Owns {α : Type} (m : Memory α) (tree : Option JswRbtree) : Prop :=
  ∀ t d, tree = some t → Reaches m.nodes t.root d → (m.items d).isSome

variable {α : Type} {key : α → ℤ} {m m' : Memory α} {tree : JswRbtree} {t : Tree α}
  {s s' : Shape} {h : Nodes} {d e : ℕ} {a b : α}

theorem mem_labels_node {i data : ℕ} {red : Bool} {sub : Bool → Shape} :
    d ∈ labels (.node i red data sub) ↔ d = data ∨ ∃ dir, d ∈ labels (sub dir) := by
  simp only [labels, Shape.inorder, List.map_append, List.map_cons, List.mem_append, List.mem_cons,
    Bool.exists_bool]
  tauto

theorem reaches_iff (hs : s.Holds h) : Reaches h s.ptr d ↔ d ∈ labels s := by
  induction s with
  | nil =>
    constructor
    · rintro ⟨⟩
    · intro hd
      cases hd
  | node i red data sub ih =>
    obtain ⟨hi, hleft, hright⟩ := hs
    have hsub : ∀ dir, (sub dir).Holds h := Bool.forall_bool.mpr ⟨hleft, hright⟩
    rw [mem_labels_node]
    constructor
    · rintro (⟨hnode, hdata⟩ | ⟨dir, hnode, hrest⟩)
      · cases hi.symm.trans hnode
        exact Or.inl (Option.some.inj hdata).symm
      · cases hi.symm.trans hnode
        exact Or.inr ⟨dir, (ih dir (hsub dir)).mp hrest⟩
    · rintro (rfl | ⟨dir, hd⟩)
      · exact .here hi rfl
      · exact .link dir hi ((ih dir (hsub dir)).mpr hd)

theorem Keeps.owns (hk : Keeps key m tree t s) : Owns m (some tree) := by
  rintro _ d ⟨⟩ hreach
  rw [hk.root, reaches_iff hk.holds] at hreach
  obtain ⟨a, ha, -⟩ := hk.item_of_mem hreach
  exact Option.isSome_of_eq_some ha

theorem owns_none : Owns m none := fun _ _ htree => by cases htree

theorem Keeps.not_owns (hk : Keeps key m tree t s) (hd : d ∈ labels s) (hnodes : m'.nodes = m.nodes)
    (hreleased : m'.items d = none) : ¬ Owns m' (some tree) := by
  intro howns
  have hreach : Reaches m'.nodes tree.root d := by
    rw [hnodes, hk.root]
    exact (reaches_iff hk.holds).mpr hd
  have hsome := howns tree d rfl hreach
  rw [hreleased] at hsome
  cases hsome

structure Held (m : Memory α) (s : Shape) (d : ℕ) (a : α) : Prop where
  there : m.items d = some a
  outside : d ∉ labels s

theorem Held.lt (hd : Held m s d a) (hk : Keeps key m tree t s) : d < m.nextItem := by
  by_contra hge
  cases hd.there.symm.trans (hk.itemsFresh d (not_lt.mp hge))

theorem Keeps.held_new (hk : Keeps key m tree t s) (a : α) :
    Held (Rbtree.newItem m a).2 s m.nextItem a :=
  ⟨Function.update_self .., hk.new_not_mem le_rfl⟩

theorem Held.beside_new (hd : Held m s d a) (hk : Keeps key m tree t s) (b : α) :
    Held (newItem m b).2 s d a :=
  ⟨(Function.update_of_ne (hd.lt hk).ne _ _).trans hd.there, hd.outside⟩

theorem Held.added (hd : Held m s d a) (hk : Keeps key m tree t s) (hadded : Added m m' s s') :
    Held m' s' d a := by
  have hlt := hd.lt hk
  refine ⟨(hadded.items d hlt).trans hd.there, fun hmem => ?_⟩
  rcases hadded.placed d hmem with hmem | rfl
  · exact hd.outside hmem
  · exact absurd hlt (lt_irrefl _)

theorem Held.dropped {k : ℤ} (hd : Held m s d a) (hdropped : Dropped key k m m' s s') :
    Held m' s' d a :=
  ⟨(hdropped.items d hd.outside).trans hd.there, fun hmem => hd.outside (hdropped.kept d hmem)⟩

theorem Held.free (hd : Held m s d a) (hk : Keeps key m tree t s) :
    ∃ m', freeItem m d = some m' ∧ Keeps key m' tree t s ∧
      ∀ e b, e ≠ d → Held m s e b → Held m' s e b := by
  obtain ⟨m', hfree, hk', -, hitems⟩ := hk.freeItem hd.outside hd.there
  refine ⟨m', hfree, hk', fun e b hne he => ⟨?_, he.outside⟩⟩
  rw [hitems]
  exact (Function.update_of_ne hne _ _).trans he.there

end PersClient.Rbtree
