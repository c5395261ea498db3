import PersClient.Lib.Tree
import PersClient.Rbtree.Erase

/-! # The trees of the library are keyed trees

A red-black tree in memory keeps a keyed tree: its items in search order are
those of the keyed tree. Each operation succeeds, and does to the keyed tree
what that one's own operation says; items outside the tree stay as they are.
-/

namespace PersClient.Rbtree

open LinkedTree Shape

section Labels

variable {α : Type} {κ : Type*} [LinearOrder κ] {key : α → κ} {items items' : ℕ → Option α}
  {l l' l₁ l₂ : List (ℕ × ℕ)} {i d : ℕ} {a : α}

def labels (s : Shape) : List ℕ := s.inorder.map Prod.snd

theorem Sorted.congr (h : Sorted key items l) (heq : ∀ x ∈ l, items' x.2 = items x.2) :
    Sorted key items' l := by
  constructor
  · intro x hx
    rw [heq x hx]
    exact h.present x hx
  · refine h.falling.imp_of_mem fun hx hy hxy a b => ?_
    rw [heq _ hx, heq _ hy]
    exact hxy a b

theorem Sorted.of_labels (h : Sorted key items l)
    (hsub : (l'.map Prod.snd).Sublist (l.map Prod.snd)) : Sorted key items l' := by
  have hfalling : (l.map Prod.snd).Pairwise fun d e =>
      ∀ a b, items d = some a → items e = some b → key b < key a := List.pairwise_map.mpr h.falling
  constructor
  · intro x hx
    obtain ⟨y, hy, heq⟩ := List.mem_map.mp (hsub.subset (List.mem_map_of_mem hx))
    rw [← heq]
    exact h.present y hy
  · exact List.pairwise_map.mp (hfalling.sublist hsub)

theorem Sorted.insert (h : Sorted key items (l₁ ++ l₂)) (hd : items d = some a)
    (hgreater : ∀ x ∈ l₁, ∃ b, items x.2 = some b ∧ key a < key b)
    (hless : ∀ x ∈ l₂, ∃ b, items x.2 = some b ∧ key b < key a) :
    Sorted key items (l₁ ++ (i, d) :: l₂) := by
  obtain ⟨hleft, hright, hcross⟩ := h.of_append
  constructor
  · intro x hx
    rcases List.mem_append.mp hx with hx | hx
    · exact hleft.present x hx
    · rcases List.mem_cons.mp hx with rfl | hx
      · exact ⟨a, hd⟩
      · exact hright.present x hx
  · rw [List.pairwise_append, List.pairwise_cons]
    refine ⟨hleft.falling, ⟨fun y hy b c hb hc => ?_, hright.falling⟩, fun x hx y hy b c hb hc => ?_⟩
    · cases hb.symm.trans hd
      obtain ⟨e, he, hlt⟩ := hless y hy
      cases hc.symm.trans he
      exact hlt
    · rcases List.mem_cons.mp hy with rfl | hy
      · cases hc.symm.trans hd
        obtain ⟨e, he, hlt⟩ := hgreater x hx
        cases hb.symm.trans he
        exact hlt
      · exact hcross x hx y hy b c hb hc

end Labels

section Kept

variable {α : Type} {key : α → ℤ} {m m' : Memory α} {tree : JswRbtree} {t : Tree α} {s : Shape}
  {data d : ℕ} {item a : α} {k : ℤ}

/-- The keyed tree that a red-black tree in memory keeps. -/
structure Keeps (key : α → ℤ) (m : Memory α) (tree : JswRbtree) (t : Tree α) (s : Shape) : Prop where
  root : tree.root = s.ptr
  holds : s.Holds m.nodes
  nodup : s.ids.Nodup
  balanced : ∃ n, s.Balanced n
  black : s.isRed = false
  sorted : Sorted key m.items s.inorder
  nodesFresh : ∀ j, m.nextNode ≤ j → m.nodes j = none
  itemsFresh : ∀ j, m.nextItem ≤ j → m.items j = none
  find : ∀ k a, t.find k = some a ↔ ∃ d ∈ labels s, m.items d = some a ∧ key a = k

theorem keeps_new : Keeps key (Memory.empty : Memory α) jswRbnew Tree.new .nil :=
  ⟨rfl, trivial, List.nodup_nil, ⟨0, rfl⟩, rfl, ⟨fun _ h => (by cases h), List.Pairwise.nil⟩,
    fun _ _ => rfl, fun _ _ => rfl, fun _ _ => ⟨fun h => (by cases h), fun ⟨_, h, _⟩ => (by cases h)⟩⟩

theorem Keeps.size_le (h : Keeps key m tree t s) : s.size ≤ m.nextNode := by
  have hlt : ∀ j ∈ s.ids, j < m.nextNode := by
    intro j hj
    by_contra hge
    obtain ⟨n, hn⟩ := Holds.mem h.holds j hj
    cases hn.symm.trans (h.nodesFresh j (not_lt.mp hge))
  have hsub : s.ids.Subperm (List.range m.nextNode) :=
    List.subperm_of_subset h.nodup fun j hj => List.mem_range.mpr (hlt j hj)
  have hlength := hsub.length_le
  rwa [ids_length, List.length_range] at hlength

theorem Keeps.item_of_mem (h : Keeps key m tree t s) (hd : d ∈ labels s) :
    ∃ a, m.items d = some a ∧ t.find (key a) = some a := by
  obtain ⟨x, hx, rfl⟩ := List.mem_map.mp hd
  obtain ⟨a, ha⟩ := h.sorted.present x hx
  exact ⟨a, ha, (h.find _ _).mpr ⟨x.2, hd, ha, rfl⟩⟩

theorem Keeps.new_not_mem (h : Keeps key m tree t s) (hd : m.nextItem ≤ d) : d ∉ labels s := by
  intro hmem
  obtain ⟨a, ha, -⟩ := h.item_of_mem hmem
  cases ha.symm.trans (h.itemsFresh d hd)

theorem Keeps.congr (h : Keeps key m tree t s) (hnodes : m'.nodes = m.nodes)
    (hnext : m'.nextNode = m.nextNode) (hitems : ∀ d ∈ labels s, m'.items d = m.items d)
    (hfresh : ∀ j, m'.nextItem ≤ j → m'.items j = none) : Keeps key m' tree t s := by
  refine ⟨h.root, hnodes ▸ h.holds, h.nodup, h.balanced, h.black,
    h.sorted.congr fun x hx => hitems x.2 (List.mem_map_of_mem hx), ?_, hfresh, fun k a => ?_⟩
  · rw [hnodes, hnext]
    exact h.nodesFresh
  · rw [h.find]
    refine exists_congr fun d => and_congr_right fun hd => ?_
    rw [hitems d hd]

theorem Keeps.newItem (h : Keeps key m tree t s) (item : α) :
    Keeps key (newItem m item).2 tree t s := by
  refine h.congr rfl rfl (fun d hd => ?_) fun j hj => ?_
  · refine Function.update_of_ne ?_ _ _
    rintro rfl
    exact h.new_not_mem le_rfl hd
  · have hlt : m.nextItem + 1 ≤ j := hj
    refine (Function.update_of_ne (by omega) _ _).trans (h.itemsFresh j (by omega))

theorem Keeps.freeItem (h : Keeps key m tree t s) (hd : d ∉ labels s) (ha : m.items d = some a) :
    ∃ m', freeItem m d = some m' ∧ Keeps key m' tree t s ∧ m'.nextItem = m.nextItem ∧
      m'.items = Function.update m.items d none := by
  refine ⟨{ m with items := Function.update m.items d none }, by simp [Rbtree.freeItem, ha],
    h.congr rfl rfl (fun e he => ?_) fun j hj => ?_, rfl, rfl⟩
  · refine Function.update_of_ne ?_ _ _
    rintro rfl
    exact hd he
  · have hnone := h.itemsFresh j hj
    simp only [Function.update_apply]
    split <;> first | rfl | exact hnone

end Kept

section Operations

variable {α : Type} {key : α → ℤ} {m : Memory α} {tree : JswRbtree} {t : Tree α} {s : Shape}
  {data : ℕ} {item : α}

/-- `jsw_rbfind` gives the item of the keyed tree. -/
theorem jswRbfind_spec (h : Keeps key m tree t s) (hitem : m.items data = some item) :
    ∃ found, jswRbfind (keyValCmp key) m tree data = some found ∧
      (found = none → t.find (key item) = none) ∧
      ∀ d, found = some d → d ∈ labels s ∧ ∃ a, m.items d = some a ∧ key a = key item ∧
        t.find (key item) = some a := by
  have hsize := h.size_le
  obtain ⟨found, hloop, hsome, hnone⟩ := findLoop_spec h.holds h.sorted hitem
    (Nat.lt_succ_of_le hsize)
  rw [← h.root] at hloop
  cases found with
  | none =>
    refine ⟨none, by simp [jswRbfind, hloop], fun _ => ?_, fun _ hd => (by cases hd)⟩
    rw [Option.eq_none_iff_forall_not_mem]
    intro a ha
    obtain ⟨d, hd, hda, hkey⟩ := (h.find _ _).mp ha
    obtain ⟨x, hx, rfl⟩ := List.mem_map.mp hd
    exact hnone rfl x hx a hda hkey
  | some i =>
    obtain ⟨d, a, hmem, ha, hkey⟩ := hsome i rfl
    obtain ⟨n, hn, hdata⟩ := h.holds.label hmem
    have hd : d ∈ labels s := List.mem_map_of_mem hmem
    refine ⟨some d, by simp [jswRbfind, hloop, hn, hdata], fun hd => (by cases hd), ?_⟩
    rintro e ⟨⟩
    exact ⟨hd, a, ha, hkey, (h.find _ _).mpr ⟨d, hd, ha, hkey⟩⟩

structure Added (m m' : Memory α) (s s' : Shape) : Prop where
  nextItem : m.nextItem ≤ m'.nextItem
  items : ∀ j, j < m.nextItem → m'.items j = m.items j
  placed : ∀ d ∈ labels s', d ∈ labels s ∨ d = m.nextItem

/-- What insertion does to the order of the nodes is an insertion to the keyed tree. -/
theorem Keeps.insert {m' : Memory α} {tree' : JswRbtree} {s' : Shape} (h : Keeps key m tree t s)
    (hroot : tree'.root = s'.ptr) (hholds : s'.Holds m'.nodes) (hnodup : s'.ids.Nodup)
    (hbalanced : ∃ n, s'.Balanced n) (hblack : s'.isRed = false)
    (hfresh : ∀ j, m'.nextNode ≤ j → m'.nodes j = none)
    (heffect : (s'.inorder = s.inorder ∧ m'.items = m.items ∧ m'.nextItem = m.nextItem ∧
        ∃ x ∈ s.inorder, ∃ a, m.items x.2 = some a ∧ key a = key item) ∨
      (∃ l₁ l₂ i, s.inorder = l₁ ++ l₂ ∧ s'.inorder = l₁ ++ (i, m.nextItem) :: l₂ ∧
        m'.items = Function.update m.items m.nextItem (some item) ∧
        m'.nextItem = m.nextItem + 1 ∧
        (∀ x ∈ l₁, ∃ a, m.items x.2 = some a ∧ key item < key a) ∧
        ∀ x ∈ l₂, ∃ a, m.items x.2 = some a ∧ key a < key item)) :
    Keeps key m' tree' (t.insert (key item) item) s' ∧ Added m m' s s' := by
  rcases heffect with ⟨horder, hitems, hnext, x, hx, a, ha, hkey⟩ |
    ⟨l₁, l₂, i, hl, horder, hitems, hnext, hgreater, hless⟩
  · have hpresent : t.find (key item) = some a :=
      (h.find _ _).mpr ⟨x.2, List.mem_map_of_mem hx, ha, hkey⟩
    have hlabels : labels s' = labels s := congrArg (List.map Prod.snd) horder
    have hinsert : t.insert (key item) item = t := by simp [Tree.insert, hpresent]
    rw [hinsert]
    refine ⟨⟨hroot, hholds, hnodup, hbalanced, hblack, ?_, hfresh, ?_, fun k b => ?_⟩,
      hnext.ge, fun j _ => congrFun hitems j, fun d hd => Or.inl (hlabels ▸ hd)⟩
    · rw [horder, hitems]
      exact h.sorted
    · rw [hitems, hnext]
      exact h.itemsFresh
    · rw [hlabels, hitems]
      exact h.find k b
  · have hold : ∀ d ∈ labels s, m'.items d = m.items d := by
      intro d hd
      rw [hitems]
      refine Function.update_of_ne ?_ _ _
      rintro rfl
      exact h.new_not_mem le_rfl hd
    have hnew : m'.items m.nextItem = some item := by rw [hitems, Function.update_self]
    have hlabels : ∀ d, d ∈ labels s' ↔ d ∈ labels s ∨ d = m.nextItem := by
      intro d
      simp only [labels, hl, horder, List.map_append, List.map_cons, List.mem_append, List.mem_cons]
      tauto
    have habsent : t.find (key item) = none := by
      rw [Option.eq_none_iff_forall_not_mem]
      intro a ha
      obtain ⟨d, hd, hda, hkey⟩ := (h.find _ _).mp ha
      obtain ⟨x, hx, rfl⟩ := List.mem_map.mp hd
      rw [hl, List.mem_append] at hx
      rcases hx with hx | hx
      · obtain ⟨b, hb, hlt⟩ := hgreater x hx
        cases hda.symm.trans hb
        exact hlt.ne' hkey
      · obtain ⟨b, hb, hlt⟩ := hless x hx
        cases hda.symm.trans hb
        exact hlt.ne hkey
    have hmem : ∀ {x}, x ∈ l₁ ++ l₂ → m'.items x.2 = m.items x.2 := fun hx =>
      hold _ (List.mem_map_of_mem (hl ▸ hx))
    refine ⟨⟨hroot, hholds, hnodup, hbalanced, hblack, ?_, hfresh, fun j hj => ?_, fun k b => ?_⟩,
      by omega, fun j hj => ?_, fun d hd => (hlabels d).mp hd⟩
    · rw [horder]
      refine Sorted.insert (Sorted.congr (hl ▸ h.sorted) fun x hx => hmem hx) hnew
        (fun x hx => ?_) fun x hx => ?_
      · obtain ⟨b, hb, hlt⟩ := hgreater x hx
        exact ⟨b, (hmem (List.mem_append_left _ hx)).trans hb, hlt⟩
      · obtain ⟨b, hb, hlt⟩ := hless x hx
        exact ⟨b, (hmem (List.mem_append_right _ hx)).trans hb, hlt⟩
    · rw [hitems]
      exact (Function.update_of_ne (by omega) _ _).trans (h.itemsFresh j (by omega))
    · rw [Tree.find_insert, habsent, Option.getD_none]
      constructor
      · intro hfind
        split at hfind
        · rename_i hk
          cases hfind
          exact ⟨m.nextItem, (hlabels _).mpr (Or.inr rfl), hnew, hk.symm⟩
        · obtain ⟨d, hd, hda, hkey⟩ := (h.find k b).mp hfind
          exact ⟨d, (hlabels d).mpr (Or.inl hd), (hold d hd).trans hda, hkey⟩
      · rintro ⟨d, hd, hda, hkey⟩
        rcases (hlabels d).mp hd with hd | rfl
        · rw [hold d hd] at hda
          have hfind := (h.find k b).mpr ⟨d, hd, hda, hkey⟩
          rw [if_neg]
          · exact hfind
          · rintro rfl
            cases habsent.symm.trans hfind
        · cases hda.symm.trans hnew
          rw [if_pos hkey.symm]
    · rw [hitems]
      exact Function.update_of_ne (by omega) _ _

theorem Keeps.head (h : Keeps key m tree t s) :
    Standing (m.nextNode + 1)
      (Function.update m.nodes m.nextNode (some ⟨false, none, sides true tree.root none⟩))
      m.nextNode [] s := by
  have hnew : m.nextNode ∉ s.ids := by
    intro hmem
    obtain ⟨n, hn⟩ := Holds.mem h.holds _ hmem
    cases hn.symm.trans (h.nodesFresh _ le_rfl)
  refine ⟨⟨?_, h.holds.update_of_not_mem hnew, ?_⟩, fun j hj => ?_⟩
  · rw [h.root]
    exact Function.update_self ..
  · simpa [pathIds] using ⟨hnew, h.nodup⟩
  · exact (Function.update_of_ne (by omega) _ _).trans (h.nodesFresh j (by omega))

theorem Standing.finish {h : Nodes} {next hd : ℕ} {s : Shape} (hs : Standing next h hd [] s) :
    getLink h (some hd) true = some s.ptr ∧ (∃ n, h hd = some n) ∧
      ∃ h', blackenRoot (Function.update h hd none) s.ptr = some h' ∧ (blacken s).Holds h' ∧
        ∀ j, next ≤ j → h' j = none := by
  have hhd : hd ∉ s.ids := (List.nodup_cons.mp hs.nodup).1
  have hholds : s.Holds (Function.update h hd none) := hs.below.update_of_not_mem hhd
  have hfresh : ∀ j, next ≤ j → Function.update h hd none j = none := by
    intro j hj
    rw [Function.update_apply]
    split
    · rfl
    · exact hs.fresh j hj
  refine ⟨getLink_above hs.toRep, ⟨_, hs.above⟩, ?_⟩
  by_cases hne : s = .nil
  · subst hne
    exact ⟨_, rfl, trivial, hfresh⟩
  · obtain ⟨h', hset, hblack, hout⟩ := setRed_blacken hholds hs.nodup_below hne
    refine ⟨h', ?_, hblack, fun j hj => ?_⟩
    · cases s with
      | nil => exact absurd rfl hne
      | node i red d sub => exact hset
    · refine (hout j fun hmem => ?_).trans (hfresh j hj)
      obtain ⟨n, hn⟩ := Holds.mem hholds j hmem
      cases hn.symm.trans (hfresh j hj)

theorem balanced_blacken {n : ℕ} (h : s.Balanced n) : ∃ n, (blacken s).Balanced n := by
  cases s with
  | nil => exact ⟨n, h⟩
  | node i red d sub =>
    obtain ⟨-, m, -, hsub⟩ := h
    exact ⟨_, fun h => (by cases h), m, rfl, hsub⟩

/-- What insertion makes of a tree: the order that was there, where the key is in
it already, or with the new item at its place. -/
structure Grown (key : α → ℤ) (m : Memory α) (s : Shape) (item : α) (m' : Memory α)
    (tree' : JswRbtree) (s' : Shape) : Prop where
  root : tree'.root = s'.ptr
  holds : s'.Holds m'.nodes
  nodup : s'.ids.Nodup
  balanced : ∃ n, s'.Balanced n
  black : s'.isRed = false
  fresh : ∀ j, m'.nextNode ≤ j → m'.nodes j = none
  effect : (s'.inorder = s.inorder ∧ m'.items = m.items ∧ m'.nextItem = m.nextItem ∧
      ∃ x ∈ s.inorder, ∃ a, m.items x.2 = some a ∧ key a = key item) ∨
    (∃ l₁ l₂ i, s.inorder = l₁ ++ l₂ ∧ s'.inorder = l₁ ++ (i, m.nextItem) :: l₂ ∧
      m'.items = Function.update m.items m.nextItem (some item) ∧
      m'.nextItem = m.nextItem + 1 ∧
      (∀ x ∈ l₁, ∃ a, m.items x.2 = some a ∧ key item < key a) ∧
      ∀ x ∈ l₂, ∃ a, m.items x.2 = some a ∧ key a < key item)

theorem jswRbinsert_grown (h : Keeps key m tree t s) (hitem : m.items data = some item) :
    ∃ tree' m' s', jswRbinsert (keyValCmp key) m tree data = some (tree', m') ∧
      tree'.size = tree.size + 1 ∧ Grown key m s item m' tree' s' := by
  cases s with
  | nil =>
    -- the first node
    let leaf : Shape := .node m.nextNode false m.nextItem fun _ => .nil
    let m' : Memory α :=
      { nodes := Function.update m.nodes m.nextNode (some ⟨false, some m.nextItem, fun _ => none⟩)
        nextNode := m.nextNode + 1
        items := Function.update m.items m.nextItem (some item)
        nextItem := m.nextItem + 1 }
    have hgrown : Grown key m .nil item m' ⟨some m.nextNode, tree.size + 1⟩ leaf :=
      ⟨rfl, ⟨Function.update_self .., trivial, trivial⟩, List.nodup_singleton _,
        ⟨1, fun h => (by cases h), 0, rfl, fun _ => rfl⟩, rfl,
        fun j hj => (Function.update_of_ne (by simp only [m'] at hj; omega) _ _).trans
          (h.nodesFresh j (by simp only [m'] at hj; omega)),
        Or.inr ⟨[], [], m.nextNode, rfl, rfl, rfl, rfl, fun _ h => (by cases h),
          fun _ h => (by cases h)⟩⟩
    refine ⟨_, m', leaf, ?_, rfl, hgrown⟩
    have hroot : tree.root = none := h.root
    simp [jswRbinsert, hroot, newNode, dup, hitem, newItem, mallocNode, finishInsert, setRed, m']
  | node i red d sub =>
    have hroot : tree.root = some i := h.root
    have hhead := h.head
    rw [hroot] at hhead
    let m₁ : Memory α := (mallocNode m ⟨false, none, sides true (some i) none⟩).2
    have hready : Ready m.nextNode [] (.node i red d sub)
        { t := some m.nextNode, g := none, p := none, q := some i, dir := false, last := false } :=
      { node := rfl, parent := rfl, grand := rfl, dir := fun _ hf => (by cases hf)
        start := fun _ => rfl, top := rfl, lastDir := fun _ hg => (by cases hg)
        nodeAlone := fun hred => absurd (h.black.symm.trans hred) Bool.false_ne_true
        parentAlone := fun _ _ hpath => (by cases hpath), below := fun heq => (by cases heq) }
    obtain ⟨n, hn⟩ := h.balanced
    have hplace : Place key (key item) m.nextNode (Shape.node i red d sub).inorder m₁ []
        (.node i red d sub) :=
      ⟨hhead.toRep, ⟨n, trivial, hn, fun _ => rfl⟩, rfl, searching_nil _ _ _, hhead.fresh⟩
    have hsize := h.size_le
    have hturns : 2 * (Shape.node i red d sub).size + 1 ≤ 2 * (m.nextNode + 1) + 2 := by omega
    obtain ⟨m₂, s₂, hloop, hinserted⟩ :=
      insertLoop_spec (.ready hready) hplace h.sorted hitem hturns
    obtain ⟨hlink, ⟨n, hhd⟩, h₃, hblack, hholds, hfresh⟩ :=
      Standing.finish ⟨hinserted.rep, hinserted.fresh⟩
    have hne : s₂ ≠ .nil := by
      rintro rfl
      rcases hinserted.effect with ⟨horder, -⟩ | ⟨l₁, l₂, j, -, horder, -⟩
      · simp [inorder] at horder
      · simp [inorder] at horder
    have hset : setRed (Function.update m₂.nodes m.nextNode none) s₂.ptr false = some h₃ := by
      cases s₂ with
      | nil => exact absurd rfl hne
      | node i red d sub => exact hblack
    obtain ⟨n, hn⟩ := hinserted.balanced
    have hgrown : Grown key m (.node i red d sub) item { m₂ with nodes := h₃ }
        ⟨s₂.ptr, tree.size + 1⟩ (blacken s₂) :=
      ⟨(blacken_ptr s₂).symm, hholds, by
        rw [blacken_ids]
        simpa [pathIds] using (List.nodup_cons.mp hinserted.rep.nodup).2,
      balanced_blacken hn, blacken_isRed s₂, hfresh, by
        rw [blacken_inorder]
        exact hinserted.effect⟩
    refine ⟨_, _, _, ?_, rfl, hgrown⟩
    have hmalloc : mallocNode m ⟨false, none, sides true (some i) none⟩ = (m.nextNode, m₁) := rfl
    have hnext : m₁.nextNode = m.nextNode + 1 := rfl
    simp only [jswRbinsert, hroot, hmalloc, hnext, hloop, hlink, freeNode, hhd, finishInsert, hset,
      Option.bind_eq_bind, Option.bind_some]

/-- `jsw_rbinsert` inserts to the keyed tree. -/
theorem jswRbinsert_spec (h : Keeps key m tree t s) (hitem : m.items data = some item) :
    ∃ tree' m' s', jswRbinsert (keyValCmp key) m tree data = some (tree', m') ∧
      Keeps key m' tree' (t.insert (key item) item) s' ∧ Added m m' s s' := by
  obtain ⟨tree', m', s', hcall, -, hgrown⟩ := jswRbinsert_grown h hitem
  exact ⟨tree', m', s', hcall, h.insert hgrown.root hgrown.holds hgrown.nodup hgrown.balanced
    hgrown.black hgrown.fresh hgrown.effect⟩

structure Dropped (key : α → ℤ) (k : ℤ) (m m' : Memory α) (s s' : Shape) : Prop where
  nextItem : m'.nextItem = m.nextItem
  items : ∀ d, d ∉ labels s → m'.items d = m.items d
  kept : ∀ d ∈ labels s', d ∈ labels s
  released : ∀ d ∈ labels s, ∀ a, m.items d = some a → key a = k → m'.items d = none

/-- What removal does to the order of the nodes is an erasure from the keyed tree. -/
theorem Keeps.erase {m' : Memory α} {tree' : JswRbtree} {s' : Shape} {k : ℤ}
    (h : Keeps key m tree t s) (hroot : tree'.root = s'.ptr) (hholds : s'.Holds m'.nodes)
    (hnodup : s'.ids.Nodup) (hbalanced : ∃ n, s'.Balanced n) (hblack : s'.isRed = false)
    (hfresh : ∀ j, m'.nextNode ≤ j → m'.nodes j = none) (hnext : m'.nextItem = m.nextItem)
    (heffect : (s'.inorder = s.inorder ∧ m'.items = m.items ∧
        ∀ x ∈ s.inorder, ∃ a, m.items x.2 = some a ∧ key a ≠ k) ∨
      (∃ l₁ d l₂ a, labels s = l₁ ++ d :: l₂ ∧ labels s' = l₁ ++ l₂ ∧ m.items d = some a ∧
        key a = k ∧ m'.items = Function.update m.items d none)) :
    Keeps key m' tree' (t.erase k) s' ∧ Dropped key k m m' s s' := by
  rcases heffect with ⟨horder, hitems, hother⟩ | ⟨l₁, d, l₂, a, hl, horder, hd, hkey, hitems⟩
  · have hlabels : labels s' = labels s := congrArg (List.map Prod.snd) horder
    have hnot : ∀ d ∈ labels s, ∀ a, m.items d = some a → key a ≠ k := by
      intro d hd a ha
      obtain ⟨x, hx, rfl⟩ := List.mem_map.mp hd
      obtain ⟨b, hb, hne⟩ := hother x hx
      cases ha.symm.trans hb
      exact hne
    refine ⟨⟨hroot, hholds, hnodup, hbalanced, hblack, ?_, hfresh, ?_, fun j b => ?_⟩,
      hnext, fun d _ => congrFun hitems d, fun d hd => hlabels ▸ hd,
      fun d hd a ha hk => absurd hk (hnot d hd a ha)⟩
    · rw [horder, hitems]
      exact h.sorted
    · rw [hitems, hnext]
      exact h.itemsFresh
    · rw [hlabels, hitems, Tree.find_erase]
      constructor
      · intro hfind
        split at hfind
        · cases hfind
        · exact (h.find j b).mp hfind
      · rintro ⟨d, hd, hda, hkey⟩
        rw [if_neg]
        · exact (h.find j b).mpr ⟨d, hd, hda, hkey⟩
        · rintro rfl
          exact hnot d hd b hda hkey
  · -- the other items of the tree have other keys
    obtain ⟨L₁, r, hL, hL₁, hr⟩ := List.map_eq_append_iff.mp hl
    obtain ⟨x, L₂, rfl, hx, hL₂⟩ := List.map_eq_cons_iff.mp hr
    have hsorted := h.sorted
    rw [hL] at hsorted
    obtain ⟨hgreater, hless⟩ := Sorted.around (i := x.1) (d := x.2) hsorted (hx ▸ hd)
    have hrest : ∀ e ∈ l₁ ++ l₂, ∃ b, m.items e = some b ∧ key b ≠ k := by
      intro e he
      rw [← hL₁, ← hL₂, List.mem_append, List.mem_map, List.mem_map] at he
      rcases he with ⟨y, hy, rfl⟩ | ⟨y, hy, rfl⟩
      · obtain ⟨b, hb, hlt⟩ := hgreater y hy
        exact ⟨b, hb, by omega⟩
      · obtain ⟨b, hb, hlt⟩ := hless y hy
        exact ⟨b, hb, by omega⟩
    have hold : ∀ e, e ≠ d → m'.items e = m.items e := by
      intro e he
      rw [hitems]
      exact Function.update_of_ne he _ _
    have hne : ∀ e ∈ l₁ ++ l₂, e ≠ d := by
      rintro e he rfl
      obtain ⟨b, hb, hbk⟩ := hrest e he
      cases hd.symm.trans hb
      exact hbk hkey
    have hmem : ∀ e, e ∈ labels s ↔ e = d ∨ e ∈ l₁ ++ l₂ := by
      intro e
      rw [hl]
      simp only [List.mem_append, List.mem_cons]
      tauto
    refine ⟨⟨hroot, hholds, hnodup, hbalanced, hblack, ?_, hfresh, fun j hj => ?_, fun j b => ?_⟩,
      hnext, fun e he => hold e fun heq => he ((hmem e).mpr (Or.inl heq)), fun e he => ?_,
      fun e he b hb hbk => ?_⟩
    · refine Sorted.congr (h.sorted.of_labels ?_) fun x hx => hold _ (hne _ ?_)
      · change (labels s').Sublist (labels s)
        rw [horder, hl]
        simp
      · rw [← horder]
        exact List.mem_map_of_mem hx
    · have hnone := h.itemsFresh j (hnext ▸ hj)
      rw [hold j fun heq => by rw [heq, hd] at hnone; cases hnone]
      exact hnone
    · rw [horder, Tree.find_erase]
      constructor
      · intro hfind
        split at hfind
        · cases hfind
        · rename_i hjk
          obtain ⟨e, he, hea, hbj⟩ := (h.find j b).mp hfind
          have hed : e ≠ d := by
            rintro rfl
            cases hd.symm.trans hea
            exact hjk (hbj.symm.trans hkey)
          exact ⟨e, ((hmem e).mp he).resolve_left hed, (hold e hed).trans hea, hbj⟩
      · rintro ⟨e, he, hea, hbj⟩
        rw [hold e (hne e he)] at hea
        obtain ⟨c, hc, hck⟩ := hrest e he
        cases hea.symm.trans hc
        rw [if_neg (hbj ▸ hck)]
        exact (h.find j b).mpr ⟨e, (hmem e).mpr (Or.inr he), hea, hbj⟩
    · rw [horder] at he
      exact (hmem e).mpr (Or.inr he)
    · rcases (hmem e).mp he with rfl | he
      · rw [hitems, Function.update_self]
      · obtain ⟨c, hc, hck⟩ := hrest e he
        cases hb.symm.trans hc
        exact absurd hbk hck

/-- What removal makes of a tree: the same order, where the key is not in it, or
the labels without the one of the item with the key. -/
structure Shrunk (key : α → ℤ) (m : Memory α) (s : Shape) (k : ℤ) (m' : Memory α)
    (tree' : JswRbtree) (s' : Shape) : Prop where
  root : tree'.root = s'.ptr
  holds : s'.Holds m'.nodes
  nodup : s'.ids.Nodup
  balanced : ∃ n, s'.Balanced n
  black : s'.isRed = false
  fresh : ∀ j, m'.nextNode ≤ j → m'.nodes j = none
  nextItem : m'.nextItem = m.nextItem
  effect : (s'.inorder = s.inorder ∧ m'.items = m.items ∧
      ∀ x ∈ s.inorder, ∃ a, m.items x.2 = some a ∧ key a ≠ k) ∨
    (∃ l₁ d l₂ a, labels s = l₁ ++ d :: l₂ ∧ labels s' = l₁ ++ l₂ ∧ m.items d = some a ∧
      key a = k ∧ m'.items = Function.update m.items d none)

theorem jswRberase_shrunk (h : Keeps key m tree t s) (hitem : m.items data = some item) :
    ∃ tree' m' s', jswRberase (keyValCmp key) m tree data = some (tree', m') ∧
      tree'.size = (if s.ptr = none then tree.size else tree.size - 1) ∧
      Shrunk key m s (key item) m' tree' s' := by
  cases s with
  | nil =>
    have hroot : tree.root = none := h.root
    exact ⟨tree, m, .nil, by simp [jswRberase, hroot], rfl, hroot, h.holds, h.nodup, h.balanced,
      h.black, h.nodesFresh, rfl, Or.inl ⟨rfl, rfl, fun _ h => (by cases h)⟩⟩
  | node i red d sub =>
    have hroot : tree.root = some i := h.root
    have hhead := h.head
    rw [hroot] at hhead
    let m₁ : Memory α := (mallocNode m ⟨false, none, sides true (some i) none⟩).2
    obtain ⟨n, hn⟩ := h.balanced
    have hpursuit : Pursuit key (key item) m.nextNode (Shape.node i red d sub).inorder m₁ []
        (.node i red d sub) { q := some m.nextNode, p := none, g := none, f := none, dir := true } :=
      { standing := hhead, fits := ⟨n, trivial, hn, fun _ => rfl⟩, pushed := trivial, node := rfl
        dir := rfl, parent := fun _ _ hpath => (by cases hpath), order := List.append_nil _
        larger := fun _ h => (by cases h), smaller := fun _ _ h => (by cases h)
        found := fun _ h => (by cases h) }
    have hturns : (Shape.node i red d sub).size < m₁.nextNode + 1 := by
      have hsize := h.size_le
      simp only [m₁, mallocNode]
      omega
    obtain ⟨nodes, path, s₁, hloop, hlast⟩ := eraseLoop_spec hpursuit h.sorted hitem hturns
    obtain ⟨m₂, s₂, hremove, hremoved⟩ : ∃ m₂ s₂, removeFound { m₁ with nodes } s₁ = some m₂ ∧
        Removed key (key item) m.nextNode (Shape.node i red d sub).inorder { m₁ with nodes } m₂ s₂ := by
      cases hf : s₁.f with
      | none => exact ⟨_, _, removeFound_none hlast hf⟩
      | some f => exact removeFound_some hlast hf
    obtain ⟨hlink, ⟨n, hhd⟩, h₃, hblack, hholds, hfresh⟩ := hremoved.standing.finish
    obtain ⟨n, hn⟩ := hremoved.balanced
    have hshrunk : Shrunk key m (.node i red d sub) (key item) { m₂ with nodes := h₃ }
        ⟨s₂.ptr, tree.size - 1⟩ (blacken s₂) := by
      refine ⟨(blacken_ptr s₂).symm, hholds, ?_, balanced_blacken hn, blacken_isRed s₂, hfresh,
        hremoved.nextItem, ?_⟩
      · rw [blacken_ids]
        exact hremoved.standing.nodup_below
      · rw [labels, labels, blacken_inorder]
        exact hremoved.effect
    refine ⟨_, _, _, ?_, rfl, hshrunk⟩
    have hmalloc : mallocNode m ⟨false, none, sides true (some i) none⟩ = (m.nextNode, m₁) := rfl
    simp only [jswRberase, hroot, hmalloc, hloop, hremove, hlink, freeNode, hhd, hblack,
      Option.bind_eq_bind, Option.bind_some]

/-- `jsw_rberase` erases from the keyed tree. -/
theorem jswRberase_spec (h : Keeps key m tree t s) (hitem : m.items data = some item) :
    ∃ tree' m' s', jswRberase (keyValCmp key) m tree data = some (tree', m') ∧
      Keeps key m' tree' (t.erase (key item)) s' ∧ Dropped key (key item) m m' s s' := by
  obtain ⟨tree', m', s', hcall, -, hshrunk⟩ := jswRberase_shrunk h hitem
  exact ⟨tree', m', s', hcall, h.erase hshrunk.root hshrunk.holds hshrunk.nodup hshrunk.balanced
    hshrunk.black hshrunk.fresh hshrunk.nextItem hshrunk.effect⟩

end Operations

end PersClient.Rbtree
