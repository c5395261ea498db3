import Mathlib.Data.Int.ModEq
import Mathlib.Data.Set.Card
import PersClient.Rbtree.Delete

/-! # How far a search goes, and what the size counts

A search compares at most as many items as the tree is high, so at most twice
the logarithm of its keys. The size of a tree is counted up by every insertion,
also of a key that is there, and down by every erasure from a tree with nodes,
also of a key that is not there.
-/

namespace PersClient.Rbtree

open LinkedTree Shape

section Search

variable {α : Type} {cmp : α → α → ℤ} {key : α → ℤ} {m : Memory α} {s : Shape} {data turns more : ℕ}
  {root : Option ℕ} {item : α} {found : Option ℕ}

theorem findLoop_mono (h : findLoop cmp m data turns root = some found) (hle : turns ≤ more) :
    findLoop cmp m data more root = some found := by
  induction turns generalizing root more with
  | zero => cases h
  | succ turns ih =>
    obtain ⟨more, rfl⟩ : ∃ k, more = k + 1 := ⟨more - 1, by omega⟩
    cases root with
    | none => exact h
    | some it =>
      simp only [findLoop, Option.bind_eq_bind, Option.bind_eq_some_iff] at h ⊢
      obtain ⟨order, hcompare, h⟩ := h
      refine ⟨order, hcompare, ?_⟩
      by_cases hzero : order = 0
      · rwa [if_pos hzero] at h ⊢
      · rw [if_neg hzero, Option.bind_eq_some_iff] at h ⊢
        obtain ⟨link, hlink, h⟩ := h
        exact ⟨link, hlink, ih h (by omega)⟩

theorem findLoop_height (hs : s.Holds m.nodes) (hpresent : ∀ d ∈ labels s, (m.items d).isSome)
    (hitem : m.items data = some item) (hturns : s.height < turns) :
    ∃ found, findLoop (keyValCmp key) m data turns s.ptr = some found := by
  induction s generalizing turns with
  | nil =>
    obtain ⟨turns, rfl⟩ : ∃ k, turns = k + 1 := ⟨turns - 1, by omega⟩
    exact ⟨none, rfl⟩
  | node i red d sub ih =>
    obtain ⟨turns, rfl⟩ : ∃ k, turns = k + 1 := ⟨turns - 1, by omega⟩
    obtain ⟨a, ha⟩ := Option.isSome_iff_exists.mp (hpresent d (mem_labels_node.mpr (Or.inl rfl)))
    have hcompare : compareAt m (keyValCmp key) (some i) data = some (keyValCmp key a item) :=
      compareAt_node hs ha hitem
    have hsub : ∀ side, (sub side).Holds m.nodes := Bool.forall_bool.mpr hs.2
    simp only [ptr_node, findLoop, hcompare, Option.bind_eq_bind, Option.bind_some]
    by_cases hzero : keyValCmp key a item = 0
    · exact ⟨some i, if_pos hzero⟩
    · rw [if_neg hzero, getLink_node hs, Option.bind_some]
      refine ih _ (hsub _) (fun e he => hpresent e (mem_labels_node.mpr (Or.inr ⟨_, he⟩))) ?_
      exact (height_child i red d sub _).trans_le (Nat.lt_succ_iff.mp hturns)

end Search

section Keys

variable {α : Type} {key : α → ℤ} {m : Memory α} {tree : JswRbtree} {t : Tree α} {s : Shape}
  {u : JswRbtree × Memory α} {k : ℤ} {item : α}

instance (t : Tree α) (k : ℤ) : Decidable (t.Mem k) := by
  unfold Tree.Mem
  infer_instance

def keys (t : Tree α) : Set ℤ := {k | t.Mem k}

def keyAt (key : α → ℤ) (m : Memory α) (d : ℕ) : ℤ := ((m.items d).map key).getD 0

theorem keyAt_of_item {d : ℕ} {a : α} (ha : m.items d = some a) : keyAt key m d = key a := by
  simp [keyAt, ha]

theorem Keeps.keys_eq (h : Keeps key m tree t s) : keys t = keyAt key m '' (labels s).toFinset := by
  ext k
  constructor
  · intro hk
    obtain ⟨a, ha⟩ := Option.isSome_iff_exists.mp hk
    obtain ⟨d, hd, hda, hkey⟩ := (h.find k a).mp ha
    exact ⟨d, List.mem_toFinset.mpr hd, (keyAt_of_item hda).trans hkey⟩
  · rintro ⟨d, hd, rfl⟩
    obtain ⟨a, ha, hfind⟩ := h.item_of_mem (List.mem_toFinset.mp hd)
    rw [keyAt_of_item ha]
    exact Option.isSome_of_eq_some hfind

theorem Keeps.keys_finite (h : Keeps key m tree t s) : (keys t).Finite := by
  rw [h.keys_eq]
  exact (Finset.finite_toSet _).image _

theorem Keeps.ncard_keys (h : Keeps key m tree t s) : (keys t).ncard = s.size := by
  have hnodup : (s.inorder.map fun x => keyAt key m x.2).Nodup := by
    refine List.pairwise_map.mpr (h.sorted.falling.imp_of_mem fun {x y} hx hy hxy heq => ?_)
    obtain ⟨a, ha⟩ := h.sorted.present x hx
    obtain ⟨b, hb⟩ := h.sorted.present y hy
    rw [keyAt_of_item ha, keyAt_of_item hb] at heq
    exact (hxy a b ha hb).ne' heq
  have hinj : Set.InjOn (keyAt key m) (labels s).toFinset := by
    intro d hd e he heq
    obtain ⟨x, hx, rfl⟩ := List.mem_map.mp (List.mem_toFinset.mp hd)
    obtain ⟨y, hy, rfl⟩ := List.mem_map.mp (List.mem_toFinset.mp he)
    rw [List.inj_on_of_nodup_map hnodup hx hy heq]
  rw [h.keys_eq, hinj.ncard_image, Set.ncard_coe_finset,
    List.toFinset_card_of_nodup h.sorted.labels_nodup, labels_length, ids_length]

/-- `jsw_rbfind` ends after at most twice the logarithm of the number of keys. -/
theorem Keeps.findLoop_log (h : Keeps key m tree t s) {data : ℕ} (hitem : m.items data = some item) :
    findLoop (keyValCmp key) m data (2 * Nat.log 2 ((keys t).ncard + 1) + 1) tree.root =
      findLoop (keyValCmp key) m data (m.nextNode + 1) tree.root := by
  obtain ⟨n, hbalanced⟩ := h.balanced
  have hheight := hbalanced.height_le_log h.black
  have hsize := h.size_le
  have hpresent : ∀ d ∈ labels s, (m.items d).isSome := h.deletable.present
  rw [h.ncard_keys, h.root]
  obtain ⟨found, hloop⟩ : ∃ found, findLoop (keyValCmp key) m data (s.height + 1) s.ptr = some found :=
    findLoop_height h.holds hpresent hitem (Nat.lt_succ_self _)
  have hle : s.height ≤ s.size := s.height_le_size
  rw [findLoop_mono hloop (by omega), findLoop_mono hloop (by omega)]

theorem ncard_keys_insert (t : Tree α) (hfinite : (keys t).Finite) (k : ℤ) (item : α) :
    (keys (t.insert k item)).ncard = (keys t).ncard + if t.Mem k then 0 else 1 := by
  have hkeys : keys (t.insert k item) = insert k (keys t) := by
    ext j
    simp only [keys, Tree.Mem, Tree.find_insert, Set.mem_ofPred_eq, Set.mem_insert_iff]
    by_cases hj : j = k <;> simp [hj]
  rw [hkeys]
  by_cases hk : t.Mem k
  · have hmem : k ∈ keys t := hk
    rw [if_pos hk, Set.insert_eq_of_mem hmem, Nat.add_zero]
  · have hmem : k ∉ keys t := hk
    rw [if_neg hk, Set.ncard_insert_of_notMem hmem hfinite]

theorem ncard_keys_erase (t : Tree α) (hfinite : (keys t).Finite) (k : ℤ) :
    (keys t).ncard = (keys (t.erase k)).ncard + if t.Mem k then 1 else 0 := by
  have hkeys : keys (t.erase k) = keys t \ {k} := by
    ext j
    simp only [keys, Tree.Mem, Tree.find_erase, Set.mem_ofPred_eq, Set.mem_sdiff,
      Set.mem_singleton_iff]
    by_cases hj : j = k <;> simp [hj]
  rw [hkeys]
  by_cases hk : t.Mem k
  · have hmem : k ∈ keys t := hk
    rw [if_pos hk, Set.ncard_sdiff_singleton_add_one hmem hfinite]
  · have hmem : k ∉ keys t := hk
    rw [if_neg hk, Set.sdiff_singleton_eq_self hmem, Nat.add_zero]

end Keys

section Uses

variable {α : Type} {key : α → ℤ} {u : JswRbtree × Memory α} {t : Tree α} {s : Shape} {item : α}

open Classical in
/-- By how much a use counts the size further than the keys: an insertion of a key
that is there counts up, an erasure of one that is not there counts down unless
the tree is empty. -/
noncomputable def TreeUse.drift (key : α → ℤ) (t : Tree α) : TreeUse α → ℤ
  | .insert item => if t.Mem (key item) then 1 else 0
  | .erase item => if ¬ t.Mem (key item) ∧ (keys t).Nonempty then -1 else 0
  | .find _ => 0

/-- The drift of a list of uses, one after the other. -/
noncomputable def totalDrift (key : α → ℤ) : Tree α → List (TreeUse α) → ℤ
  | _, [] => 0
  | t, use :: uses => use.drift key t + totalDrift key (use.change key t) uses

theorem jswRbinsert_size {m m' : Memory α} {tree tree' : JswRbtree} {data : ℕ}
    (h : Keeps key m tree t s) (hitem : m.items data = some item)
    (hcall : jswRbinsert (keyValCmp key) m tree data = some (tree', m')) :
    tree'.size = tree.size + 1 := by
  obtain ⟨tree₁, m₁, s₁, hcall₁, hsize, -⟩ := jswRbinsert_grown h hitem
  cases hcall.symm.trans hcall₁
  exact hsize

theorem jswRberase_size {m m' : Memory α} {tree tree' : JswRbtree} {data : ℕ}
    (h : Keeps key m tree t s) (hitem : m.items data = some item)
    (hcall : jswRberase (keyValCmp key) m tree data = some (tree', m')) :
    tree'.size = if s.ptr = none then tree.size else tree.size - 1 := by
  obtain ⟨tree₁, m₁, s₁, hcall₁, hsize, -⟩ := jswRberase_shrunk h hitem
  cases hcall.symm.trans hcall₁
  exact hsize

theorem modEq_of_eq {a b n : ℤ} (h : a = b) : a ≡ b [ZMOD n] := congrArg (· % n) h

theorem toNat_add_one_modEq (n : UInt64) : ((n + 1).toNat : ℤ) ≡ n.toNat + 1 [ZMOD 2 ^ 64] := by
  rw [UInt64.toNat_add, Int.natCast_mod]
  exact Int.mod_modEq _ _

theorem toNat_sub_one_modEq (n : UInt64) : ((n - 1).toNat : ℤ) ≡ n.toNat - 1 [ZMOD 2 ^ 64] := by
  have h := toNat_add_one_modEq (n - 1)
  rw [UInt64.sub_add_cancel] at h
  have hsub := (h.sub_right 1).symm
  rwa [add_sub_cancel_right] at hsub

/-- A use moves the size and the number of keys by the same, but for its drift. -/
theorem Resting.size_use {u' : JswRbtree × Memory α} {s' : Shape} (h : Resting key u t s)
    (use : TreeUse α) (hcall : use.perform (keyValCmp key) u = some u')
    (h' : Resting key u' (use.change key t) s') :
    (u'.1.size.toNat : ℤ) - (keys (use.change key t)).ncard ≡
      u.1.size.toNat - (keys t).ncard + use.drift key t [ZMOD 2 ^ 64] := by
  obtain ⟨tree, m⟩ := u
  have hnew : ∀ item : α, newItem m item = (m.nextItem, (newItem m item).2) := fun _ => rfl
  have hfinite := h.keeps.keys_finite
  cases use with
  | insert item =>
    simp only [TreeUse.perform] at hcall
    rw [hnew] at hcall
    simp only [Option.bind_eq_bind, Option.bind_eq_some_iff] at hcall
    obtain ⟨⟨tree', m₁⟩, hinsert, m₂, hfree, heq⟩ := hcall
    cases heq
    have hsize := jswRbinsert_size (Kept.newItem h item).keeps (Kept.newItem h item).there hinsert
    have hcount := ncard_keys_insert t hfinite (key item) item
    have hmod := toNat_add_one_modEq tree.size
    simp only [TreeUse.change, TreeUse.drift, hsize, hcount]
    refine (hmod.sub_right _).trans (modEq_of_eq ?_)
    by_cases hmem : t.Mem (key item)
    · rw [if_pos hmem, if_pos hmem]
      push_cast
      omega
    · rw [if_neg hmem, if_neg hmem]
      push_cast
      omega
  | erase item =>
    simp only [TreeUse.perform] at hcall
    rw [hnew] at hcall
    simp only [Option.bind_eq_bind, Option.bind_eq_some_iff] at hcall
    obtain ⟨⟨tree', m₁⟩, herase, m₂, hfree, heq⟩ := hcall
    cases heq
    have hsize := jswRberase_size (Kept.newItem h item).keeps (Kept.newItem h item).there herase
    have hcount := ncard_keys_erase t hfinite (key item)
    have hnodes := h.keeps.ncard_keys
    simp only [TreeUse.change, TreeUse.drift, hsize]
    cases s with
    | nil =>
      have hempty : keys t = ∅ := (Set.ncard_eq_zero hfinite).mp hnodes
      have hnot : ¬ t.Mem (key item) := fun hmem => by
        have hin : key item ∈ keys t := hmem
        rw [hempty] at hin
        exact hin
      have hnone : ¬ (¬ t.Mem (key item) ∧ (keys t).Nonempty) := by
        rw [hempty]
        exact fun hand => Set.not_nonempty_empty hand.2
      rw [if_neg hnot, Nat.add_zero] at hcount
      rw [if_neg hnone, ptr_nil, if_pos rfl, hcount, add_zero]
    | node i red d sub =>
      have hnonempty : (keys t).Nonempty := by
        rw [← Set.ncard_pos hfinite, hnodes]
        simp only [Shape.size]
        omega
      rw [ptr_node, if_neg (Option.some_ne_none i)]
      refine ((toNat_sub_one_modEq tree.size).sub_right _).trans (modEq_of_eq ?_)
      by_cases hmem : t.Mem (key item)
      · rw [if_pos hmem] at hcount
        rw [if_neg fun hand => hand.1 hmem, hcount]
        push_cast
        omega
      · rw [if_neg hmem] at hcount
        rw [if_pos ⟨hmem, hnonempty⟩, hcount]
        push_cast
        omega
  | find item =>
    simp only [TreeUse.perform] at hcall
    rw [hnew] at hcall
    simp only [Option.bind_eq_bind, Option.bind_eq_some_iff] at hcall
    obtain ⟨found, -, m₂, -, heq⟩ := hcall
    cases heq
    simp only [TreeUse.change, TreeUse.drift, add_zero]
    rfl

theorem Resting.size_uses (h : Resting key u t s) (uses : List (TreeUse α)) :
    ∃ u', uses.foldlM (TreeUse.perform (keyValCmp key)) u = some u' ∧
      (u'.1.size.toNat : ℤ) - (keys (uses.foldl (TreeUse.change key) t)).ncard ≡
        u.1.size.toNat - (keys t).ncard + totalDrift key t uses [ZMOD 2 ^ 64] := by
  induction uses generalizing u t s with
  | nil => exact ⟨u, rfl, by rw [totalDrift, add_zero]; rfl⟩
  | cons use uses ih =>
    obtain ⟨u₁, s₁, hfirst, h₁⟩ := h.use use
    obtain ⟨u₂, hrest, hsize⟩ := ih h₁
    refine ⟨u₂, ?_, ?_⟩
    · rw [List.foldlM_cons, hfirst]
      exact hrest
    · have hstep := h.size_use use hfirst h₁
      refine hsize.trans ((hstep.add_right _).trans (modEq_of_eq ?_))
      rw [totalDrift, add_assoc]

/-- What `jsw_rbsize` counts: the keys, and the drift of the uses. -/
theorem tree_sizes (key : α → ℤ) (uses : List (TreeUse α)) :
    ∃ u, TreeUse.performAll (keyValCmp key) uses = some u ∧
      ((jswRbsize u.1).toNat : ℤ) ≡
        (keys (uses.foldl (TreeUse.change key) Tree.new)).ncard + totalDrift key Tree.new uses
          [ZMOD 2 ^ 64] := by
  have hstart : Resting key (jswRbnew, Memory.empty) Tree.new .nil := kept_new
  obtain ⟨u, hrun, hsize⟩ := hstart.size_uses uses
  refine ⟨u, hrun, ?_⟩
  have hempty : (keys (Tree.new : Tree α)).ncard = 0 := hstart.keeps.ncard_keys
  have hzero : (jswRbnew.size.toNat : ℤ) = 0 := rfl
  rw [hempty, hzero, Nat.cast_zero, sub_zero, zero_add] at hsize
  have hadd := hsize.add_right ((keys (uses.foldl (TreeUse.change key) Tree.new)).ncard : ℤ)
  rwa [sub_add_cancel, add_comm (totalDrift _ _ _)] at hadd

end Uses

end PersClient.Rbtree
