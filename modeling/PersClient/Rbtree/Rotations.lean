import PersClient.Rbtree.Operations

/-! # What the operations do to shapes

Each access to a node of a held shape succeeds, and each change leaves the shape
it makes and all nodes outside as they were. Rotations keep the order.
-/

namespace PersClient.Rbtree

open LinkedTree Shape

variable {h h' : Nodes} {i : ℕ} {red dir : Bool} {data : ℕ} {sub : Bool → Shape}
  {s s' a b c : Shape}

section Access

theorem getLink_node (hs : (node i red data sub).Holds h) (side : Bool) :
    getLink h (some i) side = some (sub side).ptr := by
  simp [getLink, hs.1]

theorem getLink_self (hs : (node i red data (sides dir a b)).Holds h) :
    getLink h (some i) dir = some a.ptr := by
  rw [getLink_node hs, sides_self]

theorem getLink_not (hs : (node i red data (sides dir a b)).Holds h) :
    getLink h (some i) (!dir) = some b.ptr := by
  rw [getLink_node hs, sides_not]

theorem isRed_ptr (hs : s.Holds h) : isRed h s.ptr = some s.isRed := by
  cases s with
  | nil => rfl
  | node i red data sub => simp [isRed, hs.1]

def SameOutside (h h' : Nodes) (places : List ℕ) : Prop := ∀ j ∉ places, h' j = h j

theorem SameOutside.refl (h : Nodes) (places : List ℕ) : SameOutside h h places := fun _ _ => rfl

theorem SameOutside.mono {places more : List ℕ} (hh : SameOutside h h' places)
    (hsub : ∀ j ∈ places, j ∈ more) : SameOutside h h' more :=
  fun j hj => hh j fun hmem => hj (hsub j hmem)

theorem Holds.outside {places : List ℕ} (hs : s.Holds h) (hh : SameOutside h h' places)
    (hdisjoint : ∀ j ∈ s.ids, j ∉ places) : s.Holds h' :=
  hs.congr fun j hj => hh j (hdisjoint j hj)

theorem sameOutside_update (h : Nodes) (i : ℕ) (n : Option Node) :
    SameOutside h (Function.update h i n) [i] :=
  fun _ hj => Function.update_of_ne (by rintro rfl; exact hj List.mem_cons_self) _ _

variable (hn : (node i red data (sides dir a b)).ids.Nodup)
  (hs : (node i red data (sides dir a b)).Holds h)

include hn in
theorem nodup_sides : i ∉ a.ids ∧ i ∉ b.ids ∧ a.ids.Nodup ∧ b.ids.Nodup ∧ a.ids.Disjoint b.ids := by
  obtain ⟨hi, hab⟩ := List.nodup_cons.mp (ids_sides.nodup_iff.mp hn)
  obtain ⟨ha, hb, hdisjoint⟩ := List.nodup_append'.mp hab
  rw [List.mem_append, not_or] at hi
  exact ⟨hi.1, hi.2, ha, hb, hdisjoint⟩

include hn hs

theorem setRed_node (red' : Bool) : ∃ h', setRed h (some i) red' = some h' ∧
    (node i red' data (sides dir a b)).Holds h' ∧ SameOutside h h' [i] := by
  obtain ⟨hi, ha, hb⟩ := Holds.sides_iff.mp hs
  obtain ⟨hia, hib, -⟩ := nodup_sides hn
  refine ⟨_, by simp [setRed, hi]; rfl, Holds.sides_iff.mpr ⟨?_, ?_, ?_⟩, sameOutside_update _ _ _⟩
  · simp
  · exact ha.update_of_not_mem hia
  · exact hb.update_of_not_mem hib

end Access

section Rotate

variable {r v u dr dv du : ℕ} {cr cv cu cr' cv' cu' : Bool} {x : Shape}

theorem ids_single_perm :
    (node v cv' dv (sides dir (node r cr' dr (sides dir a b)) c)).ids.Perm
      (node r cr dr (sides dir a (node v cv dv (sides dir b c)))).ids := by
  rw [← Multiset.coe_eq_coe]
  simp only [coe_ids_sides]
  abel

theorem ids_double_perm :
    (node u cu' du (sides dir (node r cr' dr (sides dir a b))
      (node v cv' dv (sides dir c x)))).ids.Perm
      (node r cr dr (sides dir a (node v cv dv (sides dir (node u cu du (sides dir b c)) x)))).ids := by
  rw [← Multiset.coe_eq_coe]
  simp only [coe_ids_sides]
  abel

theorem inorder_single :
    (node v cv' dv (sides dir (node r cr' dr (sides dir a b)) c)).inorder =
      (node r cr dr (sides dir a (node v cv dv (sides dir b c)))).inorder := by
  cases dir <;> simp [inorder_sides]

theorem jswSingle_node
    (hn : (node r cr dr (sides dir a (node v cv dv (sides dir b c)))).ids.Nodup)
    (hs : (node r cr dr (sides dir a (node v cv dv (sides dir b c)))).Holds h) :
    ∃ h', jswSingle h (some r) dir = some (some v, h') ∧
      (node v false dv (sides dir (node r true dr (sides dir a b)) c)).Holds h' ∧
      SameOutside h h' [r, v] := by
  obtain ⟨hr, ha, hv⟩ := Holds.sides_iff.mp hs
  obtain ⟨hv, hb, hc⟩ := Holds.sides_iff.mp hv
  obtain ⟨hra, hrv, -, hnv, hdisjoint⟩ := nodup_sides hn
  obtain ⟨hvb, hvc, -⟩ := nodup_sides hnv
  have hne : r ≠ v := fun heq => hrv (mem_ids_sides.mpr (Or.inl heq))
  have hva : v ∉ a.ids := fun hmem => hdisjoint hmem (mem_ids_sides.mpr (Or.inl rfl))
  have hrb : r ∉ b.ids := fun hmem => hrv (mem_ids_sides.mpr (Or.inr (Or.inl hmem)))
  have hrc : r ∉ c.ids := fun hmem => hrv (mem_ids_sides.mpr (Or.inr (Or.inr hmem)))
  have hcall : jswSingle h (some r) dir = some (some v, Function.update (Function.update h r
      (some ⟨true, some dr, sides dir a.ptr b.ptr⟩)) v
      (some ⟨false, some dv, sides dir (some r) c.ptr⟩)) := by
    simp [jswSingle, getLink, setLink, setRed, hr, hv, hne, hne.symm,
      update_sides_not, update_sides_self]
    funext j
    simp only [Function.update_apply]
    split_ifs <;> simp_all
  refine ⟨_, hcall, Holds.sides_iff.mpr ⟨?_, Holds.sides_iff.mpr ⟨?_, ?_, ?_⟩, ?_⟩, ?_⟩
  · simp
  · simp [hne]
  · exact (ha.update_of_not_mem hra).update_of_not_mem hva
  · exact (hb.update_of_not_mem hrb).update_of_not_mem hvb
  · exact (hc.update_of_not_mem hrc).update_of_not_mem hvc
  · intro j hj
    simp only [List.mem_cons, List.not_mem_nil, or_false, not_or] at hj
    rw [Function.update_of_ne hj.2, Function.update_of_ne hj.1]

theorem jswDouble_node
    (hn : (node r cr dr (sides dir a
      (node v cv dv (sides dir (node u cu du (sides dir b c)) x)))).ids.Nodup)
    (hs : (node r cr dr (sides dir a
      (node v cv dv (sides dir (node u cu du (sides dir b c)) x)))).Holds h) :
    ∃ h', jswDouble h (some r) dir = some (some u, h') ∧
      (node u false du (sides dir (node r true dr (sides dir a b))
        (node v true dv (sides dir c x)))).Holds h' ∧ SameOutside h h' [r, v, u] := by
  have hlink := getLink_not hs
  obtain ⟨hr, ha, hv⟩ := Holds.sides_iff.mp hs
  obtain ⟨hra, hrv, hna, hnv, hdisjoint⟩ := nodup_sides hn
  -- the inner rotation, on the other side
  have hinner : node v cv dv (sides dir (node u cu du (sides dir b c)) x) =
      node v cv dv (sides (!dir) x (node u cu du (sides (!dir) c b))) := by
    simp only [sides_not_left]
  rw [hinner] at hv hnv
  obtain ⟨h₁, hsingle, hu, hout⟩ := jswSingle_node hnv hv
  have hturned : node u false du (sides (!dir) (node v true dv (sides (!dir) x c)) b) =
      node u false du (sides dir b (node v true dv (sides dir c x))) := by
    simp only [sides_not_left]
  have hperm : (node u false du (sides dir b (node v true dv (sides dir c x)))).ids.Perm
      (node v cv dv (sides dir (node u cu du (sides dir b c)) x)).ids := by
    rw [← hturned, hinner]
    exact ids_single_perm
  rw [hturned] at hu
  have hsub : ∀ j ∈ [v, u], j ∈ (node v cv dv (sides dir (node u cu du (sides dir b c)) x)).ids := by
    intro j hj
    simp only [List.mem_cons, List.not_mem_nil, or_false] at hj
    simp only [mem_ids_sides]
    tauto
  -- the outer node is linked to the node that came up
  have hr₁ : h₁ r = h r := hout r fun hmem => hrv (hsub r hmem)
  have hru : r ∉ (node u false du (sides dir b (node v true dv (sides dir c x)))).ids :=
    fun hmem => hrv (hperm.mem_iff.mp hmem)
  have hset : setLink h₁ (some r) (!dir) (some u) = some (Function.update h₁ r
      (some ⟨cr, some dr, sides dir a.ptr (some u)⟩)) := by
    simp [setLink, hr₁, hr, update_sides_not]
  have hmiddle : (node r cr dr (sides dir a (node u false du
      (sides dir b (node v true dv (sides dir c x)))))).Holds
      (Function.update h₁ r (some ⟨cr, some dr, sides dir a.ptr (some u)⟩)) := by
    refine Holds.sides_iff.mpr ⟨by simp, ?_, hu.update_of_not_mem hru⟩
    exact (Holds.outside ha hout fun j hj hmem => hdisjoint hj (hsub j hmem)).update_of_not_mem hra
  have hnmiddle : (node r cr dr (sides dir a (node u false du
      (sides dir b (node v true dv (sides dir c x)))))).ids.Nodup := by
    refine (List.Perm.nodup_iff ?_).mp hn
    refine ids_sides.trans (.trans (.cons r ?_) ids_sides.symm)
    exact hperm.symm.append_left _
  obtain ⟨h₂, hsingle₂, hholds, hout₂⟩ := jswSingle_node hnmiddle hmiddle
  refine ⟨h₂, ?_, hholds, ?_⟩
  · simp [jswDouble, hlink, hsingle, hset, hsingle₂]
  · intro j hj
    simp only [List.mem_cons, List.not_mem_nil, or_false, not_or] at hj
    rw [hout₂ j (by simp [hj]), Function.update_of_ne hj.1, hout j (by simp [hj])]

end Rotate

section Presence

variable {hd next : ℕ} {path : List Frame}

theorem Holds.mem (hs : s.Holds h) : ∀ j ∈ s.ids, ∃ n, h j = some n := by
  induction s with
  | nil => exact fun j hj => (by cases hj)
  | node i red data sub ih =>
    intro j hj
    simp only [ids, List.mem_cons, List.mem_append] at hj
    rcases hj with rfl | hj | hj
    · exact ⟨_, hs.1⟩
    · exact ih false hs.2.1 j hj
    · exact ih true hs.2.2 j hj

theorem Rep.mem (hrep : Rep h hd path s) : ∀ j ∈ hd :: (pathIds path ++ s.ids), ∃ n, h j = some n := by
  induction path generalizing s with
  | nil =>
    intro j hj
    rcases List.mem_cons.mp hj with rfl | hj
    · exact ⟨_, hrep.above⟩
    · exact Holds.mem hrep.below j hj
  | cons f path ih =>
    intro j hj
    refine ih (rep_cons_iff.mp hrep) j ?_
    rcases List.mem_cons.mp hj with rfl | hj
    · exact List.mem_cons_self
    · exact List.mem_cons_of_mem _ ((pathIds_cons_append_perm f path s).mem_iff.mp hj)

theorem Rep.fresh_of_sameOutside (hrep : Rep h hd path s) (hfresh : ∀ j, next ≤ j → h j = none)
    (hout : SameOutside h h' (hd :: (pathIds path ++ s.ids))) : ∀ j, next ≤ j → h' j = none := by
  intro j hj
  have hnone := hfresh j hj
  refine (hout j fun hmem => ?_).trans hnone
  obtain ⟨n, hn⟩ := Rep.mem hrep j hmem
  cases hnone.symm.trans hn

end Presence

section Splice

variable {hd : ℕ} {path : List Frame}

/-- The node above a hole, which is the head node below which the tree is kept
if the hole is the whole tree. -/
def above (hd : ℕ) (path : List Frame) : ℕ := path.head?.elim hd Frame.i

def side (path : List Frame) : Bool := path.head?.elim true Frame.dir

@[simp] theorem above_cons (hd : ℕ) (f : Frame) (path : List Frame) :
    above hd (f :: path) = f.i := rfl

@[simp] theorem side_cons (f : Frame) (path : List Frame) : side (f :: path) = f.dir := rfl

@[simp] theorem above_map_relabel (i d : ℕ) :
    above hd (path.map (Frame.relabel i d)) = above hd path := by cases path <;> rfl

@[simp] theorem side_map_relabel (i d : ℕ) : side (path.map (Frame.relabel i d)) = side path := by
  cases path <;> rfl

theorem above_mem : above hd path ∈ hd :: pathIds path := by
  cases path with
  | nil => exact List.mem_cons_self
  | cons f path => exact List.mem_cons_of_mem _ List.mem_cons_self

theorem getLink_above (hrep : Rep h hd path s) :
    getLink h (some (above hd path)) (side path) = some s.ptr := by
  cases path with
  | nil => simp [getLink, above, side, show h hd = _ from hrep.above]
  | cons f path => simp [getLink, above, side, hrep.above.1]

/-- Of the links of the node above, only the one on the side of the hole leads there. -/
theorem getLink_above_true (hrep : Rep h hd path s) (hs : s ≠ .nil) :
    ∃ p, getLink h (some (above hd path)) true = some p ∧ (p = s.ptr ↔ side path = true) := by
  cases path with
  | nil => exact ⟨s.ptr, getLink_above hrep, by simp [side]⟩
  | cons f path =>
    refine ⟨sides f.dir s.ptr f.other.ptr true, by simp [getLink, above, hrep.above.1], ?_⟩
    cases hdir : f.dir with
    | true => simp [side, hdir, sides]
    | false =>
      simp only [sides, side, List.head?_cons, Option.elim_some, hdir, Bool.true_eq_false,
        if_false, Bool.false_eq_true, iff_false]
      intro heq
      cases s with
      | nil => exact hs rfl
      | node i red data sub =>
        cases hother : f.other with
        | nil =>
          rw [hother] at heq
          cases heq
        | node j red' data' sub' =>
          rw [hother] at heq
          cases heq
          have hnodup := hrep.nodup
          simp [pathIds, hother, ids] at hnodup

theorem Rep.replace (hrep : Rep h hd path s) (hs' : s'.Holds h') (hptr : s'.ptr = s.ptr)
    (hpath : ∀ j ∈ hd :: pathIds path, h' j = h j) (hperm : s'.ids.Perm s.ids) :
    Rep h' hd path s' := by
  refine ⟨?_, hs', ?_⟩
  · rw [hptr]
    exact hrep.above.congr hpath
  · exact ((hperm.append_left _).cons hd).nodup_iff.mpr hrep.nodup

theorem Rep.splice (hrep : Rep h hd path s) (hs' : s'.Holds h')
    (hpath : ∀ j ∈ hd :: pathIds path, h' j = h j)
    (hnodup : (hd :: (pathIds path ++ s'.ids)).Nodup) :
    ∃ h'', setLink h' (some (above hd path)) (side path) s'.ptr = some h'' ∧
      Rep h'' hd path s' ∧ SameOutside h' h'' [above hd path] := by
  have hrest : ∀ j ∈ s'.ids, j ≠ above hd path := by
    rintro j hj rfl
    rw [← List.cons_append] at hnodup
    exact (List.nodup_append'.mp hnodup).2.2 above_mem hj
  cases path with
  | nil =>
    have hhd : h' hd = some ⟨false, none, sides true s.ptr none⟩ :=
      (hpath hd List.mem_cons_self).trans hrep.above
    refine ⟨_, by simp [setLink, above, side, hhd]; rfl, ⟨?_, ?_, hnodup⟩, sameOutside_update _ _ _⟩
    · simp [HoldsPath, above, update_sides_self]
    · exact hs'.update_of_not_mem fun hmem => hrest hd hmem rfl
  | cons f path =>
    obtain ⟨hf, hother, habove⟩ := hrep.above
    have hf' := (hpath f.i (by simp [pathIds])).trans hf
    have hn := hrep.nodup
    simp only [pathIds, List.cons_append, List.nodup_cons, List.mem_cons, List.mem_append,
      not_or] at hn
    refine ⟨_, by simp [setLink, above, side, hf']; rfl, ⟨⟨?_, ?_, ?_⟩, ?_, hnodup⟩,
      sameOutside_update _ _ _⟩
    · simp [above, update_sides_self]
    · exact (hother.congr fun j hj => hpath j (by simp [pathIds, hj])).update_of_not_mem
        hn.2.1.1.1
    · refine habove.congr fun j hj => ?_
      have hne : j ≠ f.i ∧ j ∈ hd :: pathIds (f :: path) := by
        rcases List.mem_cons.mp hj with rfl | hj
        · exact ⟨hn.1.1, List.mem_cons_self⟩
        · exact ⟨by rintro rfl; exact hn.2.1.1.2 hj, by simp [pathIds, hj]⟩
      exact (Function.update_of_ne hne.1 _ _).trans (hpath j hne.2)
    · exact hs'.update_of_not_mem fun hmem => hrest f.i hmem rfl

end Splice

end PersClient.Rbtree
