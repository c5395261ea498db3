import Mathlib.Algebra.Order.Group.Multiset
import Mathlib.Data.List.Nodup
import Mathlib.Data.List.Perm.Basic
import Mathlib.Logic.Function.Basic
import Mathlib.Tactic.Abel

/-! # Binary trees linked in memory

A node of a linked tree has a colour, a label and a link for each side. A shape
is the tree that links spell out; a path is a tree with a hole, from the parent
of the hole upwards, below a head node that only links to the root. What a
memory holds of a shape depends on the nodes of the shape alone.
-/

namespace PersClient.LinkedTree

section Sides

variable {α β : Type*}

def sides (dir : Bool) (a b : α) : Bool → α := fun side => if side = dir then a else b

@[simp] theorem sides_self (dir : Bool) (a b : α) : sides dir a b dir = a := if_pos rfl

@[simp] theorem sides_not (dir : Bool) (a b : α) : sides dir a b (!dir) = b := by
  cases dir <;> rfl

theorem sides_not_left (dir : Bool) (a b : α) : sides (!dir) a b = sides dir b a := by
  funext side
  cases side <;> cases dir <;> rfl

theorem sides_eta (dir : Bool) (f : Bool → α) : sides dir (f dir) (f (!dir)) = f := by
  funext side
  cases side <;> cases dir <;> rfl

theorem update_sides_self (dir : Bool) (a b c : α) :
    Function.update (sides dir a b) dir c = sides dir c b := by
  funext side
  cases side <;> cases dir <;> rfl

theorem update_sides_not (dir : Bool) (a b c : α) :
    Function.update (sides dir a b) (!dir) c = sides dir a c := by
  funext side
  cases side <;> cases dir <;> rfl

theorem comp_sides (f : α → β) (dir : Bool) (a b : α) :
    (fun side => f (sides dir a b side)) = sides dir (f a) (f b) := by
  funext side
  cases side <;> cases dir <;> rfl

theorem forall_sides {p : α → Prop} {dir : Bool} {a b : α} :
    (∀ side, p (sides dir a b side)) ↔ p a ∧ p b := by
  cases dir <;> simp [sides, Bool.forall_bool, and_comm]

end Sides

/-- A node: whether it is red, its label and its links. -/
structure Node where
  red : Bool
  data : Option ℕ
  link : Bool → Option ℕ

abbrev Nodes := ℕ → Option Node

inductive Shape
  | nil
  | node (i : ℕ) (red : Bool) (data : ℕ) (sub : Bool → Shape)

namespace Shape

def ptr : Shape → Option ℕ
  | nil => none
  | node i _ _ _ => some i

def isRed : Shape → Bool
  | nil => false
  | node _ red _ _ => red

def size : Shape → ℕ
  | nil => 0
  | node _ _ _ sub => (sub false).size + (sub true).size + 1

def ids : Shape → List ℕ
  | nil => []
  | node i _ _ sub => i :: ((sub false).ids ++ (sub true).ids)

def inorder : Shape → List (ℕ × ℕ)
  | nil => []
  | node i _ data sub => (sub false).inorder ++ (i, data) :: (sub true).inorder

def Holds (h : Nodes) : Shape → Prop
  | nil => True
  | node i red data sub =>
    h i = some ⟨red, some data, fun side => (sub side).ptr⟩ ∧ (sub false).Holds h ∧
      (sub true).Holds h

variable {h h' : Nodes} {i : ℕ} {red : Bool} {data : ℕ} {sub : Bool → Shape} {s a b : Shape}
  {dir : Bool}

@[simp] theorem ptr_nil : nil.ptr = none := rfl

@[simp] theorem ptr_node : (node i red data sub).ptr = some i := rfl

@[simp] theorem isRed_node : (node i red data sub).isRed = red := rfl

theorem ids_sides : (node i red data (sides dir a b)).ids.Perm (i :: (a.ids ++ b.ids)) := by
  cases dir
  · exact .refl _
  · exact (List.perm_append_comm).cons i

theorem coe_ids_sides : ((node i red data (sides dir a b)).ids : Multiset ℕ) =
    {i} + (a.ids + b.ids) := by
  rw [Multiset.coe_add, Multiset.singleton_add, Multiset.cons_coe, Multiset.coe_eq_coe]
  exact ids_sides

theorem mem_ids_sides {j : ℕ} :
    j ∈ (node i red data (sides dir a b)).ids ↔ j = i ∨ j ∈ a.ids ∨ j ∈ b.ids := by
  rw [ids_sides.mem_iff, List.mem_cons, List.mem_append]

theorem ids_length : s.ids.length = s.size := by
  induction s with
  | nil => rfl
  | node i red data sub ih => simp [ids, size, ih]

theorem map_fst_inorder_perm : (s.inorder.map Prod.fst).Perm s.ids := by
  induction s with
  | nil => exact .nil
  | node i red data sub ih =>
    simp only [inorder, ids, List.map_append, List.map_cons]
    exact List.perm_middle.trans (((ih false).append (ih true)).cons i)

theorem Holds.sides_iff : (node i red data (sides dir a b)).Holds h ↔
    h i = some ⟨red, some data, sides dir a.ptr b.ptr⟩ ∧ a.Holds h ∧ b.Holds h := by
  rw [← comp_sides]
  cases dir
  · exact Iff.rfl
  · exact and_congr_right fun _ => and_comm

theorem Holds.congr (hs : s.Holds h) (heq : ∀ j ∈ s.ids, h' j = h j) : s.Holds h' := by
  induction s with
  | nil => trivial
  | node i red data sub ih =>
    obtain ⟨hi, hl, hr⟩ := hs
    refine ⟨(heq i List.mem_cons_self).trans hi, ih false hl fun j hj => heq j ?_,
      ih true hr fun j hj => heq j ?_⟩ <;>
      simp [ids, hj]

theorem Holds.label (hs : s.Holds h) (hmem : (i, data) ∈ s.inorder) :
    ∃ n, h i = some n ∧ n.data = some data := by
  induction s with
  | nil => cases hmem
  | node j red e sub ih =>
    simp only [inorder, List.mem_append, List.mem_cons] at hmem
    rcases hmem with hmem | heq | hmem
    · exact ih false hs.2.1 hmem
    · cases heq
      exact ⟨_, hs.1, rfl⟩
    · exact ih true hs.2.2 hmem

theorem Holds.update_of_not_mem (hs : s.Holds h) {n : Option Node} (hi : i ∉ s.ids) :
    s.Holds (Function.update h i n) :=
  hs.congr fun j hj => Function.update_of_ne (by rintro rfl; exact hi hj) _ _

theorem inorder_sides : (node i red data (sides dir a b)).inorder =
    if dir then b.inorder ++ (i, data) :: a.inorder else a.inorder ++ (i, data) :: b.inorder := by
  cases dir <;> rfl

end Shape

section Paths

/-- A node on the way to a hole: the side of the hole and what is on the other. -/
structure Frame where
  i : ℕ
  red : Bool
  data : ℕ
  dir : Bool
  other : Shape

def Frame.plug (f : Frame) (s : Shape) : Shape := .node f.i f.red f.data (sides f.dir s f.other)

def plug (path : List Frame) (s : Shape) : Shape := path.foldl (fun s f => f.plug s) s

@[simp] theorem plug_nil (s : Shape) : plug [] s = s := rfl

@[simp] theorem plug_cons (f : Frame) (path : List Frame) (s : Shape) :
    plug (f :: path) s = plug path (f.plug s) := rfl

def pathIds : List Frame → List ℕ
  | [] => []
  | f :: path => f.i :: (f.other.ids ++ pathIds path)

/-- The labels on the side of the hole that comes first, and on the other. -/
def before : List Frame → List (ℕ × ℕ)
  | [] => []
  | f :: path => before path ++ if f.dir then f.other.inorder ++ [(f.i, f.data)] else []

def after : List Frame → List (ℕ × ℕ)
  | [] => []
  | f :: path => (if f.dir then [] else (f.i, f.data) :: f.other.inorder) ++ after path

theorem inorder_plug (path : List Frame) (s : Shape) :
    (plug path s).inorder = before path ++ s.inorder ++ after path := by
  induction path generalizing s with
  | nil => simp [before, after]
  | cons f path ih =>
    rw [plug_cons, ih, Frame.plug, Shape.inorder_sides]
    cases hdir : f.dir <;> simp [before, after, hdir]

theorem pathIds_cons_append_perm  (f : Frame) (path : List Frame) (s : Shape) :
    (pathIds (f :: path) ++ s.ids).Perm (pathIds path ++ (f.plug s).ids) := by
  rw [← Multiset.coe_eq_coe, ← Multiset.coe_add, ← Multiset.coe_add, Frame.plug,
    Shape.coe_ids_sides, pathIds, ← Multiset.cons_coe, ← Multiset.coe_add, ← Multiset.singleton_add]
  abel

/-- The memory holds the path below the head node `hd`, with `q` linked into the hole. -/
def HoldsPath (h : Nodes) (hd : ℕ) : List Frame → Option ℕ → Prop
  | [], q => h hd = some ⟨false, none, sides true q none⟩
  | f :: path, q =>
    h f.i = some ⟨f.red, some f.data, sides f.dir q f.other.ptr⟩ ∧ f.other.Holds h ∧
      HoldsPath h hd path (some f.i)

/-- The memory holds a tree below the head node, split into a path and the shape
in its hole. -/
structure Rep (h : Nodes) (hd : ℕ) (path : List Frame) (s : Shape) : Prop where
  above : HoldsPath h hd path s.ptr
  below : s.Holds h
  nodup : (hd :: (pathIds path ++ s.ids)).Nodup

variable {h h' : Nodes} {hd : ℕ} {path : List Frame} {q : Option ℕ} {s s' : Shape} {f : Frame}

theorem HoldsPath.congr (hp : HoldsPath h hd path q)
    (heq : ∀ j ∈ hd :: pathIds path, h' j = h j) : HoldsPath h' hd path q := by
  induction path generalizing q with
  | nil => exact (heq hd List.mem_cons_self).trans hp
  | cons f path ih =>
    obtain ⟨hf, hother, hpath⟩ := hp
    refine ⟨(heq f.i (by simp [pathIds])).trans hf, hother.congr fun j hj => heq j ?_,
      ih hpath fun j hj => heq j ?_⟩
    · simp [pathIds, hj]
    · rcases List.mem_cons.mp hj with rfl | hj
      · exact List.mem_cons_self
      · simp [pathIds, hj]

theorem rep_cons_iff : Rep h hd (f :: path) s ↔ Rep h hd path (f.plug s) := by
  have hnodup : (hd :: (pathIds (f :: path) ++ s.ids)).Nodup ↔
      (hd :: (pathIds path ++ (f.plug s).ids)).Nodup :=
    ((pathIds_cons_append_perm f path s).cons hd).nodup_iff
  constructor
  · rintro ⟨⟨hf, hother, hpath⟩, hs, hn⟩
    exact ⟨hpath, Shape.Holds.sides_iff.mpr ⟨hf, hs, hother⟩, hnodup.mp hn⟩
  · rintro ⟨hpath, hs, hn⟩
    obtain ⟨hf, hs, hother⟩ := Shape.Holds.sides_iff.mp hs
    exact ⟨⟨hf, hother, hpath⟩, hs, hnodup.mpr hn⟩

theorem rep_plug : Rep h hd path s ↔ Rep h hd [] (plug path s) := by
  induction path generalizing s with
  | nil => exact Iff.rfl
  | cons f path ih => exact rep_cons_iff.trans ih

end Paths

section Relabel

variable (i d : ℕ)

/-- The node at `i` gets the label `d`. -/
def Shape.relabel : Shape → Shape
  | nil => nil
  | node j red e sub => node j red (if j = i then d else e) fun side => (sub side).relabel

def Frame.relabel (f : Frame) : Frame :=
  { f with data := if f.i = i then d else f.data, other := f.other.relabel i d }

variable {i d} {h : Nodes} {hd : ℕ} {path : List Frame} {s : Shape} {n : Node}
  {l l₁ l₂ : List (ℕ × ℕ)}

@[simp] theorem Shape.ptr_relabel : (s.relabel i d).ptr = s.ptr := by cases s <;> rfl

@[simp] theorem Shape.ids_relabel : (s.relabel i d).ids = s.ids := by
  induction s with
  | nil => rfl
  | node j red e sub ih => simp [relabel, ids, ih]

theorem Shape.inorder_relabel :
    (s.relabel i d).inorder = s.inorder.map fun x => (x.1, if x.1 = i then d else x.2) := by
  induction s with
  | nil => rfl
  | node j red e sub ih => simp [relabel, inorder, ih]

theorem plug_relabel : (plug path s).relabel i d =
    plug (path.map (Frame.relabel i d)) (s.relabel i d) := by
  induction path generalizing s with
  | nil => rfl
  | cons f path ih =>
    have hplug : (f.plug s).relabel i d = (f.relabel i d).plug (s.relabel i d) :=
      congrArg (Shape.node f.i f.red _) (comp_sides (Shape.relabel i d) f.dir s f.other)
    rw [plug_cons, ih, hplug, List.map_cons, plug_cons]

theorem Shape.Holds.relabel (hs : s.Holds h) (hn : h i = some n) :
    (s.relabel i d).Holds (Function.update h i (some { n with data := some d })) := by
  induction s with
  | nil => trivial
  | node j red e sub ih =>
    refine ⟨?_, ih false hs.2.1, ih true hs.2.2⟩
    by_cases hj : j = i
    · subst hj
      cases hn.symm.trans hs.1
      simp
    · simp [hj, hs.1]

theorem Rep.relabel (hrep : Rep h hd path s) (hn : h i = some n) (hi : i ≠ hd) :
    Rep (Function.update h i (some { n with data := some d })) hd (path.map (Frame.relabel i d))
      (s.relabel i d) := by
  rw [rep_plug, ← plug_relabel]
  have hwhole := rep_plug.mp hrep
  refine ⟨?_, hwhole.below.relabel hn, ?_⟩
  · have hhead := hwhole.above
    simp only [HoldsPath] at hhead ⊢
    rwa [Function.update_of_ne hi.symm, Shape.ptr_relabel]
  · rw [Shape.ids_relabel]
    exact hwhole.nodup

@[simp] theorem pathIds_map_relabel : pathIds (path.map (Frame.relabel i d)) = pathIds path := by
  induction path with
  | nil => rfl
  | cons f path ih =>
    rw [List.map_cons, pathIds, ih, pathIds, Frame.relabel, Shape.ids_relabel]

theorem map_relabel_of_not_mem (hi : i ∉ l.map Prod.fst) :
    l.map (fun x => (x.1, if x.1 = i then d else x.2)) = l := by
  refine (List.map_congr_left fun x hx => ?_).trans (List.map_id l)
  have hne : x.1 ≠ i := by
    rintro rfl
    exact hi (List.mem_map_of_mem hx)
  simp [hne]

theorem map_relabel_of_nodup {e : ℕ} (hn : ((l₁ ++ (i, e) :: l₂).map Prod.fst).Nodup) :
    (l₁ ++ (i, e) :: l₂).map (fun x => (x.1, if x.1 = i then d else x.2)) =
      l₁ ++ (i, d) :: l₂ := by
  rw [List.map_append, List.map_cons] at hn
  obtain ⟨-, hright, hdisjoint⟩ := List.nodup_append'.mp hn
  rw [List.map_append, List.map_cons, map_relabel_of_not_mem fun hmem =>
    hdisjoint hmem List.mem_cons_self, map_relabel_of_not_mem (List.nodup_cons.mp hright).1]
  simp

end Relabel

end PersClient.LinkedTree
