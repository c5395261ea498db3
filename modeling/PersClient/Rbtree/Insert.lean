import PersClient.Lib.RedBlack
import PersClient.Rbtree.Search

/-! # Insertion

On the way down a black node with two red children is made red, so that a red
node put in at the end, or made on the way, has at most one red neighbour above
it, and a rotation repairs that. For one or two turns after a rotation the
helpers are not the ancestors of the node they look at; in these turns there is
nothing to repair.
-/

namespace PersClient.Rbtree

open LinkedTree Shape

section Turn

variable {α : Type} {cmp : α → α → ℤ} {m m₁ : Memory α} {data q : ℕ} {s : Descent} {nodes : Nodes}
  {order : ℤ}

def Descent.advance (s : Descent) (q : ℕ) (child : Option ℕ) (dir : Bool) : Descent :=
  { t := if s.g ≠ none then s.g else s.t, g := s.p, p := some q, q := child, dir, last := s.dir }

theorem insertLoop_stop {turns : ℕ} (hhere : insertHere m data s = some (q, m₁))
    (hrepair : repairRed m₁.nodes q s = some nodes)
    (horder : compareAt { m₁ with nodes } cmp (some q) data = some 0) :
    insertLoop cmp data (turns + 1) m s = some { m₁ with nodes } := by
  simp [insertLoop, hhere, hrepair, horder]

theorem insertLoop_go {turns : ℕ} {child : Option ℕ} (hhere : insertHere m data s = some (q, m₁))
    (hrepair : repairRed m₁.nodes q s = some nodes)
    (horder : compareAt { m₁ with nodes } cmp (some q) data = some order) (hne : order ≠ 0)
    (hchild : getLink nodes (some q) (order < 0) = some child) :
    insertLoop cmp data (turns + 1) m s =
      insertLoop cmp data turns { m₁ with nodes } (s.advance q child (order < 0)) := by
  simp [insertLoop, hhere, hrepair, horder, hne, hchild, Descent.advance]

end Turn

section Here

variable {α : Type} {m : Memory α} {data : ℕ} {s : Descent} {h : Nodes} {hd i d : ℕ} {red : Bool}
  {sub : Bool → Shape} {path : List Frame} {q : Shape}

def BothRed (sub : Bool → Shape) : Prop := (sub false).isRed = true ∧ (sub true).isRed = true

theorem insertHere_keep (hq : (node i red d sub).Holds m.nodes) (hs : s.q = some i)
    (hboth : ¬ BothRed sub) : insertHere m data s = some (i, m) := by
  have hleft := isRed_ptr hq.2.1
  have hright := isRed_ptr hq.2.2
  unfold insertHere
  rw [hs]
  simp only [getLink_node hq, hleft, hright, Option.bind_eq_bind, Option.bind_some]
  rw [if_neg]
  simpa [BothRed] using hboth

def blacken : Shape → Shape
  | .nil => .nil
  | .node i _ d sub => .node i false d sub

def flipped (i d : ℕ) (sub : Bool → Shape) : Shape := .node i true d fun side => blacken (sub side)

@[simp] theorem blacken_ptr (s : Shape) : (blacken s).ptr = s.ptr := by cases s <;> rfl

@[simp] theorem blacken_ids (s : Shape) : (blacken s).ids = s.ids := by cases s <;> rfl

@[simp] theorem blacken_inorder (s : Shape) : (blacken s).inorder = s.inorder := by cases s <;> rfl

@[simp] theorem blacken_isRed (s : Shape) : (blacken s).isRed = false := by cases s <;> rfl

@[simp] theorem blacken_size (s : Shape) : (blacken s).size = s.size := by cases s <;> rfl

theorem Shape.Balanced.blacken {n : ℕ} {s : Shape} (hs : s.Balanced n) (hred : s.isRed = true) :
    (blacken s).Balanced (n + 1) := by
  cases s with
  | nil => cases hred
  | node i red d sub =>
    obtain rfl : red = true := hred
    obtain ⟨-, m, rfl, hsub⟩ := hs
    exact ⟨fun h => (by cases h), _, rfl, hsub⟩

theorem setRed_blacken (hq : q.Holds h) (hn : q.ids.Nodup) (hne : q ≠ .nil) :
    ∃ h', setRed h q.ptr false = some h' ∧ (blacken q).Holds h' ∧ SameOutside h h' q.ids := by
  obtain ⟨i, red, d, a, b, rfl⟩ := Shape.exists_sides true hne
  obtain ⟨h', hset, hholds, hout⟩ := setRed_node hn hq false
  exact ⟨h', hset, hholds, hout.mono (by simp [ids])⟩

theorem insertHere_flip (hq : (node i red d sub).Holds m.nodes) (hn : (node i red d sub).ids.Nodup)
    (hs : s.q = some i) (hboth : BothRed sub) :
    ∃ nodes, insertHere m data s = some (i, { m with nodes }) ∧ (flipped i d sub).Holds nodes ∧
      SameOutside m.nodes nodes (node i red d sub).ids := by
  obtain ⟨hleft, hright⟩ := hboth
  have hsides : sub = sides false (sub false) (sub true) := (sides_eta false sub).symm
  have hne : ∀ side, (sub side).isRed = true → sub side ≠ .nil := by
    intro side hred heq
    rw [heq] at hred
    cases hred
  obtain ⟨hi, hl, hr⟩ := hq
  rw [hsides] at hn
  obtain ⟨hil, hir, hnl, hnr, hdisjoint⟩ := nodup_sides hn
  -- the node itself is made red
  let h₁ : Nodes := Function.update m.nodes i (some ⟨true, some d, fun side => (sub side).ptr⟩)
  have hset : setRed m.nodes (some i) true = some h₁ := by simp [setRed, hi, h₁]
  have hl₁ : (sub false).Holds h₁ := hl.update_of_not_mem hil
  have hr₁ : (sub true).Holds h₁ := hr.update_of_not_mem hir
  -- then its children black
  obtain ⟨h₂, hset₂, hl₂, hout₂⟩ := setRed_blacken hl₁ hnl (hne _ hleft)
  have hr₂ : (sub true).Holds h₂ := Holds.outside hr₁ hout₂ fun j hj hj' => hdisjoint hj' hj
  obtain ⟨h₃, hset₃, hr₃, hout₃⟩ := setRed_blacken hr₂ hnr (hne _ hright)
  have hl₃ : (blacken (sub false)).Holds h₃ := Holds.outside hl₂ hout₃ fun j hj hj' => by
    rw [blacken_ids] at hj
    exact hdisjoint hj hj'
  refine ⟨h₃, ?_, ⟨?_, hl₃, hr₃⟩, ?_⟩
  · unfold insertHere
    rw [hs]
    simp only [getLink_node ⟨hi, hl, hr⟩, isRed_ptr hl, isRed_ptr hr, hleft, hright, hset, hset₂,
      hset₃, Option.bind_eq_bind, Option.bind_some, Bool.and_self, if_true]
  · rw [hout₃ i hir, hout₂ i hil]
    simp [h₁]
  · intro j hj
    simp only [ids, List.mem_cons, List.mem_append, not_or] at hj
    rw [hout₃ j hj.2.2, hout₂ j hj.2.1]
    exact Function.update_of_ne hj.1 _ _

end Here

section Repair

variable {h : Nodes} {hd q qi qd : ℕ} {s : Descent} {p g : Frame} {rest : List Frame}
  {sub : Bool → Shape}

theorem repairRed_keep {redQ redP : Bool} (hq : isRed h (some q) = some redQ)
    (hp : isRed h s.p = some redP) (hkeep : ¬ (redQ = true ∧ redP = true)) :
    repairRed h q s = some h := by
  unfold repairRed
  simp only [hq, hp, Option.bind_eq_bind, Option.bind_some]
  rw [if_neg]
  simpa using hkeep

structure Ancestors (hd : ℕ) (p g : Frame) (rest : List Frame) (s : Descent) : Prop where
  top : s.t = some (above hd rest)
  grand : s.g = some g.i
  parent : s.p = some p.i
  lastDir : s.last = g.dir

variable (hs : Ancestors hd p g rest s) (hrep : Rep h hd (p :: g :: rest) (.node qi true qd sub))
  (hp : p.red = true)
include hs hrep hp

theorem repairRed_link {h₁ : Nodes} {s' : Shape} {link : Option ℕ}
    (hnear : getLink h (some p.i) g.dir = some link)
    (hturn : (if some qi = link then jswSingle h (some g.i) (!g.dir)
      else jswDouble h (some g.i) (!g.dir)) = some (s'.ptr, h₁)) (hs' : s'.Holds h₁)
    (hout : SameOutside h h₁ (g.plug (p.plug (.node qi true qd sub))).ids)
    (hperm : s'.ids.Perm (g.plug (p.plug (.node qi true qd sub))).ids) :
    ∃ h', repairRed h qi s = some h' ∧ Rep h' hd rest s' ∧
      SameOutside h h' (hd :: (pathIds (p :: g :: rest) ++ (Shape.node qi true qd sub).ids)) := by
  have hparent := rep_cons_iff.mp hrep
  have hgrand := rep_cons_iff.mp hparent
  have hn := hgrand.nodup
  rw [← List.cons_append] at hn
  have hpath : ∀ j ∈ hd :: pathIds rest, h₁ j = h j := fun j hj =>
    hout j fun hmem => (List.nodup_append'.mp hn).2.2 hj hmem
  obtain ⟨h₂, hset, hrep₂, hout₂⟩ := Rep.splice hgrand hs' hpath
    (((hperm.append_left _).cons hd).nodup_iff.mpr hgrand.nodup)
  obtain ⟨up, hup, hside⟩ := getLink_above_true hgrand (by simp [Frame.plug])
  refine ⟨h₂, ?_, hrep₂, ?_⟩
  · have hredQ : isRed h (some qi) = some true := isRed_ptr hrep.below
    have hredP : isRed h (some p.i) = some true := by
      rw [← hp]
      exact isRed_ptr hparent.below
    have hdir2 : decide (up = some g.i) = side rest := by
      have hdecide : decide (up = some g.i) = decide (side rest = true) :=
        decide_eq_decide.mpr hside
      rwa [Bool.decide_eq_true] at hdecide
    unfold repairRed
    simp only [hredQ, hredP, hs.top, hs.grand, hs.parent, hs.lastDir, hup, hnear, hdir2,
      Option.bind_eq_bind, Option.bind_some, Bool.and_self, if_true]
    split
    · rename_i hlink
      rw [if_pos hlink] at hturn
      rwa [hturn]
    · rename_i hlink
      rw [if_neg hlink] at hturn
      rwa [hturn]
  · have hids : ∀ j, j ∈ pathIds (p :: g :: rest) ++ (Shape.node qi true qd sub).ids ↔
        j ∈ pathIds rest ++ (g.plug (p.plug (.node qi true qd sub))).ids := fun j =>
      ((pathIds_cons_append_perm _ _ _).trans (pathIds_cons_append_perm _ _ _)).mem_iff
    intro j hj
    rw [List.mem_cons, hids, List.mem_append, not_or, not_or] at hj
    rw [hout₂ j, hout j hj.2.2]
    intro hmem
    rcases List.mem_cons.mp (List.mem_singleton.mp hmem ▸ above_mem : j ∈ hd :: pathIds rest) with
      rfl | hmem
    · exact hj.1 rfl
    · exact hj.2.1 hmem

theorem repairRed_outer (hdir : p.dir = g.dir) :
    ∃ h', repairRed h qi s = some h' ∧
      Rep h' hd (⟨p.i, false, p.data, g.dir, .node g.i true g.data (sides g.dir p.other g.other)⟩ ::
        rest) (.node qi true qd sub) ∧
      SameOutside h h' (hd :: (pathIds (p :: g :: rest) ++ (Shape.node qi true qd sub).ids)) := by
  have hparent := rep_cons_iff.mp hrep
  have hgrand := rep_cons_iff.mp hparent
  have hplug : g.plug (p.plug (.node qi true qd sub)) =
      .node g.i g.red g.data (sides (!g.dir) g.other
        (.node p.i p.red p.data (sides (!g.dir) p.other (.node qi true qd sub)))) := by
    simp only [Frame.plug, hdir, sides_not_left]
  have hturned : Shape.node p.i false p.data (sides (!g.dir)
      (.node g.i true g.data (sides (!g.dir) g.other p.other)) (.node qi true qd sub)) =
      .node p.i false p.data (sides g.dir (.node qi true qd sub)
        (.node g.i true g.data (sides g.dir p.other g.other))) := by
    simp only [sides_not_left]
  have hshape := hgrand.below
  have hnodup := (List.nodup_append'.mp (List.nodup_cons.mp hgrand.nodup).2).2.1
  rw [hplug] at hshape hnodup
  obtain ⟨h₁, hsingle, hholds, hout⟩ := jswSingle_node hnodup hshape
  rw [hturned] at hholds
  have hnear : getLink h (some p.i) g.dir = some (some qi) := by
    rw [← hdir]
    exact getLink_self hparent.below
  obtain ⟨h₂, hrepair, hrep₂, hout₂⟩ := repairRed_link hs hrep hp hnear
    (by rw [if_pos rfl, hsingle]; rfl) hholds
    (hout.mono (by simp [Frame.plug, mem_ids_sides]))
    (by rw [← hturned, hplug]; exact ids_single_perm)
  exact ⟨h₂, hrepair, rep_cons_iff.mpr hrep₂, hout₂⟩

theorem repairRed_inner (hdir : p.dir = !g.dir) :
    ∃ h', repairRed h qi s = some h' ∧
      Rep h' hd rest (.node qi false qd (sides g.dir
        (.node p.i true p.data (sides g.dir p.other (sub g.dir)))
        (.node g.i true g.data (sides g.dir (sub (!g.dir)) g.other)))) ∧
      SameOutside h h' (hd :: (pathIds (p :: g :: rest) ++ (Shape.node qi true qd sub).ids)) := by
  have hparent := rep_cons_iff.mp hrep
  have hgrand := rep_cons_iff.mp hparent
  have hplug : g.plug (p.plug (.node qi true qd sub)) =
      .node g.i g.red g.data (sides (!g.dir) g.other
        (.node p.i p.red p.data (sides (!g.dir)
          (.node qi true qd (sides (!g.dir) (sub (!g.dir)) (sub g.dir))) p.other))) := by
    simp only [Frame.plug, hdir, sides_not_left, sides_eta]
  have hturned : Shape.node qi false qd (sides (!g.dir)
      (.node g.i true g.data (sides (!g.dir) g.other (sub (!g.dir))))
      (.node p.i true p.data (sides (!g.dir) (sub g.dir) p.other))) =
      .node qi false qd (sides g.dir
        (.node p.i true p.data (sides g.dir p.other (sub g.dir)))
        (.node g.i true g.data (sides g.dir (sub (!g.dir)) g.other))) := by
    simp only [sides_not_left]
  have hshape := hgrand.below
  have hnodup := (List.nodup_append'.mp (List.nodup_cons.mp hgrand.nodup).2).2.1
  rw [hplug] at hshape hnodup
  obtain ⟨h₁, hdouble, hholds, hout⟩ := jswDouble_node hnodup hshape
  rw [hturned] at hholds
  have hnear : getLink h (some p.i) g.dir = some p.other.ptr := by
    have hbelow := getLink_not hparent.below
    rwa [hdir, Bool.not_not] at hbelow
  have hother : some qi ≠ p.other.ptr := by
    intro heq
    have hn := hrep.nodup
    cases ho : p.other with
    | nil => rw [ho] at heq; cases heq
    | node j red d sub' =>
      rw [ho] at heq
      cases heq
      simp [pathIds, ho, ids] at hn
  exact repairRed_link hs hrep hp hnear (by rw [if_neg hother, hdouble]; rfl) hholds
    (hout.mono fun j hj => by
      rw [hplug]
      simp only [List.mem_cons, List.not_mem_nil, or_false] at hj
      simp only [mem_ids_sides]
      tauto)
    (by rw [← hturned, hplug]; exact ids_double_perm)

end Repair

section Phases

variable {hd : ℕ} {path : List Frame} {q : Shape} {s : Descent}

structure Follows (hd : ℕ) (path : List Frame) (q : Shape) (s : Descent) : Prop where
  node : s.q = q.ptr
  parent : s.p = path.head?.map Frame.i
  grand : s.g = (path.drop 1).head?.map Frame.i
  dir : ∀ f ∈ path.head?, s.dir = f.dir
  start : s.g = none → s.t = some hd

/-- All helpers are the ancestors, and neither the node nor its parent is one of
two red children. -/
structure Ready (hd : ℕ) (path : List Frame) (q : Shape) (s : Descent) : Prop
    extends Follows hd path q s where
  top : s.t = some (above hd (path.drop 2))
  lastDir : ∀ g ∈ (path.drop 1).head?, s.last = g.dir
  nodeAlone : q.isRed = true → ∃ f rest, path = f :: rest ∧ f.other.isRed = false
  parentAlone : ∀ f rest, path = f :: rest → f.red = true →
    ∃ g rest', rest = g :: rest' ∧ g.other.isRed = false
  below : q = .nil → path ≠ []

/-- A black node that is not made red. -/
def Quiet (q : Shape) : Prop := ∃ i d sub, q = .node i false d sub ∧ ¬ BothRed sub

/-- Where the search is, and a bound for the turns it needs from there. -/
inductive Phase {α κ : Type*} [LT κ] (key : α → κ) (items : ℕ → Option α) (k : κ) (hd : ℕ) :
    List Frame → Shape → Descent → ℕ → Prop
  | ready {path : List Frame} {q : Shape} {s : Descent} (ready : Ready hd path q s) :
    Phase key items k hd path q s (2 * q.size + 1)
  | quiet {path : List Frame} {q : Shape} {s : Descent} (follows : Follows hd path q s)
      (quiet : Quiet q) : Phase key items k hd path q s (2 * q.size + 1)
  /-- the node came up, and the next one is a former ancestor -/
  | turned {f : Frame} {rest : List Frame} {i d : ℕ} {dir : Bool} {c o : Shape} {s : Descent} {a : α}
      (node : s.q = some i) (parent : s.p = some f.i) (lastDir : s.dir = f.dir)
      (black : f.red = false) (quiet : Quiet c) (item : items d = some a)
      (onward : if dir then k < key a else key a < k) :
    Phase key items k hd (f :: rest) (.node i true d (sides dir c o)) s (2 * c.size + 2)

theorem Follows.advance {i d : ℕ} {red dir : Bool} {child o : Shape} (h : Follows hd path q s) :
    Follows hd (⟨i, red, d, dir, o⟩ :: path) child (s.advance i child.ptr dir) ∧
      (s.advance i child.ptr dir).t = some (above hd (path.drop 1)) ∧
      ∀ g ∈ path.head?, (s.advance i child.ptr dir).last = g.dir := by
  have htop : (s.advance i child.ptr dir).t = some (above hd (path.drop 1)) := by
    have hgrand := h.grand
    unfold Descent.advance above
    dsimp only
    cases hdrop : path.drop 1 with
    | nil =>
      rw [hdrop] at hgrand
      have hnone : s.g = none := hgrand
      simp [hnone, h.start hnone]
    | cons g rest =>
      rw [hdrop] at hgrand
      simp [hgrand]
  refine ⟨⟨rfl, rfl, h.parent, ?_, ?_⟩, htop, h.dir⟩
  · rintro f hf
    cases hf
    rfl
  · intro hnone
    have hpath : path = [] := by
      cases path with
      | nil => rfl
      | cons f rest => exact absurd (h.parent.symm.trans hnone) (by simp)
    rw [htop, hpath]
    rfl

theorem isRed_parent {h : Nodes} (hrep : Rep h hd path q) (hp : s.p = path.head?.map Frame.i) :
    isRed h s.p = some (parentRed path) := by
  cases path with
  | nil => rw [hp]; rfl
  | cons f rest =>
    rw [hp]
    exact isRed_ptr (rep_cons_iff.mp hrep).below

end Phases

section Places

variable {α : Type} {κ : Type*} [LinearOrder κ] {key : α → κ} {items : ℕ → Option α} {k : κ}
  {m : Memory α} {hd : ℕ} {path : List Frame} {q : Shape} {l : List (ℕ × ℕ)}

/-- A place in a tree in memory where the search for the key is, in the order of `l`. -/
structure Place (key : α → κ) (k : κ) (hd : ℕ) (l : List (ℕ × ℕ)) (m : Memory α)
    (path : List Frame) (q : Shape) : Prop where
  rep : Rep m.nodes hd path q
  fits : ∃ n, Fits path q n
  order : (plug path q).inorder = l
  searching : Searching key m.items k path
  fresh : ∀ j, m.nextNode ≤ j → m.nodes j = none

theorem Searching.tail {f : Frame} (h : Searching key items k (f :: path)) :
    Searching key items k path :=
  ⟨fun x hx => h.before x (List.mem_append_left _ hx),
    fun x hx => h.after x (List.mem_append_right _ hx)⟩

theorem Searching.head {f : Frame} (h : Searching key items k (f :: path)) :
    ∃ a, items f.data = some a ∧ if f.dir then k < key a else key a < k := by
  cases hdir : f.dir with
  | true => exact h.before (f.i, f.data) (by simp [LinkedTree.before, hdir])
  | false => exact h.after (f.i, f.data) (by simp [LinkedTree.after, hdir])

theorem Searching.congr {path' : List Frame} (h : Searching key items k path)
    (hbefore : LinkedTree.before path' = LinkedTree.before path)
    (hafter : LinkedTree.after path' = LinkedTree.after path) :
    Searching key items k path' := by
  constructor
  · rw [hbefore]
    exact h.before
  · rw [hafter]
    exact h.after

variable {i d : ℕ} {red dir : Bool} {sub : Bool → Shape} {a : α}

theorem Place.step (h : Place key k hd l m path (.node i red d sub)) (hsorted : Sorted key m.items l)
    (ha : m.items d = some a) (honward : if dir then k < key a else key a < k) :
    Place key k hd l m (⟨i, red, d, dir, sub !dir⟩ :: path) (sub dir) := by
  have hplug : (⟨i, red, d, dir, sub !dir⟩ : Frame).plug (sub dir) = .node i red d sub :=
    congrArg (Shape.node i red d) (sides_eta dir sub)
  have hnode : Sorted key m.items
      (Shape.node i red d (sides dir (sub dir) (sub !dir))).inorder := by
    rw [sides_eta]
    exact Sorted.of_plug (h.order ▸ hsorted)
  refine ⟨rep_cons_iff.mpr (hplug ▸ h.rep), fits_cons_iff.mpr (hplug ▸ h.fits), ?_,
    h.searching.cons ha hnode honward, h.fresh⟩
  rw [plug_cons, hplug]
  exact h.order

end Places

section Repaired

variable {κ : Type*} [LinearOrder κ] {α : Type} {key : α → κ} {items : ℕ → Option α} {k : κ}
  {h : Nodes} {hd n qi qd : ℕ} {path : List Frame} {q : Shape} {s : Descent} {sub : Bool → Shape}

/-- A red node made at a hole, and what the repair leaves: the node is where it
was or came up, its order is kept, and the search goes on from it. -/
structure Repaired (key : α → κ) (items : ℕ → Option α) (k : κ) (h : Nodes) (hd : ℕ)
    (path : List Frame) (qi qd : ℕ) (sub : Bool → Shape) (s : Descent) (path' : List Frame)
    (red : Bool) (sub' : Bool → Shape) : Prop where
  rep : Rep h hd path' (.node qi red qd sub')
  fits : ∃ n, Fits path' (.node qi red qd sub') n
  order : (plug path' (.node qi red qd sub')).inorder = (plug path (.node qi true qd sub)).inorder
  searching : Searching key items k path'
  phase : (∀ side, Quiet (sub side)) → ∀ dir, ∃ turns ≤ 2 * (Shape.node qi true qd sub).size,
    Phase key items k hd (⟨qi, red, qd, dir, sub' !dir⟩ :: path') (sub' dir)
      (s.advance qi (sub' dir).ptr dir) turns

theorem size_child (side : Bool) : (sub side).size < (Shape.node qi true qd sub).size := by
  cases side <;> simp only [Shape.size] <;> omega

theorem repairRed_spec (hready : Ready hd path q s) (hrep : Rep h hd path (.node qi true qd sub))
    (hpath : PathBalanced path n) (hq : (Shape.node qi true qd sub).Balanced n)
    (hsearch : Searching key items k path) :
    ∃ h' path' red sub', repairRed h qi s = some h' ∧
      Repaired key items k h' hd path qi qd sub s path' red sub' ∧
      SameOutside h h' (hd :: (pathIds path ++ (Shape.node qi true qd sub).ids)) := by
  obtain ⟨hblack, _, rfl, hsub⟩ := hq
  have hbelow : (Shape.node qi true qd sub).Balanced n := ⟨hblack, n, rfl, hsub⟩
  have hsmaller : ∀ side, 2 * (sub side).size + 2 ≤ 2 * (Shape.node qi true qd sub).size := by
    intro side
    have hlt : (sub side).size < (Shape.node qi true qd sub).size := size_child side
    omega
  cases hparent : parentRed path with
  | false =>
    refine ⟨h, path, true, sub, repairRed_keep (isRed_ptr hrep.below)
      (isRed_parent hrep hready.parent) (by simp [hparent]), ⟨hrep, ⟨n, hpath, hbelow,
      fun _ => hparent⟩, rfl, hsearch, fun hquiet dir => ⟨_, ?_, .quiet ?_ (hquiet dir)⟩⟩,
      SameOutside.refl _ _⟩
    · exact Nat.le_of_succ_le (hsmaller dir)
    · exact hready.toFollows.advance.1
  | true =>
    -- the parent is red, so there is a grandparent, and the other child of it is black
    obtain ⟨p, rest, rfl⟩ : ∃ p rest, path = p :: rest := by
      cases path with
      | nil => cases hparent
      | cons p rest => exact ⟨p, rest, rfl⟩
    have hp : p.red = true := hparent
    obtain ⟨g, rest, rfl, huncle⟩ := hready.parentAlone p rest rfl hp
    have hancestors : Ancestors hd p g rest s :=
      ⟨hready.top, hready.grand, hready.parent, hready.lastDir g rfl⟩
    obtain ⟨hother, hsibling, habove⟩ := hpath
    obtain ⟨hpother, hg⟩ := hsibling hp
    obtain ⟨hgother, -, hrest⟩ := habove
    have hgblack : g.red = false := hg
    rw [hp, hgblack, blackness_true, add_zero, blackness_false] at hrest
    rw [hp, blackness_true, add_zero] at hgother
    obtain hdir | hdir : p.dir = g.dir ∨ p.dir = !g.dir := by
      cases p.dir <;> cases g.dir <;> simp
    · obtain ⟨h', hrepair, hrep', hout⟩ := repairRed_outer hancestors hrep hp hdir
      have hbefore : before (⟨p.i, false, p.data, g.dir, .node g.i true g.data
          (sides g.dir p.other g.other)⟩ :: rest) = before (p :: g :: rest) := by
        simp only [before, hdir, inorder_sides]
        cases g.dir <;> simp
      have hafter : after (⟨p.i, false, p.data, g.dir, .node g.i true g.data
          (sides g.dir p.other g.other)⟩ :: rest) = after (p :: g :: rest) := by
        simp only [after, hdir, inorder_sides]
        cases g.dir <;> simp
      refine ⟨h', _, true, sub, hrepair, ⟨hrep', ⟨n, ⟨?_, fun h => (by cases h), hrest⟩, hbelow,
        fun _ => rfl⟩, ?_, hsearch.congr hbefore hafter,
        fun hquiet dir => ⟨_, ?_, .quiet ?_ (hquiet dir)⟩⟩, hout⟩
      · exact balanced_red.mpr ⟨⟨hpother, huncle⟩, hother, hgother⟩
      · rw [inorder_plug, inorder_plug, hbefore, hafter]
      · exact Nat.le_of_succ_le (hsmaller dir)
      · refine ⟨rfl, rfl, hready.parent, ?_, fun hnone => ?_⟩
        · rintro f hf
          cases hf
          rfl
        · exact absurd (hready.parent.symm.trans hnone) (by simp)
    · obtain ⟨h', hrepair, hrep', hout⟩ := repairRed_inner hancestors hrep hp hdir
      obtain ⟨a, ha, honward⟩ := hsearch.head
      obtain ⟨b, hb, honward'⟩ := hsearch.tail.head
      refine ⟨h', rest, false, _, hrepair, ⟨hrep', ⟨n + 1, hrest, ?_, fun h => (by cases h)⟩, ?_,
        hsearch.tail.tail, fun hquiet dir => ?_⟩, hout⟩
      · exact balanced_black.mpr ⟨n, rfl, balanced_red.mpr ⟨⟨hpother, hblack rfl _⟩, hother, hsub _⟩,
          balanced_red.mpr ⟨⟨hblack rfl _, huncle⟩, hsub _, hgother⟩⟩
      · rw [plug_cons, plug_cons, inorder_plug, inorder_plug]
        have hsides : sub = sides g.dir (sub g.dir) (sub !g.dir) := (sides_eta _ _).symm
        generalize sub g.dir = x at hsides ⊢
        generalize sub (!g.dir) = y at hsides ⊢
        subst hsides
        simp only [Frame.plug, hdir, inorder_sides]
        cases g.dir <;> simp
      · obtain rfl | rfl : dir = g.dir ∨ dir = !g.dir := by
          cases dir <;> cases g.dir <;> simp
        · -- on the side of the former parent
          refine ⟨_, hsmaller g.dir, ?_⟩
          have hturned : sides g.dir p.other (sub g.dir) = sides p.dir (sub g.dir) p.other := by
            rw [hdir, sides_not_left]
          rw [sides_self, sides_not, hturned]
          exact .turned rfl rfl rfl rfl (hquiet _) ha honward
        · refine ⟨_, hsmaller (!g.dir), ?_⟩
          rw [sides_not, Bool.not_not, sides_self]
          exact .turned rfl rfl rfl rfl (hquiet _) hb honward'

end Repaired

section Loop

variable {α : Type} {κ : Type*} [LinearOrder κ] {key : α → κ} {k : κ} {m m₁ : Memory α}
  {hd data i d n turns : ℕ} {red : Bool} {sub : Bool → Shape} {path : List Frame} {q : Shape}
  {l : List (ℕ × ℕ)} {item : α} {s : Descent} {nodes : Nodes}

theorem Follows.ready (h : Follows hd path (.node i red d sub) s)
    (hlast : red = true → ∃ f rest, path = f :: rest ∧ f.other.isRed = false)
    (hboth : ¬ BothRed sub) (dir : Bool) :
    Ready hd (⟨i, red, d, dir, sub !dir⟩ :: path) (sub dir) (s.advance i (sub dir).ptr dir) := by
  obtain ⟨hfollows, htop, hlastDir⟩ := @Follows.advance _ _ _ _ i d red dir (sub dir) (sub !dir) h
  refine { hfollows with top := htop, lastDir := hlastDir, nodeAlone := ?_, parentAlone := ?_, below := ?_ }
  · intro hred
    refine ⟨_, _, rfl, ?_⟩
    by_contra hother
    refine hboth ?_
    cases dir with
    | false => exact ⟨hred, by simpa using hother⟩
    | true => exact ⟨by simpa using hother, hred⟩
  · rintro f rest ⟨⟩ hf
    exact hlast hf
  · exact fun _ => by simp

/-- What a turn does at a node: the tree is kept, and the search goes on below. -/
theorem Phase.turn (hphase : Phase key m.items k hd path q s n) (hplace : Place key k hd l m path q)
    (hne : q ≠ .nil) :
    ∃ i nodes₁ nodes path' red d sub, insertHere m data s = some (i, { m with nodes := nodes₁ }) ∧
      repairRed nodes₁ i s = some nodes ∧
      Place key k hd l { m with nodes } path' (.node i red d sub) ∧
      ∀ dir a, m.items d = some a → (if dir then k < key a else key a < k) →
        ∃ n' < n, Phase key m.items k hd (⟨i, red, d, dir, sub !dir⟩ :: path') (sub dir)
          (s.advance i (sub dir).ptr dir) n' := by
  cases hphase with
  | ready hready =>
    cases q with
    | nil => exact absurd rfl hne
    | node i red d sub =>
      obtain ⟨n, hfits⟩ := hplace.fits
      by_cases hboth : BothRed sub
      · -- the node is made red
        obtain ⟨hblack, n', hn, hsub⟩ := hfits.below
        have hred : red = false := by
          by_contra hred
          exact absurd hboth.1 (by simp [hblack (by simpa using hred) false])
        subst hred
        subst hn
        have hnodup := (List.nodup_append'.mp (List.nodup_cons.mp hplace.rep.nodup).2).2.1
        obtain ⟨nodes₁, hhere, hholds, hout⟩ :
            ∃ nodes, insertHere m data s = some (i, { m with nodes }) ∧ _ :=
          insertHere_flip hplace.rep.below hnodup hready.node hboth
        have hids : (flipped i d sub).ids = (Shape.node i false d sub).ids := by
          simp [flipped, ids]
        have hinorder : (flipped i d sub).inorder = (Shape.node i false d sub).inorder := by
          simp [flipped, inorder]
        have hpath : ∀ j ∈ hd :: pathIds path, nodes₁ j = m.nodes j := by
          intro j hj
          have hdisjoint := hplace.rep.nodup
          rw [← List.cons_append] at hdisjoint
          exact hout j fun hmem => (List.nodup_append'.mp hdisjoint).2.2 hj hmem
        have hrep₁ : Rep nodes₁ hd path (flipped i d sub) :=
          Rep.replace hplace.rep hholds rfl hpath (by rw [hids])
        have hbelow : (flipped i d sub).Balanced (n' + 1) :=
          ⟨fun _ side => blacken_isRed _, n' + 1, rfl, fun side =>
            Shape.Balanced.blacken (hsub side) (by cases side; exacts [hboth.1, hboth.2])⟩
        obtain ⟨nodes, path', red', sub', hrepair, hrepaired, hout'⟩ :=
          repairRed_spec hready hrep₁ hfits.above hbelow hplace.searching
        refine ⟨i, nodes₁, nodes, path', red', d, sub', hhere, hrepair, ⟨hrepaired.rep,
          hrepaired.fits, ?_, hrepaired.searching, ?_⟩, fun dir a _ _ => ?_⟩
        · refine hrepaired.order.trans (Eq.trans ?_ hplace.order)
          rw [inorder_plug, inorder_plug]
          exact congrArg (fun l => before path ++ l ++ after path) hinorder
        · refine Rep.fresh_of_sameOutside hrep₁ ?_ hout'
          refine Rep.fresh_of_sameOutside hplace.rep hplace.fresh (hout.mono fun j hj => ?_)
          exact List.mem_cons_of_mem _ (List.mem_append_right _ hj)
        · have hquiet : ∀ side, Quiet (blacken (sub side)) := by
            intro side
            have hchild : (sub side).isRed = true := by
              cases side
              exacts [hboth.1, hboth.2]
            obtain ⟨j, e, x, y, hx, hxr, -⟩ := (hsub side).exists_red hchild false
            rw [hx]
            exact ⟨j, e, _, rfl, fun h => absurd h.1 (by simp [hxr, sides])⟩
          obtain ⟨turns, hle, hphase⟩ := hrepaired.phase hquiet dir
          refine ⟨turns, ?_, hphase⟩
          simp only [Shape.size, blacken_size] at hle ⊢
          omega
      · refine ⟨i, m.nodes, m.nodes, path, red, d, sub, insertHere_keep hplace.rep.below hready.node
          hboth, repairRed_keep (isRed_ptr hplace.rep.below)
          (isRed_parent hplace.rep hready.parent) ?_, hplace, fun dir a _ _ =>
          ⟨_, ?_, .ready (hready.toFollows.ready hready.nodeAlone hboth dir)⟩⟩
        · rintro ⟨hq, hp⟩
          rw [hfits.colour hq] at hp
          cases hp
        · have hlt : (sub dir).size < (Shape.node i true d sub).size := size_child dir
          simp only [Shape.size] at hlt ⊢
          omega
  | quiet hfollows hquiet =>
    obtain ⟨i, d, sub, rfl, hboth⟩ := hquiet
    refine ⟨i, m.nodes, m.nodes, path, false, d, sub, insertHere_keep hplace.rep.below hfollows.node
      hboth, repairRed_keep (isRed_ptr hplace.rep.below) (isRed_parent hplace.rep hfollows.parent)
      (by simp), hplace, fun dir a _ _ =>
      ⟨_, ?_, .ready (hfollows.ready (fun h => (by cases h)) hboth dir)⟩⟩
    have hlt : (sub dir).size < (Shape.node i true d sub).size := size_child dir
    simp only [Shape.size] at hlt ⊢
    omega
  | @turned f rest i d dir c o s b hnode hparent hlastDir hblack hquiet hitem honward =>
    have hboth : ¬ BothRed (sides dir c o) := by
      obtain ⟨_, _, _, rfl, -⟩ := hquiet
      rintro ⟨hfalse, htrue⟩
      cases dir
      · exact Bool.false_ne_true hfalse
      · exact Bool.false_ne_true htrue
    refine ⟨i, m.nodes, m.nodes, f :: rest, true, d, sides dir c o,
      insertHere_keep hplace.rep.below hnode hboth, repairRed_keep (isRed_ptr hplace.rep.below)
      (isRed_parent hplace.rep hparent) (by simp [parentRed, hblack]), hplace,
      fun dir' a ha honward' => ?_⟩
    cases ha.symm.trans hitem
    obtain rfl : dir' = dir := by
      cases dir <;> cases dir' <;> first | rfl | exact absurd honward' (lt_asymm honward)
    rw [sides_self]
    refine ⟨_, Nat.lt_succ_self _, .quiet ⟨rfl, rfl, hparent, ?_, fun hnone => ?_⟩ hquiet⟩
    · rintro g hg
      cases hg
      rfl
    · exact absurd (hparent.symm.trans hnone) (by simp)

/-- What insertion leaves below the head node: the order that was there, where
the key is in it already, or with the new item at its place. -/
structure Inserted (key : α → κ) (items : ℕ → Option α) (nextItem : ℕ) (item : α) (hd : ℕ)
    (l : List (ℕ × ℕ)) (m' : Memory α) (tree : Shape) : Prop where
  rep : Rep m'.nodes hd [] tree
  balanced : ∃ n, tree.Balanced n
  fresh : ∀ j, m'.nextNode ≤ j → m'.nodes j = none
  effect : (tree.inorder = l ∧ m'.items = items ∧ m'.nextItem = nextItem ∧
      ∃ x ∈ l, ∃ a, items x.2 = some a ∧ key a = key item) ∨
    (∃ l₁ l₂ i, l = l₁ ++ l₂ ∧ tree.inorder = l₁ ++ (i, nextItem) :: l₂ ∧
      m'.items = Function.update items nextItem (some item) ∧ m'.nextItem = nextItem + 1 ∧
      (∀ x ∈ l₁, ∃ a, items x.2 = some a ∧ key item < key a) ∧
      ∀ x ∈ l₂, ∃ a, items x.2 = some a ∧ key a < key item)

theorem Place.inserted (h : Place key k hd l m path (.node i red d sub)) {a : α}
    (ha : m.items d = some a) (hkey : key a = key item) :
    Inserted key m.items m.nextItem item hd l m (plug path (.node i red d sub)) := by
  refine ⟨rep_plug.mp h.rep, exists_fits_plug_iff.mp h.fits, h.fresh,
    Or.inl ⟨h.order, rfl, rfl, (i, d), ?_, a, ha, hkey⟩⟩
  rw [← h.order, inorder_plug]
  simp [inorder]

theorem insertLoop_turn (hhere : insertHere m data s = some (i, m₁))
    (hrepair : repairRed m₁.nodes i s = some nodes)
    (hplace : Place key k hd l { m₁ with nodes } path (.node i red d sub))
    (hsorted : Sorted key m₁.items l) (hitem : m₁.items data = some item) :
    ∃ a, m₁.items d = some a ∧
      ((key item = key a ∧
          insertLoop (keyValCmp key) data (turns + 1) m s = some { m₁ with nodes }) ∨
        ∃ dir, (if dir then key item < key a else key a < key item) ∧
          insertLoop (keyValCmp key) data (turns + 1) m s =
            insertLoop (keyValCmp key) data turns { m₁ with nodes }
              (s.advance i (sub dir).ptr dir)) := by
  obtain ⟨a, ha⟩ := hsorted.present (i, d) (by
    rw [← hplace.order, inorder_plug]
    simp [inorder])
  have horder : compareAt { m₁ with nodes } (keyValCmp key) (some i) data =
      some (keyValCmp key a item) := compareAt_node hplace.rep.below ha hitem
  refine ⟨a, ha, ?_⟩
  rcases lt_trichotomy (key item) (key a) with hlt | heq | hgt
  · refine Or.inr ⟨true, hlt, ?_⟩
    have hneg := keyValCmp_neg_iff.mpr hlt
    rw [insertLoop_go hhere hrepair horder hneg.ne (getLink_node hplace.rep.below _),
      decide_eq_true hneg]
  · refine Or.inl ⟨heq, insertLoop_stop hhere hrepair ?_⟩
    rw [horder, keyValCmp_eq_zero_iff.mpr heq]
  · refine Or.inr ⟨false, hgt, ?_⟩
    have hneg := mt keyValCmp_neg_iff.mp (lt_asymm hgt)
    rw [insertLoop_go hhere hrepair horder (mt keyValCmp_eq_zero_iff.mp hgt.ne')
      (getLink_node hplace.rep.below _), decide_eq_false hneg]

theorem insertHere_nil (hready : Ready hd path .nil s) (hplace : Place key k hd l m path .nil)
    (hitem : m.items data = some item) :
    ∃ nodes, insertHere m data s = some (m.nextNode, { (newItem m item).2 with
        nodes, nextNode := m.nextNode + 1 }) ∧
      Rep nodes hd path (.node m.nextNode true m.nextItem fun _ => .nil) ∧
      ∀ j, m.nextNode + 1 ≤ j → nodes j = none := by
  have hnew : ∀ j ∈ hd :: (pathIds path ++ Shape.nil.ids), j ≠ m.nextNode := by
    rintro j hj rfl
    obtain ⟨n, hn⟩ := Rep.mem hplace.rep _ hj
    cases hn.symm.trans (hplace.fresh _ le_rfl)
  have habove : some (above hd path) = s.p ∧ side path = s.dir := by
    cases path with
    | nil => exact absurd rfl (hready.below rfl)
    | cons f rest => exact ⟨hready.parent.symm, (hready.dir f rfl).symm⟩
  have hnode : (Shape.node m.nextNode true m.nextItem fun _ => .nil).Holds
      (Function.update m.nodes m.nextNode (some ⟨true, some m.nextItem, fun _ => none⟩)) :=
    ⟨Function.update_self .., trivial, trivial⟩
  obtain ⟨nodes, hset, hrep, hout⟩ := Rep.splice hplace.rep hnode
    (fun j hj => Function.update_of_ne (hnew j (by simp_all [ids])) _ _) (by
      have hnodup := hplace.rep.nodup
      simp only [ids, List.append_nil] at hnodup hnew ⊢
      rw [← List.cons_append]
      exact List.Nodup.append hnodup (List.nodup_singleton _) fun j hj hj' =>
        hnew j hj (List.mem_singleton.mp hj'))
  refine ⟨nodes, ?_, hrep, fun j hj => ?_⟩
  · unfold insertHere
    rw [hready.node]
    simp only [habove.1, habove.2, ptr_node] at hset
    simp [newNode, dup, hitem, newItem, mallocNode, hset]
  · rw [hout j]
    · rw [Function.update_of_ne (by omega)]
      exact hplace.fresh j (by omega)
    · intro hmem
      have hlt : above hd path < m.nextNode := by
        by_contra hge
        obtain ⟨n, hn⟩ := Rep.mem hplace.rep _ (List.mem_append_left _ above_mem)
        cases hn.symm.trans (hplace.fresh _ (not_lt.mp hge))
      rw [List.mem_singleton] at hmem
      omega

theorem insertLoop_nil (hready : Ready hd path .nil s)
    (hplace : Place key (key item) hd l m path .nil) (hitem : m.items data = some item) :
    ∃ m' tree, insertLoop (keyValCmp key) data (turns + 1) m s = some m' ∧
      Inserted key m.items m.nextItem item hd l m' tree := by
  obtain ⟨nodes₁, hhere, hrep₁, hfresh₁⟩ := insertHere_nil hready hplace hitem
  obtain ⟨n, hfits⟩ := hplace.fits
  obtain rfl : n = 0 := hfits.below
  obtain ⟨nodes, path', red, sub, hrepair, hrepaired, hout⟩ := repairRed_spec hready hrep₁
    hfits.above ⟨fun _ _ => rfl, 0, rfl, fun _ => rfl⟩ hplace.searching
  refine ⟨_, plug path' (.node m.nextNode red m.nextItem sub),
    insertLoop_stop hhere hrepair ?_, rep_plug.mp hrepaired.rep,
    exists_fits_plug_iff.mp hrepaired.fits, Rep.fresh_of_sameOutside hrep₁ hfresh₁ hout, Or.inr
    ⟨before path, after path, m.nextNode, ?_, ?_, rfl, rfl, hplace.searching.before,
      hplace.searching.after⟩⟩
  · have hsame : Function.update m.items m.nextItem (some item) data = some item := by
      rw [Function.update_apply]
      split
      · rfl
      · exact hitem
    rw [compareAt_node hrepaired.rep.below (Function.update_self ..) hsame,
      keyValCmp_eq_zero_iff.mpr rfl]
  · rw [← hplace.order, inorder_plug]
    simp [inorder]
  · rw [hrepaired.order, inorder_plug]
    simp [inorder]

theorem insertLoop_spec (hphase : Phase key m.items (key item) hd path q s n)
    (hplace : Place key (key item) hd l m path q) (hsorted : Sorted key m.items l)
    (hitem : m.items data = some item) (hturns : n ≤ turns) :
    ∃ m' tree, insertLoop (keyValCmp key) data turns m s = some m' ∧
      Inserted key m.items m.nextItem item hd l m' tree := by
  induction turns generalizing m path q s n with
  | zero => cases hphase <;> omega
  | succ turns ih =>
    by_cases hne : q = .nil
    · subst hne
      cases hphase with
      | ready hready => exact insertLoop_nil hready hplace hitem
      | quiet _ hquiet =>
        obtain ⟨_, _, _, heq, -⟩ := hquiet
        cases heq
    · obtain ⟨i, nodes₁, nodes, path', red, d, sub, hhere, hrepair, hplace', hnext⟩ :=
        hphase.turn hplace hne
      obtain ⟨a, ha, hturn⟩ := insertLoop_turn hhere hrepair
        hplace' hsorted hitem
      rcases hturn with ⟨hkey, hstop⟩ | ⟨dir, honward, hgo⟩
      · exact ⟨_, _, hstop, hplace'.inserted ha hkey.symm⟩
      · obtain ⟨n', hn', hphase'⟩ := hnext dir a ha honward
        rw [hgo]
        exact ih hphase' (hplace'.step hsorted ha honward) hsorted hitem (by omega)

end Loop

end PersClient.Rbtree
