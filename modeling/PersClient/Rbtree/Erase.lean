import PersClient.Rbtree.Insert

/-! # Removal

On the way down the node looked at is made red, or has a red child ahead, so the
node at the end is a red leaf or the root. The node found keeps its place and
gets the item of the one at the end, which is the last one before it in order.
-/

namespace PersClient.Rbtree

open LinkedTree Shape

section Standing

variable {h : Nodes} {next hd i d r v u dr dv du : ℕ} {red dir cr cv cu : Bool}
  {sub : Bool → Shape} {path : List Frame} {s a b c x : Shape} {f : Frame}

structure Standing (next : ℕ) (h : Nodes) (hd : ℕ) (path : List Frame) (s : Shape) : Prop
    extends Rep h hd path s where
  fresh : ∀ j, next ≤ j → h j = none

theorem standing_cons_iff : Standing next h hd (f :: path) s ↔ Standing next h hd path (f.plug s) := by
  constructor
  · rintro ⟨hrep, hfresh⟩
    exact ⟨rep_cons_iff.mp hrep, hfresh⟩
  · rintro ⟨hrep, hfresh⟩
    exact ⟨rep_cons_iff.mpr hrep, hfresh⟩

theorem standing_child_iff :
    Standing next h hd path (.node i red d (sides dir a b)) ↔
      Standing next h hd (⟨i, red, d, dir, b⟩ :: path) a :=
  (standing_cons_iff (f := ⟨i, red, d, dir, b⟩)).symm

theorem Standing.nodup_below (hs : Standing next h hd path s) : s.ids.Nodup :=
  (List.nodup_append'.mp (List.nodup_cons.mp hs.nodup).2).2.1

theorem Standing.not_mem_below (hs : Standing next h hd path s) :
    ∀ j ∈ hd :: pathIds path, j ∉ s.ids := by
  have hnodup := hs.nodup
  rw [← List.cons_append] at hnodup
  exact fun j hj hmem => (List.nodup_append'.mp hnodup).2.2 hj hmem

theorem Standing.colour (hs : Standing next h hd path (.node i red d sub)) (red' : Bool) :
    ∃ h', setRed h (some i) red' = some h' ∧ Standing next h' hd path (.node i red' d sub) := by
  have hnode := hs.below
  have hnodup := hs.nodup_below
  rw [← sides_eta true sub] at hnode hnodup
  obtain ⟨h', hset, hholds, hout⟩ := setRed_node hnodup hnode red'
  rw [sides_eta] at hholds
  have hi : i ∈ (Shape.node i red d sub).ids := List.mem_cons_self
  refine ⟨h', hset, Rep.replace hs.toRep hholds rfl (fun j hj => hout j ?_) (.refl _),
    Rep.fresh_of_sameOutside hs.toRep hs.fresh (hout.mono ?_)⟩
  · rintro hmem
    rw [List.mem_singleton] at hmem
    subst hmem
    exact hs.not_mem_below _ hj hi
  · simp [hi]

theorem Standing.link {h₁ : Nodes} {s' : Shape} (hs : Standing next h hd path s)
    (hs' : s'.Holds h₁) (hout : SameOutside h h₁ s.ids) (hperm : s'.ids.Perm s.ids) :
    ∃ h', setLink h₁ (some (above hd path)) (side path) s'.ptr = some h' ∧
      Standing next h' hd path s' := by
  obtain ⟨h', hset, hrep, hout'⟩ := Rep.splice hs.toRep hs'
    (fun j hj => hout j (hs.not_mem_below j hj))
    (((hperm.append_left _).cons hd).nodup_iff.mpr hs.nodup)
  refine ⟨h', hset, hrep, Rep.fresh_of_sameOutside hs.toRep hs.fresh fun j hj => ?_⟩
  simp only [List.mem_cons, List.mem_append, not_or] at hj
  rw [hout' j, hout j hj.2.2]
  intro hmem
  rw [List.mem_singleton] at hmem
  subst hmem
  rcases List.mem_cons.mp (above_mem : above hd path ∈ hd :: pathIds path) with heq | hmem
  · exact hj.1 heq
  · exact hj.2.1 hmem

theorem Standing.single
    (hs : Standing next h hd path (.node r cr dr (sides dir a (.node v cv dv (sides dir b c))))) :
    ∃ h₁ h', jswSingle h (some r) dir = some (some v, h₁) ∧
      setLink h₁ (some (above hd path)) (side path) (some v) = some h' ∧
      Standing next h' hd path (.node v false dv (sides dir (.node r true dr (sides dir a b)) c)) := by
  obtain ⟨h₁, hsingle, hholds, hout⟩ := jswSingle_node hs.nodup_below hs.below
  obtain ⟨h', hset, hs'⟩ := hs.link hholds (hout.mono (by simp [mem_ids_sides])) ids_single_perm
  exact ⟨h₁, h', hsingle, hset, hs'⟩

theorem Standing.double (hs : Standing next h hd path (.node r cr dr
      (sides dir a (.node v cv dv (sides dir (.node u cu du (sides dir b c)) x))))) :
    ∃ h₁ h', jswDouble h (some r) dir = some (some u, h₁) ∧
      setLink h₁ (some (above hd path)) (side path) (some u) = some h' ∧
      Standing next h' hd path (.node u false du (sides dir (.node r true dr (sides dir a b))
        (.node v true dv (sides dir c x)))) := by
  obtain ⟨h₁, hdouble, hholds, hout⟩ := jswDouble_node hs.nodup_below hs.below
  obtain ⟨h', hset, hs'⟩ := hs.link hholds (hout.mono (by simp [mem_ids_sides])) ids_double_perm
  exact ⟨h₁, h', hdouble, hset, hs'⟩

theorem standing_side_iff (dir : Bool) :
    Standing next h hd path (.node i red d sub) ↔
      Standing next h hd (⟨i, red, d, dir, sub !dir⟩ :: path) (sub dir) := by
  rw [← standing_child_iff, sides_eta]

theorem Standing.colour_child (hs : Standing next h hd path (.node i red d sub))
    (hchild : sub dir = .node v cv dv (sides dir a b)) (cv' : Bool) :
    ∃ h', setRed h (sub dir).ptr cv' = some h' ∧
      Standing next h' hd path
        (.node i red d (Function.update sub dir (.node v cv' dv (sides dir a b)))) := by
  have hdown := (standing_side_iff dir).mp hs
  rw [hchild] at hdown
  obtain ⟨h', hset, hs'⟩ := hdown.colour cv'
  refine ⟨h', by rw [hchild]; exact hset, ?_⟩
  have hup := standing_child_iff.mpr hs'
  have hsub : Function.update sub dir (.node v cv' dv (sides dir a b)) =
      sides dir (.node v cv' dv (sides dir a b)) (sub !dir) := by
    rw [← sides_eta dir sub, update_sides_self, sides_not]
  rwa [hsub]

theorem Standing.blacken_child (hs : Standing next h hd path (.node i red d sub))
    (hne : sub dir ≠ .nil) :
    ∃ h', setRed h (sub dir).ptr false = some h' ∧
      Standing next h' hd path (.node i red d (Function.update sub dir (blacken (sub dir)))) := by
  obtain ⟨v, cv, dv, a, b, hchild⟩ := Shape.exists_sides dir hne
  obtain ⟨h', hset, hs'⟩ := hs.colour_child hchild false
  refine ⟨h', hset, ?_⟩
  rwa [hchild]

end Standing

section Push

variable {h : Nodes} {next hd i d r v u dr dv du : ℕ} {red dir cr cv cu : Bool}
  {sub : Bool → Shape} {path rest : List Frame} {s a b c x y : Shape} {f : Frame}
  {g : Option ℕ} {n : ℕ}

theorem Standing.recolour
    (hs : Standing next h hd rest (.node v cv dv
      (sides dir (.node r cr dr (sides dir (.node i red d sub) b)) y))) (hy : y ≠ .nil) :
    ∃ h', (do
        let h ← setRed h (some v) true
        let h ← setRed h (some i) true
        let h ← setRed h (← getLink h (some v) false) false
        setRed h (← getLink h (some v) true) false) = some h' ∧
      Standing next h' hd rest (.node v true dv
        (sides dir (.node r false dr (sides dir (.node i true d sub) b)) (blacken y))) := by
  obtain ⟨h₁, hset₁, hs₁⟩ := hs.colour true
  obtain ⟨h₂, hset₂, hs₂⟩ :=
    (standing_child_iff.mp (standing_child_iff.mp hs₁)).colour true
  have hs₂ := standing_child_iff.mpr (standing_child_iff.mpr hs₂)
  have hne : ∀ side, sides dir (.node r cr dr (sides dir (.node i true d sub) b)) y side ≠ .nil := by
    intro side
    cases side <;> cases dir <;> first | exact hy | exact fun heq => (by cases heq)
  obtain ⟨h₃, hset₃, hs₃⟩ := hs₂.blacken_child (hne false)
  have hne₃ : Function.update (sides dir (.node r cr dr (sides dir (.node i true d sub) b)) y) false
      (blacken (sides dir (.node r cr dr (sides dir (.node i true d sub) b)) y false)) true ≠ .nil := by
    rw [Function.update_of_ne (by simp)]
    exact hne true
  obtain ⟨h₄, hset₄, hs₄⟩ := hs₃.blacken_child hne₃
  refine ⟨h₄, ?_, ?_⟩
  · rw [Function.update_of_ne (by simp)] at hset₄
    simp only [hset₁, hset₂, getLink_node hs₂.below, hset₃, getLink_node hs₃.below,
      Option.bind_eq_bind, Option.bind_some]
    rw [Function.update_of_ne (by simp)]
    exact hset₄
  · convert hs₄ using 2
    funext side
    cases side <;> cases dir <;> rfl

/-- The node above the hole is red, or the one in it; or the first one is the
root, and then none of the two is next to a red one. -/
def Pushed : List Frame → Shape → Prop
  | [], _ => True
  | f :: rest, s => f.red = true ∨ s.isRed = true ∨ (rest = [] ∧ f.other.isRed = false)

/-- One step down in a tree that keeps its order, and the parent of the node
that was looked at. -/
structure Descended (next hd i d : ℕ) (path : List Frame) (red dir : Bool) (sub : Bool → Shape)
    (p : Option ℕ) (h : Nodes) (path' : List Frame) : Prop where
  standing : Standing next h hd path' (sub dir)
  fits : ∃ n, Fits path' (sub dir) n
  pushed : Pushed path' (sub dir)
  before_eq : before path' = before (⟨i, red, d, dir, sub !dir⟩ :: path)
  after_eq : after path' = after (⟨i, red, d, dir, sub !dir⟩ :: path)
  node : ∃ f rest, path' = f :: rest ∧ f.i = i ∧ f.dir = dir ∧ p = some (above hd rest)

variable (hs : Standing next h hd path (.node i red d sub))
  (hfits : ∃ n, Fits path (.node i red d sub) n)
include hs hfits

theorem Standing.descended
    (hpushed : red = true ∨ (sub dir).isRed = true ∨ (path = [] ∧ (sub !dir).isRed = false)) :
    Descended next hd i d path red dir sub (some (above hd path)) h
      (⟨i, red, d, dir, sub !dir⟩ :: path) := by
  have hfits' : ∃ n, Fits (⟨i, red, d, dir, sub !dir⟩ :: path) (sub dir) n := by
    refine fits_cons_iff.mpr ?_
    rwa [Frame.plug, sides_eta]
  exact ⟨(standing_side_iff dir).mp hs, hfits', hpushed, rfl, rfl, _, _, rfl, rfl, rfl, rfl⟩

theorem pushDown_keep (hred : red = true ∨ (sub dir).isRed = true) :
    pushDown h g (some (above hd path)) (some i) dir (side path) = some (some (above hd path), h) ∧
      Descended next hd i d path red dir sub (some (above hd path)) h
        (⟨i, red, d, dir, sub !dir⟩ :: path) := by
  have hq : isRed h (some i) = some red := isRed_ptr hs.below
  have hchild := isRed_ptr ((standing_side_iff dir).mp hs).below
  refine ⟨?_, hs.descended hfits (hred.imp_right Or.inl)⟩
  unfold pushDown
  simp only [hq, getLink_node hs.below, hchild, Option.bind_eq_bind, Option.bind_some]
  rw [if_neg]
  rintro h
  rcases hred with hred | hred <;> simp [hred] at h

end Push

section PushBlack

variable {h : Nodes} {next hd i d : ℕ} {dir : Bool} {sub : Bool → Shape} {path rest : List Frame}
  {g : Option ℕ}
  (hs : Standing next h hd path (.node i false d sub))
  (hfits : ∃ n, Fits path (.node i false d sub) n) (hahead : (sub dir).isRed = false)
include hs hfits hahead

theorem pushDown_single (hother : (sub !dir).isRed = true) :
    ∃ p h' path', pushDown h g (some (above hd path)) (some i) dir (side path) = some (p, h') ∧
      Descended next hd i d path false dir sub p h' path' := by
  have hq : isRed h (some i) = some false := isRed_ptr hs.below
  have hchild : isRed h (sub dir).ptr = some false :=
    hahead ▸ isRed_ptr ((standing_side_iff dir).mp hs).below
  have hsibling := isRed_ptr ((standing_side_iff (!dir)).mp hs).below
  obtain ⟨n, hpath, ⟨-, m, rfl, hsub⟩, -⟩ := hfits
  obtain ⟨v, dv, x, y, hv, hx, hy, hxm, hym⟩ := (hsub !dir).exists_red hother dir
  have hshape : sub = sides dir (sub dir) (.node v true dv (sides dir x y)) := by
    rw [← hv, sides_eta]
  have hrotate : Standing next h hd path
      (.node i false d (sides dir (sub dir) (.node v true dv (sides dir x y)))) := by
    rwa [← hshape]
  obtain ⟨h₁, h', hsingle, hset, hs'⟩ := hrotate.single
  refine ⟨some v, h', ⟨i, true, d, dir, x⟩ :: ⟨v, false, dv, dir, y⟩ :: path, ?_,
    standing_child_iff.mp (standing_child_iff.mp hs'), ⟨m, ⟨hxm, fun _ => ⟨hx, rfl⟩, hym,
    fun h => (by cases h), hpath⟩, hsub dir, fun hred => ?_⟩, Or.inl rfl, ?_, ?_, _, _, rfl, rfl, rfl,
    rfl⟩
  · rw [hother] at hsibling
    unfold pushDown
    simp [hq, getLink_node hs.below, hchild, hsibling, hsingle, hset]
  · rw [hahead] at hred
    cases hred
  · rw [hshape]
    cases dir <;> simp [before, inorder_sides, sides]
  · rw [hshape]
    cases dir <;> simp [after, inorder_sides, sides]

theorem pushDown_root (hpath : path = []) (hother : (sub !dir).isRed = false) :
    ∃ p h' path', pushDown h g (some (above hd path)) (some i) dir (side path) = some (p, h') ∧
      Descended next hd i d path false dir sub p h' path' := by
  have hq : isRed h (some i) = some false := isRed_ptr hs.below
  have hchild : isRed h (sub dir).ptr = some false :=
    hahead ▸ isRed_ptr ((standing_side_iff dir).mp hs).below
  have hsibling : isRed h (sub !dir).ptr = some false :=
    hother ▸ isRed_ptr ((standing_side_iff (!dir)).mp hs).below
  refine ⟨_, h, _, ?_, hs.descended hfits (Or.inr (Or.inr ⟨hpath, hother⟩))⟩
  subst hpath
  have hlink : getLink h (some hd) false = some none := by
    simp [getLink, show h hd = _ from hs.above, sides]
  unfold pushDown
  simp [hq, getLink_node hs.below, hchild, hsibling, above, side, hlink]

end PushBlack

section Sibling

variable {h : Nodes} {next hd i d m v dv : ℕ} {dir : Bool} {sub : Bool → Shape} {rest : List Frame}
  {f : Frame} {a b : Shape} {g : Option ℕ}

/-- A black node below a red one, or below the root, has a sibling with children
of its own height. -/
theorem exists_sibling (hfits : ∃ n, Fits (f :: rest) (.node i false d sub) n)
    (hpushed : f.red = true ∨ (rest = [] ∧ f.other.isRed = false)) :
    ∃ m v dv a b, f.other = .node v false dv (sides f.dir a b) ∧ a.Balanced m ∧ b.Balanced m ∧
      (∀ side, (sub side).Balanced m) ∧ PathBalanced rest (m + 1) ∧ parentRed rest = false := by
  obtain ⟨n, ⟨hother, hred, hrest⟩, ⟨-, m, rfl, hsub⟩, -⟩ := hfits
  have hblack : f.other.isRed = false := by
    rcases hpushed with hf | ⟨-, hblack⟩
    · exact (hred hf).1
    · exact hblack
  obtain ⟨v, cv, dv, a, b, hv⟩ := Shape.exists_sides f.dir hother.ne_nil
  rw [hv] at hother hblack
  obtain rfl : cv = false := hblack
  obtain ⟨m', hm, ha, hb⟩ := balanced_black.mp hother
  obtain rfl : m = m' := Nat.succ.inj hm
  refine ⟨m, v, dv, a, b, hv, ha, hb, hsub, ?_, ?_⟩
  · rcases hpushed with hf | ⟨rfl, -⟩
    · rwa [hf] at hrest
    · trivial
  · rcases hpushed with hf | ⟨rfl, -⟩
    · exact (hred hf).2
    · rfl

variable (hs : Standing next h hd (f :: rest) (.node i false d sub))
  (hblack : ∀ side, (sub side).isRed = false)
  (hother : f.other = .node v false dv (sides f.dir a b))
  (ha : a.Balanced m) (hb : b.Balanced m) (hsub : ∀ side, (sub side).Balanced m)
  (hrest : PathBalanced rest (m + 1))

section Links

include hs

theorem Standing.sibling : Standing next h hd rest (.node f.i f.red f.data
    (sides (!f.dir) f.other (.node i false d sub))) := by
  rw [sides_not_left]
  exact standing_cons_iff.mp hs

theorem getLink_sibling : getLink h (some f.i) (!f.dir) = some f.other.ptr :=
  getLink_self (Standing.sibling hs).below

include hother

theorem getLink_nephew : getLink h (some v) f.dir = some a.ptr ∧
    getLink h (some v) (!f.dir) = some b.ptr := by
  have hholds := (standing_child_iff.mp (Standing.sibling hs)).below
  rw [hother] at hholds
  exact ⟨getLink_self hholds, getLink_not hholds⟩

theorem isRed_nephew : isRed h a.ptr = some a.isRed ∧ isRed h b.ptr = some b.isRed := by
  have hholds := (standing_child_iff.mp (Standing.sibling hs)).below
  rw [hother] at hholds
  obtain ⟨-, ha, hb⟩ := Holds.sides_iff.mp hholds
  exact ⟨isRed_ptr ha, isRed_ptr hb⟩

/-- After a rotation at the parent its colours are set: the node looked at is red
below a black parent, below the red node that came up. -/
theorem borrow_spec {t dt : ℕ} {ct : Bool} {x y : Shape} (hy : y ≠ .nil)
    (hcalls : ∃ h₁ h₂, setLink h₁ (some (above hd rest)) (side rest) (some t) = some h₂ ∧
      Standing next h₂ hd rest (.node t ct dt
        (sides f.dir (.node f.i true f.data (sides f.dir (.node i false d sub) x)) y)) ∧
      (if a.isRed = true then jswDouble h (some f.i) f.dir = some (some t, h₁)
        else b.isRed = true ∧ jswSingle h (some f.i) f.dir = some (some t, h₁))) :
    ∃ h', borrow h (some (above hd rest)) (some f.i) (some i) (some v) f.dir = some h' ∧
      Standing next h' hd rest (.node t true dt
        (sides f.dir (.node f.i false f.data (sides f.dir (.node i true d sub) x)) (blacken y))) := by
  obtain ⟨h₁, h₂, hset, hs₂, hturn⟩ := hcalls
  obtain ⟨h', hrecolour, hs'⟩ := hs₂.recolour hy
  obtain ⟨up, hup, hside⟩ := getLink_above_true (Standing.sibling hs).toRep (fun heq => (by cases heq))
  have hdir2 : decide (up = some f.i) = side rest := by
    have hdecide : decide (up = some f.i) = decide (side rest = true) := decide_eq_decide.mpr hside
    rwa [Bool.decide_eq_true] at hdecide
  have htop : getLink h₂ (some (above hd rest)) (side rest) = some (some t) :=
    getLink_above hs₂.toRep
  have hnephew := isRed_nephew hs hother
  have hlinks := getLink_nephew hs hother
  refine ⟨h', ?_, hs'⟩
  rw [← hrecolour]
  unfold borrow
  by_cases hared : a.isRed = true
  · rw [if_pos hared] at hturn
    simp [hup, hdir2, hlinks, hnephew, hared, hturn, hset, htop]
  · rw [if_neg hared] at hturn
    simp [hup, hdir2, hlinks, hnephew, hared, hturn, hset, htop]

end Links

include hs hblack in
theorem isRed_pushed :
    isRed h (some i) = some false ∧ ∀ side, isRed h (sub side).ptr = some false :=
  ⟨isRed_ptr hs.below, fun side =>
    hblack side ▸ isRed_ptr ((standing_side_iff side).mp hs).below⟩

include hs hblack hother ha hb hsub hrest

/-- The sibling has no red child: the parent becomes black and both of its children red. -/
theorem pushDown_flip (hared : a.isRed = false) (hbred : b.isRed = false) :
    ∃ p h' path', pushDown h g (some (above hd (f :: rest))) (some i) dir (side (f :: rest)) =
        some (p, h') ∧
      Descended next hd i d (f :: rest) false dir sub p h' path' := by
  obtain ⟨hq, hchild⟩ := isRed_pushed hs hblack
  have hnephew := isRed_nephew hs hother
  have hlinks := getLink_nephew hs hother
  have hsibling := getLink_sibling hs
  rw [hared, hbred] at hnephew
  rw [hother] at hsibling
  obtain ⟨h₁, hset₁, hs₁⟩ := (Standing.sibling hs).colour false
  have hs₁ := standing_child_iff.mp hs₁
  rw [hother] at hs₁
  obtain ⟨h₂, hset₂, hs₂⟩ := hs₁.colour true
  have hs₂ := standing_child_iff.mpr hs₂
  rw [sides_not_left] at hs₂
  obtain ⟨h₃, hset₃, hs₃⟩ := (standing_child_iff.mp hs₂).colour true
  refine ⟨_, h₃, ⟨i, true, d, dir, sub !dir⟩ ::
    ⟨f.i, false, f.data, f.dir, .node v true dv (sides f.dir a b)⟩ :: rest, ?_,
    (standing_side_iff dir).mp hs₃, ⟨m, ⟨hsub _, fun _ => ⟨hblack _, rfl⟩,
      balanced_red.mpr ⟨⟨hared, hbred⟩, ha, hb⟩, fun h => (by cases h), hrest⟩, hsub dir,
      fun hred => ?_⟩, Or.inl rfl, ?_, ?_, _, _, rfl, rfl, rfl, rfl⟩
  · unfold pushDown
    simp [hq, getLink_node hs.below, hchild, hsibling, hlinks, hnephew, hset₁, hset₂,
      hset₃]
  · rw [hblack dir] at hred
    cases hred
  · simp [before, hother, inorder_sides]
  · simp [after, hother, inorder_sides]

theorem pushDown_double (hparent : parentRed rest = false) (hared : a.isRed = true) :
    ∃ p h' path', pushDown h (some (above hd rest)) (some (above hd (f :: rest))) (some i) dir
        (side (f :: rest)) = some (p, h') ∧
      Descended next hd i d (f :: rest) false dir sub p h' path' := by
  obtain ⟨hq, hchild⟩ := isRed_pushed hs hblack
  have hnephew := isRed_nephew hs hother
  have hlinks := getLink_nephew hs hother
  have hsibling := getLink_sibling hs
  have hgrand := Standing.sibling hs
  rw [hother] at hsibling hgrand
  obtain ⟨u, du, x, y, rfl, hx, hy, hxm, hym⟩ := ha.exists_red hared f.dir
  rw [sides_not_left] at hgrand
  rw [ptr_node, isRed_node] at hnephew
  obtain ⟨h₁, h₂, hdouble, hset, hs₂⟩ := hgrand.double
  have hne : Shape.node v true dv (sides f.dir y b) ≠ .nil := fun heq => (by cases heq)
  obtain ⟨h', hborrow, hs'⟩ := borrow_spec hs hother hne
    ⟨h₁, h₂, hset, hs₂, by rw [if_pos hared]; exact hdouble⟩
  have hs' := standing_child_iff.mp (standing_child_iff.mp hs')
  refine ⟨_, h', ⟨i, true, d, dir, sub !dir⟩ :: ⟨f.i, false, f.data, f.dir, x⟩ ::
    ⟨u, true, du, f.dir, .node v false dv (sides f.dir y b)⟩ :: rest, ?_,
    (standing_side_iff dir).mp hs', ⟨m, ⟨hsub _, fun _ => ⟨hblack _, rfl⟩, hxm,
      fun h => (by cases h), balanced_black.mpr ⟨m, rfl, hym, hb⟩, fun _ => ⟨rfl, hparent⟩, hrest⟩,
      hsub dir, fun hred => ?_⟩, Or.inl rfl, ?_, ?_, _, _, rfl, rfl, rfl, rfl⟩
  · unfold pushDown
    simp [hq, getLink_node hs.below, hchild, hsibling, hlinks, hnephew, hborrow]
  · rw [hblack dir] at hred
    cases hred
  · cases hdir : f.dir <;> simp [before, hother, inorder_sides, hdir]
  · cases hdir : f.dir <;> simp [after, hother, inorder_sides, hdir]

theorem pushDown_outer (hparent : parentRed rest = false) (hared : a.isRed = false)
    (hbred : b.isRed = true) :
    ∃ p h' path', pushDown h (some (above hd rest)) (some (above hd (f :: rest))) (some i) dir
        (side (f :: rest)) = some (p, h') ∧
      Descended next hd i d (f :: rest) false dir sub p h' path' := by
  obtain ⟨hq, hchild⟩ := isRed_pushed hs hblack
  have hnephew := isRed_nephew hs hother
  have hlinks := getLink_nephew hs hother
  have hsibling := getLink_sibling hs
  have hgrand := Standing.sibling hs
  rw [hother] at hsibling hgrand
  rw [sides_not_left] at hgrand
  obtain ⟨h₁, h₂, hsingle, hset, hs₂⟩ := hgrand.single
  have hne : b ≠ .nil := by
    rintro rfl
    cases hbred
  obtain ⟨h', hborrow, hs'⟩ := borrow_spec hs hother hne ⟨h₁, h₂, hset, hs₂, by
    rw [if_neg (by simp [hared])]
    exact ⟨hbred, hsingle⟩⟩
  have hs' := standing_child_iff.mp (standing_child_iff.mp hs')
  refine ⟨_, h', ⟨i, true, d, dir, sub !dir⟩ :: ⟨f.i, false, f.data, f.dir, a⟩ ::
    ⟨v, true, dv, f.dir, blacken b⟩ :: rest, ?_,
    (standing_side_iff dir).mp hs', ⟨m, ⟨hsub _, fun _ => ⟨hblack _, rfl⟩, ha,
      fun h => (by cases h), Shape.Balanced.blacken hb hbred, fun _ => ⟨blacken_isRed b, hparent⟩,
      hrest⟩, hsub dir, fun hred => ?_⟩, Or.inl rfl, ?_, ?_, _, _, rfl, rfl, rfl, rfl⟩
  · unfold pushDown
    simp [hq, getLink_node hs.below, hchild, hsibling, hlinks, hnephew, hared, hbred,
      hborrow]
  · rw [hblack dir] at hred
    cases hred
  · cases hdir : f.dir <;> simp [before, hother, inorder_sides, hdir]
  · cases hdir : f.dir <;> simp [after, hother, inorder_sides, hdir]

end Sibling

theorem pushDown_spec {h : Nodes} {next hd i d : ℕ} {red dir : Bool} {sub : Bool → Shape}
    {path : List Frame} {g : Option ℕ} (hs : Standing next h hd path (.node i red d sub))
    (hfits : ∃ n, Fits path (.node i red d sub) n) (hpushed : Pushed path (.node i red d sub))
    (hg : ∀ f rest, path = f :: rest → g = some (above hd rest)) :
    ∃ p h' path', pushDown h g (some (above hd path)) (some i) dir (side path) = some (p, h') ∧
      Descended next hd i d path red dir sub p h' path' := by
  by_cases hkeep : red = true ∨ (sub dir).isRed = true
  · exact ⟨_, _, _, pushDown_keep hs hfits hkeep⟩
  · obtain ⟨hred, hahead⟩ := not_or.mp hkeep
    obtain rfl : red = false := by simpa using hred
    have hahead : (sub dir).isRed = false := by simpa using hahead
    cases hother : (sub !dir).isRed with
    | true => exact pushDown_single hs hfits hahead hother
    | false =>
      cases path with
      | nil => exact pushDown_root hs hfits hahead rfl hother
      | cons f rest =>
        obtain rfl := hg f rest rfl
        have hblack : ∀ side, (sub side).isRed = false := by
          intro side
          cases side <;> cases dir <;> assumption
        have hpushed : f.red = true ∨ (rest = [] ∧ f.other.isRed = false) :=
          hpushed.imp_right fun h => h.resolve_left Bool.false_ne_true
        obtain ⟨m, v, dv, a, b, hv, ha, hb, hsub, hrest, hparent⟩ := exists_sibling hfits hpushed
        cases hared : a.isRed with
        | true => exact pushDown_double hs hblack hv ha hb hsub hrest hparent hared
        | false =>
          cases hbred : b.isRed with
          | true => exact pushDown_outer hs hblack hv ha hb hsub hrest hparent hared hbred
          | false => exact pushDown_flip hs hblack hv ha hb hsub hrest hared hbred

section Loop

variable {α : Type} {κ : Type*} [LinearOrder κ] {key : α → κ} {k : κ} {items : ℕ → Option α}
  {m : Memory α} {hd i d data turns : ℕ} {red : Bool} {sub : Bool → Shape} {path : List Frame}
  {q : Shape} {l l₁ l₂ : List (ℕ × ℕ)} {item a : α} {s : Pushing} {order : ℤ}

/-- Where the search is, in the order of `l`: the node found is the first one after that place. -/
structure Pursuit (key : α → κ) (k : κ) (hd : ℕ) (l : List (ℕ × ℕ)) (m : Memory α)
    (path : List Frame) (q : Shape) (s : Pushing) : Prop where
  standing : Standing m.nextNode m.nodes hd path q
  fits : ∃ n, Fits path q n
  pushed : Pushed path q
  node : s.q = some (above hd path)
  dir : s.dir = side path
  parent : ∀ f rest, path = f :: rest → s.p = some (above hd rest)
  order : before path ++ q.inorder ++ after path = l
  larger : ∀ x ∈ before path, ∃ a, m.items x.2 = some a ∧ k < key a
  smaller : s.f = none → ∀ x ∈ after path, ∃ a, m.items x.2 = some a ∧ key a < k
  found : ∀ i, s.f = some i → ∃ d rest, after path = (i, d) :: rest ∧
    ∃ a, m.items d = some a ∧ key a = k

theorem Sorted.around (h : Sorted key items (l₁ ++ (i, d) :: l₂)) (ha : items d = some a) :
    (∀ x ∈ l₁, ∃ b, items x.2 = some b ∧ key a < key b) ∧
      ∀ x ∈ l₂, ∃ b, items x.2 = some b ∧ key b < key a := by
  obtain ⟨-, hright, hcross⟩ := h.of_append
  constructor
  · intro x hx
    obtain ⟨b, hb⟩ := h.present x (List.mem_append_left _ hx)
    exact ⟨b, hb, hcross x hx (i, d) List.mem_cons_self b a hb ha⟩
  · intro x hx
    obtain ⟨b, hb⟩ := hright.present x (List.mem_cons_of_mem _ hx)
    exact ⟨b, hb, (List.pairwise_cons.mp hright.falling).1 x hx a b ha hb⟩

theorem Pursuit.onward {dir : Bool} {f : Option ℕ}
    (h : Pursuit key k hd l m path (.node i red d sub) s) (hsorted : Sorted key m.items l)
    (ha : m.items d = some a)
    (hcase : (k = key a ∧ dir = false ∧ f = some i) ∨
      (f = s.f ∧ if dir then k < key a else key a < k)) :
    (∀ x ∈ before (⟨i, red, d, dir, sub !dir⟩ :: path), ∃ b, m.items x.2 = some b ∧ k < key b) ∧
      (f = none → ∀ x ∈ after (⟨i, red, d, dir, sub !dir⟩ :: path),
        ∃ b, m.items x.2 = some b ∧ key b < k) ∧
      ∀ j, f = some j → ∃ e rest, after (⟨i, red, d, dir, sub !dir⟩ :: path) = (j, e) :: rest ∧
        ∃ b, m.items e = some b ∧ key b = k := by
  have hl : l = (before path ++ (sub false).inorder) ++ (i, d) :: ((sub true).inorder ++ after path) := by
    rw [← h.order]
    simp [inorder]
  rw [hl] at hsorted
  obtain ⟨hgreater, hless⟩ := hsorted.around ha
  rcases hcase with ⟨hk, rfl, rfl⟩ | ⟨rfl, honward⟩
  · refine ⟨fun x hx => h.larger x (by simpa [before] using hx), fun hf => (by cases hf), ?_⟩
    rintro j ⟨⟩
    exact ⟨d, (sub true).inorder ++ after path, by simp [after], a, ha, hk.symm⟩
  · cases dir with
    | true =>
      refine ⟨fun x hx => ?_, fun hf x hx => h.smaller hf x (by simpa [after] using hx),
        fun j hj => ?_⟩
      · have hx : x ∈ before path ∨ x ∈ (sub false).inorder ∨ x = (i, d) := by
          simpa [before] using hx
        rcases hx with hx | hx | rfl
        · exact h.larger x hx
        · obtain ⟨b, hb, hlt⟩ := hgreater x (List.mem_append_right _ hx)
          exact ⟨b, hb, lt_trans honward hlt⟩
        · exact ⟨a, ha, honward⟩
      · simpa [after] using h.found j hj
    | false =>
      refine ⟨fun x hx => h.larger x (by simpa [before] using hx), fun hf x hx => ?_, fun j hj => ?_⟩
      · have hx : x = (i, d) ∨ x ∈ (sub true).inorder ++ after path := by
          simpa [after, or_assoc] using hx
        rcases hx with rfl | hx
        · exact ⟨a, ha, honward⟩
        · obtain ⟨b, hb, hlt⟩ := hless x hx
          exact ⟨b, hb, lt_trans hlt honward⟩
      · -- the node found comes after this one, so its key would be smaller than `k`
        obtain ⟨e, rest, hafter, b, hb, hkey⟩ := h.found j hj
        obtain ⟨c, hc, hlt⟩ := hless (j, e) (by simp [hafter])
        cases hb.symm.trans hc
        rw [hkey] at hlt
        exact absurd honward (lt_asymm hlt)

theorem eraseLoop_go {cmp : α → α → ℤ} {p : Option ℕ} {nodes : Nodes}
    (hlink : getLink m.nodes s.q s.dir = some (some i))
    (horder : compareAt m cmp (some i) data = some order)
    (hpush : pushDown m.nodes s.p s.q (some i) (order < 0) s.dir = some (p, nodes)) :
    eraseLoop cmp data (turns + 1) m s = eraseLoop cmp data turns { m with nodes }
      { q := some i, p, g := s.p, f := if order = 0 then some i else s.f, dir := order < 0 } := by
  simp [eraseLoop, hlink, horder, hpush]

theorem eraseLoop_spec (hpursuit : Pursuit key (key item) hd l m path q s)
    (hsorted : Sorted key m.items l) (hitem : m.items data = some item) (hturns : q.size < turns) :
    ∃ nodes path' s', eraseLoop (keyValCmp key) data turns m s = some (s', { m with nodes }) ∧
      Pursuit key (key item) hd l { m with nodes } path' .nil s' := by
  induction turns generalizing m path q s with
  | zero => omega
  | succ turns ih =>
    have hlink : getLink m.nodes s.q s.dir = some q.ptr := by
      rw [hpursuit.node, hpursuit.dir]
      exact getLink_above hpursuit.standing.toRep
    cases q with
    | nil => exact ⟨m.nodes, path, s, by simp [eraseLoop, hlink], hpursuit⟩
    | node i red d sub =>
      obtain ⟨a, ha⟩ := hsorted.present (i, d) (by
        rw [← hpursuit.order]
        simp [inorder])
      have horder : compareAt m (keyValCmp key) (some i) data = some (keyValCmp key a item) :=
        compareAt_node hpursuit.standing.below ha hitem
      obtain ⟨p, nodes, path', hpush, hdown⟩ := @pushDown_spec _ _ _ _ _ _
        (decide (keyValCmp key a item < 0)) _ _ _ hpursuit.standing hpursuit.fits hpursuit.pushed
        hpursuit.parent
      rw [← hpursuit.node, ← hpursuit.dir] at hpush
      rw [eraseLoop_go hlink horder hpush]
      have hcase : (key item = key a ∧ decide (keyValCmp key a item < 0) = false ∧
          (if keyValCmp key a item = 0 then some i else s.f) = some i) ∨
          ((if keyValCmp key a item = 0 then some i else s.f) = s.f ∧
            if decide (keyValCmp key a item < 0) = true then key item < key a
            else key a < key item) := by
        rcases lt_trichotomy (key item) (key a) with hlt | heq | hgt
        · have hneg := keyValCmp_neg_iff.mpr hlt
          exact Or.inr ⟨if_neg hneg.ne, by rwa [if_pos (decide_eq_true hneg)]⟩
        · have hzero := keyValCmp_eq_zero_iff.mpr heq
          exact Or.inl ⟨heq, by simp [hzero], if_pos hzero⟩
        · have hneg := mt keyValCmp_neg_iff.mp (lt_asymm hgt)
          exact Or.inr ⟨if_neg (mt keyValCmp_eq_zero_iff.mp hgt.ne'),
            by rwa [if_neg (by simpa using hneg)]⟩
      obtain ⟨hlarger, hsmaller, hfound⟩ := hpursuit.onward hsorted ha hcase
      obtain ⟨f, rest, rfl, hfi, hfdir, hp⟩ := hdown.node
      have hlt : (sub (decide (keyValCmp key a item < 0))).size < (Shape.node i true d sub).size :=
        size_child _
      simp only [Shape.size] at hlt hturns
      refine ih ⟨hdown.standing, hdown.fits, hdown.pushed, ?_, hfdir.symm, ?_, ?_, ?_, ?_, ?_⟩ hsorted
        hitem (by omega)
      · rw [above_cons, hfi]
      · rintro f' rest' ⟨⟩
        exact hp
      · rw [hdown.before_eq, hdown.after_eq, ← hpursuit.order]
        cases decide (keyValCmp key a item < 0) <;> simp [before, after, inorder]
      · rwa [hdown.before_eq]
      · rwa [hdown.after_eq]
      · rwa [hdown.after_eq]

end Loop

section Remove

variable {α : Type} {κ : Type*} [LinearOrder κ] {key : α → κ} {k : κ} {m : Memory α}
  {hd f d fd : ℕ} {path rest : List Frame} {q : Frame} {l r : List (ℕ × ℕ)} {a : α} {s : Pushing}

theorem Pursuit.last (h : Pursuit key k hd l m path .nil s) (hl : l ≠ []) :
    ∃ q rest, path = q :: rest ∧ q.other = .nil ∧ PathBalanced rest 0 := by
  cases path with
  | nil => exact absurd h.order.symm hl
  | cons q rest =>
    obtain ⟨n, ⟨hother, hred, hrest⟩, hnil, -⟩ := h.fits
    obtain rfl : n = 0 := hnil
    rcases h.pushed with hq | hq | ⟨rfl, hq⟩
    · rw [hq] at hrest
      exact ⟨q, rest, rfl, hother.eq_nil (hred hq).1, hrest⟩
    · cases hq
    · exact ⟨q, [], rfl, hother.eq_nil hq, trivial⟩

/-- What erasing leaves below the head node: the same labels in order, or all
but the one of the item with the key, which is released. -/
structure Removed (key : α → κ) (k : κ) (hd : ℕ) (l : List (ℕ × ℕ)) (m m' : Memory α)
    (tree : Shape) : Prop where
  standing : Standing m'.nextNode m'.nodes hd [] tree
  balanced : ∃ n, tree.Balanced n
  nextItem : m'.nextItem = m.nextItem
  effect : (tree.inorder = l ∧ m'.items = m.items ∧
      ∀ x ∈ l, ∃ a, m.items x.2 = some a ∧ key a ≠ k) ∨
    (∃ l₁ d l₂ a, l.map Prod.snd = l₁ ++ d :: l₂ ∧ tree.inorder.map Prod.snd = l₁ ++ l₂ ∧
      m.items d = some a ∧ key a = k ∧ m'.items = Function.update m.items d none)

theorem removeFound_none (h : Pursuit key k hd l m path .nil s) (hf : s.f = none) :
    removeFound m s = some m ∧ Removed key k hd l m m (plug path .nil) := by
  have horder : (plug path .nil).inorder = l := (inorder_plug path .nil).trans h.order
  refine ⟨by simp [removeFound, hf], ⟨rep_plug.mp h.standing.toRep, h.standing.fresh⟩,
    exists_fits_plug_iff.mp h.fits, rfl, Or.inl ⟨horder, rfl, fun x hx => ?_⟩⟩
  rw [← h.order] at hx
  simp only [inorder, List.append_nil, List.mem_append] at hx
  rcases hx with hx | hx
  · obtain ⟨a, ha, hlt⟩ := h.larger x hx
    exact ⟨a, ha, hlt.ne'⟩
  · obtain ⟨a, ha, hlt⟩ := h.smaller hf x hx
    exact ⟨a, ha, hlt.ne⟩

theorem Pursuit.labels (h : Pursuit key k hd l m (q :: rest) .nil s) (hq : q.other = .nil)
    (hafter : after (q :: rest) = (f, fd) :: r) :
    ∃ l₁ l₂, l.map Prod.snd = l₁ ++ fd :: l₂ ∧
      ((plug rest .nil).relabel f q.data).inorder.map Prod.snd = l₁ ++ l₂ := by
  have hnodup : ((plug (q :: rest) .nil).inorder.map Prod.fst).Nodup :=
    map_fst_inorder_perm.nodup_iff.mpr (List.nodup_cons.mp (rep_plug.mp h.standing.toRep).nodup).2
  have horder : l = before (q :: rest) ++ after (q :: rest) := by
    rw [← h.order]
    simp [inorder]
  rw [inorder_plug] at hnodup
  rw [inorder_relabel, inorder_plug]
  cases hdir : q.dir with
  | true =>
    have hbefore : before (q :: rest) = before rest ++ [(q.i, q.data)] := by
      simp [before, hdir, hq, inorder]
    have hrest : after rest = (f, fd) :: r := by
      rw [← hafter]
      simp [after, hdir]
    refine ⟨(before rest).map Prod.snd ++ [q.data], r.map Prod.snd, ?_, ?_⟩
    · simp [horder, hbefore, hafter]
    · rw [hbefore, hafter] at hnodup
      rw [hrest]
      simp only [inorder, List.append_nil] at hnodup ⊢
      rw [map_relabel_of_nodup]
      · simp
      · refine hnodup.sublist ?_
        simp
  | false =>
    have hbefore : before (q :: rest) = before rest := by simp [before, hdir]
    have hrest : after (q :: rest) = (q.i, q.data) :: after rest := by
      simp [after, hdir, hq, inorder]
    obtain ⟨⟨rfl, rfl⟩, rfl⟩ : (q.i = f ∧ q.data = fd) ∧ after rest = r := by
      rw [hrest] at hafter
      simpa using hafter
    refine ⟨(before rest).map Prod.snd, (after rest).map Prod.snd, ?_, ?_⟩
    · simp [horder, hbefore, hrest]
    · rw [hbefore, hrest] at hnodup
      simp only [inorder, List.append_nil] at hnodup ⊢
      rw [map_relabel_of_not_mem]
      · simp
      · rw [List.map_append, List.map_cons] at hnodup
        obtain ⟨-, hright, hdisjoint⟩ := List.nodup_append'.mp hnodup
        rw [List.map_append, List.mem_append]
        rintro (hmem | hmem)
        · exact hdisjoint hmem List.mem_cons_self
        · exact (List.nodup_cons.mp hright).1 hmem

theorem Standing.relabel {next i : ℕ} {h : Nodes} {leaf : Shape} {n : Node}
    (hs : Standing next h hd path leaf) (hn : h i = some n) (hi : i ≠ hd) :
    Standing next (Function.update h i (some { n with data := some d })) hd
      (path.map (Frame.relabel i d)) (leaf.relabel i d) := by
  refine ⟨hs.toRep.relabel hn hi, fun j hj => ?_⟩
  refine (Function.update_of_ne ?_ _ _).trans (hs.fresh j hj)
  rintro rfl
  cases hn.symm.trans (hs.fresh _ hj)

theorem Standing.cut {next i : ℕ} {h : Nodes} {leaf : Shape} (hs : Standing next h hd path leaf)
    (hleaf : leaf.ptr = some i) (hi : i ∉ hd :: pathIds path) :
    ∃ up h' n, getLink h (some (above hd path)) true = some up ∧
      decide (up = some i) = side path ∧
      setLink h (some (above hd path)) (side path) none = some h' ∧ h' i = some n ∧
      Standing next (Function.update h' i none) hd path .nil := by
  have hne : leaf ≠ .nil := by
    rintro rfl
    cases hleaf
  obtain ⟨up, hup, hside⟩ := getLink_above_true hs.toRep hne
  rw [hleaf] at hside
  have hnodup : (hd :: (pathIds path ++ Shape.nil.ids)).Nodup :=
    hs.nodup.sublist (by simp [ids])
  have hnil : Shape.nil.Holds h := trivial
  obtain ⟨h', hset, hrep, hout⟩ := Rep.splice hs.toRep hnil (fun _ _ => rfl) hnodup
  obtain ⟨n, hn⟩ : ∃ n, h i = some n := by
    refine Rep.mem hs.toRep i (List.mem_cons_of_mem _ (List.mem_append_right _ ?_))
    cases leaf with
    | nil => exact absurd rfl hne
    | node j red e sub =>
      cases hleaf
      exact List.mem_cons_self
  have hsame : h' i = h i := hout i fun hmem => hi (List.mem_singleton.mp hmem ▸ above_mem)
  refine ⟨up, h', n, hup, ?_, hset, hsame.trans hn, ?_, fun j hj => ?_⟩
  · have hdecide : decide (up = some i) = decide (side path = true) := decide_eq_decide.mpr hside
    rwa [Bool.decide_eq_true] at hdecide
  · refine Rep.replace hrep trivial rfl (fun j hj => ?_) (.refl _)
    exact Function.update_of_ne (by rintro rfl; exact hi hj) _ _
  · have hnone := hs.fresh j hj
    have hji : j ≠ i := by
      rintro rfl
      cases hn.symm.trans hnone
    have hjabove : j ∉ [above hd path] := by
      intro hmem
      obtain ⟨n, hn⟩ := Rep.mem hs.toRep _ (List.mem_append_left _ above_mem)
      rw [← List.mem_singleton.mp hmem] at hn
      cases hn.symm.trans hnone
    calc Function.update h' i none j = h' j := Function.update_of_ne hji _ _
      _ = h j := hout j hjabove
      _ = none := hnone

theorem removeFound_some (h : Pursuit key k hd l m path .nil s) (hf : s.f = some f) :
    ∃ m' tree, removeFound m s = some m' ∧ Removed key k hd l m m' tree := by
  obtain ⟨fd, r, hafter, a, ha, hkey⟩ := h.found f hf
  have hmem : (f, fd) ∈ (plug path .nil).inorder := by
    rw [inorder_plug, hafter]
    simp
  obtain ⟨q, rest, rfl, hq, hrest⟩ := h.last (fun hl => by
    rw [← h.order, hafter] at hl
    simp at hl)
  have hwhole := rep_plug.mp h.standing.toRep
  obtain ⟨nf, hnf, hlabel⟩ := hwhole.below.label hmem
  have hfhd : f ≠ hd := by
    rintro rfl
    have hids := map_fst_inorder_perm.mem_iff.mp (List.mem_map_of_mem hmem)
    exact (List.nodup_cons.mp hwhole.nodup).1 hids
  have hnq : m.nodes q.i = some ⟨q.red, some q.data, sides q.dir none none⟩ := by
    have hlast := h.standing.above.1
    rwa [hq] at hlast
  have hqi : q.i ∉ hd :: pathIds (rest.map (Frame.relabel f q.data)) := by
    have hcons := h.standing.nodup
    simp only [pathIds, hq, ids, List.nil_append, List.append_nil] at hcons
    rw [List.nodup_cons, List.mem_cons, not_or] at hcons
    rw [pathIds_map_relabel, List.mem_cons, not_or]
    exact ⟨fun heq => hcons.1.1 heq.symm, (List.nodup_cons.mp hcons.2).1⟩
  -- the label of the last node goes to the node found
  have hs₁ := (standing_cons_iff.mp h.standing).relabel (d := q.data) hnf hfhd
  have hlinks : ∀ side, getLink (Function.update m.nodes f (some { nf with data := some q.data }))
      (some q.i) side = some none := by
    intro side
    by_cases heq : q.i = f
    · cases hnf.symm.trans (heq ▸ hnq)
      cases side <;> simp [getLink, heq, sides]
    · cases side <;> simp [getLink, heq, hnq, sides]
  -- then that node is unlinked and released
  obtain ⟨up, h', n, hup, hdir, hset, hn, hs'⟩ := hs₁.cut rfl hqi
  rw [above_map_relabel] at hup hset
  rw [side_map_relabel] at hdir hset
  have hplug : plug (rest.map (Frame.relabel f q.data)) .nil = (plug rest .nil).relabel f q.data :=
    (plug_relabel (s := .nil)).symm
  refine ⟨{ m with nodes := Function.update h' q.i none, items := Function.update m.items fd none },
    (plug rest .nil).relabel f q.data, ?_, ⟨?_, hs'.fresh⟩, ?_, rfl, Or.inr ?_⟩
  · have hp := h.parent q rest rfl
    have hnode : s.q = some q.i := h.node
    simp [removeFound, hf, hnf, hlabel, rel, freeItem, ha, hnode, hnq, hp, hup, hdir, hlinks, hset,
      freeNode, hn]
  · rw [← hplug]
    exact rep_plug.mp hs'.toRep
  · have hfits : Fits rest .nil 0 := ⟨hrest, rfl, fun h => (by cases h)⟩
    exact (exists_fits_plug_iff.mp ⟨0, hfits⟩).imp fun _ => Shape.Balanced.relabel
  · obtain ⟨l₁, l₂, hl, hlabels⟩ := h.labels hq hafter
    exact ⟨l₁, fd, l₂, a, hl, hlabels, ha, hkey, rfl⟩

end Remove

end PersClient.Rbtree
