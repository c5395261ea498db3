import Mathlib.Data.Int.Notation
import Mathlib.Data.Nat.Log
import PersClient.Lib.LinkedTree

/-! # Red-black shapes

No red node has a red child, and all ways down pass equally many black nodes. A
path has the same property for what fills its hole, so a change inside the hole
only has to keep its height and the colour of its root.
-/

namespace PersClient.LinkedTree

def blackness (red : Bool) : ℕ := if red then 0 else 1

@[simp] theorem blackness_true : blackness true = 0 := rfl

@[simp] theorem blackness_false : blackness false = 1 := rfl

def Shape.Balanced : Shape → ℕ → Prop
  | nil, n => n = 0
  | node _ red _ sub, n => (red → ∀ side, (sub side).isRed = false) ∧
      ∃ m, n = m + blackness red ∧ ∀ side, (sub side).Balanced m

def parentRed : List Frame → Bool
  | [] => false
  | f :: _ => f.red

/-- A path that makes a red-black tree of each fitting shape of the given height. -/
def PathBalanced : List Frame → ℕ → Prop
  | [], _ => True
  | f :: path, n => f.other.Balanced n ∧
      (f.red → f.other.isRed = false ∧ parentRed path = false) ∧
      PathBalanced path (n + blackness f.red)

variable {s a b : Shape} {i data n : ℕ} {red dir : Bool} {path : List Frame} {f : Frame}

theorem balanced_sides : (Shape.node i red data (sides dir a b)).Balanced n ↔
    (red → a.isRed = false ∧ b.isRed = false) ∧
      ∃ m, n = m + blackness red ∧ a.Balanced m ∧ b.Balanced m := by
  have hunfold : (Shape.node i red data (sides dir a b)).Balanced n ↔
      (red → ∀ side, (sides dir a b side).isRed = false) ∧
        ∃ m, n = m + blackness red ∧ ∀ side, (sides dir a b side).Balanced m := Iff.rfl
  have hred : (∀ side, (sides dir a b side).isRed = false) ↔ a.isRed = false ∧ b.isRed = false :=
    forall_sides (p := fun s : Shape => s.isRed = false)
  have hsub : ∀ m, (∀ side, (sides dir a b side).Balanced m) ↔ a.Balanced m ∧ b.Balanced m :=
    fun m => forall_sides (p := fun s : Shape => s.Balanced m)
  simp only [hunfold, hred, hsub]

theorem balanced_black : (Shape.node i false data (sides dir a b)).Balanced n ↔
    ∃ m, n = m + 1 ∧ a.Balanced m ∧ b.Balanced m := by
  rw [balanced_sides]
  simp

theorem balanced_red : (Shape.node i true data (sides dir a b)).Balanced n ↔
    (a.isRed = false ∧ b.isRed = false) ∧ a.Balanced n ∧ b.Balanced n := by
  rw [balanced_sides]
  simp

@[simp] theorem balanced_nil : Shape.nil.Balanced n ↔ n = 0 := Iff.rfl

/-- A shape that is not red has no node below height one, and some from there on. -/
theorem Shape.Balanced.eq_nil (h : s.Balanced 0) (hred : s.isRed = false) : s = .nil := by
  cases s with
  | nil => rfl
  | node i red data sub =>
    obtain ⟨-, m, hm, -⟩ := h
    have hblack : red = false := hred
    subst hblack
    simp at hm

theorem Shape.Balanced.ne_nil (h : s.Balanced (n + 1)) : s ≠ .nil := by
  rintro rfl
  simp at h

theorem Shape.exists_sides (dir : Bool) (hs : s ≠ .nil) :
    ∃ i red data a b, s = .node i red data (sides dir a b) := by
  cases s with
  | nil => exact absurd rfl hs
  | node i red data sub => exact ⟨i, red, data, sub dir, sub (!dir), by rw [sides_eta]⟩

theorem Shape.Balanced.exists_red (h : s.Balanced n) (hred : s.isRed = true) (dir : Bool) :
    ∃ i data a b, s = .node i true data (sides dir a b) ∧ a.isRed = false ∧ b.isRed = false ∧
      a.Balanced n ∧ b.Balanced n := by
  have hne : s ≠ .nil := by
    rintro rfl
    cases hred
  obtain ⟨i, red, data, a, b, rfl⟩ := Shape.exists_sides dir hne
  obtain rfl : red = true := hred
  obtain ⟨⟨ha, hb⟩, hha, hhb⟩ := balanced_red.mp h
  exact ⟨i, data, a, b, rfl, ha, hb, hha, hhb⟩

/-- A shape that fits the hole of a path. -/
structure Fits (path : List Frame) (s : Shape) (n : ℕ) : Prop where
  above : PathBalanced path n
  below : s.Balanced n
  colour : s.isRed = true → parentRed path = false

theorem fits_cons_iff : (∃ n, Fits (f :: path) s n) ↔ ∃ n, Fits path (f.plug s) n := by
  constructor
  · rintro ⟨n, ⟨hother, hred, hpath⟩, hs, hcolour⟩
    refine ⟨n + blackness f.red, hpath, balanced_sides.mpr ⟨fun hf => ⟨?_, (hred hf).1⟩, n, rfl, hs,
      hother⟩, fun hf => (hred hf).2⟩
    by_contra hne
    have := hcolour (by simpa using hne)
    rw [parentRed, hf] at this
    cases this
  · rintro ⟨n, hpath, hs, hcolour⟩
    obtain ⟨hred, m, rfl, hs, hother⟩ := balanced_sides.mp hs
    refine ⟨m, ⟨hother, fun hf => ⟨(hred hf).2, hcolour hf⟩, hpath⟩, hs, fun hsr => ?_⟩
    by_contra hf
    rw [(hred (by simpa [parentRed] using hf)).1] at hsr
    cases hsr

theorem exists_fits_plug_iff : (∃ n, Fits path s n) ↔ ∃ n, (plug path s).Balanced n := by
  induction path generalizing s with
  | nil =>
    constructor
    · rintro ⟨n, h⟩
      exact ⟨n, h.below⟩
    · rintro ⟨n, h⟩
      exact ⟨n, trivial, h, fun _ => rfl⟩
  | cons f path ih => rw [fits_cons_iff, ih, plug_cons]

@[simp] theorem Shape.isRed_relabel {e : ℕ} : (s.relabel i e).isRed = s.isRed := by cases s <;> rfl

theorem Shape.Balanced.relabel {e : ℕ} (h : s.Balanced n) : (s.relabel i e).Balanced n := by
  induction s generalizing n with
  | nil => exact h
  | node j red data sub ih =>
    obtain ⟨hred, m, hm, hsub⟩ := h
    refine ⟨fun hr side => ?_, m, hm, fun side => ih side (hsub side)⟩
    rw [Shape.isRed_relabel]
    exact hred hr side

section Height

def Shape.height : Shape → ℕ
  | nil => 0
  | node _ _ _ sub => max (sub false).height (sub true).height + 1

theorem Shape.height_child (i : ℕ) (red : Bool) (data : ℕ) (sub : Bool → Shape) (side : Bool) :
    (sub side).height < (Shape.node i red data sub).height := by
  cases side
  · exact Nat.lt_succ_of_le (le_max_left _ _)
  · exact Nat.lt_succ_of_le (le_max_right _ _)

theorem Shape.height_le_size (s : Shape) : s.height ≤ s.size := by
  induction s with
  | nil => exact le_rfl
  | node i red data sub ih =>
    have hleft := ih false
    have hright := ih true
    simp only [Shape.height, Shape.size]
    omega

/-- A shape of black height `n` has at least the nodes of a full tree of that height. -/
theorem Shape.Balanced.two_pow_le (h : s.Balanced n) : 2 ^ n ≤ s.size + 1 := by
  induction s generalizing n with
  | nil =>
    obtain rfl : n = 0 := h
    exact le_rfl
  | node i red data sub ih =>
    obtain ⟨-, m, rfl, hsub⟩ := h
    have hleft := ih false (hsub false)
    have hright := ih true (hsub true)
    have hpow : 2 ^ (m + blackness red) ≤ 2 * 2 ^ m := by
      rw [← Nat.pow_succ']
      exact Nat.pow_le_pow_right Nat.two_pos (by cases red <;> simp [blackness])
    simp only [Shape.size]
    omega

theorem Shape.Balanced.height_le (h : s.Balanced n) : s.height ≤ 2 * n + s.isRed.toNat := by
  induction s generalizing n with
  | nil => exact Nat.zero_le _
  | node i red data sub ih =>
    obtain ⟨hred, m, rfl, hsub⟩ := h
    have hleft := ih false (hsub false)
    have hright := ih true (hsub true)
    simp only [Shape.height, isRed_node]
    cases red with
    | true =>
      rw [hred rfl false] at hleft
      rw [hred rfl true] at hright
      simp only [blackness_true, Bool.toNat_true, Bool.toNat_false] at hleft hright ⊢
      omega
    | false =>
      have hle := fun side => Bool.toNat_le (sub side).isRed
      have hl := hle false
      have hr := hle true
      simp only [blackness_false, Bool.toNat_false]
      omega

theorem Shape.Balanced.height_le_log (h : s.Balanced n) (hblack : s.isRed = false) :
    s.height ≤ 2 * Nat.log 2 (s.size + 1) := by
  have hheight := h.height_le
  have hlog : n ≤ Nat.log 2 (s.size + 1) := Nat.le_log_of_pow_le Nat.one_lt_two h.two_pow_le
  rw [hblack, Bool.toNat_false] at hheight
  omega

end Height

end PersClient.LinkedTree
