import Mathlib.Data.BitVec
import Mathlib.Logic.Function.Iterate

/-! # Cyclic redundancy checks

The reflected shift register, bit by bit, for any width and polynomial. A shift
is linear in exclusive or, so eight shifts are the entry of a table for the low
byte and the rest moved down. With the top bit of the polynomial set a shift
loses nothing, and neither does the register that takes in a byte.
-/

namespace PersClient.Crc

variable {w : ℕ} (poly : BitVec w)

def shift (c : BitVec w) : BitVec w :=
  if c.getLsbD 0 then (c >>> 1) ^^^ poly else c >>> 1

def shifts (n : ℕ) : BitVec w → BitVec w := (shift poly)^[n]

def update (c : BitVec w) (byte : UInt8) : BitVec w :=
  shifts poly 8 (c ^^^ byte.toBitVec.setWidth w)

variable {poly}

section Linear

theorem shift_xor (a b : BitVec w) : shift poly (a ^^^ b) = shift poly a ^^^ shift poly b := by
  unfold shift
  rw [BitVec.getLsbD_xor, BitVec.ushiftRight_xor_distrib]
  cases a.getLsbD 0 <;> cases b.getLsbD 0
  · rfl
  · simp [BitVec.xor_assoc]
  · simp only [Bool.bne_false, if_true, Bool.false_eq_true, if_false]
    ac_rfl
  · simp only [bne_self_eq_false, Bool.false_eq_true, if_false, if_true]
    rw [BitVec.xor_assoc, BitVec.xor_comm (b >>> 1), ← BitVec.xor_assoc poly, BitVec.xor_self,
      BitVec.zero_xor]

theorem shifts_succ (n : ℕ) (c : BitVec w) : shifts poly (n + 1) c = shifts poly n (shift poly c) :=
  rfl

theorem shifts_xor (n : ℕ) (a b : BitVec w) :
    shifts poly n (a ^^^ b) = shifts poly n a ^^^ shifts poly n b := by
  induction n generalizing a b with
  | zero => rfl
  | succ n ih => rw [shifts_succ, shift_xor, ih, ← shifts_succ, ← shifts_succ]

theorem shifts_of_clear {n : ℕ} {c : BitVec w} (h : ∀ i < n, c.getLsbD i = false) :
    shifts poly n c = c >>> n := by
  induction n generalizing c with
  | zero => simp [shifts]
  | succ n ih =>
    have hlow : shift poly c = c >>> 1 := by
      unfold shift
      rw [h 0 (by omega), if_neg (by decide)]
    rw [shifts_succ, hlow, ih, ← BitVec.shiftRight_add, Nat.add_comm]
    intro i hi
    rw [BitVec.getLsbD_ushiftRight]
    exact h (1 + i) (by omega)

theorem xor_low_high (n : ℕ) (c : BitVec w) :
    (c.setWidth n).setWidth w ^^^ ((c >>> n) <<< n) = c := by
  apply BitVec.eq_of_getLsbD_eq
  intro i hi
  by_cases hlow : i < n
  · simp [hi, hlow]
  · simp [hi, hlow, Nat.add_sub_cancel' (not_lt.mp hlow)]

theorem shifts_eq (n : ℕ) (c : BitVec w) :
    shifts poly n c = shifts poly n ((c.setWidth n).setWidth w) ^^^ (c >>> n) := by
  have hhigh : shifts poly n ((c >>> n) <<< n) = c >>> n := by
    rw [shifts_of_clear]
    · apply BitVec.eq_of_getLsbD_eq
      intro i hi
      by_cases hw : n + i < w
      · simp [hw]
      · rw [BitVec.getLsbD_ushiftRight, BitVec.getLsbD_ushiftRight,
          BitVec.getLsbD_of_ge _ _ (not_lt.mp hw), BitVec.getLsbD_of_ge _ _ (not_lt.mp hw)]
    · intro i hi
      simp [BitVec.getLsbD_shiftLeft, hi]
  calc shifts poly n c
      = shifts poly n ((c.setWidth n).setWidth w ^^^ ((c >>> n) <<< n)) := by rw [xor_low_high]
    _ = shifts poly n ((c.setWidth n).setWidth w) ^^^ (c >>> n) := by rw [shifts_xor, hhigh]

end Linear

section Injective

variable (htop : poly.getLsbD (w - 1) = true)

include htop

theorem width_pos : 0 < w := by
  rcases Nat.eq_zero_or_pos w with rfl | hw
  · simp at htop
  · exact hw

theorem getLsbD_shift (c : BitVec w) : (shift poly c).getLsbD (w - 1) = c.getLsbD 0 := by
  have hw := width_pos htop
  have hout : (c >>> 1).getLsbD (w - 1) = false := by
    rw [BitVec.getLsbD_ushiftRight]
    exact BitVec.getLsbD_of_ge _ _ (by omega)
  unfold shift
  cases hlow : c.getLsbD 0
  · rw [if_neg (by decide), hout]
  · rw [if_pos rfl, BitVec.getLsbD_xor, hout, htop, Bool.false_xor]

theorem shift_injective : Function.Injective (shift poly) := by
  intro a b h
  have hlow : a.getLsbD 0 = b.getLsbD 0 := by
    rw [← getLsbD_shift htop, ← getLsbD_shift htop, h]
  have hrest : a >>> 1 = b >>> 1 := by
    unfold shift at h
    rw [hlow] at h
    split at h
    · exact (BitVec.xor_left_inj _).mp h
    · exact h
  apply BitVec.eq_of_getLsbD_eq
  intro i hi
  cases i with
  | zero => exact hlow
  | succ i =>
    have := congrArg (BitVec.getLsbD · i) hrest
    simpa only [BitVec.getLsbD_ushiftRight, Nat.add_comm] using this

theorem shifts_injective (n : ℕ) : Function.Injective (shifts poly n) :=
  (shift_injective htop).iterate n

theorem update_left_inj {c d : BitVec w} {byte : UInt8} :
    update poly c byte = update poly d byte ↔ c = d := by
  constructor
  · intro h
    exact (BitVec.xor_left_inj _).mp (shifts_injective htop 8 h)
  · rintro rfl
    rfl

theorem update_right_inj (hw : 8 ≤ w) {c : BitVec w} {a b : UInt8} :
    update poly c a = update poly c b ↔ a = b := by
  constructor
  · intro h
    have hwide : a.toBitVec.setWidth w = b.toBitVec.setWidth w :=
      (BitVec.xor_right_inj _).mp (shifts_injective htop 8 h)
    apply UInt8.toBitVec_inj.mp
    have := congrArg (BitVec.setWidth 8) hwide
    rwa [BitVec.setWidth_setWidth_of_le _ hw, BitVec.setWidth_setWidth_of_le _ hw,
      BitVec.setWidth_eq, BitVec.setWidth_eq] at this
  · rintro rfl
    rfl

end Injective

end PersClient.Crc
