import PersClient.File.Checksum
import PersClient.Lib.Crc

/-! # The checksum against its standard

CRC-32 bit by bit, and how `pclCrc32` departs from it: the bound of the table
index is one too small, so the last entry is never looked up and the register
stays as it is. Every other lookup is a step of the standard.
-/

namespace PersClient.File

section Standard

def crc32Poly : BitVec 32 := 0xEDB88320#32

def crc32Update (crc : UInt32) (byte : UInt8) : UInt32 := ⟨Crc.update crc32Poly crc.toBitVec byte⟩

def crc32 (bytes : Bytes) : UInt32 := bytes.foldl crc32Update 0xFFFFFFFF ^^^ 0xFFFFFFFF

def crc32Register (bytes : Bytes) : UInt32 := bytes.foldl crc32Update 0xFFFFFFFF

theorem crc32Update_left_inj {c d : UInt32} {byte : UInt8} :
    crc32Update c byte = crc32Update d byte ↔ c = d := by
  rw [← UInt32.toBitVec_inj, ← UInt32.toBitVec_inj]
  exact Crc.update_left_inj (by decide)

theorem crc32Update_right_inj {c : UInt32} {a b : UInt8} :
    crc32Update c a = crc32Update c b ↔ a = b := by
  rw [← UInt32.toBitVec_inj]
  exact Crc.update_right_inj (by decide) (by decide)

theorem crc32Register_concat (bytes : Bytes) (byte : UInt8) :
    crc32Register (bytes ++ [byte]) = crc32Update (crc32Register bytes) byte := by
  simp [crc32Register]

end Standard

section Table

theorem crc32Tab_eq : ∀ i < 256, (crc32Tab.getD i 0).toBitVec =
    Crc.shifts crc32Poly 8 (BitVec.ofNat 32 i) := by
  decide +kernel

def tableIndex (crc : UInt32) (byte : UInt8) : UInt32 := (crc ^^^ byte.toUInt32) &&& 0xFF

theorem tableIndex_lt (crc : UInt32) (byte : UInt8) : (tableIndex crc byte).toNat < 256 := by
  have : (tableIndex crc byte).toNat ≤ 0xFF := by
    unfold tableIndex
    rw [UInt32.toNat_and]
    exact Nat.and_le_right
  omega

theorem lookup_eq_update (crc : UInt32) (byte : UInt8) :
    crc32Tab.getD (tableIndex crc byte).toNat 0 ^^^ (crc >>> 8) = crc32Update crc byte := by
  apply UInt32.toBitVec_inj.mp
  have hindex : BitVec.ofNat 32 (tableIndex crc byte).toNat =
      ((crc.toBitVec ^^^ byte.toBitVec.setWidth 32).setWidth 8).setWidth 32 := by
    rw [show BitVec.ofNat 32 (tableIndex crc byte).toNat =
      (crc.toBitVec ^^^ byte.toBitVec.setWidth 32) &&& 0xFF#32 from BitVec.ofNat_toNat ..]
    apply BitVec.eq_of_toNat_eq
    rw [BitVec.toNat_and, BitVec.toNat_setWidth_of_le (by decide), BitVec.toNat_setWidth]
    exact Nat.and_two_pow_sub_one_eq_mod _ 8
  have hbyte : (crc.toBitVec ^^^ byte.toBitVec.setWidth 32) >>> 8 = crc.toBitVec >>> 8 := by
    have hclear : byte.toBitVec.setWidth 32 >>> 8 = 0#32 := by
      apply BitVec.eq_of_getLsbD_eq
      intro i hi
      rw [BitVec.getLsbD_ushiftRight, BitVec.getLsbD_setWidth, BitVec.getLsbD_of_ge _ _ (by omega)]
      simp
    rw [BitVec.ushiftRight_xor_distrib, hclear, BitVec.xor_zero]
  rw [UInt32.toBitVec_xor, crc32Tab_eq _ (tableIndex_lt crc byte), hindex]
  show _ = Crc.update crc32Poly crc.toBitVec byte
  unfold Crc.update
  rw [Crc.shifts_eq 8 (crc.toBitVec ^^^ byte.toBitVec.setWidth 32), hbyte]
  rfl

end Table

section Steps

/-- The register of `pclCrc32` after these bytes. -/
def registerAfter (bytes : Bytes) : UInt32 := bytes.foldl crcStep 0xFFFFFFFF

/-- The byte behind these would be looked up in the entry the bound leaves out. -/
def LeftOut (before : Bytes) (byte : UInt8) : Prop := tableIndex (registerAfter before) byte = 0xFF

instance (before : Bytes) (byte : UInt8) : Decidable (LeftOut before byte) :=
  inferInstanceAs (Decidable (_ = _))

theorem registerAfter_step (before : Bytes) (byte : UInt8) :
    registerAfter (before ++ [byte]) = crcStep (registerAfter before) byte := by
  simp [registerAfter]

theorem registerAfter_concat (before : Bytes) (byte : UInt8) :
    registerAfter (before ++ [byte]) =
      if LeftOut before byte then registerAfter before
      else crc32Update (registerAfter before) byte := by
  have hbound : tableIndex (registerAfter before) byte < crc32ArraySize ↔ ¬ LeftOut before byte := by
    have := tableIndex_lt (registerAfter before) byte
    unfold LeftOut crc32ArraySize
    rw [UInt32.lt_iff_toNat_lt, ← UInt32.toNat_inj]
    simp only [UInt32.reduceToNat]
    omega
  rw [registerAfter_step, ← lookup_eq_update]
  by_cases hout : LeftOut before byte
  · rw [if_pos hout]
    exact if_neg fun h => hbound.mp h hout
  · rw [if_neg hout]
    exact if_pos (hbound.mpr hout)

theorem pclCrc32_eq_iff {bytes bytes' : Bytes} :
    pclCrc32 0 bytes = pclCrc32 0 bytes' ↔ registerAfter bytes = registerAfter bytes' :=
  UInt32.xor_left_inj _

theorem pclCrc32_eq_crc32_iff {bytes : Bytes} :
    pclCrc32 0 bytes = crc32 bytes ↔ registerAfter bytes = crc32Register bytes :=
  UInt32.xor_left_inj _

end Steps

section Missing

theorem tableIndex_right_inj {crc : UInt32} {a b : UInt8} :
    tableIndex crc a = tableIndex crc b ↔ a = b := by
  constructor
  · intro h
    have hlookup := lookup_eq_update crc a
    rw [h, lookup_eq_update] at hlookup
    exact (crc32Update_right_inj.mp hlookup).symm
  · rintro rfl
    rfl

theorem low_byte_complement (c : BitVec 32) :
    (c ^^^ ((c ^^^ 0xFFFFFFFF#32).setWidth 8).setWidth 32) &&& 0xFF#32 = 0xFF#32 := by
  rw [show 0xFFFFFFFF#32 = BitVec.allOnes 32 from rfl,
    show 0xFF#32 = (BitVec.allOnes 8).setWidth 32 from rfl]
  apply BitVec.eq_of_getLsbD_eq
  intro i hi
  simp only [BitVec.getLsbD_and, BitVec.getLsbD_xor, BitVec.getLsbD_setWidth,
    BitVec.getLsbD_allOnes, hi, decide_true, Bool.true_and]
  by_cases hbyte : i < 8
  · cases c.getLsbD i <;> simp [hbyte]
  · simp [hbyte]

theorem tableIndex_eq_last_iff {crc : UInt32} {byte : UInt8} :
    tableIndex crc byte = 0xFF ↔ byte = (crc ^^^ 0xFFFFFFFF).toUInt8 := by
  have hlow : tableIndex crc (crc ^^^ 0xFFFFFFFF).toUInt8 = 0xFF :=
    UInt32.toBitVec_inj.mp (low_byte_complement crc.toBitVec)
  rw [← hlow, tableIndex_right_inj]

theorem lookup_fixed_inj {entry c d : UInt32} (hc : entry ^^^ (c >>> 8) = c)
    (hd : entry ^^^ (d >>> 8) = d) : c = d := by
  have hdiff : (c ^^^ d) >>> 8 = c ^^^ d := by
    calc (c ^^^ d) >>> 8
        = (entry ^^^ (c >>> 8)) ^^^ (entry ^^^ (d >>> 8)) := by
          rw [UInt32.shiftRight_xor, UInt32.xor_comm entry (c >>> 8), UInt32.xor_assoc,
            ← UInt32.xor_assoc entry entry, UInt32.xor_self, UInt32.zero_xor]
      _ = c ^^^ d := by rw [hc, hd]
  -- what a shift moves into itself is zero
  have hzero : c ^^^ d = 0 := by
    apply UInt32.toNat_inj.mp
    have hnat := congrArg UInt32.toNat hdiff
    rw [UInt32.toNat_shiftRight, Nat.shiftRight_eq_div_pow] at hnat
    have hdiv : (c ^^^ d).toNat / 256 = (c ^^^ d).toNat := hnat
    show (c ^^^ d).toNat = 0
    omega
  exact UInt32.xor_eq_zero_iff.mp hzero

theorem lookup_last_eq_iff {crc : UInt32} :
    crc32Tab.getD 255 0 ^^^ (crc >>> 8) = crc ↔ crc = 0x2D2FC04D := by
  have hfixed : crc32Tab.getD 255 0 ^^^ ((0x2D2FC04D : UInt32) >>> 8) = 0x2D2FC04D := by
    decide +kernel
  constructor
  · intro h
    exact lookup_fixed_inj h hfixed
  · rintro rfl
    exact hfixed

/-- The byte is the low byte of the CRC-32 of those before it, and makes a difference. -/
def Missed (before : Bytes) (byte : UInt8) : Prop :=
  byte = (crc32 before).toUInt8 ∧ crc32 before ≠ 0xD2D03FB2

instance (before : Bytes) (byte : UInt8) : Decidable (Missed before byte) :=
  inferInstanceAs (Decidable (_ ∧ _))

def NoneMissed (bytes : Bytes) : Prop :=
  ∀ before byte behind, bytes = before ++ byte :: behind → ¬ Missed before byte

variable {bytes before behind : Bytes} {a b byte : UInt8}

theorem noneMissed_nil : NoneMissed [] := by
  intro before byte behind h
  simp at h

theorem noneMissed_concat : NoneMissed (bytes ++ [byte]) ↔ NoneMissed bytes ∧ ¬ Missed bytes byte := by
  constructor
  · intro h
    constructor
    · rintro before c behind rfl
      exact h before c (behind ++ [byte]) (by simp)
    · exact h bytes byte [] rfl
  · rintro ⟨h, hlast⟩ before c behind hsplit
    rcases List.eq_nil_or_concat behind with rfl | ⟨t, d, rfl⟩
    · obtain ⟨rfl, hbyte⟩ := List.append_inj' hsplit rfl
      rwa [← List.singleton_inj.mp hbyte]
    · rw [List.concat_eq_append, ← List.cons_append, ← List.append_assoc] at hsplit
      obtain ⟨hbytes, -⟩ := List.append_inj' hsplit rfl
      exact h before c t hbytes

theorem missed_iff :
    Missed before byte ↔ tableIndex (crc32Register before) byte = 0xFF ∧
      crc32Update (crc32Register before) byte ≠ crc32Register before := by
  have hlow : crc32Register before ^^^ 0xFFFFFFFF = crc32 before := rfl
  rw [tableIndex_eq_last_iff, hlow, Missed]
  refine and_congr_right fun hbyte => not_congr ?_
  have hindex := tableIndex_eq_last_iff.mpr (hlow ▸ hbyte)
  rw [← lookup_eq_update, hindex]
  show _ ↔ crc32Tab.getD 255 0 ^^^ (crc32Register before >>> 8) = crc32Register before
  rw [lookup_last_eq_iff, ← hlow]
  constructor
  · intro h
    rw [← UInt32.xor_left_inj 0xFFFFFFFF, h]
    rfl
  · intro h
    rw [h]
    rfl

/-- As long as the registers agree, a byte parts them exactly if it is missed. -/
theorem register_concat_iff (h : registerAfter before = crc32Register before) :
    registerAfter (before ++ [byte]) = crc32Register (before ++ [byte]) ↔ ¬ Missed before byte := by
  have hleft : LeftOut before byte ↔ tableIndex (crc32Register before) byte = 0xFF := by
    rw [LeftOut, h]
  rw [registerAfter_concat, crc32Register_concat, missed_iff, ← hleft, h]
  by_cases hout : LeftOut before byte
  · rw [if_pos hout, not_and, not_not]
    constructor
    · exact fun heq _ => heq.symm
    · exact fun heq => (heq hout).symm
  · rw [if_neg hout]
    exact iff_of_true rfl fun hmissed => hout hmissed.1

theorem noneMissed_iff :
    NoneMissed bytes ↔ ∀ p, p <+: bytes → registerAfter p = crc32Register p := by
  induction bytes using List.reverseRecOn with
  | nil =>
    refine iff_of_true noneMissed_nil fun p hp => ?_
    rw [List.prefix_nil.mp hp]
    rfl
  | append_singleton bytes last ih =>
    rw [noneMissed_concat, ih]
    constructor
    · rintro ⟨hall, hlast⟩ p hp
      rcases List.prefix_concat_iff.mp hp with rfl | hp
      · exact (register_concat_iff (hall bytes List.prefix_rfl)).mpr hlast
      · exact hall p hp
    · intro hall
      have hbytes : ∀ p, p <+: bytes → registerAfter p = crc32Register p :=
        fun p hp => hall p (hp.trans (List.prefix_append ..))
      exact ⟨hbytes, (register_concat_iff (hbytes bytes List.prefix_rfl)).mp
        (hall _ List.prefix_rfl)⟩

theorem NoneMissed.eq (h : NoneMissed bytes) : registerAfter bytes = crc32Register bytes :=
  noneMissed_iff.mp h bytes List.prefix_rfl

theorem crc32Register_append_inj {x y : Bytes} :
    crc32Register (x ++ behind) = crc32Register (y ++ behind) ↔ crc32Register x = crc32Register y := by
  induction behind using List.reverseRecOn with
  | nil => simp
  | append_singleton behind last ih =>
    rw [← List.append_assoc, ← List.append_assoc, crc32Register_concat, crc32Register_concat,
      crc32Update_left_inj, ih]

theorem registerAfter_skip (h : LeftOut before byte) (behind : Bytes) :
    registerAfter (before ++ byte :: behind) = registerAfter (before ++ behind) := by
  induction behind using List.reverseRecOn with
  | nil => rw [registerAfter_concat, if_pos h, List.append_nil]
  | append_singleton behind last ih =>
    rw [← List.cons_append, ← List.append_assoc, ← List.append_assoc, registerAfter_step, ih,
      registerAfter_step]

end Missing

section Agreement

/-- The checksum of a string is CRC-32 with every byte exactly if no byte is missed.
With one byte missed it is not CRC-32, and where none is, one byte makes a difference. -/
theorem pclCrc32_standard (bytes before behind : Bytes) {a b : UInt8} (hne : a ≠ b) :
    (NoneMissed bytes ↔ ∀ p, p <+: bytes → pclCrc32 0 p = crc32 p) ∧
    (∀ p byte q, bytes = p ++ byte :: q → Missed p byte → NoneMissed (p ++ q) →
      pclCrc32 0 bytes ≠ crc32 bytes) ∧
    (NoneMissed (before ++ a :: behind) → NoneMissed (before ++ b :: behind) →
      pclCrc32 0 (before ++ a :: behind) ≠ pclCrc32 0 (before ++ b :: behind)) := by
  refine ⟨?_, ?_, fun ha hb => ?_⟩
  · simp only [pclCrc32_eq_crc32_iff]
    exact noneMissed_iff
  · rintro p byte q rfl hmissed hrest
    have hp : registerAfter p = crc32Register p :=
      noneMissed_iff.mp hrest p (List.prefix_append ..)
    have hout : LeftOut p byte := by
      rw [LeftOut, hp]
      exact (missed_iff.mp hmissed).1
    rw [ne_eq, pclCrc32_eq_crc32_iff, registerAfter_skip hout, hrest.eq]
    intro heq
    rw [← List.singleton_append, ← List.append_assoc, crc32Register_append_inj,
      crc32Register_concat] at heq
    exact (missed_iff.mp hmissed).2 heq.symm
  · have hsplit : ∀ d, before ++ d :: behind = (before ++ [d]) ++ behind := fun d => by simp
    rw [ne_eq, pclCrc32_eq_iff, ha.eq, hb.eq, hsplit, hsplit, crc32Register_append_inj,
      crc32Register_concat, crc32Register_concat, crc32Update_right_inj]
    exact hne

theorem digits_standard :
    pclCrc32 0 [0x31] = crc32 [0x31] ∧ pclCrc32 0 [0x31] ≠ pclCrc32 0 [0x32] := by
  have hnone : ∀ byte, byte ≠ (crc32 []).toUInt8 → NoneMissed [byte] := by
    intro byte hbyte
    exact noneMissed_concat.mpr ⟨noneMissed_nil, fun h => hbyte h.1⟩
  obtain ⟨hsum, -, hapart⟩ := pclCrc32_standard [0x31] [] [] (a := 0x31) (b := 0x32) (by decide)
  exact ⟨hsum.mp (hnone 0x31 (by decide +kernel)) _ List.prefix_rfl,
    hapart (hnone 0x31 (by decide +kernel)) (hnone 0x32 (by decide +kernel))⟩

/-- The last entry of the table is missed for a single zero, and a byte behind
four others makes no difference. -/
theorem last_entry_missed :
    pclCrc32 0 [0] ≠ crc32 [0] ∧
      pclCrc32 0 [0xFF, 0xFF, 0xFF, 0xFF, 0x00] = pclCrc32 0 [0xFF, 0xFF, 0xFF, 0xFF, 0xFF] := by
  decide +kernel

end Agreement

end PersClient.File
