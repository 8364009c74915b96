import DPFlow.Dploader.Crc

/-!
# The checksum behind the message

A frame carries the checksum of its message in two bytes, and `decode` reads the low
byte first. The generator has an even number of terms, so a message and its trailer have
an even number of set bits together, whatever the order of the two bytes.

## Main definitions

* `trailer` — the two bytes of a checksum, as `decode` reads them back.
-/
namespace DPFlow.Dploader

open Polynomial
open Lib.Gf2

/-- A checksum as two bytes, low byte first. -/
def trailer (crc : UInt16) : List UInt8 := [crc.toUInt8, (crc >>> 8).toUInt8]

theorem toBitVec_crcRx (low high : UInt8) :
    (crcRx low high).toBitVec = high.toBitVec ++ low.toBitVec := by
  apply BitVec.eq_of_toNat_eq
  have hlow := low.toNat_lt
  have hhigh := high.toNat_lt
  rw [BitVec.toNat_append, UInt8.toNat_toBitVec, UInt8.toNat_toBitVec,
    ← Nat.shiftLeft_add_eq_or_of_lt hlow, Nat.shiftLeft_eq, UInt16.toNat_toBitVec, crcRx]
  simp [Nat.shiftLeft_eq]
  omega

theorem crcRx_trailer (crc : UInt16) : crcRx crc.toUInt8 (crc >>> 8).toUInt8 = crc := by
  apply UInt16.toNat_inj.mp
  have hcrc := crc.toNat_lt
  simp [crcRx, Nat.shiftLeft_eq, Nat.shiftRight_eq_div_pow]
  omega

theorem bitsOf_append (d e : List UInt8) : bitsOf (d ++ e) = bitsOf d ++ bitsOf e :=
  List.flatMap_append

theorem bitsPoly_bitsOf_pair (low high : UInt8) :
    bitsPoly (bitsOf [low, high]) = wordPoly (low.toBitVec ++ high.toBitVec) := by
  have hbits : bitsOf [low, high] = msbBits low.toBitVec ++ msbBits high.toBitVec := by
    simp [bitsOf]
  rw [hbits, bitsPoly_append, bitsPoly_msbBits, bitsPoly_msbBits, length_msbBits,
    wordPoly_append]
  ring

/-- The class of a checksum. -/
theorem residue_crc16 (d : List UInt8) :
    residue feedback (crc16 d).toBitVec =
      AdjoinRoot.mk (modulus feedback) (X ^ 16 * bitsPoly (bitsOf d)) := by
  rw [crc16_eq_foldl, residue_foldl_crcByte, map_mul, map_pow, AdjoinRoot.mk_X]
  simp [residue]

theorem bitsPoly_difference {d d' : List UInt8} (hlen : d'.length = d.length) :
    bitsPoly (difference d d') = bitsPoly (bitsOf d) + bitsPoly (bitsOf d') :=
  bitsPoly_zipWith_xor _ _ (by simp [hlen])

theorem difference_append {d d' : List UInt8} (hlen : d'.length = d.length) (e e' : List UInt8) :
    difference (d ++ e) (d' ++ e') = difference d d' ++ difference e e' := by
  rw [difference, bitsOf_append, bitsOf_append, List.zipWith_append (by simp [hlen])]
  rfl

/-! ## Parity -/

theorem eval_one_modulus_feedback : (modulus feedback).eval 1 = 0 := by
  rw [modulus_feedback]
  simp only [eval_add, eval_pow, eval_X, one_pow, eval_one]
  decide

/-- **A message and its trailer have even parity together**, in either order of the
two bytes. -/
theorem even_count_of_crc16_eq {d : List UInt8} {low high : UInt8}
    (h : crc16 d = crcRx low high) : Even ((bitsOf (d ++ [low, high])).count true) := by
  have hclass := residue_crc16 d
  rw [h, toBitVec_crcRx] at hclass
  have hparity := eval_one_eq_of_residue_eq eval_one_modulus_feedback hclass
  rw [wordPoly_append, eval_add, eval_mul, eval_mul, eval_pow, eval_pow, eval_X, one_pow,
    one_pow, one_mul, one_mul] at hparity
  rw [← ZMod.natCast_eq_zero_iff_even, ← eval_one_bitsPoly, bitsOf_append, bitsPoly_append,
    bitsPoly_bitsOf_pair, wordPoly_append]
  simp only [eval_add, eval_mul, eval_pow, eval_X, one_pow, one_mul, mul_one]
  rw [← hparity, add_comm (eval 1 (wordPoly high.toBitVec))]
  exact CharTwo.add_self_eq_zero _

theorem count_difference (d d' : List UInt8) (hlen : d.length = d'.length) :
    (((difference d d').count true : ℕ) : ZMod 2) =
      ((bitsOf d).count true : ℕ) + ((bitsOf d').count true : ℕ) := by
  rw [← eval_one_bitsPoly, difference, bitsPoly_zipWith_xor _ _ (by simp [hlen]), eval_add,
    eval_one_bitsPoly, eval_one_bitsPoly]

/-- **An odd number of flipped bits is detected**, however they are spread over the
message and the two bytes behind it. -/
theorem crc16_ne_of_odd (d d' : List UInt8) (low' high' : UInt8)
    (hlen : d'.length = d.length)
    (hodd : Odd ((difference (d ++ trailer (crc16 d)) (d' ++ [low', high'])).count true)) :
    crc16 d' ≠ crcRx low' high' := by
  intro h
  have heven := even_count_of_crc16_eq (crcRx_trailer (crc16 d)).symm
  have heven' := even_count_of_crc16_eq h
  rw [← ZMod.natCast_eq_zero_iff_even] at heven heven'
  rw [← ZMod.natCast_eq_one_iff_odd, count_difference _ _ (by simp [trailer, hlen]), trailer,
    heven, heven'] at hodd
  exact absurd hodd (by decide)

/-- One flipped bit in each of the message, the low byte and the high byte. -/
theorem crc16_ne_of_odd_three_bits : crc16 [0x80] ≠ crcRx 0x01 0x10 :=
  crc16_ne_of_odd [0x00] [0x80] 0x01 0x10 rfl (by decide)

end DPFlow.Dploader
