import DPFlow.Dploader.Basic
import DPFlow.Lib.Gf2
import Mathlib.GroupTheory.OrderOfElement
import Mathlib.Tactic.NormNum.Prime

/-!
# The checksum is a polynomial remainder

`crc16` shifts a 16-bit register with feedback word `0x1021`, so it computes in the
ring modulo `X ^ 16 + X ^ 12 + X ^ 5 + 1`: a start value moves up by eight powers of
`X` per byte, and each byte comes in at power 16. Two messages of one length with
the same checksum therefore differ by a multiple of the generator, and short bursts
and close double errors are no multiples of it.
-/
namespace DPFlow.Dploader

open Polynomial
open Lib.Gf2

/-- The feedback word of `crc16`. -/
def feedback : BitVec 16 := 0x1021

/-- The bits of a byte vector, the most significant bit of each byte first. -/
def bitsOf (d : List UInt8) : List Bool := d.flatMap fun b => msbBits b.toBitVec

@[simp] theorem length_bitsOf (d : List UInt8) : (bitsOf d).length = 8 * d.length := by
  induction d with
  | nil => rfl
  | cons b d ih =>
      rw [bitsOf, List.flatMap_cons, List.length_append, length_msbBits]
      change 8 + (bitsOf d).length = _
      rw [ih, List.length_cons]
      omega

/-- The generator polynomial of `crc16`. -/
theorem modulus_feedback : modulus feedback = X ^ 16 + X ^ 12 + X ^ 5 + 1 := by
  have hword : wordPoly feedback = X ^ 12 + X ^ 5 + 1 := by
    simp only [wordPoly, feedback, Finset.sum_range_succ]
    simp
    ring
  rw [modulus, hword]
  ring

/-! ## The loops -/

theorem and_topBit_pos_iff (crc : UInt16) : crc &&& 0x8000 > 0 ↔ crc.toBitVec.msb = true := by
  have hmask : (crc &&& 0x8000).toBitVec = if crc.toBitVec.msb then 0x8000#16 else 0#16 := by
    have htop : (0x8000#16) = BitVec.twoPow 16 15 := by decide
    rw [UInt16.toBitVec_and, BitVec.msb_eq_getLsbD_last]
    change crc.toBitVec &&& 0x8000#16 = _
    rw [htop, BitVec.and_twoPow]
  rw [gt_iff_lt, UInt16.lt_iff_toBitVec_lt, hmask]
  cases crc.toBitVec.msb <;> decide

theorem toBitVec_crcShift (crc : UInt16) :
    (crcShift crc).toBitVec = mulX feedback crc.toBitVec := by
  by_cases h : crc.toBitVec.msb = true
  · rw [crcShift, if_pos ((and_topBit_pos_iff crc).mpr h), mulX, if_pos h]
    simp [feedback]
  · rw [crcShift, if_neg (mt (and_topBit_pos_iff crc).mp h), mulX, if_neg h]
    simp

/-- **One byte of the checksum loop**: the register moves up by eight powers of `X`,
and the byte comes in at power 16. -/
theorem residue_crcByte (crc : UInt16) (b : UInt8) :
    residue feedback (crcByte crc b).toBitVec =
      AdjoinRoot.root (modulus feedback) ^ 8 * residue feedback crc.toBitVec +
        AdjoinRoot.root (modulus feedback) ^ 16 *
          AdjoinRoot.mk (modulus feedback) (wordPoly b.toBitVec) := by
  have hiterate : ∀ (n : ℕ) (c : UInt16),
      (crcShift^[n] c).toBitVec = (mulX feedback)^[n] c.toBitVec := by
    intro n
    induction n with
    | zero => intro c; rfl
    | succ n ih =>
        intro c
        rw [Function.iterate_succ_apply, ih, toBitVec_crcShift, Function.iterate_succ_apply]
  have hin : residue feedback (b.toUInt16 <<< 8).toBitVec =
      AdjoinRoot.root (modulus feedback) ^ 8 *
        AdjoinRoot.mk (modulus feedback) (wordPoly b.toBitVec) := by
    have hword : (b.toUInt16 <<< 8).toBitVec = b.toBitVec.setWidth 16 <<< 8 := by simp
    rw [residue, hword, wordPoly_setWidth_shiftLeft b.toBitVec 8 le_rfl, map_mul, map_pow,
      AdjoinRoot.mk_X]
  rw [crcByte, List.foldl_const, List.length_range, hiterate, residue_iterate_mulX,
    UInt16.toBitVec_xor, residue_xor, hin]
  ring

/-- The register after a whole message. -/
theorem residue_foldl_crcByte (d : List UInt8) : ∀ s : UInt16,
    residue feedback (d.foldl crcByte s).toBitVec =
      AdjoinRoot.root (modulus feedback) ^ (8 * d.length) * residue feedback s.toBitVec +
        AdjoinRoot.root (modulus feedback) ^ 16 *
          AdjoinRoot.mk (modulus feedback) (bitsPoly (bitsOf d)) := by
  induction d with
  | nil => intro s; simp [bitsOf, bitsPoly]
  | cons b d ih =>
      intro s
      have hbits : bitsPoly (bitsOf (b :: d)) =
          wordPoly b.toBitVec * X ^ (8 * d.length) + bitsPoly (bitsOf d) := by
        rw [← length_bitsOf, ← bitsPoly_msbBits, ← bitsPoly_append]
        rfl
      rw [List.foldl_cons, ih, residue_crcByte, hbits, List.length_cons]
      simp only [map_add, map_mul, map_pow, AdjoinRoot.mk_X]
      ring

theorem crc16_eq_foldl (d : List UInt8) (s : UInt16) : crc16 d s = d.foldl crcByte s := by
  have hmask : ∀ c : UInt16, c &&& 0xFFFF = c := by
    intro c
    apply UInt16.toBitVec_inj.mp
    exact BitVec.and_allOnes
  rw [crc16, hmask]

/-- **`crc16` is the remainder of the start value and the message**, taken as one
polynomial, modulo the generator. -/
theorem crc16_eq_mod (d : List UInt8) (s : UInt16) :
    wordPoly (crc16 d s).toBitVec =
      (wordPoly s.toBitVec * X ^ (8 * d.length) + bitsPoly (bitsOf d) * X ^ 16) %
        (X ^ 16 + X ^ 12 + X ^ 5 + 1) := by
  rw [← modulus_feedback]
  apply wordPoly_eq_mod
  rw [crc16_eq_foldl, residue_foldl_crcByte, map_add, map_mul, map_mul, map_pow, map_pow,
    AdjoinRoot.mk_X]
  rw [residue]
  ring

/-! ## Error detection -/

/-- The order of `X` modulo the generator, checked by repeated squaring at `32767`
and at its three maximal divisors. -/
theorem orderOf_root_feedback : orderOf (AdjoinRoot.root (modulus feedback)) = 32767 := by
  have hpow : ∀ digits : List Bool,
      AdjoinRoot.root (modulus feedback) ^ digits.foldl (fun n b => 2 * n + b.toNat) 0 = 1 ↔
        powX feedback digits = 1 := by
    intro digits
    have hone : residue feedback 1 = 1 := by rw [residue, wordPoly_one (by norm_num), map_one]
    rw [← residue_powX (by norm_num), ← hone, (residue_injective feedback).eq_iff]
  apply orderOf_eq_of_pow_and_pow_div_prime (by norm_num)
  · exact (hpow (List.replicate 15 true)).mpr (by decide +kernel)
  · intro p hp hdvd
    have hfactors : p ∣ 7 * 31 * 151 := hdvd
    rw [hp.dvd_mul, hp.dvd_mul, Nat.prime_dvd_prime_iff_eq hp (by norm_num),
      Nat.prime_dvd_prime_iff_eq hp (by norm_num), Nat.prime_dvd_prime_iff_eq hp (by norm_num)]
      at hfactors
    rcases hfactors with (rfl | rfl) | rfl
    · -- 32767 / 7 = 4681
      exact mt (hpow [true, false, false, true, false, false, true, false, false, true,
        false, false, true]).mp (by decide +kernel)
    · -- 32767 / 31 = 1057
      exact mt (hpow [true, false, false, false, false, true, false, false, false, false,
        true]).mp (by decide +kernel)
    · -- 32767 / 151 = 217
      exact mt (hpow [true, true, false, true, true, false, false, true]).mp (by decide +kernel)

theorem bitsOf_injective : Function.Injective bitsOf := by
  intro d
  induction d with
  | nil =>
      intro d' h
      have hlen := congrArg List.length h
      rw [length_bitsOf, length_bitsOf] at hlen
      exact (List.length_eq_zero_iff.mp (by simpa using hlen.symm)).symm
  | cons b d ih =>
      intro d' h
      have hlen := congrArg List.length h
      rw [length_bitsOf, length_bitsOf, List.length_cons] at hlen
      obtain ⟨b', d', rfl⟩ := List.exists_cons_of_ne_nil (l := d') (by rintro rfl; simp at hlen)
      have happ : msbBits b.toBitVec ++ bitsOf d = msbBits b'.toBitVec ++ bitsOf d' := h
      obtain ⟨hb, hd⟩ := List.append_inj happ (by simp)
      rw [ih hd, UInt8.toBitVec_inj.mp (msbBits_injective hb)]

/-- Bit `i` of two byte vectors differs; bits are numbered most significant first. -/
def DifferAt (d d' : List UInt8) (i : ℕ) : Prop :=
  (bitsOf d).getD i false ≠ (bitsOf d').getD i false

instance (d d' : List UInt8) (i : ℕ) : Decidable (DifferAt d d' i) :=
  inferInstanceAs (Decidable (_ ≠ _))

theorem DifferAt.lt {d d' : List UInt8} {i : ℕ} (h : DifferAt d d' i)
    (hlen : d'.length = d.length) : i < 8 * d.length := by
  by_contra hge
  apply h
  rw [List.getD_eq_default _ _ (by simp; omega), List.getD_eq_default _ _ (by simp; omega)]

/-- The bits in which two byte vectors differ, as a bit string. -/
def difference (d d' : List UInt8) : List Bool :=
  List.zipWith (· ^^ ·) (bitsOf d) (bitsOf d')

theorem difference_getD {d d' : List UInt8} (hlen : d.length = d'.length) (i : ℕ) :
    (difference d d').getD i false = true ↔ DifferAt d d' i := by
  have hbits : (bitsOf d).length = (bitsOf d').length := by simp [hlen]
  by_cases hi : i < (bitsOf d).length
  · rw [DifferAt, difference,
      List.getD_eq_getElem _ _ (by rwa [List.length_zipWith, ← hbits, min_self]),
      List.getD_eq_getElem _ _ hi, List.getD_eq_getElem _ _ (hbits ▸ hi), List.getElem_zipWith]
    simp
  · rw [DifferAt, difference, List.getD_eq_default _ _ (by rw [List.length_zipWith]; omega),
      List.getD_eq_default _ _ (by omega), List.getD_eq_default _ _ (by omega)]
    simp

/-- Equal checksums of messages of one length: the generator divides their difference. -/
theorem dvd_difference_of_crc16_eq {d d' : List UInt8} (hlen : d.length = d'.length) {s : UInt16}
    (h : crc16 d s = crc16 d' s) : modulus feedback ∣ bitsPoly (difference d d') := by
  have hclass : residue feedback (d.foldl crcByte s).toBitVec =
      residue feedback (d'.foldl crcByte s).toBitVec := by
    rw [← crc16_eq_foldl, ← crc16_eq_foldl, h]
  rw [residue_foldl_crcByte, residue_foldl_crcByte, hlen] at hclass
  have hmk : AdjoinRoot.mk (modulus feedback) (X ^ 16 * bitsPoly (bitsOf d)) =
      AdjoinRoot.mk (modulus feedback) (X ^ 16 * bitsPoly (bitsOf d')) := by
    rw [map_mul, map_mul, map_pow, AdjoinRoot.mk_X]
    exact add_left_cancel hclass
  have hdvd := AdjoinRoot.mk_eq_mk.mp hmk
  rw [← mul_sub, CharTwo.sub_eq_add] at hdvd
  rw [difference, bitsPoly_zipWith_xor _ _ (by simp [hlen])]
  exact dvd_of_dvd_X_pow_mul (by decide) hdvd

/-- **Bursts of at most 16 bits and double errors closer than 32767 bits change the
checksum**, for every start value and every length of message. -/
theorem crc16_ne_of_burst_or_pair (d d' : List UInt8) (s : UInt16) (hlen : d.length = d'.length)
    (hne : d ≠ d')
    (h : (∃ a, ∀ i, DifferAt d d' i → a ≤ i ∧ i < a + 16) ∨
      (∃ i j, i < j ∧ j - i < 32767 ∧ ∀ k, DifferAt d d' k ↔ k = i ∨ k = j)) :
    crc16 d s ≠ crc16 d' s := by
  intro hcrc
  have hdvd := dvd_difference_of_crc16_eq hlen hcrc
  rcases h with ⟨a, hburst⟩ | ⟨i, j, hij, hclose, hpair⟩
  · have hsome : ∃ i, (difference d d').getD i false = true := by
      by_contra hnone
      apply hne
      apply bitsOf_injective
      apply List.ext_getElem (by simp [hlen])
      intro i hi hi'
      have hsame := mt (difference_getD hlen i).mpr (fun hd => hnone ⟨i, hd⟩)
      rw [DifferAt, not_not, List.getD_eq_getElem _ _ hi, List.getD_eq_getElem _ _ hi'] at hsame
      exact hsame
    exact not_dvd_of_burst (by decide) (fun i hi => hburst i ((difference_getD hlen i).mp hi))
      hsome hdvd
  · refine not_dvd_of_pair (by decide) hij
      (fun k => (difference_getD hlen k).trans (hpair k)) ?_ hdvd
    rw [orderOf_root_feedback]
    exact hclose

/-- Five bits of three bytes, from the seventh to the sixteenth. -/
theorem crc16_ne_burst : crc16 [0x12, 0x34, 0x56] 0xFFFF ≠ crc16 [0x11, 0xF5, 0x56] 0xFFFF :=
  crc16_ne_of_burst_or_pair [0x12, 0x34, 0x56] [0x11, 0xF5, 0x56] 0xFFFF rfl (by decide) <|
    Or.inl ⟨6, by
      intro i hi
      have hall : ∀ i < 24, DifferAt [0x12, 0x34, 0x56] [0x11, 0xF5, 0x56] i →
          6 ≤ i ∧ i < 6 + 16 := by decide
      exact hall i (hi.lt rfl) hi⟩

end DPFlow.Dploader
