import DPFlow.Dploader.Trailer
import Mathlib.Order.Bounds.Basic

/-!
# The distance of the checksum

The two bytes behind a message that pass the check are those that make the message, with
these bytes in the other order, a multiple of the generator. The generator has four terms,
an even number, and `X` has order 32767 modulo it, so the fewest flipped bits that go unseen
are four as long as the message and the two bytes have at most 32767 bits together, and two
from there on, whatever the message.

## Main definitions

* `undetected d` — the numbers of bits which can be flipped, in the message `d` and the
  checksum sent with it, so that the check does not notice.
-/
namespace DPFlow.Dploader

open Polynomial
open Lib.Gf2

/-- The numbers of flipped bits that go unseen, in a message and the two bytes behind it. -/
def undetected (d : List UInt8) : Set ℕ :=
  {k | 0 < k ∧ ∃ d' low' high', d'.length = d.length ∧ crc16 d' = crcRx low' high' ∧
    (difference (d ++ trailer (crc16 d)) (d' ++ [low', high'])).count true = k}

/-! ## Errors as byte vectors -/

/-- Two byte vectors added up, byte by byte. -/
def addBytes (d e : List UInt8) : List UInt8 := List.zipWith (· ^^^ ·) d e

@[simp] theorem length_addBytes {d e : List UInt8} (hlen : e.length = d.length) :
    (addBytes d e).length = d.length := by simp [addBytes, hlen]

theorem msbBits_xor {w : ℕ} (a b : BitVec w) :
    msbBits (a ^^^ b) = List.zipWith (· ^^ ·) (msbBits a) (msbBits b) := by
  apply List.ext_getElem (by simp)
  intro i hi hi'
  have hw : i < w := by simpa using hi
  simp [msbBits, BitVec.getMsbD_xor]

theorem bitsOf_addBytes {d e : List UInt8} (hlen : e.length = d.length) :
    bitsOf (addBytes d e) = difference d e := by
  induction d generalizing e with
  | nil => rw [List.length_eq_zero_iff.mp hlen]; rfl
  | cons b d ih =>
      obtain ⟨c, e, rfl⟩ := List.exists_cons_of_length_eq_add_one hlen
      have hrest := ih (e := e) (by simpa using hlen)
      have hbyte : bitsOf [b ^^^ c] = difference [b] [c] := by
        simp [bitsOf, difference, msbBits_xor]
      have hone : [c].length = [b].length := rfl
      have happend : difference (b :: d) (c :: e) = difference [b] [c] ++ difference d e :=
        difference_append hone d e
      rw [happend, ← hrest, ← hbyte, ← bitsOf_append]
      rfl

theorem xor_xor_cancel (a b : UInt8) : a ^^^ (a ^^^ b) = b := by
  rw [← UInt8.xor_assoc, UInt8.xor_self, UInt8.zero_xor]

/-- Adding the same error twice leaves nothing of it. -/
theorem addBytes_addBytes {d e : List UInt8} (hlen : e.length = d.length) :
    addBytes d (addBytes d e) = e := by
  apply List.ext_getElem (by simp [addBytes, hlen])
  intro i hi hi'
  simp only [addBytes, List.getElem_zipWith, xor_xor_cancel]

/-! ## What passes the check -/

/-- **The check.** Two bytes are the checksum of a message when the message and they, the
second one first, are a multiple of the generator. -/
theorem crc16_eq_crcRx_iff_dvd (d : List UInt8) (low high : UInt8) :
    crc16 d = crcRx low high ↔ modulus feedback ∣ bitsPoly (bitsOf (d ++ [high, low])) := by
  have hpoly : bitsPoly (bitsOf (d ++ [high, low])) =
      X ^ 16 * bitsPoly (bitsOf d) - wordPoly (crcRx low high).toBitVec := by
    rw [bitsOf_append, bitsPoly_append, bitsPoly_bitsOf_pair, toBitVec_crcRx, length_bitsOf,
      CharTwo.sub_eq_add, mul_comm]
    rfl
  rw [hpoly, ← AdjoinRoot.mk_eq_mk, ← residue_crc16, ← UInt16.toBitVec_inj,
    ← (residue_injective feedback).eq_iff]
  rfl

/-- The check is linear: an error goes unseen when it passes the check itself. -/
theorem crc16_addBytes_iff {d e : List UInt8} (hlen : e.length = d.length) {low high : UInt8}
    (h : crc16 d = crcRx low high) (el eh : UInt8) :
    crc16 (addBytes d e) = crcRx (low ^^^ el) (high ^^^ eh) ↔ crc16 e = crcRx el eh := by
  have hframe : addBytes d e ++ [high ^^^ eh, low ^^^ el] =
      addBytes (d ++ [high, low]) (e ++ [eh, el]) := by
    rw [addBytes, addBytes, List.zipWith_append hlen.symm]
    rfl
  have hlen' : (e ++ [eh, el]).length = (d ++ [high, low]).length := by simp [hlen]
  rw [crc16_eq_crcRx_iff_dvd] at h
  rw [crc16_eq_crcRx_iff_dvd, crc16_eq_crcRx_iff_dvd, hframe, bitsOf_addBytes hlen',
    bitsPoly_difference hlen', dvd_add_right h]

/-- What an error flips are its set bits. -/
theorem difference_addBytes {d e : List UInt8} (hlen : e.length = d.length)
    (low high el eh : UInt8) :
    difference (d ++ [low, high]) (addBytes d e ++ [low ^^^ el, high ^^^ eh]) =
      bitsOf (e ++ [el, eh]) := by
  have hframe : addBytes d e ++ [low ^^^ el, high ^^^ eh] =
      addBytes (d ++ [low, high]) (e ++ [el, eh]) := by
    rw [addBytes, addBytes, List.zipWith_append hlen.symm]
    rfl
  have hlen' : (e ++ [el, eh]).length = (d ++ [low, high]).length := by simp [hlen]
  rw [hframe, ← bitsOf_addBytes (length_addBytes hlen'), addBytes_addBytes hlen']

/-- The errors that go unseen are the same for every message of one length. -/
theorem mem_undetected_iff (d : List UInt8) (k : ℕ) :
    k ∈ undetected d ↔ 0 < k ∧ ∃ e low high, e.length = d.length ∧
      crc16 e = crcRx low high ∧ (bitsOf (e ++ [low, high])).count true = k := by
  have hsent : crc16 d = crcRx (crc16 d).toUInt8 (crc16 d >>> 8).toUInt8 :=
    (crcRx_trailer (crc16 d)).symm
  refine and_congr_right fun _ => ?_
  constructor
  · rintro ⟨d', low', high', hlen, hcrc, rfl⟩
    refine ⟨addBytes d d', (crc16 d).toUInt8 ^^^ low', (crc16 d >>> 8).toUInt8 ^^^ high',
      length_addBytes hlen, ?_, ?_⟩
    · rw [← crc16_addBytes_iff (length_addBytes hlen) hsent, addBytes_addBytes hlen,
        xor_xor_cancel, xor_xor_cancel]
      exact hcrc
    · rw [← difference_addBytes (length_addBytes hlen) (crc16 d).toUInt8
        (crc16 d >>> 8).toUInt8, addBytes_addBytes hlen, xor_xor_cancel, xor_xor_cancel]
      rfl
  · rintro ⟨e, el, eh, hlen, hcrc, rfl⟩
    exact ⟨addBytes d e, _, _, length_addBytes hlen,
      (crc16_addBytes_iff hlen hsent el eh).mpr hcrc,
      congrArg _ (difference_addBytes hlen _ _ _ _)⟩

/-- The order of the two bytes does not change what is counted. -/
theorem count_bitsOf_pair (e : List UInt8) (low high : UInt8) :
    (bitsOf (e ++ [high, low])).count true = (bitsOf (e ++ [low, high])).count true := by
  have hperm : (e ++ [high, low]).Perm (e ++ [low, high]) :=
    (List.Perm.swap low high []).append_left e
  exact (hperm.flatMap_right _).count_eq true

/-! ## Errors of few bits -/

/-- Bytes of zero have no set bits. -/
theorem bitsOf_replicate_zero (n : ℕ) :
    bitsOf (List.replicate n 0) = List.replicate (8 * n) false := by
  induction n with
  | zero => rfl
  | succ n ih =>
      rw [List.replicate_succ, ← List.singleton_append, bitsOf_append, ih,
        Nat.mul_succ, Nat.add_comm, List.replicate_add]
      rfl

theorem bitsPoly_replicate_false (n : ℕ) : bitsPoly (List.replicate n false) = 0 := by
  induction n with
  | zero => rfl
  | succ n ih => simp [List.replicate_succ, bitsPoly, ih]

/-- Without a message, only the right trailer passes. -/
theorem undetected_nil : undetected [] = ∅ := by
  ext k
  rw [mem_undetected_iff, Set.mem_empty_iff_false, iff_false]
  rintro ⟨hk, e, low, high, hlen, hcrc, rfl⟩
  rw [List.length_eq_zero_iff.mp hlen] at hk hcrc
  rw [← count_bitsOf_pair] at hk
  rw [crc16_eq_crcRx_iff_dvd] at hcrc
  obtain ⟨i, hi, hset⟩ := List.getElem_of_mem (List.count_pos_iff.mp hk)
  -- an error that stays inside the trailer is a burst
  refine not_dvd_of_burst (a := 0) (by decide) ?_ ⟨i, ?_⟩ hcrc
  · intro j hj
    refine ⟨Nat.zero_le j, ?_⟩
    by_contra hge
    rw [List.getD_eq_default _ _ (by simpa using hge)] at hj
    cases hj
  · rw [List.getD_eq_getElem _ _ hi, hset]

/-- Zeros in front of a message do not change its checksum. -/
theorem crc16_replicate_append (n : ℕ) (e : List UInt8) :
    crc16 (List.replicate n 0 ++ e) = crc16 e := by
  have hzeros : ∀ n, (List.replicate n 0).foldl crcByte 0 = 0 := by
    intro n
    induction n with
    | zero => rfl
    | succ n ih => exact ih
  rw [crc16_eq_foldl, crc16_eq_foldl, List.foldl_append, hzeros]

/-- The generator itself, behind any number of zeros. -/
theorem four_mem_undetected {d : List UInt8} (hne : 0 < d.length) : 4 ∈ undetected d := by
  rw [mem_undetected_iff]
  refine ⟨by decide, List.replicate (d.length - 1) 0 ++ [0x01], 0x21, 0x10, ?_, ?_, ?_⟩
  · simp
    omega
  · rw [crc16_replicate_append]
    decide
  · have hlast : (bitsOf ([0x01] ++ [0x21, 0x10])).count true = 4 := by decide
    rw [List.append_assoc, bitsOf_append, bitsOf_replicate_zero, List.count_append, hlast,
      List.count_replicate]
    simp

/-- Two bits of the message and its trailer: the last one of the checksum's low byte, and the
first one of the byte of the message that has `n` bytes behind it. -/
def twoBits (m n : ℕ) : List UInt8 := List.replicate m 0 ++ ([0x80] ++ List.replicate n 0)

theorem length_twoBits (m n : ℕ) : (twoBits m n).length = m + n + 1 := by
  simp [twoBits]
  omega

theorem bitsPoly_twoBits (m n : ℕ) :
    bitsPoly (bitsOf (twoBits m n ++ [0x00, 0x01])) = X ^ (8 * n + 23) + 1 := by
  have hpair : bitsPoly (bitsOf [0x00, 0x01]) = 1 := by
    rw [bitsPoly_bitsOf_pair]
    exact wordPoly_one (by decide)
  have hfirst : bitsPoly (bitsOf [0x80]) = X ^ 7 := by
    have hbits : bitsOf [0x80] = true :: List.replicate 7 false := by decide
    rw [hbits, bitsPoly, bitsPoly_replicate_false]
    simp
  simp only [twoBits, bitsOf_append, bitsPoly_append, bitsOf_replicate_zero,
    bitsPoly_replicate_false, hpair, hfirst, List.length_replicate, length_bitsOf, zero_mul,
    zero_add, add_zero]
  rw [← pow_add, ← pow_add]
  congr 2
  simp
  omega

theorem count_twoBits (m n : ℕ) : (bitsOf (twoBits m n ++ [0x01, 0x00])).count true = 2 := by
  have hfirst : (bitsOf [0x80]).count true = 1 := by decide
  have hlast : (bitsOf [0x01, 0x00]).count true = 1 := by decide
  rw [twoBits, bitsOf_append, bitsOf_append, bitsOf_append, List.count_append,
    List.count_append, List.count_append, bitsOf_replicate_zero, bitsOf_replicate_zero, hfirst,
    hlast, List.count_replicate, List.count_replicate]
  simp

/-- Two bits as far apart as the order of `X`. -/
theorem two_mem_undetected {d : List UInt8} (hlen : 4094 ≤ d.length) : 2 ∈ undetected d := by
  rw [mem_undetected_iff]
  refine ⟨by decide, twoBits (d.length - 4094) 4093, 0x01, 0x00, ?_, ?_, count_twoBits _ _⟩
  · rw [length_twoBits]
    omega
  · have hdistance : 8 * 4093 + 23 = orderOf (AdjoinRoot.root (modulus feedback)) := by
      rw [orderOf_root_feedback]
    rw [crc16_eq_crcRx_iff_dvd, bitsPoly_twoBits, hdistance]
    exact dvd_X_pow_orderOf_add_one feedback

/-! ## The fewest flipped bits -/

theorem even_of_mem_undetected {d : List UInt8} {k : ℕ} (hk : k ∈ undetected d) : Even k := by
  obtain ⟨-, e, low, high, -, hcrc, rfl⟩ := (mem_undetected_iff d k).mp hk
  rw [crc16_eq_crcRx_iff_dvd] at hcrc
  rw [← count_bitsOf_pair]
  exact even_count_of_dvd eval_one_modulus_feedback hcrc

/-- Up to 32767 bits, fewer than four flipped bits do not go unseen. -/
theorem four_le_of_mem_undetected {d : List UInt8} (hlen : d.length ≤ 4093) {k : ℕ}
    (hk : k ∈ undetected d) : 4 ≤ k := by
  obtain ⟨hpos, e, low, high, hlen', hcrc, rfl⟩ := (mem_undetected_iff d k).mp hk
  rw [crc16_eq_crcRx_iff_dvd] at hcrc
  rw [← count_bitsOf_pair] at hpos ⊢
  refine four_le_count_of_dvd (by decide) eval_one_modulus_feedback hcrc hpos ?_
  rw [orderOf_root_feedback, length_bitsOf, List.length_append, hlen']
  simp
  omega

/-- **The fewest flipped bits that go unseen.** For every message that is not empty, they are
four up to a length of 4093 bytes, and two from there on; for the empty message there are
none. -/
theorem isLeast_undetected_iff (d : List UInt8) :
    (IsLeast (undetected d) 4 ↔ 0 < d.length ∧ d.length ≤ 4093) ∧
      (IsLeast (undetected d) 2 ↔ 4094 ≤ d.length) ∧
      (undetected d = ∅ ↔ d.length = 0) := by
  have hnil : d.length = 0 → undetected d = ∅ := by
    intro h
    rw [List.length_eq_zero_iff.mp h, undetected_nil]
  refine ⟨⟨?_, ?_⟩, ⟨?_, ?_⟩, ⟨?_, hnil⟩⟩
  · rintro ⟨hmem, hleast⟩
    constructor
    · by_contra hzero
      rw [hnil (by omega)] at hmem
      exact hmem
    · by_contra hlong
      exact absurd (hleast (two_mem_undetected (by omega))) (by decide)
  · rintro ⟨hpos, hlen⟩
    exact ⟨four_mem_undetected hpos, fun k hk => four_le_of_mem_undetected hlen hk⟩
  · rintro ⟨hmem, -⟩
    by_contra hshort
    exact absurd (four_le_of_mem_undetected (by omega) hmem) (by decide)
  · intro hlong
    refine ⟨two_mem_undetected hlong, ?_⟩
    intro k hk
    obtain ⟨m, rfl⟩ := even_of_mem_undetected hk
    have hpos := hk.1
    omega
  · intro hempty
    by_contra hpos
    have hmem := four_mem_undetected (d := d) (by omega)
    rw [hempty] at hmem
    exact hmem

end DPFlow.Dploader
