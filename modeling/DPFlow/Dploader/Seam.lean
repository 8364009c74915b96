import DPFlow.Dploader.Distance
import Mathlib.Data.Set.Card

/-!
# Bursts across the seam

The burst guarantee of a 16-bit remainder belongs to a trailer whose high byte comes first.
`decode` reads the low byte first, and here a few bursts across the seam between the message
and its trailer go unseen. They are the same for every message that they fit into, and
`crc16_eq_iff_of_burst` lists them.

## Main definitions

* `SeamBurst` — an error that touches the trailer and is short enough to be a burst.
* `errorWord` — the trailer's share of an error, as one word.
* `unshift` — the word that sixteen shifts take to a given one.
* `flipped`, `unseen` — an error as a number, and the numbers of those that go unseen.
-/
namespace DPFlow.Dploader

open Polynomial
open Lib.Gf2

/-! ## The two shares of an error -/

/-- The trailer's share of an error, its bits in the order in which they are sent. -/
def errorWord (low low' high high' : UInt8) : BitVec 16 :=
  (low ^^^ low').toBitVec ++ (high ^^^ high').toBitVec

/-- Rotating by eight exchanges the two bytes of a word. -/
theorem rotateLeft_append (a b : BitVec 8) : (a ++ b).rotateLeft 8 = b ++ a := by
  apply BitVec.eq_of_getLsbD_eq
  intro i hi
  rw [BitVec.getLsbD_rotateLeft]
  simp only [BitVec.getLsbD_append]
  by_cases h : i < 8
  · simp [h]
  · simp [h, show i - 8 < 8 by omega, show i < 16 by omega]

theorem errorWord_rotateLeft (low low' high high' : UInt8) :
    (errorWord low low' high high').rotateLeft 8 =
      (crcRx low high).toBitVec ^^^ (crcRx low' high').toBitVec := by
  rw [toBitVec_crcRx, toBitVec_crcRx, BitVec.xor_append, errorWord, rotateLeft_append,
    UInt8.toBitVec_xor, UInt8.toBitVec_xor]

theorem bitsPoly_difference_pair (low low' high high' : UInt8) :
    bitsPoly (difference [low, high] [low', high']) =
      wordPoly (errorWord low low' high high') := by
  have hlen : [low', high'].length = [low, high].length := rfl
  rw [bitsPoly_difference hlen, bitsPoly_bitsOf_pair, bitsPoly_bitsOf_pair, ← wordPoly_xor,
    BitVec.xor_append, errorWord, UInt8.toBitVec_xor, UInt8.toBitVec_xor]

/-- Sixteen shifts of the message's share of an error are what it does to the checksum. -/
theorem crc16_eq_crcRx_iff {d d' : List UInt8} (hlen : d'.length = d.length)
    (low' high' : UInt8) {x : BitVec 16} (hx : wordPoly x = bitsPoly (difference d d')) :
    crc16 d' = crcRx low' high' ↔
      (mulX feedback)^[16] x =
        (errorWord (crc16 d).toUInt8 low' (crc16 d >>> 8).toUInt8 high').rotateLeft 8 := by
  have hshifted : (crc16 d').toBitVec = (crc16 d).toBitVec ^^^ (mulX feedback)^[16] x := by
    apply residue_injective feedback
    rw [residue_xor, residue_iterate_mulX, residue_crc16, residue_crc16, residue, hx,
      bitsPoly_difference hlen, ← AdjoinRoot.mk_X, ← map_pow, ← map_mul, ← map_add]
    congr 1
    linear_combination -(CharTwo.add_self_eq_zero (X ^ 16 * bitsPoly (bitsOf d)))
  rw [errorWord_rotateLeft, crcRx_trailer, ← UInt16.toBitVec_inj, hshifted]
  constructor
  · intro h
    rw [← h, ← BitVec.xor_assoc, BitVec.xor_self, BitVec.zero_xor]
  · intro h
    rw [h, ← BitVec.xor_assoc, BitVec.xor_self, BitVec.zero_xor]

/-- An error that touches a carried byte and lies inside sixteen consecutive bits of the
message and its trailer. -/
structure SeamBurst (d d' : List UInt8) (low' high' : UInt8) : Prop where
  length_eq : d'.length = d.length
  touches : ∃ i, 8 * d.length ≤ i ∧
    DifferAt (d ++ trailer (crc16 d)) (d' ++ [low', high']) i
  within : ∃ a, ∀ i, DifferAt (d ++ trailer (crc16 d)) (d' ++ [low', high']) i →
    a ≤ i ∧ i < a + 16

/-- The two shares of such an error: below `X ^ k` in the message, and a multiple of
`X ^ k` in the trailer. -/
structure Straddles (k : ℕ) (x v : BitVec 16) : Prop where
  le : k ≤ 15
  lt : x.toNat < 2 ^ k
  dvd : 2 ^ k ∣ v.toNat
  ne : v ≠ 0

theorem differAt_append_left {d d' : List UInt8} (hlen : d'.length = d.length)
    {e e' : List UInt8} {i : ℕ} (hi : i < 8 * d.length) :
    DifferAt (d ++ e) (d' ++ e') i ↔ DifferAt d d' i := by
  rw [DifferAt, DifferAt, bitsOf_append, bitsOf_append,
    List.getD_append _ _ _ _ (by simpa using hi),
    List.getD_append _ _ _ _ (by simpa [hlen] using hi)]

theorem differAt_append_right {d d' : List UInt8} (hlen : d'.length = d.length)
    {e e' : List UInt8} (j : ℕ) :
    DifferAt (d ++ e) (d' ++ e') (8 * d.length + j) ↔ DifferAt e e' j := by
  rw [DifferAt, DifferAt, bitsOf_append, bitsOf_append, List.getD_append_right _ _ _ _ (by simp),
    List.getD_append_right _ _ _ _ (by simp [hlen])]
  simp [hlen]

/-- The coefficients of an error are the bits it flips. -/
theorem coeff_difference_ne_zero_iff {d d' : List UInt8} (hlen : d'.length = d.length) {n : ℕ} :
    (bitsPoly (difference d d')).coeff n ≠ 0 ↔
      n < 8 * d.length ∧ DifferAt d d' (8 * d.length - 1 - n) := by
  have hbits : (difference d d').length = 8 * d.length := by simp [difference, hlen]
  have hset : ∀ b : Bool, coeffOf b ≠ 0 ↔ b = true := by decide
  rw [coeff_bitsPoly_getD, hset, Bool.and_eq_true, decide_eq_true_eq, hbits,
    difference_getD hlen.symm]

theorem getLsbD_eq_true_iff_coeff {w : ℕ} {a : BitVec w} {n : ℕ} :
    a.getLsbD n = true ↔ (wordPoly a).coeff n ≠ 0 := by
  rw [coeff_wordPoly]
  cases a.getLsbD n <;> decide

theorem SeamBurst.straddles {d d' : List UInt8} {low' high' : UInt8}
    (h : SeamBurst d d' low' high') :
    ∃ k x, wordPoly x = bitsPoly (difference d d') ∧
      Straddles k x (errorWord (crc16 d).toUInt8 low' (crc16 d >>> 8).toUInt8 high') := by
  obtain ⟨hlen, ⟨i, hi, htouch⟩, a, hwithin⟩ := h
  set v := errorWord (crc16 d).toUInt8 low' (crc16 d >>> 8).toUInt8 high' with hv
  have hk : 8 * d.length - a ≤ 15 := by
    have := hwithin i htouch
    omega
  -- the bits of the message's share stand ahead of the window's start
  have hmessage : ∀ n, (bitsPoly (difference d d')).coeff n ≠ 0 → n < 8 * d.length - a := by
    intro n hn
    obtain ⟨hlt, hdiff⟩ := (coeff_difference_ne_zero_iff hlen).mp hn
    have := hwithin _ ((differAt_append_left hlen (by omega)).mpr hdiff)
    omega
  have htwo : [low', high'].length = (trailer (crc16 d)).length := rfl
  have hpair : ∀ n, v.getLsbD n = true ↔ n < 16 ∧
      DifferAt (d ++ trailer (crc16 d)) (d' ++ [low', high']) (8 * d.length + (15 - n)) := by
    intro n
    rw [differAt_append_right hlen, getLsbD_eq_true_iff_coeff, hv, ← bitsPoly_difference_pair]
    exact coeff_difference_ne_zero_iff htwo
  obtain ⟨x, hx⟩ := exists_wordPoly_eq (w := 16) (p := bitsPoly (difference d d')) (by
    rw [degree_lt_iff_coeff_zero]
    intro n hn
    by_contra hne
    have := hmessage n hne
    omega)
  refine ⟨8 * d.length - a, x, hx, hk, ?_, ?_, ?_⟩
  · apply Nat.lt_pow_two_of_testBit
    intro n hn
    rw [BitVec.testBit_toNat, ← Bool.not_eq_true, getLsbD_eq_true_iff_coeff, hx]
    intro hne
    have := hmessage n hne
    omega
  · apply Nat.dvd_of_mod_eq_zero
    apply Nat.eq_of_testBit_eq
    intro n
    rw [Nat.testBit_mod_two_pow, Nat.zero_testBit, ← Bool.not_eq_true, Bool.and_eq_true,
      decide_eq_true_eq, BitVec.testBit_toNat, hpair]
    rintro ⟨hlt, hn, hdiff⟩
    have := hwithin _ hdiff
    omega
  · intro hzero
    have hi' : 8 * d.length + (i - 8 * d.length) = i := by omega
    have hlast : i - 8 * d.length < 16 := by
      rw [← hi', differAt_append_right hlen] at htouch
      exact htouch.lt htwo
    have hset := (hpair (15 - (i - 8 * d.length))).mpr ⟨by omega, by
      rwa [show 15 - (15 - (i - 8 * d.length)) = i - 8 * d.length by omega, hi']⟩
    rw [hzero] at hset
    simp at hset

/-! ## The bursts that go unseen -/

/-- The word that sixteen shifts take to `a`: its product with the inverse of `X ^ 16`. -/
def unshift (a : BitVec 16) : BitVec 16 := mul feedback a 0x9d71

theorem unshift_shift (x : BitVec 16) : unshift ((mulX feedback)^[16] x) = x := by
  have hinv : (mulX feedback)^[16] 0x9d71 = 1 := by decide +kernel
  have hone : residue feedback 1 = 1 := by rw [residue, wordPoly_one (by norm_num), map_one]
  apply residue_injective feedback
  rw [unshift, residue_mul, residue_iterate_mulX]
  calc residue feedback 0x9d71 * (AdjoinRoot.root (modulus feedback) ^ 16 * residue feedback x)
      = residue feedback ((mulX feedback)^[16] 0x9d71) * residue feedback x := by
        rw [residue_iterate_mulX]
        ring
    _ = residue feedback x := by rw [hinv, hone, one_mul]

theorem rotateLeft_rotateLeft (v : BitVec 16) : (v.rotateLeft 8).rotateLeft 8 = v := by
  have hsplit : v = v.extractLsb' 8 8 ++ v.extractLsb' 0 8 := by
    rw [BitVec.extractLsb'_append_extractLsb'_eq_extractLsb' (rfl : 8 = 0 + 8)]
    simp
  rw [hsplit, rotateLeft_append, rotateLeft_append]

/-- The bursts across the seam that are not detected, as binary numbers whose last digit
is the last bit of the trailer. -/
def unseen : List ℕ :=
  [0x012110, 0x024220, 0x036330, 0x048440, 0x05a550, 0x06c660, 0x07e770, 0x89a100,
    0x02359400, 0x08c54000, 0x118a8000, 0x194fc000]

/-- A share of the message of at most eight bits, against what it does to the trailer. -/
theorem unseen_of_short : ∀ k < 9, ∀ x < 256,
    x < 2 ^ k ∧ 2 ^ k ∣ (((mulX feedback)^[16] (BitVec.ofNat 16 x)).rotateLeft 8).toNat →
    (((mulX feedback)^[16] (BitVec.ofNat 16 x)).rotateLeft 8).toNat = 0 ∨
      x * 65536 + (((mulX feedback)^[16] (BitVec.ofNat 16 x)).rotateLeft 8).toNat ∈ unseen := by
  decide +kernel

/-- A share of the trailer of less than eight bits, against what undoes it. -/
theorem unseen_of_long : ∀ k < 16, ∀ u < 256, 8 < k ∧ u * 2 ^ k < 65536 ∧
    (unshift ((BitVec.ofNat 16 (u * 2 ^ k)).rotateLeft 8)).toNat < 2 ^ k →
    u = 0 ∨
      (unshift ((BitVec.ofNat 16 (u * 2 ^ k)).rotateLeft 8)).toNat * 65536 + u * 2 ^ k ∈
        unseen := by
  decide +kernel

theorem shift_of_unseen : ∀ n ∈ unseen,
    (mulX feedback)^[16] (BitVec.ofNat 16 (n / 65536)) =
      (BitVec.ofNat 16 (n % 65536)).rotateLeft 8 := by
  decide +kernel

theorem Straddles.mem_unseen {k : ℕ} {x v : BitVec 16} (h : Straddles k x v)
    (hshift : (mulX feedback)^[16] x = v.rotateLeft 8) :
    x.toNat * 65536 + v.toNat ∈ unseen := by
  have hne : v.toNat ≠ 0 := fun h0 => h.ne (BitVec.eq_of_toNat_eq h0)
  by_cases hk : k ≤ 8
  · have hpow : 2 ^ k ≤ 256 := Nat.pow_le_pow_right (by decide) hk
    have hv : ((mulX feedback)^[16] (BitVec.ofNat 16 x.toNat)).rotateLeft 8 = v := by
      rw [BitVec.ofNat_toNat, BitVec.setWidth_eq, hshift, rotateLeft_rotateLeft]
    have hshort := unseen_of_short k (by omega) x.toNat (lt_of_lt_of_le h.lt hpow)
    rw [hv] at hshort
    exact (hshort ⟨h.lt, h.dvd⟩).resolve_left hne
  · obtain ⟨u, hu⟩ := h.dvd
    have hle := h.le
    have hpow : 2 ^ 9 ≤ 2 ^ k := Nat.pow_le_pow_right (by decide) (by omega)
    have hlt : u * 2 ^ k < 65536 := by
      rw [mul_comm, ← hu]
      exact v.isLt
    have hu256 : u < 256 := by
      by_contra hge
      have := Nat.mul_le_mul (not_lt.mp hge) hpow
      omega
    have hx : unshift ((BitVec.ofNat 16 (u * 2 ^ k)).rotateLeft 8) = x := by
      rw [mul_comm, ← hu, BitVec.ofNat_toNat, BitVec.setWidth_eq, ← hshift, unshift_shift]
    have hlong := unseen_of_long k (by omega) u hu256
    rw [hx] at hlong
    have hmem := (hlong ⟨by omega, hlt, h.lt⟩).resolve_left (by
      rintro rfl
      exact hne (by rw [hu, mul_zero]))
    rwa [mul_comm u, ← hu] at hmem

/-- The whole error as a number: its share of the message, then that of the trailer. -/
theorem bitsNat_difference {d d' : List UInt8} (hlen : d'.length = d.length)
    {low high low' high' : UInt8} {x : BitVec 16} (hx : wordPoly x = bitsPoly (difference d d')) :
    bitsNat (difference (d ++ [low, high]) (d' ++ [low', high'])) =
      x.toNat * 65536 + (errorWord low low' high high').toNat := by
  have hpoly : bitsPoly (difference (d ++ [low, high]) (d' ++ [low', high'])) =
      wordPoly (x ++ errorWord low low' high high') := by
    rw [difference_append hlen, bitsPoly_append, bitsPoly_difference_pair, wordPoly_append, hx,
      mul_comm]
    rfl
  rw [bitsNat_eq_toNat hpoly, BitVec.toNat_append,
    ← Nat.shiftLeft_add_eq_or_of_lt (errorWord low low' high high').isLt, Nat.shiftLeft_eq]

/-- The flipped bits of a message and its trailer, as a binary number whose last digit is the
last bit of the trailer. -/
def flipped (d d' : List UInt8) (low' high' : UInt8) : ℕ :=
  bitsNat (difference (d ++ trailer (crc16 d)) (d' ++ [low', high']))

/-- **A burst across the seam goes unseen exactly when it is one of twelve.** -/
theorem SeamBurst.crc16_eq_iff {d d' : List UInt8} {low' high' : UInt8}
    (h : SeamBurst d d' low' high') :
    crc16 d' = crcRx low' high' ↔ flipped d d' low' high' ∈ unseen := by
  obtain ⟨k, x, hx, hstraddles⟩ := h.straddles
  rw [crc16_eq_crcRx_iff h.length_eq low' high' hx, flipped, trailer,
    bitsNat_difference h.length_eq hx]
  constructor
  · exact hstraddles.mem_unseen
  · intro hmem
    set v := errorWord (crc16 d).toUInt8 low' (crc16 d >>> 8).toUInt8 high'
    have hdiv : (x.toNat * 65536 + v.toNat) / 65536 = x.toNat := by omega
    have hmod : (x.toNat * 65536 + v.toNat) % 65536 = v.toNat := by omega
    have hshift := shift_of_unseen _ hmem
    rwa [hdiv, hmod, BitVec.ofNat_toNat, BitVec.ofNat_toNat, BitVec.setWidth_eq,
      BitVec.setWidth_eq] at hshift

/-! ## That they all occur -/

section occur
variable {d : List UInt8}

theorem flipped_lt {d' : List UInt8} (hlen : d'.length = d.length) (low' high' : UInt8) :
    flipped d d' low' high' < 2 ^ (8 * (d.length + 2)) := by
  have hlt := bitsNat_lt (difference (d ++ trailer (crc16 d)) (d' ++ [low', high']))
  have hlength : (difference (d ++ trailer (crc16 d)) (d' ++ [low', high'])).length =
      8 * (d.length + 2) := by
    simp [difference, trailer, hlen]
  rwa [hlength] at hlt

/-- What is received instead is told by the flipped bits. -/
theorem eq_of_flipped_eq {d₁ d₂ : List UInt8} {low₁ high₁ low₂ high₂ : UInt8}
    (h₁ : d₁.length = d.length) (h₂ : d₂.length = d.length)
    (h : flipped d d₁ low₁ high₁ = flipped d d₂ low₂ high₂) :
    d₁ = d₂ ∧ low₁ = low₂ ∧ high₁ = high₂ := by
  have hlen₁ : (d₁ ++ [low₁, high₁]).length = (d ++ trailer (crc16 d)).length := by
    simp [trailer, h₁]
  have hlen₂ : (d₂ ++ [low₂, high₂]).length = (d ++ trailer (crc16 d)).length := by
    simp [trailer, h₂]
  rw [flipped, flipped, ← bitsOf_addBytes hlen₁, ← bitsOf_addBytes hlen₂] at h
  have hadd := bitsOf_injective (eq_of_bitsNat_eq
    (by simp only [length_bitsOf, length_addBytes hlen₁, length_addBytes hlen₂]) h)
  have hsame := congrArg (addBytes (d ++ trailer (crc16 d))) hadd
  rw [addBytes_addBytes hlen₁, addBytes_addBytes hlen₂] at hsame
  obtain ⟨hd, hpair⟩ := List.append_inj hsame (h₁.trans h₂.symm)
  simpa [hd] using hpair

/-- An error at the end of the message and in the trailer, if it is a burst and passes the
check where there is no more than its own bytes, does so behind any others. -/
theorem exists_seamBurst {m : ℕ} {e : List UInt8} (hlen : d.length = m + e.length)
    {low high : UInt8} (hcrc : crc16 e = crcRx low high)
    (htouches : ∃ j, (bitsOf [low, high]).getD j false = true)
    (hwithin : ∃ a, ∀ i, (bitsOf (e ++ [low, high])).getD i false = true → a ≤ i ∧ i < a + 16) :
    ∃ d' low' high', SeamBurst d d' low' high' ∧ crc16 d' = crcRx low' high' ∧
      flipped d d' low' high' = bitsNat (bitsOf (e ++ [low, high])) := by
  have hpad : (List.replicate m 0 ++ e).length = d.length := by simp [hlen]
  have hsent : crc16 d = crcRx (crc16 d).toUInt8 (crc16 d >>> 8).toUInt8 :=
    (crcRx_trailer (crc16 d)).symm
  have hdiff : difference (d ++ trailer (crc16 d)) (addBytes d (List.replicate m 0 ++ e) ++
      [(crc16 d).toUInt8 ^^^ low, (crc16 d >>> 8).toUInt8 ^^^ high]) =
        List.replicate (8 * m) false ++ bitsOf (e ++ [low, high]) := by
    rw [trailer, difference_addBytes hpad, List.append_assoc, bitsOf_append,
      bitsOf_replicate_zero]
  have hlen' : (d ++ trailer (crc16 d)).length = (addBytes d (List.replicate m 0 ++ e) ++
      [(crc16 d).toUInt8 ^^^ low, (crc16 d >>> 8).toUInt8 ^^^ high]).length := by
    simp [trailer, length_addBytes hpad]
  refine ⟨addBytes d (List.replicate m 0 ++ e), _, _, ⟨length_addBytes hpad, ?_, ?_⟩,
    (crc16_addBytes_iff hpad hsent low high).mpr ?_, ?_⟩
  · obtain ⟨j, hj⟩ := htouches
    refine ⟨8 * d.length + j, Nat.le_add_right _ _, ?_⟩
    rw [← difference_getD hlen', hdiff, bitsOf_append, ← List.append_assoc,
      List.getD_append_right _ _ _ _ (by simp [hlen]; omega)]
    have hj' : 8 * d.length + j - (List.replicate (8 * m) false ++ bitsOf e).length = j := by
      simp [hlen]
      omega
    rwa [hj']
  · obtain ⟨a, ha⟩ := hwithin
    refine ⟨8 * m + a, fun i hi => ?_⟩
    rw [← difference_getD hlen', hdiff] at hi
    by_cases him : i < 8 * m
    · rw [List.getD_append _ _ _ _ (by simpa using him),
        List.getD_eq_getElem _ _ (by simpa using him), List.getElem_replicate] at hi
      cases hi
    · rw [List.getD_append_right _ _ _ _ (by simpa using him), List.length_replicate] at hi
      have := ha _ hi
      omega
  · rw [crc16_replicate_append, hcrc]
  · rw [flipped, hdiff, bitsNat_replicate_append]

/-- The bytes of a number above the trailer's, the last `k` of them. -/
def lastBytes (k n : ℕ) : List UInt8 :=
  (List.range k).reverse.map fun i => UInt8.ofNat (n / 2 ^ (8 * (i + 2)))

/-- Every number on the list is a burst across the seam that passes the check. -/
theorem unseen_passes : ∀ k < 3, ∀ n ∈ unseen, n < 2 ^ (8 * (k + 2)) →
    crc16 (lastBytes k n) = crcRx (.ofNat (n / 2 ^ 8)) (.ofNat n) ∧
    (∃ j < 16, (bitsOf [.ofNat (n / 2 ^ 8), .ofNat n]).getD j false = true) ∧
    (∃ a < 32, ∀ i < 32,
      (bitsOf (lastBytes k n ++ [.ofNat (n / 2 ^ 8), .ofNat n])).getD i false = true →
        a ≤ i ∧ i < a + 16) ∧
    bitsNat (bitsOf (lastBytes k n ++ [.ofNat (n / 2 ^ 8), .ofNat n])) = n := by
  decide +kernel

theorem unseen_lt : ∀ n ∈ unseen, n < 2 ^ (8 * (2 + 2)) := by decide

/-- A number on the list that fits behind the message is an error of it that goes unseen. -/
theorem exists_of_mem_unseen {n : ℕ} (hn : n ∈ unseen) (hlt : n < 2 ^ (8 * (d.length + 2))) :
    ∃ d' low' high', SeamBurst d d' low' high' ∧ crc16 d' = crcRx low' high' ∧
      flipped d d' low' high' = n := by
  have hfits : n < 2 ^ (8 * (min d.length 2 + 2)) := by
    obtain h | h := min_choice d.length 2 <;> rw [h]
    · exact hlt
    · exact unseen_lt n hn
  have hlast : (lastBytes (min d.length 2) n).length = min d.length 2 := by simp [lastBytes]
  obtain ⟨hcrc, ⟨j, -, hj⟩, ⟨a, -, ha⟩, hnumber⟩ :=
    unseen_passes (min d.length 2) (by omega) n hn hfits
  obtain ⟨d', low', high', hburst, hpasses, hflipped⟩ :=
    exists_seamBurst (d := d) (m := d.length - min d.length 2) (by omega) hcrc ⟨j, hj⟩ ⟨a, by
      intro i hi
      refine ha i ?_ hi
      by_contra hge
      rw [List.getD_eq_default _ _ (by simp [hlast]; omega)] at hi
      cases hi⟩
  exact ⟨d', low', high', hburst, hpasses, hflipped.trans hnumber⟩

end occur

/-- How many numbers on the list fit behind a message. -/
theorem ncard_unseen (k : ℕ) :
    {n | n ∈ unseen ∧ n < 2 ^ (8 * (k + 2))}.ncard = if k < 2 then 8 * k else 12 := by
  have hset : {n | n ∈ unseen ∧ n < 2 ^ (8 * (k + 2))} =
      ((unseen.filter fun n => n < 2 ^ (8 * (k + 2))).toFinset : Set ℕ) := by
    ext n
    simp
  rw [hset, Set.ncard_coe_finset]
  obtain rfl | rfl | hk : k = 0 ∨ k = 1 ∨ 2 ≤ k := by omega
  · decide
  · decide
  · have hall : (unseen.filter fun n => n < 2 ^ (8 * (k + 2))) = unseen := by
      rw [List.filter_eq_self]
      intro n hn
      have hle : 2 ^ (8 * (2 + 2)) ≤ 2 ^ (8 * (k + 2)) :=
        Nat.pow_le_pow_right (by decide) (by omega)
      exact decide_eq_true (lt_of_lt_of_le (unseen_lt n hn) hle)
    rw [hall, if_neg (by omega)]
    decide

/-- **The bursts across the seam that go unseen.** Of the errors of a message that touch the
trailer and lie inside sixteen consecutive bits, those go unseen whose numbers are on the list.
Each number that fits behind the message is the number of one such error: of twelve for messages
of at least two bytes, and of eight for one byte. -/
theorem crc16_eq_iff_of_burst (d : List UInt8) :
    (∀ d' low' high', SeamBurst d d' low' high' →
      (crc16 d' = crcRx low' high' ↔ flipped d d' low' high' ∈ unseen)) ∧
    Set.BijOn (fun e : List UInt8 × UInt8 × UInt8 => flipped d e.1 e.2.1 e.2.2)
      {e | SeamBurst d e.1 e.2.1 e.2.2 ∧ crc16 e.1 = crcRx e.2.1 e.2.2}
      {n | n ∈ unseen ∧ n < 2 ^ (8 * (d.length + 2))} ∧
    {e : List UInt8 × UInt8 × UInt8 | SeamBurst d e.1 e.2.1 e.2.2 ∧
      crc16 e.1 = crcRx e.2.1 e.2.2}.ncard = if d.length < 2 then 8 * d.length else 12 := by
  have hbij : Set.BijOn (fun e : List UInt8 × UInt8 × UInt8 => flipped d e.1 e.2.1 e.2.2)
      {e | SeamBurst d e.1 e.2.1 e.2.2 ∧ crc16 e.1 = crcRx e.2.1 e.2.2}
      {n | n ∈ unseen ∧ n < 2 ^ (8 * (d.length + 2))} := by
    refine ⟨?_, ?_, ?_⟩
    · rintro ⟨d', low', high'⟩ ⟨hburst, hpasses⟩
      exact ⟨hburst.crc16_eq_iff.mp hpasses, flipped_lt hburst.length_eq low' high'⟩
    · rintro ⟨d₁, low₁, high₁⟩ ⟨h₁, -⟩ ⟨d₂, low₂, high₂⟩ ⟨h₂, -⟩ hsame
      obtain ⟨rfl, rfl, rfl⟩ := eq_of_flipped_eq h₁.length_eq h₂.length_eq hsame
      rfl
    · rintro n ⟨hn, hlt⟩
      obtain ⟨d', low', high', hburst, hpasses, hflipped⟩ := exists_of_mem_unseen hn hlt
      exact ⟨(d', low', high'), ⟨hburst, hpasses⟩, hflipped⟩
  exact ⟨fun d' low' high' h => h.crc16_eq_iff, hbij, hbij.ncard_eq.trans (ncard_unseen _)⟩

/-- The last bit of the message with bits 2, 7 and 11 of the trailer. -/
theorem seamBurst_last_bit : SeamBurst [0x00] [0x01] 0x21 0x10 where
  length_eq := rfl
  touches := ⟨10, by decide, by decide⟩
  within := ⟨7, by
    intro i hi
    have hlt := hi.lt (by decide)
    have hall : ∀ i < 24, DifferAt ([0x00] ++ trailer (crc16 [0x00])) ([0x01] ++ [0x21, 0x10]) i →
        7 ≤ i ∧ i < 7 + 16 := by decide
    exact hall i hlt hi⟩

/-- The generator's own bits, in the trailer's order of bytes, make up for the last bit of
the message. -/
theorem crc16_eq_last_bit : ¬ ∀ d d' low' high', d ≠ [] → SeamBurst d d' low' high' →
    crc16 d' ≠ crcRx low' high' := by
  intro h
  exact h [0x00] [0x01] 0x21 0x10 (by decide) seamBurst_last_bit (by decide)

/-- Its number is the first on the list. -/
theorem crc16_eq_iff_of_burst_last_bit :
    crc16 [0x01] = crcRx 0x21 0x10 ↔ flipped [0x00] [0x01] 0x21 0x10 ∈ unseen :=
  (crc16_eq_iff_of_burst [0x00]).1 [0x01] 0x21 0x10 seamBurst_last_bit

end DPFlow.Dploader
