import Mathlib.Algebra.Field.ZMod
import Mathlib.Algebra.Polynomial.FieldDivision
import Mathlib.Data.List.GetD
import Mathlib.RingTheory.AdjoinRoot
import Mathlib.Tactic.LinearCombination

/-!
# Words and bit strings as polynomials over GF(2)

Bit `k` of a word is the coefficient of `X ^ k`; a bit string is read with its first
bit as the highest power. A shift register of width `w` with feedback word `g` works
modulo `X ^ w + g`: shifting is multiplication by `X` there. Everything is stated in
the quotient ring, where a word is determined by its class, so that congruences
become equations.

## Main definitions

* `wordPoly`, `bitsPoly` — the polynomial of a word, and of a bit string.
* `modulus g` — `X ^ w` plus the feedback word.
* `residue g a` — the class of a word modulo `modulus g`.
* `mulX`, `mul`, `powX` — multiplication by `X`, multiplication, and powers of `X`,
  on words.
-/
namespace DPFlow.Lib.Gf2

open Polynomial
variable {w : ℕ}

/-! ## Polynomials of words -/

/-- The coefficient a bit stands for. -/
def coeffOf (b : Bool) : ZMod 2 := if b then 1 else 0

theorem coeffOf_xor (a b : Bool) : coeffOf (a ^^ b) = coeffOf a + coeffOf b := by
  cases a <;> cases b <;> decide

theorem coeffOf_injective : Function.Injective coeffOf := by decide

/-- Bit `k` of a word is the coefficient of `X ^ k`. -/
noncomputable def wordPoly (a : BitVec w) : (ZMod 2)[X] :=
  ∑ k ∈ Finset.range w, if a.getLsbD k then X ^ k else 0

@[simp] theorem coeff_wordPoly (a : BitVec w) (n : ℕ) :
    (wordPoly a).coeff n = coeffOf (a.getLsbD n) := by
  have hterm : ∀ k, (if a.getLsbD k then (X ^ k : (ZMod 2)[X]) else 0).coeff n =
      if n = k then coeffOf (a.getLsbD n) else 0 := by
    intro k
    by_cases hk : n = k
    · subst hk
      cases h : a.getLsbD n <;> simp [coeffOf]
    · cases h : a.getLsbD k <;> simp [coeff_X_pow, hk]
  simp only [wordPoly, finsetSum_coeff, hterm, Finset.sum_ite_eq, Finset.mem_range]
  by_cases hn : n < w
  · simp [hn]
  · simp [hn, BitVec.getLsbD_of_ge a n (by omega), coeffOf]

theorem wordPoly_xor (a b : BitVec w) : wordPoly (a ^^^ b) = wordPoly a + wordPoly b := by
  ext n
  rw [coeff_add, coeff_wordPoly, coeff_wordPoly, coeff_wordPoly, BitVec.getLsbD_xor, coeffOf_xor]

@[simp] theorem wordPoly_zero : wordPoly (0#w) = 0 := by
  ext n
  simp [coeffOf]

theorem wordPoly_one (hw : 0 < w) : wordPoly (1 : BitVec w) = 1 := by
  ext n
  rw [coeff_wordPoly, coeff_one]
  by_cases hn : n = 0
  · subst hn; simp [hw, coeffOf]
  · simp [hn, coeffOf, BitVec.getLsbD_one]

theorem wordPoly_injective : Function.Injective (wordPoly : BitVec w → (ZMod 2)[X]) := by
  intro a b h
  apply BitVec.eq_of_getLsbD_eq
  intro n _
  apply coeffOf_injective
  rw [← coeff_wordPoly, ← coeff_wordPoly, h]

theorem degree_wordPoly_lt (a : BitVec w) : (wordPoly a).degree < w := by
  rw [degree_lt_iff_coeff_zero]
  intro n hn
  rw [coeff_wordPoly, BitVec.getLsbD_of_ge a n hn]
  rfl

/-- A narrower word moved up into a wider one. -/
theorem wordPoly_setWidth_shiftLeft {v : ℕ} (a : BitVec v) (k : ℕ) (h : v + k ≤ w) :
    wordPoly (a.setWidth w <<< k) = X ^ k * wordPoly a := by
  ext n
  rw [coeff_wordPoly, coeff_X_pow_mul', coeff_wordPoly, BitVec.getLsbD_shiftLeft,
    BitVec.getLsbD_setWidth]
  by_cases hk : k ≤ n
  · rw [if_pos hk]
    by_cases hn : n < w
    · simp [hn, show n - k < w by omega, show ¬ n < k by omega]
    · simp [hn, BitVec.getLsbD_of_ge a (n - k) (by omega)]
  · simp [hk, show n < k by omega, coeffOf]

/-- Two words side by side. -/
theorem wordPoly_append {v : ℕ} (a : BitVec w) (b : BitVec v) :
    wordPoly (a ++ b) = X ^ v * wordPoly a + wordPoly b := by
  ext n
  rw [coeff_wordPoly, coeff_add, coeff_X_pow_mul', coeff_wordPoly, coeff_wordPoly,
    BitVec.getLsbD_append]
  by_cases hn : n < v
  · simp [hn, show ¬ v ≤ n by omega]
  · simp [hn, show v ≤ n by omega, coeffOf]

/-- Every polynomial of low degree is that of a word. -/
theorem exists_wordPoly_eq {p : (ZMod 2)[X]} (h : p.degree < w) :
    ∃ a : BitVec w, wordPoly a = p := by
  have hbit : ∀ c : ZMod 2, coeffOf (decide (c = 1)) = c := by decide
  refine ⟨(BitVec.iunfoldr (fun k _ => ((), decide (p.coeff k = 1))) ()).2, ?_⟩
  ext n
  rw [coeff_wordPoly]
  by_cases hn : n < w
  · rw [BitVec.iunfoldr_getLsbD (fun _ => ()) ⟨n, hn⟩ (fun _ => rfl), hbit]
  · rw [BitVec.getLsbD_of_ge _ n (by omega), coeff_eq_zero_of_degree_lt
      (lt_of_lt_of_le h (by exact_mod_cast not_lt.mp hn))]
    rfl

/-! ## Polynomials of bit strings -/

/-- The first bit of a string is its highest power. -/
noncomputable def bitsPoly : List Bool → (ZMod 2)[X]
  | [] => 0
  | b :: l => (if b then X ^ l.length else 0) + bitsPoly l

theorem bitsPoly_append (l l' : List Bool) :
    bitsPoly (l ++ l') = bitsPoly l * X ^ l'.length + bitsPoly l' := by
  induction l with
  | nil => simp [bitsPoly]
  | cons b l ih =>
      rw [List.cons_append, bitsPoly, bitsPoly, ih, List.length_append]
      cases b
      · simp
      · simp only [if_true]; ring

/-- The last bit of a string is the constant coefficient. -/
theorem coeff_bitsPoly (l : List Bool) (n : ℕ) :
    (bitsPoly l).coeff n = coeffOf (l.reverse.getD n false) := by
  induction l with
  | nil => simp [bitsPoly, coeffOf]
  | cons b l ih =>
      have hhead : (if b then (X ^ l.length : (ZMod 2)[X]) else 0).coeff n =
          if n = l.length then coeffOf b else 0 := by
        cases b <;> simp [coeff_X_pow, coeffOf]
      rw [bitsPoly, coeff_add, ih, hhead, List.reverse_cons]
      rcases lt_trichotomy n l.length with h | h | h
      · rw [if_neg (by omega), zero_add, List.getD_append _ _ _ _ (by simpa using h)]
      · subst h
        simp [coeffOf]
      · rw [if_neg (by omega), zero_add, List.getD_eq_default _ _ (by simp; omega),
          List.getD_eq_default _ _ (by simp; omega)]

/-- At one, a bit string counts its set bits. -/
theorem eval_one_bitsPoly (l : List Bool) : (bitsPoly l).eval 1 = (l.count true : ZMod 2) := by
  induction l with
  | nil => simp [bitsPoly]
  | cons b l ih =>
      rw [bitsPoly, eval_add, ih]
      cases b
      · simp
      · simp [add_comm]

/-- Adding up bit strings of one length is bitwise exclusive or. -/
theorem bitsPoly_zipWith_xor (l l' : List Bool) (h : l.length = l'.length) :
    bitsPoly (List.zipWith (· ^^ ·) l l') = bitsPoly l + bitsPoly l' := by
  induction l generalizing l' with
  | nil => simp [List.length_eq_zero_iff.mp h.symm, bitsPoly]
  | cons b l ih =>
      obtain ⟨b', l', rfl⟩ := List.exists_cons_of_length_eq_add_one h.symm
      have hl : l.length = l'.length := by simpa using h
      have hself : ∀ p : (ZMod 2)[X], p + p = 0 := CharTwo.add_self_eq_zero
      rw [List.zipWith_cons_cons, bitsPoly, bitsPoly, bitsPoly, ih l' hl, List.length_zipWith, hl]
      cases b <;> cases b' <;> simp
      · ring
      · ring
      · linear_combination -hself (X ^ l'.length)

/-- The bits of a word, most significant first. -/
def msbBits (a : BitVec w) : List Bool := (List.range w).map a.getMsbD

@[simp] theorem length_msbBits (a : BitVec w) : (msbBits a).length = w := by simp [msbBits]

/-- Read as a bit string, a word keeps its polynomial. -/
theorem bitsPoly_msbBits (a : BitVec w) : bitsPoly (msbBits a) = wordPoly a := by
  ext n
  rw [coeff_bitsPoly, coeff_wordPoly]
  by_cases hn : n < w
  · rw [List.getD_eq_getElem _ _ (by simpa using hn), List.getElem_reverse]
    simp [msbBits, BitVec.getMsbD, show w - 1 - n < w by omega,
      show w - 1 - (w - 1 - n) = n by omega]
  · rw [List.getD_eq_default _ _ (by simpa using hn), BitVec.getLsbD_of_ge a n (by omega)]

theorem msbBits_injective : Function.Injective (msbBits : BitVec w → List Bool) := by
  intro a b h
  apply wordPoly_injective
  rw [← bitsPoly_msbBits, ← bitsPoly_msbBits, h]

/-- A bit string as a number, the first bit highest. -/
def bitsNat (l : List Bool) : ℕ := l.foldl (fun n b => 2 * n + b.toNat) 0

theorem testBit_bitsNat (l : List Bool) (n : ℕ) :
    (bitsNat l).testBit n = l.reverse.getD n false := by
  induction l using List.reverseRecOn generalizing n with
  | nil => simp [bitsNat]
  | append_singleton l b ih =>
      have hlast : bitsNat (l ++ [b]) = Nat.bit b (bitsNat l) := by
        rw [bitsNat, List.foldl_append, List.foldl_cons, List.foldl_nil, Nat.bit_val]
        rfl
      rw [hlast, List.reverse_append]
      cases n with
      | zero => simp
      | succ n => simpa [Nat.testBit_bit_succ] using ih n

theorem bitsNat_lt (l : List Bool) : bitsNat l < 2 ^ l.length := by
  apply Nat.lt_pow_two_of_testBit
  intro n hn
  rw [testBit_bitsNat, List.getD_eq_default _ _ (by simpa using hn)]

/-- Bit strings of one length are told apart by their numbers. -/
theorem eq_of_bitsNat_eq {l l' : List Bool} (hlen : l.length = l'.length)
    (h : bitsNat l = bitsNat l') : l = l' := by
  apply List.reverse_injective
  apply List.ext_getElem (by simp [hlen])
  intro n hn hn'
  have hbit := congrArg (Nat.testBit · n) h
  simp only [testBit_bitsNat] at hbit
  rwa [List.getD_eq_getElem _ _ hn, List.getD_eq_getElem _ _ hn'] at hbit

/-- Leading zeros do not count. -/
theorem bitsNat_replicate_append (n : ℕ) (l : List Bool) :
    bitsNat (List.replicate n false ++ l) = bitsNat l := by
  induction n with
  | zero => rfl
  | succ n ih => exact ih

/-- A bit string with the polynomial of a word is that word as a number. -/
theorem bitsNat_eq_toNat {a : BitVec w} {l : List Bool} (h : bitsPoly l = wordPoly a) :
    bitsNat l = a.toNat := by
  apply Nat.eq_of_testBit_eq
  intro n
  apply coeffOf_injective
  rw [testBit_bitsNat, ← coeff_bitsPoly, h, coeff_wordPoly, BitVec.testBit_toNat]

/-! ## The feedback shift register -/

/-- Shift up by one, with the feedback word when a bit falls out at the top. -/
def mulX (g a : BitVec w) : BitVec w := if a.msb then a <<< 1 ^^^ g else a <<< 1

/-- The register's modulus. -/
noncomputable def modulus (g : BitVec w) : (ZMod 2)[X] := X ^ w + wordPoly g

theorem modulus_monic (g : BitVec w) : (modulus g).Monic :=
  monic_X_pow_add (degree_wordPoly_lt g)

theorem degree_modulus (g : BitVec w) : (modulus g).degree = w :=
  (degree_add_eq_left_of_degree_lt (by simpa using degree_wordPoly_lt g)).trans (degree_X_pow w)

/-- The class of a word modulo the register's modulus. -/
noncomputable def residue (g a : BitVec w) : AdjoinRoot (modulus g) :=
  AdjoinRoot.mk (modulus g) (wordPoly a)

/-- A word is the remainder of every polynomial in its class. -/
theorem wordPoly_eq_mod {g a : BitVec w} {p : (ZMod 2)[X]}
    (h : residue g a = AdjoinRoot.mk (modulus g) p) :
    wordPoly a = p % modulus g := by
  have hself : wordPoly a %ₘ modulus g = wordPoly a := by
    rw [modByMonic_eq_self_iff (modulus_monic g), degree_modulus]
    exact degree_wordPoly_lt a
  rw [← modByMonic_eq_mod _ (modulus_monic g), ← hself]
  exact modByMonic_eq_of_dvd_sub (modulus_monic g) (AdjoinRoot.mk_eq_mk.mp h)

theorem residue_injective (g : BitVec w) : Function.Injective (residue g) := by
  intro a b h
  apply wordPoly_injective
  have hb : wordPoly b = wordPoly b % modulus g := wordPoly_eq_mod rfl
  rw [wordPoly_eq_mod h, ← hb]

@[simp] theorem residue_xor (g a b : BitVec w) :
    residue g (a ^^^ b) = residue g a + residue g b := by
  rw [residue, wordPoly_xor, map_add]
  rfl

/-- A modulus with an even number of terms keeps the parity of what it reduces. -/
theorem eval_one_eq_of_residue_eq {g a : BitVec w} {p : (ZMod 2)[X]}
    (hg : (modulus g).eval 1 = 0) (h : residue g a = AdjoinRoot.mk (modulus g) p) :
    (wordPoly a).eval 1 = p.eval 1 := by
  obtain ⟨q, hq⟩ := AdjoinRoot.mk_eq_mk.mp h
  have heval : (wordPoly a - p).eval 1 = 0 := by rw [hq, eval_mul, hg, zero_mul]
  rwa [eval_sub, sub_eq_zero] at heval

/-- The top bit is what a shift pushes out. -/
theorem wordPoly_shiftLeft_one (a : BitVec w) :
    wordPoly (a <<< 1) + (if a.msb then X ^ w else 0) = X * wordPoly a := by
  ext n
  have htop : (if a.msb then (X ^ w : (ZMod 2)[X]) else 0).coeff n =
      if n = w then coeffOf a.msb else 0 := by
    cases h : a.msb <;> simp [coeff_X_pow, coeffOf]
  rw [coeff_add, htop, coeff_wordPoly, BitVec.getLsbD_shiftLeft]
  cases n with
  | zero =>
      by_cases hw : 0 = w
      · subst hw
        simp [BitVec.eq_nil a, coeffOf]
      · simp [hw, coeffOf]
  | succ n =>
      rw [coeff_X_mul, coeff_wordPoly]
      rcases lt_trichotomy (n + 1) w with h | h | h
      · simp [h, h.ne]
      · subst h
        simp [BitVec.msb_eq_getLsbD_last, coeffOf]
      · simp [h.ne', show ¬ n + 1 < w by omega, BitVec.getLsbD_of_ge a n (by omega), coeffOf]

/-- **Shifting the register multiplies by `X`.** -/
@[simp] theorem residue_mulX (g a : BitVec w) :
    residue g (mulX g a) = AdjoinRoot.root (modulus g) * residue g a := by
  have hshift := wordPoly_shiftLeft_one a
  have hclass : AdjoinRoot.mk (modulus g) (wordPoly (mulX g a)) =
      AdjoinRoot.mk (modulus g) (X * wordPoly a) := by
    rw [AdjoinRoot.mk_eq_mk]
    cases h : a.msb
    · simp [mulX, h, ← hshift]
    · refine ⟨1, ?_⟩
      have hself : wordPoly (a <<< 1) + wordPoly (a <<< 1) = 0 := CharTwo.add_self_eq_zero _
      have htop : (X ^ w : (ZMod 2)[X]) + X ^ w = 0 := CharTwo.add_self_eq_zero _
      simp only [mulX, h, if_true, wordPoly_xor, ← hshift, modulus]
      linear_combination -htop
  rw [residue, hclass, map_mul, AdjoinRoot.mk_X]
  rfl

/-- Shifting `n` times multiplies by `X ^ n`. -/
theorem residue_iterate_mulX (g a : BitVec w) (n : ℕ) :
    residue g ((mulX g)^[n] a) = AdjoinRoot.root (modulus g) ^ n * residue g a := by
  induction n with
  | zero => simp
  | succ n ih => rw [Function.iterate_succ_apply', residue_mulX, ih, pow_succ']; ring

/-! ## Multiplication and powers of `X` -/

/-- The product with the `k` highest bits of `b`, by Horner's rule. -/
def mulTop (g a b : BitVec w) : ℕ → BitVec w
  | 0 => 0
  | k + 1 => if b.getMsbD k then mulX g (mulTop g a b k) ^^^ a else mulX g (mulTop g a b k)

/-- The product of two words modulo the register's modulus. -/
def mul (g a b : BitVec w) : BitVec w := mulTop g a b w

theorem residue_mulTop (g a b : BitVec w) (k : ℕ) (hk : k ≤ w) :
    residue g (mulTop g a b k) =
      AdjoinRoot.mk (modulus g) (bitsPoly ((msbBits b).take k)) * residue g a := by
  induction k with
  | zero => simp [mulTop, residue, bitsPoly]
  | succ k ih =>
      have htake : (msbBits b).take (k + 1) = (msbBits b).take k ++ [b.getMsbD k] := by
        rw [List.take_add_one, List.getElem?_eq_getElem (by simpa using hk)]
        simp [msbBits]
      have hbits : AdjoinRoot.mk (modulus g) (bitsPoly ((msbBits b).take (k + 1))) =
          AdjoinRoot.mk (modulus g) (bitsPoly ((msbBits b).take k)) * AdjoinRoot.root (modulus g) +
            (if b.getMsbD k then 1 else 0) := by
        rw [htake, bitsPoly_append]
        cases b.getMsbD k <;> simp [bitsPoly]
      rw [hbits, mulTop]
      split
      · rw [residue_xor, residue_mulX, ih (by omega)]; ring
      · rw [residue_mulX, ih (by omega)]; ring

@[simp] theorem residue_mul (g a b : BitVec w) :
    residue g (mul g a b) = residue g b * residue g a := by
  have hall : (msbBits b).take w = msbBits b := List.take_of_length_le (by simp)
  rw [mul, residue_mulTop g a b w le_rfl, hall, bitsPoly_msbBits]
  rfl

/-- `X` to the power with these binary digits, highest first, by repeated squaring. -/
def powX (g : BitVec w) (digits : List Bool) : BitVec w :=
  digits.foldl (fun a b => if b then mulX g (mul g a a) else mul g a a) 1

theorem residue_powX (hw : 0 < w) (g : BitVec w) (digits : List Bool) :
    residue g (powX g digits) =
      AdjoinRoot.root (modulus g) ^ digits.foldl (fun n b => 2 * n + b.toNat) 0 := by
  have hloop : ∀ (a : BitVec w) (n : ℕ), residue g a = AdjoinRoot.root (modulus g) ^ n →
      residue g (digits.foldl (fun a b => if b then mulX g (mul g a a) else mul g a a) a) =
        AdjoinRoot.root (modulus g) ^ digits.foldl (fun n b => 2 * n + b.toNat) n := by
    induction digits with
    | nil => intro a n h; exact h
    | cons b digits ih =>
        intro a n h
        refine ih _ _ ?_
        cases b
        · simp [h, pow_mul', pow_two]
        · simp [h, pow_succ', pow_mul']
  exact hloop 1 0 (by rw [residue, wordPoly_one hw]; simp)

/-! ## Error patterns the modulus does not divide -/

/-- With a constant term, the modulus shares no factor with a power of `X`. -/
theorem dvd_of_dvd_X_pow_mul {g : BitVec w} (hg : g.getLsbD 0 = true) {k : ℕ} {p : (ZMod 2)[X]}
    (h : modulus g ∣ X ^ k * p) : modulus g ∣ p := by
  have hw : 0 < w := by
    by_contra hw
    simp [BitVec.getLsbD_of_ge g 0 (by omega)] at hg
  have hX : ¬ X ∣ modulus g := by
    rw [X_dvd_iff, modulus, coeff_add, coeff_wordPoly, hg, coeff_X_pow, if_neg (by omega)]
    decide
  have hcoprime : IsCoprime X (modulus g) := (irreducible_X.coprime_iff_not_dvd).mpr hX
  exact (hcoprime.pow_left (m := k)).symm.dvd_of_dvd_mul_left h

/-- The bit at position `i` of a string of length `m` has exponent `m - 1 - i`. -/
theorem coeff_bitsPoly_getD (l : List Bool) (n : ℕ) :
    (bitsPoly l).coeff n = coeffOf (decide (n < l.length) && l.getD (l.length - 1 - n) false) := by
  rw [coeff_bitsPoly]
  by_cases hn : n < l.length
  · rw [List.getD_eq_getElem _ _ (by simpa using hn), List.getElem_reverse,
      List.getD_eq_getElem l _ (by omega)]
    simp [hn]
  · rw [List.getD_eq_default _ _ (by simpa using hn)]
    simp [hn]

/-- **A burst is no multiple of the modulus**: set bits that all lie within as many
consecutive positions as the register is wide. -/
theorem not_dvd_of_burst {g : BitVec w} (hg : g.getLsbD 0 = true) {e : List Bool} {a : ℕ}
    (hburst : ∀ i, e.getD i false = true → a ≤ i ∧ i < a + w) (hne : ∃ i, e.getD i false = true) :
    ¬ modulus g ∣ bitsPoly e := by
  intro hdvd
  set k := e.length - (a + w) with hk
  have hrange : ∀ n, (bitsPoly e).coeff n ≠ 0 → k ≤ n ∧ n < k + w := by
    intro n hn
    rw [coeff_bitsPoly_getD] at hn
    have hbit : (decide (n < e.length) && e.getD (e.length - 1 - n) false) = true := by
      by_contra hfalse
      exact hn (by rw [Bool.not_eq_true _ |>.mp hfalse]; rfl)
    rw [Bool.and_eq_true, decide_eq_true_eq] at hbit
    have := hburst _ hbit.2
    omega
  obtain ⟨B, hB⟩ : X ^ k ∣ bitsPoly e := by
    rw [X_pow_dvd_iff]
    intro n hn
    by_contra h
    have := hrange n h
    omega
  have hdeg : B.degree < (modulus g).degree := by
    rw [degree_modulus, degree_lt_iff_coeff_zero]
    intro n hn
    by_contra h
    have hcoeff : (bitsPoly e).coeff (n + k) = B.coeff n := by rw [hB, coeff_X_pow_mul]
    have := hrange (n + k) (by rwa [hcoeff])
    omega
  have hzero : B = 0 := eq_zero_of_dvd_of_degree_lt (dvd_of_dvd_X_pow_mul hg (hB ▸ hdvd)) hdeg
  obtain ⟨i, hi⟩ := hne
  have hlen : i < e.length := by
    by_contra h
    rw [List.getD_eq_default _ _ (by omega)] at hi
    exact absurd hi (by decide)
  have hcoeff : (bitsPoly e).coeff (e.length - 1 - i) = 1 := by
    rw [coeff_bitsPoly_getD, show e.length - 1 - (e.length - 1 - i) = i by omega, hi]
    simp [coeffOf, show e.length - 1 - i < e.length by omega]
  rw [hB, hzero, mul_zero, coeff_zero] at hcoeff
  exact absurd hcoeff (by decide)

/-- **A double error is no multiple of the modulus** while its two positions are
closer than the multiplicative order of `X`. -/
theorem not_dvd_of_pair {g : BitVec w} (hg : g.getLsbD 0 = true) {e : List Bool} {i j : ℕ}
    (hij : i < j) (hpair : ∀ k, e.getD k false = true ↔ k = i ∨ k = j)
    (horder : j - i < orderOf (AdjoinRoot.root (modulus g))) : ¬ modulus g ∣ bitsPoly e := by
  intro hdvd
  have hj : j < e.length := by
    by_contra h
    have hset := (hpair j).mpr (Or.inr rfl)
    rw [List.getD_eq_default _ _ (by omega)] at hset
    exact absurd hset (by decide)
  have hE : bitsPoly e = X ^ (e.length - 1 - j) * (X ^ (j - i) + 1) := by
    have hexp : e.length - 1 - i = e.length - 1 - j + (j - i) := by omega
    rw [mul_add, ← pow_add, mul_one, ← hexp]
    ext n
    have hbit : e.getD (e.length - 1 - n) false =
        decide (e.length - 1 - n = i ∨ e.length - 1 - n = j) := by
      rw [Bool.eq_iff_iff, hpair, decide_eq_true_eq]
    rw [coeff_bitsPoly_getD, coeff_add, coeff_X_pow, coeff_X_pow, hbit]
    by_cases hi : n = e.length - 1 - i
    · have hset : n < e.length ∧ e.length - 1 - n = i ∧ n ≠ e.length - 1 - j := by omega
      simp [hset, coeffOf, ← hi]
    · by_cases hj' : n = e.length - 1 - j
      · have hset : n < e.length ∧ e.length - 1 - n = j := by omega
        simp [hset, coeffOf, ← hj', hi]
      · have hclear : ¬ (n < e.length ∧ (e.length - 1 - n = i ∨ e.length - 1 - n = j)) := by omega
        rw [← Bool.decide_and, decide_eq_false hclear, if_neg hi, if_neg hj']
        rfl
  have hone : modulus g ∣ X ^ (j - i) + 1 := dvd_of_dvd_X_pow_mul hg (hE ▸ hdvd)
  have hpow : AdjoinRoot.root (modulus g) ^ (j - i) = 1 := by
    rw [← AdjoinRoot.mk_X, ← map_pow, ← map_one (AdjoinRoot.mk (modulus g)), AdjoinRoot.mk_eq_mk,
      CharTwo.sub_eq_add]
    exact hone
  exact absurd (orderOf_le_of_pow_eq_one (by omega) hpow) (by omega)

/-! ## The weights of multiples -/

/-- The place of the only set bit. -/
theorem exists_of_count_eq_one {e : List Bool} (h : e.count true = 1) :
    ∃ i, ∀ k, e.getD k false = true ↔ k = i := by
  induction e with
  | nil => simp at h
  | cons b e ih =>
      cases b with
      | false =>
          rw [List.count_cons_of_ne (by decide)] at h
          obtain ⟨i, hi⟩ := ih h
          refine ⟨i + 1, ?_⟩
          intro k
          cases k with
          | zero => simp
          | succ k => simpa using hi k
      | true =>
          rw [List.count_cons_self, Nat.add_eq_right, List.count_eq_zero] at h
          refine ⟨0, ?_⟩
          intro k
          cases k with
          | zero => simp
          | succ k =>
              rw [List.getD_cons_succ]
              simp only [Nat.add_eq_zero_iff, one_ne_zero, and_false, iff_false]
              intro hk
              by_cases hlt : k < e.length
              · rw [List.getD_eq_getElem _ _ hlt] at hk
                exact h (hk ▸ List.getElem_mem hlt)
              · rw [List.getD_eq_default _ _ (not_lt.mp hlt)] at hk
                cases hk

/-- The places of the only two set bits. -/
theorem exists_of_count_eq_two {e : List Bool} (h : e.count true = 2) :
    ∃ i j, i < j ∧ ∀ k, e.getD k false = true ↔ k = i ∨ k = j := by
  induction e with
  | nil => simp at h
  | cons b e ih =>
      cases b with
      | false =>
          rw [List.count_cons_of_ne (by decide)] at h
          obtain ⟨i, j, hij, hk⟩ := ih h
          refine ⟨i + 1, j + 1, Nat.succ_lt_succ hij, ?_⟩
          intro k
          cases k with
          | zero => simp
          | succ k => simpa using hk k
      | true =>
          rw [List.count_cons_self] at h
          obtain ⟨j, hj⟩ := exists_of_count_eq_one (e := e) (by omega)
          refine ⟨0, j + 1, Nat.succ_pos j, ?_⟩
          intro k
          cases k with
          | zero => simp
          | succ k => simpa using hj k

/-- A multiple of a modulus with an even number of terms has an even number of set bits. -/
theorem even_count_of_dvd {g : BitVec w} (hg : (modulus g).eval 1 = 0) {e : List Bool}
    (h : modulus g ∣ bitsPoly e) : Even (e.count true) := by
  obtain ⟨q, hq⟩ := h
  rw [← ZMod.natCast_eq_zero_iff_even, ← eval_one_bitsPoly, hq, eval_mul, hg, zero_mul]

/-- **Light multiples.** No string as short as the order of `X` has one, two or three set bits
and is a multiple of a modulus with a constant term and an even number of terms. -/
theorem four_le_count_of_dvd {g : BitVec w} (hg : g.getLsbD 0 = true)
    (heven : (modulus g).eval 1 = 0) {e : List Bool} (h : modulus g ∣ bitsPoly e)
    (hset : 0 < e.count true)
    (hlen : e.length ≤ orderOf (AdjoinRoot.root (modulus g))) : 4 ≤ e.count true := by
  obtain ⟨m, hm⟩ := even_count_of_dvd heven h
  by_contra hlight
  have htwo : e.count true = 2 := by omega
  obtain ⟨i, j, hij, hpair⟩ := exists_of_count_eq_two htwo
  have hj : j < e.length := by
    by_contra hge
    have hbit := (hpair j).mpr (Or.inr rfl)
    rw [List.getD_eq_default _ _ (not_lt.mp hge)] at hbit
    cases hbit
  exact not_dvd_of_pair hg hij hpair (by omega) h

/-- Two set bits as far apart as the order of `X` are a multiple of the modulus. -/
theorem dvd_X_pow_orderOf_add_one (g : BitVec w) :
    modulus g ∣ X ^ orderOf (AdjoinRoot.root (modulus g)) + 1 := by
  have hone := pow_orderOf_eq_one (AdjoinRoot.root (modulus g))
  rw [← AdjoinRoot.mk_X, ← map_pow, ← map_one (AdjoinRoot.mk (modulus g)), AdjoinRoot.mk_eq_mk,
    CharTwo.sub_eq_add, AdjoinRoot.mk_X] at hone
  exact hone

end DPFlow.Lib.Gf2
