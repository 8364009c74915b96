import Mathlib.Data.BitVec
import Mathlib.Data.Nat.Digits.Defs

/-!
# Words that pack a field under flags, and their bytes

A header word often keeps a number in its low bits and single-bit flags above it.
Masking takes the two apart again, whatever the widths. The bytes of a word come
least significant first, and give the word back.

## Main results

* `setWidth_or_and_field` — the field mask gives the field back.
* `setWidth_or_and_flag` — a mask above the field only sees the flags.
* `ofLeBytes_leBytes`, `leBytes_ofLeBytes` — a word is its bytes, and bytes are a word.
-/
namespace DPFlow.Lib

variable {n w : ℕ}

/-! ## A field under flags -/

/-- A mask that has every bit of the field leaves it alone. -/
theorem setWidth_and_of_low (x : BitVec n) {m : BitVec w}
    (hm : ∀ i < n, i < w → m.getLsbD i = true) : x.setWidth w &&& m = x.setWidth w := by
  ext i hi
  rw [BitVec.getElem_and, BitVec.getElem_setWidth]
  by_cases h : i < n
  · rw [← BitVec.getLsbD_eq_getElem hi, hm i h hi, Bool.and_true]
  · rw [BitVec.getLsbD_of_ge x i (by omega), Bool.false_and]

/-- A word that fits a field is one. -/
theorem exists_setWidth {m : BitVec w} (h : n ≤ w) (hm : m.toNat < 2 ^ n) :
    ∃ x : BitVec n, m = x.setWidth w := by
  refine ⟨m.setWidth n, ?_⟩
  apply BitVec.eq_of_toNat_eq
  rw [BitVec.toNat_setWidth_of_le h, BitVec.toNat_setWidth, Nat.mod_eq_of_lt hm]

/-- A mask that has no bit of the field removes it. -/
theorem setWidth_and_of_high (x : BitVec n) {m : BitVec w}
    (hm : ∀ i < n, i < w → m.getLsbD i = false) : x.setWidth w &&& m = 0#w := by
  ext i hi
  rw [BitVec.getElem_and, BitVec.getElem_setWidth, BitVec.getElem_zero]
  by_cases h : i < n
  · rw [← BitVec.getLsbD_eq_getElem hi, hm i h hi, Bool.and_false]
  · rw [BitVec.getLsbD_of_ge x i (by omega), Bool.false_and]

/-- The field mask gives the field back. -/
theorem setWidth_or_and_field (x : BitVec n) {f m : BitVec w}
    (hm : ∀ i < n, i < w → m.getLsbD i = true) (hf : f &&& m = 0#w) :
    (x.setWidth w ||| f) &&& m = x.setWidth w := by
  rw [BitVec.and_comm, BitVec.and_or_distrib_left, BitVec.and_comm m, BitVec.and_comm m,
    setWidth_and_of_low x hm, hf, BitVec.or_zero]

/-- A mask above the field only sees the flags. -/
theorem setWidth_or_and_flag (x : BitVec n) {f g : BitVec w}
    (hg : ∀ i < n, i < w → g.getLsbD i = false) :
    (x.setWidth w ||| f) &&& g = f &&& g := by
  rw [BitVec.and_comm, BitVec.and_or_distrib_left, BitVec.and_comm g, BitVec.and_comm g,
    setWidth_and_of_high x hg, BitVec.zero_or]

/-! ## Bytes -/

/-- The lowest `k` bytes of a number, least significant first. -/
def leBytes : ℕ → ℕ → List UInt8
  | 0, _ => []
  | k + 1, x => UInt8.ofNat x :: leBytes k (x / 256)

/-- The number with the given bytes, least significant first. -/
def ofLeBytes (bs : List UInt8) : ℕ := Nat.ofDigits 256 (bs.map UInt8.toNat)

@[simp] theorem length_leBytes (k x : ℕ) : (leBytes k x).length = k := by
  induction k generalizing x with
  | zero => rfl
  | succ k ih => rw [leBytes, List.length_cons, ih]

/-- **A number below `256 ^ k` is its lowest `k` bytes.** -/
theorem ofLeBytes_leBytes {k x : ℕ} (hx : x < 256 ^ k) : ofLeBytes (leBytes k x) = x := by
  induction k generalizing x with
  | zero =>
      rw [pow_zero, Nat.lt_one_iff] at hx
      exact hx.symm
  | succ k ih =>
      have hdiv : x / 256 < 256 ^ k := by
        rw [Nat.div_lt_iff_lt_mul (by decide), ← pow_succ]
        exact hx
      have htail : Nat.ofDigits 256 ((leBytes k (x / 256)).map UInt8.toNat) = x / 256 := ih hdiv
      rw [ofLeBytes, leBytes, List.map_cons, Nat.ofDigits_cons, htail, UInt8.toNat_ofNat']
      exact Nat.mod_add_div x 256

theorem ofLeBytes_lt (bs : List UInt8) : ofLeBytes bs < 256 ^ bs.length := by
  have hdigit : ∀ x ∈ bs.map UInt8.toNat, x < 256 := by
    intro x hx
    obtain ⟨b, -, rfl⟩ := List.mem_map.mp hx
    exact b.toNat_lt
  have h := Nat.ofDigits_lt_base_pow_length (by decide : 1 < 256) hdigit
  rwa [List.length_map] at h

/-- **Bytes are those of their number.** -/
theorem leBytes_ofLeBytes (bs : List UInt8) : leBytes bs.length (ofLeBytes bs) = bs := by
  induction bs with
  | nil => rfl
  | cons b bs ih =>
      have hcons : ofLeBytes (b :: bs) = b.toNat + 256 * ofLeBytes bs := Nat.ofDigits_cons ..
      have hb := b.toNat_lt
      have hdiv : (b.toNat + 256 * ofLeBytes bs) / 256 = ofLeBytes bs := by omega
      have hmod : UInt8.ofNat (b.toNat + 256 * ofLeBytes bs) = b := by
        rw [← UInt8.toNat_inj, UInt8.toNat_ofNat']
        omega
      rw [List.length_cons, leBytes, hcons, hdiv, hmod, ih]

end DPFlow.Lib
