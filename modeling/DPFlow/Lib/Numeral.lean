import Mathlib.Data.Nat.Digits.Lemmas

/-!
# Numerals

Numbers are written in a base, the highest digit first, with zeros in front up to a width. The
zeros change nothing, so a numeral tells its number whatever the width is; and it tells the width
only as far as the digits do not fill it.

## Main definitions

* `Numerals α` — a base, and a symbol for each digit.
* `Numerals.padded` — the numeral of a number, of a width at least.
-/
namespace DPFlow.Lib

universe u

/-- A text is cut in one way where its first symbol without some property is. -/
theorem append_cons_inj_of_forall {α : Type u} {p : α → Prop} {s t rest rest' : List α} {x y : α}
    (hs : ∀ c ∈ s, p c) (ht : ∀ c ∈ t, p c) (hx : ¬ p x) (hy : ¬ p y) :
    s ++ x :: rest = t ++ y :: rest' ↔ s = t ∧ x = y ∧ rest = rest' := by
  constructor
  · intro h
    induction s generalizing t with
    | nil =>
        cases t with
        | nil => exact ⟨rfl, List.cons.inj h⟩
        | cons d t => exact absurd ((List.cons.inj h).1 ▸ ht d List.mem_cons_self) hx
    | cons c s ih =>
        cases t with
        | nil => exact absurd ((List.cons.inj h).1 ▸ hs c List.mem_cons_self) hy
        | cons d t =>
            obtain ⟨rfl, hrest⟩ := List.cons.inj h
            obtain ⟨rfl, hxy⟩ := ih (fun e he => hs e (List.mem_cons_of_mem c he))
              (fun e he => ht e (List.mem_cons_of_mem c he)) hrest
            exact ⟨rfl, hxy⟩
  · rintro ⟨rfl, rfl, rfl⟩
    rfl

/-- A base, and a symbol for each of its digits. -/
structure Numerals (α : Type u) where
  base : ℕ
  digit : ℕ → α
  one_lt : 1 < base
  injOn : ∀ {m n}, m < base → n < base → digit m = digit n → m = n

namespace Numerals
variable {α : Type u} (N : Numerals α)

/-- The numeral, of the width given or longer. -/
def padded (width n : ℕ) : List α := (Nat.digitsAppend N.base width n).reverse.map N.digit

theorem length_padded (width n : ℕ) :
    (N.padded width n).length = max width (Nat.digits N.base n).length := by
  rw [padded, Nat.digitsAppend, List.length_map, List.length_reverse, List.length_append,
    List.length_replicate]
  omega

/-- What a numeral is made of. -/
theorem exists_of_mem_padded {width n : ℕ} {c : α} (hc : c ∈ N.padded width n) :
    ∃ d, d < N.base ∧ N.digit d = c := by
  obtain ⟨d, hd, rfl⟩ := List.mem_map.mp hc
  exact ⟨d, Nat.lt_of_mem_digitsAppend N.one_lt width d (List.mem_reverse.mp hd), rfl⟩

theorem map_digit_inj {s t : List ℕ} (hs : ∀ d ∈ s, d < N.base) (ht : ∀ d ∈ t, d < N.base)
    (h : s.map N.digit = t.map N.digit) : s = t := by
  induction s generalizing t with
  | nil => exact (List.map_eq_nil_iff.mp h.symm).symm
  | cons d s ih =>
      cases t with
      | nil => cases h
      | cons e t =>
          obtain ⟨hde, hrest⟩ := List.cons.inj h
          rw [N.injOn (hs d List.mem_cons_self) (ht e List.mem_cons_self) hde,
            ih (fun x hx => hs x (List.mem_cons_of_mem d hx))
              (fun x hx => ht x (List.mem_cons_of_mem e hx)) hrest]

/-- A numeral tells its number. -/
theorem eq_of_padded_eq {v w m n : ℕ} (h : N.padded v m = N.padded w n) : m = n := by
  have hlt : ∀ width n, ∀ d ∈ (Nat.digitsAppend N.base width n).reverse, d < N.base :=
    fun width n d hd => Nat.lt_of_mem_digitsAppend N.one_lt width d (List.mem_reverse.mp hd)
  have hdigits : Nat.digitsAppend N.base v m = Nat.digitsAppend N.base w n :=
    List.reverse_injective (N.map_digit_inj (hlt v m) (hlt w n) h)
  have hvalue : ∀ width n, Nat.ofDigits N.base (Nat.digitsAppend N.base width n) = n :=
    fun width n => by
      rw [Nat.digitsAppend, Nat.ofDigits_append_replicate_zero, Nat.ofDigits_digits]
  rw [← hvalue v m, hdigits, hvalue]

/-- It tells which of two widths it was given, unless the digits are as many as the greater. -/
theorem padded_eq_iff_of_lt {v w n : ℕ} (hvw : v < w) :
    N.padded v n = N.padded w n ↔ N.base ^ (w - 1) ≤ n := by
  rw [← Nat.lt_digits_length_iff N.one_lt]
  constructor
  · intro h
    have hlength := congrArg List.length h
    rw [length_padded, length_padded] at hlength
    omega
  · intro h
    rw [padded, padded, Nat.digitsAppend, Nat.digitsAppend, Nat.sub_eq_zero_of_le (by omega),
      Nat.sub_eq_zero_of_le (by omega)]

end Numerals
end DPFlow.Lib
