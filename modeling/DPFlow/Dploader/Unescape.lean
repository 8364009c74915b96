import DPFlow.Dploader.Escape

/-!
# Unescaping arbitrary bytes

`unescape` moves its iterator twice in a turn that finds a `DLE`, and looks for the end of
the vector once. A `DLE` introduces an escape when the ones right ahead of it pair off; if
the vector's last byte does, the loop steps over the end.

## Main definitions

* `introducesEscape` — the `DLE` bytes that are no data.
* `unescapeReads` — the positions that the loop dereferences.
* `Unescapes` — what `unescape` is to do with a vector.
-/
namespace DPFlow.Dploader

open Lib

/-- A byte, with what stands before it, is a `DLE` that introduces an escape. -/
def introducesEscape (x : List UInt8 × UInt8) : Bool :=
  decide (x.2 = DLE ∧ trailingDLE x.1 % 2 = 0)

/-- The vector with each escaping `DLE` dropped. -/
def withoutEscaping (data : List UInt8) : List UInt8 :=
  ((inContext [] data).filter fun x => !introducesEscape x).map Prod.snd

/-- The number of `DLE` bytes that introduce an escape. -/
def escapingCount (data : List UInt8) : ℕ := (inContext [] data).countP introducesEscape

/-- The positions that `unescapeLoop` dereferences, the iterator being at position `i`; a turn
reads twice. Behind a position that is not in the vector nothing is defined. -/
def unescapeReads (i : ℕ) : List UInt8 → List ℕ
  | [] => []
  | [b] => if b == DLE then [i, i + 1] else [i, i]
  | b :: c :: rest =>
      if b == DLE then i :: (i + 1) :: unescapeReads (i + 2) rest
      else i :: i :: unescapeReads (i + 1) (c :: rest)

/-- The loop stays in the vector and returns it with each escaping `DLE` dropped; so the
result is shorter by their number. -/
structure Unescapes (data : List UInt8) : Prop where
  inside : ∀ i ∈ unescapeReads 0 data, i < data.length
  returned : unescape data = some (withoutEscaping data)
  length : (withoutEscaping data).length = data.length - escapingCount data

/-- The loop has a result when it reads inside the vector only. -/
theorem unescapeLoop_isSome_iff (unescaped data : List UInt8) (i : ℕ) :
    (unescapeLoop unescaped data).isSome ↔ ∀ j ∈ unescapeReads i data, j < i + data.length := by
  induction unescaped, data using unescapeLoop.induct generalizing i with
  | case1 unescaped => simp [unescapeLoop, unescapeReads]
  | case2 unescaped b hb => simp [unescapeLoop, unescapeReads, hb]
  | case3 unescaped b hb => simp [unescapeLoop, unescapeReads, hb]
  | case4 unescaped b c rest hb ih =>
      have hlength : i + (b :: c :: rest).length = i + 2 + rest.length := by
        simp only [List.length_cons]
        omega
      rw [unescapeLoop, if_pos hb, unescapeReads, if_pos hb, ih (i + 2), hlength,
        List.forall_mem_cons, List.forall_mem_cons]
      constructor
      · exact fun h => ⟨by omega, by omega, h⟩
      · exact fun h => h.2.2
  | case5 unescaped b c rest hb ih =>
      have hlength : i + (b :: c :: rest).length = i + 1 + (c :: rest).length := by
        simp only [List.length_cons]
        omega
      rw [unescapeLoop, if_neg hb, unescapeReads, if_neg hb, ih (i + 1), hlength,
        List.forall_mem_cons, List.forall_mem_cons]
      constructor
      · exact fun h => ⟨by omega, by omega, h⟩
      · exact fun h => h.2.2

/-- What decoding the stuffing code says about the loop. -/
theorem unescape_eq_withoutEscaping (data : List UInt8) :
    unescape data =
      if trailingDLE data % 2 = 0 then some (withoutEscaping data) else none := by
  rw [unescape_eq_decode]
  exact stuffing.decode_eq_kept (p := []) rfl

theorem length_withoutEscaping (data : List UInt8) :
    (withoutEscaping data).length = data.length - escapingCount data := by
  have h : (withoutEscaping data).length + escapingCount data = data.length :=
    stuffing.length_kept_add_introduced [] data
  omega

/-- **When unescaping stays in the vector.** For every vector of bytes, the loop reads inside
the vector only and drops each escaping `DLE` just when the vector does not end in an odd
number of `DLE` bytes. -/
theorem unescapes_iff (data : List UInt8) : Unescapes data ↔ Even (trailingDLE data) := by
  rw [Nat.even_iff]
  have hunescape := unescape_eq_withoutEscaping data
  constructor
  · intro h
    by_contra hodd
    rw [h.returned, if_neg hodd] at hunescape
    cases hunescape
  · intro heven
    rw [if_pos heven] at hunescape
    refine ⟨?_, hunescape, length_withoutEscaping data⟩
    have hsome : (unescapeLoop [] data).isSome := Option.isSome_iff_exists.mpr ⟨_, hunescape⟩
    simpa using (unescapeLoop_isSome_iff [] data 0).mp hsome

/-- A vector that is one `DLE`: the loop dereferences the end. -/
theorem unescapes_fails :
    unescapeReads 0 [DLE] = [0, 1] ∧ unescape [DLE] = none ∧ ¬ Unescapes [DLE] := by
  refine ⟨by decide, by decide, ?_⟩
  intro h
  exact absurd (h.inside 1 (by decide)) (by decide)

end DPFlow.Dploader
