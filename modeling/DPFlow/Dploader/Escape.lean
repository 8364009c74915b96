import DPFlow.Dploader.Basic
import DPFlow.Lib.Stuffing

/-!
# Escaping is a stuffing code

`escape` and `unescape` are the two directions of the stuffing code whose escape
symbol is `DLE` and whose special symbols are `SOH`, `EOT` and `DLE`. What the frame
format relies on follows from the code: the two are inverse to each other, and a
delimiter value inside escaped data stands behind an escape of its own.
-/
namespace DPFlow.Dploader

open Lib

/-- The bytes that are sent behind a `DLE`. -/
def special (b : UInt8) : Bool := b == SOH || b == EOT || b == DLE

/-- The stuffing code of the frame format. -/
def stuffing : Stuffing UInt8 where
  esc := DLE
  special := special
  special_esc := by decide

/-! ## The code and its language -/

def plainByte : Language UInt8 := {e | ∃ b, special b = false ∧ e = [b]}
def escapedByte : Language UInt8 := {e | ∃ b, special b = true ∧ e = [DLE, b]}

/-- The escaped byte vectors: `(plain | DLE special)*`. -/
def escapedLanguage : Language UInt8 := KStar.kstar (plainByte + escapedByte)

/-- How many `DLE` bytes in a row a vector ends with. Runs of `DLE` pair off from the
left, so the last one is unpaired when the number is odd. -/
def trailingDLE (p : List UInt8) : ℕ := (p.reverse.takeWhile (· = DLE)).length

theorem escapeByte_eq_block (b : UInt8) : escapeByte b = stuffing.block b := by
  by_cases h : (b == SOH || b == EOT || b == DLE) = true <;>
    simp [escapeByte, Stuffing.block, stuffing, special, h]

theorem escape_eq_encode (data : List UInt8) : escape data = stuffing.encode data := by
  have hloop : ∀ escaped : List UInt8,
      data.foldl (fun escaped c => escaped ++ escapeByte c) escaped =
        escaped ++ stuffing.encode data := by
    induction data with
    | nil => simp
    | cons b data ih =>
        intro escaped
        rw [List.foldl_cons, ih, escapeByte_eq_block, Stuffing.encode_cons, List.append_assoc]
  exact hloop []

/-- The loop collects what is left to decode behind what it has collected. -/
theorem unescapeLoop_eq (unescaped data : List UInt8) :
    unescapeLoop unescaped data = (stuffing.decode data).map (unescaped ++ ·) := by
  induction unescaped, data using unescapeLoop.induct with
  | case1 unescaped => simp [unescapeLoop]
  | case2 unescaped b hb => simp_all [unescapeLoop, Stuffing.decode, stuffing]
  | case3 unescaped b hb => simp_all [unescapeLoop, Stuffing.decode, stuffing]
  | case4 unescaped b c rest hb ih =>
      have hb' : b = stuffing.esc := beq_iff_eq.mp hb
      rw [unescapeLoop, if_pos hb, ih, hb', Stuffing.decode_esc_cons, Option.map_map]
      simp [Function.comp_def]
  | case5 unescaped b c rest hb ih =>
      have hb' : b ≠ stuffing.esc := fun e => hb (beq_iff_eq.mpr e)
      rw [unescapeLoop, if_neg hb, ih, Stuffing.decode_cons_of_ne _ hb', Option.map_map]
      simp [Function.comp_def]

theorem unescape_eq_decode (data : List UInt8) : unescape data = stuffing.decode data := by
  rw [unescape, unescapeLoop_eq]
  simp

/-! ## Round trips -/

/-- **`escape` is a bijection onto its language, with `unescape` its inverse**; the
delimiters stand only behind an unpaired `DLE`; decoding escaped data goes on with
whatever follows; and what survives the round trip from the escaped side is the
language. -/
theorem escape_unescape :
    Set.BijOn escape Set.univ (escapedLanguage : Set (List UInt8)) ∧
    (∀ d, unescape (escape d) = some d) ∧
    (∀ d p x s, escape d = p ++ x :: s → x = SOH ∨ x = EOT → Odd (trailingDLE p)) ∧
    (∀ d t u, unescape t = some u → unescape (escape d ++ t) = some (d ++ u)) ∧
    (∀ e u, unescape e = some u → (escape u = e ↔ e ∈ escapedLanguage)) := by
  have hescape : escape = stuffing.encode := funext escape_eq_encode
  simp only [hescape, unescape_eq_decode]
  refine ⟨stuffing.bijOn_encode, stuffing.decode_encode, ?_, ?_, ?_⟩
  · intro d p x s h hx
    have hspecial : stuffing.special x = true := by rcases hx with rfl | rfl <;> decide
    have hne : x ≠ stuffing.esc := by rcases hx with rfl | rfl <;> decide
    exact stuffing.odd_trailing_of_encode_eq hspecial hne h
  · intro d t u h
    rw [stuffing.decode_encode_append, h]
    rfl
  · intro e u h
    exact stuffing.encode_decode_iff h

end DPFlow.Dploader
