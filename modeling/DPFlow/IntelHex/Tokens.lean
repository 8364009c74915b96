import DPFlow.IntelHex.Reference

/-!
# Characters and tokens

The parser sees three kinds of character: the colon, a hex digit in either case,
and everything else, which it skips. Its run over a text is therefore a run over
the text's tokens, and over a stretch without a colon a run over its digits.
-/
namespace DPFlow.IntelHex

open Lib
variable {σ : Type}

/-- What the parser can tell apart about a character. -/
inductive Token
  | colon
  | digit (value : UInt8)
  deriving DecidableEq, Repr

/-- The meaning of a character; `none` for everything the parser skips. -/
def token (c : UInt8) : Option Token :=
  if c = 0x3A then some .colon else (hexValue c).map .digit

/-! ## Characters -/

theorem hexValue_of_isdigit {c : UInt8} (h : isdigit c) : hexValue c = some (c - 0x30) := by
  simp only [isdigit, Bool.and_eq_true, decide_eq_true_eq] at h
  rw [hexValue, if_pos h]

theorem hexValue_of_isxdigit {c : UInt8} (h : isxdigit c) (hd : ¬ isdigit c) :
    hexValue c = some (toupper c - 0x41 + 10) := by
  have hcase : (0x41 ≤ c ∧ c ≤ 0x46) ∨ (0x61 ≤ c ∧ c ≤ 0x66) := by
    simp only [isxdigit, hd, Bool.false_or, Bool.or_eq_true, Bool.and_eq_true,
      decide_eq_true_eq] at h
    exact h
  have hlt := c.toNat_lt
  rcases hcase with ⟨h1, h2⟩ | ⟨h1, h2⟩ <;>
    simp only [UInt8.le_iff_toNat_le, UInt8.reduceToNat] at h1 h2
  · have hup : toupper c = c := by
      simp only [toupper, UInt8.le_iff_toNat_le, UInt8.reduceToNat]
      simp
      omega
    simp only [hexValue, hup, UInt8.le_iff_toNat_le, UInt8.reduceToNat]
    rw [if_neg (by omega), if_pos (by omega)]
  · have hup : toupper c = c - 0x20 := by
      simp only [toupper, UInt8.le_iff_toNat_le, UInt8.reduceToNat]
      simp
      omega
    simp only [hexValue, hup, UInt8.le_iff_toNat_le, UInt8.reduceToNat]
    rw [if_neg (by omega), if_neg (by omega), if_pos (by omega)]
    congr 2
    apply UInt8.toNat_inj.mp
    simp [UInt8.toNat_sub]
    omega

theorem hexValue_of_not {c : UInt8} (h : ¬ isxdigit c) : hexValue c = none := by
  simp only [isxdigit, isdigit, Bool.or_eq_true, Bool.and_eq_true, decide_eq_true_eq,
    not_or] at h
  rw [hexValue, if_neg h.1.1, if_neg h.1.2, if_neg h.2]

/-- What a character does depends on its token only. -/
theorem parseByte_eq (callback : Callback σ) (st : IntelHex × σ) (c : UInt8) :
    parseByte callback st c =
      match token c with
      | none => (st, [])
      | some .colon => ((restart st.1, st.2), [])
      | some (.digit v) => parseDigit callback st v := by
  by_cases hd : isdigit c
  · have hc : c ≠ 0x3A := by rintro rfl; exact absurd hd (by decide)
    simp [parseByte, token, hd, hc, hexValue_of_isdigit hd]
  · by_cases hx : isxdigit c
    · have hc : c ≠ 0x3A := by rintro rfl; exact absurd hx (by decide)
      simp [parseByte, token, hd, hx, hc, hexValue_of_isxdigit hx hd]
    · by_cases hc : c = 0x3A
      · rw [parseByte, if_neg hd, if_neg hx, if_pos hc, token, if_pos hc]
      · rw [parseByte, if_neg hd, if_neg hx, if_neg hc, token, if_neg hc, hexValue_of_not hx]
        rfl

/-! ## Runs over tokens -/

/-- The parser on digits alone. -/
def digitMachine (callback : Callback σ) : Mealy (IntelHex × σ) UInt8 Call where
  step := parseDigit callback

/-- The parser on tokens. -/
def tokenMachine (callback : Callback σ) : Mealy (IntelHex × σ) Token Call where
  step st
    | .colon => ((restart st.1, st.2), [])
    | .digit v => parseDigit callback st v

/-- Text without a colon acts through its hex digits. -/
theorem parseByte_of_ne_colon (callback : Callback σ) (st : IntelHex × σ) (c : UInt8)
    (hc : c ≠ 0x3A) :
    parseByte callback st c =
      ((digitMachine callback).state st (hexValue c).toList,
        (digitMachine callback).trace st (hexValue c).toList) := by
  rw [parseByte_eq, token, if_neg hc]
  cases hexValue c <;> simp [digitMachine]

/-- A colon restarts the parser, whatever it was at. -/
theorem calls_cons_colon (callback : Callback σ) (st : IntelHex × σ) (text : List UInt8) :
    calls callback st (0x3A :: text) = calls callback (restart st.1, st.2) text := by
  change (parseByte callback st 0x3A).2 ++ calls callback (parseByte callback st 0x3A).1 text = _
  rw [parseByte_eq]
  rfl

/-- Any other character is a digit or nothing. -/
theorem calls_cons_of_ne_colon (callback : Callback σ) (st : IntelHex × σ) {c : UInt8}
    (hc : c ≠ 0x3A) (text : List UInt8) :
    calls callback st (c :: text) =
      (digitMachine callback).trace st (hexValue c).toList ++
        calls callback ((digitMachine callback).state st (hexValue c).toList) text := by
  change (parseByte callback st c).2 ++ calls callback (parseByte callback st c).1 text = _
  rw [parseByte_of_ne_colon callback st c hc]

/-- Characters the parser skips can stand anywhere. -/
theorem calls_eq_trace_tokens (callback : Callback σ) (text : List UInt8) :
    ∀ st, calls callback st text = (tokenMachine callback).trace st (text.filterMap token) := by
  induction text with
  | nil => intro st; rfl
  | cons c text ih =>
      intro st
      change (parseByte callback st c).2 ++ calls callback (parseByte callback st c).1 text = _
      rw [ih, parseByte_eq, List.filterMap_cons]
      rcases token c with _ | _ | v
      · rfl
      · rfl
      · rfl

theorem trace_map_digit (callback : Callback σ) (ds : List UInt8) :
    ∀ st, (tokenMachine callback).trace st (ds.map .digit) =
      (digitMachine callback).trace st ds := by
  induction ds with
  | nil => intro st; rfl
  | cons d ds ih =>
      intro st
      simp only [List.map_cons, Mealy.trace_cons, ih]
      rfl

end DPFlow.IntelHex
