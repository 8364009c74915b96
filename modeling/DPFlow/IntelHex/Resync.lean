import DPFlow.IntelHex.Stream

/-!
# The colon resynchronises

A colon clears whatever the text before it has left behind, so a record that starts with
one is read the same after any text, in either mode, and whatever the callback did. The
two modes differ only in the digits that follow a complete record: where there are none,
they make the same calls.

## Main definitions

* `IntelHex.HexLine` — a record with any checksum byte, as a line of a file has it.
* `IntelHex.Terminated` — no digit follows a complete record before the next colon.
-/
namespace DPFlow.IntelHex

open Lib
variable {σ : Type}

/-! ## Lines -/

/-- A record as a line has it: its checksum byte may be wrong. -/
structure HexLine extends HexRecord where
  checkByte : UInt8

namespace HexLine

/-- All bytes of the line, the checksum byte included. -/
def bytes (l : HexLine) : List UInt8 := l.body ++ [l.checkByte]

/-- What the parser sees of the line: a colon and the digits of its bytes. -/
def tokens (l : HexLine) : List Token := .colon :: (digitsOf l.bytes).map .digit

/-- The record with the line's fields and data. -/
def record (l : HexLine) : Record :=
  { type := .ofByte l.type
    address := l.address
    length := l.data.length.toUInt8
    data := l.data
    checksum := l.checkByte }

/-- The invocation of the callback that delivers the line. -/
def call (l : HexLine) : Call := ⟨l.record, IntelHex.checksum l.record⟩

theorem record_eq (l : HexLine) (r₀ : Record) :
    delivered r₀.clear (digitPair l.data.length.toUInt8) (digitPair (l.address >>> 8).toUInt8)
      (digitPair l.address.toUInt8) (digitPair l.type) (digitPair l.checkByte)
      (l.data.map digitPair) = l.record := by
  simp [delivered, recordAfter, record, Record.clear, addressOf_bytes, Function.comp_def]

/-- The computed sum is the negated sum of the bytes ahead of the checksum. -/
theorem checksum_record (l : HexLine) : IntelHex.checksum l.record = -l.body.sum := by
  rw [checksum_eq _ (by simp [record, l.toHexRecord.toNat_length])]
  simp [record, HexRecord.body, List.take_of_length_le, l.toHexRecord.toNat_length,
    UInt8.add_assoc]

/-- The computed sum is the delivered checksum just when the bytes add up to zero. -/
theorem sum_eq_iff (l : HexLine) : l.call.sum = l.call.record.checksum ↔ l.bytes.sum = 0 := by
  change IntelHex.checksum l.record = l.checkByte ↔ _
  rw [checksum_record, bytes, List.sum_append, List.sum_singleton, neg_eq_iff_add_eq_zero]

/-- From any state, a line makes its call, and leaves some state behind. -/
theorem run (callback : Callback σ) (l : HexLine) (st : IntelHex × σ) :
    (tokenMachine callback).trace st l.tokens = [l.call] := by
  obtain ⟨pos', pending', -, htrace⟩ := record_run callback st.1.mStrict st.2 st.1.mRec.clear 0 0
    (digitPair l.data.length.toUInt8) (digitPair (l.address >>> 8).toUInt8)
    (digitPair l.address.toUInt8) (digitPair l.type) (digitPair l.checkByte)
    (l.data.map digitPair) (by simp [l.toHexRecord.toNat_length])
  rw [record_eq] at htrace
  have hspell : digitsOf l.bytes = spell (digitPair l.data.length.toUInt8 ::
      digitPair (l.address >>> 8).toUInt8 :: digitPair l.address.toUInt8 :: digitPair l.type ::
        l.data.map digitPair ++ [digitPair l.checkByte]) := by
    simp [digitsOf_eq_spell, bytes, HexRecord.body]
  rw [tokens, Mealy.trace_cons, trace_map_digit, hspell]
  exact htrace

end HexLine

/-- Lines make their calls one after another, from any state. -/
theorem trace_lines (callback : Callback σ) (ls : List HexLine) (st : IntelHex × σ) :
    (tokenMachine callback).trace st (ls.flatMap HexLine.tokens) = ls.map HexLine.call := by
  induction ls generalizing st with
  | nil => rfl
  | cons l ls ih =>
      rw [List.flatMap_cons, Mealy.trace_append, l.run, ih]
      rfl

/-- **Records are read after any text.** Whatever a new parser, in either mode and with any
callback, was fed first: the text of any lines, with digits of either case and skipped
characters anywhere, adds one call for each line, with its fields and its data; and the sum
that is passed is the line's checksum byte just when the line's bytes add up to zero. -/
theorem calls_append_lines (callback : Callback σ) (strict : Bool) (w : σ) (g : List UInt8)
    (ls : List HexLine) {text : List UInt8}
    (htext : text.filterMap token = ls.flatMap HexLine.tokens) :
    calls callback (init strict, w) (g ++ text) =
        calls callback (init strict, w) g ++ ls.map HexLine.call ∧
      ∀ l ∈ ls, l.call.sum = l.call.record.checksum ↔ l.bytes.sum = 0 := by
  refine ⟨?_, fun l _ => l.sum_eq_iff⟩
  rw [calls, Mealy.trace_append]
  refine congrArg (calls callback (init strict, w) g ++ ·) ?_
  change calls callback ((machine callback).state (init strict, w) g) text = _
  rw [calls_eq_trace_tokens, htext, trace_lines]

/-- `:02` and garbage, then `:01000000aA54` with blanks in it, whose checksum is wrong. -/
theorem calls_append_lines_garbage :
    calls (fun record _ w => (record.clear, w + 1)) (init false, 0)
        ([0x3A, 0x30, 0x32, 0x46] ++ [0x20, 0x3A, 0x30, 0x31, 0x30, 0x30, 0x20, 0x30, 0x30, 0x30,
          0x30, 0x61, 0x41, 0x35, 0x0A, 0x34]) =
      calls (fun record _ w => (record.clear, w + 1)) (init false, 0) [0x3A, 0x30, 0x32, 0x46] ++
        [HexLine.mk ⟨0, 0, [0xAA], by decide⟩ 0x54].map HexLine.call ∧
    ∀ l ∈ [HexLine.mk ⟨0, 0, [0xAA], by decide⟩ 0x54],
      l.call.sum = l.call.record.checksum ↔ l.bytes.sum = 0 :=
  calls_append_lines (fun record _ w => (record.clear, w + 1)) false 0 [0x3A, 0x30, 0x32, 0x46]
    [HexLine.mk ⟨0, 0, [0xAA], by decide⟩ 0x54] (by decide)

/-! ## The two modes -/

/-- In each segment of the text behind a colon, a complete record takes all the digits. -/
def Terminated (text : List UInt8) : Prop :=
  ∀ segment ∈ (text.splitOn 0x3A).tail,
    (recordOf (segment.filterMap hexValue)).isSome →
      (segment.filterMap hexValue).length =
        2 * ((byteAt (segment.filterMap hexValue) 0).toNat + 5)

instance (text : List UInt8) : Decidable (Terminated text) :=
  inferInstanceAs (Decidable (∀ _ ∈ _, _))

/-- A segment without a complete record is too short to go on behind one. -/
theorem stops_of_terminated {text segment : List UInt8} (h : Terminated text)
    (hmem : segment ∈ (text.splitOn 0x3A).tail) : Stops (segment.filterMap hexValue) := by
  rw [Stops]
  by_cases hsome : (recordOf (segment.filterMap hexValue)).isSome
  · exact (h segment hmem hsome).le
  · rw [recordOf] at hsome
    split_ifs at hsome with hfit
    · exact absurd rfl hsome
    · exact (not_le.mp hfit).le

/-- **The modes agree.** On a text in which no digit follows a complete record before the
next colon, whatever else is in it, a strict parser and one that is not make the same
calls. -/
theorem calls_strict_eq (callback : Callback σ) (w : σ) {text : List UInt8}
    (h : Terminated text) :
    calls callback (init true, w) text = calls callback (init false, w) text := by
  rw [calls_eq_reference, calls_init callback false w text fun _ _ => stops_of_terminated h]

/-- `FF:0`, a truncated record, then `:00000001FF` with a line break behind it, and `:`. -/
theorem calls_strict_eq_truncated :
    calls (fun record _ w => (record, w + 1)) (init true, 0)
        [0x46, 0x46, 0x3A, 0x30, 0x3A, 0x30, 0x30, 0x30, 0x30, 0x30, 0x30, 0x30, 0x31, 0x46,
          0x46, 0x0A, 0x3A] =
      calls (fun record _ w => (record, w + 1)) (init false, 0)
        [0x46, 0x46, 0x3A, 0x30, 0x3A, 0x30, 0x30, 0x30, 0x30, 0x30, 0x30, 0x30, 0x31, 0x46,
          0x46, 0x0A, 0x3A] :=
  calls_strict_eq (fun record _ w => (record, w + 1)) 0 (by decide)

end DPFlow.IntelHex
