import DPFlow.IntelHex.Strict
import Mathlib.Data.List.Basic

/-!
# The start code when it is not required

`m_strict` says whether the start code is required, but the constructor sets every parser
to wait for it: a parser that is not strict is told from a strict one only behind its first
record. Ahead of the first colon it reads nothing.
-/
namespace DPFlow.IntelHex

open Lib
variable {σ : Type}

/-- A text without a colon is read by its digits. -/
theorem calls_of_no_colon (callback : Callback σ) (st : IntelHex × σ) {w : List UInt8}
    (hw : 0x3A ∉ w) :
    calls callback st w = (digitMachine callback).trace st (w.filterMap hexValue) := by
  have hsplit : w.splitOn 0x3A = [w] := List.splitOn_eq_singleton hw
  have h := trace_splitOn callback w st (by simp [hsplit])
  rw [reference, hsplit] at h
  simpa using h

/-- A new parser makes nothing of it. -/
theorem calls_init_of_no_colon (callback : Callback σ) (strict : Bool) (s : σ) {w : List UInt8}
    (hw : 0x3A ∉ w) : calls callback (init strict, s) w = [] := by
  rw [calls_of_no_colon callback _ hw]
  exact (wait_run callback _ _ _ strict s _).2

/-- Behind a colon it is read from the first digit of a record on. -/
theorem calls_colon_of_no_colon (callback : Callback σ) (strict : Bool) (s : σ) {w : List UInt8}
    (hw : 0x3A ∉ w) :
    calls callback (init strict, s) (0x3A :: w) = (digitMachine callback).trace
      (⟨.readCountHigh, (init strict).mRec.clear, 0, 0, strict⟩, s) (w.filterMap hexValue) :=
  calls_of_no_colon callback (restart (init strict), s) hw

/-- The digits of a text hold a complete record: the five bytes around the data and as many
data bytes as the first one says. -/
def HoldsRecord (w : List UInt8) : Prop :=
  2 * ((byteAt (w.filterMap hexValue) 0).toNat + 5) ≤ (w.filterMap hexValue).length

instance (w : List UInt8) : Decidable (HoldsRecord w) := inferInstanceAs (Decidable (_ ≤ _))

/-- Behind a colon the parser delivers something just when there is a record to deliver. -/
theorem calls_colon_eq_nil_iff (callback : Callback σ) (strict : Bool) (s : σ) {w : List UInt8}
    (hw : 0x3A ∉ w) :
    calls callback (init strict, s) (0x3A :: w) = [] ↔ ¬ HoldsRecord w := by
  rw [calls_colon_of_no_colon callback strict s hw]
  constructor
  · intro h hholds
    obtain ⟨n, msb, lsb, type, ck, body, hbody, hspell⟩ := exists_record_append _ hholds
    obtain ⟨pos', pending', -, htrace⟩ := record_run callback strict s
      (init strict).mRec.clear 0 0 n msb lsb type ck body hbody
    rw [hspell, Mealy.trace_append, htrace] at h
    cases h
  · intro hshort
    exact short_silent callback strict s _ 0 0 _ (not_le.mp hshort)

/-- **When the start code is optional.** For a text without a colon, a new parser that is
not strict makes the same calls without the start code as with it just when the text holds
no record, and there are no calls to make. -/
theorem startCode_optional_iff (callback : Callback σ) (s : σ) {w : List UInt8}
    (hw : 0x3A ∉ w) :
    calls callback (init false, s) w = calls callback (init false, s) (0x3A :: w) ↔
      ¬ HoldsRecord w := by
  rw [calls_init_of_no_colon callback false s hw, eq_comm]
  exact calls_colon_eq_nil_iff callback false s hw

/-- The digits of the record that ends a file, `00 0000 01 FF`. -/
def endOfFile : List UInt8 := [0x30, 0x30, 0x30, 0x30, 0x30, 0x30, 0x30, 0x31, 0x46, 0x46]

/-- A callback that leaves the record alone. -/
def keepRecord : Callback Unit := fun record _ s => (record, s)

theorem startCode_optional_truncated :
    calls keepRecord (init false, ()) (endOfFile.take 9) =
        calls keepRecord (init false, ()) (0x3A :: endOfFile.take 9) ↔
      ¬ HoldsRecord (endOfFile.take 9) :=
  startCode_optional_iff keepRecord () (by decide)

/-- One record, which is delivered behind a colon only. -/
theorem startCode_optional_fails :
    0x3A ∉ endOfFile ∧ HoldsRecord endOfFile ∧ endOfFile.length = 10 ∧
      calls keepRecord (init false, ()) endOfFile = [] ∧
      calls keepRecord (init false, ()) (0x3A :: endOfFile) =
        [⟨{ type := ⟨1⟩, address := 0, length := 0, data := [], checksum := 0xFF }, 0xFF⟩] := by
  decide

end DPFlow.IntelHex
