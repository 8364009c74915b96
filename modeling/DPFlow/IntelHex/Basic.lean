import DPFlow.Lib.Mealy

/-!
# The Intel HEX parser

The parser reads one character at a time. A colon restarts it from any state;
a hex digit moves it along the thirteen read states, two digits to a byte; every
other character is skipped. The callback runs at the last checksum digit. It gets
the record by reference, so it may write to it, and it has state of its own; both
are explicit here. Its `int` result is not looked at by the parser.

## Main definitions

* `IntelHex` — the parser's members, without the callback.
* `IntelHex.parseByte` — one character.
* `IntelHex.machine` — the parser as a machine whose outputs are the callback's
  invocations.
-/
namespace DPFlow

open Lib

/-- `RecordType` is an `enum class` over `int`, and the parser casts any byte to
it, so it holds a number rather than one of the named types. -/
structure IntelHex.RecordType where
  value : Int32
  deriving DecidableEq, Repr

namespace IntelHex.RecordType

/-- `RecordType::Invalid`, what a cleared record has. The other enumerators are not used. -/
def invalid : RecordType := ⟨0xFF⟩

/-- `static_cast<RecordType>` of a byte. -/
def ofByte (b : UInt8) : RecordType := ⟨b.toUInt32.toInt32⟩

/-- `static_cast<uint8_t>` of a record type. -/
def toByte (t : RecordType) : UInt8 := t.value.toUInt32.toUInt8

@[simp] theorem toByte_ofByte (b : UInt8) : (ofByte b).toByte = b := by
  simp [ofByte, toByte]

end IntelHex.RecordType

/-- The parser's position inside a record: each byte has a high and a low digit. -/
inductive IntelHex.ReadState
  | readWait
  | readCountHigh
  | readCountLow
  | readAddressMsbHigh
  | readAddressMsbLow
  | readAddressLsbHigh
  | readAddressLsbLow
  | readRecordTypeHigh
  | readRecordTypeLow
  | readDataHigh
  | readDataLow
  | readChecksumHigh
  | readChecksumLow
  deriving DecidableEq, Repr

structure IntelHex.Record where
  type : RecordType
  address : UInt16
  length : UInt8
  data : List UInt8
  checksum : UInt8
  deriving DecidableEq, Repr

/-- `Record::clear`: every field is overwritten. -/
def IntelHex.Record.clear (_ : Record) : Record :=
  { data := [], length := 0, type := .invalid, address := 0, checksum := 0 }

/-- `checksum`: the two's complement of the byte sum over the first `length` data
bytes, whatever the data vector holds beyond them. -/
def IntelHex.checksum (record : Record) : UInt8 :=
  let sum := record.length + (record.address >>> 8).toUInt8 +
    (record.address &&& 0xFF).toUInt8 + record.type.toByte
  let sum := (List.range record.length.toNat).foldl
    (fun sum i => sum + record.data.getD i 0) sum
  ~~~sum + 1

/-- The callback: it may change the record it is given and its own state. -/
abbrev IntelHex.Callback (σ : Type) := Record → UInt8 → σ → Record × σ

/-- One invocation of the callback, with the arguments as they are passed. -/
structure IntelHex.Call where
  record : Record
  sum : UInt8
  deriving DecidableEq, Repr

structure IntelHex where
  mState : IntelHex.ReadState
  mRec : IntelHex.Record
  mPos : UInt8
  mPendingByte : UInt8
  mStrict : Bool

namespace IntelHex
variable {σ : Type}

/-- The constructor. -/
def init (strict : Bool) : IntelHex :=
  { mState := .readWait
    mRec := { data := [], length := 0, type := .invalid, address := 0, checksum := 0 }
    mPos := 0
    mPendingByte := 0
    mStrict := strict }

/-! ## Character classes, in the C locale -/

def isdigit (c : UInt8) : Bool := 0x30 ≤ c && c ≤ 0x39
def isxdigit (c : UInt8) : Bool :=
  isdigit c || (0x41 ≤ c && c ≤ 0x46) || (0x61 ≤ c && c ≤ 0x66)
def toupper (c : UInt8) : UInt8 := if 0x61 ≤ c && c ≤ 0x7A then c - 0x20 else c

/-! ## One character -/

/-- A first digit: keep it as the high half of the pending byte. -/
def pend (p : IntelHex) (next : ReadState) (b : UInt8) : IntelHex :=
  { p with mState := next, mPendingByte := b <<< 4 }

/-- The `switch` of `parse(uint8_t)`, for a digit of value `b`. -/
def parseDigit (callback : Callback σ) (st : IntelHex × σ) (b : UInt8) :
    (IntelHex × σ) × List Call :=
  let p := st.1
  let b2 := p.mPendingByte + b
  match p.mState with
  | .readWait => (st, [])
  | .readCountHigh => ((pend p .readCountLow b, st.2), [])
  | .readAddressMsbHigh => ((pend p .readAddressMsbLow b, st.2), [])
  | .readAddressLsbHigh => ((pend p .readAddressLsbLow b, st.2), [])
  | .readRecordTypeHigh => ((pend p .readRecordTypeLow b, st.2), [])
  | .readDataHigh => ((pend p .readDataLow b, st.2), [])
  | .readChecksumHigh => ((pend p .readChecksumLow b, st.2), [])
  | .readCountLow =>
      (({ p with mRec.length := b2, mState := .readAddressMsbHigh }, st.2), [])
  | .readAddressMsbLow =>
      (({ p with mRec.address := b2.toUInt16 <<< 8, mState := .readAddressLsbHigh }, st.2), [])
  | .readAddressLsbLow =>
      (({ p with mRec.address := p.mRec.address + b2.toUInt16,
                 mState := .readRecordTypeHigh }, st.2), [])
  | .readRecordTypeLow =>
      (({ p with mRec.type := .ofByte b2,
                 mState := if p.mRec.length > 0 then .readDataHigh else .readChecksumHigh,
                 mPos := 0 }, st.2), [])
  | .readDataLow =>
      (({ p with mRec.data := p.mRec.data ++ [b2],
                 mPos := p.mPos + 1,
                 mState := if p.mPos + 1 ≥ p.mRec.length then .readChecksumHigh
                   else .readDataHigh }, st.2), [])
  | .readChecksumLow =>
      let record := { p.mRec with checksum := b2 }
      let calculatedChecksum := checksum record
      let (record', w) := callback record calculatedChecksum st.2
      (({ p with mRec := record',
                 mState := if p.mStrict then .readWait else .readCountHigh }, w),
        [⟨record, calculatedChecksum⟩])

/-- The colon: forget everything about the record so far. -/
def restart (p : IntelHex) : IntelHex :=
  { p with mPos := 0, mState := .readCountHigh, mRec := p.mRec.clear, mPendingByte := 0 }

/-- `parse(uint8_t)`. -/
def parseByte (callback : Callback σ) (st : IntelHex × σ) (data : UInt8) :
    (IntelHex × σ) × List Call :=
  if isdigit data then parseDigit callback st (data - 0x30)
  else if isxdigit data then parseDigit callback st (toupper data - 0x41 + 10)
  else if data = 0x3A then ((restart st.1, st.2), [])
  else (st, [])

/-- The `parse` overloads on vectors and strings feed their bytes in order. -/
def machine (callback : Callback σ) : Mealy (IntelHex × σ) UInt8 Call where
  step := parseByte callback

/-- The callback invocations on a sequence of bytes, from a given parser state. -/
def calls (callback : Callback σ) (st : IntelHex × σ) (data : List UInt8) : List Call :=
  (machine callback).trace st data

end IntelHex
end DPFlow
