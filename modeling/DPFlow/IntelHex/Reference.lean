import DPFlow.IntelHex.Basic
import Mathlib.Data.UInt

/-!
# What a stream of Intel HEX characters says

A purely positional reading of the input, with no parser state: the text is cut at
its colons, a segment is reduced to its hex digits, and a record is read off the
digit positions. The parser is compared with it in `IntelHex.Strict`; the records
that an encoder would write, and their digits, are here as well.

## Main definitions

* `IntelHex.recordOf` — the record the digits of one segment spell, if any.
* `IntelHex.reference` — the callback invocations a text calls for.
* `IntelHex.HexRecord` — a well-formed record, with its checksum determined.
-/
namespace DPFlow.IntelHex

/-- The value of a hex digit character. -/
def hexValue (c : UInt8) : Option UInt8 :=
  if 0x30 ≤ c ∧ c ≤ 0x39 then some (c - 0x30)
  else if 0x41 ≤ c ∧ c ≤ 0x46 then some (c - 0x41 + 10)
  else if 0x61 ≤ c ∧ c ≤ 0x66 then some (c - 0x61 + 10)
  else none

/-- Byte `k` of a sequence of digits, two digits to a byte. -/
def byteAt (ds : List UInt8) (k : ℕ) : UInt8 := 16 * ds.getD (2 * k) 0 + ds.getD (2 * k + 1) 0

/-- The record at the front of a segment's digits: with `n` its first byte, it
takes `n + 5` bytes, and digits beyond them are ignored. -/
def recordOf (ds : List UInt8) : Option Call :=
  let n := (byteAt ds 0).toNat
  if 2 * (n + 5) ≤ ds.length then
    some
      { record :=
          { length := byteAt ds 0
            address := 256 * (byteAt ds 1).toUInt16 + (byteAt ds 2).toUInt16
            type := .ofByte (byteAt ds 3)
            data := (List.range n).map fun i => byteAt ds (i + 4)
            checksum := byteAt ds (n + 4) }
        sum := -((List.range (n + 4)).map (byteAt ds)).sum }
  else none

/-- Drop what stands before the first colon, cut the rest at every colon, and read
each segment's hex digits. -/
def reference (text : List UInt8) : List Call :=
  (text.splitOn 0x3A).tail.filterMap fun segment => recordOf (segment.filterMap hexValue)

/-! ## Records as an encoder writes them -/

/-- A well-formed record. Its length byte is the number of data bytes, so that
number fits in a byte; its checksum makes the bytes of the record add up to zero. -/
structure HexRecord where
  type : UInt8
  address : UInt16
  data : List UInt8
  length_le : data.length ≤ 255

namespace HexRecord

/-- The bytes ahead of the checksum. -/
def body (r : HexRecord) : List UInt8 :=
  [r.data.length.toUInt8, (r.address >>> 8).toUInt8, r.address.toUInt8, r.type] ++ r.data

/-- The checksum byte. -/
def checksum (r : HexRecord) : UInt8 := -r.body.sum

/-- All bytes of the record. -/
def bytes (r : HexRecord) : List UInt8 := r.body ++ [r.checksum]

/-- The record as the parser should deliver it. -/
def record (r : HexRecord) : Record :=
  { type := .ofByte r.type
    address := r.address
    length := r.data.length.toUInt8
    data := r.data
    checksum := r.checksum }

/-- The invocation of the callback that should deliver the record. -/
def call (r : HexRecord) : Call := ⟨r.record, r.checksum⟩

end HexRecord

/-- The two digits of a byte. -/
def digits (b : UInt8) : List UInt8 := [b >>> 4, b &&& 0xF]

/-- The digits of a sequence of bytes. -/
def digitsOf (bytes : List UInt8) : List UInt8 := bytes.flatMap digits

end DPFlow.IntelHex
