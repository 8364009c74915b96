import Mathlib.Data.Int.Notation
import Mathlib.Data.List.Basic

/-!
# The dploader frame codec

Byte vectors are lists of bytes. `unescape` moves its iterator in two places and
compares it with the end only between elements, so on a vector that ends in an
escape it reads past the end; the model returns `none` there. The checksum works on
16-bit words, and every shift is truncated to them. `decode` computes offsets from a
reverse iterator and uses them on the vector itself; the model stops with a fault where
one of them leaves the vector.
-/
namespace DPFlow.Dploader

def SOH : UInt8 := 0x01
def EOT : UInt8 := 0x04
def DLE : UInt8 := 0x10

/-! ## Checksum -/

/-- One turn of the inner loop. -/
def crcShift (crc : UInt16) : UInt16 :=
  if crc &&& 0x8000 > 0 then (crc <<< 1) ^^^ 0x1021 else crc <<< 1

/-- One turn of the outer loop: bring in a byte, then shift eight times. -/
def crcByte (crc : UInt16) (b : UInt8) : UInt16 :=
  (List.range 8).foldl (fun crc _ => crcShift crc) (crc ^^^ b.toUInt16 <<< 8)

def crc16 (data : List UInt8) (start : UInt16 := 0x0000) : UInt16 :=
  data.foldl crcByte start &&& 0xFFFF

/-! ## Escaping -/

/-- `escape` of a single byte. -/
def escapeByte (b : UInt8) : List UInt8 :=
  (if b == SOH || b == EOT || b == DLE then [DLE] else []) ++ [b]

def escape (data : List UInt8) : List UInt8 :=
  data.foldl (fun escaped c => escaped ++ escapeByte c) []

/-- The loop of `unescape`, with the bytes from the iterator on. -/
def unescapeLoop (unescaped : List UInt8) : List UInt8 → Option (List UInt8)
  | [] => some unescaped
  | [b] => if b == DLE then none else some (unescaped ++ [b])
  | b :: c :: rest =>
      if b == DLE then unescapeLoop (unescaped ++ [c]) rest
      else unescapeLoop (unescaped ++ [b]) (c :: rest)

/-- `none` when the loop leaves the vector. -/
def unescape (data : List UInt8) : Option (List UInt8) := unescapeLoop [] data

/-! ## Decoding -/

/-- The access of `decode` that leaves the vector. -/
inductive DecodeFault
  | firstByte
  | endByte
  | payload
  | checksum
  deriving DecidableEq, Repr

/-- `v[i]`, faulting outside the vector. -/
def byteAt (fault : DecodeFault) (v : List UInt8) (i : ℤ) : Except DecodeFault UInt8 :=
  if i < 0 then .error fault
  else match v[i.toNat]? with
    | some b => .ok b
    | none => .error fault

/-- `crc_rx`: the received checksum, low byte first. -/
def crcRx (low high : UInt8) : UInt16 := low.toUInt16 + high.toUInt16 <<< 8

/-- `std::find(rbegin, rend, EOT) - rbegin`; the length of the vector stands for `rend`. -/
def findEOT (unescaped : List UInt8) : ℕ := unescaped.reverse.findIdx (· == EOT)

/-- What `decode` works out behind its search: whether it takes the frame for invalid or
its checksum for bad, the two checksums it compares, and what it returns. -/
structure DecodedFrame where
  invalid : Bool
  payload : List UInt8
  crcRx : UInt16
  crc : UInt16
  badChecksum : Bool
  result : List UInt8
  deriving DecidableEq, Repr

/-- The condition of the second `if`; `*end` is read only behind a first byte `SOH`. -/
def isInvalid (unescaped : List UInt8) (endOffset : ℕ) : Except DecodeFault Bool := do
  let first ← byteAt .firstByte unescaped 0
  if first != SOH then .ok true
  else do
    -- a reverse iterator points at the byte ahead of its base
    let closing ← byteAt .endByte unescaped (unescaped.length - endOffset - 1)
    .ok (closing != EOT)

/-- The vector from `begin()` to `end() - 2`. -/
def payloadOf (unescaped : List UInt8) : Except DecodeFault (List UInt8) :=
  if unescaped.length < 2 then .error .payload
  else .ok (unescaped.take (unescaped.length - 2))

/-- `decode` from its second `if` on. None of its branches leaves the function. -/
def decodeFrom (unescaped : List UInt8) (endOffset : ℕ) : Except DecodeFault DecodedFrame := do
  let invalid ← isInvalid unescaped endOffset
  let length : ℤ := endOffset
  let resized := unescaped.take endOffset
  let payload ← payloadOf resized
  let low ← byteAt .checksum resized (length - 3)
  let high ← byteAt .checksum resized (length - 2)
  let crcRx := crcRx low high
  let crc := crc16 payload
  .ok {
    invalid := invalid
    payload := payload
    crcRx := crcRx
    crc := crc
    badChecksum := crcRx != crc
    result := resized }

/-- A call of `decode`: the unescaped bytes, where its search ends, whether it takes the
frame for incomplete, and the rest. -/
structure Decoding where
  unescaped : List UInt8
  endOffset : ℕ
  incomplete : Bool
  frame : Except DecodeFault DecodedFrame

/-- `decode`; `none` when `unescape` leaves the vector. -/
def decode (data : List UInt8) : Option Decoding := do
  let unescaped ← unescape data
  let endOffset := findEOT unescaped
  return {
    unescaped := unescaped
    endOffset := endOffset
    incomplete := endOffset == unescaped.length
    frame := decodeFrom unescaped endOffset }

end DPFlow.Dploader
