import DPFlow.IntelHex.Resync
import Mathlib.Algebra.BigOperators.Group.List.Basic

/-!
# A wrong digit shows in the checksum

A digit behind the count belongs to one byte of the record, and changing the digit
changes that byte and no other. The bytes of a well-formed record add up to zero, so
those of the corrupted one do not, and the sum handed to the callback differs from the
checksum the record carries. The count is left out: changing it moves the checksum.
-/
namespace DPFlow.IntelHex

variable {σ : Type}

/-! ## Digits and bytes -/

theorem hexValue_lt {c v : UInt8} (h : hexValue c = some v) : v < 16 := by
  have hlt := c.toNat_lt
  rw [UInt8.lt_iff_toNat_lt]
  simp only [hexValue, UInt8.le_iff_toNat_le, UInt8.reduceToNat] at h
  split_ifs at h with hdec hupper hlower <;> cases h <;> simp [UInt8.toNat_sub] <;> omega

theorem toNat_and_low (b : UInt8) : (b &&& 0xF).toNat = b.toNat % 16 :=
  Nat.and_two_pow_sub_one_eq_mod b.toNat 4

/-- Two digits are the digits of the byte they make. -/
theorem digits_byteOf {h l : UInt8} (hh : h < 16) (hl : l < 16) :
    digits (byteOf (h, l)) = [h, l] := by
  rw [UInt8.lt_iff_toNat_lt] at hh hl
  have hbyte : (byteOf (h, l)).toNat = 16 * h.toNat + l.toNat := by
    simp [byteOf] at hh hl ⊢
    omega
  have hhigh : byteOf (h, l) >>> 4 = h := by
    apply UInt8.toNat_inj.mp
    simp [hbyte, Nat.shiftRight_eq_div_pow] at hl ⊢
    omega
  have hlow : byteOf (h, l) &&& 0xF = l := by
    apply UInt8.toNat_inj.mp
    rw [toNat_and_low, hbyte]
    simp at hl
    omega
  rw [digits, hhigh, hlow]

theorem digit_lt (b : UInt8) : b >>> 4 < 16 ∧ b &&& 0xF < 16 := by
  have hlt := b.toNat_lt
  rw [UInt8.lt_iff_toNat_lt, UInt8.lt_iff_toNat_lt, toNat_and_low]
  simp [Nat.shiftRight_eq_div_pow]
  omega

/-- Replacing one digit replaces the byte it belongs to. -/
theorem exists_set_digitsOf (bytes : List UInt8) {i : ℕ} {v : UInt8} (hv : v < 16) :
    ∃ b, (digitsOf bytes).set i v = digitsOf (bytes.set (i / 2) b) := by
  induction bytes generalizing i with
  | nil => exact ⟨0, rfl⟩
  | cons c bytes ih =>
      obtain ⟨hhigh, hlow⟩ := digit_lt c
      match i with
      | 0 =>
          refine ⟨byteOf (v, c &&& 0xF), ?_⟩
          change v :: (c &&& 0xF) :: digitsOf bytes = digits _ ++ digitsOf bytes
          rw [digits_byteOf hv hlow]
          rfl
      | 1 =>
          refine ⟨byteOf (c >>> 4, v), ?_⟩
          change c >>> 4 :: v :: digitsOf bytes = digits _ ++ digitsOf bytes
          rw [digits_byteOf hhigh hv]
          rfl
      | i + 2 =>
          obtain ⟨b, hb⟩ := ih (i := i)
          refine ⟨b, ?_⟩
          have hhalf : (i + 2) / 2 = i / 2 + 1 := by omega
          rw [hhalf, List.set_cons_succ]
          change (c >>> 4 :: (c &&& 0xF) :: digitsOf bytes).set (i + 2) v = _
          rw [List.set_cons_succ, List.set_cons_succ, hb]
          rfl

/-! ## Lines from bytes -/

/-- Bytes that begin with the number of data bytes are those of a line. -/
theorem HexLine.exists_of_bytes {n : ℕ} (hn : n ≤ 255) {bytes : List UInt8}
    (hlen : bytes.length = n + 5) (hcount : bytes.head? = some n.toUInt8) :
    ∃ l : HexLine, l.bytes = bytes := by
  match bytes with
  | count :: msb :: lsb :: type :: rest =>
      cases hcount
      have hrest : rest.length = n + 1 := by
        simp only [List.length_cons] at hlen
        omega
      have hne : rest ≠ [] := by
        rintro rfl
        simp at hrest
      have hdata : rest.dropLast.length = n := by
        rw [List.length_dropLast, hrest, Nat.add_sub_cancel]
      refine ⟨⟨⟨type, addressOf msb lsb, rest.dropLast, by omega⟩, rest.getLast hne⟩, ?_⟩
      change rest.dropLast.length.toUInt8 :: (addressOf msb lsb >>> 8).toUInt8 ::
        (addressOf msb lsb).toUInt8 :: type :: (rest.dropLast ++ [rest.getLast hne]) = _
      rw [addressOf_shiftRight, toUInt8_addressOf, hdata, List.dropLast_concat_getLast]

/-- A sum of bytes that is zero no longer is when one of them changes. -/
theorem sum_set_ne_zero {bytes : List UInt8} (hsum : bytes.sum = 0) {k : ℕ}
    (hk : k < bytes.length) {b : UInt8} (hb : b ≠ bytes[k]) : (bytes.set k b).sum ≠ 0 := by
  rw [List.sum_set', dif_pos hk, hsum, zero_add]
  intro h
  exact hb (neg_add_eq_zero.mp h).symm

theorem HexRecord.sum_bytes (r : HexRecord) : r.bytes.sum = 0 := by
  rw [HexRecord.bytes, List.sum_append, List.sum_singleton, HexRecord.checksum, add_neg_cancel]

theorem HexRecord.length_bytes (r : HexRecord) : r.bytes.length = r.data.length + 5 := by
  simp [HexRecord.bytes, HexRecord.body]

/-! ## Text -/

/-- Characters that spell digits are seen as those digits. -/
theorem filterMap_token_of_map_hexValue {chars ds : List UInt8}
    (h : chars.map hexValue = ds.map some) : chars.filterMap token = ds.map .digit := by
  induction chars generalizing ds with
  | nil =>
      rw [List.map_nil, eq_comm, List.map_eq_nil_iff] at h
      rw [h]
      rfl
  | cons c chars ih =>
      cases ds with
      | nil => cases h
      | cons d ds =>
          obtain ⟨hc, hchars⟩ := List.cons.inj h
          have hne : c ≠ 0x3A := by
            rintro rfl
            cases hc
          have htoken : token c = some (.digit d) := by rw [token, if_neg hne, hc]; rfl
          rw [List.filterMap_cons_some htoken, ih hchars]
          rfl

/-- **One wrong digit behind the count is noticed.** The text of a well-formed record with
one digit of its address, type, data or checksum replaced by another makes one call, from
any state and in either mode, and the sum that is passed is not the record's checksum. -/
theorem calls_wrong_digit (callback : Callback σ) (st : IntelHex × σ) (r : HexRecord)
    {chars : List UInt8} (hchars : chars.map hexValue = (digitsOf r.bytes).map some)
    {i : ℕ} (hi : 2 ≤ i) (hlt : i < chars.length) {c v : UInt8} (hc : hexValue c = some v)
    (hne : hexValue chars[i] ≠ some v) :
    ∃ call, calls callback st (0x3A :: chars.set i c) = [call] ∧
      call.sum ≠ call.record.checksum := by
  have hset : (chars.set i c).map hexValue = ((digitsOf r.bytes).set i v).map some := by
    rw [List.map_set, List.map_set, hchars, hc]
  obtain ⟨b, hb⟩ := exists_set_digitsOf r.bytes (i := i) (hexValue_lt hc)
  have hdigits : (digitsOf r.bytes).length = chars.length := by
    simpa using (congrArg List.length hchars).symm
  have hhalf : i / 2 < r.bytes.length := by
    have hpairs : (digitsOf r.bytes).length = 2 * r.bytes.length := by
      rw [digitsOf_eq_spell, length_spell, List.length_map]
    omega
  -- the byte changes: its digits do
  have hbyte : b ≠ r.bytes[i / 2] := by
    rintro rfl
    rw [List.set_getElem_self] at hb
    apply hne
    have hget : (chars.map hexValue)[i]? = some (some v) := by
      rw [hchars, ← hb, List.getElem?_map, List.getElem?_set_self (by omega)]
      rfl
    rw [List.getElem?_map, List.getElem?_eq_getElem hlt] at hget
    exact Option.some.inj hget
  have hcount : (r.bytes.set (i / 2) b).head? = some r.data.length.toUInt8 := by
    rw [List.head?_eq_getElem?, List.getElem?_set_ne (by omega)]
    rfl
  obtain ⟨l, hl⟩ := HexLine.exists_of_bytes r.length_le (by simpa using r.length_bytes) hcount
  refine ⟨l.call, ?_, ?_⟩
  · have htokens : (0x3A :: chars.set i c).filterMap token = l.tokens := by
      rw [List.filterMap_cons_some (rfl : token 0x3A = some .colon),
        filterMap_token_of_map_hexValue hset, hb, HexLine.tokens, hl]
    rw [calls_eq_trace_tokens, htokens, l.run]
  · rw [ne_eq, l.sum_eq_iff, hl]
    exact sum_set_ne_zero r.sum_bytes hhalf hbyte

/-- `:00000001FF` with its type digit changed to zero, in the middle of another record. -/
theorem calls_wrong_digit_type :
    ∃ call, calls (fun record _ w => (record, w + 1))
        (⟨.readDataLow, Record.clear ⟨.invalid, 0, 0, [], 0⟩, 3, 0xA0, true⟩, 0)
        (0x3A :: [0x30, 0x30, 0x30, 0x30, 0x30, 0x30, 0x30, 0x31, 0x46, 0x66].set 7 0x30) =
          [call] ∧
      call.sum ≠ call.record.checksum :=
  calls_wrong_digit (fun record _ w => (record, w + 1)) _ ⟨0x01, 0, [], by decide⟩ (by decide)
    (by decide) (by decide) (rfl : hexValue 0x30 = some 0) (by decide)

end DPFlow.IntelHex
