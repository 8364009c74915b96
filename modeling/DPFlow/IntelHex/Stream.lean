import DPFlow.IntelHex.Strict

/-!
# Records without a start code

Without strictness the parser goes from the last checksum digit straight back to
`readCountHigh`, a path that does not clear the record. Count, address, type and
checksum are overwritten by the next record, but data bytes are appended, so the
data vector delivered with a record holds the data of all records since the last
colon, and the checksum loop adds up the oldest of them.
-/
namespace DPFlow.IntelHex

open Lib
variable {σ : Type}

/-- The two digits of a byte, as a pair. -/
def digitPair (b : UInt8) : UInt8 × UInt8 := (b >>> 4, b &&& 0xF)

@[simp] theorem byteOf_digitPair (b : UInt8) : byteOf (digitPair b) = b := by
  apply UInt8.toNat_inj.mp
  have hlow : b.toNat &&& 15 = b.toNat % 16 := Nat.and_two_pow_sub_one_eq_mod b.toNat 4
  have hlt := b.toNat_lt
  simp [byteOf, digitPair, Nat.shiftRight_eq_div_pow, hlow]
  omega

theorem digitsOf_eq_spell (bytes : List UInt8) :
    digitsOf bytes = spell (bytes.map digitPair) := by
  rw [digitsOf, spell, List.flatMap_map]
  rfl

theorem addressOf_bytes (a : UInt16) : addressOf (a >>> 8).toUInt8 a.toUInt8 = a := by
  apply UInt16.toNat_inj.mp
  have hlt := a.toNat_lt
  simp [toNat_addressOf, Nat.shiftRight_eq_div_pow]
  omega

namespace HexRecord

/-- The record as the parser delivers it when its data vector already holds `held`. -/
def recordOn (held : List UInt8) (r : HexRecord) : Record :=
  { r.record with data := held ++ r.data }

theorem toNat_length (r : HexRecord) : r.data.length.toUInt8.toNat = r.data.length := by
  have := r.length_le
  simp
  omega

theorem delivered_eq_recordOn (r : HexRecord) (r₀ : Record) :
    delivered r₀ (digitPair r.data.length.toUInt8) (digitPair (r.address >>> 8).toUInt8)
      (digitPair r.address.toUInt8) (digitPair r.type) (digitPair r.checksum)
      (r.data.map digitPair) = r.recordOn r₀.data := by
  simp [delivered, recordAfter, recordOn, record, addressOf_bytes, Function.comp_def]

/-- On an empty data vector the computed sum is the record's checksum byte. -/
theorem checksum_recordOn_nil (r : HexRecord) :
    IntelHex.checksum (r.recordOn []) = r.checksum := by
  rw [checksum_eq _ (by simp [recordOn, record, r.toNat_length])]
  simp [recordOn, record, checksum, body, List.take_of_length_le, r.toNat_length,
    UInt8.add_assoc]

/-- The digits of one record, through a parser that does not insist on colons. -/
theorem run (callback : Callback σ) (hcb : ∀ record sum w, (callback record sum w).1 = record)
    (r : HexRecord) (r₀ : Record) (pos pending : UInt8) (w : σ) :
    ∃ pos' pending' w', (digitMachine callback).state
        (⟨.readCountHigh, r₀, pos, pending, false⟩, w) (digitsOf r.bytes) =
          (⟨.readCountHigh, r.recordOn r₀.data, pos', pending', false⟩, w') ∧
      (digitMachine callback).trace (⟨.readCountHigh, r₀, pos, pending, false⟩, w)
        (digitsOf r.bytes) = [⟨r.recordOn r₀.data, IntelHex.checksum (r.recordOn r₀.data)⟩] := by
  obtain ⟨pos', pending', hstate, htrace⟩ := record_run callback false w r₀ pos pending
    (digitPair r.data.length.toUInt8) (digitPair (r.address >>> 8).toUInt8)
    (digitPair r.address.toUInt8) (digitPair r.type) (digitPair r.checksum)
    (r.data.map digitPair) (by simp [r.toNat_length])
  rw [delivered_eq_recordOn] at hstate htrace
  have hspell : digitsOf r.bytes = spell (digitPair r.data.length.toUInt8 ::
      digitPair (r.address >>> 8).toUInt8 :: digitPair r.address.toUInt8 :: digitPair r.type ::
        r.data.map digitPair ++ [digitPair r.checksum]) := by
    simp [digitsOf_eq_spell, bytes, body]
  rw [hspell, hstate, htrace]
  exact ⟨pos', pending', _, by rw [hcb]; rfl, rfl⟩

end HexRecord

/-- The invocations for records read back to back, from a data vector holding `held`. -/
def streamCalls (held : List UInt8) : List HexRecord → List Call
  | [] => []
  | r :: rs =>
      ⟨r.recordOn held, checksum (r.recordOn held)⟩ :: streamCalls (held ++ r.data) rs

theorem trace_stream (callback : Callback σ)
    (hcb : ∀ record sum w, (callback record sum w).1 = record) (rs : List HexRecord) :
    ∀ (r₀ : Record) (pos pending : UInt8) (w : σ),
      (digitMachine callback).trace (⟨.readCountHigh, r₀, pos, pending, false⟩, w)
        (digitsOf (rs.flatMap HexRecord.bytes)) = streamCalls r₀.data rs := by
  induction rs with
  | nil => intro r₀ pos pending w; rfl
  | cons r rs ih =>
      intro r₀ pos pending w
      obtain ⟨pos', pending', w', hstate, htrace⟩ := r.run callback hcb r₀ pos pending w
      have hsplit : digitsOf ((r :: rs).flatMap HexRecord.bytes) =
          digitsOf r.bytes ++ digitsOf (rs.flatMap HexRecord.bytes) := by
        rw [List.flatMap_cons, digitsOf, List.flatMap_append]
        rfl
      rw [hsplit, Mealy.trace_append, hstate, htrace, ih]
      rfl

/-- A record comes out as written exactly when the data vector was empty. -/
theorem HexRecord.call_eq_iff (r : HexRecord) (held : List UInt8) :
    (⟨r.recordOn held, IntelHex.checksum (r.recordOn held)⟩ : Call) = r.call ↔ held = [] := by
  constructor
  · intro h
    have hdata : held ++ r.data = r.data := congrArg (fun c => c.record.data) h
    exact List.append_left_eq_self.mp hdata
  · rintro rfl
    rw [r.checksum_recordOn_nil]
    rfl

/-- All records come out as written exactly when none but the last holds data. -/
theorem streamCalls_eq_iff (rs : List HexRecord) : ∀ held : List UInt8, rs ≠ [] →
    (streamCalls held rs = rs.map HexRecord.call ↔
      held = [] ∧ ∀ r ∈ rs.dropLast, r.data = []) := by
  induction rs with
  | nil => intro held h; exact absurd rfl h
  | cons r rs ih =>
      intro held _
      rw [streamCalls, List.map_cons, List.cons.injEq, r.call_eq_iff]
      cases rs with
      | nil => simp [streamCalls]
      | cons r' rs =>
          rw [ih (held ++ r.data) (by simp), List.dropLast_cons_cons, List.forall_mem_cons,
            List.append_eq_nil_iff]
          tauto

/-- **Records read back to back come out as written exactly when all but the last
are without data.** The text is one colon and the records' digits, in either case,
with skipped characters anywhere. -/
theorem calls_stream_iff (callback : Callback σ)
    (hcb : ∀ record sum w, (callback record sum w).1 = record) (st : IntelHex × σ)
    (hstrict : st.1.mStrict = false) (rs : List HexRecord) (hne : rs ≠ []) (text : List UInt8)
    (htext : text.filterMap token =
      .colon :: (digitsOf (rs.flatMap HexRecord.bytes)).map .digit) :
    calls callback st text = rs.map HexRecord.call ↔ ∀ r ∈ rs.dropLast, r.data = [] := by
  have hcalls : calls callback st text = streamCalls [] rs := by
    rw [calls_eq_trace_tokens, htext, Mealy.trace_cons]
    have hrestart : (tokenMachine callback).step st .colon =
        ((⟨.readCountHigh, st.1.mRec.clear, 0, 0, false⟩, st.2), []) := by
      rw [← hstrict]
      rfl
    rw [hrestart, trace_map_digit, trace_stream callback hcb]
    rfl
  rw [hcalls, streamCalls_eq_iff rs [] hne]
  simp

/-- `:0000000000` and `01000100BB43` behind it: the first record is empty. -/
theorem calls_stream_empty_first :
    calls (fun record _ w => (record, w)) (init false, ())
        [0x3A, 0x30, 0x30, 0x30, 0x30, 0x30, 0x30, 0x30, 0x30, 0x30, 0x30,
          0x30, 0x31, 0x30, 0x30, 0x30, 0x31, 0x30, 0x30, 0x42, 0x42, 0x34, 0x33] =
      [HexRecord.call ⟨0, 0, [], by decide⟩, HexRecord.call ⟨0, 1, [0xBB], by decide⟩] :=
  (calls_stream_iff (fun record _ w => (record, w)) (fun _ _ _ => rfl) (init false, ()) rfl
    [⟨0, 0, [], by decide⟩, ⟨0, 1, [0xBB], by decide⟩] (by simp) _ (by decide)).mpr (by simp)

/-- `:01000000AA55` and `01000100BB43` behind it: the second data vector is `AA BB`. -/
theorem calls_stream_stale_data :
    let rs : List HexRecord := [⟨0, 0, [0xAA], by decide⟩, ⟨0, 1, [0xBB], by decide⟩]
    let text : List UInt8 :=
      [0x3A, 0x30, 0x31, 0x30, 0x30, 0x30, 0x30, 0x30, 0x30, 0x41, 0x41, 0x35, 0x35,
        0x30, 0x31, 0x30, 0x30, 0x30, 0x31, 0x30, 0x30, 0x42, 0x42, 0x34, 0x33]
    text.filterMap token = .colon :: (digitsOf (rs.flatMap HexRecord.bytes)).map .digit ∧
      calls (fun record _ w => (record, w)) (init false, ()) text ≠ rs.map HexRecord.call := by
  decide

end DPFlow.IntelHex
