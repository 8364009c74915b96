import DPFlow.IntelHex.Tokens

/-!
# The indices of a record's data

The checksum loop reads `data[0]` up to `data[length - 1]` unchecked. What keeps it within
the vector is `m_pos`: it is set to zero behind the record type and counts the data bytes as
they are appended, up to the length and not beyond, so it does not wrap either. In between
the two it is left over from the record before, and so, without strictness, is the data.

## Main definitions

* `ReadState.inHeader` — behind the count and ahead of the end of the type.
* `IndexSafe` — the position, the length and the data of a parser go together.
* `Indexed` — the same for each of the thirteen states, as every step keeps it.
* `checkedChecksum` — the checksum loop, with its indices checked.
-/
namespace DPFlow.IntelHex

open Lib
variable {σ : Type}

/-- The length is that of the new record, and the position still that of the one before. -/
def ReadState.inHeader : ReadState → Bool
  | readAddressMsbHigh | readAddressMsbLow | readAddressLsbHigh | readAddressLsbLow
  | readRecordTypeHigh | readRecordTypeLow => true
  | readWait | readCountHigh | readCountLow | readDataHigh | readDataLow
  | readChecksumHigh | readChecksumLow => false

/-- What the position says about the data. -/
structure IndexSafe (p : IntelHex) : Prop where
  /-- `m_pos++` is an addition without overflow. -/
  noWrap : p.mState = .readDataLow → (p.mPos + 1).toNat = p.mPos.toNat + 1
  position : p.mState.inHeader = false → p.mPos ≤ p.mRec.length
  stored : p.mPos.toNat ≤ p.mRec.data.length
  /-- Ahead of the last checksum digit. -/
  whole : p.mState = .readChecksumLow → p.mRec.length.toNat ≤ p.mRec.data.length

/-- The checksum loop, where `data[i]` is nothing when it is out of range. -/
def checkedChecksum (record : Record) : Option UInt8 := do
  let sum := record.length + (record.address >>> 8).toUInt8 +
    (record.address &&& 0xFF).toUInt8 + record.type.toByte
  let sum ← (List.range record.length.toNat).foldlM
    (fun sum i => record.data[i]?.map fun b => sum + b) sum
  return ~~~sum + 1

/-! ## The loop -/

theorem checked_loop (data : List UInt8) (sum : UInt8) (n : ℕ) :
    (List.range n).foldlM (fun sum i => data[i]?.map fun b => sum + b) sum =
      if n ≤ data.length then
        some ((List.range n).foldl (fun sum i => sum + data.getD i 0) sum)
      else none := by
  induction n with
  | zero => rfl
  | succ n ih =>
      rw [List.range_succ, List.foldlM_append, List.foldl_append, ih]
      by_cases hlt : n < data.length
      · rw [if_pos hlt.le, if_pos (Nat.succ_le_of_lt hlt)]
        simp [List.getElem?_eq_getElem hlt]
      · rw [if_neg (mt Nat.lt_of_succ_le hlt)]
        split_ifs
        · simp [List.getElem?_eq_none (not_lt.mp hlt)]
        · rfl

/-- The loop stays within the data just when there are as many bytes as the length says. -/
theorem checkedChecksum_eq (record : Record) :
    checkedChecksum record =
      if record.length.toNat ≤ record.data.length then some (checksum record) else none := by
  rw [checkedChecksum, checked_loop]
  split_ifs <;> rfl

/-! ## One character -/

/-- Where the position may stand in each state, for a record of the given length. -/
def ReadState.Admits (pos length : UInt8) : ReadState → Prop
  | readWait | readCountHigh | readCountLow => pos ≤ length
  | readAddressMsbHigh | readAddressMsbLow | readAddressLsbHigh | readAddressLsbLow
  | readRecordTypeHigh | readRecordTypeLow => True
  | readDataHigh | readDataLow => pos < length
  | readChecksumHigh | readChecksumLow => pos = length

/-- The invariant of the parser. -/
structure Indexed (p : IntelHex) : Prop where
  admits : p.mState.Admits p.mPos p.mRec.length
  stored : p.mPos.toNat ≤ p.mRec.data.length

/-- Below another byte, a byte has room for one more. -/
theorem toNat_add_one_of_lt {a b : UInt8} (h : a < b) : (a + 1).toNat = a.toNat + 1 := by
  have hlt := b.toNat_lt
  rw [UInt8.lt_iff_toNat_lt] at h
  rw [UInt8.toNat_add]
  change (a.toNat + 1) % 2 ^ 8 = a.toNat + 1
  omega

theorem Indexed.indexSafe {p : IntelHex} (H : Indexed p) : IndexSafe p where
  noWrap hstate := by
    have hlt : p.mPos < p.mRec.length := by simpa [hstate, ReadState.Admits] using H.admits
    exact toNat_add_one_of_lt hlt
  position hstate := by
    have hadmits := H.admits
    cases hcase : p.mState with
    | readWait | readCountHigh | readCountLow =>
        rw [hcase] at hadmits
        exact hadmits
    | readDataHigh | readDataLow =>
        rw [hcase] at hadmits
        exact UInt8.le_of_lt hadmits
    | readChecksumHigh | readChecksumLow =>
        rw [hcase] at hadmits
        exact UInt8.le_of_eq hadmits
    | _ =>
        rw [hcase] at hstate
        cases hstate
  stored := H.stored
  whole hstate := by
    have hfull : p.mPos = p.mRec.length := by simpa [hstate, ReadState.Admits] using H.admits
    rw [← hfull]
    exact H.stored

theorem indexed_init (strict : Bool) : Indexed (init strict) where
  admits := UInt8.le_refl 0
  stored := le_rfl

/-- The colon clears the record and the position. -/
theorem indexed_restart (p : IntelHex) : Indexed (restart p) where
  admits := UInt8.le_refl 0
  stored := le_rfl

/-- A data byte is appended and counted. -/
theorem Indexed.dataLow {p : IntelHex} (H : Indexed p) (hlt : p.mPos < p.mRec.length)
    (b : UInt8) :
    Indexed { p with
      mRec.data := p.mRec.data ++ [b]
      mPos := p.mPos + 1
      mState := if p.mPos + 1 ≥ p.mRec.length then .readChecksumHigh else .readDataHigh } where
  admits := by
    have hnext := toNat_add_one_of_lt hlt
    rw [UInt8.lt_iff_toNat_lt] at hlt
    dsimp only
    split_ifs with hlast
    · apply UInt8.toNat_inj.mp
      rw [ge_iff_le, UInt8.le_iff_toNat_le] at hlast
      omega
    · exact UInt8.not_le.mp hlast
  stored := by
    rw [List.length_append, List.length_singleton, toNat_add_one_of_lt hlt]
    exact Nat.succ_le_succ H.stored

/-- **One digit**, in each of the thirteen states. -/
theorem Indexed.parseDigit {callback : Callback σ}
    (hcb : ∀ record sum w, (callback record sum w).1 = record) {st : IntelHex × σ}
    (H : Indexed st.1) (b : UInt8) : Indexed (parseDigit callback st b).1.1 := by
  obtain ⟨⟨state, record, pos, pending, strict⟩, w⟩ := st
  have hadmits := H.admits
  have hstored := H.stored
  cases state with
  | readWait => exact H
  | readCountHigh | readDataHigh | readChecksumHigh => exact ⟨hadmits, hstored⟩
  | readAddressMsbHigh | readAddressLsbHigh | readRecordTypeHigh => exact ⟨trivial, hstored⟩
  | readCountLow | readAddressMsbLow | readAddressLsbLow => exact ⟨trivial, hstored⟩
  | readRecordTypeLow =>
      -- the position starts over: there is data to come, or there is none
      refine ⟨?_, Nat.zero_le _⟩
      change (if record.length > 0 then ReadState.readDataHigh
        else .readChecksumHigh).Admits 0 record.length
      split_ifs with hdata
      · exact hdata
      · exact (UInt8.le_zero_iff.mp (UInt8.not_lt.mp hdata)).symm
  | readDataLow => exact H.dataLow hadmits _
  | readChecksumLow =>
      -- the callback leaves the record, and the position stays at its end
      have hrecord := hcb { record with checksum := pending + b }
      have hend : pos ≤ record.length := UInt8.le_of_eq hadmits
      refine ⟨?_, ?_⟩
      · change (if strict then ReadState.readWait else .readCountHigh).Admits pos
          (callback _ _ w).1.length
        rw [hrecord]
        cases strict
        · exact hend
        · exact hend
      · change pos.toNat ≤ (callback _ _ w).1.data.length
        rw [hrecord]
        exact hstored

/-- **One character.** -/
theorem Indexed.parseByte {callback : Callback σ}
    (hcb : ∀ record sum w, (callback record sum w).1 = record) {st : IntelHex × σ}
    (H : Indexed st.1) (c : UInt8) : Indexed (parseByte callback st c).1.1 := by
  rw [parseByte_eq]
  cases token c with
  | none => exact H
  | some t =>
      cases t with
      | colon => exact indexed_restart st.1
      | digit v => exact H.parseDigit hcb v

/-- What the last checksum digit delivers has all its data. -/
theorem Indexed.digit_call {callback : Callback σ} {st : IntelHex × σ} (H : Indexed st.1)
    (b : UInt8) : ∀ call ∈ (IntelHex.parseDigit callback st b).2,
      call.record.length.toNat ≤ call.record.data.length ∧
        call.sum = checksum call.record := by
  obtain ⟨⟨state, record, pos, pending, strict⟩, w⟩ := st
  intro call hcall
  cases state with
  | readChecksumLow =>
      obtain rfl := List.mem_singleton.mp hcall
      exact ⟨H.indexSafe.whole rfl, rfl⟩
  | _ => cases hcall

theorem Indexed.byte_call {callback : Callback σ} {st : IntelHex × σ} (H : Indexed st.1)
    (c : UInt8) : ∀ call ∈ (IntelHex.parseByte callback st c).2,
      call.record.length.toNat ≤ call.record.data.length ∧
        call.sum = checksum call.record := by
  rw [parseByte_eq]
  cases token c with
  | none => exact fun call hcall => absurd hcall List.not_mem_nil
  | some t =>
      cases t with
      | colon => exact fun call hcall => absurd hcall List.not_mem_nil
      | digit v => exact H.digit_call v

/-! ## Runs -/

/-- **Every index is in range.** After any bytes, in either mode and with any callback that
leaves the record alone, the position, the length and the data go together, in whichever
state the parser is; and each record was delivered with as many data bytes as its length
says, the sum with it the one of the loop that checks its indices. -/
theorem indexSafe_run (callback : Callback σ)
    (hcb : ∀ record sum w, (callback record sum w).1 = record) (strict : Bool) (w : σ)
    (data : List UInt8) :
    IndexSafe ((machine callback).state (init strict, w) data).1 ∧
    ∀ call ∈ calls callback (init strict, w) data,
      call.record.length.toNat ≤ call.record.data.length ∧
        checkedChecksum call.record = some call.sum := by
  constructor
  · have hrun : Indexed ((machine callback).state (init strict, w) data).1 :=
      (machine callback).state_induction (fun st => Indexed st.1) _ data (indexed_init strict)
        fun _ c _ H => H.parseByte hcb c
    exact hrun.indexSafe
  · intro call hcall
    obtain ⟨hwhole, hsum⟩ := (machine callback).trace_induction (fun st => Indexed st.1)
      (fun call => call.record.length.toNat ≤ call.record.data.length ∧
        call.sum = checksum call.record)
      (init strict, w) data (indexed_init strict) (fun _ c H => H.parseByte hcb c)
      (fun _ c H => H.byte_call c) call hcall
    refine ⟨hwhole, ?_⟩
    rw [checkedChecksum_eq, if_pos hwhole, hsum]

/-- `:01000000AA55` and `01000100BB43` behind it, without strictness: at the end of the second
record the data vector is longer than the length. -/
theorem indexSafe_run_stale :
    let callback : Callback Unit := fun record _ w => (record, w)
    let text : List UInt8 :=
      [0x3A, 0x30, 0x31, 0x30, 0x30, 0x30, 0x30, 0x30, 0x30, 0x41, 0x41, 0x35, 0x35,
        0x30, 0x31, 0x30, 0x30, 0x30, 0x31, 0x30, 0x30, 0x42, 0x42, 0x34, 0x33]
    (calls callback (init false, ()) text).map (fun call => call.record.data) =
        [[0xAA], [0xAA, 0xBB]] ∧
      IndexSafe ((machine callback).state (init false, ()) text).1 ∧
      ∀ call ∈ calls callback (init false, ()) text,
        call.record.length.toNat ≤ call.record.data.length ∧
          checkedChecksum call.record = some call.sum :=
  ⟨by decide, indexSafe_run (fun record _ w => (record, w)) (fun _ _ _ => rfl) false () _⟩

end DPFlow.IntelHex
