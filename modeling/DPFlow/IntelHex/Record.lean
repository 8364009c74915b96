import DPFlow.IntelHex.Tokens

/-!
# One record through the parser

Started in `readCountHigh`, the parser stays silent over every digit of a record
but the last, and at the last one delivers the record. This holds in both modes and
whatever the record under construction held before: only the data vector shows it,
since the parser appends to it. A record's digits are given as pairs here, one pair
to a byte.
-/
namespace DPFlow.IntelHex

open Lib
variable {σ : Type}

/-- The byte that a high and a low digit make. -/
def byteOf (d : UInt8 × UInt8) : UInt8 := 16 * d.1 + d.2

/-- The digits of a list of digit pairs. -/
def spell (ds : List (UInt8 × UInt8)) : List UInt8 := ds.flatMap fun d => [d.1, d.2]

@[simp] theorem spell_nil : spell [] = [] := rfl
@[simp] theorem spell_cons (d : UInt8 × UInt8) (ds : List (UInt8 × UInt8)) :
    spell (d :: ds) = d.1 :: d.2 :: spell ds := rfl
@[simp] theorem spell_append (ds es : List (UInt8 × UInt8)) :
    spell (ds ++ es) = spell ds ++ spell es := List.flatMap_append
@[simp] theorem length_spell (ds : List (UInt8 × UInt8)) :
    (spell ds).length = 2 * ds.length := by
  induction ds with
  | nil => rfl
  | cons d ds ih => simp only [spell_cons, List.length_cons, ih]; omega

/-- An even number of digits is a list of pairs. -/
theorem exists_spell : ∀ (m : ℕ) (ds : List UInt8), ds.length = 2 * m →
    ∃ ps : List (UInt8 × UInt8), ps.length = m ∧ spell ps = ds
  | 0, [], _ => ⟨[], rfl, rfl⟩
  | m + 1, h :: l :: ds, hlen => by
      have hm : ds.length = 2 * m := by simp only [List.length_cons] at hlen; omega
      obtain ⟨ps, hps, rfl⟩ := exists_spell m ds hm
      exact ⟨(h, l) :: ps, by simp [hps], rfl⟩

/-! ## Byte arithmetic -/

/-- The pending high digit and the low digit make the byte. -/
theorem shiftLeft_add_eq_byteOf (d : UInt8 × UInt8) : d.1 <<< 4 + d.2 = byteOf d := by
  have hshift : d.1 <<< 4 = 16 * d.1 := by
    apply UInt8.toNat_inj.mp
    simp only [UInt8.toNat_shiftLeft, UInt8.toNat_mul, Nat.shiftLeft_eq]
    simp [Nat.mul_comm]
  rw [hshift, byteOf]

theorem not_add_one (b : UInt8) : ~~~b + 1 = -b := by
  apply UInt8.toBitVec_inj.mp
  simp [BitVec.neg_eq_not_add]

/-- The address the parser assembles from its two bytes. -/
def addressOf (msb lsb : UInt8) : UInt16 := 256 * msb.toUInt16 + lsb.toUInt16

theorem shift_add_eq_addressOf (msb lsb : UInt8) :
    msb.toUInt16 <<< 8 + lsb.toUInt16 = addressOf msb lsb := by
  apply UInt16.toNat_inj.mp
  have := msb.toNat_lt
  simp [addressOf, Nat.shiftLeft_eq]
  omega

theorem toNat_addressOf (msb lsb : UInt8) :
    (addressOf msb lsb).toNat = 256 * msb.toNat + lsb.toNat := by
  have := msb.toNat_lt
  have := lsb.toNat_lt
  simp [addressOf]
  omega

@[simp] theorem addressOf_shiftRight (msb lsb : UInt8) :
    (addressOf msb lsb >>> 8).toUInt8 = msb := by
  apply UInt8.toNat_inj.mp
  have := msb.toNat_lt
  have := lsb.toNat_lt
  simp [toNat_addressOf, Nat.shiftRight_eq_div_pow]
  omega

@[simp] theorem toUInt8_addressOf (msb lsb : UInt8) : (addressOf msb lsb).toUInt8 = lsb := by
  apply UInt8.toNat_inj.mp
  have := lsb.toNat_lt
  simp [toNat_addressOf]

/-- Masking the low byte before the narrowing conversion changes nothing. -/
theorem toUInt8_and_mask (x : UInt16) : (x &&& 0xFF).toUInt8 = x.toUInt8 := by
  apply UInt8.toNat_inj.mp
  have hmask : x.toNat &&& 255 = x.toNat % 256 := Nat.and_two_pow_sub_one_eq_mod x.toNat 8
  rw [UInt16.toNat_toUInt8, UInt16.toNat_toUInt8, UInt16.toNat_and]
  simp [hmask]

/-! ## The digits of a record -/

/-- The data digits: each pair appends its byte, and the pair that reaches the
length byte ends the data. -/
theorem data_run (callback : Callback σ) (strict : Bool) (w : σ) :
    ∀ (ds : List (UInt8 × UInt8)) (r : Record) (pos pending : UInt8), ds ≠ [] →
      pos.toNat + ds.length = r.length.toNat →
      ∃ pending', (digitMachine callback).state (⟨.readDataHigh, r, pos, pending, strict⟩, w)
          (spell ds) =
            (⟨.readChecksumHigh, { r with data := r.data ++ ds.map byteOf }, r.length,
              pending', strict⟩, w) ∧
        (digitMachine callback).trace (⟨.readDataHigh, r, pos, pending, strict⟩, w)
          (spell ds) = [] := by
  intro ds
  induction ds with
  | nil => intro r pos pending h; exact absurd rfl h
  | cons d ds ih =>
      intro r pos pending _ hlen
      have hlt := r.length.toNat_lt
      have hpos : (pos + 1).toNat = pos.toNat + 1 := by
        simp only [List.length_cons] at hlen
        rw [UInt8.toNat_add]
        simp
        omega
      by_cases hds : ds = []
      · subst hds
        have hend : pos + 1 = r.length := UInt8.toNat_inj.mp (by simpa [hpos] using hlen)
        refine ⟨d.1 <<< 4, ?_, ?_⟩
        · simp [digitMachine, parseDigit, pend, hend, shiftLeft_add_eq_byteOf]
        · simp [digitMachine, parseDigit, pend]
      · have hne : 0 < ds.length := List.length_pos_iff.mpr hds
        have hgo : ¬ pos + 1 ≥ r.length := by
          simp only [List.length_cons] at hlen
          rw [ge_iff_le, UInt8.le_iff_toNat_le, hpos]
          omega
        obtain ⟨pending', hstate, htrace⟩ :=
          ih { r with data := r.data ++ [byteOf d] } (pos + 1) (d.1 <<< 4) hds
            (by
              change (pos + 1).toNat + ds.length = r.length.toNat
              simp only [List.length_cons] at hlen
              omega)
        refine ⟨pending', ?_, ?_⟩
        · simpa [digitMachine, parseDigit, pend, hgo, shiftLeft_add_eq_byteOf] using hstate
        · simpa [digitMachine, parseDigit, pend, hgo, shiftLeft_add_eq_byteOf] using htrace

/-- The record under construction once everything ahead of the checksum is read. -/
def recordAfter (r : Record) (n msb lsb type : UInt8 × UInt8) (ds : List (UInt8 × UInt8)) :
    Record :=
  { r with
    length := byteOf n
    address := addressOf (byteOf msb) (byteOf lsb)
    type := .ofByte (byteOf type)
    data := r.data ++ ds.map byteOf }

/-- Count, address, type and data: the parser ends up waiting for the checksum. -/
theorem body_run (callback : Callback σ) (strict : Bool) (w : σ) (r : Record)
    (pos pending : UInt8) (n msb lsb type : UInt8 × UInt8) (ds : List (UInt8 × UInt8))
    (hlen : ds.length = (byteOf n).toNat) :
    ∃ pos' pending', (digitMachine callback).state
        (⟨.readCountHigh, r, pos, pending, strict⟩, w) (spell (n :: msb :: lsb :: type :: ds)) =
          (⟨.readChecksumHigh, recordAfter r n msb lsb type ds, pos', pending', strict⟩, w) ∧
      (digitMachine callback).trace (⟨.readCountHigh, r, pos, pending, strict⟩, w)
        (spell (n :: msb :: lsb :: type :: ds)) = [] := by
  by_cases hds : ds = []
  · subst hds
    have hzero : byteOf n = 0 := UInt8.toNat_inj.mp (by simpa using hlen.symm)
    refine ⟨0, type.1 <<< 4, ?_, ?_⟩ <;>
      simp [digitMachine, parseDigit, pend, shiftLeft_add_eq_byteOf, hzero, recordAfter,
        shift_add_eq_addressOf]
  · have hpos : 0 < byteOf n := by
      have : 0 < ds.length := List.length_pos_iff.mpr hds
      rw [UInt8.lt_iff_toNat_lt]
      simpa [← hlen] using this
    obtain ⟨pending', hstate, htrace⟩ := data_run callback strict w ds
      (recordAfter r n msb lsb type []) 0 (type.1 <<< 4) hds (by simp [recordAfter, hlen])
    simp only [recordAfter, List.map_nil, List.append_nil] at hstate htrace
    refine ⟨byteOf n, pending', ?_, ?_⟩
    · simpa [digitMachine, parseDigit, pend, shiftLeft_add_eq_byteOf, hpos, recordAfter,
        shift_add_eq_addressOf] using hstate
    · simpa [digitMachine, parseDigit, pend, shiftLeft_add_eq_byteOf, hpos, recordAfter,
        shift_add_eq_addressOf] using htrace

/-- The record as it is delivered, with the checksum byte in place. -/
def delivered (r : Record) (n msb lsb type ck : UInt8 × UInt8) (ds : List (UInt8 × UInt8)) :
    Record :=
  { recordAfter r n msb lsb type ds with checksum := byteOf ck }

/-- **The last digit delivers the record**, and hands what the callback left of it
to the next state. -/
theorem record_run (callback : Callback σ) (strict : Bool) (w : σ) (r : Record)
    (pos pending : UInt8) (n msb lsb type ck : UInt8 × UInt8) (ds : List (UInt8 × UInt8))
    (hlen : ds.length = (byteOf n).toNat) :
    let record := delivered r n msb lsb type ck ds
    let after := callback record (checksum record) w
    ∃ pos' pending', (digitMachine callback).state
        (⟨.readCountHigh, r, pos, pending, strict⟩, w)
        (spell (n :: msb :: lsb :: type :: ds ++ [ck])) =
          (⟨if strict then .readWait else .readCountHigh, after.1, pos', pending', strict⟩,
            after.2) ∧
      (digitMachine callback).trace (⟨.readCountHigh, r, pos, pending, strict⟩, w)
        (spell (n :: msb :: lsb :: type :: ds ++ [ck])) = [⟨record, checksum record⟩] := by
  intro record after
  obtain ⟨pos', pending', hstate, htrace⟩ :=
    body_run callback strict w r pos pending n msb lsb type ds hlen
  refine ⟨pos', ck.1 <<< 4, ?_, ?_⟩
  · rw [spell_append, Mealy.state_append, hstate]
    simp [digitMachine, parseDigit, pend, shiftLeft_add_eq_byteOf, record, after, delivered]
  · rw [spell_append, Mealy.trace_append, hstate, htrace]
    simp [digitMachine, parseDigit, pend, shiftLeft_add_eq_byteOf, record, delivered]

/-- Ahead of its last digit a record is silent. -/
theorem record_silent (callback : Callback σ) (strict : Bool) (w : σ) (r : Record)
    (pos pending : UInt8) (n msb lsb type : UInt8 × UInt8) (ds : List (UInt8 × UInt8)) (c : UInt8)
    (hlen : ds.length = (byteOf n).toNat) :
    (digitMachine callback).trace (⟨.readCountHigh, r, pos, pending, strict⟩, w)
      (spell (n :: msb :: lsb :: type :: ds) ++ [c]) = [] := by
  obtain ⟨pos', pending', hstate, htrace⟩ :=
    body_run callback strict w r pos pending n msb lsb type ds hlen
  rw [Mealy.trace_append, hstate, htrace]
  simp [digitMachine, parseDigit]

/-! ## The computed checksum -/

theorem foldl_add_eq_add_sum (s : UInt8) (l : List UInt8) : l.foldl (· + ·) s = s + l.sum := by
  induction l generalizing s with
  | nil => simp
  | cons b l ih => rw [List.foldl_cons, ih, List.sum_cons, UInt8.add_assoc]

/-- The checksum loop adds up the first `length` bytes of the data vector. -/
theorem checksum_eq (r : Record) (h : r.length.toNat ≤ r.data.length) :
    checksum r = -(r.length + (r.address >>> 8).toUInt8 + r.address.toUInt8 + r.type.toByte +
      (r.data.take r.length.toNat).sum) := by
  have hloop : ∀ (n : ℕ) (s : UInt8), n ≤ r.data.length →
      (List.range n).foldl (fun sum i => sum + r.data.getD i 0) s =
        s + (r.data.take n).sum := by
    intro n s hn
    have hmap : (List.range n).map (fun i => r.data.getD i 0) = r.data.take n := by
      apply List.ext_getElem
      · simp [hn]
      · intro i hi hi'
        simp only [List.length_map, List.length_range] at hi
        simp [List.getElem?_eq_getElem (show i < r.data.length by omega)]
    rw [← hmap, ← foldl_add_eq_add_sum, List.foldl_map]
  rw [checksum, hloop _ _ h, not_add_one, toUInt8_and_mask]

end DPFlow.IntelHex
