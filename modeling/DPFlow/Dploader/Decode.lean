import DPFlow.Dploader.Escape

/-!
# What `decode` finds in a frame

`decode` removes the escapes first and searches for the closing `EOT` afterwards, from
the back. By then a data byte with that value looks like a delimiter, so the search is
right exactly when no such byte stands in its way. The offset it returns counts from the
back too, while the slices and the checksum bytes are taken with it from the front: on a
frame that ends with its `EOT` the offset is zero, and the first slice leaves the vector.

## Main definitions

* `frame` — an encoded frame.
* `ReadsTrailer` — the accesses of `decode` that a frame's layout asks for.
* `FindsClosing` — the search is never misled by a data byte.
-/
namespace DPFlow.Dploader

open Lib

/-- An encoded frame. -/
def frame (b : List UInt8) : List UInt8 := [SOH] ++ escape b ++ [EOT]

/-! ## Unescaping a frame -/

/-- The opening delimiter and the escaped bytes come out as they went in. -/
theorem unescape_frame_append {rest u : List UInt8} (b : List UInt8)
    (h : unescape rest = some u) :
    unescape ([SOH] ++ escape b ++ rest) = some (SOH :: b ++ u) := by
  have hSOH : SOH ≠ stuffing.esc := by decide
  rw [unescape_eq_decode] at h
  rw [unescape_eq_decode, escape_eq_encode, List.append_assoc, List.singleton_append,
    stuffing.decode_cons_of_ne hSOH, stuffing.decode_encode_append, h]
  rfl

theorem unescape_truncated (b : List UInt8) : unescape ([SOH] ++ escape b) = some (SOH :: b) := by
  have h := unescape_frame_append b (rfl : unescape [] = some [])
  rwa [List.append_nil, List.append_nil] at h

theorem unescape_trailed (b t : List UInt8) :
    unescape (frame b ++ escape t) = some (SOH :: b ++ EOT :: t) := by
  have hEOT : EOT ≠ stuffing.esc := by decide
  have hrest : unescape (EOT :: escape t) = some (EOT :: t) := by
    rw [unescape_eq_decode, escape_eq_encode, stuffing.decode_cons_of_ne hEOT,
      stuffing.decode_encode]
    rfl
  have h := unescape_frame_append b hrest
  rwa [frame, List.append_assoc _ [EOT]]

/-! ## The search -/

theorem findEOT_eq_length_iff (v : List UInt8) : findEOT v = v.length ↔ EOT ∉ v := by
  rw [findEOT, ← List.length_reverse, List.findIdx_eq_length]
  constructor
  · intro h hmem
    exact absurd (h EOT (List.mem_reverse.mpr hmem)) (by decide)
  · intro h x hx
    rw [beq_eq_false_iff_ne]
    rintro rfl
    exact h (List.mem_reverse.mp hx)

/-- The search finds an `EOT` exactly when there is none behind it. -/
theorem findEOT_eq_iff (p t : List UInt8) : findEOT (p ++ EOT :: t) = t.length ↔ EOT ∉ t := by
  rw [findEOT, List.reverse_append, List.reverse_cons, List.append_assoc, List.findIdx_append]
  have hbehind : t.reverse.findIdx (· == EOT) < t.reverse.length ↔ EOT ∈ t := by
    rw [List.findIdx_lt_length]
    simp
  by_cases hmem : EOT ∈ t
  · have hlt := hbehind.mpr hmem
    rw [if_pos hlt]
    rw [List.length_reverse] at hlt
    exact iff_of_false hlt.ne (not_not.mpr hmem)
  · rw [if_neg (mt hbehind.mp hmem)]
    refine iff_of_true ?_ hmem
    simp [List.findIdx_cons]

theorem decode_of_unescape {data u : List UInt8} (h : unescape data = some u) :
    decode data = some ⟨u, findEOT u, findEOT u == u.length, decodeFrom u (findEOT u)⟩ := by
  rw [decode, h]
  rfl

/-! ## Delimiters -/

/-- On `b` cut off before its end, and on the frame of `b` with escaped bytes `t` behind
it, the search takes no data byte for a delimiter. -/
def FindsClosing (b t : List UInt8) : Prop :=
  (∃ k, decode ([SOH] ++ escape b) = some k ∧
    k.endOffset = k.unescaped.length ∧ k.incomplete = true) ∧
  (∃ k, decode (frame b ++ escape t) = some k ∧
    k.unescaped = SOH :: b ++ EOT :: t ∧ k.endOffset = t.length)

/-- **The search is right exactly when no data byte has the value of the delimiter.** -/
theorem findsClosing_iff (b t : List UInt8) : FindsClosing b t ↔ EOT ∉ b ∧ EOT ∉ t := by
  have hSOH : EOT ∉ SOH :: b ↔ EOT ∉ b := by
    rw [List.mem_cons, not_or]
    exact and_iff_right (by decide)
  rw [FindsClosing, decode_of_unescape (unescape_truncated b),
    decode_of_unescape (unescape_trailed b t)]
  constructor
  · rintro ⟨⟨k, hk, hend, -⟩, k', hk', -, hend'⟩
    cases hk
    cases hk'
    exact ⟨hSOH.mp ((findEOT_eq_length_iff _).mp hend), (findEOT_eq_iff _ t).mp hend'⟩
  · rintro ⟨hb, ht⟩
    have hnone := (findEOT_eq_length_iff (SOH :: b)).mpr (hSOH.mpr hb)
    exact ⟨⟨_, rfl, hnone, beq_iff_eq.mpr hnone⟩, _, rfl, rfl, (findEOT_eq_iff _ t).mpr ht⟩

/-- A truncated frame with one data byte, which has the value of the delimiter. -/
theorem findsClosing_fails : ¬ ∀ b t, FindsClosing b t := by
  intro h
  obtain ⟨⟨k, hk, hend, -⟩, -⟩ := h [EOT] []
  have hk' : decode ([SOH] ++ escape [EOT]) = some ⟨[SOH, EOT], 0, false, .error .payload⟩ := rfl
  rw [hk'] at hk
  cases hk
  exact absurd hend (by decide)

/-! ## The accesses -/

theorem byteAt_ok_iff {fault : DecodeFault} {v : List UInt8} {i : ℤ} :
    (∃ b, byteAt fault v i = .ok b) ↔ 0 ≤ i ∧ i < v.length := by
  unfold byteAt
  by_cases hneg : i < 0
  · rw [if_pos hneg]
    constructor
    · rintro ⟨b, hb⟩
      cases hb
    · rintro ⟨hle, -⟩
      omega
  rw [if_neg hneg]
  cases hget : v[i.toNat]? with
  | none =>
      have hlen := List.getElem?_eq_none_iff.mp hget
      constructor
      · rintro ⟨b, hb⟩
        cases hb
      · rintro ⟨-, hlt⟩
        omega
  | some b =>
      obtain ⟨hlen, -⟩ := List.getElem?_eq_some_iff.mp hget
      exact iff_of_true ⟨b, rfl⟩ ⟨by omega, by omega⟩

theorem bind_ok_iff {ε α β : Type} {x : Except ε α} {f : α → Except ε β} {b : β} :
    (x >>= f) = .ok b ↔ ∃ a, x = .ok a ∧ f a = .ok b := by
  cases x with
  | error e => exact iff_of_false (fun h => nomatch h) (fun ⟨_, h, _⟩ => nomatch h)
  | ok a => exact ⟨fun h => ⟨a, rfl, h⟩, fun ⟨_, h, hb⟩ => by cases h; exact hb⟩

theorem isInvalid_ok_iff {u : List UInt8} {k : ℕ} :
    (∃ b, isInvalid u k = .ok b) ↔ u ≠ [] ∧ (u.head? = some SOH → k < u.length) := by
  cases u with
  | nil => exact iff_of_false (fun ⟨_, h⟩ => nomatch h) (fun h => h.1 rfl)
  | cons first rest =>
      have hfirst : byteAt .firstByte (first :: rest) 0 = .ok first := rfl
      simp only [isInvalid, bind_ok_iff, hfirst, Except.ok.injEq, exists_eq_left',
        List.head?_cons, Option.some.injEq, ne_eq, reduceCtorEq, not_false_eq_true, true_and]
      by_cases hSOH : first = SOH
      · subst hSOH
        rw [if_neg (by decide)]
        constructor
        · intro h _
          obtain ⟨b, closing, hclosing, -⟩ := by simpa only [bind_ok_iff] using h
          have hend := (byteAt_ok_iff.mp ⟨closing, hclosing⟩).1
          omega
        · intro h
          have hend := h rfl
          obtain ⟨closing, hclosing⟩ :=
            (@byteAt_ok_iff .endByte (SOH :: rest) ((SOH :: rest).length - k - 1)).mpr (by omega)
          exact ⟨closing != EOT, bind_ok_iff.mpr ⟨closing, hclosing, rfl⟩⟩
      · rw [if_pos (by simpa using hSOH)]
        exact iff_of_true ⟨true, rfl⟩ (fun h => absurd h hSOH)

/-- **`decode` stays inside its buffer exactly when three bytes stand behind the `EOT` it
has found**, or, with no opening delimiter, in the whole buffer. -/
theorem decodeFrom_ok_iff {u : List UInt8} {k : ℕ} (hk : k ≤ u.length) :
    (∃ f, decodeFrom u k = .ok f) ↔ 3 ≤ k ∧ (u.head? = some SOH → k < u.length) := by
  have hresized : (u.take k).length = k := List.length_take_of_le hk
  constructor
  · rintro ⟨f, h⟩
    simp only [decodeFrom, bind_ok_iff] at h
    obtain ⟨invalid, hinvalid, payload, -, low, hlow, -⟩ := h
    have hlow := (byteAt_ok_iff.mp ⟨low, hlow⟩).1
    exact ⟨by omega, (isInvalid_ok_iff.mp ⟨invalid, hinvalid⟩).2⟩
  · rintro ⟨hthree, hend⟩
    have hne : u ≠ [] := by
      rintro rfl
      simp at hk
      omega
    obtain ⟨invalid, hinvalid⟩ := isInvalid_ok_iff.mpr ⟨hne, hend⟩
    obtain ⟨low, hlow⟩ := (@byteAt_ok_iff .checksum (u.take k) (k - 3)).mpr (by omega)
    obtain ⟨high, hhigh⟩ := (@byteAt_ok_iff .checksum (u.take k) (k - 2)).mpr (by omega)
    have hpayload : payloadOf (u.take k) = .ok ((u.take k).take ((u.take k).length - 2)) :=
      if_neg (by omega)
    simp only [decodeFrom, hinvalid, hpayload, hlow, hhigh]
    exact ⟨_, rfl⟩
/-! ## The checksum bytes -/

/-- On the frame of `b`, `decode` stays inside its buffer, compares the last two bytes of
`b`, and sums up nothing but what stands ahead of them. -/
def ReadsTrailer (b : List UInt8) : Prop :=
  ∃ k f, decode (frame b) = some k ∧ k.frame = .ok f ∧
    f.crcRx = crcRx (b.getD (b.length - 2) 0) (b.getD (b.length - 1) 0) ∧
    f.payload <+: SOH :: b.take (b.length - 2)

/-- **No frame is read as it is laid out**: the search ends where it starts, and no byte
stands behind the delimiter. -/
theorem not_readsTrailer (b : List UInt8) : ¬ ReadsTrailer b := by
  have hunescape : unescape (frame b) = some (SOH :: b ++ [EOT]) := by
    have h := unescape_trailed b []
    rwa [show escape [] = [] from rfl, List.append_nil] at h
  have hend : findEOT (SOH :: b ++ [EOT]) = 0 := (findEOT_eq_iff (SOH :: b) []).mpr (by simp)
  rintro ⟨k, f, hk, hf, -⟩
  rw [decode_of_unescape hunescape, hend] at hk
  cases hk
  obtain ⟨hthree, -⟩ := (decodeFrom_ok_iff (Nat.zero_le _)).mp ⟨f, hf⟩
  exact absurd hthree (by decide)

/-- A frame of two bytes: the slice of its payload ends ahead of the buffer. -/
theorem readsTrailer_fails : ¬ ∀ b : List UInt8, 2 ≤ b.length → ReadsTrailer b := by
  intro h
  obtain ⟨k, f, hk, hf, -⟩ := h [0xAA, 0xBB] (by decide)
  have hk' : decode (frame [0xAA, 0xBB]) =
      some ⟨[SOH, 0xAA, 0xBB, EOT], 0, false, .error .payload⟩ := rfl
  rw [hk'] at hk
  cases hk
  cases hf

end DPFlow.Dploader
