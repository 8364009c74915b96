import DPFlow.CanFrame.Setters
import DPFlow.SocketCan.Wire

/-!
# Flags on their way through the socket

`send` has a place for the flags of flexible-rate frames in one of its two structs only.
`readSocket` reads both structs through the larger one, whose flags byte is a padding byte
of the other, and it sets the identifier after the extended flag, although `setId` raises
that flag by itself. The frame it builds says what the datagram says exactly when neither
of the two gets in the way.

## Main definitions

* `SendCarries` — what `send` writes has both flags of the frame.
* `Datagram.canId`, `Datagram.flags` — the words of a datagram that hold flags.
* `ReadsRight` — a frame that says what a datagram says.
-/
namespace DPFlow.SocketCanBackend

open Lib CanInterface

/-! ## Sending -/

/-- Whenever `send` writes the frame, the written flags byte has both its flags. -/
def SendCarries (f : CanFrame) : Prop :=
  ∀ (b : SocketCanBackend) (write : Except String Unit) (sent : Sent) (bytes : List UInt8),
    b.send f write = some sent → sent.written = some bytes →
      (bytes.getD 5 0 &&& canfdBrs != 0) = f.isBitrateSwitch ∧
      (bytes.getD 5 0 &&& canfdEsi != 0) = f.isErrorState

/-- `send` writes the encoding of a valid frame, or nothing. -/
theorem encode_of_written {b : SocketCanBackend} {f : CanFrame} {write : Except String Unit}
    {sent : Sent} {bytes : List UInt8} (hsend : b.send f write = some sent)
    (hwritten : sent.written = some bytes) : f.isValid = true ∧ encode f = some bytes := by
  rw [send] at hsend
  by_cases hstate : b._state ≠ .connectedState
  · rw [if_pos hstate] at hsend
    cases hsend
    cases hwritten
  rw [if_neg hstate] at hsend
  cases hvalid : f.isValid with
  | false =>
      rw [hvalid] at hsend
      cases hsend
      cases hwritten
  | true =>
      rw [hvalid] at hsend
      cases hgate : f.isFD && !b._fdEnabled with
      | true =>
          rw [hgate] at hsend
          cases hsend
          cases hwritten
      | false =>
          rw [hgate] at hsend
          cases hencode : encode f with
          | none =>
              rw [hencode] at hsend
              cases hsend
          | some bytes' =>
              rw [hencode] at hsend
              cases write <;> cases hsend <;> cases hwritten <;> exact ⟨rfl, rfl⟩

/-- A frame whose flags belong to its kind is sent with them. -/
theorem sendCarries_of_flagsFD {f : CanFrame} (hf : f.FlagsFD) : SendCarries f := by
  intro b write sent bytes hsend hwritten
  obtain ⟨hvalid, hencode⟩ := encode_of_written hsend hwritten
  rw [encode_eq (CanFrame.length_payload_le hvalid), Option.some.injEq] at hencode
  have hflags : bytes.getD 5 0 = if f.isFD then fdFlags f else 0 := by
    rw [← hencode]
    rfl
  rw [hflags, fdFlags]
  cases hb : f.isBitrateSwitch <;> cases he : f.isErrorState <;> cases hfd : f.isFD <;>
    first | decide | exact absurd (hf (by simp [hb, he])) (by simp [hfd])

/-- **Setter runs and the socket.** Through any calls of the setters on a new frame, the
flags stay with flexible-rate frames, and with them in what `send` writes, exactly when the
calls raise the error state on such frames only. -/
theorem flagsFD_sendCarries_iff (c : CanFrame.Constructor) (calls : List CanFrame.Setter) :
    (∀ pre, pre <+: calls → (CanFrame.setters.state c.make pre).FlagsFD ∧
      SendCarries (CanFrame.setters.state c.make pre)) ↔
    ∀ p ∈ CanFrame.setters.visits c.make calls, p.2 = .setErrorState true → p.1.isFD = true := by
  rw [← CanFrame.flagsFD_setters_iff]
  constructor
  · exact fun h pre hpre => (h pre hpre).1
  · exact fun h pre hpre => ⟨h pre hpre, sendCarries_of_flagsFD (h pre hpre)⟩

/-- The error state of a new frame. -/
theorem flagsFD_sendCarries_fails : ¬ ∀ (c : CanFrame.Constructor) (calls : List CanFrame.Setter),
    (CanFrame.setters.state c.make calls).FlagsFD ∧
      SendCarries (CanFrame.setters.state c.make calls) := by
  intro h
  have hflags := (h (.ofType .dataFrame) [.setErrorState true]).1 (.inr rfl)
  cases hflags

/-! ## Receiving -/

/-- `can_id`. -/
def Datagram.canId (d : Datagram) : BitVec 32 := BitVec.ofNat 32 (ofLeBytes (d.bytes.take 4))

/-- The byte that holds the flags of `canfd_frame`, and padding in `can_frame`. -/
def Datagram.flags (d : Datagram) : UInt8 := d.bytes.getD 5 0

/-- The frame says what the datagram says, each of its getters in the datagram's terms. -/
structure ReadsRight (d : Datagram) (f : CanFrame) : Prop where
  isFD : f.isFD = true ↔ d.bytes.length = canfdMtu
  isExtendedId : f.isExtendedId = (d.canId &&& effFlag != 0)
  classic : d.bytes.length = canMtu → f.isBitrateSwitch = false ∧ f.isErrorState = false
  flexible : d.bytes.length = canfdMtu →
    f.isBitrateSwitch = (d.flags &&& canfdBrs != 0) ∧
    f.isErrorState = (d.flags &&& canfdEsi != 0)
  frameType : f.frameType =
    if d.canId &&& rtrFlag != 0 then .remoteRequestFrame else .dataFrame
  payload : f.payload = (d.bytes.drop dataOffset).take d.len

/-- The identifier bits are a 29-bit field. -/
theorem and_effMask_eq (c : BitVec 32) :
    c &&& CanFrame.effMask = (c.setWidth 29).setWidth 32 := by
  apply BitVec.eq_of_toNat_eq
  rw [BitVec.toNat_and, BitVec.toNat_setWidth_of_le (by decide), BitVec.toNat_setWidth]
  exact Nat.and_two_pow_sub_one_eq_mod c.toNat 29

/-- The field has its upper bits from the word. -/
theorem and_effUpperMask_eq_zero_iff (c : BitVec 32) :
    c.setWidth 29 &&& CanFrame.effUpperMask = 0 ↔ c &&& CanFrame.effUpperMask = 0 := by
  have hmask : (CanFrame.effUpperMask : BitVec 32) &&& CanFrame.effMask =
      CanFrame.effUpperMask := by decide
  have hwide : c &&& CanFrame.effUpperMask =
      (c.setWidth 29 &&& CanFrame.effUpperMask).setWidth 32 := by
    rw [BitVec.setWidth_and, ← and_effMask_eq, BitVec.and_assoc, BitVec.and_comm CanFrame.effMask]
    change _ = c &&& ((CanFrame.effUpperMask : BitVec 32) &&& CanFrame.effMask)
    rw [hmask]
  rw [hwide, ← BitVec.toNat_inj, ← BitVec.toNat_inj, BitVec.toNat_setWidth_of_le (by decide)]
  rfl

theorem received_canId {d : Datagram} (h : 4 ≤ d.bytes.length) :
    (CanfdStruct.received d.bytes).canId = d.canId := by
  change BitVec.ofNat 32 (ofLeBytes ((d.bytes ++ _).take 4)) = _
  rw [List.take_append_of_le_length h, Datagram.canId]

theorem received_flags {d : Datagram} (h : 5 < d.bytes.length) :
    (CanfdStruct.received d.bytes).flags = d.flags := by
  change (d.bytes ++ _).getD 5 0 = _
  rw [List.getD_append _ _ _ _ h, Datagram.flags]

/-- The flags of the frame that an accepted datagram becomes, in the datagram's terms. -/
theorem Datagram.frame_flags {d : Datagram} (h : d.Accepted) :
    d.frame.isBitrateSwitch = (d.flags &&& canfdBrs != 0) ∧
    d.frame.isErrorState = (d.flags &&& canfdEsi != 0) ∧
    d.frame.isExtendedId =
      (d.canId &&& effFlag != 0 || d.canId &&& CanFrame.effUpperMask != 0) ∧
    d.frame.isFD = (d.flags &&& canfdBrs != 0 || decide (d.bytes.length = canfdMtu)) ∧
    d.frame.frameType = (if d.canId &&& rtrFlag != 0 then .remoteRequestFrame
      else if d.canId &&& errFlag != 0 then .errorFrame else .dataFrame) := by
  have hid := received_canId (d := d) (le_trans (by decide) h.size.1)
  have hflags := received_flags (d := d) (lt_of_lt_of_le (by decide) h.size.1)
  have hupper : (d.canId.setWidth 29 &&& CanFrame.effUpperMask != 0) =
      (d.canId &&& CanFrame.effUpperMask != 0) := by
    rw [Bool.eq_iff_iff, bne_iff_ne, bne_iff_ne, ne_eq, ne_eq, not_iff_not,
      and_effUpperMask_eq_zero_iff]
  have hshort : d.bytes.length ≠ canfdMtu →
      ¬ (((CanfdStruct.received d.bytes).data.take
        (CanfdStruct.received d.bytes).len.toNat).length > 8) := by
    intro hne
    have hlen := h.2
    rw [h.1.resolve_left hne] at hlen
    change ¬ d.frame.payload.length > 8
    rw [Datagram.length_payload h]
    exact not_lt.mpr hlen
  rw [Datagram.frame, decode_eq _ _ _ _ (and_effMask_eq _), hid, hflags, hupper]
  refine ⟨rfl, rfl, rfl, ?_, rfl⟩
  change (_ || _ || _) = _
  by_cases hfd : d.bytes.length = canfdMtu
  · rw [decide_eq_true hfd, Bool.or_true, Bool.true_or]
  · rw [decide_eq_false (hshort hfd), Bool.or_false]

/-- The frame of an accepted datagram without the error flag says what the datagram says
exactly when nothing in the datagram overrides it. -/
theorem readsRight_frame_iff {d : Datagram} (hd : d.Accepted) (herr : d.canId &&& errFlag = 0) :
    ReadsRight d d.frame ↔
      (d.bytes.length = canMtu → d.flags &&& canfdBrs = 0 ∧ d.flags &&& canfdEsi = 0) ∧
      (d.canId &&& effFlag = 0 → d.canId &&& CanFrame.effUpperMask = 0) := by
  obtain ⟨hbrs, hes, hext, hfd, htype⟩ := Datagram.frame_flags hd
  constructor
  · rintro ⟨-, hisExt, hclassic, -, -, -⟩
    constructor
    · intro hsmall
      obtain ⟨hnobrs, hnoes⟩ := hclassic hsmall
      rw [hbrs, bne_eq_false_iff_eq] at hnobrs
      rw [hes, bne_eq_false_iff_eq] at hnoes
      exact ⟨hnobrs, hnoes⟩
    · intro heff
      rw [hext, heff] at hisExt
      simpa using hisExt
  · rintro ⟨hflags, hupper⟩
    refine ⟨?_, ?_, ?_, fun _ => ⟨hbrs, hes⟩, ?_, (Datagram.frame_payload hd).1⟩
    · rw [hfd, Bool.or_eq_true, decide_eq_true_eq]
      refine ⟨?_, .inr⟩
      rintro (hset | hlarge)
      · by_contra hlarge
        rw [(hflags (hd.1.resolve_left hlarge)).1] at hset
        cases hset
      · exact hlarge
    · rw [hext]
      by_cases heff : d.canId &&& effFlag = 0
      · rw [heff, hupper heff]
        rfl
      · rw [bne_iff_ne.mpr heff, Bool.true_or]
    · intro hsmall
      rw [hbrs, hes, (hflags hsmall).1, (hflags hsmall).2]
      exact ⟨rfl, rfl⟩
    · rw [htype, herr]
      rfl

/-- **What a datagram says is what its frame says** exactly when a small datagram's padding
leaves the places of the two flags alone, and an identifier without the extended flag has
eleven bits. The datagram is one of those that a call of `readSocket` receives, and the call
enqueues the frame in its place. -/
theorem readSocket_readsRight_iff (b : SocketCanBackend) {before : List Datagram}
    (hbefore : ∀ e ∈ before, e.bytes ≠ []) {d : Datagram} (hd : d.Accepted)
    (herr : d.canId &&& errFlag = 0) (rest : List Datagram) :
    b.HandsOn before d rest ∧
    (ReadsRight d d.frame ↔
      (d.bytes.length = canMtu → d.flags &&& canfdBrs = 0 ∧ d.flags &&& canfdEsi = 0) ∧
      (d.canId &&& effFlag = 0 → d.canId &&& CanFrame.effUpperMask = 0)) :=
  ⟨readSocket_append b hbefore hd rest, readsRight_frame_iff hd herr⟩

/-- A classic frame whose padding byte is 1. -/
def paddedDatagram : Datagram :=
  ⟨[0x23, 0x01, 0x00, 0x00, 0x02, 0x01, 0x00, 0x00, 0xAA, 0xBB, 0, 0, 0, 0, 0, 0], 0,
    .ok (0, 0)⟩

/-- It comes out as a flexible-rate frame. -/
theorem readsRight_fails : ¬ ∀ d : Datagram, d.Accepted → d.canId &&& errFlag = 0 →
    ReadsRight d d.frame := by
  intro h
  have hright := h paddedDatagram (by decide) (by decide)
  exact absurd (hright.isFD.mp (by decide)) (by decide)

/-- It is received behind a datagram that is too short. -/
theorem readSocket_readsRight_padded :
    (init "can0").HandsOn [⟨[1, 2, 3], 0, .ok (7, 8)⟩] paddedDatagram [] ∧
    (ReadsRight paddedDatagram paddedDatagram.frame ↔
      (paddedDatagram.bytes.length = canMtu →
        paddedDatagram.flags &&& canfdBrs = 0 ∧ paddedDatagram.flags &&& canfdEsi = 0) ∧
      (paddedDatagram.canId &&& effFlag = 0 →
        paddedDatagram.canId &&& CanFrame.effUpperMask = 0)) :=
  readSocket_readsRight_iff (init "can0") (by decide) (by decide) (by decide) []

end DPFlow.SocketCanBackend
