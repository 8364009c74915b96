import DPFlow.CanFrame.Validity
import DPFlow.SocketCan.FrameFlags

/-!
# Error masks in the identifier field

An error frame keeps its mask of errors where other frames keep their identifier, and
`isValid` does not tell the two apart: a field above eleven bits needs the extended flag.
`setId`, through which `readSocket` stores a mask, raises that flag, and `setError` does not.
So a mask that came from the bus is never what makes a frame invalid, and one that was set
may be.

## Main definitions

* `Datagram.Reports` — an error frame on the bus, with its mask.
* `MaskPasses` — the frame is valid with the mask, and goes to the socket with it.
-/
namespace DPFlow.SocketCanBackend

open Lib CanInterface

/-- The datagram is an error frame with the given mask. -/
def Datagram.Reports (d : Datagram) (m : BitVec 32) : Prop :=
  d.canId &&& rtrFlag = 0 ∧ d.canId &&& errFlag ≠ 0 ∧ d.canId &&& CanFrame.effMask = m

/-- After `setError(m)` the frame is valid and reports `m`, a connected backend that admits
its kind hands it to `write` with `m`, and the frame that `readSocket` makes of `m` is valid
too, unless it is by the number of its data bytes. -/
structure MaskPasses (f : CanFrame) (m : BitVec 32) : Prop where
  isValid : (f.setError m).isValid = true
  error : (f.setError m).error = m
  id : (f.setError m).id = 0
  sent : ∀ (b : SocketCanBackend) (write : Except String Unit), b._state = .connectedState →
    ((f.setError m).isFD = true → b._fdEnabled = true) →
    ∃ sent bytes, b.send (f.setError m) write = some sent ∧ sent.written = some bytes ∧
      (CanfdStruct.received bytes).canId = m ||| errFlag
  received : ∀ (b : SocketCanBackend) (before rest : List Datagram) (d : Datagram),
    (∀ e ∈ before, e.bytes ≠ []) → d.Accepted → d.Reports m → b.HandsOn before d rest ∧
    d.frame.frameType = .errorFrame ∧ d.frame.error = m ∧ d.frame.id = 0 ∧
    (d.frame.isValid = true ↔ d.len ≤ 8 ∨ d.len ∈ [12, 16, 20, 24, 32, 48, 64])

/-! ## Setting a mask -/

section errorFrame
variable {f : CanFrame} {m : BitVec 32}

theorem error_of_errorFrame (htype : f._type = .errorFrame) : f.error = f._id.setWidth 32 := by
  rw [CanFrame.error, if_neg (not_not_intro htype), setWidth_and_of_low _ effMask_low]

theorem id_of_errorFrame (htype : f._type = .errorFrame) : f.id = 0 := if_pos htype

/-- A mask of errors fits the field, and the field is all that changes. -/
theorem exists_setError_eq (htype : f._type = .errorFrame) (hm : m ≤ CanFrame.effMask) :
    ∃ x : BitVec 29, m = x.setWidth 32 ∧ f.setError m = { f with _id := x } := by
  obtain ⟨x, rfl⟩ := exists_setWidth (n := 29) (by decide)
    (Nat.lt_succ_of_le (BitVec.le_def.mp hm))
  refine ⟨x, rfl, ?_⟩
  rw [CanFrame.setError, if_neg (not_not_intro htype), setWidth_and_of_low x effMask_low,
    BitVec.setWidth_setWidth_of_le _ (by decide), BitVec.setWidth_eq]

theorem setError_getters (htype : f._type = .errorFrame) (hm : m ≤ CanFrame.effMask) :
    (f.setError m).frameType = .errorFrame ∧ (f.setError m).error = m ∧
      (f.setError m).id = 0 := by
  obtain ⟨x, rfl, hset⟩ := exists_setError_eq htype hm
  rw [hset]
  exact ⟨htype, error_of_errorFrame htype, id_of_errorFrame htype⟩

/-- A valid error frame stays valid just when it may have a field of that size. -/
theorem isValid_setError_iff (hvalid : f.isValid = true) (htype : f._type = .errorFrame)
    (hm : m ≤ CanFrame.effMask) :
    (f.setError m).isValid = true ↔ m.toNat ≤ 0x7FF ∨ f.isExtendedId = true := by
  obtain ⟨x, rfl, hset⟩ := exists_setError_eq htype hm
  obtain ⟨hnotInvalid, -, hid, hclassic, hflexible⟩ := (CanFrame.isValid_iff f).mp hvalid
  rw [hset, CanFrame.isValid_iff, BitVec.toNat_setWidth_of_le (by decide)]
  constructor
  · exact fun h => h.2.1
  · exact fun h => ⟨hnotInvalid, h, hid, hclassic, hflexible⟩

end errorFrame

/-! ## Sending -/

/-- The word of an error frame is its mask, flagged. -/
theorem canId_of_errorFrame {f : CanFrame} (htype : f.frameType = .errorFrame) :
    canId f = f.error ||| errFlag := by
  rw [canId_eq, wireFlags, if_pos htype, error_of_errorFrame htype]

/-! ## Receiving -/

/-- `setId` stores the identifier bits, and raises the extended flag for as many as need
it. -/
theorem Datagram.frame_field {d : Datagram} (hd : d.Accepted) :
    d.frame._id = d.canId.setWidth 29 ∧ d.frame._isValidId = true ∧
    (d.frame._id.toNat ≤ 0x7FF ∨ d.frame._isExtendedId = true) := by
  have hword : 4 ≤ d.bytes.length := le_trans (by decide) hd.size.1
  have hid : d.frame._id = d.canId.setWidth 29 := by
    rw [Datagram.frame, decode_eq _ _ _ _ (and_effMask_eq _), received_canId hword]
  refine ⟨hid, ?_, ?_⟩
  · rw [Datagram.frame, decode_eq _ _ _ _ (and_effMask_eq _)]
  · by_cases hupper : d.canId &&& CanFrame.effUpperMask = 0
    · refine .inl (not_lt.mp ?_)
      rw [← CanFrame.and_effUpperMask_ne_zero_iff, hid, not_not, and_effUpperMask_eq_zero_iff]
      exact hupper
    · have hext : d.frame.isExtendedId = _ := (Datagram.frame_flags hd).2.2.1
      rw [bne_iff_ne.mpr hupper, Bool.or_true] at hext
      exact .inr hext

/-- An accepted datagram that is not a remote request is valid by its number of data bytes
alone. -/
theorem Datagram.isValid_frame_iff {d : Datagram} (hd : d.Accepted)
    (hrtr : d.canId &&& rtrFlag = 0) :
    d.frame.isValid = true ↔ d.len ≤ 8 ∨ d.len ∈ [12, 16, 20, 24, 32, 48, 64] := by
  obtain ⟨-, -, -, hfd, htype⟩ := Datagram.frame_flags hd
  obtain ⟨-, hid, hwidth⟩ := Datagram.frame_field hd
  have hlen : d.frame._payload.length = d.len := Datagram.length_payload hd
  have hkind : d.frame._type ≠ .invalidFrame ∧ d.frame._type ≠ .remoteRequestFrame := by
    change d.frame.frameType ≠ _ ∧ d.frame.frameType ≠ _
    rw [htype, hrtr]
    cases d.canId &&& errFlag != 0 <;> decide
  have hclassic : d.frame._isFD = false → d.len ≤ 8 := by
    intro hnot
    change d.frame.isFD = false at hnot
    rw [hfd, Bool.or_eq_false_iff, decide_eq_false_iff_not] at hnot
    have hsize := hd.1.resolve_left hnot.2
    exact le_trans hd.2 (by rw [hsize]; decide)
  rw [CanFrame.isValid_iff, hlen]
  constructor
  · rintro ⟨-, -, -, -, hflexible⟩
    cases hcase : d.frame._isFD with
    | false => exact .inl (hclassic hcase)
    | true => exact (hflexible hcase).2
  · exact fun h => ⟨hkind.1, hwidth, hid, hclassic, fun _ => ⟨hkind.2, h⟩⟩

/-- The frame of a mask from the bus. -/
theorem Datagram.frame_reports {d : Datagram} {m : BitVec 32} (hd : d.Accepted)
    (hm : d.Reports m) :
    d.frame.frameType = .errorFrame ∧ d.frame.error = m ∧ d.frame.id = 0 := by
  obtain ⟨hrtr, herr, hmask⟩ := hm
  have htype : d.frame.frameType = .errorFrame := by
    rw [(Datagram.frame_flags hd).2.2.2.2, hrtr, bne_iff_ne.mpr herr]
    rfl
  refine ⟨htype, ?_, id_of_errorFrame htype⟩
  rw [error_of_errorFrame htype, (Datagram.frame_field hd).1, ← and_effMask_eq, hmask]

/-! ## Both ways -/

/-- **An error mask gets through** on a valid error frame, built by any setters, just when
it has at most eleven bits or the frame has the extended flag. -/
theorem maskPasses_iff (c : CanFrame.Constructor) (calls : List CanFrame.Setter)
    (hvalid : (CanFrame.setters.state c.make calls).isValid = true)
    (htype : (CanFrame.setters.state c.make calls).frameType = .errorFrame) {m : BitVec 32}
    (hm : m ≤ CanFrame.effMask) :
    MaskPasses (CanFrame.setters.state c.make calls) m ↔
      m.toNat ≤ 0x7FF ∨ (CanFrame.setters.state c.make calls).isExtendedId = true := by
  rw [← isValid_setError_iff hvalid htype hm]
  obtain ⟨hstays, herror, hid⟩ := setError_getters htype hm
  constructor
  · exact fun h => h.isValid
  · intro hset
    refine ⟨hset, herror, hid, ?_, ?_⟩
    · intro b write hconn henabled
      obtain ⟨bytes, hencode, -, hreceived⟩ :=
        encode_received (CanFrame.length_payload_le hset)
      obtain ⟨sent, hsend, hwritten, -⟩ := send_admitted hset hconn henabled hencode write
      refine ⟨sent, bytes, hsend, hwritten, ?_⟩
      rw [hreceived, wireStruct, canId_of_errorFrame hstays, herror]
    · intro b before rest d hbefore hd hreports
      obtain ⟨hkind, herr, hzero⟩ := Datagram.frame_reports hd hreports
      exact ⟨readSocket_append b hbefore hd rest, hkind, herr, hzero,
        Datagram.isValid_frame_iff hd hreports.1⟩

/-- Any error on a frame that was told to have an extended identifier. -/
theorem maskPasses_extended :
    MaskPasses (CanFrame.setters.state (CanFrame.Constructor.ofType .errorFrame).make
        [.setExtendedId true]) CanFrame.effMask ↔
      (CanFrame.effMask : BitVec 32).toNat ≤ 0x7FF ∨
        (CanFrame.setters.state (CanFrame.Constructor.ofType .errorFrame).make
          [.setExtendedId true]).isExtendedId = true :=
  maskPasses_iff (.ofType .errorFrame) [.setExtendedId true] (by decide) (by decide) (by decide)

/-- Any error on a new error frame: the frame is invalid, and a connected backend refuses it. -/
theorem maskPasses_fails :
    (let b : SocketCanBackend := { init "can0" with _state := .connectedState, _socket := 5 }
     b.send ((CanFrame.ofType .errorFrame).setError CanFrame.effMask) (.ok ()) =
       some ⟨false, none, b.setError "Cannot write invalid frame" .txError⟩) ∧
    ¬ ∀ (c : CanFrame.Constructor) (calls : List CanFrame.Setter) (m : BitVec 32),
      (CanFrame.setters.state c.make calls).isValid = true →
      (CanFrame.setters.state c.make calls).frameType = .errorFrame →
      m ≤ CanFrame.effMask → MaskPasses (CanFrame.setters.state c.make calls) m := by
  refine ⟨rfl, ?_⟩
  intro h
  have hpasses := h (.ofType .errorFrame) [] CanFrame.effMask (by decide) (by decide) (by decide)
  exact absurd hpasses.isValid (by decide)

end DPFlow.SocketCanBackend
