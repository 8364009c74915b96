import DPFlow.SocketCan.Receive

/-!
# A sent frame and the frame read back

`send` packs a frame into one of the two kernel structs, and `readSocket` unpacks a
datagram with code of its own, through setters that touch each other's fields. On the
frames that `send` admits, what comes back looks the same through every getter, but
that an error frame's identifier is a bit mask and loses the extended flag.

## Main definitions

* `SocketCanBackend.Agrees` — two frames that look the same.
* `SocketCanBackend.wireFlags` — the flags above the identifier in `can_id`.
* `SocketCanBackend.Enqueues` — a datagram is received as one frame.
-/
namespace DPFlow

open Lib CanInterface

namespace SocketCanBackend

/-! ## The identifier word -/

/-- The flags that `send` sets above the identifier. -/
def wireFlags (frame : CanFrame) : BitVec 32 :=
  if frame.frameType = .errorFrame then errFlag
  else (if frame.isExtendedId then effFlag else 0) |||
    (if frame.frameType = .remoteRequestFrame then rtrFlag else 0)

theorem effMask_low : ∀ i < 29, i < 32 → (CanFrame.effMask : BitVec 32).getLsbD i = true := by
  decide

theorem effMask_low_64 :
    ∀ i < 29, i < 64 → (CanFrame.effMask : BitVec 64).getLsbD i = true := by
  decide

/-- `can_id` is the identifier field under the flags, for every kind of frame. -/
theorem canId_eq (frame : CanFrame) :
    canId frame = frame._id.setWidth 32 ||| wireFlags frame := by
  have hmask : frame._id.setWidth 32 &&& CanFrame.effMask = frame._id.setWidth 32 :=
    setWidth_and_of_low _ effMask_low
  have hid : (frame._id.setWidth 64 &&& CanFrame.effMask).setWidth 32 =
      frame._id.setWidth 32 := by
    rw [setWidth_and_of_low _ effMask_low_64, BitVec.setWidth_setWidth_of_le _ (by decide)]
  unfold canId wireFlags CanFrame.frameType CanFrame.id CanFrame.error
  cases frame._type <;> cases frame.isExtendedId <;>
    simp [hmask, hid, BitVec.or_assoc]

/-- Masking `can_id` gives the identifier field back. -/
theorem canId_and_effMask (frame : CanFrame) :
    canId frame &&& CanFrame.effMask = frame._id.setWidth 32 := by
  have hflags : wireFlags frame &&& CanFrame.effMask = 0#32 := by
    rw [wireFlags]
    split_ifs <;> decide
  rw [canId_eq]
  exact setWidth_or_and_field _ effMask_low hflags

/-- A flag in `can_id` is a flag that was set. -/
theorem canId_and_flag (frame : CanFrame) (flag : BitVec 32)
    (hflag : ∀ i < 29, i < 32 → flag.getLsbD i = false) :
    canId frame &&& flag = wireFlags frame &&& flag := by
  rw [canId_eq]
  exact setWidth_or_and_flag _ hflag

/-! ## The structs as bytes -/

/-- What a datagram leaves in the zeroed buffer: its header, and its data with zeros up
to the end of the array. -/
theorem received_eq (canId : BitVec 32) (len flags res0 res1 : UInt8) (data : List UInt8) :
    CanfdStruct.received (leBytes 4 canId.toNat ++ [len, flags, res0, res1] ++ data) =
      ⟨canId, len, flags, res0, res1,
        data ++ List.replicate (canfdDataSize - data.length) 0⟩ := by
  have hid : BitVec.ofNat 32 (ofLeBytes (leBytes 4 canId.toNat)) = canId := by
    rw [ofLeBytes_leBytes canId.isLt, BitVec.ofNat_toNat, BitVec.setWidth_eq]
  have hpad : canfdMtu - (leBytes 4 canId.toNat ++ [len, flags, res0, res1] ++ data).length =
      canfdDataSize - data.length := by
    rw [List.length_append, List.length_append, length_leBytes]
    change 72 - (4 + 4 + data.length) = 64 - data.length
    omega
  simp only [CanfdStruct.received, hpad]
  -- the header is eight list cells, so taking it apart is computation
  exact congrArg (fun id => CanfdStruct.mk id len flags res0 res1
    (data ++ List.replicate (canfdDataSize - data.length) 0)) hid

/-- Copying a whole source into a zeroed array. -/
theorem memcpy_zero {src : List UInt8} {n : ℕ} (h : src.length ≤ n) :
    memcpy (List.replicate n 0) src src.length =
      some (src ++ List.replicate (n - src.length) 0) := by
  rw [memcpy, if_pos ⟨by rwa [List.length_replicate], le_rfl⟩, List.take_length,
    List.drop_replicate]

/-- A payload that fits has its length in the struct's length byte. -/
theorem toNat_ofNat_length {frame : CanFrame}
    (hlen : frame.payload.length ≤ if frame.isFD then canfdDataSize else canDataSize) :
    (UInt8.ofNat frame.payload.length).toNat = frame.payload.length := by
  rw [UInt8.toNat_ofNat']
  refine Nat.mod_eq_of_lt (lt_of_le_of_lt hlen ?_)
  split <;> decide

/-- The flags byte of a flexible-rate frame. -/
def fdFlags (frame : CanFrame) : UInt8 :=
  (if frame.isBitrateSwitch then canfdBrs else 0) |||
    (if frame.isErrorState then canfdEsi else 0)

/-- What `send` writes for a frame whose payload fits: the header, then the payload with
zeros up to the end of the array. -/
theorem encode_eq {frame : CanFrame}
    (hlen : frame.payload.length ≤ if frame.isFD then canfdDataSize else canDataSize) :
    encode frame = some (leBytes 4 (canId frame).toNat ++
      [UInt8.ofNat frame.payload.length, if frame.isFD then fdFlags frame else 0, 0, 0] ++
      (frame.payload ++ List.replicate
        ((if frame.isFD then canfdDataSize else canDataSize) - frame.payload.length) 0)) := by
  simp only [encode, toNat_ofNat_length hlen]
  cases hfd : frame.isFD with
  | true =>
      rw [hfd, if_pos rfl] at hlen
      simp [memcpy_zero hlen, CanfdStruct.toBytes, CanfdStruct.zero, fdFlags]
  | false =>
      rw [hfd, if_neg Bool.false_ne_true] at hlen
      simp [memcpy_zero hlen, CanStruct.toBytes, CanStruct.zero]

/-- The receive buffer after the frame has come back. -/
def wireStruct (frame : CanFrame) : CanfdStruct :=
  { canId := canId frame
    len := UInt8.ofNat frame.payload.length
    flags := if frame.isFD then fdFlags frame else 0
    res0 := 0
    res1 := 0
    data := frame.payload ++ List.replicate (canfdDataSize - frame.payload.length) 0 }

/-- The bytes that `send` writes have the struct's size, and leave that buffer. -/
theorem encode_received {frame : CanFrame}
    (hlen : frame.payload.length ≤ if frame.isFD then canfdDataSize else canDataSize) :
    ∃ bytes, encode frame = some bytes ∧
      bytes.length = (if frame.isFD then canfdMtu else canMtu) ∧
      CanfdStruct.received bytes = wireStruct frame := by
  refine ⟨_, encode_eq hlen, ?_, ?_⟩
  · rw [List.length_append, List.length_append, List.length_append, length_leBytes,
      List.length_replicate, Nat.add_sub_cancel' hlen]
    split <;> rfl
  · have hzeros : (if frame.isFD then canfdDataSize else canDataSize) - frame.payload.length +
        (canfdDataSize - (if frame.isFD then canfdDataSize else canDataSize)) =
        canfdDataSize - frame.payload.length := by
      revert hlen
      split
      · exact fun _ => by rw [Nat.sub_self, Nat.add_zero]
      · change frame.payload.length ≤ 8 → 8 - frame.payload.length + (64 - 8) =
          64 - frame.payload.length
        omega
    rw [received_eq, wireStruct, List.length_append, List.length_replicate,
      Nat.add_sub_cancel' hlen, List.append_assoc, List.replicate_append_replicate, hzeros]

/-! ## Reading back -/

/-- Two frames that look the same through their getters. An error frame's extended flag
is not looked at. -/
structure Agrees (frame frame' : CanFrame) : Prop where
  frameType : frame'.frameType = frame.frameType
  id : frame'.id = frame.id
  error : frame'.error = frame.error
  isFD : frame'.isFD = frame.isFD
  isBitrateSwitch : frame'.isBitrateSwitch = frame.isBitrateSwitch
  isErrorState : frame'.isErrorState = frame.isErrorState
  payload : frame'.payload = frame.payload
  isExtendedId : frame.frameType ≠ .errorFrame → frame'.isExtendedId = frame.isExtendedId

/-- The members of a decoded frame, for an identifier word that holds a 29-bit field. -/
theorem decode_eq (raw : CanfdStruct) {x : BitVec 29} (bytesRx : ℕ)
    (timestamp : CanFrame.Timestamp) (msgFlags : BitVec 32)
    (hx : raw.canId &&& CanFrame.effMask = x.setWidth 32) :
    decode raw bytesRx timestamp msgFlags =
      { _id := x
        _type := if raw.canId &&& rtrFlag != 0 then .remoteRequestFrame
          else if raw.canId &&& errFlag != 0 then .errorFrame else .dataFrame
        _isExtendedId := raw.canId &&& effFlag != 0 || x &&& CanFrame.effUpperMask != 0
        _isErrorState := raw.flags &&& canfdEsi != 0
        _isFD := (raw.flags &&& canfdBrs != 0 || bytesRx = canfdMtu) ||
          (raw.data.take raw.len.toNat).length > 8
        _isBRS := raw.flags &&& canfdBrs != 0
        _isEcho := msgFlags &&& msgConfirm != 0
        _isValidId := true
        _payload := raw.data.take raw.len.toNat
        _timestamp := timestamp } := by
  have hid : (raw.canId &&& CanFrame.effMask).setWidth 64 = x.setWidth 64 := by
    rw [hx]
    exact BitVec.setWidth_setWidth (by decide)
  simp only [decode, hid, CanFrame.setId_setWidth, CanFrame.ofType_eq]
  cases raw.canId &&& rtrFlag != 0 <;> cases raw.canId &&& errFlag != 0 <;>
    cases raw.flags &&& canfdBrs != 0 <;> cases raw.flags &&& canfdEsi != 0 <;>
    cases msgFlags &&& msgConfirm != 0 <;>
    simp [CanFrame.setPayload, CanFrame.setFrameType, CanFrame.setFD,
      CanFrame.setBitrateSwitch, CanFrame.setErrorState, CanFrame.setTimestamp,
      CanFrame.setExtendedId, CanFrame.setLocalEcho, CanFrame.blank]

/-- What the types that can be sent make of the flags in `can_id`. -/
theorem canId_flags {frame : CanFrame}
    (htype : frame.frameType ∈
      [CanFrame.FrameType.dataFrame, .remoteRequestFrame, .errorFrame]) :
    (if canId frame &&& rtrFlag != 0 then CanFrame.FrameType.remoteRequestFrame
      else if canId frame &&& errFlag != 0 then .errorFrame else .dataFrame) =
        frame.frameType ∧
    (frame.frameType ≠ .errorFrame →
      (canId frame &&& effFlag != 0) = frame.isExtendedId) := by
  rw [canId_and_flag frame rtrFlag (by decide),
    canId_and_flag frame errFlag (by decide),
    canId_and_flag frame effFlag (by decide)]
  unfold wireFlags
  cases htypeEq : frame.frameType with
  | dataFrame => cases frame.isExtendedId <;> decide
  | remoteRequestFrame => cases frame.isExtendedId <;> decide
  | errorFrame => cases frame.isExtendedId <;> decide
  | unknownFrame =>
      rw [htypeEq] at htype
      exact absurd htype (by decide)
  | invalidFrame =>
      rw [htypeEq] at htype
      exact absurd htype (by decide)

/-- What comes back of the flags byte. -/
theorem wireStruct_flags {frame : CanFrame} (hreach : frame.Reachable)
    (hes : frame.isErrorState = true → frame.isFD = true) :
    ((wireStruct frame).flags &&& canfdBrs != 0) = frame.isBitrateSwitch ∧
    ((wireStruct frame).flags &&& canfdEsi != 0) = frame.isErrorState := by
  have hbrs : frame.isBitrateSwitch = true → frame.isFD = true := hreach.isFD_of_isBRS
  simp only [wireStruct, fdFlags]
  cases hb : frame.isBitrateSwitch <;> cases he : frame.isErrorState <;>
    cases hf : frame.isFD <;> simp_all <;> decide

/-- A valid frame with an 11-bit identifier has no bits above it. -/
theorem isExtendedId_of_upper {frame : CanFrame} (hvalid : frame.isValid = true)
    (hupper : frame._id &&& CanFrame.effUpperMask ≠ 0) : frame.isExtendedId = true := by
  obtain ⟨-, hwidth, -⟩ := (CanFrame.isValid_iff frame).mp hvalid
  rw [CanFrame.and_effUpperMask_ne_zero_iff] at hupper
  exact hwidth.resolve_left (not_le.mpr hupper)

/-- What `readSocket` makes of the buffer looks like the frame that was sent. -/
theorem decode_agrees {frame : CanFrame} (hreach : frame.Reachable)
    (hvalid : frame.isValid = true)
    (htype : frame.frameType ∈
      [CanFrame.FrameType.dataFrame, .remoteRequestFrame, .errorFrame])
    (hes : frame.isErrorState = true → frame.isFD = true)
    (timestamp : CanFrame.Timestamp) (msgFlags : BitVec 32) :
    Agrees frame (decode (wireStruct frame) (if frame.isFD then canfdMtu else canMtu)
      timestamp msgFlags) := by
  have hlen := CanFrame.length_payload_le hvalid
  have hpayload : (wireStruct frame).data.take (wireStruct frame).len.toNat = frame.payload :=
    List.take_left' (toNat_ofNat_length hlen).symm
  obtain ⟨hbrs, hesi⟩ := wireStruct_flags hreach hes
  obtain ⟨hkind, hext⟩ := canId_flags htype
  have hbrsFD : frame.isBitrateSwitch = true → frame.isFD = true := hreach.isFD_of_isBRS
  rw [decode_eq (wireStruct frame) _ timestamp msgFlags (canId_and_effMask frame), hpayload,
    hbrs, hesi]
  have htypeEq : (if (wireStruct frame).canId &&& rtrFlag != 0 then
      CanFrame.FrameType.remoteRequestFrame
    else if (wireStruct frame).canId &&& errFlag != 0 then .errorFrame else .dataFrame) =
      frame._type := hkind
  rw [htypeEq]
  constructor
  · rfl
  · rfl
  · rfl
  · cases hfd : frame.isFD with
    | true => simp [CanFrame.isFD]
    | false =>
        -- no flag and no long payload could have made it a flexible-rate frame
        have hnobrs : frame.isBitrateSwitch = false := by
          rw [Bool.eq_false_iff]
          intro h
          rw [hbrsFD h] at hfd
          cases hfd
        rw [hfd, if_neg Bool.false_ne_true] at hlen
        simp [CanFrame.isFD, hnobrs, canMtu, canfdMtu, hlen]
  · rfl
  · rfl
  · rfl
  · intro hne
    have hflag : ((wireStruct frame).canId &&& effFlag != 0) = frame.isExtendedId := hext hne
    change ((wireStruct frame).canId &&& effFlag != 0 ||
      frame._id &&& CanFrame.effUpperMask != 0) = frame.isExtendedId
    rw [hflag]
    cases hupper : frame._id &&& CanFrame.effUpperMask != 0 with
    | false => exact Bool.or_false _
    | true => rw [isExtendedId_of_upper hvalid (bne_iff_ne.mp hupper), Bool.true_or]

/-- The bytes of a frame are a datagram that is accepted, and read as a frame that looks the
same. -/
theorem frame_agrees {frame : CanFrame} (hreach : frame.Reachable)
    (hvalid : frame.isValid = true)
    (htype : frame.frameType ∈
      [CanFrame.FrameType.dataFrame, .remoteRequestFrame, .errorFrame])
    (hes : frame.isErrorState = true → frame.isFD = true) {bytes : List UInt8}
    (hencode : encode frame = some bytes) (msgFlags : BitVec 32)
    (stamp : Except String (Int64 × Int64)) :
    Datagram.Accepted ⟨bytes, msgFlags, stamp⟩ ∧
      Agrees frame (Datagram.frame ⟨bytes, msgFlags, stamp⟩) := by
  have hlen := CanFrame.length_payload_le hvalid
  obtain ⟨bytes', hencode', hsize, hreceived⟩ := encode_received hlen
  rw [hencode] at hencode'
  cases hencode'
  constructor
  · constructor
    · change bytes.length = canfdMtu ∨ bytes.length = canMtu
      rw [hsize]
      split
      · exact .inl rfl
      · exact .inr rfl
    · rw [← Datagram.received_len, hreceived]
      change (UInt8.ofNat frame.payload.length).toNat ≤ bytes.length - dataOffset
      rw [toNat_ofNat_length hlen, hsize]
      refine hlen.trans ?_
      split <;> decide
  · rw [Datagram.frame, hreceived, hsize]
    exact decode_agrees hreach hvalid htype hes _ _

/-- A call of `readSocket` on the datagram enqueues that one frame: whatever slot there is, it
runs with the frame behind the queue, and with one that only asks for the count the call
returns so. -/
structure Enqueues (r : SocketCanBackend) (datagram : Datagram) (frame' : CanFrame) : Prop where
  delivers : ∃ i : CanInterface, i._rxFrames = r._rxFrames ++ [frame'] ∧
    ∀ slot, r.readSocket slot [datagram] =
      (slot.run rxCall i).map fun i' => { r with toCanInterface := i'.unlockRx }
  returns : ∀ slot : Slot, slot.Answered (underLock (r._rxFrames.length + 1)) →
    ∃ r', r.readSocket slot [datagram] = .ok r' ∧ r'._rxFrames = r._rxFrames ++ [frame']

/-- An accepted datagram is received as its frame. -/
theorem enqueues_frame {r : SocketCanBackend} (hfree : r._rxLock = false) {datagram : Datagram}
    (h : datagram.Accepted) : r.Enqueues datagram datagram.frame := by
  have hsize : ∀ d ∈ [datagram], 1 ≤ d.bytes.length ∧ d.bytes.length ≤ canfdMtu := by
    intro d hd
    rw [List.mem_singleton.mp hd]
    exact ⟨le_trans (by decide) h.size.1, h.size.2⟩
  have hframes : acceptedFrames [datagram] = [datagram.frame] := by
    rw [acceptedFrames, List.filter_cons_of_pos (by simpa using h), List.filter_nil, List.map_cons,
      List.map_nil]
  constructor
  · obtain ⟨t, hqueue, hlock, -, -, -, hread⟩ := readSocket_eq hsize r
    refine ⟨t.delivering [datagram.frame], congrArg (· ++ _) hqueue, ?_⟩
    intro slot
    rw [hread, hframes, enqueueRxFrames, enqueueRxFrames_eq (hlock.trans hfree)]
    cases slot.run rxCall (t.delivering [datagram.frame]) <;> rfl
  · intro slot hslot
    have hcount : slot.Answered
        (underLock (r._rxFrames.length + (acceptedFrames [datagram]).length)) := by
      rwa [hframes]
    obtain ⟨r', hread, -, hqueue, -, -⟩ := readSocket_answered hsize hfree hcount
    rw [hframes] at hqueue
    exact ⟨r', hread, hqueue⟩

/-- A connected backend writes a valid frame of a kind that it admits. -/
theorem send_admitted {b : SocketCanBackend} {frame : CanFrame} {bytes : List UInt8}
    (hvalid : frame.isValid = true) (hconn : b._state = .connectedState)
    (henabled : frame.isFD = true → b._fdEnabled = true) (hencode : encode frame = some bytes)
    (write : Except String Unit) :
    ∃ sent, b.send frame write = some sent ∧ sent.written = some bytes ∧
      (write = .ok () → sent = ⟨true, some bytes, b⟩) := by
  have hgate : (frame.isFD && !b._fdEnabled) = false := by
    cases hfd : frame.isFD with
    | false => rfl
    | true => rw [henabled hfd]; rfl
  rw [send, if_neg (not_not_intro hconn), hvalid, hgate, hencode]
  cases write with
  | error errno => exact ⟨_, rfl, rfl, fun h => nomatch h⟩
  | ok u => exact ⟨_, rfl, rfl, fun _ => rfl⟩

/-- **A frame survives the socket.** A valid data, remote or error frame, built by any
setters, that reports an error state only as a flexible-rate frame: a connected backend,
with flexible rate enabled if the frame needs it, writes one struct of the right size
whose data array holds the payload; and `readSocket`, on that one datagram, enqueues one
frame that looks the same. -/
theorem send_readSocket {frame : CanFrame} (hreach : frame.Reachable)
    (hvalid : frame.isValid = true)
    (htype : frame.frameType ∈
      [CanFrame.FrameType.dataFrame, .remoteRequestFrame, .errorFrame])
    (hes : frame.isErrorState = true → frame.isFD = true)
    {b : SocketCanBackend} (hconn : b._state = .connectedState)
    (henabled : frame.isFD = true → b._fdEnabled = true) :
    ∃ bytes, b.send frame (.ok ()) = some ⟨true, some bytes, b⟩ ∧
      bytes.length = (if frame.isFD then 72 else 16) ∧
      frame.payload.length ≤ (if frame.isFD then 64 else 8) ∧
      ∀ (r : SocketCanBackend) (msgFlags : BitVec 32) (stamp : Except String (Int64 × Int64)),
        msgFlags &&& msgConfirm = 0 → r._rxLock = false →
        ∃ frame', Agrees frame frame' ∧ r.Enqueues ⟨bytes, msgFlags, stamp⟩ frame' := by
  have hlen := CanFrame.length_payload_le hvalid
  obtain ⟨bytes, hencode, hsize, -⟩ := encode_received hlen
  refine ⟨bytes, ?_, hsize, hlen, ?_⟩
  · obtain ⟨sent, hsend, -, hok⟩ := send_admitted hvalid hconn henabled hencode (.ok ())
    rw [hsend, hok rfl]
  · intro r msgFlags stamp _ hfree
    obtain ⟨haccepted, hagrees⟩ := frame_agrees hreach hvalid htype hes hencode msgFlags stamp
    exact ⟨_, hagrees, enqueues_frame hfree haccepted⟩

/-- A flexible-rate frame of twelve bytes with an extended identifier. -/
theorem send_readSocket_fd :
    let frame := ((CanFrame.ofData 0x12345 (List.replicate 12 7)).setBitrateSwitch true)
    let b : SocketCanBackend := { init "can0" with
      _state := .connectedState, _socket := 5, _fdEnabled := true }
    ∃ bytes, b.send frame (.ok ()) = some ⟨true, some bytes, b⟩ ∧
      bytes.length = (if frame.isFD then 72 else 16) ∧
      frame.payload.length ≤ (if frame.isFD then 64 else 8) ∧
      ∀ (r : SocketCanBackend) (msgFlags : BitVec 32) (stamp : Except String (Int64 × Int64)),
        msgFlags &&& msgConfirm = 0 → r._rxLock = false →
        ∃ frame', Agrees frame frame' ∧ r.Enqueues ⟨bytes, msgFlags, stamp⟩ frame' :=
  send_readSocket (.setBitrateSwitch true (.ofData 0x12345 (List.replicate 12 7)))
    (by decide) (by decide) (by decide)
    (b := { init "can0" with _state := .connectedState, _socket := 5, _fdEnabled := true })
    rfl (fun _ => rfl)

end SocketCanBackend
end DPFlow
