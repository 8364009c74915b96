import DPFlow.SocketCan.ErrorMask
import DPFlow.SocketCan.Transfer

/-!
# Frames that are passed on

A gateway sends what it has received. Between the two is a frame, which has no place for the
padding of a struct, its reserved bytes, and what stands behind the payload, and `send` fills a
new struct from its getters. So a gateway may change a datagram, or refuse to pass it on. Which
ones it leaves alone can be read off their bytes; and what one gateway has written, no other
changes any more.

## Main definitions

* `sendAll`, `gateway` — frames sent one after the other, and what a gateway writes.
* `Datagram.Sendable` — the datagrams whose frames are valid.
* `Datagram.Canonical` — the datagrams that are filled as `send` fills them.
-/
namespace DPFlow.SocketCanBackend

open Lib CanInterface

/-! ## The identifier word -/

/-- The bits above the identifier. -/
def flagMask : BitVec 32 := effFlag ||| rtrFlag ||| errFlag

/-- A word masked by one bit. -/
theorem and_twoPow_eq (c : BitVec 32) (i : ℕ) :
    c &&& BitVec.twoPow 32 i =
      if c &&& BitVec.twoPow 32 i != 0 then BitVec.twoPow 32 i else 0 := by
  rw [BitVec.and_twoPow]
  cases c.getLsbD i with
  | false => rfl
  | true =>
      simp only [if_true]
      split_ifs with h
      · rfl
      · simpa using h

/-- The flags of a word, one by one. -/
theorem and_flagMask (c : BitVec 32) :
    c &&& flagMask = ((if c &&& effFlag != 0 then effFlag else 0) |||
      (if c &&& rtrFlag != 0 then rtrFlag else 0)) |||
        (if c &&& errFlag != 0 then errFlag else 0) := by
  have heff : effFlag = BitVec.twoPow 32 31 := by decide
  have hrtr : rtrFlag = BitVec.twoPow 32 30 := by decide
  have herr : errFlag = BitVec.twoPow 32 29 := by decide
  rw [flagMask, BitVec.and_or_distrib_left, BitVec.and_or_distrib_left, heff, hrtr, herr,
    ← and_twoPow_eq, ← and_twoPow_eq, ← and_twoPow_eq]

/-- A word is its identifier under its flags. -/
theorem canId_eq_iff (frame : CanFrame) {c : BitVec 32} (hid : frame._id = c.setWidth 29) :
    canId frame = c ↔ wireFlags frame = c &&& flagMask := by
  have hflags : wireFlags frame &&& flagMask = wireFlags frame := by
    rw [wireFlags]
    split_ifs <;> decide
  constructor
  · rintro rfl
    rw [canId_and_flag frame flagMask (by decide), hflags]
  · intro h
    have hall : (CanFrame.effMask ||| flagMask : BitVec 32) = BitVec.allOnes 32 := by decide
    rw [canId_eq, hid, h, ← and_effMask_eq, ← BitVec.and_or_distrib_left, hall,
      BitVec.and_allOnes]

namespace Datagram

/-- The flags that `send` sets, and no others, in a byte that has any; reserved bytes, and what
stands behind the payload, zero; and flags of the identifier that fit the kind of frame they
say, with the extended flag wherever the identifier needs it. -/
structure Canonical (d : Datagram) : Prop where
  flags : d.flags &&& (if d.bytes.length = canfdMtu then canfdBrs ||| canfdEsi else 0) = d.flags
  reserved : d.bytes.getD 6 0 = 0 ∧ d.bytes.getD 7 0 = 0
  padding : ∀ x ∈ d.bytes.drop (dataOffset + d.len), x = 0
  remote : d.canId &&& rtrFlag ≠ 0 → d.canId &&& errFlag = 0
  mask : d.canId &&& errFlag ≠ 0 → d.canId &&& effFlag = 0
  width : d.canId &&& errFlag = 0 → d.canId &&& effFlag = 0 → d.canId &&& CanFrame.effUpperMask = 0

/-- The frame of the datagram is valid. -/
def Sendable (d : Datagram) : Prop :=
  d.frame.isFD = true → d.frame.frameType ≠ .remoteRequestFrame ∧
    (d.len ≤ 8 ∨ d.len ∈ [12, 16, 20, 24, 32, 48, 64])

variable {d : Datagram}

/-- The identifier word is written as it was just when its flags fit together. -/
theorem canId_frame_iff (hd : d.Accepted) :
    SocketCanBackend.canId d.frame = d.canId ↔
      (d.canId &&& rtrFlag ≠ 0 → d.canId &&& errFlag = 0) ∧
      (d.canId &&& errFlag ≠ 0 → d.canId &&& effFlag = 0) ∧
      (d.canId &&& errFlag = 0 → d.canId &&& effFlag = 0 →
        d.canId &&& CanFrame.effUpperMask = 0) := by
  -- the kind and the extended flag come from these four tests
  have htests : ∀ eff rtr err upper : Bool,
      let type : CanFrame.FrameType :=
        if rtr then .remoteRequestFrame else if err then .errorFrame else .dataFrame
      (if type = .errorFrame then errFlag
        else (if eff || upper then effFlag else 0) |||
          (if type = .remoteRequestFrame then rtrFlag else 0)) =
        ((if eff then effFlag else 0) ||| (if rtr then rtrFlag else 0)) |||
          (if err then errFlag else 0) ↔
      (rtr = true → err = false) ∧ (err = true → eff = false) ∧
        (err = false → eff = false → upper = false) := by decide
  obtain ⟨-, -, hext, -, htype⟩ := frame_flags hd
  rw [canId_eq_iff d.frame (frame_field hd).1, and_flagMask, wireFlags, htype, hext]
  refine (htests _ _ _ _).trans ?_
  simp only [bne_iff_ne, bne_eq_false_iff_eq]

/-- It is written as its bytes are. -/
theorem leBytes_canId_iff (hd : d.Accepted) (c : BitVec 32) :
    leBytes 4 c.toNat = d.bytes.take 4 ↔ c = d.canId := by
  have hlen : (d.bytes.take 4).length = 4 := by
    rw [List.length_take]
    exact Nat.min_eq_left (le_trans (by decide) hd.size.1)
  have hword : d.canId.toNat = ofLeBytes (d.bytes.take 4) := by
    rw [Datagram.canId, BitVec.toNat_ofNat]
    refine Nat.mod_eq_of_lt ?_
    have hlt := ofLeBytes_lt (d.bytes.take 4)
    rwa [hlen] at hlt
  constructor
  · intro h
    rw [← BitVec.toNat_inj, hword, ← h]
    exact (ofLeBytes_leBytes c.isLt).symm
  · rintro rfl
    have hbytes := leBytes_ofLeBytes (d.bytes.take 4)
    rwa [hlen, ← hword] at hbytes

/-! ## The bytes of a datagram -/

/-- The header byte by byte. -/
theorem bytes_eq (hd : d.Accepted) :
    d.bytes = d.bytes.take 4 ++
      [d.bytes.getD 4 0, d.flags, d.bytes.getD 6 0, d.bytes.getD 7 0] ++
      (d.frame.payload ++ d.bytes.drop (dataOffset + d.len)) := by
  have hlen : 8 < d.bytes.length := lt_of_lt_of_le (by decide) hd.size.1
  have hdata : d.frame.payload ++ d.bytes.drop (dataOffset + d.len) = d.bytes.drop 8 := by
    rw [(frame_payload hd).1, ← List.drop_drop]
    exact List.take_append_drop _ _
  rw [hdata, Datagram.flags, List.getD_eq_getElem _ _ (show 4 < d.bytes.length by omega),
    List.getD_eq_getElem _ _ (show 5 < d.bytes.length by omega),
    List.getD_eq_getElem _ _ (show 6 < d.bytes.length by omega),
    List.getD_eq_getElem _ _ (show 7 < d.bytes.length by omega), List.append_assoc]
  simp only [List.cons_append, List.nil_append]
  rw [← List.drop_eq_getElem_cons, ← List.drop_eq_getElem_cons, ← List.drop_eq_getElem_cons,
    ← List.drop_eq_getElem_cons, List.take_append_drop]

/-- The payload fits the struct that `send` fills. -/
theorem length_payload_le (hd : d.Accepted) :
    d.frame.payload.length ≤ if d.frame.isFD then canfdDataSize else canDataSize := by
  obtain ⟨-, -, -, hfd, -⟩ := frame_flags hd
  have hfit := (frame_payload hd).2
  have hsize := hd.size.2
  rw [length_payload hd]
  cases hcase : d.frame.isFD with
  | true =>
      change d.len ≤ 64
      change d.bytes.length ≤ 72 at hsize
      change 8 + d.len ≤ _ at hfit
      omega
  | false =>
      rw [hfd, Bool.or_eq_false_iff, decide_eq_false_iff_not] at hcase
      have hclassic := hd.1.resolve_left hcase.2
      rw [hclassic] at hfit
      change 8 + d.len ≤ 16 at hfit
      change d.len ≤ 8
      omega

/-- The flags of a flexible-rate struct. -/
theorem fdFlags_frame (hd : d.Accepted) :
    fdFlags d.frame = d.flags &&& (canfdBrs ||| canfdEsi) := by
  have hbits : ∀ v : BitVec 8, ((if UInt8.ofBitVec v &&& canfdBrs != 0 then canfdBrs else 0) |||
      (if UInt8.ofBitVec v &&& canfdEsi != 0 then canfdEsi else 0)) =
        UInt8.ofBitVec v &&& (canfdBrs ||| canfdEsi) := by decide
  obtain ⟨hbrs, hes, -⟩ := frame_flags hd
  rw [fdFlags, hbrs, hes]
  exact hbits d.flags.toBitVec

/-- Only a canonical datagram's flag byte says as much about the struct as its size does. -/
theorem Canonical.isFD (h : d.Canonical) (hd : d.Accepted) :
    d.frame.isFD = decide (d.bytes.length = canfdMtu) := by
  obtain ⟨-, -, -, hfd, -⟩ := frame_flags hd
  rw [hfd]
  by_cases hsize : d.bytes.length = canfdMtu
  · rw [decide_eq_true hsize, Bool.or_true]
  · have hflags := h.flags
    rw [if_neg hsize, UInt8.and_zero] at hflags
    rw [← hflags, decide_eq_false hsize]
    rfl

/-- **When a datagram is written back as it was.** The bytes that `send` writes for its frame
are its own just when it is filled as `send` fills one. -/
theorem encode_frame_iff (hd : d.Accepted) :
    encode d.frame = some d.bytes ↔ d.Canonical := by
  have hlen := length_payload_le hd
  have hfit := (frame_payload hd).2
  have hfour : (leBytes 4 (SocketCanBackend.canId d.frame).toNat).length =
      (d.bytes.take 4).length := by
    rw [length_leBytes, List.length_take]
    exact (Nat.min_eq_left (le_trans (by decide) hd.size.1)).symm
  have hbyte : UInt8.ofNat d.frame.payload.length = d.bytes.getD 4 0 := by
    rw [length_payload hd, Datagram.len, UInt8.ofNat_toNat]
  have hflags : (if d.frame.isFD then fdFlags d.frame else 0) =
      d.flags &&& (if d.frame.isFD then canfdBrs ||| canfdEsi else 0) := by
    rw [fdFlags_frame hd]
    split_ifs
    · rfl
    · exact UInt8.and_zero.symm
  rw [encode_eq hlen, Option.some.injEq, hbyte, hflags]
  rw [length_payload hd] at hlen ⊢
  constructor
  · intro h
    nth_rewrite 2 [bytes_eq hd] at h
    obtain ⟨hhead, htail⟩ := List.append_inj h (by
      rw [List.length_append, List.length_append, hfour]
      rfl)
    obtain ⟨hword, hmid⟩ := List.append_inj hhead hfour
    obtain ⟨hremote, hmask, hwidth⟩ :=
      (canId_frame_iff hd).mp ((leBytes_canId_iff hd _).mp hword)
    simp only [List.cons.injEq, and_true, true_and] at hmid
    have hzeros := List.append_cancel_left htail
    have hsize := congrArg List.length hzeros
    rw [List.length_replicate, List.length_drop] at hsize
    have hkind : d.frame.isFD = true ↔ d.bytes.length = canfdMtu := by
      cases hcase : d.frame.isFD <;> rw [hcase] at hsize hlen <;>
        simp [canfdMtu, canfdDataSize, canDataSize, dataOffset] at hsize hlen hfit ⊢ <;> omega
    refine ⟨?_, ⟨hmid.2.1.symm, hmid.2.2.symm⟩, ?_, hremote, hmask, hwidth⟩
    · simp only [← hkind]
      exact hmid.1
    · rw [← hzeros]
      exact fun x hx => List.eq_of_mem_replicate hx
  · intro h
    have hkind := h.isFD hd
    have hword := (leBytes_canId_iff hd _).mpr
      ((canId_frame_iff hd).mpr ⟨h.remote, h.mask, h.width⟩)
    have hmid : d.flags &&& (if d.frame.isFD then canfdBrs ||| canfdEsi else 0) = d.flags := by
      simpa [hkind] using h.flags
    have hzeros : d.bytes.drop (dataOffset + d.len) =
        List.replicate ((if d.frame.isFD then canfdDataSize else canDataSize) - d.len) 0 := by
      refine List.eq_replicate_iff.mpr ⟨?_, h.padding⟩
      rw [List.length_drop, hkind]
      rcases hd.1 with hsize | hsize <;> rw [hsize]
      · change 72 - (8 + d.len) = 64 - d.len
        omega
      · change 16 - (8 + d.len) = 8 - d.len
        omega
    refine Eq.trans ?_ (bytes_eq hd).symm
    rw [hword, hmid, h.reserved.1, h.reserved.2, hzeros]

/-- Which frames from the bus are valid. -/
theorem isValid_iff_sendable (hd : d.Accepted) : d.frame.isValid = true ↔ d.Sendable := by
  obtain ⟨-, -, -, hfd, htype⟩ := frame_flags hd
  obtain ⟨-, hid, hwidth⟩ := frame_field hd
  have hlen : d.frame._payload.length = d.len := length_payload hd
  have hkind : d.frame._type ≠ .invalidFrame := by
    change d.frame.frameType ≠ _
    rw [htype]
    cases d.canId &&& rtrFlag != 0 <;> cases d.canId &&& errFlag != 0 <;> decide
  have hclassic : d.frame._isFD = false → d.len ≤ 8 := by
    intro hcase
    have hle := length_payload_le hd
    rw [length_payload hd, show d.frame.isFD = false from hcase] at hle
    exact hle
  rw [CanFrame.isValid_iff, hlen]
  constructor
  · exact fun h => h.2.2.2.2
  · exact fun h => ⟨hkind, hwidth, hid, hclassic, h⟩

end Datagram

/-! ## One datagram -/

/-- The frame of a datagram is built by setters. -/
theorem decode_reachable (raw : CanfdStruct) (bytesRx : ℕ) (timestamp : CanFrame.Timestamp)
    (msgFlags : BitVec 32) : (decode raw bytesRx timestamp msgFlags).Reachable := by
  have hset : ∀ {c : Bool} {f g : CanFrame}, f.Reachable → g.Reachable →
      (if c then f else g).Reachable := by
    intro c f g hf hg
    cases c with
    | true => exact hf
    | false => exact hg
  have hstart := ((CanFrame.Reachable.ofType .dataFrame).setTimestamp timestamp).setFD
    (decide (bytesRx = canfdMtu)) |>.setExtendedId (raw.canId &&& effFlag != 0)
  have htype := hset (c := raw.canId &&& rtrFlag != 0) (hstart.setFrameType .remoteRequestFrame)
    (hset (c := raw.canId &&& errFlag != 0) (hstart.setFrameType .errorFrame)
      (hstart.setFrameType .dataFrame))
  have hbrs := hset (c := raw.flags &&& canfdBrs != 0) (htype.setBitrateSwitch true) htype
  have hes := hset (c := raw.flags &&& canfdEsi != 0) (hbrs.setErrorState true) hbrs
  have hecho := hset (c := msgFlags &&& msgConfirm != 0) (hes.setLocalEcho true) hes
  exact (hecho.setId _).setPayload _

/-- Frames that look the same are written the same. -/
theorem encode_of_agrees {frame frame' : CanFrame} (h : Agrees frame frame') :
    encode frame' = encode frame := by
  have hid : SocketCanBackend.canId frame' = SocketCanBackend.canId frame := by
    rw [SocketCanBackend.canId, SocketCanBackend.canId, h.frameType, h.id, h.error]
    by_cases htype : frame.frameType = .errorFrame
    · simp [htype]
    · rw [h.isExtendedId htype]
  rw [encode, encode, hid, h.isFD, h.payload, h.isBitrateSwitch, h.isErrorState]

/-- What a gateway writes for a datagram, if it does. -/
def Datagram.relayed (d : Datagram) : Option (List UInt8) :=
  if d.Accepted ∧ d.frame.isValid = true then encode d.frame else none

/-- Which datagrams are passed on as they are. -/
theorem Datagram.relayed_eq_bytes_iff (d : Datagram) :
    d.relayed = some d.bytes ↔ d.Accepted ∧ d.Sendable ∧ d.Canonical := by
  rw [relayed]
  by_cases hd : d.Accepted
  · rw [← isValid_iff_sendable hd, ← encode_frame_iff hd]
    split_ifs with h
    · exact ⟨fun hbytes => ⟨hd, h.2, hbytes⟩, fun hbytes => hbytes.2.2⟩
    · exact iff_of_false (by simp) fun hbytes => h ⟨hd, hbytes.2.1⟩
  · rw [if_neg fun h => hd h.1]
    exact iff_of_false (by simp) fun h => hd h.1

/-- What was passed on once is passed on as it is. -/
theorem Datagram.relayed_relayed {d : Datagram} {bytes : List UInt8}
    (h : d.relayed = some bytes) (msgFlags : BitVec 32)
    (stamp : Except String (Int64 × Int64)) :
    relayed ⟨bytes, msgFlags, stamp⟩ = some bytes := by
  rw [relayed] at h
  split_ifs at h with hpassed
  obtain ⟨-, hvalid⟩ := hpassed
  have hreach : d.frame.Reachable := decode_reachable _ _ _ _
  obtain ⟨haccepted, hagrees⟩ := frame_of_encode hreach hvalid h msgFlags stamp
  have hvalid' : (frame ⟨bytes, msgFlags, stamp⟩).isValid = true := by
    rw [isValid_iff_sendable haccepted, Sendable, ← length_payload haccepted, hagrees.isFD,
      hagrees.frameType, hagrees.payload]
    exact ((CanFrame.isValid_iff _).mp (carried_isValid hvalid)).2.2.2.2
  rw [relayed, if_pos ⟨haccepted, hvalid'⟩, encode_of_agrees hagrees, encode_carried, h]

/-! ## A gateway -/

/-- Frames sent one after the other, every `write` succeeding, with what is written. -/
def sendAll : List CanFrame → SocketCanBackend →
    Option (List (List UInt8) × SocketCanBackend)
  | [], b => some ([], b)
  | frame :: frames, b => do
      let sent ← b.send frame (.ok ())
      let (written, b) ← sendAll frames sent.backend
      return (sent.written.toList ++ written, b)

/-- One interface receives, and the frames are sent on another one: those that the loop of
`readSocket` collects, before the slot of `framesReceived` runs. -/
def gateway (receiver sender : SocketCanBackend) (datagrams : List Datagram) :
    Option (List (List UInt8)) :=
  (sendAll (receiveFrames datagrams receiver).1 sender).map Prod.fst

/-- Connected, and with flexible rate enabled. -/
structure Ready (b : SocketCanBackend) : Prop where
  connected : b._state = .connectedState
  enabled : b._fdEnabled = true

/-- A ready interface writes the valid frames, and stays ready. -/
theorem Ready.send {b : SocketCanBackend} (H : b.Ready) (frame : CanFrame) :
    ∃ sent, b.send frame (.ok ()) = some sent ∧ sent.backend.Ready ∧
      sent.written = if frame.isValid = true then encode frame else none := by
  cases hvalid : frame.isValid with
  | false =>
      refine ⟨⟨false, none, b.setError "Cannot write invalid frame" .txError⟩, ?_,
        ⟨H.connected, H.enabled⟩, rfl⟩
      rw [SocketCanBackend.send, if_neg (not_not_intro H.connected), hvalid]
      rfl
  | true =>
      obtain ⟨bytes, hencode, -⟩ := encode_received (CanFrame.length_payload_le hvalid)
      obtain ⟨sent, hsend, hwritten, hok⟩ := send_admitted hvalid H.connected
        (fun _ => H.enabled) hencode (.ok ())
      refine ⟨sent, hsend, ?_, ?_⟩
      · rw [hok rfl]
        exact H
      · rw [hwritten, if_pos rfl, hencode]

theorem Ready.sendAll {b : SocketCanBackend} (H : b.Ready) (frames : List CanFrame) :
    ∃ b', SocketCanBackend.sendAll frames b = some (frames.filterMap fun frame =>
      if frame.isValid = true then encode frame else none, b') := by
  induction frames generalizing b with
  | nil => exact ⟨b, rfl⟩
  | cons frame frames ih =>
      obtain ⟨sent, hsend, H', hwritten⟩ := H.send frame
      obtain ⟨b', hrest⟩ := ih H'
      refine ⟨b', ?_⟩
      rw [SocketCanBackend.sendAll, hsend]
      simp only [Option.bind_eq_bind, Option.bind_some, hrest]
      rw [hwritten, List.filterMap_cons]
      cases (if frame.isValid = true then encode frame else none) <;> rfl

/-- A gateway passes datagrams on one by one. -/
theorem gateway_eq (receiver : SocketCanBackend) {sender : SocketCanBackend} (H : sender.Ready)
    {datagrams : List Datagram}
    (hsize : ∀ d ∈ datagrams, 1 ≤ d.bytes.length ∧ d.bytes.length ≤ canfdMtu) :
    gateway receiver sender datagrams = some (datagrams.filterMap Datagram.relayed) := by
  obtain ⟨b', hsend⟩ := H.sendAll (receiveFrames datagrams receiver).1
  rw [gateway, hsend, receiveFrames_fst hsize, acceptedFrames, List.filterMap_map,
    List.filterMap_filter]
  refine congrArg some (List.filterMap_congr ?_)
  intro d _
  rw [Datagram.relayed, Function.comp_apply]
  by_cases hd : d.Accepted <;> simp [hd]

/-- The frames are those that a call of `readSocket` queues, whatever its slot does, if it
returns. -/
theorem gateway_eq_queued {receiver receiver' : SocketCanBackend} (sender : SocketCanBackend)
    {datagrams : List Datagram}
    (hsize : ∀ d ∈ datagrams, 1 ≤ d.bytes.length ∧ d.bytes.length ≤ canfdMtu) {slot : Slot}
    (hread : receiver.readSocket slot datagrams = .ok receiver') :
    (SocketCanBackend.sendAll (receiver'._rxFrames.drop receiver._rxFrames.length) sender).map
      Prod.fst = gateway receiver sender datagrams := by
  rw [(readSocket_queued hsize hread).1, List.drop_left, gateway, receiveFrames_fst hsize]

/-- Something is found for every member of a list just when it is for the list. -/
theorem filterMap_eq_map_iff {α β : Type*} {f : α → Option β} {g : α → β} {l : List α} :
    l.filterMap f = l.map g ↔ ∀ x ∈ l, f x = some (g x) := by
  induction l with
  | nil => simp
  | cons x l ih =>
      rw [List.filterMap_cons, List.map_cons, List.forall_mem_cons]
      cases hx : f x with
      | none =>
          refine iff_of_false ?_ fun h => by cases h.1
          intro h
          have hlen : (l.filterMap f).length = (g x :: l.map g).length := congrArg List.length h
          have hle := List.length_filterMap_le f l
          rw [List.length_cons, List.length_map] at hlen
          omega
      | some y => simp [ih]

/-- **What a gateway does to a stream.** It receives datagrams of up to 72 bytes and sends the
frames on a ready interface, those that `readSocket` has queued when it returns. The stream
comes out unchanged, byte for byte, just when each datagram in it is one that `readSocket`
accepts and `send` does not refuse, and is filled as `send` fills one; and however it comes out,
any further gateway leaves it alone. -/
theorem gateway_transparent_iff (receiver : SocketCanBackend) {sender : SocketCanBackend}
    (H : sender.Ready) {datagrams : List Datagram}
    (hsize : ∀ d ∈ datagrams, 1 ≤ d.bytes.length ∧ d.bytes.length ≤ canfdMtu) :
    ∃ written, gateway receiver sender datagrams = some written ∧
      (∀ slot receiver', receiver.readSocket slot datagrams = .ok receiver' →
        (sendAll (receiver'._rxFrames.drop receiver._rxFrames.length) sender).map Prod.fst =
          some written) ∧
      (written = datagrams.map Datagram.bytes ↔
        ∀ d ∈ datagrams, d.Accepted ∧ d.Sendable ∧ d.Canonical) ∧
      ∀ (receiver' : SocketCanBackend) {sender' : SocketCanBackend}, sender'.Ready →
        ∀ next : List Datagram, next.map Datagram.bytes = written →
          gateway receiver' sender' next = some written := by
  refine ⟨_, gateway_eq receiver H hsize, ?_, ?_, ?_⟩
  · intro slot receiver' hread
    rw [gateway_eq_queued sender hsize hread, gateway_eq receiver H hsize]
  · rw [filterMap_eq_map_iff]
    exact forall₂_congr fun d _ => d.relayed_eq_bytes_iff
  · intro receiver' sender' H' next hnext
    have hagain : ∀ e ∈ next, e.relayed = some e.bytes := by
      intro e he
      have hbytes : e.bytes ∈ datagrams.filterMap Datagram.relayed :=
        hnext ▸ List.mem_map_of_mem he
      obtain ⟨d, -, hd⟩ := List.mem_filterMap.mp hbytes
      exact Datagram.relayed_relayed hd e.msgFlags e.stamp
    have hsize' : ∀ e ∈ next, 1 ≤ e.bytes.length ∧ e.bytes.length ≤ canfdMtu := by
      intro e he
      have haccepted := (e.relayed_eq_bytes_iff.mp (hagain e he)).1
      exact ⟨le_trans (by decide) haccepted.size.1, haccepted.size.2⟩
    rw [gateway_eq receiver' H' hsize', filterMap_eq_map_iff.mpr hagain, hnext]

/-- A classic frame, which goes through, and the same with an octet of padding set, which
comes out without it. -/
theorem gateway_transparent_padding :
    let sender : SocketCanBackend := { init "can1" with
      _state := .connectedState, _socket := 6, _fdEnabled := true }
    let datagrams : List Datagram :=
      [⟨[0x23, 0x01, 0, 0, 2, 0, 0, 0, 0xAA, 0xBB, 0, 0, 0, 0, 0, 0], 0, .ok (0, 0)⟩,
        ⟨[0x23, 0x01, 0, 0, 2, 0, 9, 0, 0xAA, 0xBB, 0, 0, 0, 0, 0, 0], 0, .ok (0, 1)⟩]
    ∃ written, gateway (init "can0") sender datagrams = some written ∧
      (∀ slot receiver', (init "can0").readSocket slot datagrams = .ok receiver' →
        (sendAll (receiver'._rxFrames.drop (init "can0")._rxFrames.length) sender).map Prod.fst =
          some written) ∧
      (written = datagrams.map Datagram.bytes ↔
        ∀ d ∈ datagrams, d.Accepted ∧ d.Sendable ∧ d.Canonical) ∧
      ∀ (receiver' : SocketCanBackend) {sender' : SocketCanBackend}, sender'.Ready →
        ∀ next : List Datagram, next.map Datagram.bytes = written →
          gateway receiver' sender' next = some written :=
  gateway_transparent_iff (init "can0") ⟨rfl, rfl⟩ (by decide)

end DPFlow.SocketCanBackend
