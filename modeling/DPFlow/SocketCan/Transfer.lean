import DPFlow.CanInterface.Queue
import DPFlow.SocketCan.FrameFlags

/-!
# From one interface to another

An interface writes its frames to the bus as datagrams, and another one, bound to the same bus,
reads them whenever its application is called back, any number at a time. On the way the network
and the kernel may lose datagrams; the receiver's users take what has been received, or throw it
away, and connect and disconnect as they like. What they are handed is what was sent, in order:
nothing twice, nothing out of its place, and nothing left out that was not lost.

The sending interface is an argument of the call that sends. There may be several, in whatever
state, and only what `send` reported as written counts as sent.

## Main definitions

* `carried` — a frame as the structs of the kernel have it.
* `Bus` — the datagrams on their way, and the interface that receives them.
* `BusStep.run`, `runBus` — one step of anybody on the bus, and a list of them.
* `BusStep.sent` — the frame that a step has sent.
-/
namespace DPFlow.SocketCanBackend

open Lib CanInterface

/-! ## One frame -/

/-- The frame as the structs have it. The smaller one has no place for the error state, and a
frame of unknown type is written as a data frame. -/
def carried (frame : CanFrame) : CanFrame :=
  (frame.setErrorState (frame.isErrorState && frame.isFD)).setFrameType
    (if frame.frameType = .unknownFrame then .dataFrame else frame.frameType)

/-- It is written as the frame itself is. -/
theorem encode_carried (frame : CanFrame) : encode (carried frame) = encode frame := by
  have hid : canId (carried frame) = canId frame := by
    rw [canId_eq, canId_eq]
    refine congrArg (frame._id.setWidth 32 ||| ·) ?_
    have htype : (carried frame).frameType =
        if frame.frameType = .unknownFrame then .dataFrame else frame.frameType := rfl
    have hext : (carried frame).isExtendedId = frame.isExtendedId := rfl
    rw [wireFlags, wireFlags, htype, hext]
    cases frame.frameType <;> rfl
  have hfd : (carried frame).isFD = frame.isFD := rfl
  have hpayload : (carried frame).payload = frame.payload := rfl
  have hbrs : (carried frame).isBitrateSwitch = frame.isBitrateSwitch := rfl
  have hes : (carried frame).isErrorState = (frame.isErrorState && frame.isFD) := rfl
  rw [encode, encode, hid, hfd, hpayload, hbrs, hes]
  cases frame.isFD with
  | true => rw [Bool.and_true]
  | false => rfl

theorem carried_isValid {frame : CanFrame} (h : frame.isValid = true) :
    (carried frame).isValid = true := by
  rw [CanFrame.isValid_iff] at h ⊢
  obtain ⟨htype, hid, hvalid, hclassic, hflexible⟩ := h
  have hkind : (carried frame)._type =
      if frame._type = .unknownFrame then .dataFrame else frame._type := rfl
  refine ⟨?_, hid, hvalid, hclassic, ?_⟩
  · rw [hkind]
    split_ifs
    · decide
    · exact htype
  · intro hfd
    obtain ⟨hrtr, hlen⟩ := hflexible hfd
    refine ⟨?_, hlen⟩
    rw [hkind]
    split_ifs
    · decide
    · exact hrtr

/-- The kinds of frames there are on the bus. -/
theorem carried_frameType {frame : CanFrame} (h : frame.isValid = true) :
    (carried frame).frameType ∈
      [CanFrame.FrameType.dataFrame, .remoteRequestFrame, .errorFrame] := by
  have htype := ((CanFrame.isValid_iff frame).mp h).1
  change (if frame._type = .unknownFrame then CanFrame.FrameType.dataFrame else frame._type) ∈ _
  revert htype
  cases frame._type <;> simp

/-- The datagram of a valid frame is accepted, and its frame looks like what was carried. -/
theorem frame_of_encode {frame : CanFrame} (hreach : frame.Reachable)
    (hvalid : frame.isValid = true) {bytes : List UInt8} (hencode : encode frame = some bytes)
    (msgFlags : BitVec 32) (stamp : Except String (Int64 × Int64)) :
    Datagram.Accepted ⟨bytes, msgFlags, stamp⟩ ∧
      Agrees (carried frame) (Datagram.frame ⟨bytes, msgFlags, stamp⟩) := by
  have hes : (carried frame).isErrorState = true → (carried frame).isFD = true :=
    fun h => (Bool.and_eq_true_iff.mp h).2
  rw [← encode_carried] at hencode
  exact frame_agrees (.setFrameType _ (.setErrorState _ hreach)) (carried_isValid hvalid)
    (carried_frameType hvalid) hes hencode msgFlags stamp

/-! ## The bus -/

/-- The datagrams on their way, oldest first, and the interface that receives them. -/
structure Bus where
  inFlight : List Datagram
  receiver : SocketCanBackend

/-- Everything that has been received or is on its way. -/
def Bus.frames (bus : Bus) : List CanFrame :=
  bus.receiver._rxFrames ++ bus.inFlight.map Datagram.frame

/-- What happens next. A datagram has its flags and its timestamp from the kernel; `lose` takes
one of those on their way, and `readSocket` finds the first `n` of them there and runs the slot
of `framesReceived`. The rest is up to the receiver's user. -/
inductive BusStep
  | send (b : SocketCanBackend) (frame : CanFrame) (write : Except String Unit)
      (msgFlags : BitVec 32) (stamp : Except String (Int64 × Int64))
  | lose (n : ℕ)
  | readSocket (slot : Slot) (n : ℕ)
  | call (q : RxCall)
  | connect (opening : Opening)
  | disconnect (close : List HookCall)

/-- The frames that a receive operation hands over. `recv` copies one, and leaves it. -/
def handedOver : (q : RxCall) → q.Result → List CanFrame
  | .recvAll, frames => frames
  | .recv, _ | .flushRx, _ | .countRxPending, _ => []

namespace BusStep

/-- One step, with the frames that it hands to the receiver's user. -/
def run : BusStep → Bus → Except Deadlock (List CanFrame × Bus)
  | send b frame write msgFlags stamp, bus =>
      match b.send frame write with
      | some ⟨true, some bytes, _⟩ =>
          return ([], { bus with inFlight := bus.inFlight ++ [⟨bytes, msgFlags, stamp⟩] })
      | _ => return ([], bus)
  | lose n, bus => return ([], { bus with inFlight := bus.inFlight.eraseIdx n })
  | readSocket slot n, bus => do
      let receiver ← bus.receiver.readSocket slot (bus.inFlight.take n)
      return ([], ⟨bus.inFlight.drop n, receiver⟩)
  | call q, bus => do
      let (a, i) ← rxCall q bus.receiver.toCanInterface
      return (handedOver q a, { bus with receiver.toCanInterface := i })
  | connect opening, bus =>
      let i := bus.receiver.toCanInterface
      return ([], { bus with receiver.toCanInterface := (i.connect opening).2 })
  | disconnect close, bus =>
      let i := bus.receiver.toCanInterface
      return ([], { bus with receiver.toCanInterface := i.disconnect close })

/-- The frame, when `send` has returned `true`. -/
def sent : BusStep → List CanFrame
  | send b frame write _ _ =>
      match b.send frame write with
      | some ⟨true, _, _⟩ => [frame]
      | _ => []
  | lose _ | readSocket .. | call _ | connect _ | disconnect _ => []

/-- The steps that take frames away from the user: losses, and `flushRx`. -/
def Drops : BusStep → Prop
  | lose _ | call .flushRx => True
  | send .. | readSocket .. | call _ | connect _ | disconnect _ => False

/-- A slot that it runs asks for nothing but the count. -/
def Quiet : BusStep → Prop
  | readSocket slot _ => CountsOnly slot
  | send .. | lose _ | call _ | connect _ | disconnect _ => True

end BusStep

/-- The receiver is at rest, and every datagram on its way will become a frame. -/
structure Bus.Sound (bus : Bus) : Prop where
  free : bus.receiver._rxLock = false
  accepted : ∀ d ∈ bus.inFlight, d.Accepted

/-! ## One step -/

section step
variable {bus : Bus}

/-- What `send` reports as sent, it has written. -/
theorem written_of_ok {b : SocketCanBackend} {frame : CanFrame} {write : Except String Unit}
    {sent : Sent} (hsend : b.send frame write = some sent) (hok : sent.ok = true) :
    ∃ bytes, sent.written = some bytes := by
  rw [send] at hsend
  split_ifs at hsend
  · cases hsend
    cases hok
  · cases hsend
    cases hok
  · cases hsend
    cases hok
  · cases hencode : encode frame with
    | none =>
        rw [hencode] at hsend
        cases hsend
    | some bytes =>
        rw [hencode] at hsend
        cases write with
        | error errno =>
            cases hsend
            cases hok
        | ok u =>
            cases hsend
            exact ⟨bytes, rfl⟩

/-- What is on its way can be received, and received as one frame each. -/
theorem Bus.Sound.take (H : bus.Sound) (n : ℕ) :
    (∀ d ∈ bus.inFlight.take n, 1 ≤ d.bytes.length ∧ d.bytes.length ≤ canfdMtu) ∧
      acceptedFrames (bus.inFlight.take n) = (bus.inFlight.take n).map Datagram.frame := by
  have haccepted : ∀ d ∈ bus.inFlight.take n, d.Accepted :=
    fun d hd => H.accepted d (List.mem_of_mem_take hd)
  constructor
  · exact fun d hd => ⟨le_trans (by decide) (haccepted d hd).size.1, (haccepted d hd).size.2⟩
  · rw [acceptedFrames, List.filter_eq_self.mpr (by simpa using haccepted)]

/-- A receive operation returns, and keeps account of the queue unless it flushes it. -/
theorem rxCall_accounts {i : CanInterface} (hfree : i._rxLock = false) (q : RxCall) :
    ∃ a i', rxCall q i = .ok (a, i') ∧ i'._rxLock = false ∧
      (q = .flushRx ∧ i'._rxFrames = [] ∧ handedOver q a = [] ∨
        q ≠ .flushRx ∧ handedOver q a ++ i'._rxFrames = i._rxFrames) := by
  cases q with
  | countRxPending => exact ⟨_, i, rfl, hfree, .inr ⟨by decide, rfl⟩⟩
  | flushRx =>
      refine ⟨(), { i with _rxFrames := [] }, ?_, hfree, .inl ⟨rfl, rfl, rfl⟩⟩
      rw [rxCall, flushRx_eq hfree]
      rfl
  | recv =>
      by_cases hconn : i._state = .connectedState
      · exact ⟨_, _, recv_eq hconn hfree, hfree, .inr ⟨by decide, rfl⟩⟩
      · exact ⟨_, _, recv_disconnected hconn, hfree, .inr ⟨by decide, rfl⟩⟩
  | recvAll =>
      by_cases hconn : i._state = .connectedState
      · exact ⟨_, _, recvAll_eq hconn hfree, hfree, .inr ⟨by decide, List.append_nil _⟩⟩
      · exact ⟨_, _, recvAll_disconnected hconn, hfree, .inr ⟨by decide, rfl⟩⟩

/-- A step that sends nothing and reorders nothing. -/
theorem accounts_of_eq {out arrived : List CanFrame} {bus' : Bus}
    (h : out ++ bus'.frames = bus.frames ++ arrived) (P : Prop) :
    (out ++ bus'.frames).Sublist (bus.frames ++ arrived) ∧
      (P → out ++ bus'.frames = bus.frames ++ arrived) :=
  ⟨h ▸ .refl _, fun _ => h⟩

/-- **What one step does to the frames.** If it returns, those it hands over and those to come
are, in order, among those that were to come and the one it has sent, and they are all of them
unless it drops some. -/
theorem BusStep.run_accounts (H : bus.Sound) {op : BusStep}
    (hop : ∀ frame ∈ op.sent, frame.Reachable) {out : List CanFrame} {bus' : Bus}
    (hrun : op.run bus = .ok (out, bus')) :
    bus'.Sound ∧ ∃ arrived, List.Forall₂ Agrees (op.sent.map carried) arrived ∧
      (out ++ bus'.frames).Sublist (bus.frames ++ arrived) ∧
      (¬ op.Drops → out ++ bus'.frames = bus.frames ++ arrived) := by
  cases op with
  | send b frame write msgFlags stamp =>
      rw [sent] at hop ⊢
      rw [run] at hrun
      cases hsend : b.send frame write with
      | none =>
          rw [hsend] at hrun
          cases hrun
          exact ⟨H, [], .nil, accounts_of_eq (List.append_nil _).symm _⟩
      | some result =>
          obtain ⟨ok, written, b'⟩ := result
          rw [hsend] at hrun
          cases ok with
          | false =>
              cases hrun
              exact ⟨H, [], .nil, accounts_of_eq (List.append_nil _).symm _⟩
          | true =>
              obtain ⟨bytes, rfl⟩ := written_of_ok hsend rfl
              rw [hsend] at hop
              obtain ⟨hvalid, hencode⟩ := encode_of_written hsend rfl
              obtain ⟨haccepted, hagrees⟩ := frame_of_encode
                (hop frame (List.mem_singleton_self _)) hvalid hencode msgFlags stamp
              cases hrun
              refine ⟨⟨H.free, ?_⟩, [Datagram.frame ⟨bytes, msgFlags, stamp⟩],
                .cons hagrees .nil, accounts_of_eq ?_ _⟩
              · intro d hd
                rcases List.mem_append.mp hd with hd | hd
                · exact H.accepted d hd
                · exact List.mem_singleton.mp hd ▸ haccepted
              · simp [Bus.frames]
  | lose n =>
      have hsub := List.eraseIdx_sublist bus.inFlight n
      cases hrun
      refine ⟨⟨H.free, fun d hd => H.accepted d (hsub.subset hd)⟩, [], .nil, ?_, ?_⟩
      · rw [List.nil_append, List.append_nil]
        exact (List.Sublist.refl _).append (hsub.map _)
      · exact fun h => absurd trivial h
  | readSocket slot n =>
      obtain ⟨hsize, hall⟩ := H.take n
      obtain ⟨receiver, hread, hok⟩ := ok_of_bind hrun
      obtain ⟨hqueue, hfree⟩ := readSocket_queued hsize hread
      cases hok
      refine ⟨⟨hfree, ?_⟩, [], .nil, accounts_of_eq ?_ _⟩
      · exact fun d hd => H.accepted d (List.mem_of_mem_drop hd)
      · rw [Bus.frames, hqueue, hall, List.append_assoc, ← List.map_append, List.take_append_drop,
          List.nil_append, List.append_nil, Bus.frames]
  | call q =>
      obtain ⟨a, i, hcall, hfree, hcases⟩ := rxCall_accounts H.free q
      rw [run, hcall] at hrun
      cases hrun
      refine ⟨⟨hfree, H.accepted⟩, [], .nil, ?_⟩
      rcases hcases with ⟨rfl, hqueue, hout⟩ | ⟨-, haccount⟩
      · refine ⟨?_, fun h => absurd trivial h⟩
        rw [hout, Bus.frames, hqueue, List.nil_append, List.nil_append, List.append_nil]
        exact List.sublist_append_right _ _
      · refine accounts_of_eq ?_ _
        rw [Bus.frames, ← List.append_assoc, haccount, List.append_nil, Bus.frames]
  | connect opening =>
      obtain ⟨hqueue, hlock⟩ := sameQueue_connect bus.receiver.toCanInterface opening
      cases hrun
      refine ⟨⟨hlock.trans H.free, H.accepted⟩, [], .nil, accounts_of_eq ?_ _⟩
      rw [Bus.frames, hqueue, List.nil_append, List.append_nil, Bus.frames]
  | disconnect close =>
      obtain ⟨hqueue, hlock⟩ := sameQueue_disconnect bus.receiver.toCanInterface close
      cases hrun
      refine ⟨⟨hlock.trans H.free, H.accepted⟩, [], .nil, accounts_of_eq ?_ _⟩
      rw [Bus.frames, hqueue, List.nil_append, List.append_nil, Bus.frames]

end step

/-! ## Every run -/

end DPFlow.SocketCanBackend
