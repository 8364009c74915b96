import DPFlow.CanInterface.RxLock
import DPFlow.SocketCan.Basic
import Mathlib.Data.List.GetD

/-!
# Receiving many datagrams

`readSocket` receives every datagram into the same members: the struct `_raw_frame`, and
the headers `_iov` and `_msg` that `recvmsg` reads and fills. It sets them up again for each
datagram, so nothing of one datagram is left when the next is decoded. The frames are those
of the datagrams that have one of the two sizes and a length that fits, one for one. Whether
the call that has received them returns is up to the slot that hears of them.

## Main definitions

* `RxMembers` — the members that `recvmsg` fills.
* `RxMembers.readSocket` — `readSocket` with these members passed from one turn of its loop
  to the next.
* `Datagram.Accepted`, `Datagram.frame` — which datagrams are decoded, and to what.
* `HandsOn` — a datagram's frame is among those that a call enqueues.
* `RxMembers.ReadsExactly` — what a call of `readSocket` is for.
-/
namespace DPFlow.SocketCanBackend

open Lib CanInterface

/-! ## The loop over shared members -/

/-- The bytes of `_raw_frame`, `_iov.iov_len` and `_msg.msg_flags`. -/
structure RxMembers where
  _raw_frame : List UInt8
  iovLen : ℕ
  msgFlags : BitVec 32

namespace RxMembers

/-- The assignments at the top of the loop. -/
def setUp (m : RxMembers) : RxMembers :=
  { m with _raw_frame := List.replicate canfdMtu 0, iovLen := canfdMtu, msgFlags := 0 }

/-- `recvmsg`: the datagram, cut at `iov_len`, overwrites the front of the buffer. -/
def recvmsg (m : RxMembers) (datagram : Datagram) : ℕ × RxMembers :=
  let bytes := datagram.bytes.take m.iovLen
  (bytes.length, { m with _raw_frame := bytes ++ m._raw_frame.drop bytes.length
                          msgFlags := datagram.msgFlags })

/-- The loop of `readSocket`, on the datagrams there are before `recvmsg` returns zero or
less. -/
def readLoop : List Datagram → RxMembers → List CanFrame → SocketCanBackend →
    List CanFrame × RxMembers × SocketCanBackend
  | [], m, frames, b => (frames, m.setUp, b)
  | datagram :: rest, m, frames, b =>
      let (bytesRx, m) := m.setUp.recvmsg datagram
      let raw := CanfdStruct.received m._raw_frame
      if bytesRx = 0 then (frames, m, b)
      else if bytesRx ≠ canfdMtu ∧ bytesRx ≠ canMtu then
        readLoop rest m frames (b.setError "Incomplete CAN frame" .rxError)
      else if raw.len.toNat > bytesRx - dataOffset then
        readLoop rest m frames (b.setError "Invalid CAN frame length" .rxError)
      else
        let (ts, b) := match datagram.stamp with
          | .ok ts => (ts, b)
          | .error errno => ((0, 0), b.setError ("RX error: " ++ errno) .rxError)
        let frame := decode raw bytesRx ⟨ts.1, 1000 * ts.2⟩ m.msgFlags
        readLoop rest m (frames ++ [frame]) b

/-- `readSocket`. -/
def readSocket (m : RxMembers) (slot : Slot) (datagrams : List Datagram)
    (b : SocketCanBackend) : Except Deadlock (RxMembers × SocketCanBackend) := do
  let (frames, m, b) := readLoop datagrams m [] b
  let b ← b.enqueueRxFrames slot frames
  return (m, b)

/-- Zeros after the bytes do not show. -/
theorem received_append_replicate (bytes : List UInt8) :
    CanfdStruct.received (bytes ++ List.replicate (canfdMtu - bytes.length) 0) =
      CanfdStruct.received bytes := by
  have hfull : canfdMtu - (bytes ++ List.replicate (canfdMtu - bytes.length) 0).length = 0 := by
    rw [List.length_append, List.length_replicate]
    omega
  simp only [CanfdStruct.received, hfull, List.replicate_zero, List.append_nil]

/-- What `recvmsg` leaves in members that were set up is the datagram alone. -/
theorem recvmsg_setUp (m : RxMembers) (datagram : Datagram) :
    ∃ m', m.setUp.recvmsg datagram = ((datagram.bytes.take canfdMtu).length, m') ∧
      CanfdStruct.received m'._raw_frame =
        CanfdStruct.received (datagram.bytes.take canfdMtu) ∧
      m'.msgFlags = datagram.msgFlags := by
  refine ⟨_, rfl, ?_, rfl⟩
  change CanfdStruct.received (datagram.bytes.take canfdMtu ++
    (List.replicate canfdMtu 0).drop (datagram.bytes.take canfdMtu).length) = _
  rw [List.drop_replicate, received_append_replicate]

/-- **Nothing is left over.** Whatever the members hold at first, the loop collects the
frames, and leaves the errors, of datagrams that are received one by one into fresh ones. -/
theorem readLoop_eq (datagrams : List Datagram) (m : RxMembers) (frames : List CanFrame)
    (b : SocketCanBackend) :
    ∃ m', readLoop datagrams m frames b =
      (frames ++ (receiveFrames datagrams b).1, m', (receiveFrames datagrams b).2) := by
  induction datagrams generalizing m frames b with
  | nil => exact ⟨m.setUp, by rw [readLoop, receiveFrames, List.append_nil]⟩
  | cons datagram rest ih =>
      obtain ⟨m', hrecv, hraw, hflags⟩ := recvmsg_setUp m datagram
      rw [readLoop, receiveFrames, hrecv]
      dsimp only
      rw [hraw, hflags]
      split_ifs
      · exact ⟨m', by rw [List.append_nil]⟩
      · exact ih _ _ _
      · exact ih _ _ _
      · cases datagram.stamp with
        | ok ts =>
            obtain ⟨m'', h⟩ := ih m' _ b
            exact ⟨m'', h.trans (by rw [List.append_assoc]; rfl)⟩
        | error errno =>
            obtain ⟨m'', h⟩ := ih m' _ (b.setError ("RX error: " ++ errno) .rxError)
            exact ⟨m'', h.trans (by rw [List.append_assoc]; rfl)⟩

end RxMembers

/-! ## Which datagrams are decoded -/

namespace Datagram

/-- The length byte. -/
def len (d : Datagram) : ℕ := (d.bytes.getD 4 0).toNat

/-- One of the two sizes, and a length that fits. -/
def Accepted (d : Datagram) : Prop :=
  (d.bytes.length = canfdMtu ∨ d.bytes.length = canMtu) ∧ d.len ≤ d.bytes.length - dataOffset

instance (d : Datagram) : Decidable d.Accepted := inferInstanceAs (Decidable (_ ∧ _))

/-- It is rejected, or it has no timestamp. -/
def Faulty (d : Datagram) : Prop := ¬ d.Accepted ∨ ∃ errno, d.stamp = .error errno

/-- The frame of a datagram, its flags and its timestamp. -/
def frame (d : Datagram) : CanFrame :=
  let ts : Int64 × Int64 := match d.stamp with
    | .ok ts => ts
    | .error _ => (0, 0)
  decode (CanfdStruct.received d.bytes) d.bytes.length ⟨ts.1, 1000 * ts.2⟩ d.msgFlags

theorem received_len (d : Datagram) : (CanfdStruct.received d.bytes).len.toNat = d.len := by
  change ((d.bytes ++ List.replicate (canfdMtu - d.bytes.length) 0).getD 4 0).toNat = _
  by_cases h : 4 < d.bytes.length
  · rw [List.getD_append _ _ _ _ h]
    rfl
  · rw [List.getD_append_right _ _ _ _ (not_lt.mp h), len, List.getD_eq_default _ _ (not_lt.mp h)]
    rw [List.getD_eq_getElem?_getD, List.getElem?_replicate]
    split_ifs <;> rfl

theorem Accepted.size {d : Datagram} (h : d.Accepted) :
    canMtu ≤ d.bytes.length ∧ d.bytes.length ≤ canfdMtu := by
  obtain ⟨h | h, -⟩ := h <;> rw [h] <;> decide

/-- An accepted datagram's payload is its bytes from the data's offset on, as many as the
length byte says, all of them received. -/
theorem frame_payload {d : Datagram} (h : d.Accepted) :
    d.frame.payload = (d.bytes.drop dataOffset).take d.len ∧
      dataOffset + d.len ≤ d.bytes.length := by
  have hdata : dataOffset ≤ d.bytes.length := le_trans (by decide) h.size.1
  have hfit : dataOffset + d.len ≤ d.bytes.length := by
    have hlen := h.2
    omega
  refine ⟨?_, hfit⟩
  change ((d.bytes ++ List.replicate (canfdMtu - d.bytes.length) 0).drop dataOffset).take
    (CanfdStruct.received d.bytes).len.toNat = _
  rw [received_len, List.drop_append_of_le_length hdata, List.take_append_of_le_length]
  rw [List.length_drop]
  omega

theorem length_payload {d : Datagram} (h : d.Accepted) : d.frame.payload.length = d.len := by
  obtain ⟨hpayload, hfit⟩ := frame_payload h
  rw [hpayload, List.length_take, List.length_drop]
  omega

end Datagram

/-! ## The loop, datagram by datagram -/

/-- A datagram is rejected with an error, or its frame is the next one. -/
theorem receiveFrames_cons {d : Datagram}
    (hsize : 1 ≤ d.bytes.length ∧ d.bytes.length ≤ canfdMtu) (rest : List Datagram)
    (b : SocketCanBackend) :
    (¬ d.Accepted ∧ ∃ message,
      receiveFrames (d :: rest) b = receiveFrames rest (b.setError message .rxError)) ∨
    (d.Accepted ∧ ∃ b', receiveFrames (d :: rest) b =
        (d.frame :: (receiveFrames rest b').1, (receiveFrames rest b').2) ∧
      ((∃ ts, d.stamp = .ok ts) ∧ b' = b ∨
        (∃ errno, d.stamp = .error errno) ∧ ∃ message, b' = b.setError message .rxError)) := by
  have htake : d.bytes.take canfdMtu = d.bytes := List.take_of_length_le hsize.2
  have hpos : ¬ d.bytes.length = 0 := by omega
  rw [receiveFrames]
  dsimp only
  rw [htake, if_neg hpos, d.received_len]
  by_cases hwhole : d.bytes.length ≠ canfdMtu ∧ d.bytes.length ≠ canMtu
  · refine .inl ⟨?_, _, if_pos hwhole⟩
    rintro ⟨h | h, -⟩
    · exact hwhole.1 h
    · exact hwhole.2 h
  rw [if_neg hwhole]
  by_cases hlen : d.len > d.bytes.length - dataOffset
  · exact .inl ⟨fun h => absurd h.2 (not_le.mpr hlen), _, if_pos hlen⟩
  rw [if_neg hlen]
  have haccepted : d.Accepted := by
    refine ⟨?_, not_lt.mp hlen⟩
    by_cases h : d.bytes.length = canfdMtu
    · exact .inl h
    · exact .inr (not_not.mp fun h' => hwhole ⟨h, h'⟩)
  refine .inr ⟨haccepted, ?_⟩
  rw [Datagram.frame]
  cases d.stamp with
  | ok ts => exact ⟨b, rfl, .inl ⟨⟨ts, rfl⟩, rfl⟩⟩
  | error errno => exact ⟨_, rfl, .inr ⟨⟨errno, rfl⟩, _, rfl⟩⟩

/-- The frames of the accepted datagrams, in order. -/
def acceptedFrames (datagrams : List Datagram) : List CanFrame :=
  (datagrams.filter fun d => d.Accepted).map Datagram.frame

/-- What an error leaves as it is, the loop leaves as it is. -/
theorem receiveFrames_induction {I : SocketCanBackend → Prop}
    (herror : ∀ b message, I b → I (b.setError message .rxError)) (datagrams : List Datagram)
    {b : SocketCanBackend} (h : I b) : I (receiveFrames datagrams b).2 := by
  induction datagrams generalizing b with
  | nil => exact h
  | cons datagram rest ih =>
      rw [receiveFrames]
      dsimp only
      split_ifs
      · exact h
      · exact ih (herror b _ h)
      · exact ih (herror b _ h)
      · cases datagram.stamp with
        | ok ts => exact ih h
        | error errno => exact ih (herror b _ h)

/-- The queue, its lock and the state are among it, and all that is not in the base class. -/
theorem receiveFrames_keeps (datagrams : List Datagram) (b : SocketCanBackend) :
    ∃ t : CanInterface, (receiveFrames datagrams b).2 = { b with toCanInterface := t } ∧
      t._rxFrames = b._rxFrames ∧ t._rxLock = b._rxLock ∧ t._state = b._state := by
  refine receiveFrames_induction (I := fun b' => ∃ t : CanInterface,
    b' = { b with toCanInterface := t } ∧
      t._rxFrames = b._rxFrames ∧ t._rxLock = b._rxLock ∧ t._state = b._state) ?_ datagrams
    ⟨b.toCanInterface, rfl, rfl, rfl, rfl⟩
  rintro b' message ⟨t, rfl, hframes, hlock, hstate⟩
  exact ⟨t.setError message .rxError, rfl, hframes, hlock, hstate⟩

/-- The loop over datagrams none of which ends it goes on with what follows. -/
theorem receiveFrames_append {before : List Datagram} (hbefore : ∀ e ∈ before, e.bytes ≠ [])
    (rest : List Datagram) (b : SocketCanBackend) :
    receiveFrames (before ++ rest) b =
      ((receiveFrames before b).1 ++ (receiveFrames rest (receiveFrames before b).2).1,
        (receiveFrames rest (receiveFrames before b).2).2) := by
  induction before generalizing b with
  | nil => rfl
  | cons e before ih =>
      have hrest := ih fun e' he' => hbefore e' (List.mem_cons_of_mem _ he')
      have hne : (e.bytes.take canfdMtu).length ≠ 0 := by
        rw [List.length_take, ne_eq, Nat.min_eq_zero_iff, List.length_eq_zero_iff]
        exact not_or.mpr ⟨by decide, hbefore e List.mem_cons_self⟩
      rw [List.cons_append, receiveFrames, receiveFrames]
      dsimp only
      rw [if_neg hne, if_neg hne]
      split_ifs
      · exact hrest _
      · exact hrest _
      · rw [hrest]
        rfl

/-- The frames are those of the accepted datagrams, in order. -/
theorem receiveFrames_fst {datagrams : List Datagram}
    (hsize : ∀ d ∈ datagrams, 1 ≤ d.bytes.length ∧ d.bytes.length ≤ canfdMtu)
    (b : SocketCanBackend) : (receiveFrames datagrams b).1 = acceptedFrames datagrams := by
  induction datagrams generalizing b with
  | nil => rfl
  | cons d rest ih =>
      have hrest := ih fun d' hd' => hsize d' (List.mem_cons_of_mem _ hd')
      rw [acceptedFrames]
      obtain ⟨hno, message, h⟩ | ⟨hyes, b', h, -⟩ :=
        receiveFrames_cons (hsize d List.mem_cons_self) rest b
      · rw [h, hrest, List.filter_cons_of_neg (by simpa using hno), acceptedFrames]
      · rw [h, List.filter_cons_of_pos (by simpa using hyes), List.map_cons, hrest, acceptedFrames]

/-- The error is a receive error once a datagram was faulty, and the same if none was. -/
theorem receiveFrames_error {datagrams : List Datagram}
    (hsize : ∀ d ∈ datagrams, 1 ≤ d.bytes.length ∧ d.bytes.length ≤ canfdMtu)
    (b : SocketCanBackend) :
    let b' := (receiveFrames datagrams b).2
    ((∃ d ∈ datagrams, d.Faulty) → b'.error = .rxError) ∧
      ((∀ d ∈ datagrams, ¬ d.Faulty) → b'.error = b.error) := by
  have hkeep : ∀ (rest : List Datagram) (b : SocketCanBackend) (message : String),
      (receiveFrames rest (b.setError message .rxError)).2.error = .rxError :=
    fun rest b message => receiveFrames_induction (I := fun b' => b'.error = .rxError)
      (fun _ _ _ => rfl) rest rfl
  induction datagrams generalizing b with
  | nil =>
      refine ⟨?_, fun _ => rfl⟩
      rintro ⟨d, hd, -⟩
      cases hd
  | cons d rest ih =>
      have hrest := ih fun d' hd' => hsize d' (List.mem_cons_of_mem _ hd')
      obtain ⟨hno, message, h⟩ | ⟨hyes, b', h, ⟨⟨ts, hts⟩, rfl⟩ | ⟨⟨errno, hts⟩, message, rfl⟩⟩ :=
        receiveFrames_cons (hsize d List.mem_cons_self) rest b
      · rw [h]
        exact ⟨fun _ => hkeep _ _ _, fun hfine => absurd (.inl hno) (hfine d List.mem_cons_self)⟩
      · have hfine : ¬ d.Faulty := by
          rintro (hd | ⟨errno, herror⟩)
          · exact hd hyes
          · rw [hts] at herror
            cases herror
        obtain ⟨hfaulty, hsame⟩ := hrest b'
        rw [h]
        constructor
        · rintro ⟨d', hd', hbad⟩
          obtain rfl | hmem := List.mem_cons.mp hd'
          · exact absurd hbad hfine
          · exact hfaulty ⟨d', hmem, hbad⟩
        · exact fun hall => hsame fun d' hd' => hall d' (List.mem_cons_of_mem _ hd')
      · rw [h]
        exact ⟨fun _ => hkeep _ _ _,
          fun hfine => absurd (.inr ⟨errno, hts⟩) (hfine d List.mem_cons_self)⟩

/-! ## One call of `readSocket` -/

theorem readSocket_eq_enqueueRxFrames (slot : Slot) (datagrams : List Datagram)
    (b : SocketCanBackend) :
    b.readSocket slot datagrams =
      (receiveFrames datagrams b).2.enqueueRxFrames slot (receiveFrames datagrams b).1 := rfl

/-- A call of `readSocket` that receives `d` behind others enqueues the frame of `d` behind
theirs, whatever slot hears of it. -/
def HandsOn (b : SocketCanBackend) (before : List Datagram) (d : Datagram)
    (rest : List Datagram) : Prop :=
  ∃ (frames : List CanFrame) (b' : SocketCanBackend),
    b'._rxFrames = b._rxFrames ∧ b'._rxLock = b._rxLock ∧
    ∀ slot, b.readSocket slot (before ++ d :: rest) =
      b'.enqueueRxFrames slot ((receiveFrames before b).1 ++ d.frame :: frames)

/-- An accepted datagram adds its frame, whatever is received before and after it. -/
theorem readSocket_append (b : SocketCanBackend) {before : List Datagram}
    (hbefore : ∀ e ∈ before, e.bytes ≠ []) {d : Datagram} (hd : d.Accepted)
    (rest : List Datagram) : b.HandsOn before d rest := by
  have hsize : 1 ≤ d.bytes.length ∧ d.bytes.length ≤ canfdMtu :=
    ⟨le_trans (by decide) hd.size.1, hd.size.2⟩
  obtain ⟨t, hkeeps, hframes, hlock, -⟩ := receiveFrames_keeps (before ++ d :: rest) b
  obtain ⟨hno, -⟩ | ⟨-, b', h, -⟩ := receiveFrames_cons hsize rest (receiveFrames before b).2
  · exact absurd hd hno
  · refine ⟨(receiveFrames rest b').1, { b with toCanInterface := t }, hframes, hlock, ?_⟩
    intro slot
    rw [readSocket_eq_enqueueRxFrames, hkeeps, receiveFrames_append hbefore, h]

/-- The backend with the frames behind its queue. -/
def delivered (b : SocketCanBackend) (frames : List CanFrame) : SocketCanBackend :=
  { b with toCanInterface := (b.toCanInterface.delivering frames).unlockRx }

/-- A slot that only asks for the count: the frames are queued, and the call returns. -/
theorem enqueueRxFrames_answered {b : SocketCanBackend} (hfree : b._rxLock = false) {slot : Slot}
    {frames : List CanFrame}
    (hslot : slot.Answered (underLock (b._rxFrames.length + frames.length))) :
    b.enqueueRxFrames slot frames = .ok (b.delivered frames) := by
  rw [enqueueRxFrames, CanInterface.enqueueRxFrames_answered hfree hslot]
  rfl

/-- **One call of `readSocket`.** On datagrams of 1 to 72 bytes its loop ends, whatever slot
there is, and comes down to one `enqueueRxFrames` of the accepted datagrams' frames; the error
by then is a receive error if a datagram was faulty, and as before if none was. -/
theorem readSocket_eq {datagrams : List Datagram}
    (hsize : ∀ d ∈ datagrams, 1 ≤ d.bytes.length ∧ d.bytes.length ≤ canfdMtu)
    (b : SocketCanBackend) :
    ∃ t : CanInterface, t._rxFrames = b._rxFrames ∧ t._rxLock = b._rxLock ∧ t._state = b._state ∧
      ((∃ d ∈ datagrams, d.Faulty) → t.error = .rxError) ∧
      ((∀ d ∈ datagrams, ¬ d.Faulty) → t.error = b.error) ∧
      ∀ slot, b.readSocket slot datagrams =
        SocketCanBackend.enqueueRxFrames slot (acceptedFrames datagrams)
          { b with toCanInterface := t } := by
  obtain ⟨t, hkeeps, hframes, hlock, hstate⟩ := receiveFrames_keeps datagrams b
  have hfst := receiveFrames_fst hsize b
  obtain ⟨hfaulty, hsame⟩ := receiveFrames_error hsize b
  rw [hkeeps] at hfaulty hsame
  refine ⟨t, hframes, hlock, hstate, hfaulty, hsame, ?_⟩
  intro slot
  rw [readSocket_eq_enqueueRxFrames, hkeeps, hfst]

/-- With a slot that only asks for the count the call returns, and the frames are behind the
queue. -/
theorem readSocket_answered {datagrams : List Datagram}
    (hsize : ∀ d ∈ datagrams, 1 ≤ d.bytes.length ∧ d.bytes.length ≤ canfdMtu)
    {b : SocketCanBackend} (hfree : b._rxLock = false) {slot : Slot}
    (hslot : slot.Answered (underLock (b._rxFrames.length + (acceptedFrames datagrams).length))) :
    ∃ b', b.readSocket slot datagrams = .ok b' ∧ b'._rxLock = false ∧
      b'._rxFrames = b._rxFrames ++ acceptedFrames datagrams ∧
      ((∃ d ∈ datagrams, d.Faulty) → b'.error = .rxError) ∧
      ((∀ d ∈ datagrams, ¬ d.Faulty) → b'.error = b.error) := by
  obtain ⟨t, hframes, hlock, -, hfaulty, hsame, hread⟩ := readSocket_eq hsize b
  refine ⟨delivered { b with toCanInterface := t } (acceptedFrames datagrams), ?_, rfl, ?_,
    hfaulty, hsame⟩
  · rw [hread]
    refine enqueueRxFrames_answered (hlock.trans hfree) ?_
    change slot.Answered (underLock (t._rxFrames.length + _))
    rwa [hframes]
  · change t._rxFrames ++ _ = _
    rw [hframes]

/-- Without a connection the slot may call `recv` and `recvAll` too. Their error stays behind, so
the call leaves the error as it was only if it was that one. -/
theorem readSocket_offline {datagrams : List Datagram}
    (hsize : ∀ d ∈ datagrams, 1 ≤ d.bytes.length ∧ d.bytes.length ≤ canfdMtu)
    {b : SocketCanBackend} (hfree : b._rxLock = false) (hdisc : b._state ≠ .connectedState)
    {slot : Slot}
    (hslot : slot.Answered (offline (b._rxFrames.length + (acceptedFrames datagrams).length)))
    (hfine : ∀ d ∈ datagrams, ¬ d.Faulty) (hop : b.error = .operationError) :
    ∃ b', b.readSocket slot datagrams = .ok b' ∧
      b'._rxFrames = b._rxFrames ++ acceptedFrames datagrams ∧ b'.error = b.error := by
  obtain ⟨t, hframes, hlock, hstate, -, hsame, hread⟩ := readSocket_eq hsize b
  have H := offline_delivering (fun h => hdisc (hstate.symm.trans h)) (acceptedFrames datagrams)
  rw [← hframes, ← List.length_append] at hslot
  obtain ⟨i, hrun⟩ := (H.slot_run_iff slot).mpr hslot
  obtain ⟨hafter, herror⟩ := H.of_slot_run hrun
  refine ⟨{ b with toCanInterface := i.unlockRx }, ?_, ?_, ?_⟩
  · rw [hread, enqueueRxFrames, enqueueRxFrames_eq (hlock.trans hfree), hrun]
    rfl
  · exact hafter.frames.trans (congrArg (· ++ _) hframes)
  · change i.error = b.error
    obtain herror | ⟨-, rfl⟩ := herror
    · rw [herror, hop]
    · exact hsame hfine

/-- A call that returns has queued the frames, whatever its slot called. -/
theorem readSocket_queued {datagrams : List Datagram}
    (hsize : ∀ d ∈ datagrams, 1 ≤ d.bytes.length ∧ d.bytes.length ≤ canfdMtu) {slot : Slot}
    {b b' : SocketCanBackend} (h : b.readSocket slot datagrams = .ok b') :
    b'._rxFrames = b._rxFrames ++ acceptedFrames datagrams ∧ b'._rxLock = false := by
  obtain ⟨t, hframes, -, -, -, -, hread⟩ := readSocket_eq hsize b
  rw [hread] at h
  obtain ⟨i, hi, hok⟩ := ok_of_bind h
  cases hok
  rw [← hframes]
  exact enqueueRxFrames_queued hi

namespace RxMembers

/-- The members hold nothing that a call needs, and change nothing of what it does. -/
theorem readSocket_eq (m : RxMembers) (datagrams : List Datagram) (b : SocketCanBackend) :
    ∃ m', ∀ slot, m.readSocket slot datagrams b =
      (b.readSocket slot datagrams).map fun b' => (m', b') := by
  obtain ⟨m', hloop⟩ := readLoop_eq datagrams m [] b
  refine ⟨m', fun slot => ?_⟩
  rw [readSocket, hloop, List.nil_append, SocketCanBackend.readSocket]
  dsimp only
  cases SocketCanBackend.enqueueRxFrames slot _ _ <;> rfl

/-- What a call is for: it returns, and behind the queue are the accepted datagrams' frames, in
order, each a function of its own datagram with its data within the received bytes; the error
is a receive error if a datagram was faulty, and as before if none was. -/
def ReadsExactly (m : RxMembers) (slot : Slot) (datagrams : List Datagram)
    (b : SocketCanBackend) : Prop :=
  ∃ m' b', m.readSocket slot datagrams b = .ok (m', b') ∧
    b'._rxFrames = b._rxFrames ++ (datagrams.filter fun d => d.Accepted).map Datagram.frame ∧
    (∀ d ∈ datagrams, d.Accepted →
      d.frame.payload = (d.bytes.drop dataOffset).take d.len ∧
        dataOffset + d.len ≤ d.bytes.length) ∧
    ((∃ d ∈ datagrams, d.Faulty) → b'.error = .rxError) ∧
    ((∀ d ∈ datagrams, ¬ d.Faulty) → b'.error = b.error)

/-- A call that returns has found the lock free, and its slot has run through. -/
theorem exists_of_readSocket {m m' : RxMembers} {datagrams : List Datagram}
    (hsize : ∀ d ∈ datagrams, 1 ≤ d.bytes.length ∧ d.bytes.length ≤ canfdMtu) {slot : Slot}
    {b b' : SocketCanBackend} (h : m.readSocket slot datagrams b = .ok (m', b')) :
    b._rxLock = false ∧ ∃ t i : CanInterface,
      t._rxFrames = b._rxFrames ∧ t._state = b._state ∧
      slot.run rxCall (t.delivering (acceptedFrames datagrams)) = .ok i ∧
      b'.error = i.error := by
  obtain ⟨m'', hmembers⟩ := m.readSocket_eq datagrams b
  obtain ⟨t, hframes, hlock, hstate, -, -, hread⟩ := SocketCanBackend.readSocket_eq hsize b
  rw [hmembers] at h
  obtain ⟨b'', hb'', hpair⟩ := ok_of_map h
  cases hpair
  rw [hread] at hb''
  obtain ⟨i', hi', hok⟩ := ok_of_bind hb''
  cases hok
  cases hfree : b._rxLock with
  | true =>
      rw [CanInterface.enqueueRxFrames, lockRx_held (hlock.trans hfree)] at hi'
      cases hi'
  | false =>
      rw [enqueueRxFrames_eq (hlock.trans hfree)] at hi'
      obtain ⟨i, hrun, hunlock⟩ := ok_of_bind hi'
      cases hunlock
      exact ⟨rfl, t, i, hframes, hstate, hrun, rfl⟩

/-- **When a call does what it is for.** The receive lock has to be free, and the slot, told
the count whenever it asks for it, to ask for nothing else. Without a connection it may also
call `recv` and `recvAll`, if the error that they leave is the one that was there, and no
datagram is faulty. -/
theorem readsExactly_iff (m : RxMembers) {datagrams : List Datagram}
    (hsize : ∀ d ∈ datagrams, 1 ≤ d.bytes.length ∧ d.bytes.length ≤ canfdMtu) (slot : Slot)
    (b : SocketCanBackend) :
    m.ReadsExactly slot datagrams b ↔ b._rxLock = false ∧
      let n := b._rxFrames.length + (datagrams.filter fun d => d.Accepted).length
      (slot.Answered (underLock n) ∨
        b._state ≠ .connectedState ∧ slot.Answered (offline n) ∧
          (∀ d ∈ datagrams, ¬ d.Faulty) ∧ b.error = .operationError) := by
  have hcount : (datagrams.filter fun d => d.Accepted).length = (acceptedFrames datagrams).length :=
    (List.length_map _).symm
  rw [hcount]
  constructor
  · rintro ⟨m', b', hread, -, -, hfaulty, hsame⟩
    obtain ⟨hfree, t, i, hframes, hstate, hrun, herror⟩ := exists_of_readSocket hsize hread
    refine ⟨hfree, ?_⟩
    by_cases hconn : b._state = .connectedState
    · have hanswered := ((slot_run_iff (hstate.trans hconn) _ slot i).mp hrun).1
      rw [hframes] at hanswered
      exact .inl hanswered
    · have hdisc : t._state ≠ .connectedState := fun h => hconn (hstate.symm.trans h)
      have H := offline_delivering hdisc (acceptedFrames datagrams)
      have hoffline := (H.slot_run_iff slot).mp ⟨i, hrun⟩
      rw [List.length_append, hframes] at hoffline
      obtain ⟨-, hop | ⟨hanswered, -⟩⟩ := H.of_slot_run hrun
      · -- the slot's error is the last one
        have hfine : ∀ d ∈ datagrams, ¬ d.Faulty := by
          intro d hd hbad
          have hrx := hfaulty ⟨d, hd, hbad⟩
          rw [herror, hop] at hrx
          cases hrx
        exact .inr ⟨hconn, hoffline, hfine, (hsame hfine).symm.trans (herror.trans hop)⟩
      · rw [List.length_append, hframes] at hanswered
        exact .inl hanswered
  · rintro ⟨hfree, hslot⟩
    obtain ⟨m', hmembers⟩ := m.readSocket_eq datagrams b
    obtain hanswered | ⟨hconn, hoffline, hfine, hop⟩ := hslot
    · obtain ⟨b', hread, -, hframes, hfaulty, hsame⟩ := readSocket_answered hsize hfree hanswered
      refine ⟨m', b', ?_, hframes, fun d _ => d.frame_payload, hfaulty, hsame⟩
      rw [hmembers, hread]
      rfl
    · obtain ⟨b', hread, hframes, hsame⟩ :=
        readSocket_offline hsize hfree hconn hoffline hfine hop
      refine ⟨m', b', ?_, hframes, fun d _ => d.frame_payload, ?_, fun _ => hsame⟩
      · rw [hmembers, hread]
        rfl
      · rintro ⟨d, hd, hbad⟩
        exact absurd hbad (hfine d hd)

end RxMembers

/-- A datagram that is cut short, and one with two bytes of data and no timestamp. -/
def shortThenWhole : List Datagram :=
  [⟨[1, 2, 3], 0, .ok (7, 8)⟩,
    ⟨[0x23, 1, 0, 0, 2, 0, 0, 0, 0xAA, 0xBB, 0, 0, 0, 0, 0, 0], 0, .error "No such device"⟩]

/-- They are received into members that hold something else, and the slot counts twice. -/
theorem readsExactly_shortThenWhole :
    RxMembers.ReadsExactly ⟨List.replicate 72 0xFF, 3, 1⟩
      (.call .countRxPending fun _ => .call .countRxPending fun _ => .done)
      shortThenWhole (init "can0") := by
  refine (RxMembers.readsExactly_iff _ ?_ _ _).mpr ⟨rfl, .inl ⟨1, ?_, 1, ?_, trivial⟩⟩
  · decide
  · rfl
  · rfl

/-- With the slot of `main.cpp`, a call that receives one good datagram does not return. -/
theorem readSocket_drainSlot :
    let b : SocketCanBackend := { init "can0" with _state := .connectedState, _socket := 5 }
    let datagram : Datagram :=
      ⟨[0x23, 1, 0, 0, 2, 0, 0, 0, 0xAA, 0xBB, 0, 0, 0, 0, 0, 0], 0, .ok (7, 8)⟩
    RxMembers.readSocket ⟨[], 0, 0⟩ (drainSlot 1) [datagram] b = .error .rxLock ∧
      ¬ RxMembers.ReadsExactly ⟨[], 0, 0⟩ (drainSlot 1) [datagram] b := by
  intro b datagram
  have hstuck : RxMembers.readSocket ⟨[], 0, 0⟩ (drainSlot 1) [datagram] b = .error .rxLock := rfl
  refine ⟨hstuck, ?_⟩
  rintro ⟨m', b', hread, -⟩
  rw [hstuck] at hread
  cases hread

end DPFlow.SocketCanBackend
