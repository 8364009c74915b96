import DPFlow.SocketCan.Connection
import DPFlow.SocketCan.Receive

/-!
# Whatever else a backend does

Sending frames, receiving them and handing them out changes the queue and the error. The
options, the connection state with what was announced of it, and the socket stay as they
are, so what connecting and disconnecting keep holds of every backend there can be.

## Main definitions

* `CanInterface.SameLink` — the parts that only connections and options change.
* `System.Reachable` — what any calls make of a new backend.
-/
namespace DPFlow

/-! ## The base class -/

namespace CanInterface

open Lib

/-- The options, the state and the announced states are the same in both. -/
structure SameLink (i i' : CanInterface) : Prop where
  options : i'._configOptions = i._configOptions
  state : i'._state = i._state
  announced : i'.announced = i.announced

theorem SameLink.refl (i : CanInterface) : SameLink i i := ⟨rfl, rfl, rfl⟩

theorem SameLink.trans {i i' i'' : CanInterface} (h : SameLink i i') (h' : SameLink i' i'') :
    SameLink i i'' where
  options := h'.options.trans h.options
  state := h'.state.trans h.state
  announced := h'.announced.trans h.announced

theorem sameLink_setError (i : CanInterface) (errorMessage : String) (error : CanBusError) :
    SameLink i (i.setError errorMessage error) :=
  ⟨rfl, rfl, setError_announced i errorMessage error⟩

theorem sameLink_rxCall {i i' : CanInterface} {q : RxCall} {a : q.Result}
    (h : rxCall q i = .ok (a, i')) : SameLink i i' := by
  obtain ⟨frames, j, rfl, rfl | rfl | ⟨errorMessage, error, rfl⟩⟩ := rxCall_cases h
  · exact ⟨rfl, rfl, rfl⟩
  · exact ⟨rfl, rfl, rfl⟩
  · exact (sameLink_setError i errorMessage error).trans ⟨rfl, rfl, rfl⟩

/-- A delivery that returns leaves the link alone, whatever its slot called. -/
theorem sameLink_enqueueRxFrames {i i' : CanInterface} {slot : Slot} {frames : List CanFrame}
    (h : i.enqueueRxFrames slot frames = .ok i') : SameLink i i' := by
  by_cases hfree : i._rxLock = false
  · have hannounced : (i.delivering frames).announced = i.announced := by
      simp [delivering, announced]
    rw [enqueueRxFrames_eq hfree] at h
    obtain ⟨t, hrun, hok⟩ := ok_of_bind h
    cases hok
    have hslot : SameLink (i.delivering frames) t := by
      refine Script.run_induction ?_ slot (.refl _) hrun
      intro q j a j' H hq
      exact H.trans (sameLink_rxCall hq)
    exact ⟨hslot.options, hslot.state, hslot.announced.trans hannounced⟩
  · rw [enqueueRxFrames, lockRx_held (Bool.eq_true_of_not_eq_false hfree)] at h
    cases h

end CanInterface

/-! ## The backend -/

namespace SocketCanBackend

open Lib CanInterface

/-- The link and the socket are the same in both. -/
structure SameLink (b b' : SocketCanBackend) : Prop
    extends CanInterface.SameLink b.toCanInterface b'.toCanInterface where
  socket : b'._socket = b._socket

theorem sameLink_setError (b : SocketCanBackend) (message : String) (error : CanBusError) :
    SameLink b (b.setError message error) :=
  ⟨CanInterface.sameLink_setError b.toCanInterface message error, rfl⟩

theorem SameLink.refl (b : SocketCanBackend) : SameLink b b := ⟨.refl _, rfl⟩

theorem SameLink.trans {b b' b'' : SocketCanBackend} (h : SameLink b b') (h' : SameLink b' b'') :
    SameLink b b'' := ⟨h.toSameLink.trans h'.toSameLink, h'.socket.trans h.socket⟩

/-- Sending leaves the link alone, whether or not the frame goes out. -/
theorem sameLink_send {b : SocketCanBackend} {frame : CanFrame} {write : Except String Unit}
    {sent : Sent} (h : b.send frame write = some sent) : SameLink b sent.backend := by
  rw [send] at h
  split_ifs at h
  · cases h
    exact .refl b
  · cases h
    exact sameLink_setError b _ _
  · cases h
    exact sameLink_setError b _ _
  · cases hencode : encode frame with
    | none =>
        rw [hencode] at h
        cases h
    | some bytes =>
        rw [hencode] at h
        cases write with
        | error errno =>
            cases h
            exact sameLink_setError b _ _
        | ok u =>
            cases h
            exact .refl b

theorem sameLink_receiveFrames (datagrams : List Datagram) (b : SocketCanBackend) :
    SameLink b (receiveFrames datagrams b).2 :=
  receiveFrames_induction (fun b' _ h => h.trans (sameLink_setError b' _ _)) datagrams (.refl b)

theorem sameLink_readSocket {b b' : SocketCanBackend} {slot : Slot} {datagrams : List Datagram}
    (h : b.readSocket slot datagrams = .ok b') : SameLink b b' := by
  rw [readSocket_eq_enqueueRxFrames] at h
  obtain ⟨i, hdeliver, hok⟩ := ok_of_bind h
  cases hok
  exact (sameLink_receiveFrames datagrams b).trans ⟨sameLink_enqueueRxFrames hdeliver, rfl⟩

end SocketCanBackend

/-! ## Every backend there can be -/

namespace System

open CanInterface

variable {F ω : Type}

/-- What any calls make of a new backend, in any order and with any outcomes. The dispatcher
and the descriptors belong to the whole process, which may do anything to them. -/
inductive Reachable (func : F) : System F ω → Prop
  | new {s : System F ω} : New s → Reachable func s
  | call {s : System F ω} {call : Call} :
      Reachable func s → call.Possible → Reachable func ((usage func).step s call).1
  | send {s : System F ω} {frame : CanFrame} {write : Except String Unit}
      {sent : SocketCanBackend.Sent} :
      Reachable func s → s.backend.send frame write = some sent →
      Reachable func { s with backend := sent.backend }
  | receive {s : System F ω} {q : RxCall} {a : q.Result} {i : CanInterface} :
      Reachable func s → rxCall q s.backend.toCanInterface = .ok (a, i) →
      Reachable func { s with backend.toCanInterface := i }
  | readSocket {s : System F ω} {slot : Slot} {datagrams : List SocketCanBackend.Datagram}
      {b : SocketCanBackend} :
      Reachable func s → s.backend.readSocket slot datagrams = .ok b →
      Reachable func { s with backend := b }
  | process {s : System F ω} (app : EventDispatcher F ω)
      (descriptors : Int → Option Descriptor) :
      Reachable func s → Reachable func { s with app := app, descriptors := descriptors }

theorem Wired.sameLink {s s' : System F ω} (H : Wired s)
    (h : SocketCanBackend.SameLink s.backend s'.backend) : Wired s' where
  options := h.options.trans H.options
  settled := by
    rw [Settled, h.state]
    exact H.settled
  coherent := H.coherent.congr h.announced h.state
  socket hconn := by
    rw [h.socket]
    exact H.socket (h.state.symm.trans hconn)

/-- **What holds of every backend.** No option is stored, the state is not pending, and a
connected backend has a socket. -/
theorem Reachable.wired {func : F} {s : System F ω} (h : Reachable func s) : Wired s := by
  induction h with
  | new hnew => exact hnew.wired
  | call _ hcall H => exact H.step func hcall
  | send _ hsend H => exact H.sameLink (SocketCanBackend.sameLink_send hsend)
  | receive _ hrecv H => exact H.sameLink ⟨sameLink_rxCall hrecv, rfl⟩
  | readSocket _ hread H => exact H.sameLink (SocketCanBackend.sameLink_readSocket hread)
  | process app descriptors _ H => exact H.sameLink (.refl _)

end System
end DPFlow
