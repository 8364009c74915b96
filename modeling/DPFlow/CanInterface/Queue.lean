import DPFlow.CanInterface.Connection
import DPFlow.CanInterface.RxLock

/-!
# No frame is lost or delivered twice

A consumer that takes frames with `recvAll` only, and slots that do not call back into
the interface: then every frame that was enqueued is returned by one `recvAll`, discarded
by one `flushRx`, or still in the queue, in the order of arrival. Connections come and go
without touching the queue.

## Main definitions

* `CanInterface.QueueOp` — the calls on an interface.
* `CanInterface.QueueOp.run` — one of them, with the frames it takes out of the queue.
* `CanInterface.runQueue` — a list of them.
-/
namespace DPFlow.CanInterface

/-- A call on the interface. A connection comes with what `open` or `close` does. -/
inductive QueueOp
  | enqueueRxFrames (frames : List CanFrame)
  | recvAll
  | flushRx
  | connect (opening : Opening)
  | disconnect (close : List HookCall)

namespace QueueOp

/-- The call, and the frames it takes out of the queue: those `recvAll` returns, those
`flushRx` discards. A slot that does not call back is `Script.done`. -/
def run : QueueOp → CanInterface → Except Deadlock (List CanFrame × CanInterface)
  | enqueueRxFrames frames, i => do
      let i ← i.enqueueRxFrames .done frames
      return ([], i)
  | recvAll, i => i.recvAll
  | flushRx, i => do
      let discarded := i._rxFrames
      let i ← i.flushRx
      return (discarded, i)
  | connect opening, i => return ([], (i.connect opening).2)
  | disconnect close, i => return ([], i.disconnect close)

/-- The frames that a call puts into the queue. -/
def enqueued : QueueOp → List CanFrame
  | enqueueRxFrames frames => frames
  | recvAll | flushRx | connect _ | disconnect _ => []

end QueueOp

/-- A list of calls, with the frames that each of them takes out. -/
def runQueue : List QueueOp → CanInterface → Except Deadlock (List (List CanFrame) × CanInterface)
  | [], i => return ([], i)
  | op :: ops, i => do
      let (taken, i) ← op.run i
      let (rest, i) ← runQueue ops i
      return (taken :: rest, i)

/-! ## One call -/

section rest
variable {i : CanInterface}

/-- With the lock free, a call returns, leaves the lock free, and keeps account of the
frames: what it took and what is left is what was there and what it put in. -/
theorem QueueOp.run_accounts (op : QueueOp) (hfree : i._rxLock = false) :
    ∃ taken i', op.run i = .ok (taken, i') ∧ i'._rxLock = false ∧
      taken ++ i'._rxFrames = i._rxFrames ++ op.enqueued := by
  cases op with
  | enqueueRxFrames frames =>
      refine ⟨[], (i.delivering frames).unlockRx, ?_, rfl, rfl⟩
      rw [run, enqueueRxFrames_done hfree]
      rfl
  | recvAll =>
      by_cases hconn : i._state = .connectedState
      · exact ⟨_, _, recvAll_eq hconn hfree, hfree, rfl⟩
      · exact ⟨_, _, recvAll_disconnected hconn, hfree, (List.append_nil _).symm⟩
  | flushRx =>
      refine ⟨i._rxFrames, { i with _rxFrames := [] }, ?_, hfree, rfl⟩
      rw [run, flushRx_eq hfree]
      rfl
  | connect opening =>
      obtain ⟨hframes, hlock⟩ := sameQueue_connect i opening
      refine ⟨[], _, rfl, hlock.trans hfree, ?_⟩
      rw [List.nil_append, hframes, enqueued, List.append_nil]
  | disconnect close =>
      obtain ⟨hframes, hlock⟩ := sameQueue_disconnect i close
      refine ⟨[], _, rfl, hlock.trans hfree, ?_⟩
      rw [List.nil_append, hframes, enqueued, List.append_nil]

/-- A list of calls keeps account of the frames. -/
theorem runQueue_accounts (ops : List QueueOp) (hfree : i._rxLock = false) :
    ∃ taken i', runQueue ops i = .ok (taken, i') ∧ i'._rxLock = false ∧
      taken.flatten ++ i'._rxFrames = i._rxFrames ++ ops.flatMap QueueOp.enqueued := by
  induction ops generalizing i with
  | nil => exact ⟨[], i, rfl, hfree, (List.append_nil _).symm⟩
  | cons op ops ih =>
      obtain ⟨taken, i', hop, hfree', hone⟩ := op.run_accounts hfree
      obtain ⟨rest, i'', hops, hfree'', hrest⟩ := ih hfree'
      refine ⟨taken :: rest, i'', ?_, hfree'', ?_⟩
      · rw [runQueue, hop]
        change (runQueue ops i' >>= fun p => pure (taken :: p.1, p.2)) = _
        rw [hops]
        rfl
      · calc (taken :: rest).flatten ++ i''._rxFrames
            = taken ++ (rest.flatten ++ i''._rxFrames) := by
              rw [List.flatten_cons, List.append_assoc]
          _ = (taken ++ i'._rxFrames) ++ ops.flatMap QueueOp.enqueued := by
              rw [hrest, List.append_assoc]
          _ = i._rxFrames ++ (op :: ops).flatMap QueueOp.enqueued := by
              rw [hone, List.flatMap_cons, List.append_assoc]

end rest

/-! ## Every run -/

/-- **The queue's account.** Every list of calls on a new interface returns. The frames
taken out, call by call, followed by the queue, are the frames enqueued. The queue is as
long as the list a `recvAll` in the connected state returns next. Outside that state
`recvAll` returns nothing, sets the error and leaves the queue, so what was received is
there after a `disconnect` and a `connect`. -/
theorem runQueue_exact (ops : List QueueOp) :
    ∃ taken i, runQueue ops init = .ok (taken, i) ∧
      taken.flatten ++ i._rxFrames = ops.flatMap QueueOp.enqueued ∧
      (∃ frames i', { i with _state := .connectedState }.recvAll = .ok (frames, i') ∧
        i.countRxPending = frames.length) ∧
      (i._state ≠ .connectedState → ∃ i', i.recvAll = .ok ([], i') ∧
        i'.error = .operationError ∧ i'._rxFrames = i._rxFrames) ∧
      ∀ close opening, ((i.disconnect close).connect opening).2._rxFrames = i._rxFrames := by
  obtain ⟨taken, i, hrun, hfree, haccount⟩ := runQueue_accounts ops (i := init) rfl
  refine ⟨taken, i, hrun, haccount, ?_, ?_, ?_⟩
  · exact ⟨_, _, recvAll_eq (i := { i with _state := .connectedState }) rfl hfree, rfl⟩
  · intro hdisc
    exact ⟨_, recvAll_disconnected hdisc, rfl, rfl⟩
  · intro close opening
    exact ((sameQueue_disconnect i close).trans (sameQueue_connect _ opening)).1

end DPFlow.CanInterface
