import DPFlow.CanInterface.Basic
import DPFlow.Lib.Mealy

/-!
# The transmit queue

Frames enter the queue at its end. `flushTx` discards them all, and `dequeueTxFrame` hands
out the one in front, but does not take it out: it is handed out again, and is still counted
as pending. A run is accounted for as long as nothing was there to be handed out.

## Main definitions

* `CanInterface.TxOp`, `CanInterface.txQueue` — calls, emitting the frames that leave.
* `CanInterface.HandsOver` — every frame leaves the queue once, in order.
-/
namespace DPFlow.CanInterface

open Lib

/-- A call on the transmit queue. -/
inductive TxOp
  | enqueueTxFrame (frame : CanFrame)
  | dequeueTxFrame
  | flushTx
  deriving DecidableEq, Repr

/-- The frame that a call puts into the queue. -/
def TxOp.enqueued : TxOp → List CanFrame
  | enqueueTxFrame frame => [frame]
  | dequeueTxFrame | flushTx => []

/-- The interface taking calls. It emits the frames that leave the queue: the one that
`dequeueTxFrame` returns when the queue is not empty, and those that `flushTx` discards. -/
def txQueue : Mealy CanInterface TxOp CanFrame where
  step i op := match op with
    | .enqueueTxFrame frame => (i.enqueueTxFrame frame, [])
    | .dequeueTxFrame =>
        let (frame, i') := i.dequeueTxFrame
        (i', if i._txFrames = [] then [] else [frame])
    | .flushTx => (i.flushTx, i._txFrames)

/-- The account of a run: what left the queue and what is in it are the frames that were
there and those enqueued, in order; no frame leaves more often than it came; and the number
of frames pending is the number that came and did not leave. -/
structure HandsOver (i : CanInterface) (ops : List TxOp) : Prop where
  in_order : txQueue.trace i ops ++ (txQueue.state i ops)._txFrames =
    i._txFrames ++ ops.flatMap TxOp.enqueued
  at_most_once : ∀ frame, (txQueue.trace i ops).count frame ≤
    (i._txFrames ++ ops.flatMap TxOp.enqueued).count frame
  pending : (txQueue.state i ops).countTxPending + (txQueue.trace i ops).length =
    (i._txFrames ++ ops.flatMap TxOp.enqueued).length

/-- A call that hands out a frame and leaves it in the queue. -/
def handsOutFront (p : CanInterface × TxOp) : Bool :=
  decide (p.2 = .dequeueTxFrame ∧ p.1._txFrames ≠ [])

theorem not_handsOutFront_iff (p : CanInterface × TxOp) :
    handsOutFront p = false ↔ (p.2 = .dequeueTxFrame → p.1._txFrames = []) := by
  rw [handsOutFront, decide_eq_false_iff_not, not_and, not_not]

/-- Every other call keeps account of the frames. -/
theorem step_account {p : CanInterface × TxOp} (h : handsOutFront p = false) :
    (txQueue.step p.1 p.2).2 ++ (txQueue.step p.1 p.2).1._txFrames =
      p.1._txFrames ++ p.2.enqueued := by
  obtain ⟨i, op⟩ := p
  cases op with
  | enqueueTxFrame frame => rfl
  | dequeueTxFrame =>
      have hempty : i._txFrames = [] := (not_handsOutFront_iff _).mp h rfl
      simp [txQueue, dequeueTxFrame, hempty, TxOp.enqueued]
  | flushTx => rfl

/-- This one leaves one frame too many. -/
theorem step_length (i : CanInterface) (op : TxOp) :
    (txQueue.step i op).2.length + (txQueue.step i op).1._txFrames.length =
      i._txFrames.length + op.enqueued.length + if handsOutFront (i, op) then 1 else 0 := by
  cases hfront : handsOutFront (i, op) with
  | false =>
      have hlength := congrArg List.length (step_account hfront)
      rw [List.length_append, List.length_append] at hlength
      simpa using hlength
  | true =>
      obtain ⟨rfl, hne⟩ := of_decide_eq_true hfront
      obtain ⟨front, rest, hcons⟩ := List.exists_cons_of_ne_nil hne
      have hcons' : i._txFrames = front :: rest := hcons
      simp [txQueue, dequeueTxFrame, hcons', TxOp.enqueued]
      omega

/-- **When frames are handed over.** A run on the transmit queue accounts for every frame
just when each `dequeueTxFrame` in it finds the queue empty. -/
theorem handsOver_iff (i : CanInterface) (ops : List TxOp) :
    HandsOver i ops ↔
      ∀ p ∈ txQueue.visits i ops, p.2 = .dequeueTxFrame → p.1._txFrames = [] := by
  constructor
  · intro h p hp
    have hlength := txQueue.length_account step_length i ops
    have hover : (txQueue.visits i ops).countP handsOutFront = 0 := by
      have hpending := h.pending
      rw [List.length_append, countTxPending] at hpending
      omega
    have hfront : ¬ handsOutFront p = true := List.countP_eq_zero.mp hover p hp
    exact (not_handsOutFront_iff p).mp (Bool.eq_false_iff.mpr hfront)
  · intro h
    have haccount : txQueue.trace i ops ++ (txQueue.state i ops)._txFrames =
        i._txFrames ++ ops.flatMap TxOp.enqueued :=
      txQueue.trace_account i ops fun p hp =>
        step_account ((not_handsOutFront_iff p).mpr (h p hp))
    refine ⟨haccount, ?_, ?_⟩
    · intro frame
      rw [← haccount, List.count_append]
      exact Nat.le_add_right _ _
    · rw [← haccount, List.length_append, countTxPending, Nat.add_comm]

/-- A data frame without data. -/
def emptyFrame : CanFrame := .ofType .dataFrame

/-- One frame in the queue is handed out twice, and is pending after that. -/
theorem handsOver_fails :
    let ops := [.enqueueTxFrame emptyFrame, .dequeueTxFrame, .dequeueTxFrame]
    emptyFrame.frameType ≠ .invalidFrame ∧ ops.flatMap TxOp.enqueued = [emptyFrame] ∧
      txQueue.trace init ops = [emptyFrame, emptyFrame] ∧
      (txQueue.state init ops).countTxPending = 1 ∧ ¬ HandsOver init ops := by
  refine ⟨by decide, rfl, by decide, rfl, ?_⟩
  intro h
  exact absurd h.pending (by decide)

end DPFlow.CanInterface
