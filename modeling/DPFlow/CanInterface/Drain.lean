import DPFlow.CanInterface.RxLock

/-!
# Draining the receive queue one frame at a time

`recv` returns the front of the queue and leaves it there. The loop of `main.cpp`,
which calls `recv` until there is nothing left, comes to its end only when there is
nothing to begin with; and every call of `recv` hands out the same arrival.

## Main definitions

* `CanInterface.drain` — the consumer's loop, with the number of its calls.
* `CanInterface.DrainsLikeRecvAll` — what the loop is for.
* `CanInterface.handedOut` — what `recv` returns in a run of `recv` and `enqueueRxFrames`.
* `CanInterface.HandsOutOnce` — every frame returned is an arrival, and none a second time.
-/
namespace DPFlow.CanInterface

open Lib

/-! ## The drain loop -/

/-- The loop of `main.cpp`: the frames it saw, the number of calls it made, and the
interface it left; `none` while it is still running. -/
def drain : ℕ → CanInterface → Except Deadlock (Option (List CanFrame × ℕ × CanInterface))
  | 0, _ => .ok none
  | fuel + 1, i => do
      let (frame, i) ← i.recv
      if frame.frameType = .invalidFrame then return some ([], 1, i)
      else
        let rest ← drain fuel i
        return rest.map fun (frames, calls, i) => (frame :: frames, calls + 1, i)

/-- What the loop is for: one call more than there are frames, the frames in their
order, the same as one `recvAll` would have returned, and an empty queue. -/
def DrainsLikeRecvAll (i : CanInterface) : Prop :=
  ∃ fuel i₁ i₂, i.drain fuel = .ok (some (i._rxFrames, i._rxFrames.length + 1, i₁)) ∧
    i.recvAll = .ok (i._rxFrames, i₂) ∧ i₁.countRxPending = 0

/-- With a frame at the front, the loop is still running after any number of calls. -/
theorem drain_running {i : CanInterface} (hconn : i._state = .connectedState)
    (hfree : i._rxLock = false) {front : CanFrame} {rest : List CanFrame}
    (hq : i._rxFrames = front :: rest) (hfront : front.frameType ≠ .invalidFrame) (fuel : ℕ) :
    i.drain fuel = .ok none := by
  induction fuel generalizing i with
  | zero => rfl
  | succ fuel ih =>
      -- the queue after the call is the queue before it
      have hnext : i.clearError.drain fuel = .ok none := ih hconn hfree hq
      rw [drain, recv_eq hconn hfree, hq]
      simp [bind, Except.bind, hfront, hnext, pure, Except.pure]

/-- **The drain loop ends only on an empty queue.** -/
theorem drainsLikeRecvAll_iff {i : CanInterface} (hconn : i._state = .connectedState)
    (hfree : i._rxLock = false)
    (hvalid : ∀ frame ∈ i._rxFrames, frame.frameType ≠ .invalidFrame) :
    i.DrainsLikeRecvAll ↔ i._rxFrames = [] := by
  constructor
  · rintro ⟨fuel, i₁, i₂, hdrain, -, -⟩
    cases hq : i._rxFrames with
    | nil => rfl
    | cons front rest =>
        have hfront : front.frameType ≠ .invalidFrame :=
          hvalid front (by rw [hq]; exact List.mem_cons_self)
        rw [drain_running hconn hfree hq hfront fuel] at hdrain
        cases hdrain
  · intro hq
    refine ⟨1, i.clearError, _, ?_, recvAll_eq hconn hfree, ?_⟩
    · rw [drain, recv_eq hconn hfree, hq]
      rfl
    · exact congrArg List.length hq

/-! ## Calls among deliveries -/

/-- A step of a run: the consumer's `recv`, or the backend's delivery. -/
inductive RxStep
  | recv
  | enqueueRxFrames (frames : List CanFrame)

/-- A run's state: the interface, and every frame that has arrived, those in the queue
at the start included. -/
abbrev RxRun := CanInterface × List CanFrame

/-- The number, among all arrivals, of the frame at the front of the queue. -/
def frontArrival (s : RxRun) : Option ℕ :=
  if s.1._rxFrames = [] then none else some (s.2.length - s.1._rxFrames.length)

/-- One step. A `recv` is noted with the number of the arrival that was at the front, and the
frame that it returned. -/
def rxStep (s : RxRun) : RxStep → Except Deadlock (RxRun × List (Option ℕ × CanFrame))
  | .recv => do
      let (frame, i) ← s.1.recv
      return ((i, s.2), [(frontArrival s, frame)])
  | .enqueueRxFrames frames => do
      let i ← s.1.enqueueRxFrames .done frames
      return ((i, s.2 ++ frames), [])

/-- What the calls of `recv` in a run return. -/
def handedOut : RxRun → List RxStep → Except Deadlock (List (Option ℕ × CanFrame))
  | _, [] => .ok []
  | s, step :: steps => do
      let (s, out) ← rxStep s step
      let rest ← handedOut s steps
      return out ++ rest

/-- The frames that a step has arrive. -/
def RxStep.arriving : RxStep → List CanFrame
  | .recv => []
  | .enqueueRxFrames frames => frames

/-- What `recv` returned is the arrival of that number, or the invalid frame if there was
nothing at the front. -/
def IsArrival (arrivals : List CanFrame) : Option ℕ × CanFrame → Prop
  | (some n, frame) => arrivals[n]? = some frame
  | (none, frame) => frame.frameType = .invalidFrame

/-- No arrival is returned by two calls, and every frame returned is an arrival. -/
def HandsOutOnce (i : CanInterface) (steps : List RxStep) : Prop :=
  ∃ out, handedOut (i, i._rxFrames) steps = .ok out ∧
    (∀ call ∈ out, IsArrival (i._rxFrames ++ steps.flatMap RxStep.arriving) call) ∧
    (out.filterMap Prod.fst).Nodup

/-- The `recv` calls of a run that are made once a frame has arrived. -/
def recvsAfterArrival : Bool → List RxStep → ℕ
  | _, [] => 0
  | arrived, .recv :: steps => (if arrived then 1 else 0) + recvsAfterArrival arrived steps
  | arrived, .enqueueRxFrames frames :: steps =>
      recvsAfterArrival (arrived || !frames.isEmpty) steps

/-- A frame keeps its number when more arrive. -/
theorem IsArrival.append {arrivals : List CanFrame} {call : Option ℕ × CanFrame}
    (h : IsArrival arrivals call) (more : List CanFrame) : IsArrival (arrivals ++ more) call := by
  obtain ⟨_ | n, frame⟩ := call
  · exact h
  · have hlt : n < arrivals.length := (List.getElem?_eq_some_iff.mp h).1
    exact (List.getElem?_append_left hlt).trans h

/-- The frame that `recv` returns is the arrival with the front's number. -/
theorem recv_frontArrival {i : CanInterface} {arrivals : List CanFrame}
    (hconn : i._state = .connectedState) (hfree : i._rxLock = false)
    (hsuffix : i._rxFrames <:+ arrivals) :
    ∃ frame, i.recv = .ok (frame, i.clearError) ∧
      IsArrival arrivals (frontArrival (i, arrivals), frame) := by
  obtain ⟨gone, rfl⟩ := hsuffix
  refine ⟨_, recv_eq hconn hfree, ?_⟩
  cases hq : i._rxFrames with
  | nil => simp [frontArrival, hq, IsArrival, CanFrame.ofType_eq, CanFrame.frameType]
  | cons front rest => simp [frontArrival, hq, IsArrival]

/-- Nothing leaves the queue, so every `recv` once a frame has arrived returns the first
arrival. -/
theorem handedOut_spec {i : CanInterface} (hconn : i._state = .connectedState)
    (hfree : i._rxLock = false) (steps : List RxStep) :
    ∃ out, handedOut (i, i._rxFrames) steps = .ok out ∧
      (∀ call ∈ out, IsArrival (i._rxFrames ++ steps.flatMap RxStep.arriving) call) ∧
      out.filterMap Prod.fst =
        List.replicate (recvsAfterArrival (!i._rxFrames.isEmpty) steps) 0 := by
  induction steps generalizing i with
  | nil => exact ⟨[], rfl, by simp, rfl⟩
  | cons step steps ih =>
      cases step with
      | recv =>
          -- the queue after the call is the queue before it
          obtain ⟨out, hout, harrivals, hnumbers⟩ := ih (i := i.clearError) hconn hfree
          have hframes : i.clearError._rxFrames = i._rxFrames := rfl
          rw [hframes] at hout harrivals hnumbers
          obtain ⟨frame, hrecv, hfront⟩ :=
            recv_frontArrival hconn hfree (List.suffix_refl i._rxFrames)
          refine ⟨(frontArrival (i, i._rxFrames), frame) :: out, ?_, ?_, ?_⟩
          · simp only [handedOut, rxStep, hrecv, bind, Except.bind, pure, Except.pure, hout,
              List.singleton_append]
          · intro call hcall
            obtain rfl | hcall := List.mem_cons.mp hcall
            · exact hfront.append _
            · exact harrivals call hcall
          · rw [recvsAfterArrival]
            cases hq : i._rxFrames with
            | nil => simpa [frontArrival, hq] using hnumbers
            | cons front rest =>
                simp only [hq] at hnumbers
                simp [frontArrival, hq, hnumbers, Nat.add_comm 1, List.replicate_succ]
      | enqueueRxFrames frames =>
          obtain ⟨out, hout, harrivals, hnumbers⟩ :=
            ih (i := (i.delivering frames).unlockRx) hconn rfl
          have hframes : (i.delivering frames).unlockRx._rxFrames = i._rxFrames ++ frames := rfl
          rw [hframes] at hout harrivals hnumbers
          refine ⟨out, ?_, ?_, ?_⟩
          · simp only [handedOut, rxStep, enqueueRxFrames_done hfree, bind, Except.bind, pure,
              Except.pure, hout, List.nil_append]
          · rwa [List.append_assoc] at harrivals
          · rw [hnumbers, recvsAfterArrival]
            cases i._rxFrames <;> rfl

/-- **`recv` against `recvAll`.** On a connected interface at rest with no invalid frame
queued, the drain loop does what one `recvAll` does just when the queue is empty, and a
run of `recv` and `enqueueRxFrames` hands out no frame twice just when it calls `recv`
at most once after a frame has arrived. -/
theorem drain_and_handedOut_iff {i : CanInterface} (hconn : i._state = .connectedState)
    (hfree : i._rxLock = false)
    (hvalid : ∀ frame ∈ i._rxFrames, frame.frameType ≠ .invalidFrame) (steps : List RxStep) :
    (i.DrainsLikeRecvAll ↔ i._rxFrames = []) ∧
    (i.HandsOutOnce steps ↔ recvsAfterArrival (!i._rxFrames.isEmpty) steps ≤ 1) := by
  refine ⟨drainsLikeRecvAll_iff hconn hfree hvalid, ?_⟩
  obtain ⟨out, hout, harrivals, hnumbers⟩ := handedOut_spec hconn hfree steps
  rw [← List.nodup_replicate (a := 0), ← hnumbers]
  constructor
  · rintro ⟨out', hout', -, hnodup⟩
    rw [hout] at hout'
    cases hout'
    exact hnodup
  · exact fun hnodup => ⟨out, hout, harrivals, hnodup⟩

/-- Two frames are queued, and the run calls `recv` once before the next delivery. -/
theorem drain_and_handedOut_one :
    let i : CanInterface := { init with
      _state := .connectedState, _rxFrames := [.ofType .dataFrame, .ofType .errorFrame] }
    let steps : List RxStep := [.recv, .enqueueRxFrames [.ofType .dataFrame]]
    (i.DrainsLikeRecvAll ↔ i._rxFrames = []) ∧
    (i.HandsOutOnce steps ↔ recvsAfterArrival (!i._rxFrames.isEmpty) steps ≤ 1) :=
  drain_and_handedOut_iff (i := { init with
    _state := .connectedState, _rxFrames := [.ofType .dataFrame, .ofType .errorFrame] }) rfl rfl
    (by decide) [.recv, .enqueueRxFrames [.ofType .dataFrame]]

/-- One frame is queued: two calls of `recv` return it twice, and the loop of `main.cpp`
is not done after the two calls that should have been enough. -/
theorem drain_and_handedOut_twice :
    let i : CanInterface := { init with
      _state := .connectedState, _rxFrames := [.ofType .dataFrame] }
    handedOut (i, i._rxFrames) [.recv, .recv] =
        .ok [(some 0, .ofType .dataFrame), (some 0, .ofType .dataFrame)] ∧
      ¬ i.HandsOutOnce [.recv, .recv] ∧ ¬ i.DrainsLikeRecvAll := by
  refine ⟨rfl, ?_, ?_⟩
  · rintro ⟨out, hout, -, hnodup⟩
    cases hout
    exact absurd hnodup (by decide)
  · rw [drainsLikeRecvAll_iff rfl rfl (by decide)]
    exact List.cons_ne_nil _ _

end DPFlow.CanInterface
