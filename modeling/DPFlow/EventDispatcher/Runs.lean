import DPFlow.EventDispatcher.Accesses
import Mathlib

/-!
# Runs and their callbacks

A run is made of requests from outside and of turns, and a turn runs callbacks, of files and
of timers. What else a turn does is to read the clock and to set expiries. So to follow
something through a run it is enough to say what one request and one callback do to it.

## Main definitions

* `EventDispatcher.turnStarts` — the callbacks of a turn, each with the dispatcher it finds.
* `EventDispatcher.finish` — where a run ends.
* `EventDispatcher.requested` — the requests of a run, by its client and its callbacks.
* `EventDispatcher.Follows` — the rule: a record that callbacks take on, and nothing else.
-/
namespace DPFlow.EventDispatcher

open Lib

variable {F ω : Type}

/-! ## Runs -/

/-- The callbacks of files that a turn runs, each with the dispatcher it finds. -/
def fileStarts (p : Program F ω) (d : EventDispatcher F ω) (events : List EpollEvent) :
    List (F × EventDispatcher F ω) :=
  ((dispatchFiles p.call).visits d events).filterMap fun v =>
    (v.1.mFiles (dispatchKey v.2)).map fun func => (func, v.1)

/-- The timers that a turn runs, each with the dispatcher its callback finds. -/
def timerStarts (p : Program F ω) (fuel : ℕ) (ready : List EpollEvent)
    (d : EventDispatcher F ω) : List (TimerInfo F × EventDispatcher F ω) :=
  let start := loopStart p.call ready d
  starts p fuel (start.mTimers.head?.map TimerInfo.node) start

/-- The callbacks that a turn runs, each with the dispatcher it finds. -/
def turnStarts (p : Program F ω) (fuel : ℕ) (ready : List EpollEvent)
    (d : EventDispatcher F ω) : List (F × EventDispatcher F ω) :=
  fileStarts p d.timeoutMs.2 (ready.take maxEvents) ++
    (timerStarts p fuel ready d).map fun v => (v.1.func, v.2)

/-- The requests of some callbacks. -/
def requestsOf (p : Program F ω) (callbacks : List (F × EventDispatcher F ω)) :
    List (Request F) :=
  callbacks.flatMap fun v => (p v.1 v.2).1

/-- Where a run ends, or the fault of the turn that does not come back. -/
def finish (p : Program F ω) :
    EventDispatcher F ω → List (Call F) → Except LoopFault (EventDispatcher F ω)
  | d, [] => .ok d
  | d, .request r :: calls => finish p ((requests F ω).step d r).1 calls
  | d, .processEvents fuel ready :: calls =>
      match (processEvents p.call fuel ready d).result with
      | .ok (_, d') => finish p d' calls
      | .error e => .error e

/-- All the requests of a run, in the order in which they are made. -/
def requested (p : Program F ω) : EventDispatcher F ω → List (Call F) → List (Request F)
  | _, [] => []
  | d, .request r :: calls => r :: requested p ((requests F ω).step d r).1 calls
  | d, .processEvents fuel ready :: calls =>
      requestsOf p (turnStarts p fuel ready d) ++
        match (processEvents p.call fuel ready d).result with
        | .ok (_, d') => requested p d' calls
        | .error _ => []

/-- The callbacks of a program make requests. -/
theorem client_call (p : Program F ω) : Client p.call := fun func d => ⟨(p func d).1, _, rfl⟩

/-- A turn is its loop. -/
theorem processEvents_of_loop {call : Callbacks F ω} {fuel n : ℕ} {ready : List EpollEvent}
    {d d' : EventDispatcher F ω}
    (h : fireTimers call fuel ((loopStart call ready d).mTimers.head?.map TimerInfo.node) 0
      (loopStart call ready d) = .ok (n, d')) :
    (processEvents call fuel ready d).result = .ok (decide (n > 0), d') := by
  change (fireTimers call fuel ((loopStart call ready d).mTimers.head?.map TimerInfo.node) 0
    (loopStart call ready d) >>= fun r => pure (decide (r.1 > 0), r.2)) = _
  rw [h]
  rfl

/-! ## The rule of turns -/

/-- A relation of a record to the dispatcher which every callback keeps, by a step of the
record, and which the readings and the expiries of a turn leave alone. -/
structure Follows {σ : Type} (p : Program F ω) (act : σ → F × EventDispatcher F ω → σ)
    (R : σ → EventDispatcher F ω → Prop) : Prop where
  call : ∀ {s d}, R s d → ∀ func, R (act s (func, d)) (p.call func d)
  now : ∀ {s d}, R s d → R s d.now.2
  rearm : ∀ {s d}, R s d → ∀ node, R s (d.now.2.rearm node d.now.1)

namespace Follows
variable {σ : Type} {p : Program F ω} {act : σ → F × EventDispatcher F ω → σ}
  {R : σ → EventDispatcher F ω → Prop} {s : σ} {d d' : EventDispatcher F ω}

theorem timeoutMs (H : Follows p act R) (h : R s d) : R s d.timeoutMs.2 := by
  rw [EventDispatcher.timeoutMs]
  split
  · exact h
  · exact H.now h

/-- The results of `epoll_wait`. -/
theorem files (H : Follows p act R) (h : R s d) (events : List EpollEvent) :
    R ((fileStarts p d events).foldl act s) ((dispatchFiles p.call).state d events) := by
  induction events generalizing d s with
  | nil => exact h
  | cons event events ih =>
      have hstep : (dispatchFiles p.call).step d event = dispatchFile p.call d event := rfl
      rw [Mealy.state_cons, fileStarts, Mealy.visits_cons, List.filterMap_cons, hstep,
        dispatchFile]
      cases d.mFiles (dispatchKey event) with
      | none => exact ih h
      | some func => exact ih (H.call h func)

/-- **The timer loop**, when it comes to its end. -/
theorem loop (H : Follows p act R) {fuel : ℕ} {node : Option ℕ} {count n : ℕ} (h : R s d)
    (hloop : fireTimers p.call fuel node count d = .ok (n, d')) :
    R (((starts p fuel node d).map fun v => (v.1.func, v.2)).foldl act s) d' := by
  induction fuel generalizing node count d s with
  | zero =>
      cases node with
      | none =>
          cases hloop
          exact h
      | some node => cases hloop
  | succ fuel ih =>
      cases node with
      | none =>
          cases hloop
          exact h
      | some node =>
          rw [fireTimers] at hloop
          rw [starts]
          cases hat : d.timerAt node with
          | none =>
              rw [hat] at hloop
              cases hloop
          | some timer =>
              simp only [hat] at hloop ⊢
              split_ifs at hloop ⊢ with hdue
              · cases hat' : (p.call timer.func d.now.2).timerAt node with
                | none =>
                    rw [hat'] at hloop
                    cases hloop
                | some timer' =>
                    simp only [hat'] at hloop ⊢
                    exact ih (H.rearm (H.call (H.now h) timer.func) node) hloop
              · cases hloop
                exact H.now h

/-- **A turn** takes the record on by its callbacks. -/
theorem turn (H : Follows p act R) {fuel : ℕ} {ready : List EpollEvent} {b : Bool} (h : R s d)
    (hresult : (processEvents p.call fuel ready d).result = .ok (b, d')) :
    R ((turnStarts p fuel ready d).foldl act s) d' := by
  obtain ⟨n, hloop⟩ := loop_of_processEvents hresult
  rw [turnStarts, List.foldl_append]
  exact H.loop (H.files (H.timeoutMs h) (ready.take maxEvents)) hloop

end Follows

end DPFlow.EventDispatcher
