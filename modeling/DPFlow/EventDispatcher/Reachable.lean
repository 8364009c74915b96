import DPFlow.EventDispatcher.Registration
import DPFlow.EventDispatcher.TimerLoop

/-!
# Reachable dispatchers

A dispatcher changes by requests and by turns, and a turn is made of readings of the clock,
of callbacks that make requests, and of the assignments that re-arm timers. What all these
keep holds of every reachable dispatcher.

## Main definitions

* `EventDispatcher.Client` — callbacks that act on the dispatcher through its requests.
* `EventDispatcher.Reachable` — what requests and turns make of a new dispatcher.
* `EventDispatcher.Stable` — a property that each part of a run keeps.
-/
namespace DPFlow.EventDispatcher

open Lib

variable {F ω : Type}

/-- A callback makes requests, which may depend on anything, and changes its environment. -/
def Client (call : Callbacks F ω) : Prop :=
  ∀ func d, ∃ rs env, call func d = { (requests F ω).state d rs with env := env }

/-- What requests and turns make of a new dispatcher. -/
inductive Reachable (call : Callbacks F ω) (clock : ℕ → Int) : EventDispatcher F ω → Prop
  | init (env : ω) : Reachable call clock (init clock env)
  | request {d : EventDispatcher F ω} (r : Request F) :
      Reachable call clock d → Reachable call clock ((requests F ω).step d r).1
  | turn {d d' : EventDispatcher F ω} {fuel : ℕ} {ready : List EpollEvent} {b : Bool} :
      Reachable call clock d → (processEvents call fuel ready d).result = .ok (b, d') →
      Reachable call clock d'

/-- A property that requests keep, and each part of a turn that is no request. -/
structure Stable (P : EventDispatcher F ω → Prop) : Prop where
  request : ∀ {d}, P d → ∀ r, P ((requests F ω).step d r).1
  env : ∀ {d}, P d → ∀ env, P { d with env := env }
  now : ∀ {d}, P d → P d.now.2
  rearm : ∀ {d}, P d → ∀ node, P (d.now.2.rearm node d.now.1)

namespace Stable
variable {P : EventDispatcher F ω → Prop} {call : Callbacks F ω} {d : EventDispatcher F ω}

theorem callback (S : Stable P) (hclient : Client call) (h : P d) (func : F) :
    P (call func d) := by
  obtain ⟨rs, env, hcall⟩ := hclient func d
  rw [hcall]
  exact S.env ((requests F ω).state_induction P d rs h fun _ r _ h' => S.request h' r) env

theorem timeoutMs (S : Stable P) (h : P d) : P d.timeoutMs.2 := by
  rw [EventDispatcher.timeoutMs]
  split
  · exact h
  · exact S.now h

theorem dispatchFiles (S : Stable P) (hclient : Client call) (h : P d)
    (events : List EpollEvent) : P ((dispatchFiles call).state d events) := by
  refine (EventDispatcher.dispatchFiles call).state_induction P d events h ?_
  intro d event _ h'
  change P (dispatchFile call d event).1
  rw [dispatchFile]
  cases d.mFiles (dispatchKey event) with
  | none => exact h'
  | some func => exact S.callback hclient h' func

theorem fireTimers (S : Stable P) (hclient : Client call) {fuel : ℕ} {node : Option ℕ}
    {count n : ℕ} {d' : EventDispatcher F ω} (h : P d)
    (hloop : fireTimers call fuel node count d = .ok (n, d')) : P d' := by
  refine fireTimers_invariant P (fun _ h' => S.now h') ?_ h hloop
  -- the timer runs: a reading, its callback, and a reading to re-arm it
  intro d node timer h' _ called
  exact S.rearm (S.callback hclient (S.now h') timer.func) node

theorem turn (S : Stable P) (hclient : Client call) {fuel : ℕ} {ready : List EpollEvent}
    {b : Bool} {d' : EventDispatcher F ω} (h : P d)
    (hresult : (processEvents call fuel ready d).result = .ok (b, d')) : P d' := by
  have hstart : P (loopStart call ready d) := S.dispatchFiles hclient (S.timeoutMs h) _
  obtain ⟨n, hloop⟩ := loop_of_processEvents hresult
  exact S.fireTimers hclient hstart hloop

end Stable

/-- **The rule of reachable dispatchers.** -/
theorem Reachable.invariant {P : EventDispatcher F ω → Prop} {call : Callbacks F ω}
    {clock : ℕ → Int} {d : EventDispatcher F ω} (S : Stable P) (hclient : Client call)
    (h0 : ∀ env, P (EventDispatcher.init clock env)) (h : Reachable call clock d) : P d := by
  induction h with
  | init env => exact h0 env
  | request r _ ih => exact S.request ih r
  | turn _ hresult ih => exact S.turn hclient ih hresult

/-- Callbacks that do nothing. -/
theorem client_idle : Client (fun _ d => d : Callbacks F ω) := fun _ d => ⟨[], d.env, rfl⟩

/-- A new dispatcher that was given one timer. -/
def oneTimer (clock : ℕ → Int) (periodMs : Int32) : EventDispatcher Unit Unit :=
  ((init clock ()).addTimer periodMs ()).1

theorem reachable_oneTimer (clock : ℕ → Int) (periodMs : Int32) :
    Reachable (fun _ d => d) clock (oneTimer clock periodMs) :=
  .request (.addTimer periodMs ()) (.init ())

end DPFlow.EventDispatcher
