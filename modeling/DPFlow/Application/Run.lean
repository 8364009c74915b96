import DPFlow.EventDispatcher.Runs
import Mathlib

/-!
# Running an application

`run` takes turns of the platform's dispatcher as long as a flag is set, and `exit`, which
callbacks call, clears the flag and leaves a status. A turn that has begun goes on: the
callbacks behind one that exits still run, and the last status is the one that is returned.
What was exited before `run` is forgotten.

## Main definitions

* `Application`, `Application.exit`, `Application.run` — the class.
* `Application.Tasks` — callbacks that make requests and exit.
* `Application.exitsOf` — the statuses that a turn exits with.
* `Application.Quiet` — turns that return and do not exit.
-/
namespace DPFlow

open EventDispatcher

/-- The members of the application that its methods look at. They are in the environment of
the platform's dispatcher, where callbacks find them. -/
structure Application where
  running : Bool
  exitStatus : Int32
  started : Bool
  deriving DecidableEq, Repr

namespace Application
variable {F ω : Type}

/-- The constructor. -/
def init : Application := { running := false, exitStatus := 0, started := false }

/-- `exit`. -/
def exit (a : Application) (status : Int32) : Application :=
  { a with exitStatus := status, running := false }

/-- The dispatcher of an application's platform. -/
abbrev Host (F ω : Type) := EventDispatcher F (Application × ω)

/-- What a callback does: the requests it makes, the statuses it calls `exit` with, and what
it leaves of everything else. -/
structure Act (F ω : Type) where
  requests : List (Request F)
  exits : List Int32
  env : ω

/-- The callbacks of an application. -/
abbrev Tasks (F ω : Type) := F → Host F ω → Act F ω

/-- The callbacks, for the dispatcher. -/
def Tasks.program (q : Tasks F ω) : Program F (Application × ω) := fun func d =>
  ((q func d).requests, ((q func d).exits.foldl exit d.env.1, (q func d).env))

/-- A turn: with fuel for its loop over the timers, what the kernel has to report. -/
abbrev Poll := ℕ × List EpollEvent

/-- What `run` comes to: its result, the state in which the given turns leave it, or the
fault of a turn that does not come back. -/
inductive Outcome (F ω : Type)
  | returned (status : Int32) (d : Host F ω)
  | waiting (d : Host F ω)
  | fault (e : LoopFault)

/-- The loop of `run`. -/
def loop (call : Callbacks F (Application × ω)) : List Poll → Host F ω → Outcome F ω
  | [], d => if d.env.1.running then .waiting d else .returned d.env.1.exitStatus d
  | (fuel, ready) :: polls, d =>
      if d.env.1.running then
        match (processEvents call fuel ready d).result with
        | .ok (_, d') => loop call polls d'
        | .error e => .fault e
      else .returned d.env.1.exitStatus d

/-- The application when the loop of `run` begins. -/
def begin (d : Host F ω) : Host F ω :=
  { d with env := ({ d.env.1 with started := true, running := true }, d.env.2) }

/-- `run`. -/
def run (call : Callbacks F (Application × ω)) (polls : List Poll) (d : Host F ω) :
    Outcome F ω :=
  if d.env.1.started then .returned (-1) d else loop call polls (begin d)

/-! ## What a turn does to the application -/

/-- The statuses that the callbacks of a turn exit with, in order. -/
def exitsOf (q : Tasks F ω) (poll : Poll) (d : Host F ω) : List Int32 :=
  (turnStarts q.program poll.1 poll.2 d).flatMap fun v => (q v.1 v.2).exits

@[simp] theorem foldl_exit_started (a : Application) (statuses : List Int32) :
    (statuses.foldl exit a).started = a.started := by
  induction statuses generalizing a with
  | nil => rfl
  | cons status statuses ih => exact ih _

/-- The application after a turn has exited with the statuses of its callbacks. -/
theorem env_turn (q : Tasks F ω) {fuel : ℕ} {ready : List EpollEvent} {d d' : Host F ω} {b : Bool}
    (h : (processEvents q.program.call fuel ready d).result = .ok (b, d')) :
    d'.env.1 = (exitsOf q (fuel, ready) d).foldl exit d.env.1 := by
  have H : Follows q.program (fun a v => (q v.1 v.2).exits.foldl exit a)
      fun a d => d.env.1 = a := by
    refine ⟨?_, fun h => h, fun h _ => h⟩
    rintro a d rfl func
    rfl
  rw [exitsOf, List.foldl_flatMap]
  exact H.turn rfl h

/-! ## Runs -/

/-- Turns that return and in which no callback exits. -/
inductive Quiet (q : Tasks F ω) : Host F ω → List Poll → Host F ω → Prop
  | nil (d : Host F ω) : Quiet q d [] d
  | cons {d d' d'' : Host F ω} {poll : Poll} {polls : List Poll} {b : Bool}
      (returned : (processEvents q.program.call poll.1 poll.2 d).result = .ok (b, d'))
      (quiet : exitsOf q poll d = []) (rest : Quiet q d' polls d'') :
      Quiet q d (poll :: polls) d''

/-- The loop is left as soon as the flag is down. -/
theorem loop_of_not_running (call : Callbacks F (Application × ω)) (polls : List Poll)
    {d : Host F ω} (h : d.env.1.running = false) :
    loop call polls d = .returned d.env.1.exitStatus d := by
  cases polls with
  | nil => simp [loop, h]
  | cons poll polls => simp [loop, h]

section runs
variable {q : Tasks F ω} {d d' : Host F ω} {poll : Poll} {polls : List Poll}

/-- A turn that does not exit leaves the application as it was. -/
theorem env_of_quiet {b : Bool}
    (h : (processEvents q.program.call poll.1 poll.2 d).result = .ok (b, d'))
    (hquiet : exitsOf q poll d = []) : d'.env.1 = d.env.1 := by
  rw [env_turn q h, hquiet]
  rfl

/-- A turn that exits leaves the last of its statuses, and the flag down. -/
theorem env_of_exit {b : Bool} {status : Int32}
    (h : (processEvents q.program.call poll.1 poll.2 d).result = .ok (b, d'))
    (hexit : (exitsOf q poll d).getLast? = some status) :
    d'.env.1.running = false ∧ d'.env.1.exitStatus = status := by
  obtain ⟨statuses, hstatuses⟩ := List.getLast?_eq_some_iff.mp hexit
  rw [env_turn q h, hstatuses, List.foldl_concat]
  exact ⟨rfl, rfl⟩

theorem Quiet.env (h : Quiet q d polls d') : d'.env.1 = d.env.1 := by
  induction h with
  | nil d => rfl
  | cons returned quiet rest ih => exact ih.trans (env_of_quiet returned quiet)

/-- Quiet turns go by. -/
theorem Quiet.loop_append (h : Quiet q d polls d') (hrun : d.env.1.running = true)
    (rest : List Poll) : loop q.program.call (polls ++ rest) d = loop q.program.call rest d' := by
  induction h with
  | nil d => rfl
  | cons returned quiet rest ih =>
      have hnext := env_of_quiet returned quiet
      rw [List.cons_append, loop, if_pos hrun, returned]
      exact ih (hnext ▸ hrun)

/-- **The loop.** It returns at the first turn that exits, with the last status of that turn,
and it is still going after turns of which none has exited. -/
theorem loop_returned_iff (hrun : d.env.1.running = true) (status : Int32) :
    loop q.program.call polls d = .returned status d' ↔
      ∃ quiet poll rest b d₁, polls = quiet ++ poll :: rest ∧ Quiet q d quiet d₁ ∧
        (processEvents q.program.call poll.1 poll.2 d₁).result = .ok (b, d') ∧
        (exitsOf q poll d₁).getLast? = some status := by
  constructor
  · intro h
    induction polls generalizing d with
    | nil =>
        rw [loop, if_pos hrun] at h
        cases h
    | cons poll polls ih =>
        rw [loop, if_pos hrun] at h
        cases hresult : (processEvents q.program.call poll.1 poll.2 d).result with
        | error e =>
            rw [hresult] at h
            cases h
        | ok r =>
            rw [hresult] at h
            obtain ⟨b, d₁⟩ := r
            dsimp only at h
            cases hexit : (exitsOf q poll d).getLast? with
            | none =>
                have hquiet := List.getLast?_eq_none_iff.mp hexit
                have hnext := env_of_quiet hresult hquiet
                obtain ⟨quiet, poll', rest, b', d₂, rfl, hq, hlast⟩ := ih (hnext ▸ hrun) h
                exact ⟨poll :: quiet, poll', rest, b', d₂, rfl, .cons hresult hquiet hq, hlast⟩
            | some last =>
                obtain ⟨hdown, hstatus⟩ := env_of_exit hresult hexit
                rw [loop_of_not_running _ _ hdown, hstatus] at h
                cases h
                exact ⟨[], poll, polls, b, d, rfl, .nil d, hresult, hexit⟩
  · rintro ⟨quiet, poll, rest, b, d₁, rfl, hquiet, hresult, hexit⟩
    obtain ⟨hdown, hstatus⟩ := env_of_exit hresult hexit
    have hrun' : d₁.env.1.running = true := hquiet.env ▸ hrun
    rw [hquiet.loop_append hrun, loop, if_pos hrun', hresult]
    dsimp only
    rw [loop_of_not_running _ _ hdown, hstatus]

theorem loop_waiting_iff (hrun : d.env.1.running = true) :
    loop q.program.call polls d = .waiting d' ↔ Quiet q d polls d' := by
  constructor
  · intro h
    induction polls generalizing d with
    | nil =>
        rw [loop, if_pos hrun] at h
        cases h
        exact .nil _
    | cons poll polls ih =>
        rw [loop, if_pos hrun] at h
        cases hresult : (processEvents q.program.call poll.1 poll.2 d).result with
        | error e =>
            rw [hresult] at h
            cases h
        | ok r =>
            rw [hresult] at h
            dsimp only at h
            cases hexit : (exitsOf q poll d).getLast? with
            | none =>
                have hquiet := List.getLast?_eq_none_iff.mp hexit
                have hnext := env_of_quiet hresult hquiet
                exact .cons hresult hquiet (ih (hnext ▸ hrun) h)
            | some last =>
                obtain ⟨hdown, -⟩ := env_of_exit hresult hexit
                rw [loop_of_not_running _ _ hdown] at h
                cases h
  · intro h
    have hwait := h.loop_append hrun []
    have hrun' : d'.env.1.running = true := h.env ▸ hrun
    rwa [List.append_nil, loop, if_pos hrun'] at hwait

end runs

/-- **Running an application.** Whatever its callbacks do and whatever was exited before,
`run` returns a status just when, after turns that return and in which nothing exits, a turn
that returns exits with that status last; it waits for more just when all the turns so far
were quiet; and once it has returned, it returns -1 without a turn. -/
theorem run_iff (q : Tasks F ω) (polls : List Poll) {d : Host F ω}
    (hnew : d.env.1.started = false) (d' : Host F ω) :
    (∀ status, run q.program.call polls d = .returned status d' ↔
      ∃ quiet poll rest b d₁, polls = quiet ++ poll :: rest ∧ Quiet q (begin d) quiet d₁ ∧
        (processEvents q.program.call poll.1 poll.2 d₁).result = .ok (b, d') ∧
        (exitsOf q poll d₁).getLast? = some status) ∧
      (run q.program.call polls d = .waiting d' ↔ Quiet q (begin d) polls d') ∧
      ∀ status polls', run q.program.call polls d = .returned status d' →
        run q.program.call polls' d' = .returned (-1) d' := by
  have hstart : run q.program.call polls d = loop q.program.call polls (begin d) :=
    if_neg (by rw [hnew]; exact Bool.false_ne_true)
  rw [hstart]
  refine ⟨loop_returned_iff rfl, loop_waiting_iff rfl, ?_⟩
  intro status polls' h
  obtain ⟨quiet, poll, rest, b, d₁, -, hquiet, hresult, -⟩ := (loop_returned_iff rfl status).mp h
  have hstarted : d'.env.1.started = true := by
    rw [env_turn q hresult, foldl_exit_started, hquiet.env]
    rfl
  exact if_pos hstarted

/-- Callbacks that exit with the statuses they are named by. -/
def exiters : Tasks (List Int32) Unit := fun statuses _ => ⟨[], statuses, ()⟩

/-- An application that has exited before it runs, with a timer of 1 ms that exits twice and
one of 100 ms. -/
def twoExits : Host (List Int32) Unit :=
  (((EventDispatcher.init ticks (Application.init.exit 7, ())).addTimer 1 [1, 2]).1.addTimer
    100 [3]).1

/-- Its first turn runs the first timer, and the second status is returned. -/
theorem run_iff_twoExits :
    ∃ d', run exiters.program.call [(3, []), (3, [])] twoExits = .returned 2 d' ∧
      (∀ status, run exiters.program.call [(3, []), (3, [])] twoExits = .returned status d' ↔
        ∃ quiet poll rest b d₁, [(3, []), (3, [])] = quiet ++ poll :: rest ∧
          Quiet exiters (begin twoExits) quiet d₁ ∧
          (processEvents exiters.program.call poll.1 poll.2 d₁).result = .ok (b, d') ∧
          (exitsOf exiters poll d₁).getLast? = some status) ∧
      (run exiters.program.call [(3, []), (3, [])] twoExits = .waiting d' ↔
        Quiet exiters (begin twoExits) [(3, []), (3, [])] d') ∧
      ∀ status polls', run exiters.program.call [(3, []), (3, [])] twoExits =
          .returned status d' →
        run exiters.program.call polls' d' = .returned (-1) d' :=
  ⟨_, rfl, run_iff exiters [(3, []), (3, [])] rfl _⟩

end Application
end DPFlow
