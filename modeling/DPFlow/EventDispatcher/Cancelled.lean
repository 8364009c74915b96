import DPFlow.EventDispatcher.Requested
import Mathlib

/-!
# Timers that were removed

A timer is removed by a client, by the callback of a file or by the callback of another
timer, before the loop or in the middle of it. From then on nothing touches its entry, in
this turn or in any later one, and its callback does not start again. The loop breaks this
in one case only: a timer that runs removes itself.

## Main definitions

* `EventDispatcher.runAccesses` — what the loops of a run touch, start and see removed.
* `EventDispatcher.runTimers` — the timers that a run runs.
-/
namespace DPFlow.EventDispatcher

open Lib

variable {F ω : Type}

/-! ## The log of a run -/

/-- The entries that the callbacks of files take out. -/
def fileRemovals (p : Program F ω) (d : EventDispatcher F ω) (events : List EpollEvent) :
    List Access :=
  ((dispatchFiles p.call).visits d events).flatMap fun v =>
    match v.1.mFiles (dispatchKey v.2) with
    | some func => callRemovals p func v.1
    | none => []

/-- The accesses of a turn. -/
def turnAccesses (p : Program F ω) (fuel : ℕ) (ready : List EpollEvent)
    (d : EventDispatcher F ω) : List Access :=
  let start := loopStart p.call ready d
  fileRemovals p d.timeoutMs.2 (ready.take maxEvents) ++
    accesses p fuel (start.mTimers.head?.map TimerInfo.node) start

/-- The accesses of a run, with the entries that its client takes out between turns. -/
def runAccesses (p : Program F ω) : EventDispatcher F ω → List (Call F) → List Access
  | _, [] => []
  | d, .request r :: calls => removals d r ++ runAccesses p ((requests F ω).step d r).1 calls
  | d, .processEvents fuel ready :: calls =>
      turnAccesses p fuel ready d ++
        match (processEvents p.call fuel ready d).result with
        | .ok (_, d') => runAccesses p d' calls
        | .error _ => []

/-- The timers that a run runs, each with the dispatcher that its callback finds. -/
def runTimers (p : Program F ω) :
    EventDispatcher F ω → List (Call F) → List (TimerInfo F × EventDispatcher F ω)
  | _, [] => []
  | d, .request r :: calls => runTimers p ((requests F ω).step d r).1 calls
  | d, .processEvents fuel ready :: calls =>
      timerStarts p fuel ready d ++
        match (processEvents p.call fuel ready d).result with
        | .ok (_, d') => runTimers p d' calls
        | .error _ => []

/-! ## Soundness of a run -/

theorem Sound.left {log more : List Access} (h : Sound (log ++ more)) : Sound log := by
  intro past x node hpast huse
  exact h past x node (hpast.trans (List.prefix_append _ _)) huse

section steps
variable {clock : ℕ → Int} {log : List Access} {d d' : EventDispatcher F ω} {p : Program F ω}

theorem Clear.timeoutMs (H : Clear clock log d) : Clear clock log d.timeoutMs.2 := by
  rw [EventDispatcher.timeoutMs]
  split
  · exact H
  · exact H.now

/-- The results of `epoll_wait`. -/
theorem Clear.files (H : Clear clock log d) (events : List EpollEvent) :
    Clear clock (log ++ fileRemovals p d events) ((dispatchFiles p.call).state d events) := by
  refine (dispatchFiles p.call).state_log_induction (Clear clock) _ d events log H ?_
  intro log d event H
  change Clear clock _ (dispatchFile p.call d event).1
  rw [dispatchFile]
  cases hfile : d.mFiles (dispatchKey event) with
  | none => simpa [hfile] using H
  | some func => simpa [hfile] using H.call (p := p) func

/-- **A loop that comes to its end** leaves a sound log, and nothing in the list that was
removed: a timer that had removed itself would have been missed. -/
theorem Clear.loop_end {fuel : ℕ} {node : Option ℕ} {count n : ℕ} (H : Clear clock log d)
    (h : fireTimers p.call fuel node count d = .ok (n, d')) :
    Clear clock (log ++ accesses p fuel node d) d' := by
  induction fuel generalizing node count d log with
  | zero =>
      cases node with
      | none =>
          cases h
          simpa [accesses] using H
      | some node => cases h
  | succ fuel ih =>
      cases node with
      | none =>
          cases h
          simpa [accesses] using H
      | some node =>
          rw [fireTimers] at h
          rw [accesses]
          cases hat : d.timerAt node with
          | none =>
              rw [hat] at h
              cases h
          | some timer =>
              obtain ⟨hmem, rfl⟩ := mem_of_timerAt hat
              have Hread : Clear clock (log ++ [.touched timer.node]) d := H.use hmem rfl
              simp only [hat] at h ⊢
              split_ifs at h ⊢ with hdue
              · have Hcalled := (Hread.use hmem (x := .started timer.node) rfl).now.call (p := p)
                  timer.func
                cases hat' : (p.call timer.func d.now.2).timerAt timer.node with
                | none =>
                    rw [hat'] at h
                    cases h
                | some timer' =>
                    simp only [hat'] at h ⊢
                    obtain ⟨hmem', hnode'⟩ := mem_of_timerAt hat'
                    have Hnext := (Hcalled.use hmem' (x := .touched timer.node)
                      (congrArg some hnode'.symm)).rearm timer.node
                    simpa using ih Hnext h
              · cases h
                exact Hread.now

/-- What a turn that returned leaves. -/
theorem Clear.turn {fuel : ℕ} {ready : List EpollEvent} {b : Bool} (H : Clear clock log d)
    (h : (processEvents p.call fuel ready d).result = .ok (b, d')) :
    Clear clock (log ++ turnAccesses p fuel ready d) d' := by
  obtain ⟨n, hloop⟩ := loop_of_processEvents h
  have hend := (H.timeoutMs.files (p := p) (ready.take maxEvents)).loop_end hloop
  rwa [List.append_assoc] at hend

/-- A turn that touches a removed entry is one whose loop does. -/
theorem loop_of_removedEntry {fuel : ℕ} {ready : List EpollEvent}
    (h : (processEvents p.call fuel ready d).result = .error .removedEntry) :
    fireTimers p.call fuel ((loopStart p.call ready d).mTimers.head?.map TimerInfo.node) 0
      (loopStart p.call ready d) = .error .removedEntry := by
  rw [processEvents] at h
  dsimp only at h
  generalize hloop : fireTimers p.call fuel _ 0 _ = loop at h
  cases loop with
  | error e =>
      cases h
      exact hloop
  | ok r => cases h

/-- A turn in which no timer removes itself. -/
theorem Clear.turn_sound {fuel : ℕ} {ready : List EpollEvent} (H : Clear clock log d)
    (hown : ∀ v ∈ timerStarts p fuel ready d, .removeTimer v.1.id ∉ (p v.1.func v.2).1) :
    Sound (log ++ turnAccesses p fuel ready d) ∧
      (processEvents p.call fuel ready d).result ≠ .error .removedEntry := by
  have Hstart := H.timeoutMs.files (p := p) (ready.take maxEvents)
  obtain ⟨hsound, hok⟩ := Hstart.loop (fun n hn => exists_of_head hn) 0 hown
  rw [List.append_assoc] at hsound
  exact ⟨hsound, fun h => hok (loop_of_removedEntry h)⟩

/-- A run in which no timer removes itself. -/
theorem Clear.run (calls : List (Call F)) (H : Clear clock log d)
    (hown : ∀ v ∈ runTimers p d calls, .removeTimer v.1.id ∉ (p v.1.func v.2).1) :
    Sound (log ++ runAccesses p d calls) ∧
      EventDispatcher.finish p d calls ≠ .error .removedEntry := by
  induction calls generalizing d log with
  | nil => exact ⟨by simpa [runAccesses] using H.sound, by simp [EventDispatcher.finish]⟩
  | cons c calls ih =>
      cases c with
      | request r =>
          rw [runAccesses, ← List.append_assoc]
          exact ih (H.request r) hown
      | processEvents fuel ready =>
          rw [runTimers] at hown
          rw [runAccesses, ← List.append_assoc, EventDispatcher.finish]
          have hturn : Sound (log ++ turnAccesses p fuel ready d) ∧
              (processEvents p.call fuel ready d).result ≠ .error .removedEntry :=
            H.turn_sound fun v hv => hown v (List.mem_append_left _ hv)
          obtain ⟨hsound, hok⟩ := hturn
          cases hresult : (processEvents p.call fuel ready d).result with
          | error e =>
              rw [hresult] at hok
              exact ⟨by simpa using hsound, by simpa using hok⟩
          | ok r =>
              rw [hresult] at hown
              exact ih (H.turn hresult) fun v hv => hown v (List.mem_append_right _ hv)

/-- In a sound run no timer has removed itself. -/
theorem not_removes_own_run (calls : List (Call F)) (h : Sound (runAccesses p d calls)) :
    ∀ v ∈ runTimers p d calls, .removeTimer v.1.id ∉ (p v.1.func v.2).1 := by
  induction calls generalizing d with
  | nil => simp [runTimers]
  | cons c calls ih =>
      cases c with
      | request r =>
          rw [runAccesses] at h
          exact ih h.of_append
      | processEvents fuel ready =>
          rw [runAccesses, turnAccesses] at h
          rw [runTimers]
          intro v hv
          rcases List.mem_append.mp hv with hv | hv
          · exact not_removes_own h.left.of_append v hv
          · cases hresult : (processEvents p.call fuel ready d).result with
            | error e =>
                rw [hresult] at hv
                cases hv
            | ok r =>
                rw [hresult] at hv h
                exact ih h.of_append v hv

end steps

/-- **A timer that was removed does not run.** In every run of a new dispatcher, over all its
turns, whatever its client and its callbacks request and however far it gets, no entry of the
list is touched and no callback of a timer started after the entry was removed, just when no
timer that runs removes itself in its callback. -/
theorem run_sound_iff (p : Program F ω) (clock : ℕ → Int) (env : ω) (calls : List (Call F)) :
    (Sound (runAccesses p (init clock env) calls) ∧
        EventDispatcher.finish p (init clock env) calls ≠ .error .removedEntry) ↔
      ∀ v ∈ runTimers p (init clock env) calls, .removeTimer v.1.id ∉ (p v.1.func v.2).1 := by
  constructor
  · rintro ⟨hsound, -⟩
    exact not_removes_own_run calls hsound
  · intro hown
    exact (clear_nil (wellformed_init clock env)).run calls hown

end DPFlow.EventDispatcher
