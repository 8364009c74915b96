import DPFlow.EventDispatcher.Runs
import Mathlib

/-!
# What a run registers

The readings of a turn, the expiries it sets and the order in which the timers stand are no
registrations: after any run the dispatcher has the timers and the files that a dispatcher
without turns has after the same requests.

## Main definitions

* `EventDispatcher.SameRegistrations` — two dispatchers with the same registrations.
-/
namespace DPFlow.EventDispatcher

open Lib

variable {F ω : Type}

/-! ## Registrations -/

/-- A timer without what the loop changes of it. -/
def TimerInfo.registration (t : TimerInfo F) : ℕ × Int32 × Int32 × F :=
  (t.node, t.id, t.period, t.func)

/-- The same timers, up to their order and their expiries, the same files, on both sides, and
the same numbers to give out next. -/
structure SameRegistrations (d e : EventDispatcher F ω) : Prop where
  timers : (d.mTimers.map TimerInfo.registration).Perm (e.mTimers.map TimerInfo.registration)
  files : d.mFiles = e.mFiles
  interest : d.interest = e.interest
  nextTimerId : d.nextTimerId = e.nextTimerId
  nextNode : d.nextNode = e.nextNode

namespace SameRegistrations
variable {d e : EventDispatcher F ω}

theorem refl (d : EventDispatcher F ω) : SameRegistrations d d :=
  ⟨List.Perm.refl _, rfl, rfl, rfl, rfl⟩

/-- The timers of either side change their expiries, and the clock goes on. -/
theorem congr {d' : EventDispatcher F ω} (H : SameRegistrations d e)
    (htimers : d'.mTimers.map TimerInfo.registration = d.mTimers.map TimerInfo.registration)
    (hfiles : d'.mFiles = d.mFiles) (hinterest : d'.interest = d.interest)
    (hid : d'.nextTimerId = d.nextTimerId) (hnode : d'.nextNode = d.nextNode) :
    SameRegistrations d' e where
  timers := htimers ▸ H.timers
  files := hfiles.trans H.files
  interest := hinterest.trans H.interest
  nextTimerId := hid.trans H.nextTimerId
  nextNode := hnode.trans H.nextNode

theorem now (H : SameRegistrations d e) : SameRegistrations d.now.2 e :=
  H.congr rfl rfl rfl rfl rfl

/-- Re-arming sets an expiry. -/
theorem rearm (H : SameRegistrations d e) (node : ℕ) (t : Int) :
    SameRegistrations (d.rearm node t) e := by
  refine H.congr ?_ rfl rfl rfl rfl
  rw [EventDispatcher.rearm, List.map_map]
  refine List.map_congr_left ?_
  intro timer _
  rw [Function.comp_apply]
  split_ifs with hnode
  · rfl
  · rfl

/-- Both sides change their files in one way. -/
theorem setFiles (H : SameRegistrations d e) (mFiles : Int × FileOperation → Option F)
    (interest : Int → Option EpollEvent) :
    SameRegistrations { d with mFiles := mFiles, interest := interest }
      { e with mFiles := mFiles, interest := interest } :=
  ⟨H.timers, rfl, rfl, H.nextTimerId, H.nextNode⟩

/-- Whether a file is taken on depends on the registrations alone. -/
theorem addFile (H : SameRegistrations d e) (fd : Int) (op : FileOperation) (func : F)
    (accept : Bool) :
    SameRegistrations (d.addFile fd op func accept).1 (e.addFile fd op func accept).1 := by
  simp only [EventDispatcher.addFile, epollAdd, H.files, H.interest]
  by_cases hfd : fd < 0
  · rw [if_pos hfd, if_pos hfd]
    exact H
  rw [if_neg hfd, if_neg hfd]
  by_cases hdup : (e.mFiles (fd, op)).isSome
  · rw [if_pos hdup, if_pos hdup]
    exact H
  rw [if_neg hdup, if_neg hdup]
  cases op.epollBit with
  | none => exact H
  | some bit =>
      by_cases hk : accept ∧ e.interest fd = none
      · simp only [if_pos hk]
        exact H.setFiles _ _
      · simp only [if_neg hk]
        exact H

theorem removeFile (H : SameRegistrations d e) (fd : Int) (op : FileOperation) (accept : Bool) :
    SameRegistrations (d.removeFile fd op accept).1 (e.removeFile fd op accept).1 := by
  simp only [EventDispatcher.removeFile, epollDel, H.files, H.interest]
  by_cases hkey : e.mFiles (fd, op) = none
  · rw [if_pos hkey, if_pos hkey]
    exact H
  rw [if_neg hkey, if_neg hkey]
  cases op.epollBit with
  | none => exact H
  | some bit =>
      by_cases hk : accept ∧ e.interest fd ≠ none
      · simp only [if_pos hk]
        exact H.setFiles _ _
      · simp only [if_neg hk]
        exact H

/-- A new timer is the same on both sides but for its expiry. -/
theorem addTimer (H : SameRegistrations d e) (periodMs : Int32) (func : F) :
    SameRegistrations (d.addTimer periodMs func).1 (e.addTimer periodMs func).1 where
  timers := by
    have hsort : ∀ d : EventDispatcher F ω,
        ((d.addTimer periodMs func).1.mTimers.map TimerInfo.registration).Perm
          (d.mTimers.map TimerInfo.registration ++
            [(d.nextNode, d.nextTimerId, periodMs, func)]) := by
      intro d
      have hperm := (List.perm_insertionSort (fun s t : TimerInfo F => s.expiry ≤ t.expiry)
        (d.mTimers ++ [⟨d.nextNode, d.nextTimerId, periodMs,
          TimerInfo.expiryAt d.now.1 periodMs, func⟩])).map TimerInfo.registration
      rw [List.map_append] at hperm
      exact hperm
    refine (hsort d).trans (List.Perm.trans ?_ (hsort e).symm)
    rw [H.nextNode, H.nextTimerId]
    exact H.timers.append_right _
  files := H.files
  interest := H.interest
  nextTimerId := congrArg (· + 1) H.nextTimerId
  nextNode := congrArg (· + 1) H.nextNode

/-- Timers are removed by their ids, wherever they stand. -/
theorem removeTimer (H : SameRegistrations d e) (id : Int32) :
    SameRegistrations (d.removeTimer id).1 (e.removeTimer id).1 where
  timers := by
    have hfilter : ∀ d : EventDispatcher F ω,
        (d.removeTimer id).1.mTimers.map TimerInfo.registration =
          (d.mTimers.map TimerInfo.registration).filter fun r => r.2.1 ≠ id := by
      intro d
      rw [List.filter_map]
      rfl
    rw [hfilter, hfilter]
    exact H.timers.filter _
  files := H.files
  interest := H.interest
  nextTimerId := H.nextTimerId
  nextNode := H.nextNode

/-- **One request** keeps the registrations the same. -/
theorem request (H : SameRegistrations d e) (r : Request F) :
    SameRegistrations ((requests F ω).step d r).1 ((requests F ω).step e r).1 := by
  cases r with
  | addFile fd op func accept => exact H.addFile fd op func accept
  | removeFile fd op accept => exact H.removeFile fd op accept
  | addTimer periodMs func => exact H.addTimer periodMs func
  | removeTimer id => exact H.removeTimer id

/-- One callback does what its requests do. -/
theorem call (H : SameRegistrations d e) (p : Program F ω) (func : F) :
    SameRegistrations (p.call func d) ((requests F ω).state e (p func d).1) := by
  have hrequests : SameRegistrations ((requests F ω).state d (p func d).1)
      ((requests F ω).state e (p func d).1) :=
    (requests F ω).state_simulation (requests F ω) (fun _ _ r h => h.request r) H _
  exact hrequests.congr rfl rfl rfl rfl rfl

end SameRegistrations

/-! ## Runs -/

section runs
variable {p : Program F ω} {d d' e : EventDispatcher F ω}

/-- The requests of a turn, taken one by one, keep up with it. -/
theorem follows_sameRegistrations (p : Program F ω) :
    Follows p (fun e v => (requests F ω).state e (p v.1 v.2).1)
      fun e d : EventDispatcher F ω => SameRegistrations d e where
  call H func := H.call p func
  now H := H.now
  rearm H node := H.now.rearm node _

/-- The requests of some callbacks, one callback after the other. -/
theorem state_requestsOf (p : Program F ω) (e : EventDispatcher F ω)
    (callbacks : List (F × EventDispatcher F ω)) :
    (requests F ω).state e (requestsOf p callbacks) =
      callbacks.foldl (fun e v => (requests F ω).state e (p v.1 v.2).1) e := by
  induction callbacks generalizing e with
  | nil => rfl
  | cons v callbacks ih =>
      rw [requestsOf, List.flatMap_cons, Mealy.state_append, List.foldl_cons]
      exact ih _

theorem SameRegistrations.finish (calls : List (Call F)) (H : SameRegistrations d e)
    (h : EventDispatcher.finish p d calls = .ok d') :
    SameRegistrations d' ((requests F ω).state e (requested p d calls)) := by
  induction calls generalizing d e with
  | nil =>
      cases h
      exact H
  | cons c calls ih =>
      cases c with
      | request r => exact ih (H.request r) h
      | processEvents fuel ready =>
          rw [EventDispatcher.finish] at h
          rw [requested, Mealy.state_append, state_requestsOf]
          cases hresult : (processEvents p.call fuel ready d).result with
          | error e =>
              rw [hresult] at h
              cases h
          | ok r =>
              rw [hresult] at h
              exact ih ((follows_sameRegistrations p).turn H hresult) h

/-- **A run registers what is requested in it.** Whatever turns a run takes, if they all return,
and whatever its callbacks do and the clock says, the dispatcher ends with the timers, the files
and the interest list of a dispatcher that takes the same requests one by one and no turn: no
timer is lost, kept, run out or registered twice by the loop. -/
theorem finish_sameRegistrations (p : Program F ω) (clock : ℕ → Int) (env : ω)
    (calls : List (Call F)) (d : EventDispatcher F ω)
    (h : EventDispatcher.finish p (init clock env) calls = .ok d) :
    SameRegistrations d (after clock env (requested p (init clock env) calls)) :=
  (SameRegistrations.refl _).finish calls h

end runs

/-- One timer of 1 ms, whose callback adds one of 5 ms, and a turn that runs it. -/
theorem finish_sameRegistrations_adds :
    let calls := [.request (.addTimer 1 [5]), .processEvents 3 []]
    requested adders (init ticks ()) calls = [.addTimer 1 [5], .addTimer 5 []] ∧
      ∃ d, EventDispatcher.finish adders (init ticks ()) calls = .ok d ∧
        d.mTimers.map TimerInfo.expiry = [5000000, 8000000] ∧
        SameRegistrations d
          (after ticks () (requested adders (init ticks ()) calls)) :=
  ⟨rfl, _, rfl, rfl, finish_sameRegistrations adders ticks () _ _ rfl⟩

end DPFlow.EventDispatcher
