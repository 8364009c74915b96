import Mathlib.Data.Nat.Notation
import Mathlib.Logic.Basic

/-!
# Clients that call back

A `Script` is a client that asks queries one after another, each choice depending on
the answers so far. Running it against a handler threads the handler's state through
and stops at the first query the handler fails on. This is how a component that runs
its users' code in the middle of an operation is modelled: the operation runs a script
against its own public operations.

## Main definitions

* `Script Q A` — scripts over queries `Q`, where `q` is answered in `A q`.
* `Script.run` — a script against a handler that may fail.
* `Script.Answered` — every query the script asks, on these answers, has one.
* `Script.nested` — a component that runs scripts of its own calls in the middle of a call.
-/
namespace DPFlow.Lib

universe u v

/-- A client that asks queries, each depending on the answers so far. -/
inductive Script (Q : Type u) (A : Q → Type v)
  | done
  | call (q : Q) (next : A q → Script Q A)

/-- A computation that returned went through its first part. -/
theorem ok_of_bind {α β ε : Type v} {x : Except ε α} {f : α → Except ε β} {b : β}
    (h : x >>= f = .ok b) : ∃ a, x = .ok a ∧ f a = .ok b := by
  cases x with
  | error e => cases h
  | ok a => exact ⟨a, rfl, h⟩

theorem ok_of_map {α β ε : Type v} {x : Except ε α} {f : α → β} {b : β}
    (h : x.map f = .ok b) : ∃ a, x = .ok a ∧ f a = b := by
  cases x with
  | error e => cases h
  | ok a =>
      cases h
      exact ⟨a, rfl, rfl⟩

namespace Script
variable {Q : Type u} {A : Q → Type v} {σ : Type v} {ε : Type v}

/-- Run the script; the first failure ends it. -/
def run (handle : (q : Q) → σ → Except ε (A q × σ)) : Script Q A → σ → Except ε σ
  | done, s => .ok s
  | call q next, s => handle q s >>= fun r => run handle (next r.1) r.2

/-- Given these answers, every query that the script asks has one. -/
def Answered (answer : (q : Q) → Option (A q)) : Script Q A → Prop
  | done => True
  | call q next => ∃ a ∈ answer q, Answered answer (next a)

variable {handle : (q : Q) → σ → Except ε (A q × σ)} {answer : (q : Q) → Option (A q)} {s : σ}

/-- What every answered query keeps holds at the end of a script that ran through. -/
theorem run_induction {I : σ → Prop} {t : σ}
    (hstep : ∀ q s a s', I s → handle q s = .ok (a, s') → I s') (p : Script Q A) (h : I s)
    (hrun : p.run handle s = .ok t) : I t := by
  induction p generalizing s with
  | done =>
      cases hrun
      exact h
  | call q next ih =>
      rw [run] at hrun
      cases hq : handle q s with
      | error e =>
          rw [hq] at hrun
          cases hrun
      | ok r =>
          rw [hq] at hrun
          exact ih r.1 (hstep q s r.1 r.2 h hq) hrun

/-- A script that asks only what the handler answers in state `s`, staying there, runs
through. -/
theorem run_of_answered (hanswer : ∀ q a, answer q = some a → handle q s = .ok (a, s))
    (p : Script Q A) (h : p.Answered answer) : p.run handle s = .ok s := by
  induction p with
  | done => rfl
  | call q next ih =>
      obtain ⟨a, ha, hnext⟩ := h
      rw [run, hanswer q a ha]
      exact ih a hnext

/-- A script runs through just when it asks only for answers that are there, if the handler
gives the same answers, and fails on the same queries, in every state that it gets into. -/
theorem run_isOk_iff {I : σ → Prop}
    (hanswer : ∀ s q a, I s → answer q = some a → ∃ s', handle q s = .ok (a, s') ∧ I s')
    (hfail : ∀ s q, I s → answer q = none → ∃ e, handle q s = .error e) (p : Script Q A)
    (h : I s) : (∃ t, p.run handle s = .ok t) ↔ p.Answered answer := by
  induction p generalizing s with
  | done => exact iff_of_true ⟨s, rfl⟩ trivial
  | call q next ih =>
      cases hq : answer q with
      | none =>
          obtain ⟨e, he⟩ := hfail s q h hq
          simp [run, Answered, hq, he, bind, Except.bind]
      | some a =>
          obtain ⟨s', hs', h'⟩ := hanswer s q a h hq
          have hrun : (call q next).run handle s = (next a).run handle s' := by
            rw [run, hs']
            rfl
          rw [hrun, ih a h']
          simp [Answered, hq]

/-- **When a script runs through.** Let the handler, in state `s`, answer some queries
and stay in `s`, and fail on all others. A script runs through just when it asks only
for answers that are there, and it then leaves the state alone. -/
theorem run_eq_ok_iff (hanswer : ∀ q a, answer q = some a → handle q s = .ok (a, s))
    (hfail : ∀ q, answer q = none → ∃ e, handle q s = .error e) (p : Script Q A) (t : σ) :
    p.run handle s = .ok t ↔ p.Answered answer ∧ t = s := by
  induction p with
  | done =>
      rw [run, Except.ok.injEq, Answered, true_and, eq_comm]
  | call q next ih =>
      cases hq : answer q with
      | none =>
          obtain ⟨e, he⟩ := hfail q hq
          simp [run, Answered, hq, he, bind, Except.bind]
      | some a =>
          have hrun : (call q next).run handle s = (next a).run handle s := by
            rw [run, hanswer q a hq]
            rfl
          rw [hrun, ih a]
          simp [Answered, hq]

/-! ## Scripts within calls -/

section nested
variable {ι : Type u} {slot : ι → σ → Script Q A}
  {call : (ι → σ → Except ε σ) → (q : Q) → σ → Except ε (A q × σ)} {deep : ε}

/-- A component emits signals in the middle of its calls, and a signal has a script of such
calls run: `call` is what they do, given what an emission does. Scripts run at most `n` deep
in each other. -/
def nested (slot : ι → σ → Script Q A)
    (call : (ι → σ → Except ε σ) → (q : Q) → σ → Except ε (A q × σ)) (deep : ε) :
    ℕ → ι → σ → Except ε σ
  | 0, _, _ => .error deep
  | n + 1, i, s => (slot i s).run (call (nested slot call deep n)) s

/-- **What every call does, if the emissions in it do, every emission does**, however deep
its scripts run. -/
theorem nested_induction {R : σ → σ → Prop} (hrefl : ∀ s, R s s)
    (htrans : ∀ {s t u}, R s t → R t u → R s u)
    (hcall : ∀ emit, (∀ i s t, emit i s = .ok t → R s t) →
      ∀ q s a t, call emit q s = .ok (a, t) → R s t) (n : ℕ) {i : ι} {s t : σ}
    (h : nested slot call deep n i s = .ok t) : R s t := by
  induction n generalizing i s t with
  | zero => cases h
  | succ n ih =>
      rw [nested] at h
      refine run_induction (I := R s) ?_ (slot i s) (hrefl s) h
      intro q u a u' hu hq
      exact htrans hu (hcall _ (fun i s t => ih) q u a u' hq)

end nested

end Script
end DPFlow.Lib
