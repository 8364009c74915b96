import Mathlib.Data.List.Basic

/-!
# Machines that read a stream and emit a trace

A `Mealy` machine reads one input at a time, moves to a new state and emits any
number of outputs. A parser fed one byte at a time, a component called one
operation after another, and a backend driven by a schedule of system calls are
all of this shape, so the facts about whole runs are proved here once: how a run
splits over a concatenation, and what an invariant of one step gives for a run.

## Main definitions

* `Mealy σ ι ο` — a machine with states `σ`, inputs `ι` and outputs `ο`.
* `Mealy.state`, `Mealy.trace` — where a run ends, and what it emits.
* `Mealy.visits` — the inputs of a run, each with the state that reads it.
* `Mealy.state_induction`, `Mealy.trace_induction` — an invariant of every step holds after
  every run, and of what it lets a step emit.
* `Mealy.state_simulation` — two machines that stay related.
* `Mealy.trace_account` — what every step keeps account of, a run keeps account of.
-/
namespace DPFlow.Lib

universe u v w

/-- A machine that reads inputs one at a time and emits outputs as it goes. -/
structure Mealy (σ : Type u) (ι : Type v) (ο : Type w) where
  /-- The next state, and what reading this input emits. -/
  step : σ → ι → σ × List ο

namespace Mealy
variable {σ : Type u} {ι : Type v} {ο : Type w} (M : Mealy σ ι ο)

/-- The state a run ends in. -/
def state (s : σ) : List ι → σ
  | [] => s
  | x :: xs => state (M.step s x).1 xs

/-- Everything a run emits, in order. -/
def trace (s : σ) : List ι → List ο
  | [] => []
  | x :: xs => (M.step s x).2 ++ trace (M.step s x).1 xs

/-- The inputs of a run, each with the state that reads it. -/
def visits (s : σ) : List ι → List (σ × ι)
  | [] => []
  | x :: xs => (s, x) :: visits (M.step s x).1 xs

@[simp] theorem state_nil (s : σ) : M.state s [] = s := rfl
@[simp] theorem state_cons (s : σ) (x : ι) (xs : List ι) :
    M.state s (x :: xs) = M.state (M.step s x).1 xs := rfl
@[simp] theorem trace_nil (s : σ) : M.trace s [] = [] := rfl
@[simp] theorem trace_cons (s : σ) (x : ι) (xs : List ι) :
    M.trace s (x :: xs) = (M.step s x).2 ++ M.trace (M.step s x).1 xs := rfl
@[simp] theorem visits_nil (s : σ) : M.visits s [] = [] := rfl
@[simp] theorem visits_cons (s : σ) (x : ι) (xs : List ι) :
    M.visits s (x :: xs) = (s, x) :: M.visits (M.step s x).1 xs := rfl

/-- A run over two pieces of input goes on from where the first piece ended. -/
theorem state_append (s : σ) (xs ys : List ι) :
    M.state s (xs ++ ys) = M.state (M.state s xs) ys := by
  induction xs generalizing s with
  | nil => rfl
  | cons x xs ih => exact ih _

theorem trace_append (s : σ) (xs ys : List ι) :
    M.trace s (xs ++ ys) = M.trace s xs ++ M.trace (M.state s xs) ys := by
  induction xs generalizing s with
  | nil => rfl
  | cons x xs ih =>
      simp only [List.cons_append, trace_cons, state_cons, ih, List.append_assoc]

/-- A machine that emits exactly one output at each step emits them visit by visit. -/
theorem trace_eq_map_visits {f : σ × ι → ο} (hf : ∀ s x, (M.step s x).2 = [f (s, x)])
    (s : σ) (xs : List ι) : M.trace s xs = (M.visits s xs).map f := by
  induction xs generalizing s with
  | nil => rfl
  | cons x xs ih =>
      rw [trace_cons, visits_cons, List.map_cons, hf, ih, List.singleton_append]

/-- A silent run has silent prefixes. -/
theorem trace_prefix_eq_nil {s : σ} {xs ys : List ι} (h : M.trace s ys = [])
    (hp : xs <+: ys) : M.trace s xs = [] := by
  obtain ⟨zs, rfl⟩ := hp
  rw [trace_append] at h
  exact (List.append_eq_nil_iff.mp h).1

/-- A visit is a prefix of the input, with one more input after it. -/
theorem mem_visits_iff {s : σ} {xs : List ι} {p : σ × ι} :
    p ∈ M.visits s xs ↔ ∃ pre, pre ++ [p.2] <+: xs ∧ p.1 = M.state s pre := by
  induction xs generalizing s with
  | nil => simp
  | cons x xs ih =>
      rw [visits_cons, List.mem_cons, ih]
      constructor
      · rintro (rfl | ⟨pre, hpre, hp⟩)
        · exact ⟨[], by simp, rfl⟩
        · exact ⟨x :: pre, by simpa using hpre, hp⟩
      · rintro ⟨pre, hpre, hp⟩
        cases pre with
        | nil =>
            rw [List.nil_append, List.cons_prefix_cons] at hpre
            exact .inl (Prod.ext hp hpre.1)
        | cons y pre =>
            rw [List.cons_append, List.cons_prefix_cons] at hpre
            obtain ⟨rfl, hpre⟩ := hpre
            exact .inr ⟨pre, hpre, hp⟩

/-- What every step of the run preserves holds where the run ends. -/
theorem state_induction_visits (P : σ → Prop) (s : σ) (xs : List ι) (h0 : P s)
    (hstep : ∀ p ∈ M.visits s xs, P p.1 → P (M.step p.1 p.2).1) : P (M.state s xs) := by
  induction xs generalizing s with
  | nil => exact h0
  | cons x xs ih =>
      refine ih _ (hstep (s, x) List.mem_cons_self h0) ?_
      intro p hp
      exact hstep p (List.mem_cons_of_mem _ hp)

/-- What every step preserves holds at the end of every run. -/
theorem state_induction (P : σ → Prop) (s : σ) (xs : List ι) (h0 : P s)
    (hstep : ∀ t x, x ∈ xs → P t → P (M.step t x).1) : P (M.state s xs) := by
  refine M.state_induction_visits P s xs h0 ?_
  intro p hp
  obtain ⟨pre, hpre, -⟩ := M.mem_visits_iff.mp hp
  exact hstep p.1 p.2 (hpre.subset (by simp))

/-- What every step preserves, of the state and of a log that the step adds to, holds at the
end of every run, of the whole log. -/
theorem state_log_induction {α : Type*} (P : List α → σ → Prop) (f : σ × ι → List α) (s : σ)
    (xs : List ι) (log : List α) (h0 : P log s)
    (hstep : ∀ log t x, P log t → P (log ++ f (t, x)) (M.step t x).1) :
    P (log ++ (M.visits s xs).flatMap f) (M.state s xs) := by
  induction xs generalizing s log with
  | nil => simpa using h0
  | cons x xs ih =>
      rw [visits_cons, List.flatMap_cons, ← List.append_assoc]
      exact ih _ _ (hstep log s x h0)

/-- What every step preserves lets every step emit what it may emit. -/
theorem trace_induction (P : σ → Prop) (Q : ο → Prop) (s : σ) (xs : List ι) (h0 : P s)
    (hstep : ∀ t x, P t → P (M.step t x).1) (hemit : ∀ t x, P t → ∀ o ∈ (M.step t x).2, Q o) :
    ∀ o ∈ M.trace s xs, Q o := by
  induction xs generalizing s with
  | nil => exact fun o ho => absurd ho List.not_mem_nil
  | cons x xs ih =>
      intro o ho
      rw [trace_cons, List.mem_append] at ho
      rcases ho with hfirst | hrest
      · exact hemit s x h0 o hfirst
      · exact ih _ (hstep s x h0) o hrest

/-- **Simulation.** Two machines fed the same input stay related when each step keeps them
so. -/
theorem state_simulation {τ : Type*} {ο' : Type*} (N : Mealy τ ι ο') {R : σ → τ → Prop}
    (hstep : ∀ s t x, R s t → R (M.step s x).1 (N.step t x).1) {s : σ} {t : τ} (h : R s t)
    (xs : List ι) : R (M.state s xs) (N.state t xs) := by
  induction xs generalizing s t with
  | nil => exact h
  | cons x xs ih => exact ih (hstep s t x h)

/-- Where a step keeps `P` exactly under a condition on it, a run keeps `P` throughout
exactly when every one of its steps meets that condition. -/
theorem forall_prefix_iff (P : σ → Prop) (C : σ × ι → Prop) (s : σ) (xs : List ι) (h0 : P s)
    (hstep : ∀ p ∈ M.visits s xs, P p.1 → (P (M.step p.1 p.2).1 ↔ C p)) :
    (∀ pre, pre <+: xs → P (M.state s pre)) ↔ ∀ p ∈ M.visits s xs, C p := by
  constructor
  · intro h p hp
    obtain ⟨pre, hpre, hs⟩ := M.mem_visits_iff.mp hp
    have hbefore : P p.1 := hs ▸ h pre ((List.prefix_append _ _).trans hpre)
    have hafter := h _ hpre
    rw [state_append, ← hs] at hafter
    exact (hstep p hp hbefore).mp hafter
  · intro h pre hpre
    refine M.state_induction_visits P s pre h0 ?_
    intro p hp hP
    obtain ⟨pre', hpre', hs⟩ := M.mem_visits_iff.mp hp
    have hmem : p ∈ M.visits s xs := M.mem_visits_iff.mpr ⟨pre', hpre'.trans hpre, hs⟩
    exact (hstep p hmem hP).mpr (h p hmem)

/-! ## Accounts of a queue -/

section accounts
variable {q : σ → List ο} {put : ι → List ο}

/-- Where every step of a run takes out, in front of what it leaves in the queue, what was
there and what it put in, so does the run. -/
theorem trace_account (s : σ) (xs : List ι)
    (hstep : ∀ p ∈ M.visits s xs, (M.step p.1 p.2).2 ++ q (M.step p.1 p.2).1 =
      q p.1 ++ put p.2) :
    M.trace s xs ++ q (M.state s xs) = q s ++ xs.flatMap put := by
  induction xs generalizing s with
  | nil => simp
  | cons x xs ih =>
      have hfirst := hstep (s, x) List.mem_cons_self
      have hrest := ih (M.step s x).1 fun p hp => hstep p (List.mem_cons_of_mem _ hp)
      rw [trace_cons, state_cons, List.append_assoc, hrest, ← List.append_assoc, hfirst,
        List.append_assoc, List.flatMap_cons]

/-- Where some steps hand out one more than they take out, the run is over by their number. -/
theorem length_account {extra : σ × ι → Bool}
    (hstep : ∀ s x, (M.step s x).2.length + (q (M.step s x).1).length =
      (q s).length + (put x).length + if extra (s, x) then 1 else 0) (s : σ) (xs : List ι) :
    (M.trace s xs).length + (q (M.state s xs)).length =
      (q s).length + (xs.flatMap put).length + (M.visits s xs).countP extra := by
  induction xs generalizing s with
  | nil => simp
  | cons x xs ih =>
      have hfirst := hstep s x
      have hrest := ih (M.step s x).1
      rw [trace_cons, state_cons, visits_cons, List.flatMap_cons, List.countP_cons,
        List.length_append, List.length_append]
      omega

end accounts

end Mealy
end DPFlow.Lib
