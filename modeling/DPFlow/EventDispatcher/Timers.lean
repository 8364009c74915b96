import DPFlow.EventDispatcher.TimerLoop
import Mathlib

/-!
# The order of the timers

The timer loop stops at the first timer that is not due, which is right for a list in the
order of expiry. `addTimer` sorts the list; the loop itself gives the timers it runs new
expiries in their old places, and sorts nothing. Between two turns the list is in order
just when no timer that ran got an expiry after the next one's.

## Main definitions

* `EventDispatcher.TimerOp`, `EventDispatcher.timers` — calls on a dispatcher.
* `EventDispatcher.Sorted` — the list is in the order of expiry.
* `EventDispatcher.Punctual` — a turn runs every timer that is due when its loop begins.
* `EventDispatcher.InOrder` — no timer that runs is re-armed past the next one.
-/
namespace DPFlow.EventDispatcher

open Lib

variable {F ω : Type}

/-! ## Calls -/

/-- A call on the dispatcher; a turn comes with what the kernel has to report. -/
inductive TimerOp (F : Type)
  | addTimer (periodMs : Int32) (func : F)
  | removeTimer (id : Int32)
  | processEvents (ready : List EpollEvent)

/-- The dispatcher taking calls. A turn has fuel for every timer it starts with, which is
enough when the callbacks are passive. -/
def timers (call : Callbacks F ω) : Mealy (EventDispatcher F ω) (TimerOp F) Unit where
  step d op := match op with
    | .addTimer periodMs func => ((d.addTimer periodMs func).1, [])
    | .removeTimer id => ((d.removeTimer id).1, [])
    | .processEvents ready =>
        match (processEvents call d.mTimers.length ready d).result with
        | .ok (_, d') => (d', [])
        | .error _ => (d, [])

/-- The timers are in the order of their expiries. -/
def Sorted (ts : List (TimerInfo F)) : Prop := ts.Pairwise fun s t => s.expiry ≤ t.expiry

/-- The turn returns, and its loop runs each timer that is due at the loop's first reading
of the clock. -/
def Punctual (call : Callbacks F ω) (ready : List EpollEvent) (d : EventDispatcher F ω) : Prop :=
  let start := loopStart call ready d
  (∃ b d', (processEvents call d.mTimers.length ready d).result = .ok (b, d')) ∧
  ∀ t ∈ start.mTimers, t.expiry ≤ start.clock start.reads →
    t ∈ firings call d.mTimers.length (start.mTimers.head?.map TimerInfo.node) start

/-- The expiry that a timer has after a loop that comes to it at reading `n`. -/
def expiryAfter (clock : ℕ → Int) (n : ℕ) (t : TimerInfo F) : Int :=
  if t.expiry ≤ clock n then TimerInfo.expiryAt (clock (n + 1)) t.period else t.expiry

/-- In a loop that begins at reading `n`, each timer that runs is re-armed no later than
the timer after it, which may have been re-armed itself. -/
def InOrder (clock : ℕ → Int) : ℕ → List (TimerInfo F) → Prop
  | n, t :: u :: ts =>
      t.expiry ≤ clock n →
        TimerInfo.expiryAt (clock (n + 1)) t.period ≤ expiryAfter clock (n + 2) u ∧
          InOrder clock (n + 2) (u :: ts)
  | _, _ => True

/-! ## One loop -/

section loop
variable {clock : ℕ → Int}

instance : IsTrans (TimerInfo F) (fun s t => s.expiry ≤ t.expiry) := ⟨fun _ _ _ => Int.le_trans⟩

instance : Std.Total (fun s t : TimerInfo F => s.expiry ≤ t.expiry) := ⟨fun _ _ => Int.le_total _ _⟩

theorem sorted_cons_cons {t u : TimerInfo F} {ts : List (TimerInfo F)} :
    Sorted (t :: u :: ts) ↔ t.expiry ≤ u.expiry ∧ Sorted (u :: ts) := by
  rw [Sorted, Sorted, ← List.isChain_iff_pairwise, ← List.isChain_iff_pairwise,
    List.isChain_cons_cons]

theorem fireAll_cons (clock : ℕ → Int) (n : ℕ) (t : TimerInfo F) (ts : List (TimerInfo F)) :
    ∃ t' ts', fireAll clock n (t :: ts) = t' :: ts' ∧ t'.expiry = expiryAfter clock n t := by
  rw [fireAll, expiryAfter]
  split_ifs
  · exact ⟨_, _, rfl, rfl⟩
  · exact ⟨_, _, rfl, rfl⟩

/-- What the loop leaves of a list in order is in order just when it re-armed in order. -/
theorem sorted_fireAll_iff {n : ℕ} {ts : List (TimerInfo F)} (h : Sorted ts) :
    Sorted (fireAll clock n ts) ↔ InOrder clock n ts := by
  induction ts generalizing n with
  | nil => simp [fireAll, InOrder, Sorted]
  | cons t ts ih =>
      cases ts with
      | nil =>
          rw [fireAll]
          split_ifs <;> simp [fireAll, InOrder, Sorted]
      | cons u ts =>
          rw [fireAll, InOrder]
          split_ifs with hdue
          · obtain ⟨u', ts', hrest, hu'⟩ := fireAll_cons clock (n + 2) u ts
            rw [← ih (sorted_cons_cons.mp h).2, hrest, sorted_cons_cons, hu']
            simp only [hdue, true_imp_iff]
            rfl
          · simp [hdue, h]

/-- A loop over a list in order, with a clock that does not go back, runs every timer that
is due when it begins. -/
theorem mem_fired (hclock : Monotone clock) {n : ℕ} {ts : List (TimerInfo F)} (h : Sorted ts)
    {t : TimerInfo F} (ht : t ∈ ts) (hdue : t.expiry ≤ clock n) : t ∈ fired clock n ts := by
  induction ts generalizing n with
  | nil => cases ht
  | cons s ts ih =>
      have hhead : s.expiry ≤ clock n := by
        obtain rfl | hmem := List.mem_cons.mp ht
        · exact hdue
        · exact (List.rel_of_pairwise_cons h hmem).trans hdue
      rw [fired, if_pos hhead]
      obtain rfl | hmem := List.mem_cons.mp ht
      · exact List.mem_cons_self
      · refine List.mem_cons_of_mem _ (ih h.of_cons hmem ?_)
        exact hdue.trans (hclock (Nat.le_add_right n 2))

end loop

/-! ## One call -/

/-- What every call keeps: the nodes of the list are distinct, and older than the next one. -/
structure Wellformed (clock : ℕ → Int) (d : EventDispatcher F ω) : Prop where
  clock_eq : d.clock = clock
  nodup : (d.mTimers.map TimerInfo.node).Nodup
  below : ∀ t ∈ d.mTimers, t.node < d.nextNode

theorem wellformed_init (clock : ℕ → Int) (env : ω) :
    Wellformed clock (init clock env : EventDispatcher F ω) where
  clock_eq := rfl
  nodup := List.nodup_nil
  below _ ht := nomatch ht

theorem sorted_addTimer (d : EventDispatcher F ω) (periodMs : Int32) (func : F) :
    Sorted (d.addTimer periodMs func).1.mTimers :=
  List.pairwise_insertionSort _ _

section calls
variable {call : Callbacks F ω} {clock : ℕ → Int} {d : EventDispatcher F ω}

theorem Wellformed.addTimer (H : Wellformed clock d) (periodMs : Int32) (func : F) :
    Wellformed clock (d.addTimer periodMs func).1 := by
  have hperm := List.perm_insertionSort (fun s t : TimerInfo F => s.expiry ≤ t.expiry)
    (d.mTimers ++ [⟨d.nextNode, d.nextTimerId, periodMs,
      TimerInfo.expiryAt (d.clock d.reads) periodMs, func⟩])
  refine ⟨H.clock_eq, ?_, ?_⟩
  · refine (hperm.map TimerInfo.node).nodup_iff.mpr ?_
    rw [List.map_append, List.nodup_append]
    refine ⟨H.nodup, List.nodup_singleton _, ?_⟩
    intro node hnode new hnew
    obtain ⟨t, ht, rfl⟩ := List.mem_map.mp hnode
    rw [List.map_singleton, List.mem_singleton] at hnew
    rw [hnew]
    exact (H.below t ht).ne
  · intro t ht
    change t.node < d.nextNode + 1
    obtain hold | hnew := List.mem_append.mp (hperm.mem_iff.mp ht)
    · exact (H.below t hold).trans (Nat.lt_succ_self _)
    · rw [List.mem_singleton.mp hnew]
      exact Nat.lt_succ_self _

theorem Wellformed.removeTimer (H : Wellformed clock d) (id : Int32) :
    Wellformed clock (d.removeTimer id).1 where
  clock_eq := H.clock_eq
  nodup := H.nodup.sublist (List.filter_sublist.map _)
  below t ht := H.below t (List.mem_of_mem_filter ht)

/-- **A turn with passive callbacks.** It returns; its loop runs the timers of the plain
walk from the reading after the one for the timeout, and leaves that walk's list. -/
theorem Wellformed.turn (hcall : Passive call) (H : Wellformed clock d)
    (ready : List EpollEvent) :
    ∃ b d', (processEvents call d.mTimers.length ready d).result = .ok (b, d') ∧
      d'.mTimers = fireAll clock (d.reads + 1) d.mTimers ∧ Wellformed clock d' ∧
      firings call d.mTimers.length ((loopStart call ready d).mTimers.head?.map TimerInfo.node)
        (loopStart call ready d) = fired clock (d.reads + 1) d.mTimers := by
  obtain ⟨htimers, hclock, hnode, hreads⟩ := loopStart_passive hcall ready d
  have hnodup : ((loopStart call ready d).mTimers.map TimerInfo.node).Nodup := by
    rw [htimers]
    exact H.nodup
  obtain ⟨d', hloop, hfirings, hd', hclock', hnode'⟩ :=
    fireTimers_passive hcall (List.nil_append _).symm hnodup
      (le_of_eq (congrArg List.length htimers)) 0
  -- without timers nothing has been read, and the walks are over before they read
  have hwalk : fired clock (loopStart call ready d).reads d.mTimers =
        fired clock (d.reads + 1) d.mTimers ∧
      fireAll clock (loopStart call ready d).reads d.mTimers =
        fireAll clock (d.reads + 1) d.mTimers := by
    by_cases hnil : d.mTimers = []
    · rw [hnil]
      exact ⟨rfl, rfl⟩
    · rw [hreads hnil]
      exact ⟨rfl, rfl⟩
  rw [hclock, H.clock_eq, htimers] at hd' hfirings
  rw [List.nil_append, hwalk.2] at hd'
  have hresult : ∃ b, (processEvents call d.mTimers.length ready d).result = .ok (b, d') := by
    change ∃ b, (fireTimers call d.mTimers.length
      ((loopStart call ready d).mTimers.head?.map TimerInfo.node) 0 (loopStart call ready d) >>=
        fun r => pure (decide (r.1 > 0), r.2)) = Except.ok (b, d')
    rw [hloop]
    exact ⟨_, rfl⟩
  obtain ⟨b, hresult⟩ := hresult
  refine ⟨b, d', hresult, hd', ⟨hclock'.trans (hclock.trans H.clock_eq), ?_, ?_⟩, ?_⟩
  · rw [hd', map_node_fireAll]
    exact H.nodup
  · intro t ht
    rw [hnode', hnode]
    have hmem : t.node ∈ d.mTimers.map TimerInfo.node := by
      rw [← map_node_fireAll clock (d.reads + 1), ← hd']
      exact List.mem_map_of_mem ht
    obtain ⟨s, hs, hst⟩ := List.mem_map.mp hmem
    rw [← hst]
    exact H.below s hs
  · rw [htimers, hfirings, hwalk.1]

end calls

/-! ## Runs -/

section runs
variable {call : Callbacks F ω} {clock : ℕ → Int}

theorem wellformed_timers (hcall : Passive call) (env : ω) (ops : List (TimerOp F)) :
    Wellformed clock ((timers call).state (init clock env) ops) := by
  refine (timers call).state_induction (Wellformed clock) _ ops (wellformed_init clock env) ?_
  rintro d op - H
  cases op with
  | addTimer periodMs func => exact H.addTimer periodMs func
  | removeTimer id => exact H.removeTimer id
  | processEvents ready =>
      obtain ⟨b, d', hturn, -, H', -⟩ := H.turn hcall ready
      simp only [timers, hturn]
      exact H'

/-- So is the dispatcher that a call of a run finds. -/
theorem wellformed_visit (hcall : Passive call) (env : ω) {ops : List (TimerOp F)}
    {p : EventDispatcher F ω × TimerOp F}
    (hp : p ∈ (timers call).visits (init clock env) ops) : Wellformed clock p.1 := by
  obtain ⟨pre, -, hp1⟩ := (timers call).mem_visits_iff.mp hp
  rw [hp1]
  exact wellformed_timers hcall env pre

/-- **When the timers stay in order.** In a run with passive callbacks and a clock that
does not go back, the list is sorted after every call and every turn runs the timers that
are due, just when in every turn the timers that run are re-armed in order. -/
theorem sorted_and_punctual_iff (hcall : Passive call) (hclock : Monotone clock) (env : ω)
    (ops : List (TimerOp F)) :
    ((∀ pre, pre <+: ops → Sorted ((timers call).state (init clock env) pre).mTimers) ∧
      ∀ p ∈ (timers call).visits (init clock env) ops, ∀ ready, p.2 = .processEvents ready →
        Punctual call ready p.1) ↔
      ∀ p ∈ (timers call).visits (init clock env) ops, ∀ ready, p.2 = .processEvents ready →
        InOrder clock (p.1.reads + 1) p.1.mTimers := by
  constructor
  · rintro ⟨hsorted, -⟩ p hp ready hturn
    obtain ⟨pre, hpre, hp1⟩ := (timers call).mem_visits_iff.mp hp
    have hbefore := hsorted pre ((List.prefix_append pre [p.2]).trans hpre)
    have hafter := hsorted (pre ++ [p.2]) hpre
    have H : Wellformed clock p.1 := wellformed_visit hcall env hp
    rw [← hp1] at hbefore
    rw [Mealy.state_append, ← hp1, hturn] at hafter
    obtain ⟨b, d', hresult, hd', -, -⟩ := H.turn hcall ready
    simp only [Mealy.state_cons, Mealy.state_nil, timers, hresult, hd'] at hafter
    exact (sorted_fireAll_iff hbefore).mp hafter
  · intro horder
    have hsorted : ∀ pre, pre <+: ops →
        Sorted ((timers call).state (init clock env) pre).mTimers := by
      intro pre hpre
      refine (timers call).state_induction_visits (fun d => Sorted d.mTimers) _ pre
        List.Pairwise.nil ?_
      rintro ⟨d, op⟩ hp hd
      obtain ⟨pre', hpre', hd'⟩ := (timers call).mem_visits_iff.mp hp
      have H : Wellformed clock d := wellformed_visit hcall env hp
      cases op with
      | addTimer periodMs func => exact sorted_addTimer d periodMs func
      | removeTimer id => exact hd.filter _
      | processEvents ready =>
          have hp' : (d, .processEvents ready) ∈ (timers call).visits (init clock env) ops :=
            (timers call).mem_visits_iff.mpr ⟨pre', hpre'.trans hpre, hd'⟩
          obtain ⟨b, d', hresult, htimers, -, -⟩ := H.turn hcall ready
          simp only [timers, hresult, htimers]
          exact (sorted_fireAll_iff hd).mpr (horder _ hp' ready rfl)
    refine ⟨hsorted, ?_⟩
    intro p hp ready hturn
    obtain ⟨pre, hpre, hp1⟩ := (timers call).mem_visits_iff.mp hp
    have hp1sorted := hsorted pre ((List.prefix_append pre [p.2]).trans hpre)
    have H : Wellformed clock p.1 := wellformed_visit hcall env hp
    rw [← hp1] at hp1sorted
    obtain ⟨b, d', hresult, -, -, hfirings⟩ := H.turn hcall ready
    obtain ⟨htimers, hclock', -, hreads⟩ := loopStart_passive hcall ready p.1
    refine ⟨⟨b, d', hresult⟩, ?_⟩
    intro t ht hdue
    rw [htimers] at ht
    rw [hclock', H.clock_eq, hreads (List.ne_nil_of_mem ht)] at hdue
    rw [hfirings]
    exact mem_fired hclock hp1sorted ht hdue

end runs

/-- Callbacks that do nothing. -/
theorem passive_idle : Passive (fun _ d => d : Callbacks F ω) := fun _ _ => ⟨_, _, _, rfl⟩

/-- One timer of 10 ms and one of 15 ms, and two turns. -/
def twoTurns : List (TimerOp Unit) :=
  [.addTimer 10 (), .addTimer 15 (), .processEvents [], .processEvents []]

/-- The clock reads 16 ms from the first turn on. -/
def dueClock (n : ℕ) : Int := if n < 2 then 0 else 16000000

theorem monotone_dueClock : Monotone dueClock := by
  refine monotone_nat_of_le_succ ?_
  intro n
  rw [dueClock, dueClock]
  split_ifs <;> omega

/-- Both timers are due in the first turn, and are re-armed to 26 and 31 ms. -/
theorem sorted_and_punctual_due :
    (∀ pre, pre <+: twoTurns →
        Sorted ((timers fun _ d => d).state (init dueClock ()) pre).mTimers) ∧
      ∀ p ∈ (timers fun _ d => d).visits (init dueClock ()) twoTurns, ∀ ready,
        p.2 = .processEvents ready → Punctual (fun _ d => d) ready p.1 := by
  refine (sorted_and_punctual_iff passive_idle monotone_dueClock () twoTurns).mpr ?_
  intro p hp ready hturn
  simp only [twoTurns, Mealy.visits_cons, Mealy.visits_nil, List.mem_cons, List.not_mem_nil,
    or_false] at hp
  obtain rfl | rfl | rfl | rfl := hp
  · cases hturn
  · cases hturn
  · exact fun _ => ⟨by decide, trivial⟩
  · exact fun hdue => absurd hdue (by decide)

/-- The clock reads 12 ms during the first turn and 16 ms during the second. -/
def lateClock (n : ℕ) : Int := if n < 2 then 0 else if n < 6 then 12000000 else 16000000

theorem monotone_lateClock : Monotone lateClock := by
  refine monotone_nat_of_le_succ ?_
  intro n
  rw [lateClock, lateClock]
  split_ifs <;> omega

/-- The first turn re-arms the 10 ms timer to 22 ms, ahead of the other one's 15 ms; the
second turn stops there, and the other timer, due at 15 ms, does not run at 16 ms. -/
theorem sorted_and_punctual_fails :
    let d := (timers fun _ d => d).state (init lateClock ()) (twoTurns.take 3)
    Monotone lateClock ∧ Passive (fun _ d => d : Callbacks Unit Unit) ∧ ¬ Sorted d.mTimers ∧
      ¬ Punctual (fun _ d => d) [] d := by
  refine ⟨monotone_lateClock, passive_idle, ?_, ?_⟩
  · intro h
    exact absurd (List.rel_of_pairwise_cons h List.mem_cons_self) (by decide)
  · rintro ⟨-, h⟩
    -- the loop finds the timer at 22 ms in front, and runs nothing
    exact List.not_mem_nil (h ⟨1, 2, 15, 15000000, ()⟩ (.tail _ (.head _)) (by decide))

end DPFlow.EventDispatcher
