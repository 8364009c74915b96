import DPFlow.EventDispatcher.Reachable
import Mathlib

/-!
# The timeout handed to `epoll_wait`

The time left to the first timer is rounded up to milliseconds and narrowed to `int`. A
timer's expiry is a reading of the clock plus its period, so the time left never exceeds
the period and the narrowing keeps it. Nothing bounds it from below: a timer that is
overdue by a millisecond gives a negative timeout, on which `epoll_wait` blocks.

## Main definitions

* `EventDispatcher.Scheduled` — every expiry is a reading of the clock plus the period.
-/
namespace DPFlow.EventDispatcher

open Lib

variable {F ω : Type}

/-! ## What is scheduled -/

/-- Every expiry is a past reading of the clock plus the timer's period. -/
structure Scheduled (clock : ℕ → Int) (d : EventDispatcher F ω) : Prop where
  clock_eq : d.clock = clock
  expiry_eq : ∀ t ∈ d.mTimers, ∃ n < d.reads, t.expiry = TimerInfo.expiryAt (clock n) t.period

namespace Scheduled
variable {clock : ℕ → Int} {d : EventDispatcher F ω}

/-- Fewer timers and later readings are no harm. -/
theorem mono {d' : EventDispatcher F ω} (H : Scheduled clock d) (hclock : d'.clock = d.clock)
    (htimers : d'.mTimers ⊆ d.mTimers) (hreads : d.reads ≤ d'.reads) : Scheduled clock d' where
  clock_eq := hclock.trans H.clock_eq
  expiry_eq t ht := by
    obtain ⟨n, hn, hexpiry⟩ := H.expiry_eq t (htimers ht)
    exact ⟨n, hn.trans_le hreads, hexpiry⟩

theorem addTimer (H : Scheduled clock d) (periodMs : Int32) (func : F) :
    Scheduled clock (d.addTimer periodMs func).1 where
  clock_eq := H.clock_eq
  expiry_eq t ht := by
    obtain hold | hnew := List.mem_append.mp ((List.mem_insertionSort _).mp ht)
    · obtain ⟨n, hn, hexpiry⟩ := H.expiry_eq t hold
      exact ⟨n, hn.trans (Nat.lt_succ_self _), hexpiry⟩
    · rw [List.mem_singleton.mp hnew, ← H.clock_eq]
      exact ⟨d.reads, Nat.lt_succ_self _, rfl⟩

theorem request (H : Scheduled clock d) (r : Request F) :
    Scheduled clock ((requests F ω).step d r).1 := by
  obtain ⟨-, mFiles, interest, h⟩ | ⟨periodMs, func, rfl⟩ | ⟨id, rfl⟩ := request_cases d r
  · rw [h]
    exact H.mono rfl (List.Subset.refl _) le_rfl
  · exact H.addTimer periodMs func
  · exact H.mono rfl (List.filter_subset_self _) le_rfl

theorem now (H : Scheduled clock d) : Scheduled clock d.now.2 :=
  H.mono rfl (List.Subset.refl _) (Nat.le_succ _)

/-- Re-arming takes a reading and schedules one timer from it. -/
theorem rearm (H : Scheduled clock d) (node : ℕ) :
    Scheduled clock (d.now.2.rearm node d.now.1) where
  clock_eq := H.clock_eq
  expiry_eq t ht := by
    obtain ⟨s, hs, rfl⟩ := List.mem_map.mp ht
    split_ifs with hnode
    · rw [← H.clock_eq]
      exact ⟨d.reads, Nat.lt_succ_self _, rfl⟩
    · exact H.now.expiry_eq s hs

theorem stable (clock : ℕ → Int) :
    Stable (Scheduled clock : EventDispatcher F ω → Prop) where
  request H r := H.request r
  env H _ := H.mono rfl (List.Subset.refl _) le_rfl
  now H := H.now
  rearm H node := H.rearm node

end Scheduled

/-- Every reachable dispatcher is scheduled. -/
theorem Reachable.scheduled {call : Callbacks F ω} (hclient : Client call) {clock : ℕ → Int}
    {d : EventDispatcher F ω} (h : Reachable call clock d) : Scheduled clock d :=
  h.invariant (Scheduled.stable clock) hclient fun _ => ⟨rfl, fun _ ht => nomatch ht⟩

/-! ## The timeout -/

/-- Rounding up: the least number of milliseconds that covers the time. -/
theorem neg_neg_ediv_le_iff (r m : Int) : -(-r / 1000000) ≤ m ↔ r ≤ m * 1000000 := by
  omega

/-- The narrowing to `int` keeps a time left that is a period at most. -/
theorem toInt_ofInt_of_nonneg {m : Int} (h0 : 0 ≤ m) (h1 : m < 2 ^ 31) :
    (BitVec.ofInt 32 m).toInt = m := by
  rw [BitVec.toInt_ofInt]
  exact Int.bmod_eq_of_le_mul_two (by omega) (by omega)

/-- It gives zero for the multiples of `2 ^ 32`. -/
theorem toInt_ofInt_eq_zero_iff (m : Int) :
    (BitVec.ofInt 32 m).toInt = 0 ↔ (2 ^ 32 : Int) ∣ m := by
  rw [BitVec.toInt_ofInt]
  exact Int.dvd_iff_bmod_eq_zero.symm

/-- **When the timeout is right.** In a reachable dispatcher with a timer, callbacks making
requests and the clock not going back, the timeout of a turn is the least number of
milliseconds, zero or more, that covers the time left to the first timer, just when that
timer is not overdue, or the whole milliseconds it is overdue are a multiple of `2 ^ 32`:
none, or as many as the narrowing takes for none. -/
theorem timeoutMs_isLeast_iff {call : Callbacks F ω} (hclient : Client call) {clock : ℕ → Int}
    (hclock : Monotone clock) {d : EventDispatcher F ω} (hd : Reachable call clock d)
    {timer : TimerInfo F} {rest : List (TimerInfo F)} (htimers : d.mTimers = timer :: rest)
    (fuel : ℕ) (ready : List EpollEvent) :
    IsLeast {m : Int | 0 ≤ m ∧ timer.expiry - clock d.reads ≤ m * 1000000}
        (processEvents call fuel ready d).timeoutMs ↔
      clock d.reads ≤ timer.expiry ∨
        (2 ^ 32 : Int) ∣ (clock d.reads - timer.expiry) / 1000000 := by
  have H := hd.scheduled hclient
  obtain ⟨n, hn, hexpiry⟩ := H.expiry_eq timer (htimers ▸ List.mem_cons_self)
  -- the time left, and the milliseconds that cover it
  obtain ⟨r, hr⟩ : ∃ r, r = timer.expiry - clock d.reads := ⟨_, rfl⟩
  obtain ⟨up, hup⟩ : ∃ up, up = -(-r / 1000000) := ⟨_, rfl⟩
  have htimeout : (processEvents call fuel ready d).timeoutMs = (BitVec.ofInt 32 up).toInt := by
    change d.timeoutMs.1 = _
    rw [timeoutMs, htimers, hup, hr, ← H.clock_eq]
    rfl
  have hcover : ∀ m, r ≤ m * 1000000 ↔ up ≤ m := by
    intro m
    rw [hup, neg_neg_ediv_le_iff]
  have hperiod : up < 2 ^ 31 := by
    have hle : clock n ≤ clock d.reads := hclock hn.le
    have hmax : timer.period.toInt < 2 ^ 31 := timer.period.toInt_lt
    have hleft : r ≤ timer.period.toInt * 1000000 := by
      rw [hr, hexpiry, TimerInfo.expiryAt]
      omega
    exact lt_of_le_of_lt ((hcover _).mp hleft) hmax
  rw [htimeout, ← hr]
  simp only [hcover]
  by_cases hdue : clock d.reads ≤ timer.expiry
  · have hup0 : 0 ≤ up := by omega
    rw [toInt_ofInt_of_nonneg hup0 hperiod]
    simp only [hdue, true_or, iff_true]
    exact ⟨⟨hup0, le_rfl⟩, fun m hm => hm.2⟩
  · -- overdue: the least number is zero
    have hup0 : up ≤ 0 := by omega
    have hleast : IsLeast {m : Int | 0 ≤ m ∧ up ≤ m} 0 := ⟨⟨le_rfl, hup0⟩, fun m hm => hm.1⟩
    have hlate : (clock d.reads - timer.expiry) / 1000000 = -up := by
      rw [hup, hr, Int.neg_neg, Int.neg_sub]
    rw [hlate, Int.dvd_neg, ← toInt_ofInt_eq_zero_iff]
    simp only [hdue, false_or]
    constructor
    · exact fun h => h.unique hleast
    · intro h
      rw [h]
      exact hleast

/-- A timer of 5 ms, right after it was added. -/
theorem timeoutMs_isLeast_five :
    IsLeast {m : Int | 0 ≤ m ∧ 5000000 - 0 ≤ m * 1000000}
        (processEvents (fun _ d => d) 1 [] (oneTimer (fun _ => 0) 5)).timeoutMs ↔
      (0 : Int) ≤ 5000000 ∨ (2 ^ 32 : Int) ∣ (0 - 5000000) / 1000000 :=
  timeoutMs_isLeast_iff client_idle monotone_const (reachable_oneTimer (fun _ => 0) 5)
    (rfl : _ = (⟨0, 1, 5, 5000000, ()⟩ : TimerInfo Unit) :: []) 1 []

/-- A timer of 1 ms, when 3 ms have passed: the timeout is minus two. -/
theorem timeoutMs_overdue :
    let clock : ℕ → Int := fun n => n * 3000000
    let d := oneTimer clock 1
    Monotone clock ∧ Reachable (fun _ d => d) clock d ∧
      d.mTimers.map TimerInfo.expiry = [1000000] ∧ clock d.reads = 3000000 ∧
      (processEvents (fun _ d => d) 1 [] d).timeoutMs = -2 ∧
      ¬ IsLeast {m : Int | 0 ≤ m ∧ 1000000 - 3000000 ≤ m * 1000000}
        (processEvents (fun _ d => d) 1 [] d).timeoutMs := by
  have htimeout : (processEvents (fun _ d => d) 1 []
      (oneTimer (fun n => n * 3000000) 1)).timeoutMs = -2 := by decide
  refine ⟨?_, reachable_oneTimer _ 1, by decide, by decide, htimeout, ?_⟩
  · intro m n hmn
    dsimp only
    omega
  · rintro ⟨⟨hnonneg, -⟩, -⟩
    rw [htimeout] at hnonneg
    exact absurd hnonneg (by decide)

end DPFlow.EventDispatcher
