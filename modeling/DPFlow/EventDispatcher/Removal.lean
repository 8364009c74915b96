import DPFlow.EventDispatcher.Reachable
import DPFlow.EventDispatcher.Timers
import Mathlib

/-!
# The result of a removal

Timers are numbered in the order they are added, so as long as `nextTimerId` has not come
around, a timer's id says which call added it and no two timers share one. `removeTimer`
takes the timer with its id out of the list; the result is the difference of the sizes
after and before, compared with zero, and a list does not grow by a removal.

## Main definitions

* `EventDispatcher.Numbered` — a timer's id is one more than the number of its node.
* `EventDispatcher.RemovesTimer` — what a removal is to do and to return.
-/
namespace DPFlow.EventDispatcher

variable {F ω : Type}

/-! ## Ids -/

/-- Timers are numbered as their nodes are, from one. -/
structure Numbered (d : EventDispatcher F ω) : Prop where
  next_eq : d.nextTimerId = Int32.ofNat (d.nextNode + 1)
  id_eq : ∀ t ∈ d.mTimers, t.id = Int32.ofNat (t.node + 1)

namespace Numbered
variable {d : EventDispatcher F ω}

/-- Fewer timers are no harm. -/
theorem mono {d' : EventDispatcher F ω} (H : Numbered d) (hid : d'.nextTimerId = d.nextTimerId)
    (hnode : d'.nextNode = d.nextNode) (htimers : d'.mTimers ⊆ d.mTimers) : Numbered d' where
  next_eq := by rw [hid, hnode, H.next_eq]
  id_eq t ht := H.id_eq t (htimers ht)

theorem addTimer (H : Numbered d) (periodMs : Int32) (func : F) :
    Numbered (d.addTimer periodMs func).1 where
  next_eq := by
    change d.nextTimerId + 1 = Int32.ofNat (d.nextNode + 1 + 1)
    rw [H.next_eq, Int32.ofNat_add (d.nextNode + 1) 1]
    rfl
  id_eq t ht := by
    obtain hold | hnew := List.mem_append.mp ((List.mem_insertionSort _).mp ht)
    · exact H.id_eq t hold
    · rw [List.mem_singleton.mp hnew]
      exact H.next_eq

theorem request (H : Numbered d) (r : Request F) : Numbered ((requests F ω).step d r).1 := by
  obtain ⟨-, mFiles, interest, h⟩ | ⟨periodMs, func, rfl⟩ | ⟨id, rfl⟩ := request_cases d r
  · rw [h]
    exact H.mono rfl rfl (List.Subset.refl _)
  · exact H.addTimer periodMs func
  · exact H.mono rfl rfl (List.filter_subset_self _)

theorem now (H : Numbered d) : Numbered d.now.2 := H.mono rfl rfl (List.Subset.refl _)

/-- Re-arming changes neither node nor id. -/
theorem rearm (H : Numbered d) (node : ℕ) (t : Int) : Numbered (d.rearm node t) where
  next_eq := H.next_eq
  id_eq timer ht := by
    obtain ⟨s, hs, rfl⟩ := List.mem_map.mp ht
    split_ifs with hnode
    · exact H.id_eq s hs
    · exact H.id_eq s hs

theorem stable : Stable (Numbered : EventDispatcher F ω → Prop) where
  request H r := H.request r
  env H _ := H.mono rfl rfl (List.Subset.refl _)
  now H := H.now
  rearm H node := H.now.rearm node _

end Numbered

/-- Re-arming leaves the nodes in their places. -/
theorem map_node_rearm (d : EventDispatcher F ω) (node : ℕ) (t : Int) :
    (d.rearm node t).mTimers.map TimerInfo.node = d.mTimers.map TimerInfo.node := by
  rw [EventDispatcher.rearm, List.map_map]
  refine List.map_congr_left ?_
  intro timer _
  rw [Function.comp_apply]
  split_ifs with hnode
  · rfl
  · rfl

namespace Wellformed
variable {clock : ℕ → Int} {d : EventDispatcher F ω}

/-- The timers and their nodes as they are. -/
theorem congr {d' : EventDispatcher F ω} (H : Wellformed clock d) (hclock : d'.clock = d.clock)
    (htimers : d'.mTimers = d.mTimers) (hnode : d'.nextNode = d.nextNode) :
    Wellformed clock d' where
  clock_eq := hclock.trans H.clock_eq
  nodup := by rw [htimers]; exact H.nodup
  below t ht := by
    rw [htimers] at ht
    rw [hnode]
    exact H.below t ht

theorem request (H : Wellformed clock d) (r : Request F) :
    Wellformed clock ((requests F ω).step d r).1 := by
  obtain ⟨-, mFiles, interest, h⟩ | ⟨periodMs, func, rfl⟩ | ⟨id, rfl⟩ := request_cases d r
  · rw [h]
    exact H.congr rfl rfl rfl
  · exact H.addTimer periodMs func
  · exact H.removeTimer id

theorem now (H : Wellformed clock d) : Wellformed clock d.now.2 := H.congr rfl rfl rfl

theorem rearm (H : Wellformed clock d) (node : ℕ) (t : Int) :
    Wellformed clock (d.rearm node t) where
  clock_eq := H.clock_eq
  nodup := by
    rw [map_node_rearm]
    exact H.nodup
  below timer ht := by
    obtain ⟨s, hs, rfl⟩ := List.mem_map.mp ht
    split_ifs with hnode
    · exact H.below s hs
    · exact H.below s hs

theorem stable (clock : ℕ → Int) :
    Stable (Wellformed clock : EventDispatcher F ω → Prop) where
  request H r := H.request r
  env H _ := H.congr rfl rfl rfl
  now H := H.now
  rearm H node := H.now.rearm node _

/-- There are no more timers than calls of `addTimer`. -/
theorem length_le (H : Wellformed clock d) : d.mTimers.length ≤ d.nextNode := by
  have hsub : (d.mTimers.map TimerInfo.node).toFinset ⊆ Finset.range d.nextNode := by
    intro node hnode
    obtain ⟨t, ht, rfl⟩ := List.mem_map.mp (List.mem_toFinset.mp hnode)
    exact Finset.mem_range.mpr (H.below t ht)
  have hcard := Finset.card_le_card hsub
  rwa [List.toFinset_card_of_nodup H.nodup, List.length_map, Finset.card_range] at hcard

end Wellformed

/-- Numbers below `2 ^ 31` are told apart by an `int`. -/
theorem int32_ofNat_inj {m n : ℕ} (hm : m < 2 ^ 31) (hn : n < 2 ^ 31)
    (h : Int32.ofNat m = Int32.ofNat n) : m = n := by
  have hint := congrArg Int32.toInt h
  rw [Int32.toInt_ofNat_of_lt hm, Int32.toInt_ofNat_of_lt hn] at hint
  exact Int.ofNat_inj.mp hint

/-- Before `nextTimerId` comes around, no two timers have one id. -/
theorem nodup_ids {clock : ℕ → Int} {d : EventDispatcher F ω} (N : Numbered d)
    (H : Wellformed clock d) (hcalls : d.nextNode < 2 ^ 31) :
    (d.mTimers.map TimerInfo.id).Nodup := by
  have hnodes := H.nodup
  rw [List.nodup_iff_pairwise_ne, List.pairwise_map] at hnodes ⊢
  refine hnodes.imp_of_mem ?_
  intro s t hs ht hne hid
  rw [N.id_eq s hs, N.id_eq t ht] at hid
  have hs' := H.below s hs
  have ht' := H.below t ht
  exact hne (Nat.succ_injective (int32_ofNat_inj (by omega) (by omega) hid))

/-! ## Removals -/

/-- A removal by id: it returns whether there is such a timer, takes it out, leaves the
others in their places, and changes nothing when it returns `false`, so that a second one
does not succeed. -/
structure RemovesTimer (d : EventDispatcher F ω) (id : Int32) : Prop where
  returned : (d.removeTimer id).2 = true ↔ ∃ t ∈ d.mTimers, t.id = id
  gone : ∀ t ∈ (d.removeTimer id).1.mTimers, t.id ≠ id
  others : (d.removeTimer id).1.mTimers.filter (fun t => t.id ≠ id) =
    d.mTimers.filter fun t => t.id ≠ id
  refused : (d.removeTimer id).2 = false → (d.removeTimer id).1.mTimers = d.mTimers
  again : (d.removeTimer id).2 = true → ((d.removeTimer id).1.removeTimer id).2 = false

/-- The list is no longer after a removal than before it. -/
@[simp] theorem removeTimer_returned (d : EventDispatcher F ω) (id : Int32) :
    (d.removeTimer id).2 = false := by
  have hle : (d.mTimers.filter fun t => t.id ≠ id).length ≤ d.mTimers.length :=
    List.length_filter_le _ _
  refine decide_eq_false ?_
  omega

theorem removesTimer_iff (d : EventDispatcher F ω) (id : Int32) :
    RemovesTimer d id ↔ ∀ t ∈ d.mTimers, t.id ≠ id := by
  constructor
  · intro h t ht hid
    have htrue := h.returned.mpr ⟨t, ht, hid⟩
    rw [removeTimer_returned] at htrue
    cases htrue
  · intro h
    have hkeep : d.mTimers.filter (fun t => t.id ≠ id) = d.mTimers :=
      List.filter_eq_self.mpr fun t ht => decide_eq_true (h t ht)
    refine ⟨?_, ?_, ?_, fun _ => hkeep, fun _ => removeTimer_returned _ _⟩
    · rw [removeTimer_returned]
      simpa using h
    · intro t ht
      exact of_decide_eq_true (List.mem_filter.mp ht).2
    · exact congrArg (List.filter _) hkeep

/-- **When a removal says what it did.** In a reachable dispatcher, callbacks making
requests and `addTimer` having been called fewer than `2 ^ 31` times, the sizes fit an `int`,
no two timers have one id, and a removal by id does all that it should just when there is no
timer to remove. `nextNode` is the number of calls. -/
theorem removeTimer_removes_iff {call : Callbacks F ω} (hclient : Client call) {clock : ℕ → Int}
    {d : EventDispatcher F ω} (hd : Reachable call clock d) (hcalls : d.nextNode < 2 ^ 31)
    (id : Int32) :
    d.mTimers.length < 2 ^ 31 ∧ (d.mTimers.map TimerInfo.id).Nodup ∧
      (RemovesTimer d id ↔ ∀ t ∈ d.mTimers, t.id ≠ id) := by
  have H : Wellformed clock d :=
    hd.invariant (Wellformed.stable clock) hclient (wellformed_init clock)
  have N : Numbered d :=
    hd.invariant Numbered.stable hclient fun _ => ⟨rfl, fun t ht => by cases ht⟩
  exact ⟨H.length_le.trans_lt hcalls, nodup_ids N H hcalls, removesTimer_iff d id⟩

/-- The dispatcher with one timer of 5 ms, whose id is 1. -/
def fiveMs : EventDispatcher Unit Unit := oneTimer (fun _ => 0) 5

theorem reachable_fiveMs : Reachable (fun _ d => d) (fun _ => 0) fiveMs := reachable_oneTimer _ 5

theorem removeTimer_removes_unknown :
    fiveMs.mTimers.length < 2 ^ 31 ∧ (fiveMs.mTimers.map TimerInfo.id).Nodup ∧
      (RemovesTimer fiveMs 2 ↔ ∀ t ∈ fiveMs.mTimers, t.id ≠ 2) :=
  removeTimer_removes_iff client_idle reachable_fiveMs (by decide) 2

/-- The timer with id 1 is taken out, and `false` is returned. -/
theorem removeTimer_removes_fails :
    Reachable (fun _ d => d) (fun _ => 0) fiveMs ∧ (∃ t ∈ fiveMs.mTimers, t.id = 1) ∧
      (fiveMs.removeTimer 1).1.mTimers.length = 0 ∧ (fiveMs.removeTimer 1).2 = false ∧
      ¬ RemovesTimer fiveMs 1 := by
  refine ⟨reachable_fiveMs, ⟨⟨0, 1, 5, 5000000, ()⟩, .head _, rfl⟩, rfl, rfl, ?_⟩
  intro h
  exact absurd (h.returned.mpr ⟨⟨0, 1, 5, 5000000, ()⟩, .head _, rfl⟩) (by decide)

end DPFlow.EventDispatcher
