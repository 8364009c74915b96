import DPFlow.Lib.IdPool
import Mathlib

/-!
# The registry of user event types

`Event::registerEventType` claims a number between `User` and `MaxUser` for a new kind
of event: the caller's hint if that one can be had, otherwise the first free number
found looking backwards from `MaxUser`. The registry is a pool of identifiers.

## Main definitions

* `Event.EventType` — the enumerators, with their numbers.
* `Event.registerEventType` — one call, on the set of numbers claimed so far.
* `Event.registrations` — call after call, with what each one returns.
* `Event.registerEventType_eq` — a call asks the pool of user numbers.
-/
namespace DPFlow.Event

open Lib IdPool

/-- `Event::EventType`. -/
inductive EventType
  | none
  | timer
  | quit
  | user
  | maxUser
  deriving DecidableEq, Repr

/-- `static_cast<int>`. -/
def EventType.toInt : EventType → ℤ
  | none => 0
  | timer => 1
  | quit => 100
  | user => 10000
  | maxUser => 65535

/-- The `while` of `registerEventType`: where the search ends. -/
def lookBackwards (set : Finset ℤ) (id : ℤ) : ℤ :=
  if id ∈ set ∧ id ≥ EventType.user.toInt then lookBackwards set (id - 1) else id
termination_by (id + 1 - EventType.user.toInt).toNat
decreasing_by omega

/-- `registerEventType`: the claimed numbers after it, and what it returns. -/
def registerEventType (set : Finset ℤ) (hint : ℤ) : Finset ℤ × ℤ :=
  if hint ≥ EventType.user.toInt ∧ hint ≤ EventType.maxUser.toInt ∧ hint ∉ set then
    (insert hint set, hint)
  else
    let id := lookBackwards set EventType.maxUser.toInt
    if id ≥ EventType.user.toInt then (insert id set, id)
    else (set, -1)

/-- The registry taking one call after another. -/
def registrations : Mealy (Finset ℤ) ℤ ℤ where
  step set hint := ((registerEventType set hint).1, [(registerEventType set hint).2])

/-- The numbers claimed by calls with these hints on the empty registry. -/
def claimed (hints : List ℤ) : Finset ℤ := registrations.state ∅ hints

/-- What those calls returned, in order. -/
def returned (hints : List ℤ) : List ℤ := registrations.trace ∅ hints

/-- The numbers from `User` to `MaxUser`. -/
noncomputable def userTypes : Finset ℤ := Finset.Icc EventType.user.toInt EventType.maxUser.toInt

/-! ## The search -/

theorem lookBackwards_le (set : Finset ℤ) (id : ℤ) : lookBackwards set id ≤ id := by
  fun_induction lookBackwards set id with
  | case1 id _ ih => omega
  | case2 id _ => exact le_rfl

/-- What the search passed over is claimed. -/
theorem mem_of_lookBackwards_lt {set : Finset ℤ} {id j : ℤ} (hj : lookBackwards set id < j)
    (hle : j ≤ id) : j ∈ set := by
  fun_induction lookBackwards set id with
  | case1 id h ih =>
      by_cases hid : j = id
      · exact hid ▸ h.1
      · exact ih hj (by omega)
  | case2 id h => omega

/-- Where the search stops in the range, it has found a free number. -/
theorem lookBackwards_notMem {set : Finset ℤ} {id : ℤ}
    (h : EventType.user.toInt ≤ lookBackwards set id) : lookBackwards set id ∉ set := by
  fun_induction lookBackwards set id with
  | case1 id _ ih => exact ih h
  | case2 id hstop =>
      intro hmem
      exact hstop ⟨hmem, h⟩

section lookBackwards
variable {set : Finset ℤ}

theorem isGreatest_lookBackwards
    (h : EventType.user.toInt ≤ lookBackwards set EventType.maxUser.toInt) :
    IsGreatest (userTypes \ set : Finset ℤ) (lookBackwards set EventType.maxUser.toInt) := by
  constructor
  · have hrange := Finset.mem_Icc.mpr ⟨h, lookBackwards_le set EventType.maxUser.toInt⟩
    exact Finset.mem_coe.mpr (Finset.mem_sdiff.mpr ⟨hrange, lookBackwards_notMem h⟩)
  · intro j hj
    obtain ⟨hrange, hfree⟩ := Finset.mem_sdiff.mp (Finset.mem_coe.mp hj)
    by_contra hlt
    exact hfree (mem_of_lookBackwards_lt (not_le.mp hlt) (Finset.mem_Icc.mp hrange).2)

/-- A search that leaves the range has found every number claimed. -/
theorem free_eq_empty_of_lookBackwards_lt
    (h : lookBackwards set EventType.maxUser.toInt < EventType.user.toInt) :
    userTypes \ set = ∅ := by
  rw [Finset.sdiff_eq_empty_iff_subset]
  intro j hj
  obtain ⟨hlo, hhi⟩ := Finset.mem_Icc.mp hj
  exact mem_of_lookBackwards_lt (lt_of_lt_of_le h hlo) hhi

end lookBackwards

/-! ## The registry as a pool -/

/-- **A call asks the pool of user numbers**, and answers a refusal with minus one. -/
theorem registerEventType_eq (set : Finset ℤ) (hint : ℤ) :
    registerEventType set hint = match pick (userTypes \ set) hint with
      | some id => (insert id set, id)
      | none => (set, -1) := by
  have hwish : hint ∈ userTypes \ set ↔
      hint ≥ EventType.user.toInt ∧ hint ≤ EventType.maxUser.toInt ∧ hint ∉ set := by
    rw [Finset.mem_sdiff, userTypes, Finset.mem_Icc, and_assoc]
  unfold registerEventType
  by_cases hw : hint ∈ userTypes \ set
  · rw [if_pos (hwish.mp hw), pick_of_mem hw]
  rw [if_neg (mt hwish.mpr hw)]
  by_cases hid : lookBackwards set EventType.maxUser.toInt ≥ EventType.user.toInt
  · rw [pick_of_isGreatest hw (isGreatest_lookBackwards hid)]
    exact if_pos hid
  · rw [pick_eq_none_iff.mpr (free_eq_empty_of_lookBackwards_lt (not_le.mp hid))]
    exact if_neg hid

/-- A step of the registry is a step of the pool, with `-1` for nothing. -/
theorem registrations_step (set : Finset ℤ) (hint : ℤ) :
    registrations.step set hint = (((pool userTypes).step set hint).1,
      ((pool userTypes).step set hint).2.map (·.getD (-1))) := by
  simp only [registrations, registerEventType_eq, pool]
  cases pick (userTypes \ set) hint <;> rfl

theorem claimed_eq (hints : List ℤ) : claimed hints = (pool userTypes).state ∅ hints := by
  unfold claimed
  generalize (∅ : Finset ℤ) = set
  induction hints generalizing set with
  | nil => rfl
  | cons hint hints ih =>
      rw [Mealy.state_cons, Mealy.state_cons, registrations_step, ih]

theorem returned_eq (hints : List ℤ) :
    returned hints = ((pool userTypes).trace ∅ hints).map (·.getD (-1)) := by
  unfold returned
  generalize (∅ : Finset ℤ) = set
  induction hints generalizing set with
  | nil => rfl
  | cons hint hints ih =>
      rw [Mealy.trace_cons, Mealy.trace_cons, registrations_step, ih, List.map_append]

/-! ## Runs -/

theorem returned_concat (hints : List ℤ) (hint : ℤ) :
    returned (hints ++ [hint]) =
      returned hints ++ [(registerEventType (claimed hints) hint).2] := by
  rw [returned, Mealy.trace_append]
  rfl

theorem nonneg_of_mem_userTypes {id : ℤ} (h : id ∈ userTypes) : 0 ≤ id :=
  le_trans (by decide) (Finset.mem_Icc.mp h).1

/-- A user number was returned exactly when the pool handed it out. -/
theorem mem_returned_iff {hints : List ℤ} {id : ℤ} (hid : 0 ≤ id) :
    id ∈ returned hints ↔ some id ∈ (pool userTypes).trace ∅ hints := by
  rw [returned_eq, List.mem_map]
  constructor
  · rintro ⟨granted, hmem, rfl⟩
    cases granted with
    | none => exact absurd hid (by decide)
    | some id => exact hmem
  · intro hmem
    exact ⟨some id, hmem, rfl⟩

/-- The registry holds what the calls returned. -/
theorem mem_claimed_iff {hints : List ℤ} {id : ℤ} (hid : 0 ≤ id) :
    id ∈ claimed hints ↔ id ∈ returned hints := by
  rw [claimed_eq, mem_taken_iff, mem_returned_iff hid]
  simp

theorem mem_userTypes_of_returned {hints : List ℤ} {id : ℤ} (h : id ∈ returned hints)
    (hid : 0 ≤ id) : id ∈ userTypes := by
  have hfree := mem_free_of_granted userTypes ((mem_returned_iff hid).mp h)
  exact (Finset.mem_sdiff.mp hfree).1

/-- The non-negative results are those the pool granted. -/
theorem filter_returned (hints : List ℤ) :
    (returned hints).filter (0 ≤ ·) = ((pool userTypes).trace ∅ hints).reduceOption := by
  rw [returned_eq]
  have hgranted : ∀ id, some id ∈ (pool userTypes).trace ∅ hints → 0 ≤ id := by
    intro id h
    exact nonneg_of_mem_userTypes (Finset.mem_sdiff.mp (mem_free_of_granted userTypes h)).1
  revert hgranted
  generalize (pool userTypes).trace ∅ hints = granted
  intro hgranted
  induction granted with
  | nil => rfl
  | cons first granted ih =>
      have ih := ih fun id h => hgranted id (List.mem_cons_of_mem _ h)
      cases first with
      | none => simpa using ih
      | some id =>
          have hid := hgranted id List.mem_cons_self
          simpa [hid] using ih

theorem mem_free_iff {hints : List ℤ} {id : ℤ} :
    id ∈ userTypes \ claimed hints ↔ (10000 ≤ id ∧ id ≤ 65535) ∧ id ∉ returned hints := by
  rw [Finset.mem_sdiff]
  constructor
  · rintro ⟨hrange, hfree⟩
    refine ⟨Finset.mem_Icc.mp hrange, ?_⟩
    rwa [← mem_claimed_iff (nonneg_of_mem_userTypes hrange)]
  · rintro ⟨hrange, hfree⟩
    have hmem : id ∈ userTypes := Finset.mem_Icc.mpr hrange
    refine ⟨hmem, ?_⟩
    rwa [mem_claimed_iff (nonneg_of_mem_userTypes hmem)]

theorem free_eq_empty_iff {hints : List ℤ} :
    userTypes \ claimed hints = ∅ ↔ ∀ id, 10000 ≤ id → id ≤ 65535 → id ∈ returned hints := by
  rw [Finset.eq_empty_iff_forall_notMem]
  constructor
  · intro h id hlo hhi
    by_contra hnot
    exact h id (mem_free_iff.mpr ⟨⟨hlo, hhi⟩, hnot⟩)
  · intro h id hmem
    obtain ⟨⟨hlo, hhi⟩, hnot⟩ := mem_free_iff.mp hmem
    exact hnot (h id hlo hhi)

/-- **Every call of every sequence.** After any calls the results that are numbers lie
in the user range and are all different. The next call returns its hint if that is a
user number no call has returned, otherwise the largest number not returned yet; it
returns minus one exactly when there is none, and then claims nothing. -/
theorem registerEventType_after (hints : List ℤ) (hint : ℤ) :
    (∀ id ∈ returned hints, 0 ≤ id → 10000 ≤ id ∧ id ≤ 65535) ∧
    ((returned hints).filter (0 ≤ ·)).Nodup ∧
    let result := (registerEventType (claimed hints) hint).2
    returned (hints ++ [hint]) = returned hints ++ [result] ∧
    ((10000 ≤ hint ∧ hint ≤ 65535) ∧ hint ∉ returned hints → result = hint) ∧
    (¬((10000 ≤ hint ∧ hint ≤ 65535) ∧ hint ∉ returned hints) → result ≠ -1 →
      IsGreatest {id | (10000 ≤ id ∧ id ≤ 65535) ∧ id ∉ returned hints} result) ∧
    (result = -1 ↔ ∀ id, 10000 ≤ id → id ≤ 65535 → id ∈ returned hints) ∧
    (result = -1 → claimed (hints ++ [hint]) = claimed hints) := by
  have hfree : {id | (10000 ≤ id ∧ id ≤ 65535) ∧ id ∉ returned hints} =
      (↑(userTypes \ claimed hints) : Set ℤ) := by
    ext id
    rw [Finset.mem_coe, mem_free_iff]
    rfl
  have hclaimed : claimed (hints ++ [hint]) = (registerEventType (claimed hints) hint).1 := by
    rw [claimed, Mealy.state_append]
    rfl
  rw [hclaimed, hfree, ← mem_free_iff, ← free_eq_empty_iff]
  refine ⟨?_, ?_, returned_concat hints hint, ?_⟩
  · intro id hmem hid
    exact Finset.mem_Icc.mp (mem_userTypes_of_returned hmem hid)
  · rw [filter_returned]
    exact nodup_granted userTypes ∅ hints
  rw [registerEventType_eq, ← @pick_eq_none_iff _ _ _ hint]
  cases hpick : pick (userTypes \ claimed hints) hint with
  | none =>
      refine ⟨?_, ?_, by simp, by simp⟩
      · intro hw
        rw [pick_of_mem hw] at hpick
        cases hpick
      · intro _ hne
        exact absurd rfl hne
  | some id =>
      have hmem := (Finset.mem_sdiff.mp (mem_of_pick hpick)).1
      have hne : id ≠ -1 := by
        rintro rfl
        exact absurd (nonneg_of_mem_userTypes hmem) (by decide)
      refine ⟨?_, ?_, ?_, ?_⟩
      · intro hw
        rw [pick_of_mem hw] at hpick
        exact (Option.some.inj hpick).symm
      · intro hw _
        exact isGreatest_of_pick hw hpick
      · simp [hne]
      · intro h
        exact absurd h hne

end DPFlow.Event
