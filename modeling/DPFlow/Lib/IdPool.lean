import DPFlow.Lib.Mealy
import Mathlib.Data.Finset.Max
import Mathlib.Data.List.ReduceOption

/-!
# Pools of identifiers

A pool hands out the members of a finite set, each at most once. A request names the
identifier it would like; the pool grants that one when it is free, the greatest free
one when it is not, and nothing when none is left.

## Main definitions

* `IdPool.pick` — the identifier granted out of a set of free ones.
* `IdPool.pool` — the pool as a machine over the identifiers taken so far.
* `IdPool.mem_taken_iff` — what is taken is what was handed out.
* `IdPool.nodup_granted` — nothing is handed out twice.
-/
namespace DPFlow.Lib.IdPool

variable {α : Type*} [LinearOrder α]

/-- The wish if it is free, otherwise the greatest free identifier. -/
def pick (free : Finset α) (wish : α) : Option α :=
  if wish ∈ free then some wish
  else if h : free.Nonempty then some (free.max' h)
  else none

section pick
variable {free : Finset α} {wish id : α}

theorem pick_of_mem (h : wish ∈ free) : pick free wish = some wish := if_pos h

theorem pick_eq_none_iff : pick free wish = none ↔ free = ∅ := by
  unfold pick
  constructor
  · intro h
    by_cases hw : wish ∈ free
    · rw [if_pos hw] at h
      cases h
    rw [if_neg hw] at h
    by_cases hne : free.Nonempty
    · rw [dif_pos hne] at h
      cases h
    · exact Finset.not_nonempty_iff_eq_empty.mp hne
  · rintro rfl
    simp

theorem pick_of_isGreatest (hw : wish ∉ free) (h : IsGreatest (free : Set α) id) :
    pick free wish = some id := by
  have hne : free.Nonempty := ⟨id, h.1⟩
  rw [pick, if_neg hw, dif_pos hne]
  exact congrArg some ((free.isGreatest_max' hne).unique h)

/-- A refused wish is answered with the greatest free identifier. -/
theorem isGreatest_of_pick (hw : wish ∉ free) (h : pick free wish = some id) :
    IsGreatest (free : Set α) id := by
  have hne : free.Nonempty := by
    rw [Finset.nonempty_iff_ne_empty]
    intro he
    rw [pick_eq_none_iff.mpr he] at h
    cases h
  rw [pick_of_isGreatest hw (free.isGreatest_max' hne)] at h
  cases h
  exact free.isGreatest_max' hne

theorem mem_of_pick (h : pick free wish = some id) : id ∈ free := by
  by_cases hw : wish ∈ free
  · rw [pick_of_mem hw] at h
    cases h
    exact hw
  · exact (isGreatest_of_pick hw h).1

end pick

/-! ## Runs -/

/-- The pool of the identifiers in `range`, with those already taken as its state. -/
def pool (range : Finset α) : Mealy (Finset α) α (Option α) where
  step taken wish := match pick (range \ taken) wish with
    | some id => (insert id taken, [some id])
    | none => (taken, [none])

section pool
variable (range : Finset α)

/-- What one request does: it takes a free identifier, or finds none. -/
theorem pool_cases (taken : Finset α) (wish : α) :
    (∃ id ∈ range \ taken, pick (range \ taken) wish = some id ∧
      (pool range).step taken wish = (insert id taken, [some id])) ∨
    range \ taken = ∅ ∧ (pool range).step taken wish = (taken, [none]) := by
  cases h : pick (range \ taken) wish with
  | some id => exact .inl ⟨id, mem_of_pick h, rfl, by simp [pool, h]⟩
  | none => exact .inr ⟨pick_eq_none_iff.mp h, by simp [pool, h]⟩

/-- What is taken after a run was taken before it or handed out by it. -/
theorem mem_taken_iff (taken : Finset α) (wishes : List α) (id : α) :
    id ∈ (pool range).state taken wishes ↔
      id ∈ taken ∨ some id ∈ (pool range).trace taken wishes := by
  induction wishes generalizing taken with
  | nil => simp
  | cons wish wishes ih =>
      rw [Mealy.state_cons, Mealy.trace_cons, ih]
      obtain ⟨new, -, -, h⟩ | ⟨-, h⟩ := pool_cases range taken wish <;> rw [h]
      · simp only [Finset.mem_insert, List.singleton_append, List.mem_cons, Option.some.injEq]
        tauto
      · simp

/-- A run hands out members of the range that were free before it. -/
theorem mem_free_of_granted {taken : Finset α} {wishes : List α} {id : α}
    (h : some id ∈ (pool range).trace taken wishes) : id ∈ range \ taken := by
  induction wishes generalizing taken with
  | nil => cases h
  | cons wish wishes ih =>
      rw [Mealy.trace_cons] at h
      obtain ⟨new, hnew, -, hs⟩ | ⟨-, hs⟩ := pool_cases range taken wish <;> rw [hs] at h
      · rw [List.singleton_append, List.mem_cons] at h
        obtain h | h := h
        · cases h
          exact hnew
        · have hid := ih h
          rw [Finset.mem_sdiff, Finset.mem_insert, not_or] at hid
          exact Finset.mem_sdiff.mpr ⟨hid.1, hid.2.2⟩
      · rw [List.singleton_append, List.mem_cons] at h
        obtain h | h := h
        · cases h
        · exact ih h

/-- **Nothing is handed out twice.** -/
theorem nodup_granted (taken : Finset α) (wishes : List α) :
    ((pool range).trace taken wishes).reduceOption.Nodup := by
  induction wishes generalizing taken with
  | nil => exact List.nodup_nil
  | cons wish wishes ih =>
      rw [Mealy.trace_cons]
      obtain ⟨new, hnew, -, hs⟩ | ⟨-, hs⟩ := pool_cases range taken wish <;> rw [hs]
      · rw [List.singleton_append, List.reduceOption_cons_of_some, List.nodup_cons]
        refine ⟨?_, ih _⟩
        -- the new one is taken from here on
        intro h
        have hfree := mem_free_of_granted range (List.reduceOption_mem_iff.mp h)
        exact (Finset.mem_sdiff.mp hfree).2 (Finset.mem_insert_self ..)
      · rw [List.singleton_append, List.reduceOption_cons_of_none]
        exact ih _

end pool
end DPFlow.Lib.IdPool
