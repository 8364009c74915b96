import DPFlow.EventDispatcher.Reachable
import Mathlib

/-!
# One descriptor, two operations

`m_files` has a place for each operation on a descriptor, and the check for duplicates lets
a second operation through. The kernel's list has one entry a descriptor, and `addFile`
always asks for a new one, so the second operation is refused.

## Main definitions

* `EventDispatcher.Watched` — an operation is in `m_files`, and its bit on the list.
* `EventDispatcher.WatchesBoth` — two operations added to one descriptor, and either removed.
-/
namespace DPFlow.EventDispatcher

variable {F ω : Type}

/-- Every request keeps the map and the list in step, and the rest of a turn has no part in
them. -/
theorem tracked_stable : Stable (Tracked : EventDispatcher F ω → Prop) where
  request H r := H.request r
  env H _ := H.congr rfl rfl
  now H := H.congr rfl rfl
  rearm H _ := H.congr rfl rfl

/-- An operation is registered with its function, and the descriptor monitored for it. -/
def Watched (d : EventDispatcher F ω) (fd : Int) (op : FileOperation) (func : F) : Prop :=
  d.mFiles (fd, op) = some func ∧ ∃ bit event, op.epollBit = some bit ∧
    d.interest fd = some event ∧ event.events &&& bit = bit

/-- Both operations are taken on, and each outlives the removal of the other. The kernel
refuses nothing but a second entry for the descriptor. -/
structure WatchesBoth (d : EventDispatcher F ω) (fd : Int) (op₁ op₂ : FileOperation)
    (f g : F) : Prop where
  first : (d.addFile fd op₁ f true).2 = true
  second : ((d.addFile fd op₁ f true).1.addFile fd op₂ g true).2 = true
  watched :
    let d' := ((d.addFile fd op₁ f true).1.addFile fd op₂ g true).1
    Watched d' fd op₁ f ∧ Watched d' fd op₂ g
  removed_first :
    let d' := ((d.addFile fd op₁ f true).1.addFile fd op₂ g true).1
    (d'.removeFile fd op₁ true).2 = true ∧ Watched (d'.removeFile fd op₁ true).1 fd op₂ g
  removed_second :
    let d' := ((d.addFile fd op₁ f true).1.addFile fd op₂ g true).1
    (d'.removeFile fd op₂ true).2 = true ∧ Watched (d'.removeFile fd op₂ true).1 fd op₁ f

/-- A descriptor on the list is not added again, under any operation. -/
theorem addFile_of_interest {d : EventDispatcher F ω} {fd : Int} (h : d.interest fd ≠ none)
    (op : FileOperation) (func : F) (accept : Bool) :
    d.addFile fd op func accept = (d, false) := by
  obtain hrefused | ⟨bit, -, hfree, -⟩ := addFile_cases d fd op func accept
  · exact hrefused
  · exact absurd hfree h

/-- A call that returned `true` has put the descriptor on the list. -/
theorem interest_of_addFile {d : EventDispatcher F ω} {fd : Int} {op : FileOperation} {func : F}
    {accept : Bool} (h : (d.addFile fd op func accept).2 = true) :
    (d.addFile fd op func accept).1.interest fd ≠ none := by
  obtain hrefused | ⟨bit, -, -, hadded⟩ := addFile_cases d fd op func accept
  · rw [hrefused] at h
    cases h
  · rw [hadded, setFile_interest, Function.update_self]
    exact Option.some_ne_none _

theorem not_watchesBoth (d : EventDispatcher F ω) (fd : Int) (op₁ op₂ : FileOperation)
    (f g : F) : ¬ WatchesBoth d fd op₁ op₂ f g := by
  intro h
  have hsecond := h.second
  rw [addFile_of_interest (interest_of_addFile h.first)] at hsecond
  cases hsecond

/-- **Two operations on one descriptor.** In a reachable dispatcher, callbacks making
requests, a descriptor with no registration is taken on under a first operation, and refused
under every second one. -/
theorem second_operation_refused {call : Callbacks F ω} (hclient : Client call)
    {clock : ℕ → Int} {d : EventDispatcher F ω} (hd : Reachable call clock d) {fd : Int}
    (hfd : 0 ≤ fd) (hnone : ∀ op, d.mFiles (fd, op) = none) (op₁ op₂ : FileOperation)
    (f g : F) :
    (op₁.epollBit ≠ none → (d.addFile fd op₁ f true).2 = true ∧
      (d.addFile fd op₁ f true).1.addFile fd op₂ g true =
        ((d.addFile fd op₁ f true).1, false)) ∧
      ¬ WatchesBoth d fd op₁ op₂ f g := by
  refine ⟨?_, not_watchesBoth d fd op₁ op₂ f g⟩
  intro hop
  have H : Tracked d := hd.invariant tracked_stable hclient (tracked_init clock)
  -- what is not in the map is not on the list
  have hfree : d.interest fd = none := by
    by_contra hne
    obtain ⟨event, hevent⟩ := Option.ne_none_iff_exists'.mp hne
    obtain ⟨op, func, hfunc⟩ := H.registered hevent
    rw [hnone op] at hfunc
    cases hfunc
  obtain ⟨bit, hbit⟩ := Option.ne_none_iff_exists'.mp hop
  have hfirst : (d.addFile fd op₁ f true).2 = true := by
    rw [addFile_eq hfd hbit (hnone op₁) hfree f]
  exact ⟨hfirst, addFile_of_interest (interest_of_addFile hfirst) op₂ g true⟩

/-- A new dispatcher. -/
def fresh : EventDispatcher Unit Unit := init (fun _ => 0) ()

theorem second_operation_refused_write :
    (FileOperation.read.epollBit ≠ none → (fresh.addFile 5 .read () true).2 = true ∧
      (fresh.addFile 5 .read () true).1.addFile 5 .write () true =
        ((fresh.addFile 5 .read () true).1, false)) ∧
      ¬ WatchesBoth fresh 5 .read .write () () :=
  second_operation_refused client_idle (.init ()) (by decide) (fun _ => rfl) .read .write () ()

/-- Reading is watched on descriptor 5; writing is refused, and is not in `m_files`. -/
theorem second_operation_fails :
    Reachable (fun _ d => d) (fun _ => 0) fresh ∧ (∀ op, fresh.mFiles (5, op) = none) ∧
      (fresh.addFile 5 .read () true).2 = true ∧
      ((fresh.addFile 5 .read () true).1.addFile 5 .write () true).2 = false ∧
      ((fresh.addFile 5 .read () true).1.addFile 5 .write () true).1.mFiles (5, .write) = none ∧
      ¬ WatchesBoth fresh 5 .read .write () () := by
  refine ⟨.init (), fun _ => rfl, rfl, rfl, rfl, ?_⟩
  rintro ⟨-, hsecond, -⟩
  exact absurd hsecond (by decide)

end DPFlow.EventDispatcher
