import DPFlow.EventDispatcher.Basic

/-!
# Registration of files

`addFile` and `removeFile` change `m_files` and the kernel's interest list together.
The list has one entry a descriptor, so a descriptor has one operation at a time, and
after any requests the two describe the same registrations.

## Main definitions

* `EventDispatcher.Request`, `EventDispatcher.after` — requests to a new dispatcher.
* `EventDispatcher.setFile` — one registration, set or cleared on both sides.
* `EventDispatcher.Tracked` — `m_files` and the interest list describe the same
  registrations.
-/
namespace DPFlow.EventDispatcher

open Lib

variable {F ω : Type}

/-! ## Requests -/

/-- A call on the dispatcher between two turns. The last flag of a file call says
whether the kernel accepts the descriptor. -/
inductive Request (F : Type)
  | addFile (fd : Int) (op : FileOperation) (func : F) (accept : Bool)
  | removeFile (fd : Int) (op : FileOperation) (accept : Bool)
  | addTimer (periodMs : Int32) (func : F)
  | removeTimer (id : Int32)

/-- The dispatcher taking requests. -/
def requests (F ω : Type) : Mealy (EventDispatcher F ω) (Request F) Unit where
  step d r := match r with
    | .addFile fd op func accept => ((d.addFile fd op func accept).1, [])
    | .removeFile fd op accept => ((d.removeFile fd op accept).1, [])
    | .addTimer periodMs func => ((d.addTimer periodMs func).1, [])
    | .removeTimer id => ((d.removeTimer id).1, [])

/-- The dispatcher after a list of requests to a new one. -/
def after (clock : ℕ → Int) (env : ω) (rs : List (Request F)) : EventDispatcher F ω :=
  (requests F ω).state (init clock env) rs

/-! ## What the two calls do -/

/-- One registration, set or cleared on both sides. -/
def setFile (d : EventDispatcher F ω) (fd : Int) (op : FileOperation) (func : Option F)
    (event : Option EpollEvent) : EventDispatcher F ω :=
  { d with interest := Function.update d.interest fd event
           mFiles := Function.update d.mFiles (fd, op) func }

section setFile
variable (d : EventDispatcher F ω) (fd : Int) (op : FileOperation) (func : Option F)
  (event : Option EpollEvent)

@[simp] theorem setFile_mFiles :
    (d.setFile fd op func event).mFiles = Function.update d.mFiles (fd, op) func := rfl
@[simp] theorem setFile_interest :
    (d.setFile fd op func event).interest = Function.update d.interest fd event := rfl

end setFile

/-- What `addFile` does: nothing, or a new registration of a descriptor that the
interest list did not have. -/
theorem addFile_cases (d : EventDispatcher F ω) (fd : Int) (op : FileOperation) (func : F)
    (accept : Bool) :
    d.addFile fd op func accept = (d, false) ∨
    ∃ bit, op.epollBit = some bit ∧ d.interest fd = none ∧
      d.addFile fd op func accept = (d.setFile fd op (some func) (some ⟨bit, fd⟩), true) := by
  unfold addFile epollAdd
  by_cases hfd : fd < 0
  · exact .inl (if_pos hfd)
  by_cases hdup : (d.mFiles (fd, op)).isSome
  · exact .inl (by rw [if_neg hfd, if_pos hdup])
  rw [if_neg hfd, if_neg hdup]
  cases hbit : op.epollBit with
  | none => exact .inl rfl
  | some bit =>
      by_cases hk : accept ∧ d.interest fd = none
      · exact .inr ⟨bit, rfl, hk.2, by simp [hk, setFile]⟩
      · exact .inl (by simp [hk])

/-- A descriptor with no registration at all is taken on, if the kernel accepts it. -/
theorem addFile_eq {d : EventDispatcher F ω} {fd : Int} {op : FileOperation} {bit : BitVec 32}
    (hfd : 0 ≤ fd) (hbit : op.epollBit = some bit) (hfile : d.mFiles (fd, op) = none)
    (hfree : d.interest fd = none) (func : F) :
    d.addFile fd op func true = (d.setFile fd op (some func) (some ⟨bit, fd⟩), true) := by
  have hdup : ¬ (d.mFiles (fd, op)).isSome := by rw [hfile]; exact Bool.false_ne_true
  simp [addFile, if_neg (not_lt.mpr hfd), if_neg hdup, hbit, epollAdd, hfree, setFile]

/-- What `removeFile` does: nothing, or one registration less. -/
theorem removeFile_cases (d : EventDispatcher F ω) (fd : Int) (op : FileOperation)
    (accept : Bool) :
    d.removeFile fd op accept = (d, false) ∨
    d.mFiles (fd, op) ≠ none ∧
      d.removeFile fd op accept = (d.setFile fd op none none, true) := by
  unfold removeFile epollDel
  by_cases hkey : d.mFiles (fd, op) = none
  · exact .inl (if_pos hkey)
  rw [if_neg hkey]
  cases op.epollBit with
  | none => exact .inl rfl
  | some bit =>
      by_cases hk : accept ∧ d.interest fd ≠ none
      · exact .inr ⟨hkey, by simp [hk, setFile]⟩
      · exact .inl (by simp [hk])

/-- A request about files. -/
def Request.IsFile : Request F → Prop
  | addFile .. | removeFile .. => True
  | addTimer .. | removeTimer _ => False

/-- A request is about files, and changes the map and the list only, or it is about timers. -/
theorem request_cases (d : EventDispatcher F ω) (r : Request F) :
    (r.IsFile ∧ ∃ mFiles interest, ((requests F ω).step d r).1 =
      { d with mFiles := mFiles, interest := interest }) ∨
    (∃ periodMs func, r = .addTimer periodMs func) ∨ ∃ id, r = .removeTimer id := by
  cases r with
  | addFile fd op func accept =>
      refine .inl ⟨trivial, ?_⟩
      obtain h | ⟨bit, -, -, h⟩ := addFile_cases d fd op func accept <;>
        simp only [requests, h]
      · exact ⟨_, _, rfl⟩
      · exact ⟨_, _, rfl⟩
  | removeFile fd op accept =>
      refine .inl ⟨trivial, ?_⟩
      obtain h | ⟨-, h⟩ := removeFile_cases d fd op accept <;> simp only [requests, h]
      · exact ⟨_, _, rfl⟩
      · exact ⟨_, _, rfl⟩
  | addTimer periodMs func => exact .inr (.inl ⟨periodMs, func, rfl⟩)
  | removeTimer id => exact .inr (.inr ⟨id, rfl⟩)

/-! ## The invariant -/

/-- Two operations that ask for one bit are one operation. -/
theorem FileOperation.epollBit_injective {op op' : FileOperation} {bit : BitVec 32}
    (h : op.epollBit = some bit) (h' : op'.epollBit = some bit) : op = op' := by
  cases op <;> cases op' <;> cases h <;> first | rfl | exact absurd h' (by simp [epollBit])

/-- `m_files` and the interest list describe the same registrations. -/
structure Tracked (d : EventDispatcher F ω) : Prop where
  watched : ∀ {fd op func}, d.mFiles (fd, op) = some func →
    ∃ bit, op.epollBit = some bit ∧ d.interest fd = some ⟨bit, fd⟩
  registered : ∀ {fd event}, d.interest fd = some event →
    ∃ op func, d.mFiles (fd, op) = some func

theorem tracked_init (clock : ℕ → Int) (env : ω) :
    Tracked (init clock env : EventDispatcher F ω) where
  watched h := nomatch h
  registered h := nomatch h

namespace Tracked
variable {d : EventDispatcher F ω}

/-- A descriptor has one operation at a time. -/
theorem op_unique (H : Tracked d) {fd : Int} {op op' : FileOperation} {f f' : F}
    (h : d.mFiles (fd, op) = some f) (h' : d.mFiles (fd, op') = some f') : op = op' := by
  obtain ⟨bit, hbit, hi⟩ := H.watched h
  obtain ⟨bit', hbit', hi'⟩ := H.watched h'
  rw [hi] at hi'
  cases hi'
  exact FileOperation.epollBit_injective hbit hbit'

end Tracked

theorem Tracked.addFile {d : EventDispatcher F ω} (H : Tracked d) (fd : Int)
    (op : FileOperation) (func : F) (accept : Bool) :
    Tracked (d.addFile fd op func accept).1 := by
  obtain h | ⟨bit, hbit, hfree, h⟩ := addFile_cases d fd op func accept <;> rw [h]
  · exact H
  constructor
  · intro fd' op' func' hm
    rw [setFile_mFiles] at hm
    by_cases hkey : (fd', op') = (fd, op)
    · cases hkey
      exact ⟨bit, hbit, Function.update_self ..⟩
    · rw [Function.update_of_ne hkey] at hm
      obtain ⟨bit', hbit', hi⟩ := H.watched hm
      -- the new descriptor was not on the interest list, so this is another one
      have hne : fd' ≠ fd := by
        rintro rfl
        rw [hfree] at hi
        cases hi
      exact ⟨bit', hbit', by rw [setFile_interest, Function.update_of_ne hne, hi]⟩
  · intro fd' event hi
    rw [setFile_interest] at hi
    by_cases hfd : fd' = fd
    · cases hfd
      exact ⟨op, func, Function.update_self ..⟩
    · rw [Function.update_of_ne hfd] at hi
      obtain ⟨op', func', hm⟩ := H.registered hi
      have hkey : (fd', op') ≠ (fd, op) := fun h => hfd (congrArg Prod.fst h)
      exact ⟨op', func', by rw [setFile_mFiles, Function.update_of_ne hkey, hm]⟩

theorem Tracked.removeFile {d : EventDispatcher F ω} (H : Tracked d) (fd : Int)
    (op : FileOperation) (accept : Bool) : Tracked (d.removeFile fd op accept).1 := by
  obtain h | ⟨hkey, h⟩ := removeFile_cases d fd op accept <;> rw [h]
  · exact H
  obtain ⟨func, hfunc⟩ := Option.ne_none_iff_exists'.mp hkey
  constructor
  · intro fd' op' func' hm
    rw [setFile_mFiles] at hm
    have hkey' : (fd', op') ≠ (fd, op) := by
      intro h
      rw [h, Function.update_self] at hm
      cases hm
    rw [Function.update_of_ne hkey'] at hm
    -- one operation a descriptor: what is left is on other descriptors
    have hne : fd' ≠ fd := by
      rintro rfl
      exact hkey' (by rw [H.op_unique hm hfunc])
    obtain ⟨bit, hbit, hi⟩ := H.watched hm
    exact ⟨bit, hbit, by rw [setFile_interest, Function.update_of_ne hne, hi]⟩
  · intro fd' event hi
    rw [setFile_interest] at hi
    have hne : fd' ≠ fd := by
      rintro rfl
      rw [Function.update_self] at hi
      cases hi
    rw [Function.update_of_ne hne] at hi
    obtain ⟨op', func', hm⟩ := H.registered hi
    have hkey' : (fd', op') ≠ (fd, op) := fun h => hne (congrArg Prod.fst h)
    exact ⟨op', func', by rw [setFile_mFiles, Function.update_of_ne hkey', hm]⟩

/-- Timers are none of the registrations' business. -/
theorem Tracked.congr {d d' : EventDispatcher F ω} (H : Tracked d) (hf : d'.mFiles = d.mFiles)
    (hi : d'.interest = d.interest) : Tracked d' where
  watched h := by
    rw [hf] at h
    rw [hi]
    exact H.watched h
  registered h := by
    rw [hi] at h
    rw [hf]
    exact H.registered h

theorem Tracked.request {d : EventDispatcher F ω} (H : Tracked d) (r : Request F) :
    Tracked ((requests F ω).step d r).1 := by
  cases r with
  | addFile fd op func accept => exact H.addFile fd op func accept
  | removeFile fd op accept => exact H.removeFile fd op accept
  | addTimer periodMs func => exact H.congr rfl rfl
  | removeTimer id => exact H.congr rfl rfl

/-- Every list of requests leaves the two in step. -/
theorem tracked_after (clock : ℕ → Int) (env : ω) (rs : List (Request F)) :
    Tracked (after clock env rs) :=
  (requests F ω).state_induction Tracked _ rs (tracked_init clock env) fun _ r _ H => H.request r

end DPFlow.EventDispatcher
