import DPFlow.EventDispatcher.Registration

/-!
# The map and the interest list agree

The kernel's list is keyed by the descriptor, `m_files` by the descriptor and the
operation. After any calls, whatever the kernel refused on the way, a descriptor is on
the list just when the map has it, under one operation and with that operation's bit; and
the next call changes both at its own key, or nothing.

## Main definitions

* `EventDispatcher.Agree` — the two describe the same registrations.
* `EventDispatcher.AllOrNothing` — what a call may do to them.
-/
namespace DPFlow.EventDispatcher

variable {F ω : Type}

/-- The interest list has the descriptors of `m_files`; each is there under one operation,
and watched for that operation's bit. -/
structure Agree (d : EventDispatcher F ω) : Prop where
  descriptors : ∀ fd, d.interest fd ≠ none ↔ ∃ op, d.mFiles (fd, op) ≠ none
  one : ∀ fd, d.interest fd ≠ none → ∃! op, d.mFiles (fd, op) ≠ none
  mask : ∀ fd op event, d.interest fd = some event → d.mFiles (fd, op) ≠ none →
    op.epollBit = some event.events

/-- A call about the key leaves both as they are and returns `false`, or it returns `true`,
turns the key's entry and its descriptor's on or off, and leaves all the others. -/
structure AllOrNothing (d : EventDispatcher F ω) (key : Int × FileOperation)
    (result : EventDispatcher F ω × Bool) : Prop where
  refused : result.2 = false →
    result.1.mFiles = d.mFiles ∧ result.1.interest = d.interest
  files : result.2 = true →
    (result.1.mFiles key).isSome = !(d.mFiles key).isSome ∧
    ∀ key', key' ≠ key → result.1.mFiles key' = d.mFiles key'
  list : result.2 = true →
    (result.1.interest key.1).isSome = !(d.interest key.1).isSome ∧
    ∀ fd', fd' ≠ key.1 → result.1.interest fd' = d.interest fd'

theorem Tracked.agree {d : EventDispatcher F ω} (H : Tracked d) : Agree d := by
  have hwatched : ∀ {fd op}, d.mFiles (fd, op) ≠ none →
      ∃ bit, op.epollBit = some bit ∧ d.interest fd = some ⟨bit, fd⟩ := by
    intro fd op h
    obtain ⟨func, hfunc⟩ := Option.ne_none_iff_exists'.mp h
    exact H.watched hfunc
  have hregistered : ∀ {fd}, d.interest fd ≠ none → ∃ op, d.mFiles (fd, op) ≠ none := by
    intro fd h
    obtain ⟨event, hevent⟩ := Option.ne_none_iff_exists'.mp h
    obtain ⟨op, func, hfunc⟩ := H.registered hevent
    exact ⟨op, by rw [hfunc]; exact Option.some_ne_none func⟩
  constructor
  · intro fd
    refine ⟨hregistered, ?_⟩
    rintro ⟨op, hop⟩
    obtain ⟨bit, -, hi⟩ := hwatched hop
    rw [hi]
    exact Option.some_ne_none _
  · intro fd h
    obtain ⟨op, hop⟩ := hregistered h
    refine ⟨op, hop, ?_⟩
    intro op' hop'
    obtain ⟨func, hfunc⟩ := Option.ne_none_iff_exists'.mp hop
    obtain ⟨func', hfunc'⟩ := Option.ne_none_iff_exists'.mp hop'
    exact H.op_unique hfunc' hfunc
  · intro fd op event hi hop
    obtain ⟨bit, hbit, hi'⟩ := hwatched hop
    rw [hi] at hi'
    cases hi'
    exact hbit

/-- Setting or clearing one registration touches its own key only. -/
theorem allOrNothing_setFile {d : EventDispatcher F ω} {fd : Int} {op : FileOperation}
    {func : Option F} {event : Option EpollEvent}
    (hfile : func.isSome = !(d.mFiles (fd, op)).isSome)
    (hlist : event.isSome = !(d.interest fd).isSome) :
    AllOrNothing d (fd, op) (d.setFile fd op func event, true) where
  refused h := nomatch h
  files _ := by
    rw [setFile_mFiles, Function.update_self]
    exact ⟨hfile, fun key' hkey => Function.update_of_ne hkey _ _⟩
  list _ := by
    rw [setFile_interest, Function.update_self]
    exact ⟨hlist, fun fd' hfd => Function.update_of_ne hfd _ _⟩

theorem allOrNothing_refused (d : EventDispatcher F ω) (key : Int × FileOperation) :
    AllOrNothing d key (d, false) where
  refused _ := ⟨rfl, rfl⟩
  files h := nomatch h
  list h := nomatch h

theorem Tracked.addFile_allOrNothing {d : EventDispatcher F ω} (H : Tracked d) (fd : Int)
    (op : FileOperation) (func : F) (accept : Bool) :
    AllOrNothing d (fd, op) (d.addFile fd op func accept) := by
  obtain h | ⟨bit, -, hfree, h⟩ := addFile_cases d fd op func accept <;> rw [h]
  · exact allOrNothing_refused d (fd, op)
  · -- a descriptor that is not on the list has no entry in the map either
    have hfile : d.mFiles (fd, op) = none := by
      by_contra hne
      exact (H.agree.descriptors fd).mpr ⟨op, hne⟩ hfree
    refine allOrNothing_setFile ?_ ?_
    · rw [hfile]
      rfl
    · rw [hfree]
      rfl

theorem Tracked.removeFile_allOrNothing {d : EventDispatcher F ω} (H : Tracked d) (fd : Int)
    (op : FileOperation) (accept : Bool) :
    AllOrNothing d (fd, op) (d.removeFile fd op accept) := by
  obtain h | ⟨hkey, h⟩ := removeFile_cases d fd op accept <;> rw [h]
  · exact allOrNothing_refused d (fd, op)
  · have hwatched : d.interest fd ≠ none := (H.agree.descriptors fd).mpr ⟨op, hkey⟩
    refine allOrNothing_setFile ?_ ?_
    · rw [Option.isSome_iff_ne_none.mpr hkey]
      rfl
    · rw [Option.isSome_iff_ne_none.mpr hwatched]
      rfl

/-- **The map and the interest list.** After any calls on a new dispatcher, whatever the
kernel accepted, the two agree, and the next `addFile` or `removeFile` changes both at its
own key and returns `true`, or changes neither and returns `false`. -/
theorem agree_after (clock : ℕ → Int) (env : ω) (rs : List (Request F)) :
    Agree (after clock env rs) ∧
    (∀ fd op func accept, AllOrNothing (after clock env rs) (fd, op)
      ((after clock env rs).addFile fd op func accept)) ∧
    ∀ fd op accept, AllOrNothing (after clock env rs) (fd, op)
      ((after clock env rs).removeFile fd op accept) := by
  have H : Tracked (after clock env rs) := tracked_after clock env rs
  exact ⟨H.agree, H.addFile_allOrNothing, H.removeFile_allOrNothing⟩

end DPFlow.EventDispatcher
