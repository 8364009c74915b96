import DPFlow.EventDispatcher.Registration

/-!
# Which file callbacks a turn runs

Registration stores a callback under its descriptor and operation, and asks the
kernel for that operation's bit on that descriptor. A result of `epoll_wait`
carries the descriptor in `data.fd` and the reported bits in `events`;
`processEvents` reads the two the other way round. The key it builds is then never
the key of the registration the result is about.

## Main definitions

* `EventDispatcher.Reportable` — the results `epoll_wait` can report.
* `EventDispatcher.storedFor` — the registration a result is about.
* `EventDispatcher.stored` — the same for every result of a turn, at its turn.
-/
namespace DPFlow.EventDispatcher

variable {F ω : Type}

/-! ## Results -/

/-- The result reports the operation's bit. -/
def EpollEvent.reports (event : EpollEvent) (op : FileOperation) : Prop :=
  ∃ bit ∈ op.epollBit, event.events &&& bit = bit

instance (event : EpollEvent) (op : FileOperation) : Decidable (event.reports op) :=
  match h : op.epollBit with
  | none => isFalse (by simp [EpollEvent.reports, h])
  | some bit => decidable_of_iff (event.events &&& bit = bit) (by simp [EpollEvent.reports, h])

/-- A result that `epoll_wait` can report: a descriptor on the interest list, and a
mask with the bit that was asked for. -/
def Reportable (d : EventDispatcher F ω) (event : EpollEvent) : Prop :=
  ∃ requested ∈ d.interest event.fd,
    event.events &&& requested.events = requested.events

/-- The registration a result is about: that of its descriptor, for an operation
whose bit it reports. -/
def storedFor (d : EventDispatcher F ω) (event : EpollEvent) : Option (FileEntry F) :=
  [FileOperation.read, .write, .error].findSome? fun op =>
    if event.reports op then d.entryAt (event.fd, op) else none

/-- The results of a turn, each with the dispatcher as it is when the result's turn
comes. -/
def turns (call : Callbacks F ω) (d : EventDispatcher F ω) (events : List EpollEvent) :
    List (EventDispatcher F ω × EpollEvent) :=
  (dispatchFiles call).visits d.timeoutMs.2 events

/-- The registrations that the results of a turn are about, each as `m_files` has it
when the result's turn comes. -/
def stored (call : Callbacks F ω) (d : EventDispatcher F ω) (events : List EpollEvent) :
    List (Option (FileEntry F)) :=
  (turns call d events).map fun p => storedFor p.1 p.2

/-- The functions of the entries, where two entries may have one function. -/
def functions (entries : List (Option (FileEntry F))) : List (Option F) :=
  entries.map (Option.map Prod.snd)

/-- `m_files` has one function for a result's own registration and for the mask, read
as a descriptor, with the operation that the descriptor is the number of. -/
def SharesFunction (d : EventDispatcher F ω) (event : EpollEvent) : Prop :=
  d.mFiles (event.events.toInt, .ofInt event.fd) = (d.storedFor event).map Prod.snd

/-- `storedFor` finds an entry of the result's descriptor, for a reported operation. -/
theorem storedFor_eq_some {d : EventDispatcher F ω} {event : EpollEvent} {entry : FileEntry F}
    (h : d.storedFor event = some entry) :
    ∃ op, event.reports op ∧ entry.1 = (event.fd, op) := by
  obtain ⟨op, -, hop⟩ := List.exists_of_findSome?_eq_some h
  split_ifs at hop with hr
  rw [entryAt, Option.map_eq_some_iff] at hop
  obtain ⟨func, -, rfl⟩ := hop
  exact ⟨op, hr, rfl⟩

/-- A reportable result is about some registration. -/
theorem Tracked.storedFor_isSome {d : EventDispatcher F ω} (H : Tracked d)
    {event : EpollEvent} (hr : d.Reportable event) : (d.storedFor event).isSome := by
  obtain ⟨requested, hreq, hmask⟩ := hr
  obtain ⟨op, func, hfunc⟩ := H.registered hreq
  obtain ⟨bit, hbit, hi⟩ := H.watched hfunc
  rw [Option.mem_def, hi, Option.some.injEq] at hreq
  subst hreq
  have hrep : event.reports op := ⟨bit, hbit, hmask⟩
  rw [storedFor, List.findSome?_isSome_iff]
  refine ⟨op, ?_, by simp [hrep, entryAt, hfunc]⟩
  cases op <;> simp_all [FileOperation.epollBit]

/-! ## Dispatch -/

/-- What the loop runs for a result is what `m_files` holds under the dispatch key. -/
theorem dispatchFile_snd (call : Callbacks F ω) (d : EventDispatcher F ω)
    (event : EpollEvent) :
    (dispatchFile call d event).2 = [d.entryAt (dispatchKey event)] := by
  rw [dispatchFile, entryAt]
  cases d.mFiles (dispatchKey event) <;> simp

/-- Waiting only reads the clock. -/
@[simp] theorem timeoutMs_mFiles (d : EventDispatcher F ω) :
    d.timeoutMs.2.mFiles = d.mFiles := by
  rw [timeoutMs]
  split <;> rfl

@[simp] theorem timeoutMs_interest (d : EventDispatcher F ω) :
    d.timeoutMs.2.interest = d.interest := by
  rw [timeoutMs]
  split <;> rfl

theorem invoked_eq (call : Callbacks F ω) (fuel : ℕ) {events : List EpollEvent}
    (hlen : events.length ≤ maxEvents) (d : EventDispatcher F ω) :
    (processEvents call fuel events d).invoked =
      (turns call d events).map fun p => p.1.entryAt (dispatchKey p.2) := by
  simp only [processEvents, List.take_of_length_le hlen, turns]
  exact (dispatchFiles call).trace_eq_map_visits
    (f := fun p => p.1.entryAt (dispatchKey p.2)) (dispatchFile_snd call) _ _

/-- The number of an operation that has a bit. -/
theorem ofInt_number {n : Int} {op : FileOperation} (h : FileOperation.ofInt n = op) :
    (op = .read → n = 0) ∧ (op = .write → n = 1) ∧ (op = .error → n = 2) := by
  rw [FileOperation.ofInt] at h
  split_ifs at h <;> subst h <;> simp_all

/-- A result that reports an operation's bit is never dispatched to the key of its
descriptor and that operation: the mask would have to be the descriptor and the
descriptor the operation's number, and no operation's number has its bit. -/
theorem dispatchKey_ne {event : EpollEvent} {op : FileOperation} (h : event.reports op) :
    dispatchKey event ≠ (event.fd, op) := by
  obtain ⟨bit, hbit, hmask⟩ := h
  intro hkey
  simp only [dispatchKey, Prod.mk.injEq] at hkey
  obtain ⟨hfd, hop⟩ := hkey
  rw [← hfd] at hop
  cases op with
  | other n => cases hbit
  | read =>
      cases hbit
      have hmask0 : event.events = 0#32 := BitVec.eq_of_toInt_eq ((ofInt_number hop).1 rfl)
      exact absurd hmask (by rw [hmask0]; decide)
  | write =>
      cases hbit
      have hmask1 : event.events = 1#32 := BitVec.eq_of_toInt_eq ((ofInt_number hop).2.1 rfl)
      exact absurd hmask (by rw [hmask1]; decide)
  | error =>
      cases hbit
      have hmask2 : event.events = 2#32 := BitVec.eq_of_toInt_eq ((ofInt_number hop).2.2 rfl)
      exact absurd hmask (by rw [hmask2]; decide)

/-- The entry run for a reportable result is not the one stored for it. -/
theorem entryAt_dispatchKey_ne {d : EventDispatcher F ω} {event : EpollEvent}
    (h : (d.storedFor event).isSome) : d.entryAt (dispatchKey event) ≠ d.storedFor event := by
  obtain ⟨entry, hentry⟩ := Option.isSome_iff_exists.mp h
  obtain ⟨op, hrep, hkey⟩ := storedFor_eq_some hentry
  rw [hentry]
  intro hrun
  obtain ⟨func, -, hrun⟩ := Option.map_eq_some_iff.mp hrun
  rw [← hrun] at hkey
  exact dispatchKey_ne hrep hkey

/-- **What one turn runs.** After any requests, and on any results that `epoll_wait`
can report, the entries of `m_files` that a turn runs are those stored for its
results only if there is no result at all. -/
theorem processEvents_invoked_iff (call : Callbacks F ω) (fuel : ℕ) (clock : ℕ → Int)
    (env : ω) (rs : List (Request F)) {events : List EpollEvent}
    (hlen : events.length ≤ maxEvents)
    (hrep : ∀ event ∈ events, (after clock env rs).Reportable event) :
    (processEvents call fuel events (after clock env rs)).invoked =
      stored call (after clock env rs) events ↔ events = [] := by
  rw [invoked_eq call fuel hlen]
  constructor
  · intro h
    cases events with
    | nil => rfl
    | cons event events =>
        have hfirst := (List.cons.inj h).1
        refine absurd hfirst (entryAt_dispatchKey_ne ?_)
        -- the first result's turn comes before any callback has run
        have H : Tracked (after clock env rs).timeoutMs.2 :=
          (tracked_after clock env rs).congr (timeoutMs_mFiles _) (timeoutMs_interest _)
        refine H.storedFor_isSome ?_
        rw [Reportable, timeoutMs_interest]
        exact hrep event List.mem_cons_self
  · rintro rfl
    rfl

/-- Descriptor 0 is registered for reading; one result is about it. -/
theorem processEvents_invoked_read_zero :
    let d := after (F := Unit) (fun _ => 0) () [.addFile 0 .read () true]
    let events : List EpollEvent := [⟨0x001, 0⟩]
    (processEvents (fun _ d => d) 0 events d).invoked = stored (fun _ d => d) d events ↔
      events = [] :=
  processEvents_invoked_iff (fun _ d => d) 0 (fun _ => 0) () [.addFile 0 .read () true]
    (by decide) (by
      intro event hevent
      rw [List.mem_singleton] at hevent
      subst hevent
      exact ⟨⟨0x001, 0⟩, by decide, by decide⟩)

/-- Told apart by their functions only, what a turn runs and what it should run agree just
when, at every result's turn, the registration reached by mistake shares its function with
the right one. -/
theorem processEvents_functions_iff (call : Callbacks F ω) (fuel : ℕ) {events : List EpollEvent}
    (hlen : events.length ≤ maxEvents) (d : EventDispatcher F ω) :
    functions (processEvents call fuel events d).invoked = functions (stored call d events) ↔
      ∀ p ∈ turns call d events, p.1.SharesFunction p.2 := by
  rw [invoked_eq call fuel hlen, stored, functions, functions, List.map_map, List.map_map,
    List.map_inj_left]
  simp only [Function.comp_apply, entryAt, Option.map_map, Function.comp_def, Option.map_id',
    SharesFunction, dispatchKey]

/-- Descriptors 0 and 1 are registered for reading; on a result about 0, the turn runs
the callback of 1. -/
theorem processEvents_runs_other :
    let d := after (F := Bool) (fun _ => 0) ()
      [.addFile 0 .read false true, .addFile 1 .read true true]
    let events : List EpollEvent := [⟨0x001, 0⟩]
    events.length ≤ maxEvents ∧ (∀ event ∈ events, d.Reportable event) ∧
    stored (fun _ d => d) d events = [some ((0, .read), false)] ∧
    (processEvents (fun _ d => d) 0 events d).invoked = [some ((1, .read), true)] ∧
    (processEvents (fun _ d => d) 0 events d).invoked ≠ stored (fun _ d => d) d events := by
  refine ⟨by decide, ?_, by decide, by decide, by decide⟩
  intro event hevent
  rw [List.mem_singleton] at hevent
  subst hevent
  exact ⟨⟨0x001, 0⟩, by decide, by decide⟩

end DPFlow.EventDispatcher
