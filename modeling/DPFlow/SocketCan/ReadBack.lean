import DPFlow.SocketCan.Options
import DPFlow.SocketCan.Reachable

/-!
# Reading an option back

The base class stores a value only for a key that is there, nothing ever adds a key, and
with an open socket the backend does not even ask it to, as `applyConfigOption` answers that
it failed whatever the operating system says. So no option can be read back. What remains
of the contract is the refusal: an option that the operating system refuses leaves the
stored ones alone and a configuration error behind.

## Main definitions

* `System.ReadsBack` — what setting an option promises.
-/
namespace DPFlow.System

open CanInterface

variable {F ω : Type}

/-- What setting an option promises: one that is taken can be read back and is listed, one
that the operating system refuses changes nothing but the error, and other options are left
alone. -/
structure ReadsBack (s s' : System F ω) (opt : ConfigOption) (value : ConfigOptionValue)
    (outcome : Except String Unit) : Prop where
  taken : s.backend.state = .disconnectedState ∨ s.backend._socket ≠ -1 ∧ outcome = .ok () →
    s'.backend.configOption opt = value ∧ opt ∈ s'.backend.configOptions
  refused : s.backend._socket ≠ -1 → (∃ errno, outcome = .error errno) →
    s'.backend._configOptions = s.backend._configOptions ∧
      s'.backend.error = .configurationError
  others : ∀ o, o ≠ opt → s'.backend._configOptions o = s.backend._configOptions o

/-- An option with a value that it expects throws nothing. -/
theorem setConfigOption_returns {s : System F ω} (hopts : NoOptions s.backend.toCanInterface)
    {opt : ConfigOption} {value : ConfigOptionValue} (hvalue : Expected opt value)
    (outcome : Except String Unit) : ∃ s', s.setConfigOption opt value outcome = some s' := by
  by_cases hclosed : s.backend._socket = -1
  · rw [setConfigOption_closed hopts hclosed]
    refine hvalue.induction ?_ ?_ ?_ ?_ ?_ <;> exact fun _ => ⟨_, rfl⟩
  · rw [setConfigOption_open hclosed]
    cases outcome <;> refine hvalue.induction ?_ ?_ ?_ ?_ ?_ <;> exact fun _ => ⟨_, rfl⟩

/-- A refusal by the operating system is a configuration error. -/
theorem setConfigOption_refused {s : System F ω} (hopen : s.backend._socket ≠ -1)
    {opt : ConfigOption} {value : ConfigOptionValue} (hvalue : Expected opt value)
    (errno : String) :
    ∃ s', s.setConfigOption opt value (.error errno) = some s' ∧
      s'.backend._configOptions = s.backend._configOptions ∧
      s'.backend.error = .configurationError := by
  rw [setConfigOption_open hopen]
  refine hvalue.induction ?_ ?_ ?_ ?_ ?_ <;> exact fun _ => ⟨_, rfl, rfl, rfl⟩

/-- **Only refusals keep the promise.** In every reachable state, setting any option to a
value that it expects does what it promises exactly when the interface is connected and the
operating system refuses. -/
theorem setConfigOption_readsBack_iff {func : F} {s : System F ω} (h : Reachable func s)
    {opt : ConfigOption} {value : ConfigOptionValue} (hvalue : Expected opt value)
    (outcome : Except String Unit) :
    ∃ s', s.setConfigOption opt value outcome = some s' ∧
      (ReadsBack s s' opt value outcome ↔
        s.backend.state = .connectedState ∧ ∃ errno, outcome = .error errno) := by
  have H := h.wired
  obtain ⟨s', hset⟩ := setConfigOption_returns H.options hvalue outcome
  have H' := H.setConfigOption hset
  refine ⟨s', hset, ?_, ?_⟩
  · intro hreads
    have hunlisted : opt ∉ s'.backend.configOptions := by
      rw [configOptions_eq_nil H'.options]
      exact List.not_mem_nil
    have huntaken := mt hreads.taken fun htaken => hunlisted htaken.2
    rw [not_or, not_and] at huntaken
    have hconn : s.backend.state = .connectedState := H.settled.resolve_left huntaken.1
    have hopen : s.backend._socket ≠ -1 := by
      have := H.socket hconn
      omega
    refine ⟨hconn, ?_⟩
    cases outcome with
    | error errno => exact ⟨errno, rfl⟩
    | ok u => exact absurd rfl (huntaken.2 hopen)
  · rintro ⟨hconn, errno, rfl⟩
    refine ⟨?_, ?_, ?_⟩
    · rintro (hdisc | ⟨-, hok⟩)
      · rw [hconn] at hdisc
        cases hdisc
      · cases hok
    · rintro hopen -
      obtain ⟨t, hrefused, hstored, herror⟩ := setConfigOption_refused hopen hvalue errno
      rw [hset] at hrefused
      cases hrefused
      exact ⟨hstored, herror⟩
    · intro o _
      rw [show s'.backend._configOptions = _ from H'.options,
        show s.backend._configOptions = _ from H.options]

/-- The loopback option of a new backend. -/
theorem setConfigOption_readsBack_loopback :
    ∃ s', start.setConfigOption .cfgOptLoopback (.bool true) (.ok ()) = some s' ∧
      (ReadsBack start s' .cfgOptLoopback (.bool true) (.ok ()) ↔
        start.backend.state = .connectedState ∧ ∃ errno, (.ok () : Except String Unit) =
          .error errno) :=
  setConfigOption_readsBack_iff (.new new_start : Reachable () start)
    (show Expected .cfgOptLoopback (.bool true) from trivial) (.ok ())

/-- It cannot be read back. -/
theorem setConfigOption_readsBack_fails : ¬ ∀ (s s' : System Unit Unit) (opt : ConfigOption)
    (value : ConfigOptionValue) (outcome : Except String Unit), Reachable () s →
    opt ≠ .cfgOptOther → Expected opt value → s.setConfigOption opt value outcome = some s' →
    ReadsBack s s' opt value outcome := by
  intro h
  have hreads := h start start .cfgOptLoopback (.bool true) (.ok ()) (.new new_start) (by decide)
    trivial rfl
  exact absurd (hreads.taken (.inl rfl)).2 (by decide)

end DPFlow.System
