import DPFlow.CanInterface.Basic
import Mathlib.Data.List.Chain

/-!
# Connecting and disconnecting the base class

`connect` and `disconnect` set the pending states and leave the rest to `open` and
`close`, which a backend implements. What a backend does there to the base class is a
list of calls of the protected methods, together with the result of `open`; the receive
queue and its lock are private.

## Main definitions

* `CanInterface.Opening` — what one run of `open` did.
* `CanInterface.connect`, `CanInterface.disconnect` — the two calls of the user.
* `CanInterface.announced` — the states that `connectionStateChanged` was emitted with.
* `CanInterface.Coherent` — the announced states step as they should, and end in the
  present one.
* `CanInterface.Opening.Honest` — `open` sets the connected state just when it succeeds.
-/
namespace DPFlow.CanInterface

/-! ## The two calls -/

/-- A call of a protected method, made by `open` or `close`. -/
inductive HookCall
  | setState (newState : CanConnectionState)
  | setError (errorMessage : String) (error : CanBusError)
  | clearError
  deriving DecidableEq, Repr

def hookCall (i : CanInterface) : HookCall → CanInterface
  | .setState newState => i.setState newState
  | .setError errorMessage error => i.setError errorMessage error
  | .clearError => i.clearError

/-- The calls of one run of `open` or `close`, in order. -/
def hook (i : CanInterface) (calls : List HookCall) : CanInterface := calls.foldl hookCall i

/-- What one run of `open` did: its calls, and its result. -/
structure Opening where
  calls : List HookCall
  ok : Bool
  deriving DecidableEq, Repr

/-- `connect`. -/
def connect (i : CanInterface) (opening : Opening) : Bool × CanInterface :=
  if i._state ≠ .disconnectedState then
    (false, i.setError "Disconnect before connecting" .connectionError)
  else
    let i := i.setState .connectionPendingState
    let i := i.hook opening.calls
    if !opening.ok then (false, i.setState .disconnectedState)
    else (true, i.clearError)

/-- `disconnect`, with the calls that `close` makes. -/
def disconnect (i : CanInterface) (close : List HookCall) : CanInterface :=
  if i._state = .disconnectedState ∨ i._state = .disconnectPendingState then i
  else (i.setState .disconnectPendingState).hook close

@[simp] theorem hook_nil (i : CanInterface) : i.hook [] = i := rfl
@[simp] theorem hook_cons (i : CanInterface) (c : HookCall) (cs : List HookCall) :
    i.hook (c :: cs) = (i.hookCall c).hook cs := rfl

/-! ## What they leave alone -/

/-- The queue and its lock are the same in both. -/
def SameQueue (i i' : CanInterface) : Prop :=
  i'._rxFrames = i._rxFrames ∧ i'._rxLock = i._rxLock

theorem SameQueue.trans {i i' i'' : CanInterface} (h : SameQueue i i') (h' : SameQueue i' i'') :
    SameQueue i i'' := ⟨h'.1.trans h.1, h'.2.trans h.2⟩

theorem sameQueue_setState (i : CanInterface) (newState : CanConnectionState) :
    SameQueue i (i.setState newState) := by
  rw [setState]
  split_ifs <;> exact ⟨rfl, rfl⟩

theorem sameQueue_hookCall (i : CanInterface) (c : HookCall) : SameQueue i (i.hookCall c) := by
  cases c with
  | setState newState => exact sameQueue_setState i newState
  | setError errorMessage error => exact ⟨rfl, rfl⟩
  | clearError => exact ⟨rfl, rfl⟩

theorem sameQueue_hook (i : CanInterface) (calls : List HookCall) :
    SameQueue i (i.hook calls) := by
  induction calls generalizing i with
  | nil => exact ⟨rfl, rfl⟩
  | cons c cs ih => exact (sameQueue_hookCall i c).trans (ih _)

/-- Connecting never touches the queue, whatever `open` answers. -/
theorem sameQueue_connect (i : CanInterface) (opening : Opening) :
    SameQueue i (i.connect opening).2 := by
  have hopen : SameQueue i ((i.setState .connectionPendingState).hook opening.calls) :=
    (sameQueue_setState i _).trans (sameQueue_hook _ _)
  rw [connect]
  split_ifs
  · exact ⟨rfl, rfl⟩
  · exact hopen.trans (sameQueue_setState _ _)
  · exact hopen.trans ⟨rfl, rfl⟩

theorem sameQueue_disconnect (i : CanInterface) (close : List HookCall) :
    SameQueue i (i.disconnect close) := by
  rw [disconnect]
  split_ifs
  · exact ⟨rfl, rfl⟩
  · exact (sameQueue_setState i _).trans (sameQueue_hook _ _)

/-! ## The announced states -/

/-- The states that `connectionStateChanged` was emitted with, oldest first. -/
def announced (i : CanInterface) : List CanConnectionState :=
  i.emitted.filterMap fun
    | .connectionStateChanged state => some state
    | _ => none

/-- The steps of the connection state. -/
inductive CanConnectionState.Next : CanConnectionState → CanConnectionState → Prop
  | connecting : Next .disconnectedState .connectionPendingState
  | connected : Next .connectionPendingState .connectedState
  | failed : Next .connectionPendingState .disconnectedState
  | disconnecting : Next .connectedState .disconnectPendingState
  | disconnected : Next .disconnectPendingState .disconnectedState

/-- The announced states, prefixed by the one of the constructor, only ever step as they
should, and end in the present state. -/
structure Coherent (i : CanInterface) : Prop where
  steps : List.IsChain CanConnectionState.Next (.disconnectedState :: i.announced)
  ends : (.disconnectedState :: i.announced).getLast? = some i._state

theorem coherent_init : Coherent init := ⟨.singleton _, rfl⟩

@[simp] theorem setError_announced (i : CanInterface) (errorMessage : String)
    (error : CanBusError) : (i.setError errorMessage error).announced = i.announced := by
  simp [setError, emit, announced]

theorem setState_announced {i : CanInterface} {newState : CanConnectionState}
    (h : newState ≠ i._state) : (i.setState newState).announced = i.announced ++ [newState] := by
  rw [setState, if_neg h]
  simp [emit, announced]

namespace Coherent
variable {i : CanInterface}

/-- Only the state and what was announced matter. -/
theorem congr {i' : CanInterface} (H : Coherent i) (ha : i'.announced = i.announced)
    (hs : i'._state = i._state) : Coherent i' where
  steps := by rw [ha]; exact H.steps
  ends := by rw [ha, hs]; exact H.ends

theorem setError (H : Coherent i) (errorMessage : String) (error : CanBusError) :
    Coherent (i.setError errorMessage error) :=
  H.congr (setError_announced i errorMessage error) rfl

theorem clearError (H : Coherent i) : Coherent i.clearError := H.congr rfl rfl

/-- A step of the state is announced. -/
theorem setState (H : Coherent i) {newState : CanConnectionState}
    (h : CanConnectionState.Next i._state newState) : Coherent (i.setState newState) := by
  have hne : newState ≠ i._state := by
    rintro rfl
    generalize i._state = state at h
    cases h
  constructor
  · rw [setState_announced hne, ← List.cons_append]
    refine H.steps.append (.singleton _) ?_
    intro last hlast new hnew
    rw [H.ends] at hlast
    cases hlast
    cases hnew
    exact h
  · rw [setState_announced hne, ← List.cons_append, List.getLast?_append, setState_state]
    rfl

/-- Setting errors announces nothing. -/
theorem hook_setError (H : Coherent i) {calls : List HookCall}
    (hcalls : ∀ c ∈ calls, ∃ errorMessage error, c = .setError errorMessage error) :
    Coherent (i.hook calls) ∧ (i.hook calls)._state = i._state := by
  induction calls generalizing i with
  | nil => exact ⟨H, rfl⟩
  | cons c cs ih =>
      obtain ⟨errorMessage, error, rfl⟩ := hcalls c List.mem_cons_self
      exact ih (H.setError errorMessage error) fun c hc => hcalls c (List.mem_cons_of_mem _ hc)

end Coherent

/-! ## Backends that keep to the states -/

/-- `open` sets the connected state and nothing else, and succeeds; or it sets errors and
fails. -/
structure Opening.Honest (opening : Opening) : Prop where
  opens : opening.ok = true → opening.calls = [.setState .connectedState]
  fails : opening.ok = false →
    ∀ c ∈ opening.calls, ∃ errorMessage error, c = .setError errorMessage error

/-- Between two calls there is no pending state. -/
def Settled (i : CanInterface) : Prop :=
  i._state = .disconnectedState ∨ i._state = .connectedState

section honest
variable {i : CanInterface}

/-- `connect` on a backend that keeps to the states: it ends in a state that is not pending,
announces its way there, and returns `true` just when it has connected the interface. -/
theorem connect_honest (H : Coherent i) (hstate : Settled i) {opening : Opening}
    (ho : opening.Honest) :
    Coherent (i.connect opening).2 ∧ Settled (i.connect opening).2 ∧
      ((i.connect opening).1 = true ↔
        i._state = .disconnectedState ∧ (i.connect opening).2._state = .connectedState) := by
  by_cases hdisc : i._state = .disconnectedState
  · have Hpending : Coherent (i.setState .connectionPendingState) :=
      H.setState (by rw [hdisc]; exact .connecting)
    have hpending : (i.setState .connectionPendingState)._state = .connectionPendingState :=
      setState_state _ _
    rw [connect, if_neg (not_not_intro hdisc)]
    cases hok : opening.ok with
    | true =>
        have Hconn : Coherent ((i.setState .connectionPendingState).setState .connectedState) :=
          Hpending.setState (by rw [hpending]; exact .connected)
        simp only [ho.opens hok, hook_cons, hook_nil, hookCall, Bool.not_true,
          Bool.false_eq_true, if_false]
        refine ⟨Hconn.clearError, .inr (setState_state _ _), ?_⟩
        exact iff_of_true trivial ⟨hdisc, setState_state _ _⟩
    | false =>
        obtain ⟨Hfail, hfail⟩ := Hpending.hook_setError (ho.fails hok)
        simp only [Bool.not_false, if_true]
        refine ⟨Hfail.setState ?_, .inl (setState_state _ _), ?_⟩
        · rw [hfail, hpending]
          exact .failed
        · simp
  · rw [connect, if_pos hdisc]
    refine ⟨H.setError _ _, hstate, ?_⟩
    simp [hdisc]

/-- `disconnect` on a backend whose `close` sets the disconnected state. -/
theorem disconnect_honest (H : Coherent i) (hstate : Settled i) :
    Coherent (i.disconnect [.setState .disconnectedState]) ∧
      (i.disconnect [.setState .disconnectedState])._state = .disconnectedState := by
  rw [disconnect]
  obtain hdisc | hconn := hstate
  · rw [if_pos (.inl hdisc)]
    exact ⟨H, hdisc⟩
  · have hlive : ¬ (i._state = .disconnectedState ∨ i._state = .disconnectPendingState) := by
      rw [hconn]
      decide
    have Hpending : Coherent (i.setState .disconnectPendingState) :=
      H.setState (by rw [hconn]; exact .disconnecting)
    rw [if_neg hlive]
    refine ⟨Hpending.setState ?_, setState_state _ _⟩
    rw [setState_state]
    exact .disconnected

end honest

end DPFlow.CanInterface
