import DPFlow.CanFrame.Basic
import DPFlow.Lib.Mealy

/-!
# Runs of setter calls

The flags for the bit rate switch and for the error state belong to flexible-rate frames.
`setFD` clears both, and `setBitrateSwitch` raises the frame's kind along with its flag;
`setErrorState` sets its flag on a frame of either kind. So a frame keeps the flags of its
kind through any calls exactly when the error state is only raised on frames that are
flexible-rate ones by then.

## Main definitions

* `CanFrame.Setter` — a call of a setter, with its argument.
* `CanFrame.setters` — a frame under one call after another.
* `CanFrame.FlagsFD` — the flags of flexible-rate frames are on such frames only.
-/
namespace DPFlow.CanFrame

open Lib

/-- A call of a constructor. -/
inductive Constructor
  | ofType (type : FrameType)
  | ofData (id : BitVec 64) (data : List UInt8)

/-- The new frame. -/
def Constructor.make : Constructor → CanFrame
  | ofType type => CanFrame.ofType type
  | ofData id data => CanFrame.ofData id data

/-- A call of a public setter. -/
inductive Setter
  | setFrameType (newType : FrameType)
  | setExtendedId (isExtended : Bool)
  | setId (newId : BitVec 64)
  | setPayload (data : List UInt8)
  | setTimestamp (ts : Timestamp)
  | setError (err : BitVec 32)
  | setFD (isFD : Bool)
  | setBitrateSwitch (brs : Bool)
  | setErrorState (es : Bool)
  | setLocalEcho (echo : Bool)

/-- The frame after the call. -/
def Setter.call (f : CanFrame) : Setter → CanFrame
  | setFrameType newType => f.setFrameType newType
  | setExtendedId isExtended => f.setExtendedId isExtended
  | setId newId => f.setId newId
  | setPayload data => f.setPayload data
  | setTimestamp ts => f.setTimestamp ts
  | setError err => f.setError err
  | setFD isFD => f.setFD isFD
  | setBitrateSwitch brs => f.setBitrateSwitch brs
  | setErrorState es => f.setErrorState es
  | setLocalEcho echo => f.setLocalEcho echo

/-- A frame under one call after another. -/
def setters : Mealy CanFrame Setter Unit where
  step f s := (s.call f, [])

/-- The flags of flexible-rate frames are on such frames only. -/
def FlagsFD (f : CanFrame) : Prop :=
  f.isBitrateSwitch = true ∨ f.isErrorState = true → f.isFD = true

theorem Constructor.reachable_make (c : Constructor) : Reachable c.make := by
  cases c with
  | ofType type => exact .ofType type
  | ofData id data => exact .ofData id data

theorem Setter.reachable_call {f : CanFrame} (h : Reachable f) (s : Setter) :
    Reachable (s.call f) := by
  cases s with
  | setFrameType newType => exact h.setFrameType newType
  | setExtendedId isExtended => exact h.setExtendedId isExtended
  | setId newId => exact h.setId newId
  | setPayload data => exact h.setPayload data
  | setTimestamp ts => exact h.setTimestamp ts
  | setError err => exact h.setError err
  | setFD isFD => exact h.setFD isFD
  | setBitrateSwitch brs => exact h.setBitrateSwitch brs
  | setErrorState es => exact h.setErrorState es
  | setLocalEcho echo => exact h.setLocalEcho echo

theorem reachable_setters (c : Constructor) (calls : List Setter) :
    Reachable (setters.state c.make calls) :=
  setters.state_induction Reachable c.make calls c.reachable_make
    fun _ s _ h => s.reachable_call h

theorem Constructor.not_isErrorState (c : Constructor) : c.make.isErrorState = false := by
  cases c with
  | ofType type => rfl
  | ofData id data =>
      change (setId _ id)._isErrorState = false
      rw [setId]
      split <;> rfl

/-- The bit rate switch looks after itself. -/
theorem Reachable.flagsFD_iff {f : CanFrame} (h : Reachable f) :
    FlagsFD f ↔ (f.isErrorState = true → f.isFD = true) := by
  constructor
  · exact fun hflags hes => hflags (.inr hes)
  · rintro hes (hbrs | hflag)
    · exact h.isFD_of_isBRS hbrs
    · exact hes hflag

/-- **One call** keeps the flags to their kind unless it raises the error state on a frame
of the other. -/
theorem Setter.flagsFD_call_iff {f : CanFrame} (h : Reachable f) (hf : FlagsFD f) (s : Setter) :
    FlagsFD (s.call f) ↔ (s = .setErrorState true → f.isFD = true) := by
  have hes := h.flagsFD_iff.mp hf
  rw [(s.reachable_call h).flagsFD_iff]
  cases s with
  | setErrorState es =>
      cases es with
      | true => exact ⟨fun hcall _ => hcall rfl, fun hcall _ => hcall rfl⟩
      | false => exact iff_of_true (fun hraised => absurd hraised Bool.false_ne_true) (by simp)
  | setFrameType newType => exact iff_of_true hes (by simp)
  | setExtendedId isExtended => exact iff_of_true hes (by simp)
  | setTimestamp ts => exact iff_of_true hes (by simp)
  | setLocalEcho echo => exact iff_of_true hes (by simp)
  | setId newId =>
      refine iff_of_true ?_ (by simp)
      change (f.setId newId)._isErrorState = true → (f.setId newId)._isFD = true
      rw [CanFrame.setId]
      split <;> exact hes
  | setPayload data =>
      refine iff_of_true ?_ (by simp)
      exact fun hraised => Bool.or_eq_true_iff.mpr (.inl (hes hraised))
  | setError err =>
      refine iff_of_true ?_ (by simp)
      change (f.setError err)._isErrorState = true → (f.setError err)._isFD = true
      rw [CanFrame.setError]
      split <;> exact hes
  | setFD isFD =>
      refine iff_of_true ?_ (by simp)
      exact fun hraised => (Bool.and_eq_true_iff.mp hraised).1
  | setBitrateSwitch brs =>
      refine iff_of_true ?_ (by simp)
      exact fun hraised => Bool.or_eq_true_iff.mpr (.inr (hes hraised))

/-- A run keeps the flags to their kind exactly when it raises the error state on
flexible-rate frames only. -/
theorem flagsFD_setters_iff (c : Constructor) (calls : List Setter) :
    (∀ pre, pre <+: calls → FlagsFD (setters.state c.make pre)) ↔
      ∀ p ∈ setters.visits c.make calls, p.2 = .setErrorState true → p.1.isFD = true := by
  refine setters.forall_prefix_iff FlagsFD
    (fun p => p.2 = .setErrorState true → p.1.isFD = true) c.make calls ?_ ?_
  · rw [c.reachable_make.flagsFD_iff, c.not_isErrorState]
    exact fun h => nomatch h
  · intro p hp hflags
    obtain ⟨pre, -, hs⟩ := setters.mem_visits_iff.mp hp
    exact p.2.flagsFD_call_iff (hs ▸ reachable_setters c pre) hflags

end DPFlow.CanFrame
