import DPFlow.CanFrame.Basic
import DPFlow.Lib.Script

/-!
# The CAN interface base class

The base class owns the receive queue, its mutex, the error fields, the connection
state and the option map. The mutex is not recursive and everything here runs in one
thread, so the model carries it as a flag and locking a held mutex never returns.
A slot of `framesReceived` is a script over the public receive operations.

## Main definitions

* `CanInterface` — the members, with a log of the signals that were emitted.
* `CanInterface.recv`, `recvAll`, `flushRx`, `countRxPending` — the receive operations.
* `CanInterface.enqueueRxFrames` — the backend's delivery, which runs the slot.
* `CanInterface.enqueueTxFrame`, `dequeueTxFrame`, `flushTx` — the transmit queue.
-/
namespace DPFlow

/-- `CanBusError`. -/
inductive CanInterface.CanBusError
  | noError
  | rxError
  | txError
  | connectionError
  | configurationError
  | unknownError
  | operationError
  | timeoutError
  deriving DecidableEq, Repr

/-- `CanConnectionState`. -/
inductive CanInterface.CanConnectionState
  | disconnectedState
  | connectionPendingState
  | connectedState
  | disconnectPendingState
  deriving DecidableEq, Repr

/-- `ConfigOption`. -/
inductive CanInterface.ConfigOption
  | cfgOptLoopback
  | cfgOptRxOwn
  | cfgOptBitrate
  | cfgOptFD
  | cfgOptOther
  deriving DecidableEq, Repr

/-- `ConfigOptionValue`, a variant; a `double` is kept as its bits. -/
inductive CanInterface.ConfigOptionValue
  | int (n : Int32)
  | double (bits : UInt64)
  | bool (b : Bool)
  | string (s : String)
  deriving DecidableEq, Repr

/-- An emission of one of the signals. -/
inductive CanInterface.Signal
  | errorOccurred (error : CanBusError)
  | connectionStateChanged (state : CanConnectionState)
  | framesReceived
  deriving DecidableEq, Repr

/-- The members of an interface, and the signals it has emitted so far. -/
structure CanInterface where
  _rxFrames : List CanFrame
  _rxLock : Bool
  _txFrames : List CanFrame
  _configOptions : CanInterface.ConfigOption → Option CanInterface.ConfigOptionValue
  _lastError : CanInterface.CanBusError
  _state : CanInterface.CanConnectionState
  _errorMessage : String
  emitted : List CanInterface.Signal

namespace CanInterface

open Lib

/-- The constructor. -/
def init : CanInterface :=
  { _rxFrames := []
    _rxLock := false
    _txFrames := []
    _configOptions := fun _ => none
    _lastError := .noError
    _state := .disconnectedState
    _errorMessage := ""
    emitted := [] }

def emit (i : CanInterface) (signal : Signal) : CanInterface :=
  { i with emitted := i.emitted ++ [signal] }

/-! ## Errors, state and options -/

def error (i : CanInterface) : CanBusError := i._lastError

def errorMessage (i : CanInterface) : String :=
  if i._lastError = .noError then "" else i._errorMessage

def setError (i : CanInterface) (errorMessage : String) (error : CanBusError) : CanInterface :=
  { i with _errorMessage := errorMessage, _lastError := error }.emit (.errorOccurred error)

def clearError (i : CanInterface) : CanInterface :=
  { i with _errorMessage := "", _lastError := .noError }

def state (i : CanInterface) : CanConnectionState := i._state

/-- `setState`: no signal when nothing changes. -/
def setState (i : CanInterface) (newState : CanConnectionState) : CanInterface :=
  if newState = i._state then i
  else { i with _state := newState }.emit (.connectionStateChanged newState)

@[simp] theorem setState_state (i : CanInterface) (newState : CanConnectionState) :
    (i.setState newState)._state = newState := by
  rw [setState]
  split_ifs with h
  · exact h.symm
  · rfl

@[simp] theorem setState_configOptions (i : CanInterface) (newState : CanConnectionState) :
    (i.setState newState)._configOptions = i._configOptions := by
  rw [setState]
  split_ifs <;> rfl

/-- `setConfigOption` of the base class: only a key that is there gets a value. -/
def setConfigOption (i : CanInterface) (opt : ConfigOption) (value : ConfigOptionValue) :
    CanInterface :=
  if (i._configOptions opt).isSome then
    { i with _configOptions := fun o => if o = opt then some value else i._configOptions o }
  else i

/-- `configOption`; the default of the variant is its first alternative's. -/
def configOption (i : CanInterface) (opt : ConfigOption) : ConfigOptionValue :=
  (i._configOptions opt).getD (.int 0)

/-- `configOptions`: the keys in the order of the map. -/
def configOptions (i : CanInterface) : List ConfigOption :=
  [.cfgOptLoopback, .cfgOptRxOwn, .cfgOptBitrate, .cfgOptFD, .cfgOptOther].filter
    fun opt => (i._configOptions opt).isSome

theorem configOptions_eq_nil {i : CanInterface} (h : i._configOptions = fun _ => none) :
    i.configOptions = [] := by
  simp [configOptions, h]

/-! ## The receive queue -/

/-- The one way an operation here may fail to return: `_rxLock` is locked by the
thread that holds it. -/
inductive Deadlock
  | rxLock
  deriving DecidableEq, Repr

/-- The constructor of a `lock_guard` on `_rxLock`. -/
def lockRx (i : CanInterface) : Except Deadlock CanInterface :=
  if i._rxLock then .error .rxLock else .ok { i with _rxLock := true }

/-- Its destructor. -/
def unlockRx (i : CanInterface) : CanInterface := { i with _rxLock := false }

/-- `countRxPending` takes no lock. -/
def countRxPending (i : CanInterface) : ℕ := i._rxFrames.length

def flushRx (i : CanInterface) : Except Deadlock CanInterface := do
  let i ← i.lockRx
  let i := { i with _rxFrames := [] }
  return i.unlockRx

def recv (i : CanInterface) : Except Deadlock (CanFrame × CanInterface) :=
  if i._state ≠ .connectedState then
    return (.ofType .invalidFrame,
      i.setError "Cannot receive while interface is disconnected" .operationError)
  else do
    let i := i.clearError
    let i ← i.lockRx
    match i._rxFrames with
    | [] => return (.ofType .invalidFrame, i.unlockRx)
    | front :: _ => return (front, i.unlockRx)

def recvAll (i : CanInterface) : Except Deadlock (List CanFrame × CanInterface) :=
  if i._state ≠ .connectedState then
    return ([], i.setError "Cannot receive while interface is disconnected" .operationError)
  else do
    let i := i.clearError
    let i ← i.lockRx
    let frames := i._rxFrames
    let i := { i with _rxFrames := [] }
    return (frames, i.unlockRx)

/-! ## The transmit queue -/

/-- `countTxPending`. -/
def countTxPending (i : CanInterface) : ℕ := i._txFrames.length

def enqueueTxFrame (i : CanInterface) (frame : CanFrame) : CanInterface :=
  { i with _txFrames := i._txFrames ++ [frame] }

/-- `dequeueTxFrame` returns the front of the queue, and leaves it there. -/
def dequeueTxFrame (i : CanInterface) : CanFrame × CanInterface :=
  match i._txFrames with
  | [] => (.ofType .invalidFrame, i)
  | front :: _ => (front, i)

def flushTx (i : CanInterface) : CanInterface := { i with _txFrames := [] }

/-! ## Slots of `framesReceived` -/

/-- The public operations on the receive queue. -/
inductive RxCall
  | recv
  | recvAll
  | flushRx
  | countRxPending
  deriving DecidableEq, Repr

/-- What each of them returns. -/
abbrev RxCall.Result : RxCall → Type
  | .recv => CanFrame
  | .recvAll => List CanFrame
  | .flushRx => Unit
  | .countRxPending => ℕ

/-- A slot: which operations it calls may depend on what they returned before. -/
abbrev Slot := Script RxCall RxCall.Result

/-- A slot's call. -/
def rxCall : (q : RxCall) → CanInterface → Except Deadlock (q.Result × CanInterface)
  | .recv, i => i.recv
  | .recvAll, i => i.recvAll
  | .flushRx, i => i.flushRx.map fun i => ((), i)
  | .countRxPending, i => .ok (i.countRxPending, i)

/-- The slot installed in `main.cpp`, for at most `n` turns of its loop. -/
def drainSlot : ℕ → Slot
  | 0 => .done
  | n + 1 => .call .recv fun frame =>
      if frame.frameType ≠ .invalidFrame then drainSlot n else .done

/-- `enqueueRxFrames`: the slot runs inside the scope of the `lock_guard`. -/
def enqueueRxFrames (slot : Slot) (frames : List CanFrame) (i : CanInterface) :
    Except Deadlock CanInterface := do
  let i ← i.lockRx
  let i := { i with _rxFrames := i._rxFrames ++ frames }
  let i := i.emit .framesReceived
  let i ← slot.run rxCall i
  return i.unlockRx

end CanInterface
end DPFlow
