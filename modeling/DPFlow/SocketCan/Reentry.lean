import DPFlow.SocketCan.Scan

/-!
# Slots that call back

`setError` and `setState` emit their signals in the middle of `connect`, `disconnect` and
`setConfigOption`, and a slot may call any of these on the interface that emits. What the outer
call does afterwards it does on whatever state the slots have left. So its result says little:
an interface may be connected by a `connect` that returns `false`. But it is never left in a
pending state, it is never connected without a socket, and it has one descriptor at most.

## Main definitions

* `System.Emit` — what emitting a signal does.
* `System.Emit.connect`, `System.Emit.disconnect`, `System.Emit.setConfigOption` — the calls, with
  emissions where the source has them.
* `System.slotted`, `System.callAll` — slots that make such calls, to some depth of nesting, and
  calls of the user.
* `System.Kept` — what a call, or an emission, keeps.
-/
namespace DPFlow.System

open Lib CanInterface

variable {F ω : Type}

/-! ## The calls -/

/-- Why a call does not return: slots run too deep in each other, an exception, or an answer
that the kernel cannot give. -/
inductive Stop
  | nesting
  | badVariantAccess
  | kernel
  deriving DecidableEq, Repr

/-- What emitting a signal does. -/
abbrev Emit (F ω : Type) := Signal → System F ω → Except Stop (System F ω)

/-- What throws, where nobody catches. -/
def orThrow {α : Type} : Option α → Except Stop α
  | some a => .ok a
  | none => .error .badVariantAccess

/-- What `setConfigOption` does behind the application of the option. -/
def storeOption (s : System F ω) (opt : ConfigOption) (value : ConfigOptionValue) :
    Except Stop (System F ω) := do
  let s := { s with backend.toCanInterface :=
    s.backend.toCanInterface.setConfigOption opt value }
  if opt = .cfgOptFD then
    let on ← orThrow (getBool value)
    return { s with backend._fdEnabled := on }
  return s

namespace Emit
variable (emit : Emit F ω)

/-- `setError`. -/
def setError (s : System F ω) (message : String) (error : CanBusError) :
    Except Stop (System F ω) :=
  emit (.errorOccurred error) (s.setError message error)

/-- `setState`. -/
def setState (s : System F ω) (newState : CanConnectionState) : Except Stop (System F ω) :=
  if newState = s.backend._state then .ok s
  else emit (.connectionStateChanged newState) (s.setState newState)

/-- A `bool` option of `applyConfigOption`. -/
def applySwitch (s : System F ω) (what : String) (change : Bool → CanSocket → CanSocket)
    (value : ConfigOptionValue) (outcome : Except String Unit) :
    Except Stop (Bool × System F ω) := do
  let on ← orThrow (getBool value)
  match outcome with
  | .error errno =>
      let verb := if on then "enable" else "disable"
      let s ← emit.setError s ("Could not " ++ verb ++ " " ++ what ++ ": " ++ errno)
        .configurationError
      return (false, s)
  | .ok () => return (false, s.setsockopt (change on))

/-- `applyConfigOption`. -/
def applyConfigOption (s : System F ω) (opt : ConfigOption) (value : ConfigOptionValue)
    (outcome : Except String Unit) : Except Stop (Bool × System F ω) :=
  match opt with
  | .cfgOptBitrate => do
      let _bitrate ← orThrow (getInt value)
      match outcome with
      | .error errno =>
          let s ← emit.setError s ("Could not set bitrate: " ++ errno) .configurationError
          return (false, s)
      | .ok () => return (false, s)
  | .cfgOptLoopback =>
      emit.applySwitch s "loopback" (fun on socket => { socket with loopback := on }) value outcome
  | .cfgOptRxOwn =>
      emit.applySwitch s "receive own messages"
        (fun on socket => { socket with recvOwnMsgs := on }) value outcome
  | .cfgOptFD =>
      emit.applySwitch s "CAN fd frames" (fun on socket => { socket with fdFrames := on })
        value outcome
  | .cfgOptOther => do
      let s ← emit.setError s "Unsupported configuration option CfgOptOther" .configurationError
      return (false, s)

/-- `setConfigOption`. -/
def setConfigOption (s : System F ω) (opt : ConfigOption) (value : ConfigOptionValue)
    (outcome : Except String Unit) : Except Stop (System F ω) := do
  let (ok, s) ← if s.backend._socket ≠ -1 then emit.applyConfigOption s opt value outcome
    else .ok (true, s)
  if !ok then return s
  s.storeOption opt value

/-- The option loop of `open`. -/
def applyOptions (option : ConfigOption → Except String Unit) :
    List ConfigOption → System F ω → Except Stop (System F ω)
  | [], s => .ok s
  | opt :: opts, s => do
      let (_, s) ← emit.applyConfigOption s opt (s.backend.configOption opt) (option opt)
      applyOptions option opts s

/-- `open`. The kernel does not hand out a descriptor that is open. -/
def openSocket (func : F) (calls : OpenCalls) (s : System F ω) :
    Except Stop (Bool × System F ω) :=
  if s.backend._socket ≠ -1 then .ok (false, s)
  else match calls.socket with
    | .error errno => do
        let s ← emit.setError s ("Could not open socket: " ++ errno) .connectionError
        return (false, s)
    | .ok fd =>
        if fd < 0 ∨ s.descriptors fd ≠ none then .error .kernel
        else match calls.ifindex with
          | .error errno => do
              let s ← emit.setError (s.opened fd) ("Could not get interface index: " ++ errno)
                .connectionError
              return (false, s)
          | .ok () => match calls.bind with
            | .error errno => do
                let s ← emit.setError (s.opened fd) ("Could not bind to interface " ++
                  s.backend._ifname ++ ": " ++ errno) .connectionError
                return (false, s)
            | .ok () => do
                let s ← emit.setState (s.opened fd) .connectedState
                let s ← emit.applyOptions calls.option s.backend.configOptions s
                let app := (s.app.addFile s.backend._socket .read func calls.watch).1
                return (true, { s with app := app })

/-- What `close` does ahead of its `setState`. -/
def closed (s : System F ω) : System F ω :=
  { s with descriptors := Function.update s.descriptors s.backend._socket none
           app := s.app.descriptorClosed s.backend._socket
           backend._socket := -1 }

/-- `close`. -/
def close (s : System F ω) : Except Stop (System F ω) :=
  emit.setState (closed s) .disconnectedState

/-- `connect`. -/
def connect (func : F) (calls : OpenCalls) (s : System F ω) :
    Except Stop (Bool × System F ω) :=
  if s.backend._state ≠ .disconnectedState then do
    let s ← emit.setError s "Disconnect before connecting" .connectionError
    return (false, s)
  else do
    let s ← emit.setState s .connectionPendingState
    let (ok, s) ← emit.openSocket func calls s
    if !ok then
      let s ← emit.setState s .disconnectedState
      return (false, s)
    return (true, { s with backend := s.backend.clearError })

/-- `disconnect`. -/
def disconnect (s : System F ω) : Except Stop (System F ω) :=
  if s.backend._state = .disconnectedState ∨ s.backend._state = .disconnectPendingState then .ok s
  else do
    let s ← emit.setState s .disconnectPendingState
    emit.close s

end Emit

/-! ## Slots -/

/-- What a call returns. -/
abbrev Call.Result : Call → Type
  | .connect _ => Bool
  | .disconnect | .setConfigOption .. => Unit

/-- A call of a slot, or of the user. -/
def Emit.call (func : F) (emit : Emit F ω) : (c : Call) → System F ω →
    Except Stop (c.Result × System F ω)
  | .connect calls, s => emit.connect func calls s
  | .disconnect, s => (emit.disconnect s).map fun s => ((), s)
  | .setConfigOption opt value outcome, s =>
      (emit.setConfigOption s opt value outcome).map fun s => ((), s)

/-- The slots: what they call may depend on the signal, on all that has happened, and on what
their calls return. -/
abbrev Slots (F ω : Type) := Signal → System F ω → Script Call Call.Result

/-- An emission runs the slots, at most `n` deep in each other. -/
def slotted (func : F) (slots : Slots F ω) (n : ℕ) : Emit F ω :=
  Script.nested slots (fun emit => Emit.call func emit) .nesting n

/-- The calls of the user, one after the other. -/
def callAll (func : F) (slots : Slots F ω) (n : ℕ) : List Call → System F ω →
    Except Stop (System F ω)
  | [], s => .ok s
  | c :: cs, s => do
      let (_, s) ← (slotted func slots n).call func c s
      callAll func slots n cs s

/-! ## What a call keeps -/

/-- What holds whenever a slot may run, or a call returns: no option is stored, a connected
interface has a socket, and the descriptors are its own. -/
structure Tracked (base : Int → Option Descriptor) (s : System F ω) : Prop where
  options : NoOptions s.backend.toCanInterface
  socket : s.backend._state = .connectedState → 0 ≤ s.backend._socket
  owned : Owned base [] s

/-- What a call keeps, or an emission: the state is settled unless it is what it was, and it
is what it was while a disconnection is pending. -/
structure Kept (base : Int → Option Descriptor) (s s' : System F ω) : Prop where
  tracked : Tracked base s → Tracked base s'
  state : s'.backend._state = s.backend._state ∨ Settled s'.backend.toCanInterface
  pending : s.backend._state = .disconnectPendingState →
    s'.backend._state = .disconnectPendingState

section kept
variable {base : Int → Option Descriptor} {s s' s'' : System F ω}

theorem Tracked.congr (H : Tracked base s)
    (hoptions : s'.backend._configOptions = s.backend._configOptions)
    (hstate : s'.backend._state = s.backend._state)
    (hsocket : s'.backend._socket = s.backend._socket)
    (hopen : ∀ fd, s'.descriptors fd ≠ none ↔ s.descriptors fd ≠ none) : Tracked base s' where
  options := hoptions.trans H.options
  socket := by
    rw [hstate, hsocket]
    exact H.socket
  owned := H.owned.same hsocket hopen

theorem Kept.of_same (hoptions : s'.backend._configOptions = s.backend._configOptions)
    (hstate : s'.backend._state = s.backend._state)
    (hsocket : s'.backend._socket = s.backend._socket)
    (hopen : ∀ fd, s'.descriptors fd ≠ none ↔ s.descriptors fd ≠ none) : Kept base s s' where
  tracked H := H.congr hoptions hstate hsocket hopen
  state := .inl hstate
  pending := hstate.trans

theorem Kept.refl (s : System F ω) : Kept base s s := .of_same rfl rfl rfl fun _ => .rfl

theorem Kept.trans (h : Kept base s s') (h' : Kept base s' s'') : Kept base s s'' where
  tracked H := h'.tracked (h.tracked H)
  state := by
    rcases h'.state with heq | hsettled
    · rw [heq, Settled, heq]
      exact h.state
    · exact .inr hsettled
  pending hs := h'.pending (h.pending hs)

/-- A settled state stays one. -/
theorem Kept.settled (h : Kept base s s') (hs : Settled s.backend.toCanInterface) :
    Settled s'.backend.toCanInterface := by
  rcases h.state with heq | hsettled
  · rw [Settled, heq]
    exact hs
  · exact hsettled

end kept

/-! ## Every call keeps it -/

section calls
variable {base : Int → Option Descriptor} {emit : Emit F ω} {s t : System F ω}

namespace Emit

theorem setError_kept (hemit : ∀ signal s t, emit signal s = .ok t → Kept base s t)
    {message : String} {error : CanBusError} (h : emit.setError s message error = .ok t) :
    Kept base s t := by
  have hset : Kept base s (s.setError message error) := .of_same rfl rfl rfl fun _ => .rfl
  exact hset.trans (hemit _ _ _ h)

/-- Setting the state leaves that state, or a settled one. -/
theorem setState_kept (hemit : ∀ signal s t, emit signal s = .ok t → Kept base s t)
    {newState : CanConnectionState} (h : emit.setState s newState = .ok t) :
    (Tracked base s → (newState = .connectedState → 0 ≤ s.backend._socket) → Tracked base t) ∧
    (t.backend._state = newState ∨ Settled t.backend.toCanInterface) ∧
    (newState = .disconnectPendingState → t.backend._state = .disconnectPendingState) := by
  rw [setState] at h
  split_ifs at h with hsame
  · cases h
    exact ⟨fun H _ => H, .inl hsame.symm, hsame.symm.trans⟩
  · have hset : (s.setState newState).backend._state = newState := setState_state _ _
    obtain ⟨htracked, hstate, hpending⟩ := hemit _ _ _ h
    rw [hset] at hstate hpending
    refine ⟨?_, hstate, hpending⟩
    intro H hsocket
    refine htracked ⟨H.options.setState newState, ?_, H.owned.same rfl fun _ => .rfl⟩
    intro hconn
    exact hsocket (hset.symm.trans hconn)

theorem applySwitch_kept (hemit : ∀ signal s t, emit signal s = .ok t → Kept base s t)
    {what : String} {change : Bool → CanSocket → CanSocket} {value : ConfigOptionValue}
    {outcome : Except String Unit} {ok : Bool}
    (h : emit.applySwitch s what change value outcome = .ok (ok, t)) : Kept base s t := by
  rw [applySwitch] at h
  obtain ⟨on, -, h⟩ := ok_of_bind h
  cases outcome with
  | error errno =>
      obtain ⟨u, hu, h⟩ := ok_of_bind h
      cases h
      exact setError_kept hemit hu
  | ok u =>
      cases h
      exact .of_same (by rw [setsockopt_backend]) (by rw [setsockopt_backend])
        (by rw [setsockopt_backend]) (setsockopt_descriptors s _)

theorem applyConfigOption_kept (hemit : ∀ signal s t, emit signal s = .ok t → Kept base s t)
    {opt : ConfigOption} {value : ConfigOptionValue} {outcome : Except String Unit} {ok : Bool}
    (h : emit.applyConfigOption s opt value outcome = .ok (ok, t)) : Kept base s t := by
  cases opt with
  | cfgOptLoopback => exact applySwitch_kept hemit h
  | cfgOptRxOwn => exact applySwitch_kept hemit h
  | cfgOptFD => exact applySwitch_kept hemit h
  | cfgOptOther =>
      obtain ⟨u, hu, h⟩ := ok_of_bind h
      cases h
      exact setError_kept hemit hu
  | cfgOptBitrate =>
      obtain ⟨bitrate, -, h⟩ := ok_of_bind h
      cases outcome with
      | error errno =>
          obtain ⟨u, hu, h⟩ := ok_of_bind h
          cases h
          exact setError_kept hemit hu
      | ok u =>
          cases h
          exact .refl s

theorem applyOptions_kept (hemit : ∀ signal s t, emit signal s = .ok t → Kept base s t)
    {option : ConfigOption → Except String Unit} {opts : List ConfigOption}
    (h : emit.applyOptions option opts s = .ok t) : Kept base s t := by
  induction opts generalizing s with
  | nil =>
      cases h
      exact .refl _
  | cons opt opts ih =>
      obtain ⟨⟨ok, u⟩, hu, h⟩ := ok_of_bind h
      exact (applyConfigOption_kept hemit hu).trans (ih h)

/-- The base class stores no option, since none is there. -/
theorem storeOption_kept {opt : ConfigOption} {value : ConfigOptionValue}
    (h : s.storeOption opt value = .ok t) : Kept base s t := by
  have hstored : Kept base s { s with backend.toCanInterface :=
      s.backend.toCanInterface.setConfigOption opt value } := by
    have hstate : (s.backend.toCanInterface.setConfigOption opt value)._state =
        s.backend._state := by
      rw [CanInterface.setConfigOption]
      split_ifs <;> rfl
    refine ⟨fun H => ?_, .inl hstate, hstate.trans⟩
    exact H.congr (by rw [H.options.setConfigOption]) hstate rfl fun _ => .rfl
  rw [storeOption] at h
  dsimp only at h
  by_cases hopt : opt = .cfgOptFD
  · rw [if_pos hopt] at h
    obtain ⟨on, -, h⟩ := ok_of_bind h
    cases h
    exact hstored.trans (.of_same rfl rfl rfl fun _ => .rfl)
  · rw [if_neg hopt] at h
    cases h
    exact hstored

theorem setConfigOption_kept (hemit : ∀ signal s t, emit signal s = .ok t → Kept base s t)
    {opt : ConfigOption} {value : ConfigOptionValue} {outcome : Except String Unit}
    (h : emit.setConfigOption s opt value outcome = .ok t) : Kept base s t := by
  rw [setConfigOption] at h
  by_cases hsocket : s.backend._socket ≠ -1
  · rw [if_pos hsocket] at h
    obtain ⟨⟨ok, u⟩, hu, h⟩ := ok_of_bind h
    have hkept := applyConfigOption_kept hemit hu
    cases ok with
    | false =>
        cases h
        exact hkept
    | true => exact hkept.trans (storeOption_kept h)
  · rw [if_neg hsocket] at h
    exact storeOption_kept h

/-- `open`, with the connected state when it succeeds. -/
theorem openSocket_kept (hemit : ∀ signal s t, emit signal s = .ok t → Kept base s t)
    {func : F} {calls : OpenCalls} {ok : Bool} (h : emit.openSocket func calls s = .ok (ok, t)) :
    (Tracked base s → Tracked base t) ∧
    (t.backend._state = s.backend._state ∨ Settled t.backend.toCanInterface) ∧
    (ok = true → Settled t.backend.toCanInterface) := by
  rw [openSocket] at h
  by_cases hleft : s.backend._socket ≠ -1
  · rw [if_pos hleft] at h
    cases h
    exact ⟨id, .inl rfl, fun hok => nomatch hok⟩
  rw [if_neg hleft] at h
  cases hfd : calls.socket with
  | error errno =>
      rw [hfd] at h
      obtain ⟨u, hu, h⟩ := ok_of_bind h
      cases h
      have hkept := setError_kept hemit hu
      exact ⟨hkept.tracked, hkept.state, fun hok => nomatch hok⟩
  | ok fd =>
      rw [hfd] at h
      dsimp only at h
      by_cases hkernel : fd < 0 ∨ s.descriptors fd ≠ none
      · rw [if_pos hkernel] at h
        cases h
      rw [if_neg hkernel] at h
      obtain ⟨hnonneg, hunused⟩ := not_or.mp hkernel
      have hopened : Tracked base s → Tracked base (s.opened fd) := by
        intro H
        refine ⟨H.options, fun _ => not_lt.mp hnonneg, ?_⟩
        refine H.owned.opened (not_lt.mp hnonneg) (not_not.mp hunused) ?_ rfl
        have hbefore : s.held = [] := if_pos (not_not.mp hleft)
        have hafter : (s.opened fd).held = [fd] := by
          rw [held, if_neg]
          · rfl
          · change ¬ fd = -1
            omega
        rw [hbefore, hafter]
        rfl
      -- an error after `socket`
      have hrefused : ∀ {message} {u : System F ω},
          emit.setError (s.opened fd) message .connectionError = .ok u →
          (Tracked base s → Tracked base u) ∧
          (u.backend._state = s.backend._state ∨ Settled u.backend.toCanInterface) := by
        intro message u hu
        have hkept := setError_kept hemit hu
        exact ⟨fun H => hkept.tracked (hopened H), hkept.state⟩
      cases hifindex : calls.ifindex with
      | error errno =>
          rw [hifindex] at h
          obtain ⟨u, hu, h⟩ := ok_of_bind h
          cases h
          obtain ⟨htracked, hstate⟩ := hrefused hu
          exact ⟨htracked, hstate, fun hok => nomatch hok⟩
      | ok _ =>
          rw [hifindex] at h
          cases hbind : calls.bind with
          | error errno =>
              rw [hbind] at h
              obtain ⟨u, hu, h⟩ := ok_of_bind h
              cases h
              obtain ⟨htracked, hstate⟩ := hrefused hu
              exact ⟨htracked, hstate, fun hok => nomatch hok⟩
          | ok _ =>
              rw [hbind] at h
              obtain ⟨u, hu, h⟩ := ok_of_bind h
              obtain ⟨v, hv, h⟩ := ok_of_bind h
              cases h
              obtain ⟨htracked, hstate, -⟩ := setState_kept hemit hu
              have hoptions := applyOptions_kept hemit hv
              have hsettled : Settled u.backend.toCanInterface := hstate.elim .inr id
              have hwatched : Kept base v
                  { v with app := (v.app.addFile v.backend._socket .read func calls.watch).1 } :=
                .of_same rfl rfl rfl fun _ => .rfl
              have hafter := hwatched.settled (hoptions.settled hsettled)
              refine ⟨?_, .inr hafter, fun _ => hafter⟩
              intro H
              refine hwatched.tracked (hoptions.tracked (htracked (hopened H) ?_))
              exact fun _ => not_lt.mp hnonneg

/-- `close` gives the descriptor back. -/
theorem close_kept (hbase : base (-1) = none)
    (hemit : ∀ signal s t, emit signal s = .ok t → Kept base s t)
    (h : emit.close s = .ok t) :
    (Tracked base s → s.backend._state ≠ .connectedState → Tracked base t) ∧
      Settled t.backend.toCanInterface := by
  obtain ⟨htracked, hstate, -⟩ := setState_kept hemit h
  refine ⟨?_, hstate.elim .inl id⟩
  intro H hconn
  refine htracked ⟨H.options, fun h => absurd h hconn, H.owned.closed hbase rfl rfl⟩ ?_
  exact fun h => nomatch h

/-- `connect` leaves a settled state behind, if it found one. -/
theorem connect_kept (hemit : ∀ signal s t, emit signal s = .ok t → Kept base s t)
    {func : F} {calls : OpenCalls} {ok : Bool} (h : emit.connect func calls s = .ok (ok, t)) :
    Kept base s t := by
  rw [connect] at h
  split_ifs at h with hdisc
  · obtain ⟨u, hu, h⟩ := ok_of_bind h
    cases h
    exact setError_kept hemit hu
  · obtain ⟨u, hu, h⟩ := ok_of_bind h
    obtain ⟨⟨opened, v⟩, hv, h⟩ := ok_of_bind h
    obtain ⟨hpending, -, -⟩ := setState_kept hemit hu
    obtain ⟨hopen, -, hsettled⟩ := openSocket_kept hemit hv
    have htracked : Tracked base s → Tracked base v :=
      fun H => hopen (hpending H fun h => nomatch h)
    cases opened with
    | false =>
        obtain ⟨w, hw, h⟩ := ok_of_bind h
        cases h
        obtain ⟨hlast, hstate, -⟩ := setState_kept hemit hw
        refine ⟨fun H => hlast (htracked H) (nomatch ·), .inr (hstate.elim .inl id), ?_⟩
        exact fun h => absurd h (by rw [not_not.mp hdisc]; decide)
    | true =>
        cases h
        refine ⟨fun H => (htracked H).congr rfl rfl rfl fun _ => .rfl, .inr (hsettled rfl), ?_⟩
        exact fun h => absurd h (by rw [not_not.mp hdisc]; decide)

theorem disconnect_kept (hbase : base (-1) = none)
    (hemit : ∀ signal s t, emit signal s = .ok t → Kept base s t)
    (h : emit.disconnect s = .ok t) : Kept base s t := by
  rw [disconnect] at h
  split_ifs at h with hstate
  · cases h
    exact .refl s
  · obtain ⟨u, hu, h⟩ := ok_of_bind h
    obtain ⟨htracked, -, hpending⟩ := setState_kept hemit hu
    obtain ⟨hclosed, hsettled⟩ := close_kept hbase hemit h
    have hstays := hpending rfl
    refine ⟨?_, .inr hsettled, fun h => absurd (.inr h) hstate⟩
    intro H
    exact hclosed (htracked H fun h => nomatch h) (by rw [hstays]; decide)

/-- **Every call keeps it**, if the emissions do. -/
theorem call_kept (hbase : base (-1) = none)
    (hemit : ∀ signal s t, emit signal s = .ok t → Kept base s t) (func : F) {c : Call}
    {a : c.Result} (h : emit.call func c s = .ok (a, t)) : Kept base s t := by
  cases c with
  | connect calls => exact connect_kept hemit h
  | disconnect =>
      obtain ⟨u, hu, hcall⟩ := ok_of_map h
      cases hcall
      exact disconnect_kept hbase hemit hu
  | setConfigOption opt value outcome =>
      obtain ⟨u, hu, hcall⟩ := ok_of_map h
      cases hcall
      exact setConfigOption_kept hemit hu

end Emit

end calls

/-! ## Slots that do not call back -/

/-- No slot does anything. -/
def silent : Emit F ω := fun _ s => .ok s

section silent
variable {s t : System F ω} {ok : Bool}

theorem silent_setState (s : System F ω) (newState : CanConnectionState) :
    silent.setState s newState = .ok (s.setState newState) := by
  rw [Emit.setState]
  split_ifs with hsame
  · have hnone : s.setState newState = s := by
      rw [System.setState, SocketCanBackend.setState, CanInterface.setState, if_pos hsame]
    rw [hnone]
  · rfl

theorem some_of_orThrow {α : Type} {x : Option α} {a : α} (h : orThrow x = .ok a) :
    x = some a := by
  cases x with
  | none => cases h
  | some b =>
      cases h
      rfl

theorem silent_applySwitch {what : String} {change : Bool → CanSocket → CanSocket}
    {value : ConfigOptionValue} {outcome : Except String Unit}
    (h : silent.applySwitch s what change value outcome = .ok (ok, t)) :
    s.applySwitch what change value outcome = some (ok, t) := by
  obtain ⟨on, hon, h⟩ := ok_of_bind h
  rw [applySwitch, some_of_orThrow hon]
  cases outcome with
  | error errno =>
      cases h
      rfl
  | ok u =>
      cases h
      rfl

theorem silent_applyConfigOption {opt : ConfigOption} {value : ConfigOptionValue}
    {outcome : Except String Unit}
    (h : silent.applyConfigOption s opt value outcome = .ok (ok, t)) :
    s.applyConfigOption opt value outcome = some (ok, t) := by
  cases opt with
  | cfgOptLoopback => exact silent_applySwitch h
  | cfgOptRxOwn => exact silent_applySwitch h
  | cfgOptFD => exact silent_applySwitch h
  | cfgOptOther =>
      cases h
      rfl
  | cfgOptBitrate =>
      obtain ⟨bitrate, hbitrate, h⟩ := ok_of_bind h
      dsimp only [System.applyConfigOption]
      rw [some_of_orThrow hbitrate]
      cases outcome with
      | error errno =>
          cases h
          rfl
      | ok u =>
          cases h
          rfl

theorem silent_applyOptions {option : ConfigOption → Except String Unit}
    {opts : List ConfigOption} (h : silent.applyOptions option opts s = .ok t) :
    applyOptions option opts s = some t := by
  induction opts generalizing s with
  | nil =>
      cases h
      rfl
  | cons opt opts ih =>
      obtain ⟨⟨ok, u⟩, hu, h⟩ := ok_of_bind h
      rw [applyOptions, silent_applyConfigOption hu]
      exact ih h

theorem silent_setConfigOption {opt : ConfigOption} {value : ConfigOptionValue}
    {outcome : Except String Unit} (h : silent.setConfigOption s opt value outcome = .ok t) :
    s.setConfigOption opt value outcome = some t := by
  rw [Emit.setConfigOption] at h
  by_cases hsocket : s.backend._socket ≠ -1
  · rw [if_pos hsocket] at h
    obtain ⟨⟨ok, u⟩, hu, h⟩ := ok_of_bind h
    have hplain := silent_applyConfigOption hu
    obtain ⟨rfl, -⟩ := applyConfigOption_backend hplain
    cases h
    rw [System.setConfigOption, if_pos hsocket, hplain]
    rfl
  · rw [if_neg hsocket] at h
    rw [System.setConfigOption, if_neg hsocket]
    change s.storeOption opt value = .ok t at h
    rw [storeOption] at h
    dsimp only at h
    by_cases hopt : opt = .cfgOptFD
    · rw [if_pos hopt] at h
      obtain ⟨on, hon, h⟩ := ok_of_bind h
      cases h
      simp [hopt, some_of_orThrow hon]
    · rw [if_neg hopt] at h
      cases h
      simp [hopt]

theorem silent_openSocket {func : F} {calls : OpenCalls}
    (h : silent.openSocket func calls s = .ok (ok, t)) :
    s.openSocket func calls = some (ok, t) := by
  rw [Emit.openSocket] at h
  rw [System.openSocket]
  by_cases hleft : s.backend._socket ≠ -1
  · rw [if_pos hleft] at h ⊢
    cases h
    rfl
  rw [if_neg hleft] at h ⊢
  cases hfd : calls.socket with
  | error errno =>
      rw [hfd] at h
      cases h
      rfl
  | ok fd =>
      rw [hfd] at h
      dsimp only at h ⊢
      split_ifs at h with hkernel
      cases hifindex : calls.ifindex with
      | error errno =>
          rw [hifindex] at h
          cases h
          rfl
      | ok _ =>
          rw [hifindex] at h
          cases hbind : calls.bind with
          | error errno =>
              rw [hbind] at h
              cases h
              rfl
          | ok _ =>
              rw [hbind] at h
              dsimp only at h ⊢
              rw [silent_setState] at h
              obtain ⟨u, hu, h⟩ := ok_of_bind h
              cases hu
              obtain ⟨v, hv, h⟩ := ok_of_bind h
              cases h
              have hplain := silent_applyOptions hv
              rw [opened] at hplain
              rw [hplain]
              rfl

theorem silent_connect {func : F} {calls : OpenCalls}
    (h : silent.connect func calls s = .ok (ok, t)) : s.connect func calls = some (ok, t) := by
  rw [Emit.connect] at h
  rw [System.connect]
  split_ifs at h ⊢ with hstate
  · cases h
    rfl
  · rw [silent_setState] at h
    obtain ⟨u, hu, h⟩ := ok_of_bind h
    cases hu
    obtain ⟨⟨opened, v⟩, hv, h⟩ := ok_of_bind h
    dsimp only
    rw [silent_openSocket hv]
    cases opened with
    | false =>
        obtain ⟨w, hw, h⟩ := ok_of_bind h
        rw [silent_setState] at hw
        cases hw
        cases h
        rfl
    | true =>
        cases h
        rfl

theorem silent_disconnect (h : silent.disconnect s = .ok t) : t = s.disconnect := by
  rw [Emit.disconnect] at h
  rw [System.disconnect]
  split_ifs at h ⊢ with hstate
  · cases h
    rfl
  · rw [silent_setState] at h
    obtain ⟨u, hu, h⟩ := ok_of_bind h
    cases hu
    rw [Emit.close, silent_setState] at h
    cases h
    rfl

end silent

/-- Slots that make no calls. -/
def quiet : Slots F ω := fun _ _ => .done

/-- **Where no slot calls back, the calls are those of the plain model.** -/
theorem callAll_quiet (func : F) {s t : System F ω} {n : ℕ} {calls : List Call}
    (h : callAll func quiet (n + 1) calls s = .ok t) : (usage func).state s calls = t := by
  have hsilent : slotted func quiet (n + 1) = (silent : Emit F ω) := rfl
  induction calls generalizing s with
  | nil =>
      cases h
      rfl
  | cons c calls ih =>
      obtain ⟨⟨a, u⟩, hu, h⟩ := ok_of_bind h
      rw [hsilent] at hu
      have hstep : ((usage func).step s c).1 = u := by
        cases c with
        | connect opening => simp only [usage, silent_connect hu]
        | disconnect =>
            obtain ⟨v, hv, hcall⟩ := ok_of_map hu
            cases hcall
            exact (silent_disconnect hv).symm
        | setConfigOption opt value outcome =>
            obtain ⟨v, hv, hcall⟩ := ok_of_map hu
            cases hcall
            simp only [usage, silent_setConfigOption hv]
      rw [Mealy.state_cons, hstep]
      exact ih h

/-! ## Slots that do -/

section slots
variable {base : Int → Option Descriptor} {s t : System F ω}

/-- Whatever the slots do, and however deep. -/
theorem slotted_kept (hbase : base (-1) = none) (func : F) (slots : Slots F ω) (n : ℕ)
    {signal : Signal} (h : slotted func slots n signal s = .ok t) : Kept base s t := by
  rw [slotted] at h
  refine Script.nested_induction Kept.refl Kept.trans ?_ n h
  intro emit hemit c u a v hcall
  exact Emit.call_kept hbase hemit func hcall

theorem callAll_kept (hbase : base (-1) = none) (func : F) (slots : Slots F ω) {n : ℕ}
    {calls : List Call} (h : callAll func slots n calls s = .ok t) : Kept base s t := by
  induction calls generalizing s with
  | nil =>
      cases h
      exact .refl _
  | cons c calls ih =>
      obtain ⟨⟨a, u⟩, hu, h⟩ := ok_of_bind h
      have hcall := Emit.call_kept hbase (fun _ _ _ => slotted_kept hbase func slots n) func hu
      exact hcall.trans (ih h)

end slots

theorem New.tracked {s : System F ω} (h : New s) : Tracked s.descriptors s := by
  obtain ⟨channel, hb⟩ := h
  have hheld : s.held = [] := by
    rw [held, hb]
    rfl
  refine ⟨?_, ?_, by simp [hheld], by simp [hheld], by simp [hheld]⟩
  · rw [hb]
    rfl
  · rw [hb]
    intro hconn
    cases hconn

/-- **Slots cannot unsettle an interface.** Whatever slots call from within the calls of the
user, and however deep: behind calls that all return, the interface is disconnected or connected,
it is connected only with a socket, and the descriptors that are open are those from before, and
its own. -/
theorem callAll_settled {s t : System F ω} (h : New s) (hbase : s.descriptors (-1) = none)
    (func : F) (slots : Slots F ω) {n : ℕ} {calls : List Call}
    (hrun : callAll func slots n calls s = .ok t) :
    (t.backend._state = .disconnectedState ∨ t.backend._state = .connectedState) ∧
    (t.backend._state = .connectedState → 0 ≤ t.backend._socket) ∧
    (∀ fd ∈ t.held, s.descriptors fd = none) ∧
    ∀ fd, t.descriptors fd ≠ none ↔ s.descriptors fd ≠ none ∨ fd ∈ t.held := by
  have hkept := callAll_kept hbase func slots hrun
  obtain ⟨-, hsocket, howned⟩ := hkept.tracked h.tracked
  have hsettled : Settled s.backend.toCanInterface := by
    obtain ⟨channel, hb⟩ := h
    rw [hb]
    exact .inl rfl
  exact ⟨hkept.settled hsettled, hsocket, fun fd hfd => (howned.fresh fd hfd).2, howned.isOpen⟩

/-- A slot that connects whenever the interface is disconnected. -/
def reconnecting : Slots Unit Unit
  | .connectionStateChanged .disconnectedState, _ => .call (.connect (granted 3)) fun _ => .done
  | _, _ => .done

/-- No descriptor is left, for now. -/
def outOfSockets : OpenCalls := { granted 3 with socket := .error "Too many open files" }

theorem callAll_settled_reconnecting :
    ∃ t, callAll () reconnecting 2 [.connect outOfSockets] start = .ok t ∧
      (t.backend._state = .disconnectedState ∨ t.backend._state = .connectedState) ∧
      (t.backend._state = .connectedState → 0 ≤ t.backend._socket) ∧
      (∀ fd ∈ t.held, start.descriptors fd = none) ∧
      ∀ fd, t.descriptors fd ≠ none ↔ start.descriptors fd ≠ none ∨ fd ∈ t.held :=
  have hrun : ∃ t, callAll () reconnecting 2 [.connect outOfSockets] start = .ok t := ⟨_, rfl⟩
  hrun.imp fun _ ht => ⟨ht, callAll_settled new_start rfl () reconnecting ht⟩

/-- With that slot a `connect` fails, and leaves a connected interface. -/
example : ((slotted () reconnecting 2).connect () outOfSockets start).map
    (fun r => (r.1, r.2.backend._state)) = .ok (false, .connectedState) := rfl

end DPFlow.System
