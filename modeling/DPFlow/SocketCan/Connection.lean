import DPFlow.CanInterface.Connection
import DPFlow.SocketCan.Watch

/-!
# The states of a SocketCAN connection

The connection state is set in two places: the base class announces the pending states,
and `open` and `close` set the states they lead to. Whatever the operating system answers,
the backend does to its base class what an honest opening does, so the states of the base
class are the backend's.

## Main definitions

* `System.Call`, `System.usage` — what users call on a backend, with any outcomes.
* `System.New` — a backend as the constructor makes it.
* `System.Wired` — what every call keeps: no option is stored, the state is not pending,
  and a connected backend has a socket.
-/
namespace DPFlow.System

open Lib CanInterface EventDispatcher

variable {F ω : Type}

/-! ## Calls -/

/-- A call of the user, with the outcomes of the system calls it makes. -/
inductive Call
  | connect (calls : OpenCalls)
  | disconnect
  | setConfigOption (opt : ConfigOption) (value : ConfigOptionValue) (outcome : Except String Unit)

/-- A descriptor that `socket` returns is not negative. -/
def OpenCalls.Possible (calls : OpenCalls) : Prop := ∀ fd, calls.socket = .ok fd → 0 ≤ fd

def Call.Possible : Call → Prop
  | .connect calls => calls.Possible
  | _ => True

/-- A backend taking calls; a connection's result is emitted. An exception leaves things as
they were: `connect` throws none with no option stored, and `setConfigOption` throws before
it has changed anything. -/
def usage (func : F) : Mealy (System F ω) Call Bool where
  step s call := match call with
    | .connect calls => match s.connect func calls with
      | some (ok, s') => (s', [ok])
      | none => (s, [])
    | .disconnect => (s.disconnect, [])
    | .setConfigOption opt value outcome => match s.setConfigOption opt value outcome with
      | some s' => (s', [])
      | none => (s, [])

/-- A backend as the constructor makes it, beside any other descriptors and
registrations. -/
def New (s : System F ω) : Prop := ∃ channel, s.backend = SocketCanBackend.init channel

/-! ## What `open` does -/

/-- After `socket`. -/
def opened (s : System F ω) (fd : Int) : System F ω :=
  { s with backend._socket := fd
           descriptors := Function.update s.descriptors fd (some (.canRaw {})) }

/-- The `ioctl` or `bind` fails. -/
def OpenCalls.Refused (calls : OpenCalls) : Prop :=
  (∃ errno, calls.ifindex = .error errno) ∨ ∃ errno, calls.bind = .error errno

/-- The base class with no option stored. -/
def NoOptions (i : CanInterface) : Prop := i._configOptions = fun _ => none

theorem NoOptions.setState {i : CanInterface} (h : NoOptions i) (newState : CanConnectionState) :
    NoOptions (i.setState newState) := (setState_configOptions i newState).trans h

/-- What `open` does with no option stored: nothing with a socket left over, an error when
a system call fails, and otherwise the connected state and a registration. -/
theorem openSocket_cases {s : System F ω} (hopts : NoOptions s.backend.toCanInterface) (func : F)
    (calls : OpenCalls) :
    (s.backend._socket ≠ -1 ∧ s.openSocket func calls = some (false, s)) ∨
    (s.backend._socket = -1 ∧ ∃ errno message, calls.socket = .error errno ∧
      s.openSocket func calls = some (false, s.setError message .connectionError)) ∨
    (s.backend._socket = -1 ∧ ∃ fd message, calls.socket = .ok fd ∧ calls.Refused ∧
      s.openSocket func calls = some (false, (s.opened fd).setError message .connectionError)) ∨
    (s.backend._socket = -1 ∧ ∃ fd app, calls.socket = .ok fd ∧ ¬ calls.Refused ∧
      s.openSocket func calls =
        some (true, { (s.opened fd).setState .connectedState with app := app })) := by
  rw [openSocket]
  by_cases hleft : s.backend._socket ≠ -1
  · exact .inl ⟨hleft, if_pos hleft⟩
  rw [if_neg hleft]
  refine .inr ?_
  have hclosed : s.backend._socket = -1 := not_not.mp hleft
  cases hsocket : calls.socket with
  | error errno => exact .inl ⟨hclosed, errno, _, rfl, rfl⟩
  | ok fd =>
      refine .inr ?_
      cases hifindex : calls.ifindex with
      | error errno => exact .inl ⟨hclosed, fd, _, rfl, .inl ⟨errno, hifindex⟩, rfl⟩
      | ok u =>
          cases hbind : calls.bind with
          | error errno => exact .inl ⟨hclosed, fd, _, rfl, .inr ⟨errno, hbind⟩, rfl⟩
          | ok v =>
              have hgranted : ¬ calls.Refused := by
                rintro (⟨errno, h⟩ | ⟨errno, h⟩)
                · rw [hifindex] at h
                  cases h
                · rw [hbind] at h
                  cases h
              have hnone : ((s.opened fd).setState .connectedState).backend.configOptions = [] :=
                configOptions_eq_nil (hopts.setState .connectedState)
              let app := ((s.opened fd).setState .connectedState).app.addFile fd .read func
                calls.watch
              refine .inr ⟨hclosed, fd, app.1, rfl, hgranted, ?_⟩
              change applyOptions calls.option
                ((s.opened fd).setState .connectedState).backend.configOptions
                ((s.opened fd).setState .connectedState) >>= _ = _
              rw [hnone]
              rfl

/-- `open` is an honest opening of the base class, and gives a connected backend a socket. -/
theorem openSocket_refines {s : System F ω} (hopts : NoOptions s.backend.toCanInterface)
    (func : F) {calls : OpenCalls} (hcalls : calls.Possible) :
    ∃ (opening : Opening) (s' : System F ω), opening.Honest ∧
      s.openSocket func calls = some (opening.ok, s') ∧
      s'.backend.toCanInterface = s.backend.toCanInterface.hook opening.calls ∧
      (opening.ok = true → 0 ≤ s'.backend._socket) := by
  have hone : ∀ message,
      Opening.Honest ⟨[.setError message .connectionError], false⟩ := by
    intro message
    refine ⟨(nomatch ·), ?_⟩
    intro _ c hc
    exact ⟨message, _, List.mem_singleton.mp hc⟩
  obtain ⟨-, h⟩ | ⟨-, errno, message, -, h⟩ | ⟨-, fd, message, -, -, h⟩ | ⟨-, fd, app, hfd, -, h⟩ :=
    openSocket_cases hopts func calls
  · refine ⟨⟨[], false⟩, s, ⟨(nomatch ·), ?_⟩, h, rfl, (nomatch ·)⟩
    intro _ c hc
    cases hc
  · exact ⟨_, _, hone message, h, rfl, (nomatch ·)⟩
  · exact ⟨_, _, hone message, h, rfl, (nomatch ·)⟩
  · refine ⟨⟨[.setState .connectedState], true⟩, _, ⟨fun _ => rfl, (nomatch ·)⟩, h, rfl, ?_⟩
    exact fun _ => hcalls fd hfd

/-! ## What the calls keep -/

/-- What every call keeps. -/
structure Wired (s : System F ω) : Prop where
  options : NoOptions s.backend.toCanInterface
  settled : Settled s.backend.toCanInterface
  coherent : Coherent s.backend.toCanInterface
  socket : s.backend._state = .connectedState → 0 ≤ s.backend._socket

theorem New.wired {s : System F ω} (h : New s) : Wired s := by
  obtain ⟨channel, hb⟩ := h
  constructor
  · rw [hb]
    rfl
  · rw [hb]
    exact .inl rfl
  · rw [hb]
    exact coherent_init
  · rw [hb]
    intro hconn
    cases hconn

theorem hook_configOptions (i : CanInterface) (calls : List HookCall) :
    (i.hook calls)._configOptions = i._configOptions := by
  induction calls generalizing i with
  | nil => rfl
  | cons c cs ih =>
      rw [hook_cons, ih]
      cases c with
      | setState newState => exact setState_configOptions i newState
      | setError errorMessage error => rfl
      | clearError => rfl

/-- What `connect` makes of what `open` did. -/
theorem connect_of_open {s t : System F ω} {func : F} {calls : OpenCalls} {ok : Bool}
    (hdisc : s.backend._state = .disconnectedState)
    (hopen : (s.setState .connectionPendingState).openSocket func calls = some (ok, t)) :
    s.connect func calls = some (ok,
      if ok then { t with backend := t.backend.clearError }
      else t.setState .disconnectedState) := by
  rw [System.connect, if_neg (not_not_intro hdisc)]
  dsimp only
  rw [hopen]
  cases ok <;> rfl

/-- What `connect` does to a disconnected backend that has no socket and no options. -/
theorem connect_cases {s : System F ω} (hopts : NoOptions s.backend.toCanInterface)
    (hdisc : s.backend._state = .disconnectedState) (hclosed : s.backend._socket = -1) (func : F)
    (calls : OpenCalls) :
    let pending := s.setState .connectionPendingState
    (∃ errno message, calls.socket = .error errno ∧ s.connect func calls = some (false,
      (pending.setError message .connectionError).setState .disconnectedState)) ∨
    (∃ fd message, calls.socket = .ok fd ∧ calls.Refused ∧ s.connect func calls = some (false,
      ((pending.opened fd).setError message .connectionError).setState .disconnectedState)) ∨
    (∃ fd app, calls.socket = .ok fd ∧ ¬ calls.Refused ∧ s.connect func calls = some (true,
      { (pending.opened fd).setState .connectedState with
        backend := ((pending.opened fd).setState .connectedState).backend.clearError
        app := app })) := by
  intro pending
  have hpending : NoOptions pending.backend.toCanInterface :=
    hopts.setState .connectionPendingState
  obtain ⟨hleft, -⟩ | ⟨-, errno, message, h, hopen⟩ | ⟨-, fd, message, h, hrefused, hopen⟩ |
    ⟨-, fd, app, h, hgranted, hopen⟩ := openSocket_cases hpending func calls
  · exact absurd hclosed hleft
  · exact .inl ⟨errno, message, h, connect_of_open hdisc hopen⟩
  · exact .inr (.inl ⟨fd, message, h, hrefused, connect_of_open hdisc hopen⟩)
  · exact .inr (.inr ⟨fd, app, h, hgranted, connect_of_open hdisc hopen⟩)

/-- `connect` is the base class's, for an honest opening, and keeps what calls keep. -/
theorem Wired.connect {s : System F ω} (H : Wired s) (func : F) {calls : OpenCalls}
    (hcalls : calls.Possible) :
    ∃ ok s', s.connect func calls = some (ok, s') ∧ Wired s' ∧
      (ok = true ↔ s.backend._state = .disconnectedState ∧
        s'.backend._state = .connectedState) := by
  by_cases hdisc : s.backend._state = .disconnectedState
  · have hopts : NoOptions (s.setState .connectionPendingState).backend.toCanInterface :=
      H.options.setState .connectionPendingState
    obtain ⟨opening, t, ho, hopen, hhook, hsocket⟩ := openSocket_refines hopts func hcalls
    obtain ⟨Hcoherent, hsettled, hiff⟩ := connect_honest H.coherent H.settled ho
    have htopts : NoOptions t.backend.toCanInterface := by
      rw [NoOptions, hhook, hook_configOptions]
      exact hopts
    -- the interface part of the result is the base class's
    have hbase : s.backend.toCanInterface.connect opening =
        if !opening.ok then (false, t.backend.toCanInterface.setState .disconnectedState)
        else (true, t.backend.toCanInterface.clearError) := by
      rw [CanInterface.connect, if_neg (not_not_intro hdisc), hhook]
      rfl
    rw [hbase] at Hcoherent hsettled hiff
    refine ⟨opening.ok, _, connect_of_open hdisc hopen, ?_⟩
    cases hok : opening.ok with
    | true =>
        rw [hok] at Hcoherent hsettled hiff
        exact ⟨⟨htopts, hsettled, Hcoherent, fun _ => hsocket hok⟩, hiff⟩
    | false =>
        rw [hok] at Hcoherent hsettled hiff
        refine ⟨⟨htopts.setState .disconnectedState, hsettled, Hcoherent, ?_⟩, hiff⟩
        intro hconn
        have hdisc' : (t.backend.toCanInterface.setState .disconnectedState)._state =
            .disconnectedState := setState_state _ _
        exact absurd (hdisc'.symm.trans hconn) (by decide)
  · refine ⟨false, s.setError "Disconnect before connecting" .connectionError, ?_, ?_, ?_⟩
    · exact if_pos hdisc
    · exact ⟨H.options, H.settled, H.coherent.setError _ _, H.socket⟩
    · simp [hdisc]

theorem Wired.disconnect {s : System F ω} (H : Wired s) : Wired s.disconnect := by
  obtain ⟨Hcoherent, hdisc⟩ := disconnect_honest H.coherent H.settled
  have hbase : s.disconnect.backend.toCanInterface =
      s.backend.toCanInterface.disconnect [.setState .disconnectedState] := by
    rw [System.disconnect, CanInterface.disconnect]
    split_ifs <;> rfl
  constructor
  · rw [NoOptions, System.disconnect]
    split_ifs
    · exact H.options
    · exact (H.options.setState .disconnectPendingState).setState .disconnectedState
  · rw [hbase]
    exact .inl hdisc
  · rw [hbase]
    exact Hcoherent
  · intro hconn
    rw [hbase, hdisc] at hconn
    cases hconn

/-! ## Options -/

/-- A key that is not there gets no value. -/
theorem NoOptions.setConfigOption {i : CanInterface} (h : NoOptions i) (opt : ConfigOption)
    (value : ConfigOptionValue) : i.setConfigOption opt value = i := by
  rw [CanInterface.setConfigOption, show i._configOptions = _ from h]
  rfl

theorem setsockopt_backend (s : System F ω) (change : CanSocket → CanSocket) :
    (s.setsockopt change).backend = s.backend := by
  rw [setsockopt]
  split <;> rfl

/-- One of the three switches answers `false`, and of the backend changes the error only. -/
theorem applySwitch_backend {s s' : System F ω} {what : String}
    {change : Bool → CanSocket → CanSocket} {value : ConfigOptionValue}
    {outcome : Except String Unit} {ok : Bool}
    (h : s.applySwitch what change value outcome = some (ok, s')) :
    ok = false ∧ (s'.backend = s.backend ∨
      ∃ message, s'.backend = s.backend.setError message .configurationError) := by
  rw [applySwitch] at h
  cases hvalue : getBool value with
  | none =>
      rw [hvalue] at h
      cases h
  | some on =>
      rw [hvalue] at h
      cases outcome with
      | error errno =>
          cases h
          exact ⟨rfl, .inr ⟨_, rfl⟩⟩
      | ok u =>
          cases h
          exact ⟨rfl, .inl (s.setsockopt_backend _)⟩

/-- So does every option. -/
theorem applyConfigOption_backend {s s' : System F ω} {opt : ConfigOption}
    {value : ConfigOptionValue} {outcome : Except String Unit} {ok : Bool}
    (h : s.applyConfigOption opt value outcome = some (ok, s')) :
    ok = false ∧ (s'.backend = s.backend ∨
      ∃ message, s'.backend = s.backend.setError message .configurationError) := by
  cases opt with
  | cfgOptLoopback => exact applySwitch_backend h
  | cfgOptRxOwn => exact applySwitch_backend h
  | cfgOptFD => exact applySwitch_backend h
  | cfgOptOther =>
      cases h
      exact ⟨rfl, .inr ⟨_, rfl⟩⟩
  | cfgOptBitrate =>
      dsimp only [applyConfigOption] at h
      cases hvalue : getInt value with
      | none =>
          rw [hvalue] at h
          cases h
      | some bitrate =>
          rw [hvalue] at h
          cases outcome with
          | error errno =>
              cases h
              exact ⟨rfl, .inr ⟨_, rfl⟩⟩
          | ok u =>
              cases h
              exact ⟨rfl, .inl rfl⟩

/-- With an open socket an option goes to the socket, and that is all. -/
theorem setConfigOption_open {s : System F ω} (h : s.backend._socket ≠ -1) (opt : ConfigOption)
    (value : ConfigOptionValue) (outcome : Except String Unit) :
    s.setConfigOption opt value outcome =
      (s.applyConfigOption opt value outcome).map Prod.snd := by
  rw [System.setConfigOption, if_pos h]
  cases happly : s.applyConfigOption opt value outcome with
  | none => rfl
  | some r =>
      obtain ⟨ok, s'⟩ := r
      obtain ⟨rfl, -⟩ := applyConfigOption_backend happly
      rfl

/-- Without one, `_fdEnabled` takes the value of its option, and no option is stored. -/
theorem setConfigOption_closed {s : System F ω} (hopts : NoOptions s.backend.toCanInterface)
    (h : s.backend._socket = -1) (opt : ConfigOption) (value : ConfigOptionValue)
    (outcome : Except String Unit) :
    s.setConfigOption opt value outcome =
      if opt = .cfgOptFD then
        (getBool value).map fun on => { s with backend._fdEnabled := on }
      else some s := by
  have hbase : s.backend.toCanInterface.setConfigOption opt value = s.backend.toCanInterface :=
    hopts.setConfigOption opt value
  rw [System.setConfigOption, if_neg (not_not_intro h)]
  change (if opt = .cfgOptFD then _ else _) = _
  dsimp only
  rw [hbase]
  split_ifs
  · cases getBool value <;> rfl
  · rfl

/-- Of the backend, an option that is given changes `_fdEnabled` or the error only. -/
theorem setConfigOption_backend {s s' : System F ω} (hopts : NoOptions s.backend.toCanInterface)
    {opt : ConfigOption} {value : ConfigOptionValue} {outcome : Except String Unit}
    (h : s.setConfigOption opt value outcome = some s') :
    (∃ on, s'.backend = { s.backend with _fdEnabled := on }) ∨
      ∃ message, s'.backend = s.backend.setError message .configurationError := by
  by_cases hclosed : s.backend._socket = -1
  · rw [setConfigOption_closed hopts hclosed] at h
    split_ifs at h
    · obtain ⟨on, -, rfl⟩ := Option.map_eq_some_iff.mp h
      exact .inl ⟨on, rfl⟩
    · cases h
      exact .inl ⟨s.backend._fdEnabled, rfl⟩
  · rw [setConfigOption_open hclosed] at h
    obtain ⟨⟨ok, t⟩, happly, rfl⟩ := Option.map_eq_some_iff.mp h
    obtain ⟨-, hb | herror⟩ := applyConfigOption_backend happly
    · exact .inl ⟨s.backend._fdEnabled, hb⟩
    · exact .inr herror

theorem Wired.setConfigOption {s s' : System F ω} (H : Wired s) {opt : ConfigOption}
    {value : ConfigOptionValue} {outcome : Except String Unit}
    (h : s.setConfigOption opt value outcome = some s') : Wired s' := by
  obtain ⟨on, hb⟩ | ⟨message, hb⟩ := setConfigOption_backend H.options h
  · constructor <;> rw [hb]
    · exact H.options
    · exact H.settled
    · exact H.coherent
    · exact H.socket
  · constructor <;> rw [hb]
    · exact H.options
    · exact H.settled
    · exact H.coherent.setError message .configurationError
    · exact H.socket

/-! ## Runs -/

/-- Every call keeps it. -/
theorem Wired.step {s : System F ω} (H : Wired s) (func : F) {call : Call}
    (hcall : call.Possible) : Wired ((usage func).step s call).1 := by
  cases call with
  | connect calls =>
      obtain ⟨ok, s', hconnect, H', -⟩ := H.connect func hcall
      simp only [usage, hconnect]
      exact H'
  | disconnect => exact H.disconnect
  | setConfigOption opt value outcome =>
      cases hset : s.setConfigOption opt value outcome with
      | none =>
          simp only [usage, hset]
          exact H
      | some s' =>
          simp only [usage, hset]
          exact H.setConfigOption hset

/-- And so does every run. -/
theorem wired_usage {s : System F ω} (h : New s) (func : F) {ops : List Call}
    (hops : ∀ call ∈ ops, call.Possible) : Wired ((usage func).state s ops) :=
  (usage func).state_induction Wired s ops h.wired fun _ call hcall H =>
    H.step func (hops call hcall)

/-- **The connection state.** After any calls on a new backend, whatever the operating
system answered, the state is not a pending one, a connected backend has a socket, and the
states announced step as they should and end in the present one; and the next `connect`
returns, with `true` just when it connects the disconnected backend. -/
theorem connection_states {s : System F ω} (h : New s) (func : F) {ops : List Call}
    (hops : ∀ call ∈ ops, call.Possible) :
    let t := (usage func).state s ops
    (t.backend.state = .disconnectedState ∨ t.backend.state = .connectedState) ∧
    (t.backend.state = .connectedState → 0 ≤ t.backend._socket) ∧
    List.IsChain CanConnectionState.Next (.disconnectedState :: t.backend.announced) ∧
    (.disconnectedState :: t.backend.announced).getLast? = some t.backend.state ∧
    ∀ calls : OpenCalls, calls.Possible → ∃ ok t', t.connect func calls = some (ok, t') ∧
      (ok = true ↔
        t.backend.state = .disconnectedState ∧ t'.backend.state = .connectedState) := by
  have H : Wired ((usage func).state s ops) := wired_usage h func hops
  refine ⟨H.settled, H.socket, H.coherent.steps, H.coherent.ends, ?_⟩
  intro calls hcalls
  obtain ⟨ok, t', hconnect, -, hiff⟩ := H.connect func hcalls
  exact ⟨ok, t', hconnect, hiff⟩

theorem new_start : New start := ⟨"can0", rfl⟩

/-- A connection that is refused at `bind`, and a second attempt that finds its socket left
over. -/
def refusedTwice : List Call :=
  [.connect { granted 5 with bind := .error "No such device" }, .connect (granted 6)]

theorem possible_refusedTwice : ∀ call ∈ refusedTwice, call.Possible := by
  intro call hcall
  simp only [refusedTwice, List.mem_cons, List.not_mem_nil, or_false] at hcall
  obtain rfl | rfl := hcall
  · intro fd hfd
    cases hfd
    decide
  · intro fd hfd
    cases hfd
    decide

theorem connection_states_refused :
    let t := (usage ()).state start refusedTwice
    (t.backend.state = .disconnectedState ∨ t.backend.state = .connectedState) ∧
    (t.backend.state = .connectedState → 0 ≤ t.backend._socket) ∧
    List.IsChain CanConnectionState.Next (.disconnectedState :: t.backend.announced) ∧
    (.disconnectedState :: t.backend.announced).getLast? = some t.backend.state ∧
    ∀ calls : OpenCalls, calls.Possible → ∃ ok t', t.connect () calls = some (ok, t') ∧
      (ok = true ↔
        t.backend.state = .disconnectedState ∧ t'.backend.state = .connectedState) :=
  connection_states new_start () possible_refusedTwice

end DPFlow.System
