import DPFlow.EventDispatcher.Registration
import DPFlow.SocketCan.Basic

/-!
# Connections and the dispatcher's registrations

`open` has the application watch the new socket, `close` lets the kernel forget it, and
nothing takes the callback out of `m_files` again. The interface, the map and the
interest list are in step as long as no connection is taken down, and none is made on a
descriptor for which an earlier one, of another backend, has left its callback.

## Main definitions

* `System.sessions` — a backend under `connect` and `disconnect`, all system calls
  succeeding.
* `System.Fresh` — a new backend beside any registrations of others.
* `System.InStep` — the three agree on whether the socket is watched.
-/
namespace DPFlow.System

open Lib CanInterface EventDispatcher

variable {F ω : Type}

/-- A call of the user. A connection gets the given descriptor from `socket`. -/
inductive Op
  | connect (fd : Int)
  | disconnect
  deriving DecidableEq, Repr

/-- Every system call succeeds. -/
def granted (fd : Int) : OpenCalls :=
  { socket := .ok fd, ifindex := .ok (), bind := .ok (), option := fun _ => .ok (),
    watch := true }

/-- A backend under `connect` and `disconnect`; a connection's result is emitted. An
exception, which no option of these runs throws, would leave nothing to go on with. -/
def sessions (func : F) : Mealy (System F ω) Op Bool where
  step s op := match op with
    | .connect fd => match s.connect func (granted fd) with
      | some (ok, s') => (s', [ok])
      | none => (s, [])
    | .disconnect => (s.disconnect, [])

/-- `socket` hands out descriptors that are not open. -/
def Unused (func : F) (s : System F ω) (ops : List Op) : Prop :=
  ∀ p ∈ (sessions func).visits s ops, ∀ fd, p.2 = .connect fd →
    0 ≤ fd ∧ p.1.descriptors fd = none

/-- A new backend. Others may have registered what they like, and left it behind; the kernel
watches open descriptors only. -/
structure Fresh (func : F) (s : System F ω) : Prop where
  backend : ∃ channel, s.backend = SocketCanBackend.init channel
  interest : ∀ {fd}, s.descriptors fd = none → s.app.interest fd = none
  others : ∀ key, s.app.mFiles key ≠ some func

/-- The interface, `m_files` and the interest list agree: a connected backend's socket is
registered and watched for reading, a disconnected backend has no registration. -/
def InStep (func : F) (s : System F ω) : Prop :=
  (s.backend._state = .connectedState →
    s.app.mFiles (s.backend._socket, .read) = some func ∧
      s.app.interest s.backend._socket = some ⟨0x001, s.backend._socket⟩) ∧
  (s.backend._state = .disconnectedState → ∀ key, s.app.mFiles key ≠ some func)

/-- What all calls keep: no call is under way, no option is stored, a disconnected backend has
no socket, and the kernel watches open descriptors only. -/
structure Tidy (s : System F ω) : Prop where
  settled : s.backend._state = .disconnectedState ∨ s.backend._state = .connectedState
  options : s.backend._configOptions = fun _ => none
  closed : s.backend._state = .disconnectedState → s.backend._socket = -1
  interest : ∀ {fd}, s.descriptors fd = none → s.app.interest fd = none

theorem Fresh.disconnected {func : F} {s : System F ω} (h : Fresh func s) :
    s.backend._state = .disconnectedState := by
  obtain ⟨channel, hb⟩ := h.backend
  rw [hb]
  rfl

theorem Fresh.tidy {func : F} {s : System F ω} (h : Fresh func s) : Tidy s where
  settled := .inl h.disconnected
  options := by
    obtain ⟨channel, hb⟩ := h.backend
    rw [hb]
    rfl
  closed _ := by
    obtain ⟨channel, hb⟩ := h.backend
    rw [hb]
    rfl
  interest := h.interest

theorem Fresh.inStep {func : F} {s : System F ω} (h : Fresh func s) : InStep func s := by
  constructor
  · intro hconn
    rw [h.disconnected] at hconn
    cases hconn
  · exact fun _ => h.others

/-! ## Steps -/

/-- With no options stored, `open` goes all the way, whatever `addFile` says. -/
theorem openSocket_granted {s : System F ω} (hsocket : s.backend._socket = -1)
    (hopts : s.backend._configOptions = fun _ => none) (fd : Int) (func : F) :
    ∃ s', s.openSocket func (granted fd) = some (true, s') ∧
      s'.app = (s.app.addFile fd .read func true).1 ∧
      s'.descriptors = Function.update s.descriptors fd (some (.canRaw {})) ∧
      s'.backend._socket = fd ∧ s'.backend._state = .connectedState ∧
      s'.backend._configOptions = fun _ => none := by
  rw [openSocket, if_neg (not_not_intro hsocket)]
  simp only [granted]
  rw [configOptions_eq_nil (by simp [System.setState, SocketCanBackend.setState, hopts])]
  refine ⟨_, rfl, rfl, rfl, rfl, setState_state _ _, ?_⟩
  exact (setState_configOptions _ _).trans hopts

/-- What a connection of a disconnected backend comes to. -/
theorem Tidy.connect_eq {s : System F ω} (H : Tidy s)
    (hdisc : s.backend._state = .disconnectedState) (fd : Int) (func : F) :
    ∃ s', s.connect func (granted fd) = some (true, s') ∧
      s'.app = (s.app.addFile fd .read func true).1 ∧
      s'.descriptors = Function.update s.descriptors fd (some (.canRaw {})) ∧
      s'.backend._socket = fd ∧ s'.backend._state = .connectedState ∧
      s'.backend._configOptions = fun _ => none := by
  obtain ⟨s', hopen, happ, hdescriptors, hsocket, hstate, hopts⟩ :=
    openSocket_granted (s := s.setState .connectionPendingState) (H.closed hdisc)
      ((setState_configOptions _ _).trans H.options) fd func
  refine ⟨{ s' with backend := s'.backend.clearError }, ?_, happ, hdescriptors, hsocket, hstate,
    hopts⟩
  rw [System.connect, if_neg (not_not_intro hdisc)]
  simp [hopen]

/-- A second `connect` is refused. -/
theorem connect_refused {s : System F ω} (h : s.backend._state ≠ .disconnectedState) (func : F)
    (calls : OpenCalls) :
    s.connect func calls =
      some (false, s.setError "Disconnect before connecting" .connectionError) := by
  rw [System.connect, if_pos h]

theorem disconnect_eq_self {s : System F ω} (h : s.backend._state = .disconnectedState) :
    s.disconnect = s := if_pos (.inl h)

theorem disconnect_eq_close {s : System F ω} (h : s.backend._state = .connectedState) :
    s.disconnect = (s.setState .disconnectPendingState).close := by
  have hlive : ¬ (s.backend._state = .disconnectedState ∨
      s.backend._state = .disconnectPendingState) := by rw [h]; decide
  exact if_neg hlive

/-- Taking a connection down leaves `m_files` as it is. -/
theorem disconnect_connected {s : System F ω} (h : s.backend._state = .connectedState) :
    s.disconnect.backend._state = .disconnectedState ∧
      s.disconnect.app.mFiles = s.app.mFiles := by
  rw [disconnect_eq_close h]
  exact ⟨setState_state _ _, rfl⟩

theorem Tidy.step {s : System F ω} (H : Tidy s) (func : F) (op : Op) :
    Tidy ((sessions func).step s op).1 := by
  cases op with
  | connect fd =>
      obtain hdisc | hconn := H.settled
      · obtain ⟨s', hconnect, happ, hdescriptors, -, hstate, hopts⟩ := H.connect_eq hdisc fd func
        simp only [sessions, hconnect]
        refine ⟨.inr hstate, hopts, ?_, ?_⟩
        · intro h
          rw [hstate] at h
          cases h
        · intro fd' hfree
          rw [hdescriptors] at hfree
          -- the new descriptor is open, so this is another one
          have hne : fd' ≠ fd := by
            rintro rfl
            rw [Function.update_self] at hfree
            cases hfree
          rw [Function.update_of_ne hne] at hfree
          rw [happ]
          obtain hsame | ⟨bit, -, -, hadd⟩ := addFile_cases s.app fd .read func true
          · rw [hsame]
            exact H.interest hfree
          · rw [hadd, setFile_interest, Function.update_of_ne hne]
            exact H.interest hfree
      · have hbusy : s.backend._state ≠ .disconnectedState := by rw [hconn]; decide
        simp only [sessions, connect_refused hbusy]
        exact ⟨H.settled, H.options, H.closed, H.interest⟩
  | disconnect =>
      obtain hdisc | hconn := H.settled
      · simp only [sessions, disconnect_eq_self hdisc]
        exact H
      · simp only [sessions, disconnect_eq_close hconn]
        refine ⟨.inl (setState_state _ _), ?_, fun _ => rfl, ?_⟩
        · exact (setState_configOptions _ _).trans ((setState_configOptions _ _).trans H.options)
        · intro fd hfree
          change Function.update s.descriptors s.backend._socket none fd = none at hfree
          change Function.update s.app.interest s.backend._socket none fd = none
          by_cases hfd : fd = s.backend._socket
          · rw [hfd, Function.update_self]
          · rw [Function.update_of_ne hfd] at hfree ⊢
            exact H.interest hfree

/-- A call that takes no connection down, and makes none on a descriptor that `m_files` still
has a callback for. -/
def Keeps (p : System F ω × Op) : Prop :=
  (p.2 = .disconnect → p.1.backend._state ≠ .connectedState) ∧
  ∀ fd, p.2 = .connect fd → p.1.backend._state = .disconnectedState →
    p.1.app.mFiles (fd, .read) = none

/-- **One call.** The three stay in step just when the call is such a one. -/
theorem Tidy.inStep_step_iff {func : F} {s : System F ω} (H : Tidy s) (h : InStep func s) {op : Op}
    (hunused : ∀ fd, op = .connect fd → 0 ≤ fd ∧ s.descriptors fd = none) :
    InStep func ((sessions func).step s op).1 ↔ Keeps (s, op) := by
  cases op with
  | connect fd =>
      obtain ⟨hfd, hfree⟩ := hunused fd rfl
      obtain hdisc | hconn := H.settled
      · obtain ⟨s', hconnect, happ, -, hsocket, hstate, -⟩ := H.connect_eq hdisc fd func
        simp only [sessions, hconnect]
        cases hfile : s.app.mFiles (fd, .read) with
        | none =>
            have hadd := addFile_eq hfd rfl hfile (H.interest hfree) func
            refine iff_of_true ⟨fun _ => ?_, fun hd => ?_⟩ ⟨fun hd => (by cases hd), ?_⟩
            · rw [happ, hsocket, hadd]
              exact ⟨Function.update_self .., Function.update_self ..⟩
            · rw [hstate] at hd
              cases hd
            · intro fd' hfd' _
              cases hfd'
              exact hfile
        | some g =>
            -- `addFile` refuses, and the callback is somebody else's
            have hrefused : s.app.addFile fd .read func true = (s.app, false) := by
              rw [addFile, if_neg (not_lt.mpr hfd), hfile]
              rfl
            refine iff_of_false ?_ ?_
            · intro hstep
              have hmine := (hstep.1 hstate).1
              rw [happ, hsocket, hrefused] at hmine
              exact h.2 hdisc _ hmine
            · intro hkeeps
              have hnone : s.app.mFiles (fd, .read) = none := hkeeps.2 fd rfl hdisc
              rw [hfile] at hnone
              cases hnone
      · have hbusy : s.backend._state ≠ .disconnectedState := by rw [hconn]; decide
        simp only [sessions, connect_refused hbusy]
        refine iff_of_true h ⟨fun hd => (by cases hd), fun fd' _ hd => absurd hd hbusy⟩
  | disconnect =>
      obtain hdisc | hconn := H.settled
      · simp only [sessions, disconnect_eq_self hdisc]
        refine iff_of_true h ⟨fun _ hconn => ?_, fun fd' hd => (by cases hd)⟩
        change s.backend._state = .connectedState at hconn
        rw [hdisc] at hconn
        cases hconn
      · -- the callback is registered before the call, and still after it
        obtain ⟨hstate, hfiles⟩ := disconnect_connected hconn
        refine iff_of_false ?_ fun hkeeps => hkeeps.1 rfl hconn
        intro hstep
        refine hstep.2 hstate (s.backend._socket, .read) ?_
        change s.disconnect.app.mFiles _ = _
        rw [hfiles]
        exact (h.1 hconn).1

/-! ## Runs -/

/-- **When the registrations stay in step.** In a run of `connect` and `disconnect` on a new
backend, all system calls succeeding, the interface, `m_files` and the interest list agree after
every call just when no `disconnect` is made in the connected state, and no connection gets a
descriptor that `m_files` still has a callback for. -/
theorem inStep_iff {func : F} {s : System F ω} (h : Fresh func s) {ops : List Op}
    (hunused : Unused func s ops) :
    (∀ pre, pre <+: ops → InStep func ((sessions func).state s pre)) ↔
      ∀ p ∈ (sessions func).visits s ops,
        (p.2 = .disconnect → p.1.backend._state ≠ .connectedState) ∧
        ∀ fd, p.2 = .connect fd → p.1.backend._state = .disconnectedState →
          p.1.app.mFiles (fd, .read) = none := by
  refine (sessions func).forall_prefix_iff (InStep func) Keeps s ops h.inStep ?_
  intro p hp hbefore
  obtain ⟨pre, -, hp1⟩ := (sessions func).mem_visits_iff.mp hp
  have H : Tidy p.1 := by
    rw [hp1]
    exact (sessions func).state_induction Tidy s pre h.tidy fun t op _ ht => ht.step func op
  exact H.inStep_step_iff hbefore (hunused p hp)

/-- A new backend on a machine with no other descriptor. -/
def start : System Unit Unit :=
  { backend := SocketCanBackend.init "can0"
    app := EventDispatcher.init (fun _ => 0) ()
    descriptors := fun _ => none }

theorem fresh_start : Fresh () start where
  backend := ⟨"can0", rfl⟩
  interest _ := rfl
  others _ h := by cases h

theorem unused_start : Unused () start [.connect 5, .disconnect, .connect 5] := by
  intro p hp fd hfd
  simp only [Mealy.visits_cons, Mealy.visits_nil, List.mem_cons, List.not_mem_nil,
    or_false] at hp
  obtain rfl | rfl | rfl := hp
  · cases hfd
    decide
  · cases hfd
  · cases hfd
    decide

/-- After `disconnect` the callback is still in `m_files`; after the second `connect` the
backend is connected and the kernel does not watch its socket. -/
theorem reconnect_not_watched :
    Fresh () start ∧ Unused () start [.connect 5, .disconnect, .connect 5] ∧
    ¬ InStep () ((sessions ()).state start [.connect 5, .disconnect]) ∧
    ((sessions ()).state start [.connect 5, .disconnect, .connect 5]).backend._state =
      .connectedState ∧
    ((sessions ()).state start [.connect 5, .disconnect, .connect 5]).app.interest 5 = none := by
  refine ⟨fresh_start, unused_start, ?_, by decide, by decide⟩
  intro h
  exact h.2 (by decide) (5, .read) (by decide)

/-- A new backend beside one that has left its callback for descriptor 7 behind. -/
def startBeside : System Bool Unit :=
  { backend := SocketCanBackend.init "can1"
    app := { EventDispatcher.init (fun _ => 0) () with
      mFiles := fun key => if key = (7, .read) then some false else none }
    descriptors := fun _ => none }

theorem fresh_startBeside : Fresh true startBeside where
  backend := ⟨"can1", rfl⟩
  interest _ := rfl
  others key h := by
    change (if key = (7, .read) then some false else none) = some true at h
    split_ifs at h
    cases h

theorem unused_startBeside : Unused true startBeside [.disconnect, .connect 5, .connect 6] := by
  intro p hp fd hfd
  simp only [Mealy.visits_cons, Mealy.visits_nil, List.mem_cons, List.not_mem_nil,
    or_false] at hp
  obtain rfl | rfl | rfl := hp
  · cases hfd
  · cases hfd
    decide
  · cases hfd
    decide

/-- It is not connected, then connects on descriptor 5, and is refused a second connection. -/
theorem inStep_beside :
    (∀ pre, pre <+: [.disconnect, .connect 5, .connect 6] →
      InStep true ((sessions true).state startBeside pre)) ∧
    ((sessions true).state startBeside [.disconnect, .connect 5, .connect 6]).backend._state =
      .connectedState := by
  refine ⟨(inStep_iff fresh_startBeside unused_startBeside).mpr ?_, by decide⟩
  intro p hp
  simp only [Mealy.visits_cons, Mealy.visits_nil, List.mem_cons, List.not_mem_nil,
    or_false] at hp
  obtain rfl | rfl | rfl := hp
  · exact ⟨fun _ => by decide, fun fd hfd => (by cases hfd)⟩
  · refine ⟨fun hd => (by cases hd), fun fd hfd _ => ?_⟩
    cases hfd
    rfl
  · exact ⟨fun hd => (by cases hd), fun fd _ hdisc => absurd hdisc (by decide)⟩

/-- On descriptor 7 it would be connected, and not watched. -/
example : ((sessions true).state startBeside [.connect 7]).backend._state = .connectedState ∧
    ((sessions true).state startBeside [.connect 7]).app.interest 7 = none := by decide

end DPFlow.System
