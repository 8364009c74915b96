import DPFlow.SocketCan.Reachable

/-!
# Retrying a connection

`open` leaves early when a system call fails. Before it has a descriptor that changes
nothing; afterwards it keeps the descriptor in `_socket`, open, and every later `open`
finds it there and refuses. A backend recovers from failed connections just when they all
failed in `socket`.

## Main definitions

* `System.LeftAsBefore` — nothing but the error fields and the log has changed.
* `System.Recovers` — failed attempts leave the backend as before, and it can still connect.
-/
namespace DPFlow.System

open Lib CanInterface EventDispatcher

variable {F ω : Type}

/-- Nothing has changed but the error fields and the log of signals. -/
structure LeftAsBefore (s s' : System F ω) : Prop where
  backend : ∃ lastError errorMessage emitted, s'.backend = { s.backend with
    _lastError := lastError, _errorMessage := errorMessage, emitted := emitted }
  app : s'.app = s.app
  descriptors : s'.descriptors = s.descriptors

/-- A disconnected backend with no open socket. -/
structure Idle (s : System F ω) : Prop where
  options : NoOptions s.backend.toCanInterface
  state : s.backend._state = .disconnectedState
  socket : s.backend._socket = -1

/-- One of the system calls fails. -/
def OpenCalls.Failing (calls : OpenCalls) : Prop :=
  (∃ errno, calls.socket = .error errno) ∨ (∃ fd, calls.socket = .ok fd) ∧ calls.Refused

/-- All of them succeed. -/
def OpenCalls.Succeeding (calls : OpenCalls) : Prop :=
  (∃ fd, calls.socket = .ok fd) ∧ ¬ calls.Refused

/-- The backend after a number of attempts to connect. -/
def attempt (func : F) (s : System F ω) (attempts : List OpenCalls) : System F ω :=
  (usage func).state s (attempts.map .connect)

/-- After any number of the failed attempts the backend is as before, and after all of them
it can still connect. -/
def Recovers (func : F) (s : System F ω) (attempts : List OpenCalls) : Prop :=
  (∀ pre, pre <+: attempts → LeftAsBefore s (attempt func s pre)) ∧
  ∀ calls : OpenCalls, calls.Succeeding → ∃ s',
    (attempt func s attempts).connect func calls = some (true, s') ∧
      s'.backend.state = .connectedState

theorem LeftAsBefore.refl (s : System F ω) : LeftAsBefore s s where
  backend := ⟨_, _, _, rfl⟩
  app := rfl
  descriptors := rfl

theorem LeftAsBefore.trans {s t u : System F ω} (h : LeftAsBefore s t) (h' : LeftAsBefore t u) :
    LeftAsBefore s u := by
  obtain ⟨_, _, _, hb⟩ := h.backend
  obtain ⟨_, _, _, hb'⟩ := h'.backend
  refine ⟨?_, h'.app.trans h.app, h'.descriptors.trans h.descriptors⟩
  rw [hb] at hb'
  exact ⟨_, _, _, hb'⟩

theorem LeftAsBefore.idle {s t : System F ω} (h : LeftAsBefore s t) (H : Idle s) : Idle t := by
  obtain ⟨_, _, _, hb⟩ := h.backend
  constructor
  · exact hb ▸ H.options
  · exact hb ▸ H.state
  · exact hb ▸ H.socket

/-! ## One attempt -/

section attempt
variable {s : System F ω}

/-- A failure of `socket` leaves the backend as before. -/
theorem Idle.connect_socket_error (H : Idle s) (func : F) {calls : OpenCalls} {errno : String}
    (h : calls.socket = .error errno) :
    ∃ s', s.connect func calls = some (false, s') ∧ LeftAsBefore s s' := by
  obtain ⟨errno', message, -, hconnect⟩ | ⟨fd, message, hfd, -⟩ | ⟨fd, app, hfd, -⟩ :=
    connect_cases H.options H.state H.socket func calls
  · refine ⟨_, hconnect, ⟨?_, rfl, rfl⟩⟩
    refine ⟨.connectionError, message, s.backend.emitted ++
      [.connectionStateChanged .connectionPendingState, .errorOccurred .connectionError,
        .connectionStateChanged .disconnectedState], ?_⟩
    simp [System.setState, System.setError, SocketCanBackend.setState, SocketCanBackend.setError,
      CanInterface.setState, CanInterface.setError, emit, H.state]
  · rw [h] at hfd
    cases hfd
  · rw [h] at hfd
    cases hfd

/-- A later failure leaves the descriptor behind. -/
theorem Idle.connect_refused (H : Idle s) (func : F) {calls : OpenCalls} {fd : Int}
    (hfd : calls.socket = .ok fd) (hrefused : calls.Refused) :
    ∃ s', s.connect func calls = some (false, s') ∧ s'.backend._socket = fd := by
  obtain ⟨errno, message, herror, -⟩ | ⟨fd', message, hfd', -, hconnect⟩ |
    ⟨fd', app, -, hgranted, -⟩ := connect_cases H.options H.state H.socket func calls
  · rw [hfd] at herror
    cases herror
  · rw [hfd] at hfd'
    cases hfd'
    exact ⟨_, hconnect, rfl⟩
  · exact absurd hrefused hgranted

/-- With all calls succeeding, an idle backend connects. -/
theorem Idle.connect_succeeding (H : Idle s) (func : F) {calls : OpenCalls}
    (h : calls.Succeeding) :
    ∃ s', s.connect func calls = some (true, s') ∧ s'.backend._state = .connectedState := by
  obtain ⟨⟨fd, hfd⟩, hgranted⟩ := h
  obtain ⟨errno, message, herror, -⟩ | ⟨fd', message, -, hrefused, -⟩ |
    ⟨fd', app, -, -, hconnect⟩ := connect_cases H.options H.state H.socket func calls
  · rw [hfd] at herror
    cases herror
  · exact absurd hrefused hgranted
  · exact ⟨_, hconnect, setState_state _ _⟩

end attempt

/-! ## Any number of attempts -/

theorem attempt_concat (func : F) (s : System F ω) (pre : List OpenCalls) (calls : OpenCalls) :
    attempt func s (pre ++ [calls]) =
      ((usage func).step (attempt func s pre) (.connect calls)).1 := by
  rw [attempt, List.map_append, Mealy.state_append]
  rfl

/-- **When a backend recovers.** A backend that any calls have led to, disconnected and with
no open socket, recovers from any number of failed attempts to connect just when they all
failed in `socket`. -/
theorem recovers_iff {func : F} {s : System F ω} (h : Reachable func s)
    (hstate : s.backend.state = .disconnectedState) (hsocket : s.backend._socket = -1)
    {attempts : List OpenCalls} (hpossible : ∀ calls ∈ attempts, OpenCalls.Possible calls)
    (hfailing : ∀ calls ∈ attempts, OpenCalls.Failing calls) :
    Recovers func s attempts ↔
      ∀ calls ∈ attempts, ∃ errno, calls.socket = .error errno := by
  have H : Idle s := ⟨h.wired.options, hstate, hsocket⟩
  constructor
  · rintro ⟨hbefore, -⟩ calls hcalls
    obtain ⟨errno, h⟩ | ⟨⟨fd, hfd⟩, hrefused⟩ := hfailing calls hcalls
    · exact ⟨errno, h⟩
    · obtain ⟨pre, post, hsplit⟩ := List.append_of_mem hcalls
      have hpre : pre ++ [calls] <+: attempts := ⟨post, by simp [hsplit]⟩
      have Hpre : Idle (attempt func s pre) :=
        (hbefore pre ((List.prefix_append _ _).trans hpre)).idle H
      obtain ⟨s', hconnect, hs'⟩ := Hpre.connect_refused func hfd hrefused
      -- the attempt should have left no socket, and has left its own
      have hafter : (attempt func s (pre ++ [calls])).backend._socket = -1 :=
        ((hbefore _ hpre).idle H).socket
      rw [attempt_concat] at hafter
      simp only [usage, hconnect] at hafter
      have hfd0 : 0 ≤ fd := hpossible calls hcalls fd hfd
      omega
  · intro herror
    have hbefore : ∀ pre, pre <+: attempts → LeftAsBefore s (attempt func s pre) := by
      intro pre
      induction pre using List.reverseRecOn with
      | nil => exact fun _ => .refl s
      | append_singleton pre calls ih =>
          intro hpre
          have hs := ih ((List.prefix_append _ _).trans hpre)
          obtain ⟨errno, h⟩ := herror calls (hpre.subset (by simp))
          obtain ⟨s', hconnect, hs'⟩ := (hs.idle H).connect_socket_error func h
          rw [attempt_concat]
          simp only [usage, hconnect]
          exact hs.trans hs'
    refine ⟨hbefore, ?_⟩
    intro calls hcalls
    exact ((hbefore attempts (List.prefix_refl _)).idle H).connect_succeeding func hcalls

/-- The process is out of descriptors. -/
def noSocket : OpenCalls := { granted 5 with socket := .error "Too many open files" }

/-- There is no such interface. -/
def noInterface : OpenCalls := { granted 5 with ifindex := .error "No such device" }

theorem recovers_noSocket :
    Recovers () start [noSocket, noSocket] ↔
      ∀ calls ∈ [noSocket, noSocket], ∃ errno, calls.socket = .error errno := by
  have hall : ∀ calls ∈ [noSocket, noSocket], calls = noSocket := by
    intro calls hcalls
    simpa using hcalls
  refine recovers_iff (.new new_start) rfl rfl ?_ ?_
  · intro calls hcalls fd hfd
    rw [hall calls hcalls] at hfd
    cases hfd
  · intro calls hcalls
    rw [hall calls hcalls]
    exact .inl ⟨_, rfl⟩

/-- The interface index cannot be had once: the socket stays open in `_socket`, and the next
`connect`, with nothing in its way, is refused. -/
theorem recovers_fails_ifindex :
    let s := attempt () start [noInterface]
    New start ∧ start.backend.state = .disconnectedState ∧ start.backend._socket = -1 ∧
      noInterface.Failing ∧ noInterface.Possible ∧ (granted 6).Succeeding ∧
      s.backend._socket = 5 ∧ s.descriptors 5 = some (.canRaw {}) ∧
      ¬ LeftAsBefore start s ∧
      (∃ s', s.connect () (granted 6) = some (false, s') ∧
        s'.backend.state = .disconnectedState) ∧
      ¬ Recovers () start [noInterface] := by
  have hsocket : (attempt () start [noInterface]).backend._socket = 5 := by decide
  have hleft : ¬ LeftAsBefore start (attempt () start [noInterface]) := by
    intro h
    have hbefore := (h.idle ⟨rfl, rfl, rfl⟩).socket
    rw [hsocket] at hbefore
    exact absurd hbefore (by decide)
  refine ⟨new_start, rfl, rfl, .inr ⟨⟨5, rfl⟩, .inl ⟨_, rfl⟩⟩, ?_, ?_, hsocket, by decide,
    hleft, ⟨_, rfl, by decide⟩, ?_⟩
  · intro fd hfd
    cases hfd
    decide
  · refine ⟨⟨6, rfl⟩, ?_⟩
    rintro (⟨errno, h⟩ | ⟨errno, h⟩) <;> cases h
  · exact fun h => hleft (h.1 _ (List.prefix_refl _))

end DPFlow.System
