import DPFlow.Application.Run
import DPFlow.CanBus.Registry
import DPFlow.SocketCan.Connection
import Mathlib

/-!
# The program

`main` gives itself two seconds, takes the name of an interface apart at its first dot, has
the plugin make a bus, connects it, and runs. The socket is watched, but a result of
`epoll_wait` is looked up under its event mask and its descriptor in each other's places, so
that the callback that would read frames does not run. What is left is the timer.

## Main definitions

* `Main.splitInterface` — the plugin and the channel of an interface's name.
* `Main.Callback`, `Main.tasks` — the callbacks that the program registers.
* `Main.main` — the program, on the answers of the operating system.
-/
namespace DPFlow.Main

open EventDispatcher Application
open SocketCanBackend (Datagram)

/-! ## The name of an interface -/

/-- `std::string::find` of a character; `none` is `npos`. -/
def find (s : List Char) (c : Char) : Option ℕ := s.findIdx? (· == c)

/-- `std::string::substr`; it throws for a position behind the end. -/
def substr (s : List Char) (pos : ℕ) (count : Option ℕ) : Option (List Char) :=
  if pos > s.length then none
  else match count with
    | some n => some ((s.drop pos).take n)
    | none => some (s.drop pos)

/-- The plugin and the channel. -/
def splitInterface (interface : List Char) : Option (List Char × List Char) := do
  let plugin ← substr interface 0 (find interface '.')
  let channel ← substr interface (plugin.length + 1) (some interface.length)
  return (plugin, channel)

theorem find_append_cons {plugin channel : List Char} (h : '.' ∉ plugin) :
    find (plugin ++ '.' :: channel) '.' = some plugin.length := by
  rw [find, List.findIdx?_append, List.findIdx?_eq_none_iff.mpr ?_]
  · simp [List.findIdx?_cons]
  · intro c hc
    refine beq_false_of_ne ?_
    rintro rfl
    exact h hc

/-- **A name is taken apart at its first dot**, and a name without one throws. -/
theorem splitInterface_eq_some_iff (interface plugin channel : List Char) :
    splitInterface interface = some (plugin, channel) ↔
      interface = plugin ++ '.' :: channel ∧ '.' ∉ plugin := by
  have hparts : ∀ plugin channel : List Char, '.' ∉ plugin →
      splitInterface (plugin ++ '.' :: channel) = some (plugin, channel) := by
    intro plugin channel h
    have hdrop : (plugin ++ '.' :: channel).drop (plugin.length + 1) = channel := by
      rw [List.drop_append]
      simp
    rw [splitInterface, find_append_cons h]
    simp only [substr, hdrop, Nat.not_lt_zero, gt_iff_lt, if_false, List.drop_zero,
      List.take_left', Option.bind_eq_bind, Option.bind_some]
    rw [if_neg (by simp), Option.bind_some, List.take_of_length_le (by simp; omega)]
    rfl
  constructor
  · intro h
    by_cases hdot : '.' ∈ interface
    · obtain ⟨plugin', channel', rfl, hplugin⟩ := List.eq_append_cons_of_mem hdot
      rw [hparts plugin' channel' hplugin] at h
      cases h
      exact ⟨rfl, hplugin⟩
    · -- the plugin is the whole name, and the channel would begin behind its end
      have hnone : find interface '.' = none := by
        rw [find, List.findIdx?_eq_none_iff]
        intro c hc
        refine beq_false_of_ne ?_
        rintro rfl
        exact hdot hc
      rw [splitInterface, hnone] at h
      simp [substr] at h
  · rintro ⟨rfl, h⟩
    exact hparts plugin channel h

/-! ## The callbacks -/

/-- The callbacks that the program registers. -/
inductive Callback
  | kill
  | readSocket
  deriving DecidableEq, Repr

/-- The bus, once there is one; a call of its methods may never return. -/
abbrev Bus := Option (Except CanInterface.Deadlock SocketCanBackend)

/-- What the callbacks do: the timer exits, and the socket's has the slot of `main` receive
what `recvmsg` delivers, for at most `n` turns of the slot's loop. -/
def tasks (recvmsg : Host Callback Bus → List Datagram) (n : ℕ) : Tasks Callback Bus
  | .kill, d => { requests := [], exits := [0], env := d.env.2 }
  | .readSocket, d =>
      { requests := []
        exits := []
        env := d.env.2.map fun bus => do
          let bus ← bus
          bus.readSocket (CanInterface.drainSlot n) (recvmsg d) }

/-! ## The program -/

/-- `KILL_DELAY_MS`. -/
def killDelayMs : Int32 := 2000

/-- The plugin that `appStart` registers. -/
def socketCanPlugin : CanBus.PluginInfo (String → SocketCanBackend) Unit :=
  { name := "SocketCAN", create := some SocketCanBackend.init, scan := some () }

/-- How the program may end before it runs: with an exception that nobody catches, or with
a call of a pointer that was never initialized. -/
inductive Fault
  | outOfRange
  | wildPointer
  | badVariantAccess
  deriving DecidableEq, Repr

/-- What the operating system does: the clock, the descriptors that are open, the outcomes of
the system calls of a connection, the datagrams, and what is ready in each turn. -/
structure Os where
  clock : ℕ → Int
  descriptors : Int → Option Descriptor
  calls : System.OpenCalls
  recvmsg : Host Callback Bus → List Datagram
  polls : List Poll

/-- The application with its platform, and the timer that ends it. -/
def platform (clock : ℕ → Int) : Host Callback Bus :=
  ((EventDispatcher.init clock (Application.init, none)).addTimer killDelayMs .kill).1

/-- The bus before it is connected. -/
def busOf (os : Os) (factory : String → SocketCanBackend) (channel : List Char) :
    System Callback (Application × Bus) :=
  { backend := factory (String.ofList channel)
    app := platform os.clock
    descriptors := os.descriptors }

/-- The application with the bus. -/
def host (s : System Callback (Application × Bus)) : Host Callback Bus :=
  { s.app with env := (s.app.env.1, some (.ok s.backend)) }

/-- `main`, for the name of an interface. The result of `connect` is not looked at. -/
def main (os : Os) (n : ℕ) (interface : String) : Except Fault (Outcome Callback Bus) :=
  let plugins := (CanBus.registerPlugin ∅ socketCanPlugin).2
  match splitInterface interface.toList with
  | none => .error .outOfRange
  | some (plugin, channel) =>
      match (CanBus.create plugins (String.ofList plugin)).1 with
      | none => .error .wildPointer
      | some factory =>
          match (busOf os factory channel).connect .readSocket os.calls with
          | none => .error .badVariantAccess
          | some (_, s) => .ok (Application.run (tasks os.recvmsg n).program.call os.polls (host s))

/-! ## What is registered -/

/-- An interface that has received nothing. -/
def Unread (i : CanInterface) : Prop := i._rxFrames = [] ∧ .framesReceived ∉ i.emitted

theorem Unread.setState {i : CanInterface} (h : Unread i)
    (newState : CanInterface.CanConnectionState) : Unread (i.setState newState) := by
  rw [CanInterface.setState]
  split_ifs
  · exact h
  · refine ⟨h.1, ?_⟩
    simpa [CanInterface.emit] using h.2

theorem Unread.setError {i : CanInterface} (h : Unread i) (message : String)
    (error : CanInterface.CanBusError) : Unread (i.setError message error) := by
  refine ⟨h.1, ?_⟩
  simpa [CanInterface.setError, CanInterface.emit] using h.2

/-- What `open` leaves of a bus without options and without a socket: a backend that has
received nothing, and one registration more at most, that of the socket for reading. -/
theorem openSocket_registers {s : System Callback (Application × Bus)}
    (hclosed : s.backend._socket = -1) (hopts : System.NoOptions s.backend.toCanInterface)
    (hunread : Unread s.backend.toCanInterface) (calls : System.OpenCalls) :
    ∃ ok t, s.openSocket .readSocket calls = some (ok, t) ∧ Unread t.backend.toCanInterface ∧
      (t.app = s.app ∨ ∃ fd, calls.socket = .ok fd ∧
        t.app = (s.app.addFile fd .read .readSocket calls.watch).1) := by
  rw [System.openSocket, if_neg (not_not_intro hclosed)]
  cases hsocket : calls.socket with
  | error errno => exact ⟨_, _, rfl, hunread.setError _ _, .inl rfl⟩
  | ok fd =>
      cases hifindex : calls.ifindex with
      | error errno => exact ⟨_, _, rfl, hunread.setError _ _, .inl rfl⟩
      | ok u =>
          cases hbind : calls.bind with
          | error errno => exact ⟨_, _, rfl, hunread.setError _ _, .inl rfl⟩
          | ok v =>
              have hnone : ((s.opened fd).setState .connectedState).backend.configOptions = [] :=
                CanInterface.configOptions_eq_nil (hopts.setState .connectedState)
              refine ⟨true, { (s.opened fd).setState .connectedState with
                app := (s.app.addFile fd .read .readSocket calls.watch).1 }, ?_,
                hunread.setState .connectedState, .inr ⟨fd, rfl, rfl⟩⟩
              change System.applyOptions calls.option
                ((s.opened fd).setState .connectedState).backend.configOptions
                ((s.opened fd).setState .connectedState) >>= _ = _
              rw [hnone]
              rfl

/-- What connecting a new bus leaves. -/
theorem connect_registers {s : System Callback (Application × Bus)} (hnew : System.New s)
    (calls : System.OpenCalls) :
    ∃ ok s', s.connect .readSocket calls = some (ok, s') ∧ Unread s'.backend.toCanInterface ∧
      (s'.app = s.app ∨ ∃ fd, calls.socket = .ok fd ∧
        s'.app = (s.app.addFile fd .read .readSocket calls.watch).1) := by
  obtain ⟨channel, hb⟩ := hnew
  have hdisc : s.backend._state = .disconnectedState := by rw [hb]; rfl
  have hclosed : (s.setState .connectionPendingState).backend._socket = -1 := by
    change s.backend._socket = -1
    rw [hb]
    rfl
  have hunread : Unread s.backend.toCanInterface := by
    rw [hb]
    exact ⟨rfl, by simp [SocketCanBackend.init, CanInterface.init]⟩
  have hopts : System.NoOptions s.backend.toCanInterface := by rw [hb]; rfl
  obtain ⟨ok, t, hopen, ht, happ⟩ := openSocket_registers hclosed
    (hopts.setState .connectionPendingState) (hunread.setState .connectionPendingState) calls
  refine ⟨ok, _, System.connect_of_open hdisc hopen, ?_⟩
  cases ok with
  | true => exact ⟨ht, happ⟩
  | false => exact ⟨ht.setState _, happ⟩

/-! ## Turns without frames -/

/-- The program's dispatcher with the timer that ends it, due at the given reading, and no
registration but that of the socket. -/
structure Idle (os : Os) (due : Int) (d : Host Callback Bus) : Prop where
  clock : d.clock = os.clock
  timers : ∃ node id period, d.mTimers = [⟨node, id, period, due, .kill⟩]
  files : ∀ key func, d.mFiles key = some func → ∃ fd, os.calls.socket = .ok fd ∧ key = (fd, .read)

/-- What the kernel reports: an event of the socket, with an event mask that is not zero; and
there is fuel for the timer. -/
def Os.Sensible (os : Os) : Prop :=
  (∀ poll ∈ os.polls, 0 < poll.1) ∧
    ∀ poll ∈ os.polls, ∀ event ∈ poll.2, event.events ≠ 0 ∧ os.calls.socket = .ok event.fd

section turns
variable {os : Os} {due : Int} {d : Host Callback Bus} {n : ℕ}

/-- No event leads to a registration: the socket's would be 0 for the operation to be `Read`,
and the mask would be the socket. -/
theorem Idle.no_file (H : Idle os due d) {event : EpollEvent} (hmask : event.events ≠ 0)
    (hfd : os.calls.socket = .ok event.fd) : d.mFiles (dispatchKey event) = none := by
  by_contra hne
  obtain ⟨func, hfunc⟩ := Option.ne_none_iff_exists'.mp hne
  obtain ⟨fd, hfd', hkey⟩ := H.files _ _ hfunc
  rw [hfd] at hfd'
  cases hfd'
  obtain ⟨hmask', hread⟩ := Prod.mk.inj hkey
  have hzero : event.fd = 0 := by
    by_contra hfd0
    rw [FileOperation.ofInt, if_neg hfd0] at hread
    split_ifs at hread
  rw [hzero] at hmask'
  exact hmask (BitVec.eq_of_toInt_eq hmask')

theorem Idle.dispatchFiles (H : Idle os due d) {events : List EpollEvent}
    (hevents : ∀ event ∈ events, event.events ≠ 0 ∧ os.calls.socket = .ok event.fd) :
    (EventDispatcher.dispatchFiles (tasks os.recvmsg n).program.call).state d events = d ∧
      fileStarts (tasks os.recvmsg n).program d events = [] := by
  induction events with
  | nil => exact ⟨rfl, rfl⟩
  | cons event events ih =>
      obtain ⟨hmask, hfd⟩ := hevents event List.mem_cons_self
      obtain ⟨hstate, hstarts⟩ := ih fun e he => hevents e (List.mem_cons_of_mem _ he)
      have hnone := H.no_file hmask hfd
      have hstep : ((EventDispatcher.dispatchFiles (tasks os.recvmsg n).program.call).step d
          event).1 = d := by
        change (dispatchFile _ d event).1 = d
        simp only [dispatchFile, hnone]
      constructor
      · rw [Lib.Mealy.state_cons, hstep, hstate]
      · rw [fileStarts, Lib.Mealy.visits_cons, List.filterMap_cons, hstep]
        simp only [hnone, Option.map_none]
        exact hstarts

/-- A reading of the clock. -/
theorem Idle.now (H : Idle os due d) : Idle os due d.now.2 := ⟨H.clock, H.timers, H.files⟩

/-- A turn comes to its timer with one reading, and no file was run. -/
theorem Idle.loopStart (H : Idle os due d) {ready : List EpollEvent}
    (hready : ∀ event ∈ ready, event.events ≠ 0 ∧ os.calls.socket = .ok event.fd) :
    EventDispatcher.loopStart (tasks os.recvmsg n).program.call ready d = d.now.2 ∧
      fileStarts (tasks os.recvmsg n).program d.timeoutMs.2 (ready.take maxEvents) = [] := by
  obtain ⟨node, id, period, htimers⟩ := H.timers
  have htimeout : d.timeoutMs.2 = d.now.2 := by
    rw [EventDispatcher.timeoutMs, htimers]
  rw [EventDispatcher.loopStart, htimeout]
  exact H.now.dispatchFiles fun event he => hready event (List.mem_of_mem_take he)

/-- **A turn ahead of the end** takes two readings, and nothing else happens. -/
theorem Idle.turn_early (H : Idle os due d) (fuel : ℕ) {ready : List EpollEvent}
    (hready : ∀ event ∈ ready, event.events ≠ 0 ∧ os.calls.socket = .ok event.fd)
    (hearly : os.clock (d.reads + 1) < due) :
    (processEvents (tasks os.recvmsg n).program.call (fuel + 1) ready d).result =
        .ok (false, d.now.2.now.2) ∧
      exitsOf (tasks os.recvmsg n) (fuel + 1, ready) d = [] := by
  obtain ⟨hstart, hfiles⟩ := H.loopStart (n := n) hready
  obtain ⟨node, id, period, htimers⟩ := H.timers
  have hhead : d.now.2.mTimers.head?.map TimerInfo.node = some node := by
    change d.mTimers.head?.map TimerInfo.node = some node
    rw [htimers]
    rfl
  have hat : d.now.2.timerAt node = some ⟨node, id, period, due, .kill⟩ := by
    change d.mTimers.find? _ = _
    simp [htimers]
  have hnot : ¬ d.now.2.now.1 ≥ due := by
    rw [EventDispatcher.now, EventDispatcher.now, H.clock]
    exact not_le.mpr hearly
  constructor
  · refine processEvents_of_loop (n := 0) ?_
    rw [hstart, hhead, fireTimers, hat]
    exact if_neg hnot
  · rw [exitsOf, turnStarts, hfiles, timerStarts, hstart]
    dsimp only
    rw [hhead, starts, hat]
    dsimp only
    rw [if_neg hnot]
    rfl

/-- **The last turn** runs the timer, which exits, and leaves the bus as it is. -/
theorem Idle.turn_due (H : Idle os due d) (fuel : ℕ) {ready : List EpollEvent}
    (hready : ∀ event ∈ ready, event.events ≠ 0 ∧ os.calls.socket = .ok event.fd)
    (hdue : due ≤ os.clock (d.reads + 1)) :
    ∃ d', (processEvents (tasks os.recvmsg n).program.call (fuel + 1) ready d).result =
        .ok (true, d') ∧ d'.env = (d.env.1.exit 0, d.env.2) ∧
      exitsOf (tasks os.recvmsg n) (fuel + 1, ready) d = [0] := by
  obtain ⟨hstart, hfiles⟩ := H.loopStart (n := n) hready
  obtain ⟨node, id, period, htimers⟩ := H.timers
  let timer : TimerInfo Callback := ⟨node, id, period, due, .kill⟩
  let called := (tasks os.recvmsg n).program.call .kill d.now.2.now.2
  let next := called.now.2.rearm node called.now.1
  have hhead : d.now.2.mTimers.head?.map TimerInfo.node = some node := by
    change d.mTimers.head?.map TimerInfo.node = some node
    rw [htimers]
    rfl
  have hat : d.now.2.timerAt node = some timer := by
    change d.mTimers.find? _ = _
    simp [htimers, timer]
  have hat' : called.timerAt node = some timer := hat
  have hnext : nodeAfter node next.mTimers = none := by
    change nodeAfter node (d.mTimers.map _) = none
    simp [htimers, nodeAfter]
  have hyes : d.now.2.now.1 ≥ timer.expiry := by
    rw [EventDispatcher.now, EventDispatcher.now, H.clock]
    exact hdue
  refine ⟨next, ?_, rfl, ?_⟩
  · refine processEvents_of_loop (n := 1) ?_
    rw [hstart, hhead, fireTimers, hat]
    dsimp only
    rw [if_pos hyes, hat']
    change fireTimers _ fuel (nodeAfter node next.mTimers) (0 + 1) next = _
    rw [hnext]
    cases fuel <;> rfl
  · rw [exitsOf, turnStarts, hfiles, timerStarts, hstart]
    dsimp only
    rw [hhead, starts, hat]
    dsimp only
    rw [if_pos hyes, hat']
    change ([] ++ ((timer, d.now.2.now.2) ::
      starts _ fuel (nodeAfter node next.mTimers) next).map _).flatMap _ = _
    rw [hnext]
    cases fuel <;> rfl

/-- **The run of the program** from a reading on: it ends with the first turn that finds the
timer due, and it has not ended after turns that do not; the bus stays as it is. -/
theorem Idle.loop {polls : List Poll} (H : Idle os due d) (hrun : d.env.1.running = true)
    (hfuel : ∀ poll ∈ polls, 0 < poll.1)
    (hready : ∀ poll ∈ polls, ∀ event ∈ poll.2, event.events ≠ 0 ∧
      os.calls.socket = .ok event.fd) :
    ∃ d', d'.env.2 = d.env.2 ∧
      ((∃ k < polls.length, due ≤ os.clock (d.reads + 1 + 2 * k)) →
        Application.loop (tasks os.recvmsg n).program.call polls d = .returned 0 d') ∧
      ((∀ k < polls.length, os.clock (d.reads + 1 + 2 * k) < due) →
        Application.loop (tasks os.recvmsg n).program.call polls d = .waiting d') := by
  induction polls generalizing d with
  | nil =>
      refine ⟨d, rfl, ?_, ?_⟩
      · rintro ⟨k, hk, -⟩
        exact absurd hk (Nat.not_lt_zero k)
      · intro _
        exact if_pos hrun
  | cons poll polls ih =>
      obtain ⟨fuel, ready⟩ := poll
      obtain ⟨fuel, rfl⟩ := Nat.exists_eq_add_one_of_ne_zero
        (hfuel _ List.mem_cons_self).ne'
      have hready' := hready _ List.mem_cons_self
      by_cases hdue : due ≤ os.clock (d.reads + 1)
      · obtain ⟨d', hresult, henv, -⟩ := H.turn_due (n := n) fuel hready' hdue
        have hdown : d'.env.1.running = false := by rw [henv]; rfl
        refine ⟨d', by rw [henv], ?_, ?_⟩
        · intro _
          rw [Application.loop, if_pos hrun, hresult]
          dsimp only
          rw [loop_of_not_running _ _ hdown, henv]
          rfl
        · intro hearly
          exact absurd (hearly 0 (Nat.succ_pos _)) (not_lt.mpr hdue)
      · obtain ⟨hresult, -⟩ := H.turn_early (n := n) fuel hready' (not_le.mp hdue)
        obtain ⟨d', henv, hend, hwait⟩ := ih (d := d.now.2.now.2) H.now.now hrun
          (fun p hp => hfuel p (List.mem_cons_of_mem _ hp))
          (fun p hp => hready p (List.mem_cons_of_mem _ hp))
        have hstep : Application.loop (tasks os.recvmsg n).program.call
            ((fuel + 1, ready) :: polls) d =
              Application.loop (tasks os.recvmsg n).program.call polls d.now.2.now.2 := by
          rw [Application.loop, if_pos hrun, hresult]
        have hreads : ∀ k, d.now.2.now.2.reads + 1 + 2 * k = d.reads + 1 + 2 * (k + 1) := by
          intro k
          change d.reads + 1 + 1 + 1 + 2 * k = _
          omega
        rw [hstep]
        refine ⟨d', henv, ?_, ?_⟩
        · rintro ⟨k, hk, hlater⟩
          refine hend ?_
          cases k with
          | zero => exact absurd hlater hdue
          | succ k => exact ⟨k, Nat.lt_of_succ_lt_succ hk, by rwa [hreads]⟩
        · intro hearly
          refine hwait ?_
          intro k hk
          rw [hreads]
          exact hearly (k + 1) (Nat.succ_lt_succ hk)

end turns

/-! ## What the program does -/

/-- When the timer is due. -/
def deadline (clock : ℕ → Int) : Int := clock 0 + 2000000000

theorem idle_platform (os : Os) : Idle os (deadline os.clock) (platform os.clock) where
  clock := rfl
  timers := by
    refine ⟨0, 1, killDelayMs, ?_⟩
    change [_] = [_]
    rw [deadline, TimerInfo.expiryAt]
    rfl
  files _ _ h := nomatch h

/-- The socket's registration leaves the dispatcher idle. -/
theorem Idle.addFile {os : Os} {due : Int} {d : Host Callback Bus} (H : Idle os due d) {fd : Int}
    (hfd : os.calls.socket = .ok fd) (accept : Bool) :
    Idle os due (d.addFile fd .read .readSocket accept).1 ∧
      (d.addFile fd .read .readSocket accept).1.reads = d.reads ∧
      (d.addFile fd .read .readSocket accept).1.env = d.env := by
  rcases addFile_cases d fd .read .readSocket accept with h | ⟨bit, -, -, h⟩
  · rw [h]
    exact ⟨H, rfl, rfl⟩
  · rw [h]
    refine ⟨⟨H.clock, H.timers, ?_⟩, rfl, rfl⟩
    intro key func hkey
    rw [setFile_mFiles, Function.update_apply] at hkey
    split_ifs at hkey with hsocket
    · exact ⟨fd, hfd, hsocket⟩
    · exact H.files key func hkey

/-- The plugins that `main` finds: SocketCAN, and what was never registered. -/
theorem create_plugin (plugin : String) :
    (CanBus.create (CanBus.registerPlugin ∅ socketCanPlugin).2 plugin).1 =
      if plugin = "SocketCAN" then some SocketCanBackend.init else none := by
  have hregister : (CanBus.registerPlugin ∅ socketCanPlugin).2 =
      (∅ : CanBus.Registry (String → SocketCanBackend) Unit).insert "SocketCAN"
        socketCanPlugin := by
    rw [CanBus.registerPlugin_of_not_contains (by simp)]
    rfl
  rw [hregister, CanBus.create, CanBus.index, Std.TreeMap.getElem?_insert]
  by_cases hname : plugin = "SocketCAN"
  · simp [hname, socketCanPlugin]
  · have hcompare : compare "SocketCAN" plugin ≠ .eq := by
      intro heq
      exact hname (Std.LawfulEqCmp.eq_of_compare heq).symm
    simp [hname, hcompare, CanBus.PluginInfo.default]

/-- **The program.** A name without a dot throws; another plugin than SocketCAN makes it call
a pointer that was never initialized. Otherwise, whatever the system calls of the connection
answer and whatever is ready in its turns, it exits with status 0 in the first turn that finds
two seconds gone, and waits in every turn before; no frame that arrives is ever read. -/
theorem main_spec (os : Os) (hos : os.Sensible) (n : ℕ) (interface : String) :
    ('.' ∉ interface.toList ∧ main os n interface = .error .outOfRange) ∨
    (∃ plugin channel, interface.toList = plugin ++ '.' :: channel ∧ '.' ∉ plugin ∧
      String.ofList plugin ≠ "SocketCAN" ∧ main os n interface = .error .wildPointer) ∨
    ∃ channel, interface.toList = "SocketCAN".toList ++ '.' :: channel ∧
      ∃ d bus, d.env.2 = some (.ok bus) ∧ Unread bus.toCanInterface ∧
        ((∃ k < os.polls.length, deadline os.clock ≤ os.clock (2 * k + 2)) →
          main os n interface = .ok (.returned 0 d)) ∧
        ((∀ k < os.polls.length, os.clock (2 * k + 2) < deadline os.clock) →
          main os n interface = .ok (.waiting d)) := by
  rw [main]
  cases hsplit : splitInterface interface.toList with
  | none =>
      refine .inl ⟨?_, rfl⟩
      intro hdot
      obtain ⟨plugin, channel, hinterface, hplugin⟩ := List.eq_append_cons_of_mem hdot
      rw [(splitInterface_eq_some_iff _ _ _).mpr ⟨hinterface, hplugin⟩] at hsplit
      cases hsplit
  | some parts =>
      obtain ⟨plugin, channel⟩ := parts
      obtain ⟨hinterface, hplugin⟩ := (splitInterface_eq_some_iff _ _ _).mp hsplit
      refine .inr ?_
      dsimp only
      rw [create_plugin]
      by_cases hname : String.ofList plugin = "SocketCAN"
      · rw [if_pos hname]
        have hchars : plugin = "SocketCAN".toList := by rw [← hname, String.toList_ofList]
        refine .inr ⟨channel, hchars ▸ hinterface, ?_⟩
        let s := busOf os SocketCanBackend.init channel
        obtain ⟨ok, s', hconnect, hunread, happ⟩ :=
          connect_registers (s := s) ⟨String.ofList channel, rfl⟩ os.calls
        obtain ⟨Hidle, hreads, henv⟩ : Idle os (deadline os.clock) s'.app ∧ s'.app.reads = 1 ∧
            s'.app.env.1.started = false := by
          rcases happ with happ | ⟨fd, hfd, happ⟩
          · rw [happ]
            exact ⟨idle_platform os, rfl, rfl⟩
          · obtain ⟨H, hreads, henv⟩ := (idle_platform os).addFile hfd os.calls.watch
            have happ' : s'.app =
                ((platform os.clock).addFile fd .read .readSocket os.calls.watch).1 := happ
            rw [happ', hreads, henv]
            exact ⟨H, rfl, rfl⟩
        have Hbegin : Idle os (deadline os.clock) (begin (host s')) :=
          ⟨Hidle.clock, Hidle.timers, Hidle.files⟩
        obtain ⟨d, hbus, hend, hwait⟩ := Hbegin.loop (n := n) rfl hos.1 hos.2
        have hrun : Application.run (tasks os.recvmsg n).program.call os.polls (host s') =
            Application.loop (tasks os.recvmsg n).program.call os.polls (begin (host s')) :=
          if_neg (by
            change ¬ s'.app.env.1.started = true
            rw [henv]
            exact Bool.false_ne_true)
        have hindex : ∀ k, (begin (host s')).reads + 1 + 2 * k = 2 * k + 2 := by
          intro k
          change s'.app.reads + 1 + 2 * k = _
          omega
        simp only [hindex] at hend hwait
        refine ⟨d, s'.backend, hbus, hunread, ?_, ?_⟩
        · intro h
          simp only [s] at hconnect
          simp only [hconnect, hrun, hend h]
        · intro h
          simp only [s] at hconnect
          simp only [hconnect, hrun, hwait h]
      · rw [if_neg hname]
        exact .inl ⟨plugin, channel, hinterface, hplugin, hname, rfl⟩

/-- A clock with half a second between readings, and a socket that is always ready. -/
def halfSeconds : Os where
  clock n := n * 500000000
  descriptors _ := none
  calls := System.granted 5
  recvmsg _ := []
  polls := [(1, [⟨0x001, 5⟩]), (1, [⟨0x001, 5⟩])]

theorem sensible_halfSeconds : halfSeconds.Sensible := by
  constructor
  · decide
  · intro poll hpoll event hevent
    have hevent' : event = ⟨0x001, 5⟩ := by
      simp only [halfSeconds, List.mem_cons, List.not_mem_nil, or_false, or_self] at hpoll
      rw [hpoll] at hevent
      exact List.mem_singleton.mp hevent
    rw [hevent']
    exact ⟨by decide, rfl⟩

/-- The second turn is the last. -/
theorem main_spec_halfSeconds :
    ∃ d bus, d.env.2 = some (.ok bus) ∧ Unread bus.toCanInterface ∧
      main halfSeconds 1 "SocketCAN.can0" = .ok (.returned 0 d) := by
  have hsplit : splitInterface "SocketCAN.can0".toList =
      some ("SocketCAN".toList, "can0".toList) := by decide
  rcases main_spec halfSeconds sensible_halfSeconds 1 "SocketCAN.can0" with
    ⟨hdot, -⟩ | ⟨plugin, channel, hinterface, hplugin, hname, -⟩ |
      ⟨channel, -, d, bus, hbus, hunread, hend, -⟩
  · exact absurd hdot (by decide)
  · rw [(splitInterface_eq_some_iff _ _ _).mpr ⟨hinterface, hplugin⟩] at hsplit
    cases hsplit
    exact absurd rfl hname
  · exact ⟨d, bus, hbus, hunread, hend ⟨1, by decide, by decide⟩⟩

end DPFlow.Main
