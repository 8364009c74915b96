import DPFlow.SocketCan.Connection
import DPFlow.SocketCan.Wire

/-!
# The flexible-rate option

`CfgOptFD` lives in `_fdEnabled`, which `send` looks at, and in the socket. A value given
without a connection reaches only the first, for no option is stored to be applied later;
one given with a connection reaches only the second, for `applyConfigOption` always answers
that it failed. The two have the last value given as long as that value is `false`.

## Main definitions

* `System.Call.Granted` — calls with values of the right kind, all system calls succeeding.
* `System.lastFd`, `System.linked` — what a list of calls asks for.
* `System.FdView` — the option in its places, and what a call does to them.
* `System.FdInStep` — the backend, its socket and the last value given agree.
-/
namespace DPFlow.System

open Lib CanInterface EventDispatcher

variable {F ω : Type}

/-! ## Calls -/

/-- The alternative of `ConfigOptionValue` that an option expects. -/
def Expected : ConfigOption → ConfigOptionValue → Prop
  | .cfgOptLoopback, .bool _ | .cfgOptRxOwn, .bool _ | .cfgOptFD, .bool _ => True
  | .cfgOptBitrate, .int _ => True
  | .cfgOptOther, _ => True
  | _, _ => False

/-- What holds of each option with all the values it expects. -/
@[elab_as_elim]
theorem Expected.induction {motive : ConfigOption → ConfigOptionValue → Prop}
    {opt : ConfigOption} {value : ConfigOptionValue} (h : Expected opt value)
    (bitrate : ∀ n, motive .cfgOptBitrate (.int n))
    (loopback : ∀ on, motive .cfgOptLoopback (.bool on))
    (rxOwn : ∀ on, motive .cfgOptRxOwn (.bool on)) (fd : ∀ on, motive .cfgOptFD (.bool on))
    (other : ∀ v, motive .cfgOptOther v) : motive opt value := by
  cases opt <;> cases value <;> first
    | exact h.elim
    | solve_by_elim

/-- All system calls succeed, and the value is what the option expects. -/
def Call.Granted : Call → Prop
  | .connect calls => ∃ fd, 0 ≤ fd ∧ calls = granted fd
  | .disconnect => True
  | .setConfigOption opt value outcome => Expected opt value ∧ outcome = .ok ()

/-- The value that a call gives to `CfgOptFD`. -/
def fdValue : Call → Option Bool
  | .setConfigOption .cfgOptFD (.bool on) _ => some on
  | _ => none

/-- Whether a call asks for a connection, or to end one. -/
def link : Call → Option Bool
  | .connect _ => some true
  | .disconnect => some false
  | _ => none

/-- The last value given to `CfgOptFD`, off if none was. -/
def lastFd (ops : List Call) : Bool := (ops.filterMap fdValue).getLast?.getD false

/-- The last of the connections and disconnections asked for was a connection. -/
def linked (ops : List Call) : Bool := (ops.filterMap link).getLast?.getD false

/-! ## The option in its places -/

/-- Whether there is a connection, the option in `_fdEnabled` and in the socket, and the
last value given. -/
structure FdView where
  linked : Bool
  enabled : Bool
  kernel : Bool
  last : Bool
  deriving DecidableEq, Repr

namespace FdView

/-- A new connection has a new socket, with the option off. -/
def connect (v : FdView) : FdView :=
  if v.linked then v else { v with linked := true, kernel := false }

def disconnect (v : FdView) : FdView := { v with linked := false }

/-- A value goes to one place: the socket, or `_fdEnabled` when there is none. -/
def give (v : FdView) : Option Bool → FdView
  | some on =>
      if v.linked then { v with kernel := on, last := on } else { v with enabled := on, last := on }
  | none => v

@[simp] theorem give_linked (v : FdView) (value : Option Bool) :
    (v.give value).linked = v.linked := by
  cases value with
  | none => rfl
  | some on =>
      rw [give]
      split_ifs <;> rfl

theorem give_of_linked {v : FdView} (h : v.linked = true) (value : Option Bool) :
    (v.give value).enabled = v.enabled ∧ (v.give value).kernel = value.getD v.kernel := by
  cases value <;> simp [give, h]

theorem give_unlinked {v : FdView} (h : v.linked = false) (value : Option Bool) :
    (v.give value).enabled = value.getD v.enabled := by
  cases value <;> simp [give, h]

/-- What a call does. -/
def step (v : FdView) : Call → FdView
  | .connect _ => v.connect
  | .disconnect => v.disconnect
  | .setConfigOption opt value outcome => v.give (fdValue (.setConfigOption opt value outcome))

/-- The two places agree with the last value. -/
def Agree (v : FdView) : Prop := v.enabled = v.kernel ∧ v.kernel = v.last

/-- Off everywhere with a connection; without one, `_fdEnabled` has the last value. -/
structure Off (v : FdView) : Prop where
  linked : v.linked = true → v.enabled = false ∧ v.kernel = false ∧ v.last = false
  unlinked : v.linked = false → v.enabled = v.last

theorem Off.connect {v : FdView} (h : v.Off)
    (hnext : v.connect.last = false ∨ v.connect.Agree) : v.connect.Off := by
  rw [FdView.connect] at hnext ⊢
  split_ifs at hnext ⊢ with hlinked
  · exact h
  · have henabled : v.enabled = v.last := h.unlinked (Bool.eq_false_iff.mpr hlinked)
    have hlast : v.last = false := hnext.elim id fun hagree => hagree.2.symm
    exact ⟨fun _ => ⟨henabled.trans hlast, rfl, hlast⟩, (nomatch ·)⟩

theorem Off.disconnect {v : FdView} (h : v.Off) : v.disconnect.Off := by
  refine ⟨(nomatch ·), fun _ => ?_⟩
  change v.enabled = v.last
  cases hlinked : v.linked with
  | false => exact h.unlinked hlinked
  | true =>
      obtain ⟨henabled, -, hlast⟩ := h.linked hlinked
      exact henabled.trans hlast.symm

theorem Off.give {v : FdView} (h : v.Off) (value : Option Bool)
    (hnext : (v.give value).linked = true → (v.give value).last = false ∨ (v.give value).Agree) :
    (v.give value).Off := by
  cases value with
  | none => exact h
  | some on =>
      rw [FdView.give] at hnext ⊢
      split_ifs at hnext ⊢ with hlinked
      · obtain ⟨henabled, -, -⟩ := h.linked hlinked
        -- the socket has the value and `_fdEnabled` is off, so the value is `false`
        have hon : on = false :=
          (hnext hlinked).elim id fun hagree => hagree.1.symm.trans henabled
        exact ⟨fun _ => ⟨henabled, hon, hon⟩, fun h' => nomatch hlinked.symm.trans h'⟩
      · exact ⟨fun h' => absurd h' hlinked, fun _ => rfl⟩

/-- A call keeps everything off if a connection that it leaves has the last value `false`, or
agrees with it. -/
theorem Off.step {v : FdView} (h : v.Off) (call : Call)
    (hnext : (v.step call).linked = true → (v.step call).last = false ∨ (v.step call).Agree) :
    (v.step call).Off := by
  cases call with
  | connect calls =>
      refine h.connect (hnext ?_)
      rw [FdView.step, FdView.connect]
      split_ifs with hlinked
      · exact hlinked
      · rfl
  | disconnect => exact h.disconnect
  | setConfigOption opt value outcome => exact h.give _ hnext

end FdView

/-- The view after a list of calls on a new backend. -/
def view (ops : List Call) : FdView := ops.foldl FdView.step ⟨false, false, false, false⟩

theorem view_concat (pre : List Call) (call : Call) :
    view (pre ++ [call]) = (view pre).step call := by
  rw [view, List.foldl_append]
  rfl

/-- Adding a call to a list adds what it selects at the end. -/
theorem getLast?_filterMap_concat (f : Call → Option Bool) (pre : List Call) (call : Call) :
    ((pre ++ [call]).filterMap f).getLast?.getD false =
      (f call).getD ((pre.filterMap f).getLast?.getD false) := by
  rw [List.filterMap_append, List.getLast?_append]
  cases h : f call <;> simp [h]

/-- The view knows what the calls ask for. -/
theorem view_asked (ops : List Call) : (view ops).linked = linked ops ∧
    (view ops).last = lastFd ops := by
  induction ops using List.reverseRecOn with
  | nil => exact ⟨rfl, rfl⟩
  | append_singleton pre call ih =>
      obtain ⟨hlinked, hlast⟩ := ih
      rw [linked, lastFd, getLast?_filterMap_concat, getLast?_filterMap_concat, ← linked,
        ← lastFd, ← hlinked, ← hlast, view_concat]
      cases call with
      | connect calls =>
          rw [FdView.step, FdView.connect]
          split_ifs with h
          · exact ⟨h, rfl⟩
          · exact ⟨rfl, rfl⟩
      | disconnect => exact ⟨rfl, rfl⟩
      | setConfigOption opt value outcome =>
          rw [FdView.step]
          cases fdValue (.setConfigOption opt value outcome) with
          | none => exact ⟨rfl, rfl⟩
          | some on =>
              rw [FdView.give]
              split_ifs <;> exact ⟨rfl, rfl⟩

/-! ## Agreement -/

/-- `send` hands the frame to `write`. -/
def Admits (b : SocketCanBackend) (frame : CanFrame) : Prop :=
  ∃ sent, b.send frame (.ok ()) = some sent ∧ sent.written ≠ none

/-- The backend and its socket have the last value given, so that `send` lets through just
the flexible-rate frames that the socket takes. -/
def FdInStep (s : System F ω) (last : Bool) : Prop :=
  ∃ socket, s.descriptors s.backend._socket = some (.canRaw socket) ∧
    s.backend._fdEnabled = socket.fdFrames ∧ socket.fdFrames = last ∧
    ∀ frame : CanFrame, frame.isValid = true → frame.isFD = true →
      (Admits s.backend frame ↔ socket.fdFrames = true)

/-- A connected backend admits valid flexible-rate frames just when they are enabled. -/
theorem admits_iff {b : SocketCanBackend} (hconn : b._state = .connectedState) {frame : CanFrame}
    (hvalid : frame.isValid = true) (hfd : frame.isFD = true) :
    Admits b frame ↔ b._fdEnabled = true := by
  have hstate : ¬ b._state ≠ .connectedState := not_not_intro hconn
  obtain ⟨bytes, hencode, -, -⟩ :=
    SocketCanBackend.encode_received (CanFrame.length_payload_le hvalid)
  rw [Admits]
  cases hon : b._fdEnabled with
  | true => simp [SocketCanBackend.send, if_neg hstate, hvalid, hfd, hon, hencode]
  | false => simp [SocketCanBackend.send, if_neg hstate, hvalid, hfd, hon]

/-! ## One call -/

/-- The backend has the option as the view says. -/
structure Shows (v : FdView) (s : System F ω) : Prop where
  wired : Wired s
  enabled : s.backend._fdEnabled = v.enabled
  opened : v.linked = true → s.backend._state = .connectedState ∧
    ∃ socket, s.descriptors s.backend._socket = some (.canRaw socket) ∧
      socket.fdFrames = v.kernel
  closed : v.linked = false → s.backend._state = .disconnectedState ∧ s.backend._socket = -1

section step
variable {v : FdView} {s : System F ω}

/-- A connected backend is in step just when the view's places agree. -/
theorem Shows.inStep_iff_agree (H : Shows v s) (h : v.linked = true) :
    FdInStep s v.last ↔ v.Agree := by
  obtain ⟨hconn, socket, hsocket, hkernel⟩ := H.opened h
  constructor
  · rintro ⟨socket', hsocket', henabled, hlast, -⟩
    rw [hsocket] at hsocket'
    cases hsocket'
    rw [H.enabled, hkernel] at henabled
    rw [hkernel] at hlast
    exact ⟨henabled, hlast⟩
  · rintro ⟨henabled, hlast⟩
    refine ⟨socket, hsocket, ?_, hkernel.trans hlast, ?_⟩
    · rw [H.enabled, hkernel, henabled]
    · intro frame hvalid hfd
      rw [admits_iff hconn hvalid hfd, H.enabled, hkernel, henabled]

/-- A new connection has a new socket, with the option off. -/
theorem Wired.connect_granted (H : Wired s) (hdisc : s.backend._state = .disconnectedState)
    (hclosed : s.backend._socket = -1) (func : F) (fd : Int) :
    ∃ s', s.connect func (granted fd) = some (true, s') ∧
      s'.backend._state = .connectedState ∧ s'.backend._fdEnabled = s.backend._fdEnabled ∧
      s'.descriptors s'.backend._socket = some (.canRaw {}) := by
  obtain ⟨errno, message, herror, -⟩ | ⟨fd', message, -, hrefused, -⟩ |
    ⟨fd', app, -, -, hconnect⟩ := connect_cases H.options hdisc hclosed func (granted fd)
  · cases herror
  · obtain ⟨errno, h⟩ | ⟨errno, h⟩ := hrefused <;> cases h
  · refine ⟨_, hconnect, setState_state _ _, rfl, ?_⟩
    exact Function.update_self ..

/-- With a connection, an option leaves `_fdEnabled`; the socket's setting takes the value
of its own option only. -/
theorem setConfigOption_connected {opt : ConfigOption} {value : ConfigOptionValue}
    {socket : CanSocket} (hopen : s.backend._socket ≠ -1)
    (hsocket : s.descriptors s.backend._socket = some (.canRaw socket))
    (hvalue : Expected opt value) :
    ∃ s' socket', s.setConfigOption opt value (.ok ()) = some s' ∧
      s'.backend._state = s.backend._state ∧ s'.backend._fdEnabled = s.backend._fdEnabled ∧
      s'.descriptors s'.backend._socket = some (.canRaw socket') ∧
      socket'.fdFrames =
        (fdValue (.setConfigOption opt value (.ok ()))).getD socket.fdFrames := by
  rw [setConfigOption_open hopen]
  have hset : ∀ change : CanSocket → CanSocket, s.setsockopt change =
      { s with descriptors :=
          Function.update s.descriptors s.backend._socket (some (.canRaw (change socket))) } := by
    intro change
    rw [setsockopt, hsocket]
  refine hvalue.induction ?_ ?_ ?_ ?_ ?_
  · exact fun _ => ⟨_, socket, rfl, rfl, rfl, hsocket, rfl⟩
  · exact fun _ => ⟨_, _, congrArg some (hset _), rfl, rfl, Function.update_self .., rfl⟩
  · exact fun _ => ⟨_, _, congrArg some (hset _), rfl, rfl, Function.update_self .., rfl⟩
  · exact fun _ => ⟨_, _, congrArg some (hset _), rfl, rfl, Function.update_self .., rfl⟩
  · exact fun _ => ⟨_, socket, rfl, rfl, rfl, hsocket, rfl⟩

/-- Without one, `_fdEnabled` takes the value of its own option only. -/
theorem setConfigOption_unconnected {opt : ConfigOption} {value : ConfigOptionValue}
    (hopts : NoOptions s.backend.toCanInterface) (hclosed : s.backend._socket = -1)
    (hvalue : Expected opt value) :
    ∃ s', s.setConfigOption opt value (.ok ()) = some s' ∧
      s'.backend._state = s.backend._state ∧ s'.backend._socket = s.backend._socket ∧
      s'.backend._fdEnabled =
        (fdValue (.setConfigOption opt value (.ok ()))).getD s.backend._fdEnabled := by
  rw [setConfigOption_closed hopts hclosed]
  refine hvalue.induction ?_ ?_ ?_ ?_ ?_ <;> exact fun _ => ⟨_, rfl, rfl, rfl, rfl⟩

theorem Call.Granted.possible {call : Call} (h : call.Granted) : call.Possible := by
  cases call with
  | connect calls =>
      obtain ⟨fd, hfd, rfl⟩ := h
      intro fd' hfd'
      cases hfd'
      exact hfd
  | disconnect => trivial
  | setConfigOption opt value outcome => trivial

theorem Shows.connect (H : Shows v s) (func : F) {fd : Int} (hfd : 0 ≤ fd) :
    Shows (v.step (.connect (granted fd))) ((usage func).step s (.connect (granted fd))).1 := by
  have W : Wired ((usage func).step s (.connect (granted fd))).1 :=
    H.wired.step func (Call.Granted.possible ⟨fd, hfd, rfl⟩)
  rw [FdView.step, FdView.connect]
  split_ifs with hlinked
  · obtain ⟨hconn, -⟩ := H.opened hlinked
    have hrefused : s.connect func (granted fd) =
        some (false, s.setError "Disconnect before connecting" .connectionError) :=
      if_pos (by rw [hconn]; decide)
    simp only [usage, hrefused] at W ⊢
    exact ⟨W, H.enabled, H.opened, H.closed⟩
  · obtain ⟨hdisc, hclosed⟩ := H.closed (Bool.eq_false_iff.mpr hlinked)
    obtain ⟨s', hconnect, hconn, hsame, hsocket⟩ :=
      H.wired.connect_granted hdisc hclosed func fd
    simp only [usage, hconnect] at W ⊢
    exact ⟨W, hsame.trans H.enabled, fun _ => ⟨hconn, {}, hsocket, rfl⟩, (nomatch ·)⟩

theorem Shows.disconnect (H : Shows v s) (func : F) :
    Shows (v.step .disconnect) ((usage func).step s .disconnect).1 := by
  have W : Wired ((usage func).step s .disconnect).1 := H.wired.step func trivial
  change Shows { v with linked := false } s.disconnect
  cases hlinked : v.linked with
  | false =>
      obtain ⟨hdisc, hclosed⟩ := H.closed hlinked
      rw [disconnect_eq_self hdisc]
      exact ⟨H.wired, H.enabled, (nomatch ·), fun _ => ⟨hdisc, hclosed⟩⟩
  | true =>
      obtain ⟨hconn, -⟩ := H.opened hlinked
      have hdisc := (disconnect_connected hconn).1
      have hclose := disconnect_eq_close hconn
      refine ⟨W, ?_, (nomatch ·), fun _ => ⟨hdisc, ?_⟩⟩
      · rw [hclose]
        exact H.enabled
      · rw [hclose]
        rfl

theorem Shows.setConfigOption (H : Shows v s) (func : F) {opt : ConfigOption}
    {value : ConfigOptionValue} (hvalue : Expected opt value) :
    Shows (v.step (.setConfigOption opt value (.ok ())))
      ((usage func).step s (.setConfigOption opt value (.ok ()))).1 := by
  have W : Wired ((usage func).step s (.setConfigOption opt value (.ok ()))).1 :=
    H.wired.step func trivial
  rw [FdView.step]
  cases hlinked : v.linked with
  | false =>
      obtain ⟨hdisc, hclosed⟩ := H.closed hlinked
      obtain ⟨s', hset, hstate, hsocket, hfd⟩ :=
        setConfigOption_unconnected H.wired.options hclosed hvalue
      simp only [usage, hset] at W ⊢
      have hlinked' : (v.give (fdValue (.setConfigOption opt value (.ok ())))).linked = false := by
        rw [FdView.give_linked, hlinked]
      refine ⟨W, ?_, fun h => (nomatch hlinked'.symm.trans h),
        fun _ => ⟨hstate.trans hdisc, hsocket.trans hclosed⟩⟩
      rw [hfd, H.enabled, FdView.give_unlinked hlinked]
  | true =>
      obtain ⟨hconn, socket, hsocket, hkernel⟩ := H.opened hlinked
      have hopen : s.backend._socket ≠ -1 := by
        have h0 := H.wired.socket hconn
        omega
      obtain ⟨s', socket', hset, hconn', henabled', hsocket', hfd⟩ :=
        setConfigOption_connected hopen hsocket hvalue
      simp only [usage, hset] at W ⊢
      have hlinked' : (v.give (fdValue (.setConfigOption opt value (.ok ())))).linked = true := by
        rw [FdView.give_linked, hlinked]
      obtain ⟨henabledv, hkernelv⟩ :=
        FdView.give_of_linked hlinked (fdValue (.setConfigOption opt value (.ok ())))
      refine ⟨W, ?_, fun _ => ⟨hconn'.trans hconn, socket', hsocket', ?_⟩,
        fun h => (nomatch hlinked'.symm.trans h)⟩
      · rw [henabled', H.enabled, henabledv]
      · rw [hfd, hkernel, hkernelv]

end step

/-! ## Runs -/

/-- A run of such calls shows what its view says. -/
theorem shows_usage {s : System F ω} (hnew : New s) (func : F) {ops : List Call}
    (hops : ∀ call ∈ ops, call.Granted) : Shows (view ops) ((usage func).state s ops) := by
  induction ops using List.reverseRecOn with
  | nil =>
      obtain ⟨channel, hb⟩ := hnew
      refine ⟨New.wired ⟨channel, hb⟩, ?_, (nomatch ·), fun _ => ?_⟩
      · rw [Mealy.state_nil, hb]
        rfl
      · rw [Mealy.state_nil, hb]
        exact ⟨rfl, rfl⟩
  | append_singleton pre call ih =>
      have H := ih fun c hc => hops c (List.mem_append_left _ hc)
      have hcall := hops call (List.mem_append_right _ (List.mem_singleton_self call))
      rw [view_concat, Mealy.state_append]
      cases call with
      | connect calls =>
          obtain ⟨fd, hfd, rfl⟩ := hcall
          exact H.connect func hfd
      | disconnect => exact H.disconnect func
      | setConfigOption opt value outcome =>
          obtain ⟨hvalue, rfl⟩ := hcall
          exact H.setConfigOption func hvalue

/-- A view stays off as long as every connection finds the last value `false`, or agrees
with it. -/
theorem off_view {ops : List Call}
    (hnext : ∀ pre, pre <+: ops → (view pre).linked = true →
      (view pre).last = false ∨ (view pre).Agree) : (view ops).Off := by
  induction ops using List.reverseRecOn with
  | nil => exact ⟨(nomatch ·), fun _ => rfl⟩
  | append_singleton pre call ih =>
      have hoff := ih fun pre' hpre' => hnext pre' (hpre'.trans (List.prefix_append _ _))
      have hafter := hnext _ (List.prefix_refl _)
      rw [view_concat] at hafter ⊢
      exact hoff.step call hafter

/-- **When the flexible-rate option is in step.** In a run of calls on a new backend, with
values of the right kind and all system calls succeeding, a connected backend, its socket
and the last value given agree after every call just when that value is `false`, or none was
given, whenever there is a connection. -/
theorem fdInStep_iff {s : System F ω} (hnew : New s) (func : F) {ops : List Call}
    (hops : ∀ call ∈ ops, call.Granted) :
    (∀ pre, pre <+: ops →
        ((usage func).state s pre).backend.state = .connectedState →
        FdInStep ((usage func).state s pre) (lastFd pre)) ↔
      ∀ pre, pre <+: ops → linked pre = true → lastFd pre = false := by
  have hshows : ∀ pre, pre <+: ops → Shows (view pre) ((usage func).state s pre) :=
    fun pre hpre => shows_usage hnew func fun call hcall => hops call (hpre.subset hcall)
  -- a connection that finds the last value `false`, or in step, is off everywhere
  have hoff : (∀ pre, pre <+: ops → (view pre).linked = true →
      (view pre).last = false ∨ (view pre).Agree) →
      ∀ pre, pre <+: ops → (view pre).linked = true →
        (view pre).enabled = false ∧ (view pre).kernel = false ∧ (view pre).last = false := by
    intro hnext pre hpre hlinked
    exact (off_view fun pre' hpre' => hnext pre' (hpre'.trans hpre)).linked hlinked
  simp only [← (view_asked _).1, ← (view_asked _).2]
  constructor
  · intro hstep pre hpre hlinked
    refine (hoff ?_ pre hpre hlinked).2.2
    intro pre' hpre' hlinked'
    have H := hshows pre' hpre'
    exact .inr ((H.inStep_iff_agree hlinked').mp (hstep pre' hpre' (H.opened hlinked').1))
  · intro hlast pre hpre hconn
    have H := hshows pre hpre
    have hlinked : (view pre).linked = true := by
      by_contra hnot
      have hdisc := (H.closed (Bool.eq_false_iff.mpr hnot)).1
      exact absurd (hdisc.symm.trans hconn) (by decide)
    obtain ⟨henabled, hkernel, hfalse⟩ :=
      hoff (fun pre' hpre' hlinked' => .inl (hlast pre' hpre' hlinked')) pre hpre hlinked
    exact (H.inStep_iff_agree hlinked).mpr ⟨henabled.trans hkernel.symm, hkernel.trans hfalse.symm⟩

/-- The option given before the connection is made. -/
def giveThenConnect (on : Bool) : List Call :=
  [.setConfigOption .cfgOptFD (.bool on) (.ok ()), .connect (granted 5)]

/-- The option given when there is a connection. -/
def connectThenGive (on : Bool) : List Call :=
  [.connect (granted 5), .setConfigOption .cfgOptFD (.bool on) (.ok ())]

theorem granted_giveThenConnect (on : Bool) : ∀ call ∈ giveThenConnect on, call.Granted := by
  intro call hcall
  simp only [giveThenConnect, List.mem_cons, List.not_mem_nil, or_false] at hcall
  obtain rfl | rfl := hcall
  · exact ⟨trivial, rfl⟩
  · exact ⟨5, by decide, rfl⟩

theorem granted_connectThenGive (on : Bool) : ∀ call ∈ connectThenGive on, call.Granted := by
  intro call hcall
  refine granted_giveThenConnect on call ?_
  exact (List.Perm.swap _ _ []).mem_iff.mp hcall

theorem fdInStep_off :
    (∀ pre, pre <+: giveThenConnect false →
        ((usage ()).state start pre).backend.state = .connectedState →
        FdInStep ((usage ()).state start pre) (lastFd pre)) ↔
      ∀ pre, pre <+: giveThenConnect false → linked pre = true → lastFd pre = false :=
  fdInStep_iff new_start () (granted_giveThenConnect false)

/-- Given first, the option is on in `_fdEnabled` and off in the socket; given to a
connection, it is the other way round. -/
theorem fdInStep_fails :
    let s := (usage ()).state start (giveThenConnect true)
    let t := (usage ()).state start (connectThenGive true)
    New start ∧ (∀ call ∈ giveThenConnect true, call.Granted) ∧
      (∀ call ∈ connectThenGive true, call.Granted) ∧
      s.backend.state = .connectedState ∧ s.backend._fdEnabled = true ∧
      s.descriptors s.backend._socket = some (.canRaw { fdFrames := false }) ∧
      ¬ FdInStep s (lastFd (giveThenConnect true)) ∧
      t.backend.state = .connectedState ∧ t.backend._fdEnabled = false ∧
      t.descriptors t.backend._socket = some (.canRaw { fdFrames := true }) ∧
      ¬ FdInStep t (lastFd (connectThenGive true)) := by
  refine ⟨new_start, granted_giveThenConnect true, granted_connectThenGive true, by decide,
    by decide, by decide, ?_, by decide, by decide, by decide, ?_⟩
  · rintro ⟨socket, hsocket, henabled, -⟩
    cases hsocket
    exact absurd henabled (by decide)
  · rintro ⟨socket, hsocket, henabled, -⟩
    cases hsocket
    exact absurd henabled (by decide)

end DPFlow.System
