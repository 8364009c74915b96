import DPFlow.CanBus.Registry
import DPFlow.SocketCan.Connection

/-!
# Descriptors over the life of a process

An interface opens a socket in `open`, and a connection that fails half-way leaves it open, in
`_socket`. The destructor closes what is there. A scan for channels opens a socket as well, and
binds it to one interface after another to see which of them are CAN interfaces. It never closes
it. So an interface has one descriptor at most, which goes when the interface does, and each scan
costs the process one for good.

## Main definitions

* `ScanCalls`, `SocketCanBackend.availableChannels` — a scan, on the answers of the operating
  system.
* `System.destroy` — the destructor.
* `System.ProcessOp`, `System.process` — a process that scans, and uses one interface after another.
* `System.Effect` — what one step does to the descriptors and to the dispatcher.
* `System.leaked`, `System.held` — the descriptors that scans, and the interface, have open.
* `System.Owned` — whose descriptors are open.
-/
namespace DPFlow

open Lib CanInterface
open CanBus (CanInterfaceInfo)

/-! ## Scanning -/

/-- An entry of `if_nameindex`, ahead of the entry of zeros. -/
structure NameIndex where
  index : UInt32
  name : String

/-- What the operating system answers to a scan. -/
structure ScanCalls where
  nameIndex : Option (List NameIndex)
  socket : Except String Int
  /-- Whether a raw CAN socket can be bound to the interface of that index. -/
  bind : UInt32 → Bool
  mtu : String → Option Int
  /-- The file name that the link to an interface's driver leads to. -/
  driverModule : String → Option String
  virtual : String → Bool
  /-- What the member that is not set happens to hold. -/
  currentBitrate : Int32

namespace SocketCanBackend

/-- `_getMtu`. -/
def getMtu (os : ScanCalls) (ifname : String) : Int := (os.mtu ifname).getD (-1)

/-- `_getDriverName`. -/
def getDriverName (os : ScanCalls) (ifname : String) : String :=
  match os.driverModule ifname with
  | some driver => driver
  | none => if os.virtual ifname then "vcan" else "unknown"

/-- What `availableChannels` says of an interface that the socket could be bound to. -/
def channelInfo (os : ScanCalls) (intf : NameIndex) : CanInterfaceInfo :=
  let mtu := getMtu os intf.name
  { plugin := "SocketCAN"
    name := intf.name
    description := getDriverName os intf.name
    supportsFD := if mtu = canMtu then false else if mtu = canfdMtu then true else false
    currentBitrate := os.currentBitrate }

/-- The outcome of `bind`, which fails on the descriptor of a `socket` that failed. -/
def bound (os : ScanCalls) (intf : NameIndex) : Bool :=
  match os.socket with
  | .ok _ => os.bind intf.index
  | .error _ => false

/-- The descriptor that `availableChannels` opens. -/
def scanSocket (os : ScanCalls) : Option Int :=
  match os.nameIndex, os.socket with
  | some _, .ok fd => some fd
  | some _, .error _ => none
  | none, _ => none

/-- `availableChannels`. -/
def availableChannels (os : ScanCalls) : List CanInterfaceInfo :=
  match os.nameIndex with
  | none => []
  | some interfaces => interfaces.filterMap fun intf =>
      if bound os intf then some (channelInfo os intf) else none

end SocketCanBackend

/-! ## A process -/

namespace System
variable {F ω : Type}

/-- `availableChannels`, with what it leaves open. -/
def scan (s : System F ω) (os : ScanCalls) : List CanInterfaceInfo × System F ω :=
  (SocketCanBackend.availableChannels os,
    match SocketCanBackend.scanSocket os with
    | some fd => { s with descriptors := Function.update s.descriptors fd (some (.canRaw {})) }
    | none => s)

/-- `~SocketCanBackend`. -/
def destroy (s : System F ω) : System F ω := s.close

/-- What the process does: a call on the interface, a scan, or another interface in the place of
the one there is. -/
inductive ProcessOp
  | call (call : Call)
  | availableChannels (os : ScanCalls)
  | create (channel : String)

/-- The process; a scan's channels are emitted. The old interface goes when the new one is
there. -/
def process (func : F) : Mealy (System F ω) ProcessOp CanInterfaceInfo where
  step s op := match op with
    | .call call => (((usage func).step s call).1, [])
    | .availableChannels os => ((s.scan os).2, (s.scan os).1)
    | .create channel => ({ s.destroy with backend := SocketCanBackend.init channel }, [])

/-- The descriptor that `socket` returns to a step, should it be called. -/
def ProcessOp.socket : ProcessOp → Option Int
  | call (.connect calls) => calls.socket.toOption
  | availableChannels os => SocketCanBackend.scanSocket os
  | call .disconnect | call (.setConfigOption ..) | create _ => none

/-- `socket` hands out descriptors that are not open. -/
def Unopened (func : F) (s : System F ω) (ops : List ProcessOp) : Prop :=
  ∀ p ∈ (process func).visits s ops, ∀ fd, p.2.socket = some fd →
    0 ≤ fd ∧ p.1.descriptors fd = none

/-- The descriptors that scans have opened. -/
def ProcessOp.leak : ProcessOp → Option Int
  | availableChannels os => SocketCanBackend.scanSocket os
  | call _ | create _ => none

def leaked (ops : List ProcessOp) : List Int := ops.filterMap ProcessOp.leak

/-- The descriptor that opening comes to a connection on, and whether the kernel takes it into
the interest list, unless it is there. -/
def OpenCalls.opens (calls : OpenCalls) : Option (Int × Bool) :=
  match calls.socket, calls.ifindex, calls.bind with
  | .ok fd, .ok (), .ok () => some (fd, calls.watch)
  | _, _, _ => none

/-- The same of a step. -/
def ProcessOp.opens (s : System F ω) : ProcessOp → Option (Int × Bool)
  | call (.connect calls) =>
      if s.backend._state = .disconnectedState ∧ s.backend._socket = -1 then calls.opens else none
  | call .disconnect | call (.setConfigOption ..) | availableChannels _ | create _ => none

/-- How many interfaces a step makes. -/
def ProcessOp.born : ProcessOp → ℕ
  | create _ => 1
  | call _ | availableChannels _ => 0

/-- The dispatcher after what `opens` says. -/
def watchedOn (app : EventDispatcher F ω) (func : F) : Option (Int × Bool) → EventDispatcher F ω
  | some (fd, watch) => (app.addFile fd .read func watch).1
  | none => app

/-- What a step does to the descriptors and to the dispatcher. -/
inductive Effect (func : F) (s : System F ω) (op : ProcessOp) (t : System F ω) : Prop
  | quiet (leak : op.leak = none) (born : op.born = 0) (opens : op.opens s = none)
      (socket : t.backend._socket = s.backend._socket) (state : t.backend._state = s.backend._state)
      (app : t.app = s.app) (isOpen : ∀ fd, t.descriptors fd ≠ none ↔ s.descriptors fd ≠ none)
  | scanned (fd : Int) (leak : op.leak = some fd) (asked : op.socket = some fd)
      (born : op.born = 0) (opens : op.opens s = none) (backend : t.backend = s.backend)
      (app : t.app = s.app)
      (descriptors : t.descriptors = Function.update s.descriptors fd (some (.canRaw {})))
  | opened (fd : Int) (leak : op.leak = none) (asked : op.socket = some fd) (born : op.born = 0)
      (before : s.backend._socket = -1) (socket : t.backend._socket = fd)
      (state : op.opens s ≠ none → t.backend._state = .connectedState)
      (app : t.app = watchedOn s.app func (op.opens s))
      (descriptors : t.descriptors = Function.update s.descriptors fd (some (.canRaw {})))
  | closed (leak : op.leak = none) (opens : op.opens s = none) (socket : t.backend._socket = -1)
      (app : t.app = s.app.descriptorClosed s.backend._socket)
      (descriptors : t.descriptors = Function.update s.descriptors s.backend._socket none)

/-- The descriptors that the interface has open. -/
def held (s : System F ω) : List Int :=
  if s.backend._socket = -1 then [] else [s.backend._socket]

/-- The descriptors that are open: those that were, those of scans, and that of the interface,
no two of them the same. -/
structure Owned (base : Int → Option Descriptor) (scans : List Int) (s : System F ω) : Prop where
  nodup : (scans ++ s.held).Nodup
  fresh : ∀ fd ∈ scans ++ s.held, 0 ≤ fd ∧ base fd = none
  isOpen : ∀ fd, s.descriptors fd ≠ none ↔ base fd ≠ none ∨ fd ∈ scans ++ s.held

/-! ## What a step does to the descriptors -/

section step
variable {s s' : System F ω} {base : Int → Option Descriptor} {scans : List Int}

theorem setsockopt_descriptors (s : System F ω) (change : CanSocket → CanSocket) (fd : Int) :
    (s.setsockopt change).descriptors fd ≠ none ↔ s.descriptors fd ≠ none := by
  rw [setsockopt]
  split
  case h_1 socket hsocket =>
    by_cases h : fd = s.backend._socket
    · rw [h, hsocket]
      simp
    · simp [h]
  case h_2 => rfl

theorem setsockopt_app (s : System F ω) (change : CanSocket → CanSocket) :
    (s.setsockopt change).app = s.app := by
  rw [setsockopt]
  split <;> rfl

/-- A step that opens and closes nothing. -/
theorem Owned.same (H : Owned base scans s)
    (hsocket : s'.backend._socket = s.backend._socket)
    (hopen : ∀ fd, s'.descriptors fd ≠ none ↔ s.descriptors fd ≠ none) :
    Owned base scans s' := by
  have hheld : s'.held = s.held := by rw [held, held, hsocket]
  refine ⟨?_, ?_, ?_⟩
  · rw [hheld]
    exact H.nodup
  · rw [hheld]
    exact H.fresh
  · intro fd
    rw [hheld, hopen, H.isOpen]

/-- A step that closes what the interface has open. -/
theorem Owned.closed (H : Owned base scans s) (hbase : base (-1) = none)
    (hsocket : s'.backend._socket = -1)
    (hopen : s'.descriptors = Function.update s.descriptors s.backend._socket none) :
    Owned base scans s' := by
  have hheld : s'.held = [] := if_pos hsocket
  have hsub : scans.Sublist (scans ++ s.held) := List.sublist_append_left _ _
  refine ⟨?_, ?_, ?_⟩
  · rw [hheld, List.append_nil]
    exact hsub.nodup H.nodup
  · rw [hheld, List.append_nil]
    exact fun fd hfd => H.fresh fd (hsub.subset hfd)
  · intro fd
    rw [hopen, hheld, List.append_nil]
    rcases eq_or_ne fd s.backend._socket with rfl | hne
    · rw [Function.update_self]
      refine iff_of_false (fun h => h rfl) ?_
      by_cases hnone : s.backend._socket = -1
      · rw [hnone]
        rintro (h | h)
        · exact h hbase
        · exact absurd (H.fresh _ (hsub.subset h)).1 (by decide)
      · have hmem : s.backend._socket ∈ s.held := by
          rw [held, if_neg hnone]
          exact List.mem_singleton_self _
        rintro (h | h)
        · exact h (H.fresh _ (List.mem_append_right _ hmem)).2
        · exact (List.nodup_append.mp H.nodup).2.2 _ h _ hmem rfl
    · rw [Function.update_of_ne hne, H.isOpen, List.mem_append]
      have hout : fd ∉ s.held := by
        rw [held]
        split_ifs
        · exact List.not_mem_nil
        · exact fun h => hne (List.mem_singleton.mp h)
      simp [hout]

/-- A step that opens a descriptor. -/
theorem Owned.opened (H : Owned base scans s) {more : List Int} {fd : Int} (hfd : 0 ≤ fd)
    (hunused : s.descriptors fd = none)
    (hperm : (more ++ s'.held).Perm (scans ++ s.held ++ [fd]))
    (hopen : s'.descriptors = Function.update s.descriptors fd (some (.canRaw {}))) :
    Owned base more s' := by
  have hclosed : ¬ (base fd ≠ none ∨ fd ∈ scans ++ s.held) := by
    rw [← H.isOpen]
    exact not_not_intro hunused
  obtain ⟨hbase, hnot⟩ := not_or.mp hclosed
  refine ⟨?_, ?_, ?_⟩
  · rw [hperm.nodup_iff, List.nodup_append]
    refine ⟨H.nodup, List.nodup_singleton fd, ?_⟩
    rintro x hx y hy rfl
    exact hnot (List.mem_singleton.mp hy ▸ hx)
  · intro x hx
    rcases List.mem_append.mp (hperm.subset hx) with hx | hx
    · exact H.fresh x hx
    · exact List.mem_singleton.mp hx ▸ ⟨hfd, not_not.mp hbase⟩
  · intro x
    rw [hopen, hperm.mem_iff, List.mem_append, List.mem_singleton]
    rcases eq_or_ne x fd with rfl | hne
    · simp
    · rw [Function.update_of_ne hne, H.isOpen]
      simp [hne]

/-- Options go to the socket that is open, or to none. -/
theorem setConfigOption_apart (hopts : NoOptions s.backend.toCanInterface)
    {opt : ConfigOption} {value : ConfigOptionValue} {outcome : Except String Unit}
    (h : s.setConfigOption opt value outcome = some s') :
    s'.app = s.app ∧ ∀ fd, s'.descriptors fd ≠ none ↔ s.descriptors fd ≠ none := by
  have hswitch : ∀ {what change ok t}, s.applySwitch what change value outcome = some (ok, t) →
      t.app = s.app ∧ ∀ fd, t.descriptors fd ≠ none ↔ s.descriptors fd ≠ none := by
    intro what change ok t happly
    rw [applySwitch] at happly
    cases hvalue : getBool value with
    | none =>
        rw [hvalue] at happly
        cases happly
    | some on =>
        rw [hvalue] at happly
        cases outcome with
        | error errno =>
            cases happly
            exact ⟨rfl, fun fd => .rfl⟩
        | ok u =>
            cases happly
            exact ⟨setsockopt_app s _, setsockopt_descriptors s _⟩
  by_cases hclosed : s.backend._socket = -1
  · rw [setConfigOption_closed hopts hclosed] at h
    split_ifs at h
    · obtain ⟨on, -, rfl⟩ := Option.map_eq_some_iff.mp h
      exact ⟨rfl, fun fd => .rfl⟩
    · cases h
      exact ⟨rfl, fun fd => .rfl⟩
  · rw [setConfigOption_open hclosed] at h
    obtain ⟨⟨ok, t⟩, happly, rfl⟩ := Option.map_eq_some_iff.mp h
    cases opt with
    | cfgOptLoopback => exact hswitch happly
    | cfgOptRxOwn => exact hswitch happly
    | cfgOptFD => exact hswitch happly
    | cfgOptOther =>
        cases happly
        exact ⟨rfl, fun fd => .rfl⟩
    | cfgOptBitrate =>
        dsimp only [applyConfigOption] at happly
        cases hvalue : getInt value with
        | none =>
            rw [hvalue] at happly
            cases happly
        | some bitrate =>
            rw [hvalue] at happly
            cases outcome <;> cases happly <;> exact ⟨rfl, fun fd => .rfl⟩

/-- Opening does nothing outside, or takes a descriptor, which it has watched if it comes that
far. -/
theorem openSocket_effect (hopts : NoOptions s.backend.toCanInterface) (func : F)
    (calls : OpenCalls) :
    ∃ ok t, s.openSocket func calls = some (ok, t) ∧
      (((s.backend._socket = -1 → calls.opens = none) ∧ ok = false ∧
          t.backend._socket = s.backend._socket ∧ t.app = s.app ∧ t.descriptors = s.descriptors) ∨
        ∃ fd, calls.socket = .ok fd ∧ s.backend._socket = -1 ∧ t.backend._socket = fd ∧
          (calls.opens ≠ none → ok = true ∧ t.backend._state = .connectedState) ∧
          t.app = watchedOn s.app func calls.opens ∧
          t.descriptors = Function.update s.descriptors fd (some (.canRaw {}))) := by
  rw [openSocket, OpenCalls.opens]
  by_cases hclosed : s.backend._socket = -1
  · rw [if_neg (not_not_intro hclosed)]
    cases hsocket : calls.socket with
    | error errno => exact ⟨_, _, rfl, .inl ⟨fun _ => rfl, rfl, rfl, rfl, rfl⟩⟩
    | ok fd =>
        cases calls.ifindex with
        | error errno =>
            exact ⟨_, _, rfl, .inr ⟨fd, rfl, hclosed, rfl, fun h => absurd rfl h, rfl, rfl⟩⟩
        | ok _ =>
            cases calls.bind with
            | error errno =>
                exact ⟨_, _, rfl, .inr ⟨fd, rfl, hclosed, rfl, fun h => absurd rfl h, rfl, rfl⟩⟩
            | ok _ =>
                let linked := (s.opened fd).setState .connectedState
                have hnone : linked.backend.configOptions = [] :=
                  configOptions_eq_nil (hopts.setState .connectedState)
                refine ⟨true, { linked with app := (s.app.addFile fd .read func calls.watch).1 }, ?_,
                  .inr ⟨fd, rfl, hclosed, rfl, fun _ => ⟨rfl, setState_state _ _⟩, rfl, rfl⟩⟩
                change applyOptions calls.option linked.backend.configOptions linked >>= _ = _
                rw [hnone]
                rfl
  · rw [if_pos hclosed]
    exact ⟨_, _, rfl, .inl ⟨fun h => absurd h hclosed, rfl, rfl, rfl, rfl⟩⟩

theorem connect_effect (H : Wired s) (func : F) (calls : OpenCalls) :
    ∃ ok t, s.connect func calls = some (ok, t) ∧
      Effect func s (.call (.connect calls)) t := by
  by_cases hdisc : s.backend._state = .disconnectedState
  · have hopts : NoOptions (s.setState .connectionPendingState).backend.toCanInterface :=
      H.options.setState .connectionPendingState
    obtain ⟨ok, t, hopen, hcases⟩ := openSocket_effect hopts func calls
    refine ⟨ok, _, connect_of_open hdisc hopen, ?_⟩
    rcases hcases with ⟨hopens, rfl, hsocket, happ, hdescriptors⟩ |
      ⟨fd, hfd, hclosed, hsocket, hstate, happ, hdescriptors⟩
    · refine .quiet rfl rfl ?_ hsocket ((setState_state _ _).trans hdisc.symm) happ ?_
      · rw [ProcessOp.opens]
        split_ifs with h
        · exact hopens h.2
        · rfl
      · intro fd
        change t.descriptors fd ≠ none ↔ _
        rw [hdescriptors]
        rfl
    · have hopens : (ProcessOp.call (.connect calls)).opens s = calls.opens :=
        if_pos ⟨hdisc, hclosed⟩
      have hasked : (ProcessOp.call (.connect calls)).socket = some fd := by
        rw [ProcessOp.socket, hfd]
        rfl
      refine .opened fd rfl hasked rfl hclosed ?_ ?_ ?_ ?_
      · cases ok <;> exact hsocket
      · rw [hopens]
        intro h
        obtain ⟨rfl, hconn⟩ := hstate h
        exact hconn
      · rw [hopens]
        cases ok <;> exact happ
      · cases ok <;> exact hdescriptors
  · refine ⟨_, _, if_pos hdisc, .quiet rfl rfl ?_ rfl rfl rfl fun fd => .rfl⟩
    exact if_neg fun h => hdisc h.1

/-- **What a step does.** -/
theorem process_effect (H : Wired s) (func : F) (op : ProcessOp) :
    Effect func s op ((process func).step s op).1 := by
  cases op with
  | availableChannels os =>
      change Effect func s (.availableChannels os) (s.scan os).2
      cases hscan : SocketCanBackend.scanSocket os with
      | none =>
          have hsame : (s.scan os).2 = s := by rw [scan, hscan]
          rw [hsame]
          exact .quiet hscan rfl rfl rfl rfl rfl fun fd => .rfl
      | some fd =>
          have hopened : (s.scan os).2 = { s with
              descriptors := Function.update s.descriptors fd (some (.canRaw {})) } := by
            rw [scan, hscan]
          rw [hopened]
          exact .scanned fd hscan hscan rfl rfl rfl rfl rfl
  | create channel => exact .closed rfl rfl rfl rfl rfl
  | call call =>
      cases call with
      | disconnect =>
          change Effect func s (.call .disconnect) s.disconnect
          rw [System.disconnect]
          split_ifs
          · exact .quiet rfl rfl rfl rfl rfl rfl fun fd => .rfl
          · exact .closed rfl rfl rfl rfl rfl
      | setConfigOption opt value outcome =>
          change Effect func s (.call (.setConfigOption opt value outcome))
            ((usage func).step s (.setConfigOption opt value outcome)).1
          cases hset : s.setConfigOption opt value outcome with
          | none =>
              simp only [usage, hset]
              exact .quiet rfl rfl rfl rfl rfl rfl fun fd => .rfl
          | some s' =>
              simp only [usage, hset]
              obtain ⟨happ, hopen⟩ := setConfigOption_apart H.options hset
              rcases setConfigOption_backend H.options hset with ⟨on, hb⟩ | ⟨message, hb⟩
              · exact .quiet rfl rfl rfl (by rw [hb]) (by rw [hb]) happ hopen
              · exact .quiet rfl rfl rfl (by rw [hb]; rfl) (by rw [hb]; rfl) happ hopen
      | connect calls =>
          obtain ⟨ok, t, hconnect, heffect⟩ := connect_effect H func calls
          change Effect func s (.call (.connect calls)) ((usage func).step s (.connect calls)).1
          simp only [usage, hconnect]
          exact heffect

/-- **One step** keeps track of the descriptors. -/
theorem Owned.step (H : Owned base scans s) (hs : Wired s) (hbase : base (-1) = none) (func : F)
    (op : ProcessOp) (hunopened : ∀ fd, op.socket = some fd → 0 ≤ fd ∧ s.descriptors fd = none) :
    Owned base (scans ++ op.leak.toList) ((process func).step s op).1 := by
  cases process_effect hs func op with
  | quiet leak born opens socket state app isOpen =>
      rw [leak, Option.toList_none, List.append_nil]
      exact H.same socket isOpen
  | scanned fd leak asked born opens backend app descriptors =>
      obtain ⟨hfd, hunused⟩ := hunopened fd asked
      rw [leak, Option.toList_some]
      refine H.opened hfd hunused ?_ descriptors
      rw [held, backend, ← held, List.append_assoc, List.append_assoc]
      exact List.perm_append_comm.append_left scans
  | opened fd leak asked born before socket state app descriptors =>
      obtain ⟨hfd, hunused⟩ := hunopened fd asked
      rw [leak, Option.toList_none, List.append_nil]
      refine H.opened hfd hunused ?_ descriptors
      have hbefore : s.held = [] := if_pos before
      have hafter : ((process func).step s op).1.held = [fd] := by
        rw [held, socket, if_neg (by omega)]
      rw [hbefore, hafter, List.append_nil]
  | closed leak opens socket app descriptors =>
      rw [leak, Option.toList_none, List.append_nil]
      exact H.closed hbase socket descriptors

theorem Wired.congr (H : Wired s) (hbackend : s'.backend = s.backend) : Wired s' := by
  constructor <;> rw [hbackend]
  · exact H.options
  · exact H.settled
  · exact H.coherent
  · exact H.socket

/-- The interface stays wired up, and so does the next one. -/
theorem Wired.process_step (H : Wired s) (func : F) {op : ProcessOp}
    (hpossible : ∀ fd, op.socket = some fd → 0 ≤ fd) : Wired ((process func).step s op).1 := by
  cases op with
  | availableChannels os =>
      refine H.congr ?_
      change (s.scan os).2.backend = s.backend
      rw [scan]
      cases SocketCanBackend.scanSocket os <;> rfl
  | create channel => exact New.wired ⟨channel, rfl⟩
  | call call =>
      refine H.step func ?_
      cases call with
      | connect calls => exact fun fd hfd => hpossible fd (by rw [ProcessOp.socket, hfd]; rfl)
      | disconnect => exact trivial
      | setConfigOption opt value outcome => exact trivial

end step

/-! ## Every run -/

/-- A run keeps track of them. -/
theorem Owned.run {base : Int → Option Descriptor} {scans : List Int} {s : System F ω}
    (H : Owned base scans s) (hs : Wired s) (hbase : base (-1) = none) (func : F)
    {ops : List ProcessOp} (hops : Unopened func s ops) :
    Owned base (scans ++ leaked ops) ((process func).state s ops) := by
  induction ops generalizing scans s with
  | nil => simpa [leaked] using H
  | cons op ops ih =>
      have hop := hops (s, op) List.mem_cons_self
      have hrun := ih (H.step hs hbase func op hop)
        (hs.process_step func fun fd hfd => (hop fd hfd).1)
        fun p hp => hops p (List.mem_cons_of_mem _ hp)
      have hleaked : leaked (op :: ops) = op.leak.toList ++ leaked ops := by
        rw [leaked, List.filterMap_cons]
        cases op.leak <;> rfl
      rw [hleaked, ← List.append_assoc]
      exact hrun

/-- **Whose descriptors are open.** A process uses one interface after another, and scans in
between; the kernel only hands out descriptors that are not open. At any time, whatever failed
on the way, the descriptors that are open are those from before, one for each scan that got a
socket, and one at most of the interface; no two are the same. The destructor closes that of the
interface, and those of the scans are left. -/
theorem process_descriptors {s : System F ω} (h : New s) (hbase : s.descriptors (-1) = none)
    (func : F) {ops : List ProcessOp} (hops : Unopened func s ops) :
    let t := (process func).state s ops
    (leaked ops ++ t.held).Nodup ∧
    (∀ fd ∈ leaked ops ++ t.held, s.descriptors fd = none) ∧
    (∀ fd, t.descriptors fd ≠ none ↔ s.descriptors fd ≠ none ∨ fd ∈ leaked ops ++ t.held) ∧
    ∀ fd, t.destroy.descriptors fd ≠ none ↔ s.descriptors fd ≠ none ∨ fd ∈ leaked ops := by
  have hheld : s.held = [] := by
    obtain ⟨channel, hb⟩ := h
    rw [held, hb]
    rfl
  have H : Owned s.descriptors [] s := ⟨by simp [hheld], by simp [hheld], by simp [hheld]⟩
  have Hrun := H.run h.wired hbase func hops
  rw [List.nil_append] at Hrun
  refine ⟨Hrun.nodup, fun fd hfd => (Hrun.fresh fd hfd).2, Hrun.isOpen, ?_⟩
  -- whatever interface comes next has nothing open
  let next : System F ω :=
    { ((process func).state s ops).destroy with backend := SocketCanBackend.init "" }
  have Hnext : Owned s.descriptors (leaked ops) next :=
    Hrun.closed hbase rfl rfl
  have hnone : next.held = [] := rfl
  intro fd
  have hiff := Hnext.isOpen fd
  rwa [hnone, List.append_nil] at hiff

/-- A scan that finds one of two interfaces, with a given descriptor. -/
def scanCalls (fd : Int) : ScanCalls where
  nameIndex := some [⟨1, "lo"⟩, ⟨2, "can0"⟩]
  socket := .ok fd
  bind index := index == 2
  mtu _ := some 72
  driverModule _ := none
  virtual _ := true
  currentBitrate := 0

/-- A scan, a connection that is refused, another scan, and a second interface. -/
def scanAndRetry : List ProcessOp :=
  [.availableChannels (scanCalls 3), .call (.connect { granted 4 with bind := .error "" }),
    .availableChannels (scanCalls 5), .create "can1", .call (.connect (granted 4))]

theorem unopened_scanAndRetry : Unopened () start scanAndRetry := by
  intro p hp fd hfd
  simp only [scanAndRetry, Mealy.visits_cons, Mealy.visits_nil, List.mem_cons, List.not_mem_nil,
    or_false] at hp
  rcases hp with rfl | rfl | rfl | rfl | rfl
  · cases hfd
    exact ⟨by decide, rfl⟩
  · cases hfd
    exact ⟨by decide, rfl⟩
  · cases hfd
    exact ⟨by decide, rfl⟩
  · cases hfd
  · cases hfd
    exact ⟨by decide, rfl⟩

theorem process_descriptors_scanAndRetry :
    let t := (process ()).state start scanAndRetry
    (leaked scanAndRetry ++ t.held).Nodup ∧
    (∀ fd ∈ leaked scanAndRetry ++ t.held, start.descriptors fd = none) ∧
    (∀ fd, t.descriptors fd ≠ none ↔
      start.descriptors fd ≠ none ∨ fd ∈ leaked scanAndRetry ++ t.held) ∧
    ∀ fd, t.destroy.descriptors fd ≠ none ↔
      start.descriptors fd ≠ none ∨ fd ∈ leaked scanAndRetry :=
  process_descriptors new_start rfl () unopened_scanAndRetry

end System
end DPFlow
