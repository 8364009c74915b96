import DPFlow.Lib.Mealy
import Mathlib.Data.List.Sort
import Mathlib.Logic.Function.Basic

/-!
# The event dispatcher

The dispatcher keeps a map from a descriptor and an operation to a callback, the
kernel keeps an interest list with one entry a descriptor, and a turn of
`processEvents` waits on that list, runs file callbacks, then runs the timers that
are due. Callbacks are arbitrary functions of the dispatcher and of an
environment, so that they may register and remove as they please.

The clock is a sequence of readings, one for each call of `steady_clock::now()`.
The timer loop walks a `std::list` that callbacks change under it; entries carry
the address of their list node, and touching a node that is gone is a fault.

## Main definitions

* `EventDispatcher` — `m_timers`, `m_files`, and the kernel's interest list.
* `EventDispatcher.addFile`, `EventDispatcher.removeFile` — registration.
* `EventDispatcher.addTimer`, `EventDispatcher.removeTimer` — the timer list.
* `EventDispatcher.processEvents` — one turn, on the results `epoll_wait` reported.
-/
namespace DPFlow

/-- `FileOperation`. A `static_cast` from `int` may leave a number that no
enumerator has. -/
inductive EventDispatcher.FileOperation
  | read
  | write
  | error
  | other (n : Int)
  deriving DecidableEq, Repr

/-- `struct epoll_event`, with `data.fd` as its user data. -/
structure EventDispatcher.EpollEvent where
  events : BitVec 32
  fd : Int
  deriving DecidableEq, Repr

/-- `TimerInfo`, at the list node with address `node`. The period is in
milliseconds, the expiry in the clock's nanoseconds. -/
structure EventDispatcher.TimerInfo (F : Type) where
  node : ℕ
  id : Int32
  period : Int32
  expiry : Int
  func : F

/-- The dispatcher with callbacks named by `F`, its descriptor's interest list in
the kernel, and everything else the callbacks work on. -/
structure EventDispatcher (F ω : Type) where
  mTimers : List (EventDispatcher.TimerInfo F)
  mFiles : Int × EventDispatcher.FileOperation → Option F
  nextTimerId : Int32
  nextNode : ℕ
  interest : Int → Option EventDispatcher.EpollEvent
  clock : ℕ → Int
  reads : ℕ
  env : ω

namespace EventDispatcher
variable {F ω : Type}

/-- What a callback does when it runs. -/
abbrev Callbacks (F ω : Type) := F → EventDispatcher F ω → EventDispatcher F ω

/-- The constructor. The source counts `nextTimerId` for the whole process, from one; here each
dispatcher has a count of its own, which is the same as long as the process has one dispatcher. -/
def init (clock : ℕ → Int) (env : ω) : EventDispatcher F ω :=
  { mTimers := []
    mFiles := fun _ => none
    nextTimerId := 1
    nextNode := 0
    interest := fun _ => none
    clock := clock
    reads := 0
    env := env }

/-- `steady_clock::now()`. -/
def now (d : EventDispatcher F ω) : Int × EventDispatcher F ω :=
  (d.clock d.reads, { d with reads := d.reads + 1 })

/-! ## Files -/

namespace FileOperation

/-- `static_cast<FileOperation>`. -/
def ofInt (n : Int) : FileOperation :=
  if n = 0 then read else if n = 1 then write else if n = 2 then error else other n

/-- The `switch` of `addFile` and `removeFile`: `EPOLLIN`, `EPOLLOUT` or `EPOLLERR`. -/
def epollBit : FileOperation → Option (BitVec 32)
  | read => some 0x001
  | write => some 0x004
  | error => some 0x008
  | other _ => none

end FileOperation

/-- `epoll_ctl` with `EPOLL_CTL_ADD`: a descriptor has at most one entry. The flag
says whether the kernel has no other reason to refuse. -/
def epollAdd (d : EventDispatcher F ω) (fd : Int) (event : EpollEvent) (accept : Bool) :
    Option (EventDispatcher F ω) :=
  if accept ∧ d.interest fd = none then
    some { d with interest := Function.update d.interest fd (some event) }
  else none

/-- `epoll_ctl` with `EPOLL_CTL_DEL`. -/
def epollDel (d : EventDispatcher F ω) (fd : Int) (accept : Bool) :
    Option (EventDispatcher F ω) :=
  if accept ∧ d.interest fd ≠ none then
    some { d with interest := Function.update d.interest fd none }
  else none

/-- `addFile`. -/
def addFile (d : EventDispatcher F ω) (fd : Int) (op : FileOperation) (func : F)
    (accept : Bool) : EventDispatcher F ω × Bool :=
  if fd < 0 then (d, false)
  else if (d.mFiles (fd, op)).isSome then (d, false)
  else match op.epollBit with
    | none => (d, false)
    | some bit => match d.epollAdd fd ⟨bit, fd⟩ accept with
      | none => (d, false)
      | some d' => ({ d' with mFiles := Function.update d'.mFiles (fd, op) (some func) }, true)

/-- `removeFile`. -/
def removeFile (d : EventDispatcher F ω) (fd : Int) (op : FileOperation) (accept : Bool) :
    EventDispatcher F ω × Bool :=
  if d.mFiles (fd, op) = none then (d, false)
  else match op.epollBit with
    | none => (d, false)
    | some _ => match d.epollDel fd accept with
      | none => (d, false)
      | some d' => ({ d' with mFiles := Function.update d'.mFiles (fd, op) none }, true)

/-- `::close` of a descriptor drops it from the interest list. -/
def descriptorClosed (d : EventDispatcher F ω) (fd : Int) : EventDispatcher F ω :=
  { d with interest := Function.update d.interest fd none }

/-! ## Timers -/

/-- `m_timers.sort()`: stable, by expiry. -/
def sortTimers (ts : List (TimerInfo F)) : List (TimerInfo F) :=
  ts.insertionSort (fun s t => s.expiry ≤ t.expiry)

/-- `expiry = steady_clock::now() + period`, at the given reading. -/
def TimerInfo.expiryAt (now : Int) (period : Int32) : Int := now + period.toInt * 1000000

/-- `addTimer`. -/
def addTimer (d : EventDispatcher F ω) (periodMs : Int32) (func : F) :
    EventDispatcher F ω × Int32 :=
  let id := d.nextTimerId
  let (t, d) := d.now
  let timer := ⟨d.nextNode, id, periodMs, TimerInfo.expiryAt t periodMs, func⟩
  ({ d with nextTimerId := id + 1
            nextNode := d.nextNode + 1
            mTimers := sortTimers (d.mTimers ++ [timer]) }, id)

/-- `removeTimer`, with the result as the code computes it from the two sizes. -/
def removeTimer (d : EventDispatcher F ω) (id : Int32) : EventDispatcher F ω × Bool :=
  let countBefore : Int := d.mTimers.length
  let ts := d.mTimers.filter (fun t => t.id ≠ id)
  let countAfter : Int := ts.length
  ({ d with mTimers := ts }, countAfter - countBefore > 0)

/-! ## One turn -/

/-- The timeout handed to `epoll_wait`: the time left to the first timer, rounded up
to milliseconds and narrowed to `int`; minus one without timers. -/
def timeoutMs (d : EventDispatcher F ω) : Int × EventDispatcher F ω :=
  match d.mTimers with
  | [] => (-1, d)
  | earliestTimer :: _ =>
      let (t, d) := d.now
      let remaining := earliestTimer.expiry - t
      ((BitVec.ofInt 32 (-(-remaining / 1000000))).toInt, d)

/-- The key `processEvents` builds from a result. -/
def dispatchKey (event : EpollEvent) : Int × FileOperation :=
  let fd := event.events.toInt
  let op := FileOperation.ofInt event.fd
  (fd, op)

/-- An entry of `m_files` that was run: its key and its function. -/
abbrev FileEntry (F : Type) := (Int × FileOperation) × F

/-- The entry of `m_files` with the given key. -/
def entryAt (d : EventDispatcher F ω) (key : Int × FileOperation) : Option (FileEntry F) :=
  (d.mFiles key).map fun func => (key, func)

/-- One result of `epoll_wait`: the entry `m_files[key]` that was run, if one was. -/
def dispatchFile (call : Callbacks F ω) (d : EventDispatcher F ω) (event : EpollEvent) :
    EventDispatcher F ω × List (Option (FileEntry F)) :=
  let key := dispatchKey event
  match d.mFiles key with
  | some func => (call func d, [some (key, func)])
  | none => (d, [none])

/-- The loop over the results of `epoll_wait`, as a machine that emits for each
result the entry of `m_files` it ran. -/
def dispatchFiles (call : Callbacks F ω) :
    Lib.Mealy (EventDispatcher F ω) EpollEvent (Option (FileEntry F)) where
  step := dispatchFile call

/-- How the timer loop can go wrong in this model: it touches a list entry that a
callback has removed, or it has not come to an end within its fuel. -/
inductive LoopFault
  | removedEntry
  | outOfFuel
  deriving DecidableEq, Repr

/-- The entry at a node. -/
def timerAt (d : EventDispatcher F ω) (node : ℕ) : Option (TimerInfo F) :=
  d.mTimers.find? (fun t => t.node = node)

/-- The node after the given one; `none` is `end()`. -/
def nodeAfter (node : ℕ) : List (TimerInfo F) → Option ℕ
  | [] => none
  | t :: ts => if t.node = node then ts.head?.map TimerInfo.node else nodeAfter node ts

/-- The assignment to `expiry` in `fire`, at a node. -/
def rearm (d : EventDispatcher F ω) (node : ℕ) (t : Int) : EventDispatcher F ω :=
  { d with mTimers := d.mTimers.map fun timer =>
      if timer.node = node then { timer with expiry := TimerInfo.expiryAt t timer.period }
      else timer }

/-- The loop over `m_timers`, from the node `it`, with the number fired so far. The
list is not sorted again after a timer is re-armed. -/
def fireTimers (call : Callbacks F ω) :
    ℕ → Option ℕ → ℕ → EventDispatcher F ω → Except LoopFault (ℕ × EventDispatcher F ω)
  | _, none, count, d => .ok (count, d)
  | 0, some _, _, _ => .error .outOfFuel
  | fuel + 1, some node, count, d =>
      match d.timerAt node with
      | none => .error .removedEntry
      | some timer =>
          let (t, d) := d.now
          if t ≥ timer.expiry then
            let d := call timer.func d
            match d.timerAt node with
            | none => .error .removedEntry
            | some _ =>
                let (t, d) := d.now
                let d := d.rearm node t
                fireTimers call fuel (nodeAfter node d.mTimers) (count + 1) d
          else .ok (count, d)

/-- What one call of `processEvents` does: the timeout it waits for, the entries of
`m_files` it runs, one place for each result, and what it returns. -/
structure Turn (F ω : Type) where
  timeoutMs : Int
  invoked : List (Option (FileEntry F))
  result : Except LoopFault (Bool × EventDispatcher F ω)

/-- The size of the array `epoll_wait` fills. -/
def maxEvents : ℕ := 10

/-- `processEvents`, when the kernel has `ready` to report, in this order. -/
def processEvents (call : Callbacks F ω) (fuel : ℕ) (ready : List EpollEvent)
    (d : EventDispatcher F ω) : Turn F ω :=
  let (timeoutMs, d) := d.timeoutMs
  let events := ready.take maxEvents
  let invoked := (dispatchFiles call).trace d events
  let d := (dispatchFiles call).state d events
  { timeoutMs := timeoutMs
    invoked := invoked
    result := do
      let (count, d) ← fireTimers call fuel (d.mTimers.head?.map TimerInfo.node) 0 d
      return (decide (count > 0), d) }

end EventDispatcher
end DPFlow
