import DPFlow.CanInterface.Basic
import DPFlow.EventDispatcher.Basic

/-!
# The SocketCAN backend

The backend writes a frame as one of the two kernel structs and reads frames back from
datagrams of the larger one's size. It opens a socket for each connection and has the
application watch it. What the operating system decides is an argument: whether a call
succeeds, with the text of `strerror(errno)` when it does not, and the number of a new
descriptor. Words are stored least significant byte first.

## Main definitions

* `CanfdStruct`, `CanStruct` — `struct canfd_frame` and `struct can_frame`.
* `SocketCanBackend.send`, `SocketCanBackend.readSocket` — one frame out, frames in.
* `System` — a backend, the application's dispatcher, and the open descriptors.
* `System.connect`, `System.disconnect`, `System.setConfigOption` — what users call.
-/
namespace DPFlow

open Lib CanInterface

/-! ## The kernel's structs -/

/-- `struct canfd_frame`. -/
structure CanfdStruct where
  canId : BitVec 32
  len : UInt8
  flags : UInt8
  res0 : UInt8
  res1 : UInt8
  data : List UInt8
  deriving DecidableEq, Repr

/-- `struct can_frame`. -/
structure CanStruct where
  canId : BitVec 32
  canDlc : UInt8
  pad : UInt8
  res0 : UInt8
  len8Dlc : UInt8
  data : List UInt8
  deriving DecidableEq, Repr

/-- `CANFD_MTU` and `CAN_MTU`, the sizes of the structs, and of their data arrays. -/
def canfdMtu : ℕ := 72
def canMtu : ℕ := 16
def canfdDataSize : ℕ := 64
def canDataSize : ℕ := 8

/-- The offset of `data` in both. -/
def dataOffset : ℕ := 8

def effFlag : BitVec 32 := 0x80000000
def rtrFlag : BitVec 32 := 0x40000000
def errFlag : BitVec 32 := 0x20000000
def canfdBrs : UInt8 := 0x01
def canfdEsi : UInt8 := 0x02
def msgConfirm : BitVec 32 := 0x800

/-- `canfd_frame x = {}`. -/
def CanfdStruct.zero : CanfdStruct := ⟨0, 0, 0, 0, 0, List.replicate canfdDataSize 0⟩

/-- `can_frame x = {}`. -/
def CanStruct.zero : CanStruct := ⟨0, 0, 0, 0, 0, List.replicate canDataSize 0⟩

def CanfdStruct.toBytes (x : CanfdStruct) : List UInt8 :=
  leBytes 4 x.canId.toNat ++ [x.len, x.flags, x.res0, x.res1] ++ x.data

def CanStruct.toBytes (x : CanStruct) : List UInt8 :=
  leBytes 4 x.canId.toNat ++ [x.canDlc, x.pad, x.res0, x.len8Dlc] ++ x.data

/-- A zeroed `canfd_frame` after bytes were received into it. -/
def CanfdStruct.received (bytes : List UInt8) : CanfdStruct :=
  let raw := bytes ++ List.replicate (canfdMtu - bytes.length) 0
  { canId := BitVec.ofNat 32 (ofLeBytes (raw.take 4))
    len := raw.getD 4 0
    flags := raw.getD 5 0
    res0 := raw.getD 6 0
    res1 := raw.getD 7 0
    data := raw.drop dataOffset }

/-- `memcpy`; nothing when it would leave one of the arrays. -/
def memcpy (dst src : List UInt8) (n : ℕ) : Option (List UInt8) :=
  if n ≤ dst.length ∧ n ≤ src.length then some (src.take n ++ dst.drop n) else none

/-! ## The backend -/

/-- The members of the backend that its methods look at. The receive buffer and the
message header around it are set up anew for every datagram, and left out. -/
structure SocketCanBackend extends CanInterface where
  _ifname : String
  _socket : Int
  _fdEnabled : Bool

namespace SocketCanBackend

/-- The constructor. -/
def init (channel : String) : SocketCanBackend :=
  { CanInterface.init with _ifname := channel, _socket := -1, _fdEnabled := false }

def setError (b : SocketCanBackend) (message : String) (error : CanBusError) :
    SocketCanBackend :=
  { b with toCanInterface := b.toCanInterface.setError message error }

def setState (b : SocketCanBackend) (newState : CanConnectionState) : SocketCanBackend :=
  { b with toCanInterface := b.toCanInterface.setState newState }

def clearError (b : SocketCanBackend) : SocketCanBackend :=
  { b with toCanInterface := b.toCanInterface.clearError }

/-! ## Sending -/

/-- What one call of `send` did: its result, and the bytes it handed to `write`. -/
structure Sent where
  ok : Bool
  written : Option (List UInt8)
  backend : SocketCanBackend

/-- The `can_id` that `send` builds. -/
def canId (frame : CanFrame) : BitVec 32 :=
  let id := frame.id.setWidth 32
  let id := if frame.isExtendedId then id ||| effFlag else id
  if frame.frameType = .remoteRequestFrame then id ||| rtrFlag
  else if frame.frameType = .errorFrame then (frame.error &&& CanFrame.effMask) ||| errFlag
  else id

/-- The struct that `send` fills, as the bytes it writes. -/
def encode (frame : CanFrame) : Option (List UInt8) :=
  if frame.isFD then do
    let len := UInt8.ofNat frame.payload.length
    let flags := (if frame.isBitrateSwitch then canfdBrs else 0) |||
      (if frame.isErrorState then canfdEsi else 0)
    let data ← memcpy CanfdStruct.zero.data frame.payload len.toNat
    return { CanfdStruct.zero with
      canId := canId frame, len := len, flags := flags, data := data }.toBytes
  else do
    let canDlc := UInt8.ofNat frame.payload.length
    let data ← memcpy CanStruct.zero.data frame.payload canDlc.toNat
    return { CanStruct.zero with
      canId := canId frame, canDlc := canDlc, data := data }.toBytes

/-- `send`, with the outcome of `write`; nothing when `memcpy` leaves its arrays. -/
def send (b : SocketCanBackend) (frame : CanFrame) (write : Except String Unit) : Option Sent :=
  if b._state ≠ .connectedState then some ⟨false, none, b⟩
  else if !frame.isValid then
    some ⟨false, none, b.setError "Cannot write invalid frame" .txError⟩
  else if frame.isFD && !b._fdEnabled then
    some ⟨false, none, b.setError "Cannot send FD frame when FD is disabled" .txError⟩
  else do
    let bytes ← encode frame
    match write with
    | .error errno =>
        return ⟨false, some bytes, b.setError ("Could not send frame: " ++ errno) .txError⟩
    | .ok () => return ⟨true, some bytes, b⟩

/-! ## Receiving -/

/-- A datagram that `recvmsg` delivers, with `msg_flags` and the outcome of the
`SIOCGSTAMP` request for its seconds and microseconds. -/
structure Datagram where
  bytes : List UInt8
  msgFlags : BitVec 32
  stamp : Except String (Int64 × Int64)

/-- The frame that `readSocket` builds, in the order of its setter calls. -/
def decode (raw : CanfdStruct) (bytesRx : ℕ) (timestamp : CanFrame.Timestamp)
    (msgFlags : BitVec 32) : CanFrame :=
  let frame := CanFrame.ofType .dataFrame
  let frame := frame.setTimestamp timestamp
  let frame := frame.setFD (bytesRx = canfdMtu)
  let frame := frame.setExtendedId (raw.canId &&& effFlag != 0)
  let frame :=
    if raw.canId &&& rtrFlag != 0 then frame.setFrameType .remoteRequestFrame
    else if raw.canId &&& errFlag != 0 then frame.setFrameType .errorFrame
    else frame.setFrameType .dataFrame
  let frame := if raw.flags &&& canfdBrs != 0 then frame.setBitrateSwitch true else frame
  let frame := if raw.flags &&& canfdEsi != 0 then frame.setErrorState true else frame
  let frame := if msgFlags &&& msgConfirm != 0 then frame.setLocalEcho true else frame
  let frame := frame.setId ((raw.canId &&& CanFrame.effMask).setWidth 64)
  frame.setPayload (raw.data.take raw.len.toNat)

/-- The loop of `readSocket`, on the datagrams `recvmsg` delivers before it fails: the
frames it collects. A datagram longer than the buffer is cut. -/
def receiveFrames : List Datagram → SocketCanBackend → List CanFrame × SocketCanBackend
  | [], b => ([], b)
  | datagram :: rest, b =>
      let bytes := datagram.bytes.take canfdMtu
      let bytesRx := bytes.length
      let raw := CanfdStruct.received bytes
      if bytesRx = 0 then ([], b)
      else if bytesRx ≠ canfdMtu ∧ bytesRx ≠ canMtu then
        receiveFrames rest (b.setError "Incomplete CAN frame" .rxError)
      else if raw.len.toNat > bytesRx - dataOffset then
        receiveFrames rest (b.setError "Invalid CAN frame length" .rxError)
      else
        let (ts, b) := match datagram.stamp with
          | .ok ts => (ts, b)
          | .error errno => ((0, 0), b.setError ("RX error: " ++ errno) .rxError)
        let frame := decode raw bytesRx ⟨ts.1, 1000 * ts.2⟩ datagram.msgFlags
        let (frames, b) := receiveFrames rest b
        (frame :: frames, b)

/-- `enqueueRxFrames`, inherited. -/
def enqueueRxFrames (slot : Slot) (frames : List CanFrame) (b : SocketCanBackend) :
    Except Deadlock SocketCanBackend := do
  let i ← b.toCanInterface.enqueueRxFrames slot frames
  return { b with toCanInterface := i }

/-- `readSocket`. -/
def readSocket (slot : Slot) (datagrams : List Datagram) (b : SocketCanBackend) :
    Except Deadlock SocketCanBackend :=
  let (frames, b) := receiveFrames datagrams b
  b.enqueueRxFrames slot frames

end SocketCanBackend

/-! ## Connections -/

/-- A raw CAN socket's own options, as a new one has them. -/
structure CanSocket where
  loopback : Bool := true
  recvOwnMsgs : Bool := false
  fdFrames : Bool := false
  deriving DecidableEq, Repr

/-- An open descriptor: a raw CAN socket, or anything else. -/
inductive Descriptor
  | canRaw (socket : CanSocket)
  | other
  deriving DecidableEq, Repr

/-- A backend, the application's dispatcher, and the descriptors that are open. -/
structure System (F ω : Type) where
  backend : SocketCanBackend
  app : EventDispatcher F ω
  descriptors : Int → Option Descriptor

namespace System
variable {F ω : Type}

def setError (s : System F ω) (message : String) (error : CanBusError) : System F ω :=
  { s with backend := s.backend.setError message error }

def setState (s : System F ω) (newState : CanConnectionState) : System F ω :=
  { s with backend := s.backend.setState newState }

/-- `std::get<bool>`; nothing when it throws, and nobody catches. -/
def getBool : ConfigOptionValue → Option Bool
  | .bool b => some b
  | _ => none

/-- `std::get<int>`. -/
def getInt : ConfigOptionValue → Option Int32
  | .int n => some n
  | _ => none

/-- `setsockopt` on the backend's socket, with its outcome: a raw CAN socket takes the
new options. -/
def setsockopt (s : System F ω) (change : CanSocket → CanSocket) : System F ω :=
  match s.descriptors s.backend._socket with
  | some (.canRaw socket) =>
      { s with descriptors :=
          Function.update s.descriptors s.backend._socket (some (.canRaw (change socket))) }
  | _ => s

/-- A `bool` option of `applyConfigOption`: the text names what could not be changed. -/
def applySwitch (s : System F ω) (what : String) (change : Bool → CanSocket → CanSocket)
    (value : ConfigOptionValue) (outcome : Except String Unit) : Option (Bool × System F ω) := do
  let on ← getBool value
  match outcome with
  | .error errno =>
      let verb := if on then "enable" else "disable"
      return (false, s.setError ("Could not " ++ verb ++ " " ++ what ++ ": " ++ errno)
        .configurationError)
  | .ok () => return (false, s.setsockopt (change on))

/-- `applyConfigOption`, with the outcome of the option's system call. Its local `ok` is
never set to `true`. -/
def applyConfigOption (s : System F ω) (opt : ConfigOption) (value : ConfigOptionValue)
    (outcome : Except String Unit) : Option (Bool × System F ω) :=
  match opt with
  | .cfgOptBitrate => do
      let _bitrate ← getInt value
      match outcome with
      | .error errno =>
          return (false, s.setError ("Could not set bitrate: " ++ errno) .configurationError)
      | .ok () => return (false, s)
  | .cfgOptLoopback =>
      s.applySwitch "loopback" (fun on socket => { socket with loopback := on }) value outcome
  | .cfgOptRxOwn =>
      s.applySwitch "receive own messages"
        (fun on socket => { socket with recvOwnMsgs := on }) value outcome
  | .cfgOptFD =>
      s.applySwitch "CAN fd frames" (fun on socket => { socket with fdFrames := on })
        value outcome
  | .cfgOptOther =>
      some (false, s.setError "Unsupported configuration option CfgOptOther" .configurationError)

/-- `setConfigOption` of the backend. -/
def setConfigOption (s : System F ω) (opt : ConfigOption) (value : ConfigOptionValue)
    (outcome : Except String Unit) : Option (System F ω) := do
  let (ok, s) ← if s.backend._socket ≠ -1 then s.applyConfigOption opt value outcome
    else some (true, s)
  if !ok then return s
  let s := { s with backend.toCanInterface :=
    s.backend.toCanInterface.setConfigOption opt value }
  if opt = .cfgOptFD then
    let on ← getBool value
    return { s with backend._fdEnabled := on }
  return s

/-- The outcomes of the system calls that opening a connection makes. -/
structure OpenCalls where
  socket : Except String Int
  ifindex : Except String Unit
  bind : Except String Unit
  option : ConfigOption → Except String Unit
  watch : Bool

/-- The option loop of `open`: what could not be applied is logged and passed over. -/
def applyOptions (option : ConfigOption → Except String Unit) :
    List ConfigOption → System F ω → Option (System F ω)
  | [], s => some s
  | opt :: opts, s => do
      let (_, s) ← s.applyConfigOption opt (s.backend.configOption opt) (option opt)
      applyOptions option opts s

/-- `open`, for the backend whose `readSocket` is the callback `func`. The result of
`addFile` is not looked at. -/
def openSocket (func : F) (calls : OpenCalls) (s : System F ω) : Option (Bool × System F ω) :=
  if s.backend._socket ≠ -1 then some (false, s)
  else match calls.socket with
    | .error errno =>
        some (false, s.setError ("Could not open socket: " ++ errno) .connectionError)
    | .ok fd =>
        let s := { s with
          backend._socket := fd
          descriptors := Function.update s.descriptors fd (some (.canRaw {})) }
        match calls.ifindex with
        | .error errno =>
            some (false, s.setError ("Could not get interface index: " ++ errno)
              .connectionError)
        | .ok () => match calls.bind with
          | .error errno =>
              some (false, s.setError ("Could not bind to interface " ++ s.backend._ifname ++
                ": " ++ errno) .connectionError)
          | .ok () => do
              let s := s.setState .connectedState
              let s ← applyOptions calls.option s.backend.configOptions s
              let app := (s.app.addFile s.backend._socket .read func calls.watch).1
              return (true, { s with app := app })

/-- `close`: the kernel drops a closed descriptor from the interest list; `m_files` is
not touched. -/
def close (s : System F ω) : System F ω :=
  let s := { s with
    descriptors := Function.update s.descriptors s.backend._socket none
    app := s.app.descriptorClosed s.backend._socket
    backend._socket := -1 }
  s.setState .disconnectedState

/-- `CanInterface::connect`. -/
def connect (func : F) (calls : OpenCalls) (s : System F ω) : Option (Bool × System F ω) :=
  if s.backend._state ≠ .disconnectedState then
    some (false, s.setError "Disconnect before connecting" .connectionError)
  else do
    let s := s.setState .connectionPendingState
    let (ok, s) ← s.openSocket func calls
    if !ok then return (false, s.setState .disconnectedState)
    return (true, { s with backend := s.backend.clearError })

/-- `CanInterface::disconnect`. -/
def disconnect (s : System F ω) : System F ω :=
  if s.backend._state = .disconnectedState ∨ s.backend._state = .disconnectPendingState then s
  else (s.setState .disconnectPendingState).close

end System
end DPFlow
