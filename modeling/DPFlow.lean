import DPFlow.Application.Main
import DPFlow.Application.Run
import DPFlow.Application.Scan
import DPFlow.CanBus.Registry
import DPFlow.CanFrame.Basic
import DPFlow.CanFrame.Setters
import DPFlow.CanFrame.Text
import DPFlow.CanFrame.Validity
import DPFlow.CanInterface.Basic
import DPFlow.CanInterface.Connection
import DPFlow.CanInterface.Drain
import DPFlow.CanInterface.Queue
import DPFlow.CanInterface.TxQueue
import DPFlow.Dploader.Basic
import DPFlow.Dploader.Crc
import DPFlow.Dploader.Decode
import DPFlow.Dploader.Distance
import DPFlow.Dploader.Escape
import DPFlow.Dploader.Framing
import DPFlow.Dploader.Seam
import DPFlow.Dploader.Trailer
import DPFlow.Dploader.Unescape
import DPFlow.Event.Registry
import DPFlow.EventDispatcher.Accesses
import DPFlow.EventDispatcher.Agreement
import DPFlow.EventDispatcher.Basic
import DPFlow.EventDispatcher.Cancelled
import DPFlow.EventDispatcher.Dispatch
import DPFlow.EventDispatcher.Pass
import DPFlow.EventDispatcher.Removal
import DPFlow.EventDispatcher.Requested
import DPFlow.EventDispatcher.Runs
import DPFlow.EventDispatcher.Spacing
import DPFlow.EventDispatcher.Timeout
import DPFlow.EventDispatcher.TimerLoop
import DPFlow.EventDispatcher.Timers
import DPFlow.EventDispatcher.TwoOperations
import DPFlow.IntelHex.Basic
import DPFlow.IntelHex.Indices
import DPFlow.IntelHex.Lenient
import DPFlow.IntelHex.Record
import DPFlow.IntelHex.Reference
import DPFlow.IntelHex.Resync
import DPFlow.IntelHex.SingleDigit
import DPFlow.IntelHex.StartCode
import DPFlow.IntelHex.Stream
import DPFlow.IntelHex.Strict
import DPFlow.Lib.Blocks
import DPFlow.Lib.Numeral
import DPFlow.SocketCan.Basic
import DPFlow.SocketCan.Connection
import DPFlow.SocketCan.ErrorMask
import DPFlow.SocketCan.FrameFlags
import DPFlow.SocketCan.Options
import DPFlow.SocketCan.Reachable
import DPFlow.SocketCan.ReadBack
import DPFlow.SocketCan.Receive
import DPFlow.SocketCan.Reentry
import DPFlow.SocketCan.Relay
import DPFlow.SocketCan.Retry
import DPFlow.SocketCan.Scan
import DPFlow.SocketCan.Several
import DPFlow.SocketCan.Timestamps
import DPFlow.SocketCan.Transfer
import DPFlow.SocketCan.Watch
import DPFlow.SocketCan.Wire
import DPFlow.Util.Hexdump
