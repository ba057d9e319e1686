import Trex.Vm.Prefix
import Trex.Stream.Split
import Trex.Lib.Tiles
import Trex.Lib.Pool
import Trex.Lib.Post
import Trex.Dp.Burst
import Trex.Dp.Account
import Trex.Cp.Port
import Trex.Cp.Reply
import Trex.Proto.Simulate
import Trex.Proto.Safety
import Trex.Proto.Master
import Trex.Proto.Update
import Trex.Rx.TimerWheel
import Trex.Rx.Check
import Trex.Rx.Table
import Trex.Rx.Track
import Trex.Flow.Template
import Trex.Flow.Stamp
import Trex.Flow.TcpSeq
import Trex.Flow.Continuity
import Trex.Flow.NatLearn
import Trex.Flow.NatSafe
import Trex.Dp.Sizes
import Trex.Pal.Tx
import Trex.Flow.Packet
import Trex.Lib.Local
import Trex.Flow.FastPath
import Trex.Tuple.Pool
import Trex.Tuple.Unique
import Trex.Dp.Quiesce
import Trex.Dp.Hold
import Trex.Dp.Timing
import Trex.Proto.Timing
import Trex.Proto.Bounded
import Trex.Lib.Throw
import Trex.Stream.Graph
import Trex.Cp.Control
import Trex.Cp.Invariant
import Trex.Rpc.Command
import Trex.Rpc.Ownership
import Trex.Gen.Replay
import Trex.Gen.Thread
import Trex.Gen.Play
import Trex.Gen.Owner
import Trex.Lib.Sweep
import Trex.Stream.Peak
import Trex.Cp.Rate
import Trex.Dp.Frame
import Trex.Dp.Gap
import Trex.Proto.Rate
import Trex.Dp.Pause
import Trex.Proto.Pause
import Trex.Stream.VmObject
import Trex.Lib.Agenda
import Trex.Rx.WheelAgenda
import Trex.Cfg.Launch
import Trex.Dp.Solo
import Trex.Dp.Timeline
import Trex.Lib.Linked
import Trex.Pal.Mbuf
import Trex.Pal.MbufAgree
import Trex.Vm.Cover
import Trex.Vm.Counter
import Trex.Stream.Total
import Trex.Vm.Shape
import Trex.Stream.Atomic
import Trex.Cap.Pcap
import Trex.Cap.ErfFiles
import Trex.Lat.Network
import Trex.Lat.Sequence
import Trex.Lat.Reply
import Trex.Gen.Policer
import Trex.Lib.Stretch
import Trex.Flow.Direction
import Trex.Flow.Convert
import Trex.Flow.Learn
import Trex.Lib.Odometer
import Trex.Vm.Client
import Trex.Stream.Clients
import Trex.Vm.Window
import Trex.Rpc.AddStream
import Trex.Flow.MiniVm
import Trex.Flow.Rewrite
import Trex.Tuple.Client
import Trex.Tuple.Progress
import Trex.Tuple.MacMap
import Trex.Tuple.Group
import Trex.Tuple.Account
import Trex.Lat.Address
import Trex.Lat.Ownership
import Trex.Gen.Limit
import Trex.Flow.NatRx
import Trex.Gen.Defer
import Trex.Eth.Node
import Trex.Pal.Packets
import Trex.Lib.Shared
import Trex.Eth.Cache
import Trex.Lat.Jitter
import Trex.Cfg.Inet
import Trex.Net.BitMan
import Trex.Gen.Window
import Trex.Lat.Histogram
import Trex.Rpc.Number
import Trex.Rpc.Batch
import Trex.Net.Checksum
import Trex.Cfg.Sockets
import Trex.Lat.RoundTrip
import Trex.Flow.RxCheck
