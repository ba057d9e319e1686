/-
# The commands of the RPC server

`TrexRpcCommand::run`, the table of the commands (`trex_rpc_cmds.h`) and what each does to the ports
(`trex_rpc_cmd_general.cpp`, `trex_rpc_cmd_stream.cpp`).  What a command returns is left out, except
for the handler that `acquire` returns.
-/
import Trex.Cp.Control
import Trex.Rpc.Value

namespace Trex.Rpc

open Trex.Lib Trex.Stream Trex.Cp

/-! ## 1. The server -/

/-- `TrexStateless`, with the ports and the number of cores of each. -/
structure TrexStateless (cores : UInt8 → UInt8) where
  portCount : UInt8
  ports : (portId : UInt8) → ControlPort (cores portId)

/-- What a command returns. -/
inductive Result
  | handler (handler : String)
  | other
deriving DecidableEq, Repr

/-- What a command gets from elsewhere: the handler that `generate_handler` makes, the random
numbers of the compiler, the streams in the order in which `get_object_list` returns them, and what
the stream section of an `add_stream` request is parsed to, up to the ids. -/
structure Oracle where
  handler : String
  rand : Nat → Nat → Nat
  streams : List TrexStream
  parseStream : Json → Except RpcErr TrexStream

/-- A command. -/
abbrev RpcProg (cores : UInt8 → UInt8) (α : Type) := EStateM RpcErr (TrexStateless cores) α

namespace TrexStateless

variable {cores : UInt8 → UInt8} {α : Type}

/-- A port, changed. -/
def setPort (s : TrexStateless cores) (portId : UInt8) (port : ControlPort (cores portId)) :
    TrexStateless cores :=
  { s with ports := Function.update s.ports portId port }

/-- `get_port_by_id`. -/
def getPortById (portId : UInt8) : RpcProg cores (ControlPort (cores portId)) := do
  let s ← get
  throwIf (portId ≥ s.portCount) (.escapes "index out of range")
  pure (s.ports portId)

/-- An operation of a port, with what is made of its exceptions. -/
def onPort (portId : UInt8) (caught : Throw → RpcErr) (op : PortProg (cores portId) α) :
    RpcProg cores α := fun s =>
  match op (s.ports portId) with
  | .ok a port => .ok a (s.setPort portId port)
  | .error e port => .error (caught e) (s.setPort portId port)

/-- `catch (const TrexRpcException &ex)`. -/
def catchRpc : Throw → RpcErr
  | .rpcException what => .executeErr what
  | .trexException what => .escapes what
  | .undefined => .undefined

/-- `catch (const TrexException &ex)`. -/
def catchTrex : Throw → RpcErr
  | .rpcException what => .escapes what
  | .trexException what => .executeErr what
  | .undefined => .undefined

/-- `parse_port`, with `validate_port_id`. -/
def parsePort (params : Json) : RpcProg cores UInt8 := do
  let portId ← fromExcept (parseByte params "port_id")
  let s ← get
  throwIf (portId ≥ s.portCount) (.executeErr ("invalid port id - should be between 0 and "
    ++ toString ((s.portCount.toNat : Int) - 1)))
  pure portId

/-! ## 2. The table of the commands -/

/-- The commands. -/
inductive Method
  | testAdd
  | testSub
  | ping
  | getSupportedCmds
  | getVersion
  | getSystemInfo
  | getOwner
  | acquire
  | release
  | getPortStats
  | getPortStatus
  | removeAllStreams
  | removeStream
  | addStream
  | getStreamList
  | getAllStreams
  | getStream
  | startTraffic
  | stopTraffic
  | pauseTraffic
  | resumeTraffic
  | updateTraffic
  | validate
deriving DecidableEq, Repr

/-- The name of a command, how many parameters it has, and whether it needs ownership. -/
def Method.define : Method → String × Nat × Bool
  | .testAdd => ("test_add", 2, false)
  | .testSub => ("test_sub", 2, false)
  | .ping => ("ping", 0, false)
  | .getSupportedCmds => ("get_supported_cmds", 0, false)
  | .getVersion => ("get_version", 0, false)
  | .getSystemInfo => ("get_system_info", 0, false)
  | .getOwner => ("get_owner", 1, false)
  | .acquire => ("acquire", 4, false)
  | .release => ("release", 1, true)
  | .getPortStats => ("get_port_stats", 1, false)
  | .getPortStatus => ("get_port_status", 1, false)
  | .removeAllStreams => ("remove_all_streams", 1, true)
  | .removeStream => ("remove_stream", 2, true)
  | .addStream => ("add_stream", 3, true)
  | .getStreamList => ("get_stream_list", 1, false)
  | .getAllStreams => ("get_all_streams", 2, false)
  | .getStream => ("get_stream", 3, false)
  | .startTraffic => ("start_traffic", 3, true)
  | .stopTraffic => ("stop_traffic", 1, true)
  | .pauseTraffic => ("pause_traffic", 1, true)
  | .resumeTraffic => ("resume_traffic", 1, true)
  | .updateTraffic => ("update_traffic", 2, true)
  | .validate => ("validate", 2, false)

/-- `m_needs_ownership`. -/
def Method.needsOwnership (method : Method) : Bool := method.define.2.2

/-- `m_param_count`: a command that needs ownership has the handler as one more. -/
def Method.paramCount (method : Method) : Nat :=
  method.define.2.1 + if method.needsOwnership then 1 else 0

/-- `TrexRpcCommandsTable::lookup`. -/
def lookup (name : String) : Option Method :=
  [.testAdd, .testSub, .ping, .getSupportedCmds, .getVersion, .getSystemInfo, .getOwner, .acquire,
    .release, .getPortStats, .getPortStatus, .addStream, .removeStream, .removeAllStreams,
    .getStreamList, .getStream, .getAllStreams, .startTraffic, .stopTraffic, .pauseTraffic,
    .resumeTraffic, .updateTraffic, .validate].find? fun method : Method => method.define.1 == name

/-! ## 3. The commands -/

/-- `TrexPortMultiplier::g_types`. -/
def mulTypes : List (String × MulType) :=
  [("raw", .MUL_FACTOR), ("bps", .MUL_BPS), ("pps", .MUL_PPS), ("percentage", .MUL_PERCENTAGE)]

/-- `TrexPortMultiplier::g_ops`. -/
def mulOps : List (String × MulOp) := [("abs", .OP_ABS), ("add", .OP_ADD), ("sub", .OP_SUB)]

/-- `TrexRpcCmdAcquire::_run`. -/
def runAcquire (oracle : Oracle) (params : Json) : RpcProg cores Result := do
  let portId ← parsePort params
  let user ← fromExcept (parseString params "user")
  let force ← fromExcept (parseBool params "force")
  let _ ← fromExcept (parseUInt32 params "session_id")
  onPort portId catchRpc (ControlPort.acquire user force oracle.handler)
  let s ← get
  pure (.handler (s.ports portId).owner.getHandler)

/-- `validate_stream`. -/
def validateStream (stream : TrexStream) (port : ControlPort (cores stream.portId)) :
    RpcProg cores Unit := do
  throwIf (stream.pkt.len < 1 ∨ stream.pkt.len > 9000)
    (.executeErr "bad packet size provided: should be between 1 and 9000")
  throwIf (port.streamTable.any fun s => s.streamId == stream.streamId)
    (.executeErr ("stream " ++ toString stream.streamId.toNat ++ " already exists"))

/-- `TrexRpcCmdAddStream::_run`. -/
def runAddStream (oracle : Oracle) (params : Json) : RpcProg cores Result := do
  let portId ← parsePort params
  let streamId ← fromExcept (parseInt params "stream_id")
  let streamSection ← fromExcept (parseObject params "stream")
  let parsed ← fromExcept (oracle.parseStream streamSection)
  let stream : TrexStream := { parsed with portId := portId, streamId := streamId.toUInt32 }
  let port ← getPortById stream.portId
  validateStream stream port
  onPort stream.portId catchRpc (ControlPort.addStream stream)
  pure .other

/-- `TrexRpcCmdRemoveStream::_run`. -/
def runRemoveStream (params : Json) : RpcProg cores Result := do
  let portId ← parsePort params
  let port ← getPortById portId
  let streamId ← fromExcept (parseInt params "stream_id")
  throwIf (¬ port.streamTable.any fun s => s.streamId == streamId.toUInt32)
    (.executeErr ("stream " ++ toString streamId.toUInt32.toNat ++ " does not exists"))
  onPort portId catchRpc (ControlPort.removeStream streamId.toUInt32)
  pure .other

/-- `TrexRpcCmdStartTraffic::_run`. -/
def runStartTraffic (oracle : Oracle) (params : Json) : RpcProg cores Result := do
  let portId ← parsePort params
  let duration ← fromExcept (parseDouble params "duration")
  let mulObj ← fromExcept (parseObject params "mul")
  let type ← fromExcept (parseChoice mulObj "type" mulTypes)
  let op ← fromExcept (parseString mulObj "op")
  let value ← fromExcept (parseDouble mulObj "value")
  throwIf (op ≠ "abs") (.parseErr "start message can only specify absolute speed rate")
  onPort portId catchRpc (ControlPort.startTraffic oracle.rand oracle.streams ⟨type, .OP_ABS, value⟩
    duration)
  pure .other

/-- `TrexRpcCmdUpdateTraffic::_run`. -/
def runUpdateTraffic (oracle : Oracle) (params : Json) : RpcProg cores Result := do
  let portId ← parsePort params
  let mulObj ← fromExcept (parseObject params "mul")
  let type ← fromExcept (parseChoice mulObj "type" mulTypes)
  let op ← fromExcept (parseChoice mulObj "op" mulOps)
  let value ← fromExcept (parseDouble mulObj "value")
  onPort portId catchRpc (ControlPort.updateTraffic oracle.streams ⟨type, op, value⟩)
  pure .other

/-- A command that does nothing but an operation of its port: `release`, `remove_all_streams`,
`stop_traffic`, `pause_traffic` and `resume_traffic`. -/
def runSimple (op : ∀ {n}, PortProg n Unit) (params : Json) : RpcProg cores Result := do
  let portId ← parsePort params
  onPort portId catchRpc op
  pure .other

/-- `TrexRpcCmdValidate::_run`. -/
def runValidate (oracle : Oracle) (params : Json) : RpcProg cores Result := do
  let portId ← parsePort params
  let _ ← onPort portId catchTrex (ControlPort.validate oracle.rand oracle.streams)
  pure .other

/-- A command that reads a port: `get_owner`, `get_port_stats`, `get_port_status`,
`get_stream_list`. -/
def runRead (params : Json) : RpcProg cores Result := do
  let portId ← parsePort params
  let _ ← getPortById portId
  pure .other

/-- `TrexRpcCmdGetAllStreams::_run`. -/
def runGetAllStreams (params : Json) : RpcProg cores Result := do
  let portId ← parsePort params
  let _ ← getPortById portId
  let _ ← fromExcept (parseBool params "get_pkt")
  pure .other

/-- `TrexRpcCmdGetStream::_run`. -/
def runGetStream (params : Json) : RpcProg cores Result := do
  let portId ← parsePort params
  let port ← getPortById portId
  let _ ← fromExcept (parseBool params "get_pkt")
  let streamId ← fromExcept (parseInt params "stream_id")
  throwIf (¬ port.streamTable.any fun s => s.streamId == streamId.toUInt32)
    (.executeErr ("stream id " ++ toString streamId.toUInt32.toNat ++ " on port "
      ++ toString portId.toNat ++ " does not exists"))
  pure .other

/-- `TrexRpcCmdTestAdd::_run` and `TrexRpcCmdTestSub::_run`. -/
def runTest (params : Json) : RpcProg cores Result := do
  let _ ← fromExcept (parseUInt64 params "x")
  let _ ← fromExcept (parseUInt64 params "y")
  pure .other

/-- `_run`. -/
def runBody (oracle : Oracle) (params : Json) : Method → RpcProg cores Result
  | .testAdd => runTest params
  | .testSub => runTest params
  | .ping => pure .other
  | .getSupportedCmds => pure .other
  | .getVersion => pure .other
  | .getSystemInfo => pure .other
  | .getOwner => runRead params
  | .acquire => runAcquire oracle params
  | .release => runSimple ControlPort.release params
  | .getPortStats => runRead params
  | .getPortStatus => runRead params
  | .removeAllStreams => runSimple ControlPort.removeAndDeleteAllStreams params
  | .removeStream => runRemoveStream params
  | .addStream => runAddStream oracle params
  | .getStreamList => runRead params
  | .getAllStreams => runGetAllStreams params
  | .getStream => runGetStream params
  | .startTraffic => runStartTraffic oracle params
  | .stopTraffic => runSimple ControlPort.stopTraffic params
  | .pauseTraffic => runSimple ControlPort.pauseTraffic params
  | .resumeTraffic => runSimple ControlPort.resumeTraffic params
  | .updateTraffic => runUpdateTraffic oracle params
  | .validate => runValidate oracle params

/-- `check_param_count`. -/
def checkParamCount (method : Method) (params : Json) : RpcProg cores Unit :=
  throwIf (params.size ≠ method.paramCount) (.parseErr ("method expects '"
    ++ toString method.paramCount ++ "' paramteres, '" ++ toString params.size ++ "' provided"))

/-- `verify_ownership`. -/
def verifyOwnership (params : Json) : RpcProg cores Unit := do
  let handler ← fromExcept (parseString params "handler")
  let portId ← parsePort params
  let port ← getPortById portId
  throwIf port.owner.isFree
    (.executeErr "please acquire the port before modifying port state")
  throwIf (¬ port.owner.verify handler)
    (.executeErr "port is not owned by you or your current executing session")

/-- `TrexRpcCommand::run`. -/
def run (oracle : Oracle) (method : Method) (params : Json) : RpcProg cores Result := do
  checkParamCount method params
  doIf method.needsOwnership (verifyOwnership params)
  runBody oracle params method

end TrexStateless

end Trex.Rpc
