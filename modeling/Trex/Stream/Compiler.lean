/-
# The streams compiler

`TrexStreamsCompiler::compile` (`trex_streams_compiler.cpp`) turns the streams of a port into one
list of streams for each data-plane core.

First it checks the graph of the streams (`pre_compile_check`).  The nodes are the enabled streams,
kept in a map from stream id to node; every node has one link, to the node of its next stream or to
the dead end, which the map returns for the id `(uint32_t)-1`.  Three passes:

* `allocate_pass` makes the nodes, in order, and numbers them;
* `direct_pass` sets the links;
* `check_for_unreachable_streams` marks what the self-start streams lead to.

Then every enabled stream is compiled for every core (`compile_stream`): its ids are replaced by the
numbers of the nodes, its rate and its burst are divided, its VM is split.

The map is unordered in the source; only the order in which texts are put together depends on it,
and here it is the order of insertion.
-/
import Trex.Lib.Mark
import Trex.Stream.Splitter

namespace Trex.Stream

open Trex.Lib Trex.Vm

/-! ## 1. The graph -/

/-- How `compile` can fail. -/
inductive CompileErr
  /-- a `TrexException` with its text -/
  | exception (what : String)
  /-- an `assert` that failed -/
  | assertFail
  /-- the marking loop does not end -/
  | diverges
deriving DecidableEq, Repr

/-- `TrexStreamsCompiler::err`. -/
def compErr (text : String) : CompileErr := .exception ("*** error: " ++ text)

/-- An error of the VM is passed on. -/
def CompileErr.ofVm : VmErr → CompileErr
  | .exception what => .exception what
  | .assertFail => .assertFail

/-- `GraphNode`. -/
structure GraphNode where
  stream : TrexStream
  compressedStreamId : Int32
deriving DecidableEq

/-- `m_nodes` of `GraphNodeMap`. -/
abbrev GraphNodeMap := List GraphNode

/-- A pointer to a node: the node of a stream id, or `m_dead_end`. -/
inductive NodePtr
  | deadEnd
  | node (streamId : UInt32)
deriving DecidableEq, Repr

/-- The id for which the map returns the dead end: `stream_id == -1`. -/
def deadEndId : UInt32 := 0xFFFFFFFF

namespace GraphNodeMap

/-- `m_nodes.find`. -/
def find (nodes : GraphNodeMap) (streamId : UInt32) : Option GraphNode :=
  nodes.find? fun n => n.stream.streamId == streamId

/-- `get`; `none` is `NULL`. -/
def get (nodes : GraphNodeMap) (streamId : UInt32) : Option NodePtr :=
  if streamId = deadEndId then some .deadEnd
  else (find nodes streamId).map fun n => .node n.stream.streamId

/-- `get(..)->m_compressed_stream_id`, which is -1 in the dead end. -/
def getCompressed (nodes : GraphNodeMap) (streamId : UInt32) : Option Int32 :=
  if streamId = deadEndId then some (-1)
  else (find nodes streamId).map GraphNode.compressedStreamId

/-- `has`. -/
def has (nodes : GraphNodeMap) (streamId : UInt32) : Bool := (get nodes streamId).isSome

/-- `get_roots`. -/
def getRoots (nodes : GraphNodeMap) : List NodePtr :=
  (nodes.filter fun n => n.stream.selfStart).map fun n => .node n.stream.streamId

end GraphNodeMap

/-- The id of the next stream, converted to the map's key. -/
def TrexStream.nextKey (s : TrexStream) : UInt32 := s.nextStreamId.toUInt32

/-- `check_stream`. -/
def checkStream (s : TrexStream) : Except CompileErr Unit :=
  if s.type = .stCONTINUOUS ∧ s.nextStreamId ≠ -1 then
    .error (compErr ("continous stream '" ++ toString s.streamId.toNat
      ++ "' cannot point to another stream"))
  else .ok ()

/-- `allocate_pass`: the loop, with the nodes made so far and the next number. -/
def allocatePass : Nat → GraphNodeMap → List TrexStream → Except CompileErr GraphNodeMap
  | _, nodes, [] => .ok nodes
  | compressed, nodes, s :: rest =>
    if !s.enabled then allocatePass compressed nodes rest
    else do
      checkStream s
      if nodes.has s.streamId then
        .error (compErr ("duplicate instance of stream id " ++ toString s.streamId.toNat))
      else allocatePass (compressed + 1) (nodes ++ [⟨s, Int32.ofNat compressed⟩]) rest

/-- The first loop of `direct_pass`: every link must lead to a node or to the dead end. -/
def directNodes (nodes : GraphNodeMap) : List GraphNode → Except CompileErr Unit
  | [] => .ok ()
  | n :: rest =>
    match nodes.get n.stream.nextKey with
    | none =>
      .error (compErr ("stream " ++ toString n.stream.streamId.toNat
        ++ " is pointing on non existent stream " ++ toString n.stream.nextStreamId.toInt))
    | some _ => directNodes nodes rest

/-- The warnings of the second loop of `direct_pass`: every node that some link leads to. -/
def parentWarnings (nodes : GraphNodeMap) : List String :=
  nodes.filterMap fun n =>
    let parents := nodes.filter fun p =>
      nodes.get p.stream.nextKey == some (.node n.stream.streamId)
    if parents.isEmpty then none
    else some ("*** warning: stream " ++ toString n.stream.streamId.toNat
      ++ " is triggered by multiple streams: "
      ++ String.join (parents.map fun p => toString p.stream.streamId.toNat ++ " "))

/-- `direct_pass`. -/
def directPass (nodes : GraphNodeMap) : Except CompileErr (List String) := do
  directNodes nodes nodes
  .ok (parentWarnings nodes)

/-- `m_next` of a node. -/
def nextPtr (nodes : GraphNodeMap) : NodePtr → Option NodePtr
  | .deadEnd => none
  | .node id => (nodes.find id).bind fun n => nodes.get n.stream.nextKey

/-- `check_for_unreachable_streams`. -/
def checkForUnreachableStreams (nodes : GraphNodeMap) : Except CompileErr Unit :=
  let roots := nodes.getRoots
  match markLoop (nextPtr nodes) (roots.length + nodes.length + 1) roots.reverse [] with
  | none => .error .diverges
  | some marked =>
    let unmarked := nodes.filter fun n => NodePtr.node n.stream.streamId ∉ marked
    if unmarked.isEmpty then .ok ()
    else .error (compErr (String.join (unmarked.map fun n => "stream "
      ++ toString n.stream.streamId.toNat ++ " is unreachable from any other stream\n")))

/-- `pre_compile_check`: the nodes and the warnings. -/
def preCompileCheck (streams : List TrexStream) :
    Except CompileErr (GraphNodeMap × List String) := do
  let nodes ← allocatePass 0 [] streams
  let warnings ← directPass nodes
  checkForUnreachableStreams nodes
  .ok (nodes, warnings)

/-! ## 2. Compiling -/

/-- `TrexStreamsCompiledObj`: the streams of one core. -/
structure TrexStreamsCompiledObj where
  portId : UInt8
  objs : List TrexStream
  allContinues : Bool
deriving DecidableEq

/-- One core's version of a stream: fixed ids, adjusted rate and burst. -/
def coreStream (s : TrexStream) (newId newNextId : Int32) (pps : Rat) (burst : UInt32) :
    TrexStream :=
  { s.clone.fixDpStreamId newId.toUInt32 newNextId with pps := pps, burstTotalPkts := burst }

/-- The versions of a stream for the cores: every core gets its share of the burst, the first one
the remainder too.  The `int`s of the source are kept by their 32 bits. -/
def coreStreams (s : TrexStream) (factor : Rat) (dpCoreCount : Nat) (newId newNextId : Int32) :
    List TrexStream :=
  let perCoreRate := s.pps * (factor / dpCoreCount)
  let n := UInt32.ofNat dpCoreCount
  let perCoreBurst := s.burstTotalPkts / n
  let burstRemainder := s.burstTotalPkts - perCoreBurst * n
  (List.range dpCoreCount).map fun i =>
    coreStream s newId newNextId perCoreRate
      (if i = 0 then perCoreBurst + burstRemainder else perCoreBurst)

/-- `compile_stream`: the streams to attach, one for each core.  `rand j` is the value of `rand()`
for core `j`. -/
def compileStream (rand : Nat → Nat) (nodes : GraphNodeMap) (factor : Rat) (dpCoreCount : Nat)
    (s : TrexStream) : Except CompileErr (List TrexStream) :=
  match nodes.getCompressed s.streamId with
  | none => .error .assertFail
  | some newId =>
    if newId < 0 then .error .assertFail
    else
      let newNextId : Option Int32 :=
        if s.nextStreamId ≥ 0 then nodes.getCompressed s.nextKey else some (-1)
      match newNextId with
      | none => .error .assertFail
      | some newNextId =>
        (split rand s (coreStreams s factor dpCoreCount newId newNextId)).mapError CompileErr.ofVm

/-- The loop of `compile_internal` over the enabled streams; `i` counts them. -/
def compileStreams (rand : Nat → Nat → Nat) (nodes : GraphNodeMap) (factor : Rat)
    (dpCoreCount : Nat) : Nat → List TrexStream → Except CompileErr (List (List TrexStream))
  | _, [] => .ok []
  | i, s :: rest =>
    if !s.enabled then compileStreams rand nodes factor dpCoreCount i rest
    else do
      let cores ← compileStream (rand i) nodes factor dpCoreCount s
      let others ← compileStreams rand nodes factor dpCoreCount (i + 1) rest
      .ok (cores :: others)

/-- The streams of one core, of the lists that the loop attached. -/
def coreObjs (lists : List (List TrexStream)) (core : Nat) : List TrexStream :=
  lists.filterMap fun l => l[core]?

/-- `compile`: the object of every core.  `rand i j` is the value of `rand()` when the `i`-th
enabled stream is compiled for core `j`. -/
def compileAll (rand : Nat → Nat → Nat) (portId : UInt8) (streams : List TrexStream)
    (dpCoreCount : UInt8) (factor : Rat) : Except CompileErr (List TrexStreamsCompiledObj) := do
  let (nodes, _) ← preCompileCheck streams
  let allContinues := streams.all fun s => s.type == .stCONTINUOUS
  let lists ← compileStreams rand nodes factor dpCoreCount.toNat 0 streams
  .ok ((List.range dpCoreCount.toNat).map fun core => ⟨portId, coreObjs lists core, allContinues⟩)

end Trex.Stream
