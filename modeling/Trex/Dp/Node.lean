/-
# Data-plane nodes

`CGenNodeStateless` (`trex_stream_node.h`): what a data-plane core schedules for one stream.  The
packet buffers and the VM of a node are left out; times are exact rationals where the source has
`double`.
-/
import Trex.Stream.Stream

namespace Trex.Dp

open Trex.Stream

/-- The address of a node.  A freed address is not used again. -/
abbrev Ptr := Nat

/-- `stream_state_t`. -/
inductive StreamState
  /-- Should be freed by the scheduler. -/
  | ssFREE_RESUSE
  /-- Will be made active by another stream, or stopped. -/
  | ssINACTIVE
  | ssACTIVE
deriving DecidableEq, Repr

/-- `CGenNodeStateless`. -/
structure CGenNodeStateless where
  time : Rat
  nextTimeOffset : Rat
  ibgSec : Rat
  state : StreamState
  portId : UInt8
  streamType : StreamType
  pause : Bool
  singleBurst : UInt32
  singleBurstRefill : UInt32
  multiBursts : UInt32
  refStreamInfo : Option TrexStream
  nextStream : Option Ptr
deriving DecidableEq

/-- `usec_to_sec`. -/
def usecToSec (usec : Rat) : Rat := usec / 1000000

/-- The node that `add_stream` makes of a stream.  A single burst is a multi burst of one. -/
def newNode (curTimeSec : Rat) (stream : TrexStream) : CGenNodeStateless :=
  let node : CGenNodeStateless :=
    { time := curTimeSec + usecToSec stream.isgUsec
      nextTimeOffset := 1 / stream.pps
      ibgSec := 0
      state := if stream.selfStart then .ssACTIVE else .ssINACTIVE
      portId := stream.portId
      streamType := stream.type
      pause := false
      singleBurst := 0
      singleBurstRefill := 0
      multiBursts := 0
      refStreamInfo := some stream.clone
      nextStream := none }
  match stream.type with
  | .stCONTINUOUS => node
  | .stSINGLE_BURST =>
    { node with
      streamType := .stMULTI_BURST
      singleBurst := stream.burstTotalPkts
      singleBurstRefill := stream.burstTotalPkts
      multiBursts := 1 }
  | .stMULTI_BURST =>
    { node with
      singleBurst := stream.burstTotalPkts
      singleBurstRefill := stream.burstTotalPkts
      multiBursts := stream.numBursts
      ibgSec := usecToSec stream.ibgUsec }

theorem newNode_state (curTimeSec : Rat) (stream : TrexStream) : (newNode curTimeSec stream).state
    = if stream.selfStart then .ssACTIVE else .ssINACTIVE := by
  cases htype : stream.type <;> simp [newNode, htype]

theorem newNode_portId (curTimeSec : Rat) (stream : TrexStream) :
    (newNode curTimeSec stream).portId = stream.portId := by
  cases htype : stream.type <;> simp [newNode, htype]

theorem newNode_pause (curTimeSec : Rat) (stream : TrexStream) :
    (newNode curTimeSec stream).pause = false := by
  cases htype : stream.type <;> simp [newNode, htype]

theorem newNode_nextStream (curTimeSec : Rat) (stream : TrexStream) :
    (newNode curTimeSec stream).nextStream = none := by
  cases htype : stream.type <;> simp [newNode, htype]

theorem newNode_refStreamInfo (curTimeSec : Rat) (stream : TrexStream) :
    (newNode curTimeSec stream).refStreamInfo = some stream.clone := by
  cases htype : stream.type <;> simp [newNode, htype]

theorem newNode_streamType (curTimeSec : Rat) (stream : TrexStream) :
    (newNode curTimeSec stream).streamType
      = if stream.type = .stCONTINUOUS then .stCONTINUOUS else .stMULTI_BURST := by
  cases htype : stream.type <;> simp [newNode, htype]

namespace CGenNodeStateless

/-- `update_rate`. -/
def updateRate (node : CGenNodeStateless) (factor : Rat) : CGenNodeStateless :=
  { node with nextTimeOffset := node.nextTimeOffset / factor }

/-- `set_pause`. -/
def setPause (node : CGenNodeStateless) (enable : Bool) : CGenNodeStateless :=
  { node with pause := enable }

/-- `mark_for_free`. -/
def markForFree (node : CGenNodeStateless) : CGenNodeStateless :=
  { node with state := .ssFREE_RESUSE, refStreamInfo := none, nextStream := none }

/-- `refresh`: called when a stream restarts after it was inactive. -/
def refresh (node : CGenNodeStateless) (info : TrexStream) : CGenNodeStateless :=
  { node with
    singleBurst := node.singleBurstRefill
    multiBursts := info.numBursts
    state := .ssACTIVE }

/-- `update_refresh_time`. -/
def updateRefreshTime (node : CGenNodeStateless) (info : TrexStream) (curTime : Rat) :
    CGenNodeStateless :=
  { node with time := curTime + usecToSec info.isgUsec }

/-- `handle_continues`: the node when it is pushed again.  A packet is sent unless it is paused. -/
def handleContinues (node : CGenNodeStateless) : CGenNodeStateless :=
  { node with time := node.time + node.nextTimeOffset }

/-- `handle_multi_burst` after the packet is sent, up to the call of `set_stateless_next_node`: the
counters are decremented first, as unsigned integers.  The node is pushed again unless it is
inactive now. -/
def handleMultiBurst (node : CGenNodeStateless) : CGenNodeStateless :=
  let singleBurst := node.singleBurst - 1
  if singleBurst > 0 then
    { node with singleBurst := singleBurst, time := node.time + node.nextTimeOffset }
  else
    let multiBursts := node.multiBursts - 1
    if multiBursts = 0 then
      { node with singleBurst := singleBurst, multiBursts := multiBursts, state := .ssINACTIVE }
    else
      { node with
        singleBurst := node.singleBurstRefill
        multiBursts := multiBursts
        time := node.time + node.ibgSec }

/-- Whether `handle_multi_burst` takes the branch that makes the node inactive. -/
def isLastPacket (node : CGenNodeStateless) : Bool :=
  node.singleBurst - 1 = 0 && node.multiBursts - 1 = 0

theorem handleMultiBurst_state (node : CGenNodeStateless) :
    node.handleMultiBurst.state = if node.isLastPacket then .ssINACTIVE else node.state := by
  have hgt : ∀ x : UInt32, x > 0 ↔ x ≠ 0 := fun x => UInt32.pos_iff_ne_zero
  by_cases hs : node.singleBurst - 1 = 0
  · by_cases hm : node.multiBursts - 1 = 0
    · simp [handleMultiBurst, isLastPacket, hs, hm]
    · simp [handleMultiBurst, isLastPacket, hs, hm]
  · simp [handleMultiBurst, isLastPacket, hgt, hs]

end CGenNodeStateless

end Trex.Dp
