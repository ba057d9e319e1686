/-
# The RX check

`RxCheckManager` (`rx_check.cpp`, `rx_check.h`): a table of the flows that are being received, fed
with the header that the sender stamped on every packet (`rx_check_header.h`), and aged by the timer
wheel.

* `track` is the part of `handle_packet` between the lookup and the timer: what a header does to the
  flow it belongs to, and to the counters;
* a manager takes one `RxEvent` at a time: a packet, or an aging call of the thread that owns it;
* the jitter and the latency histogram are not modelled: nothing reads them here.
-/
import Mathlib.Data.List.AList
import Trex.Rx.TimerWheel

namespace Trex.Rx

open Trex.Lib
open Function (update)

/-! ## 1. The header -/

/-- `RX_CHECK_LEN`. -/
def rxCheckLen : Nat := 24

/-- `RX_CHECK_MAGIC`: the length and the type of the IPv6 option. -/
def rxCheckMagic : UInt16 := 0x1617

/-- `CRx_check_header`. -/
structure CRxCheckHeader where
  optionType : UInt8 := 0
  optionLen : UInt8 := 0
  magic : UInt16
  timeStamp : UInt32 := 0
  flowId : UInt64
  pktId : UInt16
  flowSize : UInt16
  flags : UInt8
  templateId : UInt8 := 0
  agingSec : UInt16 := 0
deriving DecidableEq, Repr

namespace CRxCheckHeader

/-- `is_fif_dir`. -/
def isFifDir (rxh : CRxCheckHeader) : Bool := rxh.pktId == 0

/-- `get_dir`: bit 0. -/
def getDir (rxh : CRxCheckHeader) : Bool := rxh.flags &&& 1 != 0

/-- `get_both_dir`: bit 1. -/
def getBothDir (rxh : CRxCheckHeader) : Bool := rxh.flags &&& 2 != 0

/-- `set_dir`. -/
def setDir (rxh : CRxCheckHeader) (dir : Bool) : CRxCheckHeader :=
  { rxh with flags := (rxh.flags &&& ~~~1) ||| (if dir then 1 else 0) }

/-- `set_both_dir`. -/
def setBothDir (rxh : CRxCheckHeader) (both : Bool) : CRxCheckHeader :=
  { rxh with flags := (rxh.flags &&& ~~~2) ||| (if both then 2 else 0) }

end CRxCheckHeader

/-! ## 2. Flows -/

/-- `CRxCheckFlowPerDir`.  `fifSeen` is bit 1 of `m_flags`. -/
structure CRxCheckFlowPerDir where
  flowSize : UInt16 := 0
  pkts : UInt16 := 0
  seq : UInt16 := 0
  fifSeen : Bool := false
deriving DecidableEq, Repr

/-- `set_fif_seen`. -/
def CRxCheckFlowPerDir.setFifSeen (flowPerDir : UInt16) : CRxCheckFlowPerDir where
  pkts := 1
  seq := 1
  fifSeen := true
  flowSize := flowPerDir

/-- `CRxCheckFlow`.  Its timer handle is in the memory of the wheel, at the address of the flow;
`bothDir` and `agedCorrectly` are bits 1 and 2 of `m_flags`. -/
structure CRxCheckFlow where
  flowId : UInt64 := 0
  dir : Bool → CRxCheckFlowPerDir := fun _ => {}
  ooErr : UInt16 := 0
  bothDir : Bool := false
  agedCorrectly : Bool := false

namespace CRxCheckFlow

/-- `get_total_pkt_seen`. -/
def getTotalPktSeen (lf : CRxCheckFlow) : UInt16 := (lf.dir false).pkts + (lf.dir true).pkts

/-- `get_total_pkt_expected`. -/
def getTotalPktExpected (lf : CRxCheckFlow) :
    UInt16 := (lf.dir false).flowSize + (lf.dir true).flowSize

/-- How many directions have a size. -/
def usedDirs (lf : CRxCheckFlow) : Nat :=
  (if (lf.dir false).flowSize > 0 then 1 else 0) + (if (lf.dir true).flowSize > 0 then 1 else 0)

/-- `is_all_pkts_seen`. -/
def isAllPktsSeen (lf : CRxCheckFlow) : Bool :=
  (lf.dir false).pkts == (lf.dir false).flowSize && (lf.dir true).pkts == (lf.dir true).flowSize &&
    (if lf.bothDir then 2 else 1) == lf.usedDirs && lf.ooErr == 0

/-- Write one direction. -/
def setDir (lf : CRxCheckFlow) (dir : Bool) (lpd : CRxCheckFlowPerDir) : CRxCheckFlow :=
  { lf with dir := update lf.dir dir lpd }

/-- A flow that a header opens, from either branch of `handle_packet`. -/
def opened (rxh : CRxCheckHeader) : CRxCheckFlow :=
  { flowId := rxh.flowId, bothDir := rxh.getBothDir : CRxCheckFlow }.setDir rxh.getDir
    (CRxCheckFlowPerDir.setFifSeen rxh.flowSize)

end CRxCheckFlow

/-- `CRxCheckFlowTableStats`. -/
structure CRxCheckFlowTableStats where
  totalRx : Nat := 0
  lookup : Nat := 0
  found : Nat := 0
  fif : Nat := 0
  add : Nat := 0
  remove : Nat := 0
  active : Nat := 0
  errDrop : Nat := 0
  errAged : Nat := 0
  errNoMagic : Nat := 0
  errWrongPktId : Nat := 0
  errFifSeenTwice : Nat := 0
  errOpenWithNoFifPkt : Nat := 0
  errOoDup : Nat := 0
  errOoEarly : Nat := 0
  errOoLate : Nat := 0
  errFlowLengthChanged : Nat := 0
deriving DecidableEq, Repr

/-- `get_total_err`. -/
def CRxCheckFlowTableStats.getTotalErr (s : CRxCheckFlowTableStats) : Nat :=
  s.errDrop + s.errAged + s.errNoMagic + s.errWrongPktId + s.errFifSeenTwice +
    s.errOpenWithNoFifPkt + s.errOoDup + s.errOoEarly + s.errOoLate + s.errFlowLengthChanged

/-- The first packet of a direction, on a flow that is in the table. -/
def trackFif (stats : CRxCheckFlowTableStats) (lf : CRxCheckFlow) (rxh : CRxCheckHeader) :
    CRxCheckFlow × CRxCheckFlowTableStats × Bool :=
  let stats := { stats with found := stats.found + 1 }
  let lpd := lf.dir rxh.getDir
  if lpd.fifSeen then
    let lf := { lf with ooErr := lf.ooErr + 1 }
    let stats := { stats with errFifSeenTwice := stats.errFifSeenTwice + 1 }
    let changed := lpd.flowSize ≠ rxh.flowSize
    let stats := if changed then
      { stats with errFlowLengthChanged := stats.errFlowLengthChanged + 1 } else stats
    let lf := if changed then { lf with ooErr := lf.ooErr + 1 } else lf
    (lf.setDir rxh.getDir { lpd with pkts := lpd.pkts + 1 }, stats, true)
  else
    (lf.setDir rxh.getDir (CRxCheckFlowPerDir.setFifSeen rxh.flowSize), stats, false)

/-- Any other packet, on a flow that is in the table. -/
def trackNext (stats : CRxCheckFlowTableStats) (lf : CRxCheckFlow) (rxh : CRxCheckHeader) :
    CRxCheckFlow × CRxCheckFlowTableStats × Bool :=
  let stats := { stats with found := stats.found + 1 }
  let lpd := lf.dir rxh.getDir
  if ¬ lpd.fifSeen then
    -- the direction is taken to start here, whatever the number of the packet
    (lf.setDir rxh.getDir (CRxCheckFlowPerDir.setFifSeen rxh.flowSize), stats, false)
  else
    let changed := lpd.flowSize ≠ rxh.flowSize
    let stats := if changed then
      { stats with errFlowLengthChanged := stats.errFlowLengthChanged + 1 } else stats
    let lf := if changed then { lf with ooErr := lf.ooErr + 1 } else lf
    let outOfOrder := lpd.seq ≠ rxh.pktId
    let stats :=
      if ¬ outOfOrder then stats
      else if (lpd.seq.toNat : Int) - 1 = rxh.pktId.toNat
        then { stats with errOoDup := stats.errOoDup + 1 }
      else if lpd.seq < rxh.pktId then { stats with errOoLate := stats.errOoLate + 1 }
      else { stats with errOoEarly := stats.errOoEarly + 1 }
    let lf := if outOfOrder then { lf with ooErr := lf.ooErr + 1 } else lf
    (lf.setDir rxh.getDir { lpd with seq := rxh.pktId + 1, pkts := lpd.pkts + 1 }, stats,
      decide changed || decide outOfOrder)

/-- What `handle_packet` makes of the flow of a header (`none`: it is not in the table), of the
counters, and of `any_err`. -/
def track (stats : CRxCheckFlowTableStats) (lf : Option CRxCheckFlow) (rxh : CRxCheckHeader) :
    CRxCheckFlow × CRxCheckFlowTableStats × Bool :=
  match lf with
  | none =>
    let stats := { stats with add := stats.add + 1, active := stats.active + 1 }
    let flow := CRxCheckFlow.opened rxh
    if rxh.isFifDir then
      (flow, { stats with fif := stats.fif + 1 }, false)
    else
      ({ flow with ooErr := flow.ooErr + 1 },
        { stats with errOpenWithNoFifPkt := stats.errOpenWithNoFifPkt + 1 }, true)
  | some lf => if rxh.isFifDir then trackFif stats lf rxh else trackNext stats lf rxh

/-! ## 3. The manager -/

/-- `CPerTemplateInfo`. -/
structure CPerTemplateInfo where
  errors : Nat := 0
  rxPkts : Nat := 0
deriving DecidableEq, Repr

/-- `RxCheckManager`, with the memory of the flows.  `ft` is `CRxCheckFlowTableMap`. -/
structure RxCheckManager where
  tw : CTimerWheel := {}
  ft : AList (fun _ : UInt64 => Ptr) := ∅
  flows : Ptr → Option CRxCheckFlow := fun _ => none
  fresh : Ptr := 0
  stats : CRxCheckFlowTableStats := {}
  templateInfo : UInt8 → CPerTemplateInfo := fun _ => {}
  onDrain : Bool := false
  curTime : Rat := 1 / 100000000

namespace RxCheckManager

/-- `RxCheckManager::Create`. -/
def create : RxCheckManager := {}

/-- `CRxCheckFlowTableMap::count`. -/
def count (m : RxCheckManager) : Nat := m.ft.keys.length

/-- Follow a pointer to a flow. -/
def getFlow (m : RxCheckManager) (p : Ptr) : Except Fault CRxCheckFlow :=
  match m.flows p with
  | some lf => .ok lf
  | none => .error .badPointer

/-- Write to a flow. -/
def setFlow (m : RxCheckManager) (p : Ptr) (lf : CRxCheckFlow) : RxCheckManager :=
  { m with flows := update m.flows p (some lf) }

/-- The index of `get_template`. -/
def templateIndex (index : UInt8) : UInt8 := if index < 31 then index else 31

/-- `update_template_err`. -/
def updateTemplateErr (m : RxCheckManager) (templateId : UInt8) : RxCheckManager :=
  let i := templateIndex templateId
  let info := m.templateInfo i
  { m with templateInfo := update m.templateInfo i { info with errors := info.errors + 1 } }

/-- `inc_rx_counter` of the template. -/
def incRxCounter (m : RxCheckManager) (templateId : UInt8) : RxCheckManager :=
  let i := templateIndex templateId
  let info := m.templateInfo i
  { m with templateInfo := update m.templateInfo i { info with rxPkts := info.rxPkts + 1 } }

/-- `CRxCheckFlowTableMap::add`, with the constructor of the flow and of its timer handle. -/
def ftAdd (m : RxCheckManager) (key : UInt64) : RxCheckManager × Ptr :=
  let p := m.fresh
  let ft := if (m.ft.lookup key).isSome then m.ft else m.ft.insert key p
  ({ m with
      ft
      fresh := p + 1
      flows := update m.flows p (some {})
      tw := m.tw.setHandle p { object := some p, id := 0x1234 } }, p)

/-- `CRxCheckFlowTableMap::remove`. -/
def ftRemove (m : RxCheckManager) (key : UInt64) : RxCheckManager :=
  match m.ft.lookup key with
  | some p =>
    { m with
      flows := update m.flows p none
      tw := m.tw.dropHandle p
      ft := m.ft.erase key }
  | none => m

/-- The counters of `on_flow_end`. -/
def flowEndStats (stats : CRxCheckFlowTableStats) (onDrain : Bool) (lp : CRxCheckFlow) :
    CRxCheckFlowTableStats :=
  let stats := { stats with remove := stats.remove + 1, active := stats.active - 1 }
  let exp := lp.getTotalPktExpected.toNat
  let seen := lp.getTotalPktSeen.toNat
  if onDrain then stats
  else
    { stats with
      errDrop := stats.errDrop + (if exp > seen then exp - seen else 0)
      errAged := stats.errAged + (if lp.agedCorrectly then 0 else 1) }

/-- `RxCheckManager::on_flow_end`. -/
def onFlowEnd (m : RxCheckManager) (p : Ptr) : Except Fault RxCheckManager := do
  let lp ← m.getFlow p
  .ok ({ m with stats := flowEndStats m.stats m.onDrain lp }.ftRemove lp.flowId)

/-- `flow_aging_callback`. -/
def flowAgingCallback (m : RxCheckManager) (t : Ptr) : Except Fault RxCheckManager := do
  let handle ← m.tw.getHandle t
  match handle.object with
  | none => .error .agingCallback
  | some lp =>
    if handle.object1 ∧ handle.id = 0x1234 then m.onFlowEnd lp else .error .agingCallback

/-- `CTimerWheel::handle`. -/
def handle (ties : Nat → Nat) (m : RxCheckManager) : Except Fault (RxCheckManager × Bool) := do
  let (tw, top) ← CTimerWheel.settle ties m.tw.settleFuel m.tw
  match top with
  | none => .ok ({ m with tw }, false)
  | some t =>
    let (tw, h) ← tw.fire t
    let m ← { m with tw }.flowAgingCallback h
    .ok ({ m with tw := m.tw.freeTimer t }, true)

/-- The loop of `try_handle_events` and `drain_all`, which stops at the first time that is not
due. -/
def handleWhile (ties : Nat → Nat) (due : Rat → Bool) :
    Nat → RxCheckManager → Except Fault RxCheckManager
  | 0, _ => .error .spin
  | fuel + 1, m => do
    let (tw, time) ← m.tw.peekTopTime ties
    let m := { m with tw }
    match time with
    | none => .ok m
    | some time =>
      if due time then
        let (m, _) ← m.handle ties
        handleWhile ties due fuel m
      else
        .ok m

/-- `CTimerWheel::try_handle_events`. -/
def tryHandleEvents (ties : Nat → Nat) (m : RxCheckManager) (now : Rat) :
    Except Fault RxCheckManager :=
  handleWhile ties (fun minTime => minTime < now) (m.tw.pq.length + 1) m

/-- `CTimerWheel::drain_all`. -/
def drainAll (ties : Nat → Nat) (m : RxCheckManager) : Except Fault RxCheckManager :=
  handleWhile ties (fun _ => true) (m.tw.pq.length + 1) m

/-- `RxCheckManager::tw_handle`. -/
def twHandle (ties : Nat → Nat) (m : RxCheckManager) : Except Fault RxCheckManager :=
  m.tryHandleEvents ties m.curTime

/-- `RxCheckManager::tw_drain`. -/
def twDrain (ties : Nat → Nat) (m : RxCheckManager) : Except Fault RxCheckManager := do
  let m ← { m with onDrain := true }.drainAll ties
  .ok { m with onDrain := false }

/-- The counters of `handle_packet` before the lookup. -/
def looking (m : RxCheckManager) (rxh : CRxCheckHeader) : RxCheckManager :=
  { m.incRxCounter rxh.templateId with stats := { m.stats with lookup := m.stats.lookup + 1 } }

/-- The flow of an id, with what it was before; a flow that is not in the table is added. -/
def findOrAdd (m : RxCheckManager) (key : UInt64) :
    Except Fault (RxCheckManager × Ptr × Option CRxCheckFlow) :=
  match m.ft.lookup key with
  | none => do
    let (m, p) := m.ftAdd key
    let handle ← m.tw.getHandle p
    .ok ({ m with tw := m.tw.setHandle p { handle with object1 := true } }, p, none)
  | some p => do
    let lf ← m.getFlow p
    .ok (m, p, some lf)

/-- What `track` gives is written to the flow, to the counters, and to those of the template. -/
def store (m : RxCheckManager) (p : Ptr) (templateId : UInt8)
    (tracked : CRxCheckFlow × CRxCheckFlowTableStats × Bool) : RxCheckManager :=
  let m := { m with stats := tracked.2.1 }.setFlow p tracked.1
  if tracked.2.2 then m.updateTemplateErr templateId else m

/-- `handle_packet` after the two checks, up to the timer: the flow of the header is looked up,
opened or updated. -/
def trackPacket (m : RxCheckManager) (rxh : CRxCheckHeader) :
    Except Fault (RxCheckManager × Ptr) := do
  let (m, p, lf) ← (m.looking rxh).findOrAdd rxh.flowId
  .ok (m.store p rxh.templateId (track m.stats lf rxh), p)

/-- `handle_packet` from the timer on: the timer is restarted, and a flow that is complete ends. -/
def rearm (m : RxCheckManager) (p : Ptr) (agingSec : UInt16) : Except Fault RxCheckManager := do
  let tw ← m.tw.restartTimer p (m.curTime + (max agingSec 5).toNat)
  let m := { m with tw }
  let lf ← m.getFlow p
  if lf.isAllPktsSeen then
    let tw ← m.tw.stopTimer p
    ({ m with tw }.setFlow p { lf with agedCorrectly := true }).onFlowEnd p
  else
    .ok m

/-- `handle_packet` after the two checks. -/
def receive (ties : Nat → Nat) (m : RxCheckManager) (rxh : CRxCheckHeader) :
    Except Fault RxCheckManager := do
  let (m, p) ← m.trackPacket rxh
  let m ← m.rearm p rxh.agingSec
  if m.stats.lookup % 256 = 0 then m.twHandle ties else .ok m

/-- `RxCheckManager::handle_packet`, at the time `now`. -/
def handlePacket (ties : Nat → Nat) (m : RxCheckManager) (rxh : CRxCheckHeader) (now : Rat) :
    Except Fault RxCheckManager :=
  let m := { m with stats := { m.stats with totalRx := m.stats.totalRx + 1 } }
  if rxh.magic ≠ rxCheckMagic then
    .ok ({ m with stats := { m.stats with errNoMagic := m.stats.errNoMagic + 1 } }.updateTemplateErr
      rxh.templateId)
  else if rxh.pktId.toNat + 1 > rxh.flowSize.toNat then
    .ok ({ m with stats := { m.stats with errWrongPktId := m.stats.errWrongPktId + 1 }
      }.updateTemplateErr rxh.templateId)
  else
    { m with curTime := now }.receive ties rxh

/-! ## 4. Runs -/

/-- What the owner of a manager calls.  Aging is called with the time of the clock. -/
inductive RxEvent
  | packet (rxh : CRxCheckHeader) (now : Rat)
  | twHandle (now : Rat)
  | twDrain
deriving DecidableEq

/-- One call. -/
def step (ties : Nat → Nat) (m : RxCheckManager) : RxEvent → Except Fault RxCheckManager
  | .packet rxh now => m.handlePacket ties rxh now
  | .twHandle now => { m with curTime := now }.twHandle ties
  | .twDrain => m.twDrain ties

/-- A sequence of calls. -/
def run (ties : Nat → Nat) (m : RxCheckManager) (events : List RxEvent) :
    Except Fault RxCheckManager :=
  events.foldlM (step ties) m

end RxCheckManager

end Trex.Rx
