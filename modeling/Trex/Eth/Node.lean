/-
# The node of a flow, and the packet that it generates

What `CCoreEthIF::send_node` (`main_dpdk.cpp`) and what it calls read of a `CGenNode` (`bp_sim.h`):
the flag word with its accessors, the side of the interface, and the packet that `generate_new_mbuf`
makes, with the addresses that are written over it.

* the mbuf that a node caches is in `m_plugin_info`, where a plug-in keeps its data, and `m_flags`
  says which of the two it is;
* `readPlugin` is the part of the loader of a template that keeps the two apart;
* the packets of `http`, `rtsp` and `sip_voice` (`Flow.MiniVm`, `Flow.TcpSeq`) and the header of the
  rx check (`Flow.Stamp`) are parameters: a node with them is never cached.
-/
import Trex.Flow.MiniVm
import Trex.Gen.Replay
import Trex.Pal.Tx

namespace Trex.Eth

open Trex.Lib Trex.Flow
open Trex.Pal (Abi PktDir)

/-! ## 1. The flag word -/

/-- `NODE_FLAGS_DIR` -/
def nodeFlagsDir : UInt16 := 1

/-- `NODE_FLAGS_MBUF_CACHE` -/
def nodeFlagsMbufCache : UInt16 := 2

/-- `NODE_FLAGS_SAMPLE_RX_CHECK` -/
def nodeFlagsSampleRxCheck : UInt16 := 4

/-- Bits 3 and 4: the state of a flow that waits for its translation. -/
def nodeFlagsLearn : UInt16 := 0x18

/-- `NODE_FLAGS_INIT_START_FROM_SERVER_SIDE` -/
def nodeFlagsInitStartFromServerSide : UInt16 := 0x40

/-- `NODE_FLAGS_ALL_FLOW_SAME_PORT_SIDE` -/
def nodeFlagsAllFlowSamePortSide : UInt16 := 0x80

/-- `NODE_FLAGS_INIT_START_FROM_SERVER_SIDE_SERVER_ADDR` -/
def nodeFlagsInitStartFromServerSideServerAddr : UInt16 := 0x100

/-- Set or clear the bits of a mask. -/
def setFlag (flags mask : UInt16) (enable : Bool) :
    UInt16 := if enable then flags ||| mask else flags &&& ~~~mask

/-- Whether a bit of a mask is set. -/
def testFlag (flags mask : UInt16) : Bool := flags &&& mask != 0

section Flags

variable {flags mask k : UInt16}

theorem or_and_of_disjoint (h : mask &&& k = 0) : (flags ||| mask) &&& k = flags &&& k := by
  apply UInt16.toBitVec_inj.mp
  have hbits := congrArg UInt16.toBitVec h
  ext i hi
  have hbit := congrArg (fun b : BitVec 16 => b[i]) hbits
  simp at hbit ⊢
  cases hf : flags.toBitVec[i] <;> simp_all

theorem andNot_and_of_disjoint (h : mask &&& k = 0) : (flags &&& ~~~mask) &&& k = flags &&& k := by
  apply UInt16.toBitVec_inj.mp
  have hbits := congrArg UInt16.toBitVec h
  ext i hi
  have hbit := congrArg (fun b : BitVec 16 => b[i]) hbits
  simp at hbit ⊢
  cases hk : k.toBitVec[i] <;> simp_all

/-- **A bit is not touched by the others.** -/
theorem testFlag_setFlag_of_disjoint (h : mask &&& k = 0) (enable : Bool) :
    testFlag (setFlag flags mask enable) k = testFlag flags k := by
  unfold testFlag setFlag
  cases enable with
  | true => rw [if_pos rfl, or_and_of_disjoint h]
  | false => rw [if_neg Bool.false_ne_true, andNot_and_of_disjoint h]

theorem testFlag_setFlag_self (h : mask ≠ 0) (enable : Bool) :
    testFlag (setFlag flags mask enable) mask = enable := by
  unfold testFlag setFlag
  cases enable with
  | true =>
    have hself : (flags ||| mask) &&& mask = mask := by
      apply UInt16.toBitVec_inj.mp
      ext i hi
      simpa using Or.inr
    rw [if_pos rfl, hself]
    simpa using h
  | false =>
    rw [if_neg Bool.false_ne_true, UInt16.and_assoc, UInt16.not_and_self, UInt16.and_zero]
    rfl

end Flags

/-! ## 2. The node -/

/-- An address of memory that was allocated. -/
abbrev Ptr := Nat

/-- The types of the nodes of flows. -/
inductive NodeType
  | flowPkt
  | flowPktNat
deriving DecidableEq, Repr

/-- `CGenNode`.  `template` is `m_flow_info` with `m_template_info`, and `pktInfo` is the number of
the packet `m_pkt_info`; `srcMac` is there when it is in use. -/
structure CGenNode where
  type : NodeType
  flags : UInt16
  threadId : UInt8
  srcIp : UInt32
  destIp : UInt32
  srcPort : UInt16
  flowId : UInt64
  srcMac : Option (List UInt8)
  natIpv4Addr : UInt32
  natIpv4AddrServer : UInt32
  natIpv4Port : UInt16
  template : Nat
  pktInfo : Nat
  pluginInfo : Option Ptr

namespace CGenNode

variable (node : CGenNode)

/-- `is_rx_check_enabled` -/
def isRxCheckEnabled : Bool := testFlag node.flags nodeFlagsSampleRxCheck

/-- `get_is_initiator_start_from_server` -/
def isInitiatorStartFromServer : Bool := testFlag node.flags nodeFlagsInitStartFromServerSide

/-- `get_is_initiator_start_from_server_with_server_addr` -/
def isInitiatorStartFromServerWithServerAddr : Bool :=
  testFlag node.flags nodeFlagsInitStartFromServerSideServerAddr

/-- `get_is_all_flow_from_same_dir` -/
def isAllFlowFromSameDir : Bool := testFlag node.flags nodeFlagsAllFlowSamePortSide

/-- `is_eligible_from_server_side` -/
def isEligibleFromServerSide : Bool := node.srcIp &&& 1 == 1

/-- `set_mbuf_cache_dir` -/
def setMbufCacheDir (dir : PktDir) :
    CGenNode := { node with flags := setFlag node.flags nodeFlagsDir (dir == .server) }

/-- `get_mbuf_cache_dir` -/
def getMbufCacheDir : PktDir := if testFlag node.flags nodeFlagsDir then .server else .client

/-- `set_cache_mbuf` -/
def setCacheMbuf (m : Ptr) : CGenNode :=
  { node with pluginInfo := some m, flags := setFlag node.flags nodeFlagsMbufCache true }

/-- `get_cache_mbuf` -/
def getCacheMbuf : Option Ptr :=
    if testFlag node.flags nodeFlagsMbufCache then node.pluginInfo else none

/-- Bits 3 and 4 hold a number below four. -/
def learnState : UInt16 := (node.flags &&& nodeFlagsLearn) >>> 3

def setLearnState (state : UInt16) : CGenNode :=
  { node with flags := setFlag (setFlag node.flags nodeFlagsLearn false) (state <<< 3) true }

/-- `set_nat_first_state` -/
def setNatFirstState : CGenNode := { node.setLearnState 1 with type := .flowPktNat }

/-- `is_nat_first_state` -/
def isNatFirstState : Bool := node.learnState == 1

/-- `set_nat_wait_state` -/
def setNatWaitState : CGenNode := node.setLearnState 2

/-- `is_nat_wait_state` -/
def isNatWaitState : Bool := node.learnState == 2

/-- `cur_interface_dir`, for a packet of the given side. -/
def curInterfaceDir (isInitSide : Bool) : PktDir :=
  let initFromServer := node.isInitiatorStartFromServer ||
    node.isInitiatorStartFromServerWithServerAddr
  let isInit := isInitSide ^^ initFromServer
  if node.isAllFlowFromSameDir then if node.isEligibleFromServerSide then .server else .client
  else if isInit then .client else .server

/-- What `update_pkt_info` and the plug-ins read. -/
def flowNode : FlowNode where
  srcIp := node.srcIp
  destIp := node.destIp
  srcPort := node.srcPort
  natIpv4Addr := node.natIpv4Addr
  natIpv4AddrServer := node.natIpv4AddrServer
  natIpv4Port := node.natIpv4Port
  shortFid := node.flowId.toUInt32
  threadId := node.threadId
  isRxCheckEnabled := node.isRxCheckEnabled
  initFromServer := node.isInitiatorStartFromServerWithServerAddr

end CGenNode

/-- A node keeps an mbuf in the place of the data of a plug-in. -/
def CGenNode.withCache (node : CGenNode) (dir : PktDir) (m : Ptr) : CGenNode :=
  (node.setMbufCacheDir dir).setCacheMbuf m

/-- **The other flags stay.** -/
theorem testFlag_withCache (node : CGenNode) (dir : PktDir) (m : Ptr) {k : UInt16}
    (h : nodeFlagsDir &&& k = 0) (h' : nodeFlagsMbufCache &&& k = 0) :
    testFlag (node.withCache dir m).flags k = testFlag node.flags k := by
  unfold CGenNode.withCache CGenNode.setCacheMbuf CGenNode.setMbufCacheDir
  rw [testFlag_setFlag_of_disjoint h', testFlag_setFlag_of_disjoint h]

@[simp] theorem template_withCache (node : CGenNode) (dir : PktDir) (m : Ptr) :
    (node.withCache dir m).template = node.template := rfl

@[simp] theorem pktInfo_withCache (node : CGenNode) (dir : PktDir) (m : Ptr) :
    (node.withCache dir m).pktInfo = node.pktInfo := rfl

@[simp] theorem srcIp_withCache (node : CGenNode) (dir : PktDir) (m : Ptr) :
    (node.withCache dir m).srcIp = node.srcIp := rfl

@[simp] theorem srcMac_withCache (node : CGenNode) (dir : PktDir) (m : Ptr) :
    (node.withCache dir m).srcMac = node.srcMac := rfl

@[simp] theorem isRxCheckEnabled_withCache (node : CGenNode) (dir : PktDir) (m : Ptr) :
    (node.withCache dir m).isRxCheckEnabled = node.isRxCheckEnabled :=
  testFlag_withCache node dir m rfl rfl

@[simp] theorem curInterfaceDir_withCache (node : CGenNode) (dir : PktDir) (m : Ptr)
    (isInitSide : Bool) :
    (node.withCache dir m).curInterfaceDir isInitSide = node.curInterfaceDir isInitSide := by
  have h1 := testFlag_withCache node dir m (k := nodeFlagsInitStartFromServerSide) rfl rfl
  have h2 := testFlag_withCache node dir m (k := nodeFlagsInitStartFromServerSideServerAddr) rfl rfl
  have h3 := testFlag_withCache node dir m (k := nodeFlagsAllFlowSamePortSide) rfl rfl
  unfold CGenNode.curInterfaceDir CGenNode.isInitiatorStartFromServer CGenNode.isAllFlowFromSameDir
    CGenNode.isInitiatorStartFromServerWithServerAddr
  rw [h1, h2, h3]
  rfl

@[simp] theorem flowNode_withCache (node : CGenNode) (dir : PktDir) (m : Ptr) :
    (node.withCache dir m).flowNode = node.flowNode := by
  have h := testFlag_withCache node dir m (k := nodeFlagsInitStartFromServerSideServerAddr) rfl rfl
  unfold CGenNode.flowNode
  rw [isRxCheckEnabled_withCache]
  unfold CGenNode.isInitiatorStartFromServerWithServerAddr
  rw [h]
  rfl

/-- **What is cached is read back**: the mbuf, and its side. -/
@[simp] theorem getCacheMbuf_withCache (node : CGenNode) (dir : PktDir) (m : Ptr) :
    (node.withCache dir m).getCacheMbuf = some m := by
  unfold CGenNode.getCacheMbuf CGenNode.withCache CGenNode.setCacheMbuf
  rw [testFlag_setFlag_self (by decide)]
  rfl

@[simp] theorem getMbufCacheDir_withCache (node : CGenNode) (dir : PktDir) (m : Ptr) :
    (node.withCache dir m).getMbufCacheDir = dir := by
  unfold CGenNode.getMbufCacheDir CGenNode.withCache CGenNode.setCacheMbuf CGenNode.setMbufCacheDir
  rw [testFlag_setFlag_of_disjoint rfl, testFlag_setFlag_self (by decide)]
  cases dir <;> rfl

/-! ## 3. Templates -/

/-- `mpRTSP`, `mpSIP_VOICE`, `mpDYN_PYLOAD` and `mpAVL_HTTP_BROWSIN` -/
def mpRtsp : UInt8 := 1
def mpSipVoice : UInt8 := 2
def mpDynPyload : UInt8 := 3
def mpAvlHttpBrowsin : UInt8 := 4

/-- A plug-in that keeps data for each flow: `on_node_first` puts it in `m_plugin_info`. -/
def hasFlowData (pluginId : UInt8) : Bool :=
  pluginId == mpRtsp || pluginId == mpSipVoice || pluginId == mpAvlHttpBrowsin

/-- `MAX_PYLOAD_PKT_CHANGE` -/
def maxPyloadPktChange : Nat := 4

/-- The keys `plugin_id` and `dyn_pyload` of a template: `m_plugin_id` and `m_dpPkt`, or the program
ends. -/
def readPlugin (limitWasSet : Bool) (pluginId : Option UInt32) (dynPyload : List CFlowYamlDpPkt) :
    Option (UInt8 × Option (List CFlowYamlDpPkt)) :=
  let pluginId := match pluginId with
    | some pluginVal => pluginVal.toUInt8
    | none => 0
  -- "limit can't be non zero when plugin is set"
  if limitWasSet && pluginId != 0 then none
  else if dynPyload = [] then some (pluginId, none)
  else if pluginId ≠ 0 then none
  else if maxPyloadPktChange < dynPyload.length then none
  else some (mpDynPyload, some dynPyload)

/-- **A template with a limit has no data for each flow.**  It can have a `dyn_pyload`, which is
read behind the check of the limit. -/
theorem readPlugin_limit {pluginId : Option UInt32} {dynPyload : List CFlowYamlDpPkt} {p : UInt8}
    {d : Option (List CFlowYamlDpPkt)} (h : readPlugin true pluginId dynPyload = some (p, d)) :
    p = 0 ∨ p = mpDynPyload := by
  unfold readPlugin at h
  dsimp only at h
  generalize (match pluginId with | some pluginVal => pluginVal.toUInt8 | none => 0) = id at h
  rw [Bool.true_and] at h
  split at h
  · cases h
  · rename_i hid
    have hzero : id = 0 := by simpa using hid
    split at h
    · cases h
      exact Or.inl hzero
    · split at h
      · cases h
      · split at h
        · cases h
        · cases h
          exact Or.inr rfl

/-- A template of a core: its packets, `m_plugin_id` and `m_dpPkt` as they were loaded, and the
bytes of each packet. -/
structure Template (learnMode : Bool) where
  gen : Gen.Template CFlowKey learnMode
  pluginId : UInt8
  dpPkt : Option (List CFlowYamlDpPkt)
  read : ∃ id dyn, readPlugin gen.limitWasSet id dyn = some (pluginId, dpPkt)
  /-- `IsPluginEnable` of each packet, and `multi_flow_enable` -/
  multi : gen.multiFlow = (pluginId != 0)
  bytes : Nat → PktBytes

namespace Template

variable {learnMode : Bool} (t : Template learnMode)

theorem plugin_of_limit (h : t.gen.limitWasSet = true) :
    t.pluginId = 0 ∨ t.pluginId = mpDynPyload := by
  obtain ⟨id, dyn, hread⟩ := t.read
  rw [h] at hread
  exact readPlugin_limit hread

/-- A flow of one packet has no second direction. -/
theorem not_bidirectional {lp : Gen.ReplayPkt} (hsize : t.gen.pkts.length = 1)
    (h : t.gen.pkts[0]? = some lp) :
    lp.info.desc.isBiDirectionalFlow = false := by
  cases hbi : lp.info.desc.isBiDirectionalFlow with
  | false => rfl
  | true =>
    obtain ⟨r, lp', hr, hside⟩ := t.gen.exists_responder h hbi
    obtain ⟨hlt, -⟩ := List.getElem?_eq_some_iff.mp hr
    obtain rfl : r = 0 := by omega
    rw [t.gen.isInitSide_zero hr] at hside
    cases hside

end Template

/-! ## 4. Packets -/

/-- What is drawn for a packet: the numbers that `rand` returns, and the time of an rx check
header. -/
structure Draw where
  rand : Nat → UInt32
  timeStamp : UInt32

/-- The options of a core.  The data of a plug-in is a `π`, and `flowPlugin` is what `http_plugin`,
`rtsp_plugin` and `sip_voice_plugin` make of it; `rxCheck` is `do_generate_new_mbuf_rxcheck`. -/
structure Options (π : Type) where
  abi : Abi
  parser : ParserOption
  ntop : InetNtop
  template : Nat → Template parser.learnMode
  flowPlugin : UInt8 → FlowNode → Nat → PktBytes → π → Option (List UInt8 × π)
  rxCheck : FlowNode → PktDir → UInt32 → List UInt8 → List UInt8
  dstSrcMacAddr : PktDir → List UInt8
  destMacSplit : Bool
  macSplitter : UInt8
  macIpFeatures : Bool
  macIpMapping : Bool
  macIpOveride : Bool
  mbufCacheDisabled : Bool
  rxCheckMode : Bool
  clientServerFlowFlipAddr : Bool
  clientServerFlowFlip : Bool
  clientServerFlip : Bool

/-- `memcpy(p + a, l, l.length)` -/
def overwrite (p : List UInt8) (a : Nat) (l : List UInt8) :
    List UInt8 := p.take a ++ l ++ p.drop (a + l.length)

namespace Options

variable {π : Type} (o : Options π)

/-- `m_pkt_info` -/
def pkt (node : CGenNode) :
    Option Gen.ReplayPkt := (o.template node.template).gen.pkts[node.pktInfo]?

/-- `is_repeat_flow` -/
def isRepeatFlow (node : CGenNode) : Bool := (o.template node.template).gen.limitWasSet

/-- `can_cache_mbuf` -/
def canCacheMbuf (node : CGenNode) : Bool :=
  o.isRepeatFlow node && (o.template node.template).gen.pkts.length == 1

/-- `dyn_pyload_plugin`; IPv6 and a second flow end the program. -/
def dynPyloadPlugin (node : CGenNode) (lp : Gen.ReplayPkt) (rand : Nat → UInt32) :
    Option (List UInt8) :=
  let t := o.template node.template
  let b := t.bytes node.pktInfo
  t.dpPkt.bind fun programs =>
    if o.parser.ipv6Enable then none
    else if lp.info.desc.flowId ≠ 0 then none
    else
      match dynProgram programs node.flowNode lp.info.desc.flowPktNum with
      | some cmd =>
        (doGenerateNewMbufExVm o.abi o.ntop rand b (controlInfo b node.flowNode (some cmd)) [cmd]
          fun _ => 0).map Prod.fst
      | none => doGenerateNewMbufEx o.abi b (controlInfo b node.flowNode none) fun _ => 0

/-- `generate_new_mbuf`: the bytes of the packet, and the data of the plug-in behind it.
`rte_pktmbuf_alloc` clears an mbuf. -/
def generateNewMbuf (node : CGenNode) (lp : Gen.ReplayPkt) (info : Option π) (draw : Draw) :
    Option (List UInt8 × Option π) :=
  let t := o.template node.template
  let b := t.bytes node.pktInfo
  if t.gen.multiFlow then
    -- `on_node_generate_mbuf`
    if hasFlowData t.pluginId then
      info.bind fun data =>
        (o.flowPlugin t.pluginId node.flowNode node.pktInfo b data).map fun (bytes, data) =>
          (bytes, some data)
    else if t.pluginId = mpDynPyload then (o.dynPyloadPlugin node lp draw.rand).map fun bytes =>
      (bytes, info)
    else none
  else (doGenerateNewMbuf o.abi o.parser b node.flowNode fun _ => 0).map fun bytes => (bytes, info)

/-- `update_mac_addr` -/
def updateMacAddr (node : CGenNode) (isInitSide : Bool) (p : List UInt8) : List UInt8 :=
  let p := if o.destMacSplit then
      p.set 5 (p.getD 5 0 + UInt8.ofNat (node.srcIp.toNat % o.macSplitter.toNat))
    else p
  if o.macIpMapping then
    match node.srcMac with
    | some mac => overwrite p 6 mac
    | none => p
  else if o.macIpOveride && isInitSide then overwrite p 6 (toBytes 4 (bswap 4 node.srcIp.toNat))
  else p

/-- `send_node`, as far as it generates a packet: the side that it leaves by, its bytes, and the
data of the plug-in behind it. -/
def newPacket (node : CGenNode) (info : Option π) (draw : Draw) :
    Option (PktDir × List UInt8 × Option π) :=
  (o.pkt node).bind fun lp =>
    (o.generateNewMbuf node lp info draw).map fun (p, info) =>
      let isInitSide := lp.info.desc.isInitSide
      let dir := node.curInterfaceDir isInitSide
      let p := overwrite p 0 (o.dstSrcMacAddr dir)
      let p := if o.macIpFeatures then o.updateMacAddr node isInitSide p else p
      let p := if node.isRxCheckEnabled then o.rxCheck node.flowNode dir draw.timeStamp p else p
      (dir, p, info)

end Options

/-! ## 5. What a packet depends on -/

/-- The `dyn_pyload` of a packet writes numbers that are drawn: its type is `dpRANDOM`, it has words
and a mask for them, and they fit in the payload. -/
def writesRandom (programs : List CFlowYamlDpPkt) (b : PktBytes) (pktNum : Nat) : Bool :=
  decide (pktNum < 253) && b.ind.payloadLen != 0 &&
    (programs.reverse.find? fun dyn => dyn.pktId.toNat == pktNum).any fun dyn =>
      dyn.type == 0 && dyn.pktMask != 0 && dyn.len != 0 && decide (dynFits dyn (vmPayloadLen b.ind))

/-- The packet of a node is drawn. -/
def Options.isDrawn {π : Type} (o : Options π) (node : CGenNode) : Bool :=
  let t := o.template node.template
  t.pluginId == mpDynPyload && t.dpPkt.any fun programs =>
    (o.pkt node).any fun lp => writesRandom programs (t.bytes node.pktInfo) lp.info.desc.flowPktNum

variable {cmd : CMiniVMDynPyload}

/-- A command that writes no drawn word. -/
theorem miniVmDynPayload_congr {len : Nat}
    (h : ¬ (cmd.dyn.type = 0 ∧ cmd.dyn.pktMask ≠ 0 ∧ cmd.dyn.len ≠ 0 ∧ dynFits cmd.dyn len))
    (rand rand' : Nat → UInt32) :
    miniVmDynPayload rand cmd len = miniVmDynPayload rand' cmd len := by
  unfold miniVmDynPayload
  split
  · rename_i hfits
    by_cases hlen : cmd.dyn.len = 0
    · rw [hlen]
      rfl
    · have hword : ∀ i, dynWord rand cmd i = dynWord rand' cmd i := by
        intro i
        unfold dynWord
        split
        · rename_i htype
          have hmask : cmd.dyn.pktMask = 0 := by
            by_contra hmask
            exact h ⟨htype, hmask, hlen, hfits⟩
          rw [hmask, UInt32.and_zero, UInt32.and_zero]
        · rfl
      simp only [hword]
  · rfl

/-- The packet of a program that writes no drawn word. -/
theorem doGenerateNewMbufExVm_congr {abi : Abi} {ntop : InetNtop} {b : PktBytes}
    {info : CFlowInfo} {p : Mem}
    (h : b.ind.payloadLen ≠ 0 → ¬ (cmd.dyn.type = 0 ∧ cmd.dyn.pktMask ≠ 0 ∧ cmd.dyn.len ≠ 0 ∧
      dynFits cmd.dyn (vmPayloadLen b.ind))) (rand rand' : Nat → UInt32) :
    doGenerateNewMbufExVm abi ntop rand b info [.dynPyload cmd] p =
      doGenerateNewMbufExVm abi ntop rand' b info [.dynPyload cmd] p := by
  unfold doGenerateNewMbufExVm
  split
  · rfl
  · rename_i hpayload
    have hsteps := miniVmDynPayload_congr (h hpayload) rand rand'
    simp [miniVmRun, miniVmStep, CMiniVMCmd.steps, hsteps]

namespace Options

variable {π : Type} (o : Options π) {node : CGenNode}

variable {lp : Gen.ReplayPkt}

/-- What `dyn_pyload_plugin` makes of a packet that is not drawn. -/
theorem dynPyloadPlugin_congr (hlp : o.pkt node = some lp)
    (hid : (o.template node.template).pluginId = mpDynPyload) (h : o.isDrawn node = false)
    (rand rand' : Nat → UInt32) :
    o.dynPyloadPlugin node lp rand = o.dynPyloadPlugin node lp rand' := by
  simp only [dynPyloadPlugin]
  cases hprograms : (o.template node.template).dpPkt with
  | none => simp
  | some programs =>
    simp only [isDrawn, hid, beq_self_eq_true, Bool.true_and, hprograms, hlp, Option.any_some] at h
    simp only [Option.bind_some]
    split
    · rfl
    · split
      · rfl
      · cases hcmd : dynProgram programs node.flowNode lp.info.desc.flowPktNum with
        | none => rfl
        | some cmd =>
          unfold dynProgram at hcmd
          split at hcmd
          · rename_i hnum
            obtain ⟨dyn, hfind, rfl⟩ := Option.map_eq_some_iff.mp hcmd
            dsimp only
            refine congrArg (Option.map Prod.fst) (doGenerateNewMbufExVm_congr ?_ rand rand')
            intro hpayload hdrawn
            have hw : writesRandom programs ((o.template node.template).bytes node.pktInfo)
                lp.info.desc.flowPktNum = true := by
              simp only [writesRandom, hnum, decide_true, hfind, Option.any_some, Bool.true_and]
              simpa [hpayload, and_assoc] using hdrawn
            rw [hw] at h
            cases h
          · cases hcmd

/-- What is generated for a node that can be cached, and is not drawn. -/
theorem generateNewMbuf_congr (hlp : o.pkt node = some lp) (hcan : o.canCacheMbuf node = true)
    (h : o.isDrawn node = false) (draw draw' : Draw) :
    o.generateNewMbuf node lp none draw = o.generateNewMbuf node lp none draw' := by
  rw [canCacheMbuf, Bool.and_eq_true] at hcan
  rcases (o.template node.template).plugin_of_limit hcan.1 with hid | hid
  · have hmulti : (o.template node.template).gen.multiFlow = false := by
      rw [(o.template node.template).multi, hid, bne_self_eq_false]
    simp [generateNewMbuf, hmulti]
  · simp only [generateNewMbuf, o.dynPyloadPlugin_congr hlp hid h draw.rand draw'.rand, hid]

/-- **The packet of a node that can be cached is always the same**, unless it is drawn: it depends
neither on what was drawn nor on what a plug-in keeps. -/
theorem newPacket_congr (hcan : o.canCacheMbuf node = true) (hrx : node.isRxCheckEnabled = false)
    (h : o.isDrawn node = false) (draw draw' : Draw) :
    o.newPacket node none draw = o.newPacket node none draw' := by
  cases hlp : o.pkt node with
  | none => simp [newPacket, hlp]
  | some lp =>
    simp [newPacket, hlp, o.generateNewMbuf_congr hlp hcan h draw draw', hrx]

/-- A packet without a plug-in that keeps data leaves none. -/
theorem newPacket_info (hflow : hasFlowData (o.template node.template).pluginId = false)
    {info info' : Option π} {draw : Draw} {dir : PktDir} {bytes : List UInt8}
    (h : o.newPacket node info draw = some (dir, bytes, info')) : info' = info := by
  unfold newPacket at h
  obtain ⟨lp, -, h⟩ := Option.bind_eq_some_iff.mp h
  obtain ⟨⟨p, info1⟩, hgen, h⟩ := Option.map_eq_some_iff.mp h
  cases h
  simp only [generateNewMbuf, hflow, Bool.false_eq_true, ↓reduceIte] at hgen
  split at hgen
  · split at hgen
    · obtain ⟨bytes, -, hpair⟩ := Option.map_eq_some_iff.mp hgen
      cases hpair
      rfl
    · cases hgen
  · obtain ⟨bytes, -, hpair⟩ := Option.map_eq_some_iff.mp hgen
    cases hpair
    rfl

/-- **To cache an mbuf does not change the packet.** -/
theorem newPacket_withCache (hrx : node.isRxCheckEnabled = false) (dir : PktDir) (m : Ptr)
    (info : Option π) (draw : Draw) :
    o.newPacket (node.withCache dir m) info draw = o.newPacket node info draw := by
  have hgen : ∀ lp, o.generateNewMbuf (node.withCache dir m) lp info draw =
      o.generateNewMbuf node lp info draw := by
    intro lp
    simp [generateNewMbuf, dynPyloadPlugin]
  simp [newPacket, pkt, hgen, hrx, updateMacAddr]

end Options

end Trex.Eth
