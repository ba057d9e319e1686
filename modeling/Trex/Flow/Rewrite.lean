/-
# What the plug-ins make of a payload

The packet that `do_generate_new_mbuf_ex_vm` makes is the template with the ranges of its command
replaced (`Rewritten`): its payload is the spliced one, its size and `s_size` follow, and the
lengths in its headers move by the difference (`payload_rewritten`).

Every plug-in asks for as much room as its texts may need (`growth_le_room`), so that what is
trimmed is what was not needed.  Besides the ranges, `mini_vm_replace_ip_via_ip_ip_ports` writes a
`6` two bytes in front of each of the two IPv6 addresses that follow `IN IP4`, and the words of
`mini_vm_dyn_payload` are only written where they end more than four bytes in front of the end.
-/
import Mathlib.Algebra.Order.BigOperators.Group.List
import Trex.Flow.Learn
import Trex.Flow.MiniVm

namespace Trex.Flow

open Trex.Lib Trex.Net Trex.Pal List

/-! ## 1. Where the payload is -/

/-- Where the headers and the payload of a packet of a template are. -/
structure Placed (b : PktBytes) : Prop where
  ip : b.ind.ipOffset = 14
  l4 : (if b.ind.isIpv6 then 54 else 34) ≤ b.ind.udpTcpOffset
  l4_le : b.ind.udpTcpOffset ≤ (if b.ind.isIpv6 then 54 else 34) + noOptionLen
  option : b.isLearn = true → (if b.ind.isIpv6 then 54 else 34) + noOptionLen ≤ b.ind.udpTcpOffset
  payload : b.ind.udpTcpOffset ≤ b.ind.payloadOffset ∧ b.ind.payloadOffset ≤ b.ind.udpTcpOffset + 60
  udp : b.ind.proto = .udp → b.ind.payloadOffset = b.ind.udpTcpOffset + 8
  small : b.ind.isIpv6 = false → b.ind.packet.pktLen ≤ maxBufSize - firstPktSize + noOptionLen
  size : b.ind.packet.pktLen < maxBufSize + noOptionLen

variable {b : PktBytes} {pkt : CCapPktRaw} {o : ParserOption} {abi : Abi} {cmd : CMiniVMCmd}
  {node : FlowNode}

theorem Placed.le_l4 (hb : Placed b) : 34 ≤ b.ind.udpTcpOffset := by
  have hle := hb.l4
  split at hle <;> omega

/-- Where the payload is, by the transport header. -/
theorem processIpPacketProtocol_payload {protocol offset payload : Nat} {proto : L4}
    (h : processIpPacketProtocol pkt protocol offset = some (proto, payload)) :
    (offset ≤ payload ∧ payload ≤ offset + 60) ∧ (proto = .udp → payload = offset + 8) := by
  rcases (processIpPacketProtocol_eq_some.mp h).1 with ⟨-, rfl, rfl⟩ | ⟨-, rfl, rfl⟩
  · have hbyte := (pkt.raw (offset + 12)).toNat_lt
    unfold tcpHeaderLength
    exact ⟨⟨by omega, by omega⟩, nofun⟩
  · exact ⟨⟨by omega, by omega⟩, fun _ => rfl⟩

variable {ind : CPacketIndication} {desc : CPacketDescriptor}

/-- What the parser says of the payload of a packet. -/
theorem processPacket_payload (h : processPacket o pkt = some ind) :
    (ind.udpTcpOffset ≤ ind.payloadOffset ∧ ind.payloadOffset ≤ ind.udpTcpOffset + 60)
      ∧ (ind.proto = .udp → ind.payloadOffset = ind.udpTcpOffset + 8) := by
  have hv4 : ∀ {pkt offset}, processIpPacket pkt offset = some ind →
      (ind.udpTcpOffset ≤ ind.payloadOffset ∧ ind.payloadOffset ≤ ind.udpTcpOffset + 60)
        ∧ (ind.proto = .udp → ind.payloadOffset = ind.udpTcpOffset + 8) := by
    intro pkt offset h
    obtain ⟨proto, payload, hchecks, rfl⟩ := processIpPacket_eq_some.mp h
    exact processIpPacketProtocol_payload hchecks.l4
  have hv6 : ∀ {pkt offset}, processIpv6Packet o pkt offset = some ind →
      (ind.udpTcpOffset ≤ ind.payloadOffset ∧ ind.payloadOffset ≤ ind.udpTcpOffset + 60)
        ∧ (ind.proto = .udp → ind.payloadOffset = ind.udpTcpOffset + 8) := by
    intro pkt offset h
    obtain ⟨proto, payload, hchecks, rfl⟩ := processIpv6Packet_eq_some.mp h
    exact processIpPacketProtocol_payload hchecks.l4
  unfold processPacket at h
  split at h
  · cases h
  · split at h
    · exact hv6 h
    · cases h
  · split at h
    · cases h
    split at h
    · obtain ⟨pkt', -, h⟩ := Option.bind_eq_some_iff.mp h
      exact hv6 h
    · exact hv4 h

/-- Moving the TTL out of the way changes a byte of the header. -/
theorem freeReservedTTL_offsets (ind : CPacketIndication) :
    (freeReservedTTL ind).udpTcpOffset = ind.udpTcpOffset
    ∧ (freeReservedTTL ind).payloadOffset = ind.payloadOffset ∧
        (freeReservedTTL ind).proto = ind.proto := by
  unfold freeReservedTTL
  split
  · exact ⟨rfl, rfl, rfl⟩
  · exact ⟨rfl, rfl, rfl⟩

/-- A packet that was accepted. -/
theorem acceptPacket_placed {side : Bool} (h : acceptPacket abi o side pkt = some b) :
    (Placed b ∧ b.ind.isIpv6 = o.ipv6Enable) ∧ b.ind.packet.pktLen < maxBufSize
      ∧ (b.ind.isIpv6 = false → b.ind.packet.pktLen ≤ maxBufSize - firstPktSize)
      ∧ b.ind.udpTcpOffset = if b.ind.isIpv6 then 54 else 34 := by
  unfold acceptPacket at h
  obtain ⟨ind, hind, h⟩ := Option.bind_eq_some_iff.mp h
  obtain ⟨b1, hcreate, h⟩ := Option.bind_eq_some_iff.mp h
  split at h
  · rename_i hvalid
    cases h
    have hparsed := freeReservedTTL_parsed (processPacket_parsed hind)
    have hb : b.ind = freeReservedTTL ind := by
      unfold PktBytes.create at hcreate
      split at hcreate
      · obtain ⟨bigMbuf, -, rfl⟩ := Option.map_eq_some_iff.mp hcreate
        rfl
      · cases hcreate
    rw [hb] at hvalid
    obtain ⟨hloaded, -, -, hnot, -⟩ := loadedPkt_of_create hparsed hvalid hcreate
    have hlearn : ¬ (b.ind.isIpv6 = true ∧ b.isLearn = true) := by
      rw [hnot]
      exact fun hl => Bool.false_ne_true hl.2
    have hmax := hloaded.max hlearn
    have hl4 := hloaded.l4
    rw [hnot, if_neg Bool.false_ne_true, Nat.add_zero] at hl4
    obtain ⟨hpayload, hudp⟩ := processPacket_payload hind
    obtain ⟨ho1, ho2, ho3⟩ := freeReservedTTL_offsets ind
    have hsmall : b.ind.isIpv6 = false → b.ind.packet.pktLen ≤ maxBufSize - firstPktSize := by
      intro hv4
      rw [hb] at hv4 ⊢
      exact hparsed.max hv4
    have hoption : b.isLearn = true →
        (if b.ind.isIpv6 then 54 else 34) + noOptionLen ≤ b.ind.udpTcpOffset := by
      rw [hnot]
      exact fun hl => absurd hl Bool.false_ne_true
    refine ⟨⟨⟨hloaded.ip, hl4.ge, hl4.le.trans (Nat.le_add_right _ _), hoption, ?_, ?_, ?_, ?_⟩,
      hloaded.ipv6⟩, hmax, hsmall, hl4⟩
    · rw [hb, ho1, ho2]
      exact hpayload
    · rw [hb, ho1, ho2, ho3]
      exact hudp
    · exact fun hv4 => (hsmall hv4).trans (Nat.le_add_right _ _)
    · exact hmax.trans_le (Nat.le_add_right _ _)
  · cases h

/-- What the option moves. -/
structure Moved (b b' : PktBytes) : Prop where
  ipv6 : b'.ind.isIpv6 = b.ind.isIpv6
  proto : b'.ind.proto = b.ind.proto
  ip : b'.ind.ipOffset = b.ind.ipOffset
  l4 : b'.ind.udpTcpOffset = b.ind.udpTcpOffset + noOptionLen
  payload : b'.ind.payloadOffset = b.ind.payloadOffset + noOptionLen
  len : b'.ind.packet.pktLen = b.ind.packet.pktLen + noOptionLen

theorem refresh_moved {b' : PktBytes} (hlen : pkt.pktLen = b.ind.packet.pktLen + noOptionLen)
    (h : b.refresh abi pkt noOptionLen = some b') :
    Moved b b' := by
  unfold PktBytes.refresh at h
  obtain ⟨bigMbuf, -, rfl⟩ := Option.map_eq_some_iff.mp h
  exact ⟨rfl, rfl, rfl, rfl, rfl, hlen⟩

theorem maskAsLearn_moved {b' : PktBytes} (h : maskAsLearn abi b = some b') : Moved b b' := by
  unfold maskAsLearn at h
  obtain ⟨b1, hpush, rfl⟩ := Option.map_eq_some_iff.mp h
  have hmoved : Moved b b1 := by
    split at hpush
    · exact refresh_moved rfl hpush
    · simp only [pushIpv4OptionOffline] at hpush
      split at hpush
      · cases hpush
      · exact refresh_moved rfl hpush
  exact ⟨hmoved.ipv6, hmoved.proto, hmoved.ip, hmoved.l4, hmoved.payload, hmoved.len⟩

/-- **Every packet of a template is placed**, and all of them are of one version of IP. -/
theorem loadPacket_placed {i : Nat} (h : loadPacket abi o i desc pkt = some b) :
    Placed b ∧ b.ind.isIpv6 = o.ipv6Enable := by
  rw [loadPacket_eq] at h
  obtain ⟨b1, haccept, h⟩ := Option.bind_eq_some_iff.mp h
  obtain ⟨⟨hplaced, hipv6⟩, hmax, hsmall, hl4⟩ := acceptPacket_placed haccept
  split at h
  · have hmoved := maskAsLearn_moved h
    have hopt : noOptionLen = 8 := rfl
    have h₁ := hmoved.l4
    have h2 := hmoved.payload
    have h3 := hmoved.len
    obtain ⟨hip, -, -, -, ⟨hlo, hhi⟩, hudp, -, -⟩ := hplaced
    rw [← hmoved.ipv6] at hl4
    refine ⟨⟨hmoved.ip.trans hip, by omega, by omega, fun _ => by omega, ⟨by omega, by omega⟩, ?_,
      ?_, by omega⟩, hmoved.ipv6.trans hipv6⟩
    · intro hproto
      have := hudp (hmoved.proto.symm.trans hproto)
      omega
    · intro hv4
      have := hsmall (hmoved.ipv6.symm.trans hv4)
      omega
  · cases h
    exact ⟨hplaced, hipv6⟩

/-! ## 2. What a command replaces -/

/-- The byte two in front of an IPv6 address, if it is to be counted. -/
def markEdit (marked isV6 : Bool) (start : Nat) : List (Edit UInt8) :=
  if marked && isV6 then [⟨start - 2, start - 1, [54]⟩] else []

/-- The words of `mini_vm_dyn_payload`. -/
def dynEdits (rand : Nat → UInt32) (cmd : CMiniVMDynPyload) : List (Edit UInt8) :=
  (List.range cmd.dyn.len.toNat).filterMap fun i =>
    (dynWord rand cmd i).map fun word =>
      let start := cmd.dyn.pyldOffset.toNat + 4 * i
      ⟨start, start + 4, toBytes 4 word⟩

/-- **The ranges of a command, with what stands in their places**, in a payload of `len` bytes. -/
def CMiniVMCmd.edits (ntop : InetNtop) (rand : Nat → UInt32) (marked : Bool) (cmd : CMiniVMCmd)
    (len : Nat) :
    List (Edit UInt8) :=
  match cmd with
  | .replaceIp cmd => [⟨cmd.start0, cmd.stop1, addrToStr ntop cmd.isV6 cmd.serverIp⟩]
  | .replaceIpPort cmd =>
    [⟨cmd.start0, cmd.stop1, addrToStr ntop cmd.isV6 cmd.serverIp⟩,
      ⟨cmd.startPort, cmd.stopPort, portRange cmd.clientPort⟩]
  | .replaceIpPortResponse cmd =>
    [⟨cmd.startPort, cmd.stopPort, portRange cmd.clientPort ++ ascii ";server_port=" ++
      portRange cmd.serverPort⟩]
  | .replaceIpIpPort cmd =>
    [⟨cmd.ip0Start, cmd.ip0Stop, addrToStr ntop cmd.isV6 cmd.ip⟩,
      ⟨cmd.ip1Start, cmd.ip1Stop, addrToStr ntop cmd.isV6 cmd.ip⟩,
      ⟨cmd.portStart, cmd.portStop, decimal cmd.port.toNat⟩]
  | .replaceIpViaIpIpPort cmd =>
    [⟨cmd.ipViaStart, cmd.ipViaStop,
        addrToStr ntop cmd.isV6 cmd.ipVia ++ (ascii ":" ++ decimal cmd.portVia.toNat)⟩]
      ++ markEdit marked cmd.isV6 cmd.ip0Start
      ++ [⟨cmd.ip0Start, cmd.ip0Stop, addrToStr ntop cmd.isV6 cmd.ip⟩]
      ++ markEdit marked cmd.isV6 cmd.ip1Start
      ++ [⟨cmd.ip1Start, cmd.ip1Stop, addrToStr ntop cmd.isV6 cmd.ip⟩,
        ⟨cmd.portStart, cmd.portStop, decimal cmd.port.toNat⟩]
  | .dynPyload cmd => if dynFits cmd.dyn len then dynEdits rand cmd else []

/-- The bytes in front of the addresses are between the ranges. -/
def CMiniVMCmd.Spaced : CMiniVMCmd → Prop
  | .replaceIpViaIpIpPort cmd =>
    cmd.isV6 = true → cmd.ipViaStop + 2 ≤ cmd.ip0Start ∧ cmd.ip0Stop + 2 ≤ cmd.ip1Start
  | _ => True

section Commands

variable {ntop : InetNtop} {rand : Nat → UInt32} {payload : List UInt8}

/-- With the bytes in front of the addresses the ranges are in order, too. -/
theorem CMiniVMCmd.editsIn_marked {cmd : CMiniVMCmd} {len : Nat} (hspaced : cmd.Spaced)
    (h : EditsIn len 0 (cmd.edits ntop rand false len)) :
    EditsIn len 0 (cmd.edits ntop rand true len) := by
  cases cmd with
  | replaceIpViaIpIpPort cmd =>
    cases hv6 : cmd.isV6 with
    | false =>
      simp only [CMiniVMCmd.edits, markEdit, hv6, Bool.and_false] at h ⊢
      exact h
    | true =>
      obtain ⟨hmark0, hmark1⟩ := hspaced hv6
      simp only [CMiniVMCmd.edits, markEdit, hv6, Bool.and_true, Bool.false_eq_true, if_false,
        if_true, append_nil, cons_append, nil_append, EditsIn] at h ⊢
      omega
  | _ => exact h

/-- A program that copies the payload and overwrites some words writes the payload with these
words. -/
theorem dynPayload_out (cmd : CMiniVMDynPyload)
    (h : EditsIn payload.length 0 (if dynFits cmd.dyn payload.length then dynEdits rand cmd
      else [])) :
    outSteps payload (miniVmDynPayload rand cmd payload.length) []
        = splice payload 0 (if dynFits cmd.dyn payload.length then dynEdits rand cmd else [])
      ∧ Fit payload.length (miniVmDynPayload rand cmd payload.length) 0 := by
  have hcopy : WriteStep.out payload [] (.copy 0 payload.length) = payload := by
    simp [WriteStep.out]
  -- the words are as long as their ranges, and each is poked where its range is
  have hpokes : (List.range cmd.dyn.len.toNat).filterMap (fun i =>
      (dynWord rand cmd i).map fun word =>
        WriteStep.poke (cmd.dyn.pyldOffset.toNat + 4 * i) (toBytes 4 word))
      = (dynEdits rand cmd).map fun e => .poke e.start e.text := by
    simp [dynEdits, map_filterMap, Function.comp_def]
  have hlen : ∀ e ∈ dynEdits rand cmd, e.start + e.text.length = e.stop := by
    intro e he
    obtain ⟨i, -, hword⟩ := mem_filterMap.mp he
    obtain ⟨word, -, rfl⟩ := Option.map_eq_some_iff.mp hword
    simp
  unfold miniVmDynPayload
  rw [hpokes, outSteps, hcopy]
  split at h
  · rename_i hfits
    simp only [if_pos hfits]
    have hfit := fit_pokes (n := payload.length) h hlen
    refine ⟨outSteps_pokes h hlen, ⟨Nat.zero_le _, le_rfl⟩, ?_⟩
    rwa [WriteStep.size, Nat.zero_add, Nat.sub_zero]
  · rename_i hfits
    simp only [if_neg hfits]
    exact ⟨rfl, ⟨Nat.zero_le _, le_rfl⟩, trivial⟩

/-- **What a command writes is the payload with its ranges replaced.** -/
theorem steps_out {cmd : CMiniVMCmd} (hspaced : cmd.Spaced)
    (h : EditsIn payload.length 0 (cmd.edits ntop rand false payload.length)) :
    outSteps payload (cmd.steps ntop rand payload.length) []
        = splice payload 0 (cmd.edits ntop rand true payload.length)
      ∧ Fit payload.length (cmd.steps ntop rand payload.length) 0 := by
  cases cmd with
  | replaceIp cmd =>
    simp only [CMiniVMCmd.edits, EditsIn] at h
    obtain ⟨-, hip, hend⟩ := h
    refine ⟨?_, ⟨Nat.zero_le _, by omega⟩, trivial, ⟨hend, le_rfl⟩, trivial⟩
    simp [CMiniVMCmd.steps, miniVmReplaceIp, outSteps, WriteStep.out, CMiniVMCmd.edits, splice]
  | replaceIpPort cmd =>
    simp only [CMiniVMCmd.edits, EditsIn] at h
    obtain ⟨-, hip, hgap, hport, hend⟩ := h
    refine ⟨?_, ⟨Nat.zero_le _, by omega⟩, trivial, ⟨hgap, by omega⟩, trivial, ⟨hend, le_rfl⟩,
      trivial⟩
    simp [CMiniVMCmd.steps, miniVmReplacePortIp, outSteps, WriteStep.out, CMiniVMCmd.edits, splice]
  | replaceIpPortResponse cmd =>
    simp only [CMiniVMCmd.edits, EditsIn] at h
    obtain ⟨-, hport, hend⟩ := h
    refine ⟨?_, ⟨Nat.zero_le _, by omega⟩, trivial, ⟨hend, le_rfl⟩, trivial⟩
    simp [CMiniVMCmd.steps, miniVmReplacePorts, outSteps, WriteStep.out, CMiniVMCmd.edits, splice]
  | replaceIpIpPort cmd =>
    simp only [CMiniVMCmd.edits, EditsIn] at h
    obtain ⟨-, hip0, hgap0, hip1, hgap1, hport, hend⟩ := h
    refine ⟨?_, ⟨Nat.zero_le _, by omega⟩, trivial, ⟨hgap0, by omega⟩, trivial, ⟨hgap1, by omega⟩,
      trivial, ⟨hend, le_rfl⟩, trivial⟩
    simp [CMiniVMCmd.steps, miniVmReplaceIpIpPorts, outSteps, WriteStep.out, CMiniVMCmd.edits,
      splice]
  | replaceIpViaIpIpPort cmd =>
    simp only [CMiniVMCmd.edits, markEdit, Bool.false_and, Bool.false_eq_true, if_false, append_nil,
      cons_append, nil_append, EditsIn] at h
    obtain ⟨-, hvia, hgap, hip0, hgap0, hip1, hgap1, hport, hend⟩ := h
    cases hv6 : cmd.isV6 with
    | false =>
      refine ⟨?_, ?_⟩
      · simp [CMiniVMCmd.steps, miniVmReplaceIpViaIpIpPorts, markV6, markEdit, hv6, outSteps,
          WriteStep.out, CMiniVMCmd.edits, splice]
      · simp only [CMiniVMCmd.steps, miniVmReplaceIpViaIpIpPorts, markV6, hv6, Bool.false_eq_true,
          if_false, append_nil, cons_append, nil_append, Fit, WriteStep.Fit, true_and, and_true]
        omega
    | true =>
      obtain ⟨hroom0, hroom1⟩ := hspaced hv6
      have hmark0 : cmd.ip0Start - 2 + 1 = cmd.ip0Start - 1 := by omega
      have hmark1 : cmd.ip1Start - 2 + 1 = cmd.ip1Start - 1 := by omega
      refine ⟨?_, ?_⟩
      · simp only [CMiniVMCmd.steps, miniVmReplaceIpViaIpIpPorts, markV6, hv6, if_true, cons_append,
          nil_append, outSteps, WriteStep.out]
        rw [WriteStep.overwrite_back _ (by decide) (by omega) (by omega),
          WriteStep.overwrite_back _ (by decide) (by omega) (by omega), hmark0, hmark1]
        simp [CMiniVMCmd.edits, markEdit, hv6, splice]
      · simp only [CMiniVMCmd.steps, miniVmReplaceIpViaIpIpPorts, markV6, hv6, if_true,
          cons_append, nil_append, Fit, WriteStep.Fit, WriteStep.size, true_and, and_true]
        omega
  | dynPyload cmd => exact dynPayload_out cmd h

end Commands

/-! ## 3. The room that the plug-ins ask for -/

theorem length_decimal_le {n : Nat} (h : n < 10 ^ inetPortStrLen) :
    (decimal n).length ≤ inetPortStrLen := by
  rw [decimal, length_map]
  exact (Nat.length_toDigits_le_iff (by decide) (by decide)).mpr h

theorem length_port_le (port : UInt16) : (decimal port.toNat).length ≤ inetPortStrLen :=
  length_decimal_le (port.toNat_lt.trans (by decide))

/-- Two numbers of at most 5 digits: the second may be `2 ^ 16`. -/
theorem length_portRange_le (port : UInt16) : (portRange port).length ≤ 11 := by
  have hport := length_port_le port
  have hnext : (decimal (port.toNat + 1)).length ≤ inetPortStrLen :=
    length_decimal_le (lt_of_le_of_lt port.toNat_lt (by decide))
  have hmax : inetPortStrLen = 5 := rfl
  have hdash : (ascii "-").length = 1 := by decide
  simp only [portRange, length_append]
  omega

/-- A text for an address is shorter than what is reserved for it. -/
theorem length_addrToStr_lt (ntop : InetNtop) (isV6 : Bool) (ip : IpAddr) :
    (addrToStr ntop isV6 ip).length < if isV6 then inet6AddrStrLen + 2 else inetAddrStrLen := by
  cases isV6 with
  | true =>
    have hv6 := ntop.v6_lt ip.groups
    have hopen : (ascii "[").length = 1 := by decide
    have hclose : (ascii "]").length = 1 := by decide
    simp only [addrToStr, ipv6ToStr, if_true, length_append]
    omega
  | false => exact ntop.v4_lt ip.v4

/-- The programs of the plug-ins. -/
inductive PluginCmd (o : ParserOption) (node : FlowNode) : CMiniVMCmd → Prop
  | http : PluginCmd o node (httpProgram o node)
  | rtspIp (start : Nat) : PluginCmd o node (rtspReplaceIp o node start)
  | rtspPortIp (port : UInt16) : PluginCmd o node (rtspReplacePortIp o node port)
  | rtspPorts (port : UInt16) : PluginCmd o node (rtspReplacePorts o node port)
  | sipInvite (rtp : CPluginRtsp) (ip : IpAddr) :
      PluginCmd o node (sipReplace o node rtp ip 208 377 409 9 435)
  | sipAnswer (rtp : CPluginRtsp) (ip : IpAddr) :
      PluginCmd o node (sipReplace o node rtp ip 207 370 401 8 426)
  | dyn (dyn : CFlowYamlDpPkt) : PluginCmd o node (.dynPyload
      { isV6 := false, start0 := 0, stop1 := 0, addPktLen := inetAddrStrLen - 8, dyn,
        ip := node.srcIp })

theorem Plugin.program?_cmd {plugin : Plugin} {flowId pktNum : Nat}
    (h : plugin.program? o node flowId pktNum = some cmd) : PluginCmd o node cmd := by
  unfold Plugin.program? at h
  split at h
  · cases h
  split at h
  · split at h
    · cases h
      exact .http
    · cases h
  · unfold rtspProgram at h
    split at h <;> cases h <;> constructor
  · unfold sipProgram at h
    split at h <;> cases h <;> constructor
  · split at h
    · cases h
    · unfold dynProgram at h
      split at h
      · obtain ⟨dyn, -, rfl⟩ := Option.map_eq_some_iff.mp h
        exact .dyn dyn
      · cases h

theorem PluginCmd.spaced (h : PluginCmd o node cmd) :
    cmd.Spaced := by
  cases h with
  | sipInvite rtp ip => exact fun _ =>
      ⟨(by decide : 208 + 9 + 5 + 2 ≤ 377), (by decide : 377 + 9 + 2 ≤ 409)⟩
  | sipAnswer rtp ip => exact fun _ =>
      ⟨(by decide : 207 + 9 + 5 + 2 ≤ 370), (by decide : 370 + 8 + 2 ≤ 401)⟩
  | _ => trivial

theorem growth_markEdit {start : Nat} (h : 2 ≤ start) (marked isV6 : Bool) :
    growth (markEdit marked isV6 start) = 0 := by
  unfold markEdit
  split
  · simp only [growth_cons, growth_nil, Edit.growth, length_singleton]
    omega
  · rfl

/-- The two addresses of SIP have 8 or 9 characters in the template. -/
theorem growth_sipReplace (o : ParserOption) (node : FlowNode) (rtp : CPluginRtsp) (ip : IpAddr)
    {via ip0Start ip1Start size portStart : Nat} (h0 : 2 ≤ ip0Start) (h1 : 2 ≤ ip1Start)
    (hsize : 8 ≤ size) (ntop : InetNtop) (rand : Nat → UInt32) (marked : Bool) (len : Nat) :
    growth ((sipReplace o node rtp ip via ip0Start ip1Start size portStart).edits ntop rand marked
      len) ≤ (sipReplace o node rtp ip via ip0Start ip1Start size portStart).addPktLen := by
  have hvia := length_addrToStr_lt ntop o.ipv6Enable ⟨o.srcIpv6, node.srcIp⟩
  have hip := length_addrToStr_lt ntop o.ipv6Enable ip
  have hportVia := length_port_le node.srcPort
  have hport := length_port_le rtp.rtpClient0
  have hcolon : (ascii ":").length = 1 := by decide
  have h₁ : inetAddrStrLen = 16 := rfl
  have h2 : inet6AddrStrLen = 46 := rfl
  have h3 : inetPortStrLen = 5 := rfl
  simp only [sipReplace, CMiniVMCmd.edits, CMiniVMCmd.addPktLen, growth_append, growth_cons,
    growth_nil, growth_markEdit h0, growth_markEdit h1, Edit.growth, length_append, addrRoom]
  generalize o.ipv6Enable = isV6 at hvia hip ⊢
  cases isV6 <;> simp only [if_true, if_false, Bool.false_eq_true] at hvia hip ⊢ <;> omega

/-- The words of `dyn_pyload` are as long as what they replace. -/
theorem growth_dynEdits (rand : Nat → UInt32) (cmd : CMiniVMDynPyload) :
    growth (dynEdits rand cmd) = 0 := by
  have hzero : ∀ e ∈ dynEdits rand cmd, e.growth = 0 := by
    intro e he
    obtain ⟨i, -, hword⟩ := mem_filterMap.mp he
    obtain ⟨word, -, rfl⟩ := Option.map_eq_some_iff.mp hword
    simp [Edit.growth]
  refine sum_eq_zero fun g hg => ?_
  obtain ⟨e, he, rfl⟩ := mem_map.mp hg
  exact hzero e he

/-- **What a plug-in reserves is enough.** -/
theorem PluginCmd.growth_le_room (h : PluginCmd o node cmd) (ntop : InetNtop)
    (rand : Nat → UInt32) (marked : Bool) (len : Nat) :
    growth (cmd.edits ntop rand marked len) ≤ cmd.addPktLen := by
  have hip := length_addrToStr_lt ntop o.ipv6Enable ⟨o.dstIpv6, node.destIp⟩
  have h₁ : inetAddrStrLen = 16 := rfl
  have h2 : inet6AddrStrLen = 46 := rfl
  have h3 : inetPortStrLen = 5 := rfl
  cases h with
  | http =>
    simp only [httpProgram, CMiniVMCmd.edits, CMiniVMCmd.addPktLen, growth_cons, growth_nil,
      Edit.growth, addrRoom]
    generalize o.ipv6Enable = isV6 at hip ⊢
    cases isV6 <;> simp only [if_true, if_false, Bool.false_eq_true] at hip ⊢ <;> omega
  | rtspIp start =>
    simp only [rtspReplaceIp, CMiniVMCmd.edits, CMiniVMCmd.addPktLen, growth_cons, growth_nil,
      Edit.growth, addrRoom]
    generalize o.ipv6Enable = isV6 at hip ⊢
    cases isV6 <;> simp only [if_true, if_false, Bool.false_eq_true] at hip ⊢ <;> omega
  | rtspPortIp port =>
    have hports := length_portRange_le port
    simp only [rtspReplacePortIp, CMiniVMCmd.edits, CMiniVMCmd.addPktLen, growth_cons, growth_nil,
      Edit.growth, addrRoom]
    generalize o.ipv6Enable = isV6 at hip ⊢
    cases isV6 <;> simp only [if_true, if_false, Bool.false_eq_true] at hip ⊢ <;> omega
  | rtspPorts port =>
    have hports := length_portRange_le port
    have hserver : (ascii ";server_port=").length = 13 := by decide
    simp only [rtspReplacePorts, CMiniVMCmd.edits, CMiniVMCmd.addPktLen, growth_cons, growth_nil,
      Edit.growth, length_append]
    omega
  | sipInvite rtp ip =>
    exact growth_sipReplace o node rtp ip (by decide) (by decide) (by decide) ntop rand marked len
  | sipAnswer rtp ip =>
    exact growth_sipReplace o node rtp ip (by decide) (by decide) (by decide) ntop rand marked len
  | dyn dyn =>
    simp only [CMiniVMCmd.edits, CMiniVMCmd.addPktLen]
    split
    · rw [growth_dynEdits]
      omega
    · exact Int.natCast_nonneg _

/-! ## 4. The headers -/

/-- Where the length of the IP packet is: `myLength`, or `myPayloadLen`. -/
def ipLenOffset (ind : CPacketIndication) : Nat := ind.ipOffset + if ind.isIpv6 then 4 else 2

theorem Placed.ipLenOffset_le (hb : Placed b) : ipLenOffset b.ind + 2 ≤ 20 := by
  rw [ipLenOffset, hb.ip]
  split <;> omega

/-- The length in the IP header. -/
def getIpLen (ind : CPacketIndication) (m : Mem) : Nat := getField16 m (ipLenOffset ind)

/-- The length in the IP header, moved. -/
def moveIpLen (ind : CPacketIndication) (updateLen : UInt16) (m : Mem) : Mem :=
  if updateLen = 0 then m else setField16 m (ipLenOffset ind) (getIpLen ind m + updateLen.toNat)

section Headers

variable {b : PktBytes} (hb : Placed b) (info : CFlowInfo) (updateLen : UInt16) (m : Mem)

variable {x : Nat}

theorem updatePorts2_outside (l4 : Nat) (h : x < l4 ∨ l4 + 4 ≤ x) :
    updatePorts2 l4 info m x = m x := by
  unfold updatePorts2 setField16
  split <;> dsimp only <;> split <;> simp (disch := omega) only [Mem.store_outside]

include hb

/-- The IP header, but for its length, is in front of the transport header. -/
theorem updateIpInfo2_outside (h : x < 24 ∨ b.ind.udpTcpOffset ≤ x) :
    updateIpInfo2 b info updateLen m x = moveIpLen b.ind updateLen m x := by
  have hl4 := hb.l4
  unfold updateIpInfo2 moveIpLen getIpLen ipLenOffset
  rw [hb.ip]
  cases hv6 : b.ind.isIpv6 with
  | true =>
    rw [hv6, if_pos rfl] at hl4
    simp only [if_true, updateLSBIpv6Dst, updateLSBIpv6Src, getPayloadLen]
    rw [Mem.store_outside _ _ (by omega), Mem.store_outside _ _ (by omega)]
  | false =>
    rw [hv6, if_neg Bool.false_ne_true] at hl4
    simp only [if_false, Bool.false_eq_true, getTotalLength]
    rw [updateCheckSum_of_ne _ (by omega), setIpv4Addr, Mem.store_outside _ _ (by omega),
      Mem.store_outside _ _ (by omega)]

theorem moveIpLen_outside (h : 20 ≤ x) : moveIpLen b.ind updateLen m x = m x := by
  unfold moveIpLen ipLenOffset setField16
  rw [hb.ip]
  split
  · rfl
  · refine Mem.store_outside _ _ (Or.inr ?_)
    split <;> omega

/-- Nothing behind the ports is written, but for the length and the checksum of UDP. -/
theorem updatePktInfo2_outside (h : b.ind.udpTcpOffset + (match b.ind.proto with
    | .tcp => 4
    | .udp => 8) ≤ x) : updatePktInfo2 b info updateLen m x = m x := by
  have hl4 := hb.le_l4
  unfold updatePktInfo2
  cases hproto : b.ind.proto with
  | tcp =>
    simp only [hproto] at h ⊢
    rw [updatePorts2_outside _ _ _ (by omega), updateIpInfo2_outside hb _ _ _ (by omega),
      moveIpLen_outside hb _ _ (by omega)]
  | udp =>
    simp only [hproto] at h ⊢
    rw [updatePorts2_outside _ _ _ (by omega), setField16, Mem.store_outside _ _ (by omega),
      setField16, Mem.store_outside _ _ (by omega), updateIpInfo2_outside hb _ _ _ (by omega),
      moveIpLen_outside hb _ _ (by omega)]

/-- **The length in the IP header** moves by what the packet grows. -/
theorem getIpLen_updatePktInfo2 : getIpLen b.ind (updatePktInfo2 b info updateLen m)
    = (getIpLen b.ind m + updateLen.toNat) % 2 ^ 16 := by
  have hl4 := hb.le_l4
  have hoff := hb.ipLenOffset_le
  have hmoved : getIpLen b.ind (updatePktInfo2 b info updateLen m) =
      getIpLen b.ind (moveIpLen b.ind updateLen m) := by
    refine getField16_congr fun x hx hx' => ?_
    unfold updatePktInfo2
    cases hproto : b.ind.proto with
    | tcp =>
      simp only
      rw [updatePorts2_outside _ _ _ (by omega), updateIpInfo2_outside hb _ _ _ (by omega)]
    | udp =>
      simp only
      rw [updatePorts2_outside _ _ _ (by omega), setField16, Mem.store_outside _ _ (by omega),
        setField16, Mem.store_outside _ _ (by omega), updateIpInfo2_outside hb _ _ _ (by omega)]
  rw [hmoved, moveIpLen]
  split
  · rename_i hzero
    have hlt : getIpLen b.ind m < 2 ^ 16 := getField16_lt m _
    rw [hzero, UInt16.toNat_zero, Nat.add_zero, Nat.mod_eq_of_lt hlt]
  · exact getField16_setField16 _ _ _

/-- **The length in the UDP header** does, too. -/
theorem getUdpLength_updatePktInfo2 (hproto : b.ind.proto = .udp) :
    getUdpLength (updatePktInfo2 b info updateLen m) b.ind.udpTcpOffset
      = (getUdpLength m b.ind.udpTcpOffset + updateLen.toNat) % 2 ^ 16 := by
  have hl4 := hb.le_l4
  have hsame : getUdpLength (updateIpInfo2 b info updateLen m) b.ind.udpTcpOffset
      = getUdpLength m b.ind.udpTcpOffset := by
    refine getField16_congr fun x hx hx' => ?_
    rw [updateIpInfo2_outside hb _ _ _ (by omega), moveIpLen_outside hb _ _ (by omega)]
  have hwritten : getUdpLength (updatePktInfo2 b info updateLen m) b.ind.udpTcpOffset
      = getField16 (setField16 (updateIpInfo2 b info updateLen m) (b.ind.udpTcpOffset + 4)
        (getUdpLength (updateIpInfo2 b info updateLen m) b.ind.udpTcpOffset + updateLen.toNat))
        (b.ind.udpTcpOffset + 4) := by
    refine getField16_congr fun x hx hx' => ?_
    unfold updatePktInfo2
    simp only [hproto]
    rw [updatePorts2_outside _ _ _ (by omega)]
    exact Mem.store_outside _ _ (by omega)
  rw [hwritten, getField16_setField16, hsame]

end Headers

/-! ## 5. The packet -/

/-- What is behind the headers of a packet. -/
def payloadOf (ind : CPacketIndication) : List UInt8 :=
  ind.packet.raw.read ind.payloadOffset (ind.packet.pktLen - ind.payloadOffset)

theorem length_payloadOf (ind : CPacketIndication) :
    (payloadOf ind).length = ind.packet.pktLen - ind.payloadOffset := Mem.length_read _ _ _

/-- The length that the commands see. -/
theorem vmPayloadLen_eq (hle : ind.payloadOffset ≤ ind.packet.pktLen)
    (hlen : ind.packet.pktLen < 2 ^ 16) : vmPayloadLen ind = (payloadOf ind).length := by
  rw [vmPayloadLen, length_payloadOf]
  omega

/-- What a command makes of the payload. -/
def rewrittenPayload (ntop : InetNtop) (rand : Nat → UInt32) (ind : CPacketIndication)
    (cmd : CMiniVMCmd) : List UInt8 :=
  splice (payloadOf ind) 0 (cmd.edits ntop rand true (payloadOf ind).length)

/-- The ranges of a command are in the payload, in order. -/
structure InPayload (ntop : InetNtop) (rand : Nat → UInt32) (ind : CPacketIndication)
    (cmd : CMiniVMCmd) : Prop where
  nonempty : ind.payloadLen ≠ 0
  headers : ind.payloadOffset ≤ ind.packet.pktLen
  ranges : EditsIn (payloadOf ind).length 0 (cmd.edits ntop rand false (payloadOf ind).length)

/-- A field of 16 bits changes by a difference. -/
def ChangesBy (diff : Int) (before after : Nat) : Prop := (after : Int) = (before + diff) % 2 ^ 16

/-- **A packet is the template with ranges of its payload replaced.**  The payload is all that is
behind the headers, less the ports if the header of TCP is shorter than they are. -/
structure Rewritten (ind : CPacketIndication) (edits : List (Edit UInt8)) (room : Nat)
    (bytes : List UInt8) (sSize : Int16) : Prop where
  payload : ∀ k, ind.udpTcpOffset + 4 ≤ ind.payloadOffset + k →
    bytes.drop (ind.payloadOffset + k) = (splice (payloadOf ind) 0 edits).drop k
  size : bytes.length = ind.payloadOffset + (splice (payloadOf ind) 0 edits).length
  room : bytes.length ≤ ind.packet.pktLen + room
  difference : sSize.toInt = bytes.length - ind.packet.pktLen
  ipLen : ChangesBy sSize.toInt (getIpLen ind ind.packet.raw) (getIpLen ind fun a => bytes.getD a 0)
  udpLength : ind.proto = .udp →
    ChangesBy sSize.toInt (getUdpLength ind.packet.raw ind.udpTcpOffset)
    (getUdpLength (fun a => bytes.getD a 0) ind.udpTcpOffset)
  tcpHeader : ind.proto = .tcp → ∀ x, ind.udpTcpOffset + 4 ≤ x → x < ind.payloadOffset →
    bytes.getD x 0 = ind.packet.raw x

theorem toInt_toInt16 (u : UInt16) :
    u.toInt16.toInt = if 2 * u.toNat < 2 ^ 16 then (u.toNat : Int) else u.toNat - 2 ^ 16 := by
  show BitVec.toInt u.toBitVec = _
  rw [BitVec.toInt_eq_toNat_cond]
  rfl

/-- What is added to a field changes it by the signed number with these bits. -/
theorem changesBy_of_eq {before after : Nat} (u : UInt16)
    (h : after = (before + u.toNat) % 2 ^ 16) :
    ChangesBy u.toInt16.toInt before after := by
  rw [ChangesBy, toInt_toInt16, h]
  split <;> omega

/-- `s_size` is the difference, of sizes that are small. -/
theorem toInt_sub {n k : Nat} (hn : n < 2 ^ 15) (hk : k < 2 ^ 15) :
    (UInt16.ofNat n - UInt16.ofNat k).toInt16.toInt = n - k := by
  rw [toInt_toInt16, UInt16.toNat_sub, UInt16.toNat_ofNat', UInt16.toNat_ofNat']
  split <;> omega

theorem trimTo_dataLen {m : DataRoom} {n len : Nat} (hn : n ≤ len) (h : m.dataLen = len) :
    (trimTo m (len - n)).dataLen = n := by
  rw [trimTo, if_neg (by omega)]
  show m.dataLen - (len - n) = n
  omega

/-- A buffer of a pool has room for one byte more than the packet. -/
theorem pktmbufAlloc_room (abi : Abi) {len : Nat} (h : len < maxBufSize) :
    ∃ size m, pktmbufAlloc len = some size
    ∧ appendTo abi size len = some m ∧ len + 1 ≤ m.bufLen ∧ m.dataLen = len := by
  obtain ⟨size, hsize, hlt, hmax⟩ : ∃ size, pktmbufAlloc len = some size ∧ len < size ∧
      size ≤ maxBufSize := by
    unfold pktmbufAlloc firstPktSize
    unfold maxBufSize at h ⊢
    split_ifs <;> exact ⟨_, rfl, by omega, by omega⟩
  have hroom : ¬ len > rtePktmbufTailroom { bufLen := size, dataOff := 0, dataLen := 0 } :=
    Nat.not_lt.mpr hlt.le
  refine ⟨size, { bufLen := size, dataOff := 0, dataLen := 0 + len }, hsize, ?_, hlt,
    Nat.zero_add _⟩
  rw [appendTo, rtePktmbufAlloc_mempoolCreate abi (lt_of_le_of_lt hmax (by decide)),
    Option.bind_some, rtePktmbufAppend, if_neg hroom]

section Packet

variable {abi : Abi} {ntop : InetNtop} {rand : Nat → UInt32} {b : PktBytes} {cmd : CMiniVMCmd}

/-- The payload grows by what the edits add. -/
theorem length_rewrittenPayload (hin : InPayload ntop rand b.ind cmd) (hspaced : cmd.Spaced) :
    ((rewrittenPayload ntop rand b.ind cmd).length : Int) = (payloadOf b.ind).length
      + growth (cmd.edits ntop rand true (payloadOf b.ind).length) := by
  rw [rewrittenPayload, length_splice (CMiniVMCmd.editsIn_marked hspaced hin.ranges), Nat.cast_zero,
    sub_zero]

/-- **The program of one command** writes the new payload behind the headers. -/
theorem miniVmRun_one (limit : Nat) (hin : InPayload ntop rand b.ind cmd) (hspaced : cmd.Spaced)
    (hlen : b.ind.packet.pktLen < 2 ^ 16)
    (hlimit : b.ind.payloadOffset + (rewrittenPayload ntop rand b.ind cmd).length + 1 ≤ limit)
    (p : Mem) :
    ∃ m, miniVmRun ntop rand b.ind limit [cmd] p = some (m, UInt16.ofNat (b.ind.payloadOffset
        + (rewrittenPayload ntop rand b.ind cmd).length))
      ∧ m.read b.ind.payloadOffset (rewrittenPayload ntop rand b.ind cmd).length
        = rewrittenPayload ntop rand b.ind cmd
      ∧ ∀ x < b.ind.payloadOffset, m x = p x := by
  have hle := hin.headers
  have hpayload := length_payloadOf b.ind
  have hvm := vmPayloadLen_eq hle hlen
  obtain ⟨hout, hfit⟩ := steps_out hspaced hin.ranges
  have hsource : b.ind.packet.raw.read b.ind.payloadOffset (payloadOf b.ind).length =
      payloadOf b.ind := by
    rw [hpayload]
    rfl
  have hwritten : outSteps (b.ind.packet.raw.read b.ind.payloadOffset (payloadOf b.ind).length)
      (cmd.steps ntop rand (payloadOf b.ind).length) [] = rewrittenPayload ntop rand b.ind cmd := by
    rw [hsource, hout]
    rfl
  rw [← hwritten] at hlimit
  obtain ⟨w, hrun, hw⟩ := runSteps_holds (Holds.init p b.ind.payloadOffset) hfit hlimit
  rw [hwritten] at hw
  -- the size is where the pointer is, or that of the template, which is the same
  have hsize : newPktSize b.ind w cmd
      = UInt16.ofNat (b.ind.payloadOffset + (rewrittenPayload ntop rand b.ind cmd).length) := by
    have hgrow := length_rewrittenPayload hin hspaced
    unfold newPktSize
    split
    · rename_i cmd
      have hzero : growth (CMiniVMCmd.edits ntop rand true (.dynPyload cmd)
          (payloadOf b.ind).length) = 0 := by
        simp only [CMiniVMCmd.edits]
        split
        · exact growth_dynEdits rand cmd
        · rfl
      rw [hzero] at hgrow
      congr 1
      omega
    · rw [hw.pos, Nat.add_sub_cancel]
  refine ⟨w.mem, ?_, hw.read, hw.before⟩
  rw [miniVmRun, foldlM_cons, miniVmStep, hvm]
  simp only
  rw [hrun, Option.map_some, hsize]
  rfl

/-- A buffer that holds the headers and the new payload, with the addresses and the lengths of the
flow. -/
theorem rewritten_of_mem (info : CFlowInfo) (hb : Placed b) {edits : List (Edit UInt8)}
    {room size : Nat} {m : Mem}
    (hsize : size = b.ind.payloadOffset + (splice (payloadOf b.ind) 0 edits).length)
    (hroom : size ≤ b.ind.packet.pktLen + room) (hsmall : b.ind.packet.pktLen + room < maxBufSize)
    (hpayload : m.read b.ind.payloadOffset (splice (payloadOf b.ind) 0 edits).length =
      splice (payloadOf b.ind) 0 edits)
    (hheaders : ∀ x < b.ind.payloadOffset, m x = b.ind.packet.raw x) :
    Rewritten b.ind edits room
      ((updatePktInfo2 b info (UInt16.ofNat size - UInt16.ofNat b.ind.packet.pktLen) m).read 0 size)
      (UInt16.ofNat size - UInt16.ofNat b.ind.packet.pktLen).toInt16 := by
  have hl4 := hb.le_l4
  have hle := hb.payload.1
  have hmax : maxBufSize = 2048 := rfl
  have hdifference : (UInt16.ofNat size - UInt16.ofNat b.ind.packet.pktLen).toInt16.toInt
      = size - b.ind.packet.pktLen := toInt_sub (by omega) (by omega)
  generalize UInt16.ofNat size - UInt16.ofNat b.ind.packet.pktLen = updateLen at hdifference ⊢
  have hbehind : ∀ x, b.ind.payloadOffset ≤ x → b.ind.udpTcpOffset + 4 ≤ x →
      updatePktInfo2 b info updateLen m x = m x := by
    intro x hx hports
    refine updatePktInfo2_outside hb _ _ _ ?_
    cases hproto : b.ind.proto with
    | tcp => exact hports
    | udp => exact (hb.udp hproto).ge.trans hx
  refine ⟨?_, ?_, ?_, ?_, ?_, ?_, ?_⟩
  · intro k hports
    rw [Mem.drop_read, Nat.zero_add, Mem.read_congr fun x hx _ => hbehind x (by omega) (by omega),
      hsize, Nat.add_sub_add_left, ← Mem.drop_read, hpayload]
  · rw [Mem.length_read]
    exact hsize
  · rw [Mem.length_read]
    exact hroom
  · rw [Mem.length_read]
    exact hdifference
  · refine changesBy_of_eq _ ?_
    have hoff := hb.ipLenOffset_le
    have hread : getIpLen b.ind (fun a =>
        ((updatePktInfo2 b info updateLen m).read 0 size).getD a 0)
        = getIpLen b.ind (updatePktInfo2 b info updateLen m) :=
      getField16_congr fun x _ hx => Mem.getD_read _ (by omega)
    have hbefore : getIpLen b.ind m = getIpLen b.ind b.ind.packet.raw :=
      getField16_congr fun x _ hx => hheaders x (by omega)
    rw [hread, getIpLen_updatePktInfo2 hb, hbefore]
  · intro hproto
    refine changesBy_of_eq _ ?_
    have hudp := hb.udp hproto
    have hread : getUdpLength (fun a => ((updatePktInfo2 b info updateLen m).read 0 size).getD a 0)
        b.ind.udpTcpOffset = getUdpLength (updatePktInfo2 b info updateLen m) b.ind.udpTcpOffset :=
      getField16_congr fun x _ hx => Mem.getD_read _ (by omega)
    have hbefore : getUdpLength m b.ind.udpTcpOffset =
        getUdpLength b.ind.packet.raw b.ind.udpTcpOffset :=
      getField16_congr fun x _ hx => hheaders x (by omega)
    rw [hread, getUdpLength_updatePktInfo2 hb _ _ _ hproto, hbefore]
  · intro hproto x hx hx'
    rw [Mem.getD_read _ (by omega), updatePktInfo2_outside hb _ _ _ (by rwa [hproto])]
    exact hheaders x hx'

/-- **A packet with a program of one command is rewritten**, if it stays smaller than the largest
buffer. -/
theorem doGenerateNewMbufExVm_rewritten (abi : Abi) (hb : Placed b)
    (hin : InPayload ntop rand b.ind cmd) (hspaced : cmd.Spaced)
    (hgrow : growth (cmd.edits ntop rand true (payloadOf b.ind).length) ≤ cmd.addPktLen)
    (hsmall : b.ind.packet.pktLen + cmd.addPktLen < maxBufSize) (info : CFlowInfo) (p : Mem) :
    ∃ bytes sSize, doGenerateNewMbufExVm abi ntop rand b info [cmd] p = some (bytes, sSize)
      ∧ Rewritten b.ind (cmd.edits ntop rand true (payloadOf b.ind).length) cmd.addPktLen bytes
          sSize := by
  have hmax : maxBufSize = 2048 := rfl
  have hle := hin.headers
  have hlength := length_rewrittenPayload hin hspaced
  have hpayloadLen := length_payloadOf b.ind
  obtain ⟨size, hsize⟩ : ∃ size,
    size = b.ind.payloadOffset + (rewrittenPayload ntop rand b.ind cmd).length := ⟨_, rfl⟩
  have hroom : size ≤ b.ind.packet.pktLen + cmd.addPktLen := by omega
  -- neither sum nor difference wraps
  have hlen : (UInt16.ofNat b.ind.packet.pktLen + UInt16.ofNat cmd.addPktLen).toNat
      = b.ind.packet.pktLen + cmd.addPktLen := by
    rw [UInt16.toNat_add, UInt16.toNat_ofNat', UInt16.toNat_ofNat']
    omega
  have hunused : (UInt16.ofNat b.ind.packet.pktLen + UInt16.ofNat cmd.addPktLen -
      UInt16.ofNat size).toNat = b.ind.packet.pktLen + cmd.addPktLen - size := by
    rw [UInt16.toNat_sub, hlen, UInt16.toNat_ofNat']
    omega
  obtain ⟨bufSize, room, halloc, happend, hlimit, hdata⟩ := pktmbufAlloc_room abi hsmall
  obtain ⟨m, hrun, hpayload, hheaders⟩ :=
    miniVmRun_one room.bufLen hin hspaced (by omega) (by omega)
    (p.putBytes 0 (b.ind.packet.raw.read 0 b.ind.payloadOffset))
  rw [← hsize] at hrun
  refine ⟨_, _, ?_, rewritten_of_mem info hb hsize hroom hsmall hpayload fun x hx => ?_⟩
  · rw [doGenerateNewMbufExVm, if_neg hin.nonempty]
    simp only [List.head?_cons, Option.bind_eq_bind, Option.bind_some, hlen]
    rw [halloc, Option.bind_some, happend, Option.bind_some, hrun, Option.bind_some, hunused]
    simp only [trimTo_dataLen hroom hdata]
  · have hcopied : (b.ind.packet.raw.read 0 b.ind.payloadOffset)[x]? =
        some (b.ind.packet.raw x) := by
      simp [Mem.read, hx]
    rw [hheaders x hx, ← Mem.putBytes_inside p (a := 0) hcopied, Nat.zero_add]

end Packet

/-! ## 6. The programs of the plug-ins -/

/-- What the plug-ins ask for. -/
theorem PluginCmd.addPktLen_le (h : PluginCmd o node cmd) :
    cmd.addPktLen ≤ if o.ipv6Enable then 118 else 22 := by
  cases hv6 : o.ipv6Enable <;> cases h <;>
    simp [httpProgram, rtspReplaceIp, rtspReplacePortIp, rtspReplacePorts, sipReplace,
      CMiniVMCmd.addPktLen, addrRoom, hv6, inetAddrStrLen, inet6AddrStrLen, inetPortStrLen]

/-- **A packet that may become too large is not made**: `assert(size<MAX_BUF_SIZE)`. -/
theorem doGenerateNewMbufExVm_none (abi : Abi) (ntop : InetNtop) (rand : Nat → UInt32)
    (hpayload : b.ind.payloadLen ≠ 0) (hlarge : maxBufSize ≤ b.ind.packet.pktLen + cmd.addPktLen)
    (hlen : b.ind.packet.pktLen + cmd.addPktLen < 2 ^ 16) (info : CFlowInfo) (p : Mem) :
    doGenerateNewMbufExVm abi ntop rand b info [cmd] p = none := by
  have hsum : (UInt16.ofNat b.ind.packet.pktLen + UInt16.ofNat cmd.addPktLen).toNat
      = b.ind.packet.pktLen + cmd.addPktLen := by
    rw [UInt16.toNat_add, UInt16.toNat_ofNat', UInt16.toNat_ofNat']
    omega
  have halloc : pktmbufAlloc (b.ind.packet.pktLen + cmd.addPktLen) = none := by
    unfold pktmbufAlloc firstPktSize
    unfold maxBufSize at hlarge ⊢
    split_ifs <;> first | omega | rfl
  rw [doGenerateNewMbufExVm, if_neg hpayload]
  simp only [List.head?_cons, Option.bind_eq_bind, Option.bind_some, hsum]
  rw [halloc, Option.bind_none]

/-- A packet is made, and it is the template with the ranges of the command replaced; with `marked`,
also the bytes in front of the IPv6 addresses. -/
def RewritesPayload (abi : Abi) (ntop : InetNtop) (rand : Nat → UInt32) (marked : Bool)
    (b : PktBytes) (info : CFlowInfo) (cmd : CMiniVMCmd) (p : Mem) : Prop :=
  ∃ bytes sSize, doGenerateNewMbufExVm abi ntop rand b info [cmd] p = some (bytes, sSize)
    ∧ Rewritten b.ind (cmd.edits ntop rand marked (payloadOf b.ind).length) cmd.addPktLen bytes
      sSize

/-- A packet of a template, by its command. -/
theorem rewritesPayload_of_loaded (abi : Abi) (ntop : InetNtop) (rand : Nat → UInt32) {i : Nat}
    (hload : loadPacket abi o i desc pkt = some b) (hcmd : PluginCmd o node cmd)
    (hin : InPayload ntop rand b.ind cmd) (info : CFlowInfo) (p : Mem) :
    (b.ind.packet.pktLen + cmd.addPktLen < maxBufSize →
      RewritesPayload abi ntop rand true b info cmd p)
      ∧ (maxBufSize ≤ b.ind.packet.pktLen + cmd.addPktLen →
        o.ipv6Enable = true ∧ doGenerateNewMbufExVm abi ntop rand b info [cmd] p = none) := by
  obtain ⟨hb, hv6⟩ := loadPacket_placed hload
  have hadd := hcmd.addPktLen_le
  have hsize := hb.size
  have hmax : maxBufSize = 2048 := rfl
  have hopt : noOptionLen = 8 := rfl
  have hfirst : firstPktSize = 64 := rfl
  refine ⟨fun hsmall => ?_, fun hlarge => ⟨?_, ?_⟩⟩
  · exact doGenerateNewMbufExVm_rewritten abi hb hin hcmd.spaced
      (hcmd.growth_le_room ntop rand true _) hsmall info p
  · -- in IPv4 both the templates and the room are small
    by_contra hv4
    rw [Bool.not_eq_true] at hv4
    have hsmall := hb.small (hv6.trans hv4)
    rw [hv4, if_neg Bool.false_ne_true] at hadd
    omega
  · refine doGenerateNewMbufExVm_none abi ntop rand hin.nonempty hlarge ?_ info p
    split at hadd <;> omega

/-- **The payload is rewritten**: for every packet of a template, every program of a plug-in whose
ranges are in the payload, and all addresses and ports, the packet that is made is the template with
the ranges replaced, of the size that this has, and the lengths of its headers have changed by the
difference.  Only a packet of IPv6 that might become too large for the largest buffer is not
made. -/
theorem payload_rewritten (abi : Abi) (ntop : InetNtop) (rand : Nat → UInt32) (o : ParserOption)
    (i : Nat) (desc : CPacketDescriptor) (pkt : CCapPktRaw) (b : PktBytes)
    (hload : loadPacket abi o i desc pkt = some b) (plugin : Plugin) (node : FlowNode)
    (flowId pktNum : Nat) (cmd : CMiniVMCmd)
    (hcmd : plugin.program? o node flowId pktNum = some cmd) (hin : InPayload ntop rand b.ind cmd)
    (info : CFlowInfo) (p : Mem) :
    (b.ind.packet.pktLen + cmd.addPktLen < maxBufSize →
      RewritesPayload abi ntop rand true b info cmd p)
      ∧ (maxBufSize ≤ b.ind.packet.pktLen + cmd.addPktLen →
        o.ipv6Enable = true ∧ doGenerateNewMbufExVm abi ntop rand b info [cmd] p = none) :=
  rewritesPayload_of_loaded abi ntop rand hload (Plugin.program?_cmd hcmd) hin info p

instance (ntop : InetNtop) (rand : Nat → UInt32) (ind : CPacketIndication) (cmd : CMiniVMCmd) :
    Decidable (InPayload ntop rand ind cmd) :=
  decidable_of_iff (ind.payloadLen ≠ 0 ∧ ind.payloadOffset ≤ ind.packet.pktLen ∧
      EditsIn (payloadOf ind).length 0 (cmd.edits ntop rand false (payloadOf ind).length))
    ⟨fun h => ⟨h.1, h.2.1, h.2.2⟩, fun h => ⟨h.nonempty, h.headers, h.ranges⟩⟩

theorem length_byte_le (n : Nat) : (decimal (n % 256)).length ≤ 3 := by
  rw [decimal, length_map]
  exact (Nat.length_toDigits_le_iff (by decide) (by decide)).mpr
    ((Nat.mod_lt n (by decide)).trans (by decide))

/-- A group of an IPv6 address, with the colon in front of it. -/
def groupText (groups : Fin 8 → UInt16) (i : Fin 8) : List UInt8 :=
  (if i = 0 then [] else ascii ":") ++ (Nat.toDigits 16 (groups i).toNat).map fun c =>
    UInt8.ofNat c.toNat

theorem length_groupText_le (groups : Fin 8 → UInt16) (i : Fin 8) :
    (groupText groups i).length ≤ 5 := by
  have hdigits : (Nat.toDigits 16 (groups i).toNat).length ≤ 4 :=
    (Nat.length_toDigits_le_iff (by decide) (by decide)).mpr
      ((groups i).toNat_lt.trans_le (by decide))
  have hcolon : (ascii ":").length = 1 := by decide
  simp only [groupText, length_append, length_map]
  split
  · exact (Nat.zero_add _).trans_le (hdigits.trans (by decide))
  · omega

/-- `inet_ntop`, of IPv6 addresses without a group that is 0. -/
def exampleNtop : InetNtop where
  v4 ip := decimal (ip.toNat / 2 ^ 24 % 256) ++ ascii "." ++ decimal (ip.toNat / 2 ^ 16 % 256) ++
    ascii "." ++ decimal (ip.toNat / 2 ^ 8 % 256) ++ ascii "." ++ decimal (ip.toNat % 256)
  v6 groups := (List.ofFn (groupText groups)).flatten
  v4_lt ip := by
    have hdot : (ascii ".").length = 1 := by decide
    have h3 := length_byte_le (ip.toNat / 2 ^ 24)
    have h2 := length_byte_le (ip.toNat / 2 ^ 16)
    have h₁ := length_byte_le (ip.toNat / 2 ^ 8)
    have h₀ := length_byte_le ip.toNat
    simp only [length_append, hdot, inetAddrStrLen]
    omega
  v6_lt groups := by
    have hsum : ((List.ofFn (groupText groups)).flatten).length ≤ 8 * 5 := by
      rw [length_flatten]
      refine (sum_le_card_nsmul _ 5 ?_).trans (by simp)
      intro n hn
      obtain ⟨text, htext, rfl⟩ := mem_map.mp hn
      obtain ⟨i, rfl⟩ := mem_ofFn.mp htext
      exact length_groupText_le groups i
    exact lt_of_le_of_lt hsum (by decide)

/-- A packet of UDP with `size` bytes of payload. -/
def exampleDatagram (size : Nat) : CCapPktRaw where
  raw := fun a => if 42 ≤ a then 0x34 else ([0, 0, 0, 1, 0, 0, 0, 0, 0, 2, 0, 0, 0x08, 0x00,
    0x45, 0, UInt8.ofNat ((size + 28) / 256), UInt8.ofNat (size + 28), 0, 0, 0, 0, 64, 17, 0, 0,
    16, 0, 0, 1, 48, 0, 0, 1,
    4, 1, 0, 53, UInt8.ofNat ((size + 8) / 256), UInt8.ofNat (size + 8), 0xAB,
      0xCD] : List UInt8).getD a 0
  pktLen := size + 42

/-- SIP in IPv6 mode. -/
def exampleSip : ParserOption :=
    { exampleParser true with srcIpv6 := fun _ => 0x2001, dstIpv6 := fun _ => 0x2001 }

/-- The example, loaded with the given options, has a command that passes `test`. -/
def exampleRewrite (o : ParserOption) (plugin : Plugin) (pktNum : Nat)
    (test : PktBytes → CMiniVMCmd → Bool) : Bool :=
  (loadPacket ⟨16, 64⟩ o 0 exampleMarked (exampleDatagram 440)).any fun b =>
    (plugin.program? o exampleNode 0 pktNum).any fun cmd =>
      decide (InPayload exampleNtop (fun _ => 0) b.ind cmd) && test b cmd

theorem exampleRewrite_loaded {plugin : Plugin} {pktNum : Nat}
    {test : PktBytes → CMiniVMCmd → Bool} (h : exampleRewrite o plugin pktNum test = true) :
    ∃ b, loadPacket ⟨16, 64⟩ o 0 exampleMarked (exampleDatagram 440) = some b ∧
      ∃ cmd, plugin.program? o exampleNode 0 pktNum = some cmd ∧
        InPayload exampleNtop (fun _ => 0) b.ind cmd ∧ test b cmd = true := by
  obtain ⟨b, hb, h⟩ := (Option.any_eq_true _ _).mp h
  obtain ⟨cmd, hcmd, h⟩ := (Option.any_eq_true _ _).mp h
  rw [Bool.and_eq_true, decide_eq_true_eq] at h
  exact ⟨b, hb, cmd, hcmd, h.1, h.2⟩

/-- The address in the third packet of HTTP. -/
theorem payload_rewritten_http : ∃ b cmd,
    loadPacket ⟨16, 64⟩ (exampleParser false) 0 exampleMarked (exampleDatagram 440) = some b ∧
    RewritesPayload ⟨16, 64⟩ exampleNtop (fun _ => 0) true b (controlInfo b exampleNode (some cmd))
        cmd (fun _ => 0) := by
  have h : exampleRewrite (exampleParser false) .http 3
      (fun b cmd => decide (b.ind.packet.pktLen + cmd.addPktLen < maxBufSize)) = true := by
        decide +kernel
  obtain ⟨b, hb, cmd, hcmd, hin, hsmall⟩ := exampleRewrite_loaded h
  exact ⟨b, cmd, hb, (payload_rewritten _ exampleNtop (fun _ =>
    0) _ 0 _ _ b hb .http exampleNode 0 3 cmd hcmd hin
    (controlInfo b exampleNode (some cmd)) (fun _ => 0)).1 (of_decide_eq_true hsmall)⟩

/-- **In IPv6 SIP changes more than the ranges**: the `4` of `IP4`, two bytes in front of each
address. -/
theorem payload_marked : ¬ ∀ (abi : Abi) (ntop : InetNtop) (rand : Nat →
    UInt32) (o : ParserOption) (i : Nat)
    (desc : CPacketDescriptor) (pkt : CCapPktRaw) (b : PktBytes), loadPacket abi o i desc pkt =
      some b →
    ∀ (plugin : Plugin) (node : FlowNode) (flowId pktNum : Nat) (cmd : CMiniVMCmd),
    plugin.program? o node flowId pktNum = some cmd → InPayload ntop rand b.ind cmd →
    ∀ (info : CFlowInfo) (p : Mem), RewritesPayload abi ntop rand false b info cmd p := by
  intro hexact
  have h : exampleRewrite exampleSip (.sipVoice ⟨5061, 5062⟩) 0 (fun b cmd =>
      decide (b.ind.packet.pktLen + cmd.addPktLen < maxBufSize) &&
      (decide (b.ind.udpTcpOffset + 4 ≤ b.ind.payloadOffset) &&
      decide ((splice (payloadOf b.ind) 0 (cmd.edits exampleNtop (fun _ =>
        0) true (payloadOf b.ind).length))[404]?
        ≠ (splice (payloadOf b.ind) 0 (cmd.edits exampleNtop (fun _ =>
          0) false (payloadOf b.ind).length))[404]?))) =
      true := by
    decide +kernel
  obtain ⟨b, hb, cmd, hcmd, hin, htest⟩ := exampleRewrite_loaded h
  simp only [Bool.and_eq_true, decide_eq_true_eq] at htest
  obtain ⟨hsmall, hports, hne⟩ := htest
  obtain ⟨bytes, sSize, hrun, hunmarked⟩ :=
    hexact _ exampleNtop (fun _ => 0) _ 0 _ _ b hb _ exampleNode 0 0 cmd hcmd hin
      (controlInfo b exampleNode none) (fun _ => 0)
  obtain ⟨bytes', sSize', hrun', hmarked⟩ :=
    (rewritesPayload_of_loaded _ exampleNtop (fun _ => 0) hb
    (Plugin.program?_cmd hcmd) hin (controlInfo b exampleNode none) (fun _ => 0)).1 hsmall
  rw [hrun] at hrun'
  cases hrun'
  -- the same packet would have both payloads
  have hsame := (hmarked.payload 0 hports).symm.trans (hunmarked.payload 0 hports)
  exact hne (congrArg (·[404]?) hsame)

end Trex.Flow
