/-
# The reads of a received frame

`CSimplePacketParser::Parse` (`bp_sim.cpp`) and `CCPortLatency::check_packet` (`latency.cpp`) on the
bytes of a frame.  Where a header is, and how long it is, is told by the frame itself; nothing
compares that with the number of bytes that arrived.

* A read outside of the frame stops with `ReadFault.outside`, one through a header that was not
  found with `ReadFault.nullHeader`.  Addresses are offsets from the start of the frame.
* The values that are read are used as in `Trex.Lat.Port`.  The histogram and the jitter are left
  out.
* `rx_p` is handed to the caller, which reads a `CRx_check_header` there.
* The option walk is a recursion on `opt_len`, which each turn makes smaller: there is no frame on
  which it goes on for ever.
* `receive_iff` says for which frames all reads are inside.
-/
import Trex.Lat.Port
import Trex.Flow.NatLearn

namespace Trex.Lat.Receive

open Trex.Lib
open Trex.Rx (rxCheckLen)
open Trex.Flow (noOptionLen CNatFlowInfo)
open CCPortLatency (rxCheckV4OptType rxCheckV6OptType natOptionType isValidIpv4Magic checkSeq)

/-! ## 1. Reading bytes -/

/-- What the code must not do. -/
inductive ReadFault
  | outside (offset : Nat)
  | nullHeader
deriving DecidableEq, Repr

/-- The byte at `a`. -/
def byteOf (m : List UInt8) (a : Nat) : UInt8 := m.getD a 0

/-- The `n` bytes from `a` on. -/
def field (m : List UInt8) (a n : Nat) : List UInt8 := (m.drop a).take n

/-- A field in network order. -/
def be (bytes : List UInt8) : Nat := bytes.foldl (fun v b => v * 256 + b.toNat) 0

/-- A field in the order of the host. -/
def le (bytes : List UInt8) : Nat := bytes.foldr (fun b v => b.toNat + v * 256) 0

/-- The code reads a byte. -/
def readByte (m : List UInt8) (a : Nat) : Except ReadFault UInt8 :=
  if a < m.length then .ok (byteOf m a) else .error (.outside a)

/-- The code reads a field. -/
def readField (m : List UInt8) (a n : Nat) : Except ReadFault (List UInt8) :=
  if a + n ≤ m.length then .ok (field m a n) else .error (.outside a)

/-- The code uses a header. -/
def header : Option Nat → Except ReadFault Nat
  | none => .error .nullHeader
  | some a => .ok a

/-! ## 2. The parser -/

/-- `CSimplePacketParser`, after `Parse`. -/
structure CSimplePacketParser where
  ipv4 : Option Nat := none
  ipv6 : Option Nat := none
  protocol : UInt8 := 0
  vlanOffset : Nat := 0
  optionOffset : Nat := 0
  l4 : Option Nat := none
deriving DecidableEq, Repr

/-- `EthernetHeader::Protocol` -/
def etherIp : Nat := 0x0800
def etherIpv6 : Nat := 0x86DD
def etherVlan : Nat := 0x8100

/-- `IPHeader::getHeaderLength`, of the first byte of the header. -/
def getHeaderLength (verHeaderLength : UInt8) : Nat := verHeaderLength.toNat % 16 * 4

/-- The branches of `Parse` for IPv4. -/
def parseIpv4 (m : List UInt8) (vlanOffset : Nat) : Except ReadFault CSimplePacketParser := do
  let ip := 14 + vlanOffset
  let ver ← readByte m ip
  let protocol ← readByte m (ip + 9)
  .ok { ipv4 := some ip, protocol, vlanOffset, optionOffset := ip + 20,
        l4 := some (ip + getHeaderLength ver) }

/-- The branches of `Parse` for IPv6. -/
def parseIpv6 (m : List UInt8) (vlanOffset : Nat) : Except ReadFault CSimplePacketParser := do
  let ip := 14 + vlanOffset
  let protocol ← readByte m (ip + 6)
  .ok { ipv6 := some ip, protocol, vlanOffset, optionOffset := ip + 40, l4 := some (ip + 40) }

/-- `Parse`, which returns whether `protocol` is not 0. -/
def parse (m : List UInt8) : Except ReadFault CSimplePacketParser := do
  let next ← readField m 12 2
  if be next = etherIp then parseIpv4 m 0
  else if be next = etherIpv6 then parseIpv6 m 0
  else if be next = etherVlan then do
    let inner ← readField m 16 2
    if be inner = etherIp then parseIpv4 m 4
    else if be inner = etherIpv6 then parseIpv6 m 4
    else .ok { vlanOffset := 4 }
  else .ok {}

namespace CSimplePacketParser

/-- `getPktSize` -/
def getPktSize (m : List UInt8) (parser : CSimplePacketParser) : Except ReadFault Nat := do
  let ipLen ← match parser.ipv4 with
    | none => .ok 0
    | some ip => do
      let len ← readField m (ip + 2) 2
      .ok (be len)
  let ipLen ← match parser.ipv6 with
    | none => .ok ipLen
    | some ip => do
      let len ← readField m (ip + 4) 2
      .ok ((40 + be len) % 65536)
  .ok ((ipLen + parser.vlanOffset + 14) % 65536)

end CSimplePacketParser

/-- The magic number of a `latency_header`. -/
def isLatencyMagic (bytes : List UInt8) :
    Bool := UInt32.ofNat (le bytes) &&& 0xffffff00 == latencyMagic

/-- `CLatencyPktMode::IsLatencyPkt` -/
def isLatencyMode (mode : CLatencyPktMode) (m : List UInt8) (ipv4 : Option Nat) :
    Except ReadFault Bool :=
  match ipv4 with
  | none => .ok false
  | some ip => do
    let protocol ← readByte m (ip + 9)
    .ok (protocol == mode.getProtocol)

/-- `is_lateancy_pkt`: the two tests are combined with `&`, so both are made.  The L4 header is
taken to be of 8 bytes, the magic number is behind the time stamp. -/
def isLatencyPkt (mode : CLatencyPktMode) (m : List UInt8) (parser : CSimplePacketParser) :
    Except ReadFault Bool := do
  let ofMode ← isLatencyMode mode m parser.ipv4
  let l4 ← header parser.l4
  let magic ← readField m (l4 + 8 + 8) 4
  .ok (ofMode && isLatencyMagic magic)

/-! ## 3. `check_packet` -/

/-- What the NAT manager gets from an option: nothing for a thread that there is not, and for other
protocols than TCP and UDP. -/
inductive NatGiven
  | noThread
  | noProto
  | learned (threadId : UInt8) (info : CNatFlowInfo)
deriving DecidableEq, Repr

/-- `CNatRxManager::handle_packet_ipv4`, up to the message. -/
def handlePacketIpv4 (maxThreads : UInt8) (m : List UInt8) (option ipv4 : Nat) :
    Except ReadFault NatGiven := do
  let threadId ← readByte m (option + 3)
  if ¬ threadId < maxThreads then .ok .noThread
  else do
    let extIp ← readField m (ipv4 + 12) 4
    let extIpServer ← readField m (ipv4 + 16) 4
    let proto ← readByte m (ipv4 + 9)
    if ¬ (proto = 6 ∨ proto = 17) then .ok .noProto
    else do
      let ver ← readByte m ipv4
      let extPort ← readField m (ipv4 + getHeaderLength ver) 2
      let fid ← readField m (option + 4) 4
      .ok (.learned threadId
        { externalIp := UInt32.ofNat (be extIp), externalIpServer := UInt32.ofNat (be extIpServer),
          fid := UInt32.ofNat (le fid), externalPort := UInt16.ofNat (be extPort) })

/-- What `check_packet` does: the port behind it, what it returns, `rx_p`, and what the NAT manager
gets. -/
structure Received where
  port : CCPortLatency
  result : Bool
  rxp : Option Nat
  nat : List NatGiven

/-- `m_seq_error++; return (false);` -/
def Received.seqError (c : Received) : Received :=
  { c with port := { c.port with seqError := c.port.seqError + 1 }, result := false }

/-- The loop over the options of an IPv4 header: `optPtr` and `optLen`. -/
def checkOptions (o : LatencyOptions) (maxThreads : UInt8) (m : List UInt8) (ipv4 : Nat)
    (c : Received) (optPtr optLen : Nat) : Except ReadFault Received :=
  if optLen = 0 then .ok { c with result := true }
  else do
    let type ← readByte m optPtr
    if type = rxCheckV4OptType then
      if !o.rxCheckMode ∨ optLen < rxCheckLen then .ok c.seqError
      else
        checkOptions o maxThreads m ipv4
          { c with port := { c.port with rxCheck := c.port.rxCheck + 1 }, rxp := some optPtr }
          (optPtr + rxCheckLen) (optLen - rxCheckLen)
    else if type = natOptionType then
      if !o.learnMode ∨ optLen < noOptionLen then .ok c.seqError
      else do
        let magic ← readField m optPtr 4
        if !isValidIpv4Magic magic then
          .ok { c with port := { c.port with noIpv4Option := c.port.noIpv4Option + 1 },
                       result := false }
        else do
          let given ← handlePacketIpv4 maxThreads m optPtr ipv4
          checkOptions o maxThreads m ipv4 { c with nat := c.nat ++ [given] }
            (optPtr + noOptionLen) (optLen - noOptionLen)
    else .ok c.seqError
termination_by optLen
decreasing_by
  all_goals
    simp only [rxCheckLen, noOptionLen] at *
    omega

/-- The branch of `check_packet` for packets that are not latency packets. -/
def checkOther (o : LatencyOptions) (maxThreads : UInt8) (m : List UInt8)
    (parser : CSimplePacketParser) (p : CCPortLatency) : Except ReadFault Received :=
  match parser.ipv6 with
  | some ip =>
    if parser.protocol = rxCheckV6OptType ∧ o.rxCheckMode then
      .ok ⟨{ p with rxCheck := p.rxCheck + 1 }, true, some (ip + 40), []⟩
    else .ok (Received.seqError ⟨p, false, none, []⟩)
  | none => do
    let ip ← header parser.ipv4
    let ver ← readByte m ip
    -- `getOptionLen` is a byte
    checkOptions o maxThreads m ip ⟨p, true, none, []⟩ (ip + 20) ((getHeaderLength ver + 256 - 20) %
      256)

/-- `m_l4_offset` and `m_payload_offset`, which `CLatencyPktInfo::Create` sets. -/
def l4Offset : Nat := 34
def payloadOffset : Nat := 42

/-- `update_recv`: the two numbers behind it. -/
def updateRecv (mode : CLatencyPktMode) (m : List UInt8) (pkt : Nat) (rSeq tSeq : UInt16) :
    Except ReadFault (UInt16 × UInt16) :=
  match mode with
  | .sctp _ => .ok (rSeq, tSeq)
  | .icmp _ => do
    let seq ← readField m (pkt + 6) 2
    let seqNum := UInt16.ofNat (be seq)
    .ok (seqNum, if seqNum = 0 then 0 else tSeq)

/-- `do_learn`, if it is still to be done. -/
def learnSource (o : LatencyOptions) (m : List UInt8) (parser : CSimplePacketParser)
    (p : CCPortLatency) :
    Except ReadFault CCPortLatency :=
  if o.learnMode && !p.natLearn then do
    let ip ← header parser.ipv4
    let sourceIp ← readField m (ip + 12) 4
    .ok (p.doLearn (UInt32.ofNat (be sourceIp)))
  else .ok p

/-- The number in the latency header.  The time stamp is read for the histogram, if the number is
the one that is expected. -/
def readSeq (m : List UInt8) (h : Nat) (rxSeq : UInt32) : Except ReadFault UInt32 := do
  let bytes ← readField m (h + 12) 4
  let seq := UInt32.ofNat (le bytes)
  if seq = rxSeq then do
    let _ ← readField m h 8
    .ok seq
  else .ok seq

/-- The rest of `check_packet`, for a latency packet. -/
def checkLatency (o : LatencyOptions) (mode : CLatencyPktMode) (m : List UInt8)
    (parser : CSimplePacketParser) (pktSize : Nat) (p : CCPortLatency) :
    Except ReadFault Received := do
  let p ← learnSource o m parser p
  if pktSize ≠ p.pktSize + parser.vlanOffset then
    .ok ⟨{ p with lengthError := p.lengthError + 1 }, false, none, []⟩
  else do
    let r ← updateRecv mode m (l4Offset + parser.vlanOffset) p.icmpRxSeq p.icmpTxSeq
    let seq ← readSeq m (payloadOffset + parser.vlanOffset) p.rxSeq
    let checked := checkSeq seq { p with icmpRxSeq := r.1, icmpTxSeq := r.2 }
    .ok ⟨checked.1, checked.2, none, []⟩

/-- `check_packet` -/
def checkPacket (o : LatencyOptions) (mode : CLatencyPktMode) (maxThreads : UInt8) (m : List UInt8)
    (p : CCPortLatency) : Except ReadFault Received := do
  let parser ← parse m
  if parser.protocol = 0 then .ok ⟨{ p with unsupProt := p.unsupProt + 1 }, false, none, []⟩
  else do
    let pktLen := m.length % 65536
    let size ← parser.getPktSize m
    -- the CRC is there when the driver did not take it away
    let pktSize := if size + 4 = pktLen then pktLen - 4 else pktLen
    let isLatency ← isLatencyPkt mode m parser
    if !isLatency then checkOther o maxThreads m parser p
      else checkLatency o mode m parser pktSize p

/-! ## 4. What is to hold -/

section Purpose

variable (o : LatencyOptions) (mode : CLatencyPktMode) (maxThreads : UInt8) (m : List UInt8)

/-- All reads are inside of the frame, and so is the RX check header that is handed over. -/
def StaysInside (p : CCPortLatency) : Prop :=
  ∃ c, checkPacket o mode maxThreads m p = .ok c ∧ ∀ a, c.rxp = some a → a + rxCheckLen ≤ m.length

/-- Where the frame says that it has an IPv4 header. -/
def ipv4At : Option Nat :=
  if be (field m 12 2) = etherIp then some 14
  else if be (field m 12 2) = etherVlan ∧ be (field m 16 2) = etherIp then some 18
  else none

/-- Where the frame says that it has an IPv6 header. -/
def ipv6At : Option Nat :=
  if be (field m 12 2) = etherIpv6 then some 14
  else if be (field m 12 2) = etherVlan ∧ be (field m 16 2) = etherIpv6 then some 18
  else none

/-- The length of the IPv4 header at `ip`. -/
def ipLen (ip : Nat) : Nat := getHeaderLength (byteOf m ip)

/-- The frame is a latency packet of the mode, with its IPv4 header at `ip`. -/
def LatencyAt (ip : Nat) : Prop :=
  byteOf m (ip + 9) = mode.getProtocol ∧ isLatencyMagic (field m (ip + ipLen m ip + 16) 4) = true

/-- How many bytes are used of the option at `q.1`, where `q.2` bytes of options are left. -/
def optionUse (ip : Nat) (q : Nat × Nat) : Nat :=
  if byteOf m q.1 = rxCheckV4OptType ∧ o.rxCheckMode = true ∧ rxCheckLen ≤ q.2 then rxCheckLen
  else if byteOf m q.1 = natOptionType ∧ o.learnMode = true ∧ noOptionLen ≤ q.2 then
    if isValidIpv4Magic (field m q.1 4) = true ∧ byteOf m (q.1 + 3) < maxThreads ∧
      (byteOf m (ip + 9) = 6 ∨ byteOf m (ip + 9) = 17) then noOptionLen else 4
  else 1

/-- The option behind the one at `q.1`, if the walk goes on to it. -/
def nextOption (q : Nat × Nat) : Option (Nat × Nat) :=
  if byteOf m q.1 = rxCheckV4OptType ∧ o.rxCheckMode = true ∧ rxCheckLen ≤ q.2 then
    some (q.1 + rxCheckLen, q.2 - rxCheckLen)
  else if byteOf m q.1 = natOptionType ∧ o.learnMode = true ∧ noOptionLen ≤ q.2 ∧
    isValidIpv4Magic (field m q.1 4) = true then some (q.1 + noOptionLen, q.2 - noOptionLen)
  else none

/-- The walk from `q` reaches `q'`. -/
def Reaches (q q' : Nat × Nat) :
    Prop := Relation.ReflTransGen (fun a b => nextOption o m a = some b) q q'

/-- The option at `q.1`, if one is left there, is inside of the frame, as far as it is used. -/
def OptionFits (ip : Nat) (q : Nat × Nat) :
    Prop := q.2 ≠ 0 → q.1 + optionUse o maxThreads m ip q ≤ m.length

/-- The frames on which all reads are inside. -/
structure FrameFits : Prop where
  /-- An IPv4 packet with a protocol has 20 bytes behind its header; the options of a header that
  claims less than 20 bytes, and is not that of a latency packet, are inside of the frame. -/
  ipv4 : ∀ ip, ipv4At m = some ip → byteOf m (ip + 9) ≠ 0 → ip + ipLen m ip + 20 ≤ m.length ∧
    (¬ LatencyAt mode m ip → ipLen m ip < 20 →
      ∀ q, Reaches o m (ip + 20, ipLen m ip + 236) q → OptionFits o maxThreads m ip q)
  /-- An IPv6 packet with a next header has 20 bytes behind its header, or 24 if an RX check header
  is expected there. -/
  ipv6 : ∀ ip, ipv6At m = some ip → byteOf m (ip + 6) ≠ 0 → ip + 60 ≤ m.length ∧
    (byteOf m (ip + 6) = rxCheckV6OptType → o.rxCheckMode = true → ip + 64 ≤ m.length)

end Purpose

/-! ## 5. Reads -/

variable {o : LatencyOptions} {mode : CLatencyPktMode} {maxThreads : UInt8} {m : List UInt8}

theorem readByte_eq {a : Nat} (h : a < m.length) : readByte m a = .ok (byteOf m a) := if_pos h

theorem readByte_eq_ok {a : Nat} {b : UInt8} (h : readByte m a = .ok b) :
    a < m.length ∧ byteOf m a = b := by
  unfold readByte at h
  split at h
  · rename_i hlt
    exact ⟨hlt, Except.ok.inj h⟩
  · cases h

theorem readField_eq {a n : Nat} (h : a + n ≤ m.length) :
    readField m a n = .ok (field m a n) := if_pos h

theorem readField_eq_ok {a n : Nat} {b : List UInt8} (h : readField m a n = .ok b) :
    a + n ≤ m.length ∧ field m a n = b := by
  unfold readField at h
  split at h
  · rename_i hle
    exact ⟨hle, Except.ok.inj h⟩
  · cases h

/-- The option gets to the NAT manager, when as much of it is inside as is used. -/
theorem handlePacketIpv4_iff {option ip : Nat} (hip : ip + 20 ≤ m.length)
    (hport : ip + ipLen m ip + 2 ≤ m.length) (hoption : option + 4 ≤ m.length) :
    (∃ given, handlePacketIpv4 maxThreads m option ip = .ok given) ↔
      (byteOf m (option + 3) < maxThreads → byteOf m (ip + 9) = 6 ∨ byteOf m (ip + 9) = 17 →
        option + 8 ≤ m.length) := by
  have hport' : ip + getHeaderLength (byteOf m ip) + 2 ≤ m.length := hport
  unfold handlePacketIpv4
  rw [readByte_eq (by omega), ok_bind]
  by_cases hthread : byteOf m (option + 3) < maxThreads
  · simp only [hthread, not_true_eq_false, ↓reduceIte, forall_const]
    rw [readField_eq (by omega), ok_bind, readField_eq (by omega), ok_bind, readByte_eq (by omega),
      ok_bind]
    by_cases hproto : byteOf m (ip + 9) = 6 ∨ byteOf m (ip + 9) = 17
    · simp only [hproto, not_true_eq_false, ↓reduceIte, forall_const]
      rw [readByte_eq (by omega), ok_bind, readField_eq hport', ok_bind]
      constructor
      · rintro ⟨given, h⟩
        obtain ⟨fid, hfid, -⟩ := bind_eq_ok h
        exact (readField_eq_ok hfid).1
      · intro hle
        rw [readField_eq (show option + 4 + 4 ≤ m.length from hle), ok_bind]
        exact ⟨_, rfl⟩
    · simp only [hproto, not_false_eq_true, ↓reduceIte, false_implies, iff_true]
      exact ⟨_, rfl⟩
  · simp only [hthread, not_false_eq_true, ↓reduceIte, false_implies, iff_true]
    exact ⟨_, rfl⟩

/-! ## 6. The option walk -/

variable {q : Nat × Nat} {p : CCPortLatency}

/-- What holds of all options that are reached: of the first one, and of those reached from the
next. -/
theorem forall_reaches_iff {P : Nat × Nat → Prop} :
    (∀ q', Reaches o m q q' → P q') ↔
      P q ∧ ∀ q1, nextOption o m q = some q1 → ∀ q', Reaches o m q1 q' → P q' := by
  constructor
  · intro h
    exact ⟨h q .refl, fun q1 hnext q' hq' => h q' (.head hnext hq')⟩
  · rintro ⟨hq, hrest⟩ q' hq'
    rcases Relation.ReflTransGen.cases_head hq' with rfl | ⟨q1, hnext, hq1⟩
    · exact hq
    · exact hrest q1 hnext q' hq1

/-- The RX check header that is handed over, if any, is inside. -/
def HandsInside (m : List UInt8) (c : Received) :
    Prop := ∀ a, c.rxp = some a → a + rxCheckLen ≤ m.length

/-- The walk from `q` on stays inside. -/
def WalksInside (o : LatencyOptions) (maxThreads : UInt8) (m : List UInt8) (ip : Nat) (c : Received)
    (q : Nat × Nat) : Prop :=
  ∃ c', checkOptions o maxThreads m ip c q.1 q.2 = .ok c' ∧ HandsInside m c'

/-- All options that are reached from `q` on are inside. -/
def AllFit (o : LatencyOptions) (maxThreads : UInt8) (m : List UInt8) (ip : Nat) (q : Nat × Nat) :
    Prop :=
  ∀ q', Reaches o m q q' → OptionFits o maxThreads m ip q'

variable {ip optPtr optLen : Nat} {c : Received}

theorem allFit_iff : AllFit o maxThreads m ip q ↔ OptionFits o maxThreads m ip q ∧
    ∀ q1, nextOption o m q = some q1 → AllFit o maxThreads m ip q1 := forall_reaches_iff

theorem allFit_of_stop (hnext : nextOption o m q = none) :
    AllFit o maxThreads m ip q ↔ OptionFits o maxThreads m ip q := by
  rw [allFit_iff, hnext]
  exact ⟨fun h => h.1, fun h => ⟨h, fun q1 h1 => (by cases h1)⟩⟩

theorem allFit_of_next {q1 : Nat × Nat} (hnext : nextOption o m q = some q1) :
    AllFit o maxThreads m ip q ↔ OptionFits o maxThreads m ip q ∧ AllFit o maxThreads m ip q1 := by
  rw [allFit_iff, hnext]
  constructor
  · exact fun h => ⟨h.1, h.2 q1 rfl⟩
  · rintro ⟨hq, h1⟩
    refine ⟨hq, fun q2 h2 => ?_⟩
    cases h2
    exact h1

theorem optionUse_pos (q : Nat × Nat) : 0 < optionUse o maxThreads m ip q := by
  unfold optionUse
  split
  · decide
  · split
    · split <;> decide
    · decide

/-- An option of which nothing is inside. -/
theorem walksInside_outside (hleft : optLen ≠ 0) (hout : ¬ optPtr < m.length) :
    ¬ WalksInside o maxThreads m ip c (optPtr, optLen) := by
  rintro ⟨c', h, -⟩
  rw [checkOptions, if_neg hleft] at h
  obtain ⟨b, hb, -⟩ := bind_eq_ok h
  exact hout (readByte_eq_ok hb).1

/-- The walk ends at an option that is there. -/
theorem walksInside_stop (c' : Received) (hc : HandsInside m c')
    (h : checkOptions o maxThreads m ip c optPtr optLen = .ok c') (hin : optPtr < m.length)
    (hnext : nextOption o m (optPtr, optLen) = none)
    (huse : optionUse o maxThreads m ip (optPtr, optLen) = 1) :
    WalksInside o maxThreads m ip c (optPtr, optLen) ↔
        AllFit o maxThreads m ip (optPtr, optLen) := by
  refine iff_of_true ⟨c', h, hc⟩ ((allFit_of_stop hnext).mpr fun _ => ?_)
  rw [huse]
  exact hin

/-- An option that is not expected, or longer than what is left, is refused. -/
theorem refuses_of_not {expected : Bool} {left length : Nat}
    (h : ¬ (expected = true ∧ length ≤ left)) :
    (!expected) = true ∨ left < length := by
  rw [Bool.not_eq_true']
  by_contra hno
  simp only [not_or, Bool.not_eq_false, Nat.not_lt] at hno
  exact h hno

/-- The turn at an RX check header. -/
theorem walksInside_rxCheck (hc : HandsInside m c) (hleft : optLen ≠ 0) (hin : optPtr < m.length)
    (htype : byteOf m optPtr = rxCheckV4OptType)
    (ih : ∀ optLen' < optLen, ∀ optPtr' c, HandsInside m c →
      (WalksInside o maxThreads m ip c (optPtr', optLen') ↔
        AllFit o maxThreads m ip (optPtr', optLen'))) :
    WalksInside o maxThreads m ip c (optPtr, optLen) ↔
        AllFit o maxThreads m ip (optPtr, optLen) := by
  have hnat : ¬ byteOf m optPtr = natOptionType := by
    rw [htype]
    decide
  by_cases hgo : o.rxCheckMode = true ∧ rxCheckLen ≤ optLen
  · have hnext : nextOption o m (optPtr, optLen) =
        some (optPtr + rxCheckLen, optLen - rxCheckLen) := by
      simp [nextOption, htype, hgo]
    have huse : optionUse o maxThreads m ip (optPtr, optLen) = rxCheckLen := by
      simp [optionUse, htype, hgo]
    have hturn : checkOptions o maxThreads m ip c optPtr optLen = checkOptions o maxThreads m ip
        { c with port := { c.port with rxCheck := c.port.rxCheck + 1 }, rxp := some optPtr }
        (optPtr + rxCheckLen) (optLen - rxCheckLen) := by
      rw [checkOptions, if_neg hleft, readByte_eq hin, ok_bind, if_pos htype,
        if_neg (by simp [hgo])]
    rw [allFit_of_next hnext]
    by_cases hall : optPtr + rxCheckLen ≤ m.length
    · have hhands : HandsInside m
          { c with port := { c.port with rxCheck := c.port.rxCheck + 1 }, rxp := some optPtr } := by
        intro a ha
        cases ha
        exact hall
      have hless : optLen - rxCheckLen < optLen := Nat.sub_lt (Nat.pos_of_ne_zero hleft) (by decide)
      have hrest := ih _ hless (optPtr + rxCheckLen) _ hhands
      unfold WalksInside at hrest ⊢
      rw [hturn, hrest]
      exact ⟨fun h => ⟨fun _ => huse ▸ hall, h⟩, fun h => h.2⟩
    · refine iff_of_false ?_ fun h => hall (huse ▸ h.1 hleft)
      rintro ⟨c', h, hhands⟩
      rw [hturn] at h
      by_cases hlast : optLen - rxCheckLen = 0
      · rw [checkOptions, if_pos hlast] at h
        cases h
        exact hall (hhands optPtr rfl)
      · exact walksInside_outside hlast (by omega) ⟨c', h, hhands⟩
  · have hrefuse := refuses_of_not hgo
    refine walksInside_stop c.seqError hc ?_ hin ?_ ?_
    · rw [checkOptions, if_neg hleft, readByte_eq hin, ok_bind, if_pos htype, if_pos hrefuse]
    · simp [nextOption, hgo, hnat]
    · simp [optionUse, hgo, hnat]

/-- The turn at a NAT option. -/
theorem walksInside_nat (hip : ip + 20 ≤ m.length) (hport : ip + ipLen m ip + 2 ≤ m.length)
    (hc : HandsInside m c) (hleft : optLen ≠ 0) (hin : optPtr < m.length)
    (htype : byteOf m optPtr = natOptionType)
    (ih : ∀ optLen' < optLen, ∀ optPtr' c, HandsInside m c →
      (WalksInside o maxThreads m ip c (optPtr', optLen') ↔
        AllFit o maxThreads m ip (optPtr', optLen'))) :
    WalksInside o maxThreads m ip c (optPtr, optLen) ↔
        AllFit o maxThreads m ip (optPtr, optLen) := by
  have hrx : ¬ byteOf m optPtr = rxCheckV4OptType := by
    rw [htype]
    decide
  by_cases hgo : o.learnMode = true ∧ noOptionLen ≤ optLen
  · have hturn : checkOptions o maxThreads m ip c optPtr optLen = (do
        let magic ← readField m optPtr 4
        if !isValidIpv4Magic magic then
          .ok { c with port := { c.port with noIpv4Option := c.port.noIpv4Option + 1 },
                       result := false }
        else do
          let given ← handlePacketIpv4 maxThreads m optPtr ip
          checkOptions o maxThreads m ip { c with nat := c.nat ++ [given] }
            (optPtr + noOptionLen) (optLen - noOptionLen)) := by
      rw [checkOptions, if_neg hleft, readByte_eq hin, ok_bind, if_neg hrx, if_pos htype,
        if_neg (by simp [hgo])]
    have huse : optionUse o maxThreads m ip (optPtr, optLen) =
        if isValidIpv4Magic (field m optPtr 4) = true ∧
        byteOf m (optPtr + 3) < maxThreads ∧ (byteOf m (ip + 9) = 6 ∨ byteOf m (ip + 9) = 17)
        then noOptionLen else 4 := by
      rw [optionUse, if_neg (fun h => hrx h.1), if_pos ⟨htype, hgo⟩]
    by_cases hmagic : optPtr + 4 ≤ m.length
    · rw [readField_eq hmagic, ok_bind] at hturn
      by_cases hvalid : isValidIpv4Magic (field m optPtr 4) = true
      · have hnext : nextOption o m (optPtr, optLen) =
            some (optPtr + noOptionLen, optLen - noOptionLen) := by
          rw [nextOption, if_neg (fun h => hrx h.1), if_pos ⟨htype, hgo.1, hgo.2, hvalid⟩]
        have hfits : OptionFits o maxThreads m ip (optPtr, optLen) ↔
            (byteOf m (optPtr + 3) < maxThreads → byteOf m (ip + 9) = 6 ∨ byteOf m (ip + 9) = 17 →
              optPtr + 8 ≤ m.length) := by
          unfold OptionFits
          rw [huse]
          constructor
          · intro h hthread hproto
            have hle := h hleft
            rw [if_pos ⟨hvalid, hthread, hproto⟩] at hle
            exact hle
          · intro h _
            split
            · rename_i hboth
              exact h hboth.2.1 hboth.2.2
            · exact hmagic
        rw [if_neg (by simp [hvalid])] at hturn
        rw [allFit_of_next hnext, hfits, ← handlePacketIpv4_iff hip hport hmagic]
        have hless : optLen - noOptionLen < optLen :=
          Nat.sub_lt (Nat.pos_of_ne_zero hleft) (by decide)
        constructor
        · rintro ⟨c', h, hhands⟩
          rw [hturn] at h
          obtain ⟨given, hgiven, h⟩ := bind_eq_ok h
          exact ⟨⟨given, hgiven⟩, (ih _ hless _ { c with nat := c.nat ++ [given] } hc).mp ⟨c', h,
            hhands⟩⟩
        · rintro ⟨⟨given, hgiven⟩, hall⟩
          obtain ⟨c', h, hhands⟩ := (ih _ hless _ { c with nat := c.nat ++ [given] } hc).mpr hall
          refine ⟨c', ?_, hhands⟩
          rw [hturn, hgiven, ok_bind]
          exact h
      · have hnext : nextOption o m (optPtr, optLen) = none := by
          rw [nextOption, if_neg (fun h => hrx h.1), if_neg (fun h => hvalid h.2.2.2)]
        rw [if_neg (fun h => hvalid h.1)] at huse
        rw [if_pos (by simp [hvalid])] at hturn
        exact iff_of_true ⟨_, hturn, hc⟩ ((allFit_of_stop hnext).mpr fun _ => huse ▸ hmagic)
    · refine iff_of_false ?_ ?_
      · rintro ⟨c', h, -⟩
        rw [hturn] at h
        obtain ⟨magic, hread, -⟩ := bind_eq_ok h
        exact hmagic (readField_eq_ok hread).1
      · intro hall
        have hfits := (allFit_iff.mp hall).1 hleft
        have hfour : 4 ≤ optionUse o maxThreads m ip (optPtr, optLen) := by
          rw [huse]
          unfold noOptionLen
          split <;> omega
        exact hmagic (by omega)
  · have hrefuse := refuses_of_not hgo
    refine walksInside_stop c.seqError hc ?_ hin ?_ ?_
    · rw [checkOptions, if_neg hleft, readByte_eq hin, ok_bind, if_neg hrx, if_pos htype,
        if_pos hrefuse]
    · rw [nextOption, if_neg (fun h => hrx h.1), if_neg (fun h => hgo ⟨h.2.1, h.2.2.1⟩)]
    · rw [optionUse, if_neg (fun h => hrx h.1), if_neg (fun h => hgo h.2)]

/-- **The walk stays inside** of the frame when all options that it reaches do. -/
theorem walksInside_iff (hip : ip + 20 ≤ m.length) (hport : ip + ipLen m ip + 2 ≤ m.length)
    (optLen : Nat) :
    ∀ optPtr c, HandsInside m c →
      (WalksInside o maxThreads m ip c (optPtr, optLen) ↔
          AllFit o maxThreads m ip (optPtr, optLen)) := by
  induction optLen using Nat.strong_induction_on with
  | h optLen ih =>
    intro optPtr c hc
    by_cases hleft : optLen = 0
    · subst hleft
      have hnext : nextOption o m (optPtr, 0) = none := by
        simp [nextOption, rxCheckLen, noOptionLen]
      refine iff_of_true ⟨{ c with result := true }, ?_, hc⟩ ((allFit_of_stop hnext).mpr fun h =>
        absurd rfl h)
      rw [checkOptions, if_pos rfl]
    · by_cases hin : optPtr < m.length
      · by_cases hrx : byteOf m optPtr = rxCheckV4OptType
        · exact walksInside_rxCheck hc hleft hin hrx ih
        · by_cases hnat : byteOf m optPtr = natOptionType
          · exact walksInside_nat hip hport hc hleft hin hnat ih
          · refine walksInside_stop c.seqError hc ?_ hin ?_ ?_
            · rw [checkOptions, if_neg hleft, readByte_eq hin, ok_bind, if_neg hrx, if_neg hnat]
            · simp [nextOption, hrx, hnat]
            · simp [optionUse, hrx, hnat]
      · refine iff_of_false (walksInside_outside hleft hin) fun hall => ?_
        have hfits := (allFit_iff.mp hall).1 hleft
        have hpos : 0 < optionUse o maxThreads m ip (optPtr, optLen) := optionUse_pos _
        exact hin (by omega)

/-- The bytes that are used of an option are among those that are left. -/
theorem optionUse_le (hleft : q.2 ≠ 0) : optionUse o maxThreads m ip q ≤ q.2 := by
  unfold optionUse noOptionLen
  split
  · rename_i h
    exact h.2.2
  · split
    · rename_i h
      have hle : 8 ≤ q.2 := h.2.2
      split <;> omega
    · omega

/-- An option moves the walk on, by bytes that are left. -/
theorem nextOption_eq_some {q' : Nat × Nat} (h : nextOption o m q = some q') :
    ∃ k, 0 < k ∧ k ≤ q.2 ∧ q' = (q.1 + k, q.2 - k) := by
  unfold nextOption rxCheckLen noOptionLen at h
  split at h
  · rename_i hgo
    cases h
    exact ⟨_, by omega, hgo.2.2, rfl⟩
  · split at h
    · rename_i hgo
      cases h
      exact ⟨_, by omega, hgo.2.2.1, rfl⟩
    · cases h

/-- The walk does not leave the bytes that it started with. -/
theorem reaches_end {q' : Nat × Nat} (h : Reaches o m q q') : q'.1 + q'.2 = q.1 + q.2 := by
  induction h with
  | refl => rfl
  | tail _ hstep ih =>
    obtain ⟨k, -, hle, rfl⟩ := nextOption_eq_some hstep
    simp only
    omega

/-- **The walk ends**: each option leaves fewer bytes to the next one. -/
theorem walk_ends : WellFounded fun q' q : Nat × Nat => nextOption o m q = some q' := by
  refine Subrelation.wf ?_ (measure Prod.snd).wf
  intro q' q hstep
  obtain ⟨k, hpos, hle, rfl⟩ := nextOption_eq_some hstep
  show q.2 - k < q.2
  omega

/-- Options that are all inside of the frame. -/
theorem allFit_of_inside (h : q.1 + q.2 ≤ m.length) : AllFit o maxThreads m ip q := by
  intro q' hq' hleft
  have hend := reaches_end hq'
  have hle : optionUse o maxThreads m ip q' ≤ q'.2 := optionUse_le hleft
  omega

/-! ## 7. The parser -/

theorem getHeaderLength_le (b : UInt8) : getHeaderLength b ≤ 60 := by
  unfold getHeaderLength
  omega

/-- What `Parse` finds in an IPv4 packet. -/
def ipv4Parser (m : List UInt8) (ip : Nat) : CSimplePacketParser :=
  { ipv4 := some ip, protocol := byteOf m (ip + 9), vlanOffset := ip - 14, optionOffset := ip + 20,
    l4 := some (ip + ipLen m ip) }

/-- What `Parse` finds in an IPv6 packet. -/
def ipv6Parser (m : List UInt8) (ip : Nat) : CSimplePacketParser :=
  { ipv6 := some ip, protocol := byteOf m (ip + 6), vlanOffset := ip - 14, optionOffset := ip + 40,
    l4 := some (ip + 40) }

section Parsed

variable (hlen : 60 ≤ m.length)
include hlen

theorem parseIpv4_eq {vlanOffset : Nat} (hvlan : vlanOffset ≤ 4) :
    parseIpv4 m vlanOffset = .ok (ipv4Parser m (14 + vlanOffset)) := by
  unfold parseIpv4 ipv4Parser
  dsimp only
  rw [readByte_eq (by omega), ok_bind, readByte_eq (by omega), ok_bind]
  simp [ipLen]

theorem parseIpv6_eq {vlanOffset : Nat} (hvlan : vlanOffset ≤ 4) :
    parseIpv6 m vlanOffset = .ok (ipv6Parser m (14 + vlanOffset)) := by
  unfold parseIpv6 ipv6Parser
  dsimp only
  rw [readByte_eq (by omega), ok_bind]
  simp

theorem parse_ipv4 (hat : ipv4At m = some ip) :
    ip ≤ 18 ∧ 14 ≤ ip ∧ parse m = .ok (ipv4Parser m ip) := by
  unfold ipv4At at hat
  unfold parse
  rw [readField_eq (by omega), ok_bind]
  split at hat
  · rename_i hip
    cases hat
    rw [if_pos hip, parseIpv4_eq hlen (by omega)]
    exact ⟨by omega, by omega, rfl⟩
  · rename_i hip
    split at hat
    · rename_i hvlan
      cases hat
      have hip6 : ¬ be (field m 12 2) = etherIpv6 := by
        rw [hvlan.1]
        decide
      rw [if_neg hip, if_neg hip6, if_pos hvlan.1, readField_eq (by omega), ok_bind, if_pos hvlan.2,
        parseIpv4_eq hlen (by omega)]
      exact ⟨by omega, by omega, rfl⟩
    · cases hat

theorem parse_ipv6 (hat : ipv6At m = some ip) :
    ip ≤ 18 ∧ 14 ≤ ip ∧ parse m = .ok (ipv6Parser m ip) := by
  unfold ipv6At at hat
  unfold parse
  rw [readField_eq (by omega), ok_bind]
  split at hat
  · rename_i hip
    cases hat
    have hip4 : ¬ be (field m 12 2) = etherIp := by
      rw [hip]
      decide
    rw [if_neg hip4, if_pos hip, parseIpv6_eq hlen (by omega)]
    exact ⟨by omega, by omega, rfl⟩
  · rename_i hip
    split at hat
    · rename_i hvlan
      cases hat
      have hip4 : ¬ be (field m 12 2) = etherIp := by
        rw [hvlan.1]
        decide
      have hinner4 : ¬ be (field m 16 2) = etherIp := by
        rw [hvlan.2]
        decide
      rw [if_neg hip4, if_neg hip, if_pos hvlan.1, readField_eq (by omega), ok_bind, if_neg hinner4,
        if_pos hvlan.2, parseIpv6_eq hlen (by omega)]
      exact ⟨by omega, by omega, rfl⟩
    · cases hat

theorem parse_none (hat4 : ipv4At m = none) (hat6 : ipv6At m = none) :
    ∃ parser, parse m = .ok parser ∧ parser.protocol = 0 := by
  unfold ipv4At at hat4
  unfold ipv6At at hat6
  unfold parse
  rw [readField_eq (by omega), ok_bind]
  split at hat4
  · cases hat4
  · rename_i hip4
    split at hat6
    · cases hat6
    · rename_i hip6
      rw [if_neg hip4, if_neg hip6]
      by_cases hvlan : be (field m 12 2) = etherVlan
      · rw [if_pos hvlan, readField_eq (by omega), ok_bind]
        by_cases hinner4 : be (field m 16 2) = etherIp
        · rw [if_pos ⟨hvlan, hinner4⟩] at hat4
          cases hat4
        · by_cases hinner6 : be (field m 16 2) = etherIpv6
          · rw [if_pos ⟨hvlan, hinner6⟩] at hat6
            cases hat6
          · rw [if_neg hinner4, if_neg hinner6]
            exact ⟨_, rfl, rfl⟩
      · rw [if_neg hvlan]
        exact ⟨_, rfl, rfl⟩

theorem ipv6At_eq_none (hat : ipv4At m = some ip) : ipv6At m = none := by
  cases hat6 : ipv6At m with
  | none => rfl
  | some ip6 =>
    have h4 := (parse_ipv4 hlen hat).2.2
    rw [(parse_ipv6 hlen hat6).2.2] at h4
    cases h4

end Parsed

/-! ## 8. `check_packet` -/

theorem learnSource_inside (hsource : ip + 16 ≤ m.length) :
    ∃ p', learnSource o m (ipv4Parser m ip) p = .ok p' ∧ p'.pktSize = p.pktSize := by
  unfold learnSource
  split
  · refine ⟨p.doLearn (UInt32.ofNat (be (field m (ip + 12) 4))), ?_, rfl⟩
    show (readField m (ip + 12) 4 >>= _) = _
    rw [readField_eq (by omega), ok_bind]
  · exact ⟨p, rfl, rfl⟩

theorem updateRecv_inside {pkt : Nat} {rSeq tSeq : UInt16} (hpkt : pkt + 8 ≤ m.length) :
    ∃ r, updateRecv mode m pkt rSeq tSeq = .ok r := by
  cases mode with
  | sctp _ => exact ⟨_, rfl⟩
  | icmp _ =>
    unfold updateRecv
    rw [readField_eq (by omega), ok_bind]
    exact ⟨_, rfl⟩

theorem readSeq_inside {h : Nat} {rxSeq : UInt32} (hheader : h + 16 ≤ m.length) :
    ∃ seq, readSeq m h rxSeq = .ok seq := by
  unfold readSeq
  rw [readField_eq (by omega), ok_bind]
  dsimp only
  split
  · rw [readField_eq (by omega), ok_bind]
    exact ⟨_, rfl⟩
  · exact ⟨_, rfl⟩

/-- A latency packet is checked inside of the frame: it has the length of those that are sent. -/
theorem checkLatency_inside {pktSize : Nat} (hlen : 60 ≤ m.length) (hip : 14 ≤ ip ∧ ip ≤ 18)
    (hsize : p.pktSize = mode.getPacketLen) (hpkt : pktSize ≤ m.length) :
    ∃ c, checkLatency o mode m (ipv4Parser m ip) pktSize p = .ok c ∧ HandsInside m c := by
  have hnone : ∀ (port : CCPortLatency) (result : Bool), HandsInside m ⟨port, result, none, []⟩ :=
    fun port result a ha => (by cases ha)
  have hmode : mode.getPacketLen = 62 := by
    cases mode <;> rfl
  obtain ⟨p', hp', hsize'⟩ : ∃ p', learnSource o m (ipv4Parser m ip) p = .ok p' ∧
      p'.pktSize = p.pktSize :=
    learnSource_inside (by omega)
  unfold checkLatency
  rw [hp', ok_bind]
  by_cases hlength : pktSize ≠ p'.pktSize + (ipv4Parser m ip).vlanOffset
  · rw [if_pos hlength]
    exact ⟨_, rfl, hnone _ _⟩
  · rw [if_neg hlength]
    have heq : pktSize = 62 + (ipv4Parser m ip).vlanOffset := by
      rw [← hmode, ← hsize, ← hsize']
      exact not_not.mp hlength
    have hpkt' : l4Offset + (ipv4Parser m ip).vlanOffset + 8 ≤ m.length := by
      unfold l4Offset
      omega
    have hheader : payloadOffset + (ipv4Parser m ip).vlanOffset + 16 ≤ m.length := by
      unfold payloadOffset
      omega
    obtain ⟨r, hr⟩ : ∃ r, updateRecv mode m (l4Offset + (ipv4Parser m ip).vlanOffset) p'.icmpRxSeq
        p'.icmpTxSeq = .ok r := updateRecv_inside hpkt'
    obtain ⟨seq, hseq⟩ : ∃ seq, readSeq m (payloadOffset + (ipv4Parser m ip).vlanOffset) p'.rxSeq =
        .ok seq :=
      readSeq_inside hheader
    rw [hr, ok_bind, hseq, ok_bind]
    exact ⟨_, rfl, hnone _ _⟩

theorem getPktSize_ipv4 (hlen : 60 ≤ m.length) (hip : 14 ≤ ip ∧ ip ≤ 18) :
    ∃ size, (ipv4Parser m ip).getPktSize m = .ok size := by
  unfold CSimplePacketParser.getPktSize ipv4Parser
  dsimp only
  rw [readField_eq (by omega), ok_bind, ok_bind, ok_bind]
  exact ⟨_, rfl⟩

theorem getPktSize_ipv6 (hlen : 60 ≤ m.length) (hip : 14 ≤ ip ∧ ip ≤ 18) :
    ∃ size, (ipv6Parser m ip).getPktSize m = .ok size := by
  unfold CSimplePacketParser.getPktSize ipv6Parser
  dsimp only
  rw [ok_bind, readField_eq (by omega), ok_bind, ok_bind]
  exact ⟨_, rfl⟩

/-- The test for a latency packet of an IPv4 packet. -/
theorem isLatencyPkt_ipv4 (hlen : 60 ≤ m.length) (hip : 14 ≤ ip ∧ ip ≤ 18) {b : Bool} :
    isLatencyPkt mode m (ipv4Parser m ip) = .ok b ↔
      ip + ipLen m ip + 20 ≤ m.length ∧ (b = true ↔ LatencyAt mode m ip) := by
  have hrun : isLatencyPkt mode m (ipv4Parser m ip) = (do
      let magic ← readField m (ip + ipLen m ip + 8 + 8) 4
      .ok ((byteOf m (ip + 9) == mode.getProtocol) && isLatencyMagic magic)) := by
    unfold isLatencyPkt isLatencyMode ipv4Parser header
    dsimp only
    rw [readByte_eq (by omega), ok_bind, ok_bind, ok_bind]
  rw [hrun]
  constructor
  · intro h
    obtain ⟨magic, hmagic, h⟩ := bind_eq_ok h
    obtain ⟨hle, rfl⟩ := readField_eq_ok hmagic
    cases h
    refine ⟨by omega, ?_⟩
    rw [Bool.and_eq_true, beq_iff_eq]
    rfl
  · rintro ⟨hle, hb⟩
    rw [readField_eq (by omega), ok_bind]
    congr 1
    rw [Bool.eq_iff_iff, hb, Bool.and_eq_true, beq_iff_eq]
    rfl

/-- An IPv6 packet is never taken for a latency packet, but it is tested. -/
theorem isLatencyPkt_ipv6 {b : Bool} :
    isLatencyPkt mode m (ipv6Parser m ip) = .ok b ↔ ip + 60 ≤ m.length ∧ b = false := by
  have hrun : isLatencyPkt mode m (ipv6Parser m ip) = (do
      let magic ← readField m (ip + 40 + 8 + 8) 4
      .ok (false && isLatencyMagic magic)) := rfl
  rw [hrun]
  constructor
  · intro h
    obtain ⟨magic, hmagic, h⟩ := bind_eq_ok h
    cases h
    have hle := (readField_eq_ok hmagic).1
    exact ⟨by omega, rfl⟩
  · rintro ⟨hle, rfl⟩
    rw [readField_eq (by omega), ok_bind]
    rfl

/-- The options of an IPv4 packet with 20 bytes behind its header. -/
theorem checkOther_ipv4 (hlen : 60 ≤ m.length) (hip : 14 ≤ ip ∧ ip ≤ 18)
    (hl4 : ip + ipLen m ip + 20 ≤ m.length) :
    (∃ c, checkOther o maxThreads m (ipv4Parser m ip) p = .ok c ∧ HandsInside m c) ↔
      (ipLen m ip < 20 → AllFit o maxThreads m ip (ip + 20, ipLen m ip + 236)) := by
  have hrun : checkOther o maxThreads m (ipv4Parser m ip) p =
      checkOptions o maxThreads m ip ⟨p, true, none,
          []⟩ (ip + 20) ((ipLen m ip + 256 - 20) % 256) := by
    unfold checkOther ipv4Parser header
    dsimp only
    rw [ok_bind, readByte_eq (by omega), ok_bind]
    rfl
  have hnone : HandsInside m ⟨p, true, none, []⟩ := fun a ha => (by cases ha)
  rw [hrun]
  refine (walksInside_iff (by omega) (by omega) _ _ _ hnone).trans ?_
  have hle : ipLen m ip ≤ 60 := getHeaderLength_le _
  by_cases hshort : ipLen m ip < 20
  · have hleft : (ipLen m ip + 256 - 20) % 256 = ipLen m ip + 236 := by omega
    rw [hleft]
    exact ⟨fun h _ => h, fun h => h hshort⟩
  · refine iff_of_true (allFit_of_inside ?_) fun h => absurd h hshort
    show ip + 20 + (ipLen m ip + 256 - 20) % 256 ≤ m.length
    omega

section Checked

variable {p : CCPortLatency} (hlen : 60 ≤ m.length)
include hlen

theorem staysInside_ipv4 (hsize : p.pktSize = mode.getPacketLen) (hat : ipv4At m = some ip) :
    StaysInside o mode maxThreads m p ↔ (byteOf m (ip + 9) ≠ 0 → ip + ipLen m ip + 20 ≤ m.length ∧
      (¬ LatencyAt mode m ip → ipLen m ip < 20 →
          AllFit o maxThreads m ip (ip + 20, ipLen m ip + 236))) := by
  obtain ⟨hhi, hlo, hparse⟩ := parse_ipv4 hlen hat
  unfold StaysInside checkPacket
  rw [hparse, ok_bind]
  by_cases hproto : (ipv4Parser m ip).protocol = 0
  · rw [if_pos hproto]
    exact iff_of_true ⟨_, rfl, fun a ha => (by cases ha)⟩ fun h => absurd hproto h
  · rw [if_neg hproto]
    obtain ⟨size, hgot⟩ := getPktSize_ipv4 hlen ⟨hlo, hhi⟩
    dsimp only
    rw [hgot, ok_bind]
    constructor
    · rintro ⟨c, h, hhands⟩ -
      obtain ⟨b, hb, h⟩ := bind_eq_ok h
      obtain ⟨hl4, hlatency⟩ := (isLatencyPkt_ipv4 hlen ⟨hlo, hhi⟩).mp hb
      refine ⟨hl4, fun hother => ?_⟩
      have hfalse : b = false := by
        rw [← Bool.not_eq_true]
        exact fun hb => hother (hlatency.mp hb)
      subst hfalse
      exact (checkOther_ipv4 hlen ⟨hlo, hhi⟩ hl4).mp ⟨c, h, hhands⟩
    · intro h
      obtain ⟨hl4, hother⟩ := h hproto
      by_cases hlatency : LatencyAt mode m ip
      · rw [(isLatencyPkt_ipv4 hlen ⟨hlo, hhi⟩ (b := true)).mpr ⟨hl4, iff_of_true rfl hlatency⟩,
          ok_bind]
        refine checkLatency_inside hlen ⟨hlo, hhi⟩ hsize ?_
        have hmod : m.length % 65536 ≤ m.length := Nat.mod_le _ _
        split <;> omega
      · rw [(isLatencyPkt_ipv4 hlen ⟨hlo, hhi⟩ (b := false)).mpr
          ⟨hl4, iff_of_false Bool.false_ne_true hlatency⟩, ok_bind]
        exact (checkOther_ipv4 hlen ⟨hlo, hhi⟩ hl4).mpr (hother hlatency)

theorem staysInside_ipv6 (hat : ipv6At m = some ip) :
    StaysInside o mode maxThreads m p ↔ (byteOf m (ip + 6) ≠ 0 → ip + 60 ≤ m.length ∧
      (byteOf m (ip + 6) = rxCheckV6OptType → o.rxCheckMode = true → ip + 64 ≤ m.length)) := by
  obtain ⟨hhi, hlo, hparse⟩ := parse_ipv6 hlen hat
  unfold StaysInside checkPacket
  rw [hparse, ok_bind]
  by_cases hproto : (ipv6Parser m ip).protocol = 0
  · rw [if_pos hproto]
    exact iff_of_true ⟨_, rfl, fun a ha => (by cases ha)⟩ fun h => absurd hproto h
  · rw [if_neg hproto]
    obtain ⟨size, hgot⟩ := getPktSize_ipv6 hlen ⟨hlo, hhi⟩
    dsimp only
    rw [hgot, ok_bind]
    have hother : ∀ c, checkOther o maxThreads m (ipv6Parser m ip) p = .ok c →
        ((∀ a, c.rxp = some a → a + rxCheckLen ≤ m.length) ↔
          (byteOf m (ip + 6) = rxCheckV6OptType → o.rxCheckMode = true → ip + 64 ≤ m.length)) := by
      intro c hc
      unfold checkOther ipv6Parser at hc
      dsimp only at hc
      split at hc
      · rename_i hrx
        cases hc
        refine ⟨fun h _ _ => h _ rfl, fun h a ha => ?_⟩
        cases ha
        exact h hrx.1 hrx.2
      · rename_i hrx
        cases hc
        exact iff_of_true (fun a ha => (by cases ha)) fun h h' => absurd ⟨h, h'⟩ hrx
    have hreturns : ∃ c, checkOther o maxThreads m (ipv6Parser m ip) p = .ok c := by
      unfold checkOther ipv6Parser
      dsimp only
      split
      · exact ⟨_, rfl⟩
      · exact ⟨_, rfl⟩
    constructor
    · rintro ⟨c, h, hhands⟩ -
      obtain ⟨b, hb, h⟩ := bind_eq_ok h
      obtain ⟨hl4, rfl⟩ := isLatencyPkt_ipv6.mp hb
      exact ⟨hl4, (hother c h).mp hhands⟩
    · intro h
      obtain ⟨hl4, hrx⟩ := h hproto
      obtain ⟨c, hc⟩ := hreturns
      rw [isLatencyPkt_ipv6.mpr ⟨hl4, rfl⟩, ok_bind]
      exact ⟨c, hc, (hother c hc).mpr hrx⟩

/-- **The frames that are read inside**: `m_pkt_size` is the length of the packets that are sent, as
`CLatencyManager::Create` sets it.  A frame is read as IPv4, as IPv6 or not at all, and each of them
has its own condition. -/
theorem receive_iff (hsize : p.pktSize = mode.getPacketLen) :
    StaysInside o mode maxThreads m p ↔ FrameFits o mode maxThreads m := by
  cases hat4 : ipv4At m with
  | some ip =>
    have hat6 := ipv6At_eq_none hlen hat4
    rw [staysInside_ipv4 hlen hsize hat4]
    constructor
    · intro h
      refine ⟨fun ip' hip' => ?_, fun ip' hip' => ?_⟩
      · rw [hat4] at hip'
        cases hip'
        exact h
      · rw [hat6] at hip'
        cases hip'
    · exact fun h => h.ipv4 ip hat4
  | none =>
    cases hat6 : ipv6At m with
    | some ip =>
      rw [staysInside_ipv6 hlen hat6]
      constructor
      · intro h
        refine ⟨fun ip' hip' => ?_, fun ip' hip' => ?_⟩
        · rw [hat4] at hip'
          cases hip'
        · rw [hat6] at hip'
          cases hip'
          exact h
      · exact fun h => h.ipv6 ip hat6
    | none =>
      obtain ⟨parser, hparse, hproto⟩ := parse_none hlen hat4 hat6
      have hstays : StaysInside o mode maxThreads m p := by
        unfold StaysInside checkPacket
        rw [hparse, ok_bind, if_pos hproto]
        exact ⟨_, rfl, fun a ha => (by cases ha)⟩
      refine iff_of_true hstays ⟨fun ip' hip' => ?_, fun ip' hip' => ?_⟩
      · rw [hat4] at hip'
        cases hip'
      · rw [hat6] at hip'
        cases hip'

end Checked

/-- A UDP packet with a header of 20 bytes, in a frame of 60 bytes. -/
theorem receive_iff_udp : StaysInside ⟨2, true, true⟩ (.icmp 2) 4
    (List.replicate 12 0 ++ [0x08, 0x00, 0x45, 0x00, 0x00, 0x2e, 0, 0, 0, 0, 0x40, 0x11] ++
      List.replicate 36 0)
    (CCPortLatency.create 0 62) := by
  refine (receive_iff (by decide) rfl).mpr ⟨fun ip hip => ?_, fun ip hip => ?_⟩
  · rw [show ipv4At _ = some 14 from by decide] at hip
    cases hip
    exact fun _ => ⟨by decide, fun _ hshort => absurd hshort (by decide)⟩
  · rw [show ipv6At _ = none from by decide] at hip
    cases hip

/-- A UDP packet of IPv6 in a frame of 60 bytes: the magic number is looked for behind the end of
the frame. -/
theorem ipv6_leaves_frame :
    60 ≤ (List.replicate 12 0 ++ [0x86, 0xdd, 0x60, 0x00, 0x00, 0x00, 0x00, 0x06, 0x11, 0x40] ++
        List.replicate 38 0 : List UInt8).length ∧
      ¬ StaysInside ⟨2, true, true⟩ (.icmp 2) 4 (List.replicate 12 0 ++
          [0x86, 0xdd, 0x60, 0x00, 0x00, 0x00, 0x00, 0x06, 0x11, 0x40] ++ List.replicate 38 0)
        (CCPortLatency.create 0 62) := by
  refine ⟨by decide, fun hstays => ?_⟩
  have hbehind := ((staysInside_ipv6 (by decide) (show ipv6At _ = some 14 from by decide)).mp hstays
    (by decide)).1
  exact absurd hbehind (by decide)

end Trex.Lat.Receive
