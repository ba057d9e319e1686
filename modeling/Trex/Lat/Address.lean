/-
# The addresses of a pair of latency ports

The even port of a pair sends from the client to the server, the odd one from the server to the
client, and every pair shifts both addresses by its part of the dual-port mask
(`CLatencyPktInfo::generate_pkt`, `latency.cpp`). In learn mode the odd port sends to the external
address that it saw in a packet of the even port (`do_learn`).

The shift is added to the source unless there is an external address, and to the destination always;
this is as the even port needs it, for which the external address would be the source.  The odd port
swaps first, so with an external address its source is the server without the shift, and its
destination is the external address with it. `pairAddressed_iff` says that the addresses of a pair
fit while nothing was learned, or when the shift is zero.
-/
import Trex.Lat.Network

namespace Trex.Lat

namespace CLatencyManager

variable {o : LatencyOptions} {cfg : CLatencyManagerCfg} {mgr : CLatencyManager} {k : Nat}

/-! ## 1. Managers that are reached -/

/-- `set_ip` -/
def setIp (clientIp serverIp dualPortMask : UInt32) (mgr : CLatencyManager) : CLatencyManager :=
  { mgr with pktGen := ⟨clientIp, serverIp, dualPortMask⟩ }

/-- **The managers that are reached**: the ports send, whatever packets arrive. -/
inductive Reached (o : LatencyOptions) (cfg : CLatencyManagerCfg) : CLatencyManager → Prop
  | create {mgr : CLatencyManager} : CLatencyManager.create o cfg = some mgr → Reached o cfg mgr
  | send {mgr : CLatencyManager} (io : Bool) (now : UInt64) (i : Nat) : Reached o cfg mgr →
      Reached o cfg (mgr.sendPkt o io now i).1
  | receive {mgr : CLatencyManager} (i : Nat) (m : RxPacket) : Reached o cfg mgr →
      Reached o cfg (mgr.handleRxPkt o i m)
  | reset {mgr : CLatencyManager} : Reached o cfg mgr → Reached o cfg mgr.reset
  | setMask {mgr : CLatencyManager} (mask : UInt32) : Reached o cfg mgr →
      Reached o cfg (mgr.setMask mask)
  | setIp {mgr : CLatencyManager} (clientIp serverIp dualPortMask : UInt32) : Reached o cfg mgr →
      Reached o cfg (mgr.setIp clientIp serverIp dualPortMask)

/-- A port that has no external address and does not learn one. -/
def Settled (p : CCPortLatency) : Prop := p.natLearn = true ∧ p.natExternalIp = 0

theorem Settled.checkOptions {c : CCPortLatency.Checked} (h : Settled c.port)
    (option : List UInt8) :
    Settled (CCPortLatency.checkOptions o c option).port := by
  fun_induction CCPortLatency.checkOptions o c option with
  | case1 => exact h
  | case2 => exact h
  | case3 _ _ _ ih => exact ih h
  | case4 => exact h
  | case5 => exact h
  | case6 _ _ _ _ _ ih => exact ih h
  | case7 => exact h

variable {p : CCPortLatency}

theorem Settled.checkSeq (h : Settled p) (seq : UInt32) :
    Settled (CCPortLatency.checkSeq seq p).1 := by
  unfold CCPortLatency.checkSeq
  split <;> exact h

theorem Settled.checkLatencyPkt (h : Settled p) (mode : CLatencyPktMode) (sourceIp : UInt32)
    (pktSize : Nat) (m : RxPacket) : Settled (p.checkLatencyPkt o mode sourceIp pktSize m).1 := by
  unfold CCPortLatency.checkLatencyPkt
  rw [show (o.learnMode && !p.natLearn) = false by rw [h.1, Bool.not_true, Bool.and_false],
    if_neg Bool.false_ne_true]
  dsimp only
  split
  · exact h
  · refine Settled.checkSeq ?_ _
    exact h

/-- No packet gives such a port an external address. -/
theorem Settled.checkPacket (h : Settled p) (mode : CLatencyPktMode) (m : RxPacket) :
    Settled (p.checkPacket o mode m).port := by
  unfold CCPortLatency.checkPacket
  dsimp only
  split
  · exact h
  split
  · exact h
  · split <;> exact h
  · split
    · exact Settled.checkOptions h _
    · exact h.checkLatencyPkt mode _ _ m

/-- The even ports of a manager are settled. -/
structure EvenSettled (mgr : CLatencyManager) : Prop where
  maxPorts_le : mgr.maxPorts ≤ maxLatencyPorts
  even : ∀ k, 2 * k < mgr.maxPorts → Settled (mgr.ports (2 * k))

theorem EvenSettled.setPort (h : mgr.EvenSettled) {i : Nat}
    (hp : Settled (mgr.ports i) → Settled p) : (mgr.setPort i p).EvenSettled := by
  refine ⟨h.maxPorts_le, ?_⟩
  intro k hk
  by_cases hik : 2 * k = i
  · subst hik
    rw [setPort_self]
    exact hp (h.even k hk)
  · rw [setPort_of_ne _ _ hik]
    exact h.even k hk

theorem Reached.evenSettled (h : Reached o cfg mgr) : mgr.EvenSettled := by
  induction h with
  | create hcreate =>
    unfold CLatencyManager.create at hcreate
    dsimp only at hcreate
    split at hcreate
    · rename_i hports
      cases hcreate
      refine ⟨hports.1, ?_⟩
      intro k hk
      have hlt : 2 * k < 12 := Nat.lt_of_lt_of_le hk hports.1
      have hid : (UInt8.ofNat (2 * k) % 2 == 0) = true := by
        obtain hk' | hk' | hk' | hk' | hk' | hk' : k = 0 ∨ k = 1 ∨ k = 2 ∨ k = 3 ∨ k = 4 ∨
          k = 5 := by omega
        all_goals (subst hk'; rfl)
      exact ⟨hid, rfl⟩
    · cases hcreate
  | send io now i _ ih =>
    unfold sendPkt
    dsimp only
    split
    · refine ih.setPort ?_
      intro hp
      unfold CCPortLatency.updatePacket
      dsimp only
      split <;> exact hp
    · exact ih
  | receive i m _ ih => exact ih.setPort fun hp => hp.checkPacket _ m
  | reset _ ih =>
    refine ⟨ih.maxPorts_le, ?_⟩
    intro k hk
    replace hk : 2 * k < _ := hk
    show Settled (if 2 * k < _ then (CCPortLatency.reset _) else _)
    split
    · exact ih.even k hk
    · exact ih.even k hk
  | setMask mask _ ih => exact ⟨ih.maxPorts_le, ih.even⟩
  | setIp clientIp serverIp dualPortMask _ ih => exact ⟨ih.maxPorts_le, ih.even⟩

/-! ## 2. The packets of a pair -/

/-- The packet that port `i` sends now. -/
def nextPkt (mgr : CLatencyManager) (i : Nat) : LatencyPkt :=
  mgr.pktGen.generatePkt mgr.mode i (mgr.ports i).natExternalIp

/-- **How the addresses of a pair are to be**: the odd port sends from the address that the even one
sends to, and to the one that the even one sends from, or to the external address when it has
learned one. -/
def PairAddressed (mgr : CLatencyManager) (k : Nat) : Prop :=
  (mgr.nextPkt (2 * k + 1)).srcIp = (mgr.nextPkt (2 * k)).dstIp ∧
    (mgr.nextPkt (2 * k + 1)).dstIp =
      if (mgr.ports (2 * k + 1)).natExternalIp = 0 then (mgr.nextPkt (2 * k)).srcIp
      else (mgr.ports (2 * k + 1)).natExternalIp

/-- The shift of the addresses of a pair. -/
def pairShift (mgr : CLatencyManager) (k : Nat) : UInt32 := UInt32.ofNat k * mgr.pktGen.dualPortMask

theorem nextPkt_even (h : mgr.EvenSettled) (hk : 2 * k < mgr.maxPorts) :
    (mgr.nextPkt (2 * k)).srcIp = mgr.pktGen.clientIp + mgr.pairShift k ∧
      (mgr.nextPkt (2 * k)).dstIp = mgr.pktGen.serverIp + mgr.pairShift k := by
  have hhalf : 2 * k / 2 = k := by omega
  have heven : (2 * k % 2 == 0) = true := by
    rw [beq_iff_eq]
    omega
  unfold nextPkt CLatencyPktInfo.generatePkt
  rw [(h.even k hk).2, hhalf, heven]
  exact ⟨rfl, rfl⟩

/-- The packet of the odd port: the external address takes the shift off the source. -/
theorem nextPkt_odd (mgr : CLatencyManager) (k : Nat) :
    (mgr.nextPkt (2 * k + 1)).srcIp = (if (mgr.ports (2 * k + 1)).natExternalIp = 0 then
        mgr.pktGen.serverIp + mgr.pairShift k else mgr.pktGen.serverIp) ∧
      (mgr.nextPkt (2 * k + 1)).dstIp = (if (mgr.ports (2 * k + 1)).natExternalIp = 0
        then mgr.pktGen.clientIp else (mgr.ports (2 * k + 1)).natExternalIp) + mgr.pairShift k := by
  have hhalf : (2 * k + 1) / 2 = k := by omega
  have hodd : ((2 * k + 1) % 2 == 0) = false := by
    rw [beq_eq_false_iff_ne]
    omega
  unfold nextPkt CLatencyPktInfo.generatePkt
  rw [hhalf, hodd]
  by_cases hext : (mgr.ports (2 * k + 1)).natExternalIp = 0
  · rw [if_neg (not_not_intro hext), if_pos hext, if_pos hext]
    refine ⟨if_pos hext, rfl⟩
  · rw [if_pos hext, if_neg hext, if_neg hext]
    exact ⟨if_neg hext, rfl⟩

/-- **The addresses of a pair fit** if and only if the odd port has not learned an external address,
or the shift of the pair is zero.  The even ports are `EvenSettled` in every state that is reached,
so only the odd one can differ. -/
theorem pairAddressed_iff (h : Reached o cfg mgr) (hk : 2 * k + 1 < mgr.maxPorts) :
    mgr.PairAddressed k ↔ (mgr.ports (2 * k + 1)).natExternalIp = 0 ∨ mgr.pairShift k = 0 := by
  obtain ⟨hesrc, hedst⟩ := nextPkt_even h.evenSettled (by omega : 2 * k < mgr.maxPorts)
  obtain ⟨hosrc, hodst⟩ := nextPkt_odd mgr k
  unfold PairAddressed
  rw [hesrc, hedst, hosrc, hodst]
  by_cases hext : (mgr.ports (2 * k + 1)).natExternalIp = 0
  · rw [if_pos hext, if_pos hext, if_pos hext]
    exact iff_of_true ⟨rfl, rfl⟩ (Or.inl hext)
  · rw [if_neg hext, if_neg hext, if_neg hext, or_iff_right hext]
    constructor
    · rintro ⟨hsrc, -⟩
      have hzero := hsrc.symm.trans (UInt32.add_zero mgr.pktGen.serverIp).symm
      exact UInt32.add_right_inj _ |>.mp hzero
    · intro hshift
      rw [hshift, UInt32.add_zero, UInt32.add_zero]
      exact ⟨rfl, rfl⟩

/-! ## 3. Two pairs -/

/-- Four ports. -/
def twoPairs : CLatencyManagerCfg := ⟨4, 0x10000000, 0x30000000, 0x01000000⟩

/-- Learn mode, with SCTP packets. -/
def learning : LatencyOptions := ⟨0, true, false⟩

/-- A latency packet of port 2, from the address that the NAT gave it. -/
def translated : RxPacket :=
  { pktLen := 62, vlanOffset := 0, l3 := .ipv4 ⟨0x84, 48, 0x0a000001, []⟩,
    l4Magic := latencyMagic ||| 2
    icmp := ⟨0x80, 0⟩, header := ⟨0, latencyMagic ||| 2, 0x12345678⟩ }

/-- The manager before anything is learned, and after port 3 saw this packet. -/
def started : CLatencyManager :=
    (create learning twoPairs).getD ⟨.sctp 0, 0, 0, ⟨0, 0, 0⟩, fun _ => .create 0 0⟩

def learned : CLatencyManager := started.handleRxPkt learning 3 translated

theorem started_reached : Reached learning twoPairs started := .create rfl

/-- Before it learns, the second pair is addressed as it is to be. -/
theorem pairAddressed_iff_started : started.PairAddressed 1 :=
  (pairAddressed_iff started_reached (by decide)).mpr (Or.inl rfl)

/-- **The second pair after it has learned**: port 3 sends from 48.0.0.0 to 11.0.0.1, where port 2
sends to 49.0.0.0 and the external address is 10.0.0.1. -/
theorem learned_addresses : Reached learning twoPairs learned ∧
    (learned.ports 3).natExternalIp = 0x0a000001 ∧
    (learned.nextPkt 2).dstIp = 0x31000000 ∧ (learned.nextPkt 3).srcIp = 0x30000000 ∧
    (learned.nextPkt 3).dstIp = 0x0b000001 ∧ ¬ learned.PairAddressed 1 := by
  have hreached : Reached learning twoPairs learned := .receive 3 translated started_reached
  have hext : (learned.ports 3).natExternalIp = 0x0a000001 := by decide
  refine ⟨hreached, hext, by decide, by decide, by decide, ?_⟩
  rintro ⟨hsrc, -⟩
  exact absurd hsrc (by decide)

end CLatencyManager

end Trex.Lat
