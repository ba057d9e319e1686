/-
# The accounting of latency packets

Port `i` expects the sequence numbers of the other port of its pair.  It takes any number behind the
one that came last, but the first one it takes from its own `m_tx_seq`, in `reset`.  So the
accounting is right in every run in which both ports of the pair have sent as many packets when they
are reset (`latency_accounting`), and wrong where one of them could not send: after a reset, packets
that all arrive in order are counted as errors.

The sequence numbers wrap around.  A packet that is a multiple of `2 ^ 32` packets away from the one
that is expected looks like it (`Distinct`).
-/
import Trex.Lat.Network

namespace Trex.Lat

open Trex.Lib CCPortLatency List
open Function (update update_of_ne update_self)

namespace LatencyNet

/-! ## 1. Packets in order -/

/-- **The packets that port `i` got since the last reset** are the first ones that the other port
sent since then, each of them once and in order. -/
def InOrder (s : LatencyNet) (i : Nat) : Prop := s.received i <+: List.range (s.sent (swapPort i))

instance  (s : LatencyNet) (i : Nat) :
    Decidable (s.InOrder i) := inferInstanceAs (Decidable (_ <+: _))

/-- A packet that is not the expected one does not have its sequence number. -/
def Distinct (received : List Nat) : Option Flight → Prop
  | none => True
  | some f => f.number % 2 ^ 32 = expected received % 2 ^ 32 → f.number = expected received

instance (received : List Nat) : ∀ f, Decidable (Distinct received f)
  | none => .isTrue trivial
  | some _ => inferInstanceAs (Decidable (_ → _))

/-- The moves behind which the ports of the pair of port `i` expect the right packets. -/
def Numbered (i : Nat) (s : LatencyNet) : LatencyMove → Prop
  | .deliver k n _ _ => k = i ∨ k = swapPort i → Distinct (s.received k) (s.wire k)[n]?
  | .reset => (s.mgr.ports i).txSeq = (s.mgr.ports (swapPort i)).txSeq
  | _ => True

instance (i : Nat) (s : LatencyNet) : ∀ move, Decidable (Numbered i s move)
  | .deliver _ _ _ _ => inferInstanceAs (Decidable (_ → _))
  | .reset => inferInstanceAs (Decidable (_ = _))
  | .setMask _ => .isTrue trivial
  | .sendAll _ _ => .isTrue trivial
  | .drop _ _ => .isTrue trivial
  | .duplicate _ _ => .isTrue trivial

variable {o : LatencyOptions} {s s' : LatencyNet} {move : LatencyMove} {i k : Nat}

/-- The condition does not tell the ports of the pair apart. -/
theorem Numbered.swap (h : Numbered i s move) : Numbered (swapPort i) s move := by
  cases move with
  | deliver k n vlan ip =>
    intro hk
    rw [swapPort_swapPort] at hk
    exact h hk.symm
  | reset =>
    rw [Numbered, swapPort_swapPort]
    exact h.symm
  | setMask mask => trivial
  | sendAll io now => trivial
  | drop i k => trivial
  | duplicate i k => trivial

/-! ## 2. One direction -/

/-- The sequence number of the `n`-th packet since a reset at `base`. -/
def seqOf (base : UInt32) (n : Nat) : UInt32 := base + UInt32.ofNat n

theorem seqOf_succ (base : UInt32) (n : Nat) : seqOf base (n + 1) = seqOf base n + 1 := by
  rw [seqOf, seqOf, UInt32.ofNat_add, ← UInt32.add_assoc]
  rfl

theorem seqOf_zero (base : UInt32) : seqOf base 0 = base := UInt32.add_zero base

/-- Only a multiple of `2 ^ 32` packets has the same number. -/
theorem seqOf_inj {base : UInt32} {n m : Nat} (h : seqOf base n = seqOf base m) :
    n % 2 ^ 32 = m % 2 ^ 32 := by
  have hnat : UInt32.ofNat n = UInt32.ofNat m := (UInt32.add_right_inj base).mp h
  have hto := congrArg UInt32.toNat hnat
  rwa [UInt32.toNat_ofNat', UInt32.toNat_ofNat'] at hto

/-- **The direction from the other port to port `i`**: both ends count from `base`. -/
structure Counted (base : UInt32) (s : LatencyNet) (i : Nat) : Prop where
  txSeq : (s.mgr.ports (swapPort i)).txSeq = seqOf base (s.sent (swapPort i))
  tracks : Tracks (seqOf base) (s.received i) (s.mgr.ports i).checker
  wire : ∀ f ∈ s.wire i, f.number < s.sent (swapPort i) ∧ f.pkt.header.seq = seqOf base f.number
  received : ∀ n ∈ s.received i, n < s.sent (swapPort i)

namespace Counted

variable {base : UInt32}

/-- A turn of a round. -/
theorem sendOne {io : Nat → Bool} {now : Nat → UInt64} (h : Counted base s i) :
    Counted base (sendOne o io now s k) i := by
  obtain heq | ⟨p', pkt, heq, hsends, -⟩ := sendOne_cases o io now s k
  · rwa [heq]
  rw [heq]
  by_cases hk : k = swapPort i
  · -- the other port sends: it has counted one packet more
    subst hk
    constructor
    · simp only [post, CLatencyManager.setPort_self, update_self]
      rw [hsends.txSeq, h.txSeq, seqOf_succ]
    · simp only [post, CLatencyManager.setPort_of_ne _ _ (swapPort_ne i).symm]
      exact h.tracks
    · intro f hf
      simp only [post, update_self]
      rcases mem_wire_post hf with hold | ⟨-, rfl⟩
      · obtain ⟨hlt, hseq⟩ := h.wire f hold
        exact ⟨Nat.lt_succ_of_lt hlt, hseq⟩
      · exact ⟨Nat.lt_succ_self _, hsends.seq.trans h.txSeq⟩
    · intro n hn
      simp only [post, update_self]
      exact Nat.lt_succ_of_lt (h.received n hn)
  · -- another port sends; it may be port `i`, whose checker stays
    have hports : ((s.mgr.setPort k p').ports i).checker = (s.mgr.ports i).checker := by
      by_cases hi : i = k
      · subst hi
        rw [CLatencyManager.setPort_self]
        exact hsends.checker
      · rw [CLatencyManager.setPort_of_ne _ _ hi]
    have hne : swapPort i ≠ k := fun heq => hk heq.symm
    constructor
    · simp only [post, CLatencyManager.setPort_of_ne _ _ hne, update_of_ne hne]
      exact h.txSeq
    · have htracks := h.tracks
      rwa [← hports] at htracks
    · intro f hf
      simp only [post, update_of_ne hne]
      rcases mem_wire_post hf with hold | ⟨hi, -⟩
      · exact h.wire f hold
      · exact absurd (by rw [hi, swapPort_swapPort]) hk
    · intro n hn
      simp only [post, update_of_ne hne]
      exact h.received n hn

/-- A packet that arrives. -/
theorem deliver (h : Counted base s i) (hsound : s.Sound) {n : Nat} {f : Flight} (vlan : Bool)
    (ip : UInt32) (hget : (s.wire k)[n]? = some f)
    (hnum : k = i → Distinct (s.received i) (some f)) :
    Counted base
      (arrive o k vlan ip f { s with wire := update s.wire k ((s.wire k).eraseIdx n) }) i := by
  have hears := hsound.hears (o := o) hget vlan ip
  have htx : ∀ j, ((s.mgr.handleRxPkt o k (f.pkt.arrive s.mgr.mode vlan ip)).ports j).txSeq =
      (s.mgr.ports j).txSeq := by
    intro j
    by_cases hj : j = k
    · subst hj
      rw [CLatencyManager.handleRxPkt_self]
      exact hears.txSeq
    · rw [CLatencyManager.handleRxPkt_of_ne o _ _ hj]
  have hwire : ∀ f', f' ∈ update s.wire k ((s.wire k).eraseIdx n) i →
      f'.number < s.sent (swapPort i) ∧ f'.pkt.header.seq = seqOf base f'.number :=
    fun f' hf' => h.wire f' (mem_wire_erase hf')
  refine ⟨(htx _).trans h.txSeq, ?_, hwire, ?_⟩
  · by_cases hk : i = k
    · subst hk
      obtain ⟨-, hseq⟩ := h.wire f (mem_of_getElem? hget)
      simp only [arrive, CLatencyManager.handleRxPkt_self, update_self]
      rw [hears.checker, hseq]
      exact h.tracks.check (seqOf_succ base f.number) fun heq => hnum rfl (seqOf_inj heq)
    · simp only [arrive, CLatencyManager.handleRxPkt_of_ne o _ _ hk, update_of_ne hk]
      exact h.tracks
  · intro m hm
    by_cases hk : i = k
    · subst hk
      simp only [arrive, update_self] at hm
      rcases mem_append.mp hm with hold | hnew
      · exact h.received m hold
      · rw [mem_singleton.mp hnew]
        exact (h.wire f (mem_of_getElem? hget)).1
    · simp only [arrive, update_of_ne hk] at hm
      exact h.received m hm

/-- **A reset counts again, from where the port stands itself.** -/
theorem reset (hi : i < s.mgr.maxPorts) (hj : swapPort i < s.mgr.maxPorts) (hdrained : s.Drained)
    (hsame : (s.mgr.ports i).txSeq = (s.mgr.ports (swapPort i)).txSeq) :
    Counted (s.mgr.ports i).txSeq
      { s with mgr := s.mgr.reset, sent := fun _ => 0, received := fun _ => [] } i := by
  constructor
  · simp only [CLatencyManager.reset, if_pos hj, CCPortLatency.reset]
    rw [seqOf_zero, hsame]
  · simp only [CLatencyManager.reset, if_pos hi, CCPortLatency.reset]
    exact Tracks.start (seqOf_zero _).symm rfl
  · intro f hf
    rw [hdrained i hi] at hf
    exact absurd hf not_mem_nil
  · exact fun n hn => absurd hn not_mem_nil

end Counted

/-- The ports of a pair are there, their packets are sound, and one direction is counted. -/
structure CountedPort (s : LatencyNet) (i : Nat) : Prop where
  port : i < s.mgr.maxPorts
  peer : swapPort i < s.mgr.maxPorts
  sound : s.Sound
  counted : ∃ base, Counted base s i

theorem maxPorts_sendPktAllPorts (io : Nat → Bool) (now : Nat → UInt64) :
    (s.sendPktAllPorts o io now).mgr.maxPorts = s.mgr.maxPorts := by
  refine sendPktAllPorts_induct (P := fun t => t.mgr.maxPorts = s.mgr.maxPorts) ?_ rfl
  intro t k ht
  obtain heq | ⟨p', pkt, heq, -⟩ := sendOne_cases o io now t k
  · rwa [heq]
  · rwa [heq]

/-- **A move that meets the condition keeps the count.** -/
theorem CountedPort.step (h : CountedPort s i) (hnum : Numbered i s move)
    (hstep : s.step o move = some s') : CountedPort s' i := by
  have hsound : s'.Sound := h.sound.step hstep
  obtain ⟨hi, hj, hs, base, hcounted⟩ := h
  obtain ⟨io, now, -, rfl⟩ | ⟨k, n, vlan, ip, f, rfl, hget, rfl⟩ | ⟨rfl, hdrained, rfl⟩ |
    ⟨-, mask, wire, hwire, rfl⟩ := step_cases hstep
  · have hmax := maxPorts_sendPktAllPorts (o := o) (s := s) io now
    have hround : Counted base (s.sendPktAllPorts o io now) i :=
      sendPktAllPorts_induct (P := fun t => Counted base t i) (fun _ _ => Counted.sendOne) hcounted
    exact ⟨hmax ▸ hi, hmax ▸ hj, hsound, base, hround⟩
  · refine ⟨hi, hj, hsound, base, hcounted.deliver hs vlan ip hget ?_⟩
    intro hk
    have hdistinct : Distinct (s.received k) (s.wire k)[n]? := hnum (.inl hk)
    rwa [hget, hk] at hdistinct
  · exact ⟨hi, hj, hsound, _, Counted.reset hi hj hdrained hnum⟩
  · exact ⟨hi, hj, hsound, base, hcounted.txSeq, hcounted.tracks, fun f hf =>
      hcounted.wire f (hwire i f hf), hcounted.received⟩

/-- Behind `Create` all ports count from the same number. -/
theorem CountedPort.ofManager {cfg : CLatencyManagerCfg} {mgr : CLatencyManager}
    (hcreate : CLatencyManager.create o cfg = some mgr) (hi : i < mgr.maxPorts) :
    CountedPort (ofManager mgr) i := by
  have hsound := Sound.ofManager hcreate
  unfold CLatencyManager.create at hcreate
  split at hcreate
  · rename_i hassert
    cases hcreate
    refine ⟨hi, swapPort_lt hi hassert.2, hsound, 0x12345678, rfl, Tracks.start rfl rfl, ?_, ?_⟩
    · exact fun f hf => absurd hf not_mem_nil
    · exact fun n hn => absurd hn not_mem_nil
  · cases hcreate

/-- What the count says about the errors of the port. -/
theorem CountedPort.seqError_iff (h : CountedPort s i) :
    (s.mgr.ports i).seqError = 0 ↔ s.InOrder i := by
  obtain ⟨base, hcounted⟩ := h.counted
  rw [InOrder, prefix_range_iff hcounted.received]
  exact hcounted.tracks.errors

/-- **The accounting of a pair of latency ports**: in every run whose resets find both ports at the
same number (and in which no packet is taken for another one), the ports have no sequence error
since the last reset if and only if each of them got the first packets that the other one sent since
then, every one once and in order. -/
theorem latency_accounting {cfg : CLatencyManagerCfg} {mgr : CLatencyManager}
    (hcreate : CLatencyManager.create o cfg = some mgr) (hi : i < mgr.maxPorts)
    (h : Reachable o (Numbered i) (ofManager mgr) s) :
    (s.mgr.ports i).seqError = 0 ∧ (s.mgr.ports (swapPort i)).seqError = 0 ↔
      s.InOrder i ∧ s.InOrder (swapPort i) := by
  have hport : CountedPort s i :=
    h.induct (P := fun t => CountedPort t i) (CountedPort.ofManager hcreate hi)
      fun _ _ _ ht hok hstep => ht.step hok hstep
  have hpeer : CountedPort s (swapPort i) :=
    h.induct (P := fun t => CountedPort t (swapPort i))
      (CountedPort.ofManager hcreate (CountedPort.ofManager hcreate hi).peer)
      fun _ _ _ ht hok hstep => ht.step hok.swap hstep
  rw [hport.seqError_iff, hpeer.seqError_iff]

/-- A round of a pair, whose packets all arrive. -/
def losslessRound : List LatencyMove :=
  [.sendAll (fun _ => true) (fun _ => 0), .deliver 1 0 false 0x10000000,
    .deliver 0 0 false 0x20000000]

/-- The theorem on a pair that is reset between two rounds. -/
theorem latency_accounting_lossless : ∃ mgr s, CLatencyManager.create ⟨0, false, false⟩ pairCfg =
    some mgr ∧
    (ofManager mgr).run ⟨0, false, false⟩ (Numbered 0) (losslessRound ++ .reset :: losslessRound) =
      some s ∧
    ((s.mgr.ports 0).seqError = 0 ∧ (s.mgr.ports 1).seqError = 0) := by
  have hruns : ((CLatencyManager.create ⟨0, false, false⟩ pairCfg).any fun mgr =>
      decide (0 < mgr.maxPorts) && ((ofManager mgr).run ⟨0, false, false⟩ (Numbered 0)
        (losslessRound ++ .reset :: losslessRound)).any fun s =>
            decide (s.InOrder 0 ∧ s.InOrder 1)) = true := by
    decide +kernel
  obtain ⟨mgr, hcreate, hmgr⟩ := (Option.any_eq_true _ _).mp hruns
  obtain ⟨hi, hrun⟩ := Bool.and_eq_true_iff.mp hmgr
  obtain ⟨s, hs, horder⟩ := (Option.any_eq_true _ _).mp hrun
  exact ⟨mgr, s, hcreate, hs,
    (latency_accounting hcreate (of_decide_eq_true hi) (reachable_run _ hs)).mpr
    (of_decide_eq_true horder)⟩

/-- A NAT has to be learned before port 1 may send: when the ports are reset, port 0 has sent a
packet more. -/
def learnThenReset : List LatencyMove :=
  [.sendAll (fun _ => true) (fun _ => 0), .deliver 1 0 false 0x30000000, .reset] ++ losslessRound

/-- **A lossless exchange behind a reset that is counted as an error.** -/
theorem latency_accounting_after_learn : ¬ ∀ (o : LatencyOptions) (cfg : CLatencyManagerCfg)
    (mgr : CLatencyManager) (i : Nat) (s : LatencyNet), CLatencyManager.create o cfg = some mgr →
    i < mgr.maxPorts → Reachable o (fun _ _ => True) (ofManager mgr) s → s.Drained →
    ((s.mgr.ports i).seqError = 0 ∧ (s.mgr.ports (swapPort i)).seqError = 0 ↔
      s.InOrder i ∧ s.InOrder (swapPort i)) := by
  intro hall
  have hruns : ((CLatencyManager.create ⟨0, true, false⟩ pairCfg).any fun mgr =>
      decide (0 < mgr.maxPorts) &&
        ((ofManager mgr).run ⟨0, true, false⟩ (fun _ _ => True) learnThenReset).any
        fun s => decide (s.Drained ∧ s.InOrder 0 ∧ s.InOrder 1 ∧ (s.mgr.ports 0).seqError = 1)) =
            true := by
    decide +kernel
  obtain ⟨mgr, hcreate, hmgr⟩ := (Option.any_eq_true _ _).mp hruns
  obtain ⟨hi, hrun⟩ := Bool.and_eq_true_iff.mp hmgr
  obtain ⟨s, hs, hobs⟩ := (Option.any_eq_true _ _).mp hrun
  obtain ⟨hdrained, h0, h1, herr⟩ := of_decide_eq_true hobs
  have hiff := hall _ _ mgr 0 s hcreate (of_decide_eq_true hi) (reachable_run _ hs) hdrained
  have hzero : (s.mgr.ports 0).seqError = 0 := (hiff.mpr ⟨h0, h1⟩).1
  rw [herr] at hzero
  cases hzero

end LatencyNet

end Trex.Lat
