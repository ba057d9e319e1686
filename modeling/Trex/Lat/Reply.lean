/-
# The replies to ICMP requests

In the mode `L_PKT_SUBMODE_REPLY` the even port of a pair sends requests and the odd one replies, to
what it got: it may send when `m_icmp_tx_seq <= m_icmp_rx_seq`, and the number of the reply is
`m_icmp_tx_seq`.

The two numbers stand for the set of the requests that wait for a reply: all of those from the one
to the other.  That is right as long as no request is missing in between, and it is wrong for a
moment after the reply 65535, when every number is at least `m_icmp_tx_seq`.  A packet with the
number 0 sets `m_icmp_tx_seq` of the port that gets it, also when that is the port of the requests.
`Prompt` names these three cases; without them the discipline holds in every run
(`reply_discipline`).
-/
import Trex.Lat.Network

namespace Trex.Lat

open Trex.Lib CCPortLatency List
open Function (update update_of_ne update_self)

namespace LatencyNet

/-! ## 1. The discipline of a pair -/

/-- No packet is repeated on the way, so every packet that a port gets is another packet that was
sent. -/
def NoRepeat : LatencyMove → Prop
  | .duplicate _ _ => False
  | _ => True

instance : ∀ move, Decidable (NoRepeat move)
  | .duplicate _ _ => .isFalse id
  | .deliver _ _ _ _ => .isTrue trivial
  | .reset => .isTrue trivial
  | .setMask _ => .isTrue trivial
  | .sendAll _ _ => .isTrue trivial
  | .drop _ _ => .isTrue trivial

/-- Consecutive numbers modulo `2 ^ 16`. -/
def Consecutive (l : List UInt16) : Prop := l.IsChain fun a b => b = a + 1

/-- **The discipline of a pair**: port `c + 1` sent no more replies with a number than it got
requests with it, and the requests of port `c` carry consecutive numbers. -/
structure Disciplined (s : LatencyNet) (c : Nat) : Prop where
  replies : ∀ n, (s.asked (c + 1)).count n ≤ (s.heard (c + 1)).count n
  requests : Consecutive (s.asked c)

/-- A request with the number `n` waits for a reply of port `d`. -/
def Waiting (s : LatencyNet) (d : Nat) (n : UInt16) :
    Prop := (s.asked d).count n < (s.heard d).count n

instance  (s : LatencyNet) (d : Nat) (n : UInt16) :
    Decidable (s.Waiting d n) := inferInstanceAs (Decidable (_ < _))

/-- The next reply is the one behind 65535, and no request came since. -/
def Wrapped (p : CCPortLatency) : Prop := p.icmpTxSeq = 0 ∧ p.icmpRxSeq = 65535

instance (p : CCPortLatency) : Decidable (Wrapped p) := inferInstanceAs (Decidable (_ ∧ _))

/-- What may arrive at port `k`, of the pair of the client port `c`: a reply 0 only where it changes
nothing, and a request only when all those between the next reply and it are there. -/
def PromptAt (c : Nat) (s : LatencyNet) (k : Nat) : Option Flight → Prop
  | none => True
  | some f =>
    (k = c → f.pkt.icmp.seqNum = 0 → (s.mgr.ports c).icmpTxSeq = 0) ∧
    (k = c + 1 → ∀ m < f.pkt.icmp.seqNum.toNat, (s.mgr.ports (c + 1)).icmpTxSeq.toNat ≤ m →
      s.Waiting (c + 1) (UInt16.ofNat m))

instance (c : Nat) (s : LatencyNet) (k : Nat) : ∀ f, Decidable (PromptAt c s k f)
  | none => .isTrue trivial
  | some _ => inferInstanceAs (Decidable (_ ∧ _))

/-- The moves that keep the discipline: packets arrive as in `PromptAt`, and there is no round in
which the server port may send between its reply 65535 and the next request. -/
def Prompt (c : Nat) (s : LatencyNet) : LatencyMove → Prop
  | .duplicate _ _ => False
  | .deliver k n _ _ => PromptAt c s k (s.wire k)[n]?
  | .sendAll _ _ => s.mgr.portMask &&& (1 <<< UInt32.ofNat (c + 1)) ≠ 0 →
      ¬ Wrapped (s.mgr.ports (c + 1))
  | _ => True

instance (c : Nat) (s : LatencyNet) : ∀ move, Decidable (Prompt c s move)
  | .duplicate _ _ => .isFalse id
  | .deliver _ _ _ _ => inferInstanceAs (Decidable (PromptAt _ _ _ _))
  | .sendAll _ _ => inferInstanceAs (Decidable (_ → _))
  | .reset => .isTrue trivial
  | .setMask _ => .isTrue trivial
  | .drop _ _ => .isTrue trivial

variable {o : LatencyOptions} {s s' : LatencyNet} {move : LatencyMove} {c d k : Nat}

/-! ## 2. The port of the requests -/

/-- What port `c` asked, and the number that it asks next. -/
structure Asks (s : LatencyNet) (c : Nat) : Prop where
  mode : s.mgr.mode = .icmp lPktSubmodeReply
  consecutive : Consecutive (s.asked c)
  next : ∀ n ∈ (s.asked c).getLast?, (s.mgr.ports c).icmpTxSeq = n + 1

namespace Asks

theorem sendOne {io : Nat → Bool} {now : Nat → UInt64} (h : Asks s c) :
    Asks (sendOne o io now s k) c := by
  obtain heq | ⟨p', pkt, heq, hsends, -⟩ := sendOne_cases o io now s k
  · rwa [heq]
  rw [heq]
  obtain ⟨hmode, hcons, hnext⟩ := h
  refine ⟨hmode, ?_, ?_⟩
  · by_cases hk : c = k
    · subst hk
      have hseq : pkt.icmp.seqNum = (s.mgr.ports c).icmpTxSeq := by rw [hsends.icmp, hmode]; rfl
      simp only [post, update_self, hseq]
      refine isChain_append.mpr ⟨hcons, isChain_singleton _, ?_⟩
      intro n hn m hm
      cases hm
      exact hnext n hn
    · simp only [post, update_of_ne hk]
      exact hcons
  · by_cases hk : c = k
    · subst hk
      have hseq : pkt.icmp.seqNum = (s.mgr.ports c).icmpTxSeq := by rw [hsends.icmp, hmode]; rfl
      have htx : p'.icmpTxSeq = (s.mgr.ports c).icmpTxSeq +
        1 := by rw [hsends.icmpTxSeq, hmode]; rfl
      intro n hn
      simp only [post, update_self, List.getLast?_concat, Option.mem_some_iff] at hn
      simp only [post, CLatencyManager.setPort_self]
      rw [htx, ← hn, hseq]
    · simp only [post, update_of_ne hk, CLatencyManager.setPort_of_ne _ _ hk]
      exact hnext

theorem deliver (h : Asks s c) (hsound : s.Sound) {n : Nat} {f : Flight} (vlan : Bool) (ip : UInt32)
    (hget : (s.wire k)[n]? = some f)
    (hprompt : k = c → f.pkt.icmp.seqNum = 0 → (s.mgr.ports c).icmpTxSeq = 0) :
    Asks (arrive o k vlan ip f { s with wire := update s.wire k ((s.wire k).eraseIdx n) }) c := by
  have hears := hsound.hears (o := o) hget vlan ip
  obtain ⟨hmode, hcons, hnext⟩ := h
  refine ⟨hmode, hcons, ?_⟩
  by_cases hk : c = k
  · subst hk
    have hicmp := hears.icmp
    rw [hmode] at hicmp
    obtain ⟨-, htx⟩ := Prod.mk.injEq .. ▸ hicmp
    have hsame : (if f.pkt.icmp.seqNum = 0 then 0 else (s.mgr.ports c).icmpTxSeq) =
        (s.mgr.ports c).icmpTxSeq := by
      by_cases hzero : f.pkt.icmp.seqNum = 0
      · rw [if_pos hzero, hprompt rfl hzero]
      · rw [if_neg hzero]
    simp only [arrive, CLatencyManager.handleRxPkt_self, hmode]
    rw [htx, hsame]
    exact hnext
  · simp only [arrive, CLatencyManager.handleRxPkt_of_ne o _ _ hk]
    exact hnext

end Asks

/-! ## 3. The port of the replies -/

/-- What port `d` answered, and the requests that it may answer next: all that are between its two
numbers wait, unless it has just answered 65535. -/
structure Answers (s : LatencyNet) (d : Nat) : Prop where
  mode : s.mgr.mode = .icmp lPktSubmodeReply
  replies : ∀ n, (s.asked d).count n ≤ (s.heard d).count n
  waiting : Wrapped (s.mgr.ports d) ∨
    ∀ m ≤ (s.mgr.ports d).icmpRxSeq.toNat, (s.mgr.ports d).icmpTxSeq.toNat ≤ m →
      s.Waiting d (UInt16.ofNat m)

namespace Answers

/-- **A reply takes one request off.** -/
theorem reply (h : Answers s d) {io : Bool} {p' : CCPortLatency} {pkt : LatencyPkt}
    (hsends : Sends s.mgr.mode d (s.mgr.ports d) p' pkt)
    (hle : (s.mgr.ports d).icmpTxSeq ≤ (s.mgr.ports d).icmpRxSeq)
    (hnot : ¬ Wrapped (s.mgr.ports d)) :
    Answers (post d io pkt { s with mgr := s.mgr.setPort d p' }) d := by
  obtain ⟨hmode, hreplies, hwait⟩ := h
  have hwait := hwait.resolve_left hnot
  have hseq : pkt.icmp.seqNum = (s.mgr.ports d).icmpTxSeq := by rw [hsends.icmp, hmode]; rfl
  have htx : p'.icmpTxSeq = (s.mgr.ports d).icmpTxSeq + 1 := by rw [hsends.icmpTxSeq, hmode]; rfl
  have hrx : p'.icmpRxSeq = (s.mgr.ports d).icmpRxSeq := hsends.icmpRxSeq
  generalize (s.mgr.ports d).icmpTxSeq = tx at *
  generalize (s.mgr.ports d).icmpRxSeq = rx at *
  have hasked : (post d io pkt { s with mgr := s.mgr.setPort d p' }).asked d = s.asked d ++
      [tx] := by
    simp [post, hseq]
  have hother : ∀ n, n ≠ tx → (s.asked d ++ [tx]).count n = (s.asked d).count n := by
    intro n hn
    rw [count_append, count_singleton, if_neg (by simpa using hn.symm), Nat.add_zero]
  have hlt : s.Waiting d tx := by
    have := hwait tx.toNat (UInt16.le_iff_toNat_le.mp hle) le_rfl
    rwa [UInt16.ofNat_toNat] at this
  refine ⟨hmode, ?_, ?_⟩
  · intro n
    rw [hasked]
    by_cases hn : n = tx
    · subst hn
      rw [count_append, count_singleton_self]
      exact hlt
    · rw [hother n hn]
      exact hreplies n
  · simp only [post, CLatencyManager.setPort_self, Wrapped, hrx, htx, Waiting, update_self, hseq]
    by_cases hmax : tx.toNat = 65535
    · -- the next number is 0, and the last request has the largest one
      have htx' : tx = 65535 := UInt16.toNat_inj.mp hmax
      have hrx' : rx = 65535 := by
        apply UInt16.toNat_inj.mp
        have hle' := UInt16.le_iff_toNat_le.mp hle
        have hlt' := rx.toNat_lt
        have hval : (65535 : UInt16).toNat = 65535 := rfl
        omega
      subst htx' hrx'
      exact .inl ⟨rfl, rfl⟩
    · refine .inr fun m hm htxm => ?_
      have hsucc : (tx + 1).toNat = tx.toNat + 1 := by
        rw [UInt16.toNat_add]
        have hlt' := tx.toNat_lt
        have hone : (1 : UInt16).toNat = 1 := rfl
        omega
      rw [hsucc] at htxm
      have hne : UInt16.ofNat m ≠ tx := by
        intro heq
        have hval : (UInt16.ofNat m).toNat = m :=
          UInt16.toNat_ofNat_of_lt' (lt_of_le_of_lt hm rx.toNat_lt)
        rw [heq] at hval
        omega
      rw [hother _ hne]
      exact hwait m hm (by omega)

/-- A turn of a round. -/
theorem sendOne {io : Nat → Bool} {now : Nat → UInt64} (h : Answers s d) (hd : d % 2 = 1)
    (hmode : o.lPktMode = lPktSubmodeReply)
    (hnot : k = d → s.mgr.portMask &&& (1 <<< UInt32.ofNat d) ≠ 0 → ¬ Wrapped (s.mgr.ports d)) :
    Answers (sendOne o io now s k) d := by
  obtain heq | ⟨p', pkt, heq, hsends, hmask, hcan⟩ := sendOne_cases o io now s k
  · rwa [heq]
  rw [heq]
  by_cases hk : d = k
  · subst hk
    rw [canSendPacket, if_pos ⟨hmode, hd⟩] at hcan
    exact h.reply hsends (of_decide_eq_true hcan) (hnot rfl hmask)
  · obtain ⟨hm, hreplies, hwait⟩ := h
    refine ⟨hm, ?_, ?_⟩
    · simp only [post, update_of_ne hk]
      exact hreplies
    · simp only [post, CLatencyManager.setPort_of_ne _ _ hk, Waiting, update_of_ne hk]
      exact hwait

/-- **A request arrives.** -/
theorem deliver (h : Answers s d) (hsound : s.Sound) {n : Nat} {f : Flight} (vlan : Bool)
    (ip : UInt32) (hget : (s.wire k)[n]? = some f)
    (hprompt : k = d → ∀ m < f.pkt.icmp.seqNum.toNat, (s.mgr.ports d).icmpTxSeq.toNat ≤ m →
      s.Waiting d (UInt16.ofNat m)) :
    Answers (arrive o k vlan ip f { s with wire := update s.wire k ((s.wire k).eraseIdx n) })
        d := by
  have hears := hsound.hears (o := o) hget vlan ip
  obtain ⟨hmode, hreplies, hwait⟩ := h
  by_cases hk : d = k
  swap
  · refine ⟨hmode, ?_, ?_⟩
    · simp only [arrive, update_of_ne hk]
      exact hreplies
    · simp only [arrive, CLatencyManager.handleRxPkt_of_ne o _ _ hk, Waiting, update_of_ne hk]
      exact hwait
  subst hk
  obtain ⟨r, hr⟩ : ∃ r, f.pkt.icmp.seqNum = r := ⟨_, rfl⟩
  have hicmp := hears.icmp
  rw [hmode] at hicmp
  obtain ⟨hrx, htx⟩ := Prod.mk.injEq .. ▸ hicmp
  rw [hr] at hrx htx hprompt
  have hmore : ∀ q, (s.heard d).count q ≤ (s.heard d ++ [r]).count q :=
    fun q => Sublist.count_le q (sublist_append_left _ _)
  have hnew : (s.asked d).count r < (s.heard d ++ [r]).count r := by
    rw [count_append, count_singleton_self]
    exact Nat.lt_succ_of_le (hreplies r)
  refine ⟨hmode, ?_, .inr ?_⟩
  · intro q
    simp only [arrive, update_self, hr]
    exact (hreplies q).trans (hmore q)
  · simp only [arrive, CLatencyManager.handleRxPkt_self, hmode, Waiting, update_self, hr]
    rw [hrx, htx]
    intro m hm htxm
    -- the request itself waits, and those below it did so before
    by_cases hlast : m = r.toNat
    · rw [hlast, UInt16.ofNat_toNat]
      exact hnew
    · have hlt : m < r.toNat := lt_of_le_of_ne hm hlast
      have hne : r ≠ 0 := by
        rintro rfl
        exact absurd hlt (Nat.not_lt_zero m)
      rw [if_neg hne] at htxm
      exact (hprompt rfl m hlt htxm).trans_le (hmore _)

end Answers

/-! ## 4. Runs -/

/-- What every turn keeps, as long as a condition holds that the other turns keep until the turn of
`d`. -/
theorem foldl_once {σ : Type*} {P Q : σ → Prop} {f : σ → Nat → σ}
    (hP : ∀ t k, P t → (k = d → Q t) → P (f t k)) (hQ : ∀ t k, k ≠ d → Q t → Q (f t k)) :
    ∀ (l : List Nat) (t : σ), l.Nodup → P t → (d ∈ l → Q t) → P (l.foldl f t) := by
  intro l
  induction l with
  | nil => exact fun t _ ht _ => ht
  | cons k rest ih =>
    intro t hnd ht hq
    obtain ⟨hk, hrest⟩ := nodup_cons.mp hnd
    refine ih (f t k) hrest (hP t k ht fun heq => hq (heq ▸ mem_cons_self)) ?_
    intro hd
    have hne : k ≠ d := fun heq => hk (heq ▸ hd)
    exact hQ t k hne (hq (mem_cons_of_mem _ hd))

/-- A round in which the server port is not in between. -/
theorem Answers.sendPktAllPorts {io : Nat → Bool} {now : Nat → UInt64} (h : Answers s d)
    (hd : d % 2 = 1) (hmode : o.lPktMode = lPktSubmodeReply)
    (hnot : s.mgr.portMask &&& (1 <<< UInt32.ofNat d) ≠ 0 → ¬ Wrapped (s.mgr.ports d)) :
    Answers (s.sendPktAllPorts o io now) d := by
  refine foldl_once (P := fun t => Answers t d)
    (Q := fun t => t.mgr.portMask &&& (1 <<< UInt32.ofNat d) ≠ 0 → ¬ Wrapped (t.mgr.ports d))
    (fun t k ht hq => ht.sendOne hd hmode hq) ?_ _ s nodup_range h fun _ => hnot
  intro t k hk hq
  obtain heq | ⟨p', pkt, heq, -⟩ := sendOne_cases o io now t k
  · rwa [heq]
  · rw [heq]
    simp only [post, CLatencyManager.setPort_of_ne _ _ hk.symm]
    exact hq

/-- A reset does not touch the ICMP numbers. -/
theorem reset_icmp (mgr : CLatencyManager) (k : Nat) :
    (mgr.reset.ports k).icmpTxSeq = (mgr.ports k).icmpTxSeq ∧
      (mgr.reset.ports k).icmpRxSeq = (mgr.ports k).icmpRxSeq := by
  simp only [CLatencyManager.reset]
  split <;> exact ⟨rfl, rfl⟩

/-- The pair of the client port `c`. -/
structure PairOk (s : LatencyNet) (c : Nat) : Prop where
  sound : s.Sound
  asks : Asks s c
  answers : Answers s (c + 1)

/-- **A move that meets the condition keeps the pair.** -/
theorem PairOk.step (h : PairOk s c) (hc : c % 2 = 0) (hmode : o.lPktMode = lPktSubmodeReply)
    (hprompt : Prompt c s move) (hstep : s.step o move = some s') : PairOk s' c := by
  have hsound : s'.Sound := h.sound.step hstep
  obtain ⟨hs, hasks, hanswers⟩ := h
  obtain ⟨io, now, rfl, rfl⟩ | ⟨k, n, vlan, ip, f, rfl, hget, rfl⟩ | ⟨rfl, -, rfl⟩ | ⟨-, mask, wire,
      -, rfl⟩ :=
    step_cases hstep
  · have hround : Asks (s.sendPktAllPorts o io now) c :=
      sendPktAllPorts_induct (P := fun t => Asks t c) (fun _ _ => Asks.sendOne) hasks
    exact ⟨hsound, hround, hanswers.sendPktAllPorts (by omega) hmode hprompt⟩
  · have hat : PromptAt c s k (s.wire k)[n]? := hprompt
    rw [hget] at hat
    exact ⟨hsound, hasks.deliver hs vlan ip hget hat.1, hanswers.deliver hs vlan ip hget hat.2⟩
  · obtain ⟨htx, -⟩ := reset_icmp s.mgr c
    obtain ⟨htx', hrx'⟩ := reset_icmp s.mgr (c + 1)
    refine ⟨hsound, ⟨hasks.mode, hasks.consecutive, ?_⟩, hanswers.mode, hanswers.replies, ?_⟩
    · intro n hn
      exact htx.trans (hasks.next n hn)
    · simp only [Wrapped, htx', hrx']
      exact hanswers.waiting
  · exact ⟨hsound, ⟨hasks.mode, hasks.consecutive, hasks.next⟩, hanswers.mode, hanswers.replies,
      hanswers.waiting⟩

/-- Behind `Create` nothing was asked. -/
theorem PairOk.ofManager {cfg : CLatencyManagerCfg} {mgr : CLatencyManager}
    (hcreate : CLatencyManager.create o cfg = some mgr) (hmode : o.lPktMode = lPktSubmodeReply) :
    PairOk (ofManager mgr) c := by
  have hsound := Sound.ofManager hcreate
  unfold CLatencyManager.create at hcreate
  split at hcreate
  · cases hcreate
    have hicmp : CLatencyPktMode.ofOptions o = .icmp lPktSubmodeReply := by
      simp [CLatencyPktMode.ofOptions, hmode, lPktSubmodeReply]
    refine ⟨hsound, ⟨hicmp, isChain_nil, fun n hn => by cases hn⟩, hicmp, fun n => le_rfl, .inr ?_⟩
    intro m hm htx
    have hzero : m ≤ 0 := hm
    have hone : 1 ≤ m := htx
    omega
  · cases hcreate

/-- **The discipline of the replies**: in every run of the request and reply mode whose moves are
prompt, a server port sends a reply with a number at most once for each request with it that it got
before, and the requests of the client port carry consecutive numbers. -/
theorem reply_discipline {cfg : CLatencyManagerCfg} {mgr : CLatencyManager}
    (hcreate : CLatencyManager.create o cfg = some mgr) (hmode : o.lPktMode = lPktSubmodeReply)
    (hc : c % 2 = 0) (h : Reachable o (Prompt c) (ofManager mgr) s) : Disciplined s c := by
  have hok : PairOk s c :=
    h.induct (P := fun t => PairOk t c) (PairOk.ofManager hcreate hmode)
      fun _ _ _ ht hprompt hstep => ht.step hc hmode hprompt hstep
  exact ⟨hok.answers.replies, hok.asks.consecutive⟩

/-- The options of the request and reply mode. -/
def replyOptions : LatencyOptions := ⟨lPktSubmodeReply, false, false⟩

/-- A round in which the driver takes every packet. -/
def sendRound : LatencyMove := .sendAll (fun _ => true) (fun _ => 0)

/-- The theorem on two rounds, with a request that arrives in between, and the reply. -/
theorem reply_discipline_round : ∃ mgr s, CLatencyManager.create replyOptions pairCfg = some mgr ∧
    (ofManager mgr).run replyOptions (Prompt 0)
      [sendRound, .deliver 1 0 false 0x10000000, sendRound, .deliver 0 0 false 0x20000000] =
        some s ∧
    s.asked 1 = [1] ∧ Disciplined s 0 := by
  have hruns : ((CLatencyManager.create replyOptions pairCfg).any fun mgr =>
      ((ofManager mgr).run replyOptions (Prompt 0)
        [sendRound, .deliver 1 0 false 0x10000000, sendRound, .deliver 0 0 false 0x20000000]).any
          fun s => decide (s.asked 1 = [1])) = true := by
    decide +kernel
  obtain ⟨mgr, hcreate, hrun⟩ := (Option.any_eq_true _ _).mp hruns
  obtain ⟨s, hs, hasked⟩ := (Option.any_eq_true _ _).mp hrun
  exact ⟨mgr, s, hcreate, hs, of_decide_eq_true hasked,
    reply_discipline hcreate rfl rfl (reachable_run _ hs)⟩

/-- **A reply to a request that was lost**: request 1 is lost, request 2 arrives, and the server
port sends the reply 1. -/
theorem reply_discipline_lost :
    ¬ ∀ (o : LatencyOptions) (cfg : CLatencyManagerCfg) (mgr : CLatencyManager)
    (c : Nat) (s : LatencyNet), CLatencyManager.create o cfg = some mgr →
      o.lPktMode = lPktSubmodeReply →
    c % 2 = 0 → Reachable o (fun _ move => NoRepeat move) (ofManager mgr) s → Disciplined s c := by
  intro hall
  have hruns : ((CLatencyManager.create replyOptions pairCfg).any fun mgr =>
      ((ofManager mgr).run replyOptions (fun _ move => NoRepeat move)
        [sendRound, .drop 1 0, sendRound, .deliver 1 0 false 0x10000000, sendRound]).any
          fun s => decide (s.asked 1 = [1] ∧ s.heard 1 = [2])) = true := by
    decide +kernel
  obtain ⟨mgr, hcreate, hrun⟩ := (Option.any_eq_true _ _).mp hruns
  obtain ⟨s, hs, hobs⟩ := (Option.any_eq_true _ _).mp hrun
  obtain ⟨hasked, hheard⟩ := of_decide_eq_true hobs
  have hreplies := (hall _ _ mgr 0 s hcreate rfl rfl (reachable_run _ hs)).replies 1
  rw [hasked, hheard] at hreplies
  exact absurd hreplies (by decide)

end LatencyNet

end Trex.Lat
