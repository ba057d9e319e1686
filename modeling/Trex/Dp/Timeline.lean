/-
# The timeline of a chain of streams

The graph of the streams says when each burst of a chain starts (`burstStarts`), and a core sends
the bursts when the chain runs alone on it (`burstsOf`).  The two do not count alike.  A burst of
`n` packets ends for the graph a packet gap after its last packet, `n` gaps after its first one; a
core counts the gap of the next burst and of the next stream from the last packet itself, `n - 1`
gaps after the first one.  So the second burst of a chain never starts when the graph says, and the
two agree exactly when there is none (`timeline_agrees_iff`).
-/
import Trex.Dp.Solo
import Trex.Stream.Peak

namespace Trex.Dp

open Trex.Lib Trex.Stream TrexStreamsGraph TrexStatelessDpCore List

/-! ## 1. Bursts -/

/-- The streams of a chain by themselves: only the first one is started. -/
def alone : List TrexStream → List TrexStream
  | [] => []
  | root :: rest => root :: rest.map fun s => { s with selfStart := false }

/-- The starts of the bursts in the events of one walk: each one is followed by its stop, unless it
is the start of a continuous stream, which comes last. -/
def burstStarts : List RateEvent → List RateEvent
  | [] => []
  | [start] => [start]
  | start :: _ :: rest => start :: burstStarts rest

/-- The first packets of the bursts that a core sends: a continuous stream is one burst, which does
not end. -/
def burstsOf : List CGenNodeStateless → List CGenNodeStateless
  | [] => []
  | node :: rest =>
    if node.streamType = .stCONTINUOUS then [node]
    else if node.singleBurst = node.singleBurstRefill then node :: burstsOf rest
    else burstsOf rest

/-- A burst of the graph and a burst of the core: the same stream, which starts at the same time
after `curTimeSec`.  The core knows a stream by its place. -/
structure SameBurst (chain : List TrexStream) (curTimeSec : Rat) (ev : RateEvent)
    (node : CGenNodeStateless) :
    Prop where
  stream : ∃ info s, node.refStreamInfo = some info ∧ chain[info.streamId.toNat]? = some s
    ∧ s.streamId = ev.streamId
  time : node.time = curTimeSec + usecToSec ev.time

/-- **The events of a graph agree with what a core does**: every burst of the events is sent, and
whenever it is, it is of the same stream and starts at the same time. -/
structure Agrees (chain : List TrexStream) (events : List RateEvent) (curTimeSec : Rat)
    (c : TrexStatelessDpCore) : Prop where
  sent : ∀ m : Nat, m < (burstStarts events).length → ∃ log c', Undisturbed c log c' ∧
    m < (burstsOf log).length
  same : ∀ (m : Nat) (ev : RateEvent), (burstStarts events)[m]? = some ev →
    ∀ log c', Undisturbed c log c' →
    ∀ node : CGenNodeStateless, (burstsOf log)[m]? = some node → SameBurst chain curTimeSec ev node

/-- The chain has one burst at most, which is of its first stream. -/
def OneBurst : List TrexStream → Prop
  | [] => True
  | root :: rest => burstCount root ≤ 1 ∧ ∀ s ∈ rest, burstCount s = 0

/-! ## 2. The bursts of the graph -/

/-- The event at the start of a burst. -/
def startEvent (b : Span) : RateEvent := ⟨b.start, b.stream.pps, b.stream.getBps, b.stream.streamId⟩

theorem burstStarts_burstSpans (s : TrexStream) (events : List RateEvent) :
    ∀ (k : Nat) (offset delay : Rat),
    burstStarts ((burstSpans s k offset delay).flatMap Span.events ++ events)
      = (burstSpans s k offset delay).map startEvent ++ burstStarts events := by
  intro k
  induction k with
  | zero => exact fun _ _ => rfl
  | succ k ih =>
    intro offset delay
    have hrest := ih (offset + delay + s.getBurstLengthUsec) s.ibgUsec
    rw [burstSpans, flatMap_cons, map_cons, cons_append, ← hrest]
    rfl

/-- **The starts in the events of a chain are those of its bursts.** -/
theorem burstStarts_chainSpans : ∀ (chain : List TrexStream) (offset : Rat),
    burstStarts ((chainSpans offset chain).flatMap Span.events) =
        (chainSpans offset chain).map startEvent := by
  intro chain
  induction chain with
  | nil => exact fun _ => rfl
  | cons s rest ih =>
    intro offset
    unfold chainSpans
    split
    · rfl
    · rw [flatMap_append, map_append, burstStarts_burstSpans, ih]

theorem burstCount_continuous {s : TrexStream} (h : s.type = .stCONTINUOUS) : burstCount s = 1 := by
  unfold burstCount
  rw [if_neg (by rw [h]; decide)]

/-- Streams without bursts. -/
theorem chainSpans_eq_nil : ∀ {chain : List TrexStream} (offset : Rat),
    (∀ s ∈ chain, burstCount s = 0) →
    chainSpans offset chain = [] := by
  intro chain
  induction chain with
  | nil => exact fun _ _ => rfl
  | cons s rest ih =>
    intro offset h
    have hzero := h s mem_cons_self
    have hburst : s.type ≠ .stCONTINUOUS := by
      intro hcont
      rw [burstCount_continuous hcont] at hzero
      cases hzero
    rw [chainSpans, if_neg hburst, hzero]
    exact ih _ fun s' hs' => h s' (mem_cons_of_mem _ hs')

theorem chainSpans_ne_nil : ∀ {chain : List TrexStream} (offset : Rat),
    (∃ s ∈ chain, burstCount s ≠ 0) →
    chainSpans offset chain ≠ [] := by
  intro chain
  induction chain with
  | nil =>
    rintro _ ⟨s, hs, -⟩
    cases hs
  | cons s rest ih =>
    rintro offset ⟨x, hx, hcount⟩
    unfold chainSpans
    split
    · exact cons_ne_nil _ _
    · intro hnil
      obtain ⟨hburst, hrest⟩ := append_eq_nil_iff.mp hnil
      rcases mem_cons.mp hx with rfl | hx
      · obtain ⟨k, hk⟩ := Nat.exists_eq_succ_of_ne_zero hcount
        rw [hk] at hburst
        cases hburst
      · exact ih _ ⟨x, hx, hcount⟩ hrest

/-! ## 3. One burst of a core -/

theorem eq_one_of_countdown {x : UInt32} (h : countdown x = 1) : x = 1 := by
  unfold countdown at h
  split at h
  · cases h
  · exact UInt32.toNat_inj.mp h

variable {objs : List TrexStream} {base : Ptr} {first : Nat × CGenNodeStateless} {k : Nat}
  {node : CGenNodeStateless}

theorem handleMultiBurst_of_ne (h : node.singleBurst - 1 ≠ 0) : node.handleMultiBurst
    = { node with singleBurst := node.singleBurst - 1,
                  time := node.time + node.nextTimeOffset } := by
  unfold CGenNodeStateless.handleMultiBurst
  rw [if_pos (UInt32.pos_iff_ne_zero.mpr h)]

/-- **The packets of one burst**: the counter goes down, and every packet is a gap after the one
before. -/
theorem sends_burst : ∀ {m n : Nat} {node : CGenNodeStateless}, node.streamType ≠ .stCONTINUOUS →
    countdown node.singleBurst = m + 1 → sends objs base first n = some (k, node) →
      ∀ i ≤ m, ∃ single,
    sends objs base first (n + i)
        = some (k, { node with singleBurst := single, time := node.time + i * node.nextTimeOffset })
      ∧ countdown single + i = m + 1 := by
  intro m
  induction m with
  | zero =>
    intro n node _ hcount hn i hi
    obtain rfl : i = 0 := Nat.le_zero.mp hi
    refine ⟨node.singleBurst, ?_, hcount⟩
    rw [Nat.add_zero, hn, Nat.cast_zero, zero_mul, add_zero]
  | succ m ih =>
    intro n node htype hcount hn i hi
    cases i with
    | zero =>
      refine ⟨node.singleBurst, ?_, hcount⟩
      rw [Nat.add_zero, hn, Nat.cast_zero, zero_mul, add_zero]
    | succ i =>
      have hne : node.singleBurst - 1 ≠ 0 := by
        intro hzero
        rw [countdown_last hzero, countdown_one] at hcount
        omega
      have hcount' := countdown_sub_one hne
      have hnext : sends objs base first (n + 1) = some (k, { node with
          singleBurst := node.singleBurst - 1, time := node.time + node.nextTimeOffset }) := by
        rw [sends, hn, Option.bind_some, nextSend, if_neg htype, handleMultiBurst_of_ne hne]
        have hlast : node.isLastPacket = false := by
          unfold CGenNodeStateless.isLastPacket
          rw [decide_eq_false hne, Bool.false_and]
        simp [hlast]
      have hcount1 : countdown (node.singleBurst - 1) = m + 1 := by omega
      obtain ⟨single, hsend, hsingle⟩ := @ih (n + 1) { node with
        singleBurst := node.singleBurst - 1, time :=
          node.time + node.nextTimeOffset } htype hcount1 hnext i
        (by omega)
      refine ⟨single, ?_, by omega⟩
      rw [show n + (i + 1) = n + 1 + i by omega, hsend]
      congr 2
      push_cast
      simp only [CGenNodeStateless.mk.injEq, and_true]
      ring

/-- Packets that start no burst are skipped. -/
theorem burstsOf_append : ∀ {pre post : List CGenNodeStateless},
    (∀ node ∈ pre, node.streamType ≠ .stCONTINUOUS ∧ node.singleBurst ≠ node.singleBurstRefill) →
    burstsOf (pre ++ post) = burstsOf post := by
  intro pre
  induction pre with
  | nil => exact fun _ => rfl
  | cons node pre ih =>
    intro post h
    obtain ⟨htype, hsingle⟩ := h node mem_cons_self
    rw [cons_append, burstsOf, if_neg htype, if_neg hsingle]
    exact ih fun x hx => h x (mem_cons_of_mem _ hx)

/-- A packet that starts a burst. -/
theorem burstsOf_cons (rest : List CGenNodeStateless)
    (h : node.streamType ≠ .stCONTINUOUS → node.singleBurst = node.singleBurstRefill) :
    (burstsOf (node :: rest))[0]? = some node := by
  unfold burstsOf
  split
  · rfl
  · rename_i htype
    rw [if_pos (h htype)]
    rfl

/-! ## 4. The second burst of a core -/

/-- The number of bursts that the node of a stream counts down from. -/
def nodeBursts (s : TrexStream) : UInt32 := if s.type = .stMULTI_BURST then s.numBursts else 1

/-- The node of a burst stream at its start. -/
theorem linkedNode_burst {s : TrexStream} (h : s.type ≠ .stCONTINUOUS) (base : Ptr)
    (curTimeSec : Rat) :
    (linkedNode base curTimeSec s).singleBurst = s.burstTotalPkts
      ∧ (linkedNode base curTimeSec s).singleBurstRefill = s.burstTotalPkts
      ∧ (linkedNode base curTimeSec s).multiBursts = nodeBursts s
      ∧ (s.type = .stMULTI_BURST →
          (linkedNode base curTimeSec s).ibgSec = usecToSec s.ibgUsec) := by
  cases htype : s.type with
  | stCONTINUOUS => exact absurd htype h
  | stSINGLE_BURST => simp [linkedNode, newNode, nodeBursts, htype]
  | stMULTI_BURST => simp [linkedNode, newNode, nodeBursts, htype]

theorem linkedNode_time (base : Ptr) (curTimeSec : Rat) (s : TrexStream) :
    (linkedNode base curTimeSec s).time = curTimeSec + usecToSec s.isgUsec :=
      newNode_time curTimeSec s

theorem linkedNode_nextTimeOffset (base : Ptr) (curTimeSec : Rat) (s : TrexStream) :
    (linkedNode base curTimeSec s).nextTimeOffset = 1 / s.pps := by
  cases htype : s.type <;> simp [linkedNode, newNode, htype]

/-- A node that is woken starts a burst. -/
theorem wokenNode_starts (base : Ptr) (s : TrexStream) (curTime : Rat) :
    (wokenNode base s curTime).singleBurst = (wokenNode base s curTime).singleBurstRefill := rfl

theorem wokenNode_time (base : Ptr) (s : TrexStream) (curTime : Rat) :
    (wokenNode base s curTime).time = curTime + usecToSec s.isgUsec := rfl

/-- When the first burst of a stream that starts at `curTimeSec` sends its last packet. -/
def lastPacketTime (s : TrexStream) (curTimeSec : Rat) : Rat :=
  curTimeSec + usecToSec s.isgUsec + (countdown s.burstTotalPkts - 1 : Nat) * (1 / s.pps)

/-- What follows the first burst of the first stream: its second burst, or the next stream. -/
inductive Second (objs : List TrexStream) (base : Ptr) (e : TrexStream) (curTimeSec : Rat)
    (x : CGenNodeStateless) :
    Prop
  | burst : nodeBursts e - 1 ≠ 0 → x.refStreamInfo = some e.clone →
      x.time = lastPacketTime e curTimeSec + usecToSec e.ibgUsec → Second objs base e curTimeSec x
  | stream {next : TrexStream} : nodeBursts e - 1 = 0 → e.isDpNextStream = true →
      objs[e.nextStreamId.toInt.toNat]? = some next →
        x = wokenNode base next (lastPacketTime e curTimeSec) →
      Second objs base e curTimeSec x

variable {e : TrexStream} {curTimeSec : Rat}

/-- **The packet after the first burst starts another one.** -/
theorem sends_second (he : objs[0]? = some e) (hburst : e.type ≠ .stCONTINUOUS)
    {x : CGenNodeStateless}
    (hx : sends objs base (0, linkedNode base curTimeSec e) (countdown e.burstTotalPkts) =
      some (k, x)) :
    Second objs base e curTimeSec x ∧
        (x.streamType ≠ .stCONTINUOUS → x.singleBurst = x.singleBurstRefill) := by
  obtain ⟨hsingle, hrefill, hbursts, hibg⟩ := linkedNode_burst hburst base curTimeSec
  have htype : (linkedNode base curTimeSec e).streamType = .stMULTI_BURST := by
    rw [(nodeFor_linkedNode base curTimeSec e).streamType, if_neg hburst]
  obtain ⟨m, hm⟩ := Nat.exists_eq_succ_of_ne_zero (countdown_pos e.burstTotalPkts).ne'
  have hcount : countdown (linkedNode base curTimeSec e).singleBurst = m + 1 := by rw [hsingle, hm]
  have hne : (linkedNode base curTimeSec e).streamType ≠ .stCONTINUOUS := by
    rw [htype]
    decide
  obtain ⟨single, hlast, hone⟩ :=
    @sends_burst objs base (0, linkedNode base curTimeSec e) 0 m 0 _ hne hcount rfl m le_rfl
  obtain rfl := eq_one_of_countdown (show countdown single = 1 by omega)
  have htime : (linkedNode base curTimeSec e).time + m *
      (linkedNode base curTimeSec e).nextTimeOffset = lastPacketTime e curTimeSec := by
    rw [linkedNode_time, linkedNode_nextTimeOffset, lastPacketTime, hm, Nat.succ_sub_one]
  rw [hm, sends, ← Nat.zero_add m, hlast, Option.bind_some, htime] at hx
  unfold nextSend at hx
  rw [if_neg hne] at hx
  unfold CGenNodeStateless.isLastPacket at hx
  dsimp only at hx
  rw [show (1 : UInt32) - 1 = 0 from rfl, decide_eq_true rfl, Bool.true_and, hbursts] at hx
  by_cases hend : nodeBursts e - 1 = 0
  · rw [if_pos (decide_eq_true hend), he] at hx
    dsimp only at hx
    split at hx
    · rename_i hdp
      obtain ⟨next, hnext, heq⟩ := Option.map_eq_some_iff.mp hx
      cases heq
      exact ⟨.stream hend hdp hnext rfl, fun _ => wokenNode_starts base next _⟩
    · cases hx
  · rw [if_neg (by rw [decide_eq_false hend]; decide)] at hx
    have hmulti : e.type = .stMULTI_BURST := by
      by_contra hsingle
      rw [nodeBursts, if_neg hsingle] at hend
      exact hend rfl
    unfold CGenNodeStateless.handleMultiBurst at hx
    simp only at hx
    rw [if_neg (by decide), if_neg hend] at hx
    cases hx
    refine ⟨.burst hend (nodeFor_linkedNode base curTimeSec e).info ?_, fun _ => rfl⟩
    rw [← hibg hmulti]

/-- **The second burst of a run**, if it has one, is what follows the first. -/
theorem second_burst {obj : TrexStreamsCompiledObj} {c c' : TrexStatelessDpCore}
    (hlinks : LinksOk obj.objs) (he : obj.objs[0]? = some e) (hburst : e.type ≠ .stCONTINUOUS)
    (hsolo : Solo obj base c 0 (linkedNode base curTimeSec e)) {log : List CGenNodeStateless}
    (hrun : Undisturbed c log c') {x : CGenNodeStateless} (hx : (burstsOf log)[1]? = some x) :
    Second obj.objs base e curTimeSec x := by
  obtain ⟨hsingle, hrefill, -⟩ := linkedNode_burst hburst base curTimeSec
  obtain ⟨m, hm⟩ := Nat.exists_eq_succ_of_ne_zero (countdown_pos e.burstTotalPkts).ne'
  have hcount : countdown (linkedNode base curTimeSec e).singleBurst = m + 1 := by rw [hsingle, hm]
  have hne : (linkedNode base curTimeSec e).streamType ≠ .stCONTINUOUS := by
    rw [(nodeFor_linkedNode base curTimeSec e).streamType, if_neg hburst]
    decide
  have hlog : ∀ (n : Nat) (node : CGenNodeStateless), log[n]? = some node →
      ∃ k, sends obj.objs base (0, linkedNode base curTimeSec e) n = some (k, node) :=
    (Undisturbed.sends hlinks hsolo hrun).2
  cases log with
  | nil => simp [burstsOf] at hx
  | cons node rest =>
    -- the first packet, the others of the first burst, and what follows
    obtain ⟨k0, hfirst⟩ := hlog 0 node rfl
    cases hfirst
    have hskip : ∀ node ∈ rest.take m,
        node.streamType ≠ .stCONTINUOUS ∧ node.singleBurst ≠ node.singleBurstRefill := by
      intro node hnode
      obtain ⟨i, hi⟩ := List.getElem?_of_mem hnode
      have hlt : i < m := by
        have hlt := (List.getElem?_eq_some_iff.mp hi).1
        rw [length_take] at hlt
        omega
      rw [List.getElem?_take_of_lt hlt] at hi
      obtain ⟨k', hk'⟩ := hlog (i + 1) node hi
      obtain ⟨single, hsend, hlen⟩ :=
        @sends_burst obj.objs base (0, linkedNode base curTimeSec e) 0 m 0 _ hne
        hcount rfl (i + 1) hlt
      rw [Nat.zero_add, hk'] at hsend
      cases hsend
      refine ⟨hne, fun heq => ?_⟩
      have hfull : countdown single = m + 1 := by
        rw [← hcount, hsingle, ← hrefill]
        exact congrArg countdown heq
      omega
    have hdrop : burstsOf (rest.take m ++ rest.drop m) = burstsOf (rest.drop m) :=
      burstsOf_append hskip
    rw [take_append_drop] at hdrop
    rw [burstsOf, if_neg hne, if_pos (hsingle.trans hrefill.symm), hdrop, List.getElem?_cons_succ]
      at hx
    cases hpost : rest.drop m with
    | nil =>
      rw [hpost] at hx
      cases hx
    | cons y post =>
      have hy : (linkedNode base curTimeSec e :: rest)[countdown e.burstTotalPkts]? = some y := by
        have hhead := congrArg (fun l => l[0]?) hpost
        simpa [hm] using hhead
      obtain ⟨k', hk'⟩ := hlog _ y hy
      obtain ⟨hsecond, hstarts⟩ := sends_second he hburst hk'
      rw [hpost, burstsOf_cons post hstarts] at hx
      obtain rfl := Option.some.inj hx
      exact hsecond

/-! ## 5. The compiled chain -/

/-- What a core is told of a stream, but for the links and the VM. -/
structure ToldOf (s e : TrexStream) : Prop where
  type : e.type = s.type
  isg : e.isgUsec = s.isgUsec
  selfStart : e.selfStart = s.selfStart
  pps : e.pps = s.pps
  pkts : e.burstTotalPkts = s.burstTotalPkts
  bursts : e.numBursts = s.numBursts
  ibg : e.ibgUsec = s.ibgUsec

theorem enabledOf_alone {chain : List TrexStream} (h : ∀ s ∈ chain, s.enabled = true) :
    enabledOf (alone chain) = alone chain := by
  refine filter_eq_self.mpr fun s hs => ?_
  cases chain with
  | nil => cases hs
  | cons root rest =>
    rcases mem_cons.mp hs with rfl | hs
    · exact h _ mem_cons_self
    · obtain ⟨s', hs', rfl⟩ := mem_map.mp hs
      exact h s' (mem_cons_of_mem _ hs')

theorem alone_ids (chain : List TrexStream) :
    (alone chain).map TrexStream.streamId = chain.map TrexStream.streamId := by
  cases chain with
  | nil => rfl
  | cons root rest => simp [alone, Function.comp_def]

/-- With one core and factor 1, every stream keeps its rate and its burst. -/
theorem compileAll_one {rand : Nat → Nat → Nat} {portId : UInt8} {streams : List TrexStream}
    {obj : TrexStreamsCompiledObj} (h : compileAll rand portId streams 1 1 = .ok [obj]) {j : Nat}
    {s e : TrexStream} (hs : (enabledOf streams)[j]? = some s) (he : obj.objs[j]? = some e) :
    ToldOf s e ∧ EntryOf (enabledOf streams) j s e := by
  have hobj : [obj][0]? = some obj := rfl
  obtain ⟨-, -, -, hcore⟩ := compileAll_core h hobj
  obtain ⟨id, next, hsame⟩ := hcore j s e hs he
  have hentry := ((compileAll_entries h).2.2 obj mem_cons_self).2 j s e hs he
  have hpkts : burstShare s.burstTotalPkts (1 : UInt8).toNat 0 = s.burstTotalPkts := by
    have hone : UInt32.ofNat (1 : UInt8).toNat = 1 := rfl
    rw [burstShare, if_pos rfl, hone, UInt32.div_one, UInt32.mul_one, UInt32.sub_self,
      UInt32.add_zero]
  have hpps : s.pps * ((1 : Rat) / (1 : UInt8).toNat) = s.pps := by
    have hone : (1 : UInt8).toNat = 1 := rfl
    rw [hone, Nat.cast_one, div_one, mul_one]
  rw [hpkts, hpps] at hsame
  have htype := congrArg TrexStream.type hsame
  have hisg := congrArg TrexStream.isgUsec hsame
  have hself := congrArg TrexStream.selfStart hsame
  have hrate := congrArg TrexStream.pps hsame
  have htotal := congrArg TrexStream.burstTotalPkts hsame
  have hbursts := congrArg TrexStream.numBursts hsame
  have hibg := congrArg TrexStream.ibgUsec hsame
  exact ⟨⟨htype, hisg, hself, hrate, htotal, hbursts, hibg⟩, hentry⟩

/-! ## 6. The two timelines -/

/-- The node of a stream starts a burst. -/
theorem linkedNode_starts (h : (linkedNode base curTimeSec e).streamType ≠ .stCONTINUOUS) :
    (linkedNode base curTimeSec e).singleBurst =
        (linkedNode base curTimeSec e).singleBurstRefill := by
  rw [(nodeFor_linkedNode base curTimeSec e).streamType] at h
  split at h
  · exact absurd rfl h
  · rename_i hburst
    obtain ⟨hsingle, hrefill, -⟩ := linkedNode_burst hburst base curTimeSec
    exact hsingle.trans hrefill.symm

/-- **The first burst of a run** is that of the first stream. -/
theorem first_burst {obj : TrexStreamsCompiledObj} {c c' : TrexStatelessDpCore}
    (hlinks : LinksOk obj.objs) (hsolo : Solo obj base c 0 (linkedNode base curTimeSec e))
    {log : List CGenNodeStateless} (hrun : Undisturbed c log c') (hlen : 0 < log.length) :
    (burstsOf log)[0]? = some (linkedNode base curTimeSec e) := by
  have hlog : ∀ (n : Nat) (node : CGenNodeStateless), log[n]? = some node →
      ∃ k, sends obj.objs base (0, linkedNode base curTimeSec e) n = some (k, node) :=
    (Undisturbed.sends hlinks hsolo hrun).2
  cases log with
  | nil => exact absurd hlen (by decide)
  | cons node rest =>
    obtain ⟨k, hk⟩ := hlog 0 node rfl
    cases hk
    exact burstsOf_cons rest linkedNode_starts

/-- There is a run with a burst. -/
theorem exists_first_burst {obj : TrexStreamsCompiledObj} {c : TrexStatelessDpCore}
    (hlinks : LinksOk obj.objs) (hsolo : Solo obj base c 0 (linkedNode base curTimeSec e)) :
    ∃ log c', Undisturbed c log c' ∧ 0 < (burstsOf log).length := by
  have hfirst : sends obj.objs base (0, linkedNode base curTimeSec e) 0 =
    some (0, linkedNode base curTimeSec e) := rfl
  obtain ⟨log, c', hrun, hlen⟩ := Solo.exists_sends hlinks hsolo hfirst
  have hburst := first_burst hlinks hsolo hrun (by omega)
  exact ⟨log, c', hrun, (List.getElem?_eq_some_iff.mp hburst).1⟩

/-- **A burst ends for the graph one gap after its last packet.** -/
theorem countdown_ne_succ (x : UInt32) : countdown x ≠ x.toNat + 1 := by
  unfold countdown
  split
  · rename_i hx
    rw [hx]
    decide
  · omega

/-- So what follows the burst after `gap` is at another time in the graph. -/
theorem graph_late {s : TrexStream} (hrate : s.pps ≠ 0) (curTimeSec gap : Rat) :
    lastPacketTime s curTimeSec + usecToSec gap
      ≠ curTimeSec + usecToSec (0 + s.isgUsec + s.getBurstLengthUsec + gap) := by
  intro heq
  obtain ⟨m, hm⟩ := Nat.exists_eq_succ_of_ne_zero (countdown_pos s.burstTotalPkts).ne'
  rw [lastPacketTime, hm, Nat.succ_sub_one, TrexStream.getBurstLengthUsec, usecToSec, usecToSec,
    usecToSec] at heq
  have hpkts : (m : Rat) * (1 / s.pps) = s.burstTotalPkts.toNat * (1 / s.pps) := by
    have hlen : (s.burstTotalPkts.toNat : Rat) / s.pps = s.burstTotalPkts.toNat * (1 / s.pps) := by
      rw [mul_one_div]
    rw [hlen] at heq
    linarith
  have hcast : (m : Rat) = s.burstTotalPkts.toNat := mul_right_cancel₀ (one_div_ne_zero hrate) hpkts
  have hnat : m = s.burstTotalPkts.toNat := by exact_mod_cast hcast
  exact countdown_ne_succ s.burstTotalPkts (by rw [hm, hnat])

/-- **A chain runs alone on a core**: its streams were compiled without any other, and it is the
turn of the first one. -/
structure RunsAlone (root : TrexStream) (rest : List TrexStream) (obj : TrexStreamsCompiledObj)
    (base : Ptr) (c : TrexStatelessDpCore) (curTimeSec : Rat) : Prop where
  length : obj.objs.length = (root :: rest).length
  unique : ((root :: rest).map TrexStream.streamId).Nodup
  continuous : root.type = .stCONTINUOUS → rest = []
  next : ∀ s rest', rest = s :: rest' → s.streamId = root.nextKey
  links : LinksOk obj.objs
  entry : ∀ (j : Nat) (s e : TrexStream), (alone (root :: rest))[j]? = some s →
    obj.objs[j]? = some e → ToldOf s e ∧ EntryOf (alone (root :: rest)) j s e
  solo : ∃ e, obj.objs[0]? = some e ∧ Solo obj base c 0 (linkedNode base curTimeSec e)

variable {root : TrexStream} {rest : List TrexStream} {obj : TrexStreamsCompiledObj}
    {c : TrexStatelessDpCore}
  {events : List RateEvent}

theorem chainSpans_oneBurst (h : OneBurst (root :: rest)) : chainSpans 0 (root :: rest) = []
    ∨ ∃ stop, chainSpans 0 (root :: rest) = [⟨0 + root.isgUsec, stop, root⟩] := by
  obtain ⟨hroot, hrest⟩ := h
  unfold chainSpans
  split
  · exact Or.inr ⟨none, rfl⟩
  · rw [chainSpans_eq_nil _ hrest, append_nil]
    rcases Nat.le_one_iff_eq_zero_or_eq_one.mp hroot with hzero | hone
    · exact Or.inl (by rw [hzero]; rfl)
    · exact Or.inr ⟨_, by rw [hone]; rfl⟩

/-- A chain with one burst at most. -/
theorem RunsAlone.agrees (h : RunsAlone root rest obj base c curTimeSec)
    (hevents : events = (chainSpans 0 (root :: rest)).flatMap Span.events)
    (hone : OneBurst (root :: rest)) :
    Agrees (root :: rest) events curTimeSec c := by
  obtain ⟨e, he, hsolo⟩ := h.solo
  obtain ⟨htold, hentry⟩ := h.entry 0 root e rfl he
  have hstarts : burstStarts events = (chainSpans 0 (root :: rest)).map startEvent := by
    rw [hevents, burstStarts_chainSpans]
  rcases chainSpans_oneBurst hone with hnil | ⟨stop, hsingle⟩
  · rw [hnil, map_nil] at hstarts
    refine ⟨fun m hm => ?_, fun m ev hm => ?_⟩
    · rw [hstarts] at hm
      exact absurd hm (Nat.not_lt_zero m)
    · rw [hstarts] at hm
      cases hm
  · rw [hsingle, map_singleton] at hstarts
    refine ⟨fun m hm => ?_, fun m ev hm log c' hrun node hnode => ?_⟩
    · rw [hstarts, length_singleton] at hm
      obtain rfl : m = 0 := Nat.lt_one_iff.mp hm
      exact exists_first_burst h.links hsolo
    · rw [hstarts, List.getElem?_singleton] at hm
      split at hm
      · rename_i hzero
        subst hzero
        obtain rfl := Option.some.inj hm
        have hlen : 0 < log.length := by
          cases log with
          | nil => cases hnode
          | cons x log => exact Nat.succ_pos _
        rw [first_burst h.links hsolo hrun hlen] at hnode
        obtain rfl := Option.some.inj hnode
        refine ⟨⟨e.clone, root, (nodeFor_linkedNode base curTimeSec e).info, ?_, rfl⟩, ?_⟩
        · rw [show e.clone.streamId = e.streamId from rfl, hentry.id]
          rfl
        · rw [linkedNode_time, htold.isg, startEvent, zero_add]
      · cases hm

theorem exists_burst_of_not (hroot : burstCount root ≤ 1) (h : ¬ OneBurst (root :: rest)) :
    ∃ s ∈ rest, burstCount s ≠ 0 := by
  by_contra hnone
  exact h ⟨hroot, fun s hs => by_contra fun hne => hnone ⟨s, hs, hne⟩⟩

/-- A burst of the events is sent by some run. -/
theorem Agrees.burst {chain : List TrexStream} (h : Agrees chain events curTimeSec c) {m : Nat}
    {ev : RateEvent} (hev : (burstStarts events)[m]? = some ev) :
    ∃ log c' node, Undisturbed c log c'
      ∧ (burstsOf log)[m]? = some node ∧ SameBurst chain curTimeSec ev node := by
  obtain ⟨log, c', hrun, hlen⟩ := h.sent m (List.getElem?_eq_some_iff.mp hev).1
  have hnode := List.getElem?_eq_getElem hlen
  exact ⟨log, c', _, hrun, hnode, h.same m ev hev log c' hrun _ hnode⟩

theorem ToldOf.lastPacketTime_eq {s : TrexStream} (h : ToldOf s e) :
    lastPacketTime e curTimeSec = lastPacketTime s curTimeSec := by
  rw [lastPacketTime, lastPacketTime, h.isg, h.pkts, h.pps]

/-- The counts of the graph and of the node. -/
theorem ToldOf.nodeBursts_eq {s : TrexStream} (h : ToldOf s e) :
    (nodeBursts e).toNat = burstCount s := by
  rw [nodeBursts, burstCount, h.type, h.bursts]
  split <;> rfl

/-- The first burst of the other streams, as the graph has it, if it is of the second stream. -/
theorem chainSpans_second {s : TrexStream} {offset : Rat} {b : Span} {spans : List Span}
    (hunique : ((s :: rest).map TrexStream.streamId).Nodup)
    (h : chainSpans offset (s :: rest) = b :: spans) (hid : b.stream.streamId = s.streamId) :
    b.start = offset + s.isgUsec := by
  unfold chainSpans at h
  split at h
  · cases h
    rfl
  · cases hcount : burstCount s with
    | zero =>
      rw [hcount] at h
      have hmem : b ∈ chainSpans (burstsEnd s 0 offset s.isgUsec) rest := by
        rw [show chainSpans (burstsEnd s 0 offset s.isgUsec) rest = b :: spans from h]
        exact mem_cons_self
      have hin := mem_map_of_mem (f := TrexStream.streamId) (mem_chainSpans hmem).1
      rw [hid] at hin
      exact absurd hin (nodup_cons.mp hunique).1
    | succ k =>
      rw [hcount] at h
      cases h
      rfl

/-- The link of the first stream leads to the second one. -/
theorem RunsAlone.link {s : TrexStream} {rest' : List TrexStream}
    (h : RunsAlone root (s :: rest') obj base c curTimeSec) (he : obj.objs[0]? = some e)
    (hdp : e.isDpNextStream = true) : e.nextStreamId.toInt.toNat = 1 := by
  obtain ⟨-, hentry⟩ := h.entry 0 root e rfl he
  rcases hentry.next with ⟨-, hv⟩ | ⟨-, j, s', hj, hkey, hv⟩
  · have hnonneg := (isDpNextStream_iff e).mp hdp
    rw [hv] at hnonneg
    exact absurd hnonneg (by decide)
  · have hids := alone_ids (root :: s :: rest')
    have hnodup : ((alone (root :: s :: rest')).map TrexStream.streamId).Nodup := hids ▸ h.unique
    have hlt : j < (alone (root :: s :: rest')).length := (List.getElem?_eq_some_iff.mp hj).1
    have hlen : (alone (root :: s :: rest')).length = obj.objs.length := by
      rw [h.length, ← length_map (f := TrexStream.streamId), hids, length_map]
    have hsmall := (h.entry j s' _ hj (List.getElem?_eq_getElem (hlen ▸ hlt))).2.small
    have hone : j = 1 := by
      have hsecond : (alone (root :: s :: rest'))[1]? = some { s with selfStart := false } := rfl
      refine (List.getElem?_inj (by rw [length_map]; exact hlt) hnodup).mp ?_
      rw [List.getElem?_map, List.getElem?_map, hj, hsecond, Option.map_some, Option.map_some, hkey]
      exact congrArg some (h.next s rest' rfl).symm
    rw [hv, Int32.toInt_ofNat_of_lt hsmall, hone]
    rfl

/-- **The second burst of the events is not that of the core.**  It is the second one of the first
stream, or the first one of another stream. -/
theorem RunsAlone.not_agrees (h : RunsAlone root rest obj base c curTimeSec) (hrate : root.pps ≠ 0)
    (hcont : root.type ≠ .stCONTINUOUS) {b : Span}
    (hev : (burstStarts events)[1]? = some (startEvent b))
    (hsecond : (2 ≤ burstCount root ∧
      b.start = 0 + root.isgUsec + root.getBurstLengthUsec + root.ibgUsec)
      ∨ (burstCount root = 1 ∧ ∃ s rest', rest = s :: rest' ∧ (b.stream.streamId = s.streamId →
        b.start = 0 + root.isgUsec + root.getBurstLengthUsec + s.isgUsec))) :
    ¬ Agrees (root :: rest) events curTimeSec c := by
  intro hagrees
  obtain ⟨e, he, hsolo⟩ := h.solo
  obtain ⟨htold, hentry⟩ := h.entry 0 root e rfl he
  have hcount := htold.nodeBursts_eq
  obtain ⟨log, c', x, hrun, hx, hsame⟩ := hagrees.burst hev
  have htime := hsame.time
  cases second_burst h.links he (htold.type ▸ hcont) hsolo hrun hx with
  | burst hne hinfo hsent =>
    rcases hsecond with ⟨-, hstart⟩ | ⟨hone, -⟩
    · rw [hsent, htold.lastPacketTime_eq, htold.ibg] at htime
      refine graph_late hrate curTimeSec root.ibgUsec (htime.trans ?_)
      rw [startEvent, hstart]
    · refine absurd ?_ hne
      obtain hx : nodeBursts e = 1 := UInt32.toNat_inj.mp (hcount.trans hone)
      rw [hx]
      rfl
  | stream hend hdp hnext hwoken =>
    rename_i next
    rcases hsecond with ⟨htwo, -⟩ | ⟨-, s, rest', rfl, hstart⟩
    · rw [countdown_last hend] at hcount
      rw [← hcount] at htwo
      exact absurd htwo (by decide)
    · rw [h.link he hdp] at hnext
      have hs : (alone (root :: s :: rest'))[1]? = some { s with selfStart := false } := rfl
      obtain ⟨htold', hentry'⟩ := h.entry 1 _ next hs hnext
      obtain ⟨info, s', hinfo, hs', hid⟩ := hsame.stream
      rw [hwoken, (nodeFor_wokenNode base next _).info] at hinfo
      obtain rfl := Option.some.inj hinfo
      rw [show next.clone.streamId = next.streamId from rfl, hentry'.id] at hs'
      obtain rfl : s = s' := by simpa using hs'
      rw [hwoken, wokenNode_time, htold.lastPacketTime_eq, show next.isgUsec = s.isgUsec
        from htold'.isg] at htime
      refine graph_late hrate curTimeSec s.isgUsec (htime.trans ?_)
      rw [startEvent, hstart hid.symm]

/-- A chain whose timelines agree. -/
theorem RunsAlone.oneBurst (h : RunsAlone root rest obj base c curTimeSec) (hrate : root.pps ≠ 0)
    (hevents : events = (chainSpans 0 (root :: rest)).flatMap Span.events)
    (hagrees : Agrees (root :: rest) events curTimeSec c) : OneBurst (root :: rest) := by
  obtain ⟨e, he, hsolo⟩ := h.solo
  obtain ⟨-, hentry⟩ := h.entry 0 root e rfl he
  have hstarts : burstStarts events = (chainSpans 0 (root :: rest)).map startEvent := by
    rw [hevents, burstStarts_chainSpans]
  by_cases hcont : root.type = .stCONTINUOUS
  · rw [h.continuous hcont]
    exact ⟨(burstCount_continuous hcont).le, fun s hs => by cases hs⟩
  rw [chainSpans, if_neg hcont] at hstarts
  by_contra hnot
  have hcases : burstCount root = 0 ∨ burstCount root = 1 ∨ ∃ k, burstCount root = k + 2 := by
    rcases burstCount root with _ | _ | k
    · exact Or.inl rfl
    · exact Or.inr (Or.inl rfl)
    · exact Or.inr (Or.inr ⟨k, rfl⟩)
  rcases hcases with hcount | hcount | ⟨k, hcount⟩
  · -- the first burst of the events is not of the first stream, the first burst of the core is
    rw [hcount] at hstarts
    have hne := chainSpans_ne_nil (burstsEnd root 0 0 root.isgUsec)
      (exists_burst_of_not (by omega) hnot)
    obtain ⟨b, spans, hspans⟩ := exists_cons_of_ne_nil hne
    have hev : (burstStarts events)[0]? = some (startEvent b) := by
      rw [hstarts, hspans]
      rfl
    obtain ⟨log, c', x, hrun, hx, hsame⟩ := hagrees.burst hev
    have hlen : 0 < log.length := by
      cases log with
      | nil => cases hx
      | cons x log => exact Nat.succ_pos _
    rw [first_burst h.links hsolo hrun hlen] at hx
    obtain rfl := Option.some.inj hx
    obtain ⟨info, s, hinfo, hs, hid⟩ := hsame.stream
    rw [(nodeFor_linkedNode base curTimeSec e).info] at hinfo
    obtain rfl := Option.some.inj hinfo
    rw [show e.clone.streamId = e.streamId from rfl, hentry.id] at hs
    obtain rfl : root = s := by simpa using hs
    have hb : b ∈ chainSpans (burstsEnd root 0 0 root.isgUsec) rest := by
      rw [hspans]
      exact mem_cons_self
    have hin := mem_map_of_mem (f := TrexStream.streamId) (mem_chainSpans hb).1
    rw [show b.stream.streamId = root.streamId from hid.symm] at hin
    exact (nodup_cons.mp h.unique).1 hin
  · rw [hcount] at hstarts
    obtain ⟨x, hx, hburst⟩ := exists_burst_of_not (by omega) hnot
    have hne := chainSpans_ne_nil (burstsEnd root 1 0 root.isgUsec) ⟨x, hx, hburst⟩
    obtain ⟨b, spans, hspans⟩ := exists_cons_of_ne_nil hne
    rw [hspans] at hstarts
    have hev : (burstStarts events)[1]? = some (startEvent b) := by
      rw [hstarts]
      rfl
    refine h.not_agrees hrate hcont hev (Or.inr ⟨hcount, ?_⟩) hagrees
    cases rest with
    | nil => cases hx
    | cons s rest' => exact ⟨s, rest', rfl, chainSpans_second (nodup_cons.mp h.unique).2 hspans⟩
  · rw [hcount] at hstarts
    let stop := 0 + root.isgUsec + root.getBurstLengthUsec
    have hev : (burstStarts events)[1]?
        = some (startEvent ⟨stop + root.ibgUsec,
            some (stop + root.ibgUsec + root.getBurstLengthUsec), root⟩) := by
      rw [hstarts]
      rfl
    exact h.not_agrees hrate hcont hev (Or.inl ⟨by omega, rfl⟩) hagrees

/-! ## 7. A chain of an accepted list -/

theorem chain_rest {hash : List TrexStream} {fuel : Nat} {loopHash : List UInt32}
    {streamId : UInt32} (h : chain hash fuel loopHash streamId = root :: rest) :
    (root.nextStreamId = -1 → rest = [])
      ∧ ∀ s rest', rest = s :: rest' → s.streamId = root.nextKey := by
  cases fuel with
  | zero => cases h
  | succ fuel =>
    unfold chain at h
    split at h
    · cases h
    · split at h
      · cases h
        exact ⟨fun _ => rfl, fun s rest' hrest => nomatch hrest⟩
      · rename_i hmore
        cases h
        refine ⟨fun hend => absurd (Or.inl hend) hmore, fun s rest' hrest => ?_⟩
        cases fuel with
        | zero => cases hrest
        | succ fuel =>
          unfold chain at hrest
          split at hrest
          · cases hrest
          · rename_i s' hat
            have hid : s'.streamId = root.nextStreamId.toUInt32 := by
              simpa using List.find?_some hat
            split at hrest
            · cases hrest
              exact hid
            · cases hrest
              exact hid

variable {rand : Nat → Nat →
    Nat} {portId : UInt8} {streams : List TrexStream} {c' : TrexStatelessDpCore}
  {duration : Rat} {eventId : Int}

/-- **The chain of a stream that starts by itself, compiled without the others and started on a core
where nothing is scheduled.** -/
theorem exists_runsAlone (hwell : WellFormed (enabledOf streams)) (hroot : root ∈ enabledOf streams)
    (hself : root.selfStart = true)
    (hcompile : compileAll rand portId (alone (rootChain streams root)) 1 1 = .ok [obj])
    (hreach : c.Reachable) (hidle : c.phase = .idleLoop) (hqueue : c.queue = [])
    (hduration : duration ≤ 0) (hstart : c.step (.msg (.start obj duration eventId)) = .ok c') :
    ∃ rest, rootChain streams root = root :: rest ∧
        RunsAlone root rest obj c.fresh c' c.curTimeSec := by
  obtain ⟨rest, hchain⟩ := rootChain_eq_cons hwell.unique hroot
  have henabled : ∀ s ∈ root :: rest, s.enabled = true := by
    intro s hs
    rw [← hchain] at hs
    exact (mem_filter.mp (mem_streamsHash.mp (mem_chain hs))).2
  rw [hchain] at hcompile
  have hentries := compileAll_entries hcompile
  have hone := fun (j : Nat) (s e : TrexStream) => @compileAll_one rand portId _ obj hcompile j s e
  rw [enabledOf_alone henabled] at hentries hone
  obtain ⟨hwell', -, hobjs⟩ := hentries
  have hids := alone_ids (root :: rest)
  have hlen : obj.objs.length = (root :: rest).length := by
    rw [(hobjs obj mem_cons_self).1, ← length_map (f := TrexStream.streamId), hids, length_map]
  obtain ⟨hend, hnext⟩ := chain_rest hchain
  cases hobj : obj.objs with
  | nil =>
    rw [hobj] at hlen
    cases hlen
  | cons e es =>
    have he : obj.objs[0]? = some e := by
      rw [hobj]
      rfl
    have hes : ∀ e' ∈ es, e'.selfStart = false := by
      intro e' he'
      obtain ⟨j, hj⟩ := List.getElem?_of_mem he'
      have hj' : obj.objs[j + 1]? = some e' := by
        rw [hobj]
        exact hj
      have hlt : j < rest.length := by
        have := (List.getElem?_eq_some_iff.mp hj').1
        rw [hlen, length_cons] at this
        omega
      have hs : (alone (root :: rest))[j + 1]? = some { rest[j] with selfStart := false } := by
        simp [alone, List.getElem?_eq_getElem hlt]
      exact (hone (j + 1) _ e' hs hj').1.selfStart
    obtain ⟨hinv, hcommands⟩ := hreach.inv
    have hfirst : e.selfStart = true := (hone 0 root e rfl he).1.selfStart.trans hself
    obtain ⟨hlinks, hsolo⟩ :=
      startTraffic_solo hobj hfirst hes hinv hcommands hidle hqueue hduration hstart
    refine ⟨rest, hchain, hlen, hids ▸ hwell'.unique, fun hcont => hend ?_, hnext, hlinks, hone, e,
      he, hsolo⟩
    exact hwell.continuous root hroot hcont

/-- The events of the walk from a root are those of its chain. -/
theorem rateEvents_eq {graph : TrexStreamsGraphObj} (hwell : WellFormed (enabledOf streams))
    (hchain : rootChain streams root = root :: rest)
    (hgraph : generateGraphForOneRoot (streamsHash streams) ((streamsHash streams).length + 1) []
      root.streamId 0 {}
      = .ok graph) : graph.rateEvents = (chainSpans 0 (root :: rest)).flatMap Span.events := by
  have hcont : ∀ s ∈ streamsHash streams, s.type = .stCONTINUOUS → s.nextStreamId = -1 :=
    fun s hs => hwell.continuous s (mem_streamsHash.mp hs)
  rw [generateGraphForOneRoot_events hcont hgraph, ← hchain]
  rfl

/-- **The graph agrees with the data plane exactly when the chain has one burst at most.**  The
chain of a stream that starts by itself is compiled without the other streams for one core with
factor 1, and started on a core where nothing is scheduled. -/
theorem timeline_agrees_iff (rand : Nat → Nat → Nat) (portId : UInt8) (streams : List TrexStream)
    (nodes : GraphNodeMap) (warnings : List String) (root : TrexStream)
    (graph : TrexStreamsGraphObj) (obj : TrexStreamsCompiledObj) (c c' : TrexStatelessDpCore)
    (duration : Rat) (eventId : Int) (haccepted : preCompileCheck streams = .ok (nodes, warnings))
    (hroot : root ∈ enabledOf streams) (hself : root.selfStart = true) (hrate : root.pps ≠ 0)
    (hgraph : generateGraphForOneRoot (streamsHash streams) ((streamsHash streams).length + 1) []
      root.streamId 0 {} = .ok graph)
    (hcompile : compileAll rand portId (alone (rootChain streams root)) 1 1 = .ok [obj])
    (hreach : c.Reachable) (hidle : c.phase = .idleLoop) (hqueue : c.queue = [])
    (hduration : duration ≤ 0) (hstart : c.step (.msg (.start obj duration eventId)) = .ok c') :
    Agrees (rootChain streams root) graph.rateEvents c.curTimeSec c' ↔
        OneBurst (rootChain streams root) := by
  have hwell := (accepted haccepted).2.1
  obtain ⟨rest, hchain, halone⟩ :=
    exists_runsAlone hwell hroot hself hcompile hreach hidle hqueue hduration hstart
  have hevents := rateEvents_eq hwell hchain hgraph
  rw [hchain]
  exact ⟨halone.oneBurst hrate hevents, halone.agrees hevents⟩

/-- A burst of one packet, at one packet per second: both timelines start it at once. -/
theorem timeline_agrees_iff_oneSecond : ∃ graph c',
    generateGraphForOneRoot (streamsHash [oneSecond]) 2 [] 1 0 {} = .ok graph
    ∧ burstStarts graph.rateEvents = [⟨0, 1, 512, 1⟩]
    ∧ Agrees (rootChain [oneSecond] oneSecond) graph.rateEvents 0 c' := by
  obtain ⟨graph, hgraph, hstarts⟩ : ∃ graph,
      generateGraphForOneRoot (streamsHash [oneSecond]) 2 [] 1 0 {} = .ok graph
      ∧ burstStarts graph.rateEvents = [⟨0, 1, 512, 1⟩] := ⟨_, rfl, by decide +kernel⟩
  obtain ⟨obj, c', hcompile, hstart⟩ : ∃ obj c',
      compileAll (fun _ _ => 1) 0 (alone (rootChain [oneSecond] oneSecond)) 1 1 = .ok [obj]
      ∧ freshCore.step (.msg (.start obj 0 0)) = .ok c' := ⟨_, _, rfl, rfl⟩
  have haccepted : preCompileCheck [oneSecond] = .ok ([⟨oneSecond, 0⟩], []) := by decide +kernel
  have hrate : oneSecond.pps ≠ 0 := by decide +kernel
  have hone : OneBurst (rootChain [oneSecond] oneSecond) :=
    ⟨by decide +kernel, fun s hs => nomatch hs⟩
  have hiff := timeline_agrees_iff _ 0 [oneSecond] _ _ oneSecond graph obj freshCore c' 0 0
    haccepted
    mem_cons_self rfl hrate hgraph hcompile (.init freshCore_initial) rfl rfl le_rfl hstart
  exact ⟨graph, c', hgraph, hstarts, hiff.mpr hone⟩

/-- A burst of one packet that leads to another burst of one packet. -/
def oneThenOne : List TrexStream :=
  [{ oneSecond with nextStreamId := 2 }, { oneSecond with streamId := 2, selfStart := false }]

/-- **The second stream starts a second later in the graph** than on the core, which sends its
packet at once. -/
theorem timeline_disagrees : ∃ graph obj c',
    (∃ nodes warnings, preCompileCheck oneThenOne = .ok (nodes, warnings))
      ∧ generateGraphForOneRoot (streamsHash oneThenOne) 3 [] 1 0 {} = .ok graph
      ∧ compileAll (fun _ _ =>
        1) 0 (alone (rootChain oneThenOne { oneSecond with nextStreamId := 2 })) 1 1 = .ok [obj]
      ∧ freshCore.step (.msg (.start obj 0 0)) = .ok c'
      ∧ (burstStarts graph.rateEvents).map RateEvent.time = [0, 1000000]
      ∧ (∃ log c'', Undisturbed c' log c'' ∧ (burstsOf log).map CGenNodeStateless.time = [0, 0])
      ∧ ¬ Agrees (rootChain oneThenOne { oneSecond with nextStreamId := 2 }) graph.rateEvents 0
          c' := by
  obtain ⟨graph, hgraph, hstarts⟩ : ∃ graph,
      generateGraphForOneRoot (streamsHash oneThenOne) 3 [] 1 0 {} = .ok graph
      ∧ (burstStarts graph.rateEvents).map RateEvent.time = [0, 1000000] :=
        ⟨_, rfl, by decide +kernel⟩
  obtain ⟨obj, c', hcompile, hstart, c1, hidle, h1, c2, hfirst, h2, c3, hsecond, h3, htimes⟩ :
      ∃ obj c',
      compileAll (fun _ _ => 1) 0
        (alone (rootChain oneThenOne { oneSecond with nextStreamId := 2 })) 1 1 = .ok [obj]
      ∧ freshCore.step (.msg (.start obj 0 0)) = .ok c'
      ∧ ∃ c1, c'.Enabled .leaveIdle ∧ c'.step .leaveIdle = .ok c1
      ∧ ∃ c2, c1.Enabled (.pop 1) ∧ c1.step (.pop 1) = .ok c2
      ∧ ∃ c3, c2.Enabled (.pop 0) ∧ c2.step (.pop 0) = .ok c3
      ∧ (burstsOf ((c1.sender? (.pop 1)).toList ++ (c2.sender? (.pop 0)).toList)).map
          CGenNodeStateless.time = [0, 0] :=
    ⟨_, _, rfl, rfl, _, by decide +kernel, rfl, _, by decide +kernel, rfl, _, by decide +kernel,
      rfl, by decide +kernel⟩
  have haccepted : ∃ nodes warnings, preCompileCheck oneThenOne = .ok (nodes, warnings) :=
    ⟨[⟨{ oneSecond with nextStreamId := 2 }, 0⟩,
      ⟨{ oneSecond with streamId := 2, selfStart := false }, 1⟩], _, rfl⟩
  refine ⟨graph, obj, c', haccepted, hgraph, hcompile, hstart, hstarts, ?_, ?_⟩
  · have hrun := ((Undisturbed.one hidle trivial h1).trans (.one hfirst trivial h2)).trans
      (.one hsecond trivial h3)
    exact ⟨_, c3, hrun, htimes⟩
  · obtain ⟨nodes, warnings, haccepted⟩ := haccepted
    have hwell := (accepted haccepted).2.1
    obtain ⟨rest, hchain, halone⟩ :=
      exists_runsAlone hwell mem_cons_self rfl hcompile (.init freshCore_initial)
      rfl rfl le_rfl hstart
    have hevents := rateEvents_eq hwell hchain hgraph
    rw [hchain]
    intro hagrees
    have hone := halone.oneBurst (by decide +kernel) hevents hagrees
    have hlist : rootChain oneThenOne { oneSecond with nextStreamId := 2 } = oneThenOne := rfl
    obtain rfl : rest = [{ oneSecond with streamId := 2, selfStart := false }] :=
      (List.cons.inj (hchain.symm.trans hlist)).2
    have hzero := hone.2 _ mem_cons_self
    exact absurd hzero (by decide)

end Trex.Dp
