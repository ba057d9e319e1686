/-
# The peak rate of a graph

What the graph is for: one pass over the chain of every stream that starts by itself gives the
intervals in which its bursts are sent (`rootSpans`), and the peak rate is the greatest sum of the
rates of the intervals that hold at one time.

The graph has an event for the start and one for the stop of every interval (`generate_events`), and
sweeps over them in the order of their times.  Events of the same time stay in the order in which
they were made, so a start may be counted before a stop of the same time.  The sweep finds the
greatest sum exactly when that does no harm (`peak_rate_iff`).
-/
import Mathlib.Tactic.Linarith
import Mathlib.Tactic.Positivity
import Trex.Lib.Sweep
import Trex.Stream.Graph
import Trex.Stream.WellFormed

namespace Trex.Stream

open Trex.Lib List

/-! ## 1. The intervals -/

/-- What is measured. -/
inductive RateKind
  | pps
  | bps
deriving DecidableEq, Repr

/-- The rate of a stream. -/
def TrexStream.rate (s : TrexStream) : RateKind → Rat
  | .pps => s.pps
  | .bps => s.getBps

/-- How much an event changes the rate. -/
def RateEvent.diff (kind : RateKind) (ev : RateEvent) : Rat :=
  match kind with
  | .pps => ev.diffPps
  | .bps => ev.diffBps

/-- The peak rate of a graph. -/
def TrexStreamsGraphObj.maxRate (obj : TrexStreamsGraphObj) : RateKind → Rat
  | .pps => obj.maxPps
  | .bps => obj.maxBps

/-- A burst of a stream, from its start up to its stop; a continuous stream does not stop. -/
structure Span where
  start : Rat
  stop : Option Rat
  stream : TrexStream

namespace Span

/-- The burst is being sent. -/
def Active (t : Rat) (b : Span) : Prop := b.start ≤ t ∧ ∀ stop, b.stop = some stop → t < stop

/-- The burst is being sent right before a time. -/
def ActiveBefore (t : Rat) (b : Span) : Prop := b.start < t ∧ ∀ stop, b.stop = some stop → t ≤ stop

instance (t : Rat) (b : Span) : Decidable (b.Active t) :=
  inferInstanceAs (Decidable (_ ∧ ∀ stop ∈ b.stop, t < stop))

instance (t : Rat) (b : Span) : Decidable (b.ActiveBefore t) :=
  inferInstanceAs (Decidable (_ ∧ ∀ stop ∈ b.stop, t ≤ stop))

/-- How the burst changes the rate at a time: it starts, it stops, or it does both. -/
def changesAt (kind : RateKind) (t : Rat) (b : Span) : List Rat :=
  (if b.start = t then [b.stream.rate kind] else [])
    ++ if b.stop = some t then [-b.stream.rate kind] else []

/-- The events of a burst. -/
def events (b : Span) : List RateEvent :=
  ⟨b.start, b.stream.pps, b.stream.getBps, b.stream.streamId⟩
    :: b.stop.toList.map fun stop => ⟨stop, -b.stream.pps, -b.stream.getBps, b.stream.streamId⟩

end Span

/-- The rate at a time: the sum of the rates of the bursts that are being sent. -/
def spansRate (kind : RateKind) (spans : List Span) (t : Rat) : Rat :=
  ((spans.filter fun b => b.Active t).map fun b => b.stream.rate kind).sum

/-- The rate right before a time. -/
def spansRateBefore (kind : RateKind) (spans : List Span) (t : Rat) : Rat :=
  ((spans.filter fun b => b.ActiveBefore t).map fun b => b.stream.rate kind).sum

/-- **What a sweep counts too much**: at some time the first changes, in the order of the bursts,
lift the rate above all the rates that hold at a time. -/
def Overshoots (kind : RateKind) (spans : List Span) : Prop :=
  ∃ t j, ∀ t', spansRate kind spans t'
    < spansRateBefore kind spans t + ((spans.flatMap (Span.changesAt kind t)).take j).sum

namespace TrexStreamsGraph

/-- The first `k` bursts of a stream that stops. -/
def burstSpans (s : TrexStream) : Nat → (offset delay : Rat) → List Span
  | 0, _, _ => []
  | k + 1, offset, delay =>
    ⟨offset + delay, some (offset + delay + s.getBurstLengthUsec), s⟩
      :: burstSpans s k (offset + delay + s.getBurstLengthUsec) s.ibgUsec

/-- Where the last of the bursts stops. -/
def burstsEnd (s : TrexStream) : Nat → (offset delay : Rat) → Rat
  | 0, offset, _ => offset
  | k + 1, offset, delay => burstsEnd s k (offset + delay + s.getBurstLengthUsec) s.ibgUsec

/-- How many bursts a stream that stops has. -/
def burstCount (s : TrexStream) : Nat :=
  if s.type = .stMULTI_BURST then s.numBursts.toNat else 1

/-- The bursts of one pass over a chain of streams. -/
def chainSpans : (offset : Rat) → List TrexStream → List Span
  | _, [] => []
  | offset, s :: rest =>
    if s.type = .stCONTINUOUS then [⟨offset + s.isgUsec, none, s⟩]
    else burstSpans s (burstCount s) offset s.isgUsec
      ++ chainSpans (burstsEnd s (burstCount s) offset s.isgUsec) rest

/-- The streams that a stream leads to, until there is none or until one comes back. -/
def chain (hash : List TrexStream) : (fuel : Nat) → (loopHash : List UInt32) → (streamId : UInt32) →
    List TrexStream
  | 0, _, _ => []
  | fuel + 1, loopHash, streamId =>
    match at? hash streamId with
    | none => []
    | some s =>
      if s.nextStreamId = -1 ∨ s.nextStreamId.toUInt32 ∈ streamId :: loopHash then [s]
      else s :: chain hash fuel (streamId :: loopHash) s.nextStreamId.toUInt32

/-- The chain of a stream that starts by itself. -/
def rootChain (streams : List TrexStream) (root : TrexStream) : List TrexStream :=
  chain (streamsHash streams) ((streamsHash streams).length + 1) [] root.streamId

/-- **The intervals in which the bursts of all chains are sent.** -/
def rootSpans (streams : List TrexStream) : List Span :=
  (streams.filter fun s => s.enabled && s.selfStart).flatMap fun root =>
    chainSpans 0 (rootChain streams root)

/-! ## 2. The events of a graph -/

theorem addBursts_eq (s : TrexStream) :
    ∀ (k : Nat) (offset delay : Rat) (obj : TrexStreamsGraphObj),
    addBursts s k offset delay obj = (burstsEnd s k offset delay,
      { obj with rateEvents := obj.rateEvents ++ (burstSpans s k offset delay).flatMap Span.events
          }) := by
  intro k
  induction k with
  | zero =>
    intro offset delay obj
    simp [addBursts, burstsEnd, burstSpans]
  | succ k ih =>
    intro offset delay obj
    simp [addBursts, burstsEnd, burstSpans, ih, TrexStreamsGraphObj.addRateEvent, Span.events]

/-- The events of a stream that stops. -/
theorem addRateEventsForStream_burst {s : TrexStream} (hs : s.type ≠ .stCONTINUOUS) (offset : Rat)
    (obj : TrexStreamsGraphObj) : addRateEventsForStream offset s obj
      = addBursts s (burstCount s) offset s.isgUsec obj := by
  cases htype : s.type with
  | stCONTINUOUS => exact absurd htype hs
  | stSINGLE_BURST =>
    simp [addRateEventsForStream, htype, addRateEventsForStreamSingleBurst, burstCount, addBursts]
  | stMULTI_BURST =>
    simp [addRateEventsForStream, htype, addRateEventsForStreamMultiBurst, burstCount]

/-- **The walk from one root makes the events of its chain**, in order. -/
theorem generateGraphForOneRoot_events {hash : List TrexStream}
    (hcont : ∀ s ∈ hash, s.type = .stCONTINUOUS → s.nextStreamId = -1) : ∀ {fuel : Nat}
    {loopHash : List UInt32} {streamId : UInt32} {offset : Rat} {obj obj' : TrexStreamsGraphObj},
    generateGraphForOneRoot hash fuel loopHash streamId offset obj = .ok obj' →
    obj'.rateEvents = obj.rateEvents
      ++ (chainSpans offset (chain hash fuel loopHash streamId)).flatMap Span.events := by
  intro fuel
  induction fuel with
  | zero => exact fun h => nomatch h
  | succ fuel ih =>
    intro loopHash streamId offset obj obj' h
    unfold generateGraphForOneRoot at h
    unfold chain
    cases hat : at? hash streamId with
    | none =>
      simp only [hat] at h
      cases h
    | some s =>
      simp only [hat] at h ⊢
      by_cases hcontinuous : s.type = .stCONTINUOUS
      · -- a continuous stream ends the walk
        have hlast := hcont s (mem_of_find?_eq_some hat) hcontinuous
        rw [if_pos hlast] at h
        cases h
        rw [if_pos (Or.inl hlast)]
        simp [chainSpans, hcontinuous, addRateEventsForStream, addRateEventsForStreamCont,
          TrexStreamsGraphObj.addRateEvent, Span.events]
      · rw [addRateEventsForStream_burst hcontinuous, addBursts_eq] at h
        by_cases hend : s.nextStreamId = -1
        · rw [if_pos hend] at h
          cases h
          rw [if_pos (Or.inl hend)]
          simp [chainSpans, hcontinuous]
        · rw [if_neg hend] at h
          by_cases hloop : s.nextStreamId.toUInt32 ∈ streamId :: loopHash
          · rw [if_pos hloop] at h
            cases h
            rw [if_pos (Or.inr hloop)]
            simp [chainSpans, hcontinuous, TrexStreamsGraphObj.onLoopDetection]
          · rw [if_neg hloop] at h
            rw [if_neg (not_or.mpr ⟨hend, hloop⟩), ih h]
            simp [chainSpans, hcontinuous]

theorem generateRoots_events {streams : List TrexStream}
    (hcont : ∀ s ∈ streamsHash streams, s.type = .stCONTINUOUS → s.nextStreamId = -1) :
    ∀ {roots : List TrexStream} {obj obj' : TrexStreamsGraphObj},
    generateRoots (streamsHash streams) roots obj = .ok obj' →
    obj'.rateEvents = obj.rateEvents
      ++ (roots.flatMap fun root => chainSpans 0 (rootChain streams root)).flatMap Span.events := by
  intro roots
  induction roots with
  | nil =>
    intro obj obj' h
    cases h
    simp
  | cons root rest ih =>
    intro obj obj' h
    obtain ⟨obj1, hone, hrest⟩ := bind_eq_ok h
    rw [ih hrest, generateGraphForOneRoot_events hcont hone]
    simp [rootChain]

end TrexStreamsGraph

/-! ## 3. The rates of the intervals -/

theorem RateEvent.diff_up (kind : RateKind) (t : Rat) (s : TrexStream) :
    RateEvent.diff kind ⟨t, s.pps, s.getBps, s.streamId⟩ = s.rate kind := by
  cases kind <;> rfl

theorem RateEvent.diff_down (kind : RateKind) (t : Rat) (s : TrexStream) :
    RateEvent.diff kind ⟨t, -s.pps, -s.getBps, s.streamId⟩ = -s.rate kind := by
  cases kind <;> rfl

/-- A burst does not stop before it starts. -/
def Span.Ordered (b : Span) : Prop := ∀ stop, b.stop = some stop → b.start ≤ stop

variable {b : Span} {spans : List Span} {kind : RateKind}

theorem Span.Ordered.sum_upTo (hb : b.Ordered) (kind : RateKind) (t : Rat) :
    ((b.events.filter fun ev => ev.time ≤ t).map (RateEvent.diff kind)).sum
      = if b.Active t then b.stream.rate kind else 0 := by
  obtain ⟨start, stop, s⟩ := b
  cases stop with
  | none =>
    by_cases hstart : start ≤ t
    · simp [Span.events, Span.Active, hstart, RateEvent.diff_up]
    · simp [Span.events, Span.Active, hstart]
  | some stop =>
    have hle : start ≤ stop := hb stop rfl
    by_cases hstop : stop ≤ t
    · have hstart : start ≤ t := hle.trans hstop
      simp [Span.events, Span.Active, hstart, hstop, RateEvent.diff_up, RateEvent.diff_down]
    · by_cases hstart : start ≤ t
      · simp [Span.events, Span.Active, hstart, hstop, not_le.mp hstop, RateEvent.diff_up]
      · simp [Span.events, Span.Active, hstart, hstop]

theorem Span.Ordered.sum_before (hb : b.Ordered) (kind : RateKind) (t : Rat) :
    ((b.events.filter fun ev => ev.time < t).map (RateEvent.diff kind)).sum
      = if b.ActiveBefore t then b.stream.rate kind else 0 := by
  obtain ⟨start, stop, s⟩ := b
  cases stop with
  | none =>
    by_cases hstart : start < t
    · simp [Span.events, Span.ActiveBefore, hstart, RateEvent.diff_up]
    · simp [Span.events, Span.ActiveBefore, hstart]
  | some stop =>
    have hle : start ≤ stop := hb stop rfl
    by_cases hstop : stop < t
    · have hstart : start < t := hle.trans_lt hstop
      simp [Span.events, Span.ActiveBefore, hstart, hstop, RateEvent.diff_up,
        RateEvent.diff_down]
    · by_cases hstart : start < t
      · simp [Span.events, Span.ActiveBefore, hstart, hstop, not_lt.mp hstop, RateEvent.diff_up]
      · simp [Span.events, Span.ActiveBefore, hstart, hstop]

theorem Span.diffs_at (kind : RateKind) (t : Rat) (b : Span) :
    (b.events.filter fun ev => ev.time = t).map (RateEvent.diff kind) = b.changesAt kind t := by
  obtain ⟨start, stop, s⟩ := b
  cases stop with
  | none =>
    by_cases hstart : start = t <;> simp [Span.events, Span.changesAt, hstart, RateEvent.diff_up]
  | some stop =>
    by_cases hstart : start = t <;> by_cases hstop : stop = t <;>
      simp [Span.events, Span.changesAt, hstart, hstop, RateEvent.diff_up, RateEvent.diff_down]

/-- A sum over the events, burst by burst. -/
theorem sum_events {g : Span → Prop} [DecidablePred g] {q : RateEvent → Bool}
    (h : ∀ b ∈ spans, ((b.events.filter q).map (RateEvent.diff kind)).sum
      = if g b then b.stream.rate kind else 0) :
    (((spans.flatMap Span.events).filter q).map (RateEvent.diff kind)).sum
      = ((spans.filter g).map fun b => b.stream.rate kind).sum := by
  induction spans with
  | nil => rfl
  | cons b rest ih =>
    have hrest := ih fun b' hb' => h b' (mem_cons_of_mem _ hb')
    rw [flatMap_cons, filter_append, map_append, sum_append,
      h b mem_cons_self, hrest]
    by_cases hg : g b <;> simp [hg]

/-- **The sum of the changes up to a time is the rate at the time.** -/
theorem rateAt_events (hspans : ∀ b ∈ spans, b.Ordered) (kind : RateKind) (t : Rat) :
    rateAt RateEvent.time (RateEvent.diff kind) (spans.flatMap Span.events) t
      = spansRate kind spans t :=
  sum_events fun b hb => (hspans b hb).sum_upTo kind t

theorem momentary_events (hspans : ∀ b ∈ spans, b.Ordered) (kind : RateKind) (t : Rat) (j : Nat) :
    momentary RateEvent.time (RateEvent.diff kind) (spans.flatMap Span.events) t j
      = spansRateBefore kind spans t + ((spans.flatMap (Span.changesAt kind t)).take j).sum := by
  have hbefore := sum_events fun b hb => (hspans b hb).sum_before kind t
  have hat : ((spans.flatMap Span.events).filter fun ev => ev.time = t).map (RateEvent.diff kind)
      = spans.flatMap (Span.changesAt kind t) := by
    rw [filter_flatMap, map_flatMap]
    exact flatMap_congr fun b _ => Span.diffs_at kind t b
  rw [momentary, hbefore, map_take, hat]
  rfl

/-- **The sweep over the events finds the peak exactly when it does not overshoot.** -/
theorem isGreatest_events (hspans : ∀ b ∈ spans, b.Ordered) (kind : RateKind) :
    IsGreatest (Set.range (spansRate kind spans))
        (peak ((inTime RateEvent.time (spans.flatMap Span.events)).map (RateEvent.diff kind)))
      ↔ ¬ Overshoots kind spans := by
  have hrate : rateAt RateEvent.time (RateEvent.diff kind) (spans.flatMap Span.events)
      = spansRate kind spans := funext fun t => rateAt_events hspans kind t
  rw [← hrate, isGreatest_peak_iff]
  unfold NoOvershoot Overshoots
  push Not
  simp only [momentary_events hspans, hrate]

/-! ## 4. The peak of a graph -/

theorem TrexStreamsGraphObj.maxRates_eq :
    ∀ (events : List RateEvent) (curPps maxPps curBps maxBps : Rat),
    maxRates events curPps maxPps curBps maxBps
      = (peakFrom (events.map (RateEvent.diff .pps)) curPps maxPps,
        peakFrom (events.map (RateEvent.diff .bps)) curBps maxBps) := by
  intro events
  induction events with
  | nil => exact fun _ _ _ _ => rfl
  | cons ev rest ih =>
    intro curPps maxPps curBps maxBps
    rw [maxRates, ih]
    rfl

/-- The peaks that a graph holds are those of a sweep over its events. -/
theorem TrexStreamsGraphObj.generate_maxRate {obj obj' : TrexStreamsGraphObj}
    (h : obj.generate = .ok obj') (kind : RateKind) :
    obj'.maxRate kind = peak
        ((inTime RateEvent.time obj.rateEvents).map (RateEvent.diff kind)) := by
  unfold generate findMaxRate at h
  simp only [maxRates_eq] at h
  split at h
  · split at h
    · cases h
    · cases h
      cases kind <;> rfl
  · cases h
    cases kind <;> rfl

namespace TrexStreamsGraph

variable {streams streams' : List TrexStream} {graph graph' : TrexStreamsGraphObj}

variable {s : TrexStream} {hash : List TrexStream}

theorem mem_streamsHash : s ∈ streamsHash streams ↔ s ∈ enabledOf streams := by
  simp [streamsHash, enabledOf]

/-- **A graph has the peaks of a sweep over the intervals of its chains.** -/
theorem generate_events
    (hcont : ∀ s ∈ enabledOf streams, s.type = .stCONTINUOUS → s.nextStreamId = -1)
    (h : generate streams = .ok graph) (kind : RateKind) : graph.maxRate kind
      = peak ((inTime RateEvent.time ((rootSpans streams).flatMap Span.events)).map
        (RateEvent.diff kind)) := by
  obtain ⟨obj, hroots, hgraph⟩ := bind_eq_ok h
  have hevents := generateRoots_events (fun s hs => hcont s (mem_streamsHash.mp hs)) hroots
  rw [TrexStreamsGraphObj.generate_maxRate hgraph, hevents]
  rfl

theorem mem_chain : ∀ {fuel : Nat} {loopHash : List UInt32} {streamId : UInt32}
    {s : TrexStream}, s ∈ chain hash fuel loopHash streamId → s ∈ hash := by
  intro fuel
  induction fuel with
  | zero => exact fun h => nomatch h
  | succ fuel ih =>
    intro loopHash streamId s h
    unfold chain at h
    split at h
    · cases h
    · rename_i s' hat
      have hs' := mem_of_find?_eq_some hat
      split at h
      · rw [mem_singleton.mp h]
        exact hs'
      · rcases mem_cons.mp h with rfl | hrest
        · exact hs'
        · exact ih hrest

theorem mem_burstSpans {b : Span} : ∀ {k : Nat} {offset delay : Rat},
    b ∈ burstSpans s k offset delay → b.stream = s ∧
        b.stop = some (b.start + s.getBurstLengthUsec) := by
  intro k
  induction k with
  | zero => exact fun h => nomatch h
  | succ k ih =>
    intro offset delay h
    rcases mem_cons.mp h with rfl | hrest
    · exact ⟨rfl, rfl⟩
    · exact ih hrest

theorem mem_chainSpans {b : Span} : ∀ {ss : List TrexStream} {offset : Rat},
    b ∈ chainSpans offset ss → b.stream ∈ ss ∧ (b.stop = none ∨ b.stream.type ≠ .stCONTINUOUS ∧
      b.stop = some (b.start + b.stream.getBurstLengthUsec)) := by
  intro ss
  induction ss with
  | nil => exact fun h => nomatch h
  | cons s rest ih =>
    intro offset h
    unfold chainSpans at h
    split at h
    · rw [mem_singleton.mp h]
      exact ⟨mem_cons_self, Or.inl rfl⟩
    · rename_i htype
      rcases mem_append.mp h with hburst | hrest
      · obtain ⟨rfl, hstop⟩ := mem_burstSpans hburst
        exact ⟨mem_cons_self, Or.inr ⟨htype, hstop⟩⟩
      · exact ⟨mem_cons_of_mem _ (ih hrest).1, (ih hrest).2⟩

/-- The bursts of the chains are bursts of enabled streams. -/
theorem mem_rootSpans {b : Span} (h : b ∈ rootSpans streams) : b.stream ∈ enabledOf streams
    ∧ (b.stop = none ∨ b.stream.type ≠ .stCONTINUOUS ∧
      b.stop = some (b.start + b.stream.getBurstLengthUsec)) := by
  obtain ⟨root, -, hb⟩ := mem_flatMap.mp h
  obtain ⟨hmem, hstop⟩ := mem_chainSpans hb
  exact ⟨mem_streamsHash.mp (mem_chain hmem), hstop⟩

theorem rootSpans_ordered (hpos : ∀ s ∈ enabledOf streams, s.type ≠ .stCONTINUOUS → 0 < s.pps) :
    ∀ b ∈ rootSpans streams, b.Ordered := by
  intro b hb stop hstop
  obtain ⟨hmem, hnone | ⟨htype, hsome⟩⟩ := mem_rootSpans hb
  · rw [hnone] at hstop
    cases hstop
  · rw [hsome] at hstop
    obtain rfl := Option.some.inj hstop
    have hlen : 0 ≤ b.stream.getBurstLengthUsec := by
      have hpps := hpos _ hmem htype
      unfold TrexStream.getBurstLengthUsec
      positivity
    linarith

/-- A stream of the hash, by its id. -/
theorem at?_eq_some_iff (hunique : (hash.map TrexStream.streamId).Nodup) {streamId : UInt32} :
    at? hash streamId = some s ↔ s ∈ hash ∧ s.streamId = streamId := by
  constructor
  · intro h
    exact ⟨mem_of_find?_eq_some h, by simpa using List.find?_some h⟩
  · rintro ⟨hmem, rfl⟩
    cases hat : at? hash s.streamId with
    | none =>
      have hne := List.find?_eq_none.mp hat s hmem
      simp at hne
    | some s' =>
      have hid : s'.streamId = s.streamId := by simpa using List.find?_some hat
      rw [inj_on_of_nodup_map hunique (mem_of_find?_eq_some hat) hmem hid]

theorem chain_congr {hash' : List TrexStream} (h : ∀ id, at? hash id = at? hash' id) :
    ∀ (fuel : Nat) (loopHash : List UInt32) (streamId : UInt32),
    chain hash fuel loopHash streamId = chain hash' fuel loopHash streamId := by
  intro fuel
  induction fuel with
  | zero => exact fun _ _ => rfl
  | succ fuel ih =>
    intro loopHash streamId
    unfold chain
    simp only [h, ih]

/-- **The intervals do not depend on the order of the streams.** -/
theorem rootSpans_perm (hperm : streams'.Perm streams)
    (hunique : ((enabledOf streams).map TrexStream.streamId).Nodup) :
    (rootSpans streams').Perm (rootSpans streams) := by
  have hhash : (streamsHash streams').Perm (streamsHash streams) :=
    ((reverse_perm _).trans (hperm.filter _)).trans (reverse_perm _).symm
  have hnodup : ((streamsHash streams).map TrexStream.streamId).Nodup := by
    rw [streamsHash, map_reverse, nodup_reverse]
    exact hunique
  have hnodup' : ((streamsHash streams').map TrexStream.streamId).Nodup :=
    (hhash.map _).nodup_iff.mpr hnodup
  have hat : ∀ id, at? (streamsHash streams') id = at? (streamsHash streams) id := by
    intro id
    refine Option.ext fun s => ?_
    rw [at?_eq_some_iff hnodup, at?_eq_some_iff hnodup', hhash.mem_iff]
  have hchain : rootChain streams' = rootChain streams := by
    funext root
    rw [rootChain, chain_congr hat, hhash.length_eq]
    rfl
  unfold rootSpans
  rw [hchain]
  exact (hperm.filter _).flatMap_right _

theorem spansRate_perm {spans spans' : List Span} (h : spans'.Perm spans) (kind : RateKind) :
    spansRate kind spans' = spansRate kind spans :=
  funext fun _ => ((h.filter _).map _).sum_eq

/-- **The peak of an accepted list of streams**, when the rates of the bursts are positive (a
continuous stream may have any rate): it is the greatest sum of the rates of the bursts that are
sent at one time exactly when the sweep does not overshoot.  It is the same for all orders of the
streams in which the sweep does not overshoot, and right in every order exactly when it overshoots
in none.

The events of the graph are those of the intervals (`generate_events`), which do not depend on the
order (`rootSpans_perm`); what a sweep over them finds is `isGreatest_events`. -/
theorem peak_rate_iff (streams : List TrexStream) (nodes : GraphNodeMap) (warnings : List String)
    (graph : TrexStreamsGraphObj) (haccepted : preCompileCheck streams = .ok (nodes, warnings))
    (hpos : ∀ s ∈ enabledOf streams, s.type ≠ .stCONTINUOUS → 0 < s.pps)
    (hgraph : generate streams = .ok graph) (kind : RateKind) :
    (IsGreatest (Set.range (spansRate kind (rootSpans streams))) (graph.maxRate kind)
      ↔ ¬ Overshoots kind (rootSpans streams))
    ∧ (∀ streams' graph', streams'.Perm streams → generate streams' = .ok graph' →
      ¬ Overshoots kind (rootSpans streams) → ¬ Overshoots kind (rootSpans streams') →
      graph'.maxRate kind = graph.maxRate kind)
    ∧ ((∀ streams' graph', streams'.Perm streams → generate streams' = .ok graph' →
        IsGreatest (Set.range (spansRate kind (rootSpans streams))) (graph'.maxRate kind))
      ↔ ∀ streams' graph', streams'.Perm streams → generate streams' = .ok graph' →
        ¬ Overshoots kind (rootSpans streams')) := by
  have hwell := (accepted haccepted).2.1
  have hexact : ∀ streams' graph', streams'.Perm streams → generate streams' = .ok graph' →
      (IsGreatest (Set.range (spansRate kind (rootSpans streams))) (graph'.maxRate kind)
        ↔ ¬ Overshoots kind (rootSpans streams')) := by
    intro streams' graph' hperm hgraph'
    have hmem : ∀ s, s ∈ enabledOf streams' ↔ s ∈ enabledOf streams :=
      fun s => (hperm.filter _).mem_iff
    have h := isGreatest_events (rootSpans_ordered fun s hs => hpos s ((hmem s).mp hs)) kind
    rwa [← generate_events (fun s hs => hwell.continuous s ((hmem s).mp hs)) hgraph' kind,
      spansRate_perm (rootSpans_perm hperm hwell.unique)] at h
  have hself := hexact streams graph (List.Perm.refl _) hgraph
  refine ⟨hself, ?_, ?_⟩
  · intro streams' graph' hperm hgraph' hno hno'
    exact ((hexact streams' graph' hperm hgraph').mpr hno').unique (hself.mpr hno)
  · exact forall_congr' fun streams' => forall_congr' fun graph' => forall_congr' fun hperm =>
      forall_congr' fun hgraph' => hexact streams' graph' hperm hgraph'

/-- A burst of one packet, at one packet per second. -/
def oneSecond : TrexStream :=
    ⟨.stSINGLE_BURST, 0, 1, 0, -1, true, true, {}, none, ⟨[], 60⟩, 1, 1, 1, 0⟩

/-- A continuous stream of one packet per second that starts after a second. -/
def fromThenOn : TrexStream :=
  ⟨.stCONTINUOUS, 0, 2, 1000000, -1, true, true, {}, none, ⟨[], 60⟩, 1, 0, 1, 0⟩

/-- What is looked at of a graph. -/
def peakOf (res : Except GraphErr TrexStreamsGraphObj) : Option Rat := res.toOption.map (·.maxPps)

/-- The burst first. -/
theorem peak_rate_iff_oneSecond : ∃ graph, generate [oneSecond, fromThenOn] = .ok graph
    ∧ graph.maxRate .pps = 1
    ∧ (IsGreatest (Set.range (spansRate .pps (rootSpans [oneSecond, fromThenOn])))
      (graph.maxRate .pps) ↔ ¬ Overshoots .pps (rootSpans [oneSecond, fromThenOn])) := by
  have hview : peakOf (generate [oneSecond, fromThenOn]) = some 1 := by decide +kernel
  cases hgraph : generate [oneSecond, fromThenOn] with
  | error err =>
    rw [hgraph] at hview
    cases hview
  | ok graph =>
    rw [hgraph] at hview
    have haccepted : preCompileCheck [oneSecond, fromThenOn]
        = .ok ([⟨oneSecond, 0⟩, ⟨fromThenOn, 1⟩], []) := by decide +kernel
    have hpos : ∀ s ∈ enabledOf [oneSecond, fromThenOn], s.type ≠ .stCONTINUOUS → 0 < s.pps := by
      decide +kernel
    exact ⟨graph, rfl, Option.some.inj hview,
      (peak_rate_iff _ _ _ graph haccepted hpos hgraph .pps).1⟩

/-- **Two bursts that touch are counted together**, when the one that starts is stored before the
one that stops: at no time is more than one packet per second sent. -/
theorem touching_bursts_overshoot :
    (∃ nodes warnings, preCompileCheck [fromThenOn, oneSecond] = .ok (nodes, warnings))
      ∧ peakOf (generate [fromThenOn, oneSecond]) = some 2
      ∧ peakOf (generate [oneSecond, fromThenOn]) = some 1
      ∧ IsGreatest (Set.range (spansRate .pps (rootSpans [fromThenOn, oneSecond]))) 1 := by
  refine ⟨⟨[⟨fromThenOn, 0⟩, ⟨oneSecond, 1⟩], [], by decide +kernel⟩, by decide +kernel,
    by decide +kernel, ⟨0, by decide +kernel⟩, ?_⟩
  rintro _ ⟨t, rfl⟩
  have hspans : rootSpans [fromThenOn, oneSecond]
      = [⟨0 + 1000000, none, fromThenOn⟩, ⟨0 + 0, some (0 + 0 + 1 / 1 * 1000 * 1000), oneSecond⟩] :=
        rfl
  have hstop : (0 + 0 + 1 / 1 * 1000 * 1000 : Rat) = 1000000 := by norm_num
  rw [hspans, hstop, zero_add, zero_add]
  have hone : ∀ s ∈ [fromThenOn, oneSecond], s.rate .pps = 1 := by decide +kernel
  -- the one has stopped when the other starts
  rcases lt_or_ge t 1000000 with hbefore | hafter
  · by_cases hstart : 0 ≤ t
    · simp [spansRate, Span.Active, hstart, hbefore, hone]
    · simp [spansRate, Span.Active, hstart, hbefore]
  · simp [spansRate, Span.Active, hafter, hone]

/-! ## 5. Graphs whose peak is positive -/

/-- An accepted list of streams that sends something: all rates are positive, and a stream that
starts by itself has a packet to send. -/
structure Sends (streams : List TrexStream) : Prop where
  wellFormed : WellFormed (enabledOf streams)
  rates : ∀ s ∈ enabledOf streams, 0 < s.pps
  root : ∃ s ∈ enabledOf streams, s.selfStart = true
    ∧ (s.type ≠ .stCONTINUOUS → 0 < s.burstTotalPkts) ∧ (s.type = .stMULTI_BURST → 0 < s.numBursts)

theorem Sends.perm (h : Sends streams) (hperm : streams'.Perm streams) : Sends streams' := by
  have hen : (enabledOf streams').Perm (enabledOf streams) := hperm.filter _
  have hmem : ∀ s, s ∈ enabledOf streams' ↔ s ∈ enabledOf streams := fun s => hen.mem_iff
  have hnext : NextOf (enabledOf streams') = NextOf (enabledOf streams) := by
    funext s s'
    simp only [NextOf, hmem]
  refine ⟨⟨(hen.map _).nodup_iff.mpr h.wellFormed.unique, ?_, ?_, ?_⟩, ?_, ?_⟩
  · simpa only [hmem] using h.wellFormed.next
  · simpa only [hmem] using h.wellFormed.continuous
  · simpa only [hmem, hnext] using h.wellFormed.reachable
  · simpa only [hmem] using h.rates
  · simpa only [hmem] using h.root

theorem TrexStream.rate_pos (h : 0 < s.pps) (kind : RateKind) : 0 < s.rate kind := by
  cases kind with
  | pps => exact h
  | bps =>
    unfold TrexStream.rate TrexStream.getBps
    positivity

/-- The chain of a root begins with it. -/
theorem rootChain_eq_cons (hunique : ((enabledOf streams).map TrexStream.streamId).Nodup)
    {root : TrexStream} (hroot : root ∈ enabledOf streams) :
    ∃ rest, rootChain streams root = root :: rest := by
  have hnodup : ((streamsHash streams).map TrexStream.streamId).Nodup := by
    rw [streamsHash, map_reverse, nodup_reverse]
    exact hunique
  have hat : at? (streamsHash streams) root.streamId = some root :=
    (at?_eq_some_iff hnodup).mpr ⟨mem_streamsHash.mpr hroot, rfl⟩
  unfold rootChain chain
  rw [hat]
  simp only
  split
  · exact ⟨_, rfl⟩
  · exact ⟨_, rfl⟩

/-- The first burst of a chain whose first stream sends something. -/
theorem chainSpans_first (rest : List TrexStream) (hpos : 0 < s.pps)
    (hpkts : s.type ≠ .stCONTINUOUS → 0 < s.burstTotalPkts)
    (hbursts : s.type = .stMULTI_BURST → 0 < s.numBursts) (offset : Rat) :
    ∃ b ∈ chainSpans offset (s :: rest), b.stream = s ∧ b.Active b.start := by
  unfold chainSpans
  split
  · exact ⟨_, mem_singleton.mpr rfl, rfl, le_rfl, fun stop hstop => nomatch hstop⟩
  · rename_i hburst
    have hcount : burstCount s ≠ 0 := by
      unfold burstCount
      split
      · rename_i hmulti
        have hlt := UInt32.lt_iff_toNat_lt.mp (hbursts hmulti)
        rw [UInt32.toNat_zero] at hlt
        omega
      · exact one_ne_zero
    obtain ⟨k, hk⟩ := Nat.exists_eq_succ_of_ne_zero hcount
    rw [hk]
    refine ⟨_, mem_append_left _ mem_cons_self, rfl, le_rfl, fun stop hstop => ?_⟩
    obtain rfl := Option.some.inj hstop
    have hlen : 0 < s.getBurstLengthUsec := by
      have hlt := UInt32.lt_iff_toNat_lt.mp (hpkts hburst)
      rw [UInt32.toNat_zero] at hlt
      have hpkts' : (0 : Rat) < s.burstTotalPkts.toNat := by exact_mod_cast hlt
      unfold TrexStream.getBurstLengthUsec
      positivity
    simp only
    linarith

/-- **The peak of streams that send something is positive.** -/
theorem Sends.maxRate_pos (h : Sends streams) (hgraph : generate streams = .ok graph)
    (kind : RateKind) : 0 < graph.maxRate kind := by
  obtain ⟨root, hroot, hself, hpkts, hbursts⟩ := h.root
  obtain ⟨rest, hchain⟩ := rootChain_eq_cons h.wellFormed.unique hroot
  obtain ⟨b, hb, hstream, hactive⟩ := chainSpans_first rest (h.rates root hroot) hpkts hbursts 0
  have hmem : b ∈ rootSpans streams := by
    refine mem_flatMap.mpr ⟨root, ?_, hchain ▸ hb⟩
    obtain ⟨hin, hen⟩ := mem_filter.mp hroot
    exact mem_filter.mpr ⟨hin, by rw [hen, hself]; rfl⟩
  have hle : b.stream.rate kind ≤ spansRate kind (rootSpans streams) b.start := by
    refine single_le_sum ?_ _ (mem_map.mpr ⟨b, mem_filter.mpr ⟨hmem, ?_⟩, rfl⟩)
    · intro r hr
      obtain ⟨b', hb', rfl⟩ := mem_map.mp hr
      have henabled := (mem_rootSpans (mem_of_mem_filter hb')).1
      exact (TrexStream.rate_pos (h.rates _ henabled) kind).le
    · exact decide_eq_true hactive
  rw [generate_events h.wellFormed.continuous hgraph]
  calc 0 < b.stream.rate kind := by
        rw [hstream]
        exact TrexStream.rate_pos (h.rates root hroot) kind
    _ ≤ spansRate kind (rootSpans streams) b.start := hle
    _ = rateAt RateEvent.time (RateEvent.diff kind) ((rootSpans streams).flatMap Span.events)
        b.start :=
        (rateAt_events (rootSpans_ordered fun s hs _ => h.rates s hs) kind b.start).symm
    _ ≤ _ := rateAt_le_peak _ _

end TrexStreamsGraph

end Trex.Stream
