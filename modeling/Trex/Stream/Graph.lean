/-
# The graph of the streams

`TrexStreamsGraph` and `TrexStreamsGraphObj` (`trex_streams_compiler.cpp`): every stream that starts
by itself is followed along its next streams, until there is none or until one comes back, and every
burst on the way adds an event where its rate starts and one where it stops.  The peak rates come
from the events in the order of their times.
-/
import Mathlib.Data.List.Sort
import Mathlib.Data.List.Perm.Subperm
import Mathlib.Algebra.Order.Ring.Rat
import Trex.Stream.Stream

namespace Trex.Stream

open List

/-! ## 1. Rates and events -/

namespace TrexStream

/-- `get_burst_length_usec`. -/
def getBurstLengthUsec (s : TrexStream) : Rat := s.burstTotalPkts.toNat / s.pps * 1000 * 1000

/-- `get_bps`: packet length and CRC, in bits. -/
def getBps (s : TrexStream) : Rat := s.pps * (s.pkt.len.toNat + 4) * 8

end TrexStream

/-- `rate_event_st`. -/
structure RateEvent where
  time : Rat
  diffPps : Rat
  diffBps : Rat
  streamId : UInt32
deriving DecidableEq

/-- `TrexStreamsGraphObj`. -/
structure TrexStreamsGraphObj where
  maxPps : Rat := 0
  maxBps : Rat := 0
  expectedDuration : Int := 0
  rateEvents : List RateEvent := []
deriving DecidableEq

/-- How the graph can fail. -/
inductive GraphErr
  /-- A `TrexException`, with its text. -/
  | exception (what : String)
  /-- The last event of a list without events is read. -/
  | undefined
  /-- A loop that does not end. -/
  | diverges
deriving DecidableEq, Repr

namespace TrexStreamsGraphObj

/-- `add_rate_event`. -/
def addRateEvent (obj : TrexStreamsGraphObj) (ev : RateEvent) : TrexStreamsGraphObj :=
  { obj with rateEvents := obj.rateEvents ++ [ev] }

/-- `on_loop_detection`. -/
def onLoopDetection (obj : TrexStreamsGraphObj) : TrexStreamsGraphObj :=
  { obj with expectedDuration := -1 }

/-- A `double` as an `int`: the fraction is cut off.  Outside the range of an `int` the conversion
is undefined, and gives the least `int` on x86. -/
def toInt (t : Rat) : Int :=
  if -2 ^ 31 ≤ t.num.tdiv t.den ∧ t.num.tdiv t.den < 2 ^ 31 then t.num.tdiv t.den else -2 ^ 31

/-- The loop of `find_max_rate`, with the current rates and the greatest so far. -/
def maxRates : List RateEvent → (curPps maxPps curBps maxBps : Rat) → Rat × Rat
  | [], _, maxPps, _, maxBps => (maxPps, maxBps)
  | ev :: rest, curPps, maxPps, curBps, maxBps =>
    maxRates rest (curPps + ev.diffPps) (max maxPps (curPps + ev.diffPps))
      (curBps + ev.diffBps) (max maxBps (curBps + ev.diffBps))

/-- `find_max_rate`. -/
def findMaxRate (obj : TrexStreamsGraphObj) : Except GraphErr TrexStreamsGraphObj :=
  let rates := maxRates obj.rateEvents 0 0 0 0
  if obj.expectedDuration ≠ -1 then
    match obj.rateEvents.getLast? with
    | none => .error .undefined
    | some ev =>
      .ok { obj with maxPps := rates.1, maxBps := rates.2, expectedDuration := toInt ev.time }
  else .ok { obj with maxPps := rates.1, maxBps := rates.2 }

/-- `generate`: `std::list::sort` is stable. -/
def generate (obj : TrexStreamsGraphObj) : Except GraphErr TrexStreamsGraphObj :=
  findMaxRate { obj with
    rateEvents := obj.rateEvents.insertionSort fun first second => first.time ≤ second.time }

end TrexStreamsGraphObj

/-! ## 2. The graph of a list of streams -/

namespace TrexStreamsGraph

open TrexStreamsGraphObj

/-- `add_rate_events_for_stream_cont`, with the offset for the next stream. -/
def addRateEventsForStreamCont (offset : Rat) (s : TrexStream) (obj : TrexStreamsGraphObj) :
    Rat × TrexStreamsGraphObj :=
  (-1, { obj.addRateEvent ⟨offset + s.isgUsec, s.pps, s.getBps, s.streamId⟩ with
    expectedDuration := -1 })

/-- `add_rate_events_for_stream_single_burst`. -/
def addRateEventsForStreamSingleBurst (offset : Rat) (s : TrexStream) (obj : TrexStreamsGraphObj) :
    Rat × TrexStreamsGraphObj :=
  let start := offset + s.isgUsec
  let stop := start + s.getBurstLengthUsec
  (stop, (obj.addRateEvent ⟨start, s.pps, s.getBps, s.streamId⟩).addRateEvent
    ⟨stop, -s.pps, -s.getBps, s.streamId⟩)

/-- The loop of `add_rate_events_for_stream_multi_burst`. -/
def addBursts (s : TrexStream) : Nat → (offset delay : Rat) → TrexStreamsGraphObj →
    Rat × TrexStreamsGraphObj
  | 0, offset, _, obj => (offset, obj)
  | k + 1, offset, delay, obj =>
    let start := offset + delay
    let stop := start + s.getBurstLengthUsec
    addBursts s k stop s.ibgUsec
      ((obj.addRateEvent ⟨start, s.pps, s.getBps, s.streamId⟩).addRateEvent
      ⟨stop, -s.pps, -s.getBps, s.streamId⟩)

/-- `add_rate_events_for_stream_multi_burst`. -/
def addRateEventsForStreamMultiBurst (offset : Rat) (s : TrexStream) (obj : TrexStreamsGraphObj) :
    Rat × TrexStreamsGraphObj :=
  addBursts s s.numBursts.toNat offset s.isgUsec obj

/-- `add_rate_events_for_stream`. -/
def addRateEventsForStream (offset : Rat) (s : TrexStream) (obj : TrexStreamsGraphObj) :
    Rat × TrexStreamsGraphObj :=
  match s.type with
  | .stCONTINUOUS => addRateEventsForStreamCont offset s obj
  | .stSINGLE_BURST => addRateEventsForStreamSingleBurst offset s obj
  | .stMULTI_BURST => addRateEventsForStreamMultiBurst offset s obj

/-- `m_streams_hash`: the enabled streams; a later one with the same id replaces the earlier. -/
def streamsHash (streams : List TrexStream) : List TrexStream :=
  (streams.filter fun s => s.enabled).reverse

/-- `m_streams_hash.at`. -/
def at? (hash : List TrexStream) (streamId : UInt32) : Option TrexStream :=
  hash.find? fun s => s.streamId == streamId

/-- `generate_graph_for_one_root`, with the streams it went through (`loop_hash`).  A turn of the
loop takes one of `fuel`. -/
def generateGraphForOneRoot (hash : List TrexStream) : (fuel : Nat) → (loopHash : List UInt32) →
    (streamId : UInt32) → (offset : Rat) → TrexStreamsGraphObj → Except GraphErr TrexStreamsGraphObj
  | 0, _, _, _, _ => .error .diverges
  | fuel + 1, loopHash, streamId, offset, obj =>
    match at? hash streamId with
    | none => .error (.exception ("stream id " ++ toString streamId.toNat ++ " does not exists"))
    | some s =>
      let added := addRateEventsForStream offset s obj
      if s.nextStreamId = -1 then .ok added.2
      else if s.nextStreamId.toUInt32 ∈ streamId :: loopHash then .ok added.2.onLoopDetection
      else generateGraphForOneRoot hash fuel (streamId :: loopHash) s.nextStreamId.toUInt32 added.1
        added.2

/-- The loop over the roots. -/
def generateRoots (hash : List TrexStream) : List TrexStream → TrexStreamsGraphObj →
    Except GraphErr TrexStreamsGraphObj
  | [], obj => .ok obj
  | root :: rest, obj => do
    let obj ← generateGraphForOneRoot hash (hash.length + 1) [] root.streamId 0 obj
    generateRoots hash rest obj

/-- `generate`. -/
def generate (streams : List TrexStream) : Except GraphErr TrexStreamsGraphObj := do
  let roots := streams.filter fun s => s.enabled && s.selfStart
  let obj ← generateRoots (streamsHash streams) roots {}
  obj.generate

/-! ## 3. The walk ends -/

/-- **Every turn of the loop goes to a stream that was not there before**, so there are no more
turns than streams. -/
theorem generateGraphForOneRoot_ends (hash : List TrexStream) :
    ∀ (fuel : Nat) {loopHash : List UInt32}
    {streamId : UInt32} {offset : Rat} {obj : TrexStreamsGraphObj}, (streamId :: loopHash).Nodup →
    loopHash ⊆ hash.map TrexStream.streamId → hash.length < fuel + loopHash.length →
    generateGraphForOneRoot hash fuel loopHash streamId offset obj ≠ .error .diverges := by
  intro fuel
  induction fuel with
  | zero =>
    intro loopHash streamId offset obj hnodup hsub hfuel
    have hle := (hnodup.of_cons.subperm hsub).length_le
    rw [length_map] at hle
    omega
  | succ fuel ih =>
    intro loopHash streamId offset obj hnodup hsub hfuel
    unfold generateGraphForOneRoot
    split
    · exact fun h => nomatch h
    · rename_i s hs
      simp only
      split
      · exact fun h => nomatch h
      · split
        · exact fun h => nomatch h
        · rename_i hnew
          refine ih (nodup_cons.mpr ⟨hnew, hnodup⟩) ?_ ?_
          · intro id hid
            rcases mem_cons.mp hid with rfl | hold
            · have hmem := mem_of_find?_eq_some hs
              have hid := List.find?_some hs
              exact mem_map.mpr ⟨s, hmem, by simpa using hid⟩
            · exact hsub hold
          · rw [length_cons]
            omega

theorem generateRoots_ends (hash : List TrexStream) : ∀ {roots : List TrexStream}
    {obj : TrexStreamsGraphObj}, generateRoots hash roots obj ≠ .error .diverges := by
  intro roots
  induction roots with
  | nil => exact fun h => nomatch h
  | cons root rest ih =>
    intro obj h
    unfold generateRoots at h
    cases hone : generateGraphForOneRoot hash (hash.length + 1) [] root.streamId 0 obj with
    | error err =>
      rw [hone] at h
      cases h
      exact generateGraphForOneRoot_ends hash _ (nodup_singleton _) (nil_subset _)
        (by simp) hone
    | ok obj' =>
      rw [hone] at h
      exact ih h

/-- **The graph is made in finitely many steps.** -/
theorem generate_ends (streams : List TrexStream) : generate streams ≠ .error .diverges := by
  unfold generate
  intro h
  cases hroots : generateRoots (streamsHash streams) (streams.filter fun s =>
    s.enabled && s.selfStart) {} with
  | error err =>
    simp only [hroots] at h
    cases h
    exact generateRoots_ends _ hroots
  | ok obj =>
    simp only [hroots] at h
    change TrexStreamsGraphObj.generate obj = _ at h
    unfold TrexStreamsGraphObj.generate TrexStreamsGraphObj.findMaxRate at h
    simp only at h
    split at h
    · split at h
      · cases h
      · cases h
    · cases h

end TrexStreamsGraph

end Trex.Stream
