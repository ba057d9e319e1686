/-
# The lists of streams that have a graph

`TrexStreamsGraph::generate` runs on lists that the compiler accepted.  There every next stream is
found, so the walk from a root ends without an exception.  What is left to go wrong is the end of
`find_max_rate`: unless the duration is infinite, it reads the last event, and a list may have none.
-/
import Trex.Stream.Peak

namespace Trex.Stream

open Trex.Lib List

/-- The last event can be read, or it is not: the duration is infinite. -/
def TrexStreamsGraphObj.Ready (obj : TrexStreamsGraphObj) : Prop :=
  obj.expectedDuration = -1 ∨ obj.rateEvents ≠ []

/-- A stream that adds no event: a multi burst without bursts. -/
def TrexStream.Silent (s : TrexStream) : Prop := s.type = .stMULTI_BURST ∧ s.numBursts = 0

/-- A stream that leads back to itself. -/
def OnLoop (ss : List TrexStream) (s : TrexStream) : Prop := Relation.TransGen (NextOf ss) s s

namespace TrexStreamsGraph

/-! ## 1. One stream -/

theorem burstCount_eq_zero_iff (s : TrexStream) : burstCount s = 0 ↔ s.Silent := by
  unfold burstCount TrexStream.Silent
  split
  · rename_i htype
    rw [← UInt32.toNat_zero, UInt32.toNat_inj]
    exact ⟨fun h => ⟨htype, h⟩, fun h => h.2⟩
  · rename_i htype
    exact ⟨fun h => absurd h one_ne_zero, fun h => absurd h.1 htype⟩

/-- **A stream adds an event, unless it is a multi burst without bursts.** -/
theorem ready_addRateEventsForStream (offset : Rat) (s : TrexStream) (obj : TrexStreamsGraphObj) :
    (addRateEventsForStream offset s obj).2.Ready ↔ obj.Ready ∨ ¬ s.Silent := by
  by_cases hcont : s.type = .stCONTINUOUS
  · have hloud : ¬ s.Silent := fun h => by
      rw [TrexStream.Silent, hcont] at h
      exact nomatch h.1
    have hready : (addRateEventsForStream offset s obj).2.Ready := by
      simp only [addRateEventsForStream, hcont]
      exact Or.inl rfl
    exact iff_of_true hready (Or.inr hloud)
  · rw [addRateEventsForStream_burst hcont, addBursts_eq, ← burstCount_eq_zero_iff]
    unfold TrexStreamsGraphObj.Ready
    cases hcount : burstCount s with
    | zero => simp [burstSpans]
    | succ k => simp [burstSpans, Span.events]

/-! ## 2. The walk from one root -/

section Walk

variable {streams : List TrexStream}

/-- What the walk relies on: the streams that the compiler's checks leave. -/
structure Walkable (streams : List TrexStream) : Prop where
  unique : ((streamsHash streams).map TrexStream.streamId).Nodup
  wellFormed : WellFormed (enabledOf streams)

theorem walkable_of_accepted {nodes : GraphNodeMap} {warnings : List String}
    (h : preCompileCheck streams = .ok (nodes, warnings)) : Walkable streams := by
  have hwell := (accepted h).2.1
  refine ⟨?_, hwell⟩
  rw [streamsHash, map_reverse, nodup_reverse]
  exact hwell.unique

/-- The stream of an id of the list is found. -/
theorem Walkable.at? (h : Walkable streams) {s : TrexStream} (hs : s ∈ enabledOf streams) :
    at? (streamsHash streams) s.streamId = some s :=
  (at?_eq_some_iff h.unique).mpr ⟨mem_streamsHash.mpr hs, rfl⟩

/-- **The next stream is found**, and it is a link of the graph. -/
theorem Walkable.next (h : Walkable streams) {s : TrexStream} (hs : s ∈ enabledOf streams)
    (hnext : s.nextStreamId ≠ -1) : ∃ s', NextOf (enabledOf streams) s s'
      ∧ s'.streamId = s.nextStreamId.toUInt32 := by
  obtain ⟨s', hs', hid⟩ := (h.wellFormed.next s hs).resolve_left hnext
  exact ⟨s', ⟨hs, hs', hnext, hid⟩, hid⟩

/-- **The walk does not throw.** -/
theorem generateGraphForOneRoot_never_throws (h : Walkable streams) : ∀ (fuel : Nat)
    {loopHash : List UInt32} {s : TrexStream} {offset : Rat} {obj : TrexStreamsGraphObj}
      {e : GraphErr},
    s ∈ enabledOf streams →
    generateGraphForOneRoot (streamsHash streams) fuel loopHash s.streamId offset obj = .error e →
    e = .diverges := by
  intro fuel
  induction fuel with
  | zero =>
    intro loopHash s offset obj e _ herr
    cases herr
    rfl
  | succ fuel ih =>
    intro loopHash s offset obj e hs herr
    unfold generateGraphForOneRoot at herr
    simp only [h.at? hs] at herr
    split at herr
    · cases herr
    · rename_i hnext
      split at herr
      · cases herr
      · obtain ⟨s', hlink, hid⟩ := h.next hs hnext
        rw [← hid] at herr
        exact ih hlink.2.1 herr

/-- The streams of the loop hash lead to the stream the walk is at. -/
def LeadTo (ss : List TrexStream) (loopHash : List UInt32) (s : TrexStream) : Prop :=
  ∀ id ∈ loopHash, ∃ v ∈ ss, v.streamId = id ∧ Relation.ReflTransGen (NextOf ss) v s

/-- A stream from which the walk gets something to read: it adds an event, or it is on a loop. -/
def Gives (ss : List TrexStream) (s : TrexStream) : Prop := ¬ s.Silent ∨ OnLoop ss s

/-- Where the walk gets something to read, some stream that it led to gives it. -/
theorem gives_of_ready (h : Walkable streams) :
    ∀ (fuel : Nat) {loopHash : List UInt32} {s : TrexStream}
    {offset : Rat} {obj obj' : TrexStreamsGraphObj}, s ∈ enabledOf streams →
    LeadTo (enabledOf streams) loopHash s →
    generateGraphForOneRoot (streamsHash streams) fuel loopHash s.streamId offset obj = .ok obj' →
    obj'.Ready → obj.Ready ∨ ∃ v ∈ enabledOf streams, Gives (enabledOf streams) v := by
  intro fuel
  induction fuel with
  | zero => exact fun _ _ hwalk => nomatch hwalk
  | succ fuel ih =>
    intro loopHash s offset obj obj' hs hlead hwalk hready
    unfold generateGraphForOneRoot at hwalk
    simp only [h.at? hs] at hwalk
    -- the events of the stream itself
    have hadded : (addRateEventsForStream offset s obj).2.Ready →
        obj.Ready ∨ ∃ v ∈ enabledOf streams, Gives (enabledOf streams) v := by
      intro hr
      rcases (ready_addRateEventsForStream offset s obj).mp hr with hold | hloud
      · exact Or.inl hold
      · exact Or.inr ⟨s, hs, Or.inl hloud⟩
    split at hwalk
    · cases hwalk
      exact hadded hready
    · rename_i hnext
      obtain ⟨s', hlink, hid⟩ := h.next hs hnext
      have hlead' : LeadTo (enabledOf streams) (s.streamId :: loopHash) s := by
        intro id hmem
        rcases mem_cons.mp hmem with rfl | hold
        · exact ⟨s, hs, rfl, Relation.ReflTransGen.refl⟩
        · exact hlead id hold
      split at hwalk
      · -- the next stream was there before: it leads to this one
        rename_i hloop
        obtain ⟨v, hv, hvid, hpath⟩ := hlead' _ hloop
        obtain rfl : v = s' := inj_on_of_nodup_map h.wellFormed.unique hv hlink.2.1
          (hvid.trans hid.symm)
        exact Or.inr ⟨s, hs, Or.inr (Relation.TransGen.head' hlink hpath)⟩
      · rw [← hid] at hwalk
        have hlead'' : LeadTo (enabledOf streams) (s.streamId :: loopHash) s' := by
          intro id hmem
          obtain ⟨v, hv, hvid, hpath⟩ := hlead' id hmem
          exact ⟨v, hv, hvid, hpath.tail hlink⟩
        rcases ih hlink.2.1 hlead'' hwalk hready with hold | hgives
        · exact hadded hold
        · exact Or.inr hgives

/-- What was readable stays readable. -/
theorem ready_walk (hash : List TrexStream) :
    ∀ (fuel : Nat) {loopHash : List UInt32} {streamId : UInt32}
    {offset : Rat} {obj obj' : TrexStreamsGraphObj},
    generateGraphForOneRoot hash fuel loopHash streamId offset obj = .ok obj' →
    obj.Ready → obj'.Ready := by
  intro fuel
  induction fuel with
  | zero => exact fun hwalk => nomatch hwalk
  | succ fuel ih =>
    intro loopHash streamId offset obj obj' hwalk hready
    unfold generateGraphForOneRoot at hwalk
    split at hwalk
    · cases hwalk
    · rename_i s _
      have hadded := (ready_addRateEventsForStream offset s obj).mpr (Or.inl hready)
      simp only at hwalk
      split at hwalk
      · cases hwalk
        exact hadded
      · split at hwalk
        · cases hwalk
          exact Or.inl rfl
        · exact ih hwalk hadded

/-- A stream reached from another one is that one, or it is reached from its next stream. -/
theorem reached_cases {s s' t : TrexStream} (h : Walkable streams)
    (hlink : NextOf (enabledOf streams) s s')
    (hpath : Relation.ReflTransGen (NextOf (enabledOf streams)) s t) :
    t = s ∨ Relation.ReflTransGen (NextOf (enabledOf streams)) s' t := by
  rcases Relation.ReflTransGen.cases_head hpath with rfl | ⟨v, hv, hrest⟩
  · exact Or.inl rfl
  · obtain rfl : v = s' := inj_on_of_nodup_map h.wellFormed.unique hv.2.1 hlink.2.1
      (hv.2.2.2.trans hlink.2.2.2.symm)
    exact Or.inr hrest

/-- **Every stream that the walk leads to is looked at**: if one of them gives something to read, it
can be read at the end. -/
theorem ready_of_gives (h : Walkable streams) :
    ∀ (fuel : Nat) {loopHash : List UInt32} {s t : TrexStream}
    {offset : Rat} {obj obj' : TrexStreamsGraphObj}, s ∈ enabledOf streams →
    generateGraphForOneRoot (streamsHash streams) fuel loopHash s.streamId offset obj = .ok obj' →
    Relation.ReflTransGen (NextOf (enabledOf streams)) s t → Gives (enabledOf streams) t →
    obj'.Ready := by
  intro fuel
  induction fuel with
  | zero => exact fun _ hwalk => nomatch hwalk
  | succ fuel ih =>
    intro loopHash s t offset obj obj' hs hwalk hpath hgives
    unfold generateGraphForOneRoot at hwalk
    simp only [h.at? hs] at hwalk
    split at hwalk
    · -- no link leaves the stream, so it is `t`, and it is not on a loop
      rename_i hlast
      have hstuck : ∀ v, ¬ NextOf (enabledOf streams) s v := fun v hv => hv.2.2.1 hlast
      cases hwalk
      obtain rfl : t = s := by
        rcases Relation.ReflTransGen.cases_head hpath with heq | ⟨v, hv, -⟩
        · exact heq.symm
        · exact absurd hv (hstuck v)
      refine (ready_addRateEventsForStream offset t obj).mpr (Or.inr ?_)
      refine hgives.resolve_right fun hloop => ?_
      obtain ⟨v, hv, -⟩ := Relation.TransGen.head'_iff.mp hloop
      exact hstuck v hv
    · rename_i hnext
      split at hwalk
      · cases hwalk
        exact Or.inl rfl
      · obtain ⟨s', hlink, hid⟩ := h.next hs hnext
        rw [← hid] at hwalk
        rcases reached_cases h hlink hpath with rfl | hrest
        · rcases hgives with hloud | hloop
          · exact ready_walk _ _ hwalk
              ((ready_addRateEventsForStream offset t obj).mpr (Or.inr hloud))
          · -- the loop goes through the next stream
            obtain ⟨v, hv, hback⟩ := Relation.TransGen.head'_iff.mp hloop
            obtain rfl : v = s' := inj_on_of_nodup_map h.wellFormed.unique hv.2.1 hlink.2.1
              (hv.2.2.2.trans hlink.2.2.2.symm)
            exact ih hlink.2.1 hwalk hback (Or.inr hloop)
        · exact ih hlink.2.1 hwalk hrest hgives

/-! ## 3. All roots -/

/-- **The loop over the roots returns**, and what can be read comes from a stream that some root
leads to. -/
theorem generateRoots_ready (h : Walkable streams) :
    ∀ {roots : List TrexStream} (obj : TrexStreamsGraphObj),
    (∀ r ∈ roots, r ∈ enabledOf streams) →
    ∃ obj', generateRoots (streamsHash streams) roots obj = .ok obj'
      ∧ (obj.Ready → obj'.Ready)
      ∧ (obj'.Ready → obj.Ready ∨ ∃ v ∈ enabledOf streams, Gives (enabledOf streams) v)
      ∧ ∀ r ∈ roots, ∀ t, Relation.ReflTransGen (NextOf (enabledOf streams)) r t →
        Gives (enabledOf streams) t → obj'.Ready := by
  intro roots
  induction roots with
  | nil =>
    intro obj _
    exact ⟨obj, rfl, id, Or.inl, fun r hr => absurd hr (not_mem_nil)⟩
  | cons root rest ih =>
    intro obj hroots
    have hroot := hroots root mem_cons_self
    unfold generateRoots
    cases hone : generateGraphForOneRoot (streamsHash streams) ((streamsHash streams).length + 1) []
        root.streamId 0 obj with
    | error e =>
      obtain rfl := generateGraphForOneRoot_never_throws h _ hroot hone
      exact absurd hone (generateGraphForOneRoot_ends _ _ (nodup_singleton _) (nil_subset _)
        (by simp))
    | ok obj1 =>
      obtain ⟨obj', hrest, hkeep, hback, hgives⟩ :=
        ih obj1 (fun r hr => hroots r (mem_cons_of_mem _ hr))
      refine ⟨obj', hrest, fun hready => hkeep (ready_walk _ _ hone hready), ?_, ?_⟩
      · intro hready
        rcases hback hready with hready1 | hv
        · exact gives_of_ready h _ hroot (fun id hid => absurd hid (not_mem_nil)) hone hready1
        · exact Or.inr hv
      · intro r hr t hpath ht
        rcases mem_cons.mp hr with rfl | hr
        · exact hkeep (ready_of_gives h _ hroot hone hpath ht)
        · exact hgives r hr t hpath ht

/-- **`find_max_rate` returns exactly when there is something to read.** -/
theorem findMaxRate_ready (obj : TrexStreamsGraphObj) :
    (obj.Ready → ∃ graph, obj.generate = .ok graph)
      ∧ (¬ obj.Ready → obj.generate = .error .undefined) := by
  unfold TrexStreamsGraphObj.generate TrexStreamsGraphObj.findMaxRate
  generalize hevents : obj.rateEvents.insertionSort (fun first second => first.time ≤ second.time) =
    events
  have hperm : events.Perm obj.rateEvents := hevents ▸ perm_insertionSort _ _
  constructor
  · intro hready
    by_cases hinf : obj.expectedDuration = -1
    · simp [hinf]
    · obtain ⟨ev, hlast⟩ : ∃ ev, events.getLast? = some ev := by
        have hne : events ≠ [] := fun hnil => by
          rw [hnil] at hperm
          exact hready.resolve_left hinf (nil_perm.mp hperm)
        exact ⟨_, List.getLast?_eq_some_getLast hne⟩
      simp [hinf, hlast]
  · intro hready
    obtain ⟨hfin, hnone⟩ := not_or.mp hready
    have hnil : events = [] := by
      rw [not_not.mp hnone] at hperm
      exact perm_nil.mp hperm
    simp [hfin, hnil]

/-! ## 4. The lists of streams with a graph -/

/-- Of a list that the checks accept: the graph is made, or the last event of an empty list is read,
and which of them does not depend on the order. -/
theorem generate_accepted (h : Walkable streams) :
    ((∃ v ∈ enabledOf streams, Gives (enabledOf streams) v) → ∃ graph, generate streams = .ok graph)
      ∧ ((¬ ∃ v ∈ enabledOf streams, Gives (enabledOf streams) v) →
          generate streams = .error .undefined) := by
  have hroots : ∀ r ∈ streams.filter (fun s => s.enabled && s.selfStart),
      r ∈ enabledOf streams := by
    intro r hr
    obtain ⟨hmem, hflags⟩ := mem_filter.mp hr
    exact mem_filter.mpr ⟨hmem, (Bool.and_eq_true_iff.mp hflags).1⟩
  obtain ⟨obj, hobj, -, hback, hgives⟩ := generateRoots_ready h {} hroots
  have heq : generate streams = obj.generate := by
    unfold generate
    simp only [hobj]
    rfl
  rw [heq]
  constructor
  · rintro ⟨v, hv, hgive⟩
    obtain ⟨r, hr, hself, hpath⟩ := h.wellFormed.reachable v hv
    have hmem : r ∈ streams.filter (fun s => s.enabled && s.selfStart) := by
      obtain ⟨hin, hen⟩ := mem_filter.mp hr
      exact mem_filter.mpr ⟨hin, Bool.and_eq_true_iff.mpr ⟨hen, hself⟩⟩
    exact (findMaxRate_ready obj).1 (hgives r hmem v hpath hgive)
  · intro hnone
    refine (findMaxRate_ready obj).2 fun hready => ?_
    rcases hback hready with hempty | hv
    · -- the graph starts without events and with a duration of 0
      rcases hempty with hdur | hev
      · exact absurd hdur (by decide)
      · exact hev rfl
    · exact hnone hv

end Walk

/-- **Which accepted lists have a graph**: those in which some enabled stream has a burst, or comes
back to itself.  Of every other list the last event is read where there is none; nothing else goes
wrong.  The walk needs of the compiler that the list is `Walkable`. -/
theorem graph_total_iff (rand : Nat → Nat → Nat) (portId : UInt8) (streams : List TrexStream)
    (n : UInt8) (factor : Rat) (objs : List TrexStreamsCompiledObj)
    (h : compileAll rand portId streams n factor = .ok objs) :
    ((∃ graph, generate streams = .ok graph) ↔ ∃ s ∈ enabledOf streams,
      ¬ (s.type = .stMULTI_BURST ∧ s.numBursts = 0)
        ∨ Relation.TransGen (NextOf (enabledOf streams)) s s)
    ∧ ∀ e, generate streams = .error e → e = .undefined := by
  obtain ⟨⟨nodes, warnings⟩, hpre, -⟩ := bind_eq_ok h
  obtain ⟨hgives, hnone⟩ := generate_accepted (walkable_of_accepted hpre)
  constructor
  · constructor
    · rintro ⟨graph, hgraph⟩
      by_contra hsilent
      rw [hnone hsilent] at hgraph
      cases hgraph
    · exact hgives
  · intro e herr
    by_cases hv : ∃ v ∈ enabledOf streams, Gives (enabledOf streams) v
    · obtain ⟨graph, hgraph⟩ := hgives hv
      rw [hgraph] at herr
      cases herr
    · rw [hnone hv] at herr
      cases herr
      rfl

/-- A stream that is not enabled. -/
def disabledStream : TrexStream := plainStream 7 (-1) true false

/-- A chain of two streams, and a stream that is not enabled. -/
def chainAndDisabled : List TrexStream :=
    [plainStream 1 2 true true, plainStream 2 (-1) false true, disabledStream]

/-- The disabled stream is compiled to nothing, and the chain has a graph. -/
theorem graph_total_iff_chain : ∃ graph, generate chainAndDisabled = .ok graph := by
  have hok : (compileAll (fun _ _ => 0) 0 chainAndDisabled 1 1).isOk = true := by decide +kernel
  cases hobjs : compileAll (fun _ _ => 0) 0 chainAndDisabled 1 1 with
  | error e =>
    rw [hobjs] at hok
    cases hok
  | ok objs =>
    refine (graph_total_iff _ _ _ _ _ objs hobjs).1.mpr ⟨plainStream 1 2 true true, ?_, Or.inl ?_⟩
    · decide
    · decide

/-- **A list whose streams are all disabled is accepted, and has no events.** -/
theorem disabled_list_has_no_events :
    (∃ objs, compileAll (fun _ _ => 0) 0 [disabledStream] 1 1 = .ok objs)
      ∧ generate [disabledStream] = .error .undefined :=
  ⟨⟨[⟨0, [], false⟩], by decide +kernel⟩, by decide +kernel⟩

end TrexStreamsGraph

end Trex.Stream
