/-
# Which streams the compiler accepts

`pre_compile_check` is three passes over a map of nodes; `WellFormed` says of the enabled streams
themselves what the passes are for: distinct ids, links that lead to an enabled stream or nowhere,
no link out of a continuous stream, and every stream reached from a self-start stream.

The nodes of an accepted list are its enabled streams in order (`allocatePass_ok_iff`), so the map
is read off the list, and the marking loop is `Lib.markLoop` on it.
-/
import Trex.Stream.Compiler

namespace Trex.Stream

open Trex.Lib Trex.Vm List

/-! ## 1. Well-formed graphs of streams -/

/-- The streams that take part. -/
def enabledOf (streams : List TrexStream) : List TrexStream := streams.filter TrexStream.enabled

/-- A link of the graph: the next stream of `s` is the stream `s'` of the list. -/
def NextOf (ss : List TrexStream) (s s' : TrexStream) : Prop :=
  s ∈ ss ∧ s' ∈ ss ∧ s.nextStreamId ≠ -1 ∧ s'.streamId = s.nextKey

/-- A well-formed list of streams. -/
structure WellFormed (ss : List TrexStream) : Prop where
  unique : (ss.map TrexStream.streamId).Nodup
  next : ∀ s ∈ ss, s.nextStreamId = -1 ∨ ∃ s' ∈ ss, s'.streamId = s.nextKey
  continuous : ∀ s ∈ ss, s.type = .stCONTINUOUS → s.nextStreamId = -1
  reachable : ∀ s ∈ ss, ∃ r ∈ ss, r.selfStart = true ∧ Relation.ReflTransGen (NextOf ss) r s

/-! ## 2. The map of an accepted list -/

/-- The nodes of a list, numbered from `k` on. -/
def nodesOf : Nat → List TrexStream → GraphNodeMap
  | _, [] => []
  | k, s :: ss => ⟨s, Int32.ofNat k⟩ :: nodesOf (k + 1) ss

theorem nodesOf_append : ∀ (ss ss' : List TrexStream) (k : Nat),
    nodesOf k (ss ++ ss') = nodesOf k ss ++ nodesOf (k + ss.length) ss'
  | [], ss', k => rfl
  | s :: ss, ss', k => by
    have hlen : k + (s :: ss).length = k + 1 + ss.length := by
      simp only [length_cons]
      omega
    rw [hlen, cons_append, nodesOf, nodesOf, nodesOf_append ss ss', cons_append]

theorem nodesOf_streams : ∀ (k : Nat) (ss : List TrexStream),
    (nodesOf k ss).map GraphNode.stream = ss
  | _, [] => rfl
  | k, s :: ss => by rw [nodesOf, map_cons, nodesOf_streams]

variable {ss : List TrexStream} {s : TrexStream}

variable {k : Nat} {streams : List TrexStream}

theorem mem_nodesOf {n : GraphNode} (h : n ∈ nodesOf k ss) :
    n.stream ∈ ss := by
  have := mem_map_of_mem (f := GraphNode.stream) h
  rwa [nodesOf_streams] at this

theorem exists_node (h : s ∈ ss) :
    ∃ n ∈ nodesOf k ss, n.stream = s := by
  rw [← nodesOf_streams k ss] at h
  exact mem_map.mp h

/-- The map has a node for an id exactly when a stream has it. -/
theorem find_eq_none_iff (k : Nat) (ss : List TrexStream) (id : UInt32) :
    (nodesOf k ss).find id = none ↔ id ∉ ss.map TrexStream.streamId := by
  rw [GraphNodeMap.find, List.find?_eq_none]
  constructor
  · rintro h hmem
    obtain ⟨s, hs, rfl⟩ := mem_map.mp hmem
    obtain ⟨n, hn, rfl⟩ := exists_node (k := k) hs
    exact h n hn (by simp)
  · rintro h n hn heq
    exact h (mem_map.mpr ⟨n.stream, mem_nodesOf hn, by simpa using heq⟩)

theorem find_stream {id : UInt32} {n : GraphNode} (h : (nodesOf k ss).find id = some n) :
    n.stream ∈ ss ∧ n.stream.streamId = id := by
  rw [GraphNodeMap.find] at h
  exact ⟨mem_nodesOf (mem_of_find?_eq_some h), by simpa using List.find?_some h⟩

theorem has_iff (k : Nat) (ss : List TrexStream) {id : UInt32} (hid : id ≠ deadEndId) :
    (nodesOf k ss).has id = true ↔ id ∈ ss.map TrexStream.streamId := by
  rw [GraphNodeMap.has, GraphNodeMap.get, if_neg hid, Option.isSome_map, ← Decidable.not_iff_not,
    Bool.not_eq_true, Option.isSome_eq_false_iff, Option.isNone_iff_eq_none, find_eq_none_iff]

theorem checkStream_ok_iff (s : TrexStream) :
    checkStream s = .ok () ↔ (s.type = .stCONTINUOUS → s.nextStreamId = -1) := by
  unfold checkStream
  split
  · rename_i h
    simp only [reduceCtorEq, false_iff]
    exact fun hc => h.2 (hc h.1)
  · rename_i h
    refine ⟨fun _ hc => ?_, fun _ => rfl⟩
    by_contra hn
    exact h ⟨hc, hn⟩

/-- **`allocate_pass`**: it succeeds when the ids are new and no continuous stream has a link, and
then the nodes are the enabled streams in order. -/
theorem allocatePass_ok_iff : ∀ (streams pre : List TrexStream) (nodes : GraphNodeMap),
    (∀ s ∈ streams, s.streamId ≠ deadEndId) → (pre.map TrexStream.streamId).Nodup →
      (allocatePass pre.length (nodesOf 0 pre) streams = .ok nodes
        ↔ nodes = nodesOf 0 (pre ++ enabledOf streams)
          ∧ ((pre ++ enabledOf streams).map TrexStream.streamId).Nodup
          ∧ ∀ s ∈ enabledOf streams, s.type = .stCONTINUOUS → s.nextStreamId = -1)
  | [], pre, nodes, _, hnd => by
    simp only [allocatePass, enabledOf, filter_nil, append_nil, Except.ok.injEq]
    constructor
    · rintro rfl
      exact ⟨rfl, hnd, fun s hs => absurd hs (by simp)⟩
    · exact fun h => h.1.symm
  | s :: rest, pre, nodes, hids, hnd => by
    have hrest : ∀ x ∈ rest, x.streamId ≠ deadEndId := fun x hx => hids x (by simp [hx])
    cases hen : s.enabled with
    | false =>
      have hfilter : enabledOf (s :: rest) = enabledOf rest := by simp [enabledOf, hen]
      rw [hfilter, ← allocatePass_ok_iff rest pre nodes hrest hnd]
      simp [allocatePass, hen]
    | true =>
      have hfilter : enabledOf (s :: rest) = s :: enabledOf rest := by simp [enabledOf, hen]
      have hstep : pre ++ enabledOf (s :: rest) = (pre ++ [s]) ++ enabledOf rest := by
        rw [hfilter, append_assoc, singleton_append]
      have hcont : (∀ x ∈ enabledOf (s :: rest), x.type = .stCONTINUOUS → x.nextStreamId = -1)
          ↔ (s.type = .stCONTINUOUS → s.nextStreamId = -1)
            ∧ ∀ x ∈ enabledOf rest, x.type = .stCONTINUOUS → x.nextStreamId = -1 := by
        rw [hfilter, forall_mem_cons]
      have hhas := has_iff 0 pre (hids s (by simp))
      rw [hstep, hcont]
      simp only [allocatePass, hen, Bool.not_true, Bool.false_eq_true, if_false]
      by_cases hchk : checkStream s = .ok ()
      · rw [hchk]
        have hc := (checkStream_ok_iff s).mp hchk
        simp only [bind, Except.bind]
        by_cases hdup : s.streamId ∈ pre.map TrexStream.streamId
        · -- a second stream with the id
          rw [if_pos (hhas.mpr hdup)]
          refine ⟨fun h => (by cases h), fun h => absurd h.2.1 fun hnd' => ?_⟩
          rw [map_append, map_append, append_assoc] at hnd'
          exact (nodup_append.mp hnd').2.2 _ hdup s.streamId (by simp) rfl
        · rw [if_neg (fun h => hdup (hhas.mp h))]
          have hnd' : ((pre ++ [s]).map TrexStream.streamId).Nodup := by
            rw [map_append, map_singleton]
            exact List.Nodup.append hnd (by simp) (disjoint_singleton.mpr hdup)
          have hnodes : nodesOf 0 pre ++ [⟨s, Int32.ofNat pre.length⟩] =
              nodesOf 0 (pre ++ [s]) := by
            rw [nodesOf_append, Nat.zero_add]
            rfl
          have hlen : pre.length + 1 = (pre ++ [s]).length := by simp
          rw [hnodes, hlen, allocatePass_ok_iff rest (pre ++ [s]) nodes hrest hnd']
          exact ⟨fun h => ⟨h.1, h.2.1, hc, h.2.2⟩, fun h => ⟨h.1, h.2.1, h.2.2.2⟩⟩
      · have hc : ¬ (s.type = .stCONTINUOUS → s.nextStreamId = -1) :=
          fun h => hchk ((checkStream_ok_iff s).mpr h)
        have herr : ∃ e, checkStream s = .error e := by
          cases hx : checkStream s with
          | error e => exact ⟨e, rfl⟩
          | ok u => exact absurd hx hchk
        obtain ⟨e, he⟩ := herr
        rw [he]
        exact ⟨fun h => (by cases h), fun h => absurd h.2.2.1 hc⟩

/-- The reserved id is taken by the dead end, so no accepted stream has it. -/
theorem allocatePass_ids : ∀ {streams : List TrexStream} {k : Nat} {nodes res : GraphNodeMap},
    allocatePass k nodes streams = .ok res → ∀ s ∈ enabledOf streams, s.streamId ≠ deadEndId
  | [], k, nodes, res, _, s, hs => absurd hs (by simp [enabledOf])
  | x :: rest, k, nodes, res, h, s, hs => by
    cases hen : x.enabled with
    | false =>
      have hfilter : enabledOf (x :: rest) = enabledOf rest := by simp [enabledOf, hen]
      simp only [allocatePass, hen, Bool.not_false, if_true] at h
      exact allocatePass_ids h s (hfilter ▸ hs)
    | true =>
      have hfilter : enabledOf (x :: rest) = x :: enabledOf rest := by simp [enabledOf, hen]
      simp only [allocatePass, hen, Bool.not_true, Bool.false_eq_true, if_false] at h
      obtain ⟨⟨⟩, -, h⟩ := bind_eq_ok h
      split at h
      · cases h
      · rename_i hhas
        rcases mem_cons.mp (hfilter ▸ hs) with rfl | hs
        · intro hdead
          exact hhas (by simp [GraphNodeMap.has, GraphNodeMap.get, hdead])
        · exact allocatePass_ids h s hs

/-! ## 3. Links -/

/-- The key of the dead end belongs to the id -1 alone. -/
theorem nextKey_eq_deadEndId_iff (s : TrexStream) :
    s.nextKey = deadEndId ↔ s.nextStreamId = -1 := by
  have hm : deadEndId = (-1 : Int32).toUInt32 := by decide
  rw [TrexStream.nextKey, hm]
  exact ⟨fun h => congrArg Int32.ofUInt32 h, fun h => congrArg Int32.toUInt32 h⟩

/-- **`direct_pass`**: every link leads to a node or to the dead end. -/
theorem directNodes_ok_iff (nodes : GraphNodeMap) : ∀ rest : List GraphNode,
    directNodes nodes rest = .ok () ↔ ∀ n ∈ rest, (nodes.get n.stream.nextKey).isSome = true
  | [] => by simp [directNodes]
  | n :: rest => by
    rw [forall_mem_cons, ← directNodes_ok_iff nodes rest, directNodes]
    split
    · rename_i hnone
      simp [hnone]
    · rename_i hsome
      simp [hsome]

theorem get_isSome_iff (ss : List TrexStream) (s : TrexStream) :
    ((nodesOf 0 ss).get s.nextKey).isSome = true
      ↔ s.nextStreamId = -1 ∨ ∃ s' ∈ ss, s'.streamId = s.nextKey := by
  by_cases hend : s.nextKey = deadEndId
  · simp [GraphNodeMap.get, hend, (nextKey_eq_deadEndId_iff s).mp hend]
  · have hne : ¬ s.nextStreamId = -1 := fun h => hend ((nextKey_eq_deadEndId_iff s).mpr h)
    have := has_iff 0 ss hend
    rw [GraphNodeMap.has] at this
    simp [this, hne]

/-- The node that a stream's id finds is its own. -/
theorem find_self (hnd : (ss.map TrexStream.streamId).Nodup) (hs : s ∈ ss) :
    ∃ n, (nodesOf 0 ss).find s.streamId = some n ∧ n.stream = s := by
  cases hf : (nodesOf 0 ss).find s.streamId with
  | none => exact absurd (mem_map_of_mem hs) ((find_eq_none_iff 0 ss _).mp hf)
  | some n =>
    obtain ⟨hmem, hid⟩ := find_stream hf
    exact ⟨n, rfl, inj_on_of_nodup_map hnd hmem hs hid⟩

section Marks

variable {ss : List TrexStream} (hnd : (ss.map TrexStream.streamId).Nodup)

include hnd

/-- A link of the map out of a node is a link of the graph, or leads to the dead end. -/
theorem link_iff (hs : s ∈ ss) (p : NodePtr) :
    Link (nextPtr (nodesOf 0 ss)) (.node s.streamId) p
      ↔ (p = .deadEnd ∧ s.nextStreamId = -1) ∨ ∃ s', p = .node s'.streamId ∧ NextOf ss s s' := by
  obtain ⟨n, hn, rfl⟩ := find_self hnd hs
  rw [Link, nextPtr, hn, Option.bind_some, GraphNodeMap.get]
  by_cases hend : n.stream.nextKey = deadEndId
  · have hone := (nextKey_eq_deadEndId_iff _).mp hend
    rw [if_pos hend]
    constructor
    · intro h
      exact Or.inl ⟨(Option.some.inj h).symm, hone⟩
    · rintro (⟨rfl, -⟩ | ⟨s', -, hnext⟩)
      · rfl
      · exact absurd hone hnext.2.2.1
  · have hne : ¬ n.stream.nextStreamId = -1 := fun h => hend ((nextKey_eq_deadEndId_iff _).mpr h)
    rw [if_neg hend]
    constructor
    · intro h
      obtain ⟨n', hn', rfl⟩ := Option.map_eq_some_iff.mp h
      obtain ⟨hmem, hid⟩ := find_stream hn'
      exact Or.inr ⟨n'.stream, rfl, hs, hmem, hne, hid⟩
    · rintro (⟨-, h⟩ | ⟨s', rfl, hnext⟩)
      · exact absurd h hne
      · obtain ⟨n', hn', hst⟩ := find_self hnd hnext.2.1
        rw [← hnext.2.2.2, hn', Option.map_some, hst]

/-- A path of the graph is a path of the map. -/
theorem path_of_reach {r : TrexStream} (h : Relation.ReflTransGen (NextOf ss) r s) :
    Relation.ReflTransGen (Link (nextPtr (nodesOf 0 ss))) (.node r.streamId)
        (.node s.streamId) := by
  induction h with
  | refl => exact Relation.ReflTransGen.refl
  | tail _ hlink ih =>
    exact ih.tail ((link_iff hnd hlink.1 _).mpr (Or.inr ⟨_, rfl, hlink⟩))

/-- A path of the map from a stream leads to a stream by a path of the graph, or to the dead end. -/
theorem reach_of_path {r : TrexStream} (hr : r ∈ ss) {p : NodePtr}
    (h : Relation.ReflTransGen (Link (nextPtr (nodesOf 0 ss))) (.node r.streamId) p) :
    p = .deadEnd ∨ ∃ s ∈ ss, p = .node s.streamId ∧ Relation.ReflTransGen (NextOf ss) r s := by
  induction h with
  | refl => exact Or.inr ⟨r, hr, rfl, Relation.ReflTransGen.refl⟩
  | tail _ hlink ih =>
    rcases ih with rfl | ⟨s, hs, rfl, hreach⟩
    · cases hlink
    · rcases (link_iff hnd hs _).mp hlink with ⟨rfl, -⟩ | ⟨s', rfl, hnext⟩
      · exact Or.inl rfl
      · exact Or.inr ⟨s', hnext.2.1, rfl, hreach.tail hnext⟩

end Marks

/-! ## 4. The marking loop -/

/-- **The marking loop ends on every map**, whatever its links are. -/
theorem markLoop_nodes_total (nodes : GraphNodeMap) :
    ∃ marked, markLoop (nextPtr nodes) (nodes.getRoots.length + nodes.length + 1)
      nodes.getRoots.reverse [] = some marked := by
  have hget : ∀ id p, nodes.get id = some p →
      p ∈ NodePtr.deadEnd :: nodes.map fun n => .node n.stream.streamId := by
    intro id p hp
    unfold GraphNodeMap.get at hp
    split at hp
    · cases hp
      simp
    · obtain ⟨n, hn, rfl⟩ := Option.map_eq_some_iff.mp hp
      exact mem_cons_of_mem _ (mem_map.mpr ⟨n, mem_of_find?_eq_some hn, rfl⟩)
  refine markLoop_total (NodePtr.deadEnd :: nodes.map fun n =>
    .node n.stream.streamId) ?_ _ _ _ ?_ (fun a ha => absurd ha (by simp)) nodup_nil ?_
  · rintro (_ | id) - p hp
    · cases hp
    · obtain ⟨n, -, hn⟩ := Option.bind_eq_some_iff.mp hp
      exact hget _ _ hn
  · intro p hp
    rw [mem_reverse] at hp
    obtain ⟨n, hn, rfl⟩ := mem_map.mp hp
    exact mem_cons_of_mem _ (mem_map.mpr ⟨n, (mem_filter.mp hn).1, rfl⟩)
  · simp only [length_reverse, length_cons, length_map, length_nil]
    omega

/-- **`check_for_unreachable_streams`** finds every stream marked exactly when a self-start stream
leads to it. -/
theorem checkForUnreachableStreams_ok_iff (hnd : (ss.map TrexStream.streamId).Nodup) :
    checkForUnreachableStreams (nodesOf 0 ss) = .ok ()
      ↔ ∀ s ∈ ss, ∃ r ∈ ss, r.selfStart = true ∧ Relation.ReflTransGen (NextOf ss) r s := by
  obtain ⟨marked, hmarked⟩ := markLoop_nodes_total (nodesOf 0 ss)
  have hmark : ∀ s ∈ ss, NodePtr.node s.streamId ∈ marked
      ↔ ∃ r ∈ ss, r.selfStart = true ∧ Relation.ReflTransGen (NextOf ss) r s := by
    intro s hs
    rw [mem_markLoop_iff hmarked]
    constructor
    · rintro ⟨p, hp, hpath⟩
      rw [mem_reverse] at hp
      obtain ⟨n, hn, rfl⟩ := mem_map.mp hp
      obtain ⟨hn, hself⟩ := mem_filter.mp hn
      have hr := mem_nodesOf hn
      rcases reach_of_path hnd hr hpath with h | ⟨s', hs', h, hreach⟩
      · cases h
      · have hss : s = s' := inj_on_of_nodup_map hnd hs hs' (NodePtr.node.inj h)
        exact ⟨n.stream, hr, hself, hss ▸ hreach⟩
    · rintro ⟨r, hr, hself, hreach⟩
      obtain ⟨n, hn, rfl⟩ := exists_node (k := 0) hr
      refine ⟨_, ?_, path_of_reach hnd hreach⟩
      rw [mem_reverse]
      exact mem_map.mpr ⟨n, mem_filter.mpr ⟨hn, hself⟩, rfl⟩
  simp only [checkForUnreachableStreams, hmarked]
  split
  · rename_i hemp
    simp only [true_iff]
    intro s hs
    rw [← hmark s hs]
    by_contra hnot
    obtain ⟨n, hn, rfl⟩ := exists_node (k := 0) hs
    have hin := filter_eq_nil_iff.mp (isEmpty_iff.mp hemp) n hn
    exact hin (by simpa using hnot)
  · rename_i hne
    simp only [reduceCtorEq, false_iff]
    intro hall
    refine hne (isEmpty_iff.mpr (filter_eq_nil_iff.mpr fun n hn hnot => ?_))
    have := (hmark n.stream (mem_nodesOf hn)).mpr (hall _ (mem_nodesOf hn))
    simp [this] at hnot

/-! ## 5. The verdict -/

/-- The nodes of an accepted list are its enabled streams. -/
theorem preCompileCheck_ok_iff (hids : ∀ s ∈ streams, s.streamId ≠ deadEndId)
    (nodes : GraphNodeMap) :
    (∃ warnings, preCompileCheck streams = .ok (nodes, warnings))
      ↔ nodes = nodesOf 0 (enabledOf streams) ∧ WellFormed (enabledOf streams) := by
  have halloc := allocatePass_ok_iff streams [] nodes hids nodup_nil
  simp only [nil_append] at halloc
  have hdirect : ∀ {ss : List TrexStream}, directNodes (nodesOf 0 ss) (nodesOf 0 ss) = .ok ()
      ↔ ∀ s ∈ ss, s.nextStreamId = -1 ∨ ∃ s' ∈ ss, s'.streamId = s.nextKey := by
    intro ss
    rw [directNodes_ok_iff]
    constructor
    · intro h s hs
      obtain ⟨n, hn, rfl⟩ := exists_node (k := 0) hs
      exact (get_isSome_iff ss _).mp (h n hn)
    · exact fun h n hn => (get_isSome_iff ss _).mpr (h _ (mem_nodesOf hn))
  constructor
  · rintro ⟨warnings, h⟩
    obtain ⟨nodes', h1, h⟩ := bind_eq_ok h
    obtain ⟨w, h2, h⟩ := bind_eq_ok h
    obtain ⟨⟨⟩, h3, h⟩ := bind_eq_ok h
    cases h
    obtain ⟨⟨⟩, h2, -⟩ := bind_eq_ok h2
    obtain ⟨rfl, huniq, hcont⟩ := halloc.mp h1
    exact ⟨rfl, huniq, hdirect.mp h2, hcont, (checkForUnreachableStreams_ok_iff huniq).mp h3⟩
  · rintro ⟨rfl, huniq, hnext, hcont, hreach⟩
    refine ⟨parentWarnings (nodesOf 0 (enabledOf streams)), ?_⟩
    have h1 := halloc.mpr ⟨rfl, huniq, hcont⟩
    have h2 := hdirect.mpr hnext
    have h3 := (checkForUnreachableStreams_ok_iff huniq).mpr hreach
    simp only [length_nil] at h1
    have h1' : allocatePass 0 [] streams = .ok (nodesOf 0 (enabledOf streams)) := h1
    simp only [preCompileCheck, directPass, h1', h2, h3, bind, Except.bind]

/-- The disabled streams are not looked at. -/
theorem allocatePass_enabledOf : ∀ (streams : List TrexStream) (k : Nat) (nodes : GraphNodeMap),
    allocatePass k nodes streams = allocatePass k nodes (enabledOf streams)
  | [], k, nodes => rfl
  | s :: rest, k, nodes => by
    cases hen : s.enabled with
    | false =>
      have hfilter : enabledOf (s :: rest) = enabledOf rest := by simp [enabledOf, hen]
      rw [hfilter, ← allocatePass_enabledOf rest]
      simp [allocatePass, hen]
    | true =>
      have hfilter : enabledOf (s :: rest) = s :: enabledOf rest := by simp [enabledOf, hen]
      rw [hfilter]
      simp [allocatePass, hen, allocatePass_enabledOf rest]

theorem preCompileCheck_enabledOf (streams : List TrexStream) :
    preCompileCheck streams = preCompileCheck (enabledOf streams) := by
  rw [preCompileCheck, allocatePass_enabledOf, preCompileCheck]

/-- **What an accepted list is**, with no assumption on its ids. -/
theorem accepted {nodes : GraphNodeMap} {warnings : List String}
    (h : preCompileCheck streams = .ok (nodes, warnings)) :
    nodes = nodesOf 0 (enabledOf streams) ∧ WellFormed (enabledOf streams)
      ∧ ∀ s ∈ enabledOf streams, s.streamId ≠ deadEndId := by
  have hids : ∀ s ∈ enabledOf streams, s.streamId ≠ deadEndId := by
    obtain ⟨nodes', h1, -⟩ := bind_eq_ok h
    exact allocatePass_ids h1
  have hidem : enabledOf (enabledOf streams) = enabledOf streams := by simp [enabledOf]
  rw [preCompileCheck_enabledOf] at h
  obtain ⟨h1, h2⟩ := (preCompileCheck_ok_iff hids nodes).mp ⟨warnings, h⟩
  rw [hidem] at h1 h2
  exact ⟨h1, h2, hids⟩

theorem allocatePass_ne_diverges : ∀ (streams : List TrexStream) (k : Nat) (nodes : GraphNodeMap),
    allocatePass k nodes streams ≠ .error .diverges
  | [], k, nodes => by simp [allocatePass]
  | s :: rest, k, nodes => by
    simp only [allocatePass]
    split
    · exact allocatePass_ne_diverges rest k nodes
    · intro h
      cases hchk : checkStream s with
      | error e =>
        rw [hchk] at h
        cases h
        unfold checkStream at hchk
        split at hchk <;> simp [compErr] at hchk
      | ok u =>
        rw [hchk] at h
        simp only [bind, Except.bind] at h
        split at h
        · simp [compErr] at h
        · exact allocatePass_ne_diverges rest _ _ h

theorem directNodes_ne_diverges (nodes : GraphNodeMap) : ∀ rest : List GraphNode,
    directNodes nodes rest ≠ .error .diverges
  | [] => by simp [directNodes]
  | n :: rest => by
    rw [directNodes]
    split
    · simp [compErr]
    · exact directNodes_ne_diverges nodes rest

/-- The check ends on every list of streams. -/
theorem preCompileCheck_ne_diverges (streams : List TrexStream) :
    preCompileCheck streams ≠ .error .diverges := by
  intro h
  cases h1 : allocatePass 0 [] streams with
  | error e =>
    simp only [preCompileCheck, h1, bind, Except.bind, Except.error.injEq] at h
    exact allocatePass_ne_diverges streams 0 [] (h ▸ h1)
  | ok nodes =>
    cases h2 : directNodes nodes nodes with
    | error e =>
      simp only [preCompileCheck, directPass, h1, h2, bind, Except.bind, Except.error.injEq] at h
      exact directNodes_ne_diverges nodes nodes (h ▸ h2)
    | ok u =>
      obtain ⟨marked, hmarked⟩ := markLoop_nodes_total nodes
      simp only [preCompileCheck, directPass, h1, h2, bind, Except.bind,
        checkForUnreachableStreams, hmarked] at h
      split at h
      · rename_i hx
        split at hx
        · cases hx
        · cases hx
          simp [compErr] at h
      · cases h

/-- **The checking phase accepts exactly the well-formed graphs** of the enabled streams; the
disabled ones do not influence it, and the marking loop ends on every graph.  The entries of
its stack and the nodes that are not marked bound its turns. -/
theorem pre_compile_check_exact (streams : List TrexStream)
    (hids : ∀ s ∈ streams, s.streamId ≠ deadEndId) :
    ((∃ res, preCompileCheck streams = .ok res) ↔ WellFormed (enabledOf streams))
      ∧ preCompileCheck streams = preCompileCheck (enabledOf streams)
      ∧ preCompileCheck streams ≠ .error .diverges := by
  refine ⟨?_, preCompileCheck_enabledOf streams, preCompileCheck_ne_diverges streams⟩
  constructor
  · rintro ⟨⟨nodes, warnings⟩, h⟩
    exact ((preCompileCheck_ok_iff hids nodes).mp ⟨warnings, h⟩).2
  · intro h
    obtain ⟨warnings, hw⟩ := (preCompileCheck_ok_iff hids _).mpr ⟨rfl, h⟩
    exact ⟨_, hw⟩

/-- A stream with an empty packet that sends one burst of ten packets. -/
def plainStream (id : UInt32) (next : Int32) (selfStart enabled : Bool) : TrexStream :=
  ⟨.stSINGLE_BURST, 0, id, 0, next, enabled, selfStart, {}, none, ⟨[], 0⟩, 1, 10, 1, 0⟩

/-- Two streams that trigger each other, the second one with an id that is negative as an `int`, and
a disabled one that points nowhere. -/
def cyclicStreams : List TrexStream :=
  [plainStream 7 (-2) true true, plainStream 0xFFFFFFFE 7 false true, plainStream 7 99 false false]

theorem pre_compile_check_exact_cyclicStreams : (∀ s ∈ cyclicStreams, s.streamId ≠ deadEndId)
    ∧ WellFormed (enabledOf cyclicStreams) := by
  have hids : ∀ s ∈ cyclicStreams, s.streamId ≠ deadEndId := by decide
  exact ⟨hids, ((pre_compile_check_exact cyclicStreams hids).1).mp ⟨_, rfl⟩⟩

end Trex.Stream
