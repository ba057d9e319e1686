/-
# The rates that a user can ask for

The time that a data-plane core adds to a node is a quotient of numbers from three places: the rate
and the gaps of a stream (`add_stream`), the multiplier of the start, and the factors of the
updates.  None of them is checked when it comes in, but for the updates that subtract.  A negative
one makes the scheduler go back in time, and a stream with one packet that leads to itself without a
gap holds it at one instant for ever.

`scheduler_time` says that these are the only ways: in every run in which they are positive where
they have to be (`RatesOk`), the times of every core do not decrease and no stream holds it.
-/
import Trex.Dp.Timing
import Trex.Proto.Safety

namespace Trex.Proto

open Trex.Lib Trex.Stream Trex.Cp Trex.Dp TrexStatelessDpCore TrexStatelessPort List
open Function (update_of_ne update_self)

/-! ## 1. The condition -/

/-- A stream that the control plane may be given, for `n` cores: its rate is positive, its gaps are
not negative, and if it leads to itself it has a gap, or no core has exactly one packet of its
burst. -/
structure StreamRated (n : UInt8) (s : TrexStream) : Prop where
  pps : 0 < s.pps
  isg : 0 ≤ s.isgUsec
  ibg : s.type = .stMULTI_BURST → 0 ≤ s.ibgUsec
  loop : s.nextKey = s.streamId → 0 < s.isgUsec ∨
    (s.type = .stMULTI_BURST ∧ s.numBursts ≠ 1 ∧ 0 < s.ibgUsec) ∨
    ∀ core < n.toNat, burstShare s.burstTotalPkts n.toNat core ≠ 1

/-- A request that keeps the rates positive. -/
def RequestRated {n : UInt8} (port : TrexStatelessPort n) : Request → Prop
  | .addStream stream => stream.enabled = true → StreamRated n stream
  | .start _ _ factor _ => 0 < factor
  | .update op newFactor => 0 < port.updateFactor op newFactor
  | _ => True

/-! ## 2. What reaches a core -/

/-- **The compiler keeps the rates positive.** -/
theorem compileAll_timed {rand : Nat → Nat → Nat} {portId : UInt8} {streams : List TrexStream}
    {n : UInt8} {factor : Rat} {objs : List TrexStreamsCompiledObj}
    (h : compileAll rand portId streams n factor = .ok objs)
    (hrated : ∀ s ∈ streams, s.enabled = true → StreamRated n s) (hfactor : 0 < factor) {core : Nat}
    {obj : TrexStreamsCompiledObj} (hobj : objs[core]? = some obj) : ObjTimed obj := by
  obtain ⟨-, hlength, hentries⟩ := compileAll_entries h
  obtain ⟨hlen, hentry⟩ := hentries obj (mem_of_getElem? hobj)
  obtain ⟨-, -, -, hcore⟩ := compileAll_core h hobj
  have hcoren : core < n.toNat := hlength ▸ (List.getElem?_eq_some_iff.mp hobj).1
  intro k e hk
  have hlt : k < (enabledOf streams).length := hlen ▸ (List.getElem?_eq_some_iff.mp hk).1
  have hs := List.getElem?_eq_getElem hlt
  obtain ⟨hmem, hen⟩ := mem_filter.mp (mem_of_getElem? hs)
  have hsr := hrated _ hmem hen
  generalize (enabledOf streams)[k] = s at hs hsr
  obtain ⟨id, next, hsans⟩ := hcore k s e hs hk
  have hpps := congrArg TrexStream.pps hsans
  have hisg := congrArg TrexStream.isgUsec hsans
  have hibg := congrArg TrexStream.ibgUsec hsans
  have htype := congrArg TrexStream.type hsans
  have hnum := congrArg TrexStream.numBursts hsans
  have hburst := congrArg TrexStream.burstTotalPkts hsans
  change e.pps = s.pps * (factor / n.toNat) at hpps
  change e.isgUsec = s.isgUsec at hisg
  change e.ibgUsec = s.ibgUsec at hibg
  change e.type = s.type at htype
  change e.numBursts = s.numBursts at hnum
  change e.burstTotalPkts = burstShare s.burstTotalPkts n.toNat core at hburst
  refine ⟨?_, ?_, ?_, ?_⟩
  · rw [hpps]
    have hn : (0 : Rat) < n.toNat := Nat.cast_pos.mpr (Nat.zero_lt_of_lt hcoren)
    exact mul_pos hsr.pps (div_pos hfactor hn)
  · rw [hisg]
    exact hsr.isg
  · rw [htype, hibg]
    exact hsr.ibg
  · intro hdp hself
    -- the entry leads to itself, so the stream does
    have hloop : s.nextKey = s.streamId := by
      have hpos := (isDpNextStream_iff e).mp hdp
      rcases (hentry k s e hs hk).next with ⟨-, hv⟩ | ⟨-, j, s', hj, hid, hv⟩
      · rw [hv] at hpos
        exact absurd hpos (by decide)
      · have hjlt : j < obj.objs.length := hlen ▸ (List.getElem?_eq_some_iff.mp hj).1
        have hsmall := (hentry j s' _ hj (List.getElem?_eq_getElem hjlt)).small
        rw [hv, Int32.toInt_ofNat_of_lt hsmall, Int.toNat_natCast] at hself
        subst hself
        rw [hs] at hj
        cases hj
        exact hid.symm
    rw [hisg, htype, hnum, hibg, hburst]
    rcases hsr.loop hloop with hgap | hgap | hshare
    · exact Or.inl hgap
    · exact Or.inr (Or.inl hgap)
    · exact Or.inr (Or.inr (hshare core hcoren))

section Port

variable {n : UInt8} {port : TrexStatelessPort n} {request : Request} {reply : Reply n}

/-- The streams of a port. -/
def TableRated (port : TrexStatelessPort n) :
    Prop := ∀ s ∈ port.streamTable, s.enabled = true → StreamRated n s

theorem handle_timed (htable : TableRated port) (hadm : port.Admissible request)
    (hreq : RequestRated port request) (h : port.handle request = .ok reply) :
    TableRated reply.port ∧ ∀ core, ∀ m ∈ reply.toDp core, m.Timed := by
  have hsilent : ∀ core, ∀ m ∈ (fun _ => [] : Fin n.toNat → List CpToDpMsg) core, m.Timed := by
    intro core m hm
    cases hm
  cases request with
  | addStream stream =>
    obtain ⟨_, -, h⟩ := bind_eq_ok h
    cases h
    refine ⟨?_, hsilent⟩
    intro s hs
    rcases mem_append.mp hs with hold | hnew
    · exact htable s (mem_of_mem_filter hold)
    · rw [mem_singleton.mp hnew]
      exact hreq
  | removeStream streamId =>
    obtain ⟨_, -, h⟩ := bind_eq_ok h
    cases h
    exact ⟨fun s hs => htable s (mem_of_mem_filter hs), hsilent⟩
  | removeAllStreams =>
    obtain ⟨_, -, h⟩ := bind_eq_ok h
    cases h
    refine ⟨?_, hsilent⟩
    intro s hs
    cases hs
  | start rand streams factor duration =>
    obtain ⟨_, -, h⟩ := bind_eq_ok h
    obtain ⟨objs, hcompile, h⟩ := bind_eq_ok h
    obtain ⟨eventId, -, h⟩ := bind_eq_ok h
    have hobjs := mapError_eq_ok hcompile
    split at h
    · cases h
    · cases h
      refine ⟨htable, ?_⟩
      intro core m hm
      obtain ⟨obj, hobj, rfl⟩ := mem_map.mp hm
      rw [Option.mem_toList] at hobj
      exact compileAll_timed hobjs (fun s hs => htable s (hadm.mem_iff.mp hs)) hreq hobj
  | stop =>
    unfold handle TrexStatelessPort.stopTraffic at h
    dsimp only at h
    split at h
    · cases h
      exact ⟨htable, hsilent⟩
    · cases h
      refine ⟨htable, fun core m hm => ?_⟩
      rw [mem_singleton.mp hm]
      trivial
  | pause =>
    obtain ⟨_, -, h⟩ := bind_eq_ok h
    split at h
    · cases h
    · split at h
      · cases h
      · cases h
        refine ⟨htable, fun core m hm => ?_⟩
        rw [mem_singleton.mp hm]
        trivial
  | resume =>
    obtain ⟨_, -, h⟩ := bind_eq_ok h
    cases h
    refine ⟨htable, fun core m hm => ?_⟩
    rw [mem_singleton.mp hm]
    trivial
  | update op newFactor =>
    obtain ⟨_, -, h⟩ := bind_eq_ok h
    dsimp only at h
    split at h
    · cases h
    · cases h
      refine ⟨htable, fun core m hm => ?_⟩
      rw [mem_singleton.mp hm]
      exact hreq

end Port

/-! ## 3. Runs -/

namespace TrexSystem

variable {n : UInt8} {s s' : TrexSystem n} {move : Move n} {k : Fin n.toNat} {times : List Rat}

/-- **The condition on a move.** -/
def RatesOk (s : TrexSystem n) : Move n → Prop
  | .request portId request => RequestRated (s.cp portId) request
  | _ => True

/-- A run, with the times of the nodes that the core `k` has popped, the last one first. -/
inductive PoppedBy (allowed : TrexSystem n → Move n → Prop) (k : Fin n.toNat) :
    TrexSystem n → List Rat → Prop
  | init {s : TrexSystem n} : s.Initial → PoppedBy allowed k s []
  | pop {s s' : TrexSystem n} {times : List Rat} {j : Nat} {x : QueueNode} :
      PoppedBy allowed k s times →
      allowed s (.core k (.pop j)) → Step s (.core k (.pop j)) s' → (s.cores k).queue[j]? = some x →
      PoppedBy allowed k s' ((s.cores k).nodeTime x :: times)
  | other {s s' : TrexSystem n} {times : List Rat} {move : Move n} : PoppedBy allowed k s times →
      allowed s move → Step s move s' → (∀ j, move ≠ .core k (.pop j)) → PoppedBy allowed k s' times

/-- The streams of the ports and the messages in the rings keep the rates positive. -/
structure Rated (s : TrexSystem n) : Prop where
  table : ∀ i, TableRated (s.cp i)
  rings : ∀ k, ∀ m ∈ s.toDp k, m.Timed

theorem Initial.rated (h : s.Initial) : s.Rated := by
  constructor
  · intro i st hst
    rw [(h.cp i).streamTable] at hst
    cases hst
  · intro k m hm
    rw [h.toDp] at hm
    cases hm

theorem handleEvent_streamTable (port : TrexStatelessPort n) (k : Fin n.toNat) (eventId : Int) :
    (port.handleEvent k eventId).streamTable = port.streamTable := by
  unfold TrexStatelessPort.handleEvent
  dsimp only
  split <;> rfl

theorem Rated.step (h : s.Rated) (hok : s.RatesOk move) (hstep : Step s move s') : s'.Rated := by
  cases hstep with
  | request hport hadm hreply =>
    rename_i portId request reply
    obtain ⟨htable, hmsgs⟩ := handle_timed (h.table portId) hadm hok hreply
    constructor
    · intro i
      by_cases hi : i = portId
      · subst hi
        rw [show (s.replied i reply).cp i = reply.port from update_self _ _ _]
        exact htable
      · rw [show (s.replied portId reply).cp i = s.cp i from update_of_ne hi _ _]
        exact h.table i
    · intro k m hm
      rcases mem_append.mp hm with hold | hnew
      · exact h.rings k m hold
      · exact hmsgs k m hnew
  | quit =>
    refine ⟨h.table, ?_⟩
    intro k m hm
    rcases mem_append.mp hm with hold | hnew
    · exact h.rings k m hold
    · rw [mem_singleton.mp hnew]
      trivial
  | deliver hring hen hc =>
    rename_i k m rest c
    refine ⟨h.table, ?_⟩
    intro j m' hm'
    by_cases hj : j = k
    · subst hj
      rw [show (s.delivered j c rest).toDp j = rest from update_self _ _ _] at hm'
      refine h.rings j m' ?_
      rw [hring]
      exact mem_cons_of_mem _ hm'
    · rw [show (s.delivered k c rest).toDp j = s.toDp j from update_of_ne hj _ _] at hm'
      exact h.rings j m' hm'
  | core ha hen hc => exact ⟨h.table, h.rings⟩
  | event hring =>
    rename_i k ev rest
    refine ⟨?_, h.rings⟩
    intro i
    unfold TableRated
    by_cases hi : i = ev.portId
    · subst hi
      rw [show (s.handleEvent k ev rest).cp ev.portId = (s.cp ev.portId).handleEvent k ev.eventId
        from update_self _ _ _, handleEvent_streamTable]
      exact h.table ev.portId
    · rw [show (s.handleEvent k ev rest).cp i = s.cp i from update_of_ne hi _ _]
      exact h.table i

/-- What a move does to a core: nothing, a step of the core, or its ring to the control plane gets
shorter. -/
theorem Step.core_cases (hstep : Step s move s') (k : Fin n.toNat) :
    s'.cores k = s.cores k ∨
      (∃ rest, s'.cores k = { s.cores k with ringToCp := rest }) ∨
      ∃ a, (s.cores k).Enabled a ∧ (s.cores k).step a = .ok (s'.cores k) ∧
        (∀ m, a = .msg m → m ∈ s.toDp k) ∧ (∀ j, a = .pop j → move = .core k (.pop j)) := by
  cases hstep with
  | request _ _ _ => exact Or.inl rfl
  | quit => exact Or.inl rfl
  | deliver hring hen hc =>
    rename_i j m rest c
    by_cases hk : k = j
    · subst hk
      refine Or.inr (Or.inr ⟨.msg m, hen, ?_, ?_, ?_⟩)
      · rw [show (s.delivered k c rest).cores k = c from update_self _ _ _]
        exact hc
      · intro m' hm'
        cases hm'
        rw [hring]
        exact mem_cons_self
      · intro j hj
        cases hj
    · exact Or.inl (update_of_ne hk _ _)
  | core ha hen hc =>
    rename_i j a c
    by_cases hk : k = j
    · subst hk
      refine Or.inr (Or.inr ⟨a, hen, ?_, ?_, ?_⟩)
      · dsimp only
        rw [update_self]
        exact hc
      · rintro m rfl
        exact ha.elim
      · rintro i rfl
        rfl
    · exact Or.inl (update_of_ne hk _ _)
  | event hring =>
    rename_i j ev rest
    by_cases hk : k = j
    · subst hk
      exact Or.inr (Or.inl ⟨rest, update_self _ _ _⟩)
    · exact Or.inl (update_of_ne hk _ _)

/-- Everything that is known of a core that has popped nothing after `last`. -/
structure CoreTimed (last : Rat) (c : TrexStatelessDpCore) : Prop where
  inv : c.Inv
  commands : CommandsOk c
  steered : c.Steered
  timed : c.Timed last

section Core

variable {c c' : TrexStatelessDpCore} {last : Rat}

theorem CoreTimed.ring (h : CoreTimed last c) (rest : List TrexDpPortEventMsg) :
    CoreTimed last { c with ringToCp := rest } :=
  ⟨⟨h.inv.pool, h.inv.fresh, h.inv.node, h.inv.next, h.inv.mode, h.inv.commandPort⟩, h.commands,
    ⟨h.steered.sync, h.steered.exit, h.steered.quit, h.steered.state⟩,
    ⟨h.timed.rated, h.timed.times, h.timed.cur, h.timed.sync⟩⟩

theorem CoreTimed.other (h : CoreTimed last c) {a : Act} (hen : c.Enabled a)
    (hmsg : ∀ m, a = .msg m → m.Timed) (hpop : ∀ j, a ≠ .pop j) (hstep : c.step a = .ok c') :
    CoreTimed last c' := by
  have hinv' : c'.Inv := (step_post h.inv h.commands hen).result hstep
  exact ⟨hinv', (step_effect hstep).2 h.commands, h.steered.step hen hstep,
    h.timed.other h.inv hinv' hen hmsg hpop hstep⟩

theorem CoreTimed.pop (h : CoreTimed last c) {j : Nat} {x : QueueNode} (hen : c.Enabled (.pop j))
    (hj : c.queue[j]? = some x) (hstep : c.step (.pop j) = .ok c') :
    last ≤ c.nodeTime x ∧ CoreTimed (c.nodeTime x) c' := by
  have hinv' : c'.Inv := (step_post h.inv h.commands hen).result hstep
  obtain ⟨hle, htimed⟩ := h.timed.pop h.inv hinv' h.steered hen hj hstep
  exact ⟨hle, hinv', (step_effect hstep).2 h.commands, h.steered.step hen hstep, htimed⟩

theorem coreTimed_of_initial (h : c.Initial) : CoreTimed c.curTimeSec c := by
  refine ⟨h.inv, ?_, h.steered, ?_⟩
  · rw [CommandsOk, commands, h.queue, h.nonActiveNodes]
    rfl
  · refine ⟨?_, ?_, fun _ _ => le_rfl, ?_⟩
    · intro p node hp
      rw [h.heap p] at hp
      cases hp
    · intro x hx
      rw [h.queue] at hx
      cases hx
    · intro time hp
      rw [h.phase] at hp
      cases hp

end Core

/-- **The run invariant.** -/
theorem PoppedBy.timed (h : PoppedBy RatesOk k s times) :
    s.Rated ∧ ∃ last, CoreTimed last (s.cores k) ∧ (∀ t ∈ times, t ≤ last) ∧
        times.Pairwise (· ≥ ·) := by
  induction h with
  | init hinit =>
    refine ⟨hinit.rated, _, coreTimed_of_initial (hinit.cores k).1, ?_, List.Pairwise.nil⟩
    intro t ht
    cases ht
  | pop hrun hok hstep hj ih =>
    rename_i s1 s2 times1 j x
    obtain ⟨hrated, last, hcore, hlast, hpairs⟩ := ih
    refine ⟨hrated.step hok hstep, ?_⟩
    cases hstep with
    | core ha hen hc =>
      obtain ⟨hle, hcore'⟩ := hcore.pop hen hj hc
      have hall : ∀ t ∈ times1, t ≤ (s1.cores k).nodeTime x := fun t ht => (hlast t ht).trans hle
      refine ⟨(s1.cores k).nodeTime x, ?_, ?_, pairwise_cons.mpr ⟨hall, hpairs⟩⟩
      · dsimp only
        rw [update_self]
        exact hcore'
      · intro t ht
        rcases mem_cons.mp ht with rfl | ht
        · exact le_rfl
        · exact hall t ht
  | other _ hok hstep hne ih =>
    obtain ⟨hrated, last, hcore, hlast, hpairs⟩ := ih
    refine ⟨hrated.step hok hstep, last, ?_, hlast, hpairs⟩
    rcases hstep.core_cases k with hsame | ⟨rest, hring⟩ | ⟨a, hen, hc, hmsg, hpop⟩
    · rw [hsame]
      exact hcore
    · rw [hring]
      exact hcore.ring rest
    · exact hcore.other hen (fun m hm => hrated.rings k m (hmsg m hm)) (fun j hj =>
        hne j (hpop j hj)) hc

/-- **The time of a core never goes back.**  In every run in which the rates and the multipliers are
positive and no gap is negative, the times of the nodes that a core pops do not decrease; what is
left in the queue or pushed after a pop is not before the node that was popped; there is a positive
gap between two packets of a continuous stream or of one burst; and no stream is popped in a row
without a bound before any time. -/
theorem scheduler_time (n : UInt8) (k : Fin n.toNat) (s : TrexSystem n) (times : List Rat)
    (h : PoppedBy RatesOk k s times) :
    times.Pairwise (· ≥ ·) ∧
    (∀ j x c', (s.cores k).Enabled (.pop j) → (s.cores k).queue[j]? = some x →
      (s.cores k).step (.pop j) = .ok c' → (∀ t ∈ times, t ≤ (s.cores k).nodeTime x) ∧
      (∀ y ∈ c'.queue, (s.cores k).nodeTime x ≤ c'.nodeTime y) ∧
      ∀ p node, x = .stateless p → (s.cores k).heap p = some node → node.state ≠ .ssFREE_RESUSE →
        MidPacket node → ∃ node', c'.heap p = some node' ∧ .stateless p ∈ c'.queue ∧
          node.time < node'.time) ∧
    ∀ p T, ∃ N, ¬ Held p T N (s.cores k) := by
  obtain ⟨-, last, hcore, hlast, hpairs⟩ := h.timed
  refine ⟨hpairs, ?_, fun p T => hcore.timed.exists_not_held hcore.inv hcore.commands p T⟩
  intro j x c' hen hj hstep
  obtain ⟨hle, hcore'⟩ := hcore.pop hen hj hstep
  refine ⟨fun t ht => (hlast t ht).trans hle, hcore'.timed.times, ?_⟩
  rintro p node rfl hp hstate hmid
  exact hcore.timed.gap hj hp hstate hmid hstep

/-! ## 4. Two runs -/

instance (n : UInt8) (s : TrexStream) : Decidable (StreamRated n s) :=
  decidable_of_iff (0 < s.pps ∧ 0 ≤ s.isgUsec ∧ (s.type = .stMULTI_BURST → 0 ≤ s.ibgUsec) ∧
    (s.nextKey = s.streamId → 0 < s.isgUsec ∨
      (s.type = .stMULTI_BURST ∧ s.numBursts ≠ 1 ∧ 0 < s.ibgUsec) ∨
      ∀ core < n.toNat, burstShare s.burstTotalPkts n.toNat core ≠ 1))
    ⟨fun h => ⟨h.1, h.2.1, h.2.2.1, h.2.2.2⟩, fun h => ⟨h.pps, h.isg, h.ibg, h.loop⟩⟩

instance (port : TrexStatelessPort n) (request : Request) : Decidable (RequestRated port request) :=
  match request with
  | .addStream stream => inferInstanceAs (Decidable (stream.enabled = true → StreamRated n stream))
  | .removeStream _ => .isTrue trivial
  | .removeAllStreams => .isTrue trivial
  | .start _ _ factor _ => inferInstanceAs (Decidable (0 < factor))
  | .stop => .isTrue trivial
  | .pause => .isTrue trivial
  | .resume => .isTrue trivial
  | .update op newFactor => inferInstanceAs (Decidable (0 < port.updateFactor op newFactor))

instance (s : TrexSystem n) (move : Move n) : Decidable (s.RatesOk move) :=
  match move with
  | .request portId request => inferInstanceAs (Decidable (RequestRated (s.cp portId) request))
  | .quit => .isTrue trivial
  | .deliver _ => .isTrue trivial
  | .core _ _ => .isTrue trivial
  | .event _ => .isTrue trivial

/-- The time of the node that a move pops from the queue of the core `k`. -/
def popped (s : TrexSystem n) (k : Fin n.toNat) : Move n → List Rat
  | .core k' (.pop j) => if k' = k then ((s.cores k).queue[j]?.map (s.cores k).nodeTime).toList
      else []
  | _ => []

/-- Moves, one after the other, with the times that the core `k` pops. -/
def runPopped (allowed : TrexSystem n → Move n → Prop) [∀ s move, Decidable (allowed s move)]
    (k : Fin n.toNat) :
    TrexSystem n → List Rat → List (Move n) → Option (TrexSystem n × List Rat)
  | s, times, [] => some (s, times)
  | s, times, move :: rest =>
    if allowed s move then (s.exec move).bind fun s' =>
      runPopped allowed k s' (s.popped k move ++ times) rest else none

variable {allowed : TrexSystem n → Move n → Prop}

theorem PoppedBy.step (h : PoppedBy allowed k s times) (hallowed : allowed s move)
    (hstep : Step s move s') :
    PoppedBy allowed k s' (s.popped k move ++ times) := by
  by_cases hpop : ∃ j, move = .core k (.pop j)
  · obtain ⟨j, rfl⟩ := hpop
    cases hstep with
    | core ha hen hc =>
      have hnode := hen
      obtain ⟨-, x, hx, -⟩ := hnode
      have htimes : s.popped k (.core k (.pop j)) = [(s.cores k).nodeTime x] := by
        simp [popped, hx]
      rw [htimes]
      exact .pop h hallowed (.core ha hen hc) hx
  · have hnone : s.popped k move = [] := by
      unfold popped
      split
      · rename_i k' j
        split
        · rename_i hk
          subst hk
          exact absurd ⟨j, rfl⟩ hpop
        · rfl
      · rfl
    rw [hnone]
    exact .other h hallowed hstep fun j hj => hpop ⟨j, hj⟩

theorem PoppedBy.run [∀ s move, Decidable (allowed s move)] :
    ∀ {moves : List (Move n)} {s s' : TrexSystem n} {times times' : List Rat},
      PoppedBy allowed k s times →
      runPopped allowed k s times moves = some (s', times') → PoppedBy allowed k s' times'
  | [], s, s', times, times', hs, h => by
    cases h
    exact hs
  | move :: rest, s, s', times, times', hs, h => by
    unfold runPopped at h
    split at h
    · rename_i hallowed
      obtain ⟨s1, hexec, h⟩ := Option.bind_eq_some_iff.mp h
      exact (hs.step hallowed (step_of_exec hexec)).run h
    · cases h

/-- A continuous stream of 64-byte packets with a rate. -/
def streamAt (pps : Rat) : TrexStream :=
  ⟨.stCONTINUOUS, 0, 0, 0, -1, true, true, {}, none, ⟨List.replicate 64 0, 64⟩, pps, 0, 1, 0⟩

/-- It is started, and sends two packets. -/
def twoPackets (pps : Rat) (second : Nat) : List (Move 1) :=
  [.request 0 (.addStream (streamAt pps)), .request 0 (.start (fun _ _ => 0) [streamAt pps] 1 0),
    .deliver onlyCore,
    .core onlyCore .leaveIdle, .core onlyCore (.pop 1), .core onlyCore (.pop second)]

/-- 10000 packets a second: the second packet is sent before the first `FLOW_SYNC` node. -/
theorem scheduler_time_twoPackets : ∃ s times, PoppedBy RatesOk onlyCore s times ∧
    times = [1 / 10000, 0] ∧
    times.Pairwise (· ≥ ·) ∧ ∃ N, ¬ Held 0 (1 / 1000) N (s.cores onlyCore) := by
  have hrun : (runPopped RatesOk onlyCore freshSystem [] (twoPackets 10000 0)).map Prod.snd =
      some [1 / 10000, 0] := by
    decide +kernel
  obtain ⟨⟨s, times⟩, hs, htimes⟩ := Option.map_eq_some_iff.mp hrun
  have hpopped : PoppedBy RatesOk onlyCore s times := (PoppedBy.init freshSystem_initial).run hs
  obtain ⟨hpairs, -, hheld⟩ := scheduler_time 1 onlyCore s times hpopped
  exact ⟨s, times, hpopped, htimes, hpairs, hheld 0 (1 / 1000)⟩

/-- **With a rate of -1, which is accepted, the second packet is sent a second before the first
one.** -/
theorem scheduler_goes_back : ∃ s times, PoppedBy (fun _ _ => True) onlyCore s times ∧
    times = [-1, 0] ∧
    ¬ times.Pairwise (· ≥ ·) := by
  have hrun : (runPopped (fun _ _ => True) onlyCore freshSystem [] (twoPackets (-1) 0)).map
      Prod.snd = some [-1, 0] := by decide +kernel
  obtain ⟨⟨s, times⟩, hs, htimes⟩ := Option.map_eq_some_iff.mp hrun
  have htimes' : times = [-1, 0] := htimes
  refine ⟨s, times, (PoppedBy.init freshSystem_initial).run hs, htimes', ?_⟩
  rw [htimes']
  decide +kernel

end TrexSystem

end Trex.Proto
