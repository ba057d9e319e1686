/-
# The compiled graph and the source graph

`compile_stream` replaces the ids of the streams by the numbers of their nodes, and the data plane
uses these as indices into its vector of nodes (`start_traffic`).  `Mirrors ss objs` says that the
list `objs` of one core is the graph of the enabled streams `ss` again: one entry for each stream,
entry `i` with id `i`, and the next id the index of the next stream's entry.  Then the index checks
of the data plane hold (`Mirrors.linksOk`) and its links lead where the source's do
(`Mirrors.walk_iff`).

It is not so for every accepted list.  The map finds a next stream by the 32 bits of its id, but
`compile_stream` keeps the link only when the id is not negative as an `int`.
-/
import Trex.Stream.WellFormed

namespace Trex.Stream

open Trex.Lib Trex.Vm List

/-! ## 1. Mirror images -/

/-- The list of one core has the graph of the source. -/
structure Mirrors (ss objs : List TrexStream) : Prop where
  length : objs.length = ss.length
  ids : ∀ (i : Nat) (e : TrexStream), objs[i]? = some e → e.streamId.toNat = i
  dead : ∀ (i : Nat) (e s : TrexStream), objs[i]? = some e → ss[i]? = some s →
    (e.nextStreamId = -1 ↔ s.nextStreamId = -1)
  next : ∀ (i : Nat) (e s : TrexStream), objs[i]? = some e → ss[i]? = some s →
    s.nextStreamId ≠ -1 → ∃ (j : Nat) (s' : TrexStream), ss[j]? = some s' ∧
      s'.streamId = s.nextKey ∧ e.nextStreamId.toInt = j

/-- `assert(stream_id<nodes)` of `start_traffic`, for every link it sets. -/
def LinksOk (objs : List TrexStream) : Prop :=
  ∀ e ∈ objs, e.isDpNextStream = true → e.nextStreamId.toInt < objs.length

/-- The link that `start_traffic` sets out of the node at an index. -/
def DpNext (objs : List TrexStream) (i j : Nat) : Prop :=
  ∃ e, objs[i]? = some e ∧ e.isDpNextStream = true ∧ e.nextStreamId.toInt = j

theorem isDpNextStream_iff (e : TrexStream) :
    e.isDpNextStream = true ↔ 0 ≤ e.nextStreamId.toInt := by
  have hz : (0 : Int32).toInt = 0 := by decide
  simp [TrexStream.isDpNextStream, Int32.le_iff_toInt_le, hz]

namespace Mirrors

variable {ss objs : List TrexStream}

variable {i : Nat}

/-- The entry of a source stream. -/
theorem entry (h : Mirrors ss objs) {s : TrexStream} (hs : ss[i]? = some s) :
    ∃ e, objs[i]? = some e := by
  have hi : i < ss.length := (List.getElem?_eq_some_iff.mp hs).1
  exact ⟨_, List.getElem?_eq_getElem (h.length ▸ hi)⟩

theorem source (h : Mirrors ss objs) {e : TrexStream} (he : objs[i]? = some e) :
    ∃ s, ss[i]? = some s := by
  have hi : i < objs.length := (List.getElem?_eq_some_iff.mp he).1
  exact ⟨_, List.getElem?_eq_getElem (h.length ▸ hi)⟩

/-- **The index checks of the data plane hold.** -/
theorem linksOk (h : Mirrors ss objs) : LinksOk objs := by
  intro e he hnext
  obtain ⟨i, hi⟩ := List.getElem?_of_mem he
  obtain ⟨s, hs⟩ := h.source hi
  have hne : s.nextStreamId ≠ -1 := by
    intro hone
    have hm := (h.dead i e s hi hs).mpr hone
    have hpos := (isDpNextStream_iff e).mp hnext
    rw [hm] at hpos
    exact absurd hpos (by decide)
  obtain ⟨j, s', hj, -, heq⟩ := h.next i e s hi hs hne
  have hlt : j < ss.length := (List.getElem?_eq_some_iff.mp hj).1
  rw [heq, h.length]
  exact_mod_cast hlt

/-- **A link of the data plane is a link of the source.** -/
theorem dpNext_iff (h : Mirrors ss objs) (hnd : (ss.map TrexStream.streamId).Nodup)
    {s : TrexStream} (hs : ss[i]? = some s) (j : Nat) :
    DpNext objs i j ↔ ∃ s', ss[j]? = some s' ∧ NextOf ss s s' := by
  obtain ⟨e, he⟩ := h.entry hs
  have hmem : s ∈ ss := mem_of_getElem? hs
  have hdead := h.dead i e s he hs
  constructor
  · rintro ⟨e', he', hnext, heq⟩
    obtain rfl : e' = e := Option.some.inj (he'.symm.trans he)
    have hne : s.nextStreamId ≠ -1 := by
      intro hone
      rw [hdead.mpr hone] at heq
      have hm : (-1 : Int32).toInt = -1 := by decide
      omega
    obtain ⟨j', s', hj', hid, heq'⟩ := h.next i e' s he hs hne
    have hjj : j = j' := by
      rw [heq] at heq'
      exact_mod_cast heq'
    exact ⟨s', hjj ▸ hj', hmem, mem_of_getElem? hj', hne, hid⟩
  · rintro ⟨s', hj, -, hs', hne, hid⟩
    obtain ⟨j', s'', hj', hid', heq⟩ := h.next i e s he hs hne
    -- ids are distinct, so the two indices are the same
    have hjj : j' = j := by
      have h1 : j' < (ss.map TrexStream.streamId).length := by
        simpa using (List.getElem?_eq_some_iff.mp hj').1
      refine (List.getElem?_inj h1 hnd).mp ?_
      rw [List.getElem?_map, List.getElem?_map, hj, hj', Option.map_some, Option.map_some, hid,
        hid']
    refine ⟨e, he, (isDpNextStream_iff e).mpr ?_, hjj ▸ heq⟩
    rw [heq]
    exact Int.natCast_nonneg _

/-- **Following the links on a core visits the images of what the source visits.** -/
theorem walk_iff (h : Mirrors ss objs) (hnd : (ss.map TrexStream.streamId).Nodup) {s : TrexStream}
    (hs : ss[i]? = some s) (j : Nat) :
    Relation.ReflTransGen (DpNext objs) i j
      ↔ ∃ s', ss[j]? = some s' ∧ Relation.ReflTransGen (NextOf ss) s s' := by
  constructor
  · intro hwalk
    induction hwalk with
    | refl => exact ⟨s, hs, Relation.ReflTransGen.refl⟩
    | tail _ hlink ih =>
      obtain ⟨s', hs', hreach⟩ := ih
      obtain ⟨s'', hs'', hnext⟩ := (h.dpNext_iff hnd hs' _).mp hlink
      exact ⟨s'', hs'', hreach.tail hnext⟩
  · rintro ⟨s', hs', hreach⟩
    induction hreach generalizing j with
    | refl =>
      have h1 : i < (ss.map TrexStream.streamId).length := by
        simpa using (List.getElem?_eq_some_iff.mp hs).1
      have hij : i = j := by
        refine (List.getElem?_inj h1 hnd).mp ?_
        rw [List.getElem?_map, List.getElem?_map, hs, hs']
      exact hij ▸ Relation.ReflTransGen.refl
    | tail _ hlink ih =>
      obtain ⟨k, hk⟩ := List.getElem?_of_mem hlink.1
      exact (ih k hk).tail ((h.dpNext_iff hnd hk j).mpr ⟨_, hs', hlink⟩)

end Mirrors

/-! ## 2. What the splitter leaves alone -/

/-- A stream without its VM. -/
def TrexStream.sansVm (s : TrexStream) : TrexStream := { s with vm := {}, vmDp := none }

variable {s : TrexStream} {rand : Nat → Nat} {cores : List TrexStream} {factor : Rat}

theorem vmCompile_sansVm {rand : Nat} {s' : TrexStream} (h : s.vmCompile rand = .ok s') :
    s'.sansVm = s.sansVm := by
  obtain ⟨c, -, h⟩ := bind_eq_ok h
  cases c with
  | none =>
    cases h
    rfl
  | some c =>
    obtain ⟨dp, -, h⟩ := bind_eq_ok h
    cases h
    rfl

theorem splitLoop_sansVm {vm : StreamVm} {k : Nat} {instr : UInt64 → UInt64 → Instr}
    {part : UInt64} : ∀ {cores cores' : List TrexStream} {j : Nat}
    {start end_ : UInt64}, splitLoop rand vm k instr part j start end_ cores = .ok cores' →
      cores'.map TrexStream.sansVm = cores.map TrexStream.sansVm
  | [], cores', j, start, end_, h => by
    cases h
    rfl
  | core :: cores, cores', j, start, end_, h => by
    obtain ⟨core', h1, h⟩ := bind_eq_ok h
    obtain ⟨rest, h2, h⟩ := bind_eq_ok h
    cases h
    rw [map_cons, map_cons, vmCompile_sansVm h1, splitLoop_sansVm h2]
    rfl

/-- **The splitter changes the VMs only.** -/
theorem split_sansVm {cores' : List TrexStream} (h : split rand s cores = .ok cores') :
    cores'.map TrexStream.sansVm = cores.map TrexStream.sansVm := by
  unfold split at h
  split at h
  · cases h
    rfl
  obtain ⟨r, hr, h⟩ := bind_eq_ok h
  cases r with
  | none =>
    obtain ⟨compiled, -, h⟩ := bind_eq_ok h
    cases h
    simp [map_map, Function.comp_def, TrexStream.sansVm]
  | some cs =>
    cases h
    unfold splitInternal at hr
    split at hr
    · cases hr
    · unfold splitByFlowVar at hr
      split at hr
      · cases hr
      split at hr
      · cases hr
      obtain ⟨cs', hcs, hr⟩ := bind_eq_ok hr
      cases hr
      exact splitLoop_sansVm hcs
    · unfold splitByFlowClientVar at hr
      split at hr
      · cases hr
      obtain ⟨cs', hcs, hr⟩ := bind_eq_ok hr
      cases hr
      exact splitLoop_sansVm hcs

theorem mapError_eq_ok {ε δ α : Type} {x : Except ε α} {f : ε → δ} {a : α}
    (h : x.mapError f = .ok a) : x = .ok a := by
  cases x with
  | error e => cases h
  | ok b => exact congrArg Except.ok (Except.ok.inj h)

/-! ## 3. One stream -/

variable {ss streams : List TrexStream} {nodes : GraphNodeMap} {objs : List TrexStreamsCompiledObj}

theorem getCompressed_nodesOf (hnd : (ss.map TrexStream.streamId).Nodup) {i : Nat}
    (hs : ss[i]? = some s) (hid : s.streamId ≠ deadEndId) (k : Nat) :
    (nodesOf k ss).getCompressed s.streamId = some (Int32.ofNat (k + i)) := by
  rw [GraphNodeMap.getCompressed, if_neg hid, GraphNodeMap.find]
  induction ss generalizing i k with
  | nil => exact absurd hs (by simp)
  | cons x ss ih =>
    rw [map_cons, nodup_cons] at hnd
    cases i with
    | zero =>
      obtain rfl : x = s := by simpa using hs
      simp [nodesOf]
    | succ i =>
      have hs' : ss[i]? = some s := by simpa using hs
      have hne : ¬ x.streamId = s.streamId :=
        fun h => hnd.1 (h ▸ mem_map_of_mem (mem_of_getElem? hs'))
      have hk : k + (i + 1) = k + 1 + i := by omega
      rw [nodesOf, List.find?_cons_of_neg (by simpa using hne), ih hnd.2 hs' (k + 1), hk]

/-- The number that a link is replaced by. -/
def newNext (ss : List TrexStream) (s : TrexStream) (v : Int32) : Prop :=
  (s.nextStreamId < 0 ∧ v = -1)
    ∨ (0 ≤ s.nextStreamId ∧ ∃ (j : Nat) (s' : TrexStream), ss[j]? = some s'
        ∧ s'.streamId = s.nextKey ∧ v = Int32.ofNat j)

/-- **`compile_stream`**: every core gets an entry with the number of the stream and the number of
its next stream. -/
theorem compileStream_entries (hwf : WellFormed ss) (hids : ∀ s ∈ ss, s.streamId ≠ deadEndId)
    {n i : Nat} (hs : ss[i]? = some s)
    (h : compileStream rand (nodesOf 0 ss) factor n s = .ok cores) :
    0 ≤ Int32.ofNat i ∧ cores.length = n ∧ ∃ v, newNext ss s v ∧ ∀ e ∈ cores,
      e.streamId = (Int32.ofNat i).toUInt32 ∧ e.nextStreamId = v := by
  have hmem : s ∈ ss := mem_of_getElem? hs
  have hid := getCompressed_nodesOf hwf.unique hs (hids s hmem) 0
  rw [Nat.zero_add] at hid
  simp only [compileStream, hid] at h
  split at h
  · cases h
  rename_i hneg
  -- what the link is replaced by
  have hnext : ∃ v, (if s.nextStreamId ≥ 0 then (nodesOf 0 ss).getCompressed s.nextKey
      else some (-1)) = some v ∧ newNext ss s v := by
    by_cases hpos : s.nextStreamId ≥ 0
    · rw [if_pos hpos]
      rcases hwf.next s hmem with hone | ⟨s', hs', hkey⟩
      · rw [hone] at hpos
        exact absurd hpos (by decide)
      · obtain ⟨j, hj⟩ := List.getElem?_of_mem hs'
        have hc := getCompressed_nodesOf hwf.unique hj (hids s' hs') 0
        rw [Nat.zero_add, hkey] at hc
        exact ⟨_, hc, Or.inr ⟨hpos, j, s', hj, hkey, rfl⟩⟩
    · rw [if_neg hpos]
      exact ⟨-1, rfl, Or.inl ⟨Int32.not_le.mp hpos, rfl⟩⟩
  obtain ⟨v, hv, hnew⟩ := hnext
  rw [hv] at h
  have hstrip := split_sansVm (mapError_eq_ok h)
  refine ⟨Int32.not_lt.mp hneg, ?_, v, hnew, fun e he => ?_⟩
  · have hlen := congrArg List.length hstrip
    simpa [coreStreams] using hlen
  · have hmem' := mem_map_of_mem (f := TrexStream.sansVm) he
    rw [hstrip] at hmem'
    obtain ⟨c, hc, hce⟩ := mem_map.mp hmem'
    obtain ⟨j, -, rfl⟩ := mem_map.mp hc
    have h1 := congrArg TrexStream.streamId hce
    have h2 := congrArg TrexStream.nextStreamId hce
    exact ⟨h1.symm, h2.symm⟩

/-! ## 4. All streams, on all cores -/

/-- The loop of `compile_internal` compiles the enabled streams in order. -/
theorem compileStreams_get {rand : Nat → Nat → Nat} {n : Nat} :
    ∀ {rest : List TrexStream} {i : Nat} {lists : List (List TrexStream)},
      compileStreams rand nodes factor n i rest = .ok lists →
        lists.length = (enabledOf rest).length ∧ ∀ (k : Nat) (s : TrexStream) (l : List TrexStream),
          (enabledOf rest)[k]? = some s → lists[k]? = some l →
            compileStream (rand (i + k)) nodes factor n s = .ok l
  | [], i, lists, h => by
    cases h
    exact ⟨rfl, fun k s l hs => absurd hs (by simp [enabledOf])⟩
  | x :: rest, i, lists, h => by
    cases hen : x.enabled with
    | false =>
      have hfilter : enabledOf (x :: rest) = enabledOf rest := by simp [enabledOf, hen]
      simp only [compileStreams, hen, Bool.not_false, if_true] at h
      rw [hfilter]
      exact compileStreams_get h
    | true =>
      have hfilter : enabledOf (x :: rest) = x :: enabledOf rest := by simp [enabledOf, hen]
      simp only [compileStreams, hen, Bool.not_true, Bool.false_eq_true, if_false] at h
      obtain ⟨cores, h1, h⟩ := bind_eq_ok h
      obtain ⟨others, h2, h⟩ := bind_eq_ok h
      cases h
      obtain ⟨hlen, hget⟩ := compileStreams_get h2
      rw [hfilter]
      refine ⟨by simp [hlen], fun k s l hs hl => ?_⟩
      cases k with
      | zero =>
        obtain rfl : x = s := by simpa using hs
        obtain rfl : cores = l := by simpa using hl
        exact h1
      | succ k =>
        have hk : i + (k + 1) = i + 1 + k := by omega
        rw [hk]
        exact hget k s l (by simpa using hs) (by simpa using hl)

/-- The entries of one core are one of each attached list. -/
theorem coreObjs_get : ∀ {lists : List (List TrexStream)} {core : Nat},
    (∀ l ∈ lists, core < l.length) → (coreObjs lists core).length = lists.length
      ∧ ∀ k : Nat, (coreObjs lists core)[k]? = (lists[k]?).bind fun l : List TrexStream => l[core]?
  | [], core, _ => ⟨rfl, fun k => by simp [coreObjs]⟩
  | l :: lists, core, h => by
    have hrest : ∀ l' ∈ lists, core < l'.length := fun l' hl' => h l' (by simp [hl'])
    obtain ⟨hlen, hget⟩ := coreObjs_get hrest
    have hl : core < l.length := h l (by simp)
    have hcons : coreObjs (l :: lists) core = l[core] :: coreObjs lists core := by
      simp [coreObjs, List.getElem?_eq_getElem hl]
    rw [hcons]
    refine ⟨by simp [hlen], fun k => ?_⟩
    cases k with
    | zero => simp [List.getElem?_eq_getElem hl]
    | succ k => simpa using hget k

/-- What one entry of one core is. -/
structure EntryOf (ss : List TrexStream) (i : Nat) (s e : TrexStream) : Prop where
  small : i < 2 ^ 31
  id : e.streamId.toNat = i
  next : newNext ss s e.nextStreamId

/-- **The entries of the compiled lists**, for every accepted list of streams. -/
theorem compileAll_entries {rand : Nat → Nat → Nat} {portId : UInt8} {n : UInt8}
    (h : compileAll rand portId streams n factor = .ok objs) :
    WellFormed (enabledOf streams) ∧ objs.length = n.toNat ∧ ∀ obj ∈ objs,
      obj.objs.length = (enabledOf streams).length
        ∧ ∀ (i : Nat) (s e : TrexStream), (enabledOf streams)[i]? = some s → obj.objs[i]? = some e →
          EntryOf (enabledOf streams) i s e := by
  obtain ⟨⟨nodes, warnings⟩, hpre, h⟩ := bind_eq_ok h
  obtain ⟨lists, hlists, h⟩ := bind_eq_ok h
  cases h
  obtain ⟨rfl, hwf, hids⟩ := accepted hpre
  obtain ⟨hlen, hget⟩ := compileStreams_get hlists
  refine ⟨hwf, by simp, fun obj hobj => ?_⟩
  obtain ⟨core, hcore, rfl⟩ := mem_map.mp hobj
  rw [mem_range] at hcore
  -- every stream passed the assertion on its number
  have hentry : ∀ (i : Nat) (s : TrexStream), (enabledOf streams)[i]? = some s →
      ∃ l, lists[i]? = some l ∧ 0 ≤ Int32.ofNat i ∧ l.length = n.toNat
        ∧ ∃ v, newNext (enabledOf streams) s v ∧ ∀ e ∈ l,
          e.streamId = (Int32.ofNat i).toUInt32 ∧ e.nextStreamId = v := by
    intro i s hs
    have hi : i < lists.length := by
      rw [hlen]
      exact (List.getElem?_eq_some_iff.mp hs).1
    have hl : lists[i]? = some lists[i] := List.getElem?_eq_getElem hi
    exact ⟨_, hl, compileStream_entries hwf hids hs (hget i s _ hs hl)⟩
  have hsmall : (enabledOf streams).length ≤ 2 ^ 31 := by
    by_contra hbig
    obtain ⟨l, -, hneg, -⟩ := hentry (2 ^ 31) (enabledOf streams)[2 ^ 31]
      (List.getElem?_eq_getElem (by omega))
    exact absurd hneg (by decide)
  have hcores : ∀ l ∈ lists, core < l.length := by
    intro l hl
    obtain ⟨i, hi⟩ := List.getElem?_of_mem hl
    have hlt : i < (enabledOf streams).length := by
      rw [← hlen]
      exact (List.getElem?_eq_some_iff.mp hi).1
    obtain ⟨l', hl', -, hn, -⟩ := hentry i _ (List.getElem?_eq_getElem hlt)
    obtain rfl : l' = l := Option.some.inj (hl'.symm.trans hi)
    omega
  obtain ⟨hlen', hget'⟩ := coreObjs_get hcores
  refine ⟨hlen'.trans hlen, fun i s e hs he => ?_⟩
  obtain ⟨l, hl, -, -, v, hnew, hall⟩ := hentry i s hs
  have hi : i < 2 ^ 31 := lt_of_lt_of_le (List.getElem?_eq_some_iff.mp hs).1 hsmall
  rw [hget' i, hl, Option.bind_some] at he
  obtain ⟨hid, hnext⟩ := hall e (mem_of_getElem? he)
  refine ⟨hi, ?_, hnext ▸ hnew⟩
  have hsize : i < UInt32.size := lt_trans hi (by decide)
  rw [hid, Int32.toUInt32_ofNat']
  exact UInt32.toNat_ofNat_of_lt' hsize

/-- Apart from the VMs, `compile_stream` attaches the versions that it made for the cores. -/
theorem compileStream_sansVm {n : Nat} (h : compileStream rand nodes factor n s = .ok cores) :
    ∃ id next : Int32, cores.map TrexStream.sansVm
      = (coreStreams s factor n id next).map TrexStream.sansVm := by
  simp only [compileStream] at h
  split at h
  · cases h
  split at h
  · cases h
  split at h
  · cases h
  · exact ⟨_, _, split_sansVm (mapError_eq_ok h)⟩

/-- The share of a burst that `compile_stream` gives to a core. -/
def burstShare (total : UInt32) (n core : Nat) : UInt32 :=
  if core = 0 then total / UInt32.ofNat n + (total - total / UInt32.ofNat n * UInt32.ofNat n)
  else total / UInt32.ofNat n

/-- **The compiled streams of one core**: the stream with its own ids, rate and share of the burst,
and with a VM of its own. -/
theorem compileAll_core {rand : Nat → Nat → Nat} {portId : UInt8} {n : UInt8}
    (h : compileAll rand portId streams n factor = .ok objs) {core : Nat}
    {obj : TrexStreamsCompiledObj} (hobj : objs[core]? = some obj) :
    obj.portId = portId ∧ obj.allContinues = streams.all (fun s => s.type == .stCONTINUOUS)
      ∧ obj.objs.length = (enabledOf streams).length
      ∧ ∀ (k : Nat) (s e : TrexStream), (enabledOf streams)[k]? = some s → obj.objs[k]? = some e →
        ∃ id next : Int32, e.sansVm = (coreStream s id next (s.pps * (factor / n.toNat))
          (burstShare s.burstTotalPkts n.toNat core)).sansVm := by
  have hlength := ((compileAll_entries h).2.2 obj (mem_of_getElem? hobj)).1
  obtain ⟨⟨nodes, warnings⟩, hpre, h⟩ := bind_eq_ok h
  obtain ⟨lists, hlists, h⟩ := bind_eq_ok h
  cases h
  obtain ⟨hlen, hget⟩ := compileStreams_get hlists
  obtain ⟨hcore, hobj⟩ := List.getElem?_eq_some_iff.mp hobj
  rw [length_map, length_range] at hcore
  rw [getElem_map, getElem_range] at hobj
  subst hobj
  -- what the loop attached for one stream
  have hlist : ∀ (k : Nat) (l : List TrexStream), lists[k]? = some l →
      ∃ s, (enabledOf streams)[k]? = some s ∧ ∃ id next : Int32,
        l.map TrexStream.sansVm = (coreStreams s factor n.toNat id next).map TrexStream.sansVm := by
    intro k l hl
    have hk : k < (enabledOf streams).length := by
      rw [← hlen]
      exact (List.getElem?_eq_some_iff.mp hl).1
    have hs := List.getElem?_eq_getElem hk
    exact ⟨_, hs, compileStream_sansVm (hget k _ l hs hl)⟩
  have hcores : ∀ l ∈ lists, core < l.length := by
    intro l hl
    obtain ⟨k, hk⟩ := List.getElem?_of_mem hl
    obtain ⟨s, -, id, next, hmap⟩ := hlist k l hk
    have hlen' := congrArg List.length hmap
    rw [length_map, length_map, coreStreams, length_map, length_range] at hlen'
    omega
  refine ⟨rfl, rfl, hlength, fun k s e hs he => ?_⟩
  rw [(coreObjs_get hcores).2 k] at he
  obtain ⟨l, hl, he⟩ := Option.bind_eq_some_iff.mp he
  obtain ⟨s', hs', id, next, hmap⟩ := hlist k l hl
  obtain rfl : s' = s := Option.some.inj (hs'.symm.trans hs)
  refine ⟨id, next, ?_⟩
  have hcorej := congrArg (fun m : List TrexStream => m[core]?) hmap
  simpa [he, coreStreams, List.getElem?_range hcore, burstShare] using hcorej

/-- The links that `compile_stream` drops. -/
def NegativeNext (s : TrexStream) : Prop := s.nextStreamId < -1

/-- **The compiled graph mirrors the source graph**, on every core, exactly when no enabled stream
has a next id below -1.  The entries of a core are those of `compileAll_entries`; a next id below -1
is compiled like -1, and the source has a link there. -/
theorem compiled_graph_exact (rand : Nat → Nat → Nat) (portId : UInt8) (streams : List TrexStream)
    (n : UInt8) (factor : Rat) (objs : List TrexStreamsCompiledObj) (hn : 0 < n)
    (h : compileAll rand portId streams n factor = .ok objs) :
    (∀ obj ∈ objs, Mirrors (enabledOf streams) obj.objs ∧ LinksOk obj.objs
        ∧ ∀ (i : Nat) (s : TrexStream) (j : Nat), (enabledOf streams)[i]? = some s →
          (Relation.ReflTransGen (DpNext obj.objs) i j
            ↔ ∃ s', (enabledOf streams)[j]? = some s'
              ∧ Relation.ReflTransGen (NextOf (enabledOf streams)) s s'))
      ↔ ∀ s ∈ enabledOf streams, ¬ NegativeNext s := by
  obtain ⟨hwf, hlen, hentries⟩ := compileAll_entries h
  have hm : (-1 : Int32).toInt = -1 := by decide
  have hz : (0 : Int32).toInt = 0 := by decide
  constructor
  · intro hmir s hs hneg
    -- one core is enough: its entry has no link, the source has one
    obtain ⟨obj, hobj⟩ : ∃ obj, obj ∈ objs := by
      refine exists_mem_of_length_pos ?_
      rw [hlen]
      exact hn
    obtain ⟨hM, -⟩ := hmir obj hobj
    obtain ⟨i, hi⟩ := List.getElem?_of_mem hs
    obtain ⟨e, he⟩ := hM.entry hi
    have hnext := ((hentries obj hobj).2 i s e hi he).next
    rw [NegativeNext, Int32.lt_iff_toInt_lt, hm] at hneg
    rcases hnext with ⟨-, hv⟩ | ⟨hpos, -⟩
    · have hone := (hM.dead i e s he hi).mp hv
      rw [hone, hm] at hneg
      omega
    · rw [Int32.le_iff_toInt_le, hz] at hpos
      omega
  · intro hnone obj hobj
    obtain ⟨hl, hget⟩ := hentries obj hobj
    have hM : Mirrors (enabledOf streams) obj.objs := by
      have hlook : ∀ (i : Nat) (e : TrexStream), obj.objs[i]? = some e →
          ∃ s, (enabledOf streams)[i]? = some s := by
        intro i e he
        have hi : i < obj.objs.length := (List.getElem?_eq_some_iff.mp he).1
        exact ⟨_, List.getElem?_eq_getElem (hl ▸ hi)⟩
      have hcase : ∀ s ∈ enabledOf streams, s.nextStreamId < 0 → s.nextStreamId = -1 := by
        intro s hs hlt
        have hge := hnone s hs
        rw [NegativeNext, Int32.lt_iff_toInt_lt, hm] at hge
        rw [Int32.lt_iff_toInt_lt, hz] at hlt
        refine Int32.toInt_inj.mp ?_
        rw [hm]
        omega
      have hidx : ∀ (j : Nat) (s' : TrexStream), (enabledOf streams)[j]? = some s' →
          (Int32.ofNat j).toInt = j := by
        intro j s' hj
        have hlt : j < obj.objs.length := by
          rw [hl]
          exact (List.getElem?_eq_some_iff.mp hj).1
        exact Int32.toInt_ofNat_of_lt (hget j s' _ hj (List.getElem?_eq_getElem hlt)).small
      refine ⟨hl, fun i e he => ?_, fun i e s he hs => ?_, fun i e s he hs hne => ?_⟩
      · obtain ⟨s, hs⟩ := hlook i e he
        exact (hget i s e hs he).id
      · rcases (hget i s e hs he).next with ⟨hlt, hv⟩ | ⟨hpos, j, s', hj, -, hv⟩
        · exact iff_of_true hv (hcase s (mem_of_getElem? hs) hlt)
        · have hej := hidx j s' hj
          refine iff_of_false (fun hone => ?_) (fun hone => ?_)
          · rw [← hv, hone, hm] at hej
            omega
          · rw [hone] at hpos
            exact absurd hpos (by decide)
      · rcases (hget i s e hs he).next with ⟨hlt, -⟩ | ⟨-, j, s', hj, hkey, hv⟩
        · exact absurd (hcase s (mem_of_getElem? hs) hlt) hne
        · exact ⟨j, s', hj, hkey, hv ▸ hidx j s' hj⟩
    exact ⟨hM, hM.linksOk, fun i s j hs => hM.walk_iff hwf.unique hs j⟩

/-- Two streams in a chain. -/
def chainStreams : List TrexStream := [plainStream 7 9 true true, plainStream 9 (-1) false true]

theorem compiled_graph_exact_chainStreams : ∃ objs, compileAll (fun _ _ => 1) 0 chainStreams 2 1
      = .ok objs ∧ (0 : UInt8) < 2
    ∧ ∀ obj ∈ objs, Mirrors (enabledOf chainStreams) obj.objs ∧ LinksOk obj.objs := by
  obtain ⟨objs, hobjs⟩ : ∃ objs, compileAll (fun _ _ => 1) 0 chainStreams 2 1 = .ok objs := ⟨_, rfl⟩
  have hnone : ∀ s ∈ enabledOf chainStreams, ¬ NegativeNext s := by
    unfold NegativeNext
    decide
  refine ⟨objs, hobjs, by decide, fun obj hobj => ?_⟩
  have h := (compiled_graph_exact _ 0 chainStreams 2 1 objs (by decide) hobjs).mpr hnone obj hobj
  exact ⟨h.1, h.2.1⟩

/-- **A link to an id that is negative as an `int` is lost.**  The two streams of `cyclicStreams`
trigger each other and are accepted; compiled, the first one leads nowhere. -/
theorem cyclicStreams_lose_link : ∃ objs, compileAll (fun _ _ => 1) 0 cyclicStreams 1 1 = .ok objs
    ∧ ∃ obj ∈ objs, ¬ Mirrors (enabledOf cyclicStreams) obj.objs := by
  refine ⟨_, rfl, _, mem_singleton.mpr rfl, fun h => ?_⟩
  have hdead := h.dead 0 _ _ rfl rfl
  exact absurd hdead (by decide)

end Trex.Stream
