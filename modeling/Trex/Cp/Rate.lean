/-
# The rate factor of a port

`m_factor` scales the rates of all streams of a port.  `start_traffic` sets it from a multiplier,
and `update_traffic` changes it by a factor that it also sends to the cores.  Only the update that
subtracts checks the sign of what comes out.  A start with a multiplier of 0 is accepted, and every
later update divides by 0 (`zero_factor_accepted`).

In runs whose multipliers are positive where they have to be, the factor of a busy port is positive
(`rate_factor_positive`): nothing is divided by 0, a request that is refused changes nothing, and
the factors that the cores get are positive too.
-/
import Trex.Cp.Invariant
import Trex.Stream.Peak

namespace Trex.Cp

open Trex.Lib Trex.Stream Trex.Dp TrexStatelessPort.PortState

namespace TrexStatelessPort

variable {n : UInt8} {port : TrexStatelessPort n} {request : Request} {reply : Reply n}

/-- Other requests leave the factor of a busy port as it is. -/
theorem Replied.factor (h : Replied port request reply)
    (hstart : ∀ rand streams factor duration, request ≠ .start rand streams factor duration)
    (hupdate : ∀ op newFactor, request ≠ .update op newFactor) (hbusy : reply.port.belief ≠ .off) :
    port.belief ≠ .off ∧ reply.port.factor = port.factor := by
  cases h with
  | table _ hoff => exact absurd hoff hbusy
  | start => exact absurd rfl (hstart _ _ _ _)
  | stop => exact absurd rfl hbusy
  | noStop => exact ⟨hbusy, rfl⟩
  | pause htx => exact ⟨by rw [belief, htx]; exact fun hcase => (by cases hcase), rfl⟩
  | resume hpause => exact ⟨by rw [belief, hpause]; exact fun hcase => (by cases hcase), rfl⟩
  | update => exact absurd rfl (hupdate _ _)

theorem Noticed.factor {port' : TrexStatelessPort n} {core : Fin n.toNat} {eventId : Int}
    (h : Noticed port core eventId port') (hbusy : port'.belief ≠ .off) :
    port.belief ≠ .off ∧ port'.factor = port.factor := by
  cases h with
  | ignored => exact ⟨hbusy, rfl⟩
  | marked hon => exact ⟨hon, rfl⟩
  | occurred hon => exact ⟨hon, rfl⟩

end TrexStatelessPort

namespace ControlPort

variable {n : UInt8} {port port' : ControlPort n} {streams : List TrexStream}
    {mul : TrexPortMultiplier}

/-! ## 1. What is divided by -/

/-- The factor that a multiplier stands for, given the graph. -/
def effectiveFactor (graph : TrexStreamsGraphObj) (port : ControlPort n)
    (mul : TrexPortMultiplier) :
    Rat :=
  match mul.type with
  | .MUL_FACTOR => mul.value
  | .MUL_BPS => mul.value / graph.maxBps
  | .MUL_PPS => mul.value / graph.maxPps
  | .MUL_PERCENTAGE =>
    if mul.op = .OP_ABS then mul.value / 100 * port.speed.bps / graph.maxBps
    else port.factor * (mul.value / 100)

/-- What `calculate_effective_factor` divides by, given the graph. -/
def divisors (graph : TrexStreamsGraphObj) (mul : TrexPortMultiplier) : List Rat :=
  match mul.type with
  | .MUL_FACTOR => []
  | .MUL_BPS => [graph.maxBps]
  | .MUL_PPS => [graph.maxPps]
  | .MUL_PERCENTAGE => if mul.op = .OP_ABS then [graph.maxBps] else []

/-- The graph that a port works with: the one it keeps, or else a new one. -/
def UsesGraph (port : ControlPort n) (streams : List TrexStream) (graph : TrexStreamsGraphObj) :
    Prop :=
  port.graphObj = some graph ∨ port.graphObj = none ∧ TrexStreamsGraph.generate streams = .ok graph

/-- A graph that a multiplier is measured by.  A plain factor is not measured by any. -/
def Measures (port : ControlPort n) (streams : List TrexStream) (mul : TrexPortMultiplier)
    (graph : TrexStreamsGraphObj) : Prop :=
  mul.type = .MUL_FACTOR ∨ port.UsesGraph streams graph

/-- What an operation divides by.  `start_traffic` drops the graph first. -/
def Divides (port : ControlPort n) : Op n → Rat → Prop
  | .start _ streams mul _, d => port.portState = PORT_STATE_STREAMS
      ∧ ∃ graph, TrexStreamsGraph.generate streams = .ok graph ∧ d ∈ divisors graph mul
  | .update streams mul, d => port.portState ∈ [PORT_STATE_TX, PORT_STATE_PAUSE]
      ∧ (d = port.factor ∨ ∃ graph, port.UsesGraph streams graph ∧ d ∈ divisors graph mul)
  | _, _ => False

variable {u : Unit} {graph : TrexStreamsGraphObj}

theorem generateStreamsGraph_eq_ok (h : generateStreamsGraph streams port = .ok u port') :
    ∃ graph, TrexStreamsGraph.generate streams = .ok graph ∧
        port' = { port with graphObj := some graph } := by
  obtain ⟨_, port1, hdelete, h⟩ := bind_eq_okState h
  cases hdelete
  cases hgraph : TrexStreamsGraph.generate streams with
  | ok graph =>
    simp only [hgraph] at h
    cases h
    exact ⟨graph, rfl, rfl⟩
  | error err =>
    simp only [hgraph] at h
    cases err <;> cases h

theorem getGraph_eq_ok (h : getGraph streams port = .ok graph port') :
    port.UsesGraph streams graph ∧ port' = { port with graphObj := some graph } := by
  obtain ⟨_, _, hget, h⟩ := bind_eq_okState h
  cases hget
  obtain ⟨_, port1, hif, h⟩ := bind_eq_okState h
  obtain ⟨_, _, hget, h⟩ := bind_eq_okState h
  cases hget
  unfold doIf at hif
  split at hif
  · rename_i hnone
    obtain ⟨new, hnew, rfl⟩ := generateStreamsGraph_eq_ok hif
    cases h
    exact ⟨Or.inr ⟨Option.isNone_iff_eq_none.mp hnone, hnew⟩, rfl⟩
  · cases hif
    cases hgraph : port.graphObj with
    | none =>
      simp only [hgraph] at h
      cases h
    | some graph' =>
      simp only [hgraph] at h
      cases h
      exact ⟨Or.inl hgraph, by rw [← hgraph]⟩

/-- **The factor that a multiplier stands for**, when it is found. -/
theorem calculateEffectiveFactor_eq_ok {factor : Rat}
    (h : calculateEffectiveFactor streams mul port = .ok factor port') :
    ∃ graph, port.Measures streams mul graph ∧ factor = effectiveFactor graph port mul := by
  unfold calculateEffectiveFactor at h
  cases htype : mul.type with
  | MUL_FACTOR =>
    simp only [htype] at h
    cases h
    exact ⟨{}, Or.inl htype, by simp [effectiveFactor, htype]⟩
  | MUL_BPS =>
    simp only [htype] at h
    obtain ⟨graph, port1, hgraph, h⟩ := bind_eq_okState h
    obtain ⟨huses, rfl⟩ := getGraph_eq_ok hgraph
    cases h
    exact ⟨graph, Or.inr huses, by simp [effectiveFactor, htype]⟩
  | MUL_PPS =>
    simp only [htype] at h
    obtain ⟨graph, port1, hgraph, h⟩ := bind_eq_okState h
    obtain ⟨huses, rfl⟩ := getGraph_eq_ok hgraph
    cases h
    exact ⟨graph, Or.inr huses, by simp [effectiveFactor, htype]⟩
  | MUL_PERCENTAGE =>
    simp only [htype] at h
    obtain ⟨graph, port1, hgraph, h⟩ := bind_eq_okState h
    obtain ⟨huses, rfl⟩ := getGraph_eq_ok hgraph
    obtain ⟨_, _, hget, h⟩ := bind_eq_okState h
    cases hget
    refine ⟨graph, Or.inr huses, ?_⟩
    unfold effectiveFactor
    simp only [htype]
    split at h
    · rename_i habs
      cases h
      rw [if_pos habs]
    · rename_i habs
      cases h
      rw [if_neg habs]

/-! ## 2. Multipliers that keep the factor positive -/

/-- A rate in packets or bits, or a part of the speed, is asked for only while the streams of the
port send something. -/
def Measurable (port : ControlPort n) (mul : TrexPortMultiplier) : Prop :=
  mul.type ≠ .MUL_FACTOR → TrexStreamsGraph.Sends port.streamTable

/-- An absolute multiplier is positive, and a part of the speed is of a speed that is known. -/
def AbsOk (port : ControlPort n) (mul : TrexPortMultiplier) : Prop :=
  0 < mul.value ∧ (mul.type = .MUL_PERCENTAGE → port.speed ≠ .SPEED_INVALID)

/-- An addition does not take away all that there is. -/
def AddOk (port : ControlPort n) (streams : List TrexStream) (mul : TrexPortMultiplier) : Prop :=
  ∀ graph, port.Measures streams mul graph → 0 < port.factor + effectiveFactor graph port mul

/-- **The operations that keep the factor positive.** -/
def RateOk (port : ControlPort n) : Op n → Prop
  | .start _ _ mul _ => port.Measurable mul ∧ port.AbsOk mul
  | .update streams mul => port.Measurable mul ∧ (mul.op = .OP_ABS → port.AbsOk mul)
      ∧ (mul.op = .OP_ADD → port.AddOk streams mul)
  | _ => True

/-- The states that a port can reach, by operations that all meet a condition on the state
before. -/
inductive ReachableBy (allowed : ControlPort n → Op n → Prop) : ControlPort n → Prop
  | init {portId : UInt8} {port : ControlPort n} : port.Created portId → ReachableBy allowed port
  | returns {port port' : ControlPort n} {op : Op n} {u : Unit} : ReachableBy allowed port →
      port.Admissible op → allowed port op → perform op port = .ok u port' →
        ReachableBy allowed port'
  | throws {port port' : ControlPort n} {op : Op n} {e : Throw} : ReachableBy allowed port →
      port.Admissible op → allowed port op → perform op port = .error e port' → e.IsException →
      ReachableBy allowed port'

theorem ReachableBy.reachable {allowed : ControlPort n → Op n → Prop}
    (h : ReachableBy allowed port) :
    Reachable port := by
  induction h with
  | init hcreated => exact .init hcreated
  | returns _ hadm _ hop ih => exact .returns ih hadm hop
  | throws _ hadm _ hop he ih => exact .throws ih hadm hop he

/-- The graph of streams that send something has positive peaks. -/
theorem UsesGraph.maxRate_pos (h : port.UsesGraph streams graph) (hinv : port.Inv)
    (hperm : streams.Perm port.streamTable) (hsends : TrexStreamsGraph.Sends port.streamTable)
    (kind : RateKind) : 0 < graph.maxRate kind := by
  rcases h with hkept | ⟨-, hnew⟩
  · obtain ⟨streams', hperm', hgen⟩ := hinv.graph graph hkept
    exact (hsends.perm hperm').maxRate_pos hgen kind
  · exact (hsends.perm hperm).maxRate_pos hnew kind

theorem DriverSpeed.bps_pos {speed : DriverSpeed} (h : speed ≠ .SPEED_INVALID) : 0 < speed.bps := by
  cases speed with
  | SPEED_INVALID => exact absurd rfl h
  | _ => norm_num [DriverSpeed.bps]

/-- What is divided by is positive, when the streams send something. -/
theorem divisors_pos (hpos : mul.type ≠ .MUL_FACTOR → ∀ kind, 0 < graph.maxRate kind) :
    ∀ d ∈ divisors graph mul, 0 < d := by
  intro d hd
  unfold divisors at hd
  cases htype : mul.type with
  | MUL_FACTOR =>
    simp only [htype] at hd
    cases hd
  | MUL_BPS =>
    simp only [htype] at hd
    rw [List.mem_singleton.mp hd]
    exact hpos (by simp [htype]) .bps
  | MUL_PPS =>
    simp only [htype] at hd
    rw [List.mem_singleton.mp hd]
    exact hpos (by simp [htype]) .pps
  | MUL_PERCENTAGE =>
    simp only [htype] at hd
    split at hd
    · rw [List.mem_singleton.mp hd]
      exact hpos (by simp [htype]) .bps
    · cases hd

/-- **A positive absolute multiplier stands for a positive factor.** -/
theorem AbsOk.effectiveFactor_pos (h : port.AbsOk mul) (habs : mul.op = .OP_ABS)
    (hpos : mul.type ≠ .MUL_FACTOR → ∀ kind, 0 < graph.maxRate kind) :
    0 < effectiveFactor graph port mul := by
  obtain ⟨hvalue, hspeed⟩ := h
  unfold effectiveFactor
  cases htype : mul.type with
  | MUL_FACTOR => exact hvalue
  | MUL_BPS => exact div_pos hvalue (hpos (by simp [htype]) .bps)
  | MUL_PPS => exact div_pos hvalue (hpos (by simp [htype]) .pps)
  | MUL_PERCENTAGE =>
    have hbps := DriverSpeed.bps_pos (hspeed htype)
    have hmax := hpos (by simp [htype]) .bps
    simp only [habs, if_true]
    exact div_pos (mul_pos (div_pos hvalue (by norm_num)) hbps) hmax

/-! ## 3. One request -/

variable {rand : Nat → Nat → Nat}

theorem start_factor {duration : Rat}
    (h : perform (.start rand streams mul duration) port = .ok u port') :
    mul.op = .OP_ABS
    ∧ (∃ port1, calculateEffectiveFactor streams mul { port with graphObj := none }
      = .ok port'.factor port1)
    ∧ ∃ objs eventId, compileAll rand port.portId streams n port'.factor = .ok objs
      ∧ ∀ core, port'.toDp core = port.toDp core
        ++ objs[core.val]?.toList.map fun obj => .start obj duration eventId := by
  obtain ⟨_, port1, hverify, h1⟩ := bind_eq_okState h
  obtain ⟨rfl, -⟩ := verifyState_eq_okState hverify
  obtain ⟨_, port2, hdelete, h2⟩ := bind_eq_okState h1
  cases hdelete
  obtain ⟨_, _, hop, h3⟩ := bind_eq_okState h2
  obtain ⟨habs, rfl⟩ := throwIf_eq_ok hop
  obtain ⟨factor, port3, hfactor, h4⟩ := bind_eq_okState h3
  have hregraphed := (calculateEffectiveFactor_always mul).ok hfactor
  obtain ⟨objs, port4, hcompile, h5⟩ := bind_eq_okState h4
  obtain ⟨rfl, hobjs⟩ := compileStreams_eq_ok hcompile
  obtain ⟨eventId, _, hid, h6⟩ := bind_eq_okState h5
  obtain ⟨hsmall, rfl, rfl⟩ := generateEventId_eq_ok hid
  obtain ⟨_, _, hwait, h7⟩ := bind_eq_okState h6
  cases hwait
  obtain ⟨_, _, hset, h8⟩ := bind_eq_okState h7
  cases hset
  cases hfirst : objs[0]? with
  | none =>
    simp only [hfirst] at h8
    cases h8
  | some first =>
    simp only [hfirst] at h8
    cases h8
    rw [hregraphed.base] at hobjs
    refine ⟨not_not.mp habs, ⟨port4, hfactor⟩, objs, port4.eventIdCounter + 1, hobjs, fun core =>
      ?_⟩
    simp only [hregraphed.toDp]

theorem update_factor (h : perform (.update streams mul) port = .ok u port') :
    port.portState ∈ [PORT_STATE_TX, PORT_STATE_PAUSE]
    ∧ ∃ newFactor port1, calculateEffectiveFactor streams mul port = .ok newFactor port1
      ∧ ¬ (mul.op = .OP_SUB ∧ port.updateFactor mul.op newFactor ≤ 0)
      ∧ port'.factor = port.factor * port.updateFactor mul.op newFactor
      ∧ ∀ core, port'.toDp core
        = port.toDp core ++ [.update port.portId (port.updateFactor mul.op newFactor)] := by
  obtain ⟨_, port1, hverify, h1⟩ := bind_eq_okState h
  obtain ⟨rfl, hstate⟩ := verifyState_eq_okState hverify
  obtain ⟨newFactor, port2, hfactor, h2⟩ := bind_eq_okState h1
  have hregraphed := (calculateEffectiveFactor_always mul).ok hfactor
  obtain ⟨_, _, hget, h3⟩ := bind_eq_okState h2
  cases hget
  obtain ⟨_, port3, hpos, h4⟩ := bind_eq_okState h3
  obtain ⟨hpos, rfl⟩ := throwIf_eq_ok hpos
  cases h4
  rw [hregraphed.base] at hpos
  refine ⟨hstate, newFactor, port3, hfactor, hpos, ?_, fun core => ?_⟩
  · simp only [hregraphed.base]
  · simp only [hregraphed.base, hregraphed.toDp]

/-- The factor that a message brings to a core: the one of an update, or the one that the streams of
a start were compiled for. -/
inductive Carries (port : ControlPort n) (core : Fin n.toNat) :
    TrexStatelessDpCore.CpToDpMsg → Rat → Prop
  | start {rand : Nat → Nat → Nat} {streams : List TrexStream} {objs : List TrexStreamsCompiledObj}
      {obj : TrexStreamsCompiledObj} {duration factor : Rat} {eventId : Int} :
      compileAll rand port.portId streams n factor = .ok objs → objs[core.val]? = some obj →
      Carries port core (.start obj duration eventId) factor
  | update {portId : UInt8} {factor : Rat} : Carries port core (.update portId factor) factor

/-- The factor is positive, and so is every factor that was sent. -/
structure Positive (port port' : ControlPort n) : Prop where
  factor : 0 < port'.factor
  sent : ∀ core, ∃ msgs, port'.toDp core = port.toDp core ++ msgs
    ∧ ∀ m ∈ msgs, ∃ factor, 0 < factor ∧ Carries port core m factor

/-- A busy port has a positive factor. -/
def FactorOk (port : ControlPort n) : Prop := port.belief ≠ .off → 0 < port.factor

/-- A start that is accepted. -/
theorem start_positive {duration : Rat} (hperm : streams.Perm port.streamTable)
    (hok : port.RateOk (.start rand streams mul duration))
    (h : perform (.start rand streams mul duration) port = .ok u port') : Positive port port' := by
  obtain ⟨habs, ⟨port1, hfactor⟩, objs, eventId, hobjs, hsent⟩ := start_factor h
  obtain ⟨graph, hmeasures, heq⟩ := calculateEffectiveFactor_eq_ok hfactor
  have hpos : 0 < port'.factor := by
    rw [heq]
    refine AbsOk.effectiveFactor_pos hok.2 habs fun htype kind => ?_
    rcases hmeasures.resolve_left htype with hkept | ⟨-, hnew⟩
    · cases hkept
    · exact ((hok.1 htype).perm hperm).maxRate_pos hnew kind
  refine ⟨hpos, fun core => ⟨_, hsent core, fun m hm => ?_⟩⟩
  obtain ⟨obj, hobj, rfl⟩ := List.mem_map.mp hm
  exact ⟨port'.factor, hpos, .start hobjs (Option.mem_toList.mp hobj)⟩

/-- The relative factor of an update that is accepted. -/
theorem updateFactor_pos {newFactor : Rat} (hfactor : 0 < port.factor) (op : MulOp)
    (habs : op = .OP_ABS → 0 < newFactor) (hadd : op = .OP_ADD → 0 < port.factor + newFactor)
    (hsub : ¬ (op = .OP_SUB ∧ port.updateFactor op newFactor ≤ 0)) :
    0 < port.updateFactor op newFactor := by
  cases op with
  | OP_ABS => exact div_pos (habs rfl) hfactor
  | OP_ADD => exact div_pos (hadd rfl) hfactor
  | OP_SUB => exact not_le.mp fun hle => hsub ⟨rfl, hle⟩

/-- An update that is accepted. -/
theorem update_positive (hinv : port.Inv) (hfactorOk : port.FactorOk)
    (hperm : streams.Perm port.streamTable) (hok : port.RateOk (.update streams mul))
    (h : perform (.update streams mul) port = .ok u port') : Positive port port' := by
  obtain ⟨hstate, newFactor, port1, hfactor, hsub, heq, hsent⟩ := update_factor h
  obtain ⟨graph, hmeasures, rfl⟩ := calculateEffectiveFactor_eq_ok hfactor
  have hold : 0 < port.factor := hfactorOk (TrexStatelessPort.belief_ne_off_iff.mpr hstate)
  have hnew := updateFactor_pos hold mul.op ?_ ?_ hsub
  · refine ⟨?_, fun core => ⟨_, hsent core, fun m hm => ?_⟩⟩
    · rw [heq]
      exact mul_pos hold hnew
    · rw [List.mem_singleton.mp hm]
      exact ⟨_, hnew, .update⟩
  · intro habs
    refine (hok.2.1 habs).effectiveFactor_pos habs fun htype kind => ?_
    exact (hmeasures.resolve_left htype).maxRate_pos hinv hperm (hok.1 htype) kind
  · exact fun hadd => hok.2.2 hadd graph hmeasures

/-- Nothing is divided by 0. -/
theorem Divides.ne_zero {op : Op n} {d : Rat} (h : port.Divides op d) (hinv : port.Inv)
    (hfactorOk : port.FactorOk) (hadm : port.Admissible op) (hok : port.RateOk op) : d ≠ 0 := by
  cases op with
  | start rand streams mul duration =>
    obtain ⟨-, graph, hgraph, hd⟩ := h
    refine (divisors_pos (fun htype kind => ?_) d hd).ne'
    exact ((hok.1 htype).perm hadm).maxRate_pos hgraph kind
  | update streams mul =>
    obtain ⟨hstate, rfl | ⟨graph, huses, hd⟩⟩ := h
    · exact (hfactorOk (TrexStatelessPort.belief_ne_off_iff.mpr hstate)).ne'
    · refine (divisors_pos (fun htype kind => ?_) d hd).ne'
      exact huses.maxRate_pos hinv hadm (hok.1 htype) kind
  | _ => exact h.elim

/-! ## 4. Runs -/

theorem FactorOk.of_base (h : port.FactorOk)
    (hbase : port'.toTrexStatelessPort = port.toTrexStatelessPort) : port'.FactorOk := by
  unfold FactorOk
  rw [hbase]
  exact h

/-- An operation keeps the factor of a busy port positive. -/
theorem FactorOk.returns {op : Op n} (h : port.FactorOk) (hinv : port.Inv)
    (hadm : port.Admissible op) (hok : port.RateOk op) (hop : perform op port = .ok u port') :
    port'.FactorOk := by
  cases (perform_handle hop).1 with
  | request factor hreq hhandle hbase _ _ =>
    cases op with
    | start rand streams mul duration => exact fun _ => (start_positive hadm hok hop).factor
    | update streams mul => exact fun _ => (update_positive hinv h hadm hok hop).factor
    | _ =>
      intro hbusy
      have hreplied := TrexStatelessPort.handle_replied hinv.ok (hadm.request hreq) hhandle
      rw [hbase] at hbusy ⊢
      obtain ⟨hbusy', hsame⟩ :=
        hreplied.factor (by cases hreq <;> nofun) (by cases hreq <;> nofun) hbusy
      rw [hsame]
      exact h hbusy'
  | event hbase _ _ =>
    intro hbusy
    rw [hbase] at hbusy ⊢
    obtain ⟨hbusy', hsame⟩ := (TrexStatelessPort.handleEvent_noticed hinv.ok _ _).factor hbusy
    rw [hsame]
    exact h hbusy'
  | validate hbase _ _ => exact h.of_base hbase
  | acquire hbase _ _ _ => exact h.of_base hbase
  | release hbase _ _ => exact h.of_base hbase

/-- **A busy port has a positive factor**, in every run whose operations keep it so. -/
theorem ReachableBy.factorOk (h : ReachableBy RateOk port) : port.FactorOk := by
  induction h with
  | init hcreated =>
    intro hbusy
    rw [TrexStatelessPort.belief, hcreated.base.portState] at hbusy
    exact absurd rfl hbusy
  | returns hreach hadm hok hop ih => exact ih.returns hreach.reachable.inv hadm hok hop
  | throws hreach hadm hok hop he ih => exact ih.of_base (perform_onThrow _ _ _ _ hop he).base

/-- A request that sets or changes the factor. -/
def SetsRate : Op n → Prop
  | .start _ _ _ _ => True
  | .update _ _ => True
  | _ => False

/-- **The rate factor stays positive**, over every run whose multipliers keep it so: at every start
and every update nothing is divided by 0; if the request is refused the factor stays as it is, and
if it is accepted the factor is positive, and so is the factor that the cores get. -/
theorem rate_factor_positive (n : UInt8) (port : ControlPort n) (h : ReachableBy RateOk port)
    (op : Op n) (hadm : port.Admissible op) (hok : port.RateOk op) (hrate : SetsRate op) :
    (∀ d, port.Divides op d → d ≠ 0)
      ∧ (∀ u port', perform op port = .ok u port' → Positive port port')
      ∧ ∀ e port', perform op port = .error e port' → e.IsException →
          port'.factor = port.factor := by
  have hinv := h.reachable.inv
  refine ⟨fun d hd => hd.ne_zero hinv h.factorOk hadm hok, fun u port' hop => ?_, ?_⟩
  · cases op with
    | start rand streams mul duration => exact start_positive hadm hok hop
    | update streams mul => exact update_positive hinv h.factorOk hadm hok hop
    | _ => exact hrate.elim
  · intro e port' hop he
    rw [(perform_onThrow op port e port' hop he).base]

/-- The operation that starts the streams of the port with a plain factor. -/
def startRaw (value : Rat) : Op 1 := .start (fun _ _ => 0) [onePps] ⟨.MUL_FACTOR, .OP_ABS, value⟩ 0

theorem loadedPort_reachable (allowed : ControlPort 1 → Op 1 → Prop)
    (h : allowed freshPort (.addStream onePps)) : ReachableBy allowed loadedPort := by
  have hcreated : freshPort.Created 0 := ⟨⟨rfl, rfl, rfl, rfl, rfl⟩, rfl, rfl⟩
  have hadm : freshPort.Admissible (.addStream onePps) := rfl
  have hadd : perform (.addStream onePps) freshPort = .ok () loadedPort := rfl
  exact .returns (.init hcreated) hadm h hadd

/-- What is looked at after an operation that returned. -/
def rateOf? : EStateM.Result Throw (ControlPort 1) Unit →
    Option (TrexStatelessPort.PortState × Rat)
  | .ok _ port => some (port.portState, port.factor)
  | .error _ _ => none

/-- The operation returned. -/
theorem returned_of_view {res : EStateM.Result Throw (ControlPort 1) Unit}
    {state : TrexStatelessPort.PortState} {factor : Rat} (h : rateOf? res = some (state, factor)) :
    ∃ port, res = .ok () port ∧ port.portState = state ∧ port.factor = factor := by
  cases res with
  | ok u port =>
    obtain ⟨hstate, hfactor⟩ := Prod.mk.inj (Option.some.inj h)
    exact ⟨port, rfl, hstate, hfactor⟩
  | error e port => cases h

/-- A start with a factor of 2. -/
theorem rate_factor_positive_startRaw : ∃ port', perform (startRaw 2) loadedPort = .ok () port'
    ∧ port'.factor = 2 ∧ Positive loadedPort port' := by
  have hreach := loadedPort_reachable RateOk trivial
  have hok : loadedPort.RateOk (startRaw 2) :=
    ⟨fun htype => absurd rfl htype, by norm_num [startRaw], fun htype => nomatch htype⟩
  have hview : rateOf? (perform (startRaw 2) loadedPort) = some (PORT_STATE_TX, 2) := by
    decide +kernel
  obtain ⟨port, hstart, -, htwo⟩ := returned_of_view hview
  have hmain := rate_factor_positive 1 loadedPort hreach (startRaw 2) (List.Perm.refl _) hok trivial
  exact ⟨port, hstart, htwo, hmain.2.1 () port hstart⟩

/-- **A start with a factor of 0 is accepted**, and the next update divides by 0. -/
theorem zero_factor_accepted : Reachable loadedPort ∧ loadedPort.Admissible (startRaw 0)
    ∧ ∃ port', perform (startRaw 0) loadedPort = .ok () port' ∧ port'.factor = 0
      ∧ port'.Divides (.update [onePps] ⟨.MUL_FACTOR, .OP_ABS, 1⟩) 0 := by
  have hreach := (loadedPort_reachable (fun _ _ => True) trivial).reachable
  have hview : rateOf? (perform (startRaw 0) loadedPort) = some (PORT_STATE_TX, 0) := by
    decide +kernel
  obtain ⟨port, hstart, hstate, hzero⟩ := returned_of_view hview
  have hbusy : port.portState ∈ [PORT_STATE_TX, PORT_STATE_PAUSE] := by
    rw [hstate]
    decide
  exact ⟨hreach, List.Perm.refl _, port, hstart, hzero, hbusy, Or.inl hzero.symm⟩

end ControlPort

end Trex.Cp
