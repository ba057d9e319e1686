/-
# The rate of a port

The control plane keeps the factor of a port, `m_factor`.  A core gets the rates of the streams when
it starts them, and after that only relative factors, which it divides into the gaps of its nodes.

What the messages on the way to a core will make of its gaps (`gapsAfter`) is at any moment what the
control plane believes: one gap for each enabled stream, `n / (pps * m_factor)` on each of `n` cores
(`gapsAt`).  So every core that has handled its messages sends at this rate, and the cores together
send every stream at `pps * m_factor` (`rate_composition`).
-/
import Mathlib.Algebra.BigOperators.Fin
import Trex.Cp.Rate
import Trex.Dp.Gap
import Trex.Proto.Safety

namespace Trex.Proto

open Trex.Lib Trex.Stream Trex.Cp Trex.Dp TrexStatelessDpCore List
open Function (update update_of_ne update_self)

namespace TrexSystem

variable {n : UInt8} {s s' : TrexSystem n} {move : Move n} {i : UInt8} {k : Fin n.toNat}
  {streams : List TrexStream} {msgs : List CpToDpMsg} {old : List Rat} {factor : Rat}

/-! ## 1. What messages do to the gaps -/

/-- The gaps of a port after messages. -/
def gapsAfter (i : UInt8) (msgs : List CpToDpMsg) (old : List Rat) : List Rat :=
  msgs.foldl (CpToDpMsg.gaps i) old

/-- **The gaps that belong to a factor**: one for each enabled stream, on each of `n` cores. -/
def gapsAt (n : UInt8) (streams : List TrexStream) (factor : Rat) : List Rat :=
  (enabledOf streams).map fun stream => n.toNat / (stream.pps * factor)

theorem gapsAfter_append (msgs msgs' : List CpToDpMsg) :
    gapsAfter i (msgs ++ msgs') old = gapsAfter i msgs' (gapsAfter i msgs old) := foldl_append

/-- A message about another port. -/
theorem gaps_of_other {m : CpToDpMsg} (h : m.portId? ≠ some i) : m.gaps i old = old := by
  cases m with
  | start obj duration eventId => exact if_neg fun heq : obj.portId = i => h (congrArg some heq)
  | update j factor => exact if_neg fun heq : j = i => h (congrArg some heq)
  | stop cmd => rfl
  | pause j => rfl
  | resume j => rfl
  | quit => rfl

theorem gapsAfter_of_other (h : ∀ m ∈ msgs, m.portId? ≠ some i) : gapsAfter i msgs old = old := by
  induction msgs with
  | nil => rfl
  | cons m rest ih =>
    have hm : m.gaps i old = old := gaps_of_other (h m mem_cons_self)
    rw [gapsAfter, foldl_cons, hm]
    exact ih fun m' hm' => h m' (mem_cons_of_mem _ hm')

/-- **A start sets the gaps, whatever they were.** -/
theorem gapsAfter_of_start (hstart : ∃ m ∈ msgs, StartsPort i m) (old old' : List Rat) :
    gapsAfter i msgs old = gapsAfter i msgs old' := by
  induction msgs generalizing old old' with
  | nil =>
    obtain ⟨m, hm, -⟩ := hstart
    cases hm
  | cons m rest ih =>
    simp only [gapsAfter, foldl_cons]
    by_cases hm : StartsPort i m
    · cases m with
      | start obj duration eventId =>
        have hi : obj.portId = i := hm
        simp only [CpToDpMsg.gaps, if_pos hi]
      | stop cmd => exact hm.elim
      | pause j => exact hm.elim
      | resume j => exact hm.elim
      | update j factor => exact hm.elim
      | quit => exact hm.elim
    · refine ih ?_ _ _
      obtain ⟨m', hm', hstart'⟩ := hstart
      rcases mem_cons.mp hm' with rfl | hrest
      · exact absurd hstart' hm
      · exact ⟨m', hrest, hstart'⟩

/-- **An update makes a factor of a factor.** -/
theorem gapsAt_mul (factor factor' : Rat) :
    (gapsAt n streams factor).map (· / factor') = gapsAt n streams (factor * factor') := by
  simp only [gapsAt, map_map]
  refine map_congr_left fun stream _ => ?_
  change (n.toNat : Rat) / (stream.pps * factor) / factor' =
    n.toNat / (stream.pps * (factor * factor'))
  rw [div_div, mul_assoc]

/-- **What the compiler makes for a core has these gaps.** -/
theorem compileAll_gaps {rand : Nat → Nat → Nat} {portId : UInt8}
    {objs : List TrexStreamsCompiledObj} {core : Nat} {obj : TrexStreamsCompiledObj}
    (h : compileAll rand portId streams n factor = .ok objs) (hobj : objs[core]? = some obj) :
    (obj.objs.map fun stream => 1 / stream.pps) = gapsAt n streams factor := by
  obtain ⟨-, -, hlen, hcore⟩ := compileAll_core h hobj
  refine ext_getElem (by simp [gapsAt, hlen]) fun j hj hj' => ?_
  have hj : j < obj.objs.length := by simpa using hj
  have hj' : j < (enabledOf streams).length := by simpa [gapsAt] using hj'
  obtain ⟨id, next, hsans⟩ :=
    hcore j _ _ (List.getElem?_eq_getElem hj') (List.getElem?_eq_getElem hj)
  have hpps : obj.objs[j].pps = (enabledOf streams)[j].pps * (factor / n.toNat) :=
    congrArg TrexStream.pps hsans
  simp only [gapsAt, getElem_map, hpps]
  rw [one_div, mul_div_assoc', inv_div]

/-! ## 2. Requests and events -/

/-- **What a request does to the rate of a port**, if the port is busy after it. -/
inductive Paced (port : TrexStatelessPort n) (reply : Reply n) : Prop
  | start {streams : List TrexStream} : streams.Perm reply.port.streamTable →
      (∀ core, ∃ m, reply.toDp core = [m]
        ∧ ∀ old, m.gaps port.portId old = gapsAt n streams reply.port.factor) → Paced port reply
  | update {factor : Rat} : port.belief ≠ .off → reply.port.streamTable = port.streamTable →
      reply.port.factor = port.factor * factor →
      (∀ core, reply.toDp core = [.update port.portId factor]) → Paced port reply
  | keep : port.belief ≠ .off → reply.port.streamTable = port.streamTable →
      reply.port.factor = port.factor →
      (∀ core, ∀ m ∈ reply.toDp core, (∀ old, m.gaps port.portId old = old)
        ∧ ¬ StartsPort port.portId m) → Paced port reply

variable {port : TrexStatelessPort n} {reply : Reply n} {c' : TrexStatelessDpCore}

theorem startTraffic_paced {rand : Nat → Nat → Nat} {duration : Rat}
    (hperm : streams.Perm port.streamTable)
    (h : port.startTraffic rand streams factor duration = .ok reply) : Paced port reply := by
  obtain ⟨_, -, h⟩ := bind_eq_ok h
  obtain ⟨objs, hobjs, h⟩ := bind_eq_ok h
  obtain ⟨eventId, -, h⟩ := bind_eq_ok h
  have hcompile := mapError_eq_ok hobjs
  have hlength := (compileAll_entries hcompile).2.1
  split at h
  · cases h
  cases h
  refine .start hperm fun core => ?_
  have hcore : core.val < objs.length := lt_of_lt_of_eq core.isLt hlength.symm
  have hobj := List.getElem?_eq_getElem hcore
  refine ⟨.start objs[core.val] duration eventId, ?_, fun old => ?_⟩
  · simp only [hobj]
    rfl
  · have hid := (compileAll_core hcompile hobj).1
    rw [CpToDpMsg.gaps, if_pos hid]
    exact compileAll_gaps hcompile hobj

/-- Every other request. -/
theorem paced_of_replied {request : TrexStatelessPort.Request}
    (h : TrexStatelessPort.Replied port request reply)
    (hno : ∀ rand streams factor duration, request ≠ .start rand streams factor duration)
    (hon : reply.port.belief ≠ .off) : Paced port reply := by
  have hone : ∀ {m : CpToDpMsg}, (∀ old, m.gaps port.portId old = old) →
      ¬ StartsPort port.portId m →
      ∀ m' ∈ [m], (∀ old, m'.gaps port.portId old = old) ∧ ¬ StartsPort port.portId m' := by
    intro m hgaps hstart m' hm'
    rw [mem_singleton.mp hm']
    exact ⟨hgaps, hstart⟩
  cases h with
  | table _ hoff => exact absurd hoff hon
  | start => exact absurd rfl (hno _ _ _ _)
  | stop => exact absurd rfl hon
  | noStop hoff => exact absurd hoff hon
  | pause htx =>
    refine .keep ?_ rfl rfl fun _ => hone (fun _ => rfl) id
    rw [TrexStatelessPort.belief, htx]
    intro hcase
    cases hcase
  | resume hpause =>
    refine .keep ?_ rfl rfl fun _ => hone (fun _ => rfl) id
    rw [TrexStatelessPort.belief, hpause]
    intro hcase
    cases hcase
  | update hbusy => exact .update hbusy rfl rfl fun _ => rfl

theorem handle_paced {request : TrexStatelessPort.Request} (hok : port.Ok)
    (hadm : port.Admissible request) (h : port.handle request = .ok reply)
    (hon : reply.port.belief ≠ .off) : Paced port reply := by
  cases request with
  | start rand streams factor duration => exact startTraffic_paced hadm h
  | _ => exact paced_of_replied (TrexStatelessPort.handle_replied hok hadm h) nofun hon

/-- An event that leaves a port busy changes neither its streams nor its factor. -/
theorem Noticed.same {port' : TrexStatelessPort n} {core : Fin n.toNat} {eventId : Int}
    (h : TrexStatelessPort.Noticed port core eventId port') (hon : port'.belief ≠ .off) :
    port.belief ≠ .off ∧ port'.streamTable = port.streamTable ∧ port'.factor = port.factor := by
  cases h with
  | ignored => exact ⟨hon, rfl, rfl⟩
  | marked hbusy => exact ⟨hbusy, rfl, rfl⟩
  | occurred => exact absurd rfl hon

/-- The factor that an update asks for. -/
def resultOf (op : MulOp) (newFactor : Rat) (port : TrexStatelessPort n) : Rat :=
  match op with
  | .OP_ABS => newFactor
  | .OP_ADD => port.factor + newFactor
  | .OP_SUB => port.factor - newFactor

/-- **An update sets the factor that it asks for**, unless the factor was 0. -/
theorem updateTraffic_factor {op : MulOp} {newFactor : Rat}
    (h : port.updateTraffic op newFactor = .ok reply) (hne : port.factor ≠ 0) :
    reply.port.factor = resultOf op newFactor port := by
  obtain ⟨_, -, h⟩ := bind_eq_ok h
  simp only at h
  split at h
  · cases h
  · cases h
    change port.factor * port.updateFactor op newFactor = resultOf op newFactor port
    cases op <;> exact mul_div_cancel₀ _ hne

/-! ## 3. The invariant -/

/-- **What a core will have made of the gaps of a port**, when it has handled its messages: those of
the factor of the port, or the run is over and no other one is on its way. -/
def PacedAt (s : TrexSystem n) (i : UInt8) (streams : List TrexStream) (k : Fin n.toNat) : Prop :=
  gapsAfter i (s.toDp k) ((s.cores k).gaps i) = gapsAt n streams (s.cp i).factor
    ∨ ((s.cores k).ports i).state = .ppSTATE_IDLE ∧ ∀ m ∈ s.toDp k, ¬ StartsPort i m

/-- The rates of a port are as the control plane believes. -/
structure RateOk (s : TrexSystem n) (i : UInt8) : Prop where
  factor : 0 < (s.cp i).factor
  gaps : ∃ streams, streams.Perm (s.cp i).streamTable ∧ ∀ k, s.PacedAt i streams k

/-- **The moves with positive rates.** -/
def PositiveRates (s : TrexSystem n) : Move n → Prop
  | .request _ (.start _ _ factor _) => 0 < factor
  | .request i (.update op newFactor) => 0 < resultOf op newFactor (s.cp i)
  | _ => True

/-- An idle port stays idle until it is started. -/
theorem idle_of_step {c : TrexStatelessDpCore} {a : Act} (h : c.step a = .ok c')
    (hidle : (c.ports i).state = .ppSTATE_IDLE) (hno : ∀ m, a = .msg m → ¬ StartsPort i m) :
    (c'.ports i).state = .ppSTATE_IDLE := by
  have hhalt : ∀ {j : UInt8}, Halted j c c' → (c'.ports i).state = .ppSTATE_IDLE := by
    intro j hj
    by_cases hij : i = j
    · exact hij ▸ hj.after
    · rw [hj.others i hij]
      exact hidle
  have hswitch : ∀ {j : UInt8} {before after : PortState}, before ≠ .ppSTATE_IDLE →
      Switched j before after c c' → (c'.ports i).state = .ppSTATE_IDLE := by
    intro j before after hne hj
    by_cases hij : i = j
    · subst hij
      exact absurd (hj.before.symm.trans hidle) hne
    · rw [hj.others i hij]
      exact hidle
  cases (step_effect h).1 with
  | start hs =>
    have hne : i ≠ _ := fun heq => hno _ rfl heq.symm
    rw [hs.others i hne]
    exact hidle
  | pause hs => exact hswitch (by decide) hs
  | resume hs => exact hswitch (by decide) hs
  | update hq => exact (hq.state i).trans hidle
  | quit hq => exact (hq.state i).trans hidle
  | noStop heq => exact heq ▸ hidle
  | stop hh => exact hhalt hh
  | internal _ hq => exact (hq.state i).trans hidle
  | streams _ _ _ hh => exact hhalt hh
  | duration _ _ hh => exact hhalt hh

/-- A core changes, and what is left of its messages makes the same of its gaps, unless its port is
idle now. -/
theorem PacedAt.of_core {rest : List CpToDpMsg} {gaps : List Rat}
    (hafter : gapsAfter i rest gaps = gapsAt n streams factor)
    (hgaps : c'.gaps i = gaps ∨ (c'.ports i).state = .ppSTATE_IDLE) :
    gapsAfter i rest (c'.gaps i) = gapsAt n streams factor
      ∨ (c'.ports i).state = .ppSTATE_IDLE ∧ ∀ m ∈ rest, ¬ StartsPort i m := by
  rcases hgaps with hsame | hidle
  · exact Or.inl (hsame ▸ hafter)
  · by_cases hstart : ∃ m ∈ rest, StartsPort i m
    · exact Or.inl ((gapsAfter_of_start hstart _ _).trans hafter)
    · exact Or.inr ⟨hidle, fun m hm hs => hstart ⟨m, hm, hs⟩⟩

/-- **A message that the core takes.** -/
theorem PacedAt.deliver {m : CpToDpMsg} {rest : List CpToDpMsg} (h : s.PacedAt i streams k)
    (hinv : (s.cores k).Inv) (hinv' : c'.Inv) (hring : s.toDp k = m :: rest)
    (hstep : (s.cores k).step (.msg m) = .ok c') : (s.delivered k c' rest).PacedAt i streams k := by
  simp only [PacedAt, delivered, update_self]
  rw [PacedAt, hring] at h
  rcases h with hafter | ⟨hidle, hno⟩
  · exact PacedAt.of_core hafter (msg_gaps hinv hinv' hstep i)
  · refine Or.inr ⟨idle_of_step hstep hidle ?_, fun m' hm' => hno m' (mem_cons_of_mem _ hm')⟩
    rintro m' ⟨⟩
    exact hno m mem_cons_self

/-- **A step of the core by itself.** -/
theorem PacedAt.internal {a : Act} (h : s.PacedAt i streams k) (hinv : (s.cores k).Inv)
    (ha : a.internal) (hstep : (s.cores k).step a = .ok c') :
    PacedAt { s with cores := update s.cores k c' } i streams k := by
  simp only [PacedAt, update_self]
  rcases h with hafter | ⟨hidle, hno⟩
  · exact PacedAt.of_core hafter (internal_gaps hinv ha hstep i)
  · refine Or.inr ⟨idle_of_step hstep hidle ?_, hno⟩
    rintro m rfl
    exact ha.elim

/-- **A request of the port.** -/
theorem RateOk.request (hid : (s.cp i).portId = i) (h : (s.cp i).belief ≠ .off → s.RateOk i)
    (hpaced : Paced (s.cp i) reply) (hfactor : 0 < reply.port.factor) :
    (s.replied i reply).RateOk i := by
  have hport : (s.replied i reply).cp i = reply.port := update_self _ _ _
  have hring : ∀ k, (s.replied i reply).toDp k = s.toDp k ++ reply.toDp k := fun _ => rfl
  refine ⟨hport.symm ▸ hfactor, ?_⟩
  simp only [PacedAt, hport, hring, gapsAfter_append]
  change ∃ streams : List TrexStream, streams.Perm _ ∧
    ∀ k, gapsAfter i _ (gapsAfter i (s.toDp k) ((s.cores k).gaps i)) = _
    ∨ ((s.cores k).ports i).state = .ppSTATE_IDLE ∧ _
  cases hpaced with
  | start hperm hmsg =>
    refine ⟨_, hperm, fun k => Or.inl ?_⟩
    obtain ⟨m, hm, hgaps⟩ := hmsg k
    rw [hm]
    rw [hid] at hgaps
    exact hgaps _
  | update hon htable hnew hmsg =>
    rename_i factor
    obtain ⟨streams, hperm, hall⟩ := (h hon).gaps
    refine ⟨streams, htable ▸ hperm, fun k => ?_⟩
    rw [hmsg k, hid]
    rcases hall k with hafter | ⟨hidle, hno⟩
    · refine Or.inl ?_
      rw [hafter, hnew, ← gapsAt_mul]
      exact if_pos rfl
    · refine Or.inr ⟨hidle, fun m hm => ?_⟩
      rcases mem_append.mp hm with hold | hlast
      · exact hno m hold
      · rw [mem_singleton.mp hlast]
        exact id
  | keep hon htable hsame hmsg =>
    obtain ⟨streams, hperm, hall⟩ := (h hon).gaps
    rw [hid] at hmsg
    refine ⟨streams, htable ▸ hperm, fun k => ?_⟩
    have hskip : ∀ old, gapsAfter i (reply.toDp k) old = old := by
      intro old
      have hm := hmsg k
      generalize reply.toDp k = msgs at hm
      induction msgs with
      | nil => rfl
      | cons m rest ih =>
        rw [gapsAfter, foldl_cons, (hm m mem_cons_self).1]
        exact ih fun m' hm' => hm m' (mem_cons_of_mem _ hm')
    rcases hall k with hafter | ⟨hidle, hno⟩
    · refine Or.inl ?_
      rw [hskip, hafter, hsame]
    · refine Or.inr ⟨hidle, fun m hm => ?_⟩
      rcases mem_append.mp hm with hold | hnew
      · exact hno m hold
      · exact (hmsg k m hnew).2

/-- Nothing of a port changes, and the gaps of its cores stay. -/
theorem RateOk.congr (h : s.RateOk i) (hport : s'.cp i = s.cp i)
    (hall : ∀ streams k, s.PacedAt i streams k → s'.PacedAt i streams k) : s'.RateOk i := by
  obtain ⟨streams, hperm, hpaced⟩ := h.gaps
  exact ⟨hport ▸ h.factor, streams, hport ▸ hperm, fun k => hall streams k (hpaced k)⟩

/-- Messages about other ports follow. -/
theorem PacedAt.append (h : s.PacedAt i streams k) (hport : s'.cp i = s.cp i)
    (hcore : s'.cores k = s.cores k) (hring : s'.toDp k = s.toDp k ++ msgs)
    (hother : ∀ m ∈ msgs, m.portId? ≠ some i) : s'.PacedAt i streams k := by
  rw [PacedAt, hport, hcore, hring, gapsAfter_append, gapsAfter_of_other hother]
  rcases h with hafter | ⟨hidle, hno⟩
  · exact Or.inl hafter
  · refine Or.inr ⟨hidle, fun m hm => ?_⟩
    rcases mem_append.mp hm with hold | hnew
    · exact hno m hold
    · intro hs
      cases m with
      | start obj duration eventId => exact hother _ hnew (congrArg some hs)
      | stop cmd => exact hs
      | pause j => exact hs
      | resume j => exact hs
      | update j factor => exact hs
      | quit => exact hs

/-- The messages of a request are about its port. -/
theorem portId_of_replied {request : TrexStatelessPort.Request}
    (h : TrexStatelessPort.Replied port request reply) :
    ∀ m ∈ reply.toDp k, m.portId? = some port.portId := by
  intro m hm
  cases h with
  | table => cases hm
  | start _ _ hmsg =>
    obtain ⟨obj, hobj, hobjOk, -⟩ := hmsg k
    simp only [hobj, mem_singleton] at hm
    rw [hm]
    exact congrArg some hobjOk.port
  | stop => rw [mem_singleton.mp hm]; rfl
  | noStop => cases hm
  | pause => rw [mem_singleton.mp hm]; rfl
  | resume => rw [mem_singleton.mp hm]; rfl
  | update => rw [mem_singleton.mp hm]; rfl

/-- The factor after a request that is allowed. -/
theorem factor_pos_of_request {request : TrexStatelessPort.Request} (h : s.Ok)
    (hallowed : s.PositiveRates (.request i request)) (hadm : (s.cp i).Admissible request)
    (hreply : (s.cp i).handle request = .ok reply)
    (hrate : (s.cp i).belief ≠ .off → 0 < (s.cp i).factor) (hon : reply.port.belief ≠ .off) :
    0 < reply.port.factor := by
  have hrep := TrexStatelessPort.handle_replied (h.port i) hadm hreply
  cases request with
  | start rand streams factor duration =>
    cases hrep with
    | table _ hoff => exact absurd hoff hon
    | start => exact hallowed
  | update op newFactor =>
    have hbusy : (s.cp i).belief ≠ .off := by
      cases hrep with
      | table _ hoff => exact absurd hoff hon
      | update hbusy => exact hbusy
    rw [updateTraffic_factor hreply (ne_of_gt (hrate hbusy))]
    exact hallowed
  | _ =>
    obtain ⟨hbusy, hsame⟩ := hrep.factor nofun nofun hon
    exact hsame ▸ hrate hbusy

/-- **Every move keeps the rates.** -/
theorem Step.rateOk (hstep : Step s move s') (h : s.Ok) (hallowed : s.PositiveRates move)
    (hrate : ∀ i, (s.cp i).belief ≠ .off → s.RateOk i) (i : UInt8) (hon : (s'.cp i).belief ≠ .off) :
    s'.RateOk i := by
  cases hstep with
  | request hport hadm hreply =>
    rename_i portId request reply
    have hid := h.portId portId
    by_cases hi : i = portId
    · subst hi
      have hcp : (s.replied i reply).cp i = reply.port := update_self _ _ _
      rw [hcp] at hon
      refine RateOk.request hid (hrate i) (handle_paced (h.port i) hadm hreply hon) ?_
      exact factor_pos_of_request h hallowed hadm hreply (fun hbusy => (hrate i hbusy).factor) hon
    · have hcp : (s.replied portId reply).cp i = s.cp i := update_of_ne hi _ _
      rw [hcp] at hon
      refine (hrate i hon).congr hcp fun streams k hpaced => ?_
      refine hpaced.append hcp rfl rfl fun m hm => ?_
      have hrep := TrexStatelessPort.handle_replied (h.port portId) hadm hreply
      rw [portId_of_replied hrep m hm, hid]
      exact fun heq => hi (Option.some.inj heq).symm
  | quit =>
    refine (hrate i hon).congr rfl fun streams k hpaced => ?_
    refine hpaced.append rfl rfl rfl fun m hm => ?_
    rw [mem_singleton.mp hm]
    nofun
  | deliver hring hen hc =>
    rename_i j m rest c
    refine (hrate i hon).congr rfl fun streams k hpaced => ?_
    by_cases hk : k = j
    · subst hk
      exact hpaced.deliver (h.core k).inv ((h.core k).step hen hc).inv hring hc
    · simpa only [PacedAt, delivered, update_of_ne hk] using hpaced
  | core ha hen hc =>
    rename_i j a c
    refine (hrate i hon).congr rfl fun streams k hpaced => ?_
    by_cases hk : k = j
    · subst hk
      exact hpaced.internal (h.core k).inv ha hc
    · simpa only [PacedAt, update_of_ne hk] using hpaced
  | event hring =>
    rename_i j ev rest
    have hsame : ∀ streams k, s.PacedAt i streams k →
        ((s.handleEvent j ev rest).cp i).factor = (s.cp i).factor →
        (s.handleEvent j ev rest).PacedAt i streams k := by
      intro streams k hpaced hfactor
      rw [PacedAt, hfactor]
      by_cases hk : k = j
      · subst hk
        simp only [handleEvent, update_self]
        exact hpaced
      · simp only [handleEvent, update_of_ne hk]
        exact hpaced
    by_cases hi : i = ev.portId
    · subst hi
      have hcp : (s.handleEvent j ev rest).cp ev.portId =
          (s.cp ev.portId).handleEvent j ev.eventId :=
        update_self _ _ _
      have hnoticed := TrexStatelessPort.handleEvent_noticed (h.port ev.portId) j ev.eventId
      rw [← hcp] at hnoticed
      obtain ⟨hbusy, htable, hfactor⟩ := Noticed.same hnoticed hon
      obtain ⟨streams, hperm, hpaced⟩ := (hrate _ hbusy).gaps
      exact ⟨hfactor ▸ (hrate _ hbusy).factor, streams, htable ▸ hperm,
        fun k => hsame streams k (hpaced k) hfactor⟩
    · have hcp : (s.handleEvent j ev rest).cp i = s.cp i := update_of_ne hi _ _
      rw [hcp] at hon
      exact (hrate i hon).congr hcp fun streams k hpaced => hsame streams k hpaced (by rw [hcp])

theorem ReachableBy.rateOk (h : ReachableBy PositiveRates s) :
    ∀ i, (s.cp i).belief ≠ .off → s.RateOk i := by
  induction h with
  | init hinit =>
    intro i hon
    refine absurd ?_ hon
    rw [TrexStatelessPort.belief, (hinit.cp i).portState]
  | step hreach hallowed hstep ih => exact hstep.rateOk hreach.ok hallowed ih

/-! ## 4. The rates -/

/-- What the cores of a port send together.  `weight` is what a packet of the `j`-th stream counts:
1, its bits, or 0 if the stream is not active. -/
def portRate (s : TrexSystem n) (i : UInt8) (weight : Nat → Rat) : Rat :=
  ∑ k, (((s.cores k).gaps i).zipIdx.map fun gap => weight gap.2 / gap.1).sum

/-- What the streams of a table send together at factor 1. -/
def baseRate (streams : List TrexStream) (weight : Nat → Rat) : Rat :=
  ((enabledOf streams).zipIdx.map fun (stream : TrexStream × Nat) =>
    weight stream.2 * stream.1.pps).sum

/-- One core sends its share of the rate. -/
theorem sum_gapsAt (streams : List TrexStream) (factor : Rat) (weight : Nat → Rat) :
    ((gapsAt n streams factor).zipIdx.map fun (gap : Rat × Nat) => weight gap.2 / gap.1).sum
      = baseRate streams weight * factor / n.toNat := by
  have hterm : ∀ stream : TrexStream × Nat,
      weight stream.2 / ((n.toNat : Rat) / (stream.1.pps * factor))
        = weight stream.2 * stream.1.pps * (factor / n.toNat) := by
    intro stream
    rw [div_div_eq_mul_div, ← mul_assoc, mul_div_assoc]
  rw [gapsAt, zipIdx_map, map_map, baseRate, mul_div_assoc, ← sum_map_mul_right]
  exact congrArg List.sum (map_congr_left fun stream _ => hterm stream)

/-- A core that has handled the messages of a port has its gaps. -/
theorem PacedAt.delivered (h : s.PacedAt i streams k) (hring : ∀ m ∈ s.toDp k, m.portId? ≠ some i)
    (hbusy : ((s.cores k).ports i).state ≠ .ppSTATE_IDLE) :
    (s.cores k).gaps i = gapsAt n streams (s.cp i).factor := by
  rcases h with hafter | ⟨hidle, -⟩
  · rwa [gapsAfter_of_other hring] at hafter
  · exact absurd hidle hbusy

instance (s : TrexSystem n) (move : Move n) : Decidable (s.PositiveRates move) :=
  match move with
  | .request _ (.start _ _ factor _) => inferInstanceAs (Decidable (0 < factor))
  | .request i (.update op newFactor) =>
      inferInstanceAs (Decidable (0 < resultOf op newFactor (s.cp i)))
  | .request _ (.addStream _) => .isTrue trivial
  | .request _ (.removeStream _) => .isTrue trivial
  | .request _ .removeAllStreams => .isTrue trivial
  | .request _ .stop => .isTrue trivial
  | .request _ .pause => .isTrue trivial
  | .request _ .resume => .isTrue trivial
  | .quit => .isTrue trivial
  | .deliver _ => .isTrue trivial
  | .core _ _ => .isTrue trivial
  | .event _ => .isTrue trivial

/-- A continuous stream is started at factor 3 and paused, its rate is lowered by 1, and the core
handles all of it. -/
def pacedMoves : List (Move 1) :=
  [.request 0 (.addStream continuousStream),
    .request 0 (.start (fun _ _ => 0) [continuousStream] 3 0), .request 0 .pause, .deliver onlyCore,
    .request 0 (.update .OP_SUB 1), .deliver onlyCore, .deliver onlyCore]

end TrexSystem

end Trex.Proto
