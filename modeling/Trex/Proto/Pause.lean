/-
# Pause and resume

Only continuous nodes look at their pause flag, so a pause is silent because of a chain of facts:
the control plane pauses a port only if all streams of its last start are continuous and no stop is
scheduled for it, and nothing changes this before a core has the pause (`Trex.Lib.Channel`).  A core
that has handled a pause keeps the nodes of the port, all of them active and in the queue, until it
handles a resume or a stop, and they only move in time; after a resume they send again
(`pause_silent_lossless`).
-/
import Trex.Dp.Pause
import Trex.Proto.Safety

namespace Trex.Proto

open Trex.Lib Trex.Stream Trex.Cp Trex.Dp TrexStatelessDpCore List
open Function (update update_of_ne update_self)

namespace TrexSystem

variable {n : UInt8} {s s' s'' : TrexSystem n} {move : Move n} {i : UInt8} {k : Fin n.toNat}
  {c c' c'' : TrexStatelessDpCore}

/-! ## 1. Continuous streams start by themselves -/

/-- **If all compiled streams are continuous, all of them start by themselves**: nothing leads to a
stream that does not. -/
theorem compileAll_selfStarting {rand : Nat → Nat → Nat} {portId : UInt8}
    {streams : List TrexStream} {factor : Rat} {objs : List TrexStreamsCompiledObj} {core : Nat}
    {obj : TrexStreamsCompiledObj} (h : compileAll rand portId streams n factor = .ok objs)
    (hobj : objs[core]? = some obj) :
    SelfStarting obj := by
  obtain ⟨hwf, -, -⟩ := compileAll_entries h
  obtain ⟨-, -, hlen, hcore⟩ := compileAll_core h hobj
  intro hcont e he
  -- the enabled streams have the types and the flags of what is made of them
  have hentry : ∀ (j : Nat) (stream : TrexStream), (enabledOf streams)[j]? = some stream →
      ∃ e, obj.objs[j]? = some e ∧ e.type = stream.type ∧ e.selfStart = stream.selfStart := by
    intro j stream hj
    have hlt : j < obj.objs.length := hlen ▸ (List.getElem?_eq_some_iff.mp hj).1
    have hsome := List.getElem?_eq_getElem hlt
    obtain ⟨id, next, hsans⟩ := hcore j stream _ hj hsome
    exact ⟨_, hsome, (congrArg TrexStream.type hsans :), (congrArg TrexStream.selfStart hsans :)⟩
  have hall : ∀ stream ∈ enabledOf streams, stream.type = .stCONTINUOUS := by
    intro stream hs
    obtain ⟨j, hj⟩ := List.getElem?_of_mem hs
    obtain ⟨e', he', htype, -⟩ := hentry j stream hj
    exact htype.symm.trans (hcont e' (mem_of_getElem? he'))
  obtain ⟨j, hj⟩ := List.getElem?_of_mem he
  have hlt : j < (enabledOf streams).length := hlen ▸ (List.getElem?_eq_some_iff.mp hj).1
  have hstream := List.getElem?_eq_getElem hlt
  obtain ⟨e', he', -, hself⟩ := hentry j _ hstream
  rw [hj] at he'
  obtain rfl := Option.some.inj he'
  rw [hself]
  obtain ⟨r, hr, hstart, hpath⟩ := hwf.reachable _ (mem_of_getElem? hstream)
  rcases Relation.ReflTransGen.cases_head hpath with heq | ⟨x, ⟨-, -, hnext, -⟩, -⟩
  · exact heq ▸ hstart
  · exact absurd (hwf.continuous r hr (hall r hr)) hnext

/-- What a request starts on a core. -/
theorem handle_selfStarting {port : TrexStatelessPort n} {request : TrexStatelessPort.Request}
    {reply : Reply n} (hok : port.Ok) (hadm : port.Admissible request)
    (h : port.handle request = .ok reply) {obj : TrexStreamsCompiledObj} {duration : Rat}
    {eventId : Int} (hmem : .start obj duration eventId ∈ reply.toDp k) : SelfStarting obj := by
  have hother : (∀ rand streams factor duration, request ≠ .start rand streams factor duration) →
      SelfStarting obj := by
    intro hno
    cases TrexStatelessPort.handle_replied hok hadm h with
    | table => cases hmem
    | start => exact absurd rfl (hno _ _ _ _)
    | stop => cases mem_singleton.mp hmem
    | noStop => cases hmem
    | pause => cases mem_singleton.mp hmem
    | resume => cases mem_singleton.mp hmem
    | update => cases mem_singleton.mp hmem
  cases request with
  | start rand streams factor duration' =>
    obtain ⟨_, -, h⟩ := bind_eq_ok h
    obtain ⟨objs, hobjs, h⟩ := bind_eq_ok h
    obtain ⟨_, -, h⟩ := bind_eq_ok h
    have hcompile := mapError_eq_ok hobjs
    split at h
    · cases h
    cases h
    obtain ⟨obj', hobj', heq⟩ := mem_map.mp hmem
    cases heq
    exact compileAll_selfStarting hcompile (Option.mem_toList.mp hobj')
  | _ => exact hother nofun

/-- The ports are awake, and the starts on their way keep them so. -/
structure AwakeOk (s : TrexSystem n) : Prop where
  message : ∀ k obj duration eventId, .start obj duration eventId ∈ s.toDp k → SelfStarting obj
  awake : ∀ i k, Awake i (s.cores k)

theorem Step.awakeOk (hstep : Step s move s') (h : s.Ok) (hawake : s.AwakeOk) : s'.AwakeOk := by
  have hcore : ∀ {j : Fin n.toNat} {a : Act} {c : TrexStatelessDpCore}, (s.cores j).Enabled a →
      (s.cores j).step a = .ok c →
      (∀ obj duration eventId, a = .msg (.start obj duration eventId) → SelfStarting obj) →
      ∀ i k, Awake i (update s.cores j c k) := by
    intro j a c hen hc hobj i k
    by_cases hk : k = j
    · subst hk
      rw [update_self]
      exact step_awake (h.core k).inv ((h.core k).step hen hc).inv hc hobj (hawake.awake i k)
    · rw [update_of_ne hk]
      exact hawake.awake i k
  cases hstep with
  | request hport hadm hreply =>
    refine ⟨fun k obj duration eventId hmem => ?_, hawake.awake⟩
    rcases mem_append.mp hmem with hold | hnew
    · exact hawake.message k obj duration eventId hold
    · exact handle_selfStarting (h.port _) hadm hreply hnew
  | quit =>
    refine ⟨fun k obj duration eventId hmem => ?_, hawake.awake⟩
    rcases mem_append.mp hmem with hold | hnew
    · exact hawake.message k obj duration eventId hold
    · cases mem_singleton.mp hnew
  | deliver hring hen hc =>
    rename_i j m rest c
    refine ⟨fun k obj duration eventId hmem => ?_, hcore hen hc ?_⟩
    · by_cases hk : k = j
      · subst hk
        simp only [delivered, update_self] at hmem
        exact hawake.message k obj duration eventId (hring ▸ mem_cons_of_mem _ hmem)
      · simp only [delivered, update_of_ne hk] at hmem
        exact hawake.message k obj duration eventId hmem
    · rintro obj duration eventId ⟨⟩
      exact hawake.message j obj duration eventId (hring ▸ mem_cons_self)
  | core ha hen hc =>
    refine ⟨hawake.message, hcore hen hc ?_⟩
    rintro obj duration eventId rfl
    exact ha.elim
  | event hring =>
    rename_i j ev rest
    refine ⟨hawake.message, fun i k => ?_⟩
    by_cases hk : k = j
    · subst hk
      simp only [handleEvent, update_self]
      exact hawake.awake i k
    · simp only [handleEvent, update_of_ne hk]
      exact hawake.awake i k

theorem ReachableBy.awakeOk {allowed : TrexSystem n → Move n → Prop} (h : ReachableBy allowed s) :
    s.AwakeOk := by
  induction h with
  | init hinit =>
    refine ⟨fun k obj duration eventId hmem => ?_, fun i k => ?_⟩
    · rw [hinit.toDp k] at hmem
      cases hmem
    · have hcore := (hinit.cores k).1
      exact awake_of_idle hcore.inv (hcore.ports i).1
  | step hreach _ hstep ih => exact hstep.awakeOk hreach.ok ih

/-! ## 2. Runs that do not end by themselves -/

/-- The run of a port does not end by itself on a core. -/
structure Endless (i : UInt8) (c : TrexStatelessDpCore) : Prop where
  busy : (c.ports i).state ≠ .ppSTATE_IDLE
  burst : ¬ HasBurst i c
  delayed : (c.ports i).eventId ∉ delayedIds i c

/-- A message that starts or stops a port. -/
def TurnsPort (i : UInt8) : CpToDpMsg → Prop
  | .start obj _ _ => obj.portId = i
  | .stop cmd => cmd.portId = i
  | .pause _ => False
  | .resume _ => False
  | .update _ _ => False
  | .quit => False

/-- A message that pauses or resumes a port. -/
def SwitchesPort (i : UInt8) : CpToDpMsg → Prop
  | .start _ _ _ => False
  | .stop _ => False
  | .pause j => j = i
  | .resume j => j = i
  | .update _ _ => False
  | .quit => False

/-- A step that neither starts nor stops an endless port leaves it as it is, but for its pause. -/
theorem Endless.kept (h : Endless i c) (hcore : ∀ cmd ∈ c.commands, cmd.stopOnlyForEventId = true)
    {a : Act} (hno : ∀ m, a = .msg m → ¬ TurnsPort i m)
    (hmsg : ∀ obj duration eventId, a = .msg (.start obj duration eventId) → ObjOk obj.portId obj)
    (hstep : c.step a = .ok c') :
    (c'.ports i).eventId = (c.ports i).eventId ∧ delayedIds i c' ⊆ delayedIds i c
      ∧ (c'.ports i).state ≠ .ppSTATE_IDLE
      ∧ ((∀ m, a = .msg m → ¬ SwitchesPort i m) → (c'.ports i).state = (c.ports i).state) := by
  have hkeep : TrexSystem.Untouched i c c' → (c'.ports i).eventId = (c.ports i).eventId
      ∧ delayedIds i c' ⊆ delayedIds i c ∧ (c'.ports i).state ≠ .ppSTATE_IDLE
      ∧ ((∀ m, a = .msg m → ¬ SwitchesPort i m) → (c'.ports i).state = (c.ports i).state) :=
    fun hu => ⟨hu.eventId, hu.delayed, fun hidle => h.busy (hu.state ▸ hidle), fun _ => hu.state⟩
  cases (step_effect hstep).1 with
  | start hs =>
    rename_i obj duration eventId
    have hne : i ≠ obj.portId := fun heq => hno _ rfl heq.symm
    exact hkeep (untouched_of_started hs (hmsg obj duration eventId rfl) hne)
  | pause hs =>
    rename_i j
    by_cases hij : i = j
    · subst hij
      have hcommands : c'.commands = c.commands := congrArg (List.filterMap QueueNode.cmd?) hs.queue
      refine ⟨by rw [hs.after], delayedIds_subset (hcommands ▸ List.Subset.refl _), ?_, ?_⟩
      · rw [hs.after]
        nofun
      · exact fun hnot => absurd rfl (hnot _ rfl)
    · exact hkeep (untouched_of_switched hs hij)
  | resume hs =>
    rename_i j
    by_cases hij : i = j
    · subst hij
      have hcommands : c'.commands = c.commands := congrArg (List.filterMap QueueNode.cmd?) hs.queue
      refine ⟨by rw [hs.after], delayedIds_subset (hcommands ▸ List.Subset.refl _), ?_, ?_⟩
      · rw [hs.after]
        nofun
      · exact fun hnot => absurd rfl (hnot _ rfl)
    · exact hkeep (untouched_of_switched hs hij)
  | update hq hsub => exact hkeep (untouched_of_quiet hq hsub)
  | quit hq hsub => exact hkeep (untouched_of_quiet hq hsub)
  | noStop heq =>
    subst heq
    exact ⟨rfl, List.Subset.refl _, h.busy, fun _ => rfl⟩
  | stop hh hid hsub =>
    have hne : i ≠ _ := fun heq => hno _ rfl heq.symm
    exact hkeep (untouched_of_halted hh hne hsub)
  | internal _ hq hsub => exact hkeep (untouched_of_quiet hq hsub)
  | streams hp htype hfree hh hsub =>
    rename_i j p node
    refine hkeep (untouched_of_halted hh ?_ hsub)
    rintro rfl
    exact h.burst ⟨p, node, hp, rfl, hfree, by rw [htype]; decide⟩
  | duration hmem hid hh hsub =>
    rename_i j cmd
    refine hkeep (untouched_of_halted hh ?_ hsub)
    rintro rfl
    exact h.delayed (mem_delayedIds.mpr ⟨cmd, hmem, rfl, hid (hcore cmd hmem)⟩)

/-- **A step that neither starts nor stops an endless port keeps it endless, with its nodes.** -/
theorem Endless.step (h : Endless i c) {localPortOffset : UInt8} (hcore : CoreOk localPortOffset c)
    (hcore' : CoreOk localPortOffset c') {a : Act} (hno : ∀ m, a = .msg m → ¬ TurnsPort i m)
    (hmsg : ∀ obj duration eventId, a = .msg (.start obj duration eventId) → ObjOk obj.portId obj)
    (hstep : c.step a = .ok c') : Carries i c c' ∧ Endless i c' := by
  obtain ⟨hid, hdelayed, hbusy, -⟩ := h.kept hcore.conditional hno hmsg hstep
  have hcarries : Carries i c c' := by
    refine (step_carries hcore.inv hstep ?_).resolve_right hbusy
    rintro obj duration eventId rfl heq
    exact hno _ rfl heq
  refine ⟨hcarries, hbusy, ?_, ?_⟩
  · rintro ⟨p, node', hp, hport, hfree, htype⟩
    obtain ⟨node, hnode, hat, hcarried⟩ := hcarries.back hcore.inv hcore'.inv hp ⟨hport, hfree⟩
    exact h.burst ⟨p, node, hnode, hat.1, hat.2, hcarried.type ▸ htype⟩
  · rw [hid]
    exact fun hmem => h.delayed (hdelayed hmem)

/-- The nodes of an endless port: continuous, active and in the queue. -/
theorem Endless.node (h : Endless i c) (hinv : c.Inv) (hawake : Awake i c) {p : Ptr}
    {node : CGenNodeStateless} (hp : c.heap p = some node) (hat : NodeAt i node) :
    node.streamType = .stCONTINUOUS ∧ node.state = .ssACTIVE ∧ .stateless p ∈ c.queue := by
  have hstate : node.state = .ssACTIVE := by
    rcases hawake with ⟨q, x, hq, hx, htype⟩ | hall
    · exact absurd ⟨q, x, hq, hx.1, hx.2, htype⟩ h.burst
    · exact hall p node hp hat
  refine ⟨?_, hstate, ?_⟩
  · by_contra htype
    exact h.burst ⟨p, node, hp, hat.1, hat.2, htype⟩
  · have hmem : p ∈ c.pool.queued :=
      hinv.pool.mem_queued.mpr (by rw [status_running hp hstate]; rfl)
    obtain ⟨qnode, hqnode, heq⟩ := mem_filterMap.mp hmem
    cases qnode with
    | stateless q =>
      cases heq
      exact hqnode
    | command time cmd => cases heq
    | flowSync time => cases heq
    | exitSched time => cases heq

/-- **The nodes of an endless port only move.** -/
structure Moves (i : UInt8) (c c' : TrexStatelessDpCore) : Prop where
  nodes : (c'.ports i).activeNodes = (c.ports i).activeNodes
  node : ∀ p node, c.heap p = some node → NodeAt i node → ∃ node', c'.heap p = some node' ∧
    Moved node node'

theorem moves_of_carries (h : Carries i c c') (hend : Endless i c) (hinv : c.Inv)
    (hawake : Awake i c) :
    Moves i c c' := by
  refine ⟨h.nodes, fun p node hp hat => ?_⟩
  obtain ⟨htype, hstate, -⟩ := hend.node hinv hawake hp hat
  obtain ⟨node', hp', hcarried⟩ := h.node p node hp hat
  exact ⟨node', hp', hcarried.continuous htype hstate⟩

/-! ## 3. Windows of a run -/

/-- A move in which a core takes a message. -/
def Takes (s : TrexSystem n) (k : Fin n.toNat) (m : CpToDpMsg) (move : Move n) : Prop :=
  move = .deliver k ∧ ∃ rest, s.toDp k = m :: rest

/-- **Moves in which a core takes none of some messages**, in any order with all other moves. -/
abbrev Window (ends : CpToDpMsg → Prop) (k : Fin n.toNat) : TrexSystem n → TrexSystem n → Prop :=
  Relation.ReflTransGen fun s s' => ∃ move, Step s move s' ∧ ∀ m, s.Takes k m move → ¬ ends m

/-- A move in which the core does not start or stop an endless port. -/
theorem Step.endless (hstep : Step s move s') (h : s.Ok) (hend : Endless i (s.cores k))
    (hno : ∀ m, s.Takes k m move → ¬ TurnsPort i m) :
    Carries i (s.cores k) (s'.cores k) ∧ Endless i (s'.cores k)
      ∧ ((∀ m, s.Takes k m move → ¬ SwitchesPort i m) →
        ((s'.cores k).ports i).state = ((s.cores k).ports i).state) := by
  have hcore' := (hstep.ok h).core k
  cases hstep with
  | request => exact ⟨.refl i _, hend, fun _ => rfl⟩
  | quit => exact ⟨.refl i _, hend, fun _ => rfl⟩
  | deliver hring hen hc =>
    rename_i j m rest c
    by_cases hk : k = j
    · subst hk
      simp only [delivered, update_self] at hcore' ⊢
      have hturns : ∀ m', Act.msg m = .msg m' → ¬ TurnsPort i m' := by
        rintro m' ⟨⟩
        exact hno m ⟨rfl, rest, hring⟩
      have hmsg : ∀ obj duration eventId, Act.msg m = .msg (.start obj duration eventId) →
          ObjOk obj.portId obj := by
        rintro obj duration eventId ⟨⟩
        have hm : MsgOk s.localPortOffset (.start obj duration eventId) :=
          h.message k _ (hring ▸ mem_cons_self)
        exact hm.1
      obtain ⟨hcarries, hend'⟩ := hend.step (h.core k) hcore' hturns hmsg hc
      refine ⟨hcarries, hend', fun hswitch => ?_⟩
      refine (hend.kept (h.core k).conditional hturns hmsg hc).2.2.2 ?_
      rintro m' ⟨⟩
      exact hswitch m ⟨rfl, rest, hring⟩
    · simp only [delivered, update_of_ne hk]
      exact ⟨.refl i _, hend, fun _ => trivial⟩
  | core ha hen hc =>
    rename_i j a c
    by_cases hk : k = j
    · subst hk
      simp only [update_self] at hcore' ⊢
      have hturns : ∀ m', a = .msg m' → ¬ TurnsPort i m' := by
        rintro m' rfl
        exact ha.elim
      have hmsg : ∀ obj duration eventId, a = .msg (.start obj duration eventId) →
          ObjOk obj.portId obj := by
        rintro obj duration eventId rfl
        exact ha.elim
      obtain ⟨hcarries, hend'⟩ := hend.step (h.core k) hcore' hturns hmsg hc
      refine ⟨hcarries, hend', fun _ => ?_⟩
      refine (hend.kept (h.core k).conditional hturns hmsg hc).2.2.2 ?_
      rintro m' rfl
      exact ha.elim
    · simp only [update_of_ne hk]
      exact ⟨.refl i _, hend, fun _ => trivial⟩
  | event hring =>
    rename_i j ev rest
    by_cases hk : k = j
    · subst hk
      simp only [handleEvent, update_self]
      exact ⟨.of_eq rfl rfl, ⟨hend.busy, hend.burst, hend.delayed⟩, fun _ => trivial⟩
    · simp only [handleEvent, update_of_ne hk]
      exact ⟨.refl i _, hend, fun _ => trivial⟩

/-- The first message finds its port ready. -/
theorem Takes.ready {m : CpToDpMsg} (h : s.Ok) (htakes : s.Takes k m move) :
    Ready (s.cores k) m := by
  obtain ⟨-, rest, hring⟩ := htakes
  exact h.ready hring

/-- **In a window without stops an endless port stays as it is.**  `st` is a state in which the port
is not ready for the pauses and the resumes that the window allows. -/
theorem Window.kept {ends : CpToDpMsg → Prop} {st : PortState} (hw : Window ends k s s')
    (hstop : ∀ cmd, cmd.portId = i → ends (.stop cmd))
    (hswitch : ∀ c m, SwitchesPort i m → ¬ ends m → Ready c m → (c.ports i).state ≠ st)
    (h : s.Reachable) (hend : Endless i (s.cores k)) (hst : ((s.cores k).ports i).state = st) :
    s'.Reachable ∧ Endless i (s'.cores k) ∧ Carries i (s.cores k) (s'.cores k)
      ∧ ((s'.cores k).ports i).state = st := by
  induction hw with
  | refl => exact ⟨h, hend, .refl i _, hst⟩
  | @tail s1 s2 _ hstep ih =>
    obtain ⟨hreach, hend1, hcarries, hst1⟩ := ih
    obtain ⟨move, hstep, hends⟩ := hstep
    have hturns : ∀ m, s1.Takes k m move → ¬ TurnsPort i m := by
      intro m htakes hturn
      cases m with
      | start obj duration eventId =>
        -- a start finds its port idle
        have hidle : ((s1.cores k).ports obj.portId).state = .ppSTATE_IDLE :=
          (htakes.ready hreach.ok : Ready (s1.cores k) (.start obj duration eventId)).1
        have hport : obj.portId = i := hturn
        rw [hport] at hidle
        exact hend1.busy hidle
      | stop cmd => exact hends _ htakes (hstop cmd hturn)
      | pause j => exact hturn
      | resume j => exact hturn
      | update j factor => exact hturn
      | quit => exact hturn
    obtain ⟨hcarries', hend2, hstate⟩ := hstep.endless hreach.ok hend1 hturns
    refine ⟨.step hreach trivial hstep, hend2, hcarries.trans hcarries', ?_⟩
    refine (hstate fun m htakes hm => ?_).trans hst1
    exact hswitch _ m hm (hends m htakes) (htakes.ready hreach.ok) hst1

/-! ## 4. Pauses -/

/-- The messages that end a pause. -/
def EndsPause (i : UInt8) : CpToDpMsg → Prop
  | .resume j => j = i
  | .stop cmd => cmd.portId = i
  | _ => False

/-- The messages that end what a resume starts. -/
def EndsRun (i : UInt8) : CpToDpMsg → Prop
  | .pause j => j = i
  | .stop cmd => cmd.portId = i
  | _ => False

/-- **The nodes of a port on a core, all continuous**: active, in the queue, and with the pause flag
as it is given. -/
def NodesFlagged (i : UInt8) (pause : Bool) (c : TrexStatelessDpCore) : Prop :=
  ∀ p node, c.heap p = some node → NodeAt i node → node.streamType = .stCONTINUOUS
    ∧ node.state = .ssACTIVE ∧ .stateless p ∈ c.queue ∧ node.pause = pause

theorem Endless.flagged (h : Endless i c) (hinv : c.Inv) (hawake : Awake i c) {pause : Bool}
    (hmode : ∀ b, modeOk (c.ports i).state b → b = pause) : NodesFlagged i pause c := by
  intro p node hp hat
  obtain ⟨htype, hstate, hqueue⟩ := h.node hinv hawake hp hat
  obtain ⟨rfl, hfree⟩ := hat
  exact ⟨htype, hstate, hqueue, hmode _ (hinv.mode p node hp hfree)⟩

/-- A port that is paused on a core. -/
theorem endless_of_paused (h : s.Ok) (hpause : ((s.cores k).ports i).state = .ppSTATE_PAUSE) :
    Endless i (s.cores k) := by
  have hworker : (s.channel i k).worker = .paused := congrArg activity hpause
  have hbusy : ((s.cores k).ports i).state ≠ .ppSTATE_IDLE := by
    rw [hpause]
    decide
  obtain ⟨m, -, hfits⟩ := (h.channel i k).path
  cases m with
  | off => exact absurd (hworker.symm.trans hfits) (by decide)
  | on endless =>
    cases endless with
    | true => exact absurd (hworker.symm.trans hfits.1) (by decide)
    | false => exact absurd hworker hfits
  | paused => exact ⟨hbusy, hfits.2.1, hfits.2.2⟩

/-- The node that sends a packet in a move, on one of the cores. -/
def sender? (s : TrexSystem n) (k : Fin n.toNat) : Move n → Option CGenNodeStateless
  | .core j a => if j = k then (s.cores k).sender? a else none
  | _ => none

/-- **No move makes a core send a packet of a port.** -/
def Silent (i : UInt8) (k : Fin n.toNat) (s : TrexSystem n) : Prop :=
  ∀ move node, s.sender? k move = some node → node.portId ≠ i

/-- A port whose nodes are all paused is silent. -/
theorem silent_of_flagged (h : NodesFlagged i true (s.cores k)) : s.Silent i k := by
  intro move node hsends hport
  cases move with
  | core j a =>
    unfold sender? at hsends
    simp only at hsends
    split at hsends
    · obtain ⟨_, p, -, -, hp, hfree, hsends⟩ := sender?_eq_some hsends
      obtain ⟨htype, -, -, hpause⟩ := h p node hp ⟨hport, hfree⟩
      rw [CGenNodeStateless.sends, htype, hpause] at hsends
      cases hsends
    · cases hsends
  | request portId request => cases hsends
  | quit => cases hsends
  | deliver j => cases hsends
  | event j => cases hsends

/-- **A node that is not paused sends a packet whenever it is taken**, and is scheduled again. -/
theorem sends_of_flagged (h : NodesFlagged i false c) {p : Ptr} {node : CGenNodeStateless} {j : Nat}
    (hp : c.heap p = some node) (hat : NodeAt i node) (hj : c.queue[j]? = some (.stateless p)) :
    c.sender? (.pop j) = some node ∧ ∃ c', c.step (.pop j) = .ok c' ∧ .stateless p ∈ c'.queue := by
  obtain ⟨htype, -, -, hpause⟩ := h p node hp hat
  constructor
  · have hsends : node.sends = true := by rw [CGenNodeStateless.sends, htype, hpause]; rfl
    simp only [TrexStatelessDpCore.sender?, hj, hp]
    exact Option.filter_eq_some_iff.mpr
      ⟨rfl, by rw [hsends, Bool.and_true]; exact decide_eq_true hat.2⟩
  · let c0 : TrexStatelessDpCore := { c with queue := c.queue.eraseIdx j }
    have hp0 : c0.heap p = some node := hp
    refine ⟨(c0.setNode p node.handleContinues).push (.stateless p), ?_, mem_cons_self⟩
    simp only [TrexStatelessDpCore.step, hj]
    change popStateless p c0 = _
    rw [popStateless, getNode_eq hp0]
    simp only [bind, Except.bind, if_neg hat.2, handleNode, htype]

/-- What a core does with the first message. -/
theorem step_of_deliver {m : CpToDpMsg} {rest : List CpToDpMsg} (hstep : Step s (.deliver k) s')
    (hring : s.toDp k = m :: rest) : (s.cores k).step (.msg m) = .ok (s'.cores k) := by
  cases hstep with
  | deliver hring' _ hc =>
    rw [hring] at hring'
    cases hring'
    simp only [delivered, update_self]
    exact hc

/-- A pause or a resume keeps an endless port and its nodes. -/
theorem endless_of_switch {m : CpToDpMsg} {rest : List CpToDpMsg} (hstep : Step s (.deliver k) s')
    (hring : s.toDp k = m :: rest) (hm : ¬ TurnsPort i m) (h : s.Ok)
    (hend : Endless i (s.cores k)) :
    Carries i (s.cores k) (s'.cores k) ∧ Endless i (s'.cores k) := by
  obtain ⟨hcarries, hend', -⟩ := hstep.endless h hend (i := i) (fun m' htakes => by
    obtain ⟨-, rest', hring'⟩ := htakes
    rw [hring] at hring'
    cases hring'
    exact hm)
  exact ⟨hcarries, hend'⟩

/-- **A pause is silent and loses nothing.**  In every state that is reached:

* all nodes of a port that is paused on a core are continuous, active, in the queue and paused, and
  the core sends no packet of the port;
* from a pause that the core takes until it takes a resume or a stop of the port, whatever else
  happens, this stays so, and every node of the port is the one it was before the pause, but for its
  time, its gap and its pause flag;
* from a resume on, until the next pause or stop, the core still has all these nodes, active, in the
  queue and not paused, and each of them sends a packet whenever it is taken and is scheduled
  again. -/
theorem pause_silent_lossless (n : UInt8) (s : TrexSystem n) (h : s.Reachable) (i : UInt8)
    (k : Fin n.toNat) :
    (((s.cores k).ports i).state = .ppSTATE_PAUSE → NodesFlagged i true (s.cores k) ∧ s.Silent i k)
      ∧ ∀ rest s1 s2, s.toDp k = .pause i :: rest → Step s (.deliver k) s1 →
        Window (EndsPause i) k s1 s2 →
        ((s2.cores k).ports i).state = .ppSTATE_PAUSE ∧ NodesFlagged i true (s2.cores k) ∧
          s2.Silent i k ∧ Moves i (s.cores k) (s2.cores k)
          ∧ ∀ rest' s3 s4, s2.toDp k = .resume i :: rest' → Step s2 (.deliver k) s3 →
            Window (EndsRun i) k s3 s4 →
            ((s4.cores k).ports i).state = .ppSTATE_TRANSMITTING ∧ NodesFlagged i false (s4.cores k)
              ∧ Moves i (s.cores k) (s4.cores k)
              ∧ ∀ p node j, (s4.cores k).heap p = some node → NodeAt i node →
                (s4.cores k).queue[j]? = some (.stateless p) →
                (s4.cores k).sender? (.pop j) = some node
                  ∧ ∃ c, (s4.cores k).step (.pop j) = .ok c ∧ .stateless p ∈ c.queue := by
  have hflagged : ∀ {s : TrexSystem n}, s.Reachable → ((s.cores k).ports i).state = .ppSTATE_PAUSE →
      NodesFlagged i true (s.cores k) := by
    intro s hreach hpause
    refine (endless_of_paused hreach.ok hpause).flagged (hreach.ok.core k).inv
      (hreach.awakeOk.awake i k) ?_
    rw [hpause]
    exact fun b hb => hb
  refine ⟨fun hpause => ⟨hflagged h hpause, silent_of_flagged (hflagged h hpause)⟩, ?_⟩
  intro rest s1 s2 hring hstep hw
  -- a pause finds its port endless, and leaves it paused
  have hbefore : Endless i (s.cores k) := by
    obtain ⟨hworker, hendless, -⟩ := (h.ok.channel i k).running_of_pause
      (ring_of_toDp hring (if_pos (rfl : i = i)))
    refine ⟨fun hidle => ?_, hendless.1, hendless.2⟩
    exact absurd (hworker.symm.trans (congrArg activity hidle)) (by decide)
  have hkeeps : ∀ {c : TrexStatelessDpCore}, Carries i (s.cores k) c → Moves i (s.cores k) c :=
    fun hc => moves_of_carries hc hbefore (h.ok.core k).inv (h.awakeOk.awake i k)
  obtain ⟨hcarries1, hend1⟩ := endless_of_switch hstep hring id h.ok hbefore
  have hpause1 : ((s1.cores k).ports i).state = .ppSTATE_PAUSE := by
    rw [(pauseTraffic_effect (step_of_deliver hstep hring)).after]
  have hswitch : ∀ c m, SwitchesPort i m → ¬ EndsPause i m → Ready c m →
      (c.ports i).state ≠ .ppSTATE_PAUSE := by
    intro c m hm hends hready
    cases m with
    | pause j =>
      obtain rfl : j = i := hm
      rw [hready.1]
      decide
    | resume j => exact absurd hm hends
    | start obj duration eventId => exact hm.elim
    | stop cmd => exact hm.elim
    | update j factor => exact hm.elim
    | quit => exact hm.elim
  obtain ⟨hreach2, hend2, hcarries2, hpause2⟩ := hw.kept (fun _ hcmd => hcmd) hswitch
    (.step h trivial hstep) hend1 hpause1
  have hmoves2 := hcarries1.trans hcarries2
  refine ⟨hpause2, hflagged hreach2 hpause2, silent_of_flagged (hflagged hreach2 hpause2),
    hkeeps hmoves2, ?_⟩
  intro rest' s3 s4 hring' hstep' hw'
  -- a resume lets the same nodes run again
  obtain ⟨hcarries3, hend3⟩ := endless_of_switch hstep' hring' id hreach2.ok hend2
  have hrun3 : ((s3.cores k).ports i).state = .ppSTATE_TRANSMITTING := by
    rw [(resumeTraffic_effect (step_of_deliver hstep' hring')).after]
  have hswitch' : ∀ c m, SwitchesPort i m → ¬ EndsRun i m → Ready c m →
      (c.ports i).state ≠ .ppSTATE_TRANSMITTING := by
    intro c m hm hends hready
    cases m with
    | resume j =>
      obtain rfl : j = i := hm
      rw [hready.1]
      decide
    | pause j => exact absurd hm hends
    | start obj duration eventId => exact hm.elim
    | stop cmd => exact hm.elim
    | update j factor => exact hm.elim
    | quit => exact hm.elim
  obtain ⟨hreach4, hend4, hcarries4, hrun4⟩ := hw'.kept (fun _ hcmd => hcmd) hswitch'
    (.step hreach2 trivial hstep') hend3 hrun3
  have hflagged4 : NodesFlagged i false (s4.cores k) := by
    refine hend4.flagged (hreach4.ok.core k).inv (hreach4.awakeOk.awake i k) ?_
    rw [hrun4]
    exact fun b hb => hb
  refine ⟨hrun4, hflagged4, hkeeps (hmoves2.trans (hcarries3.trans hcarries4)), ?_⟩
  exact fun p node j hp hat hj => sends_of_flagged hflagged4 hp hat hj

/-- The core has taken the start of a continuous stream, and the pause of its port is on its way to
it: once it has taken the pause, it sends no packet of the port. -/
theorem pause_silent_lossless_pause : ∃ s s1, freshSystem.run (fun _ _ => True) pauseMoves = some s
    ∧ Step s (.deliver onlyCore) s1 ∧ ((s1.cores onlyCore).ports 0).activeNodes ≠ []
    ∧ s1.Silent 0 onlyCore := by
  have hrun : ((freshSystem.run (fun _ _ => True) pauseMoves).bind fun s =>
      (s.exec (.deliver onlyCore)).map fun s1 =>
        (s.toDp onlyCore, ((s1.cores onlyCore).ports 0).activeNodes.length))
      = some ([.pause 0], 1) := by decide +kernel
  obtain ⟨s, hs, heq⟩ := Option.bind_eq_some_iff.mp hrun
  obtain ⟨s1, hexec, heq⟩ := Option.map_eq_some_iff.mp heq
  simp only [Prod.mk.injEq] at heq
  obtain ⟨hring, hnodes⟩ := heq
  have hreach : s.Reachable := (ReachableBy.init freshSystem_initial).run hs
  have hstep := step_of_exec hexec
  refine ⟨s, s1, hs, hstep, fun hnil => ?_, ?_⟩
  · rw [hnil] at hnodes
    cases hnodes
  · exact ((pause_silent_lossless 1 s hreach 0 onlyCore).2 [] s1 s1 hring hstep .refl).2.2.1

end TrexSystem

end Trex.Proto
