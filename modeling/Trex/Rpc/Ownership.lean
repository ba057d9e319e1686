/-
# Ownership of the ports

Whoever acquires a port gets a handler, and the commands that change the port want it back.  Over
any requests of any clients, a port changes only by requests that carry the handler of its last
acquire that was not released or taken by another acquire since (`ownership_enforced`).
-/
import Trex.Cp.Invariant
import Trex.Rpc.Command

namespace Trex.Rpc

open Trex.Lib Trex.Stream Trex.Cp

namespace TrexStateless

variable {cores : UInt8 → UInt8} {α : Type} {s s' : TrexStateless cores}

/-! ## 1. What a command can change -/

/-- The port that a request is addressed to. -/
def addressed (params : Json) : Option UInt8 := (parseByte params "port_id").toOption

/-- The state, the streams, the factor, the events and the messages of a port are as they were. -/
def SameTraffic {n : UInt8} (port port' : ControlPort n) : Prop :=
  port'.toTrexStatelessPort = port.toTrexStatelessPort ∧ port'.toDp = port.toDp

/-- What a command may do to the port it is addressed to. -/
structure Allowed {n : UInt8} (method : Method) (port port' : ControlPort n) : Prop where
  traffic : method.needsOwnership = false → SameTraffic port port'
  owner : method ≠ .acquire → method ≠ .release → port'.owner = port.owner

/-- Nothing is changed, or the port that the request is addressed to. -/
def Affects (method : Method) (params : Json) (s s' : TrexStateless cores) : Prop :=
  s' = s ∨ ∃ portId port, addressed params = some portId ∧ s' = s.setPort portId port
    ∧ Allowed method (s.ports portId) port

/-- A program that only looks. -/
abbrev Looks (x : RpcProg cores α) : Prop := Always (fun s s' => s' = s) x

theorem Affects.refl (method : Method) (params : Json) (s : TrexStateless cores) :
    Affects method params s s := Or.inl rfl

theorem looks_fromExcept (y : Except RpcErr α) : Looks (fromExcept y : RpcProg cores α) :=
  always_fromExcept (R := fun s s' => s' = s) (fun _ => rfl) y

theorem looks_throwIf (c : Prop) [Decidable c] (e : RpcErr) :
    Looks (throwIf c e : RpcProg cores Unit) :=
  always_throwIf (R := fun s s' => s' = s) (fun _ => rfl) c e

theorem looks_pure (a : α) : Looks (pure a : RpcProg cores α) := fun _ => rfl

variable {x : RpcProg cores α} {params : Json} {portId n : UInt8} {method : Method}

theorem looks_bind {β : Type} {f : α → RpcProg cores β} (hx : Looks x) (hf : ∀ a, Looks (f a)) :
    Looks (x >>= f) :=
  Always.bind (fun h h' => h'.trans h) hx hf

theorem looks_get : Looks (get : RpcProg cores (TrexStateless cores)) := fun _ => rfl

theorem parsePort_looks (params : Json) : Looks (parsePort params : RpcProg cores UInt8) := by
  refine looks_bind (looks_fromExcept _) fun portId => looks_bind looks_get fun s => ?_
  exact looks_bind (looks_throwIf _ _) fun _ => looks_pure _

theorem getPortById_looks (portId : UInt8) :
    Looks (getPortById portId : RpcProg cores (ControlPort (cores portId))) :=
  looks_bind looks_get fun _ => looks_bind (looks_throwIf _ _) fun _ => looks_pure _

theorem parsePort_eq_ok (h : (parsePort params : RpcProg cores UInt8) s = .ok portId s') :
    addressed params = some portId ∧ s' = s := by
  refine ⟨?_, (parsePort_looks params).ok h⟩
  obtain ⟨portId1, s1, hfield, h1⟩ := bind_eq_okState h
  obtain ⟨hparse, rfl⟩ := fromExcept_eq_ok hfield
  obtain ⟨_, _, hget, h2⟩ := bind_eq_okState h1
  cases hget
  obtain ⟨_, _, hvalid, h3⟩ := bind_eq_okState h2
  obtain ⟨-, rfl⟩ := throwIf_eq_ok hvalid
  cases h3
  rw [addressed, hparse]
  rfl

theorem getPortById_eq_ok {port : ControlPort (cores portId)}
    (h : getPortById portId s = .ok port s') : port = s.ports portId ∧ s' = s := by
  obtain ⟨_, _, hget, h1⟩ := bind_eq_okState h
  cases hget
  obtain ⟨_, _, hvalid, h2⟩ := bind_eq_okState h1
  obtain ⟨-, rfl⟩ := throwIf_eq_ok hvalid
  cases h2
  exact ⟨rfl, rfl⟩

/-- An operation on the port that the request is addressed to. -/
theorem onPort_affects {caught : Throw → RpcErr} {op : PortProg (cores portId) α}
    (haddr : addressed params = some portId)
    (hop : ∀ port, Allowed method port (stateOf (op port))) :
    Always (Affects method params) (onPort portId caught op : RpcProg cores α) := by
  intro s
  have hport := hop (s.ports portId)
  unfold onPort
  cases hres : op (s.ports portId) with
  | ok a port =>
    rw [hres] at hport
    exact Or.inr ⟨portId, port, haddr, rfl, hport⟩
  | error e port =>
    rw [hres] at hport
    exact Or.inr ⟨portId, port, haddr, rfl, hport⟩

/-- A command that parses its port first. -/
theorem affects_parsePort {f : UInt8 → RpcProg cores α}
    (hf : ∀ portId, addressed params = some portId → Always (Affects method params) (f portId)) :
    Always (Affects method params) (parsePort params >>= f) := by
  refine Always.after (Affects.refl method params) (parsePort_looks params) fun portId s h => ?_
  exact hf portId (parsePort_eq_ok h).1 s

/-- A command that only looks, and then the rest. -/
theorem affects_looks {β : Type} {f : α → RpcProg cores β} (hx : Looks x)
    (hf : ∀ a, Always (Affects method params) (f a)) :
    Always (Affects method params) (x >>= f) :=
  Always.after (Affects.refl method params) hx fun a s _ => hf a s

/-- A program that only looks affects nothing. -/
theorem Looks.affects (hx : Looks x) (method : Method) (params : Json) :
    Always (Affects method params) x := hx.mono fun _ _ h => Or.inl h

/-- What a command that needs ownership may do. -/
theorem allowed_perform (op : ControlPort.Op n) (hneeds : method.needsOwnership = true)
    (hacquire : ∀ user force handler, op ≠ .acquire user force handler) (hrelease : op ≠ .release)
    (port : ControlPort n) :
    Allowed method port (stateOf (ControlPort.perform op port)) := by
  constructor
  · intro hfalse
    rw [hneeds] at hfalse
    cases hfalse
  · exact fun _ _ => ControlPort.perform_owner op hacquire hrelease port

/-- A command of one operation. -/
theorem runSimple_affects (params : Json) {op : ∀ {n}, PortProg n Unit}
    (hop : ∀ {n : UInt8} (port : ControlPort n), Allowed method port (stateOf (op port))) :
    Always (Affects method params) (runSimple op params : RpcProg cores Result) := by
  refine affects_parsePort fun portId haddr => ?_
  exact (onPort_affects haddr hop).before fun _ => looks_pure _

theorem runRead_looks (params : Json) : Looks (runRead params : RpcProg cores Result) :=
  looks_bind (parsePort_looks params) fun _ =>
    looks_bind (getPortById_looks _) fun _ => looks_pure _

theorem acquire_sameTraffic (user handler : String) (force : Bool) (port : ControlPort n) :
    SameTraffic port (stateOf (ControlPort.acquire user force handler port)) := by
  have hrefl : ∀ port : ControlPort n, SameTraffic port port := fun _ => ⟨rfl, rfl⟩
  have halways : Always SameTraffic (ControlPort.acquire user force handler : PortProg n Unit) := by
    refine Always.bind (fun h h' => ⟨h'.1.trans h.1, h'.2.trans h.2⟩) (always_get hrefl) fun port =>
      ?_
    split
    · exact always_modify hrefl
    · split
      · exact always_throw hrefl _
      · exact always_throw hrefl _
  exact halways port

/-- **A command changes at most the port it is addressed to**, and one that needs no ownership
leaves the traffic of it alone. -/
theorem runBody_affects (oracle : Oracle) (params : Json) (method : Method) :
    Always (Affects method params) (runBody oracle params method : RpcProg cores Result) := by
  cases method with
  | testAdd =>
    refine Looks.affects ?_ _ _
    exact looks_bind (looks_fromExcept _) fun _ => looks_bind (looks_fromExcept _) fun _ =>
      looks_pure _
  | testSub =>
    refine Looks.affects ?_ _ _
    exact looks_bind (looks_fromExcept _) fun _ => looks_bind (looks_fromExcept _) fun _ =>
      looks_pure _
  | ping => exact (looks_pure _).affects _ _
  | getSupportedCmds => exact (looks_pure _).affects _ _
  | getVersion => exact (looks_pure _).affects _ _
  | getSystemInfo => exact (looks_pure _).affects _ _
  | getOwner => exact (runRead_looks params).affects _ _
  | getPortStats => exact (runRead_looks params).affects _ _
  | getPortStatus => exact (runRead_looks params).affects _ _
  | getStreamList => exact (runRead_looks params).affects _ _
  | getAllStreams =>
    refine Looks.affects ?_ _ _
    exact looks_bind (parsePort_looks params) fun _ => looks_bind (getPortById_looks _) fun _ =>
      looks_bind (looks_fromExcept _) fun _ => looks_pure _
  | getStream =>
    refine Looks.affects ?_ _ _
    exact looks_bind (parsePort_looks params) fun _ => looks_bind (getPortById_looks _) fun _ =>
      looks_bind (looks_fromExcept _) fun _ => looks_bind (looks_fromExcept _) fun _ =>
        looks_bind (looks_throwIf _ _) fun _ => looks_pure _
  | acquire =>
    refine affects_parsePort fun portId haddr => ?_
    refine affects_looks (looks_fromExcept _) fun user => ?_
    refine affects_looks (looks_fromExcept _) fun force => ?_
    refine affects_looks (looks_fromExcept _) fun _ => ?_
    refine Always.before (onPort_affects haddr fun port => ?_) fun _ =>
      looks_bind looks_get fun _ => looks_pure _
    exact ⟨fun _ => acquire_sameTraffic _ _ _ port, fun hne => absurd rfl hne⟩
  | release =>
    refine runSimple_affects params fun port => ?_
    exact ⟨nofun, fun _ hne => absurd rfl hne⟩
  | removeAllStreams =>
    exact runSimple_affects params (allowed_perform .removeAllStreams rfl nofun nofun)
  | removeStream =>
    refine affects_parsePort fun portId haddr => ?_
    refine affects_looks (getPortById_looks _) fun port => ?_
    refine affects_looks (looks_fromExcept _) fun streamId => ?_
    refine affects_looks (looks_throwIf _ _) fun _ => ?_
    refine Always.before (onPort_affects haddr ?_) fun _ => looks_pure _
    exact allowed_perform (.removeStream streamId.toUInt32) rfl nofun nofun
  | addStream =>
    refine affects_parsePort fun portId haddr => ?_
    refine affects_looks (looks_fromExcept _) fun streamId => ?_
    refine affects_looks (looks_fromExcept _) fun streamSection => ?_
    refine affects_looks (looks_fromExcept _) fun parsed => ?_
    refine affects_looks (getPortById_looks _) fun port => ?_
    refine affects_looks (looks_bind (looks_throwIf _ _) fun _ => looks_throwIf _ _) fun _ => ?_
    refine Always.before (onPort_affects haddr ?_) fun _ => looks_pure _
    exact allowed_perform (.addStream _) rfl nofun nofun
  | startTraffic =>
    refine affects_parsePort fun portId haddr => ?_
    refine affects_looks (looks_fromExcept _) fun duration => ?_
    refine affects_looks (looks_fromExcept _) fun mulObj => ?_
    refine affects_looks (looks_fromExcept _) fun type => ?_
    refine affects_looks (looks_fromExcept _) fun op => ?_
    refine affects_looks (looks_fromExcept _) fun value => ?_
    refine affects_looks (looks_throwIf _ _) fun _ => ?_
    refine Always.before (onPort_affects haddr ?_) fun _ => looks_pure _
    exact allowed_perform (.start _ _ _ _) rfl nofun nofun
  | stopTraffic => exact runSimple_affects params (allowed_perform .stop rfl nofun nofun)
  | pauseTraffic => exact runSimple_affects params (allowed_perform .pause rfl nofun nofun)
  | resumeTraffic => exact runSimple_affects params (allowed_perform .resume rfl nofun nofun)
  | updateTraffic =>
    refine affects_parsePort fun portId haddr => ?_
    refine affects_looks (looks_fromExcept _) fun mulObj => ?_
    refine affects_looks (looks_fromExcept _) fun type => ?_
    refine affects_looks (looks_fromExcept _) fun op => ?_
    refine affects_looks (looks_fromExcept _) fun value => ?_
    refine Always.before (onPort_affects haddr ?_) fun _ => looks_pure _
    exact allowed_perform (.update _ _) rfl nofun nofun
  | validate =>
    refine affects_parsePort fun portId haddr => ?_
    refine Always.before (onPort_affects haddr fun port => ?_) fun _ => looks_pure _
    have hregraphed := ControlPort.validate_always oracle.streams oracle.rand port
    exact ⟨fun _ => ⟨hregraphed.base, hregraphed.toDp⟩, fun _ _ => hregraphed.owner⟩

theorem verifyOwnership_looks (params : Json) :
    Looks (verifyOwnership params : RpcProg cores Unit) := by
  refine looks_bind (looks_fromExcept _) fun handler => looks_bind (parsePort_looks params) fun _ =>
    ?_
  exact looks_bind (getPortById_looks _) fun _ => looks_bind (looks_throwIf _ _) fun _ =>
    looks_throwIf _ _

/-- **Ownership is verified against the port that the request is addressed to.** -/
theorem verifyOwnership_eq_ok {u : Unit} (h : verifyOwnership params s = .ok u s') :
    ∃ handler portId, parseString params "handler" = .ok handler ∧ addressed params = some portId
      ∧ (s.ports portId).owner.verify handler = true := by
  obtain ⟨handler, _, hfield, h1⟩ := bind_eq_okState h
  obtain ⟨hhandler, rfl⟩ := fromExcept_eq_ok hfield
  obtain ⟨portId, _, hport, h2⟩ := bind_eq_okState h1
  obtain ⟨haddr, rfl⟩ := parsePort_eq_ok hport
  obtain ⟨port, _, hget, h3⟩ := bind_eq_okState h2
  obtain ⟨hfound, rfl⟩ := getPortById_eq_ok hget
  obtain ⟨_, _, hfree, h4⟩ := bind_eq_okState h3
  obtain ⟨-, rfl⟩ := throwIf_eq_ok hfree
  obtain ⟨hverify, rfl⟩ := throwIf_eq_ok h4
  refine ⟨handler, portId, hhandler, haddr, ?_⟩
  rw [hfound] at hverify
  exact not_not.mp hverify

/-- A request that has the wrong number of parameters, or whose sender does not own the port. -/
def Refused (method : Method) (params : Json) (s : TrexStateless cores) : Prop :=
  params.size ≠ method.paramCount
    ∨ (method.needsOwnership = true ∧ ∀ u s', verifyOwnership params s ≠ .ok u s')

/-- **A request that is refused changes nothing**, and it fails. -/
theorem run_refused (h : Refused method params s) (oracle : Oracle) :
    ∃ e, run oracle method params s = .error e s := by
  cases hcount : (checkParamCount method params : RpcProg cores Unit) s with
  | error e s1 =>
    obtain rfl := (looks_throwIf _ _).onThrow (p := fun _ => True) s e s1 hcount trivial
    exact ⟨e, bind_of_error hcount⟩
  | ok u s1 =>
    obtain ⟨hsize, rfl⟩ := throwIf_eq_ok hcount
    obtain ⟨hneeds, hfail⟩ := h.resolve_left hsize
    cases hown : (verifyOwnership params : RpcProg cores Unit) s1 with
    | ok u' s2 => exact absurd hown (hfail u' s2)
    | error e s2 =>
      obtain rfl := (verifyOwnership_looks params).onThrow (p := fun _ => True) s1 e s2 hown trivial
      have hdo : (doIf method.needsOwnership (verifyOwnership params) : RpcProg cores Unit) s2
          = .error e s2 := by
        rw [doIf, if_pos hneeds]
        exact hown
      exact ⟨e, (bind_of_ok hcount).trans (bind_of_error hdo)⟩

/-- **A request that is not refused is the body of its command**, and its sender owns the port if it
has to. -/
theorem run_accepted (h : ¬ Refused method params s) (oracle : Oracle) :
    run oracle method params s = runBody oracle params method s
      ∧ (method.needsOwnership = true → ∃ handler portId, parseString params "handler" = .ok handler
        ∧ addressed params = some portId ∧ (s.ports portId).owner.verify handler = true) := by
  obtain ⟨hsize, hown⟩ := not_or.mp h
  have hcount : (checkParamCount method params : RpcProg cores Unit) s = .ok () s := by
    rw [checkParamCount, throwIf, if_neg hsize]
    rfl
  cases hneeds : method.needsOwnership with
  | false =>
    refine ⟨(bind_of_ok hcount).trans (bind_of_ok (a := ()) ?_), fun hcase => by cases hcase⟩
    rw [doIf, if_neg (by simp [hneeds])]
    rfl
  | true =>
    obtain ⟨u, s', hok⟩ : ∃ u s', verifyOwnership params s = .ok u s' := by
      by_contra hnone
      exact hown ⟨hneeds, fun u s' hok => hnone ⟨u, s', hok⟩⟩
    obtain rfl := (verifyOwnership_looks params).ok hok
    refine ⟨(bind_of_ok hcount).trans (bind_of_ok (a := u) ?_), fun _ => verifyOwnership_eq_ok hok⟩
    rw [doIf, if_pos hneeds]
    exact hok

theorem run_affects (oracle : Oracle) (method : Method) (params : Json) :
    Always (Affects method params) (run oracle method params : RpcProg cores Result) := by
  intro s
  by_cases h : Refused method params s
  · obtain ⟨e, he⟩ := run_refused h oracle
    rw [he]
    exact Affects.refl method params s
  · rw [(run_accepted h oracle).1]
    exact runBody_affects oracle params method s

/-! ## 2. Acquire and release -/

/-- What `acquire` returns is the handler of the port now. -/
theorem runAcquire_eq_ok {oracle : Oracle} {r : Result}
    (h : runAcquire oracle params s = .ok r s') : ∃ portId user, addressed params = some portId
      ∧ r = .handler oracle.handler ∧ (s'.ports portId).owner = .own user oracle.handler := by
  obtain ⟨portId, _, hport, h1⟩ := bind_eq_okState h
  obtain ⟨haddr, rfl⟩ := parsePort_eq_ok hport
  obtain ⟨user, _, huser, h2⟩ := bind_eq_okState h1
  obtain ⟨-, rfl⟩ := fromExcept_eq_ok huser
  obtain ⟨force, _, hforce, h3⟩ := bind_eq_okState h2
  obtain ⟨-, rfl⟩ := fromExcept_eq_ok hforce
  obtain ⟨session, s1, hsession, h4⟩ := bind_eq_okState h3
  obtain ⟨-, rfl⟩ := fromExcept_eq_ok hsession
  obtain ⟨_, s2, hacquire, h5⟩ := bind_eq_okState h4
  cases h5
  unfold onPort at hacquire
  cases hop : ControlPort.acquire user force oracle.handler (s1.ports portId) with
  | error e port =>
    rw [hop] at hacquire
    cases hacquire
  | ok u port =>
    rw [hop] at hacquire
    cases hacquire
    have hperformed := (ControlPort.acquire_performed hop).1
    cases hperformed with
    | request _ hreq => cases hreq
    | acquire _ _ _ howner =>
      refine ⟨portId, user, haddr, ?_, ?_⟩
      · simp only [setPort, Function.update_self, howner]
        rfl
      · simp only [setPort, Function.update_self]
        exact howner

theorem runRelease_eq_ok {r : Result} (h : runSimple ControlPort.release params s = .ok r s') :
    ∃ portId,
      addressed params = some portId ∧ (s'.ports portId).owner = .release := by
  obtain ⟨portId, s1, hport, h1⟩ := bind_eq_okState h
  obtain ⟨haddr, rfl⟩ := parsePort_eq_ok hport
  cases h1
  refine ⟨portId, haddr, ?_⟩
  simp [setPort]

/-- The owners of all ports are as they were. -/
def SameOwners (s s' : TrexStateless cores) : Prop := ∀ i, (s'.ports i).owner = (s.ports i).owner

theorem SameOwners.trans {s1 s2 s3 : TrexStateless cores} (h : SameOwners s1 s2)
    (h' : SameOwners s2 s3) : SameOwners s1 s3 := fun i => (h' i).trans (h i)

theorem Looks.sameOwners (hx : Looks x) : Always SameOwners x :=
  hx.mono fun s s' h i => by rw [h]

theorem acquire_eq_error {user handler : String} {force : Bool} {port port' : ControlPort n}
    {e : Throw} (h : ControlPort.acquire user force handler port = .error e port') :
    port' = port := by
  rcases bind_eq_errorState h with hget | ⟨_, _, hget, h1⟩
  · cases hget
  cases hget
  split at h1
  · cases h1
  · split at h1 <;> · cases h1; rfl

/-- An `acquire` that fails leaves the owner alone. -/
theorem runAcquire_onThrow (oracle : Oracle) (params : Json) :
    OnThrow (fun _ => True) SameOwners (runAcquire oracle params : RpcProg cores Result) := by
  refine OnThrow.bind SameOwners.trans (parsePort_looks params).sameOwners fun portId => ?_
  refine OnThrow.bind SameOwners.trans (looks_fromExcept _).sameOwners fun user => ?_
  refine OnThrow.bind SameOwners.trans (looks_fromExcept _).sameOwners fun force => ?_
  refine OnThrow.bind SameOwners.trans (looks_fromExcept _).sameOwners fun _ => ?_
  refine OnThrow.bind_noThrow ?_ fun _ => noThrow_get.bind fun _ => noThrow_pure _
  intro s e s' h _ i
  unfold onPort at h
  cases hop : ControlPort.acquire user force oracle.handler (s.ports portId) with
  | ok u port =>
    rw [hop] at h
    cases h
  | error e' port =>
    rw [hop] at h
    cases h
    obtain rfl := acquire_eq_error hop
    simp [setPort]

/-- A `release` that fails leaves the owner alone. -/
theorem runRelease_onThrow (params : Json) : OnThrow (fun _ => True) SameOwners
    (runSimple ControlPort.release params : RpcProg cores Result) := by
  refine OnThrow.bind SameOwners.trans (parsePort_looks params).sameOwners fun portId => ?_
  exact NoThrow.onThrow (NoThrow.bind (fun _ _ _ h => nomatch h) fun _ => noThrow_pure _)

/-! ## 3. Histories -/

/-- A request that was made, and what it returned unless it failed. -/
structure Entry where
  method : Method
  params : Json
  result : Option Result

/-- What a command returned. -/
def resultOf : EStateM.Result RpcErr (TrexStateless cores) Result → Option Result
  | .ok r _ => some r
  | .error _ _ => none

/-- The handler of the last `acquire` of a port that was not released or followed by another; the
last request comes first. -/
def holder (portId : UInt8) : List Entry → Option String
  | [] => none
  | entry :: older =>
    if addressed entry.params = some portId then
      match entry.method, entry.result with
      | .acquire, some (.handler handler) => some handler
      | .release, some _ => none
      | _, _ => holder portId older
    else holder portId older

/-- All ports were just created. -/
def Initial (s : TrexStateless cores) : Prop := ∀ portId, (s.ports portId).Created portId

/-- **The states that can be reached**, with the requests that were made: requests of any clients,
and stop events of the cores. -/
inductive Reachable : TrexStateless cores → List Entry → Prop
  | init {s : TrexStateless cores} : s.Initial → Reachable s []
  | request {s : TrexStateless cores} {history : List Entry} {oracle : Oracle} {name : String}
      {method : Method} {params : Json} : Reachable s history → lookup name = some method →
      (∀ portId, addressed params = some portId →
        oracle.streams.Perm (s.ports portId).streamTable) →
      (∀ s', run oracle method params s ≠ .error .undefined s') →
      Reachable (stateOf (run oracle method params s))
        (⟨method, params, resultOf (run oracle method params s)⟩ :: history)
  | event {s : TrexStateless cores} {history : List Entry} {portId : UInt8}
      {threadId : Fin (cores portId).toNat} {eventId : Int} : Reachable s history →
      Reachable (s.setPort portId
        (stateOf (ControlPort.perform (.event threadId eventId) (s.ports portId)))) history

/-- The owner of a port is who acquired it last. -/
def OwnerOk {n : UInt8} (port : ControlPort n) : Option String → Prop
  | none => port.owner.isFree = true
  | some handler => port.owner.isFree = false ∧ port.owner.handler = handler

theorem OwnerOk.congr {port port' : ControlPort n} {handler : Option String}
    (h : OwnerOk port handler) (howner : port'.owner = port.owner) : OwnerOk port' handler := by
  cases handler with
  | none => exact (congrArg TrexPortOwner.isFree howner).trans h
  | some handler =>
    exact ⟨(congrArg TrexPortOwner.isFree howner).trans h.1,
      (congrArg TrexPortOwner.handler howner).trans h.2⟩

theorem holder_failed (portId : UInt8) (method : Method) (params : Json) (older : List Entry) :
    holder portId (⟨method, params, none⟩ :: older) = holder portId older := by
  simp only [holder]
  split
  · rfl
  · rfl

theorem holder_other (hacquire : method ≠ .acquire) (hrelease : method ≠ .release) (params : Json)
    (result : Option Result) (older : List Entry) :
    holder portId (⟨method, params, result⟩ :: older) = holder portId older := by
  simp only [holder]
  split
  · split
    · exact absurd rfl hacquire
    · exact absurd rfl hrelease
    · rfl
  · rfl

theorem holder_elsewhere (haddr : addressed params ≠ some portId) (method : Method)
    (result : Option Result) (older : List Entry) :
    holder portId (⟨method, params, result⟩ :: older) = holder portId older := by
  simp only [holder]
  rw [if_neg haddr]

/-- Ports that a request is not addressed to stay as they are. -/
theorem Affects.elsewhere {i : UInt8} (h : Affects method params s s')
    (haddr : addressed params ≠ some i) : s'.ports i = s.ports i := by
  rcases h with rfl | ⟨portId, port, hport, rfl, -⟩
  · rfl
  · have hne : i ≠ portId := by
      rintro rfl
      exact haddr hport
    exact Function.update_of_ne hne _ _

theorem Affects.allowed {i : UInt8} (h : Affects method params s s')
    (haddr : addressed params = some i) :
    s'.ports i = s.ports i ∨ Allowed method (s.ports i) (s'.ports i) := by
  rcases h with rfl | ⟨portId, port, hport, rfl, hallowed⟩
  · exact Or.inl rfl
  · obtain rfl : portId = i := Option.some.inj (hport.symm.trans haddr)
    refine Or.inr ?_
    simpa [setPort] using hallowed

/-- **A request keeps the owners and the history in step.** -/
theorem ownerOk_run {history : List Entry} (oracle : Oracle) (method : Method) (params : Json)
    (h : ∀ i, OwnerOk (s.ports i) (holder i history)) (i : UInt8) :
    OwnerOk ((stateOf (run oracle method params s)).ports i)
      (holder i (⟨method, params, resultOf (run oracle method params s)⟩ :: history)) := by
  by_cases href : Refused method params s
  · obtain ⟨e, he⟩ := run_refused href oracle
    rw [he, resultOf, holder_failed]
    exact h i
  rw [(run_accepted href oracle).1]
  have haffects := runBody_affects oracle params method s
  by_cases haddr : addressed params = some i
  swap
  · rw [holder_elsewhere haddr, haffects.elsewhere haddr]
    exact h i
  by_cases hacquire : method = .acquire
  · subst hacquire
    cases hres : (runBody oracle params .acquire : RpcProg cores Result) s with
    | error e s' =>
      rw [resultOf, holder_failed]
      exact (h i).congr (runAcquire_onThrow oracle params s e s' hres trivial i)
    | ok r s' =>
      obtain ⟨portId, user, hport, rfl, howner⟩ := runAcquire_eq_ok hres
      obtain rfl : portId = i := Option.some.inj (hport.symm.trans haddr)
      simp only [resultOf, holder, if_pos haddr]
      exact ⟨congrArg TrexPortOwner.isFree howner, congrArg TrexPortOwner.handler howner⟩
  by_cases hrelease : method = .release
  · subst hrelease
    cases hres : (runBody oracle params .release : RpcProg cores Result) s with
    | error e s' =>
      rw [resultOf, holder_failed]
      exact (h i).congr (runRelease_onThrow params s e s' hres trivial i)
    | ok r s' =>
      obtain ⟨portId, hport, howner⟩ := runRelease_eq_ok hres
      obtain rfl : portId = i := Option.some.inj (hport.symm.trans haddr)
      simp only [resultOf, holder, if_pos haddr]
      exact congrArg TrexPortOwner.isFree howner
  · rw [holder_other hacquire hrelease]
    rcases haffects.allowed haddr with hsame | hallowed
    · rw [hsame]
      exact h i
    · exact (h i).congr (hallowed.owner hacquire hrelease)

/-- **In every state that is reached, the owner of a port is who acquired it last.** -/
theorem Reachable.ownerOk {history : List Entry} (h : Reachable s history) :
    ∀ i, OwnerOk (s.ports i) (holder i history) := by
  induction h with
  | init hinit =>
    intro i
    exact congrArg TrexPortOwner.isFree (hinit i).owner
  | request _ _ _ _ ih => exact ownerOk_run _ _ _ ih
  | event _ ih =>
    rename_i s1 history portId threadId eventId _
    intro i
    refine (ih i).congr ?_
    by_cases hi : i = portId
    · subst hi
      simp only [setPort, Function.update_self]
      exact ControlPort.perform_owner (.event threadId eventId) nofun nofun _
    · simp [setPort, hi]

/-! ## 4. Ownership is enforced -/

/-- **A port changes only by requests of its owner.**  Whatever requests were made before: if a
request changes the state, the streams, the factor, the events or the messages of a port, then it is
addressed to that port and carries the handler of its last `acquire` that was not released or
followed by another.  A request that is addressed to one port leaves all others as they are, and one
that fails the check of its parameter count or of the ownership leaves everything as it is. -/
theorem ownership_enforced (cores : UInt8 → UInt8) (s : TrexStateless cores) (history : List Entry)
    (h : Reachable s history) (oracle : Oracle) (method : Method) (params : Json) :
    (∀ i, ¬ SameTraffic (s.ports i) ((stateOf (run oracle method params s)).ports i) →
      addressed params = some i ∧ ∃ handler, parseString params "handler" = .ok handler
        ∧ holder i history = some handler)
    ∧ (∀ i, addressed params ≠ some i →
      (stateOf (run oracle method params s)).ports i = s.ports i)
    ∧ (Refused method params s → ∃ e, run oracle method params s = .error e s) := by
  have haffects := run_affects oracle method params s
  refine ⟨fun i hchanged => ?_, fun i haddr => haffects.elsewhere haddr,
    fun href => run_refused href oracle⟩
  -- a port that changed is the one that the request is addressed to
  have haddr : addressed params = some i := by
    by_contra hne
    rw [haffects.elsewhere hne] at hchanged
    exact hchanged ⟨rfl, rfl⟩
  refine ⟨haddr, ?_⟩
  -- and the command is one that needs ownership
  have hneeds : method.needsOwnership = true := by
    rcases haffects.allowed haddr with hsame | hallowed
    · rw [hsame] at hchanged
      exact absurd ⟨rfl, rfl⟩ hchanged
    · by_contra hnot
      exact hchanged (hallowed.traffic (Bool.eq_false_of_not_eq_true hnot))
  have hnotRefused : ¬ Refused method params s := by
    intro href
    obtain ⟨e, he⟩ := run_refused href oracle
    rw [he] at hchanged
    exact hchanged ⟨rfl, rfl⟩
  obtain ⟨handler, portId, hhandler, hport, hverify⟩ := (run_accepted hnotRefused oracle).2 hneeds
  obtain rfl : portId = i := Option.some.inj (hport.symm.trans haddr)
  refine ⟨handler, hhandler, ?_⟩
  -- the handler was compared with that of the owner, who acquired the port last
  have howner := h.ownerOk portId
  obtain ⟨hfree, heq⟩ := Bool.and_eq_true_iff.mp hverify
  cases hholder : holder portId history with
  | none =>
    rw [hholder] at howner
    rw [show (s.ports portId).owner.isFree = true from howner] at hfree
    cases hfree
  | some handler' =>
    rw [hholder] at howner
    rw [← howner.2, eq_of_beq heq]

/-- Two ports, as they are created. -/
def freshServer : TrexStateless fun _ => 1 :=
  { portCount := 2
    ports := fun portId => { ControlPort.freshPort with portId := portId } }

/-- The first port is acquired. -/
def acquireParams : Json :=
  .object [("port_id", .int 0), ("user", .string "user"), ("force", .boolean false),
    ("session_id", .int 1)]

/-- What `acquire` gets from elsewhere. -/
def acquireOracle : Oracle := ⟨"h", fun _ _ => 0, [], fun _ => .error .undefined⟩

/-- After the first port is acquired, a request without parameters does nothing to it. -/
theorem ownership_enforced_acquired : ∃ (s : TrexStateless fun _ => 1) (history : List Entry),
    Reachable s history ∧ holder 0 history = some "h"
      ∧ ∀ oracle, ∃ e, run oracle .stopTraffic .null s = .error e s := by
  have hresult : resultOf (run acquireOracle .acquire acquireParams freshServer)
      = some (.handler "h") := by
    decide +kernel
  have haddr : addressed acquireParams = some 0 := by decide +kernel
  have hinit : freshServer.Initial := fun portId => ⟨⟨rfl, rfl, rfl, rfl, rfl⟩, rfl, rfl⟩
  have hlookup : lookup "acquire" = some .acquire := by decide +kernel
  have hdefined : ∀ s', run acquireOracle .acquire acquireParams freshServer
      ≠ .error .undefined s' := by
    intro s' herr
    rw [herr] at hresult
    cases hresult
  have hreach := (Reachable.init hinit).request hlookup (fun _ _ => List.Perm.refl []) hdefined
  refine ⟨_, _, hreach, ?_, fun oracle => ?_⟩
  · rw [hresult, holder, if_pos haddr]
  · have hsize : Json.null.size ≠ Method.stopTraffic.paramCount := by decide
    exact (ownership_enforced _ _ _ hreach oracle .stopTraffic .null).2.2 (Or.inl hsize)

end TrexStateless

end Trex.Rpc
