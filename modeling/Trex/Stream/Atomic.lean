/-
# What a failed compilation leaves behind

`TrexStreamsCompiler::compile` catches the exceptions of its passes and returns false.  Its streams
and its output vector are pointers of the caller: what the passes changed before the exception stays
changed.  Here the passes are programs on that state.  `compile_internal` adds an object for every
core to the vector before it compiles the first stream; a VM that is not split is compiled in the
stream of the caller (`(TrexStream *)stream`), whose `StreamVm` keeps what `compile` wrote to its
members.

The checks of the graph change nothing.  So a failure is atomic exactly when it comes from them, and
not from a VM (`compile_failure_atomic_iff`).
-/
import Trex.Lib.Throw
import Trex.Stream.Split

namespace Trex.Stream

open Trex.Lib Trex.Vm List

/-! ## 1. The VM of a stream of the caller -/

/-- The members of `StreamVm` that `compile` writes. -/
structure VmScratch where
  pktSize : Nat := 0
  /-- `m_flow_var_offset`, `m_cur_var_offset` and `m_is_random_var` -/
  table : VarTable := ⟨0, false, []⟩
  bss : Option (List UInt8) := none
  maxFieldUpdate : Nat := 0
  instructions : List UInt8 := []
  prefixSize : Nat := 0
  isCompiled : Bool := false
deriving DecidableEq

namespace VmScratch

/-- `add_field_cnt`. -/
def addFieldCnt (v : VmScratch) (newCnt : Nat) : VmScratch :=
  { v with maxFieldUpdate := max v.maxFieldUpdate newCnt }

/-- What `generate_dp_object` reads. -/
def compiled (v : VmScratch) : CompiledVm :=
  ⟨v.pktSize, v.table, v.bss.getD [], v.instructions, v.maxFieldUpdate, v.prefixSize⟩

/-- The second loop of `build_flow_var_table`. -/
def addAllVars : Nat → List Instr → EStateM VmErr VmScratch Unit
  | _, [] => pure ()
  | insId, inst :: rest => do
    let v ← get
    let t ← fromExcept (addVars insId v.table inst)
    modify fun v => { v with table := t }
    throwIf (t.curVarOffset > svMaxFlowVar) (vmErr ("too many flow varibles current size is :"
      ++ toString t.curVarOffset ++ " maximum support is " ++ toString svMaxFlowVar))
    addAllVars (insId + 1) rest

/-- `build_flow_var_table`. -/
def buildFlowVarTable (insts : List Instr) : EStateM VmErr VmScratch Unit := do
  modify fun v => { v with table := initVarTable insts }
  addAllVars 0 insts

/-- `build_bss`; `rand` is the value of `rand()`. -/
def buildBss (rand : Nat) (insts : List Instr) : EStateM VmErr VmScratch Unit := do
  let v ← get
  let bss ← fromExcept (Trex.Vm.buildBss rand v.table insts)
  modify fun v => { v with bss := some bss }

/-- The field of a checksum command is counted before the command is checked. -/
def earlyField : Instr → Nat
  | .fixIpv4Cs i => (i.pktOffset.toNat + 12) % 2 ^ 16
  | _ => 0

/-- The loop of `build_program`. -/
def buildCommands : Nat → List Instr → EStateM VmErr VmScratch Unit
  | _, [] => pure ()
  | insId, inst :: rest => do
    modify fun v => v.addFieldCnt (earlyField inst)
    let v ← get
    let (cnt, ops) ← fromExcept (buildCommand v.table v.pktSize insId inst)
    modify fun v => { v.addFieldCnt cnt with
        instructions := v.instructions ++ ops.flatMap DpOp.bytes }
    buildCommands (insId + 1) rest

/-- `build_program`. -/
def buildProgram (insts : List Instr) : EStateM VmErr VmScratch Unit := do
  modify fun v => { v with instructions := [], maxFieldUpdate := 0 }
  buildCommands 0 insts

/-- The end of `compile`. -/
def finish : EStateM VmErr VmScratch Unit := do
  let v ← get
  throwIf (v.maxFieldUpdate > svMaxPacketOffsetChange) (vmErr ("maximum offset is"
    ++ toString v.maxFieldUpdate ++ " bigger than maximum " ++ toString svMaxPacketOffsetChange))
  modify fun v => { v with
    prefixSize := calcWritableMbufSize v.maxFieldUpdate v.pktSize
    isCompiled := true }

/-- `compile(pkt_len)`. -/
def compile (rand : Nat) (insts : List Instr) (pktLen : UInt16) : EStateM VmErr VmScratch Unit :=
  doIf (insts ≠ []) do
    modify fun v => { v with pktSize := pktLen.toNat }
    buildFlowVarTable insts
    buildBss rand insts
    buildProgram insts
    finish

end VmScratch

/-! ## 2. The passes over the streams of the caller -/

/-- A stream of the caller. -/
structure Given where
  stream : TrexStream
  scratch : VmScratch
deriving DecidableEq

/-- What `compile` can change: the vector of objects and the streams. -/
structure CompilerState where
  objs : List TrexStreamsCompiledObj
  streams : List Given
deriving DecidableEq

/-- What `compile_stream` can change. -/
structure Focus where
  objs : List TrexStreamsCompiledObj
  given : Given

/-- How `compile_internal` can end without returning. -/
inductive CompileStop
  | err (e : CompileErr)
  /-- `m_burst_total_pkts / dp_core_count` without cores -/
  | divByZero
deriving DecidableEq

namespace InPlace

/-- A program on the VM of the stream. -/
def onScratch (x : EStateM VmErr VmScratch Unit) : EStateM CompileStop Focus Unit := fun f =>
  match x f.given.scratch with
  | .ok u v => .ok u { f with given := { f.given with scratch := v } }
  | .error e v => .error (.err (.ofVm e)) { f with given := { f.given with scratch := v } }

/-- `m_vm_dp` of the stream is set. -/
def setVmDp (dp : Option StreamVmDp) : EStateM CompileStop Focus Unit :=
  modify fun f => { f with given := { f.given with stream := { f.given.stream with vmDp := dp } } }

/-- What a computation of the VM throws. -/
def ofVm {α : Type} (x : Except VmErr α) : Except CompileStop α :=
  x.mapError fun e => .err (.ofVm e)

/-- `vm_compile` of the stream, which has a VM. -/
def vmCompile (rand : Nat) : EStateM CompileStop Focus Unit := do
  let f ← get
  onScratch (VmScratch.compile rand f.given.stream.vm.instList f.given.stream.pkt.len)
  let f ← get
  let dp ← fromExcept (ofVm (generateDpObject f.given.scratch.compiled))
  setVmDp (some dp)

/-- `split`: the streams of the cores. -/
def split (rand : Nat → Nat) (cores : List TrexStream) :
    EStateM CompileStop Focus (List TrexStream) := do
  let f ← get
  if f.given.stream.vm.isVmEmpty then pure cores
  else do
    match ← fromExcept (ofVm (splitInternal rand f.given.stream.vm cores)) with
    | some cores' => pure cores'
    | none => do
      vmCompile (rand 0)
      let f ← get
      -- no need for the reference stream DP object
      setVmDp none
      pure (cores.map fun core => { core with vmDp := f.given.stream.vmDp })

/-- The numbers of a stream and of its next stream. -/
def newIds (nodes : GraphNodeMap) (s : TrexStream) : Except CompileErr (Int32 × Int32) :=
  match nodes.getCompressed s.streamId with
  | none => .error .assertFail
  | some newId =>
    if newId < 0 then .error .assertFail
    else
      match (if s.nextStreamId ≥ 0 then nodes.getCompressed s.nextKey
          else some (-1) : Option Int32) with
      | none => .error .assertFail
      | some newNextId => .ok (newId, newNextId)

/-- The streams of the cores are added to `objs[0]`, `objs[1]`, .. -/
def attach : List TrexStreamsCompiledObj → List TrexStream → List TrexStreamsCompiledObj
  | obj :: objs, core :: cores => { obj with objs := obj.objs ++ [core] } :: attach objs cores
  | objs, _ => objs

/-- `compile_stream`. -/
def compileStream (rand : Nat → Nat) (nodes : GraphNodeMap) (factor : Rat) (dpCoreCount : Nat) :
    EStateM CompileStop Focus Unit := do
  let f ← get
  let (newId, newNextId) ← fromExcept ((newIds nodes f.given.stream).mapError .err)
  throwIf (dpCoreCount = 0) .divByZero
  let cores ← split rand (coreStreams f.given.stream factor dpCoreCount newId newNextId)
  modify fun f => { f with objs := attach f.objs cores }

/-- A stream that the loop is done with. -/
def keep {α : Type} (g : Given) : EStateM.Result CompileStop CompilerState α →
    EStateM.Result CompileStop CompilerState α
  | .ok a st => .ok a { st with streams := g :: st.streams }
  | .error e st => .error e { st with streams := g :: st.streams }

/-- The loop of `compile_internal` over the streams; `i` counts the enabled ones. -/
def compileStreams (rand : Nat → Nat → Nat) (nodes : GraphNodeMap) (factor : Rat)
    (dpCoreCount : Nat) :
    Nat → List TrexStreamsCompiledObj → List Given → EStateM.Result CompileStop CompilerState Unit
  | _, objs, [] => .ok () ⟨objs, []⟩
  | i, objs, g :: rest =>
    if !g.stream.enabled then keep g (compileStreams rand nodes factor dpCoreCount i objs rest)
    else
      match compileStream (rand i) nodes factor dpCoreCount ⟨objs, g⟩ with
      | .error e f => .error e ⟨f.objs, f.given :: rest⟩
      | .ok _ f => keep f.given (compileStreams rand nodes factor dpCoreCount (i + 1) f.objs rest)

/-- The object that `compile_internal` makes for every core. -/
def newObj (portId : UInt8) (streams : List TrexStream) : TrexStreamsCompiledObj :=
  ⟨portId, [], streams.all fun s => s.type == .stCONTINUOUS⟩

/-- `compile_internal`. -/
def compileInternal (rand : Nat → Nat → Nat) (portId : UInt8) (dpCoreCount : UInt8) (factor : Rat)
    (st : CompilerState) : EStateM.Result CompileStop CompilerState Unit :=
  match preCompileCheck (st.streams.map Given.stream) with
  | .error e => .error (.err e) st
  | .ok (nodes, _) =>
    compileStreams rand nodes factor dpCoreCount.toNat 0
      (st.objs ++ List.replicate dpCoreCount.toNat (newObj portId (st.streams.map Given.stream)))
        st.streams

/-- `compile`: true, or false and the text for `fail_msg`. -/
def compile (rand : Nat → Nat → Nat) (portId : UInt8) (dpCoreCount : UInt8) (factor : Rat) :
    EStateM CompileStop CompilerState (Bool × String) := fun st =>
  match compileInternal rand portId dpCoreCount factor st with
  | .ok _ st' => .ok (true, "") st'
  | .error (.err (.exception what)) st' => .ok (false, what) st'
  | .error e st' => .error e st'

end InPlace

/-! ## 3. The passes over a VM compute what the compiler of instructions says -/

namespace VmScratch

/-- The table is what the loop makes of it. -/
theorem addAllVars_follows : ∀ (insts : List Instr) (insId : Nat) (v : VmScratch),
    Follows (fun t _ v' => v' = { v with table := t }) (Trex.Vm.addAllVars insId v.table insts)
      (addAllVars insId insts v)
  | [], _, _ => rfl
  | inst :: rest, insId, v => by
    unfold addAllVars Trex.Vm.addAllVars
    rw [get_bind]
    refine Follows.bind (R := fun t t' v' => t = t' ∧ v' = v)
      (follows_fromExcept fun _ _ => ⟨rfl, rfl⟩) ?_
    intro t t' v' heq
    obtain ⟨rfl, rfl⟩ := heq
    rw [modify_bind]
    by_cases hlimit : t.curVarOffset > svMaxFlowVar
    · rw [if_pos hlimit, throwIf_bind_of hlimit]
      rfl
    · rw [if_neg hlimit, throwIf_bind_of_not hlimit]
      exact addAllVars_follows rest (insId + 1) { v' with table := t }

theorem buildFlowVarTable_follows (insts : List Instr) (v : VmScratch) :
    Follows (fun t _ v' => v' = { v with table := t }) (Trex.Vm.buildFlowVarTable insts)
      (buildFlowVarTable insts v) :=
  addAllVars_follows insts 0 { v with table := initVarTable insts }

theorem buildBss_follows (rand : Nat) (insts : List Instr) (v : VmScratch) :
    Follows (fun bss _ v' => v' = { v with bss := some bss }) (Trex.Vm.buildBss rand v.table insts)
      (buildBss rand insts v) := by
  unfold buildBss
  rw [get_bind]
  cases Trex.Vm.buildBss rand v.table insts with
  | ok bss => rfl
  | error e => rfl

/-- A checksum command that is made has its field counted once. -/
theorem earlyField_le {t : VarTable} {pktSize insId : Nat} {inst : Instr} {cnt : Nat}
    {ops : List DpOp} (h : buildCommand t pktSize insId inst = .ok (cnt, ops)) :
    earlyField inst ≤ cnt := by
  cases inst with
  | fixIpv4Cs i =>
    simp only [buildCommand] at h
    split at h
    · cases h
    · cases h
      exact le_rfl
  | flowMan i => exact Nat.zero_le cnt
  | pktWr i => exact Nat.zero_le cnt
  | flowClient i => exact Nat.zero_le cnt

/-- The VM with commands added, and the greatest of their fields. -/
def withCommands (v : VmScratch) (p : Nat × List DpOp) : VmScratch :=
  { v with
    maxFieldUpdate := max v.maxFieldUpdate p.1
    instructions := v.instructions ++ p.2.flatMap DpOp.bytes }

theorem withCommands_append (v : VmScratch) (p q : Nat × List DpOp) :
    (v.withCommands p).withCommands q = v.withCommands (max p.1 q.1, p.2 ++ q.2) := by
  simp [withCommands, max_assoc]

theorem buildCommands_follows : ∀ (insts : List Instr) (insId : Nat) (v : VmScratch),
    Follows (fun p _ v' => v' = v.withCommands p)
      (Trex.Vm.buildCommands v.table v.pktSize insId insts) (buildCommands insId insts v)
  | [], _, v => by
    change v = v.withCommands (0, [])
    simp [withCommands]
  | inst :: rest, insId, v => by
    unfold buildCommands Trex.Vm.buildCommands
    rw [modify_bind, get_bind]
    refine Follows.bind (y := buildCommand v.table v.pktSize insId inst)
      (R := fun p p' v' => p' = p ∧ earlyField inst ≤ p.1 ∧ v' = v.addFieldCnt (earlyField inst))
      (follows_fromExcept fun p hp => ⟨rfl, earlyField_le hp, rfl⟩) ?_
    rintro ⟨cnt, ops⟩ p' v' ⟨hp, hearly, rfl⟩
    subst hp
    have hone : { (v.addFieldCnt (earlyField inst)).addFieldCnt cnt with
        instructions := (v.addFieldCnt (earlyField inst)).instructions ++ ops.flatMap DpOp.bytes }
        = v.withCommands (cnt, ops) := by
      simp only [addFieldCnt, withCommands, max_assoc, max_eq_right hearly]
    simp only [modify_bind, hone]
    -- the rest of the list
    have hrest := buildCommands_follows rest (insId + 1) (v.withCommands (cnt, ops))
    exact hrest.map fun p _ v' hv' => hv'.trans (withCommands_append v (cnt, ops) p)

/-- **`StreamVm::compile` leaves the compiled VM in its members.** -/
theorem compile_follows (rand : Nat) {insts : List Instr} (hne : insts ≠ []) (pktLen : UInt16)
    (v : VmScratch) :
    Follows (fun c _ v' => c = some v'.compiled) (Trex.Vm.compile rand insts pktLen)
      (compile rand insts pktLen v) := by
  have hempty : insts.isEmpty = false := by simpa using hne
  unfold compile Trex.Vm.compile doIf
  rw [if_pos hne, hempty, if_neg Bool.false_ne_true, modify_bind]
  refine (buildFlowVarTable_follows insts { v with pktSize := pktLen.toNat }).bind ?_
  rintro t _ _ rfl
  refine (buildBss_follows rand insts { v with pktSize := pktLen.toNat, table := t }).bind ?_
  rintro bss _ _ rfl
  have hprogram := buildCommands_follows insts 0
    { v with pktSize := pktLen.toNat, table := t, bss := some bss, instructions := [],
             maxFieldUpdate := 0 }
  refine Follows.bind (hprogram.map (S := fun (p : Nat × List UInt8) _ v' => v' =
    { v with pktSize := pktLen.toNat, table := t, bss := some bss, instructions := p.2,
             maxFieldUpdate := p.1 })
    fun p _ v' hv' => ?_) ?_
  · rw [hv', withCommands]
    simp
  · rintro ⟨cnt, program⟩ _ _ rfl
    unfold finish
    rw [get_bind]
    by_cases hmax : cnt > svMaxPacketOffsetChange
    · simp only [hmax, if_true]
      rw [throwIf_bind_of hmax]
      rfl
    · simp only [hmax, if_false]
      rw [throwIf_bind_of_not hmax]
      rfl

end VmScratch

/-! ## 4. The passes over the streams compute what the streams compiler says -/

namespace InPlace

theorem ofVm_bind {α β : Type} (x : Except VmErr α) (g : α → Except VmErr β) :
    ofVm (x >>= g) = ofVm x >>= fun a => ofVm (g a) := by
  cases x <;> rfl

/-- A program on the VM follows what the program on the members does. -/
theorem onScratch_follows {β : Type} {R : β → Unit → VmScratch → Prop} {y : Except VmErr β}
    {x : EStateM VmErr VmScratch Unit} {f : Focus} (h : Follows R y (x f.given.scratch)) :
    Follows (fun b u f' => f'.objs = f.objs ∧ f'.given.stream = f.given.stream ∧
      R b u f'.given.scratch) (ofVm y) (onScratch x f) := by
  unfold onScratch
  cases hx : x f.given.scratch with
  | ok u v =>
    rw [hx] at h
    cases y with
    | ok b => exact ⟨rfl, rfl, h⟩
    | error e => exact absurd h id
  | error e v =>
    rw [hx] at h
    cases y with
    | ok b => exact absurd h id
    | error e' => exact congrArg (fun e => CompileStop.err (.ofVm e)) h

/-- `vm_compile` makes the object that the instructions say. -/
theorem vmCompile_follows (rand : Nat) (f : Focus) (hne : f.given.stream.vm.isVmEmpty = false) :
    Follows (fun s' _ f' => f'.objs = f.objs ∧ f'.given.stream = s')
      (ofVm (f.given.stream.vmCompile rand)) (vmCompile rand f) := by
  have hinsts : f.given.stream.vm.instList ≠ [] := by
    intro hnil
    rw [StreamVm.isVmEmpty, hnil] at hne
    cases hne
  unfold vmCompile TrexStream.vmCompile
  rw [ofVm_bind, get_bind]
  refine (onScratch_follows (VmScratch.compile_follows rand hinsts f.given.stream.pkt.len
    f.given.scratch)).bind ?_
  rintro c u f1 ⟨hobjs, hstream, rfl⟩
  rw [get_bind]
  cases hdp : generateDpObject f1.given.scratch.compiled with
  | error e =>
    simp only [hdp]
    rfl
  | ok dp =>
    simp only [hdp]
    refine ⟨hobjs, ?_⟩
    simp only [hstream]

/-- `split` gives the cores the streams that the splitter says. -/
theorem split_follows (rand : Nat → Nat) (cores : List TrexStream) (f : Focus) :
    Follows (fun cores' a f' => a = cores' ∧ f'.objs = f.objs)
      (ofVm (Trex.Stream.split rand f.given.stream cores)) (split rand cores f) := by
  unfold split Trex.Stream.split
  rw [get_bind]
  by_cases hempty : f.given.stream.vm.isVmEmpty = true
  · rw [if_pos hempty, if_pos hempty]
    exact ⟨rfl, rfl⟩
  · rw [if_neg hempty, if_neg hempty, ofVm_bind]
    refine Follows.bind (R := fun r r' f' => r = r' ∧ f' = f) (follows_fromExcept fun _ _ =>
      ⟨rfl, rfl⟩) ?_
    intro r r' f' heq
    obtain ⟨rfl, rfl⟩ := heq
    cases r with
    | some cores' => exact ⟨rfl, rfl⟩
    | none =>
      simp only
      rw [ofVm_bind]
      refine (vmCompile_follows (rand 0) f' (Bool.eq_false_iff.mpr hempty)).bind ?_
      rintro s' u f1 ⟨hobjs, rfl⟩
      exact ⟨rfl, hobjs⟩

theorem mapError_bind_ok {ε ε' α β : Type} (x : Except ε α) (g : α → β) (f : ε → ε') :
    (x >>= fun a => .ok (g a)).mapError f = x.mapError f >>= fun a => .ok (g a) := by
  cases x <;> rfl

/-- What `compile_stream` computes, with the numbers apart. -/
theorem compileStream_eq (rand : Nat → Nat) (nodes : GraphNodeMap) (factor : Rat) (n : Nat)
    (s : TrexStream) :
    Trex.Stream.compileStream rand nodes factor n s = newIds nodes s >>= fun ids =>
      (Trex.Stream.split rand s (coreStreams s factor n ids.1 ids.2)).mapError CompileErr.ofVm := by
  unfold Trex.Stream.compileStream newIds
  cases nodes.getCompressed s.streamId with
  | none => rfl
  | some newId =>
    by_cases hneg : newId < 0
    · simp only [hneg, if_true]
      rfl
    · simp only [hneg, if_false]
      cases (if s.nextStreamId ≥ 0 then nodes.getCompressed s.nextKey
          else some (-1) : Option Int32) with
      | none => rfl
      | some newNextId => rfl

/-- **`compile_stream` attaches what the streams compiler says**, when there are cores. -/
theorem compileStream_follows (rand : Nat → Nat) (nodes : GraphNodeMap) (factor : Rat) {n : Nat}
    (hn : n ≠ 0) (f : Focus) : Follows (fun cores _ f' => f'.objs = attach f.objs cores)
      ((Trex.Stream.compileStream rand nodes factor n f.given.stream).mapError .err)
      (compileStream rand nodes factor n f) := by
  rw [compileStream_eq]
  unfold compileStream
  rw [get_bind]
  cases hids : newIds nodes f.given.stream with
  | error e => rfl
  | ok ids =>
    change Follows _ _ ((throwIf (n = 0) CompileStop.divByZero >>= fun _ =>
      split rand (coreStreams f.given.stream factor n ids.1 ids.2) >>= fun cores =>
        modify fun f => { f with objs := attach f.objs cores }) f)
    rw [throwIf_bind_of_not hn]
    have hsplit := split_follows rand (coreStreams f.given.stream factor n ids.1 ids.2) f
    have herr : ((Except.ok ids >>= fun ids => (Trex.Stream.split rand f.given.stream
        (coreStreams f.given.stream factor n ids.1 ids.2)).mapError CompileErr.ofVm) :
        Except CompileErr (List TrexStream)).mapError CompileStop.err
        = ofVm (Trex.Stream.split rand f.given.stream
          (coreStreams f.given.stream factor n ids.1 ids.2)) >>= fun cores => .ok cores := by
      simp only [ok_bind]
      cases Trex.Stream.split rand f.given.stream
        (coreStreams f.given.stream factor n ids.1 ids.2) <;> rfl
    rw [herr]
    refine hsplit.bind ?_
    rintro _ cores f' ⟨rfl, hobjs⟩
    exact congrArg (fun objs => attach objs cores) hobjs

/-- A stream that the loop is done with changes nothing in the objects. -/
theorem Follows.keep {α β : Type} {P : β → List TrexStreamsCompiledObj → Prop}
    {y : Except CompileStop β} {r : EStateM.Result CompileStop CompilerState α}
    (h : Follows (fun b _ st => P b st.objs) y r) (g : Given) :
    Follows (fun b _ st => P b st.objs) y (keep g r) := by
  cases y with
  | ok b =>
    cases r with
    | ok a st => exact h
    | error e st => exact absurd h id
  | error e =>
    cases r with
    | ok a st => exact absurd h id
    | error e' st => exact h

/-- **The loop of `compile_internal`** attaches the lists of the streams compiler, one after the
other. -/
theorem compileStreams_follows (rand : Nat → Nat → Nat) (nodes : GraphNodeMap) (factor : Rat)
    {n : Nat} (hn : n ≠ 0) : ∀ (gs : List Given) (i : Nat) (objs : List TrexStreamsCompiledObj),
    Follows (fun lists _ st => st.objs = lists.foldl attach objs)
      ((Trex.Stream.compileStreams rand nodes factor n i (gs.map Given.stream)).mapError .err)
      (compileStreams rand nodes factor n i objs gs)
  | [], i, objs => rfl
  | g :: rest, i, objs => by
    rw [map_cons]
    unfold compileStreams Trex.Stream.compileStreams
    cases hen : g.stream.enabled with
    | false =>
      simp only [Bool.not_false, if_true]
      exact Follows.keep (P := fun (lists : List (List TrexStream)) objs' =>
        objs' = lists.foldl attach objs) (compileStreams_follows rand nodes factor hn rest i objs) g
    | true =>
      simp only [Bool.not_true, Bool.false_eq_true, if_false]
      have hone := compileStream_follows (rand i) nodes factor hn ⟨objs, g⟩
      simp only at hone
      cases hpure : Trex.Stream.compileStream (rand i) nodes factor n g.stream with
      | error e =>
        cases hrun : compileStream (rand i) nodes factor n ⟨objs, g⟩ with
        | ok u f =>
          rw [hpure, hrun] at hone
          exact absurd hone id
        | error e' f =>
          rw [hpure, hrun] at hone
          exact hone
      | ok cores =>
        cases hrun : compileStream (rand i) nodes factor n ⟨objs, g⟩ with
        | error e' f =>
          rw [hpure, hrun] at hone
          exact absurd hone id
        | ok u f =>
          rw [hpure, hrun] at hone
          have hobjs : f.objs = attach objs cores := hone
          have hrest := compileStreams_follows rand nodes factor hn rest (i + 1) f.objs
          refine Follows.keep (P := fun (lists : List (List TrexStream)) objs' =>
            objs' = lists.foldl attach objs) ?_ f.given
          rw [ok_bind, mapError_bind_ok]
          exact hrest.map fun others _ st hst => hst.trans (by rw [hobjs, foldl_cons])

/-- The object of a core, after lists were attached. -/
theorem attach_get : ∀ (objs : List TrexStreamsCompiledObj) (cores : List TrexStream) (core : Nat),
    (attach objs cores)[core]? = objs[core]?.map fun obj =>
      { obj with objs := obj.objs ++ (cores[core]?).toList }
  | [], cores, core => by
    rw [attach]
    · rfl
    · simp
  | obj :: objs, [], core => by
    rw [attach]
    · cases (obj :: objs)[core]? <;> simp
    · simp
  | obj :: objs, c :: cores, 0 => rfl
  | obj :: objs, c :: cores, core + 1 => by
    rw [attach, List.getElem?_cons_succ, List.getElem?_cons_succ, List.getElem?_cons_succ]
    exact attach_get objs cores core

theorem length_attach : ∀ (objs : List TrexStreamsCompiledObj) (cores : List TrexStream),
    (attach objs cores).length = objs.length
  | [], _ => by simp [attach]
  | _ :: _, [] => by simp [attach]
  | _ :: objs, _ :: cores => by rw [attach, length_cons, length_cons, length_attach objs cores]

theorem attachAll_get (core : Nat) :
    ∀ (lists : List (List TrexStream)) (objs : List TrexStreamsCompiledObj),
    (lists.foldl attach objs)[core]? = objs[core]?.map fun obj =>
      { obj with objs := obj.objs ++ coreObjs lists core }
  | [], objs => by
    cases h : objs[core]? <;> simp [coreObjs, h]
  | l :: lists, objs => by
    have hcons : coreObjs (l :: lists) core = (l[core]?).toList ++ coreObjs lists core := by
      cases h : l[core]? <;> simp [coreObjs, h]
    rw [foldl_cons, attachAll_get core lists, attach_get, hcons, Option.map_map]
    simp [Function.comp_def]

/-- **The passes on the state of the caller compute what the streams compiler says**, when the
output vector is empty and there are cores. -/
theorem compileInternal_follows (rand : Nat → Nat → Nat) (portId : UInt8) {n : UInt8}
    (hn : n.toNat ≠ 0) (factor : Rat) (gs : List Given) :
    Follows (fun objs _ st => st.objs = objs)
      ((compileAll rand portId (gs.map Given.stream) n factor).mapError .err)
      (compileInternal rand portId n factor ⟨[], gs⟩) := by
  unfold compileInternal compileAll
  cases preCompileCheck (gs.map Given.stream) with
  | error e => rfl
  | ok res =>
    obtain ⟨nodes, warnings⟩ := res
    simp only [ok_bind]
    rw [mapError_bind_ok]
    refine (compileStreams_follows rand nodes factor hn gs 0 _).map fun lists _ st hst => ?_
    rw [hst]
    refine ext_getElem? fun core => ?_
    rw [attachAll_get, nil_append, List.getElem?_map]
    by_cases hcore : core < n.toNat
    · rw [List.getElem?_range hcore, List.getElem?_replicate, if_pos hcore]
      rfl
    · rw [List.getElem?_eq_none (by simpa using hcore),
        List.getElem?_eq_none (by simpa using hcore)]
      rfl

end InPlace

/-! ## 5. The VMs that are refused -/

/-- `vm_compile` returns. -/
def TrexStream.VmPasses (s : TrexStream) : Prop := ∃ s', s.vmCompile 0 = .ok s'

/-- `StreamVm::compile` throws. -/
def TrexStream.VmRefused (s : TrexStream) : Prop :=
  ∃ what, Trex.Vm.compile 0 s.vm.instList s.pkt.len = .error (.exception what)

/-- Whether an object is made depends on the sizes. -/
theorem generateDpObject_shape {c c' : CompiledVm} (h : SameSizes c c') :
    ExceptRel (fun _ _ => True) (generateDpObject c) (generateDpObject c') := by
  simp only [generateDpObject, h.table, h.program]
  split
  · rfl
  · split
    · rfl
    · trivial

/-- **Whether the VM of a stream compiles depends on its shape.** -/
theorem vmCompile_shape (s s' : TrexStream)
    (h : List.Forall₂ SameShape s.vm.instList s'.vm.instList) (hlen : s'.pkt.len = s.pkt.len)
    (rand rand' : Nat) :
    ExceptRel (fun _ _ => True) (s.vmCompile rand) (s'.vmCompile rand') := by
  unfold TrexStream.vmCompile
  rw [hlen]
  refine (compile_shape h rand rand' s.pkt.len).bind fun c c' hc => ?_
  match c, c', hc with
  | none, none, _ => trivial
  | some c, some c', hc => exact (generateDpObject_shape hc).bind fun _ _ _ => trivial

theorem forall₂_shape_refl : ∀ insts : List Instr, List.Forall₂ SameShape insts insts
  | [] => .nil
  | x :: insts => .cons (.refl x) (forall₂_shape_refl insts)

theorem forall₂_shape_set {x y : Instr} (hxy : SameShape x y) : ∀ {insts : List Instr} {k : Nat},
    insts[k]? = some x → List.Forall₂ SameShape insts (insts.set k y)
  | [], k, h => by cases h
  | z :: insts, 0, h => by
    obtain rfl : z = x := by simpa using h
    exact .cons hxy (forall₂_shape_refl insts)
  | z :: insts, k + 1, h => .cons (.refl z) (forall₂_shape_set hxy (by simpa using h))

variable {s : TrexStream}

/-- Every core is given a VM of the shape of the stream's, so the first of them decides. -/
theorem splitLoop_outcome (rand : Nat → Nat) {k : Nat} {x : Instr} {instr : UInt64 → UInt64 → Instr}
    (part : UInt64) (hx : s.vm.instList[k]? = some x) (hshape : ∀ a b, SameShape x (instr a b)) :
    ∀ (cores : List TrexStream) (j : Nat) (start end_ : UInt64),
    (∀ c ∈ cores, c.pkt.len = s.pkt.len) →
    ((∃ s', s.vmCompile 0 = .ok s') →
      ∃ cores', splitLoop rand s.vm k instr part j start end_ cores = .ok cores')
      ∧ ∀ e, s.vmCompile 0 = .error e → cores ≠ [] →
        splitLoop rand s.vm k instr part j start end_ cores = .error e
  | [], j, start, end_, _ => ⟨fun _ => ⟨[], rfl⟩, fun _ _ hne => absurd rfl hne⟩
  | core :: cores, j, start, end_, hlen => by
    have hone := vmCompile_shape s { core with vm := s.vm.setInstr k (instr start end_) }
      (forall₂_shape_set (hshape start end_) hx) (hlen core mem_cons_self) 0 (rand j)
    obtain ⟨hrest, -⟩ := splitLoop_outcome rand part hx hshape cores (j + 1) (end_ + 1)
      (end_ + 1 + part - 1) fun c hc => hlen c (mem_cons_of_mem _ hc)
    constructor
    · rintro ⟨s', hs'⟩
      obtain ⟨core', hcore', -⟩ := hone.ok_left hs'
      obtain ⟨cores', hcores'⟩ := hrest ⟨s', hs'⟩
      refine ⟨core' :: cores', ?_⟩
      simp only [splitLoop, hcore', hcores', ok_bind]
    · intro e he _
      rw [he] at hone
      cases hcore : TrexStream.vmCompile (rand j)
          { core with vm := s.vm.setInstr k (instr start end_) } with
      | ok c =>
        rw [hcore] at hone
        exact absurd hone id
      | error e' =>
        rw [hcore] at hone
        obtain rfl := hone
        simp only [splitLoop, hcore]
        rfl

/-- **The splitter fails exactly when the VM of the stream does not compile**, and with the same
error. -/
theorem split_outcome (rand : Nat → Nat) {cores : List TrexStream} (hne : cores ≠ [])
    (hlen : ∀ c ∈ cores, c.pkt.len = s.pkt.len) :
    ExceptRel (fun _ _ => True) (s.vmCompile 0) (split rand s cores) := by
  unfold split
  by_cases hempty : s.vm.isVmEmpty = true
  · have hok : s.vmCompile 0 = .ok s := by
      unfold TrexStream.vmCompile compile
      rw [StreamVm.isVmEmpty] at hempty
      rw [if_pos hempty]
      rfl
    rw [if_pos hempty, hok]
    trivial
  · rw [if_neg hempty]
    rcases splitInternal_cases rand s.vm cores with hnone | ⟨k, x, instr, min, range, hk, hshape,
      hsplit⟩
    · rw [hnone, ok_bind]
      have hsame := vmCompile_shape s s (forall₂_shape_refl s.vm.instList) rfl 0 (rand 0)
      cases hc : s.vmCompile 0 with
      | ok s' =>
        obtain ⟨s'', hs'', -⟩ := hsame.ok_left hc
        simp only [hs'']
        trivial
      | error e =>
        rw [hc] at hsame
        cases hc' : s.vmCompile (rand 0) with
        | ok s'' =>
          rw [hc'] at hsame
          exact absurd hsame id
        | error e' =>
          rw [hc'] at hsame
          exact hsame
    · rw [hsplit]
      obtain ⟨hok, herr⟩ := splitLoop_outcome rand (range / UInt64.ofNat cores.length) hk hshape
        cores 0 min
        (min + range / UInt64.ofNat cores.length + range % UInt64.ofNat cores.length - 1) hlen
      cases hc : s.vmCompile 0 with
      | ok s' =>
        obtain ⟨cores', hcores'⟩ := hok ⟨s', hc⟩
        simp only [splitRange, hcores']
        trivial
      | error e =>
        simp only [splitRange, herr e hc hne]
        rfl

/-- `vm_compile` throws what `StreamVm::compile` throws; the object it makes is only asserted to be
there. -/
theorem vmRefused_iff (s : TrexStream) :
    s.VmRefused ↔ ∃ what, s.vmCompile 0 = .error (.exception what) := by
  unfold TrexStream.VmRefused TrexStream.vmCompile
  cases compile 0 s.vm.instList s.pkt.len with
  | error e =>
    refine exists_congr fun what => ⟨fun h => ?_, fun h => ?_⟩
    · cases h
      rfl
    · cases h
      rfl
  | ok c =>
    refine iff_of_false (fun ⟨_, h⟩ => nomatch h) ?_
    rintro ⟨what, h⟩
    cases c with
    | none => exact nomatch h
    | some c =>
      cases hdp : generateDpObject c with
      | ok dp =>
        simp only [ok_bind, hdp] at h
        exact nomatch h
      | error e =>
        simp only [ok_bind, hdp] at h
        have he : e = .assertFail := by
          simp only [generateDpObject] at hdp
          split at hdp
          · cases hdp
            rfl
          · split at hdp
            · cases hdp
              rfl
            · cases hdp
        subst he
        exact nomatch h

/-! ## 6. The first stream that does not compile -/

section Accepted

variable {ss : List TrexStream} (hwf : WellFormed ss) (hids : ∀ s ∈ ss, s.streamId ≠ deadEndId)

include hwf hids

/-- The numbers of a stream of an accepted list: the assertion fails from the number `2 ^ 31` on,
which is negative as an `int`. -/
theorem newIds_accepted {i : Nat} (hs : ss[i]? = some s) :
    (i < 2 ^ 31 → ∃ ids, InPlace.newIds (nodesOf 0 ss) s = .ok ids)
      ∧ (¬ i < 2 ^ 31 → InPlace.newIds (nodesOf 0 ss) s = .error .assertFail) := by
  have hmem : s ∈ ss := mem_of_getElem? hs
  have hid := getCompressed_nodesOf hwf.unique hs (hids s hmem) 0
  rw [Nat.zero_add] at hid
  -- there are no more ids than 32-bit numbers
  have hcount : ss.length ≤ 2 ^ 32 := by
    have hnd : (ss.map fun s => s.streamId.toNat).Nodup := by
      have hmap := hwf.unique.map (f := UInt32.toNat) fun a b hab => UInt32.toNat_inj.mp hab
      rwa [map_map] at hmap
    have hsub : (ss.map fun s => s.streamId.toNat) ⊆ List.range (2 ^ 32) := by
      intro id hin
      obtain ⟨x, -, rfl⟩ := mem_map.mp hin
      exact mem_range.mpr x.streamId.toNat_lt
    have hle := (hnd.subperm hsub).length_le
    rwa [length_map, length_range] at hle
  have hi : i < 2 ^ 32 := lt_of_lt_of_le (List.getElem?_eq_some_iff.mp hs).1 hcount
  have hsign : Int32.ofNat i < 0 ↔ ¬ i < 2 ^ 31 := by
    rw [Int32.lt_iff_toInt_lt, Int32.toInt_ofNat', Int32.toInt_zero, Int.bmod_def, Int32.size]
    omega
  unfold InPlace.newIds
  simp only [hid, hsign]
  constructor
  · intro hsmall
    have hnext : ∃ v, (if s.nextStreamId ≥ 0 then (nodesOf 0 ss).getCompressed s.nextKey
        else some (-1)) = some v := by
      by_cases hpos : s.nextStreamId ≥ 0
      · rw [if_pos hpos]
        rcases hwf.next s hmem with hone | ⟨s', hs', hkey⟩
        · rw [hone] at hpos
          exact absurd hpos (by decide)
        · obtain ⟨j, hj⟩ := List.getElem?_of_mem hs'
          have hc := getCompressed_nodesOf hwf.unique hj (hids s' hs') 0
          rw [hkey] at hc
          exact ⟨_, hc⟩
      · exact ⟨-1, if_neg hpos⟩
    obtain ⟨v, hv⟩ := hnext
    refine ⟨(Int32.ofNat i, v), ?_⟩
    rw [if_neg (not_not.mpr hsmall), hv]
  · intro hbig
    rw [if_pos hbig]

/-- What `compile_stream` does with a stream, when there are cores. -/
theorem compileStream_outcome (rand : Nat → Nat) (factor : Rat) {n : Nat} (hn : n ≠ 0) {i : Nat}
    (hs : ss[i]? = some s) :
    ((∃ cores, compileStream rand (nodesOf 0 ss) factor n s = .ok cores) ↔ i < 2 ^ 31 ∧ s.VmPasses)
      ∧ ((∃ what, compileStream rand (nodesOf 0 ss) factor n s = .error (.exception what))
        ↔ i < 2 ^ 31 ∧ s.VmRefused) := by
  obtain ⟨hsmall, hbig⟩ := newIds_accepted hwf hids hs
  rw [InPlace.compileStream_eq, vmRefused_iff]
  by_cases hi : i < 2 ^ 31
  · obtain ⟨ids, hidseq⟩ := hsmall hi
    rw [hidseq, ok_bind]
    obtain ⟨hlength, hfresh⟩ := coreStreams_fresh s factor n ids.1 ids.2
    have hne : coreStreams s factor n ids.1 ids.2 ≠ [] := by
      intro hnil
      rw [hnil] at hlength
      exact hn hlength.symm
    have hsame := split_outcome rand hne fun c hc => (hfresh c hc).2
    unfold TrexStream.VmPasses
    cases hc : s.vmCompile 0 with
    | ok s' =>
      obtain ⟨cores, hcores, -⟩ := hsame.ok_left hc
      rw [hcores]
      exact ⟨iff_of_true ⟨cores, rfl⟩ ⟨hi, s', rfl⟩, iff_of_false (fun ⟨_, h⟩ => nomatch h)
        fun ⟨_, _, h⟩ => nomatch h⟩
    | error e =>
      rw [hc] at hsame
      cases hsplit : split rand s (coreStreams s factor n ids.1 ids.2) with
      | ok cores =>
        rw [hsplit] at hsame
        exact absurd hsame id
      | error e' =>
        rw [hsplit] at hsame
        obtain rfl := hsame
        refine ⟨iff_of_false (fun ⟨_, h⟩ => nomatch h) (fun ⟨_, _, h⟩ => nomatch h), ?_⟩
        cases e with
        | exception what => exact iff_of_true ⟨what, rfl⟩ ⟨hi, what, rfl⟩
        | assertFail =>
          exact iff_of_false (fun ⟨_, h⟩ => nomatch h) fun ⟨_, _, h⟩ => nomatch h
  · rw [hbig hi]
    exact ⟨iff_of_false (fun ⟨_, h⟩ => nomatch h) fun h => hi h.1,
      iff_of_false (fun ⟨_, h⟩ => nomatch h) fun h => hi h.1⟩

end Accepted

/-- **No VM is refused**: every enabled stream whose VM is refused comes after one that stops the
process, because its object is empty or because its number is negative as an `int`. -/
def NoneRefused (ss : List TrexStream) : Prop :=
  ∀ pre s post, ss = pre ++ s :: post → pre.length < 2 ^ 31 → (∀ p ∈ pre, p.VmPasses) →
    ¬ s.VmRefused

theorem compileStreams_enabledOf (rand : Nat → Nat → Nat) (nodes : GraphNodeMap) (factor : Rat)
    (n : Nat) :
    ∀ (streams : List TrexStream) (i : Nat),
      compileStreams rand nodes factor n i streams =
        compileStreams rand nodes factor n i (enabledOf streams)
  | [], i => rfl
  | s :: rest, i => by
    cases hen : s.enabled with
    | false =>
      have hfilter : enabledOf (s :: rest) = enabledOf rest := by simp [enabledOf, hen]
      rw [hfilter, ← compileStreams_enabledOf rand nodes factor n rest]
      simp [compileStreams, hen]
    | true =>
      have hfilter : enabledOf (s :: rest) = s :: enabledOf rest := by simp [enabledOf, hen]
      rw [hfilter]
      simp [compileStreams, hen, compileStreams_enabledOf rand nodes factor n rest]

/-- **The loop throws exactly when a VM is refused** that it comes to. -/
theorem compileStreams_refused_iff {ss : List TrexStream} (hwf : WellFormed ss)
    (hids : ∀ s ∈ ss, s.streamId ≠ deadEndId) (hen : ∀ s ∈ ss, s.enabled = true)
    (rand : Nat → Nat → Nat) (factor : Rat) {n : Nat} (hn : n ≠ 0) :
    ∀ (rest done : List TrexStream), ss = done ++ rest → ∀ i : Nat,
      ((∃ what, compileStreams rand (nodesOf 0 ss) factor n i rest = .error (.exception what))
        ↔ ∃ pre s post, rest = pre ++ s :: post ∧ done.length + pre.length < 2 ^ 31
          ∧ (∀ p ∈ pre, p.VmPasses) ∧ s.VmRefused) := by
  intro rest
  induction rest with
  | nil =>
    intro done _ i
    refine iff_of_false (fun h => by obtain ⟨_, h⟩ := h; cases h) ?_
    rintro ⟨pre, s, post, hsplit, -⟩
    exact absurd hsplit.symm (by simp)
  | cons x rest ih =>
    intro done hss i
    have hx : ss[done.length]? = some x := by simp [hss]
    have hxen : x.enabled = true := hen x (by simp [hss])
    obtain ⟨hpass, hrefuse⟩ := compileStream_outcome hwf hids (rand i) factor hn hx
    have hih := ih (done ++ [x]) (by simp [hss]) (i + 1)
    rw [length_append, length_singleton] at hih
    simp only [compileStreams, hxen, Bool.not_true, Bool.false_eq_true, if_false]
    cases hone : compileStream (rand i) (nodesOf 0 ss) factor n x with
    | ok cores =>
      obtain ⟨hsmall, hpasses⟩ := hpass.mp ⟨cores, hone⟩
      have hkept : ¬ x.VmRefused := fun hr => by
        obtain ⟨what, herr⟩ := hrefuse.mpr ⟨hsmall, hr⟩
        rw [hone] at herr
        cases herr
      have hrun : (∃ what, (compileStreams rand (nodesOf 0 ss) factor n (i + 1) rest >>=
          fun others =>
          (.ok (cores :: others) : Except CompileErr (List (List TrexStream)))) =
            .error (.exception what))
          ↔ ∃ what, compileStreams rand (nodesOf 0 ss) factor n (i + 1) rest =
              .error (.exception what) := by
        cases compileStreams rand (nodesOf 0 ss) factor n (i + 1) rest with
        | ok others =>
          refine iff_of_false ?_ ?_
          · rintro ⟨_, h⟩
            cases h
          · rintro ⟨_, h⟩
            cases h
        | error e => exact Iff.rfl
      rw [ok_bind]
      refine hrun.trans (hih.trans ?_)
      constructor
      · rintro ⟨pre, s, post, rfl, hlt, hpre, hs⟩
        refine ⟨x :: pre, s, post, rfl, ?_, ?_, hs⟩
        · rw [length_cons]
          omega
        · exact forall_mem_cons.mpr ⟨hpasses, hpre⟩
      · rintro ⟨pre, s, post, hsplit, hlt, hpre, hs⟩
        cases pre with
        | nil =>
          rw [nil_append, List.cons.injEq] at hsplit
          exact absurd (hsplit.1 ▸ hs) hkept
        | cons p pre =>
          rw [cons_append, List.cons.injEq] at hsplit
          rw [length_cons] at hlt
          exact ⟨pre, s, post, hsplit.2, by omega, (forall_mem_cons.mp hpre).2, hs⟩
    | error e =>
      have hstop : ¬ (done.length < 2 ^ 31 ∧ x.VmPasses) := fun h => by
        obtain ⟨cores, hok⟩ := hpass.mpr h
        rw [hone] at hok
        cases hok
      have hrun : (∃ what, ((Except.error e : Except CompileErr (List TrexStream)) >>= fun cores =>
          compileStreams rand (nodesOf 0 ss) factor n (i + 1) rest >>= fun others =>
            .ok (cores :: others)) = .error (.exception what)) ↔ ∃ what, e = .exception what := by
        refine exists_congr fun what => ⟨fun h => ?_, fun h => ?_⟩
        · cases h
          rfl
        · rw [h]
          rfl
      refine hrun.trans ?_
      rw [hone] at hrefuse
      constructor
      · rintro ⟨what, rfl⟩
        obtain ⟨hsmall, hr⟩ := hrefuse.mp ⟨what, rfl⟩
        exact ⟨[], x, rest, rfl, by simpa using hsmall, fun p hp => absurd hp not_mem_nil, hr⟩
      · rintro ⟨pre, s, post, hsplit, hlt, hpre, hs⟩
        cases pre with
        | nil =>
          rw [nil_append, List.cons.injEq] at hsplit
          obtain ⟨what, hwhat⟩ := hrefuse.mpr ⟨by simpa using hlt, hsplit.1 ▸ hs⟩
          exact ⟨what, Except.error.inj hwhat⟩
        | cons p pre =>
          rw [cons_append, List.cons.injEq] at hsplit
          rw [length_cons] at hlt
          have hp : x.VmPasses := hsplit.1 ▸ hpre p mem_cons_self
          exact absurd ⟨by omega, hp⟩ hstop

/-! ## 7. What a failure leaves -/

namespace InPlace

/-- The objects are the same. -/
def SameObjs (f f' : Focus) : Prop := f'.objs = f.objs

theorem SameObjs.refl (f : Focus) : SameObjs f f := rfl

theorem SameObjs.trans {f f' f'' : Focus} (h : SameObjs f f') (h' : SameObjs f' f'') :
    SameObjs f f'' :=
  Eq.trans h' h

/-- There are as many objects. -/
def SameCount (f f' : Focus) : Prop := f'.objs.length = f.objs.length

theorem SameCount.refl (f : Focus) : SameCount f f := rfl

theorem SameCount.trans {f f' f'' : Focus} (h : SameCount f f') (h' : SameCount f' f'') :
    SameCount f f'' :=
  Eq.trans h' h

theorem onScratch_always (x : EStateM VmErr VmScratch Unit) : Always SameObjs (onScratch x) := by
  intro f
  unfold onScratch
  cases x f.given.scratch with
  | ok u v => rfl
  | error e v => rfl

theorem vmCompile_always (rand : Nat) : Always SameObjs (vmCompile rand) := by
  refine Always.bind SameObjs.trans (always_get SameObjs.refl) fun f => ?_
  refine Always.bind SameObjs.trans (onScratch_always _) fun _ => ?_
  refine Always.bind SameObjs.trans (always_get SameObjs.refl) fun f => ?_
  refine Always.bind SameObjs.trans (always_fromExcept SameObjs.refl _) fun dp => ?_
  exact always_modify fun _ => rfl

theorem split_always (rand : Nat → Nat) (cores : List TrexStream) :
    Always SameObjs (split rand cores) := by
  refine Always.bind SameObjs.trans (always_get SameObjs.refl) fun f => ?_
  split
  · exact always_pure SameObjs.refl _
  · refine Always.bind SameObjs.trans (always_fromExcept SameObjs.refl _) fun r => ?_
    cases r with
    | some cores' => exact always_pure SameObjs.refl _
    | none =>
      refine Always.bind SameObjs.trans (vmCompile_always _) fun _ => ?_
      refine Always.bind SameObjs.trans (always_get SameObjs.refl) fun f' => ?_
      refine Always.bind SameObjs.trans (always_modify fun _ => rfl) fun _ => ?_
      exact always_pure SameObjs.refl _

/-- `compile_stream` adds no object. -/
theorem compileStream_always (rand : Nat → Nat) (nodes : GraphNodeMap) (factor : Rat) (n : Nat) :
    Always SameCount (compileStream rand nodes factor n) := by
  refine Always.bind SameCount.trans (always_get SameCount.refl) fun f => ?_
  refine Always.bind SameCount.trans (always_fromExcept SameCount.refl _) fun ids => ?_
  refine Always.bind SameCount.trans (always_throwIf SameCount.refl _ _) fun _ => ?_
  refine Always.bind SameCount.trans ((split_always _ _).mono fun _ _ h => congrArg List.length h)
    fun cores => ?_
  exact always_modify fun f => length_attach f.objs cores

theorem keep_objs {α : Type} (g : Given) (r : EStateM.Result CompileStop CompilerState α) :
    (stateOf (keep g r)).objs = (stateOf r).objs := by
  cases r <;> rfl

/-- **The objects stay**, however the loop ends. -/
theorem compileStreams_length (rand : Nat → Nat → Nat) (nodes : GraphNodeMap) (factor : Rat)
    (n : Nat) :
    ∀ (gs : List Given) (i : Nat) (objs : List TrexStreamsCompiledObj),
      (stateOf (compileStreams rand nodes factor n i objs gs)).objs.length = objs.length
  | [], i, objs => rfl
  | g :: rest, i, objs => by
    unfold compileStreams
    split
    · rw [keep_objs, compileStreams_length rand nodes factor n rest]
    · have hone := compileStream_always (rand i) nodes factor n ⟨objs, g⟩
      split
      · rename_i e f hrun
        rw [hrun] at hone
        exact hone
      · rename_i u f hrun
        rw [hrun] at hone
        rw [keep_objs, compileStreams_length rand nodes factor n rest]
        exact hone

/-- An exception that ends the loop came from one of its streams. -/
theorem keep_error {α : Type} {g : Given} {r : EStateM.Result CompileStop CompilerState α}
    {e : CompileStop} {st : CompilerState} (h : keep g r = .error e st) :
    ∃ st', r = .error e st' := by
  cases r with
  | ok a st' => cases h
  | error e' st' =>
    cases h
    exact ⟨st', rfl⟩

theorem newIds_error {nodes : GraphNodeMap} {e : CompileErr} (h : newIds nodes s = .error e) :
    e = .assertFail := by
  unfold newIds at h
  split at h
  · cases h
    rfl
  · split at h
    · cases h
      rfl
    · split at h
      · cases h
        rfl
      · cases h

/-- Without cores the division stops the process, before any VM is compiled. -/
theorem compileStream_noCores (rand : Nat → Nat) (nodes : GraphNodeMap) (factor : Rat) (f : Focus) :
    ∃ e f', compileStream rand nodes factor 0 f = .error e f' ∧
        ∀ what, e ≠ .err (.exception what) := by
  unfold compileStream
  rw [get_bind]
  cases hids : newIds nodes f.given.stream with
  | error e =>
    obtain rfl := newIds_error hids
    exact ⟨_, f, rfl, fun what h => nomatch h⟩
  | ok ids => exact ⟨.divByZero, f, rfl, fun what h => nomatch h⟩

theorem compileStreams_noCores (rand : Nat → Nat → Nat) (nodes : GraphNodeMap) (factor : Rat)
    (what : String) :
    ∀ (gs : List Given) (i : Nat) (objs : List TrexStreamsCompiledObj) (st : CompilerState),
      compileStreams rand nodes factor 0 i objs gs ≠ .error (.err (.exception what)) st
  | [], i, objs, st => fun h => nomatch h
  | g :: rest, i, objs, st => by
    unfold compileStreams
    intro h
    split at h
    · obtain ⟨st', hst'⟩ := keep_error h
      exact compileStreams_noCores rand nodes factor what rest i objs st' hst'
    · obtain ⟨e, f, hrun, he⟩ := compileStream_noCores (rand i) nodes factor ⟨objs, g⟩
      rw [hrun] at h
      cases h
      exact he what rfl

/-- **When a failed compilation changes nothing.**  `compile` that returns false has left the vector
and the streams as they were exactly when the checks of the graph reject the list, or there are no
cores, or no VM is refused: then it does not return false. -/
theorem compile_failure_atomic_iff (rand : Nat → Nat → Nat) (portId n : UInt8) (factor : Rat)
    (st : CompilerState) :
    (∀ text st', compile rand portId n factor st = .ok (false, text) st' → st' = st)
      ↔ (∃ e, preCompileCheck (st.streams.map Given.stream) = .error e) ∨ n = 0
        ∨ NoneRefused (enabledOf (st.streams.map Given.stream)) := by
  -- `compile` returns false for the exceptions of `compile_internal`
  have hcatch : ∀ text st', compile rand portId n factor st = .ok (false, text) st' ↔
      compileInternal rand portId n factor st = .error (.err (.exception text)) st' := by
    intro text st'
    unfold compile
    constructor
    · intro h
      split at h
      · cases h
      · rename_i what st'' hrun
        cases h
        exact hrun
      · cases h
    · intro h
      rw [h]
  cases hcheck : preCompileCheck (st.streams.map Given.stream) with
  | error e =>
    refine iff_of_true (fun text st' h => ?_) (Or.inl ⟨e, rfl⟩)
    rw [hcatch, compileInternal, hcheck] at h
    cases h
    rfl
  | ok res =>
    obtain ⟨nodes, warnings⟩ := res
    obtain ⟨rfl, hwf, hids⟩ := accepted hcheck
    simp only [hcatch, compileInternal, hcheck]
    generalize hobjs : st.objs ++
      List.replicate n.toNat (newObj portId (st.streams.map Given.stream)) = objs
    have hrejected : ¬ ∃ e, (Except.ok (nodesOf 0 (enabledOf (st.streams.map Given.stream)),
        warnings) :
        Except CompileErr (GraphNodeMap × List String)) = .error e := fun ⟨_, h⟩ => nomatch h
    by_cases hn : n = 0
    · refine iff_of_true (fun text st' h => ?_) (Or.inr (Or.inl hn))
      rw [hn] at h
      exact absurd h (compileStreams_noCores _ _ _ _ _ _ _ _)
    · have hn' : n.toNat ≠ 0 := fun h => hn (UInt8.toNat_inj.mp h)
      have hfollows := compileStreams_follows rand
        (nodesOf 0 (enabledOf (st.streams.map Given.stream))) factor hn' st.streams 0 objs
      rw [compileStreams_enabledOf] at hfollows
      have hrefused := compileStreams_refused_iff hwf hids
        (fun s hs => (mem_filter.mp hs).2) rand factor hn' (enabledOf (st.streams.map Given.stream))
          []
        rfl 0
      have hgrown := compileStreams_length rand
        (nodesOf 0 (enabledOf (st.streams.map Given.stream))) factor n.toNat st.streams 0 objs
      rw [or_iff_right hrejected, or_iff_right hn]
      constructor
      · -- a VM that is refused leaves more objects than there were
        intro hatomic pre s post hsplit hsmall hpre hs
        obtain ⟨what, herr⟩ := hrefused.mpr ⟨pre, s, post, hsplit, by simpa using hsmall, hpre, hs⟩
        obtain ⟨st', hst'⟩ := (hfollows.error_iff (.err (.exception what))).mpr (by rw [herr]; rfl)
        rw [hst', ← hobjs, length_append, length_replicate] at hgrown
        have hsame : st' = st := hatomic what st' (hobjs ▸ hst')
        rw [stateOf, hsame] at hgrown
        omega
      · intro hnone text st' h
        have herr := (hfollows.error_iff (.err (.exception text))).mp ⟨st', hobjs ▸ h⟩
        obtain ⟨what, hwhat⟩ : ∃ what, Trex.Stream.compileStreams rand
            (nodesOf 0 (enabledOf (st.streams.map Given.stream))) factor n.toNat 0
            (enabledOf (st.streams.map Given.stream)) = .error (.exception what) := by
          cases hpure : Trex.Stream.compileStreams rand
              (nodesOf 0 (enabledOf (st.streams.map Given.stream))) factor n.toNat 0
              (enabledOf (st.streams.map Given.stream)) with
          | ok lists =>
            rw [hpure] at herr
            cases herr
          | error e =>
            rw [hpure] at herr
            cases herr
            exact ⟨text, rfl⟩
        obtain ⟨pre, s, post, hsplit, hlt, hpre, hs⟩ := hrefused.mp ⟨what, hwhat⟩
        exact absurd hs (hnone pre s post hsplit (by simpa using hlt) hpre)

/-- A stream whose VM writes a variable that it does not have. -/
def unknownVar : TrexStream :=
  { plainStream 7 (-1) true true with
    vm := ⟨[.flowMan ⟨"a", 1, .INC, 0, 0, 9⟩, .pktWr ⟨"b", 0, 0, true⟩], none⟩, pkt := ⟨[], 64⟩ }

/-- **A refused VM leaves an object in the vector**, and what was compiled of it in the stream. -/
theorem refused_vm_leaves_object : ∃ text st',
    compile (fun _ _ => 0) 0 1 1 ⟨[], [⟨unknownVar, {}⟩]⟩ = .ok (false, text) st'
      ∧ st'.objs.length = 1 ∧ (st'.streams.map Given.scratch).map VmScratch.bss = [some [9]] := by
  refine ⟨_, _, rfl, ?_, ?_⟩
  · decide +kernel
  · decide +kernel

end InPlace

end Trex.Stream
