/-
# What a VM program means: instructions on named variables

The source of a VM program is a list of instructions over variables that have names.  This file
gives that list a meaning of its own, with no offsets, no bytes and no op-codes: an environment
maps each name to a number, and the instructions change the environment and the packet one
after the other.  A variable of `s` bytes holds a number below `256 ^ s`, and the bounds and
the added value of an instruction are read modulo that.

`declared` lists the variables of a program in the order in which the list declares them; the
seed of the random instructions is a variable like the others, the first one.  A packet write
may name a variable that is declared behind it, so the size of a variable is a property of
the whole list (`varSize`).
-/
import Trex.Vm.Compile

namespace Trex.Vm

open Trex.Lib Trex.Net

/-! ## 1. Variables -/

/-- A variable with its size in bytes and the value it starts with. -/
structure VarDecl where
  name : String
  size : Nat
  init : Nat
deriving DecidableEq, Repr

/-- The variables that one instruction declares. -/
def declares : Instr → List VarDecl
  | .flowMan i => [⟨i.varName, i.sizeBytes.toNat, i.getBssInitValue.toNat⟩]
  | .flowClient i =>
    [⟨i.varName ++ ".ip", 4, i.bssIp⟩, ⟨i.varName ++ ".port", 2, i.bssPort⟩,
      ⟨i.varName ++ ".flow_limit", 4, 0⟩]
  | _ => []

/-- The variables of a program; `rand` is the first seed. -/
def declared (rand : Nat) (insts : List Instr) : List VarDecl :=
  (if insts.any isRandomInstr then [⟨randomVarName, 4, rand⟩] else []) ++ insts.flatMap declares

/-- The values of the variables. -/
abbrev Env := String → Nat

/-- The environment with one variable changed. -/
def Env.set (env : Env) (name : String) (v : Nat) : Env :=
  fun n => if n = name then v else env n

@[simp] theorem Env.set_same (env : Env) (name : String) (v : Nat) : env.set name v name = v := by
  simp [Env.set]

theorem Env.set_ne (env : Env) {name n : String} (v : Nat) (h : n ≠ name) :
    env.set name v n = env n := by
  simp [Env.set, h]

/-- The declaration of a name. -/
def declOf (insts : List Instr) (name : String) : Option VarDecl :=
  (declared 0 insts).find? fun d => d.name == name

/-- The size of the variable with a name. -/
def varSize (insts : List Instr) (name : String) :
    Option Nat := (declOf insts name).map VarDecl.size

/-- The environment a program starts in. -/
def initVars (rand : Nat) (insts : List Instr) : Env := fun name =>
  match (declared rand insts).find? fun d => d.name == name with
  | some d => d.init % 256 ^ d.size
  | none => 0

/-! ## 2. Instructions -/

/-- The variables and the packet. -/
structure NamedState where
  vars : Env
  pkt : Mem

/-- The bounds of a flow variable, as numbers of its size. -/
def FlowMan.lo (i : FlowMan) : Nat := i.minValue.toNat % 256 ^ i.sizeBytes.toNat

@[inherit_doc FlowMan.lo]
def FlowMan.hi (i : FlowMan) : Nat := i.maxValue.toNat % 256 ^ i.sizeBytes.toNat

/-- The value behind `v` of a counter that runs upwards. -/
def FlowMan.incVal (i : FlowMan) (v : Nat) : Nat :=
  if v = i.hi then i.lo else (v + 1) % 256 ^ i.sizeBytes.toNat

/-- The value behind `v` of a counter that runs downwards. -/
def FlowMan.decVal (i : FlowMan) (v : Nat) : Nat :=
  if v = i.lo then i.hi else (v + 256 ^ i.sizeBytes.toNat - 1) % 256 ^ i.sizeBytes.toNat

/-- The number of values a random instruction draws from, as its op-code computes it. -/
def FlowMan.span (i : FlowMan) : Nat :=
  match Width.ofSize i.sizeBytes.toNat with
  | some w => randSpan w i.lo i.hi
  | none => 0

/-- One draw of a random instruction: the value and the new seed. -/
def FlowMan.draw (i : FlowMan) (seed : Nat) : Nat × Nat :=
  match Width.ofSize i.sizeBytes.toNat with
  | some w =>
    let r := vmRand w seed
    ((i.lo + r.1 % i.span) % 256 ^ i.sizeBytes.toNat, r.2)
  | none => (0, seed)

/-- The three variables of a client instruction. -/
def FlowClient.get (i : FlowClient) (env : Env) : FlowClientVar :=
  ⟨env (i.varName ++ ".ip"), env (i.varName ++ ".port"), env (i.varName ++ ".flow_limit")⟩

/-- Change the three variables of a client instruction. -/
def FlowClient.put (i : FlowClient) (env : Env) (v : FlowClientVar) : Env :=
  ((env.set (i.varName ++ ".ip") v.curIp).set (i.varName ++ ".port") v.curPort).set
    (i.varName ++ ".flow_limit") v.curFlowId

/-- The next client of a client instruction. -/
def FlowClient.next (i : FlowClient) (v : FlowClientVar) : FlowClientVar :=
  if i.isUnlimitedFlows then clientsUnLimitRun i.clientMin.toNat i.clientMax.toNat v
  else clientsLimitRun i.portMin.toNat i.portMax.toNat i.clientMin.toNat i.clientMax.toNat
    i.limitNumFlows.toNat v

/-- The bytes that a packet write puts, for a variable of `size` bytes with value `v`. -/
def WriteToPkt.bytes (i : WriteToPkt) (size v : Nat) : List UInt8 :=
  let l := toBytes size (v + signedBits size i.addValue)
  if i.isBigEndian then l.reverse else l

/-- **One instruction.**  A random instruction with an empty span stops with a division by
zero; nothing else stops. -/
def Instr.exec (insts : List Instr) : Instr → NamedState → Except Fault NamedState
  | .flowMan i, s =>
    match i.op with
    | .INC => .ok { s with vars := s.vars.set i.varName (i.incVal (s.vars i.varName)) }
    | .DEC => .ok { s with vars := s.vars.set i.varName (i.decVal (s.vars i.varName)) }
    | .RANDOM =>
      if i.span = 0 then .error .divByZero
      else
        let r := i.draw (s.vars randomVarName)
        .ok { s with vars := (s.vars.set randomVarName r.2).set i.varName r.1 }
  | .flowClient i, s => .ok { s with vars := i.put s.vars (i.next (i.get s.vars)) }
  | .pktWr i, s =>
    match varSize insts i.flowVarName with
    | some size =>
      .ok { s with pkt := s.pkt.putBytes i.pktOffset.toNat (i.bytes size (s.vars i.flowVarName)) }
    | none => .ok s
  | .fixIpv4Cs i, s => .ok { s with pkt := updateCheckSum s.pkt i.pktOffset.toNat }

/-- The instructions one after the other; `insts` is the program they belong to. -/
def execFrom (insts : List Instr) : List Instr → NamedState → Except Fault NamedState
  | [], s => .ok s
  | i :: rest, s => do
    let s' ← i.exec insts s
    execFrom insts rest s'

/-- The whole list, in list order. -/
def execAll (insts : List Instr) (s : NamedState) : Except Fault NamedState :=
  execFrom insts insts s

/-! ## 3. When a program runs to its end -/

/-- No random instruction of the list has an empty span. -/
def SpansNonzero (insts : List Instr) : Prop :=
  ∀ i, Instr.flowMan i ∈ insts → i.op = .RANDOM → i.span ≠ 0

/-- An instruction stops exactly when it is a random one with an empty span. -/
theorem exec_ok_iff (insts : List Instr) (inst : Instr) (s : NamedState) :
    (∃ s', inst.exec insts s = .ok s') ↔ SpansNonzero [inst] := by
  constructor
  · rintro ⟨s', hs'⟩ i hi hop hspan
    obtain rfl := List.mem_singleton.mp hi
    simp [Instr.exec, hop, hspan] at hs'
  · intro h
    cases inst with
    | flowMan i =>
      cases hop : i.op with
      | INC => exact ⟨_, by simp only [Instr.exec, hop]; rfl⟩
      | DEC => exact ⟨_, by simp only [Instr.exec, hop]; rfl⟩
      | RANDOM =>
        have hspan : i.span ≠ 0 := h i (by simp) hop
        exact ⟨_, by simp only [Instr.exec, hop, if_neg hspan]; rfl⟩
    | flowClient i => exact ⟨_, rfl⟩
    | fixIpv4Cs i => exact ⟨_, rfl⟩
    | pktWr i =>
      cases hv : varSize insts i.flowVarName with
      | some size => exact ⟨_, by simp only [Instr.exec, hv]; rfl⟩
      | none => exact ⟨_, by simp only [Instr.exec, hv]; rfl⟩

/-- **A program runs to its end exactly when no random instruction has an empty span.** -/
theorem execFrom_ok_iff (insts : List Instr) : ∀ (rest : List Instr) (s : NamedState),
    (∃ s', execFrom insts rest s = .ok s') ↔ SpansNonzero rest
  | [], s => by
    constructor
    · intro _ i hi
      exact absurd hi (by simp)
    · intro _
      exact ⟨s, rfl⟩
  | inst :: rest, s => by
    have hsplit : SpansNonzero (inst :: rest) ↔ SpansNonzero [inst] ∧ SpansNonzero rest := by
      simp only [SpansNonzero, List.mem_cons, List.not_mem_nil, or_false]
      constructor
      · exact fun h => ⟨fun i hi => h i (Or.inl hi), fun i hi => h i (Or.inr hi)⟩
      · rintro ⟨h1, h2⟩ i (hi | hi)
        · exact h1 i hi
        · exact h2 i hi
    rw [hsplit]
    constructor
    · rintro ⟨s', hs'⟩
      obtain ⟨s1, h1, h2⟩ := bind_eq_ok hs'
      exact ⟨(exec_ok_iff insts inst s).mp ⟨s1, h1⟩, (execFrom_ok_iff insts rest s1).mp ⟨s', h2⟩⟩
    · rintro ⟨h1, h2⟩
      obtain ⟨s1, hs1⟩ := (exec_ok_iff insts inst s).mpr h1
      obtain ⟨s', hs'⟩ := (execFrom_ok_iff insts rest s1).mpr h2
      refine ⟨s', ?_⟩
      simp only [execFrom, hs1]
      exact hs'

end Trex.Vm
