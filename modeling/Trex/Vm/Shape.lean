/-
# The shape of a program

Whether a list of instructions compiles does not depend on the values of its variables: two lists
that differ in ranges and initial values only are refused with the same text, or give objects of the
same sizes.
-/
import Mathlib.Data.List.Forall2
import Trex.Vm.Compile

namespace Trex.Vm

open Trex.Lib

/-- Two instructions that differ in the values of a variable only. -/
inductive SameShape : Instr → Instr → Prop
  | refl (x : Instr) : SameShape x x
  | flowMan {i i' : FlowMan} (name : i'.varName = i.varName) (size : i'.sizeBytes = i.sizeBytes)
      (op : i'.op = i.op) : SameShape (.flowMan i) (.flowMan i')
  | flowClient {i i' : FlowClient} (name : i'.varName = i.varName) (flags : i'.flags = i.flags) :
      SameShape (.flowClient i) (.flowClient i')

section Shape

variable {x x' : Instr} {insts insts' : List Instr}

/-! ## 1. One instruction -/

theorem SameShape.isRandomInstr (h : SameShape x x') : isRandomInstr x' = isRandomInstr x := by
  cases h with
  | refl => rfl
  | flowMan name size op => simp only [Trex.Vm.isRandomInstr, op]
  | flowClient name flags => rfl

theorem SameShape.addVars (h : SameShape x x') (insId : Nat) (t : VarTable) :
    addVars insId t x' = addVars insId t x := by
  cases h with
  | refl => rfl
  | flowMan name size op => simp only [Trex.Vm.addVars, FlowMan.sanityCheck, name, size]
  | flowClient name flags => simp only [Trex.Vm.addVars, name]

theorem SameShape.bssBytes (h : SameShape x x') :
    ExceptRel (fun _ _ => True) (bssBytes x) (bssBytes x') := by
  cases h with
  | refl =>
    cases bssBytes x with
    | ok b => trivial
    | error e => rfl
  | @flowMan i i' name size op =>
    simp only [Trex.Vm.bssBytes, size]
    cases Width.ofSize i.sizeBytes.toNat with
    | some w => trivial
    | none => rfl
  | flowClient name flags => trivial

/-- What is the same in the commands of two instructions: the field, and how many bytes they
take. -/
def SameSize (a b : Nat × List DpOp) : Prop :=
  b.1 = a.1 ∧ (b.2.flatMap DpOp.bytes).length = (a.2.flatMap DpOp.bytes).length

theorem exceptRel_refl {ε α : Type} {R : α → α → Prop} (hrefl : ∀ a, R a a) (y : Except ε α) :
    ExceptRel R y y := by
  cases y with
  | ok a => exact hrefl a
  | error e => rfl

theorem SameShape.buildCommand (h : SameShape x x') (t : VarTable) (pktSize insId : Nat) :
    ExceptRel SameSize (buildCommand t pktSize insId x) (buildCommand t pktSize insId x') := by
  cases h with
  | refl => exact exceptRel_refl (fun _ => ⟨rfl, rfl⟩) _
  | @flowMan i i' name size op =>
    simp only [Trex.Vm.buildCommand, name, size, op]
    cases Width.ofSize i.sizeBytes.toNat with
    | none => exact ⟨rfl, rfl⟩
    | some w =>
      refine (exceptRel_refl (R := Eq) (fun _ => rfl) _).bind fun off off' hoff => ⟨rfl, ?_⟩
      simp [DpOp.length_bytes, DpOp.fields]
  | @flowClient i i' name flags =>
    have hflows : i'.isUnlimitedFlows = i.isUnlimitedFlows := by
      simp only [FlowClient.isUnlimitedFlows, flags]
    simp only [Trex.Vm.buildCommand, name, hflows]
    refine (exceptRel_refl (R := Eq) (fun _ => rfl) _).bind fun off off' hoff => ?_
    cases i.isUnlimitedFlows with
    | true => exact ⟨rfl, by simp [DpOp.length_bytes, DpOp.fields]⟩
    | false => exact ⟨rfl, by simp [DpOp.length_bytes, DpOp.fields]⟩

/-! ## 2. The passes -/

theorem anyRandom_shape (h : List.Forall₂ SameShape insts insts') :
    insts'.any isRandomInstr = insts.any isRandomInstr := by
  induction h with
  | nil => rfl
  | cons hx _ ih => rw [List.any_cons, List.any_cons, hx.isRandomInstr, ih]

theorem addAllVars_shape (h : List.Forall₂ SameShape insts insts') :
    ∀ (insId : Nat) (t : VarTable), addAllVars insId t insts' = addAllVars insId t insts := by
  induction h with
  | nil => exact fun _ _ => rfl
  | cons hx _ ih =>
    intro insId t
    simp only [addAllVars, hx.addVars, ih]

/-- The variables lie at the same places. -/
theorem buildFlowVarTable_shape (h : List.Forall₂ SameShape insts insts') :
    buildFlowVarTable insts' = buildFlowVarTable insts := by
  have hinit : initVarTable insts' = initVarTable insts := by
    simp only [initVarTable, anyRandom_shape h]
  rw [buildFlowVarTable, hinit, addAllVars_shape h, buildFlowVarTable]

theorem bssAll_shape (h : List.Forall₂ SameShape insts insts') :
    ExceptRel (fun _ _ => True) (bssAll insts) (bssAll insts') := by
  induction h with
  | nil => trivial
  | cons hx _ ih => exact hx.bssBytes.bind fun _ _ _ => ih.bind fun _ _ _ => trivial

theorem buildCommands_shape (h : List.Forall₂ SameShape insts insts') (t : VarTable)
    (pktSize : Nat) :
    ∀ insId : Nat, ExceptRel SameSize (buildCommands t pktSize insId insts)
      (buildCommands t pktSize insId insts') := by
  induction h with
  | nil => exact fun _ => ⟨rfl, rfl⟩
  | cons hx _ ih =>
    intro insId
    refine (hx.buildCommand t pktSize insId).bind fun a b hab => ?_
    refine (ih (insId + 1)).bind fun as bs habs => ⟨?_, ?_⟩
    · simp only [hab.1, habs.1]
    · simp [hab.2, habs.2]

/-! ## 3. The whole compilation -/

/-- What two compiled VMs of one shape have in common. -/
structure SameSizes (c c' : CompiledVm) : Prop where
  table : c'.table = c.table
  program : c'.program.length = c.program.length
  maxField : c'.maxFieldUpdate = c.maxFieldUpdate
  writable : c'.prefixSize = c.prefixSize

/-- Both are left uncompiled, or both are compiled to VMs of the same sizes. -/
def SameCompiled : Option CompiledVm → Option CompiledVm → Prop
  | none, none => True
  | some c, some c' => SameSizes c c'
  | _, _ => False

/-- **Whether a list compiles depends on its shape.** -/
theorem compile_shape (h : List.Forall₂ SameShape insts insts') (rand rand' : Nat)
    (pktLen : UInt16) :
    ExceptRel SameCompiled (compile rand insts pktLen) (compile rand' insts' pktLen) := by
  have hempty : insts'.isEmpty = insts.isEmpty := by
    cases h <;> rfl
  unfold compile
  rw [hempty, buildFlowVarTable_shape h]
  split
  · trivial
  · refine (exceptRel_refl (R := Eq) (fun _ => rfl) _).bind fun t t' ht => ?_
    subst ht
    have hbss : ExceptRel (fun _ _ => True) (buildBss rand t insts) (buildBss rand' t insts') :=
      (bssAll_shape h).bind fun _ _ _ => trivial
    refine hbss.bind fun bss bss' _ => ?_
    have hprogram : ExceptRel (fun a b : Nat × List UInt8 => b.1 = a.1 ∧ b.2.length = a.2.length)
        (buildProgram t pktLen.toNat insts) (buildProgram t pktLen.toNat insts') :=
      (buildCommands_shape h t pktLen.toNat 0).bind fun _ _ hab => hab
    refine hprogram.bind fun a b hab => ?_
    obtain ⟨hmax, hlen⟩ := hab
    simp only [hmax]
    split
    · rfl
    · exact ⟨rfl, hlen, rfl, rfl⟩

end Shape

end Trex.Vm
