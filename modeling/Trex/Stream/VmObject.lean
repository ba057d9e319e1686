/-
# The copies of a compiled VM

`generate_dp_object` copies the BSS and the program of a compiled VM into a `StreamVmDp`; `clone`
copies this object for every core and once more for every data-plane node, and the node takes a copy
of the BSS and the size of the program (`add_stream`).  The constructor of `StreamVmDp` makes all
these copies.  Its sizes are 16-bit, the size of a program is 32-bit, and it asserts that a section
which is there is not empty.

So the copies are whole, and no assertion fails, exactly when the list declares a variable and its
commands take less than `2 ^ 16` bytes (`dp_object_faithful_iff`).
-/
import Mathlib.Algebra.Order.BigOperators.Group.List
import Trex.Stream.Stream
import Trex.Vm.Layout

namespace Trex.Stream

open Trex.Lib Trex.Vm List

/-! ## 1. The constructor -/

/-- What the constructor does with a section: `assert(size)` and a copy, unless the pointer is
null. -/
def copySection : Option (List UInt8) → UInt16 → Except VmErr (List UInt8)
  | none, _ => .ok []
  | some buffer, size => if size = 0 then .error .assertFail else .ok (buffer.take size.toNat)

/-- The constructor of `StreamVmDp`. -/
def StreamVmDp.construct (bss : Option (List UInt8)) (bssSize : UInt16) (prog : Option (List UInt8))
    (progSize : UInt16) (maxPktOffset prefixSize : Nat) : Except VmErr StreamVmDp := do
  let bss ← copySection bss bssSize
  let program ← copySection prog progSize
  .ok ⟨bss, program, maxPktOffset, prefixSize⟩

/-- **`generate_dp_object` calls the constructor**, with `m_cur_var_offset` and with the size of the
program, which is a `uint32_t`, as `uint16_t`s. -/
theorem generateDpObject_eq (c : CompiledVm) : generateDpObject c
    = StreamVmDp.construct (some c.bss) (.ofNat c.table.curVarOffset) (some c.program)
        (.ofNat c.program.length) c.maxFieldUpdate c.prefixSize := by
  have hzero : ∀ n : Nat, UInt16.ofNat n = 0 ↔ n % 2 ^ 16 = 0 := by
    intro n
    rw [← UInt16.toNat_inj]
    simp
  simp only [generateDpObject, StreamVmDp.construct, copySection, hzero, UInt16.toNat_ofNat', bind,
    Except.bind]
  split
  · rfl
  · split <;> rfl

namespace StreamVmDp

/-- A section of the object: its pointer is null if it is empty. -/
def sectionPtr (bytes : List UInt8) : Option (List UInt8) := if bytes = [] then none else some bytes

/-- `clone`. -/
def clone (d : StreamVmDp) : Except VmErr StreamVmDp :=
  construct (sectionPtr d.bss) (.ofNat d.bss.length) (sectionPtr d.program)
    (.ofNat d.program.length) d.maxPktOffsetChange d.prefixSize

/-- `clone_bss`. -/
def cloneBss (d : StreamVmDp) : Except VmErr (List UInt8) :=
  if 0 < d.bss.length then .ok d.bss else .error .assertFail

/-- Clones of clones. -/
def cloneTimes : Nat → StreamVmDp → Except VmErr StreamVmDp
  | 0, d => .ok d
  | n + 1, d => do
    let d ← d.clone
    cloneTimes n d

end StreamVmDp

/-- The VM of a data-plane node: `m_vm_flow_var`, `m_vm_program` and `m_vm_program_size`. -/
structure NodeVm where
  flowVar : List UInt8
  program : List UInt8
  programSize : UInt16
deriving DecidableEq, Repr

/-- What `add_stream` sets of it. -/
def nodeVm (d : StreamVmDp) : Except VmErr NodeVm := do
  let flowVar ← d.cloneBss
  .ok ⟨flowVar, d.program, .ofNat d.program.length⟩

/-- **The copies of a compiled VM are whole**: the object is made, it has the whole BSS and the
whole program, it can be cloned as often as it takes, and a node that gets it has all of them
too. -/
def Faithful (c : CompiledVm) : Prop :=
  ∃ d, generateDpObject c = .ok d ∧ d.bss = c.bss ∧ d.program = c.program
    ∧ (∀ n, d.cloneTimes n = .ok d)
    ∧ ∃ node, nodeVm d = .ok node ∧ node.flowVar = c.bss ∧ node.program = c.program
      ∧ node.programSize.toNat = c.program.length

/-! ## 2. Sizes -/

variable {bytes : List UInt8}

theorem copySection_whole (hpos : 0 < bytes.length) (hlt : bytes.length < 2 ^ 16) :
    copySection (some bytes) (.ofNat bytes.length) = .ok bytes := by
  have htoNat : (UInt16.ofNat bytes.length).toNat = bytes.length := UInt16.toNat_ofNat_of_lt' hlt
  have hne : UInt16.ofNat bytes.length ≠ 0 := by
    intro heq
    rw [heq] at htoNat
    exact absurd htoNat (Nat.ne_of_lt hpos)
  rw [copySection, if_neg hne, htoNat, take_length]

theorem sectionPtr_pos (hpos : 0 < bytes.length) :
    StreamVmDp.sectionPtr bytes = some bytes := if_neg (length_pos_iff.mp hpos)

/-- **A clone of an object with two sections is the object.** -/
theorem StreamVmDp.clone_eq {d : StreamVmDp} (hbss : 0 < d.bss.length)
    (hbss' : d.bss.length < 2 ^ 16) (hprog : 0 < d.program.length)
    (hprog' : d.program.length < 2 ^ 16) : d.clone = .ok d := by
  rw [clone, sectionPtr_pos hbss, sectionPtr_pos hprog, construct, copySection_whole hbss hbss',
    copySection_whole hprog hprog']
  rfl

theorem StreamVmDp.cloneTimes_eq {d : StreamVmDp} (h : d.clone = .ok d) (n : Nat) :
    d.cloneTimes n = .ok d := by
  induction n with
  | zero => rfl
  | succ n ih =>
    rw [cloneTimes, h]
    exact ih

/-- **A compiled VM is copied faithfully exactly when its sections fit.** -/
theorem faithful_iff_sizes {c : CompiledVm} (hbss : c.bss.length = c.table.curVarOffset)
    (hsmall : c.bss.length < 2 ^ 16) (hprog : 0 < c.program.length) :
    Faithful c ↔ 0 < c.bss.length ∧ c.program.length < 2 ^ 16 := by
  rw [Faithful, generateDpObject_eq, ← hbss]
  constructor
  · rintro ⟨d, hd, -, hprogram, -, node, -, -, -, hsize⟩
    refine ⟨?_, hsize ▸ node.programSize.toNat_lt⟩
    by_contra hzero
    have hnil : UInt16.ofNat c.bss.length = 0 := by rw [Nat.eq_zero_of_not_pos hzero]; rfl
    rw [StreamVmDp.construct, copySection, if_pos hnil] at hd
    cases hd
  · rintro ⟨hpos, hlt⟩
    refine ⟨⟨c.bss, c.program, c.maxFieldUpdate, c.prefixSize⟩, ?_, rfl, rfl, ?_, ?_⟩
    · rw [StreamVmDp.construct, copySection_whole hpos hsmall, copySection_whole hprog hlt]
      rfl
    · exact StreamVmDp.cloneTimes_eq (StreamVmDp.clone_eq hpos hsmall hprog hlt)
    · refine ⟨⟨c.bss, c.program, .ofNat c.program.length⟩, ?_, rfl, rfl,
        UInt16.toNat_ofNat_of_lt' hlt⟩
      rw [nodeVm, StreamVmDp.cloneBss, if_pos hpos]
      rfl

/-! ## 3. What a list takes -/

/-- The bytes of the command of an instruction. -/
def commandSize (insts : List Instr) : Instr → Nat
  | .fixIpv4Cs _ => 3
  | .flowMan i => 2 + 2 * i.sizeBytes.toNat
  | .pktWr i => 5 + (varSize insts i.flowVarName).getD 0
  | .flowClient i => if i.isUnlimitedFlows then 12 else 20

/-- The bytes of the program of a list. -/
def programSize (insts : List Instr) : Nat := (insts.map (commandSize insts)).sum

theorem commandSize_pos (insts : List Instr) (inst : Instr) : 0 < commandSize insts inst := by
  cases inst with
  | fixIpv4Cs i => exact Nat.zero_lt_succ 2
  | flowMan i => exact Nat.add_pos_left (by decide) _
  | pktWr i => exact Nat.add_pos_left (by decide) _
  | flowClient i =>
    rw [commandSize]
    split <;> decide

section Program

variable {rand : Nat} {insts : List Instr} {t : VarTable}

/-- **One command takes the bytes of its instruction.** -/
theorem buildCommand_size (ht : Lays t (declared rand insts)) {inst : Instr} (hmem : inst ∈ insts)
    {pktSize insId cnt : Nat} {ops : List DpOp}
    (h : buildCommand t pktSize insId inst = .ok (cnt, ops)) :
    (ops.flatMap DpOp.bytes).length = commandSize insts inst := by
  cases inst with
  | fixIpv4Cs i =>
    simp only [buildCommand] at h
    split at h
    · cases h
    · cases h
      simp [DpOp.length_bytes, DpOp.fields, commandSize]
  | flowMan i =>
    have hdecl : (⟨i.varName, i.sizeBytes.toNat, i.getBssInitValue.toNat⟩ : VarDecl) ∈
        declared rand insts :=
      mem_append_right _ (mem_flatMap.mpr ⟨_, hmem, mem_singleton.mpr rfl⟩)
    obtain ⟨w, hw⟩ : SizeOk i.sizeBytes.toNat := ht.sizes _ hdecl
    simp only [buildCommand, hw] at h
    obtain ⟨off, -, h⟩ := bind_eq_ok h
    cases h
    simp only [flatMap_singleton, DpOp.length_bytes, DpOp.fields, commandSize, ← ofSize_bytes hw,
      map_cons, map_nil, sum_cons, sum_nil]
    omega
  | pktWr i =>
    simp only [buildCommand] at h
    split at h
    · cases h
    rename_i var hvar
    split at h
    · cases h
    obtain ⟨w, hw⟩ : SizeOk var.sizeBytes := ht.width hvar
    simp only [hw] at h
    cases h
    simp only [flatMap_singleton, DpOp.length_bytes, commandSize, ht.varSize_eq hvar,
      Option.getD_some, ← ofSize_bytes hw]
    cases w <;> rfl
  | flowClient i =>
    obtain ⟨off, -, h⟩ := bind_eq_ok h
    cases hflows : i.isUnlimitedFlows with
    | true =>
      simp only [hflows, if_true] at h
      cases h
      simp [DpOp.length_bytes, DpOp.fields, commandSize, hflows]
    | false =>
      simp only [hflows, Bool.false_eq_true, if_false] at h
      cases h
      simp [DpOp.length_bytes, DpOp.fields, commandSize, hflows]

/-- **The commands of a list take the bytes of its instructions.** -/
theorem buildCommands_size (ht : Lays t (declared rand insts)) {pktSize : Nat} :
    ∀ {rest : List Instr}
    {insId cnt : Nat} {ops : List DpOp}, (∀ inst ∈ rest, inst ∈ insts) →
      buildCommands t pktSize insId rest = .ok (cnt, ops) →
      (ops.flatMap DpOp.bytes).length = (rest.map (commandSize insts)).sum := by
  intro rest
  induction rest with
  | nil =>
    intro insId cnt ops _ h
    cases h
    rfl
  | cons inst rest ih =>
    intro insId cnt ops hmem h
    obtain ⟨⟨cnt1, ops1⟩, hone, h⟩ := bind_eq_ok h
    obtain ⟨⟨cnt2, ops2⟩, hrest, h⟩ := bind_eq_ok h
    cases h
    have hsize := buildCommand_size ht (hmem inst mem_cons_self) hone
    have hsizes := ih (fun x hx => hmem x (mem_cons_of_mem _ hx)) hrest
    rw [flatMap_append, length_append, hsize, hsizes, map_cons, sum_cons]

/-- A list that declares no variable has no BSS, and every other list has one. -/
theorem totalSize_pos_iff (ht : Lays t (declared rand insts)) :
    0 < totalSize (declared rand insts) ↔ ∃ inst ∈ insts, declares inst ≠ [] := by
  constructor
  · intro hpos
    by_contra hnone
    push Not at hnone
    have hrandom : insts.any isRandomInstr = false := by
      refine any_eq_false.mpr fun inst hmem hrand => ?_
      cases inst with
      | flowMan i => exact absurd (hnone _ hmem) (cons_ne_nil _ _)
      | fixIpv4Cs i => cases hrand
      | pktWr i => cases hrand
      | flowClient i => cases hrand
    have hnil : declared rand insts = [] := by
      simp only [declared, hrandom, Bool.false_eq_true, if_false, nil_append, flatMap_eq_nil_iff]
      exact hnone
    rw [hnil] at hpos
    exact absurd hpos (Nat.lt_irrefl 0)
  · rintro ⟨inst, hmem, hne⟩
    obtain ⟨d, hd⟩ := exists_mem_of_ne_nil _ hne
    have hdecl : d ∈ declared rand insts :=
      mem_append_right _ (mem_flatMap.mpr ⟨inst, hmem, hd⟩)
    obtain ⟨w, hw⟩ := ht.sizes d hdecl
    have hsize : 0 < d.size := by
      rw [← ofSize_bytes hw]
      cases w <;> decide
    exact lt_of_lt_of_le hsize (le_sum_of_mem (mem_map_of_mem hdecl))

end Program

/-! ## 4. The lists that are copied faithfully -/

/-- **Which lists are copied faithfully.**  Of every list that `compile` accepts, the copies of the
program and of the BSS are whole, and no assertion fails, if and only if some instruction declares a
variable and the commands of the list take less than `2 ^ 16` bytes. -/
theorem dp_object_faithful_iff (rand : Nat) (insts : List Instr) (pktLen : UInt16) (c : CompiledVm)
    (h : compile rand insts pktLen = .ok (some c)) :
    Faithful c ↔ (∃ inst ∈ insts, declares inst ≠ []) ∧ programSize insts < 2 ^ 16 := by
  have hnonempty : insts ≠ [] := by
    rintro rfl
    cases h
  obtain ⟨ops, hpassed⟩ := passed_of_compile h
  obtain ⟨ht, hmax, hrandom⟩ := lays_buildFlowVarTable rand hpassed.table
  have hbss : c.bss.length = totalSize (declared rand insts) := by
    rw [buildBss_eq hrandom hpassed.bss, length_initBytes]
  have hcur : c.bss.length = c.table.curVarOffset := hbss.trans ht.cur.symm
  have hsmall : c.bss.length < 2 ^ 16 := hcur ▸ lt_of_le_of_lt hmax (by decide)
  have hprogram : c.program.length = programSize insts := by
    rw [hpassed.program]
    exact buildCommands_size ht (fun _ => id) hpassed.commands
  have hpos : 0 < c.program.length := by
    obtain ⟨inst, rest, rfl⟩ := exists_cons_of_ne_nil hnonempty
    rw [hprogram, programSize, map_cons, sum_cons]
    exact Nat.add_pos_left (commandSize_pos _ inst) _
  rw [faithful_iff_sizes hcur hsmall hpos, hbss, totalSize_pos_iff ht, hprogram]

/-- The checksum is fixed, and no variable is used. -/
def checksumOnly : List Instr := [.fixIpv4Cs ⟨14⟩]

/-- It is compiled, and an assertion of the constructor fails: the BSS is empty, and its pointer is
not null. -/
theorem empty_bss_asserts : ¬ (∀ rand insts pktLen c, compile rand insts pktLen = .ok (some c) →
    Faithful c)
    ∧ ∃ c, compile 0 checksumOnly 64 = .ok (some c) ∧ c.program.length = 3
      ∧ generateDpObject c = .error .assertFail := by
  have hcompile : compile 0 checksumOnly 64
      = .ok (some ⟨64, ⟨0, false, []⟩, [], (DpOp.ipv4Fix 14).bytes, 26, 64⟩) := by decide +kernel
  refine ⟨fun hall => ?_, _, hcompile, rfl, rfl⟩
  obtain ⟨d, hd, -⟩ := hall 0 checksumOnly 64 _ hcompile
  cases hd

/-- A counter that is written to the packet: nothing of it is lost. -/
theorem dp_object_faithful_iff_counter : ∃ c,
    compile 0 [.flowMan ⟨"counter", 1, .INC, 0, 0, 9⟩, .pktWr ⟨"counter", 20, 0, true⟩] 64 =
      .ok (some c) ∧ Faithful c := by
  have haccepted : ∃ c, compile 0 [.flowMan ⟨"counter", 1, .INC, 0, 0, 9⟩,
      .pktWr ⟨"counter", 20, 0, true⟩] 64 = .ok (some c) := ⟨_, rfl⟩
  obtain ⟨c, hc⟩ := haccepted
  refine ⟨c, hc, (dp_object_faithful_iff 0 _ 64 c hc).mpr ⟨⟨_, mem_cons_self, ?_⟩, by decide⟩⟩
  exact cons_ne_nil _ _

end Trex.Stream
