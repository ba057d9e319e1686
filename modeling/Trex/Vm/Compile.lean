/-
# `StreamVm::compile`

The control plane compiles a list of field-engine instructions (`trex_stream_vm.cpp`) in three
passes over the list:

* `build_flow_var_table` gives every variable an offset in the flow-variable memory (the BSS);
* `build_bss` writes the variables' initial values, in the order of the list;
* `build_program` emits one packed command for each instruction, with the offsets of the table.

A check that fails throws a `TrexException` with the text modelled here; an `assert` that fails
is a separate error, because it ends the process.  `rand()` is a parameter: the value it
returns is the initial random seed.
-/
import Trex.Lib.Refine
import Trex.Vm.Op

namespace Trex.Vm

open Trex.Lib Trex.Net

/-! ## 1. Instructions -/

/-- `StreamVmInstructionFlowMan`. -/
structure FlowMan where
  varName : String
  sizeBytes : UInt8
  op : FlowVarOp
  initValue : UInt64
  minValue : UInt64
  maxValue : UInt64
deriving DecidableEq, Repr

/-- `StreamVmInstructionFlowClient`. -/
structure FlowClient where
  varName : String
  clientMin : UInt32
  clientMax : UInt32
  portMin : UInt16
  portMax : UInt16
  limitNumFlows : UInt32
  flags : UInt16
deriving DecidableEq, Repr

/-- `StreamVmInstructionWriteToPkt`. -/
structure WriteToPkt where
  flowVarName : String
  pktOffset : UInt16
  addValue : Int32
  isBigEndian : Bool
deriving DecidableEq, Repr

/-- `StreamVmInstructionFixChecksumIpv4`. -/
structure FixChecksumIpv4 where
  pktOffset : UInt16
deriving DecidableEq, Repr

/-- `StreamVmInstruction`, by `get_instruction_type`. -/
inductive Instr
  | fixIpv4Cs (i : FixChecksumIpv4)
  | flowMan (i : FlowMan)
  | pktWr (i : WriteToPkt)
  | flowClient (i : FlowClient)
deriving DecidableEq, Repr

/-- `get_bss_init_value`: one step before the initial value, because the program runs before
the first write to the packet. -/
def FlowMan.getBssInitValue (i : FlowMan) : UInt64 :=
  match i.op with
  | .INC => if i.initValue = i.minValue then i.maxValue else i.initValue - 1
  | .DEC => if i.initValue = i.maxValue then i.minValue else i.initValue + 1
  | .RANDOM => i.initValue

/-- `is_unlimited_flows`: the flag `CLIENT_F_UNLIMITED_FLOWS = 1`. -/
def FlowClient.isUnlimitedFlows (i : FlowClient) : Bool := i.flags &&& 1 = 1

/-- The size blocks of `build_program` and `build_bss`. -/
def Width.ofSize : Nat → Option Width
  | 1 => some .w8
  | 2 => some .w16
  | 4 => some .w32
  | 8 => some .w64
  | _ => none

/-! ## 2. Errors -/

/-- How a compilation can fail. -/
inductive VmErr
  /-- a `TrexException` with its text -/
  | exception (what : String)
  /-- an `assert` that failed -/
  | assertFail
deriving DecidableEq, Repr

/-- `StreamVm::err`. -/
def vmErr (text : String) : VmErr := .exception ("*** error: " ++ text)

/-! ## 3. The table of flow variables -/

/-- `VmFlowVarRec`: where a variable lives. -/
structure VmFlowVarRec where
  offset : Nat
  sizeBytes : Nat
deriving DecidableEq, Repr

/-- What `build_flow_var_table` builds. -/
structure VarTable where
  curVarOffset : Nat
  isRandomVar : Bool
  flowVarOffset : List (String × VmFlowVarRec)
deriving DecidableEq, Repr

namespace VarTable

/-- `var_lookup`. -/
def varLookup (t : VarTable) (name : String) : Option VmFlowVarRec := t.flowVarOffset.lookup name

/-- `var_add`, and the bump of `m_cur_var_offset` behind it. -/
def varAdd (t : VarTable) (name : String) (size : Nat) : VarTable :=
  { t with
    flowVarOffset := (name, ⟨t.curVarOffset, size⟩) :: t.flowVarOffset
    curVarOffset := t.curVarOffset + size }

/-- `get_var_offset`. -/
def getVarOffset (t : VarTable) (name : String) : Except VmErr Nat :=
  match t.varLookup name with
  | some var => .ok var.offset
  | none => .error .assertFail

end VarTable

/-- `svMAX_FLOW_VAR`. -/
def svMaxFlowVar : Nat := 64

/-- `svMAX_PACKET_OFFSET_CHANGE`. -/
def svMaxPacketOffsetChange : Nat := 512

/-- The name under which the random seed is in the table. -/
def randomVarName : String := "___random___"

/-- `sanity_check`: only the size can be wrong here, an operation outside the enumeration has
no value of `FlowVarOp`, and the check of the range is empty.  The size is a `uint8_t`, which
the text shows as a character. -/
def FlowMan.sanityCheck (insId : Nat) (i : FlowMan) : Except VmErr Unit :=
  if i.sizeBytes = 1 ∨ i.sizeBytes = 2 ∨ i.sizeBytes = 4 ∨ i.sizeBytes = 8 then .ok ()
  else .error (vmErr ("instruction id '" ++ toString insId ++ "' has non valid length "
    ++ String.singleton (Char.ofNat i.sizeBytes.toNat)))

/-- Does some instruction draw random numbers? -/
def isRandomInstr : Instr → Bool
  | .flowMan i => i.op = .RANDOM
  | _ => false

/-- The text for a client variable one of whose three names is taken. -/
def clientExists (insId : Nat) (name : String) : VmErr :=
  vmErr ("instruction id '" ++ toString insId ++ "' client variable name " ++ name
    ++ " already exists")

/-- The body of the second loop of `build_flow_var_table`, for one instruction. -/
def addVars (insId : Nat) (t : VarTable) : Instr → Except VmErr VarTable
  | .flowMan i => do
    i.sanityCheck insId
    if (t.varLookup i.varName).isSome then
      .error (vmErr ("instruction id '" ++ toString insId ++ "' flow variable name " ++ i.varName
        ++ " already exists"))
    else .ok (t.varAdd i.varName i.sizeBytes.toNat)
  | .flowClient i =>
    if (t.varLookup (i.varName ++ ".ip")).isSome then .error (clientExists insId i.varName)
    else if (t.varLookup (i.varName ++ ".port")).isSome then .error (clientExists insId i.varName)
    else if (t.varLookup (i.varName ++ ".flow_limit")).isSome then
      .error (clientExists insId i.varName)
    else
      .ok (((t.varAdd (i.varName ++ ".ip") 4).varAdd (i.varName ++ ".port") 2).varAdd
        (i.varName ++ ".flow_limit") 4)
  | _ => .ok t

/-- The second loop, with the limit that is checked behind every instruction. -/
def addAllVars : Nat → VarTable → List Instr → Except VmErr VarTable
  | _, t, [] => .ok t
  | insId, t, inst :: rest => do
    let t' ← addVars insId t inst
    if t'.curVarOffset > svMaxFlowVar then
      .error (vmErr ("too many flow varibles current size is :" ++ toString t'.curVarOffset
        ++ " maximum support is " ++ toString svMaxFlowVar))
    else addAllVars (insId + 1) t' rest

/-- The table before the second loop: the seed is first when some instruction is random. -/
def initVarTable (insts : List Instr) : VarTable :=
  let t : VarTable := ⟨0, insts.any isRandomInstr, []⟩
  if t.isRandomVar then t.varAdd randomVarName 4 else t

/-- `build_flow_var_table`. -/
def buildFlowVarTable (insts : List Instr) : Except VmErr VarTable :=
  addAllVars 0 (initVarTable insts) insts

/-! ## 4. The BSS -/

/-- `m_client_min - 1`, unless the range starts at 0. -/
def FlowClient.bssIp (i : FlowClient) : Nat :=
  if i.clientMin > 0 then i.clientMin.toNat - 1 else i.clientMin.toNat

/-- The initial port of a client variable. -/
def FlowClient.bssPort (i : FlowClient) : Nat :=
  if i.isUnlimitedFlows then clientUnlimitedMinPort else i.portMin.toNat

/-- The bytes that the loop of `build_bss` writes for one instruction. -/
def bssBytes : Instr → Except VmErr (List UInt8)
  | .flowMan i =>
    match Width.ofSize i.sizeBytes.toNat with
    | some w => .ok (toBytes w.bytes i.getBssInitValue.toNat)
    | none => .error .assertFail
  | .flowClient i => .ok (toBytes 4 i.bssIp ++ toBytes 2 i.bssPort ++ toBytes 4 0)
  | _ => .ok []

/-- The loop of `build_bss`. -/
def bssAll : List Instr → Except VmErr (List UInt8)
  | [] => .ok []
  | inst :: rest => do
    let b ← bssBytes inst
    let bs ← bssAll rest
    .ok (b ++ bs)

/-- `build_bss`; `rand` is the value of `rand()`. -/
def buildBss (rand : Nat) (t : VarTable) (insts : List Instr) : Except VmErr (List UInt8) := do
  let bs ← bssAll insts
  .ok ((if t.isRandomVar then toBytes 4 rand else []) ++ bs)

/-! ## 5. The program -/

/-- `IPV4_HDR_LEN`. -/
def ipv4HdrLen : Nat := 20

/-- The two's complement bits of a signed field of `w` bytes. -/
def signedBits (w : Nat) (v : Int32) : Nat := (v.toInt % 256 ^ w).toNat

/-- The body of the loop of `build_program`: the value given to `add_field_cnt` and the command
given to `add_command`. -/
def buildCommand (t : VarTable) (pktSize insId : Nat) : Instr → Except VmErr (Nat × List DpOp)
  | .fixIpv4Cs i =>
    let off := i.pktOffset.toNat
    if off + ipv4HdrLen > pktSize then
      .error (vmErr ("instruction id '" ++ toString insId ++ "' fix ipv4 command offset  "
        ++ toString off ++ "  is too high relative to packet size  " ++ toString pktSize))
    else .ok ((off + 12) % 2 ^ 16, [.ipv4Fix off])
  | .flowMan i =>
    match Width.ofSize i.sizeBytes.toNat with
    | some w => do
      let off ← t.getVarOffset i.varName
      .ok (0, [.flowVar i.op w (off % 2 ^ 8) (i.minValue.toNat % 256 ^ w.bytes)
        (i.maxValue.toNat % 256 ^ w.bytes)])
    | none => .ok (0, [])
  | .pktWr i =>
    match t.varLookup i.flowVarName with
    | none =>
      .error (vmErr ("instruction id '" ++ toString insId
        ++ "' packet write with no valid flow varible name '" ++ i.flowVarName ++ "'"))
    | some var =>
      let off := i.pktOffset.toNat
      if off + var.sizeBytes > pktSize then
        .error (vmErr ("instruction id '" ++ toString insId ++
          "' packet write with packet_offset   "
          ++ toString (off + var.sizeBytes) ++ "   bigger than packet size   " ++ toString pktSize))
      else
        let cnt := (off + var.sizeBytes) % 2 ^ 16
        let flags := if i.isBigEndian then pktWrIsBig else 0
        match Width.ofSize var.sizeBytes with
        | some w =>
          .ok (cnt, [.pktWr w flags (var.offset % 2 ^ 8) off (signedBits w.bytes i.addValue)])
        | none => .ok (cnt, [])
  | .flowClient i => do
    let off ← t.getVarOffset (i.varName ++ ".ip")
    if i.isUnlimitedFlows then
      .ok (0, [.clientsUnLimit (off % 2 ^ 8) 0 0 i.clientMin.toNat i.clientMax.toNat])
    else
      .ok (0, [.clientsLimit (off % 2 ^ 8) 0 0 i.portMin.toNat i.portMax.toNat i.clientMin.toNat
        i.clientMax.toNat i.limitNumFlows.toNat])

/-- The loop of `build_program`: `m_max_field_update` and the commands in order. -/
def buildCommands (t : VarTable) (pktSize : Nat) :
    Nat → List Instr → Except VmErr (Nat × List DpOp)
  | _, [] => .ok (0, [])
  | insId, inst :: rest => do
    let (cnt, ops) ← buildCommand t pktSize insId inst
    let (maxCnt, opsRest) ← buildCommands t pktSize (insId + 1) rest
    .ok (max cnt maxCnt, ops ++ opsRest)

/-- `build_program`: `m_max_field_update` and the bytes of `m_instructions`. -/
def buildProgram (t : VarTable) (pktSize : Nat) (insts : List Instr) :
    Except VmErr (Nat × List UInt8) := do
  let (maxFieldUpdate, ops) ← buildCommands t pktSize 0 insts
  .ok (maxFieldUpdate, ops.flatMap DpOp.bytes)

/-! ## 6. `compile` -/

/-- `calc_writable_mbuf_size` (`trex_stream.h`), in `uint16_t` arithmetic. -/
def calcWritableMbufSize (maxOffsetWritable pktSize : Nat) : Nat :=
  if pktSize ≤ 64 then pktSize
  else if pktSize ≤ 128 then pktSize
  else
    -- the difference is an `int` that is stored in 16 bits
    let nonWritable := (pktSize + 2 ^ 16 + 1 - maxOffsetWritable) % 2 ^ 16
    if nonWritable < 64 then pktSize else (maxOffsetWritable + 2 ^ 16 - 1) % 2 ^ 16

/-- The members of a compiled `StreamVm`. -/
structure CompiledVm where
  pktSize : Nat
  table : VarTable
  bss : List UInt8
  program : List UInt8
  maxFieldUpdate : Nat
  prefixSize : Nat
deriving DecidableEq, Repr

/-- `compile(pkt_len)`; `none` for a VM without instructions, which is left uncompiled. -/
def compile (rand : Nat) (insts : List Instr) (pktLen : UInt16) :
    Except VmErr (Option CompiledVm) :=
  if insts.isEmpty then .ok none
  else do
    let t ← buildFlowVarTable insts
    let bss ← buildBss rand t insts
    let (maxFieldUpdate, program) ← buildProgram t pktLen.toNat insts
    if maxFieldUpdate > svMaxPacketOffsetChange then
      .error (vmErr ("maximum offset is" ++ toString maxFieldUpdate ++ " bigger than maximum "
        ++ toString svMaxPacketOffsetChange))
    else
      .ok (some ⟨pktLen.toNat, t, bss, program, maxFieldUpdate,
        calcWritableMbufSize maxFieldUpdate pktLen.toNat⟩)

/-! ## 7. What an accepted list went through -/

/-- The passes that produced a compiled VM. -/
structure Passed (rand : Nat) (insts : List Instr) (pktLen : UInt16) (c : CompiledVm)
    (ops : List DpOp) : Prop where
  table : buildFlowVarTable insts = .ok c.table
  bss : buildBss rand c.table insts = .ok c.bss
  commands : buildCommands c.table pktLen.toNat 0 insts = .ok (c.maxFieldUpdate, ops)
  program : c.program = ops.flatMap DpOp.bytes
  maxField : c.maxFieldUpdate ≤ svMaxPacketOffsetChange
  writable : c.prefixSize = calcWritableMbufSize c.maxFieldUpdate pktLen.toNat
  size : c.pktSize = pktLen.toNat

theorem passed_of_compile {rand : Nat} {insts : List Instr} {pktLen : UInt16} {c : CompiledVm}
    (h : compile rand insts pktLen = .ok (some c)) : ∃ ops, Passed rand insts pktLen c ops := by
  unfold compile at h
  split at h
  · cases h
  obtain ⟨t, ht, h⟩ := bind_eq_ok h
  obtain ⟨bss, hbss, h⟩ := bind_eq_ok h
  obtain ⟨⟨cnt, program⟩, hp, h⟩ := bind_eq_ok h
  obtain ⟨⟨cnt', ops⟩, hops, hp⟩ := bind_eq_ok hp
  cases hp
  dsimp only at h
  split at h
  · cases h
  · rename_i hmax
    cases h
    exact ⟨ops, ht, hbss, hops, rfl, Nat.not_lt.mp hmax, rfl, rfl⟩

end Trex.Vm
