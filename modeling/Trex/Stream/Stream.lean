/-
# Streams

`TrexStream` (`trex_stream.h`), with the VM the user gave it (`m_vm`) and the data-plane object that
`vm_compile` makes of it (`m_vm_dp`).  Rates and times are exact rationals where the source has
`double`.
-/
import Trex.Vm.Compile

namespace Trex.Stream

open Trex.Lib Trex.Vm

/-! ## 1. The VM of a stream -/

/-- `StreamVm`, as far as it is given by the user: the instructions, and the position in the list of
the one to split by (the source keeps a pointer to it). -/
structure StreamVm where
  instList : List Instr := []
  splitInstr : Option Nat := none
deriving DecidableEq, Repr

/-- An instruction that declares a variable (`StreamVmInstructionVar`). -/
inductive InstrVar
  | flowMan (i : FlowMan)
  | flowClient (i : FlowClient)
deriving DecidableEq, Repr

/-- `is_vm_empty`. -/
def StreamVm.isVmEmpty (vm : StreamVm) : Bool := vm.instList.isEmpty

/-- `get_split_instruction`, with its position. -/
def StreamVm.getSplitInstruction (vm : StreamVm) : Option (Nat × InstrVar) :=
  match vm.splitInstr with
  | none => none
  | some k =>
    match vm.instList[k]? with
    | some (.flowMan i) => some (k, .flowMan i)
    | some (.flowClient i) => some (k, .flowClient i)
    | _ => none

/-- The VM with the instruction at a position changed in place. -/
def StreamVm.setInstr (vm : StreamVm) (k : Nat) (i : Instr) : StreamVm :=
  { vm with instList := vm.instList.set k i }

/-- `StreamVmDp`. -/
structure StreamVmDp where
  bss : List UInt8
  program : List UInt8
  maxPktOffsetChange : Nat
  prefixSize : Nat
deriving DecidableEq, Repr

/-- `generate_dp_object` of a compiled VM.  The sizes are 16-bit, and the constructor asserts that
neither is 0: the BSS pointer is not null, `malloc` of 0 bytes included. -/
def generateDpObject (c : CompiledVm) : Except VmErr StreamVmDp :=
  let bssSize := c.table.curVarOffset % 2 ^ 16
  let progSize := c.program.length % 2 ^ 16
  if bssSize = 0 then .error .assertFail
  else if progSize = 0 then .error .assertFail
  else .ok ⟨c.bss.take bssSize, c.program.take progSize, c.maxFieldUpdate, c.prefixSize⟩

/-! ## 2. Streams -/

/-- `STREAM_TYPE`. -/
inductive StreamType
  | stCONTINUOUS
  | stSINGLE_BURST
  | stMULTI_BURST
deriving DecidableEq, Repr

/-- `CStreamPktData`. -/
structure CStreamPktData where
  binary : List UInt8
  len : UInt16
deriving DecidableEq, Repr

/-- `TrexStream`. -/
structure TrexStream where
  type : StreamType
  portId : UInt8
  streamId : UInt32
  isgUsec : Rat
  nextStreamId : Int32
  enabled : Bool
  selfStart : Bool
  vm : StreamVm
  vmDp : Option StreamVmDp
  pkt : CStreamPktData
  pps : Rat
  burstTotalPkts : UInt32
  numBursts : UInt32
  ibgUsec : Rat
deriving DecidableEq

namespace TrexStream

/-- `clone`: the data-plane object is copied, the VM is not. -/
def clone (s : TrexStream) : TrexStream :=
  { s with
    vm := {}
    pkt := ⟨s.pkt.binary.take s.pkt.len.toNat, s.pkt.len⟩ }

/-- `fix_dp_stream_id`. -/
def fixDpStreamId (s : TrexStream) (myStreamId : UInt32) (nextStreamId : Int32) : TrexStream :=
  { s with streamId := myStreamId, nextStreamId := nextStreamId }

/-- `is_dp_next_stream`. -/
def isDpNextStream (s : TrexStream) : Bool := !decide (s.nextStreamId < 0)

/-- `vm_compile`; `rand` is the value of `rand()`. -/
def vmCompile (rand : Nat) (s : TrexStream) : Except VmErr TrexStream := do
  match ← compile rand s.vm.instList s.pkt.len with
  | none => .ok s
  | some c => do
    let dp ← generateDpObject c
    .ok { s with vmDp := some dp }

/-- `set_multi_burst`. -/
def setMultiBurst (s : TrexStream) (burstTotalPkts numBursts : UInt32) (ibgUsec : Rat) :
    TrexStream :=
  { s with burstTotalPkts := burstTotalPkts, numBursts := numBursts, ibgUsec := ibgUsec }

/-- `set_single_burst`. -/
def setSingleBurst (s : TrexStream) (burstTotalPkts : UInt32) : TrexStream :=
  s.setMultiBurst burstTotalPkts 1 0

/-- The constructor of `TrexStream`, with its default values. -/
def create (type : StreamType) (portId : UInt8) (streamId : UInt32) : TrexStream :=
  ⟨type, portId, streamId, 0, -1, false, false, {}, none, ⟨[], 0⟩, -1, 0, 1, 0⟩

end TrexStream

/-! ## 3. The streams of the RPC server -/

/-- The `mode` section of an `add_stream` request. -/
inductive Mode
  | continuous (pps : Rat)
  | singleBurst (totalPkts : UInt32) (pps : Rat)
  | multiBurst (pps ibgUsec : Rat) (numBursts pktsPerBurst : UInt32)

/-- `allocate_new_stream`. -/
def allocateNewStream (portId : UInt8) (streamId : UInt32) : Mode → TrexStream
  | .continuous pps => { TrexStream.create .stCONTINUOUS portId streamId with pps := pps }
  | .singleBurst totalPkts pps =>
    { TrexStream.create .stSINGLE_BURST portId streamId with pps := pps }.setSingleBurst totalPkts
  | .multiBurst pps ibgUsec numBursts pktsPerBurst =>
    { TrexStream.create .stMULTI_BURST portId streamId with pps := pps }.setMultiBurst pktsPerBurst
      numBursts ibgUsec

/-- A stream as `add_stream` makes it: the request fills in the other fields, and leaves those that
the mode set. -/
def Admitted (s : TrexStream) : Prop :=
  ∃ mode : Mode, s.type = (allocateNewStream s.portId s.streamId mode).type
    ∧ s.pps = (allocateNewStream s.portId s.streamId mode).pps
    ∧ s.burstTotalPkts = (allocateNewStream s.portId s.streamId mode).burstTotalPkts
    ∧ s.numBursts = (allocateNewStream s.portId s.streamId mode).numBursts
    ∧ s.ibgUsec = (allocateNewStream s.portId s.streamId mode).ibgUsec

/-- A single burst is a multi burst of one. -/
theorem Admitted.numBursts_eq {s : TrexStream} (h : Admitted s) (hs : s.type = .stSINGLE_BURST) :
    s.numBursts = 1 := by
  obtain ⟨mode, htype, -, -, hnum, -⟩ := h
  cases mode with
  | continuous pps => cases hs.symm.trans htype
  | singleBurst totalPkts pps => exact hnum
  | multiBurst pps ibgUsec numBursts pktsPerBurst => cases hs.symm.trans htype

end Trex.Stream
