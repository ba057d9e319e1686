/-
# Splitting a VM over the cores

`TrexVmSplitter` (`trex_vm_splitter.cpp`) gives every data-plane core its own part of the values of
one variable.  The range is divided by the number of cores and the first core takes the remainder
too.  A VM that cannot be split is compiled once and the object is cloned for every core.
-/
import Trex.Stream.Stream

namespace Trex.Stream

open Trex.Lib Trex.Vm

/-- `get_splitable_range` of a flow variable: `m_max_value - m_min_value + 1` in 64 bits. -/
def getSplitableRange (i : FlowMan) : UInt64 := i.maxValue - i.minValue + 1

/-- `get_ip_range`: in 32 bits. -/
def getIpRange (i : FlowClient) : UInt32 := i.clientMax - i.clientMin + 1

/-- The instruction of one core: its part of the range, and the end it starts from. -/
def perCoreFlowMan (i : FlowMan) (start end_ : UInt64) : FlowMan :=
  { i with
    minValue := start
    maxValue := end_
    initValue := if i.op = .DEC then end_ else start }

/-- The instruction of one core: its part of the addresses. -/
def perCoreFlowClient (i : FlowClient) (start end_ : UInt64) : FlowClient :=
  { i with clientMin := start.toUInt32, clientMax := end_.toUInt32 }

/-- The loop of `split_by_flow_var` and `split_by_flow_client_var` over the cores.  `instr` is the
instruction for a part of the range, `rand j` the value of `rand()` when core `j` is compiled. -/
def splitLoop (rand : Nat → Nat) (vm : StreamVm) (k : Nat) (instr : UInt64 → UInt64 → Instr)
    (rangePart : UInt64) : Nat → UInt64 → UInt64 → List TrexStream → Except VmErr (List TrexStream)
  | _, _, _, [] => .ok []
  | j, start, end_, core :: cores => do
    let core' ← TrexStream.vmCompile (rand j) { core with vm := vm.setInstr k (instr start end_) }
    let start' := end_ + 1
    let cores' ← splitLoop rand vm k instr rangePart (j + 1) start' (start' + rangePart - 1) cores
    .ok (core' :: cores')

/-- The work of both split functions behind their guards. -/
def splitRange (rand : Nat → Nat) (vm : StreamVm) (k : Nat) (instr : UInt64 → UInt64 → Instr)
    (min range : UInt64) (cores : List TrexStream) : Except VmErr (List TrexStream) :=
  let dpCoreCount := UInt64.ofNat cores.length
  let rangePart := range / dpCoreCount
  let leftover := range % dpCoreCount
  -- the first core handles a bit more
  splitLoop rand vm k instr rangePart 0 min (min + rangePart + leftover - 1) cores

/-- `split_by_flow_var`; `none` is `return false`. -/
def splitByFlowVar (rand : Nat → Nat) (vm : StreamVm) (cores : List TrexStream) (k : Nat)
    (i : FlowMan) : Except VmErr (Option (List TrexStream)) :=
  if i.op = .RANDOM then .ok none
  else if (getSplitableRange i).toNat < cores.length then .ok none
  else do
    let cores' ← splitRange rand vm k (fun s e => .flowMan (perCoreFlowMan i s e)) i.minValue
      (getSplitableRange i) cores
    .ok (some cores')

/-- `split_by_flow_client_var`. -/
def splitByFlowClientVar (rand : Nat → Nat) (vm : StreamVm) (cores : List TrexStream) (k : Nat)
    (i : FlowClient) : Except VmErr (Option (List TrexStream)) :=
  if (getIpRange i).toNat < cores.length then .ok none
  else do
    let cores' ← splitRange rand vm k (fun s e => .flowClient (perCoreFlowClient i s e))
      i.clientMin.toUInt64 (getIpRange i).toUInt64 cores
    .ok (some cores')

/-- `split_internal`. -/
def splitInternal (rand : Nat → Nat) (vm : StreamVm) (cores : List TrexStream) :
    Except VmErr (Option (List TrexStream)) :=
  match vm.getSplitInstruction with
  | none => .ok none
  | some (k, .flowMan i) => splitByFlowVar rand vm cores k i
  | some (k, .flowClient i) => splitByFlowClientVar rand vm cores k i

/-- `split`. -/
def split (rand : Nat → Nat) (stream : TrexStream) (cores : List TrexStream) :
    Except VmErr (List TrexStream) :=
  if stream.vm.isVmEmpty then .ok cores
  else do
    match ← splitInternal rand stream.vm cores with
    | some cores' => .ok cores'
    | none => do
      -- compile the stream and simply clone it to all cores
      let compiled ← stream.vmCompile (rand 0)
      .ok (cores.map fun core => { core with vmDp := compiled.vmDp })

end Trex.Stream
