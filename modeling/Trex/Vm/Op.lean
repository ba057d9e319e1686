/-
# The data-plane VM: op-codes, packed commands and the runner

`StreamDPVmInstructionsRunner::run` (`trex_stream_vm.h`) walks a byte program with a bare
pointer: it reads an op-code, casts the pointer to the packed struct that the op-code stands
for, runs the struct's method on the flow variables and the packet, and bumps the pointer by
the struct's size.  Nothing in the program says where a command ends, so the two sides have to
agree on every size.

The flow variables and the packet are memories (`Lib.Mem`) addressed from their first byte.
The runner's random seed is the `uint32_t` at the start of the flow variables, as
`CGenNodeStateless::alloc_node_with_vm` passes it.

Three things can go wrong, and each is its own `Fault`: the `default: assert(0)` of the
switch, a struct that reaches past the end of the program, and the division by zero of a
random op-code whose span truncates to 0.
-/
import Trex.Net.IpHeader

namespace Trex.Vm

open Trex.Lib Trex.Net List

/-! ## 1. Op-codes -/

/-- `flow_var_op_e`. -/
inductive FlowVarOp
  | INC
  | DEC
  | RANDOM
deriving DecidableEq, Repr

/-- The sizes a flow variable can have. -/
inductive Width
  | w8
  | w16
  | w32
  | w64
deriving DecidableEq, Repr

/-- The size in bytes. -/
def Width.bytes : Width → Nat
  | .w8 => 1
  | .w16 => 2
  | .w32 => 4
  | .w64 => 8

/-- `StreamDPVmInstructions::INS_TYPE`. -/
inductive InsType
  | ditINC8 | ditINC16 | ditINC32 | ditINC64
  | ditDEC8 | ditDEC16 | ditDEC32 | ditDEC64
  | ditRANDOM8 | ditRANDOM16 | ditRANDOM32 | ditRANDOM64
  | ditFIX_IPV4_CS
  | itPKT_WR8 | itPKT_WR16 | itPKT_WR32 | itPKT_WR64
  | itCLIENT_VAR
  | itCLIENT_VAR_UNLIMIT
deriving DecidableEq, Repr

/-- The enumeration's values: `ditINC8 = 7` and one more for each that follows. -/
def InsType.code : InsType → Nat
  | .ditINC8 => 7 | .ditINC16 => 8 | .ditINC32 => 9 | .ditINC64 => 10
  | .ditDEC8 => 11 | .ditDEC16 => 12 | .ditDEC32 => 13 | .ditDEC64 => 14
  | .ditRANDOM8 => 15 | .ditRANDOM16 => 16 | .ditRANDOM32 => 17 | .ditRANDOM64 => 18
  | .ditFIX_IPV4_CS => 19
  | .itPKT_WR8 => 20 | .itPKT_WR16 => 21 | .itPKT_WR32 => 22 | .itPKT_WR64 => 23
  | .itCLIENT_VAR => 24
  | .itCLIENT_VAR_UNLIMIT => 25

/-- The labels of the runner's `switch (op_code)`; `none` is its `default`. -/
def InsType.ofCode : Nat → Option InsType
  | 7 => some .ditINC8 | 8 => some .ditINC16 | 9 => some .ditINC32 | 10 => some .ditINC64
  | 11 => some .ditDEC8 | 12 => some .ditDEC16 | 13 => some .ditDEC32 | 14 => some .ditDEC64
  | 15 => some .ditRANDOM8 | 16 => some .ditRANDOM16 | 17 => some .ditRANDOM32
  | 18 => some .ditRANDOM64
  | 19 => some .ditFIX_IPV4_CS
  | 20 => some .itPKT_WR8 | 21 => some .itPKT_WR16 | 22 => some .itPKT_WR32
  | 23 => some .itPKT_WR64
  | 24 => some .itCLIENT_VAR
  | 25 => some .itCLIENT_VAR_UNLIMIT
  | _ => none

@[simp] theorem InsType.ofCode_code (t : InsType) : InsType.ofCode t.code = some t := by
  cases t <;> rfl

theorem InsType.code_lt (t : InsType) : t.code < 256 := by
  cases t <;> decide

/-! ## 2. Random numbers

The generator is a linear congruence on a 32-bit seed; each call gives 15 bits.  The operands
of the `+` in `vm_rand32` and `vm_rand64` are drawn left to right. -/

/-- `fastrand`: the value and the new seed. -/
def fastrand (seed : Nat) : Nat × Nat :=
  let seed' := (214013 * seed + 2531011) % 2 ^ 32
  (seed' / 2 ^ 16 % 2 ^ 15, seed')

/-- `vm_rand16`. -/
def vmRand16 (seed : Nat) : Nat × Nat := fastrand seed

/-- `vm_rand32`: two draws, the first in the high half. -/
def vmRand32 (seed : Nat) : Nat × Nat :=
  let hi := vmRand16 seed
  let lo := vmRand16 hi.2
  ((hi.1 * 2 ^ 16 + lo.1) % 2 ^ 32, lo.2)

/-- `vm_rand64`: two 32-bit draws, the first in the high half. -/
def vmRand64 (seed : Nat) : Nat × Nat :=
  let hi := vmRand32 seed
  let lo := vmRand32 hi.2
  ((hi.1 * 2 ^ 32 + lo.1) % 2 ^ 64, lo.2)

/-- The generator that a random op-code of the given size calls. -/
def vmRand : Width → Nat → Nat × Nat
  | .w8 => vmRand16
  | .w16 => vmRand16
  | .w32 => vmRand32
  | .w64 => vmRand64

/-- The right operand of the `%` in `run_rand`: `(int)(m_max_val - m_min_val + 1)` as the
unsigned type of the left operand.  Up to 32 bits that is the difference modulo `2 ^ 32`; at
64 bits the cast to `int` drops the high half and the conversion back extends the sign. -/
def randSpan (w : Width) (minVal maxVal : Nat) : Nat :=
  match w with
  | .w64 =>
    let low := (maxVal + 2 ^ 64 - minVal + 1) % 2 ^ 32
    if low < 2 ^ 31 then low else low + (2 ^ 64 - 2 ^ 32)
  | _ => (maxVal + 2 ^ 32 - minVal + 1) % 2 ^ 32

/-! ## 3. Commands -/

/-- A command of the program, as the packed struct it is emitted from.  `valOffset` holds the
two's complement bits of the signed field. -/
inductive DpOp
  /-- `StreamDPOpFlowVar8`, `16`, `32`, `64` -/
  | flowVar (k : FlowVarOp) (w : Width) (flowOffset minVal maxVal : Nat)
  /-- `StreamDPOpIpv4Fix` -/
  | ipv4Fix (offset : Nat)
  /-- `StreamDPOpPktWr8`, `16`, `32`, `64` -/
  | pktWr (w : Width) (flags offset pktOffset valOffset : Nat)
  /-- `StreamDPOpClientsLimit` -/
  | clientsLimit (flowOffset flags pad minPort maxPort minIp maxIp limitFlows : Nat)
  /-- `StreamDPOpClientsUnLimit` -/
  | clientsUnLimit (flowOffset flags pad minIp maxIp : Nat)
deriving DecidableEq, Repr

namespace DpOp

/-- The op-code of a flow variable command. -/
def flowVarType : FlowVarOp → Width → InsType
  | .INC, .w8 => .ditINC8 | .INC, .w16 => .ditINC16
  | .INC, .w32 => .ditINC32 | .INC, .w64 => .ditINC64
  | .DEC, .w8 => .ditDEC8 | .DEC, .w16 => .ditDEC16
  | .DEC, .w32 => .ditDEC32 | .DEC, .w64 => .ditDEC64
  | .RANDOM, .w8 => .ditRANDOM8 | .RANDOM, .w16 => .ditRANDOM16
  | .RANDOM, .w32 => .ditRANDOM32 | .RANDOM, .w64 => .ditRANDOM64

/-- The op-code of a packet write command. -/
def pktWrType : Width → InsType
  | .w8 => .itPKT_WR8 | .w16 => .itPKT_WR16 | .w32 => .itPKT_WR32 | .w64 => .itPKT_WR64

/-- `m_op`. -/
def insType : DpOp → InsType
  | flowVar k w .. => flowVarType k w
  | ipv4Fix _ => .ditFIX_IPV4_CS
  | pktWr w .. => pktWrType w
  | clientsLimit .. => .itCLIENT_VAR
  | clientsUnLimit .. => .itCLIENT_VAR_UNLIMIT

/-- The fields of the struct behind `m_op`, in the order of its declaration.  The 8-bit packet
write declares the added value before the packet offset, the wider ones behind it. -/
def fields : DpOp → List (Nat × Nat)
  | flowVar _ w flowOffset minVal maxVal => [(1, flowOffset), (w.bytes, minVal), (w.bytes, maxVal)]
  | ipv4Fix offset => [(2, offset)]
  | pktWr .w8 flags offset pktOffset valOffset =>
    [(1, flags), (1, offset), (1, valOffset), (2, pktOffset)]
  | pktWr w flags offset pktOffset valOffset =>
    [(1, flags), (1, offset), (2, pktOffset), (w.bytes, valOffset)]
  | clientsLimit flowOffset flags pad minPort maxPort minIp maxIp limitFlows =>
    [(1, flowOffset), (1, flags), (1, pad), (2, minPort), (2, maxPort), (4, minIp), (4, maxIp),
      (4, limitFlows)]
  | clientsUnLimit flowOffset flags pad minIp maxIp =>
    [(1, flowOffset), (1, flags), (1, pad), (4, minIp), (4, maxIp)]

/-- The bytes that `add_command(&op, sizeof(op))` appends. -/
def bytes (o : DpOp) : List UInt8 := pack ((1, o.insType.code) :: o.fields)

theorem length_bytes (o : DpOp) : o.bytes.length = 1 + (o.fields.map Prod.fst).sum := by
  rw [bytes, length_pack, map_cons, sum_cons]

/-- Every field holds a value of its own type, so nothing is lost when it is laid out. -/
def Fits (o : DpOp) : Prop := ∀ f ∈ o.fields, f.2 < 256 ^ f.1

instance (o : DpOp) : Decidable o.Fits :=
  inferInstanceAs (Decidable (∀ f ∈ o.fields, f.2 < 256 ^ f.1))

end DpOp

/-! ## 4. What a command does -/

/-- The memories a program runs on. -/
structure DpState where
  flowVar : Mem
  pkt : Mem

/-- What can stop the runner before the end of the program. -/
inductive Fault
  /-- `default: assert(0)` -/
  | assert0
  /-- the struct of the op-code does not lie inside the program -/
  | overrun
  /-- integer division by zero -/
  | divByZero
deriving DecidableEq, Repr

/-- `StreamDPFlowClient`: the three packed fields of a client variable. -/
structure FlowClientVar where
  curIp : Nat
  curPort : Nat
  curFlowId : Nat
deriving DecidableEq, Repr

/-- `StreamDPOpClientsLimit::run`, on the fields of the variable. -/
def clientsLimitRun (minPort maxPort minIp maxIp limitFlows : Nat) (v : FlowClientVar) :
    FlowClientVar :=
  let ip := (v.curIp + 1) % 2 ^ 32
  let port := (v.curPort + 1) % 2 ^ 16
  let v1 : FlowClientVar :=
    if ip > maxIp then
      ⟨minIp, if port > maxPort then minPort else port, v.curFlowId⟩
    else ⟨ip, v.curPort, v.curFlowId⟩
  if limitFlows ≠ 0 then
    let id := (v1.curFlowId + 1) % 2 ^ 32
    -- reset to the first flow
    if id > limitFlows then ⟨minIp, minPort, 1⟩ else ⟨v1.curIp, v1.curPort, id⟩
  else v1

/-- `CLIENT_UNLIMITED_MIN_PORT`. -/
def clientUnlimitedMinPort : Nat := 1025

/-- `StreamDPOpClientsUnLimit::run`, on the fields of the variable. -/
def clientsUnLimitRun (minIp maxIp : Nat) (v : FlowClientVar) : FlowClientVar :=
  let ip := (v.curIp + 1) % 2 ^ 32
  let port := (v.curPort + 1) % 2 ^ 16
  if ip > maxIp then
    ⟨minIp, if port = 0 then clientUnlimitedMinPort else port, v.curFlowId⟩
  else ⟨ip, v.curPort, v.curFlowId⟩

/-- Read the client variable at an offset. -/
def loadClient (m : Mem) (a : Nat) : FlowClientVar :=
  ⟨m.load a 4, m.load (a + 4) 2, m.load (a + 6) 4⟩

/-- Write the client variable at an offset. -/
def storeClient (m : Mem) (a : Nat) (v : FlowClientVar) : Mem :=
  ((m.store a 4 v.curIp).store (a + 4) 2 v.curPort).store (a + 6) 4 v.curFlowId

/-- `PKT_WR_IS_BIG`. -/
def pktWrIsBig : Nat := 1

namespace DpOp

/-- `run_inc`. -/
def runInc (w : Width) (flowOffset minVal maxVal : Nat) (m : Mem) : Mem :=
  let v := m.load flowOffset w.bytes
  if v = maxVal then m.store flowOffset w.bytes minVal else m.store flowOffset w.bytes (v + 1)

/-- `run_dec`. -/
def runDec (w : Width) (flowOffset minVal maxVal : Nat) (m : Mem) : Mem :=
  let v := m.load flowOffset w.bytes
  if v = minVal then m.store flowOffset w.bytes maxVal
  else m.store flowOffset w.bytes (v + 256 ^ w.bytes - 1)

/-- `run_rand`: the seed is the `uint32_t` at the start of the flow variables. -/
def runRand (w : Width) (flowOffset minVal maxVal : Nat) (m : Mem) : Except Fault Mem :=
  let span := randSpan w minVal maxVal
  if span = 0 then .error .divByZero
  else
    let r := vmRand w (m.load 0 4)
    .ok ((m.store 0 4 r.2).store flowOffset w.bytes (minVal + r.1 % span))

/-- `wr`: the 8-bit write has no byte order. -/
def wr (w : Width) (flags offset pktOffset valOffset : Nat) (s : DpState) : Mem :=
  let v := s.flowVar.load offset w.bytes + valOffset
  match w with
  | .w8 => s.pkt.store pktOffset 1 v
  | w =>
    if flags &&& pktWrIsBig = pktWrIsBig then s.pkt.store pktOffset w.bytes (bswap w.bytes v)
    else s.pkt.store pktOffset w.bytes v

/-- One command. -/
def run : DpOp → DpState → Except Fault DpState
  | flowVar .INC w flowOffset minVal maxVal, s =>
    .ok { s with flowVar := runInc w flowOffset minVal maxVal s.flowVar }
  | flowVar .DEC w flowOffset minVal maxVal, s =>
    .ok { s with flowVar := runDec w flowOffset minVal maxVal s.flowVar }
  | flowVar .RANDOM w flowOffset minVal maxVal, s =>
    (runRand w flowOffset minVal maxVal s.flowVar).map fun m => { s with flowVar := m }
  | ipv4Fix offset, s => .ok { s with pkt := updateCheckSum s.pkt offset }
  | pktWr w flags offset pktOffset valOffset, s =>
    .ok { s with pkt := wr w flags offset pktOffset valOffset s }
  | clientsLimit flowOffset _ _ minPort maxPort minIp maxIp limitFlows, s =>
    let v := clientsLimitRun minPort maxPort minIp maxIp limitFlows
      (loadClient s.flowVar flowOffset)
    .ok { s with flowVar := storeClient s.flowVar flowOffset v }
  | clientsUnLimit flowOffset _ _ minIp maxIp, s =>
    let v := clientsUnLimitRun minIp maxIp (loadClient s.flowVar flowOffset)
    .ok { s with flowVar := storeClient s.flowVar flowOffset v }

end DpOp

/-! ## 5. The runner -/

/-- Read a flow variable struct at the pointer. -/
def fetchFlowVar (k : FlowVarOp) (w : Width) (p : List UInt8) : Except Fault (DpOp × List UInt8) :=
  match unpack [1, 1, w.bytes, w.bytes] p with
  | some ([_, flowOffset, minVal, maxVal], p') => .ok (.flowVar k w flowOffset minVal maxVal, p')
  | _ => .error .overrun

/-- Read a packet write struct of more than 8 bits at the pointer. -/
def fetchPktWr (w : Width) (p : List UInt8) : Except Fault (DpOp × List UInt8) :=
  match unpack [1, 1, 1, 2, w.bytes] p with
  | some ([_, flags, offset, pktOffset, valOffset], p') =>
    .ok (.pktWr w flags offset pktOffset valOffset, p')
  | _ => .error .overrun

/-- The case of the switch for each op-code: the struct it stands for, read at the pointer,
and the pointer bumped by the struct's size. -/
def fetchAs (t : InsType) (p : List UInt8) : Except Fault (DpOp × List UInt8) :=
  match t with
  | .itCLIENT_VAR =>
    match unpack [1, 1, 1, 1, 2, 2, 4, 4, 4] p with
    | some ([_, flowOffset, flags, pad, minPort, maxPort, minIp, maxIp, limitFlows], p') =>
      .ok (.clientsLimit flowOffset flags pad minPort maxPort minIp maxIp limitFlows, p')
    | _ => .error .overrun
  | .itCLIENT_VAR_UNLIMIT =>
    match unpack [1, 1, 1, 1, 4, 4] p with
    | some ([_, flowOffset, flags, pad, minIp, maxIp], p') =>
      .ok (.clientsUnLimit flowOffset flags pad minIp maxIp, p')
    | _ => .error .overrun
  | .ditINC8 => fetchFlowVar .INC .w8 p
  | .ditINC16 => fetchFlowVar .INC .w16 p
  | .ditINC32 => fetchFlowVar .INC .w32 p
  | .ditINC64 => fetchFlowVar .INC .w64 p
  | .ditDEC8 => fetchFlowVar .DEC .w8 p
  | .ditDEC16 => fetchFlowVar .DEC .w16 p
  | .ditDEC32 => fetchFlowVar .DEC .w32 p
  | .ditDEC64 => fetchFlowVar .DEC .w64 p
  | .ditRANDOM8 => fetchFlowVar .RANDOM .w8 p
  | .ditRANDOM16 => fetchFlowVar .RANDOM .w16 p
  | .ditRANDOM32 => fetchFlowVar .RANDOM .w32 p
  | .ditRANDOM64 => fetchFlowVar .RANDOM .w64 p
  | .ditFIX_IPV4_CS =>
    match unpack [1, 2] p with
    | some ([_, offset], p') => .ok (.ipv4Fix offset, p')
    | _ => .error .overrun
  | .itPKT_WR8 =>
    match unpack [1, 1, 1, 1, 2] p with
    | some ([_, flags, offset, valOffset, pktOffset], p') =>
      .ok (.pktWr .w8 flags offset pktOffset valOffset, p')
    | _ => .error .overrun
  | .itPKT_WR16 => fetchPktWr .w16 p
  | .itPKT_WR32 => fetchPktWr .w32 p
  | .itPKT_WR64 => fetchPktWr .w64 p

/-- One turn of the loop's `switch (*p)`. -/
def fetch (p : List UInt8) : Except Fault (DpOp × List UInt8) :=
  match p with
  | [] => .error .overrun
  | op :: _ =>
    match InsType.ofCode op.toNat with
    | none => .error .assert0
    | some t => fetchAs t p

/-- The loop `while (p < p_end)`.  Every turn consumes at least the op-code, so the number of
bytes left is enough fuel; running out of it would leave the pointer inside the program. -/
def runFrom : Nat → List UInt8 → DpState → Except Fault DpState
  | _, [], s => .ok s
  | 0, _ :: _, _ => .error .overrun
  | fuel + 1, p, s => do
    let (o, p') ← fetch p
    let s' ← o.run s
    runFrom fuel p' s'

/-- `StreamDPVmInstructionsRunner::run`. -/
def runnerRun (program : List UInt8) (s : DpState) : Except Fault DpState :=
  runFrom program.length program s

/-- The commands one after the other, with no program in between. -/
def runOps : List DpOp → DpState → Except Fault DpState
  | [], s => .ok s
  | o :: os, s => do
    let s' ← o.run s
    runOps os s'

/-! ## 6. The runner decodes what was emitted -/

/-- Reading back the struct of one command: the fields as they were laid out, and the pointer
behind it. -/
theorem unpack_bytes {o : DpOp} (h : o.Fits) (rest : List UInt8) :
    unpack (1 :: o.fields.map Prod.fst) (o.bytes ++ rest)
      = some (o.insType.code :: o.fields.map Prod.snd, rest) := by
  have hu := unpack_pack ((1, o.insType.code) :: o.fields) rest
  have hm : o.fields.map (fun f => f.2 % 256 ^ f.1) = o.fields.map Prod.snd :=
    map_congr_left fun f hf => Nat.mod_eq_of_lt (h f hf)
  have hc : o.insType.code % 256 ^ 1 = o.insType.code := by
    have := o.insType.code_lt
    omega
  rw [map_cons, map_cons, hm, hc] at hu
  exact hu

/-- The first byte of a command is its op-code. -/
theorem bytes_cons (o : DpOp) : ∃ l, o.bytes = UInt8.ofNat o.insType.code :: l :=
  ⟨_, rfl⟩

/-- The op-code of a command selects the case that reads the command's own layout. -/
theorem fetchAs_bytes {o : DpOp} (h : o.Fits) (rest : List UInt8) :
    fetchAs o.insType (o.bytes ++ rest) = .ok (o, rest) := by
  have hu := unpack_bytes h rest
  generalize o.bytes ++ rest = p at hu ⊢
  cases o with
  | flowVar k w flowOffset minVal maxVal =>
    cases k <;> cases w <;>
      simp only [DpOp.fields, map_cons, map_nil] at hu <;>
      simp only [fetchAs, DpOp.insType, DpOp.flowVarType, fetchFlowVar, hu]
  | ipv4Fix offset =>
    simp only [DpOp.fields, map_cons, map_nil] at hu
    simp only [fetchAs, DpOp.insType, hu]
  | pktWr w flags offset pktOffset valOffset =>
    cases w <;>
      simp only [DpOp.fields, map_cons, map_nil] at hu <;>
      simp only [fetchAs, DpOp.insType, DpOp.pktWrType, fetchPktWr, hu]
  | clientsLimit flowOffset flags pad minPort maxPort minIp maxIp limitFlows =>
    simp only [DpOp.fields, map_cons, map_nil] at hu
    simp only [fetchAs, DpOp.insType, hu]
  | clientsUnLimit flowOffset flags pad minIp maxIp =>
    simp only [DpOp.fields, map_cons, map_nil] at hu
    simp only [fetchAs, DpOp.insType, hu]

/-- **One turn of the switch undoes `add_command`**: the command that was emitted is the one
that is read, and the pointer stands at the next command. -/
theorem fetch_bytes {o : DpOp} (h : o.Fits) (rest : List UInt8) :
    fetch (o.bytes ++ rest) = .ok (o, rest) := by
  obtain ⟨l, hl⟩ := bytes_cons o
  have hc : (UInt8.ofNat o.insType.code).toNat = o.insType.code := by
    have := o.insType.code_lt
    simp only [UInt8.toNat_ofNat']
    omega
  have hf : fetch (o.bytes ++ rest) = fetchAs o.insType (o.bytes ++ rest) := by
    rw [hl, cons_append]
    simp [fetch, hc]
  rw [hf, fetchAs_bytes h]

theorem runFrom_bytes : ∀ (ops : List DpOp) (fuel : Nat) (s : DpState), (∀ o ∈ ops, o.Fits) →
    (ops.flatMap DpOp.bytes).length ≤ fuel →
      runFrom fuel (ops.flatMap DpOp.bytes) s = runOps ops s
  | [], fuel, s, _, _ => by cases fuel <;> rfl
  | o :: os, fuel, s, hfit, hfuel => by
    obtain ⟨l, hl⟩ := bytes_cons o
    simp only [flatMap_cons, length_append] at hfuel ⊢
    have hpos : 1 ≤ o.bytes.length := by simp [hl]
    obtain ⟨fuel, rfl⟩ : ∃ k, fuel = k + 1 := ⟨fuel - 1, by omega⟩
    have hf : fetch (o.bytes ++ os.flatMap DpOp.bytes) = .ok (o, os.flatMap DpOp.bytes) :=
      fetch_bytes (hfit o (by simp)) _
    have hcons : o.bytes ++ os.flatMap DpOp.bytes
        = UInt8.ofNat o.insType.code :: (l ++ os.flatMap DpOp.bytes) := by rw [hl, cons_append]
    rw [hcons] at hf ⊢
    simp only [runFrom, runOps, hf, bind, Except.bind]
    cases hr : o.run s with
    | error e => rfl
    | ok s' =>
      exact runFrom_bytes os fuel s' (fun x hx => hfit x (by simp [hx])) (by omega)

/-- **The runner over an emitted program is the commands in order.**  No op-code is
misread, the default of the switch is not reached, and the pointer stops at the end. -/
theorem runnerRun_bytes {ops : List DpOp} (hfit : ∀ o ∈ ops, o.Fits) (s : DpState) :
    runnerRun (ops.flatMap DpOp.bytes) s = runOps ops s :=
  runFrom_bytes ops _ s hfit (le_refl _)

end Trex.Vm
