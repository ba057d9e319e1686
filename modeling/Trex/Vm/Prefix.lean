/-
# The writable prefix and the constant rest of a packet

A stream with a VM is not copied whole for every packet.  `calc_writable_mbuf_size` cuts the packet
at the last byte the program can change: the prefix is copied and the program runs on the copy, the
rest is one constant buffer that every packet of the stream is chained to
(`TrexStatelessDpCore::add_stream`, `CGenNodeStateless::alloc_node_with_vm`).

The cut is sound when everything the program reads or writes lies in the prefix (`PrefixOk`): the
commands do not see what is behind it (`runOps_agree`) and do not change it (`runOps_frame`), so the
two pieces make the packet that the program makes of the whole (`sendPacket_eq_wholePacket`).

It is not sound.  `calc_writable_mbuf_size` takes `max_offset_writable - 1` bytes where the last
byte written is the one at `max_offset_writable - 1`, so every real cut is one byte short; and the
MAC addresses are 12 bytes also where the packet is shorter.  What is left is stated exactly in
`prefixOk_iff`.
-/
import Trex.Vm.Refine

namespace Trex.Vm

open Trex.Lib Trex.Net List

/-! ## 1. The commands of a program -/

/-- The commands that the runner decodes. -/
def commandsFrom : Nat → List UInt8 → List DpOp
  | _, [] => []
  | 0, _ :: _ => []
  | fuel + 1, p =>
    match fetch p with
    | .ok (o, p') => o :: commandsFrom fuel p'
    | .error _ => []

@[inherit_doc commandsFrom]
def commandsOf (program : List UInt8) : List DpOp := commandsFrom program.length program

theorem commandsFrom_bytes : ∀ (ops : List DpOp) (fuel : Nat), (∀ o ∈ ops, o.Fits) →
    (ops.flatMap DpOp.bytes).length ≤ fuel → commandsFrom fuel (ops.flatMap DpOp.bytes) = ops
  | [], fuel, _, _ => by cases fuel <;> rfl
  | o :: os, fuel, hfit, hfuel => by
    obtain ⟨l, hl⟩ := bytes_cons o
    simp only [flatMap_cons, length_append] at hfuel ⊢
    have hpos : 1 ≤ o.bytes.length := by simp [hl]
    obtain ⟨fuel, rfl⟩ : ∃ k, fuel = k + 1 := ⟨fuel - 1, by omega⟩
    have hf : fetch (o.bytes ++ os.flatMap DpOp.bytes) = .ok (o, os.flatMap DpOp.bytes) :=
      fetch_bytes (hfit o (by simp)) _
    have hcons : o.bytes ++ os.flatMap DpOp.bytes
        = UInt8.ofNat o.insType.code :: (l ++ os.flatMap DpOp.bytes) := by rw [hl, cons_append]
    rw [hcons] at hf ⊢
    simp only [commandsFrom, hf]
    rw [commandsFrom_bytes os fuel (fun x hx => hfit x (by simp [hx])) (by omega)]

theorem commandsOf_bytes {ops : List DpOp} (hfit : ∀ o ∈ ops, o.Fits) :
    commandsOf (ops.flatMap DpOp.bytes) = ops :=
  commandsFrom_bytes ops _ hfit (le_refl _)

/-! ## 2. What a command reads and writes in the packet -/

/-- The bytes of the packet that a command addresses: the field it writes; the length byte and the
checksum field of the header it fixes. -/
def DpOp.FieldByte : DpOp → Nat → Prop
  | pktWr w _ _ pktOffset _, x => pktOffset ≤ x ∧ x < pktOffset + w.bytes
  | ipv4Fix offset, x => x = offset ∨ offset + 10 ≤ x ∧ x < offset + 12
  | _, _ => False

/-- The header that a checksum fix sums, as long as its own length byte says, ends before `n`. -/
def DpOp.HeaderIn (n : Nat) : DpOp → DpState → Prop
  | ipv4Fix offset, s => offset + getHeaderLength s.pkt offset ≤ n
  | _, _ => True

/-- Every header that is summed during a run ends before `n`. -/
def HeadersIn (n : Nat) : List DpOp → DpState → Prop
  | [], _ => True
  | o :: os, s => o.HeaderIn n s ∧ ∀ s', o.run s = .ok s' → HeadersIn n os s'

/-- The same variables, and the same packet up to `n`. -/
structure Agree (n : Nat) (s s' : DpState) : Prop where
  flowVar : s.flowVar = s'.flowVar
  pkt : ∀ x, x < n → s.pkt x = s'.pkt x

section Locality

variable {n : Nat} {s s' : DpState}

/-- **One command sees the prefix only.** -/
theorem run_agree {o : DpOp} (hf : ∀ x, o.FieldByte x → x < n) (hh : o.HeaderIn n s)
    (h : Agree n s s') : ExceptRel (Agree n) (o.run s) (o.run s') := by
  obtain ⟨fv, pkt⟩ := s
  obtain ⟨fv', pkt'⟩ := s'
  obtain ⟨rfl, hpkt⟩ := h
  cases o with
  | flowVar k w flowOffset minVal maxVal =>
    cases k with
    | INC => exact ⟨rfl, hpkt⟩
    | DEC => exact ⟨rfl, hpkt⟩
    | RANDOM =>
      simp only [DpOp.run]
      cases DpOp.runRand w flowOffset minVal maxVal fv with
      | ok m => exact ⟨rfl, hpkt⟩
      | error e => exact rfl
  | ipv4Fix offset =>
    refine ⟨rfl, fun x hx => updateCheckSum_congr ?_ (fun y _ hy => ?_) (hpkt x hx)⟩
    · exact hpkt offset (hf offset (Or.inl rfl))
    · exact hpkt y (lt_of_lt_of_le hy hh)
  | pktWr w flags offset pktOffset valOffset =>
    refine ⟨rfl, fun x hx => ?_⟩
    have hput : ∀ v, (pkt.store pktOffset w.bytes v) x = (pkt'.store pktOffset w.bytes v) x :=
      fun v => Mem.store_congr fun _ => hpkt x hx
    cases w with
    | w8 => exact hput _
    | w16 | w32 | w64 =>
      simp only [DpOp.wr]
      split
      · exact hput _
      · exact hput _
  | clientsLimit => exact ⟨rfl, hpkt⟩
  | clientsUnLimit => exact ⟨rfl, hpkt⟩

/-- **One command changes the prefix only.** -/
theorem run_frame {o : DpOp} (hf : ∀ x, o.FieldByte x → x < n) (hr : o.run s = .ok s') {x : Nat}
    (hx : n ≤ x) : s'.pkt x = s.pkt x := by
  cases o with
  | flowVar k w flowOffset minVal maxVal =>
    cases k with
    | INC => cases hr; rfl
    | DEC => cases hr; rfl
    | RANDOM =>
      simp only [DpOp.run] at hr
      cases hm : DpOp.runRand w flowOffset minVal maxVal s.flowVar with
      | ok m => rw [hm] at hr; cases hr; rfl
      | error e => rw [hm] at hr; cases hr
  | ipv4Fix offset =>
    cases hr
    have hlast : offset + 11 < n := hf _ (Or.inr ⟨by omega, by omega⟩)
    exact updateCheckSum_of_ne s.pkt (Or.inr (by omega))
  | pktWr w flags offset pktOffset valOffset =>
    cases hr
    have hlast : pktOffset + w.bytes ≤ n := by
      have hpos : 1 ≤ w.bytes := by cases w <;> decide
      have := hf (pktOffset + w.bytes - 1) ⟨by omega, by omega⟩
      omega
    have hput : ∀ v, (s.pkt.store pktOffset w.bytes v) x = s.pkt x :=
      fun v => Mem.store_of_ge _ _ (by omega)
    cases w with
    | w8 => exact hput _
    | w16 | w32 | w64 =>
      simp only [DpOp.wr]
      split
      · exact hput _
      · exact hput _
  | clientsLimit => cases hr; rfl
  | clientsUnLimit => cases hr; rfl

/-- **A run sees the prefix only.** -/
theorem runOps_agree : ∀ {ops : List DpOp} {s s' : DpState},
    (∀ o ∈ ops, ∀ x, o.FieldByte x → x < n) → HeadersIn n ops s → Agree n s s' →
      ExceptRel (Agree n) (runOps ops s) (runOps ops s')
  | [], s, s', _, _, h => h
  | o :: os, s, s', hf, hh, h => by
    have hstep := run_agree (hf o (by simp)) hh.1 h
    simp only [runOps]
    cases hr : o.run s with
    | error e =>
      rw [hr] at hstep
      cases hr' : o.run s' with
      | error e' => rw [hr'] at hstep; exact hstep
      | ok s1' => rw [hr'] at hstep; exact absurd hstep id
    | ok s1 =>
      obtain ⟨s1', hr', h₁⟩ := hstep.ok_left hr
      rw [hr']
      exact runOps_agree (fun o' ho' => hf o' (by simp [ho'])) (hh.2 s1 hr) h₁

/-- **A run changes the prefix only.** -/
theorem runOps_frame : ∀ {ops : List DpOp} {s s' : DpState},
    (∀ o ∈ ops, ∀ x, o.FieldByte x → x < n) → runOps ops s = .ok s' → ∀ x, n ≤ x →
      s'.pkt x = s.pkt x
  | [], s, s', _, hr, x, _ => by
    cases hr
    rfl
  | o :: os, s, s', hf, hr, x, hx => by
    obtain ⟨s1, h1, hr⟩ := bind_eq_ok hr
    rw [runOps_frame (fun o' ho' => hf o' (by simp [ho'])) hr x hx,
      run_frame (hf o (by simp)) h1 hx]

/-- Which headers a run sums is a matter of the prefix too. -/
theorem headersIn_congr : ∀ {ops : List DpOp} {s s' : DpState},
    (∀ o ∈ ops, ∀ x, o.FieldByte x → x < n) → Agree n s s' → HeadersIn n ops s → HeadersIn n ops s'
  | [], s, s', _, _, _ => trivial
  | o :: os, s, s', hf, h, hh => by
    refine ⟨?_, fun s1' hr' => ?_⟩
    · cases o with
      | ipv4Fix offset =>
        have h0 : s.pkt offset = s'.pkt offset := 
          h.pkt offset (hf (.ipv4Fix offset) (by simp) offset (Or.inl rfl))
        have hlen := hh.1
        simp only [DpOp.HeaderIn, getHeaderLength, h0] at hlen
        exact hlen
      | flowVar | pktWr | clientsLimit | clientsUnLimit => trivial
    · obtain ⟨s1, hr, h₁⟩ := (run_agree (hf o (by simp)) hh.1 h).ok_right hr'
      exact headersIn_congr (fun o' ho' => hf o' (by simp [ho'])) h₁ (hh.2 s1 hr)

end Locality

/-! ## 3. Sending a packet -/

/-- The destination and source MAC addresses of a port (`get_dst_src_mac_addr`). -/
structure DstSrcMac where
  bytes : List UInt8
  length_eq : bytes.length = 12

/-- Why a packet is not sent. -/
inductive SendErr
  /-- `assert(header_size)` -/
  | assertHeaderSize
  /-- the runner stopped -/
  | vm (f : Fault)
deriving DecidableEq, Repr

/-- What `add_stream` keeps of the packet: `m_original_packet_data_prefix` with its size, and the
constant mbuf (empty when there is none). -/
structure VmNode where
  prefixSize : Nat
  prefixData : Mem
  constPkt : List UInt8

/-- The VM branch of `add_stream`.  `mem` is what the allocated prefix buffer and the bytes behind
it hold before. -/
def addStreamVm (c : CompiledVm) (pkt : List UInt8) (mac : DstSrcMac) (mem : Mem) :
    Except SendErr VmNode :=
  let pktSize := pkt.length
  let constPkt := if pktSize > c.prefixSize then pkt.drop c.prefixSize else []
  let headerSize := if c.prefixSize > pktSize then pktSize else c.prefixSize
  if headerSize = 0 then .error .assertHeaderSize
  else
    -- `update_mac_addr_from_global_cfg` copies 12 bytes, whatever the size of the buffer
    .ok ⟨headerSize, (mem.putBytes 0 (pkt.take headerSize)).putBytes 0 mac.bytes, constPkt⟩

/-- `alloc_node_with_vm`: the bytes that are sent, and the flow variables after the run.  `mem` is
what the new mbuf holds before. -/
def allocNodeWithVm (program : List UInt8) (node : VmNode) (flowVar mem : Mem) :
    Except SendErr (List UInt8 × Mem) :=
  let p := mem.putBytes 0 (node.prefixData.read 0 node.prefixSize)
  match runnerRun program ⟨flowVar, p⟩ with
  | .ok s => .ok (s.pkt.read 0 node.prefixSize ++ node.constPkt, s.flowVar)
  | .error f => .error (.vm f)

/-- One packet of a stream, from the compiled VM and the packet of the stream. -/
def sendPacket (c : CompiledVm) (pkt : List UInt8) (mac : DstSrcMac) (flowVar mem : Mem) :
    Except SendErr (List UInt8 × Mem) := do
  let node ← addStreamVm c pkt mac mem
  allocNodeWithVm c.program node flowVar mem

/-- The whole packet with the port's MAC addresses, in a buffer that holds `mem` before. -/
def wholeBuffer (pkt : List UInt8) (mac : DstSrcMac) (mem : Mem) : Mem :=
  (mem.putBytes 0 pkt).putBytes 0 mac.bytes

/-- The packet that the program makes of the whole packet. -/
def wholePacket (c : CompiledVm) (pkt : List UInt8) (mac : DstSrcMac) (flowVar mem : Mem) :
    Except SendErr (List UInt8 × Mem) :=
  match runnerRun c.program ⟨flowVar, wholeBuffer pkt mac mem⟩ with
  | .ok s => .ok (s.pkt.read 0 pkt.length, s.flowVar)
  | .error f => .error (.vm f)

/-- The size of the prefix that a stream gets. -/
def headerSize (c : CompiledVm) (pkt : List UInt8) : Nat :=
  if c.prefixSize > pkt.length then pkt.length else c.prefixSize

/-- The mbuf that the program runs on. -/
def prefixBuffer (c : CompiledVm) (pkt : List UInt8) (mac : DstSrcMac) (mem : Mem) : Mem :=
  mem.putBytes 0
    (((mem.putBytes 0 (pkt.take (headerSize c pkt))).putBytes 0 mac.bytes).read 0
      (headerSize c pkt))

/-- **The cut is sound**: the prefix is not empty, the MAC addresses lie in it and in the packet,
and so does everything that the commands address or sum. -/
structure PrefixOk (c : CompiledVm) (pkt : List UInt8) (mac : DstSrcMac) (flowVar mem : Mem) :
    Prop where
  nonempty : headerSize c pkt ≠ 0
  macPrefix : 12 ≤ headerSize c pkt
  macPacket : 12 ≤ pkt.length
  fields : ∀ o ∈ commandsOf c.program, ∀ x, o.FieldByte x → x < headerSize c pkt
  headers : HeadersIn (headerSize c pkt) (commandsOf c.program) ⟨flowVar,
    prefixBuffer c pkt mac mem⟩

theorem headerSize_le (c : CompiledVm) (pkt : List UInt8) : headerSize c pkt ≤ pkt.length := by
  unfold headerSize
  split <;> omega

variable {c : CompiledVm} {pkt : List UInt8} {mac : DstSrcMac}

/-- The prefix buffer is the prefix of the whole buffer. -/
theorem prefixBuffer_eq (mem mem' : Mem) {x : Nat} (hx : x < headerSize c pkt) :
    prefixBuffer c pkt mac mem x = wholeBuffer pkt mac mem' x := by
  have hle := headerSize_le c pkt
  have hread : prefixBuffer c pkt mac mem x
      = ((mem.putBytes 0 (pkt.take (headerSize c pkt))).putBytes 0 mac.bytes) x := by
    have := Mem.putBytes_inside mem (a := 0) (i := x)
      (l := ((mem.putBytes 0 (pkt.take (headerSize c pkt))).putBytes 0 mac.bytes).read 0
        (headerSize c pkt))
      (b := ((mem.putBytes 0 (pkt.take (headerSize c pkt))).putBytes 0 mac.bytes) x)
      (by simp [Mem.read, hx])
    simpa [prefixBuffer] using this
  rw [hread, wholeBuffer]
  refine Mem.putBytes_congr fun _ => ?_
  have hget : pkt[x]? = some (pkt.get ⟨x, by omega⟩) := by simp
  have h1 := Mem.putBytes_inside mem (a := 0) (i := x) (l := pkt.take (headerSize c pkt))
    (by rw [List.getElem?_take_of_lt hx]; exact hget)
  have h2 := Mem.putBytes_inside mem' (a := 0) (i := x) hget
  simp only [Nat.zero_add] at h1 h2
  rw [h1, h2]

/-- Behind the MAC addresses the whole buffer holds the packet. -/
theorem read_wholeBuffer (mem : Mem) {h : Nat} (hmac : 12 ≤ h) (hle : h ≤ pkt.length) :
    (wholeBuffer pkt mac mem).read h (pkt.length - h) = pkt.drop h := by
  have hpkt : (mem.putBytes 0 pkt).read 0 pkt.length = pkt := Mem.read_putBytes mem 0 pkt
  have hsum : pkt.length = h + (pkt.length - h) := by omega
  rw [hsum, Mem.read_append, Nat.zero_add] at hpkt
  have hdrop : (mem.putBytes 0 pkt).read h (pkt.length - h) = pkt.drop h := by
    conv_rhs => rw [← hpkt]
    rw [drop_left' (by simp)]
  rw [← hdrop]
  refine Mem.read_congr fun x hx _ => ?_
  have := mac.length_eq
  exact Mem.putBytes_of_ge _ _ (by omega)

/-- **A sound cut sends the packet that the program makes of the whole packet.** -/
theorem sendPacket_eq_wholePacket {rand : Nat} {insts : List Instr} {pktLen : UInt16}
    (hc : compile rand insts pktLen = .ok (some c)) {flowVar mem : Mem}
    (hok : PrefixOk c pkt mac flowVar mem) (mem' : Mem) :
    sendPacket c pkt mac flowVar mem = wholePacket c pkt mac flowVar mem' := by
  obtain ⟨ops, hp⟩ := passed_of_compile hc
  have hfit := fits_buildCommands hp.commands
  obtain ⟨hne, hmac, -, hfields, hheaders⟩ := hok
  have hle := headerSize_le c pkt
  have hops : commandsOf c.program = ops := by rw [hp.program, commandsOf_bytes hfit]
  have hrun : ∀ s, runnerRun c.program s = runOps ops s := by
    intro s
    rw [hp.program, runnerRun_bytes hfit]
  rw [hops] at hfields hheaders
  have hconst : (if pkt.length > c.prefixSize then pkt.drop c.prefixSize else [])
      = pkt.drop (headerSize c pkt) := by
    unfold headerSize
    split
    · rw [if_neg (by omega)]
    · rw [drop_eq_nil_of_le]
      split <;> omega
  have hadd : addStreamVm c pkt mac mem = .ok ⟨headerSize c pkt,
      (mem.putBytes 0 (pkt.take (headerSize c pkt))).putBytes 0 mac.bytes,
      pkt.drop (headerSize c pkt)⟩ := by
    rw [← hconst]
    exact if_neg hne
  have hagree : ExceptRel (Agree (headerSize c pkt))
      (runOps ops ⟨flowVar, prefixBuffer c pkt mac mem⟩)
      (runOps ops ⟨flowVar, wholeBuffer pkt mac mem'⟩) :=
    runOps_agree hfields hheaders ⟨rfl, fun x hx => prefixBuffer_eq mem mem' hx⟩
  simp only [sendPacket, hadd, allocNodeWithVm, wholePacket, hrun, bind, Except.bind]
  change (match runOps ops ⟨flowVar, prefixBuffer c pkt mac mem⟩ with
    | .ok s => Except.ok (s.pkt.read 0 (headerSize c pkt) ++ pkt.drop (headerSize c pkt), s.flowVar)
    | .error f => .error (SendErr.vm f)) = _
  cases hw : runOps ops ⟨flowVar, wholeBuffer pkt mac mem'⟩ with
  | error e =>
    rw [hw] at hagree
    cases hs : runOps ops ⟨flowVar, prefixBuffer c pkt mac mem⟩ with
    | error e' =>
      rw [hs] at hagree
      exact congrArg (fun f => Except.error (SendErr.vm f)) hagree
    | ok s =>
      rw [hs] at hagree
      exact absurd hagree id
  | ok s' =>
    obtain ⟨s, hs, hfv, hpkt⟩ := hagree.ok_right hw
    rw [hs]
    -- the prefix is the run's, the rest is untouched in the whole packet
    have hrest : s'.pkt.read (headerSize c pkt) (pkt.length - headerSize c pkt)
        = pkt.drop (headerSize c pkt) := by
      rw [← read_wholeBuffer mem' hmac hle]
      exact Mem.read_congr fun x hx _ => runOps_frame hfields hw x hx
    have hfront : s.pkt.read 0 (headerSize c pkt) = s'.pkt.read 0 (headerSize c pkt) :=
      Mem.read_congr fun x _ hx => hpkt x (by omega)
    have hsum : pkt.length = headerSize c pkt + (pkt.length - headerSize c pkt) := by omega
    have hread : s'.pkt.read 0 pkt.length = s'.pkt.read 0 (headerSize c pkt)
        ++ pkt.drop (headerSize c pkt) := by
      conv_lhs => rw [hsum, Mem.read_append, Nat.zero_add, hrest]
    simp only [hread, hfront, hfv]

/-! ## 4. How long the prefix is -/

/-- The end of the field that an instruction is counted with: of a packet write its variable's
window, of a checksum fix the checksum field. -/
def Instr.fieldEnd (insts : List Instr) : Instr → Nat
  | .fixIpv4Cs i => i.pktOffset.toNat + 12
  | .pktWr i =>
    match varSize insts i.flowVarName with
    | some size => i.pktOffset.toNat + size
    | none => 0
  | _ => 0

/-- The end of the last field of a list, 0 when it does not change the packet. -/
def lastField (insts : List Instr) : List Instr → Nat
  | [] => 0
  | inst :: rest => max (inst.fieldEnd insts) (lastField insts rest)

section Fields

variable {insts : List Instr} {t : VarTable} {pktSize insId cnt : Nat} {ops : List DpOp}

/-- What `add_field_cnt` is given for one instruction: the end of its field, which lies in the
packet, and whose last byte is one the command addresses. -/
theorem buildCommand_fields (ht : buildFlowVarTable insts = .ok t) (hsize : pktSize < 2 ^ 16)
    {inst : Instr} (hb : buildCommand t pktSize insId inst = .ok (cnt, ops)) :
    cnt = inst.fieldEnd insts ∧ cnt ≤ pktSize ∧ (∀ o ∈ ops, ∀ x, o.FieldByte x → x < cnt)
      ∧ (cnt ≠ 0 → ∃ o ∈ ops, o.FieldByte (cnt - 1)) := by
  obtain ⟨hlays, -, -⟩ := lays_buildFlowVarTable 0 ht
  cases inst with
  | fixIpv4Cs i =>
    simp only [buildCommand] at hb
    split at hb
    · cases hb
    rename_i hle
    simp only [ipv4HdrLen] at hle
    cases hb
    have hmod : (i.pktOffset.toNat + 12) % 2 ^ 16 = i.pktOffset.toNat + 12 :=
      Nat.mod_eq_of_lt (by omega)
    rw [hmod]
    refine ⟨rfl, by omega, ?_, fun _ => ⟨_, mem_singleton.mpr rfl, Or.inr ?_⟩⟩
    · intro o ho x hx
      rw [mem_singleton.mp ho] at hx
      rcases hx with rfl | hx <;> omega
    · constructor <;> omega
  | flowMan i =>
    simp only [buildCommand] at hb
    split at hb
    · obtain ⟨off, -, hb⟩ := bind_eq_ok hb
      cases hb
      refine ⟨rfl, Nat.zero_le _, ?_, fun h => absurd rfl h⟩
      intro o ho x hx
      rw [mem_singleton.mp ho] at hx
      exact absurd hx id
    · cases hb
      exact ⟨rfl, Nat.zero_le _, fun o ho => absurd ho (by simp), fun h => absurd rfl h⟩
  | pktWr i =>
    simp only [buildCommand] at hb
    split at hb
    · cases hb
    rename_i var hvar
    split at hb
    · cases hb
    rename_i hle
    obtain ⟨w, hw⟩ := hlays.width hvar
    have hwb := ofSize_bytes hw
    have hpos : 1 ≤ w.bytes := by cases w <;> decide
    have hmod : (i.pktOffset.toNat + var.sizeBytes) % 2 ^ 16 = i.pktOffset.toNat + var.sizeBytes :=
      Nat.mod_eq_of_lt (by omega)
    simp only [hw, hmod] at hb
    cases hb
    refine ⟨?_, by omega, ?_, fun _ => ⟨_, mem_singleton.mpr rfl, ?_⟩⟩
    · simp only [Instr.fieldEnd, hlays.varSize_eq hvar]
    · intro o ho x hx
      rw [mem_singleton.mp ho] at hx
      obtain ⟨h1, h2⟩ := hx
      omega
    · constructor <;> omega
  | flowClient i =>
    obtain ⟨off, -, hb⟩ := bind_eq_ok hb
    split at hb <;>
      · cases hb
        refine ⟨rfl, Nat.zero_le _, ?_, fun h => absurd rfl h⟩
        intro o ho x hx
        rw [mem_singleton.mp ho] at hx
        exact absurd hx id

/-- **`m_max_field_update` is the end of the last field**, its last byte is addressed, and nothing
behind it is. -/
theorem buildCommands_fields (ht : buildFlowVarTable insts = .ok t) (hsize : pktSize < 2 ^ 16) :
    ∀ {rest : List Instr} {insId cnt : Nat} {ops : List DpOp},
      buildCommands t pktSize insId rest = .ok (cnt, ops) →
        cnt = lastField insts rest ∧ cnt ≤ pktSize ∧ (∀ o ∈ ops, ∀ x, o.FieldByte x → x < cnt)
          ∧ (cnt ≠ 0 → ∃ o ∈ ops, o.FieldByte (cnt - 1))
  | [], insId, cnt, ops, hb => by
    cases hb
    exact ⟨rfl, Nat.zero_le _, fun o ho => absurd ho (by simp), fun h => absurd rfl h⟩
  | inst :: rest, insId, cnt, ops, hb => by
    obtain ⟨⟨c1, ops1⟩, hb1, hb⟩ := bind_eq_ok hb
    obtain ⟨⟨c2, ops2⟩, hb2, hb⟩ := bind_eq_ok hb
    cases hb
    obtain ⟨h1, hle1, hin1, hlast1⟩ := buildCommand_fields ht hsize hb1
    obtain ⟨h2, hle2, hin2, hlast2⟩ := buildCommands_fields ht hsize hb2
    refine ⟨by rw [lastField, h1, h2], max_le hle1 hle2, ?_, fun hne => ?_⟩
    · intro o ho x hx
      rcases mem_append.mp ho with ho | ho
      · exact lt_of_lt_of_le (hin1 o ho x hx) (le_max_left _ _)
      · exact lt_of_lt_of_le (hin2 o ho x hx) (le_max_right _ _)
    · rcases max_choice c1 c2 with hm | hm
      · rw [hm] at hne ⊢
        obtain ⟨o, ho, hx⟩ := hlast1 hne
        exact ⟨o, mem_append_left _ ho, hx⟩
      · rw [hm] at hne ⊢
        obtain ⟨o, ho, hx⟩ := hlast2 hne
        exact ⟨o, mem_append_right _ ho, hx⟩

end Fields

/-- `calc_writable_mbuf_size` without its 16-bit arithmetic. -/
theorem calcWritableMbufSize_eq {last size : Nat} (hle : last ≤ size) (hsize : size < 2 ^ 16) :
    calcWritableMbufSize last size =
      if size ≤ 128 ∨ size < last + 63 then size else if last = 0 then 2 ^ 16 - 1
          else last - 1 := by
  have hmod1 : (size + 2 ^ 16 + 1 - last) % 2 ^ 16
      = if last = 0 ∧ size + 1 = 2 ^ 16 then 0 else size + 1 - last := by
    split <;> omega
  have hmod2 : (last + 2 ^ 16 - 1) % 2 ^ 16 = if last = 0 then 2 ^ 16 - 1 else last - 1 := by
    split <;> omega
  unfold calcWritableMbufSize
  simp only [hmod1, hmod2]
  split_ifs <;> omega

/-- **`calc_writable_mbuf_size` reaches the last field only when it takes the whole packet**: the
packet is short, or nothing is written, or fewer than 64 bytes are left behind the cut. -/
theorem calcWritableMbufSize_reaches {last size : Nat} (hle : last ≤ size) (hsize : size < 2 ^ 16) :
    (last ≤ min (calcWritableMbufSize last size) size
      ↔ size ≤ 128 ∨ last = 0 ∨ size < last + 63)
    ∧ (last ≤ min (calcWritableMbufSize last size) size →
        min (calcWritableMbufSize last size) size = size) := by
  rw [calcWritableMbufSize_eq hle hsize]
  split_ifs <;> omega

/-! ## 5. When the cut is sound -/

/-- The header of a checksum fix ends before `n`, in the packet the instruction finds. -/
def Instr.HeaderIn (n : Nat) : Instr → NamedState → Prop
  | .fixIpv4Cs i, s => i.pktOffset.toNat + getHeaderLength s.pkt i.pktOffset.toNat ≤ n
  | _, _ => True

/-- Every checksum fix of a list finds a header that ends before `n`. -/
def NamedHeadersIn (n : Nat) (insts : List Instr) : List Instr → NamedState → Prop
  | [], _ => True
  | inst :: rest, s =>
    inst.HeaderIn n s ∧ ∀ s', inst.exec insts s = .ok s' → NamedHeadersIn n insts rest s'

/-- The streams for which the cut is sound: the packet has room for the MAC addresses, the whole
packet is taken as the prefix, and every IPv4 header whose checksum is fixed ends in the packet. -/
structure CutUnused (insts : List Instr) (pkt : List UInt8) (mac : DstSrcMac) (env : Env) :
    Prop where
  room : 12 ≤ pkt.length
  whole : pkt.length ≤ 128 ∨ lastField insts insts = 0 ∨ pkt.length < lastField insts insts + 63
  headers : NamedHeadersIn pkt.length insts insts ⟨env, wholeBuffer pkt mac fun _ => 0⟩

section Headers

variable {insts : List Instr} {t : VarTable} {pktSize n : Nat}

theorem headersIn_append : ∀ {ops ops' : List DpOp} {s : DpState},
    HeadersIn n (ops ++ ops') s ↔ HeadersIn n ops s ∧ ∀ s', runOps ops s = .ok s' →
      HeadersIn n ops' s'
  | [], ops', s => by
    constructor
    · intro h
      refine ⟨trivial, fun s' hs => ?_⟩
      cases hs
      exact h
    · exact fun h => h.2 s rfl
  | o :: os, ops', s => by
    simp only [cons_append, HeadersIn]
    constructor
    · rintro ⟨h1, h2⟩
      refine ⟨⟨h1, fun s' hs => (headersIn_append.mp (h2 s' hs)).1⟩, fun s' hs => ?_⟩
      obtain ⟨s1, hs1, hs⟩ := bind_eq_ok hs
      exact (headersIn_append.mp (h2 s1 hs1)).2 s' hs
    · rintro ⟨⟨h1, h2⟩, h3⟩
      refine ⟨h1, fun s1 hs1 => headersIn_append.mpr ⟨h2 s1 hs1, fun s' hs => h3 s' ?_⟩⟩
      simp only [runOps, hs1]
      exact hs

/-- The headers of the commands emitted for one instruction are the header of the instruction. -/
theorem headersIn_buildCommand {insId cnt : Nat} {ops : List DpOp} {inst : Instr} {s : DpState}
    {m : NamedState} (hb : buildCommand t pktSize insId inst = .ok (cnt, ops))
    (hpkt : s.pkt = m.pkt) :
    HeadersIn n ops s ↔ inst.HeaderIn n m := by
  have hone : ∀ o : DpOp, HeadersIn n [o] s ↔ o.HeaderIn n s := by
    intro o
    simp [HeadersIn]
  cases inst with
  | fixIpv4Cs i =>
    simp only [buildCommand] at hb
    split at hb
    · cases hb
    · cases hb
      rw [hone, DpOp.HeaderIn, Instr.HeaderIn, hpkt]
  | flowMan i =>
    simp only [buildCommand] at hb
    split at hb
    · obtain ⟨off, -, hb⟩ := bind_eq_ok hb
      cases hb
      exact hone _
    · cases hb
      exact Iff.rfl
  | pktWr i =>
    simp only [buildCommand] at hb
    split at hb
    · cases hb
    split at hb
    · cases hb
    split at hb
    · cases hb
      exact hone _
    · cases hb
      exact Iff.rfl
  | flowClient i =>
    obtain ⟨off, -, hb⟩ := bind_eq_ok hb
    split at hb <;>
      · cases hb
        exact hone _

/-- The commands sum the headers that the instructions name. -/
theorem headersIn_iff (ht : buildFlowVarTable insts = .ok t) : ∀ {rest : List Instr}
    {insId cnt : Nat} {ops : List DpOp} {s : DpState} {m : NamedState}, (∀ i ∈ rest, i ∈ insts) →
      buildCommands t pktSize insId rest = .ok (cnt, ops) → Sim t s m →
        (HeadersIn n ops s ↔ NamedHeadersIn n insts rest m)
  | [], insId, cnt, ops, s, m, _, hb, _ => by
    cases hb
    exact Iff.rfl
  | inst :: rest, insId, cnt, ops, s, m, hsub, hb, hsim => by
    obtain ⟨⟨c1, ops1⟩, hb1, hb⟩ := bind_eq_ok hb
    obtain ⟨⟨c2, ops2⟩, hb2, hb⟩ := bind_eq_ok hb
    cases hb
    have hstep := sim_instr ht (hsub inst (by simp)) hb1 hsim
    have hrest : ∀ {s' : DpState} {m' : NamedState}, Sim t s' m' →
        (HeadersIn n ops2 s' ↔ NamedHeadersIn n insts rest m') :=
      fun hsim' => headersIn_iff ht (fun i hi => hsub i (by simp [hi])) hb2 hsim'
    rw [headersIn_append, headersIn_buildCommand hb1 hsim.pkt, NamedHeadersIn]
    refine and_congr_right fun _ => ⟨fun h m' hm => ?_, fun h s' hs => ?_⟩
    · obtain ⟨s', hs', hsim'⟩ := hstep.ok_right hm
      exact (hrest hsim').mp (h s' hs')
    · obtain ⟨m', hm', hsim'⟩ := hstep.ok_left hs
      exact (hrest hsim').mpr (h m' hm')

end Headers

/-- **When the cut is sound.** -/
theorem prefixOk_iff {rand : Nat} {insts : List Instr} {pktLen : UInt16}
    (hc : compile rand insts pktLen = .ok (some c)) (hlen : pkt.length = pktLen.toNat)
    (mac : DstSrcMac) {flowVar : Mem} {env : Env} (hrep : Rep c.table flowVar env) (mem : Mem) :
    PrefixOk c pkt mac flowVar mem ↔ CutUnused insts pkt mac env := by
  obtain ⟨ops, hp⟩ := passed_of_compile hc
  have hsize : pkt.length < 2 ^ 16 := by
    rw [hlen]
    exact pktLen.toNat_lt
  have hops : commandsOf c.program = ops := by
    rw [hp.program, commandsOf_bytes (fits_buildCommands hp.commands)]
  obtain ⟨hlast, hle, hin, hattained⟩ := buildCommands_fields hp.table (hlen ▸ hsize) hp.commands
  rw [← hlen] at hle
  have hhs : headerSize c pkt
      = min (calcWritableMbufSize (lastField insts insts) pkt.length) pkt.length := by
    rw [headerSize, hp.writable, ← hlast, ← hlen]
    split <;> omega
  obtain ⟨hreach, hwhole⟩ := calcWritableMbufSize_reaches (hlast ▸ hle) hsize
  rw [← hhs] at hreach hwhole
  -- the fields lie in the prefix exactly when the last one does
  have hfields : (∀ o ∈ ops, ∀ x, o.FieldByte x → x < headerSize c pkt)
      ↔ lastField insts insts ≤ headerSize c pkt := by
    rw [← hlast]
    constructor
    · intro h
      by_contra hlt
      obtain ⟨o, ho, hx⟩ := hattained (by omega)
      have := h o ho _ hx
      omega
    · exact fun h o ho x hx => lt_of_lt_of_le (hin o ho x hx) h
  have hnamed : ∀ {s : DpState}, s = ⟨flowVar, wholeBuffer pkt mac fun _ => 0⟩ →
      (HeadersIn pkt.length ops s
        ↔ NamedHeadersIn pkt.length insts insts ⟨env, wholeBuffer pkt mac fun _ => 0⟩) := by
    rintro s rfl
    exact headersIn_iff hp.table (fun i hi => hi) hp.commands ⟨hrep, rfl⟩
  have hagree : Agree (headerSize c pkt) ⟨flowVar, prefixBuffer c pkt mac mem⟩
      ⟨flowVar, wholeBuffer pkt mac fun _ => 0⟩ := ⟨rfl, fun x hx => prefixBuffer_eq mem _ hx⟩
  constructor
  · rintro ⟨-, -, hmac, hf, hh⟩
    rw [hops] at hf hh
    have hl := hfields.mp hf
    have hh' := headersIn_congr hf hagree hh
    rw [hwhole hl] at hh'
    exact ⟨hmac, hreach.mp hl, (hnamed rfl).mp hh'⟩
  · rintro ⟨hmac, hcut, hh⟩
    have hl := hreach.mpr hcut
    have heq := hwhole hl
    have hf := hfields.mpr hl
    have hh' : HeadersIn (headerSize c pkt) ops ⟨flowVar, wholeBuffer pkt mac fun _ => 0⟩ := by
      rw [heq]
      exact (hnamed rfl).mpr hh
    have hsymm : Agree (headerSize c pkt) ⟨flowVar, wholeBuffer pkt mac fun _ => 0⟩
        ⟨flowVar, prefixBuffer c pkt mac mem⟩ := ⟨rfl, fun x hx => (hagree.pkt x hx).symm⟩
    refine ⟨by omega, by omega, hmac, ?_, ?_⟩
    · rw [hops]
      exact hf
    · rw [hops]
      exact headersIn_congr hf hsymm hh'

/-- **The packet that is sent is the packet that the program makes of the whole**, with every byte
the program reads or writes and both MAC addresses inside the prefix, exactly when the prefix is
the whole packet and every header that is summed ends in it. -/
theorem prefix_split_exact (rand : Nat) (insts : List Instr) (pktLen : UInt16) (c : CompiledVm)
    (hc : compile rand insts pktLen = .ok (some c)) (pkt : List UInt8)
    (hlen : pkt.length = pktLen.toNat) (mac : DstSrcMac) (flowVar : Mem) (env : Env)
    (hrep : Rep c.table flowVar env) (mem mem' : Mem) :
    (PrefixOk c pkt mac flowVar mem
        ∧ sendPacket c pkt mac flowVar mem = wholePacket c pkt mac flowVar mem')
      ↔ CutUnused insts pkt mac env := by
  rw [← prefixOk_iff hc hlen mac hrep mem]
  constructor
  · exact fun h => h.1
  · exact fun h => ⟨h, sendPacket_eq_wholePacket hc h mem'⟩

/-- A one-byte counter that is written at offset 50. -/
def byteCounter : List Instr :=
  [.flowMan ⟨"cnt", 1, .INC, 1, 0, 255⟩, .pktWr ⟨"cnt", 50, 0, true⟩]

/-- Addresses of all zeros. -/
def zeroMac : DstSrcMac := ⟨List.replicate 12 0, by simp⟩

theorem cutUnused_byteCounter (env : Env) :
    CutUnused byteCounter (List.replicate 64 0) zeroMac env where
  room := by simp
  whole := by simp
  headers := by simp [NamedHeadersIn, Instr.HeaderIn, byteCounter]

theorem prefix_split_exact_byteCounter : ∃ c, compile 1 byteCounter 64 = .ok (some c)
    ∧ PrefixOk c (List.replicate 64 0) zeroMac (fun a => c.bss.getD a 0) (fun _ => 0)
    ∧ sendPacket c (List.replicate 64 0) zeroMac (fun a => c.bss.getD a 0) (fun _ => 0)
      = wholePacket c (List.replicate 64 0) zeroMac (fun a => c.bss.getD a 0) (fun _ => 0) := by
  obtain ⟨c, hc⟩ : ∃ c, compile 1 byteCounter 64 = .ok (some c) := ⟨_, rfl⟩
  refine ⟨c, hc, ?_⟩
  exact (prefix_split_exact 1 byteCounter 64 c hc _ rfl zeroMac _ _
    (rep_bss hc (Mem.read_getD c.bss)) _ _).mpr (cutUnused_byteCounter _)

/-- **The byte in front of the cut is lost.**  In a packet of 200 bytes the counter's byte is the
first one of the constant rest: the packet made of the whole carries the counter's first value 1,
the packet that is sent carries the original 0. -/
theorem byteCounter_loses_last_byte : ∃ c, compile 1 byteCounter 200 = .ok (some c)
    ∧ c.prefixSize = 50
    ∧ (sendPacket c (List.replicate 200 0) zeroMac (fun a => c.bss.getD a 0) (fun _ =>
        0)).toOption.map (fun r => r.1[50]?) = some (some 0)
    ∧ (wholePacket c (List.replicate 200 0) zeroMac (fun a => c.bss.getD a 0) (fun _ =>
        0)).toOption.map (fun r => r.1[50]?) = some (some 1) := by
  refine ⟨_, rfl, ?_, ?_, ?_⟩
  · decide
  · decide +kernel
  · decide +kernel

end Trex.Vm
