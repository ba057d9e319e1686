/-
# Adding a stream

`TrexRpcCmdAddStream::_run` (`trex_rpc_cmd_stream.cpp`) parses a stream out of the request, field by
field, validates it and adds it to its port.  Everything in front of the last step only looks, and
the last step throws before it changes anything, so a request that fails leaves nothing behind
(`runAddStream_onThrow`).

The length of the packet is kept in 16 bits (`m_pkt.len`), and what is validated is the length that
was kept.  A packet of `2 ^ 16` bytes or more is therefore taken for one of its length modulo `2 ^
16`, and what is stored is not what was given exactly if that length is valid
(`add_stream_stores_iff`).
-/
import Trex.Rpc.Ownership

namespace Trex.Rpc

open Trex.Lib Trex.Vm Trex.Stream Trex.Cp

/-! ## 1. Elements of arrays -/

/-- The text that stands for the name of an array element. -/
def elementName (index : Nat) : String := "array element: " ++ toString (index + 1) ++ " "

/-- `check_field_type` of an array element, and the first check of `check_field_type_common`. -/
def checkElement (parent : Json) (index : Nat) : Except RpcErr Json :=
  match parent with
  | .array vs =>
    match vs.getD index .null with
    | .null => .error (.missing (elementName index))
    | v => .ok v
  | _ => .error (.escapes "internal parsing error")

/-- `parse_byte` of an array element. -/
def parseByteAt (parent : Json) (index : Nat) : Except RpcErr UInt8 := do
  let v ← checkElement parent index
  byteOf v (elementName index)

/-- `parse_object` of an array element. -/
def parseObjectAt (parent : Json) (index : Nat) : Except RpcErr Json := do
  let v ← checkElement parent index
  match v with
  | .object members => .ok (.object members)
  | _ => .error (.wrongType (elementName index) v.typeName "object")

/-- `parse_array`. -/
def parseArray (parent : Json) (name : String) : Except RpcErr Json := do
  let v ← checkField parent name
  match v with
  | .array vs => .ok (.array vs)
  | _ => .error (.wrongType name v.typeName "array")

/-- `parse_uint16`. -/
def parseUInt16 (parent : Json) (name : String) : Except RpcErr UInt16 := do
  let v ← checkField parent name
  uint16Of v name

/-- `parse_choice` from integers: a number that was parsed as another type is none of them. -/
def parseChoiceInt (parent : Json) (name : String) (choices : List Int) : Except RpcErr Int :=
  let refused := RpcErr.parseErr ("field '" ++ name ++ "' can only be one of ["
    ++ " ,".intercalate (choices.map fun c => "'" ++ toString c ++ "'") ++ "]")
  match parent.field name with
  | .null => .error (.missing name)
  | .int v => if v ∈ choices then .ok v else .error refused
  | _ => .error refused

/-! ## 2. The stream section -/

/-- The constructor of `TrexStream`, but for the ids. -/
def newStream (type : StreamType) : TrexStream where
  type := type
  portId := 0
  streamId := 0
  isgUsec := 0
  nextStreamId := -1
  enabled := false
  selfStart := false
  vm := {}
  vmDp := none
  pkt := ⟨[], 0⟩
  pps := -1
  burstTotalPkts := 0
  numBursts := 1
  ibgUsec := 0

/-- `allocate_new_stream`.  The next stream id is not parsed yet, so its check never fails. -/
def allocateNewStream (streamSection : Json) : Except RpcErr TrexStream := do
  let mode ← parseObject streamSection "mode"
  let type ← parseString mode "type"
  if type = "continuous" then do
    let pps ← parseDouble mode "pps"
    let stream := { newStream .stCONTINUOUS with pps := pps }
    if stream.nextStreamId ≠ -1 then
      .error (.parseErr "continious stream cannot provide next stream id - only -1 is valid")
    else .ok stream
  else if type = "single_burst" then do
    let totalPkts ← parseInt mode "total_pkts"
    let pps ← parseDouble mode "pps"
    .ok { newStream .stSINGLE_BURST with pps := pps, burstTotalPkts := totalPkts.toUInt32 }
  else if type = "multi_burst" then do
    let pps ← parseDouble mode "pps"
    let ibgUsec ← parseDouble mode "ibg"
    let numBursts ← parseInt mode "number_of_bursts"
    let pktsPerBurst ← parseInt mode "pkts_per_burst"
    .ok { newStream .stMULTI_BURST with
      pps := pps
      burstTotalPkts := pktsPerBurst.toUInt32
      numBursts := numBursts.toUInt32
      ibgUsec := ibgUsec }
  else .error (.parseErr ("bad stream type provided: '" ++ type ++ "'"))

/-- `parse_vm_instr_checksum`. -/
def parseVmInstrChecksum (inst : Json) : Except RpcErr Instr := do
  let pktOffset ← parseUInt16 inst "pkt_offset"
  .ok (.fixIpv4Cs ⟨pktOffset⟩)

/-- `parse_vm_instr_tuple_flow_var`. -/
def parseVmInstrTupleFlowVar (inst : Json) : Except RpcErr Instr := do
  let flowVarName ← parseString inst "name"
  let ipMin ← parseUInt32 inst "ip_min"
  let ipMax ← parseUInt32 inst "ip_max"
  let portMin ← parseUInt16 inst "port_min"
  let portMax ← parseUInt16 inst "port_max"
  let limitFlows ← parseUInt32 inst "limit_flows"
  let flags ← parseUInt16 inst "flags"
  .ok (.flowClient ⟨flowVarName, ipMin, ipMax, portMin, portMax, limitFlows, flags⟩)

/-- `parse_vm_instr_flow_var`. -/
def parseVmInstrFlowVar (inst : Json) : Except RpcErr Instr := do
  let flowVarName ← parseString inst "name"
  let flowVarSize ← parseChoiceInt inst "size" [1, 2, 4, 8]
  let opType ← parseChoice inst "op" [("inc", FlowVarOp.INC), ("dec", FlowVarOp.DEC),
    ("random", FlowVarOp.RANDOM)]
  let initValue ← parseUInt64 inst "init_value"
  let minValue ← parseUInt64 inst "min_value"
  let maxValue ← parseUInt64 inst "max_value"
  .ok (.flowMan ⟨flowVarName, UInt8.ofNat flowVarSize.toNat, opType, initValue, minValue, maxValue⟩)

/-- `parse_vm_instr_write_flow_var`. -/
def parseVmInstrWriteFlowVar (inst : Json) : Except RpcErr Instr := do
  let flowVarName ← parseString inst "name"
  let pktOffset ← parseUInt16 inst "pkt_offset"
  let addValue ← parseInt inst "add_value"
  let isBigEndian ← parseBool inst "is_big_endian"
  .ok (.pktWr ⟨flowVarName, pktOffset, addValue, isBigEndian⟩)

/-- One turn of the loop of `parse_vm`. -/
def parseVmInstr (instructions : Json) (index : Nat) : Except RpcErr Instr := do
  let inst ← parseObjectAt instructions index
  let parse ← parseChoice inst "type" [("fix_checksum_ipv4", parseVmInstrChecksum),
    ("flow_var", parseVmInstrFlowVar), ("write_flow_var", parseVmInstrWriteFlowVar),
    ("tuple_flow_var", parseVmInstrTupleFlowVar)]
  parse inst

/-- `lookup_var_by_name`: the position of the first variable with the name. -/
def lookupVarByName (insts : List Instr) (varName : String) : Option Nat :=
  insts.findIdx? fun
    | .flowMan i => i.varName == varName
    | .flowClient i => i.varName == varName
    | _ => false

/-- A loop that parses the elements of an array from one on. -/
def parseElements {α : Type} (parse : Json → Nat → Except RpcErr α) (arr : Json) :
    Nat → Nat → Except RpcErr (List α)
  | _, 0 => .ok []
  | index, left + 1 => do
    let a ← parse arr index
    let rest ← parseElements parse arr (index + 1) left
    .ok (a :: rest)

/-- `parse_vm`. -/
def parseVm (vm : Json) : Except RpcErr StreamVm := do
  let instructions ← parseArray vm "instructions"
  let insts ← parseElements parseVmInstr instructions 0 instructions.size
  let varName ← parseString vm "split_by_var"
  if varName ≠ "" then
    match lookupVarByName insts varName with
    | none => .error (.parseErr ("VM: request to split by variable '" ++ varName ++
        "' but does not exists"))
    | some k => .ok ⟨insts, some k⟩
  else .ok ⟨insts, none⟩

/-- The part of `_run` that reads the packet: its size is stored in a `uint16_t`. -/
def parsePacket (pktBinary : Json) : Except RpcErr CStreamPktData := do
  let binary ← parseElements parseByteAt pktBinary 0 pktBinary.size
  .ok ⟨binary, UInt16.ofNat pktBinary.size⟩

/-- The part of `_run` that reads `rx_stats`, whose values are left out. -/
def parseRxStats (streamSection : Json) : Except RpcErr Unit := do
  let rx ← parseObject streamSection "rx_stats"
  let enable ← parseBool rx "enabled"
  if enable then do
    let _ ← parseInt rx "stream_id"
    let _ ← parseBool rx "seq_enabled"
    let _ ← parseBool rx "latency_enabled"
    .ok ()
  else .ok ()

/-- The part of `_run` that reads the stream section. -/
def parseStream (streamSection : Json) : Except RpcErr TrexStream := do
  let mode ← parseObject streamSection "mode"
  let _ ← parseString mode "type"
  let stream ← allocateNewStream streamSection
  let enabled ← parseBool streamSection "enabled"
  let selfStart ← parseBool streamSection "self_start"
  let isgUsec ← parseDouble streamSection "isg"
  let nextStreamId ← parseInt streamSection "next_stream_id"
  let pkt ← parseObject streamSection "packet"
  let pktBinary ← parseArray pkt "binary"
  let packet ← parsePacket pktBinary
  let _ ← parseString pkt "meta"
  let vmSection ← parseObject streamSection "vm"
  let vm ← parseVm vmSection
  parseRxStats streamSection
  .ok { stream with
    enabled := enabled
    selfStart := selfStart
    isgUsec := isgUsec
    nextStreamId := nextStreamId
    pkt := packet
    vm := vm }

/-! ## 3. What a request leaves behind -/

/-- The decoded packet of a request: all its bytes. -/
def decodedPacket (params : Json) : Except RpcErr (List UInt8) := do
  let streamSection ← parseObject params "stream"
  let pkt ← parseObject streamSection "packet"
  let pktBinary ← parseArray pkt "binary"
  parseElements parseByteAt pktBinary 0 pktBinary.size

theorem length_parseElements {α : Type} {parse : Json → Nat → Except RpcErr α} {arr : Json} :
    ∀ {left index : Nat} {as : List α}, parseElements parse arr index left = .ok as →
      as.length = left
  | 0, index, as, h => by
    cases h
    rfl
  | left + 1, index, as, h => by
    obtain ⟨a, -, h⟩ := bind_eq_ok h
    obtain ⟨rest, hrest, h⟩ := bind_eq_ok h
    cases h
    rw [List.length_cons, length_parseElements hrest]

variable {params : Json} {stream : TrexStream}

/-- **The packet of a parsed stream** has all bytes, and their number in 16 bits. -/
theorem parseStream_pkt {streamSection : Json}
    (hs : parseObject params "stream" = .ok streamSection)
    (h : parseStream streamSection = .ok stream) :
    decodedPacket params = .ok stream.pkt.binary ∧
        stream.pkt.len = UInt16.ofNat stream.pkt.binary.length := by
  obtain ⟨mode, -, h⟩ := bind_eq_ok h
  obtain ⟨type, -, h⟩ := bind_eq_ok h
  obtain ⟨allocated, -, h⟩ := bind_eq_ok h
  obtain ⟨enabled, -, h⟩ := bind_eq_ok h
  obtain ⟨selfStart, -, h⟩ := bind_eq_ok h
  obtain ⟨isgUsec, -, h⟩ := bind_eq_ok h
  obtain ⟨nextStreamId, -, h⟩ := bind_eq_ok h
  obtain ⟨pkt, hpkt, h⟩ := bind_eq_ok h
  obtain ⟨pktBinary, hbinary, h⟩ := bind_eq_ok h
  obtain ⟨packet, hpacket, h⟩ := bind_eq_ok h
  obtain ⟨metaText, -, h⟩ := bind_eq_ok h
  obtain ⟨vmSection, -, h⟩ := bind_eq_ok h
  obtain ⟨vm, -, h⟩ := bind_eq_ok h
  obtain ⟨rx, -, h⟩ := bind_eq_ok h
  cases h
  obtain ⟨binary, hbytes, hpacket⟩ := bind_eq_ok hpacket
  cases hpacket
  refine ⟨?_, ?_⟩
  · rw [decodedPacket, hs]
    simp only [ok_bind, hpkt, hbinary, hbytes]
  · rw [length_parseElements hbytes]

namespace TrexStateless

variable {cores : UInt8 → UInt8} {s s' : TrexStateless cores}

/-- The server with the parser of the stream section. -/
def withParser (oracle : Oracle) : Oracle := { oracle with parseStream := parseStream }

variable {n portId : UInt8} {port : ControlPort n} {oracle : Oracle}

variable {port' : ControlPort n} {bytes : List UInt8}

/-- The state is verified before anything is changed. -/
theorem addStream_eq_error {e : Throw} (h : ControlPort.addStream stream port = .error e port') :
    port' = port := by
  rcases bind_eq_errorState h with hverify | ⟨_, _, -, h1⟩
  · rcases bind_eq_errorState hverify with hget | ⟨_, _, hget, h1⟩
    · cases hget
    cases hget
    split at h1
    · cases h1
    · cases h1
      rfl
  · cases h1

/-- A port to which a stream was added. -/
def added {n : UInt8} (stream : TrexStream) (port : ControlPort n) : ControlPort n :=
  { port with
    streamTable := (port.streamTable.filter fun s => s.streamId != stream.streamId) ++ [stream]
    graphObj := none
    portState := .PORT_STATE_STREAMS }

/-- The port has no stream with the id. -/
def NewId {n : UInt8} (streamId : UInt32) (port : ControlPort n) : Prop :=
  ∀ stored ∈ port.streamTable, stored.streamId ≠ streamId

/-- The port may get streams. -/
def TakesStreams {n : UInt8} (port : ControlPort n) : Prop :=
  port.portState ∈ [TrexStatelessPort.PortState.PORT_STATE_IDLE,
    TrexStatelessPort.PortState.PORT_STATE_STREAMS]

theorem added_streamTable (hnew : NewId stream.streamId port) :
    (added stream port).streamTable = port.streamTable ++ [stream] := by
  rw [added, List.filter_eq_self.mpr fun stored hmem => bne_iff_ne.mpr (hnew stored hmem)]

theorem addStream_eq_ok {u : Unit} (h : ControlPort.addStream stream port = .ok u port') :
    TakesStreams port ∧ port' = added stream port := by
  obtain ⟨_, _, hverify, h1⟩ := bind_eq_okState h
  obtain ⟨rfl, hstate⟩ := ControlPort.verifyState_eq_okState hverify
  cases h1
  exact ⟨hstate, rfl⟩

theorem addStream_of (hstate : TakesStreams port) (stream : TrexStream) :
    ControlPort.addStream stream port = .ok () (added stream port) := by
  have hverify : (ControlPort.verifyState [.PORT_STATE_IDLE, .PORT_STATE_STREAMS] : PortProg n Unit)
      port = .ok () port := by
    refine (get_bind _ _).trans ?_
    exact congrFun (if_pos hstate) port
  exact bind_of_ok hverify

theorem setPort_self (portId : UInt8) : s.setPort portId (s.ports portId) = s := by
  rw [setPort, Function.update_eq_self]

theorem validateStream_looks (port : ControlPort (cores stream.portId)) :
    Looks (validateStream stream port : RpcProg cores Unit) :=
  looks_bind (looks_throwIf _ _) fun _ => looks_throwIf _ _

theorem any_streamId_iff {streamId : UInt32} :
    ¬ (port.streamTable.any fun s => s.streamId == streamId) = true ↔ NewId streamId port := by
  simp only [List.any_eq_true, beq_iff_eq, not_exists, not_and]
  exact Iff.rfl

/-- **A stream that is valid** has a length in its bounds, and an id that the port does not have. -/
theorem validateStream_eq_ok {port : ControlPort (cores stream.portId)} {u : Unit}
    (h : validateStream stream port s = .ok u s') :
    (1 ≤ stream.pkt.len ∧ stream.pkt.len ≤ 9000) ∧ NewId stream.streamId port := by
  obtain ⟨_, _, hsize, h1⟩ := bind_eq_okState h
  obtain ⟨hlen, rfl⟩ := throwIf_eq_ok hsize
  obtain ⟨hid, -⟩ := throwIf_eq_ok h1
  obtain ⟨hmin, hmax⟩ := not_or.mp hlen
  exact ⟨⟨UInt16.not_lt.mp hmin, UInt16.not_lt.mp hmax⟩, any_streamId_iff.mp hid⟩

theorem validateStream_of {port : ControlPort (cores stream.portId)} (hmin : 1 ≤ stream.pkt.len)
    (hmax : stream.pkt.len ≤ 9000) (hnew : NewId stream.streamId port) :
    validateStream stream port s = .ok () s := by
  have hlen : ¬ (stream.pkt.len < 1 ∨ stream.pkt.len > 9000) :=
    not_or.mpr ⟨UInt16.not_lt.mpr hmin, UInt16.not_lt.mpr hmax⟩
  refine (throwIf_bind_of_not hlen _ _ _).trans ?_
  rw [throwIf, if_neg (any_streamId_iff.mpr hnew)]
  rfl

/-- **A request that fails changes nothing.** -/
theorem runAddStream_onThrow (oracle : Oracle) (params : Json) :
    OnThrow (fun _ => True) (fun s s' =>
        s' = s) (runAddStream oracle params : RpcProg cores Result) := by
  have htrans : ∀ {a b c : TrexStateless cores}, b = a → c = b → c = a := fun h h' => h'.trans h
  refine OnThrow.bind htrans (parsePort_looks params) fun portId => ?_
  refine OnThrow.bind htrans (looks_fromExcept _) fun streamId => ?_
  refine OnThrow.bind htrans (looks_fromExcept _) fun streamSection => ?_
  refine OnThrow.bind htrans (looks_fromExcept _) fun parsed => ?_
  refine OnThrow.bind htrans (getPortById_looks _) fun port => ?_
  refine OnThrow.bind htrans (validateStream_looks _) fun _ => ?_
  refine OnThrow.bind_noThrow ?_ fun _ => noThrow_pure _
  intro s e s' h _
  unfold onPort at h
  split at h
  · cases h
  · rename_i e' port' hop
    cases h
    rw [addStream_eq_error hop]
    exact setPort_self _

/-- The request passes every check of its command but that of the size of its packet: it is
addressed to a port, its fields can be parsed, the id of its stream is new, and the port may get
streams. -/
structure Readable (parse : Json → Except RpcErr TrexStream) (params : Json)
    (s : TrexStateless cores) (portId : UInt8) (stream : TrexStream) : Prop where
  parsePort : parsePort params s = .ok portId s
  fields : ∃ streamId streamSection parsed, parseInt params "stream_id" = .ok streamId
    ∧ parseObject params "stream" = .ok streamSection ∧ parse streamSection = .ok parsed
    ∧ stream = { parsed with portId := portId, streamId := streamId.toUInt32 }
  newId : NewId stream.streamId (s.ports portId)
  takesStreams : TakesStreams (s.ports portId)

/-- A port that was parsed is there. -/
theorem getPortById_of_parsePort (h : parsePort params s = .ok portId s') :
    getPortById portId s = .ok (s.ports portId) s := by
  obtain ⟨_, _, hfield, h1⟩ := bind_eq_okState h
  obtain ⟨-, rfl⟩ := fromExcept_eq_ok hfield
  obtain ⟨_, _, hget, h2⟩ := bind_eq_okState h1
  cases hget
  obtain ⟨_, _, hvalid, h3⟩ := bind_eq_okState h2
  obtain ⟨hcount, rfl⟩ := throwIf_eq_ok hvalid
  cases h3
  refine (get_bind _ _).trans ?_
  exact throwIf_bind_of_not hcount _ _ _

/-- **A request that succeeds adds one stream to its port.** -/
theorem runAddStream_eq_ok {r : Result} (h : runAddStream oracle params s = .ok r s') :
    ∃ portId stream,
      Readable oracle.parseStream params s portId stream ∧
        (1 ≤ stream.pkt.len ∧ stream.pkt.len ≤ 9000)
        ∧ s' = s.setPort portId (added stream (s.ports portId)) := by
  obtain ⟨portId, _, hport, h1⟩ := bind_eq_okState h
  obtain ⟨-, rfl⟩ := parsePort_eq_ok hport
  obtain ⟨streamId, _, hnumber, h2⟩ := bind_eq_okState h1
  obtain ⟨hid, rfl⟩ := fromExcept_eq_ok hnumber
  obtain ⟨streamSection, _, hlooked, h3⟩ := bind_eq_okState h2
  obtain ⟨hsection, rfl⟩ := fromExcept_eq_ok hlooked
  obtain ⟨parsed, _, hread, h4⟩ := bind_eq_okState h3
  obtain ⟨hparsed, rfl⟩ := fromExcept_eq_ok hread
  obtain ⟨port, _, hget, h5⟩ := bind_eq_okState h4
  obtain ⟨rfl, rfl⟩ := getPortById_eq_ok hget
  obtain ⟨_, s1, hvalid, h6⟩ := bind_eq_okState h5
  obtain rfl := (validateStream_looks _).ok hvalid
  obtain ⟨hlen, hnew⟩ := validateStream_eq_ok hvalid
  obtain ⟨_, _, hadd, h7⟩ := bind_eq_okState h6
  cases h7
  unfold onPort at hadd
  split at hadd
  · rename_i u port' hop
    cases hadd
    obtain ⟨hstate, rfl⟩ := addStream_eq_ok hop
    exact ⟨portId, _, ⟨hport, ⟨streamId, streamSection, parsed, hid, hsection, hparsed, rfl⟩, hnew,
      hstate⟩, hlen, rfl⟩
  · cases hadd

/-- **A request that passes all checks succeeds.** -/
theorem runAddStream_of (h : Readable oracle.parseStream params s portId stream)
    (hmin : 1 ≤ stream.pkt.len) (hmax : stream.pkt.len ≤ 9000) :
    runAddStream oracle params s =
        .ok .other (s.setPort portId (added stream (s.ports portId))) := by
  obtain ⟨hport, ⟨streamId, streamSection, parsed, hid, hsection, hparsed, rfl⟩, hnew, hstate⟩ := h
  refine (bind_of_ok hport).trans ?_
  rw [hid, hsection]
  refine (fromExcept_bind _ _ _).trans ?_
  refine (fromExcept_bind _ _ _).trans ?_
  rw [hparsed]
  refine (fromExcept_bind _ _ _).trans ?_
  refine (bind_of_ok (getPortById_of_parsePort hport)).trans ?_
  refine (bind_of_ok (validateStream_of hmin hmax hnew)).trans ?_
  refine (bind_of_ok (a := ()) ?_).trans rfl
  unfold onPort
  rw [addStream_of hstate]

/-! ## 4. What is stored -/

/-- A request stores its packet, which has a size in the bounds, or it changes nothing. -/
structure StoresOrNothing (oracle : Oracle) (params : Json) (s : TrexStateless cores) : Prop where
  stored : ∀ r s', run (withParser oracle) .addStream params s = .ok r s' → ∃ portId bytes stream,
    addressed params = some portId ∧ decodedPacket params = .ok bytes ∧ 1 ≤ bytes.length ∧
      bytes.length ≤ 9000 ∧ (s'.ports portId).streamTable = (s.ports portId).streamTable ++ [stream]
      ∧ stream.pkt.binary = bytes ∧ stream.pkt.len.toNat = bytes.length
  nothing : ∀ e s', run (withParser oracle) .addStream params s = .error e s' → s' = s

/-- A size that is in the bounds whenever its last 16 bits are. -/
def LengthFits (n : Nat) : Prop := n < 2 ^ 16 ∨ n % 2 ^ 16 = 0 ∨ 9000 < n % 2 ^ 16

instance (n : Nat) : Decidable (LengthFits n) := inferInstanceAs (Decidable (_ ∨ _ ∨ _))

/-- The request would be accepted if the size of its packet were. -/
def Addable (params : Json) (s : TrexStateless cores) : Prop :=
  ¬ Refused .addStream params s ∧ ∃ portId stream, Readable parseStream params s portId stream

theorem len_in_bounds_iff {n : Nat} :
    1 ≤ UInt16.ofNat n ∧ UInt16.ofNat n ≤ 9000 ↔ 1 ≤ n % 2 ^ 16 ∧ n % 2 ^ 16 ≤ 9000 := by
  simp [UInt16.le_iff_toNat_le]

theorem Readable.pkt (h : Readable parseStream params s portId stream) :
    addressed params = some portId
      ∧ decodedPacket params = .ok stream.pkt.binary ∧
          stream.pkt.len = UInt16.ofNat stream.pkt.binary.length := by
  obtain ⟨streamId, streamSection, parsed, -, hsection, hparsed, rfl⟩ := h.fields
  have hpkt := parseStream_pkt hsection hparsed
  exact ⟨(parsePort_eq_ok h.parsePort).1, hpkt⟩

/-- **A request fails without a change.** -/
theorem addStream_nothing {e : RpcErr} (h : run oracle .addStream params s = .error e s') :
    s' = s := by
  by_cases href : Refused .addStream params s
  · obtain ⟨e', he⟩ := run_refused href oracle
    rw [he] at h
    cases h
    rfl
  · rw [(run_accepted href oracle).1] at h
    exact runAddStream_onThrow oracle params s e s' h trivial

/-- **A request succeeds exactly if the last 16 bits of the size of its packet are in the bounds**,
when it would be accepted otherwise. -/
theorem addStream_succeeds (h : Addable params s) (hbytes : decodedPacket params = .ok bytes)
    (hmin : 1 ≤ bytes.length % 2 ^ 16) (hmax : bytes.length % 2 ^ 16 ≤ 9000) (oracle : Oracle) :
    ∃ s', run (withParser oracle) .addStream params s = .ok .other s' := by
  obtain ⟨haccepted, portId, stream, hread⟩ := h
  obtain ⟨-, hpkt, hlen⟩ := hread.pkt
  obtain rfl : stream.pkt.binary = bytes := Except.ok.inj (hpkt.symm.trans hbytes)
  obtain ⟨hlo, hhi⟩ := len_in_bounds_iff.mpr ⟨hmin, hmax⟩
  rw [← hlen] at hlo hhi
  rw [(run_accepted haccepted _).1]
  have hread' : Readable (withParser oracle).parseStream params s portId stream := hread
  exact ⟨_, runAddStream_of hread' hlo hhi⟩

/-- **What a request that succeeds stores.** -/
theorem addStream_stored {r : Result} (h : run (withParser oracle) .addStream params s = .ok r s') :
    ∃ portId stream,
      Addable params s ∧ Readable parseStream params s portId stream
        ∧ (1 ≤ stream.pkt.len ∧ stream.pkt.len ≤ 9000)
        ∧ (s'.ports portId).streamTable = (s.ports portId).streamTable ++ [stream] := by
  have haccepted : ¬ Refused .addStream params s := by
    intro href
    obtain ⟨e, he⟩ := run_refused href (withParser oracle)
    rw [he] at h
    cases h
  rw [(run_accepted haccepted _).1] at h
  obtain ⟨portId, stream, hread, hlen, rfl⟩ := runAddStream_eq_ok h
  refine ⟨portId, stream, ⟨haccepted, portId, stream, hread⟩, hread, hlen, ?_⟩
  simp only [setPort, Function.update_self]
  exact added_streamTable hread.newId

/-- A packet whose size is taken for another: the request succeeds, and what is stored is not what
was given. -/
theorem not_storesOrNothing (h : Addable params s) (hbytes : decodedPacket params = .ok bytes)
    (hfits : ¬ LengthFits bytes.length) (oracle : Oracle) :
    ¬ StoresOrNothing oracle params s := by
  intro hstores
  obtain ⟨hlarge, hpositive, hsmall⟩ : 2 ^ 16 ≤ bytes.length ∧ 1 ≤ bytes.length % 2 ^ 16
      ∧ bytes.length % 2 ^ 16 ≤ 9000 := by
    unfold LengthFits at hfits
    omega
  obtain ⟨s', hrun⟩ := addStream_succeeds h hbytes hpositive hsmall oracle
  obtain ⟨-, bytes', -, -, hdecoded, -, hmax, -⟩ := hstores.stored _ _ hrun
  obtain rfl : bytes' = bytes := Except.ok.inj (hdecoded.symm.trans hbytes)
  omega

/-- **A request stores the packet it was given or changes nothing, exactly if the packet is not
taken for a shorter one.**  The size of a packet is kept in 16 bits, and only then compared with the
bounds: a request that is accepted otherwise stores its packet with the wrong size if that has more
than 16 bits and is in the bounds modulo `2 ^ 16`. -/
theorem add_stream_stores_iff (oracle : Oracle) (params : Json) (s : TrexStateless cores) :
    StoresOrNothing oracle params s ↔
      (Addable params s → ∀ bytes, decodedPacket params = .ok bytes → LengthFits bytes.length) := by
  constructor
  · intro hstores haddable bytes hbytes
    by_contra hfits
    exact not_storesOrNothing haddable hbytes hfits oracle hstores
  · intro hfits
    refine ⟨fun r s' hrun => ?_, fun e s' hrun => addStream_nothing hrun⟩
    obtain ⟨portId, stream, haddable, hread, hlen, htable⟩ := addStream_stored hrun
    obtain ⟨haddr, hbytes, hkept⟩ := hread.pkt
    have hfit := hfits haddable _ hbytes
    rw [hkept, len_in_bounds_iff] at hlen
    -- a size that fits and is in the bounds modulo `2 ^ 16` has at most 16 bits
    have hsmall : stream.pkt.binary.length % 2 ^ 16 = stream.pkt.binary.length := by
      unfold LengthFits at hfit
      omega
    rw [hsmall] at hlen
    refine ⟨portId, _, stream, haddr, hbytes, hlen.1, hlen.2, htable, rfl, ?_⟩
    rw [hkept, UInt16.toNat_ofNat', hsmall]

/-- The stream section of a request, with the bytes of its packet. -/
def sectionOf (bytes : List Json) : Json :=
  .object [("mode", .object [("type", .string "continuous"), ("pps", .int 1)]),
    ("enabled", .boolean true),
    ("self_start", .boolean true), ("isg", .int 0), ("next_stream_id", .int (-1)),
    ("packet", .object [("binary", .array bytes), ("meta", .string "")]),
    ("vm", .object [("instructions", .array []), ("split_by_var", .string "")]),
    ("rx_stats", .object [("enabled", .boolean false)])]

/-- A request of the owner of the first port. -/
def requestOf (bytes : List Json) : Json :=
  .object [("handler", .string "h"), ("port_id", .int 0), ("stream_id", .int 1),
    ("stream", sectionOf bytes)]

/-- Two ports, the first of which has an owner. -/
def ownedServer : TrexStateless fun _ => 1 :=
  freshServer.setPort 0 { ControlPort.freshPort with owner := .own "u" "h" }

theorem parseByteAt_zero {n index : Nat} (h : index < n) :
    parseByteAt (.array (List.replicate n (.int 0))) index = .ok 0 := by
  have hv : (List.replicate n (Json.int 0)).getD index .null = .int 0 := by
    simp [List.getD, h]
  unfold parseByteAt checkElement
  simp only [hv]
  rfl

theorem parseElements_zeros {n : Nat} : ∀ (left index : Nat), index + left ≤ n →
    parseElements parseByteAt (.array (List.replicate n (.int 0))) index left =
      .ok (List.replicate left 0)
  | 0, _, _ => rfl
  | left + 1, index, h => by
    rw [parseElements, parseByteAt_zero (by omega), ok_bind,
      parseElements_zeros left (index + 1) (by omega)]
    rfl

/-- The packet decides about the section. -/
theorem parseStream_sectionOf (bytes : List Json) {packet : CStreamPktData}
    (h : parsePacket (.array bytes) = .ok packet) :
    ∃ stream, parseStream (sectionOf bytes) = .ok stream := by
  have hrest : parseStream (sectionOf bytes) = (parsePacket (.array bytes) >>= fun packet => .ok
      { newStream .stCONTINUOUS with pps := 1, enabled := true, selfStart := true,
                                     pkt := packet }) := by
    rfl
  rw [hrest, h]
  exact ⟨_, rfl⟩

theorem parsePacket_zeros (n : Nat) :
    parsePacket (.array (List.replicate n (.int 0))) =
        .ok ⟨List.replicate n 0, UInt16.ofNat n⟩ := by
  have hsize : (Json.array (List.replicate n (.int 0))).size = n := List.length_replicate
  rw [parsePacket, hsize, parseElements_zeros n 0 (by omega), ok_bind]

/-- A request with a packet of zeros. -/
def zeros (n : Nat) : Json := requestOf (List.replicate n (.int 0))

theorem decodedPacket_zeros (n : Nat) : decodedPacket (zeros n) = .ok (List.replicate n 0) := by
  have hrest : decodedPacket (zeros n)
      = parseElements parseByteAt (.array (List.replicate n (.int 0))) 0
          (List.replicate n (Json.int 0)).length := by
    rfl
  rw [hrest, List.length_replicate]
  exact parseElements_zeros n 0 (by omega)

/-- The owner of the port may add it, whatever its size. -/
theorem addable_zeros (n : Nat) : Addable (zeros n) ownedServer := by
  have hport : parsePort (zeros n) ownedServer = .ok 0 ownedServer := by
    rfl
  have hverify : verifyOwnership (zeros n) ownedServer = .ok () ownedServer := by
    rfl
  have hsize : (zeros n).size = Method.addStream.paramCount := by
    rfl
  have hid : parseInt (zeros n) "stream_id" = .ok 1 := by
    rfl
  have hsection : parseObject (zeros n) "stream" = .ok (sectionOf (List.replicate n (.int 0))) := by
    rfl
  have hempty : (ownedServer.ports 0).streamTable = [] := by
    rfl
  have hidle : (ownedServer.ports 0).portState = .PORT_STATE_IDLE := by
    rfl
  obtain ⟨stream, hstream⟩ := parseStream_sectionOf _ (parsePacket_zeros n)
  refine ⟨?_, 0, _, hport, ⟨1, _, stream, hid, hsection, hstream, rfl⟩, ?_, ?_⟩
  rotate_left
  · intro stored hmem
    rw [hempty] at hmem
    cases hmem
  · rw [TakesStreams, hidle]
    exact List.mem_cons_self
  rintro (hne | ⟨-, hfail⟩)
  · exact hne hsize
  · exact hfail _ _ hverify

/-- **A packet of 65600 bytes is stored as one of 64.** -/
theorem add_stream_truncates :
    (∃ s', run (withParser acquireOracle) .addStream (zeros 65600) ownedServer = .ok .other s')
      ∧ ¬ StoresOrNothing acquireOracle (zeros 65600) ownedServer := by
  have hlen : (List.replicate 65600 (0 : UInt8)).length = 65600 := List.length_replicate
  refine ⟨addStream_succeeds (addable_zeros _) (decodedPacket_zeros _) ?_ ?_ acquireOracle, ?_⟩
  · rw [hlen]
    decide
  · rw [hlen]
    decide
  · refine not_storesOrNothing (addable_zeros _) (decodedPacket_zeros _) ?_ acquireOracle
    rw [hlen]
    decide

end TrexStateless

end Trex.Rpc
