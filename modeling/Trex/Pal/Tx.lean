/-
# Transmitting through ODP

`CCoreEthIF::send_pkt`, `send_one_pkt`, `flush_tx_queue` and `send_burst`, `CPhyEthIF::tx_burst`
(`main_dpdk.cpp`) and `mbuf_to_odp_packet_tbl` (`pal/linux_odp/mbuf.cpp`).  The mbufs of a port are
collected in a table; a burst converts them to ODP packets, gives these to `odp_pktio_send`, tries
again with the ones that were not taken, and frees the mbufs.

* an mbuf is the list of its segments; `pktLen_eq` is the invariant of the chain it comes from;
* `OdpPool` is what libodp makes of the packet pools: the copy of an mbuf is written to the first
  segment of its packet, and goes on behind the end of it;
* `TxAnswer` is what ODP answers in one call of `tx_burst`;
* `handed`, `released`, `allocated` and `wire` are what happened so far: the mbufs given to the
  interface and to `rte_pktmbuf_free`, how many ODP packets were allocated (they are numbered), and
  what `odp_pktio_send` took.  The code has no call of `odp_packet_free` on this path.
-/
import Mathlib.Data.List.Basic
import Trex.Pal.Pools

namespace Trex.Pal

open List
open Function (update update_of_ne update_self)

/-! ## 1. From mbufs to ODP packets -/

/-- An mbuf that is handed to the interface. -/
structure TxMbuf where
  segs : List (List UInt8)
  pktLen : UInt32
  pktLen_eq : pktLen.toNat = (segs.map List.length).sum
  /-- `packet_pool_arr[mbuf->pool->socket_id]` is not `ODP_POOL_INVALID`. -/
  poolValid : Bool := true

/-- What the packet should look like on the wire. -/
def TxMbuf.bytes (m : TxMbuf) : List UInt8 := m.segs.flatten

/-- An ODP packet. -/
structure OdpPacket where
  id : Nat
  data : List UInt8
deriving DecidableEq, Repr

/-- The loop of `mbuf_to_odp_packet`. -/
def copySegs : List (List UInt8) → Int → List UInt8
  | [], _ => []
  | seg :: next, pktLen => if 0 < pktLen then seg ++ copySegs next (pktLen - seg.length) else []

/-- The `int` that an `uint32_t` is converted to. -/
def toInt32 (n : UInt32) : Int := n.toInt32.toInt

/-- The bytes of an ODP packet after the copy.  What is copied behind the end of the first segment
is not written to the packet, whose other segments hold what they held. -/
def odpData (odp : OdpPool) (copied others : List UInt8) (pktLen : Nat) : List UInt8 :=
  copied.take odp.firstSegLen ++ others.take (pktLen - odp.firstSegLen)

/-- What ODP answers in one `tx_burst`: whether the `i`-th packet can be allocated and what its
segments behind the first one hold then, and what `odp_pktio_send` returns for an array of that many
packets. -/
structure TxAnswer where
  alloc : Nat → Bool
  others : Nat → List UInt8 := fun _ => []
  send : Nat → Int

/-- `mbuf_to_odp_packet` for the `i`-th packet; `id` is its number when it can be allocated. -/
def mbufToOdpPacket (odp : OdpPool) (a : TxAnswer) (i : Nat) (m : TxMbuf) (id : Nat) :
    Option OdpPacket :=
  let pktLen := toInt32 m.pktLen
  if !m.poolValid then none
  else if pktLen ≤ 0 then none
  else if !a.alloc i then none
  else some { id, data := odpData odp (copySegs m.segs pktLen) (a.others i) m.pktLen.toNat }

/-- `mbuf_to_odp_packet_tbl`: the result of a conversion is not looked at, so an entry that failed
keeps what was in the array. -/
def mbufToOdpPacketTbl (odp : OdpPool) (a : TxAnswer) :
    List TxMbuf → Nat → Nat → List (Option OdpPacket) × Nat
  | [], _, allocated => ([], allocated)
  | m :: pkts, i, allocated =>
    let pkt := mbufToOdpPacket odp a i m allocated
    let (odpPkts, allocated) :=
      mbufToOdpPacketTbl odp a pkts (i + 1) (if pkt.isSome then allocated + 1 else allocated)
    (pkt :: odpPkts, allocated)

/-! ## 2. Bursts -/

/-- `CCorePerPort` with its `CVirtualIFPerSideStats`, and what happened so far. -/
structure TxPort where
  table : List TxMbuf := []
  txPkt : Nat := 0
  txBytes : Nat := 0
  txQueueFull : Nat := 0
  txDrop : Nat := 0
  handed : List TxMbuf := []
  released : List TxMbuf := []
  allocated : Nat := 0
  wire : List (Option OdpPacket) := []

/-- `CPhyEthIF::tx_burst`.  A packet that is not taken stays allocated; the result is cut to 16
bits. -/
def txBurst (odp : OdpPool) (p : TxPort) (pkts : List TxMbuf) (a : TxAnswer) : TxPort × UInt16 :=
  let (odpPkts, allocated) := mbufToOdpPacketTbl odp a pkts 0 p.allocated
  let ret := a.send pkts.length
  ({ p with allocated, wire := p.wire ++ odpPkts.take ret.toNat }, UInt16.ofNat (ret % 65536).toNat)

/-- The loop of `send_burst`.  It does not end while there is no answer left. -/
def retryBurst (odp : OdpPool) (pkts : List TxMbuf) (len : UInt16) :
    TxPort → UInt16 → List TxAnswer → Option (TxPort × UInt16 × List TxAnswer)
  | p, ret, answers =>
    if ret < len then
      match answers with
      | [] => none
      | a :: answers =>
        let (p, ret1) := txBurst odp { p with txQueueFull := p.txQueueFull + 1 }
          ((pkts.drop ret.toNat).take (len - ret).toNat) a
        retryBurst odp pkts len p (ret + ret1) answers
    else some (p, ret, answers)

/-- `CCoreEthIF::send_burst`, for the mbufs of the table. -/
def sendBurst (odp : OdpPool) (p : TxPort) (answers : List TxAnswer) :
    Option (TxPort × List TxAnswer) :=
  let pkts := p.table
  let len := UInt16.ofNat pkts.length
  match answers with
  | [] => none
  | a :: answers =>
    let (p, ret) := txBurst odp p pkts a
    match retryBurst odp pkts len p ret answers with
    | none => none
    | some (p, ret, answers) =>
      let p := if ret < len then { p with txDrop := p.txDrop + (len - ret).toNat } else p
      -- every mbuf is freed, and the caller sets `m_len` to zero
      some ({ p with released := p.released ++ pkts, table := [] }, answers)

/-- `MAX_PKT_BURST` -/
def maxPktBurst : Nat := 32

/-- `CCoreEthIF::send_pkt`. -/
def sendPkt (odp : OdpPool) (p : TxPort) (m : TxMbuf) (answers : List TxAnswer) :
    Option (TxPort × List TxAnswer) :=
  let p := { p with
    txPkt := p.txPkt + 1
    txBytes := p.txBytes + (m.pktLen.toNat + 4)
    table := p.table ++ [m]
    handed := p.handed ++ [m] }
  if p.table.length = maxPktBurst then sendBurst odp p answers else some (p, answers)

/-- `pkt_dir_t` -/
inductive PktDir
  | client
  | server
deriving DecidableEq, Repr

/-- `CCoreEthIF`: the port of each direction. -/
structure CCoreEthIF where
  port : PktDir → TxPort := fun _ => {}

/-- What a core asks its interface to do. -/
inductive TxCall
  | sendPkt (dir : PktDir) (m : TxMbuf)
  | sendOnePkt (dir : PktDir) (m : TxMbuf)
  | flushTxQueue

/-- The part of `flush_tx_queue` for one direction. -/
def flushPort (odp : OdpPool) (c : CCoreEthIF) (dir : PktDir) (answers : List TxAnswer) :
    Option (CCoreEthIF × List TxAnswer) :=
  if 0 < (c.port dir).table.length then
    (sendBurst odp (c.port dir) answers).map fun (p, answers) =>
      ({ port := update c.port dir p }, answers)
  else some (c, answers)

/-- One call. -/
def txStep (odp : OdpPool) (c : CCoreEthIF) (answers : List TxAnswer) :
    TxCall → Option (CCoreEthIF × List TxAnswer)
  | .sendPkt dir m =>
    (sendPkt odp (c.port dir) m answers).map fun (p, answers) =>
      ({ port := update c.port dir p }, answers)
  | .sendOnePkt dir m =>
    ((sendPkt odp (c.port dir) m answers).bind fun (p, answers) => sendBurst odp p answers).map
      fun (p, answers) => ({ port := update c.port dir p }, answers)
  | .flushTxQueue =>
    (flushPort odp c .client answers).bind fun (c, answers) => flushPort odp c .server answers

/-- A sequence of calls. -/
def txRun (odp : OdpPool) :
    CCoreEthIF → List TxAnswer → List TxCall → Option (CCoreEthIF × List TxAnswer)
  | c, answers, [] => some (c, answers)
  | c, answers, call :: calls =>
    (txStep odp c answers call).bind fun (c, answers) => txRun odp c answers calls

/-! ## 3. Conservation -/

/-- **Nothing is lost on the way.**  An mbuf that was handed is in the table or was freed once; the
ones that were freed are on the wire in order, each once and with its bytes, but for those that are
counted as dropped; and no ODP packet is left over. -/
structure Conserved (p : TxPort) : Prop where
  handed : p.handed = p.released ++ p.table
  wire : ∃ kept : List TxMbuf, kept.Sublist p.released ∧
    p.wire.map (Option.map OdpPacket.data) = kept.map (fun m => some m.bytes) ∧
    p.released.length = kept.length + p.txDrop
  odp : ∀ i < p.allocated, ∃ o ∈ p.wire, o.map OdpPacket.id = some i

/-- An mbuf that `mbuf_to_odp_packet` does not refuse by itself, and that the first segment of the
ODP packet has room for. -/
def TxMbuf.Convertible (odp : OdpPool) (m : TxMbuf) : Prop :=
  m.poolValid = true ∧ 0 < m.pktLen.toNat ∧ m.pktLen.toNat < 2 ^ 31 ∧
    m.pktLen.toNat ≤ odp.firstSegLen

/-- ODP has a packet for every mbuf, and the device takes all that it is given. -/
def TxAnswer.AcceptsAll (a : TxAnswer) : Prop :=
  (∀ i, a.alloc i = true) ∧ ∀ n, 0 < n → a.send n = n

/-! ## 4. What one burst does -/

/-- The copy of a chain whose length is right is the whole chain. -/
theorem copySegs_eq (segs : List (List UInt8)) (pktLen : Int)
    (h : pktLen = ((segs.map List.length).sum : Nat)) : copySegs segs pktLen = segs.flatten := by
  induction segs generalizing pktLen with
  | nil => rfl
  | cons seg next ih =>
    rw [map_cons, sum_cons] at h
    rw [copySegs, flatten_cons]
    split
    · rw [ih (pktLen - seg.length) (by omega)]
    · -- nothing is left, and so nothing was left out
      have hzero : seg.length = 0 ∧ (next.map List.length).sum = 0 := by omega
      have hnext : next.flatten.length = 0 := by
        rw [length_flatten]
        exact hzero.2
      rw [length_eq_zero_iff.mp hzero.1, length_eq_zero_iff.mp hnext]
      rfl

variable {odp : OdpPool} {a : TxAnswer} {m : TxMbuf} {p : TxPort} {answers : List TxAnswer}
  {c : CCoreEthIF}

variable {copied : List UInt8} {pkts : List TxMbuf}

/-- A copy that fits the first segment is the packet. -/
theorem odpData_eq {pktLen : Nat} (hlen : copied.length = pktLen)
    (hfits : pktLen ≤ odp.firstSegLen) (others : List UInt8) :
    odpData odp copied others pktLen = copied := by
  rw [odpData, take_of_length_le (by omega), Nat.sub_eq_zero_of_le hfits, take_zero, append_nil]

theorem mbufToOdpPacket_of_convertible (h : m.Convertible odp) {i : Nat}
    (halloc : a.alloc i = true) (id : Nat) :
    mbufToOdpPacket odp a i m id = some ⟨id, m.bytes⟩ := by
  obtain ⟨hpool, hpos, hlt, hfits⟩ := h
  have hint : toInt32 m.pktLen = (m.pktLen.toNat : Int) := by
    rw [toInt32, Int32.toInt, UInt32.toBitVec_toInt32, BitVec.toInt_eq_toNat_of_lt]
    · rfl
    · show 2 * m.pktLen.toNat < 2 ^ 32
      omega
  have hle : ¬ toInt32 m.pktLen ≤ 0 := by omega
  have hlen : m.segs.flatten.length = m.pktLen.toNat := by
    rw [length_flatten, m.pktLen_eq]
  simp only [mbufToOdpPacket, hpool, halloc, Bool.not_true, Bool.false_eq_true, ↓reduceIte, hle]
  rw [copySegs_eq m.segs _ (hint.trans (congrArg Nat.cast m.pktLen_eq)), odpData_eq hlen hfits]
  rfl

/-- **The table is converted**, and the packets are numbered on. -/
theorem mbufToOdpPacketTbl_eq (halloc : ∀ i, a.alloc i = true) (pkts : List TxMbuf)
    (h : ∀ m ∈ pkts, m.Convertible odp) (i allocated : Nat) :
    let r := mbufToOdpPacketTbl odp a pkts i allocated
    r.1.map (Option.map OdpPacket.data) = pkts.map (fun m => some m.bytes) ∧
      r.1.map (Option.map OdpPacket.id) = (List.range' allocated pkts.length).map some ∧
      r.2 = allocated + pkts.length := by
  induction pkts generalizing i allocated with
  | nil => exact ⟨rfl, rfl, rfl⟩
  | cons m pkts ih =>
    have hm := mbufToOdpPacket_of_convertible (h m mem_cons_self) (halloc i) allocated
    obtain ⟨hdata, hid, hnext⟩ :=
      ih (fun m' hm' => h m' (mem_cons_of_mem _ hm')) (i + 1) (allocated + 1)
    simp only [mbufToOdpPacketTbl, hm, Option.isSome_some, ↓reduceIte, map_cons,
      length_cons, range'_succ]
    refine ⟨?_, ?_, ?_⟩
    · rw [hdata]
      rfl
    · rw [hid]
      rfl
    · omega

/-- What holds of a port while everything is accepted. -/
structure Clean (odp : OdpPool) (p : TxPort) : Prop where
  handed : p.handed = p.released ++ p.table
  data : p.wire.map (Option.map OdpPacket.data) = p.released.map fun m => some m.bytes
  ids : p.wire.map (Option.map OdpPacket.id) = (List.range p.allocated).map some
  drop : p.txDrop = 0
  conv : ∀ m ∈ p.table, m.Convertible odp
  len : p.table.length ≤ maxPktBurst

theorem Clean.conserved (h : Clean odp p) : Conserved p where
  handed := h.handed
  wire := ⟨p.released, List.Sublist.refl _, h.data, by rw [h.drop]; rfl⟩
  odp := by
    intro i hi
    have hmem : some i ∈ p.wire.map (Option.map OdpPacket.id) := by
      rw [h.ids]
      exact mem_map_of_mem (mem_range.mpr hi)
    obtain ⟨o, ho, heq⟩ := mem_map.mp hmem
    exact ⟨o, ho, heq⟩

/-- The loop ends when everything was taken. -/
theorem retryBurst_done {len : UInt16} {ret : UInt16} (h : ¬ ret < len) :
    retryBurst odp pkts len p ret answers = some (p, ret, answers) := by
  unfold retryBurst
  rw [if_neg h]

/-- **A burst that is accepted**: the table is on the wire, and one answer was needed. -/
theorem sendBurst_clean (h : Clean odp p) (ha : a.AcceptsAll) (answers : List TxAnswer) :
    ∃ p', sendBurst odp p (a :: answers) = some (p', answers) ∧ Clean odp p' ∧ p'.table = [] := by
  obtain ⟨hdata, hid, hnext⟩ := mbufToOdpPacketTbl_eq ha.1 p.table h.conv 0 p.allocated
  have hodp : (mbufToOdpPacketTbl odp a p.table 0 p.allocated).1.length = p.table.length := by
    have := congrArg List.length hdata
    simpa using this
  -- what was taken is the whole array, and the loop is not entered
  obtain ⟨htake, hret⟩ : (mbufToOdpPacketTbl odp a p.table 0 p.allocated).1.take
        (a.send p.table.length).toNat = (mbufToOdpPacketTbl odp a p.table 0 p.allocated).1 ∧
      ¬ UInt16.ofNat (a.send p.table.length % 65536).toNat < UInt16.ofNat p.table.length := by
    rcases Nat.eq_zero_or_pos p.table.length with hzero | hpos
    · constructor
      · have hnil := length_eq_zero_iff.mp (hodp.trans hzero)
        rw [hnil, take_nil]
      · rw [hzero]
        exact Nat.not_lt_zero _
    · rw [ha.2 _ hpos]
      constructor
      · rw [Int.toNat_natCast, ← hodp, take_length]
      · have hmod : ((p.table.length : Int) % 65536).toNat = p.table.length := by
          have := h.len
          simp only [maxPktBurst] at this
          omega
        rw [hmod]
        exact Nat.lt_irrefl _
  refine ⟨{ p with
    allocated := (mbufToOdpPacketTbl odp a p.table 0 p.allocated).2
    wire := p.wire ++ (mbufToOdpPacketTbl odp a p.table 0 p.allocated).1.take
      (a.send p.table.length).toNat
    released := p.released ++ p.table
    table := [] }, ?_, ?_, rfl⟩
  · simp only [sendBurst, txBurst]
    rw [retryBurst_done hret]
    simp only [if_neg hret]
  · refine ⟨?_, ?_, ?_, h.drop, (fun m hm => by cases hm), Nat.zero_le _⟩
    · dsimp only
      rw [append_nil]
      exact h.handed
    · dsimp only
      rw [htake, map_append, map_append, h.data, hdata]
    · dsimp only
      rw [htake, hnext, map_append, h.ids, hid, range_eq_range', range_eq_range',
        ← map_append]
      have happ := range'_append_1 (s := 0) (m := p.allocated) (n := p.table.length)
      rw [Nat.zero_add] at happ
      rw [happ]

/-! ## 5. Runs -/

/-- One more mbuf in the table. -/
theorem Clean.push (h : Clean odp p) (hm : m.Convertible odp) (hlt : p.table.length < maxPktBurst)
    (txPkt txBytes : Nat) :
    Clean odp { p with txPkt, txBytes, table := p.table ++ [m], handed := p.handed ++ [m] } where
  handed := by
    dsimp only
    rw [h.handed, append_assoc]
  data := h.data
  ids := h.ids
  drop := h.drop
  conv := by
    intro m' hm'
    rcases mem_append.mp hm' with hm' | hm'
    · exact h.conv m' hm'
    · cases mem_singleton.mp hm'
      exact hm
  len := by
    dsimp only
    rw [length_append]
    exact hlt

/-- A port between two calls: the table is not full. -/
def Ready (odp : OdpPool) (p : TxPort) : Prop := Clean odp p ∧ p.table.length < maxPktBurst

/-- A computation returned, with at most `n` answers used. -/
def Returns {α : Type} (answers : List TxAnswer) (n : Nat) (P : α → Prop)
    (r : Option (α × List TxAnswer)) : Prop :=
  ∃ a rest, r = some (a, rest) ∧ P a ∧ rest.Sublist answers ∧ answers.length ≤ rest.length + n

/-- One computation after another. -/
theorem Returns.bind {α β : Type} {n m : Nat} {P : α → Prop} {Q : β → Prop}
    {r : Option (α × List TxAnswer)} {f : α × List TxAnswer → Option (β × List TxAnswer)}
    (h : Returns answers n P r)
    (hf : ∀ a rest, P a → rest.Sublist answers → answers.length ≤ rest.length + n →
      Returns rest m Q (f (a, rest))) : Returns answers (n + m) Q (r.bind f) := by
  obtain ⟨a, rest, rfl, ha, hsub, hlen⟩ := h
  obtain ⟨b, rest', hrun, hb, hsub', hlen'⟩ := hf a rest ha hsub hlen
  exact ⟨b, rest', hrun, hb, hsub'.trans hsub, by omega⟩

theorem Returns.map {α β : Type} {n : Nat} {P : α → Prop} {Q : β → Prop}
    {r : Option (α × List TxAnswer)} {f : α → β} (h : Returns answers n P r)
    (hf : ∀ a, P a → Q (f a)) :
    Returns answers n Q (r.map fun (a, rest) => (f a, rest)) := by
  obtain ⟨a, rest, rfl, ha, hsub, hlen⟩ := h
  exact ⟨f a, rest, rfl, hf a ha, hsub, hlen⟩

theorem sendBurst_ready (h : Clean odp p) (ha : ∀ a ∈ answers, a.AcceptsAll)
    (hpos : 1 ≤ answers.length) :
    Returns answers 1 (Ready odp) (sendBurst odp p answers) := by
  cases answers with
  | nil => cases hpos
  | cons a rest =>
    obtain ⟨p', hrun, hclean, hnil⟩ := sendBurst_clean h (ha a mem_cons_self) rest
    refine ⟨p', rest, hrun, ⟨hclean, ?_⟩, sublist_cons_self _ _, Nat.le_refl _⟩
    rw [hnil]
    decide

/-- **`send_pkt`** needs one answer at most. -/
theorem sendPkt_ready (h : Ready odp p) (hm : m.Convertible odp)
    (ha : ∀ a ∈ answers, a.AcceptsAll) (hpos : 1 ≤ answers.length) :
    Returns answers 1 (Ready odp) (sendPkt odp p m answers) := by
  have hpush := h.1.push hm h.2 (p.txPkt + 1) (p.txBytes + (m.pktLen.toNat + 4))
  simp only [sendPkt]
  split
  · exact sendBurst_ready hpush ha hpos
  · rename_i hne
    exact ⟨_, answers, rfl, ⟨hpush, Nat.lt_of_le_of_ne hpush.len hne⟩, List.Sublist.refl _,
      Nat.le_succ _⟩

/-- Every port of a core is ready. -/
def CoreReady (odp : OdpPool) (c : CCoreEthIF) : Prop := ∀ dir, Ready odp (c.port dir)

theorem CoreReady.update (h : CoreReady odp c) (dir : PktDir) (hp : Ready odp p) :
    CoreReady odp { port := update c.port dir p } := by
  intro d
  by_cases hd : d = dir
  · subst hd
    dsimp only
    rw [update_self]
    exact hp
  · dsimp only
    rw [update_of_ne hd]
    exact h d

theorem flushPort_ready (h : CoreReady odp c) (dir : PktDir) (ha : ∀ a ∈ answers, a.AcceptsAll)
    (hpos : 1 ≤ answers.length) :
    Returns answers 1 (CoreReady odp) (flushPort odp c dir answers) := by
  unfold flushPort
  split
  · exact (sendBurst_ready (h dir).1 ha hpos).map fun p hp => h.update dir hp
  · exact ⟨c, answers, rfl, h, List.Sublist.refl _, Nat.le_succ _⟩

/-- The mbuf that a call hands to the interface can be converted. -/
def TxCall.Convertible (odp : OdpPool) : TxCall → Prop
  | .sendPkt _ m => m.Convertible odp
  | .sendOnePkt _ m => m.Convertible odp
  | .flushTxQueue => True

/-- **One call.** -/
theorem txStep_ready (h : CoreReady odp c) (ha : ∀ a ∈ answers, a.AcceptsAll)
    (hpos : 2 ≤ answers.length) {call : TxCall} (hc : call.Convertible odp) :
    Returns answers 2 (CoreReady odp) (txStep odp c answers call) := by
  have hrest : ∀ {rest : List TxAnswer}, rest.Sublist answers → ∀ a ∈ rest, a.AcceptsAll :=
    fun hsub a hmem => ha a (hsub.subset hmem)
  cases call with
  | sendPkt dir m =>
    obtain ⟨p, rest, hrun, hp, hsub, hlen⟩ := sendPkt_ready (h dir) hc ha (by omega)
    refine ⟨_, rest, ?_, h.update dir hp, hsub, by omega⟩
    rw [txStep, hrun]
    rfl
  | sendOnePkt dir m =>
    refine Returns.map (P := Ready odp) ?_ fun p hp => h.update dir hp
    refine (sendPkt_ready (h dir) hc ha (by omega)).bind (m := 1) ?_
    intro p rest hp hsub hlen
    exact sendBurst_ready hp.1 (hrest hsub) (by omega)
  | flushTxQueue =>
    refine (flushPort_ready h .client ha (by omega)).bind (m := 1) ?_
    intro c' rest hc' hsub hlen
    exact flushPort_ready hc' .server (hrest hsub) (by omega)

/-- **Every call of a run.** -/
theorem txRun_ready (calls : List TxCall) (h : CoreReady odp c) (ha : ∀ a ∈ answers, a.AcceptsAll)
    (hc : ∀ call ∈ calls, call.Convertible odp) (hpos : 2 * calls.length ≤ answers.length) :
    Returns answers (2 * calls.length) (CoreReady odp) (txRun odp c answers calls) := by
  induction calls generalizing c answers with
  | nil => exact ⟨c, answers, rfl, h, List.Sublist.refl _, Nat.le_refl _⟩
  | cons call calls ih =>
    rw [length_cons] at hpos
    have hlen : 2 * (call :: calls).length = 2 + 2 * calls.length := by
      rw [length_cons]
      omega
    rw [hlen]
    refine (txStep_ready h ha (by omega) (hc call mem_cons_self)).bind ?_
    intro c' rest hc' hsub hlen'
    exact ih hc' (fun a hmem => ha a (hsub.subset hmem))
      (fun call' hmem => hc call' (mem_cons_of_mem _ hmem)) (by omega)

/-- **Transmission conserves packets while ODP accepts everything.**  When every mbuf fits the first
segment of its ODP packet, no conversion fails and every `odp_pktio_send` takes the whole array,
every sequence of calls returns, and what was handed is transmitted once and in order, freed once,
and no ODP packet is left over. `Clean` is the invariant: what was freed is what is on the wire, and
the packets there have all the numbers that were given out. -/
theorem txRun_conserved (odp : OdpPool) (calls : List TxCall) (answers : List TxAnswer)
    (hc : ∀ call ∈ calls, call.Convertible odp) (ha : ∀ a ∈ answers, a.AcceptsAll)
    (henough : 2 * calls.length ≤ answers.length) :
    ∃ c rest, txRun odp {} answers calls = some (c, rest) ∧ ∀ dir, Conserved (c.port dir) := by
  have hinit : CoreReady odp {} := by
    intro dir
    exact ⟨⟨rfl, rfl, rfl, rfl, (fun m hm => by cases hm), Nat.zero_le _⟩, Nat.zero_lt_succ _⟩
  obtain ⟨c, rest, hrun, hready, -, -⟩ := txRun_ready calls hinit ha hc henough
  exact ⟨c, rest, hrun, fun dir => (hready dir).1.conserved⟩

/-- A packet of one segment. -/
def onePacket : TxMbuf := { segs := [[1, 2, 3]], pktLen := 3, pktLen_eq := rfl }

/-- A packet with a shared tail. -/
def twoSegments : TxMbuf := { segs := [[4, 5], [6]], pktLen := 3, pktLen_eq := rfl }

/-- ODP takes everything. -/
def takesAll : TxAnswer := { alloc := fun _ => true, send := fun n => n }

theorem txRun_conserved_flush : ∃ c rest, txRun .exact {} (List.replicate 6 takesAll)
    [.sendPkt .client onePacket, .sendPkt .client twoSegments, .flushTxQueue] = some (c, rest) ∧
      ∀ dir, Conserved (c.port dir) := by
  refine txRun_conserved _ _ _ ?_ ?_ (by decide)
  · simp only [mem_cons, not_mem_nil, or_false, forall_eq_or_imp, forall_eq, TxCall.Convertible,
      and_true]
    exact ⟨⟨rfl, by decide, by decide, by decide⟩, ⟨rfl, by decide, by decide, by decide⟩⟩
  · intro a hmem
    rw [eq_of_mem_replicate hmem]
    exact ⟨fun _ => rfl, fun _ _ => rfl⟩

/-! ## 6. What a long packet and a refused packet leave behind

The two conditions of the run are needed.  A packet that is longer than the first segment may be
sent with other bytes, for nothing writes its other segments; and a packet that the device does not
take is left over, whatever ODP answers later. -/

/-- The segments behind the first one decide what is sent of a longer packet. -/
theorem odpData_ne (hlong : odp.firstSegLen < copied.length) :
    ∃ others, odpData odp copied others copied.length ≠ copied := by
  refine ⟨(copied.drop odp.firstSegLen).map (· + 1), fun heq => ?_⟩
  have hrest : ((copied.drop odp.firstSegLen).map (· + 1)).take (copied.length - odp.firstSegLen) =
      copied.drop odp.firstSegLen := by
    rw [odpData] at heq
    exact append_cancel_left (heq.trans (take_append_drop odp.firstSegLen copied).symm)
  rw [take_of_length_le (by simp)] at hrest
  cases hdrop : copied.drop odp.firstSegLen with
  | nil =>
    have hlen := congrArg List.length hdrop
    rw [length_drop, length_nil] at hlen
    omega
  | cons byte bytes =>
    rw [hdrop] at hrest
    have hbyte : byte + 1 = byte := (List.cons.inj hrest).1
    simp at hbyte

/-- **An ODP packet is left over**: it was allocated, and is not on the wire. -/
def Leaks (p : TxPort) : Prop := ∃ i < p.allocated, ∀ o ∈ p.wire, o.map OdpPacket.id ≠ some i

theorem Leaks.not_conserved (h : Leaks p) : ¬ Conserved p := by
  intro hc
  obtain ⟨i, hi, hno⟩ := h
  obtain ⟨o, ho, heq⟩ := hc.odp i hi
  exact hno o ho heq

/-- A packet has the number it was allocated with. -/
theorem id_of_mbufToOdpPacket {i : Nat} {id : Nat} {o : OdpPacket}
    (h : mbufToOdpPacket odp a i m id = some o) : o.id = id := by
  simp only [mbufToOdpPacket] at h
  split at h
  · cases h
  · split at h
    · cases h
    · split at h
      · cases h
      · cases h
        rfl

/-- New packets have new numbers. -/
theorem mbufToOdpPacketTbl_fresh (odp : OdpPool) (a : TxAnswer) (pkts : List TxMbuf)
    (i allocated : Nat) :
    allocated ≤ (mbufToOdpPacketTbl odp a pkts i allocated).2 ∧
      ∀ o ∈ (mbufToOdpPacketTbl odp a pkts i allocated).1, ∀ j, o.map OdpPacket.id = some j →
          allocated ≤ j := by
  induction pkts generalizing i allocated with
  | nil => exact ⟨Nat.le_refl _, fun o ho => by cases ho⟩
  | cons m pkts ih =>
    simp only [mbufToOdpPacketTbl]
    obtain ⟨hle, hids⟩ := ih (i + 1)
      (if (mbufToOdpPacket odp a i m allocated).isSome then allocated + 1 else allocated)
    have hstep : allocated ≤
        if (mbufToOdpPacket odp a i m allocated).isSome then allocated + 1 else allocated := by
      split
      · exact Nat.le_succ _
      · exact Nat.le_refl _
    refine ⟨Nat.le_trans hstep hle, ?_⟩
    intro o ho j hj
    rcases mem_cons.mp ho with rfl | ho
    · obtain ⟨o', ho', rfl⟩ := Option.map_eq_some_iff.mp hj
      exact Nat.le_of_eq (id_of_mbufToOdpPacket ho').symm
    · exact Nat.le_trans hstep (hids o ho j hj)

/-- What was left over stays so. -/
theorem Leaks.txBurst (odp : OdpPool) (h : Leaks p) (pkts : List TxMbuf) (a : TxAnswer) :
    Leaks (txBurst odp p pkts a).1 := by
  obtain ⟨i, hi, hno⟩ := h
  obtain ⟨hle, hids⟩ := mbufToOdpPacketTbl_fresh odp a pkts 0 p.allocated
  refine ⟨i, Nat.lt_of_lt_of_le hi hle, ?_⟩
  intro o ho heq
  rcases mem_append.mp ho with ho | ho
  · exact hno o ho heq
  · have := hids o (mem_of_mem_take ho) i heq
    omega

theorem Leaks.retryBurst {len : UInt16} (answers : List TxAnswer) {ret : UInt16} (h : Leaks p)
    {r : TxPort × UInt16 × List TxAnswer} (hrun : retryBurst odp pkts len p ret answers = some r) :
    Leaks r.1 := by
  induction answers generalizing p ret with
  | nil =>
    unfold Trex.Pal.retryBurst at hrun
    split at hrun
    · cases hrun
    · cases hrun
      exact h
  | cons a answers ih =>
    unfold Trex.Pal.retryBurst at hrun
    split at hrun
    · exact ih (Leaks.txBurst odp (p := { p with txQueueFull := p.txQueueFull + 1 }) h _ a) hrun
    · cases hrun
      exact h

/-- **A burst that is not accepted leaks**, when its conversions succeed: no later answer of ODP
makes good for the packets that were not taken. -/
theorem sendBurst_leaks (h : Clean odp p) (halloc : ∀ i, a.alloc i = true)
    (hpos : 0 < p.table.length) (hsend : a.send p.table.length < p.table.length)
    (answers : List TxAnswer) {r : TxPort × List TxAnswer}
    (hrun : sendBurst odp p (a :: answers) = some r) : Leaks r.1 := by
  obtain ⟨-, hid, hnext⟩ := mbufToOdpPacketTbl_eq halloc p.table h.conv 0 p.allocated
  -- the last packet of the array is not taken
  have hfirst : Leaks (txBurst odp p p.table a).1 := by
    refine ⟨p.allocated + p.table.length - 1, ?_, ?_⟩
    · simp only [txBurst, hnext]
      omega
    · intro o ho heq
      rcases mem_append.mp ho with ho | ho
      · have hmem := mem_map_of_mem (f := Option.map OdpPacket.id) ho
        rw [h.ids, heq] at hmem
        obtain ⟨j, hj, hjeq⟩ := mem_map.mp hmem
        have hlt := mem_range.mp hj
        cases hjeq
        omega
      · have hmem := mem_map_of_mem (f := Option.map OdpPacket.id) ho
        rw [map_take, hid, ← map_take, take_range'_of_length_ge (by omega), heq] at hmem
        obtain ⟨j, hj, hjeq⟩ := mem_map.mp hmem
        have hlt := (mem_range'_1.mp hj).2
        cases hjeq
        omega
  simp only [sendBurst] at hrun
  split at hrun
  · cases hrun
  · rename_i p1 ret answers' hretry
    have hleak := hfirst.retryBurst answers hretry
    cases hrun
    split
    · exact hleak
    · exact hleak

/-- ODP takes one packet of two at the first try, and the other one at the second. -/
def takesOneOfTwo : List TxAnswer := [{ alloc := fun _ => true, send := fun _ => 1 }, takesAll]

/-- The device refuses a packet with an error. -/
def refuses : List TxAnswer := [{ alloc := fun _ => true, send := fun _ => -1 }]

/-- Three ODP packets were allocated for two mbufs and the second one is left over; and after an
error the packet is neither sent nor counted as dropped. -/
theorem transmit_not_conserved :
    (∃ c rest, txRun .exact {} takesOneOfTwo
      [.sendPkt .client onePacket, .sendPkt .client twoSegments, .flushTxQueue] = some (c, rest) ∧
        ¬ Conserved (c.port .client)) ∧
    ∃ c rest, txRun .exact {} refuses [.sendOnePkt .client onePacket] = some (c, rest) ∧
      ¬ Conserved (c.port .client) := by
  constructor
  · have heval : (txRun .exact {} takesOneOfTwo
        [.sendPkt .client onePacket, .sendPkt .client twoSegments, .flushTxQueue]).map
          (fun r => ((r.1.port .client).allocated,
            (r.1.port .client).wire.map (Option.map OdpPacket.id))) =
        some (3, [some 0, some 2]) := by decide +kernel
    obtain ⟨⟨c, rest⟩, hrun, heq⟩ := Option.map_eq_some_iff.mp heval
    refine ⟨c, rest, hrun, Leaks.not_conserved ⟨1, ?_, ?_⟩⟩
    · have hallocated : (c.port .client).allocated = 3 := congrArg Prod.fst heq
      rw [hallocated]
      decide
    · intro o ho hid
      have hmem := mem_map_of_mem (f := Option.map OdpPacket.id) ho
      rw [show (c.port .client).wire.map (Option.map OdpPacket.id) = [some 0, some 2] from
        congrArg Prod.snd heq, hid] at hmem
      revert hmem
      decide
  · have heval : (txRun .exact {} refuses [.sendOnePkt .client onePacket]).map
        (fun r => ((r.1.port .client).allocated, (r.1.port .client).wire)) = some (1, []) := by
      decide +kernel
    obtain ⟨⟨c, rest⟩, hrun, heq⟩ := Option.map_eq_some_iff.mp heval
    refine ⟨c, rest, hrun, Leaks.not_conserved ⟨0, ?_, ?_⟩⟩
    · have hallocated : (c.port .client).allocated = 1 := congrArg Prod.fst heq
      rw [hallocated]
      decide
    · intro o ho
      rw [show (c.port .client).wire = [] from congrArg Prod.snd heq] at ho
      cases ho

end Trex.Pal
