/-
# The mbufs of the simulation and of ODP

`mbuf.h` is implemented twice: `pal/linux/mbuf.cpp` is linked into the simulator and the unit tests,
`pal/linux_odp/mbuf.cpp` into the product.  Both are translated here, call by call; a function that
is the same text in both is one definition, and one that differs is a `match` on the `Platform`.

* `Addr` is an element of a pool.  An element that was given back is not handed out under the same
  `Addr` again, so that a pointer to it is a bad pointer (`MbufFault.badPointer`: a failed check of
  `magic`, or undefined behaviour);
* `RteMbuf.buf` is the element whose data area `buf_addr` points to (`RTE_MBUF_FROM_BADDR`): the
  mbuf itself, or the one that it is attached to;
* the loops along `next` run out of fuel on a chain without an end only (`MbufFault.endless`);
* `in_port` is a constant that nothing reads; the bytes of the data are left out.
-/
import Trex.Lib.Refine
import Trex.Pal.Pools
import Mathlib.Logic.Function.Basic

namespace Trex.Pal

/-! ## 1. Elements and their memory -/

/-- The directory under `pal/` that is linked. -/
inductive Platform
  | linux
  | odp
deriving DecidableEq, Repr

/-- The arguments of `utl_rte_mempool_create` that the calls below depend on. -/
structure MbufPool where
  num : Nat
  eltSize : Nat
  cacheSize : Nat
deriving DecidableEq, Repr

/-- `utl_rte_mempool_create_non_pkt` of ODP: `ent_size` and `cache_size`. -/
def MbufPool.mempool (abi : Abi) (mp : MbufPool) : Mempool where
  bufSize := roundUp abi.sizeofHandle mp.cacheSize + mp.eltSize
  align := mp.cacheSize

/-- A pointer to an element of a pool. -/
structure Addr where
  pool : Nat
  id : Nat
deriving DecidableEq, Repr

/-- `struct rte_mbuf`, without `pool`, which is that of its address.  `refcnt` is `refcnt_reserved`
in the simulation. -/
structure RteMbuf where
  buf : Addr
  bufLen : UInt16
  dataOff : UInt16
  next : Option Addr
  dataLen : UInt16
  nbSegs : UInt8
  pktLen : UInt32
  refcnt : UInt32
deriving DecidableEq, Repr

/-- The elements that are in use, all that were ever handed out (the newest first), and the `count`
of each pool (ODP only). -/
structure MbufMem where
  heap : Addr → Option RteMbuf := fun _ => none
  taken : List Addr := []
  count : Nat → Nat := fun _ => 0

/-- Why a call does not return. -/
inductive MbufFault
  /-- An access through a pointer to an element that is not in use. -/
  | badPointer
  /-- A loop along a chain that has no end. -/
  | endless
  /-- A write behind the memory that was allocated. -/
  | overflow
deriving DecidableEq, Repr

namespace MbufMem

/-- Read an mbuf. -/
def load (s : MbufMem) (m : Addr) : Except MbufFault RteMbuf :=
  match s.heap m with
  | some x => .ok x
  | none => .error .badPointer

/-- Write an mbuf. -/
def store (s : MbufMem) (m : Addr) (x : RteMbuf) : MbufMem :=
  { s with heap := Function.update s.heap m (some x) }

/-- The element is not in use any more. -/
def drop (s : MbufMem) (m : Addr) : MbufMem := { s with heap := Function.update s.heap m none }

/-- The next element of a pool. -/
def fresh (s : MbufMem) (mp : Nat) : Addr := { pool := mp, id := s.taken.length }

/-- An element is handed out. -/
def take (s : MbufMem) (mp : Nat) : MbufMem := { s with taken := s.fresh mp :: s.taken }

/-- The link of an mbuf that is in use. -/
def link (s : MbufMem) (m : Addr) : Option (Option Addr) := (s.heap m).map RteMbuf.next

/-! ## 2. Elements come and go -/

/-- `rte_mempool_sc_get` of ODP: fails when the buffers of the pool are all in use. -/
def rteMempoolGet (pools : Nat → MbufPool) (s : MbufMem) (mp : Nat) : Option (Addr × MbufMem) :=
  if s.count mp < (pools mp).num then
    some (s.fresh mp, { s.take mp with count := Function.update s.count mp (s.count mp + 1) })
  else none

/-- `rte_mempool_sp_put` of ODP, `free` in the simulation. -/
def rteMempoolPut (p : Platform) (s : MbufMem) (m : Addr) : MbufMem :=
  match p with
  | .odp => { s.drop m with count := Function.update s.count m.pool (s.count m.pool - 1) }
  | .linux => s.drop m

/-- The fields of an mbuf that was just allocated. -/
def initMbuf (m : Addr) (bufLen dataOff : UInt16) : RteMbuf where
  buf := m
  bufLen := bufLen
  dataOff := dataOff
  next := none
  dataLen := 0
  nbSegs := 1
  pktLen := 0
  refcnt := 1

/-- `rte_pktmbuf_alloc`.  The simulation takes the whole element for `buf_len`, and has `malloc`
give it that many bytes; there the header is written into them. -/
def rtePktmbufAlloc (p : Platform) (abi : Abi) (pools : Nat → MbufPool) (s : MbufMem) (mp : Nat) :
    Except MbufFault (Option Addr × MbufMem) :=
  match p with
  | .odp =>
    match s.rteMempoolGet pools mp with
    | none => .ok (none, s)
    | some (m, s) =>
      -- an element that is too small is not put back
      match Pal.rtePktmbufAlloc abi ((pools mp).mempool abi) with
      | none => .ok (none, s)
      | some room => .ok (some m, s.store m (initMbuf m (.ofNat room.bufLen) (.ofNat room.dataOff)))
  | .linux =>
    let bufLen := UInt16.ofNat (pools mp).eltSize
    let m := s.fresh mp
    if bufLen.toNat < abi.sizeofMbuf then .error .overflow
    else .ok (some m, (s.take mp).store m (initMbuf m bufLen (.ofNat rtePktmbufHeadroom)))

/-- `rte_mbuf_refcnt_update`.  The simulation adds one, whatever the value, and returns the old
count. -/
def rteMbufRefcntUpdate (p : Platform) (s : MbufMem) (m : Addr) (value : Int16) :
    Except MbufFault (UInt16 × MbufMem) := do
  let x ← s.load m
  match p with
  | .odp =>
    let refcnt := x.refcnt + value.toInt32.toUInt32
    .ok (refcnt.toUInt16, s.store m { x with refcnt })
  | .linux => .ok (x.refcnt.toUInt16, s.store m { x with refcnt := x.refcnt + 1 })

/-- `rte_pktmbuf_detach`. -/
def rtePktmbufDetach (pools : Nat → MbufPool) (abi : Abi) (s : MbufMem) (m : Addr) :
    Except MbufFault MbufMem := do
  let x ← s.load m
  .ok (s.store m { x with
    buf := m
    bufLen := .ofNat ((pools m.pool).eltSize - abi.sizeofMbuf)
    dataOff := .ofNat rtePktmbufHeadroom
    dataLen := 0 })

/-- `rte_mbuf_free_seg_internal` of ODP, `free` in the simulation. -/
def freeSegInternal (p : Platform) (s : MbufMem) (m : Addr) : Except MbufFault MbufMem := do
  let _ ← s.load m
  .ok (s.rteMempoolPut p m)

/-- The count after a release: `odp_atomic_fetch_dec_u32` and `sanb_atomic_dec2zero32`. -/
def decRefcnt (p : Platform) (refcnt : UInt32) : UInt32 :=
  match p with
  | .odp => refcnt - 1
  | .linux => if refcnt = 0 then 0 else refcnt - 1

/-- What `rte_pktmbuf_free_seg` does for the mbuf that this one is attached to, when it is the last
one. -/
def releaseDirect (p : Platform) (s : MbufMem) (md : Addr) : Except MbufFault MbufMem := do
  let (refcnt, s) ← s.rteMbufRefcntUpdate p md (-1)
  if refcnt = 0 then s.freeSegInternal p md else .ok s

/-- `rte_pktmbuf_free_seg` -/
def rtePktmbufFreeSeg (p : Platform) (abi : Abi) (pools : Nat → MbufPool) (s : MbufMem) (m : Addr) :
    Except MbufFault MbufMem := do
  let x ← s.load m
  let s := s.store m { x with refcnt := decRefcnt p x.refcnt }
  if x.refcnt ≠ 1 then .ok s
  else if x.buf = m then s.freeSegInternal p m
  else do
    let s ← s.rtePktmbufDetach pools abi m
    let s ← s.releaseDirect p x.buf
    s.freeSegInternal p m

/-- The loop of `rte_pktmbuf_free`: `next` is read before the segment is freed. -/
def freeChain (p : Platform) (abi : Abi) (pools : Nat → MbufPool) :
    Nat → MbufMem → Addr → Except MbufFault MbufMem
  | 0, _, _ => .error .endless
  | fuel + 1, s, m => do
    let x ← s.load m
    let s ← s.rtePktmbufFreeSeg p abi pools m
    match x.next with
    | none => .ok s
    | some next => freeChain p abi pools fuel s next

/-- `rte_pktmbuf_free` -/
def rtePktmbufFree (p : Platform) (abi : Abi) (pools : Nat → MbufPool) (s : MbufMem) (m : Addr) :
    Except MbufFault MbufMem :=
  s.freeChain p abi pools (s.taken.length + 1) m

/-! ## 3. The data of an mbuf -/

/-- The loop of `rte_pktmbuf_lastseg`. -/
def lastsegFrom (s : MbufMem) : Nat → Addr → Except MbufFault Addr
  | 0, _ => .error .endless
  | fuel + 1, m => do
    let x ← s.load m
    match x.next with
    | none => .ok m
    | some next => lastsegFrom s fuel next

/-- `rte_pktmbuf_lastseg` -/
def rtePktmbufLastseg (s : MbufMem) (m : Addr) :
    Except MbufFault Addr := s.lastsegFrom (s.taken.length + 1) m

/-- `rte_pktmbuf_tailroom` -/
def tailroom (x : RteMbuf) : UInt16 := x.bufLen - x.dataOff - x.dataLen

/-- Where `rte_pktmbuf_append` has its caller write, from the start of the data area: the simulation
leaves `data_off` out. -/
def tailOffset (p : Platform) (x : RteMbuf) : Nat :=
  match p with
  | .odp => x.dataOff.toNat + x.dataLen.toNat
  | .linux => x.dataLen.toNat

/-- `rte_pktmbuf_append`: the data area and the offset of the new bytes, or NULL. -/
def rtePktmbufAppend (p : Platform) (s : MbufMem) (m : Addr) (len : UInt16) :
    Except MbufFault (Option (Addr × Nat) × MbufMem) := do
  let last ← s.rtePktmbufLastseg m
  let y ← s.load last
  if len > tailroom y then .ok (none, s)
  else do
    let s := s.store last { y with dataLen := y.dataLen + len }
    let x ← s.load m
    .ok (some (y.buf, tailOffset p y), s.store m { x with pktLen := x.pktLen + len.toUInt32 })

/-- `rte_pktmbuf_adj` -/
def rtePktmbufAdj (s : MbufMem) (m : Addr) (len : UInt16) :
    Except MbufFault (Option (Addr × Nat) × MbufMem) := do
  let x ← s.load m
  if len > x.dataLen then .ok (none, s)
  else
    let dataOff := x.dataOff + len
    .ok (some (x.buf, dataOff.toNat),
      s.store m { x with dataLen := x.dataLen - len, dataOff, pktLen := x.pktLen - len.toUInt32 })

/-- `rte_pktmbuf_trim` -/
def rtePktmbufTrim (s : MbufMem) (m : Addr) (len : UInt16) : Except MbufFault (Int × MbufMem) := do
  let last ← s.rtePktmbufLastseg m
  let y ← s.load last
  if len > y.dataLen then .ok (-1, s)
  else do
    let s := s.store last { y with dataLen := y.dataLen - len }
    let x ← s.load m
    .ok (0, s.store m { x with pktLen := x.pktLen - len.toUInt32 })

/-! ## 4. Chains and attached mbufs -/

/-- `rte_pktmbuf_attach` -/
def rtePktmbufAttach (p : Platform) (s : MbufMem) (mi md : Addr) : Except MbufFault MbufMem := do
  let (_, s) ← s.rteMbufRefcntUpdate p md 1
  let d ← s.load md
  let x ← s.load mi
  .ok (s.store mi { x with
    buf := d.buf
    bufLen := d.bufLen
    dataOff := d.dataOff
    next := none
    pktLen := x.dataLen.toUInt32
    nbSegs := 1 })

/-- `utl_rte_pktmbuf_add_after2` -/
def utlRtePktmbufAddAfter2 (s : MbufMem) (m1 m2 : Addr) : Except MbufFault MbufMem := do
  let x ← s.load m1
  let y ← s.load m2
  .ok (s.store m1 { x with
    next := some m2
    pktLen := x.pktLen + y.dataLen.toUInt32
    nbSegs := y.nbSegs + 1 })

/-- `utl_rte_pktmbuf_add_after` -/
def utlRtePktmbufAddAfter (p : Platform) (s : MbufMem) (m1 m2 : Addr) :
    Except MbufFault MbufMem := do
  let (_, s) ← s.rteMbufRefcntUpdate p m2 1
  s.utlRtePktmbufAddAfter2 m1 m2

/-- `utl_rte_pktmbuf_add_last` -/
def utlRtePktmbufAddLast (s : MbufMem) (m last : Addr) : Except MbufFault MbufMem := do
  let x ← s.load m
  match x.next with
  | none => s.utlRtePktmbufAddAfter2 m last
  | some second => do
    let y ← s.load second
    let s := s.store second { y with next := some last }
    let z ← s.load last
    let x ← s.load m
    .ok (s.store m { x with pktLen := x.pktLen + z.dataLen.toUInt32, nbSegs := 3 })

end MbufMem

/-! ## 5. Calls of `mbuf.h` -/

/-- A call of the functions of `mbuf.h`. -/
inductive MbufCall
  | alloc (mp : Nat)
  | free (m : Addr)
  | freeSeg (m : Addr)
  | refcntUpdate (m : Addr) (value : Int16)
  | append (m : Addr) (len : UInt16)
  | adj (m : Addr) (len : UInt16)
  | trim (m : Addr) (len : UInt16)
  | attach (mi md : Addr)
  | addAfter (m1 m2 : Addr)
  | addAfter2 (m1 m2 : Addr)
  | addLast (m last : Addr)
deriving DecidableEq, Repr

/-- What a call returns. -/
inductive MbufRet
  | void
  | null
  | mbuf (m : Addr)
  /-- A pointer into a data area, as the offset from its start. -/
  | data (buf : Addr) (off : Nat)
  | status (r : Int)
  | refcnt (value : UInt16)
deriving DecidableEq, Repr

/-- A pointer to an mbuf that may be NULL. -/
def MbufRet.ofMbuf : Option Addr → MbufRet
  | none => .null
  | some m => .mbuf m

/-- A pointer to data that may be NULL. -/
def MbufRet.ofData : Option (Addr × Nat) → MbufRet
  | none => .null
  | some (buf, off) => .data buf off

/-- One call. -/
def MbufMem.perform (p : Platform) (abi : Abi) (pools : Nat → MbufPool) (s : MbufMem) :
    MbufCall → Except MbufFault (MbufRet × MbufMem)
  | .alloc mp => (s.rtePktmbufAlloc p abi pools mp).map fun (m, s) => (.ofMbuf m, s)
  | .free m => (s.rtePktmbufFree p abi pools m).map fun s => (.void, s)
  | .freeSeg m => (s.rtePktmbufFreeSeg p abi pools m).map fun s => (.void, s)
  | .refcntUpdate m value => (s.rteMbufRefcntUpdate p m value).map fun (v, s) => (.refcnt v, s)
  | .append m len => (s.rtePktmbufAppend p m len).map fun (r, s) => (.ofData r, s)
  | .adj m len => (s.rtePktmbufAdj m len).map fun (r, s) => (.ofData r, s)
  | .trim m len => (s.rtePktmbufTrim m len).map fun (r, s) => (.status r, s)
  | .attach mi md => (s.rtePktmbufAttach p mi md).map fun s => (.void, s)
  | .addAfter m1 m2 => (s.utlRtePktmbufAddAfter p m1 m2).map fun s => (.mbuf m1, s)
  | .addAfter2 m1 m2 => (s.utlRtePktmbufAddAfter2 m1 m2).map fun s => (.mbuf m1, s)
  | .addLast m last => (s.utlRtePktmbufAddLast m last).map fun s => (.void, s)

/-- A sequence of calls: what they return, and the memory after the last one. -/
def MbufMem.run (p : Platform) (abi : Abi) (pools : Nat → MbufPool) :
    MbufMem → List MbufCall → Except MbufFault (List MbufRet × MbufMem)
  | s, [] => .ok ([], s)
  | s, c :: cs => do
    let (r, s) ← s.perform p abi pools c
    let (rs, s) ← s.run p abi pools cs
    .ok (r :: rs, s)

end Trex.Pal
