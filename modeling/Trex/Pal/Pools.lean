/-
# The sizes of the mbuf pools

`CGlobalInfo::init_pools` makes a pool for each size of a table (`bp_sim.cpp`), `pktmbuf_alloc`
picks one by the size of the data (`bp_sim.h`), and `rte_pktmbuf_alloc` and `rte_pktmbuf_append`
(`pal/linux_odp/mbuf.cpp`) use what is left of an element behind the handle and the `rte_mbuf`.

`sizeofHandle` and `sizeofMbuf` are sizes of C structures, which the results do not depend on.  The
ODP packets that an mbuf is copied to are made by libodp, which is not part of the program
(`OdpPool`).
-/
import Mathlib.Algebra.Ring.Nat

namespace Trex.Pal

/-! ## 1. One pool -/

/-- The sizes of `struct trex_odp_buffer_handle` and `struct rte_mbuf`. -/
structure Abi where
  sizeofHandle : Nat
  sizeofMbuf : Nat
deriving DecidableEq, Repr

/-- `ROUND_UP` -/
def roundUp (var align : Nat) : Nat := (var + (align - 1)) / align * align

/-- `rte_mempool`: the size and the alignment of its elements. -/
structure Mempool where
  bufSize : Nat
  align : Nat
deriving DecidableEq, Repr

/-- `RTE_PKTMBUF_HEADROOM` -/
def rtePktmbufHeadroom : Nat := 0

/-- `utl_rte_mempool_create`, for elements that hold `size` bytes of a packet. -/
def mempoolCreate (abi : Abi) (size : Nat) : Mempool where
  bufSize := roundUp abi.sizeofHandle 32 + (size + abi.sizeofMbuf + rtePktmbufHeadroom)
  align := 32

/-- The fields of an `rte_mbuf` that say where its data is. -/
structure DataRoom where
  bufLen : Nat
  dataOff : Nat
  dataLen : Nat
deriving DecidableEq, Repr

/-- `rte_pktmbuf_alloc`, when the pool is not empty.  `buf_len` has 16 bits. -/
def rtePktmbufAlloc (abi : Abi) (mp : Mempool) : Option DataRoom :=
  let totalLen := mp.bufSize - roundUp abi.sizeofHandle mp.align
  if totalLen < abi.sizeofMbuf then none
  else
    let bufLen := (totalLen - abi.sizeofMbuf) % 2 ^ 16
    some { bufLen, dataOff := min rtePktmbufHeadroom bufLen, dataLen := 0 }

/-- `rte_pktmbuf_tailroom` -/
def rtePktmbufTailroom (m : DataRoom) : Nat := m.bufLen - m.dataOff - m.dataLen

/-- `rte_pktmbuf_append`, for an mbuf of one segment. -/
def rtePktmbufAppend (m : DataRoom) (len : Nat) : Option DataRoom :=
  if len > rtePktmbufTailroom m then none else some { m with dataLen := m.dataLen + len }

/-! ## 2. Which pool -/

/-- `FIRST_PKT_SIZE` -/
def firstPktSize : Nat := 64

/-- `MAX_BUF_SIZE` -/
def maxBufSize : Nat := 2048

/-- `CGlobalInfo::pktmbuf_alloc` and `CRteMemPool::pktmbuf_alloc`: the size of the pool, or the
assertion `size<MAX_BUF_SIZE` fails. -/
def pktmbufAlloc (size : Nat) : Option Nat :=
  if size < firstPktSize then some firstPktSize
  else if size < 128 then some 128
  else if size < 256 then some 256
  else if size < 512 then some 512
  else if size < 1024 then some 1024
  else if size < maxBufSize then some maxBufSize
  else none

/-- What is available in an mbuf of a pool is the size that the pool was made for. -/
theorem rtePktmbufAlloc_mempoolCreate (abi : Abi) {size : Nat} (h : size < 2 ^ 16) :
    rtePktmbufAlloc abi (mempoolCreate abi size) = some { bufLen := size, dataOff := 0,
                                                          dataLen := 0 } := by
  have htotal : (mempoolCreate abi size).bufSize -
      roundUp abi.sizeofHandle (mempoolCreate abi size).align = size + abi.sizeofMbuf := by
    simp only [mempoolCreate, rtePktmbufHeadroom]
    omega
  have hle : ¬ size + abi.sizeofMbuf < abi.sizeofMbuf := by omega
  have hlen : (size + abi.sizeofMbuf - abi.sizeofMbuf) % 2 ^ 16 = size := by
    rw [Nat.add_sub_cancel]
    exact Nat.mod_eq_of_lt h
  simp only [rtePktmbufAlloc, htotal, if_neg hle, hlen, rtePktmbufHeadroom, Nat.zero_min]

/-- **The pool that is picked is large enough**, and there is one exactly below `MAX_BUF_SIZE`. -/
theorem pktmbufAlloc_spec (size : Nat) :
    (∃ n, pktmbufAlloc size = some n ∧ size ≤ n ∧ n ≤ maxBufSize) ∧ size < maxBufSize ∨
      pktmbufAlloc size = none ∧ maxBufSize ≤ size := by
  unfold pktmbufAlloc firstPktSize maxBufSize
  split_ifs <;>
    first
    | exact Or.inl ⟨⟨_, rfl, by omega, by omega⟩, by omega⟩
    | exact Or.inr ⟨rfl, by omega⟩

/-! ## 3. ODP packets -/

/-- `SHM_PKT_POOL_BUF_SIZE`: the `seg_len` and the `len` of the ODP packet pools. -/
def shmPktPoolBufSize : Nat := 1856

/-- What libodp makes of the packet pools: how many bytes the first segment of a packet holds.  It
is at least the `seg_len` that was asked for; a longer packet is a chain of segments. -/
structure OdpPool where
  firstSegLen : Nat
  le_firstSegLen : shmPktPoolBufSize ≤ firstSegLen

/-- A pool with segments as long as they were asked for. -/
def OdpPool.exact : OdpPool := ⟨shmPktPoolBufSize, Nat.le_refl _⟩

end Trex.Pal
