/-
# The IPv4 header checksum

`IPHeader::updateCheckSum` (`IPHeader.inl`) clears the checksum field, sums the header with
`pkt_InetChecksum` (`CPktCmn.cpp`) and stores the result.  The header it sums is as long as its
own first byte says (`getHeaderLength`), not the 20 bytes of a header without options, so
the bytes it reads depend on the packet.  `updateIpSrc` and `updateIpDst` store an address and
correct the checksum by the difference (`pkt_UpdateInetChecksum`).

The packet is a `Mem`, addressed from its first byte.  Loads are those of a little-endian
host, where `PKT_NTOHS` is a byte swap.
-/
import Trex.Lib.Bytes

namespace Trex.Net

open Trex.Lib

/-! ## 1. `pkt_InetChecksum` -/

/-- The summing loop: the 16-bit words of `len` bytes, and the odd byte at the end as the high
half of a word. -/
def inetSum (m : Mem) (data : Nat) : Nat → Nat
  | 0 => 0
  | 1 => bswap 2 (m.load data 2) / 256 * 256
  | len + 2 => bswap 2 (m.load data 2) + inetSum m (data + 2) len

/-- `while (sum >> 16) sum = (sum & 0xffff) + (sum >> 16);`.  Every round that is taken
lowers the sum, so the sum itself is enough fuel. -/
def foldCarry : Nat → Nat → Nat
  | 0, sum => sum
  | fuel + 1, sum =>
    if sum / 65536 = 0 then sum else foldCarry fuel (sum % 65536 + sum / 65536)

/-- `pkt_InetChecksum(data, len)`: the complement of the folded sum, in network order. -/
def pktInetChecksum (m : Mem) (data len : Nat) : Nat :=
  let sum := inetSum m data len
  bswap 2 (65535 - foldCarry sum sum % 65536)

/-! ## 2. The header -/

/-- `getHeaderLength`: the low nibble of the first byte counts 32-bit words. -/
def getHeaderLength (m : Mem) (ipv4 : Nat) : Nat := (m ipv4).toNat % 16 * 4

/-- `updateCheckSum`: `myChecksum` is the 16-bit field at offset 10. -/
def updateCheckSum (m : Mem) (ipv4 : Nat) : Mem :=
  let m0 := m.store (ipv4 + 10) 2 0
  m0.store (ipv4 + 10) 2 (pktInetChecksum m0 ipv4 (getHeaderLength m0 ipv4))

/-- `pkt_UpdateInetChecksum(csFieldFromPacket, oldVal, newVal)` -/
def pktUpdateInetChecksum (csField oldVal newVal : Nat) : Nat :=
  let newCS := (65535 - bswap 2 csField) + (65535 - bswap 2 oldVal) + bswap 2 newVal
  bswap 2 (65535 - foldCarry newCS newCS % 65536)

/-- `updateIpSrc` and `updateIpDst`: the address at offset `field` of the header. -/
def updateIpField (field : Nat) (m : Mem) (ipv4 ip : Nat) : Mem :=
  let old := m.load (ipv4 + field) 4
  let new := bswap 4 ip
  let m := m.store (ipv4 + 10) 2
    (pktUpdateInetChecksum (m.load (ipv4 + 10) 2) (old / 65536) (new / 65536))
  let m := m.store (ipv4 + 10) 2
    (pktUpdateInetChecksum (m.load (ipv4 + 10) 2) (old % 65536) (new % 65536))
  m.store (ipv4 + field) 4 new

/-- `updateIpSrc`: `mySource` is at offset 12. -/
def updateIpSrc : Mem → Nat → Nat → Mem := updateIpField 12

/-- `updateIpDst`: `myDestination` is at offset 16. -/
def updateIpDst : Mem → Nat → Nat → Mem := updateIpField 16

/-! ## 3. What the update reads and writes -/

theorem inetSum_congr {m m' : Mem} : ∀ (len data : Nat),
    (∀ x, data ≤ x → x < data + len + len % 2 → m x = m' x) →
      inetSum m data len = inetSum m' data len
  | 0, _, _ => rfl
  | 1, data, h => by
    simp only [inetSum]
    rw [Mem.load_congr fun x h1 h2 => h x h1 (by omega)]
  | len + 2, data, h => by
    simp only [inetSum]
    rw [Mem.load_congr fun x h1 h2 => h x h1 (by omega),
      inetSum_congr len (data + 2) fun x h1 h2 => h x (by omega) (by omega)]

/-- Only the two checksum bytes change. -/
theorem updateCheckSum_of_ne (m : Mem) {ipv4 x : Nat} (h : x < ipv4 + 10 ∨ ipv4 + 12 ≤ x) :
    updateCheckSum m ipv4 x = m x := by
  unfold updateCheckSum
  rcases h with h | h
  · rw [Mem.store_of_lt _ _ h, Mem.store_of_lt _ _ h]
  · have h' : ipv4 + 10 + 2 ≤ x := by omega
    rw [Mem.store_of_ge _ _ h', Mem.store_of_ge _ _ h']

/-- The header length is read after the checksum field was cleared, which does not move it. -/
theorem getHeaderLength_clear (m : Mem) (ipv4 : Nat) :
    getHeaderLength (m.store (ipv4 + 10) 2 0) ipv4 = getHeaderLength m ipv4 := by
  rw [getHeaderLength, Mem.store_of_lt _ _ (by omega), getHeaderLength]

theorem getHeaderLength_even (m : Mem) (ipv4 : Nat) : getHeaderLength m ipv4 % 2 = 0 := by
  unfold getHeaderLength
  omega

/-- **The update depends on the header and the checksum field only**: two memories that agree
on them are updated to the same checksum. -/
theorem updateCheckSum_congr {m m' : Mem} {ipv4 : Nat} (h0 : m ipv4 = m' ipv4)
    (h : ∀ x, ipv4 ≤ x → x < ipv4 + getHeaderLength m ipv4 → m x = m' x) {x : Nat}
    (hx : m x = m' x) : updateCheckSum m ipv4 x = updateCheckSum m' ipv4 x := by
  have hlen : getHeaderLength m' ipv4 = getHeaderLength m ipv4 := by
    simp only [getHeaderLength, h0]
  -- the sum is taken with the field cleared, so it does not see the old checksum either
  have hsum : inetSum (m.store (ipv4 + 10) 2 0) ipv4 (getHeaderLength m ipv4)
      = inetSum (m'.store (ipv4 + 10) 2 0) ipv4 (getHeaderLength m ipv4) := by
    refine inetSum_congr _ _ fun y h1 h2 => ?_
    rw [getHeaderLength_even] at h2
    exact Mem.store_congr fun _ => h y h1 h2
  simp only [updateCheckSum, getHeaderLength_clear, hlen, pktInetChecksum, hsum]
  exact Mem.store_congr fun _ => Mem.store_congr fun _ => hx

/-! ## 4. A valid checksum -/

/-- `isChecksumOK` -/
def isChecksumOK (m : Mem) (ipv4 : Nat) :
    Bool := pktInetChecksum m ipv4 (getHeaderLength m ipv4) == 0

/-- The folded sum is the sum modulo 65535, and it is 0 for the sum 0 only. -/
theorem foldCarry_spec (fuel sum : Nat) (h : sum ≤ fuel) :
    foldCarry fuel sum < 65536 ∧ foldCarry fuel sum % 65535 = sum % 65535 ∧
        (foldCarry fuel sum = 0 ↔ sum = 0) := by
  induction fuel generalizing sum with
  | zero =>
    obtain rfl : sum = 0 := Nat.le_zero.mp h
    exact ⟨by decide, rfl, Iff.rfl⟩
  | succ fuel ih =>
    rw [foldCarry]
    split
    · exact ⟨by omega, rfl, Iff.rfl⟩
    · -- a round adds the carry to the low half, which is the sum less a multiple of 65535
      obtain ⟨hlt, hmod, hzero⟩ := ih (sum % 65536 + sum / 65536) (by omega)
      exact ⟨hlt, by omega, by omega⟩

/-- A word of the sum: what is stored there is added. -/
theorem inetSum_store (m : Mem) (a v : Nat) :
    ∀ len data, data ≤ a → a + 2 ≤ data + len → (a - data) % 2 = 0 →
    inetSum (m.store a 2 v) data len = inetSum (m.store a 2 0) data len + bswap 2 v
  | 0, data, h1, h2, _ => by omega
  | 1, data, h1, h2, _ => by omega
  | len + 2, data, h1, h2, h3 => by
    simp only [inetSum]
    by_cases ha : a = data
    · subst ha
      have htail : inetSum (m.store a 2 v) (a + 2) len = inetSum (m.store a 2 0) (a + 2) len := by
        refine inetSum_congr _ _ fun x hx _ => ?_
        rw [Mem.store_of_ge _ _ hx, Mem.store_of_ge _ _ hx]
      have hzero : bswap 2 (0 % 256 ^ 2) = 0 := by decide
      rw [Mem.load_store, Mem.load_store, htail, bswap_mod 2 v, hzero]
      omega
    · have hhead : ∀ n, (m.store a 2 n).load data 2 = m.load data 2 :=
        fun n => Mem.load_store_of_disjoint _ _ (Or.inl (by omega))
      rw [hhead, hhead, inetSum_store m a v len (data + 2) (by omega) (by omega) (by omega)]
      omega

/-- **`updateCheckSum` makes the checksum valid**, of a header that has the field. -/
theorem isChecksumOK_updateCheckSum (m : Mem) {ipv4 : Nat} (h : 12 ≤ getHeaderLength m ipv4) :
    isChecksumOK (updateCheckSum m ipv4) ipv4 = true := by
  have hlen : getHeaderLength (updateCheckSum m ipv4) ipv4 = getHeaderLength m ipv4 := by
    rw [getHeaderLength, updateCheckSum_of_ne m (Or.inl (by omega)), getHeaderLength]
  have hm : updateCheckSum m ipv4 = (m.store (ipv4 + 10) 2 0).store (ipv4 + 10) 2
      (pktInetChecksum (m.store (ipv4 + 10) 2 0) ipv4 (getHeaderLength m ipv4)) := by
    rw [updateCheckSum, getHeaderLength_clear]
  have hclear : (m.store (ipv4 + 10) 2 0).store (ipv4 + 10) 2 0 = m.store (ipv4 + 10) 2 0 := by
    funext x
    refine Mem.store_congr fun hx => ?_
    rcases Nat.lt_or_ge x (ipv4 + 10) with hlt | hge
    · exact Mem.store_of_lt _ _ hlt
    · exact Mem.store_of_ge _ _ (by omega)
  generalize m.store (ipv4 + 10) 2 0 = m0 at hm hclear
  -- the checksum complements the folded sum to 65535
  have hsum := inetSum_store m0 (ipv4 + 10) (pktInetChecksum m0 ipv4 (getHeaderLength m ipv4))
    (getHeaderLength m ipv4) ipv4 (by omega) (by omega) (by omega)
  rw [hclear, ← hm] at hsum
  obtain ⟨hlt, hmod, hzero⟩ := foldCarry_spec _ (inetSum m0 ipv4 (getHeaderLength m ipv4)) le_rfl
  rw [pktInetChecksum, bswap_bswap] at hsum
  obtain ⟨hlt', hmod', hzero'⟩ :=
    foldCarry_spec _ (inetSum (updateCheckSum m ipv4) ipv4 (getHeaderLength m ipv4)) le_rfl
  have hall : foldCarry (inetSum (updateCheckSum m ipv4) ipv4 (getHeaderLength m ipv4))
      (inetSum (updateCheckSum m ipv4) ipv4 (getHeaderLength m ipv4)) = 65535 := by
    omega
  rw [isChecksumOK, hlen, pktInetChecksum, hall]
  decide

end Trex.Net
