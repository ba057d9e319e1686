/-
# The laws of the internet checksum

`pkt_InetChecksum` (CPktCmn.cpp) sums one buffer, or two of which the first has an even length, and
the setters of `IPHeader` (IPHeader.inl) correct the checksum for the field they change
(`pkt_UpdateInetChecksum`).

* The sums are one's complement sums: what matters of them is the remainder modulo 65535, and
  whether they are zero.
* The loops are written here a second time, with a running sum that has no value outside of its type
  (`sumBytes`); no sum of at most 65535 bytes gets there.
* A valid header stays valid under every setter, and the checksum is the one that `updateCheckSum`
  would compute, up to the two representations of zero (`checksum_laws`).
-/
import Trex.Net.IpHeader
import Mathlib.Data.UInt

namespace Trex.Net

open Trex.Lib

/-! ## 1. Sums in their types -/

/-- `sum += x`, of an `int`. -/
def addInt (sum x : Nat) : Option Nat := if sum + x < 2 ^ 31 then some (sum + x) else none

/-- `newCS += x`, of a `uint32_t`, when it does not wrap around. -/
def addUInt32 (sum x : Nat) : Option Nat := if sum + x < 2 ^ 32 then some (sum + x) else none

/-- The loop over the words of the first of two buffers: an odd byte at the end is left out. -/
def sumWords (m : Mem) (data : Nat) : Nat → Nat → Option Nat
  | 0, sum => some sum
  | 1, sum => some sum
  | len + 2, sum => (addInt sum (bswap 2 (m.load data 2))).bind fun sum =>
      sumWords m (data + 2) len sum

/-- The loop over the last buffer, and the odd byte. -/
def sumBytes (m : Mem) (data : Nat) : Nat → Nat → Option Nat
  | 0, sum => some sum
  | 1, sum => addInt sum (bswap 2 (m.load data 2) / 256 * 256)
  | len + 2, sum => (addInt sum (bswap 2 (m.load data 2))).bind fun sum =>
      sumBytes m (data + 2) len sum

/-- `while(sum >> 16) sum = (sum & 0xffff) + (sum >> 16); return PKT_NTOHS((uint16_t)(~sum));` -/
def foldedChecksum (sum : Nat) : Nat := bswap 2 (65535 - foldCarry sum sum % 65536)

/-- `pkt_InetChecksum(data, len)` -/
def inetChecksum (m : Mem) (data len : Nat) :
    Option Nat := (sumBytes m data len 0).map foldedChecksum

/-- `pkt_InetChecksum(data, len, data2, len2)` -/
def inetChecksum2 (m : Mem) (data len data2 len2 : Nat) : Option Nat :=
  ((sumWords m data len 0).bind fun sum => sumBytes m data2 len2 sum).map foldedChecksum

/-- `pkt_UpdateInetChecksum` -/
def updateInetChecksum (csField oldVal newVal : Nat) : Option Nat :=
  ((addUInt32 (65535 - bswap 2 csField) (65535 - bswap 2 oldVal)).bind fun newCS =>
    addUInt32 newCS (bswap 2 newVal)).map foldedChecksum

theorem bswap_two (n : Nat) : bswap 2 n = n / 256 % 256 + 256 * (n % 256) := by
  simp only [bswap, toBytes, ofBytes, List.reverse_cons, List.reverse_nil, List.nil_append,
    List.cons_append, UInt8.toNat_ofNat']
  omega

theorem bswap_two_lt (n : Nat) : bswap 2 n < 65536 := by
  rw [bswap_two]
  omega

/-- The sum of the words of a buffer: at most 65535 for each two bytes. -/
theorem inetSum_le (m : Mem) : ∀ len data, inetSum m data len ≤ 65535 * ((len + 1) / 2)
  | 0, data => Nat.zero_le _
  | 1, data => by
    have hlt := bswap_two_lt (m.load data 2)
    rw [inetSum]
    omega
  | len + 2, data => by
    have hlt := bswap_two_lt (m.load data 2)
    have hrest := inetSum_le m len (data + 2)
    rw [inetSum]
    omega

/-- **The running sum does not overflow**: it is the sum. -/
theorem sumBytes_eq (m : Mem) : ∀ len data sum, sum + inetSum m data len < 2 ^ 31 →
    sumBytes m data len sum = some (sum + inetSum m data len)
  | 0, data, sum, h => rfl
  | 1, data, sum, h => if_pos h
  | len + 2, data, sum, h => by
    rw [inetSum] at h
    rw [sumBytes, addInt, if_pos (by omega), Option.bind_some,
      sumBytes_eq m len (data + 2) _ (by omega), inetSum, Nat.add_assoc]

theorem sumWords_eq (m : Mem) : ∀ len data sum, len % 2 = 0 → sum + inetSum m data len < 2 ^ 31 →
    sumWords m data len sum = some (sum + inetSum m data len)
  | 0, data, sum, heven, h => rfl
  | 1, data, sum, heven, h => by cases heven
  | len + 2, data, sum, heven, h => by
    rw [inetSum] at h
    rw [sumWords, addInt, if_pos (by omega), Option.bind_some,
      sumWords_eq m len (data + 2) _ (by omega) (by omega), inetSum, Nat.add_assoc]

/-- The sum of a buffer of 16-bit length fits into an `int`. -/
theorem inetChecksum_eq (m : Mem) {data len : Nat} (h : len ≤ 65535) :
    inetChecksum m data len = some (pktInetChecksum m data len) := by
  have hle := inetSum_le m len data
  rw [inetChecksum, sumBytes_eq m len data 0 (by omega), Nat.zero_add]
  rfl

/-- The sums of the incremental form fit into a `uint32_t`. -/
theorem updateInetChecksum_eq (csField oldVal newVal : Nat) :
    updateInetChecksum csField oldVal newVal =
        some (pktUpdateInetChecksum csField oldVal newVal) := by
  have hlt := bswap_two_lt newVal
  rw [updateInetChecksum, addUInt32, if_pos (by omega), Option.bind_some, addUInt32,
    if_pos (by omega)]
  rfl

/-! ## 2. Two buffers -/

/-- The first byte of a field is the high half of the swapped word. -/
theorem bswap_two_high (m : Mem) (data : Nat) : bswap 2 (m.load data 2) / 256 = (m data).toNat := by
  have hfirst := (m data).toNat_lt
  have hsecond := (m (data + 1)).toNat_lt
  simp only [bswap_two, Mem.load]
  omega

/-- The sum depends on the bytes of the buffer only. -/
theorem inetSum_bytes {m m' : Mem} : ∀ len data data', (∀ i < len, m (data + i) = m' (data' + i)) →
    inetSum m data len = inetSum m' data' len
  | 0, data, data', h => rfl
  | 1, data, data', h => by
    rw [inetSum, inetSum, bswap_two_high, bswap_two_high, show m data = m' data'
      from h 0 (by decide)]
  | len + 2, data, data', h => by
    have hword : m.load data 2 = m'.load data' 2 := by
      simp only [Mem.load]
      rw [show m data = m' data' from h 0 (by omega), h 1 (by omega)]
    have hrest : inetSum m (data + 2) len = inetSum m' (data' + 2) len := by
      refine inetSum_bytes len (data + 2) (data' + 2) fun i hi => ?_
      have hbyte := h (2 + i) (by omega)
      rwa [← Nat.add_assoc, ← Nat.add_assoc] at hbyte
    rw [inetSum, inetSum, hword, hrest]

/-- A buffer of even length and what follows it. -/
theorem inetSum_append (m : Mem) (len2 : Nat) : ∀ len data, len % 2 = 0 →
    inetSum m data (len + len2) = inetSum m data len + inetSum m (data + len) len2
  | 0, data, _ => by rw [Nat.zero_add, inetSum, Nat.zero_add, Nat.add_zero]
  | 1, data, h => by cases h
  | len + 2, data, h => by
    rw [show len + 2 + len2 = len + len2 + 2 by omega, inetSum, inetSum,
      inetSum_append m len2 len (data + 2) (by omega),
      Nat.add_right_comm data 2 len, Nat.add_assoc, Nat.add_assoc]

/-- **Two buffers are summed like one** that holds both. -/
theorem inetChecksum2_eq {m m' : Mem} {data len data2 len2 buf : Nat} (heven : len % 2 = 0)
    (hlen : len + len2 ≤ 65535) (hfirst : ∀ i < len, m' (buf + i) = m (data + i))
    (hsecond : ∀ i < len2, m' (buf + len + i) = m (data2 + i)) :
    inetChecksum2 m data len data2 len2 = inetChecksum m' buf (len + len2) := by
  have hsum : inetSum m' buf (len + len2) = inetSum m data len + inetSum m data2 len2 := by
    rw [inetSum_append m' len2 len buf heven, inetSum_bytes len buf data hfirst,
      inetSum_bytes len2 (buf + len) data2 hsecond]
  have hle := inetSum_le m' (len + len2) buf
  rw [inetChecksum2, sumWords_eq m len data 0 heven (by omega), Option.bind_some, Nat.zero_add,
    sumBytes_eq m len2 data2 _ (by omega), ← hsum, inetChecksum_eq m' hlen]
  rfl

/-! ## 3. The setters -/

/-- `updateTos`: `myTos` is the second byte of the first word. -/
def updateTos (m : Mem) (ipv4 newTos : Nat) : Mem :=
  let oldWord := m.load ipv4 2
  let m := m.store (ipv4 + 1) 1 newTos
  let newWord := m.load ipv4 2
  m.store (ipv4 + 10) 2 (pktUpdateInetChecksum (m.load (ipv4 + 10) 2) oldWord newWord)

/-- `updateTotalLength`: `myLength` is at offset 2. -/
def updateTotalLength (m : Mem) (ipv4 newlen : Nat) : Mem :=
  let oldLen := m.load (ipv4 + 2) 2
  let m := m.store (ipv4 + 2) 2 (bswap 2 newlen)
  m.store (ipv4 + 10) 2 (pktUpdateInetChecksum (m.load (ipv4 + 10) 2) oldLen (m.load (ipv4 + 2) 2))

/-- A call of one of the setters. -/
inductive HeaderSetter
  | tos (newTos : UInt8)
  | totalLength (newlen : UInt16)
  | ipSrc (ip : UInt32)
  | ipDst (ip : UInt32)

def HeaderSetter.apply (m : Mem) (ipv4 : Nat) : HeaderSetter → Mem
  | tos newTos => updateTos m ipv4 newTos.toNat
  | totalLength newlen => updateTotalLength m ipv4 newlen.toNat
  | ipSrc ip => updateIpSrc m ipv4 ip.toNat
  | ipDst ip => updateIpDst m ipv4 ip.toNat

/-! ## 4. One's complement sums -/

variable {m : Mem} {ipv4 : Nat}

/-- **A checksum is valid** when the sum of the header is a multiple of 65535 and not zero. -/
theorem isChecksumOK_iff (m : Mem) (ipv4 : Nat) : isChecksumOK m ipv4 = true ↔
    inetSum m ipv4 (getHeaderLength m ipv4) ≠ 0 ∧
        inetSum m ipv4 (getHeaderLength m ipv4) % 65535 = 0 := by
  obtain ⟨hlt, hmod, hzero⟩ := foldCarry_spec _ (inetSum m ipv4 (getHeaderLength m ipv4)) le_rfl
  rw [isChecksumOK, pktInetChecksum, beq_iff_eq]
  have hswap : ∀ n < 65536, bswap 2 n = 0 ↔ n = 0 := by
    intro n hn
    rw [bswap_two]
    omega
  rw [hswap _ (by omega)]
  omega

/-- **The incremental form** takes the old value out of the sum and puts the new one in. -/
theorem pktUpdateInetChecksum_mod (csField oldVal newVal : Nat) :
    (bswap 2 (pktUpdateInetChecksum csField oldVal newVal) + bswap 2 newVal) % 65535
      = (bswap 2 csField + bswap 2 oldVal) % 65535 := by
  have hcs := bswap_two_lt csField
  have hold := bswap_two_lt oldVal
  obtain ⟨hlt, hmod, -⟩ := foldCarry_spec _
    ((65535 - bswap 2 csField) + (65535 - bswap 2 oldVal) + bswap 2 newVal) le_rfl
  rw [pktUpdateInetChecksum, bswap_bswap]
  omega

/-- A word of the header is replaced. -/
theorem inetSum_replace (m : Mem) (a v : Nat) {len data : Nat} (hle : data ≤ a)
    (hlt : a + 2 ≤ data + len) (heven : (a - data) % 2 = 0) :
    inetSum (m.store a 2 v) data len + bswap 2 (m.load a 2) = inetSum m data len + bswap 2 v := by
  have hself : m = m.store a 2 (m.load a 2) := Mem.eq_store fun _ _ => rfl
  have hold := inetSum_store m a (m.load a 2) len data hle hlt heven
  have hnew := inetSum_store m a v len data hle hlt heven
  rw [← hself] at hold
  omega

/-- A header of 20 bytes is not all zero. -/
theorem inetSum_pos (h : 20 ≤ getHeaderLength m ipv4) :
    0 < inetSum m ipv4 (getHeaderLength m ipv4) := by
  obtain ⟨len, hlen⟩ : ∃ len, getHeaderLength m ipv4 = len + 2 :=
    ⟨getHeaderLength m ipv4 - 2, by omega⟩
  have hhigh := bswap_two_high m ipv4
  have hfirst : 0 < (m ipv4).toNat := by
    rw [getHeaderLength] at h
    omega
  rw [hlen, inetSum]
  omega

/-- The two representations of zero are taken for one. -/
def SameChecksum (c c' : Nat) : Prop := c = c' ∨ (c = 0 ∧ c' = 65535) ∨ (c = 65535 ∧ c' = 0)

instance (c c' : Nat) : Decidable (SameChecksum c c') := inferInstanceAs (Decidable (_ ∨ _))

/-- Two checksums of one header that are both valid are the same. -/
theorem sameChecksum_of_mod {c c' : Nat} (hc : c < 65536) (hc' : c' < 65536)
    (h : bswap 2 c % 65535 = bswap 2 c' % 65535) : SameChecksum c c' := by
  have hx := bswap_two_lt c
  have hy := bswap_two_lt c'
  have hback : ∀ n < 65536, n = bswap 2 (bswap 2 n) := by
    intro n hn
    rw [bswap_bswap]
    exact (Nat.mod_eq_of_lt hn).symm
  rcases (by omega : bswap 2 c = bswap 2 c' ∨ (bswap 2 c = 0 ∧ bswap 2 c' = 65535) ∨
    (bswap 2 c = 65535 ∧ bswap 2 c' = 0)) with heq | ⟨hzero, hones⟩ | ⟨hones, hzero⟩
  · exact .inl (by rw [hback c hc, heq, ← hback c' hc'])
  · exact .inr (.inl ⟨by rw [hback c hc, hzero]; decide, by rw [hback c' hc', hones]; decide⟩)
  · exact .inr (.inr ⟨by rw [hback c hc, hones]; decide, by rw [hback c' hc', hzero]; decide⟩)

/-! ## 5. The setters keep a checksum valid -/

/-- What a setter does to a header: its length stays, and the sum of its words is the same modulo
65535. -/
structure Keeps (m m' : Mem) (ipv4 : Nat) : Prop where
  length : getHeaderLength m' ipv4 = getHeaderLength m ipv4
  sum : inetSum m' ipv4 (getHeaderLength m ipv4) % 65535 = inetSum m ipv4 (getHeaderLength m ipv4) %
    65535

/-- **One word and the checksum**: a word at an even offset is replaced, and the checksum
corrected. -/
theorem keeps_word (h : 20 ≤ getHeaderLength m ipv4) {a v : Nat} (ha : ipv4 ≤ a ∧ a + 2 ≤ ipv4 + 20)
    (heven : (a - ipv4) % 2 = 0) (hapart : a + 2 ≤ ipv4 + 10 ∨ ipv4 + 12 ≤ a) :
    inetSum ((m.store a 2 v).store (ipv4 + 10) 2
      (pktUpdateInetChecksum (m.load (ipv4 + 10) 2) (m.load a 2) v)) ipv4 (getHeaderLength m ipv4) %
        65535 =
      inetSum m ipv4 (getHeaderLength m ipv4) % 65535 := by
  have hend : ipv4 + 20 ≤ ipv4 + getHeaderLength m ipv4 := Nat.add_le_add_left h ipv4
  have hword := inetSum_replace m a v ha.1 (ha.2.trans hend) heven
  have hfield := inetSum_replace (m.store a 2 v) (ipv4 + 10)
    (pktUpdateInetChecksum (m.load (ipv4 + 10) 2) (m.load a 2) v) (Nat.le_add_right ipv4 10)
    ((by omega : ipv4 + 10 + 2 ≤ ipv4 + 20).trans hend) (by omega)
  rw [Mem.load_store_of_disjoint m v (by omega)] at hfield
  have hmod := pktUpdateInetChecksum_mod (m.load (ipv4 + 10) 2) (m.load a 2) v
  omega

theorem keeps_tos (h : 20 ≤ getHeaderLength m ipv4) (newTos : Nat) :
    Keeps m (updateTos m ipv4 newTos) ipv4 where
  length := by
    rw [updateTos, getHeaderLength, Mem.store_of_lt _ _ (by omega), Mem.store_of_lt _ _ (by omega),
      getHeaderLength]
  sum := by
    have hword : m.store (ipv4 + 1) 1 newTos =
        m.store ipv4 2 ((m.store (ipv4 + 1) 1 newTos).load ipv4 2) :=
      Mem.eq_store fun x hx => Mem.store_outside _ _ (by omega)
    have hfield : (m.store (ipv4 + 1) 1 newTos).load (ipv4 + 10) 2 = m.load (ipv4 + 10) 2 :=
      Mem.load_store_of_disjoint _ _ (by omega)
    have hkeep := keeps_word h (a := ipv4) (v := (m.store (ipv4 + 1) 1 newTos).load ipv4 2)
      (by omega) (by omega) (by omega)
    rw [← hword] at hkeep
    rw [updateTos, hfield]
    exact hkeep

theorem keeps_totalLength (h : 20 ≤ getHeaderLength m ipv4) (newlen : Nat) :
    Keeps m (updateTotalLength m ipv4 newlen) ipv4 where
  length := by
    rw [updateTotalLength, getHeaderLength, Mem.store_of_lt _ _ (by omega),
      Mem.store_of_lt _ _ (by omega), getHeaderLength]
  sum := by
    have hstored : (m.store (ipv4 + 2) 2 (bswap 2 newlen)).load (ipv4 + 2) 2 = bswap 2 newlen := by
      rw [Mem.load_store]
      exact Nat.mod_eq_of_lt (bswap_two_lt newlen)
    have hfield : (m.store (ipv4 + 2) 2 (bswap 2 newlen)).load (ipv4 + 10) 2 =
        m.load (ipv4 + 10) 2 :=
      Mem.load_store_of_disjoint _ _ (by omega)
    rw [updateTotalLength, hstored, hfield]
    exact keeps_word h (by omega) (by omega) (by omega)

/-- An address is two words, each with a correction of its own. -/
theorem keeps_ipField (h : 20 ≤ getHeaderLength m ipv4) {field : Nat}
    (hfield : 12 ≤ field ∧ field ≤ 16) (heven : field % 2 = 0) (ip : Nat) :
    Keeps m (updateIpField field m ipv4 ip) ipv4 where
  length := by
    rw [updateIpField, getHeaderLength, Mem.store_of_lt _ _ (by omega),
      Mem.store_of_lt _ _ (by omega), Mem.store_of_lt _ _ (by omega), getHeaderLength]
  sum := by
    have hold := m.load_add (ipv4 + field) 2 2
    have hlow := m.load_lt (ipv4 + field) 2
    have hhigh : m.load (ipv4 + field) 4 / 65536 = m.load (ipv4 + field + 2) 2 := by
      rw [hold]
      omega
    have hrest : m.load (ipv4 + field) 4 % 65536 = m.load (ipv4 + field) 2 := by
      rw [hold]
      omega
    rw [updateIpField, hhigh, hrest]
    generalize hc1 : pktUpdateInetChecksum (m.load (ipv4 + 10) 2) (m.load (ipv4 + field + 2) 2)
      (bswap 4 ip / 65536) = c1
    have hmod1 := pktUpdateInetChecksum_mod (m.load (ipv4 + 10) 2) (m.load (ipv4 + field + 2) 2)
      (bswap 4 ip / 65536)
    rw [hc1] at hmod1
    have hc1mod : c1 % 256 ^ 2 = c1 := by
      refine Nat.mod_eq_of_lt ?_
      rw [← hc1]
      exact bswap_two_lt _
    rw [Mem.load_store, hc1mod]
    generalize hc2 : pktUpdateInetChecksum c1 (m.load (ipv4 + field) 2) (bswap 4 ip % 65536) = c2
    have hmod2 := pktUpdateInetChecksum_mod c1 (m.load (ipv4 + field) 2) (bswap 4 ip % 65536)
    rw [hc2, show bswap 2 (bswap 4 ip % 65536) = bswap 2 (bswap 4 ip) from bswap_mod 2 _] at hmod2
    -- the four stores, one word after the other
    have hend : ipv4 + 20 ≤ ipv4 + getHeaderLength m ipv4 := Nat.add_le_add_left h ipv4
    have hcs : ipv4 + 10 + 2 ≤ ipv4 + getHeaderLength m ipv4 :=
      (by omega : ipv4 + 10 + 2 ≤ ipv4 + 20).trans hend
    have hstore1 := inetSum_replace m (ipv4 + 10) c1 (Nat.le_add_right ipv4 10) hcs (by omega)
    have hstore2 := inetSum_replace (m.store (ipv4 + 10) 2 c1) (ipv4 + 10) c2
      (Nat.le_add_right ipv4 10) hcs (by omega)
    rw [Mem.load_store, hc1mod] at hstore2
    have hstore3 := inetSum_replace ((m.store (ipv4 + 10) 2 c1).store (ipv4 + 10) 2 c2)
      (ipv4 + field)
      (bswap 4 ip) (Nat.le_add_right ipv4 field)
        ((by omega : ipv4 + field + 2 ≤ ipv4 + 20).trans hend) (by omega)
    rw [Mem.load_store_of_disjoint _ _ (by omega), Mem.load_store_of_disjoint _ _ (by omega)]
      at hstore3
    have hstore4 := inetSum_replace
      (((m.store (ipv4 + 10) 2 c1).store (ipv4 + 10) 2 c2).store (ipv4 + field) 2 (bswap 4 ip))
      (ipv4 + field + 2) (bswap 4 ip / 256 ^ 2) (by omega : ipv4 ≤ ipv4 + field + 2)
      ((by omega : ipv4 + field + 2 + 2 ≤ ipv4 + 20).trans hend) (by omega)
    have hfour : ((m.store (ipv4 + 10) 2 c1).store (ipv4 + 10) 2 c2).store (ipv4 + field) 4
        (bswap 4 ip) = _ :=
      Mem.store_add _ (ipv4 + field) 2 2 (bswap 4 ip)
    rw [Mem.load_store_of_disjoint _ _ (by omega), Mem.load_store_of_disjoint _ _ (by omega),
      Mem.load_store_of_disjoint _ _ (by omega), ← hfour,
      show bswap 4 ip / 256 ^ 2 = bswap 4 ip / 65536 from rfl] at hstore4
    omega

/-- **Every setter.** -/
theorem HeaderSetter.keeps (h : 20 ≤ getHeaderLength m ipv4) (u : HeaderSetter) :
    Keeps m (u.apply m ipv4) ipv4 := by
  cases u with
  | tos newTos => exact keeps_tos h newTos.toNat
  | totalLength newlen => exact keeps_totalLength h newlen.toNat
  | ipSrc ip => exact keeps_ipField h (by decide) (by decide) ip.toNat
  | ipDst ip => exact keeps_ipField h (by decide) (by decide) ip.toNat

/-- What was valid stays valid. -/
theorem Keeps.isChecksumOK {m' : Mem} (hkeeps : Keeps m m' ipv4) (h : 20 ≤ getHeaderLength m ipv4)
    (hvalid : isChecksumOK m ipv4 = true) : isChecksumOK m' ipv4 = true := by
  have hpos := inetSum_pos (hkeeps.length.symm ▸ h : 20 ≤ getHeaderLength m' ipv4)
  have hsum := hkeeps.sum
  rw [isChecksumOK_iff] at hvalid ⊢
  rw [hkeeps.length] at hpos ⊢
  omega

/-- A valid checksum is the one that is computed from scratch. -/
theorem sameChecksum_recomputed (h : 20 ≤ getHeaderLength m ipv4)
    (hvalid : isChecksumOK m ipv4 = true) :
    SameChecksum (m.load (ipv4 + 10) 2) ((updateCheckSum m ipv4).load (ipv4 + 10) 2) := by
  have hfull := isChecksumOK_updateCheckSum m (le_trans (by decide) h : 12 ≤ getHeaderLength m ipv4)
  have hlen : getHeaderLength (updateCheckSum m ipv4) ipv4 = getHeaderLength m ipv4 := by
    rw [getHeaderLength, updateCheckSum_of_ne m (Or.inl (by omega)), getHeaderLength]
  have hword : updateCheckSum m ipv4 =
      m.store (ipv4 + 10) 2 ((updateCheckSum m ipv4).load (ipv4 + 10) 2) :=
    Mem.eq_store fun x hx => updateCheckSum_of_ne m (by omega)
  have hend : ipv4 + 10 + 2 ≤ ipv4 + getHeaderLength m ipv4 := by omega
  have hreplace := inetSum_replace m (ipv4 + 10) ((updateCheckSum m ipv4).load (ipv4 + 10) 2)
    (Nat.le_add_right ipv4 10) hend (by omega)
  rw [← hword] at hreplace
  rw [isChecksumOK_iff] at hvalid hfull
  rw [hlen] at hfull
  exact sameChecksum_of_mod (m.load_lt _ 2) ((updateCheckSum m ipv4).load_lt _ 2) (by omega)

/-- **The laws of the checksum.**  Two buffers are summed like one, when the first has an even
length; a header of at least 20 bytes is valid after `updateCheckSum`; a valid one is valid after
every setter, with the checksum that would be computed from scratch, up to the two zeros; and no sum
leaves its type. -/
theorem checksum_laws :
    (∀ (m m' : Mem) (data len data2 len2 buf : Nat), len % 2 = 0 → len + len2 ≤ 65535 →
      (∀ i < len, m' (buf + i) = m (data + i)) → (∀ i < len2, m' (buf + len + i) = m (data2 + i)) →
      inetChecksum2 m data len data2 len2 = inetChecksum m' buf (len + len2)) ∧
    (∀ (m : Mem) (ipv4 : Nat), 20 ≤ getHeaderLength m ipv4 →
      isChecksumOK (updateCheckSum m ipv4) ipv4 = true) ∧
    (∀ (m : Mem) (ipv4 : Nat) (u : HeaderSetter), 20 ≤ getHeaderLength m ipv4 →
      isChecksumOK m ipv4 = true → isChecksumOK (u.apply m ipv4) ipv4 = true ∧
      SameChecksum ((u.apply m ipv4).load (ipv4 + 10) 2)
        ((updateCheckSum (u.apply m ipv4) ipv4).load (ipv4 + 10) 2)) ∧
    (∀ (m : Mem) (data len : Nat), len ≤ 65535 →
      inetChecksum m data len = some (pktInetChecksum m data len)) ∧
    (∀ csField oldVal newVal,
      updateInetChecksum csField oldVal newVal =
          some (pktUpdateInetChecksum csField oldVal newVal)) := by
  refine ⟨fun m m' data len data2 len2 buf heven hlen hfirst hsecond => ?_, fun m ipv4 h =>
    ?_, ?_, ?_, ?_⟩
  · exact inetChecksum2_eq heven hlen hfirst hsecond
  · exact isChecksumOK_updateCheckSum m (by omega)
  · intro m ipv4 u h hvalid
    have hkeeps := u.keeps h
    have hvalid' := hkeeps.isChecksumOK h hvalid
    exact ⟨hvalid', sameChecksum_recomputed (by rw [hkeeps.length]; exact h) hvalid'⟩
  · exact fun m data len h => inetChecksum_eq m h
  · exact updateInetChecksum_eq

/-- A header of a TCP packet from 172.16.10.99 to 172.16.10.12, without its checksum. -/
def tcpHeader : Mem := fun x =>
  [0x45, 0, 0, 0x3c, 0x1c, 0x46, 0x40, 0, 0x40, 6, 0, 0, 172, 16, 10, 99, 172, 16, 10, 12].getD x 0

/-- The same bytes, the two addresses first. -/
def addressesFirst : Mem := fun x => tcpHeader (if x < 8 then 12 + x else x - 8)

/-- The two buffers of the header, its checksum, and a new source address. -/
theorem checksum_laws_tcpHeader :
    inetChecksum2 tcpHeader 12 8 0 12 = inetChecksum addressesFirst 0 (8 + 12) ∧
    isChecksumOK (updateCheckSum tcpHeader 0) 0 = true ∧
    isChecksumOK ((HeaderSetter.ipSrc 0x10000001).apply (updateCheckSum tcpHeader 0) 0) 0 = true :=
  ⟨checksum_laws.1 tcpHeader addressesFirst 12 8 0 12 0 rfl (by decide) (by decide) (by decide),
    checksum_laws.2.1 tcpHeader 0 (by decide),
    (checksum_laws.2.2.1 (updateCheckSum tcpHeader 0) 0 (.ipSrc 0x10000001) (by decide)
      (checksum_laws.2.1 tcpHeader 0 (by decide))).1⟩

end Trex.Net
