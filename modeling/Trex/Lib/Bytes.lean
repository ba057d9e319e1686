/-
# Byte memory: fixed-width little-endian loads and stores

Every packed struct the data plane reads is a run of bytes in some memory, and every field of
it is an unsigned integer of `w` bytes, least significant byte first.  This file has the two
views of such a field and nothing about any program:

* as a LIST of bytes, `toBytes w n` and `ofBytes l`, which is how a struct is emitted;
* as a window of a MEMORY, `Mem.load m a w` and `Mem.store m a w n`, which is how a struct is
  read through a pointer.

A store truncates (`load_store`), it touches its own window only (`store_of_lt`,
`store_of_ge`), and a load reads its own window only (`load_congr`).  Big-endian fields are
the same bytes reversed (`bswap`).
-/
import Mathlib.Data.Nat.ModEq
import Mathlib.Tactic.Ring

namespace Trex.Lib

open List

/-! ## 1. Numbers as lists of bytes -/

/-- The `w` little-endian bytes of `n`; what does not fit in `w` bytes is dropped. -/
def toBytes : Nat → Nat → List UInt8
  | 0, _ => []
  | w + 1, n => UInt8.ofNat n :: toBytes w (n / 256)

/-- The number with the given little-endian bytes. -/
def ofBytes : List UInt8 → Nat
  | [] => 0
  | b :: l => b.toNat + 256 * ofBytes l

@[simp] theorem length_toBytes (w n : Nat) : (toBytes w n).length = w := by
  induction w generalizing n with
  | zero => rfl
  | succ w ih => simp [toBytes, ih]

/-- **The round trip truncates**: `w` bytes of `n` carry `n` modulo `256 ^ w`. -/
@[simp] theorem ofBytes_toBytes (w n : Nat) : ofBytes (toBytes w n) = n % 256 ^ w := by
  induction w generalizing n with
  | zero => simp [toBytes, ofBytes, Nat.mod_one]
  | succ w ih =>
    have hb : (UInt8.ofNat n).toNat = n % 256 := by simp
    rw [toBytes, ofBytes, ih, hb, pow_succ', Nat.mod_mul]

theorem ofBytes_lt (l : List UInt8) : ofBytes l < 256 ^ l.length := by
  induction l with
  | nil => simp [ofBytes]
  | cons b l ih =>
    have hb : b.toNat < 256 := b.toNat_lt
    rw [ofBytes, length_cons, pow_succ]
    omega

theorem toBytes_ofBytes (l : List UInt8) : toBytes l.length (ofBytes l) = l := by
  induction l with
  | nil => rfl
  | cons b l ih =>
    have hb : b.toNat < 256 := b.toNat_lt
    have hq : (b.toNat + 256 * ofBytes l) / 256 = ofBytes l := by omega
    have hr : UInt8.ofNat (b.toNat + 256 * ofBytes l) = b := by
      apply UInt8.toNat_inj.mp
      simp only [UInt8.toNat_ofNat']
      omega
    rw [length_cons, toBytes, ofBytes, hq, hr, ih]

/-- Only the low `w` bytes of the number matter. -/
theorem toBytes_mod (w n : Nat) : toBytes w (n % 256 ^ w) = toBytes w n := by
  have h := toBytes_ofBytes (toBytes w n)
  rwa [length_toBytes, ofBytes_toBytes] at h

/-- The bytes of a number, the low ones first. -/
theorem toBytes_add (v w n : Nat) : toBytes (v + w) n = toBytes v n ++ toBytes w (n / 256 ^ v) := by
  induction v generalizing n with
  | zero => rw [Nat.zero_add, pow_zero, Nat.div_one, toBytes, nil_append]
  | succ v ih => rw [Nat.succ_add, toBytes, toBytes, ih, cons_append, Nat.div_div_eq_div_mul,
      ← pow_succ']

/-- The byte swap of a `w`-byte number. -/
def bswap (w n : Nat) : Nat := ofBytes (toBytes w n).reverse

theorem toBytes_bswap (w n : Nat) : toBytes w (bswap w n) = (toBytes w n).reverse := by
  have h := toBytes_ofBytes (toBytes w n).reverse
  rwa [length_reverse, length_toBytes] at h

theorem bswap_mod (w n : Nat) : bswap w (n % 256 ^ w) = bswap w n := by
  rw [bswap, toBytes_mod, bswap]

theorem bswap_bswap (w n : Nat) : bswap w (bswap w n) = n % 256 ^ w := by
  rw [bswap, toBytes_bswap, reverse_reverse, ofBytes_toBytes]

theorem bswap_four (n : Nat) : bswap 4 n
    = n / 16777216 % 256 + n / 65536 % 256 * 256 + n / 256 % 256 * 65536 + n % 256 * 16777216 := by
  have h2 : n / 256 / 256 = n / 65536 := Nat.div_div_eq_div_mul n 256 256
  have h3 : n / 65536 / 256 = n / 16777216 := Nat.div_div_eq_div_mul n 65536 256
  simp only [bswap, toBytes, ofBytes, reverse_cons, reverse_nil, nil_append, cons_append,
    UInt8.toNat_ofNat', h2, h3]
  omega

/-! ## 2. Memory -/

/-- A byte memory, addressed from the start of a buffer.  Addresses past the end of the
buffer are addresses of whatever lies behind it. -/
abbrev Mem := Nat → UInt8

namespace Mem

/-- `*(uintN_t *)(m + a)` with `N = 8 * w`. -/
def load (m : Mem) (a : Nat) : Nat → Nat
  | 0 => 0
  | w + 1 => (m a).toNat + 256 * load m (a + 1) w

/-- The memory with the bytes `l` written from address `a` on. -/
def putBytes (m : Mem) (a : Nat) (l : List UInt8) : Mem := fun x =>
  if a ≤ x then
    match l[x - a]? with
    | some b => b
    | none => m x
  else m x

/-- `*(uintN_t *)(m + a) = n` with `N = 8 * w`. -/
def store (m : Mem) (a w n : Nat) : Mem := m.putBytes a (toBytes w n)

/-- The `n` bytes from address `a` on. -/
def read (m : Mem) (a n : Nat) : List UInt8 := (List.range n).map fun i => m (a + i)

theorem load_lt (m : Mem) (a w : Nat) : m.load a w < 256 ^ w := by
  induction w generalizing a with
  | zero => simp [load]
  | succ w ih =>
    have hb : (m a).toNat < 256 := (m a).toNat_lt
    have := ih (a + 1)
    rw [load, pow_succ]
    omega

@[simp] theorem load_mod (m : Mem) (a w : Nat) : m.load a w % 256 ^ w = m.load a w :=
  Nat.mod_eq_of_lt (m.load_lt a w)

/-- A field and the one behind it. -/
theorem load_add (m : Mem) (a v w : Nat) :
    m.load a (v + w) = m.load a v + 256 ^ v * m.load (a + v) w := by
  induction v generalizing a with
  | zero => rw [Nat.zero_add, load, pow_zero, Nat.one_mul, Nat.zero_add, Nat.add_zero]
  | succ v ih =>
    rw [Nat.succ_add, load, load, ih, Nat.mul_add, ← Nat.mul_assoc, ← pow_succ', Nat.add_assoc,
      Nat.add_assoc, Nat.add_comm 1 v]

/-- A load reads its own window only. -/
theorem load_congr {m m' : Mem} {a w : Nat} (h : ∀ x, a ≤ x → x < a + w → m x = m' x) :
    m.load a w = m'.load a w := by
  induction w generalizing a with
  | zero => rfl
  | succ w ih =>
    rw [load, load, h a (le_refl a) (by omega), ih fun x h1 h2 => h x (by omega) (by omega)]

theorem putBytes_of_lt (m : Mem) {a x : Nat} (l : List UInt8) (h : x < a) :
    m.putBytes a l x = m x := by
  simp [putBytes, Nat.not_le.mpr h]

theorem putBytes_of_ge (m : Mem) {a x : Nat} (l : List UInt8) (h : a + l.length ≤ x) :
    m.putBytes a l x = m x := by
  have hn : l[x - a]? = none := List.getElem?_eq_none (by omega)
  simp [putBytes, hn]

variable {l : List UInt8}

theorem putBytes_inside (m : Mem) {a i : Nat} {b : UInt8} (h : l[i]? = some b) :
    m.putBytes a l (a + i) = b := by
  simp [putBytes, h]

@[simp] theorem putBytes_nil (m : Mem) (a : Nat) : m.putBytes a [] = m := by
  funext x
  simp [putBytes]

/-- Bytes that are put behind one another. -/
theorem putBytes_append (m : Mem) (a : Nat) (l l' : List UInt8) :
    (m.putBytes a l).putBytes (a + l.length) l' = m.putBytes a (l ++ l') := by
  funext x
  by_cases hx : x < a + l.length
  · rw [putBytes_of_lt _ _ hx]
    by_cases ha : a ≤ x
    · simp only [putBytes, if_pos ha]
      rw [List.getElem?_append_left (by omega)]
    · rw [putBytes_of_lt _ _ (by omega), putBytes_of_lt _ _ (by omega)]
  · simp only [putBytes, if_pos (show a ≤ x by omega), if_pos (show a + l.length ≤ x by omega)]
    rw [List.getElem?_append_right (by omega),
      List.getElem?_eq_none (show l.length ≤ x - a by omega), Nat.sub_sub]

/-- Two memories that agree outside the window agree after the same bytes were put there. -/
theorem putBytes_congr {m m' : Mem} {a x : Nat} (h : ¬ (a ≤ x ∧ x < a + l.length) → m x = m' x) :
    m.putBytes a l x = m'.putBytes a l x := by
  by_cases hx : a ≤ x ∧ x < a + l.length
  · have hb : l[x - a]? = some (l.get ⟨x - a, by omega⟩) := by
      simp
    simp [putBytes, hx.1, hb]
  · simp only [putBytes, h hx]

/-- The bytes that were put are the bytes that are loaded. -/
theorem load_putBytes (m : Mem) (a : Nat) (l : List UInt8) :
    (m.putBytes a l).load a l.length = ofBytes l := by
  -- the window moves right as the list is consumed, so generalise the part already passed
  suffices h : ∀ (l1 l2 : List UInt8),
      (m.putBytes a (l1 ++ l2)).load (a + l1.length) l2.length = ofBytes l2 by
    simpa using h [] l
  intro l1 l2
  induction l2 generalizing l1 with
  | nil => rfl
  | cons b l2 ih =>
    have hb : m.putBytes a (l1 ++ b :: l2) (a + l1.length) = b :=
      putBytes_inside m (by simp)
    have := ih (l1 ++ [b])
    simp only [append_assoc, singleton_append, length_append,
      length_singleton, ← Nat.add_assoc] at this
    rw [length_cons, load, ofBytes, hb, this]

theorem store_of_lt (m : Mem) {a w x : Nat} (n : Nat) (h : x < a) : m.store a w n x = m x :=
  putBytes_of_lt m _ h

theorem store_of_ge (m : Mem) {a w x : Nat} (n : Nat) (h : a + w ≤ x) : m.store a w n x = m x :=
  putBytes_of_ge m _ (by simpa using h)

/-- A store leaves every byte outside the field alone. -/
theorem store_outside (m : Mem) {a w x : Nat} (n : Nat) (h : x < a ∨ a + w ≤ x) :
    m.store a w n x = m x :=
  h.elim (store_of_lt m n) (store_of_ge m n)

/-- The bytes of a field that was stored. -/
theorem store_inside (m : Mem) {a w i n : Nat} {b : UInt8} (h : (toBytes w n)[i]? = some b) :
    m.store a w n (a + i) = b :=
  putBytes_inside m h

theorem store_congr {m m' : Mem} {a w n x : Nat} (h : ¬ (a ≤ x ∧ x < a + w) → m x = m' x) :
    m.store a w n x = m'.store a w n x :=
  putBytes_congr (by simpa using h)

/-- **A store followed by a load of the same field truncates.** -/
@[simp] theorem load_store (m : Mem) (a w n : Nat) : (m.store a w n).load a w = n % 256 ^ w := by
  have h := load_putBytes m a (toBytes w n)
  rwa [length_toBytes, ofBytes_toBytes] at h

/-- **A store leaves every disjoint field alone.** -/
theorem load_store_of_disjoint (m : Mem) {a w b v : Nat} (n : Nat) (h : b + v ≤ a ∨ a + w ≤ b) :
    (m.store a w n).load b v = m.load b v := by
  refine load_congr fun x h1 h2 => ?_
  rcases h with h | h
  · exact store_of_lt m n (by omega)
  · exact store_of_ge m n (by omega)

/-- Storing the byte swap writes the bytes most significant first. -/
theorem store_bswap (m : Mem) (a w n : Nat) :
    m.store a w (bswap w n) = m.putBytes a (toBytes w n).reverse := by
  rw [store, toBytes_bswap]

/-- A field that is stored in two parts. -/
theorem store_add (m : Mem) (a v w n : Nat) :
    m.store a (v + w) n = (m.store a v n).store (a + v) w (n / 256 ^ v) := by
  have happend := putBytes_append m a (toBytes v n) (toBytes w (n / 256 ^ v))
  rw [length_toBytes] at happend
  rw [store, store, store, happend, toBytes_add]

@[simp] theorem length_read (m : Mem) (a n : Nat) : (m.read a n).length = n := by
  simp [read]

theorem read_congr {m m' : Mem} {a n : Nat} (h : ∀ x, a ≤ x → x < a + n → m x = m' x) :
    m.read a n = m'.read a n := by
  refine map_congr_left fun i hi => ?_
  have := mem_range.mp hi
  exact h (a + i) (by omega) (by omega)

theorem read_append (m : Mem) (a n k : Nat) :
    m.read a (n + k) = m.read a n ++ m.read (a + n) k := by
  simp [read, range_add, Function.comp_def, Nat.add_assoc]

/-- The end of what is read. -/
theorem drop_read (m : Mem) (a n k : Nat) : (m.read a n).drop k = m.read (a + k) (n - k) := by
  rcases Nat.le_total k n with h | h
  · obtain ⟨d, rfl⟩ := Nat.exists_eq_add_of_le h
    rw [read_append, Nat.add_sub_cancel_left, drop_left' (length_read _ _ _)]
  · rw [drop_eq_nil_of_le (by rwa [length_read]), Nat.sub_eq_zero_of_le h]
    rfl

theorem getD_read (m : Mem) {n x : Nat} (h : x < n) : (m.read 0 n).getD x 0 = m x := by
  simp [read, h]

/-- A field is the number of its bytes. -/
theorem ofBytes_read (m : Mem) (a w : Nat) : ofBytes (m.read a w) = m.load a w := by
  induction w generalizing a with
  | zero => rfl
  | succ w ih =>
    have hcons : m.read a (w + 1) = m a :: m.read (a + 1) w := by
      simp only [read, range_succ_eq_map, map_cons, map_map, Nat.add_zero]
      congr 1
      refine map_congr_left fun i _ => ?_
      simp [Function.comp, Nat.add_assoc, Nat.add_comm 1]
    rw [hcons, ofBytes, ih, load]

/-- Reading back the bytes just put. -/
theorem read_putBytes (m : Mem) (a : Nat) (l : List UInt8) :
    (m.putBytes a l).read a l.length = l := by
  apply ext_getElem? fun i => ?_
  by_cases hi : i < l.length
  · have hb : l[i]? = some l[i] := List.getElem?_eq_getElem hi
    rw [hb]
    simp [read, List.getElem?_range hi, putBytes_inside m hb]
  · rw [List.getElem?_eq_none (by simpa using hi), List.getElem?_eq_none (by omega)]

/-- Reading back some of the bytes just put. -/
theorem read_putBytes_slice (m : Mem) (a : Nat) {i n : Nat} (h : i + n ≤ l.length) :
    (m.putBytes a l).read (a + i) n = (l.drop i).take n := by
  refine ext_getElem (by simp; omega) fun j h1 h2 => ?_
  rw [length_read] at h1
  have hb : l[i + j]? = some l[i + j] := List.getElem?_eq_getElem (by omega)
  simp [read, Nat.add_assoc, putBytes_inside m hb]

/-- Reading what other bytes were put before. -/
theorem read_putBytes_of_disjoint (m : Mem) {a b n : Nat} (l : List UInt8)
    (h : b + n ≤ a ∨ a + l.length ≤ b) :
    (m.putBytes a l).read b n = m.read b n := by
  refine read_congr fun x h1 h2 => ?_
  rcases h with h | h
  · exact putBytes_of_lt m l (by omega)
  · exact putBytes_of_ge m l (by omega)

/-- A memory that starts with a list of bytes. -/
theorem read_getD (l : List UInt8) : Mem.read (fun a => l.getD a 0) 0 l.length = l := by
  refine ext_getElem (by simp [read]) fun i h1 h2 => ?_
  simp [read, List.getElem?_eq_getElem h2]

/-- A memory that differs in one field is the other one with this field stored. -/
theorem eq_store {m m' : Mem} {a w : Nat} (h : ∀ x, x < a ∨ a + w ≤ x → m' x = m x) :
    m' = m.store a w (m'.load a w) := by
  have hbytes : toBytes w (m'.load a w) = m'.read a w := by
    have hread := toBytes_ofBytes (m'.read a w)
    rwa [length_read, ofBytes_read] at hread
  funext x
  by_cases hx : a ≤ x ∧ x < a + w
  · obtain ⟨i, rfl⟩ := Nat.exists_eq_add_of_le hx.1
    have hi : i < w := by omega
    have hbyte : (toBytes w (m'.load a w))[i]? = some (m' (a + i)) := by
      rw [hbytes, read, List.getElem?_map, List.getElem?_range hi]
      rfl
    exact (store_inside m hbyte).symm
  · rw [store_outside _ _ (by omega)]
    exact h x (by omega)

end Mem

/-! ## 3. Packed structs

A packed struct is its fields one after the other, with no padding.  `pack` lays the fields
out and `unpack` reads them back through a pointer of the struct's type; the rest of the
buffer is what the pointer is bumped to. -/

/-- The bytes of a packed struct, given as (width, value) pairs. -/
def pack (fields : List (Nat × Nat)) : List UInt8 :=
  fields.flatMap fun f => toBytes f.1 f.2

theorem length_pack (fields : List (Nat × Nat)) :
    (pack fields).length = (fields.map Prod.fst).sum := by
  induction fields with
  | nil => rfl
  | cons f fields ih => simp [pack] at ih ⊢

/-- Read a packed struct with the given field widths; `none` when it runs past the buffer. -/
def unpack : List Nat → List UInt8 → Option (List Nat × List UInt8)
  | [], p => some ([], p)
  | w :: ws, p =>
    if w ≤ p.length then
      (unpack ws (p.drop w)).map fun r => (ofBytes (p.take w) :: r.1, r.2)
    else none

/-- **Reading back what was laid out**: the fields return truncated to their widths, and the
pointer stands behind the struct. -/
theorem unpack_pack (fields : List (Nat × Nat)) (rest : List UInt8) :
    unpack (fields.map Prod.fst) (pack fields ++ rest)
      = some (fields.map fun f => f.2 % 256 ^ f.1, rest) := by
  induction fields with
  | nil => rfl
  | cons f fs ih =>
    have hp : pack (f :: fs) ++ rest = toBytes f.1 f.2 ++ (pack fs ++ rest) := by
      simp [pack, append_assoc]
    have hd : (toBytes f.1 f.2 ++ (pack fs ++ rest)).drop f.1 = pack fs ++ rest :=
      drop_left' (length_toBytes _ _)
    have ht : (toBytes f.1 f.2 ++ (pack fs ++ rest)).take f.1 = toBytes f.1 f.2 :=
      take_left' (length_toBytes _ _)
    rw [hp, map_cons, unpack, if_pos (by simp), hd, ht, ih, ofBytes_toBytes]
    rfl

/-- What was read was there. -/
theorem unpack_length : ∀ {ws : List Nat} {p : List UInt8} {res : List Nat × List UInt8},
    unpack ws p = some res → ws.sum ≤ p.length
  | [], _, _, _ => Nat.zero_le _
  | w :: ws, p, res, h => by
    rw [unpack] at h
    split at h
    · rename_i hw
      obtain ⟨r, hr, -⟩ := Option.map_eq_some_iff.mp h
      have hle := unpack_length hr
      rw [length_drop] at hle
      rw [sum_cons]
      omega
    · cases h

/-- What is there can be read. -/
theorem unpack_isSome : ∀ {ws : List Nat} {p : List UInt8}, ws.sum ≤ p.length → (unpack ws p).isSome
  | [], _, _ => rfl
  | w :: ws, p, h => by
    rw [sum_cons] at h
    have hrest : (unpack ws (p.drop w)).isSome := unpack_isSome (by rw [length_drop]; omega)
    rw [unpack, if_pos (by omega), Option.isSome_map]
    exact hrest

/-- The first field that was read. -/
theorem unpack_head {w : Nat} {ws : List Nat} {p : List UInt8} {res : List Nat × List UInt8}
    (h : unpack (w :: ws) p = some res) : ∃ vs, res.1 = ofBytes (p.take w) :: vs := by
  rw [unpack] at h
  split at h
  · obtain ⟨r, -, rfl⟩ := Option.map_eq_some_iff.mp h
    exact ⟨r.1, rfl⟩
  · cases h

/-- **Laying out what was read** gives the bytes back. -/
theorem pack_unpack : ∀ {ws : List Nat} {p : List UInt8} {res : List Nat × List UInt8},
    unpack ws p = some res → res.1.length = ws.length ∧ pack (ws.zip res.1) ++ res.2 = p
  | [], p, res, h => by
    cases h
    exact ⟨rfl, rfl⟩
  | w :: ws, p, res, h => by
    rw [unpack] at h
    split at h
    · rename_i hw
      obtain ⟨r, hr, rfl⟩ := Option.map_eq_some_iff.mp h
      obtain ⟨hlen, hpack⟩ := pack_unpack hr
      have hfield := toBytes_ofBytes (p.take w)
      rw [length_take, min_eq_left hw] at hfield
      refine ⟨by simp [hlen], ?_⟩
      calc pack ((w :: ws).zip (ofBytes (p.take w) :: r.1)) ++ r.2
          = toBytes w (ofBytes (p.take w)) ++ (pack (ws.zip r.1) ++ r.2) := by simp [pack]
        _ = p := by rw [hfield, hpack, take_append_drop]
    · cases h

end Trex.Lib
