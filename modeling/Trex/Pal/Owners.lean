/-
# Who owns an mbuf

A caller of `mbuf.h` holds packets, each by its first segment.  The owners of a segment are the
packets that it is a segment of, once for each time that the packet is held, and the mbufs that are
attached to it.  `MbufInv` says that `refcnt` counts the owners, that an element is in use exactly
while it has an owner, and that the head of each packet knows how long the packet is.  While a call
is under way it has references in its hand.

Here are the invariant and the calls that change the counts; `Pal.Packets` has the calls that change
the packets.

* what an mbuf links to that belongs to no packet, as it is only attached to, is not looked at;
* elements are not used again (`Pal.Mbuf`), so an element that was put back twice would have been
  bad memory, and `count` would be less than the number of elements in use.
-/
import Mathlib.Algebra.BigOperators.Group.List.Basic
import Trex.Lib.Linked
import Trex.Lib.Shared
import Trex.Pal.Mbuf

namespace Trex.Pal

open Trex.Lib List
open Function (update update_comm update_idem update_of_ne update_self)

/-! ## 1. Packets and attached mbufs -/

namespace MbufMem

/-- The data of a segment. -/
def dataLenOf (s : MbufMem) (a : Addr) : Nat := (s.heap a).elim 0 fun x => x.dataLen.toNat

/-- The segments of a packet. -/
def chainOf (s : MbufMem) (m : Addr) : List Addr := (walk s.link (s.taken.length + 1) m).getD []

/-- The mbuf that an mbuf is attached to. -/
def attachedTo (s : MbufMem) (a : Addr) : Option Addr :=
  (s.heap a).bind fun x => if x.buf = a then none else some x.buf

/-- The mbufs that others are attached to, once for each of them. -/
def attached (s : MbufMem) : List Addr := s.taken.filterMap s.attachedTo

/-- The counts. -/
def counts (s : MbufMem) (a : Addr) :
    Option (Shared Unit) := (s.heap a).map fun x => ⟨(), x.refcnt.toNat⟩

end MbufMem

/-- The data is in the data area. -/
def RteMbuf.InRoom (x : RteMbuf) : Prop := x.dataOff.toNat + x.dataLen.toNat ≤ x.bufLen.toNat

/-- A packet, and what its head says of it. -/
structure IsPacket (s : MbufMem) (m : Addr) (l : List Addr) : Prop where
  linked : Linked s.link (some m) l
  pktLen : ∀ x, s.heap m = some x → x.pktLen.toNat = (l.map s.dataLenOf).sum
  nbSegs : ∀ x, s.heap m = some x → x.nbSegs.toNat = l.length

variable {s s' : MbufMem} {a b m : Addr} {x x' : RteMbuf} {l hand held hand' held' : List Addr}
  {pk : Addr → List Addr}

@[simp] theorem store_heap : (s.store m x).heap = update s.heap m (some x) := rfl

@[simp] theorem store_taken : (s.store m x).taken = s.taken := rfl

@[simp] theorem store_count : (s.store m x).count = s.count := rfl

@[simp] theorem put_heap : (s.rteMempoolPut .odp m).heap = update s.heap m none := rfl

@[simp] theorem put_taken : (s.rteMempoolPut .odp m).taken = s.taken := rfl

/-- What was read of an mbuf that was written. -/
theorem store_heap_eq_some (h : (s.store m x).heap a = some x') :
    a = m ∧ x' = x ∨ a ≠ m ∧ s.heap a = some x' := by
  by_cases ha : a = m
  · subst ha
    rw [store_heap, update_self] at h
    exact Or.inl ⟨rfl, (Option.some.inj h).symm⟩
  · rw [store_heap, update_of_ne ha] at h
    exact Or.inr ⟨ha, h⟩

theorem link_eq_some {n : Option Addr} : s.link a = some n ↔ ∃ x, s.heap a = some x ∧ x.next = n :=
  Option.map_eq_some_iff

theorem link_of_heap (h : s.heap a = some x) :
    s.link a = some x.next := link_eq_some.mpr ⟨x, h, rfl⟩

theorem dataLenOf_of_heap (h : s.heap a = some x) : s.dataLenOf a = x.dataLen.toNat := by
  rw [MbufMem.dataLenOf, h]
  rfl

theorem load_of_heap (h : s.heap a = some x) : s.load a = .ok x := by
  rw [MbufMem.load, h]

theorem counts_of_heap (h : s.heap a = some x) : s.counts a = some ⟨(), x.refcnt.toNat⟩ := by
  rw [MbufMem.counts, h]
  rfl

theorem counts_isSome : (s.counts a).isSome = (s.heap a).isSome := Option.isSome_map

theorem attachedTo_eq_some : s.attachedTo a = some b ↔ ∃ x, s.heap a = some x ∧ x.buf ≠ a ∧
    x.buf = b := by
  rw [MbufMem.attachedTo, Option.bind_eq_some_iff]
  refine exists_congr fun x => and_congr_right fun _ => ?_
  split
  · rename_i hbuf
    simp [hbuf]
  · rename_i hbuf
    simp [hbuf]

theorem attachedTo_of_direct (h : s.heap a = some x) (hbuf : x.buf = a) :
    s.attachedTo a = none := by
  rw [MbufMem.attachedTo, h, Option.bind_some, if_pos hbuf]

theorem attachedTo_of_indirect (h : s.heap a = some x) (hbuf : x.buf ≠ a) :
    s.attachedTo a = some x.buf :=
  attachedTo_eq_some.mpr ⟨x, h, hbuf, rfl⟩

namespace IsPacket

/-- A packet begins with its head. -/
theorem head_mem (h : IsPacket s m l) : m ∈ l := by
  obtain ⟨n, l', rfl, -⟩ := h.linked.eq_cons
  exact mem_cons_self

theorem nodup (h : IsPacket s m l) : l.Nodup := h.linked.nodup

theorem live (h : IsPacket s m l) (ha : a ∈ l) : ∃ x, s.heap a = some x := by
  obtain ⟨n, hn⟩ := h.linked.live ha
  obtain ⟨x, hx, -⟩ := link_eq_some.mp hn
  exact ⟨x, hx⟩

/-- A packet whose head has nothing behind it. -/
theorem eq_singleton (h : IsPacket s m l) (hx : s.heap m = some x) (hnext : x.next = none) :
    l = [m] := by
  obtain ⟨n, l', rfl, hn, hl⟩ := h.linked.eq_cons
  rw [link_of_heap hx, hnext] at hn
  cases hn
  rw [linked_none.mp hl]

/-- A packet depends on its own segments. -/
theorem mono (h : IsPacket s m l)
    (hsame : ∀ a ∈ l, ∀ x, s.heap a = some x → ∃ x', s'.heap a = some x' ∧ x'.next = x.next ∧
      x'.dataLen = x.dataLen ∧ (a = m → x'.pktLen = x.pktLen ∧ x'.nbSegs = x.nbSegs)) :
    IsPacket s' m l := by
  obtain ⟨x, hx⟩ := h.live h.head_mem
  obtain ⟨x', hx', -, -, hhead⟩ := hsame m h.head_mem x hx
  obtain ⟨hlen, hsegs⟩ := hhead rfl
  refine ⟨?_, ?_, ?_⟩
  · refine h.linked.mono fun a ha n hn => ?_
    obtain ⟨y, hy, rfl⟩ := link_eq_some.mp hn
    obtain ⟨y', hy', hnext, -⟩ := hsame a ha y hy
    rw [link_of_heap hy', hnext]
  · rintro y hy
    rw [hx'] at hy
    cases hy
    rw [hlen, h.pktLen x hx]
    refine congrArg List.sum (map_congr_left fun a ha => ?_)
    obtain ⟨y, hy⟩ := h.live ha
    obtain ⟨y', hy', -, hdata, -⟩ := hsame a ha y hy
    rw [dataLenOf_of_heap hy, dataLenOf_of_heap hy', hdata]
  · rintro y hy
    rw [hx'] at hy
    cases hy
    rw [hsegs, h.nbSegs x hx]

end IsPacket

/-! ## 2. The books of the pools -/

/-- **The books**: what was handed out, without repetition, and how many elements of each pool are
in use. -/
structure Books (s : MbufMem) : Prop where
  taken : ∀ a, (s.heap a).isSome = true → a ∈ s.taken
  nodup : s.taken.Nodup
  fresh : ∀ a ∈ s.taken, a.id < s.taken.length
  count : ∀ mp, s.count mp = s.taken.countP fun a => a.pool == mp && (s.heap a).isSome

namespace Books

/-- The same elements are in use. -/
theorem same (h : Books s) (htaken : s'.taken = s.taken) (hcount : s'.count = s.count)
    (hlive : ∀ a, (s'.heap a).isSome = (s.heap a).isSome) : Books s' where
  taken := fun a ha => by
    rw [htaken]
    exact h.taken a ((hlive a).symm.trans ha)
  nodup := htaken ▸ h.nodup
  fresh := htaken ▸ h.fresh
  count := fun mp => by
    simp only [htaken, hcount, hlive, h.count mp]

theorem store (h : Books s) (hm : (s.heap m).isSome = true) (x : RteMbuf) :
    Books (s.store m x) := by
  refine h.same rfl rfl fun a => ?_
  by_cases ha : a = m
  · subst ha
    rw [store_heap, update_self, hm]
    rfl
  · rw [store_heap, update_of_ne ha]

/-- **An element is put back**: one less is in use. -/
theorem put (h : Books s) (hm : (s.heap m).isSome = true) : Books (s.rteMempoolPut .odp m) where
  taken := fun a ha => by
    by_cases ham : a = m
    · subst ham
      rw [put_heap, update_self] at ha
      cases ha
    · refine h.taken a ?_
      rwa [put_heap, update_of_ne ham] at ha
  nodup := h.nodup
  fresh := h.fresh
  count := fun mp => by
    have herase := perm_cons_erase (h.taken m hm)
    have hrest : (s.taken.erase m).countP (fun a =>
        a.pool == mp && (update s.heap m none a).isSome) =
        (s.taken.erase m).countP (fun a => a.pool == mp && (s.heap a).isSome) := by
      refine countP_congr fun a ha => ?_
      rw [update_of_ne (h.nodup.mem_erase_iff.mp ha).1]
    have hold := h.count mp
    rw [herase.countP_eq, countP_cons, hm, Bool.and_true] at hold
    show update s.count m.pool (s.count m.pool - 1) mp = _
    show _ = s.taken.countP fun a => a.pool == mp && (update s.heap m none a).isSome
    rw [herase.countP_eq, countP_cons, hrest, update_self, Option.isSome_none, Bool.and_false,
      if_neg Bool.false_ne_true, Nat.add_zero]
    by_cases hmp : mp = m.pool
    · subst hmp
      rw [update_self, hold]
      simp
    · rw [update_of_ne hmp, hold]
      simp [Ne.symm hmp]

theorem fresh_not_mem (h : Books s) (mp : Nat) : s.fresh mp ∉ s.taken := fun hmem =>
  Nat.lt_irrefl _ (h.fresh _ hmem)

theorem fresh_dead (h : Books s) (mp : Nat) : s.heap (s.fresh mp) = none := by
  cases hheap : s.heap (s.fresh mp) with
  | none => rfl
  | some x => exact absurd (h.taken _ (by rw [hheap]; rfl)) (h.fresh_not_mem mp)

/-- **An element is handed out**: one more is in use. -/
theorem take (h : Books s) (mp : Nat) (x : RteMbuf) :
    Books ({ s.take mp with count := update s.count mp (s.count mp + 1) }.store (s.fresh mp) x)
        where
  taken := fun a ha => by
    by_cases hfresh : a = s.fresh mp
    · rw [hfresh]
      exact mem_cons_self
    · refine mem_cons_of_mem _ (h.taken a ?_)
      rwa [store_heap, update_of_ne hfresh] at ha
  nodup := nodup_cons.mpr ⟨h.fresh_not_mem mp, h.nodup⟩
  fresh := fun a ha => by
    rcases mem_cons.mp ha with rfl | ha
    · exact Nat.lt_succ_self _
    · exact Nat.lt_succ_of_lt (h.fresh a ha)
  count := fun mp' => by
    have hrest : s.taken.countP (fun a => a.pool == mp' &&
        (update s.heap (s.fresh mp) (some x) a).isSome) =
        s.taken.countP (fun a => a.pool == mp' && (s.heap a).isSome) := by
      refine countP_congr fun a ha => ?_
      have hne : a ≠ s.fresh mp := fun heq => h.fresh_not_mem mp (heq ▸ ha)
      rw [update_of_ne hne]
    show update s.count mp (s.count mp + 1) mp' = (s.fresh mp :: s.taken).countP fun a =>
      a.pool == mp' && (update s.heap (s.fresh mp) (some x) a).isSome
    rw [countP_cons, hrest, ← h.count mp', update_self, Option.isSome_some, Bool.and_true]
    by_cases hmp : mp' = mp
    · subst hmp
      rw [update_self]
      simp [MbufMem.fresh]
    · rw [update_of_ne hmp]
      simp [MbufMem.fresh, Ne.symm hmp]

end Books

/-! ## 3. The invariant -/

/-- **The invariant**, while the references `hand` are in the hands of a call. -/
structure MbufInv (s : MbufMem) (hand held : List Addr) (pk : Addr → List Addr) : Prop where
  counted : Counted s.counts (hand ++ (held.flatMap pk ++ s.attached))
  packet : ∀ m ∈ held, IsPacket s m (pk m)
  room : ∀ a x, s.heap a = some x → x.InRoom
  /-- An mbuf that others are attached to is not attached itself. -/
  direct : ∀ a b, s.attachedTo a = some b → s.attachedTo b = none
  /-- What `rte_mbuf_refcnt_update` returns is the count. -/
  narrow : ∀ a x, s.heap a = some x → x.refcnt.toNat < 2 ^ 16
  books : Books s

/-- Counts may be others, and elements may be gone. -/
def Recounted (s s' : MbufMem) : Prop :=
  ∀ a x', s'.heap a = some x' → ∃ x, s.heap a = some x ∧ x' = { x with refcnt := x'.refcnt }

theorem Recounted.trans {s1 : MbufMem} (h : Recounted s s1) (h1 : Recounted s1 s') :
    Recounted s s' := by
  intro a x' hx'
  obtain ⟨x1, hx1, heq1⟩ := h1 a x' hx'
  obtain ⟨x, hx, heq⟩ := h a x1 hx1
  refine ⟨x, hx, ?_⟩
  rw [heq] at heq1
  exact heq1

theorem Recounted.attachedTo (h : Recounted s s') (hx' : s'.heap a = some x') :
    s'.attachedTo a = s.attachedTo a := by
  obtain ⟨x, hx, heq⟩ := h a x' hx'
  rw [MbufMem.attachedTo, MbufMem.attachedTo, hx', hx, heq]
  rfl

theorem Recounted.attachedTo_of_some (h : Recounted s s') (ha : s'.attachedTo a = some b) :
    s.attachedTo a = some b := by
  obtain ⟨x', hx', -, -⟩ := attachedTo_eq_some.mp ha
  rw [← h.attachedTo hx', ha]

theorem attached_congr (htaken : s'.taken = s.taken) (h : ∀ a, s'.attachedTo a = s.attachedTo a) :
    s'.attached = s.attached := by
  rw [MbufMem.attached, MbufMem.attached, htaken, funext h]

/-- One mbuf is attached to another one than before. -/
theorem attached_perm (hbooks : Books s) (hm : m ∈ s.taken) (htaken : s'.taken = s.taken)
    (h : ∀ a, a ≠ m → s'.attachedTo a = s.attachedTo a) :
    ∃ rest, s.attached.Perm ((s.attachedTo m).toList ++ rest) ∧
      s'.attached.Perm ((s'.attachedTo m).toList ++ rest) := by
  have hcons : ∀ f : Addr → Option Addr, (s.taken.filterMap f).Perm
      ((f m).toList ++ (s.taken.erase m).filterMap f) := by
    intro f
    refine ((perm_cons_erase hm).filterMap f).trans ?_
    cases hf : f m with
    | none => rw [filterMap_cons_none hf]; rfl
    | some b => rw [filterMap_cons_some hf]; rfl
  refine ⟨(s.taken.erase m).filterMap s.attachedTo, hcons _, ?_⟩
  rw [MbufMem.attached, htaken]
  refine (hcons _).trans (Perm.of_eq (congrArg _ ?_))
  exact filterMap_congr fun a ha => h a (hbooks.nodup.mem_erase_iff.mp ha).1

namespace MbufInv

theorem holder (h : MbufInv s hand held pk) (ha : a ∈ hand ++ (held.flatMap pk ++ s.attached)) :
    ∃ x, s.heap a = some x := by
  have hlive := (h.counted.held a).mp ha
  rw [counts_isSome] at hlive
  exact Option.isSome_iff_exists.mp hlive

theorem count_eq (h : MbufInv s hand held pk) (hx : s.heap a = some x) :
    x.refcnt.toNat = (hand ++ (held.flatMap pk ++ s.attached)).count a :=
  h.counted.count a _ (counts_of_heap hx)

theorem pos (h : MbufInv s hand held pk) (hx : s.heap a = some x) : 0 < x.refcnt.toNat :=
  h.counted.pos (counts_of_heap hx)

theorem mem_taken (h : MbufInv s hand held pk) (hx : s.heap a = some x) : a ∈ s.taken :=
  h.books.taken a (by rw [hx]; rfl)

/-- References are handed on. -/
theorem perm (h : MbufInv s hand held pk)
    (hperm : (hand ++ held.flatMap pk).Perm (hand' ++ held'.flatMap pk))
    (hheld : ∀ m ∈ held', m ∈ held) :
    MbufInv s hand' held' pk :=
  { h with
    counted := by
      refine h.counted.perm ?_
      rw [← append_assoc, ← append_assoc]
      exact hperm.append_right _
    packet := fun m hm => h.packet m (hheld m hm) }

/-- The segments of a packet are taken in hand. -/
theorem takePacket (h : MbufInv s hand held pk) (hm : m ∈ held) :
    MbufInv s (pk m ++ hand) (held.erase m) pk := by
  refine h.perm ?_ fun b hb => mem_of_mem_erase hb
  refine (Perm.append_left hand ((perm_cons_erase hm).flatMap_right pk)).trans ?_
  rw [flatMap_cons, ← append_assoc]
  exact Perm.append_right _ perm_append_comm

/-- **What a change has to leave**: the mbufs of `W` are written, of the others only the counts; the
packets that are not made anew have none of `W`. -/
theorem change (h : MbufInv s hand held pk) {W : List Addr} {pk' : Addr → List Addr}
    (hsame : ∀ a x', a ∉ W → s'.heap a = some x' → ∃ x, s.heap a = some x ∧
      x' = { x with refcnt := x'.refcnt })
    (hbooks : Books s') (hroom : ∀ a ∈ W, ∀ x', s'.heap a = some x' → x'.InRoom)
    (hdirect : ∀ a b, s'.attachedTo a = some b → s'.attachedTo b = none)
    (hnarrow : ∀ a x', s'.heap a = some x' → x'.refcnt.toNat < 2 ^ 16)
    (hcounted : Counted s'.counts (hand' ++ (held'.flatMap pk' ++ s'.attached)))
    (hpacket : ∀ m ∈ held', IsPacket s' m (pk' m) ∨ m ∈ held ∧ pk' m = pk m ∧ ∀ a ∈ W, a ∉ pk m) :
    MbufInv s' hand' held' pk' where
  counted := hcounted
  packet := by
    intro m hm
    rcases hpacket m hm with hnew | ⟨hold, heq, hout⟩
    · exact hnew
    · rw [heq]
      refine (h.packet m hold).mono fun a ha x hx => ?_
      have hholder : a ∈ hand' ++ (held'.flatMap pk' ++ s'.attached) :=
        mem_append_right _ (mem_append_left _ (mem_flatMap.mpr ⟨m, hm, heq ▸ ha⟩))
      have hlive := (hcounted.held a).mp hholder
      rw [counts_isSome] at hlive
      obtain ⟨x', hx'⟩ := Option.isSome_iff_exists.mp hlive
      obtain ⟨y, hy, heq'⟩ := hsame a x' (fun hW => hout a hW ha) hx'
      rw [hx] at hy
      cases hy
      rw [heq'] at hx'
      exact ⟨_, hx', rfl, rfl, fun _ => ⟨rfl, rfl⟩⟩
  room := by
    intro a x' hx'
    by_cases ha : a ∈ W
    · exact hroom a ha x' hx'
    · obtain ⟨x, hx, heq⟩ := hsame a x' ha hx'
      rw [heq]
      exact h.room a x hx
  direct := hdirect
  narrow := hnarrow
  books := hbooks

/-- What only changes counts, and takes elements away that nobody owns. -/
theorem recount (h : MbufInv s hand held pk) (hsame : Recounted s s') (hbooks : Books s')
    (hnarrow : ∀ a x', s'.heap a = some x' → x'.refcnt.toNat < 2 ^ 16)
    (hcounted : Counted s'.counts (hand' ++ (held'.flatMap pk ++ s'.attached)))
    (hheld : ∀ m ∈ held', m ∈ held) :
    MbufInv s' hand' held' pk := by
  refine h.change (W := []) (fun a x' _ => hsame a x') hbooks (fun a ha =>
    absurd ha not_mem_nil) ?_ hnarrow hcounted
    fun m hm => Or.inr ⟨hheld m hm, rfl, fun a ha => absurd ha not_mem_nil⟩
  intro a b hab
  have hnone := h.direct a b (hsame.attachedTo_of_some hab)
  cases hb : s'.attachedTo b with
  | none => rfl
  | some c =>
    rw [hsame.attachedTo_of_some hb] at hnone
    cases hnone

end MbufInv

/-! ## 4. Counts -/

/-- The arithmetic of `rte_mbuf_refcnt_update`: a count that stays below 2^16 is the one that is
meant. -/
theorem refcnt_add {n : UInt32} {v : Int16} {k : Nat} (h : (n.toNat : Int) + v.toInt = k)
    (hk : k < 2 ^ 16) :
    (n + v.toInt32.toUInt32).toNat = k ∧ (n + v.toInt32.toUInt32).toUInt16.toNat = k := by
  have hsign : (v.toBitVec.signExtend 32).toInt = v.toInt :=
    BitVec.toInt_signExtend_of_le (by decide)
  have hcond := BitVec.toInt_eq_toNat_cond (v.toBitVec.signExtend 32)
  have hn := n.toNat_lt
  have hadd : (n + v.toInt32.toUInt32).toNat = (n.toNat + (v.toBitVec.signExtend 32).toNat) % 2 ^
      32 :=
    UInt32.toNat_add n v.toInt32.toUInt32
  have hsum : (n + v.toInt32.toUInt32).toNat = k := by
    rw [hadd]
    rw [hsign] at hcond
    split at hcond <;> omega
  refine ⟨hsum, ?_⟩
  rw [UInt32.toNat_toUInt16, hsum]
  omega

theorem update_counts (s : MbufMem) (m : Addr) (x : RteMbuf) :
    (s.store m x).counts = update s.counts m (some ⟨(), x.refcnt.toNat⟩) := by
  funext b
  by_cases hb : b = m
  · subst hb
    rw [update_self]
    exact counts_of_heap (update_self _ _ _)
  · rw [update_of_ne hb]
    simp [MbufMem.counts, update_of_ne hb]

theorem put_counts (s : MbufMem) (m : Addr) :
    (s.rteMempoolPut .odp m).counts = update s.counts m none := by
  funext b
  by_cases hb : b = m
  · subst hb
    rw [update_self, MbufMem.counts, put_heap, update_self]
    rfl
  · rw [update_of_ne hb]
    simp [MbufMem.counts, update_of_ne hb]

/-- What is put back does not depend on what was written to it. -/
theorem put_store_self (s : MbufMem) (m : Addr) (x : RteMbuf) :
    (s.store m x).rteMempoolPut .odp m = s.rteMempoolPut .odp m := by
  simp [MbufMem.rteMempoolPut, MbufMem.drop, MbufMem.store]

theorem put_store_comm (s : MbufMem) (hne : a ≠ m) (x : RteMbuf) :
    (s.store m x).rteMempoolPut .odp a = (s.rteMempoolPut .odp a).store m x := by
  simp only [MbufMem.rteMempoolPut, MbufMem.drop, MbufMem.store, update_comm hne]

theorem put_put_comm (s : MbufMem) (hne : a ≠ m) :
    (s.rteMempoolPut .odp m).rteMempoolPut .odp a =
        (s.rteMempoolPut .odp a).rteMempoolPut .odp m := by
  simp only [MbufMem.rteMempoolPut, MbufMem.drop, update_comm hne]
  by_cases hpool : a.pool = m.pool
  · rw [hpool, update_idem]
  · rw [update_of_ne hpool, update_of_ne (Ne.symm hpool), update_comm hpool]

/-- What is left of an mbuf that one more attached mbuf has gone from. -/
def afterRelease (s : MbufMem) (md : Addr) (d : RteMbuf) : MbufMem :=
  if d.refcnt = 1 then s.rteMempoolPut .odp md else s.store md { d with refcnt := d.refcnt - 1 }

theorem rteMbufRefcntUpdate_eq (hx : s.heap m = some x) (v : Int16) :
    s.rteMbufRefcntUpdate .odp m v =
    .ok ((x.refcnt + v.toInt32.toUInt32).toUInt16,
        s.store m { x with refcnt := x.refcnt + v.toInt32.toUInt32 }) := by
  unfold MbufMem.rteMbufRefcntUpdate
  rw [load_of_heap hx, ok_bind]

theorem freeSegInternal_eq (hx : s.heap m = some x) :
    s.freeSegInternal .odp m = .ok (s.rteMempoolPut .odp m) := by
  unfold MbufMem.freeSegInternal
  rw [load_of_heap hx, ok_bind]

/-- The count is one less. -/
theorem refcnt_dec {n : UInt32} (hpos : 0 < n.toNat) (hnarrow : n.toNat < 2 ^ 16) :
    n + (-1 : Int16).toInt32.toUInt32 = n - 1 ∧ ((n - 1).toUInt16 = 0 ↔ n = 1) := by
  have hminus : (-1 : Int16).toInt = -1 := by decide
  obtain ⟨hsum, hseen⟩ := refcnt_add (n := n) (v := -1) (k := n.toNat - 1) (by omega) (by omega)
  have hless : (n - 1).toNat = n.toNat - 1 :=
    UInt32.toNat_sub_of_le _ _ (UInt32.le_iff_toNat_le.mpr hpos)
  have hsub : n + (-1 : Int16).toInt32.toUInt32 = n - 1 := UInt32.toNat.inj (hsum.trans hless.symm)
  rw [hsub] at hseen
  refine ⟨hsub, fun hzero => ?_, fun hone => ?_⟩
  · rw [hzero, UInt16.toNat_zero] at hseen
    refine UInt32.toNat.inj ?_
    rw [UInt32.toNat_one]
    omega
  · refine UInt16.toNat.inj (hseen.trans ?_)
    rw [hone, UInt32.toNat_one, UInt16.toNat_zero]

variable {md : Addr} {d : RteMbuf}

theorem releaseDirect_eq (hd : s.heap md = some d) (hpos : 0 < d.refcnt.toNat)
    (hnarrow : d.refcnt.toNat < 2 ^ 16) : s.releaseDirect .odp md = .ok (afterRelease s md d) := by
  obtain ⟨hsub, hzero⟩ := refcnt_dec hpos hnarrow
  unfold MbufMem.releaseDirect afterRelease
  rw [rteMbufRefcntUpdate_eq hd, ok_bind, hsub]
  dsimp only
  by_cases hone : d.refcnt = 1
  · rw [if_pos (hzero.mpr hone), if_pos hone, freeSegInternal_eq (update_self _ _ _),
      put_store_self]
  · rw [if_neg (mt hzero.mp hone), if_neg hone]

theorem put_afterRelease (s : MbufMem) (hne : a ≠ md) (d : RteMbuf) :
    (afterRelease s md d).rteMempoolPut .odp a = afterRelease (s.rteMempoolPut .odp a) md d := by
  unfold afterRelease
  split
  · exact put_put_comm s hne
  · exact put_store_comm s hne _

theorem recounted_store (hx : s.heap m = some x) (n : UInt32) :
    Recounted s (s.store m { x with refcnt := n }) := by
  intro b y hy
  rcases store_heap_eq_some hy with ⟨rfl, rfl⟩ | ⟨-, hb⟩
  · exact ⟨x, hx, rfl⟩
  · exact ⟨y, hb, rfl⟩

theorem recounted_put (s : MbufMem) (m : Addr) : Recounted s (s.rteMempoolPut .odp m) := by
  intro b y hy
  by_cases hb : b = m
  · subst hb
    rw [put_heap, update_self] at hy
    cases hy
  · rw [put_heap, update_of_ne hb] at hy
    exact ⟨y, hy, rfl⟩

theorem recounted_afterRelease (hd : s.heap md = some d) :
    Recounted s (afterRelease s md d) := by
  unfold afterRelease
  split
  · exact recounted_put s md
  · exact recounted_store hd _

theorem afterRelease_heap (s : MbufMem) (hne : a ≠ md) (d : RteMbuf) :
    (afterRelease s md d).heap a = s.heap a := by
  unfold afterRelease
  split
  · rw [put_heap, update_of_ne hne]
  · rw [store_heap, update_of_ne hne]

/-- Who is attached does not depend on the counts. -/
theorem attached_store (hx : s.heap m = some x) (n : UInt32) :
    (s.store m { x with refcnt := n }).attached = s.attached := by
  refine attached_congr rfl fun b => ?_
  by_cases hb : b = m
  · subst hb
    exact (recounted_store hx n).attachedTo (update_self _ _ _)
  · simp [MbufMem.attachedTo, update_of_ne hb]

namespace MbufInv

variable {abi : Abi} {pools : Nat → MbufPool}

/-- A segment with more owners loses one. -/
theorem freeSeg_shared (h : MbufInv s (a :: hand) held pk) (hx : s.heap a = some x)
    (hmore : x.refcnt ≠ 1) :
    MbufInv (s.store a { x with refcnt := x.refcnt - 1 }) hand held pk := by
  have hpos := h.pos hx
  have hne : x.refcnt.toNat ≠ 1 := fun heq => hmore (UInt32.toNat.inj heq)
  have hsub : (x.refcnt - 1).toNat = x.refcnt.toNat - 1 :=
    UInt32.toNat_sub_of_le _ _ (UInt32.le_iff_toNat_le.mpr hpos)
  have hsame := recounted_store hx (x.refcnt - 1)
  obtain ⟨t, hrelease, hcounted, -⟩ := h.counted.release
  rw [Lib.release, counts_of_heap hx, Option.map_some, if_neg hne] at hrelease
  obtain rfl := Option.some.inj hrelease
  refine h.recount hsame (h.books.store (by rw [hx]; rfl) _) ?_ ?_ fun m hm => hm
  · intro b y hy
    rcases store_heap_eq_some hy with ⟨rfl, rfl⟩ | ⟨-, hb⟩
    · show (x.refcnt - 1).toNat < 2 ^ 16
      have := h.narrow b x hx
      omega
    · exact h.narrow b y hb
  · rw [attached_store hx, update_counts, hsub]
    exact hcounted

/-- **The last owner of a segment gives it back**: what it was attached to has one owner less. -/
theorem freeSeg_last (h : MbufInv s (a :: hand) held pk) (hx : s.heap a = some x)
    (hone : x.refcnt = 1) :
    MbufInv (s.rteMempoolPut .odp a) ((s.attachedTo a).toList ++ hand) held pk := by
  have hsame := recounted_put s a
  obtain ⟨t, hrelease, hcounted, -⟩ := h.counted.release
  rw [Lib.release, counts_of_heap hx, Option.map_some, if_pos (by rw [hone]; rfl)] at hrelease
  obtain rfl := Option.some.inj hrelease
  refine h.recount hsame (h.books.put (by rw [hx]; rfl)) ?_ ?_ fun m hm => hm
  · intro b y hy
    obtain ⟨z, hz, heq⟩ := hsame b y hy
    by_cases hb : b = a
    · subst hb
      rw [put_heap, update_self] at hy
      cases hy
    · rw [put_heap, update_of_ne hb] at hy
      exact h.narrow b y hy
  · obtain ⟨rest, hbefore, hafter⟩ := attached_perm h.books (h.mem_taken hx)
      (show (s.rteMempoolPut .odp a).taken = s.taken from rfl) fun b hb => by
        simp [MbufMem.attachedTo, update_of_ne hb]
    have hgone : (s.rteMempoolPut .odp a).attachedTo a = none := by
      rw [MbufMem.attachedTo, put_heap, update_self]
      rfl
    rw [hgone] at hafter
    rw [put_counts]
    refine hcounted.perm ?_
    calc hand ++ (held.flatMap pk ++ s.attached)
        |>.Perm (hand ++ (held.flatMap pk ++ ((s.attachedTo a).toList ++ rest))) :=
          Perm.append_left _ (Perm.append_left _ hbefore)
      _ |>.Perm ((s.attachedTo a).toList ++ hand ++ (held.flatMap pk ++ rest)) := by
          rw [← append_assoc, ← append_assoc, ← append_assoc]
          refine Perm.append_right rest ?_
          exact perm_append_comm.trans (Perm.of_eq (append_assoc _ _ _).symm)
      _ |>.Perm _ := Perm.append_left _ (Perm.append_left _ hafter.symm)

/-- The mbuf that it was attached to. -/
theorem afterRelease (h : MbufInv s (md :: hand) held pk) (hd : s.heap md = some d)
    (hdirect : s.attachedTo md = none) : MbufInv (Pal.afterRelease s md d) hand held pk := by
  unfold Pal.afterRelease
  split
  · rename_i hone
    have hlast := h.freeSeg_last hd hone
    rwa [hdirect] at hlast
  · rename_i hmore
    exact h.freeSeg_shared hd hmore

/-- **`rte_pktmbuf_free_seg`** gives back one reference, and that of an mbuf that it was attached
to. -/
theorem rtePktmbufFreeSeg (h : MbufInv s (a :: hand) held pk) (abi : Abi) (pools : Nat → MbufPool) :
    ∃ s', s.rtePktmbufFreeSeg .odp abi pools a = .ok s' ∧ Recounted s s' ∧
        MbufInv s' hand held pk := by
  obtain ⟨x, hx⟩ := h.holder (mem_append_left _ mem_cons_self)
  unfold MbufMem.rtePktmbufFreeSeg
  rw [load_of_heap hx, ok_bind]
  by_cases hone : x.refcnt = 1
  · have hlast := h.freeSeg_last hx hone
    rw [if_neg (not_not.mpr hone)]
    by_cases hbuf : x.buf = a
    · rw [attachedTo_of_direct hx hbuf] at hlast
      rw [if_pos hbuf, freeSegInternal_eq (update_self _ _ _), put_store_self]
      exact ⟨_, rfl, recounted_put s a, hlast⟩
    · have hto := attachedTo_of_indirect hx hbuf
      rw [hto] at hlast
      obtain ⟨d, hd⟩ := hlast.holder (mem_append_left _ mem_cons_self)
      have hne : a ≠ x.buf := Ne.symm hbuf
      have hdirect : (s.rteMempoolPut .odp a).attachedTo x.buf = none := by
        rw [(recounted_put s a).attachedTo hd]
        exact h.direct a x.buf hto
      have hd' : s.heap x.buf = some d := by
        rwa [put_heap, update_of_ne hbuf] at hd
      rw [if_neg hbuf]
      unfold MbufMem.rtePktmbufDetach
      rw [load_of_heap (update_self _ _ _), ok_bind, ok_bind]
      rw [releaseDirect_eq (d := d) (by rw [store_heap, update_of_ne hbuf, store_heap,
        update_of_ne hbuf, hd']) (hlast.pos hd) (hlast.narrow _ _ hd), ok_bind]
      rw [freeSegInternal_eq ((afterRelease_heap _ hne d).trans (update_self _ _ _)),
        put_afterRelease _ hne, put_store_self, put_store_self]
      exact ⟨_, rfl, (recounted_put s a).trans (recounted_afterRelease hd),
        hlast.afterRelease hd hdirect⟩
  · rw [if_pos hone]
    exact ⟨_, rfl, recounted_store hx _, h.freeSeg_shared hx hone⟩

/-- The loop over the segments of a packet: those to come are still in hand, so their links are what
they were. -/
theorem freeChain {l : List Addr} :
    ∀ {s : MbufMem} {fuel : Nat} {a : Addr}, MbufInv s (l ++ hand) held pk →
    Linked s.link (some a) l → l.length ≤ fuel →
      ∃ s', s.freeChain .odp abi pools fuel a = .ok s' ∧ MbufInv s' hand held pk := by
  induction l with
  | nil =>
    intro s fuel a _ hlink
    exact absurd hlink linked_some_nil
  | cons b l ih =>
    intro s fuel a h hlink hfuel
    obtain ⟨rfl, n, hn, hl⟩ := linked_cons.mp hlink
    obtain ⟨x, hx, rfl⟩ := link_eq_some.mp hn
    obtain ⟨fuel, rfl⟩ := Nat.exists_eq_add_one_of_ne_zero
      (Nat.ne_of_gt (Nat.lt_of_lt_of_le (Nat.succ_pos _) hfuel))
    obtain ⟨s1, hfree, hsame, h1⟩ := h.rtePktmbufFreeSeg abi pools
    unfold MbufMem.freeChain
    rw [load_of_heap hx, ok_bind, hfree, ok_bind]
    cases hnext : x.next with
    | none =>
      rw [hnext, linked_none] at hl
      subst hl
      exact ⟨s1, rfl, h1⟩
    | some next =>
      rw [hnext] at hl
      refine ih h1 (hl.mono fun c hc n' hn' => ?_) (Nat.le_of_succ_le_succ hfuel)
      obtain ⟨y', hy'⟩ := h1.holder (mem_append_left _ (mem_append_left _ hc))
      obtain ⟨y, hy, heq⟩ := hsame c y' hy'
      rw [link_of_heap hy] at hn'
      rw [link_of_heap hy', heq]
      exact hn'

/-- A packet has no more segments than elements were handed out. -/
theorem length_le (h : MbufInv s hand held pk) (hm : m ∈ held) : (pk m).length ≤ s.taken.length :=
  (h.packet m hm).linked.length_le fun a n hn => by
    obtain ⟨x, hx, -⟩ := link_eq_some.mp hn
    exact h.mem_taken hx

/-- **`rte_pktmbuf_free`**: the packet is given back. -/
theorem rtePktmbufFree (h : MbufInv s hand held pk) (abi : Abi) (pools : Nat → MbufPool)
    (hm : m ∈ held) :
    ∃ s', s.rtePktmbufFree .odp abi pools m = .ok s' ∧ MbufInv s' hand (held.erase m) pk :=
  (h.takePacket hm).freeChain (h.packet m hm).linked (Nat.le_succ_of_le (h.length_le hm))

/-- **`rte_mbuf_refcnt_update`**: the count is moved by as many as there are references more or
less. -/
theorem rteMbufRefcntUpdate (h : MbufInv s hand held pk) (hx : s.heap m = some x) {v : Int16}
    {k : Nat} (hk : (x.refcnt.toNat : Int) + v.toInt = k) (hpos : 0 < k) (hlt : k < 2 ^ 16)
    (hheld : ∀ b ∈ held', b ∈ held)
    (hother : ∀ b ≠ m, (hand' ++ held'.flatMap pk).count b = (hand ++ held.flatMap pk).count b)
    (hcount : (hand' ++ held'.flatMap pk).count m + s.attached.count m = k) :
    ∃ r, s.rteMbufRefcntUpdate .odp m v = .ok (r, s.store m { x with refcnt := .ofNat k }) ∧
      r.toNat = k ∧ MbufInv (s.store m { x with refcnt := .ofNat k }) hand' held' pk := by
  obtain ⟨hsum, hseen⟩ := refcnt_add hk hlt
  have hnew : x.refcnt + v.toInt32.toUInt32 = UInt32.ofNat k := by
    refine UInt32.toNat.inj ?_
    rw [hsum, UInt32.toNat_ofNat_of_lt' (Nat.lt_trans hlt (by decide))]
  have hcounted : Counted (s.store m { x with refcnt := .ofNat k }).counts
      (hand' ++ (held'.flatMap pk ++ (s.store m { x with refcnt := .ofNat k }).attached)) := by
    rw [attached_store hx, update_counts]
    show Counted (update s.counts m (some ⟨(), (UInt32.ofNat k).toNat⟩)) _
    rw [← hnew, hsum]
    refine h.counted.update hpos ?_ (fun b hb => ?_) ()
    · rw [← append_assoc, count_append, hcount]
    · have hrest := hother b hb
      simp only [count_append] at hrest ⊢
      omega
  refine ⟨_, ?_, hseen, h.recount (recounted_store hx _) (h.books.store (by rw [hx]; rfl) _) ?_
    hcounted hheld⟩
  · rw [rteMbufRefcntUpdate_eq hx v, hnew]
  · intro b y hy
    rcases store_heap_eq_some hy with ⟨rfl, rfl⟩ | ⟨-, hb⟩
    · show (UInt32.ofNat k).toNat < 2 ^ 16
      rwa [← hnew, hsum]
    · exact h.narrow b y hb

end MbufInv

end Trex.Pal
