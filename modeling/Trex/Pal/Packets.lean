/-
# The packets of a caller

The calls of `mbuf.h` that change packets, on the owners of `Pal.Owners`, and runs of calls.  A
caller holds packets; a call is admitted (`Admits`) when what it changes belongs to a packet of the
caller only, and when the packets that it puts together have the shape that the call is written for:

* `utl_rte_pktmbuf_add_after` counts a reference of one mbuf, so what it adds has one segment; both
  it and `utl_rte_pktmbuf_add_after2` overwrite the link of the first one, so that has one segment
  too;
* `utl_rte_pktmbuf_add_after2` adds `data_len` and not `pkt_len`, so the other segments of what it
  adds are empty;
* `utl_rte_pktmbuf_add_last` sets `nb_segs` to 3, so it is called for two segments and one more;
* `rte_pktmbuf_attach` takes over the area, not the length of the data, and forgets what the mbuf
  was attached to.

`mbufs_owned`: a run of such calls does not fail, and in each state that it reaches the packets are
right and the counts are the owners.  So nothing is given back twice, and when the caller holds
nothing, all elements are back.
-/
import Trex.Pal.Owners

namespace Trex.Pal

open Trex.Lib List
open Function (update update_eq_self update_eq_self_iff update_of_ne update_self)

/-! ## 1. What is admitted -/

namespace MbufMem

/-- The mbuf has one owner. -/
def Sole (s : MbufMem) (a : Addr) : Prop := ∃ x, s.heap a = some x ∧ x.refcnt = 1

/-- The last segment of a packet has one owner. -/
def SoleLast (s : MbufMem) (m : Addr) : Prop := ∀ a ∈ (s.chainOf m).getLast?, s.Sole a

/-- The count can be moved by `v`. -/
def CountFits (s : MbufMem) (m : Addr) (v : Int) :
    Prop := ∀ x, s.heap m = some x → (x.refcnt.toNat : Int) + v < 2 ^ 16

/-- `utl_rte_pktmbuf_add_after2` is admitted. -/
def AdmitsAfter2 (s : MbufMem) (held : List Addr) (m1 m2 : Addr) : Prop :=
  m1 ∈ held ∧ m2 ∈ held ∧ m1 ≠ m2 ∧ s.Sole m1 ∧ s.link m1 = some none ∧
    ∀ y, s.heap m2 = some y → y.pktLen = y.dataLen.toUInt32 ∧ y.nbSegs < 255

/-- The call is admitted, of a caller that holds the packets `held`. -/
def Admits (abi : Abi) (pools : Nat → MbufPool) (s : MbufMem) (held : List Addr) : MbufCall → Prop
  | .alloc mp => abi.sizeofMbuf ≤ (pools mp).eltSize
  | .free m => m ∈ held
  | .freeSeg m => m ∈ held ∧ s.link m = some none
  | .refcntUpdate m v => m ∈ held ∧ s.link m = some none ∧ 0 < (held.count m : Int) + v.toInt ∧
      s.CountFits m v.toInt
  | .append m _ => m ∈ held ∧ s.Sole m ∧ s.SoleLast m
  | .adj m _ => m ∈ held ∧ s.Sole m
  | .trim m _ => m ∈ held ∧ s.Sole m ∧ s.SoleLast m
  | .attach mi md => mi ∈ held ∧ mi ≠ md ∧ s.Sole mi ∧ s.link mi = some none ∧
      s.attachedTo mi = none ∧
      s.attachedTo md = none ∧ s.CountFits md 1 ∧ ∃ x d, s.heap mi = some x ∧ s.heap md = some d ∧
        d.dataOff.toNat + x.dataLen.toNat ≤ d.bufLen.toNat
  | .addAfter m1 m2 => m1 ∈ held ∧ m2 ∈ held ∧ m1 ≠ m2 ∧ s.Sole m1 ∧ s.link m1 = some none ∧
      s.link m2 = some none ∧
      s.CountFits m2 1
  | .addAfter2 m1 m2 => s.AdmitsAfter2 held m1 m2
  | .addLast m last => s.AdmitsAfter2 held m last ∨ m ∈ held ∧ last ∈ held ∧ m ≠ last ∧ s.Sole m ∧
      s.link last = some none ∧ ∃ second, s.chainOf m = [m, second] ∧ s.Sole second

end MbufMem

/-- The packets that the caller holds after a call. -/
def MbufCall.heldAfter (held : List Addr) : MbufCall → MbufRet → List Addr
  | .alloc _, .mbuf m => m :: held
  | .free m, _ => held.erase m
  | .freeSeg m, _ => held.erase m
  | .refcntUpdate m v, _ =>
      List.replicate ((held.count m : Int) + v.toInt).toNat m ++ held.filter (· ≠ m)
  | .addAfter2 _ m2, _ => held.erase m2
  | .addLast _ last, _ => held.erase last
  | _, _ => held

/-- All calls of a run are admitted. -/
def AdmitsAll (abi : Abi) (pools : Nat → MbufPool) : MbufMem → List Addr → List MbufCall → Prop
  | _, _, [] => True
  | s, held, c :: cs => s.Admits abi pools held c ∧
      ∀ r s', s.perform .odp abi pools c = .ok (r, s') →
        AdmitsAll abi pools s' (c.heldAfter held r) cs

/-- The packets that the caller holds after a run. -/
def heldOver : List Addr → List MbufCall → List MbufRet → List Addr
  | held, c :: cs, r :: rs => heldOver (c.heldAfter held r) cs rs
  | held, _, _ => held

variable {s s' : MbufMem} {a b m m2 last : Addr} {x x' y : RteMbuf}
    {l init hand held held' : List Addr}
  {pk : Addr → List Addr}

/-! ## 2. What is written -/

theorem store_link_self (s : MbufMem) (m : Addr) (x : RteMbuf) :
    (s.store m x).link m = some x.next :=
  link_of_heap (update_self _ _ _)

theorem store_link_of_ne (s : MbufMem) (h : a ≠ m) (x : RteMbuf) :
    (s.store m x).link a = s.link a := by
  rw [MbufMem.link, MbufMem.link, store_heap, update_of_ne h]

theorem isPacket_mk (hlinked : Linked s.link (some m) l) (hx : s.heap m = some x)
    (hlen : x.pktLen.toNat = (l.map s.dataLenOf).sum) (hsegs : x.nbSegs.toNat = l.length) :
    IsPacket s m l := by
  refine ⟨hlinked, fun y hy => ?_, fun y hy => ?_⟩
  · rw [hx] at hy
    cases hy
    exact hlen
  · rw [hx] at hy
    cases hy
    exact hsegs

theorem dataLenOf_le (s : MbufMem) (a : Addr) : s.dataLenOf a ≤ 65535 := by
  unfold MbufMem.dataLenOf
  cases s.heap a with
  | none => exact Nat.zero_le _
  | some x => exact Nat.le_of_lt_succ x.dataLen.toNat_lt

/-- A packet is far shorter than `pkt_len` can say. -/
theorem IsPacket.pktLen_le (h : IsPacket s m l) (hx : s.heap m = some x) :
    x.pktLen.toNat ≤ 255 * 65535 := by
  have hsegs := h.nbSegs x hx
  have hbound := x.nbSegs.toNat_lt
  have hsum : (l.map s.dataLenOf).sum ≤ l.length * 65535 := by
    clear h hsegs
    induction l with
    | nil => exact Nat.zero_le _
    | cons a l ih =>
      have ha := dataLenOf_le s a
      rw [map_cons, sum_cons, length_cons]
      omega
  rw [h.pktLen x hx]
  refine hsum.trans (Nat.mul_le_mul_right _ ?_)
  omega

namespace MbufInv

/-- **An mbuf with one owner** is in one packet. -/
theorem sole (h : MbufInv s [] held pk) (ha : s.Sole a) (hm : m ∈ held) (hmem : a ∈ pk m) :
    (∀ m' ∈ held.erase m, a ∉ pk m') ∧ a ∉ s.attached := by
  obtain ⟨x, hx, hone⟩ := ha
  have hcount := h.count_eq hx
  have hpos := count_pos_iff.mpr hmem
  have hperm := (perm_cons_erase hm).flatMap_right pk
  rw [nil_append, count_append, hperm.count_eq, flatMap_cons, count_append, hone,
    UInt32.toNat_one] at hcount
  refine ⟨fun m' hm' hmem' => ?_, fun hatt => ?_⟩
  · have := count_pos_iff.mpr (mem_flatMap.mpr ⟨m', hm', hmem'⟩)
    omega
  · have := count_pos_iff.mpr hatt
    omega

/-- A packet that is held has its segments. -/
theorem mem_self (h : MbufInv s hand held pk) (hm : m ∈ held) : m ∈ pk m := (h.packet m hm).head_mem

/-- **Mbufs of one packet are written**: what they are owned by and attached to stays, and the
packet is right. -/
theorem rewrite (h : MbufInv s hand held pk) {W : List Addr} (htaken : s'.taken = s.taken)
    (hcount : s'.count = s.count) (hout : ∀ a, a ∉ W → s'.heap a = s.heap a)
    (hin : ∀ a ∈ W, ∃ x x', s.heap a = some x ∧ s'.heap a = some x' ∧ x'.refcnt = x.refcnt ∧
      x'.buf = x.buf ∧ x'.InRoom)
    (hheld : ∀ m' ∈ held', m' ≠ m → m' ∈ held ∧ ∀ a ∈ W, a ∉ pk m')
    (hperm : (held.flatMap pk).Perm (held'.flatMap (update pk m l))) (hpacket : IsPacket s' m l) :
    MbufInv s' hand held' (update pk m l) := by
  have hheap : ∀ a, s'.heap a = s.heap a ∨ ∃ x x', s.heap a = some x ∧ s'.heap a = some x' ∧
      x'.refcnt = x.refcnt ∧ x'.buf = x.buf ∧ x'.InRoom := by
    intro a
    by_cases ha : a ∈ W
    · exact Or.inr (hin a ha)
    · exact Or.inl (hout a ha)
  have hlive : ∀ a, (s'.heap a).isSome = (s.heap a).isSome := by
    intro a
    rcases hheap a with heq | ⟨x, x', hx, hx', -⟩
    · rw [heq]
    · rw [hx, hx']
      rfl
  have hcounts : s'.counts = s.counts := by
    funext a
    rcases hheap a with heq | ⟨x, x', hx, hx', hrefcnt, -⟩
    · rw [MbufMem.counts, MbufMem.counts, heq]
    · rw [counts_of_heap hx, counts_of_heap hx', hrefcnt]
  have hto : ∀ a, s'.attachedTo a = s.attachedTo a := by
    intro a
    rcases hheap a with heq | ⟨x, x', hx, hx', -, hbuf, -⟩
    · rw [MbufMem.attachedTo, MbufMem.attachedTo, heq]
    · rw [MbufMem.attachedTo, MbufMem.attachedTo, hx, hx', Option.bind_some, Option.bind_some, hbuf]
  have hattached : s'.attached = s.attached := attached_congr htaken hto
  refine h.change (W := W) ?_ (h.books.same htaken hcount hlive) ?_ ?_ ?_ ?_ ?_
  · intro a x' ha hx'
    rw [hout a ha] at hx'
    exact ⟨x', hx', rfl⟩
  · intro a ha x' hx'
    obtain ⟨-, y, -, hy, -, -, hroom⟩ := hin a ha
    rw [hx'] at hy
    cases hy
    exact hroom
  · intro a b hab
    rw [hto] at hab ⊢
    exact h.direct a b hab
  · intro a x' hx'
    rcases hheap a with heq | ⟨x, y, hx, hy, hrefcnt, -⟩
    · rw [heq] at hx'
      exact h.narrow a x' hx'
    · rw [hx'] at hy
      cases hy
      rw [hrefcnt]
      exact h.narrow a x hx
  · rw [hcounts, hattached]
    exact h.counted.perm (Perm.append_left _ (hperm.append_right _))
  · intro m' hm'
    by_cases heq : m' = m
    · subst heq
      rw [update_self]
      exact Or.inl hpacket
    · rw [update_of_ne heq]
      obtain ⟨hold, hW⟩ := hheld m' hm' heq
      exact Or.inr ⟨hold, rfl, hW⟩

/-- The packet keeps its segments. -/
theorem rewriteSame (h : MbufInv s hand held pk) {W : List Addr} (htaken : s'.taken = s.taken)
    (hcount : s'.count = s.count) (hout : ∀ a, a ∉ W → s'.heap a = s.heap a)
    (hin : ∀ a ∈ W, ∃ x x', s.heap a = some x ∧ s'.heap a = some x' ∧ x'.refcnt = x.refcnt ∧
      x'.buf = x.buf ∧ x'.InRoom)
    (hsole : ∀ a ∈ W, ∀ m' ∈ held.erase m, a ∉ pk m') (hpacket : IsPacket s' m (pk m)) :
    MbufInv s' hand held pk := by
  have hnew : MbufInv s' hand held (update pk m (pk m)) := h.rewrite htaken hcount hout hin
    (fun m' hm' hne => ⟨hm', fun a ha => hsole a ha m' ((mem_erase_of_ne hne).mpr hm')⟩)
    (by rw [update_eq_self]) hpacket
  rwa [update_eq_self] at hnew

end MbufInv

/-! ## 3. The length of a packet -/

/-- `rte_pktmbuf_lastseg` finds the last segment. -/
theorem lastsegFrom_eq : ∀ {init : List Addr} {fuel : Nat} {m : Addr},
    Linked s.link (some m) (init ++ [last]) →
    init.length < fuel → s.lastsegFrom fuel m = .ok last := by
  intro init
  induction init with
  | nil =>
    intro fuel m hlink hfuel
    obtain ⟨rfl, n, hn, hl⟩ := linked_cons.mp hlink
    obtain ⟨x, hx, rfl⟩ := link_eq_some.mp hn
    obtain ⟨fuel, rfl⟩ := Nat.exists_eq_add_one_of_ne_zero (Nat.ne_of_gt hfuel)
    have hnext : x.next = none := by
      cases hnext : x.next with
      | none => rfl
      | some b =>
        rw [hnext] at hl
        exact absurd hl linked_some_nil
    unfold MbufMem.lastsegFrom
    rw [load_of_heap hx, ok_bind, hnext]
  | cons b init ih =>
    intro fuel m hlink hfuel
    obtain ⟨rfl, n, hn, hl⟩ := linked_cons.mp hlink
    obtain ⟨x, hx, rfl⟩ := link_eq_some.mp hn
    obtain ⟨fuel, rfl⟩ := Nat.exists_eq_add_one_of_ne_zero
      (Nat.ne_of_gt (Nat.lt_of_le_of_lt (Nat.zero_le _) hfuel))
    cases hnext : x.next with
    | none =>
      rw [hnext, linked_none] at hl
      exact absurd hl (by simp)
    | some b =>
      rw [hnext] at hl
      unfold MbufMem.lastsegFrom
      rw [load_of_heap hx, ok_bind, hnext]
      exact ih hl (Nat.lt_of_succ_lt_succ hfuel)

theorem rtePktmbufLastseg_eq (h : MbufInv s hand held pk) (hm : m ∈ held)
    (hl : pk m = init ++ [last]) :
    s.rtePktmbufLastseg m = .ok last := by
  have hlink := (h.packet m hm).linked
  have hlen := h.length_le hm
  rw [hl] at hlink hlen
  rw [length_append, length_singleton] at hlen
  exact lastsegFrom_eq hlink (by omega)

theorem tailroom_of_inRoom (h : x.InRoom) :
    (MbufMem.tailroom x).toNat + x.dataOff.toNat + x.dataLen.toNat = x.bufLen.toNat := by
  unfold RteMbuf.InRoom at h
  have hoff : (x.bufLen - x.dataOff).toNat = x.bufLen.toNat - x.dataOff.toNat :=
    UInt16.toNat_sub_of_le _ _ (UInt16.le_iff_toNat_le.mpr (by omega))
  have hlen : (x.bufLen - x.dataOff - x.dataLen).toNat = (x.bufLen - x.dataOff).toNat -
      x.dataLen.toNat :=
    UInt16.toNat_sub_of_le _ _ (UInt16.le_iff_toNat_le.mpr (by omega))
  rw [MbufMem.tailroom, hlen, hoff]
  omega

/-- **The length of the last segment is set**, and that of the packet moved by as much. -/
theorem MbufInv.setTail (h : MbufInv s [] held pk) (hm : m ∈ held) (hl : pk m = init ++ [last])
    (hsole : s.Sole m) (hsoleLast : s.Sole last) (hx : s.heap m = some x)
    (hy : s.heap last = some y) {d : UInt16} {p : UInt32}
    (hroom : y.dataOff.toNat + d.toNat ≤ y.bufLen.toNat)
    (hp : p.toNat + y.dataLen.toNat = x.pktLen.toNat + d.toNat) :
    ∃ x1, (s.store last { y with dataLen := d }).load m = .ok x1 ∧ x1.pktLen = x.pktLen ∧
      MbufInv ((s.store last { y with dataLen := d }).store m { x1 with pktLen := p }) [] held
          pk := by
  have hpacket := h.packet m hm
  have hnodup := hpacket.nodup
  have hhead := hpacket.head_mem
  have hlastmem : last ∈ pk m := by
    rw [hl]
    exact mem_append_right _ mem_cons_self
  -- the head, which may be the last segment
  obtain ⟨d1, hx1, hcases⟩ : ∃ d1, (s.store last { y with dataLen := d }).heap m =
      some { x with dataLen := d1 } ∧ (m = last ∧ d1 = d ∨ m ≠ last ∧ d1 = x.dataLen) := by
    by_cases hne : m = last
    · subst hne
      rw [hx] at hy
      cases hy
      exact ⟨d, update_self _ _ _, Or.inl ⟨rfl, rfl⟩⟩
    · refine ⟨x.dataLen, ?_, Or.inr ⟨hne, rfl⟩⟩
      rw [store_heap, update_of_ne hne, hx]
  refine ⟨{ x with dataLen := d1 }, load_of_heap hx1, rfl, ?_⟩
  have hheap : ∀ a, a ≠ m → a ≠ last →
      ((s.store last { y with dataLen := d }).store m { x with dataLen := d1, pktLen := p }).heap
          a = s.heap a := by
    intro a ham hal
    rw [store_heap, update_of_ne ham, store_heap, update_of_ne hal]
  have hheadHeap : ((s.store last { y with dataLen := d }).store m { x with dataLen := d1,
                                                                            pktLen := p }).heap m =
      some { x with dataLen := d1, pktLen := p } := update_self _ _ _
  have hlastHeap : last ≠ m →
      ((s.store last { y with dataLen := d }).store m { x with dataLen := d1, pktLen := p }).heap
      last = some { y with dataLen := d } := by
    intro hne
    rw [store_heap, update_of_ne hne, store_heap, update_self]
  have hroomOf := h.room m x hx
  refine h.rewriteSame (W := [m, last]) (m := m) rfl rfl (fun a ha => ?_) (fun a ha =>
    ?_) (fun a ha => ?_) ?_
  · simp only [mem_cons, not_mem_nil, or_false, not_or] at ha
    exact hheap a ha.1 ha.2
  · by_cases ham : a = m
    · subst ham
      refine ⟨x, _, hx, hheadHeap, rfl, rfl, ?_⟩
      rcases hcases with ⟨rfl, hd⟩ | ⟨-, hd⟩
      · rw [hx] at hy
        cases hy
        rw [hd]
        exact hroom
      · rw [hd]
        exact hroomOf
    · have hal : a = last := by
        simp only [mem_cons, not_mem_nil, or_false] at ha
        exact ha.resolve_left ham
      subst hal
      exact ⟨y, _, hy, hlastHeap ham, rfl, rfl, hroom⟩
  · simp only [mem_cons, not_mem_nil, or_false] at ha
    rcases ha with rfl | rfl
    · exact (h.sole hsole hm hhead).1
    · exact (h.sole hsoleLast hm hlastmem).1
  · have hnext : ∀ a ∈ pk m, ∀ n, s.link a = some n →
        ((s.store last { y with dataLen := d }).store m { x with dataLen := d1, pktLen := p }).link
            a = some n := by
      intro a _ n hn
      by_cases ham : a = m
      · subst ham
        rw [link_of_heap hheadHeap, ← hn, link_of_heap hx]
      · by_cases hal : a = last
        · subst hal
          rw [link_of_heap (hlastHeap ham), ← hn, link_of_heap hy]
        · rw [← hn, MbufMem.link, MbufMem.link, hheap a ham hal]
    refine isPacket_mk (hpacket.linked.mono hnext) hheadHeap ?_ ?_
    · -- the sum over the other segments is what it was
      have hold := hpacket.pktLen x hx
      rw [hl] at hnodup hold ⊢
      have hdisj : ∀ a ∈ init, a ≠ last := fun a ha heq =>
        (nodup_append.mp hnodup).2.2 a ha last mem_cons_self heq
      have hrest : init.map ((s.store last { y with dataLen := d }).store m { x with
          dataLen := d1, pktLen := p }).dataLenOf =
          init.map s.dataLenOf := by
        refine map_congr_left fun a ha => ?_
        by_cases ham : a = m
        · subst ham
          rw [dataLenOf_of_heap hheadHeap, dataLenOf_of_heap hx]
          rcases hcases with ⟨heq, -⟩ | ⟨-, hd⟩
          · exact absurd heq (hdisj a ha)
          · exact congrArg UInt16.toNat hd
        · rw [MbufMem.dataLenOf, MbufMem.dataLenOf, hheap a ham (hdisj a ha)]
      have hlast : ((s.store last { y with dataLen := d }).store m { x with
          dataLen := d1, pktLen := p }).dataLenOf last = d.toNat := by
        by_cases hne : last = m
        · subst hne
          rw [dataLenOf_of_heap hheadHeap]
          rcases hcases with ⟨-, hd⟩ | ⟨hne, -⟩
          · exact congrArg UInt16.toNat hd
          · exact absurd rfl hne
        · rw [dataLenOf_of_heap (hlastHeap hne)]
      simp only [map_append, map_cons, map_nil, sum_append, sum_cons, sum_nil, hrest, hlast,
        dataLenOf_of_heap hy] at hold ⊢
      omega
    · exact hpacket.nbSegs x hx

/-- The last segment of a packet. -/
theorem MbufInv.exists_last (h : MbufInv s hand held pk) (hm : m ∈ held) :
    ∃ init last y, pk m = init ++ [last] ∧ s.heap last = some y := by
  have hmem := h.mem_self hm
  obtain ⟨init, last, hl⟩ : ∃ init last, pk m = init ++ [last] :=
    ⟨_, _, (dropLast_append_getLast (ne_nil_of_mem hmem)).symm⟩
  obtain ⟨y, hy⟩ := (h.packet m hm).live (show last ∈
    pk m by rw [hl]; exact mem_append_right _ mem_cons_self)
  exact ⟨init, last, y, hl, hy⟩

namespace MbufInv

/-- **`rte_pktmbuf_append`** -/
theorem rtePktmbufAppend (h : MbufInv s [] held pk) (hm : m ∈ held) (hsole : s.Sole m)
    (hsoleLast : ∀ a ∈ (pk m).getLast?, s.Sole a) (len : UInt16) :
    ∃ r s', s.rtePktmbufAppend .odp m len = .ok (r, s') ∧ MbufInv s' [] held pk := by
  obtain ⟨init, last, y, hl, hy⟩ := h.exists_last hm
  have hlast : s.Sole last := hsoleLast last (by rw [hl, List.getLast?_concat]; rfl)
  obtain ⟨x, hx⟩ := (h.packet m hm).live (h.mem_self hm)
  have hroom := h.room last y hy
  have htail := tailroom_of_inRoom hroom
  have hbig := (h.packet m hm).pktLen_le hx
  have hlen := len.toNat_lt
  have hbuf := y.bufLen.toNat_lt
  unfold MbufMem.rtePktmbufAppend
  rw [rtePktmbufLastseg_eq h hm hl, ok_bind, load_of_heap hy, ok_bind]
  by_cases hfull : len > MbufMem.tailroom y
  · rw [if_pos hfull]
    exact ⟨_, _, rfl, h⟩
  · rw [if_neg hfull]
    have hfits : len.toNat ≤ (MbufMem.tailroom y).toNat :=
      UInt16.le_iff_toNat_le.mp (UInt16.not_lt.mp hfull)
    have hdata : (y.dataLen + len).toNat = y.dataLen.toNat + len.toNat := by
      rw [UInt16.toNat_add]
      omega
    have hpkt : (x.pktLen + len.toUInt32).toNat = x.pktLen.toNat + len.toNat := by
      rw [UInt32.toNat_add, UInt16.toNat_toUInt32]
      omega
    obtain ⟨x1, hload, hsame, hinv⟩ := h.setTail hm hl hsole hlast hx hy (d := y.dataLen + len)
      (p := x.pktLen + len.toUInt32) (by omega) (by omega)
    dsimp only
    rw [hload, ok_bind, hsame]
    exact ⟨_, _, rfl, hinv⟩

/-- **`rte_pktmbuf_trim`** -/
theorem rtePktmbufTrim (h : MbufInv s [] held pk) (hm : m ∈ held) (hsole : s.Sole m)
    (hsoleLast : ∀ a ∈ (pk m).getLast?, s.Sole a) (len : UInt16) :
    ∃ r s', s.rtePktmbufTrim m len = .ok (r, s') ∧ MbufInv s' [] held pk := by
  obtain ⟨init, last, y, hl, hy⟩ := h.exists_last hm
  have hlast : s.Sole last := hsoleLast last (by rw [hl, List.getLast?_concat]; rfl)
  have hpacket := h.packet m hm
  obtain ⟨x, hx⟩ := hpacket.live (h.mem_self hm)
  have hroom : y.dataOff.toNat + y.dataLen.toNat ≤ y.bufLen.toNat := h.room last y hy
  unfold MbufMem.rtePktmbufTrim
  rw [rtePktmbufLastseg_eq h hm hl, ok_bind, load_of_heap hy, ok_bind]
  by_cases hlong : len > y.dataLen
  · rw [if_pos hlong]
    exact ⟨_, _, rfl, h⟩
  · rw [if_neg hlong]
    have hle : len ≤ y.dataLen := UInt16.not_lt.mp hlong
    have hle' : len.toNat ≤ y.dataLen.toNat := UInt16.le_iff_toNat_le.mp hle
    -- the packet is at least as long as its last segment
    have hsum : y.dataLen.toNat ≤ x.pktLen.toNat := by
      rw [hpacket.pktLen x hx, hl, map_append, sum_append, map_singleton, sum_singleton,
        dataLenOf_of_heap hy]
      exact Nat.le_add_left _ _
    have hdata : (y.dataLen - len).toNat = y.dataLen.toNat - len.toNat :=
      UInt16.toNat_sub_of_le _ _ hle
    have hpkt : (x.pktLen - len.toUInt32).toNat = x.pktLen.toNat - len.toNat := by
      rw [UInt32.toNat_sub_of_le, UInt16.toNat_toUInt32]
      rw [UInt32.le_iff_toNat_le, UInt16.toNat_toUInt32]
      omega
    obtain ⟨x1, hload, hsame, hinv⟩ := h.setTail hm hl hsole hlast hx hy (d := y.dataLen - len)
      (p := x.pktLen - len.toUInt32) (by omega) (by omega)
    dsimp only
    rw [hload, ok_bind, hsame]
    exact ⟨_, _, rfl, hinv⟩

/-- **`rte_pktmbuf_adj`** -/
theorem rtePktmbufAdj (h : MbufInv s [] held pk) (hm : m ∈ held) (hsole : s.Sole m) (len : UInt16) :
    ∃ r s', s.rtePktmbufAdj m len = .ok (r, s') ∧ MbufInv s' [] held pk := by
  have hpacket := h.packet m hm
  obtain ⟨x, hx⟩ := hpacket.live (h.mem_self hm)
  have hroom : x.dataOff.toNat + x.dataLen.toNat ≤ x.bufLen.toNat := h.room m x hx
  have hbuf := x.bufLen.toNat_lt
  unfold MbufMem.rtePktmbufAdj
  rw [load_of_heap hx, ok_bind]
  by_cases hlong : len > x.dataLen
  · rw [if_pos hlong]
    exact ⟨_, _, rfl, h⟩
  · rw [if_neg hlong]
    have hle : len ≤ x.dataLen := UInt16.not_lt.mp hlong
    have hle' : len.toNat ≤ x.dataLen.toNat := UInt16.le_iff_toNat_le.mp hle
    have hdata : (x.dataLen - len).toNat = x.dataLen.toNat - len.toNat :=
      UInt16.toNat_sub_of_le _ _ hle
    have hoff : (x.dataOff + len).toNat = x.dataOff.toNat + len.toNat := by
      rw [UInt16.toNat_add]
      omega
    obtain ⟨-, l, hl, -, -⟩ := hpacket.linked.eq_cons
    have hsum := hpacket.pktLen x hx
    rw [hl, map_cons, sum_cons, dataLenOf_of_heap hx] at hsum
    have hpkt : (x.pktLen - len.toUInt32).toNat = x.pktLen.toNat - len.toNat := by
      rw [UInt32.toNat_sub_of_le, UInt16.toNat_toUInt32]
      rw [UInt32.le_iff_toNat_le, UInt16.toNat_toUInt32]
      omega
    refine ⟨_, _, rfl, h.rewriteSame (W := [m]) (m := m) rfl rfl (fun a ha => ?_) (fun a ha =>
      ?_) (fun a ha => ?_) ?_⟩
    · rw [store_heap, update_of_ne (mt mem_singleton.mpr ha)]
    · rw [mem_singleton.mp ha]
      refine ⟨x, _, hx, update_self _ _ _, rfl, rfl, ?_⟩
      show (x.dataOff + len).toNat + (x.dataLen - len).toNat ≤ x.bufLen.toNat
      omega
    · rw [mem_singleton.mp ha]
      exact (h.sole hsole hm (h.mem_self hm)).1
    · refine isPacket_mk (hpacket.linked.mono fun a _ n hn =>
        ?_) (update_self _ _ _) ?_ (hpacket.nbSegs x hx)
      · by_cases ham : a = m
        · subst ham
          rw [link_of_heap hx] at hn
          rw [store_link_self]
          exact hn
        · rw [store_link_of_ne s ham, hn]
      · have hnodup := hpacket.nodup
        rw [hl] at hnodup ⊢
        rw [map_cons, sum_cons, dataLenOf_of_heap (update_self _ _ _)]
        have hrest : l.map (s.store m { x with
            dataLen := x.dataLen - len, dataOff := x.dataOff + len, pktLen :=
              x.pktLen - len.toUInt32 }).dataLenOf =
            l.map s.dataLenOf := by
          refine map_congr_left fun a ha => ?_
          have ham : a ≠ m := fun heq => (nodup_cons.mp hnodup).1 (heq ▸ ha)
          rw [MbufMem.dataLenOf, MbufMem.dataLenOf, store_heap, update_of_ne ham]
        rw [hrest]
        show (x.pktLen - len.toUInt32).toNat = (x.dataLen - len).toNat + _
        omega

end MbufInv

/-! ## 4. Packets that are put together -/

/-- The segments of a packet that another one is put behind. -/
theorem flatMap_join (hm : m ∈ held) (hm2 : m2 ∈ held) (hne : m2 ≠ m) (honce : m ∉ held.erase m) :
    (held.flatMap pk).Perm ((held.erase m2).flatMap (update pk m (pk m ++ pk m2))) := by
  have hm' : m ∈ held.erase m2 := (mem_erase_of_ne hne.symm).mpr hm
  have hsame : ((held.erase m2).erase m).flatMap (update pk m (pk m ++ pk m2)) =
      ((held.erase m2).erase m).flatMap pk := by
    refine flatMap_congr fun a ha => update_of_ne (fun heq => ?_) _ _
    rw [heq, erase_comm] at ha
    exact honce (mem_of_mem_erase ha)
  have hold : (held.flatMap pk).Perm (pk m2 ++ (pk m ++ ((held.erase m2).erase m).flatMap pk)) := by
    refine ((perm_cons_erase hm2).flatMap_right pk).trans ?_
    rw [flatMap_cons]
    refine Perm.append_left _ (((perm_cons_erase hm').flatMap_right pk).trans ?_)
    rw [flatMap_cons]
  have hnew : ((held.erase m2).flatMap (update pk m (pk m ++ pk m2))).Perm
      (pk m ++ pk m2 ++ ((held.erase m2).erase m).flatMap pk) := by
    refine ((perm_cons_erase hm').flatMap_right _).trans ?_
    rw [flatMap_cons, update_self, hsame]
  refine hold.trans (List.Perm.trans ?_ hnew.symm)
  rw [← append_assoc]
  exact Perm.append_right _ perm_append_comm

namespace MbufInv

/-- **A packet is put behind another one**: its segments change hands. -/
theorem join (h : MbufInv s [] held pk) (hm : m ∈ held) (hm2 : m2 ∈ held) (hne : m2 ≠ m)
    {W : List Addr} (hmW : m ∈ W) (htaken : s'.taken = s.taken) (hcount : s'.count = s.count)
    (hout : ∀ a, a ∉ W → s'.heap a = s.heap a)
    (hin : ∀ a ∈ W, a ∈ pk m ∧ s.Sole a ∧ ∃ x x', s.heap a = some x ∧ s'.heap a = some x' ∧
      x'.refcnt = x.refcnt ∧
      x'.buf = x.buf ∧ x'.dataOff = x.dataOff ∧ x'.dataLen = x.dataLen ∧ x'.bufLen = x.bufLen)
    (hlinked : Linked s'.link (some m) (pk m ++ pk m2)) (hx' : s'.heap m = some x')
    (hlen : x'.pktLen.toNat = ((pk m ++ pk m2).map s.dataLenOf).sum)
    (hsegs : x'.nbSegs.toNat = (pk m ++ pk m2).length) :
    MbufInv s' [] (held.erase m2) (update pk m (pk m ++ pk m2)) := by
  have hsole : ∀ a ∈ W, ∀ m' ∈ held.erase m, a ∉ pk m' := fun a ha =>
    (h.sole (hin a ha).2.1 hm (hin a ha).1).1
  have honce : m ∉ held.erase m := fun hmem => hsole m hmW m hmem (h.mem_self hm)
  have hdata : s'.dataLenOf = s.dataLenOf := by
    funext a
    by_cases ha : a ∈ W
    · obtain ⟨-, -, x, x', hx, hx', -, -, -, hd, -⟩ := hin a ha
      rw [dataLenOf_of_heap hx, dataLenOf_of_heap hx', hd]
    · rw [MbufMem.dataLenOf, MbufMem.dataLenOf, hout a ha]
  refine h.rewrite htaken hcount hout (fun a ha => ?_) (fun m' hm' hne' =>
    ?_) (flatMap_join hm hm2 hne honce) (isPacket_mk hlinked hx' (by rw [hdata, hlen]) hsegs)
  · obtain ⟨-, -, x, x', hx, hx', hrefcnt, hbuf, hoff, hd, hbl⟩ := hin a ha
    refine ⟨x, x', hx, hx', hrefcnt, hbuf, ?_⟩
    rw [RteMbuf.InRoom, hoff, hd, hbl]
    exact h.room a x hx
  · have hold := mem_of_mem_erase hm'
    exact ⟨hold, fun a ha => hsole a ha m' ((mem_erase_of_ne hne').mpr hold)⟩

/-- A packet of one segment. -/
theorem eq_singleton (h : MbufInv s hand held pk) (hm : m ∈ held) (hlink : s.link m = some none) :
    pk m = [m] ∧ ∃ x, s.heap m = some x ∧ x.next = none := by
  obtain ⟨x, hx, hnext⟩ := link_eq_some.mp hlink
  exact ⟨(h.packet m hm).eq_singleton hx hnext, x, hx, hnext⟩

/-- What the head of one segment says. -/
theorem single_shape (h : MbufInv s hand held pk) (hm : m ∈ held) (hl : pk m = [m])
    (hx : s.heap m = some x) :
    x.pktLen = x.dataLen.toUInt32 ∧ x.nbSegs < 255 := by
  have hlen := (h.packet m hm).pktLen x hx
  have hsegs := (h.packet m hm).nbSegs x hx
  rw [hl, map_singleton, sum_singleton, dataLenOf_of_heap hx] at hlen
  rw [hl, length_singleton] at hsegs
  refine ⟨UInt32.toNat.inj (hlen.trans (UInt16.toNat_toUInt32 _).symm),
    UInt8.lt_iff_toNat_lt.mpr ?_⟩
  rw [hsegs]
  decide

/-- The links of a packet whose last segment is linked to another packet. -/
theorem linked_join (h : MbufInv s hand held pk) (hm : m ∈ held) (hm2 : m2 ∈ held)
    (hl : pk m = init ++ [last]) (hsole : last ∉ pk m2) (hlast : s'.link last = some (some m2))
    (hout : ∀ a, a ≠ last → s'.link a = s.link a) :
    Linked s'.link (some m) (pk m ++ pk m2) := by
  have hlink := (h.packet m hm).linked
  have hnodup := (h.packet m hm).nodup
  have h2 : Linked s'.link (some m2) (pk m2) := (h.packet m2 hm2).linked.mono fun a ha n hn => by
    rw [hout a (fun heq => hsole (heq ▸ ha)), hn]
  rw [hl] at hlink hnodup ⊢
  rw [append_assoc]
  refine hlink.join (fun a ha n hn => ?_) hlast h2
  rw [hout a (fun heq => (nodup_append.mp hnodup).2.2 a ha last mem_cons_self heq), hn]

/-- **`utl_rte_pktmbuf_add_after2`** -/
theorem utlRtePktmbufAddAfter2 (h : MbufInv s [] held pk) (hadm : s.AdmitsAfter2 held m m2) :
    ∃ s', s.utlRtePktmbufAddAfter2 m m2 = .ok s' ∧
      MbufInv s' [] (held.erase m2) (update pk m (pk m ++ pk m2)) := by
  obtain ⟨hm, hm2, hne, hsole, hlink, hshape⟩ := hadm
  obtain ⟨hl, x, hx, hnext⟩ := h.eq_singleton hm hlink
  obtain ⟨y, hy⟩ := (h.packet m2 hm2).live (h.mem_self hm2)
  obtain ⟨hlenEq, hsegs⟩ := hshape y hy
  have hmem := h.mem_self hm
  have hout := (h.sole hsole hm hmem).1 m2 ((mem_erase_of_ne hne.symm).mpr hm2)
  have hlen1 := (h.packet m hm).pktLen x hx
  have hlen2 := (h.packet m2 hm2).pktLen y hy
  have hsegs2 := (h.packet m2 hm2).nbSegs y hy
  have hbig := (h.packet m hm).pktLen_le hx
  have hsegs' : y.nbSegs.toNat < 255 := UInt8.lt_iff_toNat_lt.mp hsegs
  have hdata := y.dataLen.toNat_lt
  rw [hlenEq, UInt16.toNat_toUInt32] at hlen2
  unfold MbufMem.utlRtePktmbufAddAfter2
  rw [load_of_heap hx, ok_bind, load_of_heap hy, ok_bind]
  refine ⟨_, rfl, h.join (W := [m]) hm hm2 hne.symm mem_cons_self rfl rfl (fun a ha =>
    ?_) (fun a ha => ?_) ?_ (update_self _ _ _) ?_ ?_⟩
  · rw [store_heap, update_of_ne (mt mem_singleton.mpr ha)]
  · rw [mem_singleton.mp ha]
    exact ⟨hmem, hsole, x, _, hx, update_self _ _ _, rfl, rfl, rfl, rfl, rfl⟩
  · exact h.linked_join hm hm2 (hl.trans (nil_append _).symm) hout (store_link_self s m _)
      fun a ha => store_link_of_ne s ha _
  · rw [map_append, sum_append, ← hlen1, ← hlen2]
    show (x.pktLen + y.dataLen.toUInt32).toNat = _
    rw [UInt32.toNat_add, UInt16.toNat_toUInt32]
    omega
  · rw [length_append, hl, ← hsegs2]
    show (y.nbSegs + 1).toNat = _
    rw [UInt8.toNat_add, UInt8.toNat_one, length_singleton]
    omega

/-- **`utl_rte_pktmbuf_add_after`**: the caller keeps the second packet. -/
theorem utlRtePktmbufAddAfter (h : MbufInv s [] held pk) (hm : m ∈ held) (hm2 : m2 ∈ held)
    (hne : m ≠ m2) (hsole : s.Sole m) (hlink : s.link m = some none)
    (hlink2 : s.link m2 = some none) (hfits : s.CountFits m2 1) :
    ∃ s', s.utlRtePktmbufAddAfter .odp m m2 = .ok s' ∧
        MbufInv s' [] held (update pk m (pk m ++ pk m2)) := by
  obtain ⟨hl2, y, hy, hnext⟩ := h.eq_singleton hm2 hlink2
  have hcount := h.count_eq hy
  have hlt := hfits y hy
  have hpos := h.pos hy
  have hone : (1 : Int16).toInt = 1 := by decide
  -- the reference that the first packet is to have is the caller's for now
  obtain ⟨r, hup, -, h1⟩ :=
    h.rteMbufRefcntUpdate (s := s) (v := 1) (k := y.refcnt.toNat + 1) hy (by rw [hone]; omega)
    (Nat.succ_pos _) (by omega) (fun b (hb : b ∈ m2 :: held) => by
      rcases mem_cons.mp hb with rfl | hb
      · exact hm2
      · exact hb)
    (fun b hb => by
      rw [nil_append, nil_append, flatMap_cons, hl2, singleton_append,
        count_cons_of_ne hb.symm])
    (by
      rw [nil_append, count_append] at hcount
      rw [nil_append, flatMap_cons, hl2, singleton_append, count_cons_self]
      omega)
  obtain ⟨x, hx, hone'⟩ := hsole
  have hadm : (s.store m2 { y with refcnt := .ofNat (y.refcnt.toNat + 1) }).AdmitsAfter2
      (m2 :: held) m m2 := by
    refine ⟨mem_cons_of_mem _ hm, mem_cons_self, hne, ⟨x, ?_, hone'⟩, ?_, fun z hz => ?_⟩
    · rw [store_heap, update_of_ne hne, hx]
    · rw [store_link_of_ne s hne, hlink]
    · rw [store_heap, update_self] at hz
      cases hz
      exact h1.single_shape mem_cons_self hl2 (update_self _ _ _)
  obtain ⟨s', hadd, hinv⟩ := h1.utlRtePktmbufAddAfter2 hadm
  rw [erase_cons_head] at hinv
  refine ⟨s', ?_, hinv⟩
  unfold MbufMem.utlRtePktmbufAddAfter
  rw [hup, ok_bind]
  exact hadd

/-- **`utl_rte_pktmbuf_add_last`**, of two segments and one more. -/
theorem utlRtePktmbufAddLast (h : MbufInv s [] held pk) (hm : m ∈ held) (hm2 : m2 ∈ held)
    (hne : m ≠ m2) (hsole : s.Sole m) (hlink2 : s.link m2 = some none) {second : Addr}
    (hl : pk m = [m, second]) (hsoleSecond : s.Sole second) :
    ∃ s', s.utlRtePktmbufAddLast m m2 = .ok s' ∧
      MbufInv s' [] (held.erase m2) (update pk m (pk m ++ pk m2)) := by
  obtain ⟨hl2, z, hz, hnext2⟩ := h.eq_singleton hm2 hlink2
  obtain ⟨x, hx⟩ := (h.packet m hm).live (h.mem_self hm)
  have hsecond : second ∈ pk m := by
    rw [hl]
    exact mem_cons_of_mem _ mem_cons_self
  obtain ⟨y, hy⟩ := (h.packet m hm).live hsecond
  have hlinked := (h.packet m hm).linked
  have hnodup := (h.packet m hm).nodup
  have hsegs := (h.packet m hm).nbSegs x hx
  have hlen := (h.packet m hm).pktLen x hx
  have hbig := (h.packet m hm).pktLen_le hx
  have hdata := z.dataLen.toNat_lt
  have hlen2 := (h.packet m2 hm2).pktLen z hz
  have hm2' : m2 ∈ held.erase m := (mem_erase_of_ne hne.symm).mpr hm2
  have hout : second ∉ pk m2 := (h.sole hsoleSecond hm hsecond).1 m2 hm2'
  rw [hl] at hlinked hnodup
  have hnsm : second ≠ m := fun heq => (nodup_cons.mp hnodup).1 (heq ▸ mem_cons_self)
  have hm2s : m2 ≠ second := fun heq => hout (heq ▸ h.mem_self hm2)
  have hnext : x.next = some second := by
    obtain ⟨-, n, hn, hrest⟩ := linked_cons.mp hlinked
    rw [link_of_heap hx] at hn
    cases n with
    | none => exact absurd (linked_none.mp hrest) (cons_ne_nil _ _)
    | some b =>
      obtain ⟨rfl, -⟩ := linked_cons.mp hrest
      exact Option.some.inj hn
  have hzload : (s.store second { y with next := some m2 }).load m2 = .ok z := load_of_heap (by
    rw [store_heap, update_of_ne hm2s, hz])
  have hxload : (s.store second { y with next := some m2 }).load m = .ok x := load_of_heap (by
    rw [store_heap, update_of_ne hnsm.symm, hx])
  unfold MbufMem.utlRtePktmbufAddLast
  rw [load_of_heap hx, ok_bind, hnext]
  dsimp only
  rw [load_of_heap hy, ok_bind, hzload, ok_bind, hxload, ok_bind]
  refine ⟨_, rfl, h.join (W := [m, second]) hm hm2 hne.symm mem_cons_self rfl rfl (fun a ha =>
    ?_) (fun a ha => ?_) ?_ (update_self _ _ _) ?_ ?_⟩
  · simp only [mem_cons, not_mem_nil, or_false, not_or] at ha
    rw [store_heap, update_of_ne ha.1, store_heap, update_of_ne ha.2]
  · simp only [mem_cons, not_mem_nil, or_false] at ha
    rcases ha with heq | heq
    · rw [heq]
      exact ⟨h.mem_self hm, hsole, x, _, hx, update_self _ _ _, rfl, rfl, rfl, rfl, rfl⟩
    · rw [heq]
      refine ⟨hsecond, hsoleSecond, y, { y with next := some m2 }, hy, ?_, rfl, rfl, rfl, rfl, rfl⟩
      rw [store_heap, update_of_ne hnsm, store_heap, update_self]
  · refine h.linked_join hm hm2 (show pk m = [m] ++ [second] from hl) hout ?_ fun a ha => ?_
    · rw [store_link_of_ne _ hnsm, store_link_self]
    · by_cases ham : a = m
      · subst ham
        rw [store_link_self, link_of_heap hx]
      · rw [store_link_of_ne _ ham, store_link_of_ne _ ha]
  · rw [map_append, sum_append, ← hlen, ← hlen2, (h.single_shape hm2 hl2 hz).1,
      UInt16.toNat_toUInt32]
    show (x.pktLen + z.dataLen.toUInt32).toNat = _
    rw [UInt32.toNat_add, UInt16.toNat_toUInt32]
    omega
  · rw [hl, hl2]
    rfl

end MbufInv

/-! ## 5. Mbufs that are made, attached and counted -/

namespace MbufInv

/-- **`rte_pktmbuf_attach`**: the mbuf that it is attached to has one owner more. -/
theorem rtePktmbufAttach (h : MbufInv s [] held pk) {mi md : Addr} (hmi : mi ∈ held) (hne : mi ≠ md)
    (hsole : s.Sole mi) (hlink : s.link mi = some none) (hfree : s.attachedTo mi = none)
    (hdirect : s.attachedTo md = none) (hfits : s.CountFits md 1) {d : RteMbuf}
    (hx : s.heap mi = some x) (hd : s.heap md = some d)
    (hroom : d.dataOff.toNat + x.dataLen.toNat ≤ d.bufLen.toNat) :
    ∃ s', s.rtePktmbufAttach .odp mi md = .ok s' ∧ MbufInv s' [] held pk := by
  obtain ⟨hl, -⟩ := h.eq_singleton hmi hlink
  have hcount := h.count_eq hd
  have hlt := hfits d hd
  have hone : (1 : Int16).toInt = 1 := by decide
  have hbuf : d.buf = md := by
    by_contra hbuf
    rw [attachedTo_of_indirect hd hbuf] at hdirect
    cases hdirect
  obtain ⟨hsoleOut, hunattached⟩ := h.sole hsole hmi (h.mem_self hmi)
  -- the reference of the mbuf that is going to be attached is in hand
  obtain ⟨r, hup, -, h1⟩ :=
    h.rteMbufRefcntUpdate (v := 1) (k := d.refcnt.toNat + 1) hd (by rw [hone]; omega)
    (Nat.succ_pos _) (by omega) (fun b (hb : b ∈ held) => hb)
    (fun b hb => by
        rw [count_append, count_append, count_singleton, beq_eq_false_iff_ne.mpr hb.symm]
        rfl)
    (show ([md] ++ held.flatMap pk).count md + s.attached.count md = _ by
      rw [nil_append, count_append] at hcount
      rw [singleton_append, count_cons_self]
      omega)
  have hx1 : (s.store md { d with refcnt := .ofNat (d.refcnt.toNat + 1) }).heap mi = some x := by
    rw [store_heap, update_of_ne hne, hx]
  have hto1 : ∀ a, (s.store md { d with refcnt := .ofNat (d.refcnt.toNat + 1) }).attachedTo a =
      s.attachedTo a := by
    intro a
    by_cases ha : a = md
    · subst ha
      exact (recounted_store hd _).attachedTo (update_self _ _ _)
    · simp [MbufMem.attachedTo, update_of_ne ha]
  generalize hs1 : s.store md { d with refcnt := .ofNat (d.refcnt.toNat + 1) } = s1
    at hup h1 hx1 hto1
  have hd1 : s1.heap md = some { d with refcnt := .ofNat (d.refcnt.toNat + 1) } := by
    rw [← hs1]
    exact update_self _ _ _
  have hatt1 : s1.attached = s.attached := by
    rw [← hs1]
    exact attached_store hd _
  unfold MbufMem.rtePktmbufAttach
  rw [hup, ok_bind]
  dsimp only
  rw [load_of_heap hd1, ok_bind, load_of_heap hx1, ok_bind]
  refine ⟨_, rfl, ?_⟩
  rw [hbuf]
  generalize hx' : ({ x with
    buf := md, bufLen := d.bufLen, dataOff := d.dataOff, next := none, pktLen :=
      x.dataLen.toUInt32, nbSegs := 1 } :
    RteMbuf) = x'
  have hnew : (s1.store mi x').attachedTo mi = some md := by
    refine attachedTo_eq_some.mpr ⟨x', update_self _ _ _, ?_, ?_⟩
    · rw [← hx']
      exact hne.symm
    · rw [← hx']
  have hrest : ∀ a, a ≠ mi → (s1.store mi x').attachedTo a = s1.attachedTo a := fun a ha => by
    simp [MbufMem.attachedTo, update_of_ne ha]
  have hcounts : (s1.store mi x').counts = s1.counts := by
    rw [update_counts, ← hx']
    exact update_eq_self_iff.mpr (counts_of_heap hx1).symm
  refine h1.change (W := [mi]) ?_ (h1.books.store (by rw [hx1]; rfl) _) ?_ ?_ ?_ ?_ fun m hm => ?_
  · intro a y ha hy
    rw [store_heap, update_of_ne (mt mem_singleton.mpr ha)] at hy
    exact ⟨y, hy, rfl⟩
  · intro a ha y hy
    rw [mem_singleton.mp ha, store_heap, update_self] at hy
    cases hy
    rw [← hx']
    exact hroom
  · intro a b hab
    by_cases ha : a = mi
    · subst ha
      rw [hnew] at hab
      cases hab
      rw [hrest md hne.symm, hto1, hdirect]
    · rw [hrest a ha, hto1] at hab
      have hb : b ≠ mi := by
        rintro rfl
        obtain ⟨y, hy, -⟩ := attachedTo_eq_some.mp hab
        exact hunattached (mem_filterMap.mpr ⟨a, h.mem_taken hy, hab⟩)
      rw [hrest b hb, hto1]
      exact h.direct a b hab
  · intro a y hy
    rcases store_heap_eq_some hy with ⟨rfl, rfl⟩ | ⟨-, hy⟩
    · rw [← hx']
      exact h.narrow a x hx
    · exact h1.narrow a y hy
  · obtain ⟨rest, hbefore, hafter⟩ := attached_perm h1.books (h1.mem_taken hx1)
      (show (s1.store mi x').taken = s1.taken from rfl) hrest
    rw [hto1, hfree, Option.toList_none, nil_append] at hbefore
    rw [hnew, Option.toList_some, singleton_append] at hafter
    rw [hcounts]
    refine h1.counted.perm ?_
    rw [nil_append, singleton_append]
    refine (List.Perm.cons md (Perm.append_left _ hbefore)).trans ?_
    exact perm_middle.symm.trans (Perm.append_left _ hafter.symm)
  · by_cases heq : m = mi
    · subst heq
      refine Or.inl (isPacket_mk ?_ (update_self _ _ _) ?_ ?_)
      · rw [hl]
        refine linked_cons.mpr ⟨rfl, none, ?_, trivial⟩
        rw [store_link_self, ← hx']
      · rw [hl, map_singleton, sum_singleton, dataLenOf_of_heap (update_self _ _ _), ← hx']
        exact UInt16.toNat_toUInt32 _
      · rw [hl, ← hx']
        rfl
    · refine Or.inr ⟨hm, rfl, fun a ha => ?_⟩
      rw [mem_singleton.mp ha]
      exact hsoleOut m ((mem_erase_of_ne heq).mpr hm)

/-- **`rte_pktmbuf_alloc`**: an mbuf is made, or there is none. -/
theorem rtePktmbufAlloc (h : MbufInv s [] held pk) (abi : Abi) (pools : Nat → MbufPool) {mp : Nat}
    (hfits : abi.sizeofMbuf ≤ (pools mp).eltSize) :
    s.rtePktmbufAlloc .odp abi pools mp = .ok (none, s) ∨
      ∃ s', s.rtePktmbufAlloc .odp abi pools mp = .ok (some (s.fresh mp), s') ∧
        MbufInv s' [] (s.fresh mp :: held) (update pk (s.fresh mp) [s.fresh mp]) := by
  unfold MbufMem.rtePktmbufAlloc MbufMem.rteMempoolGet
  by_cases hfull : s.count mp < (pools mp).num
  · rw [if_pos hfull]
    dsimp only
    have hdead := h.books.fresh_dead mp
    obtain ⟨room, hroom, hzero⟩ : ∃ room, Pal.rtePktmbufAlloc abi ((pools mp).mempool abi) =
        some room ∧ room.dataOff = 0 := by
      unfold Pal.rtePktmbufAlloc MbufPool.mempool
      dsimp only
      rw [if_neg (by omega)]
      exact ⟨_, rfl, Nat.zero_min _⟩
    rw [hroom]
    refine Or.inr ⟨_, rfl, ?_⟩
    generalize hx : MbufMem.initMbuf (s.fresh mp) (.ofNat room.bufLen) (.ofNat room.dataOff) = x
    have hnew := h.books.take mp x
    generalize hs' : ({ s.take mp with count := update s.count mp (s.count mp + 1) } :
      MbufMem).store (s.fresh mp) x = s' at hnew ⊢
    have hheap : s'.heap = update s.heap (s.fresh mp) (some x) := by
      rw [← hs']
      rfl
    have hself : s'.heap (s.fresh mp) = some x := by
      rw [hheap, update_self]
    have hother : ∀ a, a ≠ s.fresh mp → s'.heap a = s.heap a := fun a ha => by
      rw [hheap, update_of_ne ha]
    have hto : ∀ a, s'.attachedTo a = s.attachedTo a := by
      intro a
      by_cases ha : a = s.fresh mp
      · subst ha
        rw [attachedTo_of_direct hself (by rw [← hx]; rfl), MbufMem.attachedTo, hdead]
        rfl
      · rw [MbufMem.attachedTo, MbufMem.attachedTo, hother a ha]
    have hattached : s'.attached = s.attached := by
      have htaken : s'.taken = s.fresh mp :: s.taken := by
        rw [← hs']
        rfl
      have hnone : s'.attachedTo (s.fresh mp) = none :=
        attachedTo_of_direct hself (by rw [← hx]; rfl)
      rw [MbufMem.attached, MbufMem.attached, htaken, filterMap_cons_none hnone, funext hto]
    have hcounts : s'.counts = update s.counts (s.fresh mp) (some ⟨(), 1⟩) := by
      rw [← hs', update_counts, ← hx]
      rfl
    have hnot : ∀ m ∈ held, m ≠ s.fresh mp := by
      rintro m hm rfl
      obtain ⟨y, hy⟩ := (h.packet _ hm).live (h.mem_self hm)
      rw [hdead] at hy
      cases hy
    refine h.change (W := [s.fresh mp]) ?_ hnew ?_ ?_ ?_ ?_ fun m hm => ?_
    · intro a y ha hy
      rw [hother a (mt mem_singleton.mpr ha)] at hy
      exact ⟨y, hy, rfl⟩
    · intro a ha y hy
      rw [mem_singleton.mp ha, hself] at hy
      cases hy
      rw [← hx, RteMbuf.InRoom, MbufMem.initMbuf, hzero]
      exact Nat.zero_le _
    · intro a b hab
      rw [hto] at hab ⊢
      exact h.direct a b hab
    · intro a y hy
      by_cases ha : a = s.fresh mp
      · rw [ha, hself] at hy
        cases hy
        rw [← hx]
        show (1 : UInt32).toNat < 2 ^ 16
        decide
      · rw [hother a ha] at hy
        exact h.narrow a y hy
    · have hrest : held.flatMap (update pk (s.fresh mp) [s.fresh mp]) = held.flatMap pk :=
        flatMap_congr fun m hm => update_of_ne (hnot m hm) _ _
      have hfresh : s.fresh mp ∉ [] ++ (held.flatMap pk ++ s.attached) := by
        rw [h.counted.held, counts_isSome, hdead]
        decide
      have hmade := h.counted.make hfresh ()
      rw [hcounts, hattached, flatMap_cons, update_self, hrest]
      exact hmade
    · by_cases heq : m = s.fresh mp
      · subst heq
        refine Or.inl (isPacket_mk ?_ hself ?_ ?_)
        · rw [update_self]
          refine linked_cons.mpr ⟨rfl, none, ?_, trivial⟩
          rw [link_of_heap hself, ← hx]
          rfl
        · rw [update_self, map_singleton, sum_singleton, dataLenOf_of_heap hself, ← hx]
          rfl
        · rw [update_self, ← hx]
          rfl
      · refine Or.inr ⟨(mem_cons.mp hm).resolve_left heq, update_of_ne heq _ _, fun a ha hmem => ?_⟩
        rw [mem_singleton.mp ha] at hmem
        obtain ⟨y, hy⟩ := (h.packet m ((mem_cons.mp hm).resolve_left heq)).live hmem
        rw [hdead] at hy
        cases hy
  · rw [if_neg hfull]
    exact Or.inl rfl

/-- **`rte_mbuf_refcnt_update`** of a packet of one segment that the caller holds. -/
theorem rteMbufRefcntUpdate_held (h : MbufInv s [] held pk) (hm : m ∈ held)
    (hlink : s.link m = some none) {v : Int16} (hpos : 0 < (held.count m : Int) + v.toInt)
    (hfits : s.CountFits m v.toInt) :
    ∃ r s', s.rteMbufRefcntUpdate .odp m v = .ok (r, s') ∧
      MbufInv s' [] (List.replicate ((held.count m : Int) + v.toInt).toNat m ++ held.filter (· ≠ m))
          pk := by
  obtain ⟨hl, x, hx, -⟩ := h.eq_singleton hm hlink
  have hcount := h.count_eq hx
  have hlt := hfits x hx
  have hflat : ∀ n, (List.replicate n m).flatMap pk = List.replicate n m := by
    intro n
    induction n with
    | zero => rfl
    | succ n ih => rw [replicate_succ, flatMap_cons, hl, ih, singleton_append]
  -- the packet, as often as it is held, and the other ones
  have hsplit : (held.flatMap pk).Perm (List.replicate (held.count m) m ++
      (held.filter (· ≠ m)).flatMap pk) := by
    have hperm := (filter_append_perm (· = m) held).symm
    rw [filter_eq] at hperm
    refine (hperm.flatMap_right pk).trans (Perm.of_eq ?_)
    rw [flatMap_append, hflat]
    congr 2
    exact filter_congr fun a _ => by simp
  obtain ⟨n, hn⟩ : ∃ n : Nat, (held.count m : Int) + v.toInt = n :=
    ⟨_, (Int.toNat_of_nonneg (Int.le_of_lt hpos)).symm⟩
  rw [hn, Int.toNat_natCast]
  have hcount' := hsplit.count_eq m
  rw [nil_append, count_append] at hcount
  rw [count_append, count_replicate_self] at hcount'
  obtain ⟨r, hup, -, hinv⟩ := h.rteMbufRefcntUpdate hx (v := v)
    (k := n + ((held.filter (· ≠ m)).flatMap pk).count m + s.attached.count m) (by omega) (by omega)
      (by omega)
    (fun b (hb : b ∈ List.replicate n m ++ held.filter (· ≠ m)) => by
      rcases mem_append.mp hb with hb | hb
      · rw [eq_of_mem_replicate hb]
        exact hm
      · exact mem_of_mem_filter hb)
    (fun b hb => by
      rw [nil_append, nil_append, hsplit.count_eq, flatMap_append, hflat, count_append,
        count_append, count_replicate, count_replicate, beq_eq_false_iff_ne.mpr hb.symm]
      rfl)
    (by rw [nil_append, flatMap_append, hflat, count_append, count_replicate_self])
  exact ⟨r, _, hup, hinv⟩

/-- The segments of a packet are what the walk along its links finds. -/
theorem chainOf_eq (h : MbufInv s hand held pk) (hm : m ∈ held) : s.chainOf m = pk m := by
  rw [MbufMem.chainOf, (h.packet m hm).linked.walk (Nat.le_succ_of_le (h.length_le hm)),
    Option.getD_some]

/-- **One call**: it returns, and the owners are what they are to be. -/
theorem perform (h : MbufInv s [] held pk) {abi : Abi} {pools : Nat → MbufPool} {c : MbufCall}
    (hadm : s.Admits abi pools held c) :
    ∃ r s' pk', s.perform .odp abi pools c = .ok (r, s') ∧
        MbufInv s' [] (c.heldAfter held r) pk' := by
  cases c with
  | alloc mp =>
    rcases h.rtePktmbufAlloc abi pools hadm with hnull | ⟨s', hmake, hinv⟩
    · refine ⟨.null, s, pk, ?_, h⟩
      rw [MbufMem.perform, hnull]
      rfl
    · refine ⟨.mbuf (s.fresh mp), s', _, ?_, hinv⟩
      rw [MbufMem.perform, hmake]
      rfl
  | free m =>
    obtain ⟨s', hfree, hinv⟩ := h.rtePktmbufFree abi pools hadm
    refine ⟨.void, s', pk, ?_, hinv⟩
    rw [MbufMem.perform, hfree]
    rfl
  | freeSeg m =>
    obtain ⟨hm, hlink⟩ := hadm
    have htake := h.takePacket hm
    rw [(h.eq_singleton hm hlink).1] at htake
    obtain ⟨s', hfree, -, hinv⟩ := htake.rtePktmbufFreeSeg abi pools
    refine ⟨.void, s', pk, ?_, hinv⟩
    rw [MbufMem.perform, hfree]
    rfl
  | refcntUpdate m v =>
    obtain ⟨hm, hlink, hpos, hfits⟩ := hadm
    obtain ⟨r, s', hup, hinv⟩ := h.rteMbufRefcntUpdate_held hm hlink hpos hfits
    refine ⟨.refcnt r, s', pk, ?_, hinv⟩
    rw [MbufMem.perform, hup]
    rfl
  | append m len =>
    obtain ⟨hm, hsole, hlast⟩ := hadm
    rw [MbufMem.SoleLast, h.chainOf_eq hm] at hlast
    obtain ⟨r, s', happ, hinv⟩ := h.rtePktmbufAppend hm hsole hlast len
    refine ⟨.ofData r, s', pk, ?_, hinv⟩
    rw [MbufMem.perform, happ]
    rfl
  | adj m len =>
    obtain ⟨hm, hsole⟩ := hadm
    obtain ⟨r, s', hadj, hinv⟩ := h.rtePktmbufAdj hm hsole len
    refine ⟨.ofData r, s', pk, ?_, hinv⟩
    rw [MbufMem.perform, hadj]
    rfl
  | trim m len =>
    obtain ⟨hm, hsole, hlast⟩ := hadm
    rw [MbufMem.SoleLast, h.chainOf_eq hm] at hlast
    obtain ⟨r, s', htrim, hinv⟩ := h.rtePktmbufTrim hm hsole hlast len
    refine ⟨.status r, s', pk, ?_, hinv⟩
    rw [MbufMem.perform, htrim]
    rfl
  | attach mi md =>
    obtain ⟨hmi, hne, hsole, hlink, hfree, hdirect, hfits, x, d, hx, hd, hroom⟩ := hadm
    obtain ⟨s', hatt, hinv⟩ :=
      h.rtePktmbufAttach hmi hne hsole hlink hfree hdirect hfits hx hd hroom
    refine ⟨.void, s', pk, ?_, hinv⟩
    rw [MbufMem.perform, hatt]
    rfl
  | addAfter m1 m2 =>
    obtain ⟨hm, hm2, hne, hsole, hlink, hlink2, hfits⟩ := hadm
    obtain ⟨s', hadd, hinv⟩ := h.utlRtePktmbufAddAfter hm hm2 hne hsole hlink hlink2 hfits
    refine ⟨.mbuf m1, s', _, ?_, hinv⟩
    rw [MbufMem.perform, hadd]
    rfl
  | addAfter2 m1 m2 =>
    obtain ⟨s', hadd, hinv⟩ := h.utlRtePktmbufAddAfter2 hadm
    refine ⟨.mbuf m1, s', _, ?_, hinv⟩
    rw [MbufMem.perform, hadd]
    rfl
  | addLast m last =>
    rcases hadm with hadm | ⟨hm, hm2, hne, hsole, hlink2, second, hchain, hsecond⟩
    · obtain ⟨s', hadd, hinv⟩ := h.utlRtePktmbufAddAfter2 hadm
      obtain ⟨-, -, -, -, hlink, -⟩ := hadm
      obtain ⟨x, hx, hnext⟩ := link_eq_some.mp hlink
      refine ⟨.void, s', _, ?_, hinv⟩
      rw [MbufMem.perform, MbufMem.utlRtePktmbufAddLast, load_of_heap hx, ok_bind, hnext]
      dsimp only
      rw [hadd]
      rfl
    · rw [h.chainOf_eq hm] at hchain
      obtain ⟨s', hadd, hinv⟩ := h.utlRtePktmbufAddLast hm hm2 hne hsole hlink2 hchain hsecond
      refine ⟨.void, s', _, ?_, hinv⟩
      rw [MbufMem.perform, hadd]
      rfl

/-- **A run of calls.** -/
theorem run {abi : Abi} {pools : Nat → MbufPool} {cs : List MbufCall} :
    ∀ {s : MbufMem} {held : List Addr}
    {pk : Addr → List Addr}, MbufInv s [] held pk → AdmitsAll abi pools s held cs →
    ∃ rs s' pk', s.run .odp abi pools cs = .ok (rs, s') ∧
        MbufInv s' [] (heldOver held cs rs) pk' := by
  induction cs with
  | nil =>
    intro s held pk h _
    exact ⟨[], s, pk, rfl, h⟩
  | cons c cs ih =>
    intro s held pk h hadm
    obtain ⟨hcall, hrest⟩ := hadm
    obtain ⟨r, s1, pk1, hperform, h1⟩ := h.perform hcall
    obtain ⟨rs, s', pk', hrun, h'⟩ := ih h1 (hrest r s1 hperform)
    refine ⟨r :: rs, s', pk', ?_, h'⟩
    rw [MbufMem.run, hperform, ok_bind]
    dsimp only
    rw [hrun]
    rfl

end MbufInv

/-! ## 6. The owners of all mbufs -/

/-- **What holds of all mbufs**, when a caller holds the packets `held`: the packets are right, the
data is in its area, the count of an mbuf is how many packets it is a segment of, as often as they
are held, and how many mbufs are attached to it, and the elements in use are those that the pools
count. -/
structure Owned (s : MbufMem) (held : List Addr) : Prop where
  packet : ∀ m ∈ held, IsPacket s m (s.chainOf m)
  room : ∀ a x, s.heap a = some x → x.InRoom
  refcnt : ∀ a x, s.heap a = some x →
    x.refcnt.toNat = (held.flatMap s.chainOf).count a + s.attached.count a ∧ 0 < x.refcnt.toNat
  live : ∀ a ∈ held.flatMap s.chainOf ++ s.attached, (s.heap a).isSome = true
  books : Books s
  back : held = [] → ∀ a, s.heap a = none

/-- An mbuf that is only attached to is gone with the last packet: what is attached to it is in no
packet either, and is not attached to. -/
theorem MbufInv.owned (h : MbufInv s [] held pk) : Owned s held := by
  have hchains : held.flatMap s.chainOf = held.flatMap pk :=
    flatMap_congr fun m hm => h.chainOf_eq hm
  refine ⟨fun m hm => ?_, h.room, fun a x hx => ⟨?_, h.pos hx⟩, fun a ha =>
    ?_, h.books, fun hnone a => ?_⟩
  · rw [h.chainOf_eq hm]
    exact h.packet m hm
  · rw [hchains, h.count_eq hx, nil_append, count_append]
  · rw [hchains] at ha
    obtain ⟨x, hx⟩ := h.holder ha
    rw [hx]
    rfl
  · subst hnone
    have hattached : ∀ a x, s.heap a = some x → ∃ b, s.attachedTo b = some a := by
      intro a x hx
      have hmem : a ∈ s.attached := (h.counted.held a).mpr (by rw [counts_isSome, hx]; rfl)
      obtain ⟨b, -, hb⟩ := mem_filterMap.mp hmem
      exact ⟨b, hb⟩
    cases hx : s.heap a with
    | none => rfl
    | some x =>
      obtain ⟨b, hb⟩ := hattached a x hx
      obtain ⟨y, hy, -⟩ := attachedTo_eq_some.mp hb
      obtain ⟨c, hc⟩ := hattached b y hy
      have hnone := h.direct c b hc
      rw [hb] at hnone
      cases hnone

theorem MbufInv.empty : MbufInv {} [] [] pk where
  counted := Counted.nil
  packet := fun _ hm => absurd hm not_mem_nil
  room := fun a x hx => by cases hx
  direct := fun a b hab => by cases hab
  narrow := fun a x hx => by cases hx
  books := {
    taken := fun a ha => by cases ha
    nodup := nodup_nil
    fresh := fun _ ha => absurd ha not_mem_nil
    count := fun _ => rfl }

variable {pools : Nat → MbufPool} {cs : List MbufCall}

theorem AdmitsAll.take {abi : Abi} :
    ∀ {s : MbufMem} {held : List Addr}, AdmitsAll abi pools s held cs →
        ∀ n, AdmitsAll abi pools s held (cs.take n) := by
  induction cs with
  | nil =>
    intro s held _ n
    rw [take_nil]
    trivial
  | cons c cs ih =>
    intro s held h n
    cases n with
    | zero => trivial
    | succ n => exact ⟨h.1, fun r s' hperform => ih (h.2 r s' hperform) n⟩

/-- **Admitted calls keep the owners**: in a run of them none fails, and after each of them the
packets that are held are right, all counts are the owners, and the elements in use are those that
have one; when nothing is held, all are back. -/
theorem mbufs_owned (abi : Abi) (pools : Nat → MbufPool) (cs : List MbufCall)
    (h : AdmitsAll abi pools {} [] cs) (n : Nat) :
    ∃ rs s, ({} : MbufMem).run .odp abi pools (cs.take n) = .ok (rs, s) ∧
        Owned s (heldOver [] (cs.take n) rs) := by
  obtain ⟨rs, s, pk, hrun, hinv⟩ := (MbufInv.empty : MbufInv {} [] [] fun _ => []).run (h.take n)
  exact ⟨rs, s, hrun, hinv.owned⟩

/-- A call of a run, with what it returns. -/
theorem admitsAll_cons {abi : Abi} {c : MbufCall} {r : MbufRet} (hadm : s.Admits abi pools held c)
    (hperform : s.perform .odp abi pools c = .ok (r, s'))
    (hrest : AdmitsAll abi pools s' (c.heldAfter held r) cs) :
    AdmitsAll abi pools s held (c :: cs) := by
  refine ⟨hadm, fun r' t h => ?_⟩
  rw [hperform] at h
  cases h
  exact hrest

/-- A constant mbuf that two packets share, and that is given back before them. -/
def exampleCalls : List MbufCall :=
  [.alloc 0, .alloc 0, .append ⟨0, 0⟩ 10, .append ⟨0, 1⟩ 20, .alloc 0, .addAfter ⟨0, 1⟩ ⟨0, 0⟩,
    .addAfter ⟨0, 2⟩ ⟨0, 0⟩, .adj ⟨0, 1⟩ 4, .free ⟨0, 0⟩, .free ⟨0, 1⟩, .free ⟨0, 2⟩]

theorem countFits_of_heap {v : Int} (hx : s.heap m = some x)
    (h : (x.refcnt.toNat : Int) + v < 2 ^ 16) :
    s.CountFits m v := by
  intro y hy
  rw [hx] at hy
  cases hy
  exact h

theorem mbufs_owned_shared : ∃ rs s,
    ({} : MbufMem).run .odp ⟨16, 64⟩ (fun _ => ⟨8, 192, 64⟩) exampleCalls = .ok (rs, s) ∧
      heldOver [] exampleCalls rs = [] ∧ Owned s (heldOver [] exampleCalls rs) := by
  have hadm : AdmitsAll ⟨16, 64⟩ (fun _ => ⟨8, 192, 64⟩) {} [] exampleCalls := by
    refine admitsAll_cons (show 64 ≤ 192 by decide) rfl ?_
    refine admitsAll_cons (show 64 ≤ 192 by decide) rfl ?_
    refine admitsAll_cons ⟨by decide, ⟨_, rfl, rfl⟩, fun a ha => ?_⟩ rfl ?_
    · obtain rfl := Option.some.inj ha
      exact ⟨_, rfl, rfl⟩
    refine admitsAll_cons ⟨by decide, ⟨_, rfl, rfl⟩, fun a ha => ?_⟩ rfl ?_
    · obtain rfl := Option.some.inj ha
      exact ⟨_, rfl, rfl⟩
    refine admitsAll_cons (show 64 ≤ 192 by decide) rfl ?_
    refine admitsAll_cons ⟨by decide, by decide, by decide, ⟨_, rfl, rfl⟩, rfl, rfl,
      countFits_of_heap rfl (by decide)⟩ rfl ?_
    refine admitsAll_cons ⟨by decide, by decide, by decide, ⟨_, rfl, rfl⟩, rfl, rfl,
      countFits_of_heap rfl (by decide)⟩ rfl ?_
    refine admitsAll_cons ⟨by decide, ⟨_, rfl, rfl⟩⟩ rfl ?_
    refine admitsAll_cons (show _ ∈ _ by decide) rfl ?_
    refine admitsAll_cons (show _ ∈ _ by decide) rfl ?_
    exact admitsAll_cons (show _ ∈ _ by decide) rfl trivial
  obtain ⟨rs, s, hrun, howned⟩ := mbufs_owned ⟨16, 64⟩ (fun _ => ⟨8, 192, 64⟩) exampleCalls hadm 11
  refine ⟨rs, s, hrun, ?_, howned⟩
  obtain ⟨rfl, -⟩ := Prod.mk.inj (Except.ok.inj hrun)
  rfl

end Trex.Pal
