/-
# Where the two mbuf implementations agree

The simulation and ODP run the same calls from the same pools.  Their memories then hold the same
elements with the same fields, except that `buf_len` of the simulation is the whole element
(`SameMbuf`).  A call that is `Allowed` keeps that, and both answer it alike (`perform_agree`); from
that the runs agree (`mbufs_agree`).

What is not `Allowed` is where the sources differ:

* `rte_pktmbuf_alloc`: ODP fails on an empty pool and on an element that is too small, the
  simulation does not;
* `rte_pktmbuf_append`: the simulation has `sizeof(struct rte_mbuf)` bytes more room, and leaves
  `data_off` out of the tail;
* `rte_mbuf_refcnt_update`: the simulation adds one whatever the value;
* `rte_pktmbuf_free_seg`: the counts differ below zero, and when the last owner of an attached mbuf
  frees it.
-/
import Trex.Lib.Linked
import Trex.Pal.Mbuf

namespace Trex.Pal

open Trex.Lib List
open Function (update update_of_ne update_self)

/-! ## 1. What a caller can see -/

/-- The fields of an mbuf that do not depend on the platform. -/
structure MbufView where
  buf : Addr
  dataOff : UInt16
  next : Option Addr
  dataLen : UInt16
  nbSegs : UInt8
  pktLen : UInt32
deriving DecidableEq, Repr

def RteMbuf.view (x : RteMbuf) : MbufView where
  buf := x.buf
  dataOff := x.dataOff
  next := x.next
  dataLen := x.dataLen
  nbSegs := x.nbSegs
  pktLen := x.pktLen

/-- The same elements are in use, with the same fields. -/
def SameView (o s : MbufMem) :
    Prop := ∀ a, (o.heap a).map RteMbuf.view = (s.heap a).map RteMbuf.view

/-- What a call returns, without the count of `rte_mbuf_refcnt_update`, which is the new one in ODP
and the old one in the simulation. -/
def MbufRet.seen : MbufRet → MbufRet
  | .refcnt _ => .void
  | r => r

/-- The bytes of an element: `malloc` gets a `uint16_t`. -/
def elementBytes (p : Platform) (mp : MbufPool) : Nat :=
  match p with
  | .odp => mp.eltSize
  | .linux => mp.eltSize % 2 ^ 16

/-- The bytes that `rte_pktmbuf_append` hands out are in the element. -/
def Within (abi : Abi) (pools : Nat → MbufPool) (p : Platform) : MbufCall → MbufRet → Prop
  | .append _ len, .data buf off =>
      abi.sizeofMbuf + off + len.toNat ≤ elementBytes p (pools buf.pool)
  | _, _ => True

/-- **The two implementations agree on a sequence of calls**: both stop, or both return the same,
leave the same behind, and handed out no byte behind the end of an element. -/
def MbufsAgree (abi : Abi) (pools : Nat → MbufPool) (cs : List MbufCall) : Prop :=
  SameOutcome
    (fun o s => o.1.map MbufRet.seen = s.1.map MbufRet.seen ∧ SameView o.2 s.2 ∧
      (∀ cr ∈ cs.zip o.1, Within abi pools .odp cr.1 cr.2) ∧
      ∀ cr ∈ cs.zip s.1, Within abi pools .linux cr.1 cr.2)
    (MbufMem.run .odp abi pools {} cs) (MbufMem.run .linux abi pools {} cs)

/-! ## 2. The calls on which they do -/

/-- A segment that both free alike. -/
def SegAllowed (o : MbufMem) (m : Addr) : Prop :=
  ∀ x ∈ o.heap m, x.refcnt ≠ 0 ∧ (x.refcnt = 1 → x.buf = m)

/-- Bytes that both append to the last segment, at the same offset, or that both refuse. -/
def AppendAllowed (abi : Abi) (x : RteMbuf) (len : UInt16) : Prop :=
  x.dataOff = 0 ∧ x.dataLen.toNat + len.toNat ≤ x.bufLen.toNat ∨
    MbufMem.tailroom x < len ∧
      MbufMem.tailroom { x with bufLen := x.bufLen + .ofNat abi.sizeofMbuf } < len

/-- The calls that both implementations answer alike, by what ODP has in memory. -/
def Allowed (abi : Abi) (pools : Nat → MbufPool) (o : MbufMem) : MbufCall → Prop
  | .alloc mp => o.count mp < (pools mp).num ∧ abi.sizeofMbuf ≤ (pools mp).eltSize % 2 ^ 16
  | .free m => ∀ l ∈ walk o.link (o.taken.length + 1) m, ∀ a ∈ l, SegAllowed o a
  | .freeSeg m => SegAllowed o m
  | .refcntUpdate m value => o.heap m = none ∨ value = 1
  | .append m len => ∀ last ∈ (o.rtePktmbufLastseg m).toOption, ∀ x ∈ o.heap last,
      AppendAllowed abi x len
  | .adj .. | .trim .. | .attach .. | .addAfter .. | .addAfter2 .. | .addLast .. => True

instance (o : MbufMem) (m : Addr) : Decidable (SegAllowed o m) :=
  inferInstanceAs (Decidable (∀ x ∈ o.heap m, x.refcnt ≠ 0 ∧ (x.refcnt = 1 → x.buf = m)))

instance (abi : Abi) (x : RteMbuf) (len : UInt16) : Decidable (AppendAllowed abi x len) :=
  inferInstanceAs (Decidable (_ ∧ _ ∨ _ ∧ _))

instance  (abi : Abi) (pools : Nat → MbufPool) (o : MbufMem) :
    (c : MbufCall) → Decidable (Allowed abi pools o c)
  | .alloc _ => inferInstanceAs (Decidable (_ ∧ _))
  | .free m =>
    inferInstanceAs (Decidable (∀ l ∈ walk o.link (o.taken.length + 1) m, ∀ a ∈ l, SegAllowed o a))
  | .freeSeg m => inferInstanceAs (Decidable (SegAllowed o m))
  | .refcntUpdate m value => inferInstanceAs (Decidable (o.heap m = none ∨ value = 1))
  | .append m len =>
    inferInstanceAs (Decidable
      (∀ last ∈ (o.rtePktmbufLastseg m).toOption, ∀ x ∈ o.heap last, AppendAllowed abi x len))
  | .adj .. | .trim .. | .attach .. | .addAfter .. | .addAfter2 .. | .addLast .. => isTrue trivial

/-- Each call of a run is allowed when it is made. -/
def AllowedRun (abi : Abi) (pools : Nat → MbufPool) : MbufMem → List MbufCall → Prop
  | _, [] => True
  | o, c :: cs => Allowed abi pools o c ∧
      ∀ r ∈ (o.perform .odp abi pools c).toOption, AllowedRun abi pools r.2 cs

instance decidableAllowedRun (abi : Abi) (pools : Nat → MbufPool) :
    (o : MbufMem) → (cs : List MbufCall) → Decidable (AllowedRun abi pools o cs)
  | _, [] => isTrue trivial
  | o, c :: cs =>
    have : (r : MbufRet × MbufMem) → Decidable (AllowedRun abi pools r.2 cs) :=
      fun r => decidableAllowedRun abi pools r.2 cs
    inferInstanceAs (Decidable (Allowed abi pools o c ∧
      ∀ r ∈ (o.perform .odp abi pools c).toOption, AllowedRun abi pools r.2 cs))

/-! ## 3. Two memories that agree -/

/-- The mbuf of the simulation has the whole element for `buf_len`; the rest is the same. -/
def SameMbuf (abi : Abi) (pools : Nat → MbufPool) (x y : RteMbuf) : Prop :=
  ∃ bufLen : UInt16, y = { x with bufLen } ∧
    x.bufLen.toNat + abi.sizeofMbuf = (pools x.buf.pool).eltSize % 2 ^ 16 ∧
    bufLen.toNat = (pools x.buf.pool).eltSize % 2 ^ 16

/-- The memories of the two implementations after the same calls. -/
structure Agree (abi : Abi) (pools : Nat → MbufPool) (o s : MbufMem) : Prop where
  taken : s.taken = o.taken
  heap : ∀ a, Option.Rel (SameMbuf abi pools) (o.heap a) (s.heap a)

variable {abi : Abi} {pools : Nat → MbufPool} {o s : MbufMem}

theorem Agree.empty : Agree abi pools {} {} := ⟨rfl, fun _ => Option.Rel.none⟩

variable {x : RteMbuf}

theorem SameMbuf.view {y : RteMbuf} (h : SameMbuf abi pools x y) : x.view = y.view := by
  obtain ⟨b, rfl, -, -⟩ := h
  rfl

/-- An element is in use in both memories, or in none. -/
theorem Agree.both (h : Agree abi pools o s) (a : Addr) :
    (o.heap a = none ∧ s.heap a = none) ∨
      ∃ x y, o.heap a = some x ∧ s.heap a = some y ∧ SameMbuf abi pools x y := by
  have ha := h.heap a
  generalize o.heap a = x, s.heap a = y at ha
  cases ha with
  | none => exact Or.inl ⟨rfl, rfl⟩
  | some hxy => exact Or.inr ⟨_, _, rfl, rfl, hxy⟩

theorem Agree.sameView (h : Agree abi pools o s) : SameView o s := by
  intro a
  rcases h.both a with ⟨ho, hs⟩ | ⟨x, y, ho, hs, hxy⟩
  · rw [ho, hs]
  · rw [ho, hs]
    exact congrArg some hxy.view

theorem Agree.link (h : Agree abi pools o s) : s.link = o.link := by
  funext a
  unfold MbufMem.link
  rcases h.both a with ⟨ho, hs⟩ | ⟨x, y, ho, hs, b, rfl, -, -⟩
  · rw [ho, hs]
  · rw [ho, hs]
    rfl

theorem Agree.fresh (h : Agree abi pools o s) (mp : Nat) : s.fresh mp = o.fresh mp := by
  unfold MbufMem.fresh
  rw [h.taken]

theorem Agree.load (h : Agree abi pools o s) (m : Addr) :
    ExceptRel (SameMbuf abi pools) (o.load m) (s.load m) := by
  unfold MbufMem.load
  rcases h.both m with ⟨ho, hs⟩ | ⟨x, y, ho, hs, hxy⟩
  · rw [ho, hs]
    rfl
  · rw [ho, hs]
    exact hxy

theorem Agree.store {y : RteMbuf} (h : Agree abi pools o s) (m : Addr)
    (hxy : SameMbuf abi pools x y) :
    Agree abi pools (o.store m x) (s.store m y) := by
  refine ⟨h.taken, fun a => ?_⟩
  by_cases ha : a = m
  · subst ha
    simpa only [MbufMem.store, update_self] using Option.Rel.some hxy
  · simpa only [MbufMem.store, update_of_ne ha] using h.heap a

theorem Agree.put (h : Agree abi pools o s) (m : Addr) :
    Agree abi pools (o.rteMempoolPut .odp m) (s.rteMempoolPut .linux m) := by
  refine ⟨h.taken, fun a => ?_⟩
  by_cases ha : a = m
  · subst ha
    simpa only [MbufMem.rteMempoolPut, MbufMem.drop, update_self] using Option.Rel.none
  · simpa only [MbufMem.rteMempoolPut, MbufMem.drop, update_of_ne ha] using h.heap a

/-! ## 4. One call -/

/-- Both return the same, and agree afterwards. -/
def SameRet {α : Type} (abi : Abi) (pools : Nat → MbufPool) (o s : α × MbufMem) : Prop :=
  o.1 = s.1 ∧ Agree abi pools o.2 s.2

theorem Agree.rtePktmbufAlloc (h : Agree abi pools o s) {mp : Nat}
    (hfree : o.count mp < (pools mp).num) (hroom : abi.sizeofMbuf ≤ (pools mp).eltSize % 2 ^ 16) :
    ExceptRel (SameRet abi pools) (o.rtePktmbufAlloc .odp abi pools mp)
      (s.rtePktmbufAlloc .linux abi pools mp) := by
  have htotal : ((pools mp).mempool abi).bufSize -
      roundUp abi.sizeofHandle ((pools mp).mempool abi).align =
      (pools mp).eltSize := Nat.add_sub_cancel_left ..
  have hsize : ¬ (pools mp).eltSize < abi.sizeofMbuf := by
    have := Nat.mod_le (pools mp).eltSize (2 ^ 16)
    omega
  have hwhole : (UInt16.ofNat (pools mp).eltSize).toNat = (pools mp).eltSize % 2 ^ 16 := rfl
  have hsmall : ¬ (UInt16.ofNat (pools mp).eltSize).toNat < abi.sizeofMbuf := by omega
  simp only [MbufMem.rtePktmbufAlloc, MbufMem.rteMempoolGet, if_pos hfree, Trex.Pal.rtePktmbufAlloc,
    htotal, if_neg hsize, if_neg hsmall, exceptRel_ok]
  refine ⟨by rw [h.fresh], ?_⟩
  have htake : Agree abi pools
      { o.take mp with count := update o.count mp (o.count mp + 1) } (s.take mp) := by
    refine ⟨?_, h.heap⟩
    change s.fresh mp :: s.taken = o.fresh mp :: o.taken
    rw [h.fresh, h.taken]
  rw [h.fresh]
  refine htake.store (o.fresh mp) ⟨.ofNat (pools mp).eltSize, rfl, ?_, hwhole⟩
  -- what ODP leaves behind the header
  change ((pools mp).eltSize - abi.sizeofMbuf) % 2 ^ 16 % 2 ^ 16 + abi.sizeofMbuf =
    (pools mp).eltSize % 2 ^ 16
  omega

theorem Agree.rteMbufRefcntUpdate (h : Agree abi pools o s) (m : Addr) :
    ExceptRel (fun o s => Agree abi pools o.2 s.2) (o.rteMbufRefcntUpdate .odp m 1)
      (s.rteMbufRefcntUpdate .linux m 1) := by
  refine (h.load m).bind fun x y hxy => ?_
  obtain ⟨b, rfl, hroom, hwhole⟩ := hxy
  exact h.store m ⟨b, rfl, hroom, hwhole⟩

theorem Agree.lastsegFrom (h : Agree abi pools o s) (fuel : Nat) (m : Addr) :
    s.lastsegFrom fuel m = o.lastsegFrom fuel m := by
  induction fuel generalizing m with
  | zero => rfl
  | succ fuel ih =>
    simp only [MbufMem.lastsegFrom, MbufMem.load]
    rcases h.both m with ⟨ho, hs⟩ | ⟨x, y, ho, hs, b, rfl, -, -⟩
    · rw [ho, hs]
      rfl
    · rw [ho, hs]
      simp only [ok_bind]
      cases hnext : x.next with
      | none => rfl
      | some next => exact ih next

theorem Agree.lastseg (h : Agree abi pools o s) (m : Addr) :
    s.rtePktmbufLastseg m = o.rtePktmbufLastseg m := by
  unfold MbufMem.rtePktmbufLastseg
  rw [h.taken, h.lastsegFrom]

theorem Agree.rtePktmbufAdj (h : Agree abi pools o s) (m : Addr) (len : UInt16) :
    ExceptRel (SameRet abi pools) (o.rtePktmbufAdj m len) (s.rtePktmbufAdj m len) := by
  refine (h.load m).bind fun x y hxy => ?_
  obtain ⟨b, rfl, hroom, hwhole⟩ := hxy
  by_cases hlen : len > x.dataLen
  · simp only [if_pos hlen]
    exact ⟨rfl, h⟩
  · simp only [if_neg hlen]
    exact ⟨rfl, h.store m ⟨b, rfl, hroom, hwhole⟩⟩

theorem Agree.rtePktmbufTrim (h : Agree abi pools o s) (m : Addr) (len : UInt16) :
    ExceptRel (SameRet abi pools) (o.rtePktmbufTrim m len) (s.rtePktmbufTrim m len) := by
  unfold MbufMem.rtePktmbufTrim
  rw [h.lastseg]
  cases o.rtePktmbufLastseg m with
  | error e => rfl
  | ok last =>
    refine (h.load last).bind fun x y hxy => ?_
    obtain ⟨b, rfl, hroom, hwhole⟩ := hxy
    by_cases hlen : len > x.dataLen
    · simp only [if_pos hlen]
      exact ⟨rfl, h⟩
    · simp only [if_neg hlen]
      have h' := h.store last ⟨b, rfl, hroom, hwhole⟩ (x := { x with dataLen := x.dataLen - len })
      refine (h'.load m).bind fun z w hzw => ?_
      obtain ⟨b', rfl, hroom', hwhole'⟩ := hzw
      exact ⟨rfl, h'.store m ⟨b', rfl, hroom', hwhole'⟩⟩

theorem Agree.rtePktmbufAttach (h : Agree abi pools o s) (mi md : Addr) :
    ExceptRel (Agree abi pools) (o.rtePktmbufAttach .odp mi md)
        (s.rtePktmbufAttach .linux mi md) := by
  refine (h.rteMbufRefcntUpdate md).bind fun o1 s1 h1 => ?_
  refine (h1.load md).bind fun d d' hd => ?_
  obtain ⟨b, rfl, hroom, hwhole⟩ := hd
  refine (h1.load mi).bind fun x y hxy => ?_
  obtain ⟨b', rfl, -, -⟩ := hxy
  exact h1.store mi ⟨b, rfl, hroom, hwhole⟩

theorem Agree.utlRtePktmbufAddAfter2 (h : Agree abi pools o s) (m1 m2 : Addr) :
    ExceptRel (Agree abi pools) (o.utlRtePktmbufAddAfter2 m1 m2)
        (s.utlRtePktmbufAddAfter2 m1 m2) := by
  refine (h.load m1).bind fun x x' hx => ?_
  obtain ⟨b, rfl, hroom, hwhole⟩ := hx
  refine (h.load m2).bind fun y y' hy => ?_
  obtain ⟨b', rfl, -, -⟩ := hy
  exact h.store m1 ⟨b, rfl, hroom, hwhole⟩

theorem Agree.utlRtePktmbufAddAfter (h : Agree abi pools o s) (m1 m2 : Addr) :
    ExceptRel (Agree abi pools) (o.utlRtePktmbufAddAfter .odp m1 m2)
      (s.utlRtePktmbufAddAfter .linux m1 m2) :=
  (h.rteMbufRefcntUpdate m2).bind fun _ _ h1 => h1.utlRtePktmbufAddAfter2 m1 m2

theorem Agree.utlRtePktmbufAddLast (h : Agree abi pools o s) (m last : Addr) :
    ExceptRel (Agree abi pools) (o.utlRtePktmbufAddLast m last)
        (s.utlRtePktmbufAddLast m last) := by
  refine (h.load m).bind fun x x' hx => ?_
  obtain ⟨b, rfl, -, -⟩ := hx
  cases hnext : x.next with
  | none => exact h.utlRtePktmbufAddAfter2 m last
  | some second =>
    simp only
    refine (h.load second).bind fun y y' hy => ?_
    obtain ⟨b, rfl, hroom, hwhole⟩ := hy
    have h' := h.store second ⟨b, rfl, hroom, hwhole⟩ (x := { y with next := some last })
    refine (h'.load last).bind fun z z' hz => ?_
    obtain ⟨-, rfl, -, -⟩ := hz
    refine (h'.load m).bind fun w w' hw => ?_
    obtain ⟨b, rfl, hroom, hwhole⟩ := hw
    exact h'.store m ⟨b, rfl, hroom, hwhole⟩

/-! ## 5. Appending -/

theorem tailroom_toNat (hoff : x.dataOff = 0) (hlen : x.dataLen.toNat ≤ x.bufLen.toNat) :
    (MbufMem.tailroom x).toNat = x.bufLen.toNat - x.dataLen.toNat := by
  have hbuf := x.bufLen.toNat_lt
  have hdata := x.dataLen.toNat_lt
  simp only [MbufMem.tailroom, hoff, UInt16.sub_zero, UInt16.toNat_sub]
  omega

variable {m : Addr} {fuel : Nat} {p : Platform}

/-- What is appended by both lies in the element, and at the same offset. -/
theorem Agree.rtePktmbufAppend (h : Agree abi pools o s) {len : UInt16}
    (hallowed : ∀ last ∈ (o.rtePktmbufLastseg m).toOption, ∀ x ∈ o.heap last,
      AppendAllowed abi x len) :
    ExceptRel (fun o s => SameRet abi pools o s ∧ ∀ buf off, o.1 = some (buf, off) →
        abi.sizeofMbuf + off + len.toNat ≤ (pools buf.pool).eltSize % 2 ^ 16)
      (o.rtePktmbufAppend .odp m len) (s.rtePktmbufAppend .linux m len) := by
  unfold MbufMem.rtePktmbufAppend
  rw [h.lastseg]
  cases hlast : o.rtePktmbufLastseg m with
  | error e => rfl
  | ok last =>
    simp only [ok_bind]
    rcases h.both last with ⟨ho, hs⟩ | ⟨x, y, ho, hs, b, rfl, hroom, hwhole⟩
    · simp only [MbufMem.load, ho, hs]
      rfl
    simp only [MbufMem.load, ho, hs, ok_bind]
    rcases hallowed last (by rw [hlast]; rfl) x ho with ⟨hoff, hfits⟩ | ⟨hodp, hlinux⟩
    · have htail := tailroom_toNat hoff (by omega)
      have hlarger : x.dataLen.toNat ≤ b.toNat := by omega
      have htail' : (MbufMem.tailroom { x with bufLen := b }).toNat = b.toNat - x.dataLen.toNat :=
        tailroom_toNat (x := { x with bufLen := b }) hoff hlarger
      have haccept : ¬ len > MbufMem.tailroom x := by
        rw [gt_iff_lt, UInt16.lt_iff_toNat_lt]
        omega
      have haccept' : ¬ len > MbufMem.tailroom { x with bufLen := b } := by
        rw [gt_iff_lt, UInt16.lt_iff_toNat_lt]
        omega
      simp only [if_neg haccept, if_neg haccept']
      have h' := h.store last ⟨b, rfl, hroom, hwhole⟩ (x := { x with dataLen := x.dataLen + len })
      refine (h'.load m).bind fun z w hzw => ?_
      obtain ⟨b', rfl, hroom', hwhole'⟩ := hzw
      refine ⟨⟨?_, h'.store m ⟨b', rfl, hroom', hwhole'⟩⟩, ?_⟩
      · simp [MbufMem.tailOffset, hoff]
      · intro buf off hret
        cases hret
        simp only [MbufMem.tailOffset, hoff, UInt16.toNat_zero, Nat.zero_add]
        omega
    · have hb : b = x.bufLen + .ofNat abi.sizeofMbuf := by
        have hlt := b.toNat_lt
        apply UInt16.toNat_inj.mp
        rw [UInt16.toNat_add, UInt16.toNat_ofNat']
        omega
      simp only [gt_iff_lt, if_pos hodp, hb, if_pos hlinux]
      exact ⟨⟨rfl, h⟩, fun _ _ hret => by cases hret⟩

/-! ## 6. Freeing -/

/-- After a segment is freed in ODP nothing else has changed. -/
def OnlyChanged (m : Addr) (o o' : MbufMem) : Prop := ∀ a, a ≠ m → o'.heap a = o.heap a

theorem Agree.rtePktmbufFreeSeg (h : Agree abi pools o s) (hallowed : SegAllowed o m) :
    ExceptRel (fun o' s' => Agree abi pools o' s' ∧
      OnlyChanged m o o') (o.rtePktmbufFreeSeg .odp abi pools m)
      (s.rtePktmbufFreeSeg .linux abi pools m) := by
  unfold MbufMem.rtePktmbufFreeSeg
  rcases h.both m with ⟨ho, hs⟩ | ⟨x, y, ho, hs, b, rfl, hroom, hwhole⟩
  · simp only [MbufMem.load, ho, hs]
    rfl
  obtain ⟨hzero, hdirect⟩ := hallowed x ho
  have hdec : MbufMem.decRefcnt .linux x.refcnt = MbufMem.decRefcnt .odp x.refcnt := if_neg hzero
  have h' := h.store m ⟨b, rfl, hroom,
    hwhole⟩ (x := { x with refcnt := MbufMem.decRefcnt .odp x.refcnt })
  simp only [MbufMem.load, ho, hs, ok_bind, hdec]
  by_cases hlast : x.refcnt = 1
  · have hne : ¬ x.refcnt ≠ 1 := not_not_intro hlast
    simp only [if_neg hne, if_pos (hdirect hlast)]
    unfold MbufMem.freeSegInternal
    refine (h'.load m).bind fun _ _ _ => ?_
    refine ⟨h'.put m, fun a ha => ?_⟩
    simp only [MbufMem.rteMempoolPut, MbufMem.drop, MbufMem.store, update_of_ne ha]
  · simp only [if_pos (show x.refcnt ≠ 1 from hlast)]
    exact ⟨h', fun a ha => update_of_ne ha _ _⟩

/-- Along a chain that comes to an end both free the same segments. -/
theorem Agree.freeChain (h : Agree abi pools o s) {l : List Addr}
    (hchain : Linked o.link (some m) l) (hallowed : ∀ a ∈ l, SegAllowed o a) :
    ExceptRel (Agree abi pools) (o.freeChain .odp abi pools fuel m)
        (s.freeChain .linux abi pools fuel m) := by
  induction l generalizing o s m fuel with
  | nil => exact absurd hchain linked_some_nil
  | cons _ l ih =>
    obtain ⟨rfl, n, hn, hrest⟩ := linked_cons.mp hchain
    have hnodup := (nodup_cons.mp hchain.nodup).1
    cases fuel with
    | zero => rfl
    | succ fuel =>
      simp only [MbufMem.freeChain]
      rcases h.both m with ⟨ho, hs⟩ | ⟨x, y, ho, hs, b, rfl, -, -⟩
      · simp only [MbufMem.load, ho, hs]
        rfl
      have hx : n = x.next := by
        rw [MbufMem.link, ho] at hn
        exact (Option.some.inj hn).symm
      subst hx
      simp only [MbufMem.load, ho, hs, ok_bind]
      refine (h.rtePktmbufFreeSeg (hallowed m (mem_cons_self ..))).bind fun o' s' hfreed => ?_
      obtain ⟨h', honly⟩ := hfreed
      -- the rest of the chain is as it was
      have hsame : ∀ a ∈ l, o'.heap a = o.heap a := by
        intro a ha
        apply honly
        rintro rfl
        exact hnodup ha
      cases hnext : x.next with
      | none => exact h'
      | some next =>
        rw [hnext] at hrest
        apply ih h'
        · refine hrest.mono fun a ha n' hn' => ?_
          rw [MbufMem.link, hsame a ha]
          exact hn'
        · intro a ha
          have := hallowed a (mem_cons_of_mem _ ha)
          rw [SegAllowed, hsame a ha]
          exact this

/-- Every link of the second memory is one of the first. -/
def LinksKept (s s' : MbufMem) : Prop := ∀ a n, s'.link a = some n → s.link a = some n

theorem LinksKept.trans {s s1 s2 : MbufMem} (h : LinksKept s s1) (h1 : LinksKept s1 s2) :
    LinksKept s s2 :=
  fun a n hn => h a n (h1 a n hn)

theorem MbufMem.load_eq_ok {s : MbufMem} (h : s.load m = .ok x) :
    s.heap m = some x := by
  unfold MbufMem.load at h
  split at h
  · cases h
    assumption
  · cases h

theorem linksKept_store {s : MbufMem} {y : RteMbuf} (hx : s.load m = .ok x) (hy : y.next = x.next) :
    LinksKept s (s.store m y) := by
  intro a n hn
  by_cases ha : a = m
  · subst ha
    simp only [MbufMem.link, MbufMem.store, update_self, Option.map_some, hy] at hn
    simpa only [MbufMem.link, MbufMem.load_eq_ok hx, Option.map_some] using hn
  · simpa only [MbufMem.link, MbufMem.store, update_of_ne ha] using hn

theorem linksKept_put (p : Platform) (s : MbufMem) (m : Addr) :
    LinksKept s (s.rteMempoolPut p m) := by
  intro a n hn
  have hheap : (s.rteMempoolPut p m).heap = update s.heap m none := by cases p <;> rfl
  by_cases ha : a = m
  · subst ha
    simp only [MbufMem.link, hheap, update_self, Option.map_none] at hn
    cases hn
  · simpa only [MbufMem.link, hheap, update_of_ne ha] using hn

theorem linksKept_freeSegInternal {s s' : MbufMem} (h : s.freeSegInternal p m = .ok s') :
    LinksKept s s' := by
  obtain ⟨_, -, h⟩ := bind_eq_ok h
  cases h
  exact linksKept_put p s m

theorem linksKept_refcntUpdate {s s' : MbufMem} {value : Int16} {v : UInt16}
    (h : s.rteMbufRefcntUpdate p m value = .ok (v, s')) : LinksKept s s' := by
  obtain ⟨x, hx, h⟩ := bind_eq_ok h
  cases p <;> cases h <;> exact linksKept_store hx rfl

theorem linksKept_releaseDirect {s s' : MbufMem} {md : Addr} (h : s.releaseDirect p md = .ok s') :
    LinksKept s s' := by
  obtain ⟨⟨v, s1⟩, h1, h⟩ := bind_eq_ok h
  have hkept := linksKept_refcntUpdate h1
  simp only at h
  split at h
  · exact hkept.trans (linksKept_freeSegInternal h)
  · cases h
    exact hkept

theorem linksKept_freeSeg {s s' : MbufMem} (h : s.rtePktmbufFreeSeg p abi pools m = .ok s') :
    LinksKept s s' := by
  obtain ⟨x, hx, h⟩ := bind_eq_ok h
  have hstore := linksKept_store hx (y := { x with refcnt := MbufMem.decRefcnt p x.refcnt }) rfl
  simp only at h
  split at h
  · cases h
    exact hstore
  · split at h
    · exact hstore.trans (linksKept_freeSegInternal h)
    · obtain ⟨s2, hdetach, h⟩ := bind_eq_ok h
      obtain ⟨z, hz, hdetach⟩ := bind_eq_ok hdetach
      cases hdetach
      obtain ⟨s3, hdirect, h⟩ := bind_eq_ok h
      refine hstore.trans (LinksKept.trans ?_ (linksKept_freeSegInternal h))
      refine LinksKept.trans ?_ (linksKept_releaseDirect hdirect)
      exact linksKept_store hz rfl

/-- **The loop of `rte_pktmbuf_free` returns on chains that come to an end only.** -/
theorem linked_of_freeChain {s s' : MbufMem} (h : s.freeChain p abi pools fuel m = .ok s') :
    ∃ l, Linked s.link (some m) l ∧ l.length ≤ fuel := by
  induction fuel generalizing s m with
  | zero => cases h
  | succ fuel ih =>
    obtain ⟨x, hx, h⟩ := bind_eq_ok h
    obtain ⟨s1, hfreed, h⟩ := bind_eq_ok h
    have hlink : s.link m = some x.next := by
      rw [MbufMem.link, MbufMem.load_eq_ok hx, Option.map_some]
    cases hnext : x.next with
    | none =>
      rw [hnext] at hlink
      exact ⟨[m], linked_cons.mpr ⟨rfl, none, hlink, trivial⟩, by simp⟩
    | some next =>
      rw [hnext] at hlink
      simp only [hnext] at h
      obtain ⟨l, hl, hlen⟩ := ih h
      have hl' : Linked s.link (some next) l :=
        hl.mono fun a _ n hn => linksKept_freeSeg hfreed a n hn
      exact ⟨m :: l, linked_cons.mpr ⟨rfl, some next, hlink, hl'⟩, by simpa using hlen⟩

theorem freeChain_error (abi : Abi) (pools : Nat → MbufPool) (p : Platform) {s : MbufMem}
    (h : walk s.link fuel m = none) : ∃ e, s.freeChain p abi pools fuel m = .error e := by
  cases hfree : s.freeChain p abi pools fuel m with
  | error e => exact ⟨e, rfl⟩
  | ok s' =>
    obtain ⟨l, hl, hlen⟩ := linked_of_freeChain hfree
    rw [hl.walk hlen] at h
    cases h

theorem Agree.rtePktmbufFree (h : Agree abi pools o s)
    (hallowed : ∀ l ∈ walk o.link (o.taken.length + 1) m, ∀ a ∈ l, SegAllowed o a) :
    SameOutcome (Agree abi pools) (o.rtePktmbufFree .odp abi pools m)
        (s.rtePktmbufFree .linux abi pools m) := by
  unfold MbufMem.rtePktmbufFree
  rw [h.taken]
  cases hwalk : walk o.link (o.taken.length + 1) m with
  | some l =>
    obtain ⟨hl, -⟩ := linked_of_walk hwalk
    exact (h.freeChain hl (hallowed l hwalk)).sameOutcome
  | none =>
    obtain ⟨e, ho⟩ := freeChain_error abi pools .odp hwalk
    rw [← h.link] at hwalk
    obtain ⟨e', hs⟩ := freeChain_error abi pools .linux hwalk
    rw [ho, hs]
    trivial

/-! ## 7. Runs -/

/-- What two calls have in common that returned. -/
def SameCall (abi : Abi) (pools : Nat → MbufPool) (c : MbufCall) (o s : MbufRet × MbufMem) : Prop :=
  o.1.seen = s.1.seen ∧ Agree abi pools o.2 s.2 ∧ Within abi pools .odp c o.1 ∧
    Within abi pools .linux c s.1

/-- **A call that is allowed is answered alike.** -/
theorem Agree.perform (h : Agree abi pools o s) {c : MbufCall} (hallowed : Allowed abi pools o c) :
    SameOutcome (SameCall abi pools c) (o.perform .odp abi pools c)
        (s.perform .linux abi pools c) := by
  cases c with
  | alloc mp =>
    refine ((h.rtePktmbufAlloc hallowed.1 hallowed.2).map fun (r, o') (r', s') hab =>
      ?_).sameOutcome
    obtain ⟨rfl, hagree⟩ := hab
    exact ⟨rfl, hagree, trivial, trivial⟩
  | free m =>
    refine (h.rtePktmbufFree hallowed).map fun a b hab => ?_
    exact ⟨rfl, hab, trivial, trivial⟩
  | freeSeg m =>
    refine ((h.rtePktmbufFreeSeg hallowed).map fun a b hab => ?_).sameOutcome
    exact ⟨rfl, hab.1, trivial, trivial⟩
  | refcntUpdate m value =>
    rcases hallowed with hdead | rfl
    · have hsdead : s.heap m = none := by
        rcases h.both m with ⟨-, hs⟩ | ⟨x, y, ho, -⟩
        · exact hs
        · rw [hdead] at ho
          cases ho
      simp only [MbufMem.perform, MbufMem.rteMbufRefcntUpdate, MbufMem.load, hdead, hsdead]
      trivial
    · refine ((h.rteMbufRefcntUpdate m).map fun a b hab => ?_).sameOutcome
      exact ⟨rfl, hab, trivial, trivial⟩
  | append m len =>
    refine ((h.rtePktmbufAppend hallowed).map fun (r, o') (r', s') hab => ?_).sameOutcome
    obtain ⟨⟨rfl, hagree⟩, hwithin⟩ := hab
    cases r with
    | none => exact ⟨rfl, hagree, trivial, trivial⟩
    | some tail =>
      have hlinux := hwithin tail.1 tail.2 rfl
      exact ⟨rfl, hagree, Nat.le_trans hlinux (Nat.mod_le _ _), hlinux⟩
  | adj m len =>
    refine ((h.rtePktmbufAdj m len).map fun (r, o') (r', s') hab => ?_).sameOutcome
    obtain ⟨rfl, hagree⟩ := hab
    exact ⟨rfl, hagree, trivial, trivial⟩
  | trim m len =>
    refine ((h.rtePktmbufTrim m len).map fun (r, o') (r', s') hab => ?_).sameOutcome
    obtain ⟨rfl, hagree⟩ := hab
    exact ⟨rfl, hagree, trivial, trivial⟩
  | attach mi md =>
    refine ((h.rtePktmbufAttach mi md).map fun a b hab => ?_).sameOutcome
    exact ⟨rfl, hab, trivial, trivial⟩
  | addAfter m1 m2 =>
    refine ((h.utlRtePktmbufAddAfter m1 m2).map fun a b hab => ?_).sameOutcome
    exact ⟨rfl, hab, trivial, trivial⟩
  | addAfter2 m1 m2 =>
    refine ((h.utlRtePktmbufAddAfter2 m1 m2).map fun a b hab => ?_).sameOutcome
    exact ⟨rfl, hab, trivial, trivial⟩
  | addLast m last =>
    refine ((h.utlRtePktmbufAddLast m last).map fun a b hab => ?_).sameOutcome
    exact ⟨rfl, hab, trivial, trivial⟩

theorem Agree.run (h : Agree abi pools o s) {cs : List MbufCall}
    (hallowed : AllowedRun abi pools o cs) :
    SameOutcome
      (fun o s => o.1.map MbufRet.seen = s.1.map MbufRet.seen ∧ SameView o.2 s.2 ∧
        (∀ cr ∈ cs.zip o.1, Within abi pools .odp cr.1 cr.2) ∧
        ∀ cr ∈ cs.zip s.1, Within abi pools .linux cr.1 cr.2)
      (o.run .odp abi pools cs) (s.run .linux abi pools cs) := by
  induction cs generalizing o s with
  | nil => exact ⟨rfl, h.sameView, by simp, by simp⟩
  | cons c cs ih =>
    obtain ⟨hc, hrest⟩ := hallowed
    refine (h.perform hc).bind fun a b ha hab => ?_
    obtain ⟨hret, hagree, hodp, hlinux⟩ := hab
    have hrun := ih hagree (hrest a (by rw [ha]; rfl))
    refine hrun.bind fun a' b' _ hab' => ?_
    obtain ⟨hrets, hview, hodps, hlinuxs⟩ := hab'
    refine ⟨?_, hview, ?_, ?_⟩
    · simp [hret, hrets]
    · simpa only [zip_cons_cons, forall_mem_cons] using ⟨hodp, hodps⟩
    · simpa only [zip_cons_cons, forall_mem_cons] using ⟨hlinux, hlinuxs⟩

/-- **The two implementations agree on every sequence of calls that are allowed when they are
made**, from pools of the same element sizes.  Every such call keeps `Agree`: the two memories have
the same mbufs, up to the lengths of their buffers. -/
theorem mbufs_agree (abi : Abi) (pools : Nat → MbufPool) (cs : List MbufCall)
    (h : AllowedRun abi pools {} cs) : MbufsAgree abi pools cs :=
  Agree.empty.run h

/-- Two mbufs of one pool in a chain, an mbuf that is attached, a trim, an adj and a free. -/
theorem mbufs_agree_chain :
    MbufsAgree { sizeofHandle := 8, sizeofMbuf := 56 } (fun _ =>
      { num := 4, eltSize := 120, cacheSize := 32 })
      [.alloc 0, .append ⟨0, 0⟩ 60, .alloc 0, .append ⟨0, 1⟩ 20, .addAfter ⟨0, 0⟩ ⟨0, 1⟩,
        .trim ⟨0, 0⟩ 8,
        .adj ⟨0, 0⟩ 14, .append ⟨0, 0⟩ 200, .alloc 0, .attach ⟨0, 2⟩ ⟨0, 1⟩, .free ⟨0, 0⟩,
            .refcntUpdate ⟨0, 1⟩ 1] :=
  mbufs_agree _ _ _ (by decide +kernel)

/-- Without the condition they do not: an element of 64 bytes behind the header, and 100 bytes
appended.  ODP refuses them; the simulation hands them out, and the last 36 are behind the
element. -/
theorem mbufs_disagree :
    ¬ MbufsAgree { sizeofHandle := 8, sizeofMbuf := 56 } (fun _ =>
      { num := 4, eltSize := 120, cacheSize := 32 }) [.alloc 0, .append ⟨0, 0⟩ 100] := by
  rintro ⟨hret, -⟩
  exact absurd hret (by decide +kernel)

end Trex.Pal
