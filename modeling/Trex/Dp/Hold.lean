/-
# How long a stream can hold the scheduler

What `handle_continues` and `handle_multi_burst` do with the time of a node (`trex_stream_node.h`).
A packet of a continuous stream and a packet inside a burst move the node by `m_next_time_offset`, a
new burst by the gap between bursts, and a stream that leads to itself by its gap between streams.

The times of a node that is popped over and over again therefore grow without bound when the offset
is positive and the gaps are not negative (`Rated`), but for one kind of streams: one that leads to
itself, with a single packet and no gap at all, stays at one instant.  `Advances` excludes it.
-/
import Mathlib.Algebra.Order.Archimedean.Basic
import Trex.Dp.Burst

namespace Trex.Dp

open Trex.Stream

namespace CGenNodeStateless

/-! ## 1. Rates that move a node forward -/

/-- A stream that leads to itself moves on: it has a gap between streams, or between its bursts, or
more than one packet in a burst. -/
def Advances (node : CGenNodeStateless) (info : TrexStream) : Prop :=
  0 < info.isgUsec ∨ (info.numBursts ≠ 1 ∧ 0 < node.ibgSec) ∨ node.singleBurstRefill ≠ 1

/-- The rates of the node at `p` do not move it back. -/
structure Rated (p : Ptr) (node : CGenNodeStateless) : Prop where
  offset : 0 < node.nextTimeOffset
  ibg : 0 ≤ node.ibgSec
  isg : ∀ info, node.refStreamInfo = some info → 0 ≤ info.isgUsec
  loop : node.nextStream = some p → ∀ info, node.refStreamInfo = some info → node.Advances info

/-- A node whose rates are those of another one, or that has lost its stream. -/
structure RatedAs (node node' : CGenNodeStateless) : Prop where
  offset : 0 < node.nextTimeOffset → 0 < node'.nextTimeOffset
  ibg : node'.ibgSec = node.ibgSec
  refill : node'.singleBurstRefill = node.singleBurstRefill
  info : node'.refStreamInfo = none ∨
    (node'.refStreamInfo = node.refStreamInfo ∧ node'.nextStream = node.nextStream)

theorem RatedAs.refl (node : CGenNodeStateless) :
    RatedAs node node := ⟨id, rfl, rfl, Or.inr ⟨rfl, rfl⟩⟩

theorem RatedAs.trans {node1 node2 node3 : CGenNodeStateless} (h : RatedAs node1 node2)
    (h' : RatedAs node2 node3) :
    RatedAs node1 node3 := by
  refine ⟨fun hpos => h'.offset (h.offset hpos), h'.ibg.trans h.ibg, h'.refill.trans h.refill, ?_⟩
  rcases h'.info with hnone | ⟨hinfo, hnext⟩
  · exact Or.inl hnone
  · rcases h.info with hnone | ⟨hinfo2, hnext2⟩
    · exact Or.inl (hinfo.trans hnone)
    · exact Or.inr ⟨hinfo.trans hinfo2, hnext.trans hnext2⟩

variable {node node' : CGenNodeStateless}

theorem Rated.as {p : Ptr} (h : Rated p node) (has : RatedAs node node') :
    Rated p node' := by
  refine ⟨has.offset h.offset, ?_, ?_, ?_⟩
  · rw [has.ibg]
    exact h.ibg
  · intro info hinfo
    rcases has.info with hnone | ⟨hsame, -⟩
    · rw [hnone] at hinfo
      cases hinfo
    · exact h.isg info (hsame ▸ hinfo)
  · intro hnext info hinfo
    rcases has.info with hnone | ⟨hsame, hsame'⟩
    · rw [hnone] at hinfo
      cases hinfo
    · unfold Advances
      rw [has.ibg, has.refill]
      exact h.loop (hsame' ▸ hnext) info (hsame ▸ hinfo)

theorem ratedAs_handleMultiBurst (node : CGenNodeStateless) :
    RatedAs node node.handleMultiBurst := by
  unfold handleMultiBurst
  dsimp only
  split
  · exact ⟨id, rfl, rfl, Or.inr ⟨rfl, rfl⟩⟩
  · split
    · exact ⟨id, rfl, rfl, Or.inr ⟨rfl, rfl⟩⟩
    · exact ⟨id, rfl, rfl, Or.inr ⟨rfl, rfl⟩⟩

/-- The time after a packet of a burst. -/
theorem time_handleMultiBurst (node : CGenNodeStateless) :
    node.handleMultiBurst.time =
      if node.singleBurst - 1 > 0 then node.time + node.nextTimeOffset
      else if node.multiBursts - 1 = 0 then node.time
      else node.time + node.ibgSec := by
  unfold handleMultiBurst
  dsimp only
  split
  · rfl
  · split <;> rfl

theorem time_of_last (h : node.isLastPacket = true) :
    node.handleMultiBurst.time = node.time := by
  unfold isLastPacket at h
  rw [Bool.and_eq_true, decide_eq_true_iff, decide_eq_true_iff] at h
  rw [time_handleMultiBurst, h.1, if_neg (by decide), if_pos h.2]

theorem Rated.le_handleMultiBurst {p : Ptr} (h : Rated p node) :
    node.time ≤ node.handleMultiBurst.time := by
  have hoffset := h.offset
  have hibg := h.ibg
  rw [time_handleMultiBurst]
  split
  · linarith
  · split <;> linarith

theorem usecToSec_nonneg {usec : Rat} (h : 0 ≤ usec) :
    0 ≤ usecToSec usec := div_nonneg h (by norm_num)

theorem usecToSec_pos {usec : Rat} (h : 0 < usec) : 0 < usecToSec usec := div_pos h (by norm_num)

/-! ## 2. A stream by itself -/

/-- A node that leads to itself, when it starts again. -/
def restarted (node : CGenNodeStateless) (info : TrexStream) : CGenNodeStateless :=
  (node.handleMultiBurst.refresh info).updateRefreshTime info node.handleMultiBurst.time

/-- The node at `p` when it is scheduled again after a packet, if the packet is the only thing that
happens. -/
def selfNext (p : Ptr) (node : CGenNodeStateless) : Option CGenNodeStateless :=
  match node.streamType with
  | .stCONTINUOUS => some node.handleContinues
  | .stSINGLE_BURST => none
  | .stMULTI_BURST =>
    if node.isLastPacket then
      if node.nextStream = some p then node.refStreamInfo.map node.restarted else none
    else some node.handleMultiBurst

/-- The node at `p` is popped `n` times in a row, not later than `T`. -/
def HeldFor (p : Ptr) (T : Rat) : Nat → CGenNodeStateless → Prop
  | 0, _ => True
  | n + 1, node => node.time ≤ T ∧
      (n = 0 ∨ ∃ node', selfNext p node = some node' ∧ HeldFor p T n node')

theorem ratedAs_restarted (node : CGenNodeStateless) (info : TrexStream) :
    RatedAs node (node.restarted info) :=
  (ratedAs_handleMultiBurst node).trans ⟨id, rfl, rfl, Or.inr ⟨rfl, rfl⟩⟩

theorem streamType_handleMultiBurst (node : CGenNodeStateless) :
    node.handleMultiBurst.streamType = node.streamType := by
  unfold handleMultiBurst
  dsimp only
  split
  · rfl
  · split <;> rfl

section Continuous

variable {p : Ptr} {T : Rat}

theorem heldFor_continuous {n : Nat} :
    ∀ {node : CGenNodeStateless}, node.streamType = .stCONTINUOUS →
    HeldFor p T (n + 1) node → node.time + n * node.nextTimeOffset ≤ T := by
  induction n with
  | zero =>
    intro node _ h
    have := h.1
    simpa using this
  | succ n ih =>
    intro node htype h
    obtain ⟨-, hzero | ⟨node', hnext, hheld⟩⟩ := h
    · omega
    · have hnode' : node' = node.handleContinues := by
        rw [selfNext, htype] at hnext
        exact (Option.some.inj hnext).symm
      subst hnode'
      have htype' : node.handleContinues.streamType = .stCONTINUOUS := htype
      have hle := ih htype' hheld
      have htime : node.handleContinues.time = node.time + node.nextTimeOffset := rfl
      have hoffset : node.handleContinues.nextTimeOffset = node.nextTimeOffset := rfl
      rw [htime, hoffset] at hle
      push_cast
      linarith

/-- A continuous stream moves on with every packet. -/
theorem exists_not_heldFor_continuous (hrated : Rated p node)
    (htype : node.streamType = .stCONTINUOUS) : ∃ n, ¬ HeldFor p T n node := by
  obtain ⟨n, hn⟩ := exists_nat_gt ((T - node.time) / node.nextTimeOffset)
  refine ⟨n + 1, fun h => ?_⟩
  have hle := heldFor_continuous htype h
  rw [div_lt_iff₀ hrated.offset] at hn
  linarith

end Continuous

section Bursts

variable {p : Ptr} {T : Rat} {info : TrexStream} {node : CGenNodeStateless}

/-- The node of the stream `info` at `p`, while it sends. -/
structure Sending (p : Ptr) (info : TrexStream) (node : CGenNodeStateless) : Prop where
  rated : Rated p node
  streamType : node.streamType = .stMULTI_BURST
  state : node.state = .ssACTIVE
  info : node.refStreamInfo = some info

/-- It has sent from `start` on: the time shows every packet inside a burst, and every burst. -/
structure SendingFrom (start : Rat) (info : TrexStream) (node : CGenNodeStateless) : Prop where
  le : start ≤ node.time
  packet : node.singleBurst ≠ node.singleBurstRefill → start + node.nextTimeOffset ≤ node.time
  burst : node.multiBursts ≠ info.numBursts → start + node.ibgSec ≤ node.time

/-- Every round of a node that leads to itself takes at least `δ`. -/
def Round (δ : Rat) (node : CGenNodeStateless) (info : TrexStream) : Prop :=
  0 < δ ∧ (δ ≤ usecToSec info.isgUsec ∨ (info.numBursts ≠ 1 ∧ δ ≤ node.ibgSec) ∨
    (node.singleBurstRefill ≠ 1 ∧ δ ≤ node.nextTimeOffset))

theorem Sending.exists_round (h : Sending p info node) (hloop : node.nextStream = some p) :
    ∃ δ, Round δ node info := by
  rcases h.rated.loop hloop info h.info with hisg | ⟨hnum, hibg⟩ | hrefill
  · exact ⟨_, usecToSec_pos hisg, Or.inl le_rfl⟩
  · exact ⟨_, hibg, Or.inr (Or.inl ⟨hnum, le_rfl⟩)⟩
  · exact ⟨_, h.rated.offset, Or.inr (Or.inr ⟨hrefill, le_rfl⟩)⟩

theorem Sending.handleMultiBurst (h : Sending p info node) (hlast : node.isLastPacket = false) :
    Sending p info node.handleMultiBurst := by
  have has := ratedAs_handleMultiBurst node
  refine ⟨h.rated.as has, (streamType_handleMultiBurst node).trans h.streamType, ?_, ?_⟩
  · rw [handleMultiBurst_state, hlast]
    exact h.state
  · unfold CGenNodeStateless.handleMultiBurst
    dsimp only
    split
    · exact h.info
    · split <;> exact h.info

theorem Sending.restarted (h : Sending p info node) : Sending p info (node.restarted info) := by
  have has := ratedAs_restarted node info
  refine ⟨h.rated.as has, (streamType_handleMultiBurst node).trans h.streamType, rfl, ?_⟩
  change node.handleMultiBurst.refStreamInfo = some info
  unfold CGenNodeStateless.handleMultiBurst
  dsimp only
  split
  · exact h.info
  · split <;> exact h.info

/-- What a packet that is not the last one does to the rates that `Round` reads. -/
theorem same_handleMultiBurst (node : CGenNodeStateless) :
    node.handleMultiBurst.nextTimeOffset = node.nextTimeOffset ∧
      node.handleMultiBurst.nextStream = node.nextStream := by
  unfold CGenNodeStateless.handleMultiBurst
  dsimp only
  split
  · exact ⟨rfl, rfl⟩
  · split <;> exact ⟨rfl, rfl⟩

theorem Round.as {δ : Rat} (h : Round δ node info) (has : RatedAs node node')
    (hoffset : node'.nextTimeOffset = node.nextTimeOffset) : Round δ node' info := by
  unfold Round at h ⊢
  rw [has.ibg, has.refill, hoffset]
  exact h

theorem SendingFrom.handleMultiBurst {start : Rat} (h : SendingFrom start info node)
    (hrated : Rated p node) (hlast : node.isLastPacket = false) :
    SendingFrom start info node.handleMultiBurst := by
  have hoffset := hrated.offset
  have hibg := hrated.ibg
  have hle := h.le
  unfold CGenNodeStateless.handleMultiBurst
  dsimp only
  split
  · refine ⟨?_, ?_, ?_⟩
    · dsimp only
      linarith
    · intro _
      dsimp only
      linarith
    · intro hne
      have := h.burst hne
      dsimp only
      linarith
  · rename_i hsingle
    split
    · rename_i hmulti
      -- the last packet
      unfold isLastPacket at hlast
      have hzero : node.singleBurst - 1 = 0 := by
        by_contra hne
        exact hsingle (UInt32.pos_iff_ne_zero.mpr hne)
      rw [hzero, hmulti] at hlast
      cases hlast
    · refine ⟨?_, ?_, ?_⟩
      · dsimp only
        linarith
      · intro hne
        exact absurd rfl hne
      · intro _
        dsimp only
        linarith

/-- A round is over: the node starts again later by the time of the round. -/
theorem SendingFrom.restarted {start δ : Rat} (h : SendingFrom start info node)
    (hsend : Sending p info node) (hround : Round δ node info) (hlast : node.isLastPacket = true) :
    start + δ ≤ (node.restarted info).time ∧
      SendingFrom (node.restarted info).time info (node.restarted info) := by
  have htime : (node.restarted info).time = node.time + usecToSec info.isgUsec := by
    change node.handleMultiBurst.time + _ = _
    rw [time_of_last hlast]
  have hisg := usecToSec_nonneg (hsend.rated.isg info hsend.info)
  have hle := h.le
  unfold isLastPacket at hlast
  rw [Bool.and_eq_true, decide_eq_true_iff, decide_eq_true_iff] at hlast
  have hsingle := countdown_last hlast.1
  have hmulti := countdown_last hlast.2
  refine ⟨?_, le_rfl, fun hne => absurd rfl hne, fun hne => absurd rfl hne⟩
  · rw [htime]
    rcases hround.2 with hle' | ⟨hnum, hle'⟩ | ⟨hrefill, hle'⟩
    · linarith
    · have := h.burst (by rw [hmulti]; exact hnum.symm)
      linarith
    · have := h.packet (by rw [hsingle]; exact hrefill.symm)
      linarith

/-- A node whose next state cannot be held for ever cannot be held for ever. -/
theorem exists_not_heldFor_of_next
    (h : ∀ node', selfNext p node = some node' → ∃ n, ¬ HeldFor p T n node') :
    ∃ n, ¬ HeldFor p T n node := by
  cases hnext : selfNext p node with
  | none =>
    refine ⟨2, fun hheld => ?_⟩
    obtain ⟨-, hzero | ⟨node', hsome, -⟩⟩ := hheld
    · cases hzero
    · rw [hnext] at hsome
      cases hsome
  | some node' =>
    obtain ⟨n, hn⟩ := h node' hnext
    refine ⟨n + 1, fun hheld => ?_⟩
    obtain ⟨-, rfl | ⟨node'', hsome, hheld'⟩⟩ := hheld
    · exact hn trivial
    · rw [hnext] at hsome
      cases hsome
      exact hn hheld'

/-- What comes after a packet of a burst. -/
theorem Sending.selfNext_cases (h : Sending p info node) (hnext : selfNext p node = some node') :
    (node.isLastPacket = false ∧ node' = node.handleMultiBurst) ∨
      (node.isLastPacket = true ∧ node.nextStream = some p ∧ node' = node.restarted info) := by
  rw [selfNext, h.streamType] at hnext
  dsimp only at hnext
  cases hlast : node.isLastPacket with
  | false =>
    rw [hlast, if_neg Bool.false_ne_true] at hnext
    exact Or.inl ⟨rfl, (Option.some.inj hnext).symm⟩
  | true =>
    rw [hlast, if_pos rfl] at hnext
    split at hnext
    · rename_i hloop
      rw [h.info] at hnext
      exact Or.inr ⟨rfl, hloop, (Option.some.inj hnext).symm⟩
    · cases hnext

/-- By induction on the rounds that are left, and inside of a round on the packets that are left. -/
theorem exists_not_heldFor_from {δ : Rat} (rounds : Nat) :
    ∀ {start : Rat} {node : CGenNodeStateless},
    Sending p info node → Round δ node info → SendingFrom start info node → T < start + rounds * δ →
    ∃ n, ¬ HeldFor p T n node := by
  induction rounds with
  | zero =>
    intro start node _ _ hfrom hT
    have hle := hfrom.le
    refine ⟨1, fun hheld => ?_⟩
    have := hheld.1
    push_cast at hT
    linarith
  | succ rounds ih =>
    intro start node hsend hround hfrom hT
    induction hm : node.remaining using Nat.strong_induction_on generalizing node with
    | _ m ihm =>
      refine exists_not_heldFor_of_next fun node' hnext => ?_
      rcases hsend.selfNext_cases hnext with ⟨hlast, rfl⟩ | ⟨hlast, -, rfl⟩
      · have hless := remaining_handleMultiBurst hsend.state
        exact ihm _ (by omega) (hsend.handleMultiBurst hlast)
          (hround.as (ratedAs_handleMultiBurst node) (same_handleMultiBurst node).1)
          (hfrom.handleMultiBurst hsend.rated hlast) rfl
      · obtain ⟨hlater, hfrom'⟩ := hfrom.restarted hsend hround hlast
        refine ih hsend.restarted
          (hround.as (ratedAs_restarted node info) (same_handleMultiBurst node).1) hfrom' ?_
        push_cast at hT
        linarith

/-- A node of bursts cannot be held for ever: its own bursts end, and every round takes time. -/
theorem Sending.exists_not_heldFor (h : Sending p info node) : ∃ n, ¬ HeldFor p T n node := by
  induction hm : node.remaining using Nat.strong_induction_on generalizing node with
  | _ m ihm =>
    refine exists_not_heldFor_of_next fun node' hnext => ?_
    rcases h.selfNext_cases hnext with ⟨hlast, rfl⟩ | ⟨hlast, hloop, rfl⟩
    · have hless := remaining_handleMultiBurst h.state
      exact ihm _ (by omega) (h.handleMultiBurst hlast) rfl
    · have hloop' : (node.restarted info).nextStream = some p :=
        (same_handleMultiBurst node).2.trans hloop
      obtain ⟨δ, hround⟩ := h.restarted.exists_round hloop'
      obtain ⟨rounds, hrounds⟩ := exists_nat_gt ((T - (node.restarted info).time) / δ)
      refine exists_not_heldFor_from rounds h.restarted hround
        ⟨le_rfl, fun hne => absurd rfl hne, fun hne => absurd rfl hne⟩ ?_
      rw [div_lt_iff₀ hround.1] at hrounds
      linarith

end Bursts

end CGenNodeStateless

end Trex.Dp
