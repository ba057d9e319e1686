/-
# What the RX check reports

A run in which no timer fires is a fold over the headers, and each flow sees only its own headers
(`run_quiet`, `runTable_apply`).  On one flow, `Progress` says how far the current pass over the
flow is in each direction, and `track_progress` which header comes next without an error.  From
these:

* **soundness** (`sound`): when the packets of every flow arrive once and in order, in any
  interleaving of the flows and of the two directions, there is no error and no flow is left;
* **completeness** (`complete_iff`): when there is no error and no flow is left, the ids of each
  direction were the whole flow in order, if and only if some packet was received and no packet
  opened the second direction of a flow in its middle (`BlindOpen`).
-/
import Trex.Rx.Table

namespace Trex.Rx

open Trex.Lib List
open Function (update update_of_ne update_self)

namespace RxCheckManager

/-! ## 1. Runs in which no timer fires -/

/-- The header of a packet. -/
def RxEvent.header? : RxEvent → Option CRxCheckHeader
  | .packet rxh _ => some rxh
  | .twHandle _ => none
  | .twDrain => none

/-- The headers that a run receives. -/
def headers (events : List RxEvent) : List CRxCheckHeader := events.filterMap RxEvent.header?

/-- What the table shows. -/
abbrev Flows := UInt64 → Option CRxCheckFlow

/-- A header, on the table. -/
def stepTable (T : Flows) (rxh : CRxCheckHeader) : Flows :=
  update T rxh.flowId (nextFlow (T rxh.flowId) rxh)

/-- Headers, on the table. -/
def runTable (T : Flows) (hs : List CRxCheckHeader) : Flows := hs.foldl stepTable T

/-- The errors of headers, on the table. -/
def errorsTable : Flows → List CRxCheckHeader → Nat
  | _, [] => 0
  | T, rxh :: hs => errorsOf (T rxh.flowId) rxh + errorsTable (stepTable T rxh) hs

theorem runTable_append (T : Flows) (hs hs' : List CRxCheckHeader) :
    runTable T (hs ++ hs') = runTable (runTable T hs) hs' := by
  simp [runTable]

theorem errorsTable_append (hs hs' : List CRxCheckHeader) : ∀ T : Flows,
    errorsTable T (hs ++ hs') = errorsTable T hs + errorsTable (runTable T hs) hs' := by
  induction hs with
  | nil => intro T; simp [errorsTable, runTable]
  | cons rxh hs ih =>
    intro T
    simp only [cons_append, errorsTable, ih, runTable, foldl_cons]
    omega

theorem headers_append (es es' : List RxEvent) :
    headers (es ++ es') = headers es ++ headers es' := by
  simp [headers]

variable {m m' m'' : RxCheckManager}

/-- **What a sequence of calls can do.**  A timer that fires is an error, but for a drain; when none
fires, the headers alone decide what the table shows. -/
structure Ran (m : RxCheckManager) (es : List RxEvent) (m' : RxCheckManager) : Prop where
  ok : m'.Ok none
  onDrain : m.onDrain = false → m'.onDrain = false
  fired : m.tw.stHandle ≤ m'.tw.stHandle
  errors : m.stats.getTotalErr ≤ m'.stats.getTotalErr
  counted : .twDrain ∉ es → m.onDrain = false → m.tw.stHandle < m'.tw.stHandle →
    0 < m'.stats.getTotalErr
  quiet : (∀ rxh ∈ headers es, Accepted rxh) → m'.tw.stHandle = m.tw.stHandle →
    m'.flowOf = runTable m.flowOf (headers es) ∧
      m'.stats.getTotalErr = m.stats.getTotalErr + errorsTable m.flowOf (headers es) ∧
      (errorsTable m.flowOf (headers es) = 0 → m.NoTemplateErr → m'.NoTemplateErr)

theorem Ran.refl (ok : m.Ok none) : Ran m [] m where
  ok := ok
  onDrain h := h
  fired := le_rfl
  errors := le_rfl
  counted _ _ h := absurd h (lt_irrefl _)
  quiet _ _ := ⟨rfl, rfl, fun _ h => h⟩

theorem Ran.trans {es es' : List RxEvent} (h : Ran m es m') (h' : Ran m' es' m'') :
    Ran m (es ++ es') m'' where
  ok := h'.ok
  onDrain hd := h'.onDrain (h.onDrain hd)
  fired := h.fired.trans h'.fired
  errors := h.errors.trans h'.errors
  counted hes hd hlt := by
    rw [mem_append, not_or] at hes
    by_cases hlt' : m.tw.stHandle < m'.tw.stHandle
    · exact (h.counted hes.1 hd hlt').trans_le h'.errors
    · exact h'.counted hes.2 (h.onDrain hd) (by omega)
  quiet hacc hq := by
    have h1 := h.fired
    have h2 := h'.fired
    rw [headers_append] at hacc ⊢
    obtain ⟨hf, he, ht⟩ := h.quiet (fun rxh hr => hacc rxh (mem_append_left _ hr)) (by omega)
    obtain ⟨hf', he', ht'⟩ := h'.quiet (fun rxh hr => hacc rxh (mem_append_right _ hr)) (by omega)
    rw [hf] at hf' he' ht'
    rw [runTable_append, errorsTable_append]
    refine ⟨hf', by omega, fun hz hn => ?_⟩
    exact ht' (by omega) (ht (by omega) hn)

/-- **Every call returns.** -/
theorem Ok.ran (ok : m.Ok none) (ties : Nat → Nat) (e : RxEvent) :
    ∃ m', RxCheckManager.step ties m e = .ok m' ∧ Ran m [e] m' := by
  cases e with
  | packet rxh now =>
    obtain ⟨m', hrun, hrec⟩ := ok.handlePacket ties rxh now
    refine ⟨m', hrun, hrec.ok, hrec.onDrain.trans, hrec.fired, hrec.errors, fun _ =>
      hrec.counted, ?_⟩
    intro hacc hq
    obtain ⟨hf, he, ht⟩ := hrec.quiet (hacc rxh (by simp [headers, RxEvent.header?])) hq
    exact ⟨hf, he, ht⟩
  | twHandle now =>
    have ok0 : { m with curTime := now }.Ok none := ok.of_eq rfl rfl rfl rfl rfl ok.balance
    obtain ⟨m', hrun, haged⟩ := ok0.tryHandleEvents ties now
    refine ⟨m', hrun, haged.ok, haged.onDrain.trans, haged.fired, haged.errors, fun _ =>
      haged.counted, ?_⟩
    intro _ hq
    obtain ⟨hf, hs, ht⟩ := haged.quiet hq
    exact ⟨hf, by rw [hs]; rfl, fun _ h => h.congr ht⟩
  | twDrain =>
    have ok0 : { m with onDrain := true }.Ok none := ok.of_eq rfl rfl rfl rfl rfl ok.balance
    obtain ⟨m', hrun, haged⟩ := ok0.drainAll ties
    refine ⟨{ m' with onDrain := false }, ?_, haged.ok.of_eq rfl rfl rfl rfl rfl haged.ok.balance,
      fun _ => rfl, haged.fired, haged.errors, fun h => absurd (mem_singleton_self _) h, ?_⟩
    · simp only [RxCheckManager.step, twDrain, hrun, ok_bind]
    · intro _ hq
      obtain ⟨hf, hs, ht⟩ := haged.quiet hq
      have hnil : headers [.twDrain] = [] := rfl
      rw [hnil]
      refine ⟨hf, ?_, fun _ h => NoTemplateErr.congr h ht⟩
      show m'.stats.getTotalErr = m.stats.getTotalErr + 0
      rw [hs, Nat.add_zero]

/-- **Every sequence of calls returns.** -/
theorem Ok.ranRun (ties : Nat → Nat) (es : List RxEvent) : ∀ m : RxCheckManager, m.Ok none →
    ∃ m', m.run ties es = .ok m' ∧ Ran m es m' := by
  induction es with
  | nil => exact fun m ok => ⟨m, rfl, Ran.refl ok⟩
  | cons e es ih =>
    intro m ok
    obtain ⟨m1, hstep, hran⟩ := ok.ran ties e
    obtain ⟨m', hrun, hran'⟩ := ih m1 hran.ok
    refine ⟨m', ?_, hran.trans hran'⟩
    rw [RxCheckManager.run, foldlM_cons, hstep, ok_bind]
    exact hrun

/-! ## 2. One flow at a time -/

/-- The headers of one flow, on its entry of the table. -/
def runFlow (lf : Option CRxCheckFlow) (hs : List CRxCheckHeader) : Option CRxCheckFlow :=
  hs.foldl nextFlow lf

/-- The errors of the headers of one flow. -/
def errorsFlow : Option CRxCheckFlow → List CRxCheckHeader → Nat
  | _, [] => 0
  | lf, rxh :: hs => errorsOf lf rxh + errorsFlow (nextFlow lf rxh) hs

theorem errorsFlow_append (hs hs' : List CRxCheckHeader) : ∀ lf : Option CRxCheckFlow,
    errorsFlow lf (hs ++ hs') = errorsFlow lf hs + errorsFlow (runFlow lf hs) hs' := by
  induction hs with
  | nil => intro lf; simp [errorsFlow, runFlow]
  | cons rxh hs ih =>
    intro lf
    simp only [cons_append, errorsFlow, ih, runFlow, foldl_cons]
    omega

theorem runFlow_concat (lf : Option CRxCheckFlow) (hs : List CRxCheckHeader)
    (rxh : CRxCheckHeader) :
    runFlow lf (hs ++ [rxh]) = nextFlow (runFlow lf hs) rxh := by
  simp [runFlow]

theorem errorsFlow_concat (lf : Option CRxCheckFlow) (hs : List CRxCheckHeader)
    (rxh : CRxCheckHeader) :
    errorsFlow lf (hs ++ [rxh]) = errorsFlow lf hs + errorsOf (runFlow lf hs) rxh := by
  rw [errorsFlow_append]
  rfl

/-- **A flow sees its own headers only.** -/
theorem runTable_apply (k : UInt64) (hs : List CRxCheckHeader) : ∀ T : Flows,
    runTable T hs k = runFlow (T k) (hs.filter (·.flowId == k)) := by
  induction hs with
  | nil => exact fun T => rfl
  | cons rxh hs ih =>
    intro T
    by_cases hk : rxh.flowId = k
    · subst hk
      rw [filter_cons_of_pos (by simp)]
      simp only [runTable, runFlow, foldl_cons] at ih ⊢
      rw [ih, stepTable, update_self]
    · rw [filter_cons_of_neg (by simpa using hk)]
      simp only [runTable, foldl_cons] at ih ⊢
      rw [ih, stepTable, update_of_ne (Ne.symm hk)]

/-- There is no error when no flow has one. -/
theorem errorsTable_eq_zero (hs : List CRxCheckHeader) : ∀ T : Flows,
    (∀ k, errorsFlow (T k) (hs.filter (·.flowId == k)) = 0) → errorsTable T hs = 0 := by
  induction hs with
  | nil => exact fun T _ => rfl
  | cons rxh hs ih =>
    intro T h
    have hself := h rxh.flowId
    rw [filter_cons_of_pos (by simp)] at hself
    simp only [errorsFlow] at hself
    have hrest : errorsTable (stepTable T rxh) hs = 0 := by
      refine ih _ fun k => ?_
      by_cases hk : rxh.flowId = k
      · subst hk
        rw [stepTable, update_self]
        omega
      · have := h k
        rw [filter_cons_of_neg (by simpa using hk)] at this
        rw [stepTable, update_of_ne (Ne.symm hk)]
        exact this
    simp only [errorsTable, hrest]
    omega

/-! ## 3. A pass over a flow -/

/-- Both directions of a flow have packets. -/
def bothUsed (size : Bool → UInt16) : Bool := decide (0 < size false) && decide (0 < size true)

/-- A header that was stamped for a flow with these sizes. -/
structure Stamped (fid : UInt64) (size : Bool → UInt16) (rxh : CRxCheckHeader) : Prop where
  magic : rxh.magic = rxCheckMagic
  flowId : rxh.flowId = fid
  flowSize : rxh.flowSize = size rxh.getDir
  pktId : rxh.pktId < rxh.flowSize
  bothDir : rxh.getBothDir = bothUsed size

/-- A direction after `c` packets in order. -/
def perDir (size : UInt16) (c : Nat) : CRxCheckFlowPerDir :=
  if c = 0 then {} else { flowSize := size, pkts := .ofNat c, seq := .ofNat c, fifSeen := true }

/-- A flow after `c` packets in order of each direction. -/
structure AtCount (size : Bool → UInt16) (c : Bool → Nat) (f : CRxCheckFlow) : Prop where
  ooErr : f.ooErr = 0
  bothDir : f.bothDir = bothUsed size
  dir : ∀ d, f.dir d = perDir (size d) (c d)

/-- **How far the current pass is.**  The flow is in the table when the pass has begun and is not
over. -/
structure Progress (size : Bool → UInt16) (c : Bool → Nat) (lf : Option CRxCheckFlow) : Prop where
  le : ∀ d, c d ≤ (size d).toNat
  idle : lf = none → ∀ d, c d = 0
  begun : ∀ f, lf = some f → AtCount size c f ∧ (∃ d, 0 < c d) ∧ ∃ d, c d < (size d).toNat

variable {fid : UInt64} {size : Bool → UInt16} {c : Bool → Nat} {lf : Option CRxCheckFlow}
  {f : CRxCheckFlow} {rxh : CRxCheckHeader}

theorem Progress.start : Progress size (fun _ => 0) none where
  le _ := Nat.zero_le _
  idle _ _ := rfl
  begun _ h := by cases h

theorem Stamped.accepted (h : Stamped fid size rxh) : Accepted rxh := by
  refine ⟨h.magic, ?_⟩
  have := UInt16.lt_iff_toNat_lt.mp h.pktId
  omega

/-- The pass is over when every direction is at its size. -/
theorem AtCount.isAllPktsSeen_iff (h : AtCount size c f) (hle : ∀ d, c d ≤ (size d).toNat)
    (hpos : ∃ d, 0 < c d) : f.isAllPktsSeen ↔ ∀ d, c d = (size d).toNat := by
  have hlt : ∀ d, c d < 65536 := fun d => lt_of_le_of_lt (hle d) (UInt16.toNat_lt (size d))
  have hpkts : ∀ d, ((f.dir d).pkts = (f.dir d).flowSize ↔ c d = 0 ∨ c d = (size d).toNat) := by
    intro d
    rw [h.dir d, perDir]
    split
    · rename_i h0
      simp [h0]
    · rename_i h0
      rw [← UInt16.toNat_inj, UInt16.toNat_ofNat_of_lt' (hlt d)]
      simp [h0]
  have hused : ∀ d, ((f.dir d).flowSize > 0 ↔ 0 < c d) := by
    intro d
    rw [h.dir d, perDir]
    split
    · rename_i h0
      simp [h0]
    · rename_i h0
      have hs : (0 : Nat) < (size d).toNat := by have := hle d; omega
      simp only [gt_iff_lt, UInt16.lt_iff_toNat_lt, UInt16.toNat_zero, hs, true_iff]
      omega
  simp only [CRxCheckFlow.isAllPktsSeen, CRxCheckFlow.usedDirs, hused, h.ooErr, h.bothDir, bothUsed,
    Bool.and_eq_true, beq_iff_eq, hpkts, Bool.forall_bool, and_true, decide_eq_true_eq,
    UInt16.lt_iff_toNat_lt, UInt16.toNat_zero]
  have h0 := hle false
  have h1 := hle true
  obtain ⟨d, hd⟩ := hpos
  cases d <;> split_ifs <;> omega

/-- The counts after a packet of a direction. -/
def count1 (c : Bool → Nat) (d : Bool) : Bool → Nat := update c d (c d + 1)

theorem perDir_zero (n : UInt16) : perDir n 0 = {} := if_pos rfl

theorem perDir_one (n : UInt16) : perDir n 1 = CRxCheckFlowPerDir.setFifSeen n := rfl

theorem perDir_pos (n : UInt16) {k : Nat} (h : 0 < k) :
    perDir n k = { flowSize := n, pkts := .ofNat k, seq := .ofNat k, fifSeen := true } :=
  if_neg (Nat.pos_iff_ne_zero.mp h)

/-- A direction that is written, in a flow that is counted. -/
theorem AtCount.setDir (h : AtCount size c f) (d : Bool) :
    AtCount size (count1 c d) (f.setDir d (perDir (size d) (c d + 1))) where
  ooErr := h.ooErr
  bothDir := h.bothDir
  dir d' := by
    by_cases hd : d' = d
    · subst hd
      simp [CRxCheckFlow.setDir, count1]
    · simpa [CRxCheckFlow.setDir, count1, hd] using h.dir d'

theorem Stamped.opened (hs : Stamped fid size rxh) :
    AtCount size (count1 (fun _ => 0) rxh.getDir) (CRxCheckFlow.opened rxh) := by
  have h0 : AtCount size (fun _ => 0) { flowId := rxh.flowId, bothDir := rxh.getBothDir } :=
    ⟨rfl, hs.bothDir, fun d => (perDir_zero _).symm⟩
  have h1 := h0.setDir rxh.getDir
  rwa [perDir_one, ← hs.flowSize] at h1

/-- Which header comes next without an error, on a flow that is not in the table. -/
theorem track_idle (hs : Stamped fid size rxh) :
    (errorsOf none rxh = 0 ↔ rxh.pktId = 0) ∧
      (errorsOf none rxh = 0 →
          AtCount size (count1 (fun _ => 0) rxh.getDir) (track {} none rxh).1) := by
  simp only [errorsOf, track, CRxCheckHeader.isFifDir, CRxCheckFlowTableStats.getTotalErr]
  by_cases hfif : rxh.pktId = 0
  · simp [hfif, hs.opened]
  · simp [hfif]

/-- Which header comes next without an error, on a flow of the table: the next one of its direction,
or any one of a direction that has not begun. -/
theorem track_begun (h : AtCount size c f) (hle : ∀ d, c d ≤ (size d).toNat)
    (hs : Stamped fid size rxh) :
    (errorsOf (some f) rxh = 0 ↔ rxh.pktId.toNat = c rxh.getDir ∨ c rxh.getDir = 0) ∧
      (errorsOf (some f) rxh = 0 →
          AtCount size (count1 c rxh.getDir) (track {} (some f) rxh).1) := by
  have hdir := h.dir rxh.getDir
  have hset := h.setDir rxh.getDir
  have hsize := hs.flowSize
  have hlt : c rxh.getDir < 65536 := lt_of_le_of_lt (hle _) (UInt16.toNat_lt _)
  rcases Nat.eq_zero_or_pos (c rxh.getDir) with h0 | hpos
  · -- the direction has not begun: both branches start it
    rw [h0, perDir_zero] at hdir
    rw [h0, Nat.zero_add, perDir_one, ← hsize] at hset
    simp only [errorsOf, track, trackFif, trackNext, hdir, CRxCheckFlowTableStats.getTotalErr, h0]
    cases rxh.isFifDir <;> simp [hset]
  · rw [perDir_pos _ hpos] at hdir
    have hseq : (UInt16.ofNat (c rxh.getDir) = rxh.pktId ↔ rxh.pktId.toNat = c rxh.getDir) := by
      rw [← UInt16.toNat_inj, UInt16.toNat_ofNat_of_lt' hlt]
      exact eq_comm
    by_cases hfif : rxh.pktId = 0
    · -- the first packet of a direction that has begun
      have herr : errorsOf (some f) rxh ≠ 0 := by
        simp [errorsOf, track, trackFif, CRxCheckHeader.isFifDir, hfif, hdir, hsize,
          CRxCheckFlowTableStats.getTotalErr]
      refine ⟨iff_of_false herr ?_, fun h => absurd h herr⟩
      rw [hfif, UInt16.toNat_zero]
      omega
    · by_cases hnext : rxh.pktId.toNat = c rxh.getDir
      · have hseq' := hseq.mpr hnext
        have hwrite : perDir (size rxh.getDir) (c rxh.getDir + 1) =
            { flowSize := size rxh.getDir, pkts := UInt16.ofNat (c rxh.getDir) + 1,
              seq := rxh.pktId + 1, fifSeen := true } := by
          rw [perDir_pos _ (by omega), ← hseq', UInt16.ofNat_add]
          rfl
        have htrack : (track {} (some f) rxh).1 =
            f.setDir rxh.getDir (perDir (size rxh.getDir) (c rxh.getDir + 1)) := by
          simp [track, trackNext, CRxCheckHeader.isFifDir, hfif, hdir, hsize, hseq', hwrite]
        have herr : errorsOf (some f) rxh = 0 := by
          simp [errorsOf, track, trackNext, CRxCheckHeader.isFifDir, hfif, hdir, hsize, hseq',
            CRxCheckFlowTableStats.getTotalErr]
        exact ⟨iff_of_true herr (Or.inl hnext), fun _ => htrack ▸ hset⟩
      · have herr : errorsOf (some f) rxh ≠ 0 := by
          have hne := mt hseq.mp hnext
          simp only [errorsOf, track, trackNext, CRxCheckHeader.isFifDir, hdir, hsize,
            CRxCheckFlowTableStats.getTotalErr]
          split_ifs <;> simp_all
        exact ⟨iff_of_false herr (by omega), fun h => absurd h herr⟩

/-- A header that was not the first of its direction opened the direction, in a flow of the
table. -/
def BlindOpen (lf : Option CRxCheckFlow) (rxh : CRxCheckHeader) : Prop :=
  rxh.pktId ≠ 0 ∧ ∃ f, lf = some f ∧ (f.dir rxh.getDir).fifSeen = false

/-- **A header without an error moves its direction by one.**  When that ends the pass, the flow
leaves the table. -/
theorem Progress.next (hp : Progress size c lf) (hs : Stamped fid size rxh)
    (herr : errorsOf lf rxh = 0) :
    c rxh.getDir < (size rxh.getDir).toNat ∧
      (¬ BlindOpen lf rxh ↔ rxh.pktId.toNat = c rxh.getDir) ∧
      ((nextFlow lf rxh = none ∧ ∀ d, count1 c rxh.getDir d = (size d).toNat) ∨
        (nextFlow lf rxh ≠ none ∧ Progress size (count1 c rxh.getDir) (nextFlow lf rxh))) := by
  have hid : rxh.pktId.toNat < (size rxh.getDir).toNat := by
    have := UInt16.lt_iff_toNat_lt.mp hs.pktId
    rwa [hs.flowSize] at this
  have key : (c rxh.getDir < (size rxh.getDir).toNat) ∧
      (¬ BlindOpen lf rxh ↔ rxh.pktId.toNat = c rxh.getDir) ∧
      AtCount size (count1 c rxh.getDir) (track {} lf rxh).1 := by
    cases lf with
    | none =>
      obtain ⟨hiff, hcount⟩ := track_idle hs
      have hc : c = fun _ => 0 := funext (hp.idle rfl)
      have h0 := hiff.mp herr
      refine ⟨?_, ?_, hc ▸ hcount herr⟩
      · rw [hp.idle rfl]
        omega
      · simp [BlindOpen, h0, hc]
    | some f =>
      obtain ⟨hat, -⟩ := hp.begun f rfl
      obtain ⟨hiff, hcount⟩ := track_begun hat hp.le hs
      refine ⟨?_, ?_, hcount herr⟩
      · rcases hiff.mp herr with h | h <;> omega
      · have hseen : (f.dir rxh.getDir).fifSeen = false ↔ c rxh.getDir = 0 := by
          rw [hat.dir, perDir]
          split <;> simp_all
        have hzero : rxh.pktId = 0 ↔ rxh.pktId.toNat = 0 := by
          rw [← UInt16.toNat_inj, UInt16.toNat_zero]
        simp only [BlindOpen, Option.some.injEq, exists_eq_left', hseen, ne_eq, hzero]
        rcases hiff.mp herr with h | h <;> omega
  obtain ⟨hlt, hblind, hat⟩ := key
  have hle : ∀ d, count1 c rxh.getDir d ≤ (size d).toNat := by
    intro d
    by_cases hd : d = rxh.getDir
    · subst hd
      simpa [count1] using Nat.succ_le_of_lt hlt
    · simpa [count1, hd] using hp.le d
  have hpos : ∃ d, 0 < count1 c rxh.getDir d := ⟨rxh.getDir, by simp [count1]⟩
  have hall := hat.isAllPktsSeen_iff hle hpos
  refine ⟨hlt, hblind, ?_⟩
  unfold nextFlow
  dsimp only
  split
  · rename_i hdone
    exact Or.inl ⟨rfl, hall.mp hdone⟩
  · rename_i hmore
    refine Or.inr ⟨by simp, hle, (fun h => by cases h), ?_⟩
    intro f' hf'
    cases hf'
    obtain ⟨d, hd⟩ := not_forall.mp (mt hall.mpr hmore)
    exact ⟨hat, hpos, d, lt_of_le_of_ne (hle d) hd⟩

/-- The packet that is next in order is no error. -/
theorem Progress.errorsOf_eq_zero (hp : Progress size c lf) (hs : Stamped fid size rxh)
    (hid : rxh.pktId.toNat = c rxh.getDir) : errorsOf lf rxh = 0 := by
  cases lf with
  | none =>
    refine (track_idle hs).1.mpr ?_
    rw [← UInt16.toNat_inj, hid, hp.idle rfl]
    rfl
  | some f => exact (track_begun (hp.begun f rfl).1 hp.le hs).1.mpr (Or.inl hid)

/-! ## 4. Soundness -/

/-- The ids that were received in one direction. -/
def ids (d : Bool) (hs : List CRxCheckHeader) : List Nat :=
  (hs.filter (·.getDir == d)).map (·.pktId.toNat)

theorem ids_concat (hs : List CRxCheckHeader) (rxh : CRxCheckHeader) (d : Bool) :
    ids d (hs ++ [rxh]) = ids d hs ++ if rxh.getDir = d then [rxh.pktId.toNat] else [] := by
  unfold ids
  by_cases hd : rxh.getDir = d <;> simp [hd]

/-- The number of ids is what is counted. -/
theorem length_ids_concat (hs : List CRxCheckHeader) (rxh : CRxCheckHeader) :
    (fun d => (ids d (hs ++ [rxh])).length) = count1 (fun d => (ids d hs).length) rxh.getDir := by
  funext d
  rw [ids_concat]
  by_cases hd : d = rxh.getDir
  · subst hd
    simp [count1]
  · simp [count1, hd, Ne.symm hd]

/-- **A flow whose packets arrive in order has no error**, and leaves the table when all have
arrived. -/
theorem flow_in_order (hs : List CRxCheckHeader) (hst : ∀ rxh ∈ hs, Stamped fid size rxh)
    (hord : ∀ d, ids d hs <+: List.range (size d).toNat) :
    errorsFlow none hs = 0 ∧
      (Progress size (fun d => (ids d hs).length) (runFlow none hs) ∨
        (runFlow none hs = none ∧ ∀ d, (ids d hs).length = (size d).toNat)) := by
  induction hs using List.reverseRecOn with
  | nil => exact ⟨rfl, Or.inl Progress.start⟩
  | append_singleton hs rxh ih =>
    have hst' : ∀ r ∈ hs, Stamped fid size r := fun r hr => hst r (mem_append_left _ hr)
    have hself : Stamped fid size rxh := hst rxh (by simp)
    have hpre : ∀ d, ids d hs <+: List.range (size d).toNat := by
      intro d
      have := hord d
      rw [ids_concat] at this
      exact (prefix_append _ _).trans this
    obtain ⟨herr, hrun⟩ := ih hst' hpre
    -- the id of the new packet is the number of ids before it
    have hnext : (ids rxh.getDir hs).length < (size rxh.getDir).toNat ∧
        rxh.pktId.toNat = (ids rxh.getDir hs).length := by
      have h := hord rxh.getDir
      rw [ids_concat, if_pos rfl] at h
      have hlen := h.length_le
      simp only [length_append, length_range, length_cons, length_nil] at hlen
      have hget := h.getElem (i := (ids rxh.getDir hs).length) (by simp)
      exact ⟨by omega, by simpa using hget⟩
    rcases hrun with hp | ⟨-, hall⟩
    · have hzero := hp.errorsOf_eq_zero hself hnext.2
      obtain ⟨-, -, hcase⟩ := hp.next hself hzero
      rw [errorsFlow_concat, runFlow_concat, herr, hzero, length_ids_concat]
      refine ⟨rfl, ?_⟩
      rcases hcase with ⟨hnone, hall⟩ | ⟨-, hp'⟩
      · refine Or.inr ⟨hnone, fun d => ?_⟩
        rw [← hall d, ← length_ids_concat]
      · exact Or.inl hp'
    · have := hall rxh.getDir
      omega

/-- The sizes of the flows: 0 for a direction that a flow does not use. -/
abbrev Sizes := UInt64 → Bool → UInt16

/-- **Flows that arrive in order**: no header is an error, and no flow is left in the table. -/
theorem table_in_order (sizes : Sizes) (hs : List CRxCheckHeader)
    (hst : ∀ rxh ∈ hs, Stamped rxh.flowId (sizes rxh.flowId) rxh)
    (hids : ∀ k d, ids d (hs.filter (·.flowId == k)) = List.range (sizes k d).toNat) :
    errorsTable (fun _ => none) hs = 0 ∧ ∀ k, runTable (fun _ => none) hs k = none := by
  have hflows : ∀ k, errorsFlow none (hs.filter (·.flowId == k)) = 0 ∧
      runFlow none (hs.filter (·.flowId == k)) = none := by
    intro k
    have hstk : ∀ rxh ∈ hs.filter (·.flowId == k), Stamped k (sizes k) rxh := by
      intro rxh hr
      obtain ⟨hmem, hk⟩ := mem_filter.mp hr
      have hk' : rxh.flowId = k := by simpa using hk
      exact hk' ▸ hst rxh hmem
    obtain ⟨he, hend⟩ := flow_in_order _ hstk fun d => (hids k d) ▸ prefix_refl _
    refine ⟨he, ?_⟩
    rcases hend with hp | ⟨hnone, -⟩
    · by_contra hne
      obtain ⟨f, hf⟩ := Option.ne_none_iff_exists'.mp hne
      obtain ⟨-, -, d, hd⟩ := hp.begun f hf
      rw [hids, length_range] at hd
      omega
    · exact hnone
  refine ⟨errorsTable_eq_zero _ _ fun k => (hflows k).1, fun k => ?_⟩
  rw [runTable_apply]
  exact (hflows k).2

/-- **A run in which no timer fires, whose headers are no errors and leave no flow.** -/
theorem Ran.clean {es : List RxEvent} {m : RxCheckManager} (h : Ran create es m)
    (hq : m.tw.stHandle = 0) (hacc : ∀ rxh ∈ headers es, Accepted rxh)
    (hzero : errorsTable (fun _ => none) (headers es) = 0)
    (hnone : ∀ k, runTable (fun _ => none) (headers es) k = none) :
    m.stats.getTotalErr = 0 ∧ m.NoTemplateErr ∧ m.count = 0 := by
  obtain ⟨hflow, herr, htemplate⟩ := h.quiet hacc hq
  have hstart : create.flowOf = fun _ => none := rfl
  rw [hstart] at hflow herr htemplate
  have hempty : m.ft.keys = [] := by
    refine eq_nil_iff_forall_not_mem.mpr fun k hk => ?_
    rw [← AList.mem_keys, ← AList.lookup_isSome] at hk
    obtain ⟨p, hp⟩ := Option.isSome_iff_exists.mp hk
    obtain ⟨lf, hlf, -⟩ := h.ok.find hp
    have hk' : m.flowOf k = none := by rw [hflow]; exact hnone k
    simp [flowOf, hp, hlf] at hk'
  refine ⟨?_, htemplate hzero fun _ => rfl, by rw [count, hempty]; rfl⟩
  rw [herr, hzero]
  rfl

/-- **Soundness of the RX check.**  Whatever flows there are, and however their packets and
directions are interleaved: when the packets of each direction arrive once and in order, and no
timer fires, no error is reported, for the table or for a template, and no flow is left in the
table. -/
theorem sound (ties : Nat → Nat) (sizes : Sizes) (events : List RxEvent)
    (hst : ∀ rxh ∈ headers events, Stamped rxh.flowId (sizes rxh.flowId) rxh)
    (hids : ∀ k d, ids d ((headers events).filter (·.flowId == k)) = List.range (sizes k d).toNat) :
    ∃ m, create.run ties events = .ok m ∧
      (m.tw.stHandle = 0 → m.stats.getTotalErr = 0 ∧ m.NoTemplateErr ∧ m.count = 0) := by
  obtain ⟨m, hrun, hran⟩ := Ok.ranRun ties events create create_ok
  obtain ⟨hzero, hnone⟩ := table_in_order sizes (headers events) hst hids
  exact ⟨m, hrun, fun hq => hran.clean hq (fun rxh hr => (hst rxh hr).accepted) hzero hnone⟩

/-- Two flows at once: a packet each way for one, with a flow of one packet between them. -/
def twoFlows : List RxEvent :=
  [.packet { magic := rxCheckMagic, flowId := 7, pktId := 0, flowSize := 2, flags := 2 } 1,
    .packet { magic := rxCheckMagic, flowId := 9, pktId := 0, flowSize := 1, flags := 1 } 2,
    .packet { magic := rxCheckMagic, flowId := 7, pktId := 0, flowSize := 1, flags := 3 } 3,
    .twHandle 4,
    .packet { magic := rxCheckMagic, flowId := 7, pktId := 1, flowSize := 2, flags := 2 } 5]

def twoFlowsSizes : Sizes := fun k d =>
  if k = 7 then (if d then 1 else 2) else if k = 9 then (if d then 1 else 0) else 0

theorem sound_twoFlows : ∃ m, create.run id twoFlows = .ok m ∧ m.tw.stHandle = 0 ∧
    m.stats.getTotalErr = 0 ∧ m.count = 0 ∧ m.stats.add = 2 := by
  have hst : ∀ rxh ∈ headers twoFlows, Stamped rxh.flowId (twoFlowsSizes rxh.flowId) rxh := by
    intro rxh hr
    simp only [headers, twoFlows, filterMap_cons, RxEvent.header?, filterMap_nil, mem_cons,
      not_mem_nil, or_false] at hr
    rcases hr with rfl | rfl | rfl | rfl <;> exact ⟨rfl, rfl, rfl, by decide, by decide⟩
  have hids : ∀ k d, ids d ((headers twoFlows).filter (·.flowId == k)) =
      List.range (twoFlowsSizes k d).toNat := by
    intro k d
    by_cases h7 : k = 7
    · subst h7
      cases d <;> rfl
    · by_cases h9 : k = 9
      · subst h9
        cases d <;> rfl
      · have hnil : (headers twoFlows).filter (·.flowId == k) = [] := by
          simp [headers, twoFlows, RxEvent.header?, Ne.symm h7, Ne.symm h9]
        rw [hnil]
        simp [ids, twoFlowsSizes, h7, h9]
  obtain ⟨m, hrun, hsound⟩ := sound id twoFlowsSizes twoFlows hst hids
  have heval : (create.run id twoFlows).map (fun m => (m.tw.stHandle, m.stats.add)) =
      .ok (0, 2) := by
    decide +kernel
  rw [hrun] at heval
  have heval' : (m.tw.stHandle, m.stats.add) = (0, 2) := Except.ok.inj heval
  obtain ⟨herr, -, hcount⟩ := hsound (congrArg Prod.fst heval')
  exact ⟨m, hrun, congrArg Prod.fst heval', herr, hcount, congrArg Prod.snd heval'⟩

/-! ## 5. Completeness -/

/-- Ids that start again at 0 after every `n`. -/
def Cyclic (n : Nat) (l : List Nat) : Prop := l = (List.range l.length).map (· % n)

theorem cyclic_concat (n : Nat) (l : List Nat) (x : Nat) :
    Cyclic n (l ++ [x]) ↔ Cyclic n l ∧ x = l.length % n := by
  unfold Cyclic
  rw [length_append, length_singleton, range_succ, map_append]
  constructor
  · intro h
    obtain ⟨h1, h2⟩ := append_inj h (by simp)
    exact ⟨h1, by simpa using h2⟩
  · rintro ⟨h1, rfl⟩
    rw [← h1]
    rfl

/-- A whole number of passes. -/
theorem flatten_replicate_range (n k : Nat) :
    (List.replicate k (List.range n)).flatten = (List.range (k * n)).map (· % n) := by
  induction k with
  | zero => simp
  | succ k ih =>
    have hlast : (List.range n).map ((· % n) ∘ (k * n + ·)) = List.range n := by
      conv_rhs => rw [← map_id (List.range n)]
      refine map_congr_left fun i hi => ?_
      have hi' := mem_range.mp hi
      simp [Nat.mod_eq_of_lt hi']
    rw [replicate_succ', flatten_append, ih, Nat.succ_mul, range_add, map_append,
      map_map, hlast]
    simp

theorem eq_flatten_iff {n k : Nat} {l : List Nat} (hlen : l.length = k * n) :
    l = (List.replicate k (List.range n)).flatten ↔ Cyclic n l := by
  rw [flatten_replicate_range, Cyclic, hlen]

/-- No header of a flow opens a direction in its middle. -/
def NoBlindFlow : Option CRxCheckFlow → List CRxCheckHeader → Prop
  | _, [] => True
  | lf, rxh :: hs => ¬ BlindOpen lf rxh ∧ NoBlindFlow (nextFlow lf rxh) hs

theorem noBlindFlow_concat (hs : List CRxCheckHeader) (rxh : CRxCheckHeader) :
    ∀ lf : Option CRxCheckFlow,
      NoBlindFlow lf (hs ++ [rxh]) ↔ NoBlindFlow lf hs ∧ ¬ BlindOpen (runFlow lf hs) rxh := by
  induction hs with
  | nil => intro lf; simp [NoBlindFlow, runFlow]
  | cons r hs ih =>
    intro lf
    simp [NoBlindFlow, ih, runFlow, and_assoc]

/-- **The history of a flow without errors.**  There were `k` whole passes and part of another, and
the ids were in order in all of them exactly when no direction was opened in its middle. -/
theorem flow_history (hs : List CRxCheckHeader) (hst : ∀ rxh ∈ hs, Stamped fid size rxh)
    (herr : errorsFlow none hs = 0) :
    ∃ (c : Bool → Nat) (k : Nat), Progress size c (runFlow none hs) ∧
      (∀ d, (ids d hs).length = k * (size d).toNat + c d) ∧
      (NoBlindFlow none hs ↔ ∀ d, Cyclic (size d).toNat (ids d hs)) := by
  induction hs using List.reverseRecOn with
  | nil => exact ⟨fun _ => 0, 0, Progress.start,
      fun d => by simp [ids], by simp [NoBlindFlow, Cyclic, ids]⟩
  | append_singleton hs rxh ih =>
    have hself : Stamped fid size rxh := hst rxh (by simp)
    rw [errorsFlow_concat] at herr
    obtain ⟨c, k, hp, hlen, hblind⟩ := ih (fun r hr => hst r (mem_append_left _ hr)) (by omega)
    obtain ⟨hlt, hnext, hcase⟩ := hp.next hself (by omega)
    have hmod : (ids rxh.getDir hs).length % (size rxh.getDir).toNat = c rxh.getDir := by
      rw [hlen, Nat.mul_add_mod', Nat.mod_eq_of_lt hlt]
    have hcyclic : (NoBlindFlow none (hs ++ [rxh]) ↔
        ∀ d, Cyclic (size d).toNat (ids d (hs ++ [rxh]))) := by
      rw [noBlindFlow_concat, hblind, hnext]
      constructor
      · rintro ⟨hall, hid⟩ d
        rw [ids_concat]
        by_cases hd : rxh.getDir = d
        · subst hd
          rw [if_pos rfl, cyclic_concat]
          exact ⟨hall _, hid.trans hmod.symm⟩
        · rw [if_neg hd, append_nil]
          exact hall d
      · intro hall
        refine ⟨fun d => ?_, ?_⟩
        · have h := hall d
          rw [ids_concat] at h
          by_cases hd : rxh.getDir = d
          · rw [if_pos hd, cyclic_concat] at h
            exact h.1
          · rwa [if_neg hd, append_nil] at h
        · have h := hall rxh.getDir
          rw [ids_concat, if_pos rfl, cyclic_concat, hmod] at h
          exact h.2
    have hlen' : ∀ d, (ids d (hs ++ [rxh])).length = k * (size d).toNat +
        count1 c rxh.getDir d := by
      intro d
      rw [ids_concat, length_append, hlen]
      by_cases hd : rxh.getDir = d
      · subst hd
        simp [count1, Nat.add_assoc]
      · simp [count1, hd, Ne.symm hd]
    rw [runFlow_concat]
    rcases hcase with ⟨hnone, hall⟩ | ⟨-, hp'⟩
    · -- the pass is over
      rw [hnone]
      refine ⟨fun _ => 0, k + 1, Progress.start, fun d => ?_, hcyclic⟩
      rw [hlen' d, hall d, Nat.succ_mul, Nat.add_zero]
    · exact ⟨count1 c rxh.getDir, k, hp', hlen', hcyclic⟩

/-- No packet of a run opens a direction of a flow in its middle: the branch of `handle_packet` for
a packet that is not the first, on a flow of the table whose direction has not begun, is not
taken. -/
def NoBlindOpen (ties : Nat → Nat) : RxCheckManager → List RxEvent → Prop
  | _, [] => True
  | m, e :: es => (∀ rxh ∈ e.header?, ¬ BlindOpen (m.flowOf rxh.flowId) rxh) ∧
      ∀ m', step ties m e = .ok m' → NoBlindOpen ties m' es

/-- When no timer fires, the branches that a run takes are those of its headers. -/
theorem noBlindOpen_iff (ties : Nat → Nat) (es : List RxEvent)
    (hst : ∀ rxh ∈ headers es, Stamped fid size rxh) : ∀ m m' : RxCheckManager, m.Ok none →
    m.run ties es = .ok m' → m'.tw.stHandle = m.tw.stHandle →
    (NoBlindOpen ties m es ↔ NoBlindFlow (m.flowOf fid) (headers es)) := by
  induction es with
  | nil => exact fun m m' _ _ _ => Iff.rfl
  | cons e es ih =>
    intro m m' ok hrun hq
    obtain ⟨m1, hstep, hran⟩ := ok.ran ties e
    rw [RxCheckManager.run, foldlM_cons, hstep, ok_bind] at hrun
    obtain ⟨m2, hrun2, hran2⟩ := Ok.ranRun ties es m1 hran.ok
    have heq : m2 = m' := Except.ok.inj (hrun2.symm.trans hrun)
    subst heq
    have h1 := hran.fired
    have h2 := hran2.fired
    have hcons : headers (e :: es) = headers [e] ++ headers es := headers_append [e] es
    rw [hcons] at hst
    have hst2 : ∀ rxh ∈ headers es, Stamped fid size rxh :=
      fun r hr => hst r (mem_append_right _ hr)
    obtain ⟨hflow, -, -⟩ := hran.quiet
      (fun rxh hr => (hst rxh (mem_append_left _ hr)).accepted) (by omega)
    have hrest := ih hst2 m1 m2 hran.ok hrun (by omega)
    have hnext : (∀ m'', step ties m e = .ok m'' → NoBlindOpen ties m'' es) ↔
        NoBlindOpen ties m1 es := by
      rw [hstep]
      exact ⟨fun h => h m1 rfl, fun h m'' heq => Except.ok.inj heq ▸ h⟩
    rw [NoBlindOpen, hnext, hrest, hflow, hcons]
    cases e with
    | packet rxh now =>
      have hid : rxh.flowId = fid := (hst rxh (by simp [headers, RxEvent.header?])).flowId
      subst hid
      simp [headers, RxEvent.header?, NoBlindFlow, runTable, stepTable]
    | twHandle now =>
      have hnil : headers [.twHandle now] = [] := rfl
      simp [hnil, RxEvent.header?, runTable]
    | twDrain =>
      have hnil : headers [.twDrain] = [] := rfl
      simp [hnil, RxEvent.header?, runTable]

/-- The errors of a run with one flow. -/
theorem errorsTable_single (hs : List CRxCheckHeader) (hst : ∀ rxh ∈ hs, Stamped fid size rxh) :
    ∀ T : Flows, errorsTable T hs = errorsFlow (T fid) hs := by
  induction hs with
  | nil => exact fun T => rfl
  | cons rxh hs ih =>
    intro T
    have hid := (hst rxh mem_cons_self).flowId
    simp [errorsTable, errorsFlow, ih (fun r hr => hst r (mem_cons_of_mem _ hr)), stepTable, hid]

/-- **Completeness of the RX check.**  One flow, received with any drops, duplicates and
reorderings, and aged at any times: when every flow has ended and no error was counted, the ids of
each direction were the whole flow in order, once or more, if and only if a packet was received and
no packet opened a direction in its middle. -/
theorem complete_iff (ties : Nat → Nat) (fid : UInt64) (size : Bool → UInt16)
    (hused : ∃ d, 0 < size d) (events : List RxEvent)
    (hst : ∀ rxh ∈ headers events, Stamped fid size rxh) (hdrain : .twDrain ∉ events)
    (m : RxCheckManager) (hrun : create.run ties events = .ok m) (hend : m.count = 0)
    (herr : m.stats.getTotalErr = 0) :
    (∃ k, 0 < k ∧ ∀ d, ids d (headers events) =
      (List.replicate k (List.range (size d).toNat)).flatten) ↔
      headers events ≠ [] ∧ NoBlindOpen ties create events := by
  obtain ⟨m', hrun', hran⟩ := Ok.ranRun ties events create create_ok
  have heq : m' = m := Except.ok.inj (hrun'.symm.trans hrun)
  subst heq
  -- a timer that fires is an error
  have hquiet : m'.tw.stHandle = create.tw.stHandle := by
    by_contra hne
    have hpos := hran.counted hdrain rfl (lt_of_le_of_ne hran.fired (Ne.symm hne))
    omega
  obtain ⟨hflow, herrs, -⟩ := hran.quiet (fun rxh hr => (hst rxh hr).accepted) hquiet
  have hzero : errorsFlow none (headers events) = 0 := by
    have h := errorsTable_single (headers events) hst create.flowOf
    have h' : errorsTable create.flowOf (headers events) = 0 := by omega
    exact h.symm.trans h'
  obtain ⟨c, k, hp, hlen, hblind⟩ := flow_history (headers events) hst hzero
  have hnone : runFlow none (headers events) = none := by
    have hfilter : (headers events).filter (·.flowId == fid) = headers events :=
      filter_eq_self.mpr fun rxh hr => by simpa using (hst rxh hr).flowId
    have hk := congrFun hflow fid
    rw [runTable_apply, hfilter] at hk
    have hempty : m'.ft.lookup fid = none := by
      refine AList.lookup_eq_none.mpr fun hmem => ?_
      rw [AList.mem_keys, length_eq_zero_iff.mp hend] at hmem
      exact absurd hmem (not_mem_nil)
    have hview : m'.flowOf fid = none := by simp [flowOf, hempty]
    exact hk.symm.trans hview
  have hlen' : ∀ d, (ids d (headers events)).length = k * (size d).toNat := by
    intro d
    rw [hlen, hp.idle hnone, Nat.add_zero]
  obtain ⟨d0, hd0⟩ := hused
  have hpos : 0 < (size d0).toNat := by simpa [UInt16.lt_iff_toNat_lt] using hd0
  rw [noBlindOpen_iff ties events hst create m' create_ok hrun hquiet]
  show _ ↔ _ ∧ NoBlindFlow none (headers events)
  rw [hblind]
  constructor
  · rintro ⟨k', hk', hall⟩
    have hlast : k = k' := by
      have h := hlen' d0
      rw [hall d0, flatten_replicate_range, length_map, length_range] at h
      exact (Nat.eq_of_mul_eq_mul_right hpos h).symm
    subst hlast
    refine ⟨fun hnil => ?_, fun d => (eq_flatten_iff (hlen' d)).mp (hall d)⟩
    have h := hlen' d0
    rw [hnil] at h
    exact absurd h (Nat.mul_pos hk' hpos).ne
  · rintro ⟨hne, hall⟩
    refine ⟨k, ?_, fun d => (eq_flatten_iff (hlen' d)).mpr (hall d)⟩
    rcases Nat.eq_zero_or_pos k with hk | hk
    · obtain ⟨rxh, hr⟩ := exists_mem_of_ne_nil _ hne
      have hmem : rxh.pktId.toNat ∈ ids rxh.getDir (headers events) :=
        mem_map_of_mem (mem_filter.mpr ⟨hr, by simp⟩)
      have h := hlen' rxh.getDir
      rw [hk, Nat.zero_mul] at h
      exact absurd hmem (by rw [length_eq_zero_iff.mp h]; exact not_mem_nil)
    · exact hk

/-- The packets of a flow of two packets one way and one the other. -/
def onePass : List RxEvent :=
  [.packet { magic := rxCheckMagic, flowId := 7, pktId := 0, flowSize := 2, flags := 2 } 1,
    .packet { magic := rxCheckMagic, flowId := 7, pktId := 0, flowSize := 1, flags := 3 } 2,
    .packet { magic := rxCheckMagic, flowId := 7, pktId := 1, flowSize := 2, flags := 2 } 3]

theorem complete_iff_onePass : ∃ m, create.run id onePass = .ok m ∧ m.count = 0 ∧
    m.stats.getTotalErr = 0 ∧ NoBlindOpen id create onePass := by
  obtain ⟨m, hrun, -⟩ := Ok.ranRun id onePass create create_ok
  have heval : (create.run id onePass).map (fun m => (m.count, m.stats.getTotalErr)) =
      .ok (0, 0) := by
    decide +kernel
  rw [hrun] at heval
  have heval' : (m.count, m.stats.getTotalErr) = (0, 0) := Except.ok.inj heval
  have hcount : m.count = 0 := congrArg Prod.fst heval'
  have herr : m.stats.getTotalErr = 0 := congrArg Prod.snd heval'
  have hst : ∀ rxh ∈ headers onePass, Stamped 7 (fun d => if d then 1 else 2) rxh := by
    intro rxh hr
    simp only [headers, onePass, filterMap_cons, RxEvent.header?, filterMap_nil, mem_cons,
      not_mem_nil, or_false] at hr
    rcases hr with rfl | rfl | rfl <;> exact ⟨rfl, rfl, rfl, by decide, by decide⟩
  have h := complete_iff id 7 (fun d => if d then 1 else 2) ⟨true, by decide⟩ onePass hst
    (by decide) m hrun hcount herr
  exact ⟨m, hrun, hcount, herr, (h.mp ⟨1, by decide, fun d => by cases d <;> rfl⟩).2⟩

/-- The first packet of the second direction is lost, and the second one is received twice. -/
def lostFirst : List RxEvent :=
  [.packet { magic := rxCheckMagic, flowId := 7, pktId := 0, flowSize := 1, flags := 2 } 1,
    .packet { magic := rxCheckMagic, flowId := 7, pktId := 1, flowSize := 2, flags := 3 } 2,
    .packet { magic := rxCheckMagic, flowId := 7, pktId := 1, flowSize := 2, flags := 3 } 3]

/-- **A loss that is not reported**: all flows have ended, no error is counted, and the packet with
id 0 of the second direction was never received. -/
theorem lostFirst_not_reported :
    (∀ rxh ∈ headers lostFirst, Stamped 7 (fun d => if d then 2 else 1) rxh) ∧
      .twDrain ∉ lostFirst ∧
      ∃ m, create.run id lostFirst = .ok m ∧ m.count = 0 ∧ m.stats.getTotalErr = 0 ∧
        ids true (headers lostFirst) = [1, 1] ∧
        ¬ ∃ k, 0 < k ∧ ∀ d, ids d (headers lostFirst) =
          (List.replicate k (List.range (if d then 2 else 1))).flatten := by
  refine ⟨?_, by decide, ?_⟩
  · intro rxh hr
    simp only [headers, lostFirst, filterMap_cons, RxEvent.header?, filterMap_nil, mem_cons,
      not_mem_nil, or_false] at hr
    rcases hr with rfl | rfl | rfl <;> exact ⟨rfl, rfl, rfl, by decide, by decide⟩
  · obtain ⟨m, hrun, -⟩ := Ok.ranRun id lostFirst create create_ok
    have heval : (create.run id lostFirst).map (fun m => (m.count, m.stats.getTotalErr)) =
        .ok (0, 0) := by
      decide +kernel
    rw [hrun] at heval
    have heval' : (m.count, m.stats.getTotalErr) = (0, 0) := Except.ok.inj heval
    refine ⟨m, hrun, congrArg Prod.fst heval', congrArg Prod.snd heval', rfl, ?_⟩
    rintro ⟨k, hk, hall⟩
    have h := hall true
    obtain ⟨j, rfl⟩ := Nat.exists_eq_succ_of_ne_zero hk.ne'
    rw [replicate_succ, flatten_cons] at h
    have hhead := congrArg List.head? h
    simp [range_succ_eq_map] at hhead
    exact absurd hhead (by decide)

end RxCheckManager

end Trex.Rx
