/-
# The latency histogram

`CTimeHistogram` (time_histogram.cpp) counts latencies in five decades of nine bins, from 10 us to 1
second, and averages those that came since the average was last asked for, from the differences
between the bins and shadow copies of them.

* Times are rationals, and the counters are natural numbers.  The conversion of a `double` to a
  `uint32_t` has no result when the value does not fit.
* All counters are tallies of the samples since the reset, and the shadow copies of the samples up
  to the last window (`Inv`).
* A sample of a second or more is counted in `m_cnt` and `m_high_cnt`, and the loop over the decades
  ends without a bin for it; the bins and windows add up exactly as long as there is none
  (`conserved_iff`).
-/
import Trex.Lib.Tally
import Mathlib.Data.Rat.Floor
import Mathlib.Data.Fin.VecNotation
import Mathlib.Data.Fintype.Prod

namespace Trex.Lat

open Trex.Lib List
open Function (update update_of_ne)

/-! ## 1. The histogram -/

/-- `HISTOGRAM_SIZE_LOG` decades of `HISTOGRAM_SIZE` bins. -/
abbrev Bin : Type := Fin 5 × Fin 9

/-- `CTimeHistogram`; the windows of the maximum are `HISTOGRAM_QUEUE_SIZE`. -/
structure CTimeHistogram where
  minDelta : Rat
  cnt : Nat
  highCnt : Nat
  maxDt : Rat
  maxWinDt : Rat
  maxWinLastDt : Rat
  average : Rat
  winCnt : Nat
  maxAr : Fin 14 → Rat
  hcnt : Bin → Nat
  hcntShadow : Bin → Nat
  cntShadow : Nat
  highCntShadow : Nat

/-- `(uint32_t)x`, of a `double`. -/
def truncUInt32 (x : Rat) : Option Nat := if 0 ≤ x ∧ x < 2 ^ 32 then some ⌊x⌋.toNat else none

/-- The loop over the decades, with `n` of them left: the indices of the bin that is counted up. -/
def findBin : Nat → Nat → Option (Nat × Nat)
  | 0, _ => none
  | n + 1, d10usec =>
    let low := d10usec % 10
    let high := d10usec / 10
    if high = 0 then some (5 - (n + 1), if 0 < low then low - 1 else low) else findBin n high

namespace CTimeHistogram

/-- `Create`, which calls `Reset`. -/
def create : CTimeHistogram where
  minDelta := 10 / 1000000
  cnt := 0
  highCnt := 0
  maxDt := 0
  maxWinDt := 0
  maxWinLastDt := 0
  average := 0
  winCnt := 0
  maxAr := fun _ => 0
  hcnt := fun _ => 0
  hcntShadow := fun _ => 0
  cntShadow := 0
  highCntShadow := 0

/-- `m_hcnt[j][i]++`; outside of the table there is no result. -/
def countUp (h : CTimeHistogram) (j i : Nat) : Option CTimeHistogram :=
  if hin : j < 5 ∧ i < 9 then
    let bin : Bin := (⟨j, hin.1⟩, ⟨i, hin.2⟩)
    some { h with hcnt := update h.hcnt bin (h.hcnt bin + 1) }
  else none

/-- `Add` -/
def add (h : CTimeHistogram) (dt : Rat) : Option (CTimeHistogram × Bool) :=
  let h := { h with cnt := h.cnt + 1 }
  if dt < h.minDelta then some (h, false)
  else
    let h := { h with
      highCnt := h.highCnt + 1
      maxDt := if h.maxDt < dt then dt else h.maxDt
      maxWinDt := if h.maxWinDt < dt then dt else h.maxWinDt }
    (truncUInt32 (dt * 100000)).bind fun d10usec =>
      match findBin 5 d10usec with
      | some (j, i) => (h.countUp j i).map fun h => (h, true)
      | none => some (h, true)

/-- `get_base_usec` -/
def getBaseUsec (bin : Bin) : Rat := 10 ^ (bin.1.val + 1) * (bin.2.val + 1)

/-- The bins in the order of the loops. -/
def bins : List Bin := (List.finRange 5).flatMap fun j => (List.finRange 9).map fun i => (j, i)

/-- One turn of the loops of `get_cur_average`: `sum`, `s` and the shadow copies. -/
def collectBin (hcnt : Bin → Nat) (acc : Nat × Rat × (Bin → Nat)) (bin : Bin) :
    Nat × Rat × (Bin → Nat) :=
  let cnt := hcnt bin
  if 0 < cnt then
    let d := cnt - acc.2.2 bin
    (acc.1 + d, acc.2.1 + d * (3 / 2) * getBaseUsec bin, update acc.2.2 bin cnt)
  else acc

/-- `get_cur_average`, up to the division: `sum` and `s`. -/
def curSums (h : CTimeHistogram) : CTimeHistogram × Nat × Rat :=
  let d_cnt := h.cnt - h.cntShadow
  let d_cnt_high := h.highCnt - h.highCntShadow
  let low_events := d_cnt - d_cnt_high
  let (sum, s, shadow) := bins.foldl (collectBin h.hcnt) (low_events, low_events * 5, h.hcntShadow)
  ({ h with cntShadow := h.cnt, highCntShadow := h.highCnt, hcntShadow := shadow }, sum, s)

/-- `get_cur_average`, and `get_total_average`, which only calls it. -/
def getCurAverage (h : CTimeHistogram) : CTimeHistogram × Rat :=
  let (h, sum, s) := h.curSums
  (h, if 0 < sum then s / sum else 0)

/-- `update_average` -/
def updateAverage (h : CTimeHistogram) : CTimeHistogram :=
  let (h, c_average) := h.getCurAverage
  { h with average := 1 / 2 * h.average + 1 / 2 * c_average }

/-- `update`, up to the call of `update_average`; no result outside of `m_max_ar`. -/
def nextWindow (h : CTimeHistogram) : Option CTimeHistogram :=
  if hin : h.winCnt < 14 then
    some { h with
      maxAr := update h.maxAr ⟨h.winCnt, hin⟩ h.maxWinDt
      maxWinLastDt := h.maxWinDt
      maxWinDt := 0
      winCnt := if h.winCnt + 1 = 14 then 0 else h.winCnt + 1 }
  else none

/-- `update` -/
def update (h : CTimeHistogram) : Option CTimeHistogram := h.nextWindow.map updateAverage

end CTimeHistogram

/-! ## 2. Runs -/

/-- What is done with a histogram. -/
inductive HistogramCall
  | add (dt : Rat)
  | update
  | totalAverage

/-- The histogram, and `sum` and `s` of each average so far. -/
structure HistogramLog where
  his : CTimeHistogram
  sums : List (Nat × Rat)

/-- One call. -/
def HistogramLog.step (l : HistogramLog) : HistogramCall → Option HistogramLog
  | .add dt => (l.his.add dt).map fun r => { l with his := r.1 }
  | .update => l.his.nextWindow.map fun his => ⟨his.updateAverage, l.sums ++ [his.curSums.2]⟩
  | .totalAverage => some ⟨l.his.getCurAverage.1, l.sums ++ [l.his.curSums.2]⟩

def HistogramLog.run (calls : List HistogramCall) : Option HistogramLog :=
  calls.foldlM HistogramLog.step ⟨.create, []⟩

/-- The windows that were averaged, each with its samples, and the samples since. -/
def windows (calls : List HistogramCall) : List (List Rat) × List Rat :=
  calls.foldl (fun ws call =>
    match call with
    | .add dt => (ws.1, ws.2 ++ [dt])
    | .update => (ws.1 ++ [ws.2], [])
    | .totalAverage => (ws.1 ++ [ws.2], [])) ([], [])

/-- All samples. -/
def samples (calls : List HistogramCall) : List Rat :=
  calls.filterMap fun
    | .add dt => some dt
    | .update => none
    | .totalAverage => none

/-! ## 3. The bin of a sample -/

/-- A bin that is found is inside the table. -/
theorem findBin_lt {n d j i : Nat} (hn : n ≤ 5) (h : findBin n d = some (j, i)) :
    j < 5 ∧ i < 9 := by
  induction n generalizing d with
  | zero => cases h
  | succ n ih =>
    rw [findBin] at h
    split at h
    · have hlow := Nat.mod_lt d (y := 10) (by decide)
      cases h
      refine ⟨by omega, ?_⟩
      split <;> omega
    · exact ih (by omega) h

/-- The loop ends without a bin from the next decade on. -/
theorem findBin_eq_none {n d : Nat} (hd : 0 < d) : findBin n d = none ↔ 10 ^ n ≤ d := by
  induction n generalizing d with
  | zero =>
    rw [findBin, Nat.pow_zero]
    exact iff_of_true rfl hd
  | succ n ih =>
    rw [findBin]
    have hpow : 10 ≤ 10 ^ (n + 1) := Nat.le_self_pow (Nat.succ_ne_zero n) 10
    split
    · rename_i hsmall
      refine iff_of_false (by simp) ?_
      omega
    · rename_i hlarge
      rw [ih (Nat.pos_of_ne_zero hlarge), Nat.le_div_iff_mul_le (by decide), Nat.pow_succ]

/-- The bin of a sample of at least 10 us. -/
def binOf (dt : Rat) : Option Bin :=
  if dt < 10 / 1000000 then none
  else (findBin 5 ⌊dt * 100000⌋.toNat).bind fun b =>
    if hin : b.1 < 5 ∧ b.2 < 9 then some (⟨b.1, hin.1⟩, ⟨b.2, hin.2⟩) else none

/-- What a sample adds to the sum of the times of its window, in usec. -/
def contribution (dt : Rat) : Rat :=
  if dt < 10 / 1000000 then 5 else (binOf dt).elim 0 fun bin =>
    3 / 2 * CTimeHistogram.getBaseUsec bin

/-- The sample is in a bin, or below the threshold. -/
def counted (dt : Rat) : Bool := decide (dt < 10 / 1000000) || (binOf dt).isSome

theorem binOf_low {dt : Rat} (h : dt < 10 / 1000000) : binOf dt = none := if_pos h

/-- **Only samples of a second and more have no bin.** -/
theorem isSome_binOf {dt : Rat} (h : ¬ dt < 10 / 1000000) : (binOf dt).isSome ↔ dt < 1 := by
  have hfloor : (1 : Int) ≤ ⌊dt * 100000⌋ := by
    rw [Int.le_floor]
    push_cast
    linarith
  have hone : dt < 1 ↔ ⌊dt * 100000⌋ < 100000 := by
    rw [Int.floor_lt]
    push_cast
    refine ⟨fun hlt => by linarith, fun hlt => by linarith⟩
  have hnone := findBin_eq_none (n := 5) (d := ⌊dt * 100000⌋.toNat) (by omega)
  rw [binOf, if_neg h, hone]
  cases hfind : findBin 5 ⌊dt * 100000⌋.toNat with
  | none =>
    have hle := hnone.mp hfind
    refine iff_of_false (by simp) (by omega)
  | some b =>
    have hlt : ¬ 10 ^ 5 ≤ ⌊dt * 100000⌋.toNat := fun hle => by
      rw [hnone.mpr hle] at hfind
      cases hfind
    rw [Option.bind_some, dif_pos (findBin_lt (le_refl 5) hfind)]
    refine iff_of_true rfl (by omega)

/-! ## 4. The counters -/

/-- The counters of the samples `all`. -/
structure Counts (all : List Rat) (cnt high : Nat) (hcnt : Bin → Nat) : Prop where
  cnt_eq : cnt = all.length
  high_eq : high = all.countP fun dt => !decide (dt < 10 / 1000000)
  hcnt_eq : hcnt = tally binOf all

/-- **What holds when the samples `old` were averaged and the samples `w` were not.** -/
structure Inv (old w : List Rat) (h : CTimeHistogram) : Prop where
  min_delta : h.minDelta = 10 / 1000000
  win : h.winCnt < 14
  counts : Counts (old ++ w) h.cnt h.highCnt h.hcnt
  shadow : Counts old h.cntShadow h.highCntShadow h.hcntShadow

theorem inv_create : Inv [] [] .create where
  min_delta := rfl
  win := by decide
  counts := ⟨rfl, rfl, rfl⟩
  shadow := ⟨rfl, rfl, rfl⟩

/-- The conversion to a number of 10 us fits. -/
def Fits (dt : Rat) : Prop := 0 ≤ dt ∧ dt * 100000 < 2 ^ 32

variable {old w : List Rat} {h : CTimeHistogram} {dt : Rat}

theorem truncUInt32_eq_some (hpos : 0 ≤ dt) {d : Nat} (hd : truncUInt32 (dt * 100000) = some d) :
    Fits dt ∧ d = ⌊dt * 100000⌋.toNat := by
  rw [truncUInt32] at hd
  split at hd
  · rename_i hfits
    cases hd
    exact ⟨⟨hpos, hfits.2⟩, rfl⟩
  · cases hd

theorem truncUInt32_of_fits (hfits : Fits dt) :
    truncUInt32 (dt * 100000) = some ⌊dt * 100000⌋.toNat :=
  if_pos ⟨mul_nonneg hfits.1 (by norm_num), hfits.2⟩

/-- **One sample more.** -/
theorem Inv.add (hinv : Inv old w h) (hfits : Fits dt) :
    ∃ h' ok, h.add dt = some (h', ok) ∧ Inv old (w ++ [dt]) h' := by
  obtain ⟨hmin, hwin, ⟨hcnt, hhigh, hhcnt⟩, hshadow⟩ := hinv
  rw [CTimeHistogram.add]
  dsimp only
  by_cases hlow' : dt < h.minDelta
  · have hlow : dt < 10 / 1000000 := hmin ▸ hlow'
    rw [if_pos hlow']
    refine ⟨_, _, rfl, hmin, hwin, ⟨?_, ?_, ?_⟩, hshadow⟩
    · rw [← append_assoc, length_append, ← hcnt]
      rfl
    · rw [← append_assoc, countP_append, ← hhigh]
      simp [hlow]
    · rw [← append_assoc, tally_concat_none (binOf_low hlow)]
      exact hhcnt
  · have hlow : ¬ dt < 10 / 1000000 := hmin ▸ hlow'
    rw [if_neg hlow', truncUInt32_of_fits hfits, Option.bind_some]
    have hlength : h.cnt + 1 = (old ++ (w ++ [dt])).length := by
      rw [← append_assoc, length_append, ← hcnt]
      rfl
    have hcount : h.highCnt + 1 = (old ++ (w ++ [dt])).countP fun dt =>
        !decide (dt < 10 / 1000000) := by
      rw [← append_assoc, countP_append, ← hhigh]
      simp [hlow]
    cases hfind : findBin 5 ⌊dt * 100000⌋.toNat with
    | none =>
      have hbin : binOf dt = none := by rw [binOf, if_neg hlow, hfind, Option.bind_none]
      refine ⟨_, _, rfl, hmin, hwin, ⟨hlength, hcount, ?_⟩, hshadow⟩
      rw [← append_assoc, tally_concat_none hbin]
      exact hhcnt
    | some b =>
      obtain ⟨j, i⟩ := b
      have hin := findBin_lt (le_refl 5) hfind
      have hbin : binOf dt = some (⟨j, hin.1⟩, ⟨i, hin.2⟩) := by
        rw [binOf, if_neg hlow, hfind, Option.bind_some, dif_pos hin]
      dsimp only
      rw [CTimeHistogram.countUp, dif_pos hin]
      refine ⟨_, _, rfl, hmin, hwin, ⟨hlength, hcount, ?_⟩, hshadow⟩
      rw [← append_assoc, tally_concat_some hbin, ← hhcnt]

/-- What is added has a conversion that fits. -/
theorem Inv.fits_of_add (hinv : Inv old w h) (hpos : 0 ≤ dt) {r : CTimeHistogram × Bool}
    (hadd : h.add dt = some r) :
    Fits dt := by
  rw [CTimeHistogram.add] at hadd
  dsimp only at hadd
  split at hadd
  · rename_i hlow
    rw [hinv.min_delta] at hlow
    refine ⟨hpos, ?_⟩
    linarith
  · obtain ⟨d, hd, -⟩ := Option.bind_eq_some_iff.mp hadd
    exact (truncUInt32_eq_some hpos hd).1

/-! ## 5. A window -/

theorem mem_bins (bin : Bin) : bin ∈ CTimeHistogram.bins := by
  obtain ⟨j, i⟩ := bin
  exact mem_flatMap.mpr ⟨j, mem_finRange j, mem_map.mpr ⟨i, mem_finRange i, rfl⟩⟩

theorem nodup_bins : CTimeHistogram.bins.Nodup := by decide

/-- A sum over the bins in the order of the loops. -/
theorem sum_bins {K : Type*} [AddCommMonoid K] (f : Bin → K) :
    (CTimeHistogram.bins.map f).sum = ∑ bin, f bin := by
  have huniv : CTimeHistogram.bins.toFinset = Finset.univ :=
    Finset.eq_univ_of_forall fun bin => mem_toFinset.mpr (mem_bins bin)
  rw [← huniv, sum_toFinset f nodup_bins]

/-- **The loops of `get_cur_average`**: a bin that is empty adds nothing. -/
theorem foldl_collectBin (hcnt : Bin → Nat) (l : List Bin) (hnodup : l.Nodup) (sum : Nat) (s : Rat)
    (shadow : Bin → Nat) :
    l.foldl (CTimeHistogram.collectBin hcnt) (sum, s, shadow) =
      (sum + (l.map fun bin => hcnt bin - shadow bin).sum,
        s + (l.map fun bin => ((hcnt bin - shadow bin : Nat) : Rat) *
          (3 / 2 * CTimeHistogram.getBaseUsec bin)).sum,
        fun bin => if bin ∈ l ∧ 0 < hcnt bin then hcnt bin else shadow bin) := by
  induction l generalizing sum s shadow with
  | nil => simp
  | cons bin l ih =>
    obtain ⟨hnew, hrest⟩ := nodup_cons.mp hnodup
    rw [foldl_cons, CTimeHistogram.collectBin]
    dsimp only
    split
    · rename_i hcnt0
      -- the bins that come are others, with the shadow copies they had
      have hother : ∀ b ∈ l, update shadow bin (hcnt bin) b = shadow b := fun b hb =>
        update_of_ne (fun heq : b = bin => hnew (heq ▸ hb)) ..
      rw [ih hrest]
      refine Prod.ext ?_ (Prod.ext ?_ ?_)
      · dsimp only
        rw [map_cons, sum_cons, ← Nat.add_assoc]
        congr 2
        exact map_congr_left fun b hb => by rw [hother b hb]
      · dsimp only
        rw [map_cons, sum_cons, ← add_assoc, mul_assoc]
        congr 2
        exact map_congr_left fun b hb => by rw [hother b hb]
      · funext b
        dsimp only
        by_cases hb : b = bin
        · subst hb
          simp [hnew, hcnt0]
        · rw [update_of_ne hb]
          simp [hb]
    · rename_i hcnt0
      have hzero : hcnt bin = 0 := Nat.eq_zero_of_not_pos hcnt0
      rw [ih hrest]
      refine Prod.ext ?_ (Prod.ext ?_ ?_)
      · simp [hzero]
      · simp [hzero]
      · funext b
        dsimp only
        by_cases hb : b = bin
        · subst hb
          simp [hnew, hzero]
        · simp [hb]

theorem length_eq_low_add_high (w : List Rat) : w.length =
    (w.countP fun dt => decide (dt < 10 / 1000000)) + w.countP fun dt =>
        !decide (dt < 10 / 1000000) := by
  rw [length_eq_countP_add_countP fun dt => decide (dt < 10 / 1000000)]
  congr 2
  funext dt
  rw [decide_not, Bool.decide_eq_true]

/-- The samples of a window that are below the threshold, and those that are in a bin. -/
theorem countP_counted (w : List Rat) :
    w.countP counted = (w.countP fun dt => decide (dt < 10 / 1000000)) + w.countP fun dt =>
        (binOf dt).isSome := by
  induction w with
  | nil => rfl
  | cons dt w ih =>
    rw [countP_cons, countP_cons, countP_cons, ih, counted]
    by_cases hlow : dt < 10 / 1000000
    · simp only [hlow, decide_true, Bool.true_or, if_true, binOf_low hlow, Option.isSome_none]
      simp only [Bool.false_eq_true, if_false]
      omega
    · simp only [hlow, decide_false, Bool.false_or, Bool.false_eq_true, if_false]
      omega

theorem sum_contribution (w : List Rat) :
    (w.map contribution).sum = ((w.countP fun dt => decide (dt < 10 / 1000000) : Nat) : Rat) * 5 +
      (w.map fun dt => (binOf dt).elim 0 fun bin =>
          3 / 2 * CTimeHistogram.getBaseUsec bin).sum := by
  induction w with
  | nil => simp
  | cons dt w ih =>
    rw [map_cons, sum_cons, ih, countP_cons, map_cons, sum_cons, contribution]
    by_cases hlow : dt < 10 / 1000000
    · simp only [hlow, decide_true, if_true, binOf_low hlow, Option.elim_none]
      push_cast
      ring
    · simp only [hlow, decide_false, if_false, Bool.false_eq_true, Nat.add_zero]
      ring

/-- **A window is averaged**: what is read is that of its samples, and the shadow copies catch
up. -/
theorem Inv.curSums (hinv : Inv old w h) :
    h.curSums.2 = (w.countP counted, (w.map contribution).sum) ∧ Inv (old ++ w) [] h.curSums.1 := by
  obtain ⟨hmin, hwin, ⟨hcnt, hhigh, hhcnt⟩, ⟨hcnt', hhigh', hhcnt'⟩⟩ := hinv
  have hdiff : ∀ bin, h.hcnt bin - h.hcntShadow bin = tally binOf w bin := by
    intro bin
    rw [hhcnt, hhcnt', tally_append]
    omega
  have hlow : h.cnt - h.cntShadow - (h.highCnt - h.highCntShadow) =
      w.countP fun dt => decide (dt < 10 / 1000000) := by
    have hsplit := length_eq_low_add_high w
    rw [hcnt, hcnt', hhigh, hhigh', length_append, countP_append]
    omega
  rw [CTimeHistogram.curSums, foldl_collectBin h.hcnt _ nodup_bins]
  simp only [hlow, hdiff, sum_bins, mem_bins, true_and]
  refine ⟨Prod.ext ?_ ?_, hmin, hwin, ⟨?_, ?_, ?_⟩, ⟨?_, ?_, ?_⟩⟩
  · dsimp only
    rw [countP_counted, sum_tally]
  · dsimp only
    rw [sum_contribution, sum_mul_tally]
  · rw [append_nil]
    exact hcnt
  · rw [append_nil]
    exact hhigh
  · rw [append_nil]
    exact hhcnt
  · exact hcnt
  · exact hhigh
  · funext bin
    dsimp only
    rw [← hhcnt]
    split
    · rfl
    · rename_i hzero
      have hle : h.hcntShadow bin ≤ h.hcnt bin := by
        rw [hhcnt, hhcnt', tally_append]
        exact Nat.le_add_right _ _
      omega

/-! ## 6. Runs of a histogram -/

theorem windows_concat (calls : List HistogramCall) (call : HistogramCall) :
    windows (calls ++ [call]) =
      match call with
      | .add dt => ((windows calls).1, (windows calls).2 ++ [dt])
      | .update => ((windows calls).1 ++ [(windows calls).2], [])
      | .totalAverage => ((windows calls).1 ++ [(windows calls).2], []) := by
  rw [windows, foldl_append]
  rfl

/-- **Every sample is in exactly one window**, or came behind the last one. -/
theorem flatten_windows (calls : List HistogramCall) :
    (windows calls).1.flatten ++ (windows calls).2 = samples calls := by
  induction calls using List.reverseRecOn with
  | nil => rfl
  | append_singleton calls call ih =>
    rw [windows_concat, samples, filterMap_append, ← samples, ← ih]
    cases call with
    | add dt => simp
    | update => simp
    | totalAverage => simp

/-- What was read of each window. -/
def WindowSums (calls : List HistogramCall) (sums : List (Nat × Rat)) : Prop :=
  sums = (windows calls).1.map fun w => (w.countP counted, (w.map contribution).sum)

theorem HistogramLog.run_concat (calls : List HistogramCall) (call : HistogramCall) :
    run (calls ++ [call]) = (run calls).bind fun l => l.step call := by
  rw [run, foldlM_append]
  cases hrun : List.foldlM step ⟨.create, []⟩ calls with
  | none => rw [run, hrun]; rfl
  | some l => rw [run, hrun]; simp

/-- The invariant, and what was read of each window. -/
structure Good (calls : List HistogramCall) (l : HistogramLog) : Prop where
  inv : Inv (windows calls).1.flatten (windows calls).2 l.his
  sums : WindowSums calls l.sums

variable {calls : List HistogramCall} {l : HistogramLog}

theorem Good.collect (hgood : Good calls l) {his : CTimeHistogram}
    (hinv : Inv (windows calls).1.flatten (windows calls).2 his) :
    Inv ((windows calls).1 ++ [(windows calls).2]).flatten [] his.curSums.1 ∧
      l.sums ++ [his.curSums.2] = ((windows calls).1 ++ [(windows calls).2]).map
        fun w => (w.countP counted, (w.map contribution).sum) := by
  obtain ⟨hsums, hnext⟩ := hinv.curSums
  refine ⟨?_, ?_⟩
  · rw [flatten_append, flatten_singleton]
    exact hnext
  · rw [hgood.sums, hsums, map_append, map_singleton]

/-- **One call.** -/
theorem Good.step (hgood : Good calls l) (call : HistogramCall)
    (hfits : ∀ dt, call = .add dt → Fits dt) :
    ∃ l', l.step call = some l' ∧ Good (calls ++ [call]) l' := by
  cases call with
  | add dt =>
    obtain ⟨his, ok, hadd, hinv⟩ := hgood.inv.add (hfits dt rfl)
    refine ⟨{ l with his := his }, by rw [HistogramLog.step, hadd]; rfl, ?_⟩
    constructor
    · rw [windows_concat]
      exact hinv
    · rw [WindowSums, windows_concat]
      exact hgood.sums
  | update =>
    have hwin := hgood.inv.win
    have hinv : Inv (windows calls).1.flatten (windows calls).2
        { l.his with
          maxAr := update l.his.maxAr ⟨l.his.winCnt, hwin⟩ l.his.maxWinDt
          maxWinLastDt := l.his.maxWinDt
          maxWinDt := 0
          winCnt := if l.his.winCnt + 1 = 14 then 0 else l.his.winCnt + 1 } := by
      refine ⟨hgood.inv.min_delta, ?_, hgood.inv.counts, hgood.inv.shadow⟩
      dsimp only
      split <;> omega
    obtain ⟨hnext, hsums⟩ := hgood.collect hinv
    refine ⟨_, by rw [HistogramLog.step, CTimeHistogram.nextWindow, dif_pos hwin]; rfl, ?_⟩
    constructor
    · rw [windows_concat]
      exact ⟨hnext.min_delta, hnext.win, hnext.counts, hnext.shadow⟩
    · rw [WindowSums, windows_concat]
      exact hsums
  | totalAverage =>
    obtain ⟨hnext, hsums⟩ := hgood.collect hgood.inv
    refine ⟨_, rfl, ?_⟩
    constructor
    · rw [windows_concat]
      exact hnext
    · rw [WindowSums, windows_concat]
      exact hsums

theorem samples_concat (calls : List HistogramCall) (call : HistogramCall) :
    samples (calls ++ [call]) = samples calls ++ samples [call] := filterMap_append

/-- **A run of calls**, when every sample can be converted. -/
theorem HistogramLog.run_good (hfits : ∀ dt ∈ samples calls, Fits dt) :
    ∃ l, run calls = some l ∧ Good calls l := by
  induction calls using List.reverseRecOn with
  | nil => exact ⟨⟨.create, []⟩, rfl, inv_create, rfl⟩
  | append_singleton calls call ih =>
    rw [samples_concat] at hfits
    obtain ⟨l, hrun, hgood⟩ := ih fun dt hdt => hfits dt (mem_append_left _ hdt)
    obtain ⟨l', hstep, hgood'⟩ := hgood.step call fun dt hcall => by
      subst hcall
      exact hfits dt (mem_append_right _ mem_cons_self)
    exact ⟨l', by rw [run_concat, hrun]; exact hstep, hgood'⟩

/-- Otherwise there is no run. -/
theorem HistogramLog.fits_of_run (hpos : ∀ dt ∈ samples calls, 0 ≤ dt) (hrun : run calls = some l) :
    ∀ dt ∈ samples calls, Fits dt := by
  induction calls using List.reverseRecOn generalizing l with
  | nil =>
    intro dt hdt
    cases hdt
  | append_singleton calls call ih =>
    rw [run_concat] at hrun
    obtain ⟨l1, hrun1, hstep⟩ := Option.bind_eq_some_iff.mp hrun
    rw [samples_concat] at hpos ⊢
    have hfits := ih (fun dt hdt => hpos dt (mem_append_left _ hdt)) hrun1
    intro dt hdt
    rcases mem_append.mp hdt with hold | hnew
    · exact hfits dt hold
    · cases call with
      | add d =>
        have hd : dt = d := mem_singleton.mp hnew
        subst hd
        obtain ⟨l2, hrun2, hgood⟩ := run_good hfits
        rw [hrun1] at hrun2
        cases hrun2
        rw [step] at hstep
        obtain ⟨r, hadd, -⟩ := Option.map_eq_some_iff.mp hstep
        exact hgood.inv.fits_of_add (hpos dt hdt) hadd
      | update => cases hnew
      | totalAverage => cases hnew

/-! ## 7. Conservation -/

/-- **Nothing is lost in a histogram**: the bins add up to `m_high_cnt`, the rest of `m_cnt` are the
samples below the threshold, and each window is averaged over all its samples, every one by its
bin. -/
structure Conserved (calls : List HistogramCall) (l : HistogramLog) : Prop where
  bins_eq : (CTimeHistogram.bins.map l.his.hcnt).sum = l.his.highCnt
  low_eq : l.his.highCnt ≤ l.his.cnt ∧
    l.his.cnt - l.his.highCnt = (samples calls).countP fun dt => decide (dt < 10 / 1000000)
  sums_eq : l.sums = (windows calls).1.map fun w => (w.length, (w.map contribution).sum)

/-- The samples below the threshold are always those that `m_high_cnt` leaves out. -/
theorem Good.low (hgood : Good calls l) :
    l.his.highCnt ≤ l.his.cnt ∧
      l.his.cnt - l.his.highCnt = (samples calls).countP fun dt => decide (dt < 10 / 1000000) := by
  obtain ⟨hcnt, hhigh, -⟩ := hgood.inv.counts
  rw [flatten_windows] at hcnt hhigh
  have hsplit := length_eq_low_add_high (samples calls)
  omega

/-- The bins add up to `m_high_cnt` when every sample is shorter than a second, and only then. -/
theorem Good.bins_iff (hgood : Good calls l) :
    (CTimeHistogram.bins.map l.his.hcnt).sum = l.his.highCnt ↔ ∀ dt ∈ samples calls, dt < 1 := by
  obtain ⟨-, hhigh, hhcnt⟩ := hgood.inv.counts
  rw [flatten_windows] at hhigh hhcnt
  have himp : ∀ dt : Rat, (binOf dt).isSome = true → (!decide (dt < 10 / 1000000)) = true := by
    intro dt hsome
    by_cases hlow : dt < 10 / 1000000
    · rw [binOf_low hlow] at hsome
      cases hsome
    · simp [hlow]
  rw [sum_bins, hhcnt, hhigh, sum_tally, countP_eq_countP_iff himp]
  refine forall_congr' fun dt => forall_congr' fun _ => ?_
  by_cases hlow : dt < 10 / 1000000
  · refine iff_of_true (fun h => by simp [hlow] at h) ?_
    linarith
  · rw [isSome_binOf hlow]
    simp [hlow]

/-- **The histogram is conserved exactly when every sample is shorter than a second.**  Every call
keeps `Good`, where a sample of 10 us or more is in a bin only if `binOf` has one for it. -/
theorem conserved_iff (calls : List HistogramCall) (hpos : ∀ dt ∈ samples calls, 0 ≤ dt) :
    (∃ l, HistogramLog.run calls = some l ∧ Conserved calls l) ↔ ∀ dt ∈ samples calls, dt < 1 := by
  refine ⟨?_, fun hshort => ?_⟩
  · rintro ⟨l, hrun, hconserved⟩
    obtain ⟨l', hrun', hgood⟩ := HistogramLog.run_good (HistogramLog.fits_of_run hpos hrun)
    rw [hrun] at hrun'
    cases hrun'
    exact hgood.bins_iff.mp hconserved.bins_eq
  · have hfits : ∀ dt ∈ samples calls, Fits dt := by
      intro dt hdt
      have hlt := hshort dt hdt
      refine ⟨hpos dt hdt, ?_⟩
      linarith
    obtain ⟨l, hrun, hgood⟩ := HistogramLog.run_good hfits
    refine ⟨l, hrun, hgood.bins_iff.mpr hshort, hgood.low, ?_⟩
    rw [hgood.sums]
    refine map_congr_left fun w hw => Prod.ext ?_ rfl
    dsimp only
    rw [countP_eq_length]
    intro dt hdt
    have hmem : dt ∈ samples calls := by
      rw [← flatten_windows]
      exact mem_append_left _ (mem_flatten.mpr ⟨w, hw, hdt⟩)
    rw [counted]
    by_cases hlow : dt < 10 / 1000000
    · simp [hlow]
    · rw [(isSome_binOf hlow).mpr (hshort dt hmem), Bool.or_true]

/-- Samples of 5, 10 and 990 us and of half a second, in two windows. -/
theorem conserved_iff_twoWindows :
    ∃ l, HistogramLog.run [.add (5 / 1000000), .add (1 / 100000), .update, .add (99 / 100000),
        .add (1 / 2), .totalAverage] = some l ∧
      Conserved [.add (5 / 1000000), .add (1 / 100000), .update, .add (99 / 100000), .add (1 / 2),
          .totalAverage] l :=
  (conserved_iff _ (by decide +kernel)).mpr (by decide +kernel)

/-- **One sample of a second**: it is counted as high, and is in no bin. -/
theorem second_not_conserved : ¬ ∃ l, HistogramLog.run [.add 1] = some l ∧
    Conserved [.add 1] l := by
  rintro ⟨l, hrun, hconserved⟩
  have hread : (HistogramLog.run [.add 1]).map (fun l => ((CTimeHistogram.bins.map l.his.hcnt).sum,
      l.his.highCnt)) = some (0, 1) := by decide +kernel
  rw [hrun, Option.map_some, hconserved.bins_eq, Option.some_inj, Prod.mk.injEq] at hread
  exact absurd (hread.1.symm.trans hread.2) (by decide)

end Trex.Lat
