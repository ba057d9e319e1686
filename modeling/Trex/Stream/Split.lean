/-
# What the cores get of a split VM

The splitter cuts the range of one variable into consecutive parts, one for each core
(`splitRanges`).  As numbers the parts tile the range (`Lib.Tiles`), so the cores' values are
disjoint and none is lost; and a counter whose initial value is the end it starts from runs through
its part once in one cycle (`cycle_perm`).

Two things are not as they should be.  The size of a range is computed in the width of its bounds,
so the range of all 64-bit numbers (for clients, of all addresses) has size 0 and is not split; and
a bound that does not fit the variable is cut off when the program is built.
-/
import Mathlib.Data.List.Perm.Subperm
import Trex.Lib.Tiles
import Trex.Stream.Mirror
import Trex.Vm.Refine
import Trex.Vm.Shape

namespace Trex.Vm

open Trex.Lib List

/-! ## 1. A counter over one cycle -/

/-- One execution of a counter. -/
def FlowMan.step (i : FlowMan) (v : Nat) : Nat :=
  match i.op with
  | .DEC => i.decVal v
  | _ => i.incVal v

/-- The value of a counter at its `t`-th execution, from the value that `build_bss` stores. -/
def FlowMan.valueAt (i : FlowMan) (t : Nat) : Nat :=
  i.step^[t + 1] (i.getBssInitValue.toNat % 256 ^ i.sizeBytes.toNat)

/-- The values of a counter over one cycle: as many executions as its range has numbers. -/
def FlowMan.cycle (i : FlowMan) : List Nat :=
  (List.range (i.maxValue.toNat - i.minValue.toNat + 1)).map i.valueAt

theorem FlowMan.valueAt_succ (i : FlowMan) (t : Nat) :
    i.valueAt (t + 1) = i.step (i.valueAt t) :=
  Function.iterate_succ_apply' _ _ _

/-- A counter holds numbers of its size. -/
theorem FlowMan.valueAt_lt (i : FlowMan) (t : Nat) : i.valueAt t < 256 ^ i.sizeBytes.toNat := by
  have hpos : 0 < 256 ^ i.sizeBytes.toNat := Nat.pow_pos (by decide)
  have hstep : ∀ v, i.step v < 256 ^ i.sizeBytes.toNat := by
    intro v
    unfold FlowMan.step
    split
    · unfold FlowMan.decVal
      split
      · exact Nat.mod_lt _ hpos
      · exact Nat.mod_lt _ hpos
    · unfold FlowMan.incVal
      split
      · exact Nat.mod_lt _ hpos
      · exact Nat.mod_lt _ hpos
  cases t with
  | zero => exact hstep _
  | succ t => exact i.valueAt_succ t ▸ hstep _

section Cycle

variable {i : FlowMan} (hle : i.minValue.toNat ≤ i.maxValue.toNat)
  (hfit : i.maxValue.toNat < 256 ^ i.sizeBytes.toNat)

include hle hfit

theorem FlowMan.lo_eq : i.lo = i.minValue.toNat := Nat.mod_eq_of_lt (lt_of_le_of_lt hle hfit)

omit hle in
theorem FlowMan.hi_eq : i.hi = i.maxValue.toNat := Nat.mod_eq_of_lt hfit

/-- A counter upwards from the start of its range. -/
theorem FlowMan.valueAt_inc (hop : i.op = .INC) (hinit : i.initValue = i.minValue) :
    ∀ t, t ≤ i.maxValue.toNat - i.minValue.toNat → i.valueAt t = i.minValue.toNat + t
  | 0, _ => by
    have hbss : i.getBssInitValue = i.maxValue := by
      simp [FlowMan.getBssInitValue, hop, hinit]
    simp only [FlowMan.valueAt, Function.iterate_one, FlowMan.step, hop, FlowMan.incVal, hbss,
      Nat.zero_add, Nat.add_zero, FlowMan.hi, if_true]
    exact FlowMan.lo_eq hle hfit
  | t + 1, ht => by
    rw [FlowMan.valueAt_succ, FlowMan.valueAt_inc hop hinit t (by omega)]
    have hne : ¬ i.minValue.toNat + t = i.maxValue.toNat := by omega
    simp only [FlowMan.step, hop, FlowMan.incVal, FlowMan.hi_eq hfit, if_neg hne]
    rw [Nat.mod_eq_of_lt (by omega)]
    omega

/-- A counter downwards from the end of its range. -/
theorem FlowMan.valueAt_dec (hop : i.op = .DEC) (hinit : i.initValue = i.maxValue) :
    ∀ t, t ≤ i.maxValue.toNat - i.minValue.toNat → i.valueAt t = i.maxValue.toNat - t
  | 0, _ => by
    have hbss : i.getBssInitValue = i.minValue := by
      simp [FlowMan.getBssInitValue, hop, hinit]
    simp only [FlowMan.valueAt, Function.iterate_one, FlowMan.step, hop, FlowMan.decVal, hbss,
      Nat.zero_add, Nat.sub_zero, FlowMan.lo, if_true]
    exact FlowMan.hi_eq hfit
  | t + 1, ht => by
    rw [FlowMan.valueAt_succ, FlowMan.valueAt_dec hop hinit t (by omega)]
    have hne : ¬ i.maxValue.toNat - t = i.minValue.toNat := by omega
    simp only [FlowMan.step, hop, FlowMan.decVal, FlowMan.lo_eq hle hfit, if_neg hne]
    have hpos : 1 ≤ 256 ^ i.sizeBytes.toNat := by omega
    have hsum : i.maxValue.toNat - t + 256 ^ i.sizeBytes.toNat - 1
        = (i.maxValue.toNat - (t + 1)) + 256 ^ i.sizeBytes.toNat := by omega
    rw [hsum, Nat.add_mod_right, Nat.mod_eq_of_lt (by omega)]

/-- **One cycle from an end of the range runs through the range once.** -/
theorem FlowMan.cycle_perm (hop : i.op ≠ .RANDOM)
    (hinit : i.initValue = if i.op = .DEC then i.maxValue else i.minValue) :
    i.cycle.Perm (List.range' i.minValue.toNat (i.maxValue.toNat - i.minValue.toNat + 1)) := by
  have hlast : ∀ t ∈ List.range (i.maxValue.toNat - i.minValue.toNat + 1),
      t ≤ i.maxValue.toNat - i.minValue.toNat := by
    intro t ht
    have := List.mem_range.mp ht
    omega
  cases h : i.op with
  | RANDOM => exact absurd h hop
  | INC =>
    rw [h] at hinit
    have hmap : i.cycle = (List.range (i.maxValue.toNat - i.minValue.toNat + 1)).map
        fun t => i.minValue.toNat + t :=
      List.map_congr_left fun t ht => FlowMan.valueAt_inc hle hfit h (by simpa using hinit) t
        (hlast t ht)
    rw [hmap, List.range'_eq_map_range]
  | DEC =>
    rw [h] at hinit
    have hmap : i.cycle = (List.range (i.maxValue.toNat - i.minValue.toNat + 1)).map
        fun t => i.maxValue.toNat - t :=
      List.map_congr_left fun t ht => FlowMan.valueAt_dec hle hfit h (by simpa using hinit) t
        (hlast t ht)
    have hrev : (List.range (i.maxValue.toNat - i.minValue.toNat + 1)).map
        (fun t => i.maxValue.toNat - t)
        = (List.range' i.minValue.toNat (i.maxValue.toNat - i.minValue.toNat + 1)).reverse := by
      rw [reverse_range']
      refine List.map_congr_left fun t ht => ?_
      have := hlast t ht
      omega
    rw [hmap, hrev]
    exact reverse_perm _

end Cycle

/-- Around the numbers below `n` in steps of one, upwards or downwards. -/
theorem perm_range_mod {n d a : Nat} {f : Nat → Nat} (hpos : 0 < n) (hd : d = 1 ∨ d = n - 1)
    (hf : ∀ t, f t = (a + d * t) % n) : ((List.range n).map f).Perm (List.range n) := by
  have hinj : ∀ t ∈ List.range n, ∀ t' ∈ List.range n, f t = f t' → t = t' := by
    intro t ht t' ht' heq
    rw [mem_range] at ht ht'
    rw [hf, hf] at heq
    have hmod : d * t ≡ d * t' [MOD n] := Nat.ModEq.add_left_cancel' a heq
    have hcop : Nat.gcd n d = 1 := by
      rcases hd with rfl | rfl
      · exact Nat.gcd_one_right n
      · exact (Nat.coprime_self_sub_right (by omega)).mpr (Nat.coprime_one_right n)
    exact Nat.ModEq.eq_of_lt_of_lt (Nat.ModEq.cancel_left_of_coprime hcop hmod) ht ht'
  have hnd : ((List.range n).map f).Nodup := Nodup.map_on hinj nodup_range
  have hsub : (List.range n).map f ⊆ List.range n := by
    intro v hv
    obtain ⟨t, -, rfl⟩ := List.mem_map.mp hv
    rw [hf, mem_range]
    exact Nat.mod_lt _ hpos
  exact (hnd.subperm hsub).perm_of_length_le (by simp)

/-- The numbers of 64 bits, counted from any of them upwards or downwards, once around. -/
theorem FlowMan.cycle_perm_full {i : FlowMan} (hop : i.op ≠ .RANDOM) (hsize : i.sizeBytes = 8)
    (hmin : i.minValue = 0) (hmax : i.maxValue = 0xFFFFFFFFFFFFFFFF) :
    i.cycle.Perm (List.range' i.minValue.toNat (i.maxValue.toNat - i.minValue.toNat + 1)) := by
  have hmin' : i.minValue.toNat = 0 := by rw [hmin]; rfl
  have hmax' : i.maxValue.toNat = 2 ^ 64 - 1 := by rw [hmax]; rfl
  have hpow : 256 ^ i.sizeBytes.toNat = 2 ^ 64 := by rw [hsize]; rfl
  have hlo : i.lo = 0 := by simp [FlowMan.lo, hmin']
  have hhi : i.hi = 2 ^ 64 - 1 := by
    simp only [FlowMan.hi, hmax', hpow]
    rfl
  have hinit := i.initValue.toNat_lt
  have hlt : ∀ t, i.valueAt t < 2 ^ 64 := fun t => hpow ▸ i.valueAt_lt t
  -- the counter steps by one modulo `2 ^ 64`, in one of the two directions
  have hval : ∃ d : Nat, (d = 1 ∨ d = 2 ^ 64 - 1)
      ∧ ∀ t, i.valueAt t = (i.initValue.toNat + d * t) % 2 ^ 64 := by
    cases h : i.op with
    | RANDOM => exact absurd h hop
    | INC =>
      have hstep : ∀ v, v < 2 ^ 64 → i.step v = (v + 1) % 2 ^ 64 := by
        intro v hv
        simp only [FlowMan.step, h, FlowMan.incVal, hlo, hhi, hpow]
        split <;> omega
      have hbss : i.getBssInitValue.toNat % 2 ^ 64 = (i.initValue.toNat + 2 ^ 64 - 1) % 2 ^ 64 := by
        simp only [FlowMan.getBssInitValue, h, hmin, hmax]
        split
        · rename_i h0
          rw [h0]
          rfl
        · rw [UInt64.toNat_sub]
          simp only [UInt64.toNat_one]
          omega
      refine ⟨1, Or.inl rfl, fun t => ?_⟩
      induction t with
      | zero =>
        simp only [FlowMan.valueAt, Nat.zero_add, Function.iterate_one, hpow]
        rw [hstep _ (Nat.mod_lt _ (by decide)), hbss]
        omega
      | succ t ih =>
        rw [FlowMan.valueAt_succ, hstep _ (hlt t), ih]
        omega
    | DEC =>
      have hstep : ∀ v, v < 2 ^ 64 → i.step v = (v + 2 ^ 64 - 1) % 2 ^ 64 := by
        intro v hv
        simp only [FlowMan.step, h, FlowMan.decVal, hlo, hhi, hpow]
        split <;> omega
      have hbss : i.getBssInitValue.toNat % 2 ^ 64 = (i.initValue.toNat + 1) % 2 ^ 64 := by
        simp only [FlowMan.getBssInitValue, h, hmin, hmax]
        split
        · rename_i h0
          rw [h0]
          rfl
        · rw [UInt64.toNat_add]
          simp only [UInt64.toNat_one]
          omega
      refine ⟨2 ^ 64 - 1, Or.inr rfl, fun t => ?_⟩
      induction t with
      | zero =>
        simp only [FlowMan.valueAt, Nat.zero_add, Function.iterate_one, hpow]
        rw [hstep _ (Nat.mod_lt _ (by decide)), hbss]
        omega
      | succ t ih =>
        rw [FlowMan.valueAt_succ, hstep _ (hlt t), ih]
        omega
  obtain ⟨d, hd, hval⟩ := hval
  have hlen : i.maxValue.toNat - i.minValue.toNat + 1 = 2 ^ 64 := by
    rw [hmin', hmax']
    rfl
  rw [FlowMan.cycle, hlen, hmin', ← range_eq_range']
  exact perm_range_mod (by decide) hd hval

end Trex.Vm

namespace Trex.Stream

open Trex.Lib Trex.Vm

/-! ## 2. The parts of a range -/

/-- The parts that `split` gives to `m` cores: the first one as given, the others of the same
size. -/
def splitRanges (part : UInt64) : Nat → UInt64 → UInt64 → List (UInt64 × UInt64)
  | 0, _, _ => []
  | m + 1, start, end_ => (start, end_) :: splitRanges part m (end_ + 1) (end_ + 1 + part - 1)

/-- A range as numbers. -/
def natRange (r : UInt64 × UInt64) : Nat × Nat := (r.1.toNat, r.2.toNat)

/-- **The parts tile the range**, when the range ends below `2 ^ 64`. -/
theorem splitRanges_tiles {part : UInt64} (hpart : 1 ≤ part.toNat) : ∀ (m : Nat)
    (start end_ : UInt64), start.toNat ≤ end_.toNat → end_.toNat + part.toNat * m < 2 ^ 64 →
      Tiles start.toNat (end_.toNat + part.toNat * m)
        ((splitRanges part (m + 1) start end_).map natRange)
  | 0, start, end_, hle, _ => by
    simpa [splitRanges, natRange] using Tiles.one hle
  | m + 1, start, end_, hle, hlt => by
    have hmul : part.toNat * (m + 1) = part.toNat + part.toNat * m := by ring
    have h1 : (end_ + 1).toNat = end_.toNat + 1 := by
      rw [UInt64.toNat_add, UInt64.toNat_one]
      omega
    have h2 : (end_ + 1 + part - 1).toNat = end_.toNat + part.toNat := by
      rw [UInt64.toNat_sub, UInt64.toNat_add, h1, UInt64.toNat_one]
      omega
    have hrest := splitRanges_tiles hpart m (end_ + 1) (end_ + 1 + part - 1) (by omega) (by omega)
    rw [h1, h2] at hrest
    have hend : end_.toNat + part.toNat * (m + 1) = end_.toNat + part.toNat + part.toNat * m := by
      omega
    rw [hend, splitRanges, List.map_cons]
    exact Tiles.cons hle hrest

/-- The parts for `n` cores of a range of `range` numbers. -/
def partsOf (n : Nat) (min range : UInt64) : List (UInt64 × UInt64) :=
  let dpCoreCount := UInt64.ofNat n
  let rangePart := range / dpCoreCount
  splitRanges rangePart n min (min + rangePart + range % dpCoreCount - 1)

theorem partsOf_tiles {n : Nat} {min range : UInt64} (hn : 0 < n) (hle : n ≤ range.toNat)
    (hmax : min.toNat + range.toNat ≤ 2 ^ 64) :
    Tiles min.toNat (min.toNat + range.toNat - 1) ((partsOf n min range).map natRange) := by
  have hr := range.toNat_lt
  have hcnt : (UInt64.ofNat n).toNat = n := UInt64.toNat_ofNat_of_lt' (by
    have : UInt64.size = 2 ^ 64 := rfl
    omega)
  obtain ⟨m, rfl⟩ : ∃ m, n = m + 1 := ⟨n - 1, by omega⟩
  have hpart : (range / UInt64.ofNat (m + 1)).toNat = range.toNat / (m + 1) := by
    rw [UInt64.toNat_div, hcnt]
  have hleft : (range % UInt64.ofNat (m + 1)).toNat = range.toNat % (m + 1) := by
    rw [UInt64.toNat_mod, hcnt]
  have hpos : 1 ≤ range.toNat / (m + 1) := Nat.div_pos hle hn
  have hsum : range.toNat / (m + 1) * m + range.toNat / (m + 1) + range.toNat % (m + 1)
      = range.toNat := by
    have := Nat.div_add_mod range.toNat (m + 1)
    rw [Nat.mul_comm, Nat.mul_succ] at this
    exact this
  have hend : (min + range / UInt64.ofNat (m + 1) + range % UInt64.ofNat (m + 1) - 1).toNat
      = min.toNat + range.toNat / (m + 1) + range.toNat % (m + 1) - 1 := by
    rw [UInt64.toNat_sub, UInt64.toNat_add, UInt64.toNat_add, hpart, hleft, UInt64.toNat_one]
    omega
  have htiles := splitRanges_tiles (hpart ▸ hpos) m min
    (min + range / UInt64.ofNat (m + 1) + range % UInt64.ofNat (m + 1) - 1)
    (by rw [hend]; omega) (by rw [hend, hpart]; omega)
  rw [hend, hpart] at htiles
  have hlast : min.toNat + range.toNat / (m + 1) + range.toNat % (m + 1) - 1
      + range.toNat / (m + 1) * m = min.toNat + range.toNat - 1 := by omega
  rwa [hlast] at htiles

theorem length_splitRanges (part : UInt64) : ∀ (m : Nat) (start end_ : UInt64),
    (splitRanges part m start end_).length = m
  | 0, _, _ => rfl
  | m + 1, start, end_ => by rw [splitRanges, List.length_cons, length_splitRanges]

/-! ## 3. What `split` returns -/

/-- A data-plane object is the one compiled from a VM, for packets of `len` bytes. -/
def IsObjectOf (vm : StreamVm) (len : UInt16) (dp : Option StreamVmDp) : Prop :=
  ∃ rand c d, compile rand vm.instList len = .ok (some c) ∧ generateDpObject c = .ok d ∧ dp = some d

variable {s : TrexStream} {rand : Nat → Nat} {vm : StreamVm} {k : Nat} {x : Instr}
  {cores' cores : List TrexStream} {parts : List (UInt64 × UInt64)} {i : FlowClient}

theorem vmCompile_ok {rand : Nat} {s' : TrexStream} (hne : s.vm.isVmEmpty = false)
    (h : s.vmCompile rand = .ok s') : s'.vm = s.vm ∧ IsObjectOf s.vm s.pkt.len s'.vmDp := by
  obtain ⟨c, hc, h⟩ := bind_eq_ok h
  cases c with
  | none =>
    -- only an empty VM is left uncompiled
    exfalso
    unfold compile at hc
    rw [StreamVm.isVmEmpty] at hne
    rw [if_neg (by simp [hne])] at hc
    obtain ⟨t, -, hc⟩ := bind_eq_ok hc
    obtain ⟨bss, -, hc⟩ := bind_eq_ok hc
    obtain ⟨p, -, hc⟩ := bind_eq_ok hc
    dsimp only at hc
    split at hc
    · cases hc
    · cases hc
  | some c =>
    obtain ⟨d, hd, h⟩ := bind_eq_ok h
    cases h
    exact ⟨rfl, rand, c, d, hc, hd, rfl⟩

variable {instr : UInt64 → UInt64 → Instr} {β : Type} {f : Instr → Option β}

/-- The loop gives every core the VM with its part of the range. -/
theorem splitLoop_ok {part : UInt64} {len : UInt16}
    (hne : ∀ x, (vm.setInstr k x).isVmEmpty = false) : ∀ {cores cores' : List TrexStream} {j : Nat}
    {start end_ : UInt64}, (∀ c ∈ cores, c.pkt.len = len) →
      splitLoop rand vm k instr part j start end_ cores = .ok cores' →
        cores'.map TrexStream.vm = (splitRanges part cores.length start end_).map
            (fun r => vm.setInstr k (instr r.1 r.2))
          ∧ ∀ c ∈ cores', IsObjectOf c.vm len c.vmDp
  | [], cores', j, start, end_, _, h => by
    cases h
    exact ⟨rfl, fun c hc => absurd hc (by simp)⟩
  | core :: cores, cores', j, start, end_, hlen, h => by
    obtain ⟨core', h1, h⟩ := bind_eq_ok h
    obtain ⟨rest, h2, h⟩ := bind_eq_ok h
    cases h
    obtain ⟨hvm, hobj⟩ := vmCompile_ok (hne _) h1
    obtain ⟨hvms, hobjs⟩ := splitLoop_ok hne (fun c hc => hlen c (by simp [hc])) h2
    have hl : core.pkt.len = len := hlen core (by simp)
    refine ⟨?_, ?_⟩
    · rw [List.map_cons, hvm, hvms, List.length_cons, splitRanges, List.map_cons]
    · intro c hc
      rcases List.mem_cons.mp hc with rfl | hc
      · rw [hvm]
        exact hl ▸ hobj
      · exact hobjs c hc

/-- The VM that a core's stream runs: its own, or the source's when the object was cloned. -/
def coreVm (s core : TrexStream) : StreamVm := if core.vm.isVmEmpty then s.vm else core.vm

/-- The instruction at a position of the VM that a core runs. -/
def instrAt (s : TrexStream) (k : Nat) (core : TrexStream) : Option Instr :=
  (coreVm s core).instList[k]?

/-- A flow variable. -/
def asFlowMan : Instr → Option FlowMan
  | .flowMan i => some i
  | _ => none

/-- A client variable. -/
def asFlowClient : Instr → Option FlowClient
  | .flowClient i => some i
  | _ => none

/-- The flow variables that the cores have at a position. -/
def flowMansAt (s : TrexStream) (k : Nat) (cores : List TrexStream) : List FlowMan :=
  cores.filterMap fun c => (instrAt s k c).bind asFlowMan

/-- The client variables that the cores have at a position. -/
def flowClientsAt (s : TrexStream) (k : Nat) (cores : List TrexStream) : List FlowClient :=
  cores.filterMap fun c => (instrAt s k c).bind asFlowClient

/-- The instruction to split by stands in the list. -/
theorem getSplitInstruction_get {v : InstrVar} (h : vm.getSplitInstruction = some (k, v)) :
    vm.instList[k]? = some (match v with
      | .flowMan i => .flowMan i
      | .flowClient i => .flowClient i) := by
  unfold StreamVm.getSplitInstruction at h
  split at h
  · cases h
  split at h
  · rename_i hk
    cases h
    exact hk
  · rename_i hk
    cases h
    exact hk
  · cases h

theorem isVmEmpty_of_get (h : vm.instList[k]? = some x) :
    vm.isVmEmpty = false := by
  have hk : k < vm.instList.length := (List.getElem?_eq_some_iff.mp h).1
  rw [StreamVm.isVmEmpty, List.isEmpty_eq_false_iff_exists_mem]
  exact ⟨_, List.getElem_mem hk⟩

theorem setInstr_get (h : vm.instList[k]? = some x) (y : Instr) :
    (vm.setInstr k y).instList[k]? = some y := by
  have hk : k < vm.instList.length := (List.getElem?_eq_some_iff.mp h).1
  simp [StreamVm.setInstr, hk]

theorem bind_some_eq_map {ε α : Type} (x : Except ε α) :
    (x >>= fun a => Except.ok (some a)) = x.map some := by
  cases x <;> rfl

section Outcome

variable {rand : Nat → Nat} {s : TrexStream} {cores cores' : List TrexStream}
  (hfresh : ∀ c ∈ cores, c.vm = {} ∧ c.pkt.len = s.pkt.len)

include hfresh

/-- **A VM that is not split** is compiled once, and every core gets the object. -/
theorem split_cloned (hne : s.vm.isVmEmpty = false)
    (hnone : splitInternal rand s.vm cores = .ok none) (h : split rand s cores = .ok cores') :
    cores'.map TrexStream.vm = cores.map (fun _ => {})
      ∧ ∃ dp, IsObjectOf s.vm s.pkt.len dp ∧ ∀ c ∈ cores', c.vmDp = dp := by
  unfold split at h
  rw [if_neg (by simp [hne])] at h
  simp only [hnone, bind, Except.bind] at h
  cases hc : s.vmCompile (rand 0) with
  | error e =>
    rw [hc] at h
    cases h
  | ok compiled =>
    rw [hc] at h
    cases h
    obtain ⟨-, hobj⟩ := vmCompile_ok hne hc
    refine ⟨?_, compiled.vmDp, hobj, fun c hc => ?_⟩
    · rw [List.map_map]
      exact List.map_congr_left fun c hc => (hfresh c hc).1
    · obtain ⟨c', -, rfl⟩ := List.mem_map.mp hc
      rfl

/-- **A VM that is split**: every core gets the VM with its part, compiled. -/
theorem split_parts {min range : UInt64} (hk : s.vm.instList[k]? = some x)
    (hsplit : splitInternal rand s.vm cores
      = (splitRange rand s.vm k instr min range cores).map some)
    (h : split rand s cores = .ok cores') :
    cores'.map TrexStream.vm
        = (partsOf cores.length min range).map (fun r => s.vm.setInstr k (instr r.1 r.2))
      ∧ ∀ c ∈ cores', IsObjectOf c.vm s.pkt.len c.vmDp := by
  have hne : ∀ y, (s.vm.setInstr k y).isVmEmpty = false :=
    fun y => isVmEmpty_of_get (setInstr_get hk y)
  unfold split at h
  rw [if_neg (by simp [isVmEmpty_of_get hk]), hsplit] at h
  cases hr : splitRange rand s.vm k instr min range cores with
  | error e =>
    rw [hr] at h
    cases h
  | ok cs =>
    rw [hr] at h
    cases h
    exact splitLoop_ok hne (fun c hc => (hfresh c hc).2) hr

end Outcome

/-- The streams that `compile_stream` makes for the cores have no VM yet. -/
theorem coreStreams_fresh (s : TrexStream) (factor : Rat) (n : Nat) (newId newNextId : Int32) :
    (coreStreams s factor n newId newNextId).length = n
      ∧ ∀ c ∈ coreStreams s factor n newId newNextId, c.vm = {} ∧ c.pkt.len = s.pkt.len := by
  refine ⟨by simp [coreStreams], fun c hc => ?_⟩
  obtain ⟨i, -, rfl⟩ := List.mem_map.mp hc
  exact ⟨rfl, rfl⟩

/-- The instructions at a position, of cores whose VMs are known to hold them there. -/
theorem filterMap_instrAt :
    ∀ {cores' : List TrexStream} {l : List β},
      cores'.map (fun c => (instrAt s k c).bind f) = l.map some →
        cores'.filterMap (fun c => (instrAt s k c).bind f) = l
  | [], [], _ => rfl
  | [], _ :: _, h => by cases h
  | _ :: _, [], h => by cases h
  | c :: cores', x :: l, h => by
    rw [List.map_cons, List.map_cons, List.cons.injEq] at h
    rw [List.filterMap_cons, h.1, filterMap_instrAt h.2]

/-- The instruction of every core, where the VMs were split. -/
theorem instrAt_parts {instr : UInt64 × UInt64 → Instr} {g : UInt64 × UInt64 → β}
    (hk : s.vm.instList[k]? = some x) (hf : ∀ r, f (instr r) = some (g r))
    (hvms : cores'.map TrexStream.vm = parts.map fun r => s.vm.setInstr k (instr r)) :
    cores'.map (fun c => (instrAt s k c).bind f) = (parts.map g).map some := by
  have hone : ∀ r : UInt64 × UInt64, (if (s.vm.setInstr k (instr r)).isVmEmpty then s.vm
      else s.vm.setInstr k (instr r)).instList[k]?.bind f = some (g r) := by
    intro r
    rw [if_neg (by simp [isVmEmpty_of_get (setInstr_get hk _)]), setInstr_get hk, Option.bind_some,
      hf]
  have hmap := congrArg (List.map fun vm : StreamVm =>
    (if vm.isVmEmpty then s.vm else vm).instList[k]?.bind f) hvms
  rw [List.map_map, List.map_map] at hmap
  rw [List.map_map]
  exact hmap.trans (List.map_congr_left fun r _ => hone r)

/-- The instruction of every core, where the object was cloned. -/
theorem instrAt_cloned {y : β} (hk : s.vm.instList[k]? = some x) (hf : f x = some y)
    (hvms : cores'.map TrexStream.vm = cores.map fun _ => {}) :
    cores'.map (fun c => (instrAt s k c).bind f) = (List.replicate cores.length y).map some := by
  have hmap := congrArg (List.map fun vm : StreamVm =>
    (if vm.isVmEmpty then s.vm else vm).instList[k]?.bind f) hvms
  rw [List.map_map, List.map_map] at hmap
  refine hmap.trans ?_
  have hone : ∀ c : TrexStream, ((fun vm : StreamVm =>
      (if vm.isVmEmpty then s.vm else vm).instList[k]?.bind f) ∘ fun _ : TrexStream => {}) c
      = some y := by
    intro c
    change s.vm.instList[k]?.bind f = some y
    rw [hk, Option.bind_some, hf]
  rw [List.map_replicate, List.map_congr_left fun c _ => hone c, List.map_const']

/-! ## 4. Flow variables -/

/-- The cores' parts of a flow variable tile its range, and one cycle on all cores together runs
through every value once. -/
structure FlowVarSplit (s : TrexStream) (k : Nat) (i : FlowMan) (cores : List TrexStream) :
    Prop where
  all : (flowMansAt s k cores).length = cores.length
  ranges : Tiles i.minValue.toNat i.maxValue.toNat
    ((flowMansAt s k cores).map fun p => (p.minValue.toNat, p.maxValue.toNat))
  cycle : ((flowMansAt s k cores).flatMap FlowMan.cycle).Perm
    (List.range' i.minValue.toNat (i.maxValue.toNat - i.minValue.toNat + 1))

/-- The last value of the range can be counted to only if it is a number of the variable's size. -/
theorem FlowVarSplit.fits {i : FlowMan} (h : FlowVarSplit s k i cores)
    (hle : i.minValue.toNat ≤ i.maxValue.toNat)
    (hsize : ∀ p ∈ flowMansAt s k cores, p.sizeBytes = i.sizeBytes) :
    i.maxValue.toNat < 256 ^ i.sizeBytes.toNat := by
  have hmem : i.maxValue.toNat ∈ (flowMansAt s k cores).flatMap FlowMan.cycle := by
    rw [h.cycle.mem_iff, List.mem_range'_1]
    omega
  obtain ⟨p, hp, hv⟩ := List.mem_flatMap.mp hmem
  obtain ⟨t, -, ht⟩ := List.mem_map.mp hv
  rw [← ht, ← hsize p hp]
  exact p.valueAt_lt t

/-- The size of a range that is not the range of all numbers. -/
theorem getSplitableRange_toNat {i : FlowMan} (hle : i.minValue.toNat ≤ i.maxValue.toNat)
    (hfull : ¬ (i.minValue = 0 ∧ i.maxValue = 0xFFFFFFFFFFFFFFFF)) :
    (getSplitableRange i).toNat = i.maxValue.toNat - i.minValue.toNat + 1 := by
  have h1 := i.minValue.toNat_lt
  have h2 := i.maxValue.toNat_lt
  have hne : ¬ (i.minValue.toNat = 0 ∧ i.maxValue.toNat = 2 ^ 64 - 1) := by
    rintro ⟨h0, hm⟩
    exact hfull ⟨UInt64.toNat_inj.mp h0, UInt64.toNat_inj.mp hm⟩
  rw [getSplitableRange, UInt64.toNat_add, UInt64.toNat_sub, UInt64.toNat_one]
  omega

theorem getSplitableRange_full {i : FlowMan} (hmin : i.minValue = 0)
    (hmax : i.maxValue = 0xFFFFFFFFFFFFFFFF) : (getSplitableRange i).toNat = 0 := by
  rw [getSplitableRange, hmin, hmax]
  decide

/-- The parts of a flow variable that is split. -/
theorem flowVarSplit_parts {i : FlowMan} (hop : i.op ≠ .RANDOM)
    (hall : flowMansAt s k cores' = parts.map fun r => perCoreFlowMan i r.1 r.2)
    (hlen : parts.length = cores'.length)
    (htiles : Tiles i.minValue.toNat i.maxValue.toNat (parts.map natRange))
    (hfit : i.maxValue.toNat < 256 ^ i.sizeBytes.toNat) : FlowVarSplit s k i cores' := by
  have hranges : (flowMansAt s k cores').map (fun p => (p.minValue.toNat, p.maxValue.toNat))
      = parts.map natRange := by
    rw [hall, List.map_map]
    rfl
  refine ⟨?_, hranges ▸ htiles, ?_⟩
  · rw [hall, List.length_map, hlen]
  · rw [← htiles.flatMap_range', hall, List.flatMap_map, List.flatMap_map]
    refine List.Perm.flatMap_left parts fun r hr => ?_
    obtain ⟨-, hle, hmax⟩ := htiles.inside (natRange r) (List.mem_map_of_mem hr)
    have hfit' : r.2.toNat < 256 ^ i.sizeBytes.toNat := lt_of_le_of_lt hmax hfit
    have hinit : (perCoreFlowMan i r.1 r.2).initValue = if i.op = .DEC then r.2 else r.1 := rfl
    exact FlowMan.cycle_perm (i := perCoreFlowMan i r.1 r.2) hle hfit' hop hinit

/-- A variable that can hold all 64-bit numbers has 8 bytes. -/
theorem sizeBytes_of_full {len : UInt16} {dp : Option StreamVmDp} {i : FlowMan}
    (hobj : IsObjectOf vm len dp) (hi : Instr.flowMan i ∈ vm.instList)
    (hmax : i.maxValue = 0xFFFFFFFFFFFFFFFF) (hfit : i.maxValue.toNat < 256 ^ i.sizeBytes.toNat) :
    i.sizeBytes = 8 := by
  obtain ⟨rand, c, d, hc, -, -⟩ := hobj
  obtain ⟨ops, hp⟩ := passed_of_compile hc
  obtain ⟨off, w, -, -, hw⟩ := lookup_flowMan hp.table hi
  have hbytes := ofSize_bytes hw
  have hmax' : i.maxValue.toNat = 2 ^ 64 - 1 := by rw [hmax]; rfl
  rw [← hbytes, hmax'] at hfit
  refine UInt8.toNat_inj.mp ?_
  rw [← hbytes]
  cases w with
  | w64 => rfl
  | w8 => exact absurd hfit (by decide)
  | w16 => exact absurd hfit (by decide)
  | w32 => exact absurd hfit (by decide)

/-- **Splitting by a flow variable.** -/
theorem flowVarSplit_iff (hfresh : ∀ c ∈ cores, c.vm = {} ∧ c.pkt.len = s.pkt.len)
    (hn : 0 < cores.length) (h : split rand s cores = .ok cores') {i : FlowMan}
    (hget : s.vm.getSplitInstruction = some (k, .flowMan i)) (hop : i.op ≠ .RANDOM)
    (hle : i.minValue.toNat ≤ i.maxValue.toNat)
    (hrange : cores.length ≤ i.maxValue.toNat - i.minValue.toNat + 1) :
    FlowVarSplit s k i cores' ↔ i.maxValue.toNat < 256 ^ i.sizeBytes.toNat
      ∧ (cores.length = 1 ∨ ¬ (i.minValue = 0 ∧ i.maxValue = 0xFFFFFFFFFFFFFFFF)) := by
  have hk := getSplitInstruction_get hget
  have hne := isVmEmpty_of_get hk
  have hinternal : splitInternal rand s.vm cores = splitByFlowVar rand s.vm cores k i := by
    simp only [splitInternal, hget]
  by_cases hfull : i.minValue = 0 ∧ i.maxValue = 0xFFFFFFFFFFFFFFFF
  · -- the size of the range wraps to 0, so the object is cloned
    have hnone : splitInternal rand s.vm cores = .ok none := by
      rw [hinternal, splitByFlowVar, if_neg hop,
        if_pos (by rw [getSplitableRange_full hfull.1 hfull.2]; exact hn)]
    obtain ⟨hvms, dp, hobj, -⟩ := split_cloned hfresh hne hnone h
    have hlen : cores'.length = cores.length := by
      simpa using congrArg List.length hvms
    have hall : flowMansAt s k cores' = List.replicate cores.length i :=
      filterMap_instrAt (instrAt_cloned hk rfl hvms)
    constructor
    · intro hsplit
      refine ⟨hsplit.fits hle fun p hp => ?_, Or.inl ?_⟩
      · rw [hall] at hp
        rw [List.eq_of_mem_replicate hp]
      · by_contra hmany
        obtain ⟨m, hm⟩ : ∃ m, cores.length = m + 2 := ⟨cores.length - 2, by omega⟩
        have htiles := hsplit.ranges
        rw [hall, hm, List.replicate_succ, List.replicate_succ, List.map_cons, List.map_cons]
          at htiles
        -- the second part would have to begin behind the end of the first
        have hbad : i.minValue.toNat = i.maxValue.toNat + 1 := htiles.adjacent
        omega
    · rintro ⟨hfit, hone | hnot⟩
      · have hsingle : flowMansAt s k cores' = [i] := by rw [hall, hone]; rfl
        have hsize : i.sizeBytes = 8 :=
          sizeBytes_of_full hobj (List.mem_of_getElem? hk) hfull.2 hfit
        refine ⟨?_, ?_, ?_⟩
        · rw [hsingle, hlen, hone]
          rfl
        · rw [hsingle]
          exact Tiles.one hle
        · rw [hsingle, List.flatMap_singleton]
          exact FlowMan.cycle_perm_full hop hsize hfull.1 hfull.2
      · exact absurd hfull hnot
  · have hsz := getSplitableRange_toNat hle hfull
    have hsplit : splitInternal rand s.vm cores = (splitRange rand s.vm k
        (fun a b => .flowMan (perCoreFlowMan i a b)) i.minValue (getSplitableRange i) cores).map
            some := by
      rw [hinternal, splitByFlowVar, if_neg hop, if_neg (by rw [hsz]; omega)]
      exact bind_some_eq_map _
    obtain ⟨hvms, -⟩ := split_parts hfresh hk hsplit h
    have hlen : (partsOf cores.length i.minValue (getSplitableRange i)).length = cores'.length := by
      simpa using (congrArg List.length hvms).symm
    have hall : flowMansAt s k cores' = (partsOf cores.length i.minValue (getSplitableRange i)).map
        fun r => perCoreFlowMan i r.1 r.2 :=
      filterMap_instrAt (instrAt_parts hk (fun r => rfl) hvms)
    have hroom : i.minValue.toNat + (getSplitableRange i).toNat ≤ 2 ^ 64 := by
      have := i.maxValue.toNat_lt
      omega
    have htiles := partsOf_tiles hn (hsz ▸ hrange) hroom
    have hend : i.minValue.toNat + (getSplitableRange i).toNat - 1 = i.maxValue.toNat := by
      rw [hsz]
      omega
    rw [hend] at htiles
    constructor
    · intro hs
      refine ⟨hs.fits hle fun p hp => ?_, Or.inr hfull⟩
      rw [hall] at hp
      obtain ⟨r, -, rfl⟩ := List.mem_map.mp hp
      rfl
    · exact fun hc => flowVarSplit_parts hop hall hlen htiles hc.1

/-! ## 5. Clients -/

/-- The address of a client variable at its `t`-th execution, from what `build_bss` stores. -/
def ipAt (i : FlowClient) (t : Nat) : Nat := (i.next^[t + 1] ⟨i.bssIp, i.bssPort, 0⟩).curIp

/-- The addresses over as many executions as the range has addresses. -/
def ipCycle (i : FlowClient) : List Nat :=
  (List.range (i.clientMax.toNat - i.clientMin.toNat + 1)).map (ipAt i)

/-- The number of flows is not limited. -/
def NoFlowLimit (i : FlowClient) : Prop := i.isUnlimitedFlows = true ∨ i.limitNumFlows = 0

/-- Without a limit of the flows an execution takes the next address, and the first one behind the
last. -/
theorem next_curIp (hlim : NoFlowLimit i) (v : FlowClientVar) :
    (i.next v).curIp = if (v.curIp + 1) % 2 ^ 32 > i.clientMax.toNat then i.clientMin.toNat
      else (v.curIp + 1) % 2 ^ 32 := by
  unfold FlowClient.next
  split
  · simp only [clientsUnLimitRun]
    split <;> rfl
  · rename_i hun
    rcases hlim with h | h
    · exact absurd h hun
    · simp only [clientsLimitRun, h]
      rw [if_neg (by decide)]
      split <;> rfl

theorem ipAt_zero (hlim : NoFlowLimit i) :
    ipAt i 0 = if (i.bssIp + 1) % 2 ^ 32 > i.clientMax.toNat then i.clientMin.toNat
      else (i.bssIp + 1) % 2 ^ 32 := by
  simp [ipAt, next_curIp hlim]

theorem ipAt_succ (hlim : NoFlowLimit i) (t : Nat) :
    ipAt i (t + 1) = if (ipAt i t + 1) % 2 ^ 32 > i.clientMax.toNat then i.clientMin.toNat
      else (ipAt i t + 1) % 2 ^ 32 := by
  rw [ipAt, Function.iterate_succ_apply', next_curIp hlim, ipAt]

/-- **Without a limit of the flows, the addresses of the range come once each.** -/
theorem ipCycle_perm (hlim : NoFlowLimit i) (hle : i.clientMin.toNat ≤ i.clientMax.toNat) :
    (ipCycle i).Perm (List.range' i.clientMin.toNat (i.clientMax.toNat - i.clientMin.toNat +
        1)) := by
  have hmax := i.clientMax.toNat_lt
  by_cases hmin : i.clientMin.toNat = 0
  · -- the variable starts at 0 itself, so the first address comes last
    have hbss : i.bssIp = 0 := by
      have h0 : ¬ i.clientMin > 0 := by
        rw [gt_iff_lt, UInt32.lt_iff_toNat_lt, hmin]
        decide
      rw [FlowClient.bssIp, if_neg h0, hmin]
    have hval : ∀ t, t < i.clientMax.toNat → ipAt i t = t + 1 := by
      intro t ht
      induction t with
      | zero =>
        rw [ipAt_zero hlim, hbss, hmin]
        split <;> omega
      | succ t ih =>
        rw [ipAt_succ hlim, ih (by omega), hmin]
        split <;> omega
    have hlast : ipAt i i.clientMax.toNat = 0 := by
      cases hm : i.clientMax.toNat with
      | zero =>
        rw [ipAt_zero hlim, hbss, hmin]
        split <;> omega
      | succ m =>
        rw [ipAt_succ hlim, hval m (by omega), hmin]
        split <;> omega
    have hlist : ipCycle i = List.range' 1 i.clientMax.toNat ++ [0] := by
      rw [ipCycle, hmin, Nat.sub_zero, List.range_succ, List.map_append, List.map_singleton, hlast,
        List.range'_eq_map_range]
      congr 1
      refine List.map_congr_left fun t ht => ?_
      rw [hval t (List.mem_range.mp ht), Nat.add_comm]
    rw [hlist, hmin, Nat.sub_zero, List.range'_succ]
    exact List.perm_append_singleton 0 _
  · have hbss : i.bssIp = i.clientMin.toNat - 1 := by
      have h0 : i.clientMin > 0 := by
        rw [gt_iff_lt, UInt32.lt_iff_toNat_lt]
        exact Nat.pos_of_ne_zero hmin
      rw [FlowClient.bssIp, if_pos h0]
    have hval : ∀ t, t ≤ i.clientMax.toNat - i.clientMin.toNat →
        ipAt i t = i.clientMin.toNat + t := by
      intro t ht
      induction t with
      | zero =>
        rw [ipAt_zero hlim, hbss]
        split <;> omega
      | succ t ih =>
        rw [ipAt_succ hlim, ih (by omega)]
        split <;> omega
    have hlist : ipCycle i
        = List.range' i.clientMin.toNat (i.clientMax.toNat - i.clientMin.toNat + 1) := by
      rw [ipCycle, List.range'_eq_map_range]
      refine List.map_congr_left fun t ht => hval t ?_
      have := List.mem_range.mp ht
      omega
    rw [hlist]

/-- The cores' parts of the addresses tile the range, and without a limit of the flows all cores
together go through every address once. -/
structure ClientSplit (s : TrexStream) (k : Nat) (i : FlowClient) (cores : List TrexStream) :
    Prop where
  all : (flowClientsAt s k cores).length = cores.length
  ranges : Tiles i.clientMin.toNat i.clientMax.toNat
    ((flowClientsAt s k cores).map fun p => (p.clientMin.toNat, p.clientMax.toNat))
  cycle : NoFlowLimit i → ((flowClientsAt s k cores).flatMap ipCycle).Perm
    (List.range' i.clientMin.toNat (i.clientMax.toNat - i.clientMin.toNat + 1))

theorem getIpRange_toNat (hle : i.clientMin.toNat ≤ i.clientMax.toNat)
    (hfull : ¬ (i.clientMin = 0 ∧ i.clientMax = 0xFFFFFFFF)) :
    (getIpRange i).toNat = i.clientMax.toNat - i.clientMin.toNat + 1 := by
  have h1 := i.clientMin.toNat_lt
  have h2 := i.clientMax.toNat_lt
  have hne : ¬ (i.clientMin.toNat = 0 ∧ i.clientMax.toNat = 2 ^ 32 - 1) := by
    rintro ⟨h0, hm⟩
    exact hfull ⟨UInt32.toNat_inj.mp h0, UInt32.toNat_inj.mp hm⟩
  rw [getIpRange, UInt32.toNat_add, UInt32.toNat_sub, UInt32.toNat_one]
  omega

theorem getIpRange_full (hmin : i.clientMin = 0) (hmax : i.clientMax = 0xFFFFFFFF) :
    (getIpRange i).toNat = 0 := by
  rw [getIpRange, hmin, hmax]
  decide

/-- Fewer addresses than cores are not split. -/
theorem splitInternal_client_none (rand : Nat → Nat)
    (hget : s.vm.getSplitInstruction = some (k, .flowClient i))
    (hlt : (getIpRange i).toNat < cores.length) : splitInternal rand s.vm cores = .ok none := by
  simp only [splitInternal, hget]
  exact if_pos hlt

/-- The others are split by addresses. -/
theorem splitInternal_client_parts (rand : Nat → Nat)
    (hget : s.vm.getSplitInstruction = some (k, .flowClient i))
    (hge : cores.length ≤ (getIpRange i).toNat) :
    splitInternal rand s.vm cores = (splitRange rand s.vm k
      (fun a b => .flowClient (perCoreFlowClient i a b)) i.clientMin.toUInt64
          (getIpRange i).toUInt64 cores).map some := by
  simp only [splitInternal, hget]
  rw [splitByFlowClientVar, if_neg (by omega)]
  exact bind_some_eq_map _

/-- The parts for `n` cores of the addresses of an instruction. -/
def clientParts (i : FlowClient) (n : Nat) : List (UInt64 × UInt64) :=
  partsOf n i.clientMin.toUInt64 (getIpRange i).toUInt64

theorem clientParts_tiles {n : Nat} (hn : 0 < n) (hle : i.clientMin.toNat ≤ i.clientMax.toNat)
    (hrange : n ≤ i.clientMax.toNat - i.clientMin.toNat + 1)
    (hfull : ¬ (i.clientMin = 0 ∧ i.clientMax = 0xFFFFFFFF)) :
    Tiles i.clientMin.toNat i.clientMax.toNat ((clientParts i n).map natRange) := by
  have hmax := i.clientMax.toNat_lt
  have hsz : (getIpRange i).toUInt64.toNat = i.clientMax.toNat - i.clientMin.toNat + 1 := by
    rw [UInt32.toNat_toUInt64, getIpRange_toNat hle hfull]
  have hmin : i.clientMin.toUInt64.toNat = i.clientMin.toNat := UInt32.toNat_toUInt64 _
  have hroom : i.clientMin.toUInt64.toNat + (getIpRange i).toUInt64.toNat ≤ 2 ^ 64 := by omega
  have htiles := partsOf_tiles hn (hsz ▸ hrange) hroom
  have hend : i.clientMin.toNat + (i.clientMax.toNat - i.clientMin.toNat + 1) - 1 =
    i.clientMax.toNat := by omega
  rw [hmin, hsz, hend] at htiles
  exact htiles

/-- The addresses lie below `2 ^ 32`, so nothing is lost in the conversion. -/
theorem perCoreFlowClient_range
    (htiles : Tiles i.clientMin.toNat i.clientMax.toNat (parts.map natRange)) : ∀ r ∈ parts,
      (perCoreFlowClient i r.1 r.2).clientMin.toNat = r.1.toNat ∧
        (perCoreFlowClient i r.1 r.2).clientMax.toNat = r.2.toNat := by
  intro r hr
  have hmax := i.clientMax.toNat_lt
  obtain ⟨-, h1, h2⟩ := htiles.inside (natRange r) (List.mem_map_of_mem hr)
  simp only [natRange] at h1 h2
  simp only [perCoreFlowClient, UInt64.toNat_toUInt32]
  omega

theorem perCoreFlowClient_ranges
    (htiles : Tiles i.clientMin.toNat i.clientMax.toNat (parts.map natRange)) :
    (parts.map fun r => perCoreFlowClient i r.1 r.2).map (fun p =>
      (p.clientMin.toNat, p.clientMax.toNat)) = parts.map natRange := by
  rw [List.map_map]
  refine List.map_congr_left fun r hr => ?_
  obtain ⟨h1, h2⟩ := perCoreFlowClient_range htiles r hr
  simp only [Function.comp, h1, h2, natRange]

/-- The parts of a client variable that is split. -/
theorem clientSplit_parts
    (hall : flowClientsAt s k cores' = parts.map fun r => perCoreFlowClient i r.1 r.2)
    (hlen : parts.length = cores'.length)
    (htiles : Tiles i.clientMin.toNat i.clientMax.toNat (parts.map natRange)) :
    ClientSplit s k i cores' := by
  have hranges : (flowClientsAt s k cores').map (fun p => (p.clientMin.toNat, p.clientMax.toNat))
      = parts.map natRange := by
    rw [hall]
    exact perCoreFlowClient_ranges htiles
  refine ⟨?_, hranges ▸ htiles, fun hlim => ?_⟩
  · rw [hall, List.length_map, hlen]
  · rw [← htiles.flatMap_range', hall, List.flatMap_map, List.flatMap_map]
    refine List.Perm.flatMap_left parts fun r hr => ?_
    obtain ⟨-, hle, -⟩ := htiles.inside (natRange r) (List.mem_map_of_mem hr)
    obtain ⟨h1, h2⟩ := perCoreFlowClient_range htiles r hr
    have hlim' : NoFlowLimit (perCoreFlowClient i r.1 r.2) := hlim
    have hperm := ipCycle_perm hlim' (by rw [h1, h2]; exact hle)
    rwa [h1, h2] at hperm

/-- **Splitting by a client variable.** -/
theorem clientSplit_iff (hfresh : ∀ c ∈ cores, c.vm = {} ∧ c.pkt.len = s.pkt.len)
    (hn : 0 < cores.length) (h : split rand s cores = .ok cores')
    (hget : s.vm.getSplitInstruction = some (k, .flowClient i))
    (hle : i.clientMin.toNat ≤ i.clientMax.toNat)
    (hrange : cores.length ≤ i.clientMax.toNat - i.clientMin.toNat + 1) :
    ClientSplit s k i cores'
      ↔ cores.length = 1 ∨ ¬ (i.clientMin = 0 ∧ i.clientMax = 0xFFFFFFFF) := by
  have hk := getSplitInstruction_get hget
  have hne := isVmEmpty_of_get hk
  by_cases hfull : i.clientMin = 0 ∧ i.clientMax = 0xFFFFFFFF
  · have hnone := splitInternal_client_none rand hget
      (by rw [getIpRange_full hfull.1 hfull.2]; exact hn)
    obtain ⟨hvms, -⟩ := split_cloned hfresh hne hnone h
    have hlen : cores'.length = cores.length := by
      simpa using congrArg List.length hvms
    have hall : flowClientsAt s k cores' = List.replicate cores.length i :=
      filterMap_instrAt (instrAt_cloned hk rfl hvms)
    constructor
    · intro hsplit
      by_contra hmany
      obtain ⟨m, hm⟩ : ∃ m, cores.length = m + 2 := ⟨cores.length - 2, by omega⟩
      have htiles := hsplit.ranges
      rw [hall, hm, List.replicate_succ, List.replicate_succ, List.map_cons, List.map_cons]
        at htiles
      have hbad : i.clientMin.toNat = i.clientMax.toNat + 1 := htiles.adjacent
      omega
    · rintro (hone | hnot)
      · have hsingle : flowClientsAt s k cores' = [i] := by rw [hall, hone]; rfl
        refine ⟨?_, ?_, fun hlim => ?_⟩
        · rw [hsingle, hlen, hone]
          rfl
        · rw [hsingle]
          exact Tiles.one hle
        · rw [hsingle, List.flatMap_singleton]
          exact ipCycle_perm hlim hle
      · exact absurd hfull hnot
  · have hsplit := splitInternal_client_parts rand hget
      (by rw [getIpRange_toNat hle hfull]; exact hrange)
    obtain ⟨hvms, -⟩ := split_parts hfresh hk hsplit h
    have hlen : (clientParts i cores.length).length = cores'.length := by
      simpa [clientParts] using (congrArg List.length hvms).symm
    have hall : flowClientsAt s k cores' = (clientParts i cores.length).map fun r =>
        perCoreFlowClient i r.1 r.2 :=
      filterMap_instrAt (instrAt_parts hk (fun r => rfl) hvms)
    exact iff_of_true (clientSplit_parts hall hlen (clientParts_tiles hn hle hrange hfull))
      (Or.inr hfull)

/-! ## 6. The splitter -/

/-- The VMs that are not to be split over `n` cores: no variable to split by, a random one, or a
range with fewer numbers than cores. -/
def Unsplittable (vm : StreamVm) (n : Nat) : Prop :=
  match vm.getSplitInstruction with
  | none => True
  | some (_, .flowMan i) => i.op = .RANDOM
      ∨ (i.minValue.toNat ≤ i.maxValue.toNat ∧ i.maxValue.toNat - i.minValue.toNat + 1 < n)
  | some (_, .flowClient i) =>
      i.clientMin.toNat ≤ i.clientMax.toNat ∧ i.clientMax.toNat - i.clientMin.toNat + 1 < n

theorem splitInternal_unsplittable (h : Unsplittable vm cores.length) :
    splitInternal rand vm cores = .ok none := by
  unfold Unsplittable at h
  unfold splitInternal
  cases hget : vm.getSplitInstruction with
  | none => rfl
  | some v =>
    obtain ⟨k, v⟩ := v
    rw [hget] at h
    cases v with
    | flowMan i =>
      show splitByFlowVar rand vm cores k i = .ok none
      simp only [splitByFlowVar]
      by_cases hop : i.op = .RANDOM
      · rw [if_pos hop]
      · rw [if_neg hop]
        obtain ⟨hle, hlt⟩ := h.resolve_left hop
        refine if_pos ?_
        by_cases hfull : i.minValue = 0 ∧ i.maxValue = 0xFFFFFFFFFFFFFFFF
        · rw [getSplitableRange_full hfull.1 hfull.2]
          omega
        · rw [getSplitableRange_toNat hle hfull]
          exact hlt
    | flowClient i =>
      show splitByFlowClientVar rand vm cores k i = .ok none
      obtain ⟨hle, hlt⟩ := h
      refine if_pos ?_
      by_cases hfull : i.clientMin = 0 ∧ i.clientMax = 0xFFFFFFFF
      · rw [getIpRange_full hfull.1 hfull.2]
        omega
      · rw [getIpRange_toNat hle hfull]
        exact hlt

/-- **The two ways of the splitter**: the VM is not split, or every core gets it with one
instruction replaced by one of the same shape. -/
theorem splitInternal_cases (rand : Nat → Nat) (vm : StreamVm) (cores : List TrexStream) :
    splitInternal rand vm cores = .ok none
      ∨ ∃ k x instr min range, vm.instList[k]? = some x ∧ (∀ a b, SameShape x (instr a b))
        ∧ splitInternal rand vm cores = (splitRange rand vm k instr min range cores).map some := by
  unfold splitInternal
  split
  · exact Or.inl rfl
  · rename_i k i hget
    unfold splitByFlowVar
    split
    · exact Or.inl rfl
    split
    · exact Or.inl rfl
    · exact Or.inr ⟨k, _, fun a b => .flowMan (perCoreFlowMan i a b), i.minValue,
        getSplitableRange i, getSplitInstruction_get hget, fun _ _ => .flowMan rfl rfl rfl,
        bind_some_eq_map _⟩
  · rename_i k i hget
    unfold splitByFlowClientVar
    split
    · exact Or.inl rfl
    · exact Or.inr ⟨k, _, fun a b => .flowClient (perCoreFlowClient i a b), i.clientMin.toUInt64,
        (getIpRange i).toUInt64, getSplitInstruction_get hget, fun _ _ => .flowClient rfl rfl,
        bind_some_eq_map _⟩

/-- Every core carries the object of the VM it runs. -/
theorem split_objects (hfresh : ∀ c ∈ cores, c.vm = {} ∧ c.pkt.len = s.pkt.len)
    (hne : s.vm.isVmEmpty = false) (h : split rand s cores = .ok cores') :
    ∀ c ∈ cores', IsObjectOf (coreVm s c) s.pkt.len c.vmDp := by
  rcases splitInternal_cases rand s.vm cores with hnone | ⟨k, x, instr, min, range, hk, -, hsplit⟩
  · obtain ⟨hvms, dp, hobj, hall⟩ := split_cloned hfresh hne hnone h
    intro c hc
    have hvm : c.vm = {} := by
      have hmem := List.mem_map_of_mem (f := TrexStream.vm) hc
      rw [hvms] at hmem
      obtain ⟨-, -, heq⟩ := List.mem_map.mp hmem
      exact heq.symm
    rw [coreVm, hvm, hall c hc]
    exact hobj
  · obtain ⟨hvms, hobjs⟩ := split_parts hfresh hk hsplit h
    intro c hc
    have hvm : c.vm.isVmEmpty = false := by
      have hmem := List.mem_map_of_mem (f := TrexStream.vm) hc
      rw [hvms] at hmem
      obtain ⟨r, -, heq⟩ := List.mem_map.mp hmem
      rw [← heq]
      exact isVmEmpty_of_get (setInstr_get hk _)
    rw [coreVm, if_neg (by simp [hvm])]
    exact hobjs c hc

/-- **What the splitter gives the cores.**  A stream without a VM is left alone; otherwise every
core carries the object of the VM it runs.  The values of a counter are divided among the cores
exactly when its bounds fit the variable and, for more than one core, the range is not that of all
64-bit numbers; the addresses of a client variable when, for more than one core, they are not all
addresses.  What is not to be split is the source's VM on every core. -/
theorem vm_split_exact (rand : Nat → Nat) (s : TrexStream) (factor : Rat) (n : Nat)
    (newId newNextId : Int32) (cores' : List TrexStream) (hn : 0 < n)
    (h : split rand s (coreStreams s factor n newId newNextId) = .ok cores') :
    (s.vm.isVmEmpty = true → cores' = coreStreams s factor n newId newNextId)
    ∧ (s.vm.isVmEmpty = false → ∀ c ∈ cores', IsObjectOf (coreVm s c) s.pkt.len c.vmDp)
    ∧ (∀ k i, s.vm.getSplitInstruction = some (k, .flowMan i) → i.op ≠ .RANDOM →
        i.minValue.toNat ≤ i.maxValue.toNat → n ≤ i.maxValue.toNat - i.minValue.toNat + 1 →
          (FlowVarSplit s k i cores' ↔ i.maxValue.toNat < 256 ^ i.sizeBytes.toNat
            ∧ (n = 1 ∨ ¬ (i.minValue = 0 ∧ i.maxValue = 0xFFFFFFFFFFFFFFFF))))
    ∧ (∀ k i, s.vm.getSplitInstruction = some (k, .flowClient i) →
        i.clientMin.toNat ≤ i.clientMax.toNat → n ≤ i.clientMax.toNat - i.clientMin.toNat + 1 →
          (ClientSplit s k i cores' ↔ n = 1 ∨ ¬ (i.clientMin = 0 ∧ i.clientMax = 0xFFFFFFFF)))
    ∧ (s.vm.isVmEmpty = false → Unsplittable s.vm n → ∃ dp, IsObjectOf s.vm s.pkt.len dp
        ∧ ∀ c ∈ cores', coreVm s c = s.vm ∧ c.vmDp = dp) := by
  obtain ⟨hlen, hfresh⟩ := coreStreams_fresh s factor n newId newNextId
  generalize coreStreams s factor n newId newNextId = cores at hlen hfresh h
  subst hlen
  refine ⟨fun hemp => ?_, fun hne => split_objects hfresh hne h, ?_, ?_, ?_⟩
  · rw [split, if_pos hemp] at h
    exact (Except.ok.inj h).symm
  · intro k i hget hop hle hrange
    exact flowVarSplit_iff hfresh hn h hget hop hle hrange
  · intro k i hget hle hrange
    exact clientSplit_iff hfresh hn h hget hle hrange
  · intro hne hun
    obtain ⟨hvms, dp, hobj, hall⟩ := split_cloned hfresh hne (splitInternal_unsplittable hun) h
    refine ⟨dp, hobj, fun c hc => ⟨?_, hall c hc⟩⟩
    have hmem := List.mem_map_of_mem (f := TrexStream.vm) hc
    rw [hvms] at hmem
    obtain ⟨-, -, heq⟩ := List.mem_map.mp hmem
    rw [coreVm, ← heq]
    rfl

/-- A stream of 64-byte packets with one variable, which is the one to split by. -/
def counterStream (x : Instr) : TrexStream :=
  ⟨.stCONTINUOUS, 0, 1, 0, -1, true, true, ⟨[x], some 0⟩, none, ⟨List.replicate 64 0, 64⟩, 1, 0, 1,
    0⟩

/-- A counter of one byte over 0, …, 9. -/
def tenValues : FlowMan := ⟨"x", 1, .DEC, 3, 0, 9⟩

theorem vm_split_exact_tenValues : ∃ cores',
    split (fun _ => 0) (counterStream (.flowMan tenValues))
      (coreStreams (counterStream (.flowMan tenValues)) 1 3 0 (-1)) = .ok cores'
    ∧ FlowVarSplit (counterStream (.flowMan tenValues)) 0 tenValues cores' := by
  refine ⟨_, rfl, ?_⟩
  have h := vm_split_exact (fun _ => 0) (counterStream (.flowMan tenValues)) 1 3 0 (-1) _
    (by decide) rfl
  exact (h.2.2.1 0 tenValues rfl (by decide) (by decide) (by decide)).mpr ⟨by decide, by decide⟩

/-- A client variable over all IPv4 addresses. -/
def allAddresses : FlowClient := ⟨"cl1", 0, 0xFFFFFFFF, 1025, 1027, 0, 0⟩

/-- **The range of all addresses is not split**: its size, computed in 32 bits, is 0, so the
splitter takes it for a range with fewer addresses than cores, and two cores both go through all of
it. -/
theorem allAddresses_not_split : ∃ cores',
    split (fun _ => 0) (counterStream (.flowClient allAddresses))
      (coreStreams (counterStream (.flowClient allAddresses)) 1 2 0 (-1)) = .ok cores'
    ∧ flowClientsAt (counterStream (.flowClient allAddresses)) 0 cores' =
      [allAddresses, allAddresses]
    ∧ ¬ ClientSplit (counterStream (.flowClient allAddresses)) 0 allAddresses cores' := by
  refine ⟨_, rfl, rfl, fun h => ?_⟩
  have htiles := h.ranges
  have hbad := htiles.adjacent
  exact absurd hbad (by decide)

end Trex.Stream
