/-
# Counters run through their range

A flow variable with `INC` or `DEC` starts one step before its initial value (`get_bss_init_value`),
because the program steps it before it is written to a packet.  `FlowMan.counterAt` is the value
that the `k`-th execution of the program leaves in it; `counter_cycles` proves it for compiled
programs, over any number of executions and whatever the packets are.

* One execution of the list changes the variable by its own instruction and by no other
  (`execAll_counter`), since the names of a list are distinct.
* The step and the biased start are those of a cycle of `max - min + 1` values
  (`counterStep_counterAt`, `counterStep_start`).
-/
import Trex.Vm.Refine

namespace Trex.Vm

open Trex.Lib Trex.Net List

/-! ## 1. The cycle -/

/-- The value at the `k`-th execution. -/
def FlowMan.counterAt (i : FlowMan) (k : Nat) : Int :=
  let min : Int := i.minValue.toNat
  let init : Int := i.initValue.toNat
  let size : Int := i.maxValue.toNat - min + 1
  match i.op with
  | .INC => min + (init - min + k) % size
  | _ => min + (init - min - k) % size

/-- The bounds of a counter are in order and numbers of its size. -/
structure FlowMan.Counter (i : FlowMan) : Prop where
  op : i.op = .INC ∨ i.op = .DEC
  min_le : i.minValue ≤ i.initValue
  le_max : i.initValue ≤ i.maxValue
  max_lt : i.maxValue.toNat < 256 ^ i.sizeBytes.toNat

/-- What the op-code makes of a value. -/
def FlowMan.counterStep (i : FlowMan) (v : Nat) : Nat :=
  match i.op with
  | .INC => i.incVal v
  | _ => i.decVal v

namespace FlowMan.Counter

variable {i : FlowMan}

theorem bounds (h : i.Counter) :
    i.minValue.toNat ≤ i.initValue.toNat ∧ i.initValue.toNat ≤ i.maxValue.toNat :=
  ⟨UInt64.le_iff_toNat_le.mp h.min_le, UInt64.le_iff_toNat_le.mp h.le_max⟩

theorem lo_eq (h : i.Counter) : i.lo = i.minValue.toNat := by
  have := h.bounds
  exact Nat.mod_eq_of_lt (by have := h.max_lt; omega)

theorem hi_eq (h : i.Counter) : i.hi = i.maxValue.toNat := Nat.mod_eq_of_lt h.max_lt

/-- **The variable never leaves its range.** -/
theorem counterAt_mem (h : i.Counter) (k : Nat) :
    (i.minValue.toNat : Int) ≤ i.counterAt k ∧ i.counterAt k ≤ i.maxValue.toNat := by
  obtain ⟨hlo, hhi⟩ := h.bounds
  have hpos : (0 : Int) < i.maxValue.toNat - i.minValue.toNat + 1 := by omega
  have hmod : ∀ x : Int, 0 ≤ x % (i.maxValue.toNat - i.minValue.toNat + 1) ∧
      x % (i.maxValue.toNat - i.minValue.toNat + 1) < i.maxValue.toNat - i.minValue.toNat + 1 :=
    fun x => ⟨Int.emod_nonneg x hpos.ne', Int.emod_lt_of_pos x hpos⟩
  simp only [FlowMan.counterAt]
  split
  · have := hmod (i.initValue.toNat - i.minValue.toNat + k)
    omega
  · have := hmod (i.initValue.toNat - i.minValue.toNat - k)
    omega

/-- One step up or down the cycle. -/
theorem counterStep_eq (h : i.Counter) {v : Nat} (hlo : i.minValue.toNat ≤ v)
    (hhi : v ≤ i.maxValue.toNat) :
    i.counterStep v =
      if i.op = .INC then (if v = i.maxValue.toNat then i.minValue.toNat else v + 1)
      else (if v = i.minValue.toNat then i.maxValue.toNat else v - 1) := by
  have hmax := h.max_lt
  simp only [FlowMan.counterStep, FlowMan.incVal, FlowMan.decVal, h.lo_eq, h.hi_eq]
  rcases h.op with hop | hop
  · simp only [hop, if_true]
    split
    · rfl
    · exact Nat.mod_eq_of_lt (by omega)
  · simp only [hop, reduceCtorEq, if_false]
    split
    · rfl
    · rename_i hne
      have hsub : v + 256 ^ i.sizeBytes.toNat - 1 = v - 1 + 256 ^ i.sizeBytes.toNat := by omega
      rw [hsub, Nat.add_mod_right]
      exact Nat.mod_eq_of_lt (by omega)

end FlowMan.Counter

/-! ### One turn of the cycle -/

theorem emod_add_one {n : Int} (hn : 0 < n) (x : Int) :
    (x + 1) % n = if x % n = n - 1 then 0 else x % n + 1 := by
  have h0 := Int.emod_nonneg x hn.ne'
  have h1 := Int.emod_lt_of_pos x hn
  rw [← Int.emod_add_emod]
  split
  · rename_i hlast
    rw [hlast, Int.sub_add_cancel, Int.emod_self]
  · exact Int.emod_eq_of_lt (by omega) (by omega)

theorem emod_sub_one {n : Int} (hn : 0 < n) (x : Int) :
    (x - 1) % n = if x % n = 0 then n - 1 else x % n - 1 := by
  have h0 := Int.emod_nonneg x hn.ne'
  have h1 := Int.emod_lt_of_pos x hn
  rw [← Int.emod_sub_emod]
  split
  · rename_i hfirst
    have hlast : -1 + n = n - 1 := by omega
    rw [hfirst, Int.zero_sub, ← Int.add_emod_right, hlast]
    exact Int.emod_eq_of_lt (by omega) (by omega)
  · exact Int.emod_eq_of_lt (by omega) (by omega)

namespace FlowMan.Counter

variable {i : FlowMan}

/-- **The op-code takes the value of one execution to that of the next.** -/
theorem counterStep_counterAt (h : i.Counter) {v k : Nat} (hv : (v : Int) = i.counterAt k) :
    (i.counterStep v : Int) = i.counterAt (k + 1) := by
  obtain ⟨hlo, hhi⟩ := h.counterAt_mem k
  obtain ⟨hmin, hmax⟩ := h.bounds
  have hpos : (0 : Int) < i.maxValue.toNat - i.minValue.toNat + 1 := by omega
  rw [h.counterStep_eq (by omega) (by omega)]
  rcases h.op with hop | hop
  · simp only [FlowMan.counterAt, hop] at hv ⊢
    have hnext : (i.initValue.toNat - i.minValue.toNat + (k + 1 : Nat) : Int) =
        i.initValue.toNat - i.minValue.toNat + k + 1 := by omega
    rw [hnext, emod_add_one hpos]
    have h0 := Int.emod_nonneg (i.initValue.toNat - i.minValue.toNat + k : Int) hpos.ne'
    have h1 := Int.emod_lt_of_pos (i.initValue.toNat - i.minValue.toNat + k : Int) hpos
    generalize (i.initValue.toNat - i.minValue.toNat + k : Int) %
      (i.maxValue.toNat - i.minValue.toNat + 1) = r at hv h0 h1
    simp only [if_true]
    split <;> split <;> omega
  · simp only [FlowMan.counterAt, hop] at hv ⊢
    have hnext : (i.initValue.toNat - i.minValue.toNat - (k + 1 : Nat) : Int) =
        i.initValue.toNat - i.minValue.toNat - k - 1 := by omega
    rw [hnext, emod_sub_one hpos]
    have h0 := Int.emod_nonneg (i.initValue.toNat - i.minValue.toNat - k : Int) hpos.ne'
    have h1 := Int.emod_lt_of_pos (i.initValue.toNat - i.minValue.toNat - k : Int) hpos
    generalize (i.initValue.toNat - i.minValue.toNat - k : Int) %
      (i.maxValue.toNat - i.minValue.toNat + 1) = r at hv h0 h1
    simp only [reduceCtorEq, if_false]
    split <;> split <;> omega

/-- The value that `build_bss` stores is one step before the initial value. -/
theorem counterStep_start (h : i.Counter) :
    (i.counterStep (i.getBssInitValue.toNat % 256 ^ i.sizeBytes.toNat) : Int) = i.counterAt 0 := by
  obtain ⟨hmin, hmax⟩ := h.bounds
  have hlt := h.max_lt
  have hlt64 := i.maxValue.toNat_lt
  have hzero : i.counterAt 0 = i.initValue.toNat := by
    rcases h.op with hop | hop
    all_goals
      simp only [FlowMan.counterAt, hop, Int.ofNat_zero, Int.add_zero, Int.sub_zero]
      rw [Int.emod_eq_of_lt (by omega) (by omega)]
      omega
  rw [hzero]
  rcases h.op with hop | hop
  · simp only [FlowMan.getBssInitValue, hop]
    split
    · rename_i hfirst
      rw [Nat.mod_eq_of_lt hlt, h.counterStep_eq (by omega) (le_refl _), if_pos hop, if_pos rfl,
        hfirst]
    · rename_i hne
      have hne' : i.initValue.toNat ≠ i.minValue.toNat := fun heq => hne (UInt64.toNat_inj.mp heq)
      have hsub : (i.initValue - 1).toNat = i.initValue.toNat - 1 := by
        rw [UInt64.toNat_sub_of_le _ _
          (UInt64.le_iff_toNat_le.mpr (by simp only [UInt64.toNat_one]; omega))]
        rfl
      rw [hsub, Nat.mod_eq_of_lt (by omega), h.counterStep_eq (by omega) (by omega), if_pos hop,
        if_neg (by omega)]
      omega
  · simp only [FlowMan.getBssInitValue, hop]
    have hop' : ¬ i.op = .INC := by simp [hop]
    split
    · rename_i hlast
      rw [Nat.mod_eq_of_lt (by omega), h.counterStep_eq (le_refl _) (by omega), if_neg hop',
        if_pos rfl, hlast]
    · rename_i hne
      have hne' : i.initValue.toNat ≠ i.maxValue.toNat := fun heq => hne (UInt64.toNat_inj.mp heq)
      have hadd : (i.initValue + 1).toNat = i.initValue.toNat + 1 := by
        rw [UInt64.toNat_add, UInt64.toNat_one]
        exact Nat.mod_eq_of_lt (by omega)
      rw [hadd, Nat.mod_eq_of_lt (by omega), h.counterStep_eq (by omega) (by omega), if_neg hop',
        if_neg (by omega)]
      omega

end FlowMan.Counter

/-! ## 2. One execution of a list -/

variable {insts : List Instr} {inst : Instr} {t : VarTable}

/-- An instruction changes the variables that it declares, and the seed when it is random. -/
theorem exec_frame {n n' : NamedState} {name : String} (h : inst.exec insts n = .ok n')
    (hdecl : ∀ d ∈ declares inst, d.name ≠ name)
    (hseed : isRandomInstr inst = true → name ≠ randomVarName) : n'.vars name = n.vars name := by
  cases inst with
  | fixIpv4Cs i =>
    cases h
    rfl
  | pktWr i =>
    simp only [Instr.exec] at h
    split at h <;> cases h <;> rfl
  | flowClient i =>
    cases h
    simp only [declares, forall_mem_cons] at hdecl
    obtain ⟨hip, hport, hlim, -⟩ := hdecl
    simp only [FlowClient.put]
    rw [Env.set_ne _ _ hlim.symm, Env.set_ne _ _ hport.symm, Env.set_ne _ _ hip.symm]
  | flowMan i =>
    have hname : name ≠ i.varName := (hdecl _ (mem_singleton.mpr rfl)).symm
    simp only [Instr.exec] at h
    cases hop : i.op with
    | INC =>
      simp only [hop] at h
      cases h
      exact Env.set_ne _ _ hname
    | DEC =>
      simp only [hop] at h
      cases h
      exact Env.set_ne _ _ hname
    | RANDOM =>
      simp only [hop] at h
      split at h
      · cases h
      · cases h
        have hrand : isRandomInstr (.flowMan i) = true := by simp [isRandomInstr, hop]
        exact (Env.set_ne _ _ hname).trans (Env.set_ne _ _ (hseed hrand))

theorem execFrom_append (insts l l' : List Instr) (n : NamedState) :
    execFrom insts (l ++ l') n = execFrom insts l n >>= execFrom insts l' := by
  induction l generalizing n with
  | nil => rfl
  | cons i l ih =>
    simp only [cons_append, execFrom]
    cases i.exec insts n with
    | error e => rfl
    | ok n' => exact ih n'

theorem execFrom_frame {name : String} : ∀ {l : List Instr} {n n' : NamedState},
    execFrom insts l n = .ok n' → (∀ inst ∈ l, ∀ d ∈ declares inst, d.name ≠ name) →
      ((∃ inst ∈ l, isRandomInstr inst = true) → name ≠ randomVarName) → n'.vars name = n.vars name
  | [], n, n', h, _, _ => by
    cases h
    rfl
  | inst :: l, n, n', h, hdecl, hseed => by
    obtain ⟨n1, h₁, h⟩ := bind_eq_ok h
    have hrest := execFrom_frame h (fun inst' hi => hdecl inst' (mem_cons_of_mem _ hi))
      fun ⟨inst', hi, hr⟩ => hseed ⟨inst', mem_cons_of_mem _ hi, hr⟩
    rw [hrest]
    exact exec_frame h₁ (hdecl inst (mem_cons_self ..)) fun hr => hseed ⟨inst, mem_cons_self .., hr⟩

/-- **One execution of the list changes the variables of an instruction by this instruction**: the
names of a list are distinct, and none of them is that of the seed. -/
theorem execAll_own (ht : buildFlowVarTable insts = .ok t) (hi : inst ∈ insts) {n n' : NamedState}
    (h : execAll insts n = .ok n') :
    ∃ n1 n2, inst.exec insts n1 = .ok n2 ∧
      ∀ d ∈ declares inst, n1.vars d.name = n.vars d.name ∧ n'.vars d.name = n2.vars d.name := by
  obtain ⟨hlays, -, -⟩ := lays_buildFlowVarTable 0 ht
  obtain ⟨l, l', hsplit⟩ := append_of_mem hi
  have hnodup := hlays.nodup
  have hothers : ∀ d ∈ declares inst, ∀ inst', inst' ∈ l ∨ inst' ∈ l' →
      ∀ d' ∈ declares inst', d'.name ≠ d.name := by
    intro d hd inst' hinst d' hd' hname
    have hcount : 2 ≤ ((declared 0 insts).map VarDecl.name).count d.name := by
      have hmem : d.name ∈ (l.flatMap declares).map VarDecl.name ∨
          d.name ∈ (l'.flatMap declares).map VarDecl.name := by
        rcases hinst with hinst | hinst
        · exact Or.inl (mem_map.mpr ⟨d', mem_flatMap.mpr ⟨inst', hinst, hd'⟩, hname⟩)
        · exact Or.inr (mem_map.mpr ⟨d', mem_flatMap.mpr ⟨inst', hinst, hd'⟩, hname⟩)
      have hself : 0 < ((declares inst).map VarDecl.name).count d.name :=
        count_pos_iff.mpr (mem_map_of_mem hd)
      rw [declared, hsplit, flatMap_append, flatMap_cons]
      simp only [map_append, count_append]
      rcases hmem with hmem | hmem
      · have := count_pos_iff.mpr hmem
        omega
      · have := count_pos_iff.mpr hmem
        omega
    have := nodup_iff_count_le_one.mp hnodup d.name
    omega
  have hseed : ∀ d ∈ declares inst, (∃ inst', (inst' ∈ l ∨ inst' ∈ l') ∧
      isRandomInstr inst' = true) → d.name ≠ randomVarName := by
    rintro d hd ⟨inst', hinst, hr⟩ hname
    have hany : insts.any isRandomInstr = true := by
      refine any_eq_true.mpr ⟨inst', ?_, hr⟩
      rw [hsplit]
      rcases hinst with hinst | hinst
      · exact mem_append_left _ hinst
      · exact mem_append_right _ (mem_cons_of_mem _ hinst)
    have hmem : d.name ∈ (insts.flatMap declares).map VarDecl.name :=
      mem_map.mpr ⟨d, mem_flatMap.mpr ⟨_, hi, hd⟩, rfl⟩
    rw [declared, if_pos hany, map_append, map_singleton, singleton_append,
      nodup_cons] at hnodup
    rw [hname] at hmem
    exact hnodup.1 hmem
  have hrun : execFrom insts (l ++ inst :: l') n = .ok n' := by
    rw [← hsplit]
    exact h
  rw [execFrom_append] at hrun
  obtain ⟨n1, h₁, hrun⟩ := bind_eq_ok hrun
  obtain ⟨n2, h2, h3⟩ := bind_eq_ok hrun
  refine ⟨n1, n2, h2, fun d hd => ⟨?_, ?_⟩⟩
  · exact execFrom_frame h₁ (fun inst' hinst => hothers d hd inst' (Or.inl hinst))
      fun hrandom => hseed d hd (hrandom.imp fun _ hinst => hinst.imp_left Or.inl)
  · exact execFrom_frame h3 (fun inst' hinst => hothers d hd inst' (Or.inr hinst))
      fun hrandom => hseed d hd (hrandom.imp fun _ hinst => hinst.imp_left Or.inr)

/-- **One execution of the list steps each counter once.** -/
theorem execAll_counter (ht : buildFlowVarTable insts = .ok t) {i : FlowMan}
    (hi : Instr.flowMan i ∈ insts) (hop : i.op = .INC ∨ i.op = .DEC) {n n' : NamedState}
    (h : execAll insts n = .ok n') : n'.vars i.varName = i.counterStep (n.vars i.varName) := by
  obtain ⟨n1, n2, hexec, hown⟩ := execAll_own ht hi h
  obtain ⟨hbefore, hafter⟩ :=
    hown ⟨i.varName, i.sizeBytes.toNat, i.getBssInitValue.toNat⟩ (mem_singleton.mpr rfl)
  rw [hafter, ← hbefore]
  rcases hop with hop | hop
  · simp only [Instr.exec, hop] at hexec
    cases hexec
    simp [FlowMan.counterStep, hop]
  · simp only [Instr.exec, hop] at hexec
    cases hexec
    simp [FlowMan.counterStep, hop]

/-! ## 3. The executions of a program -/

/-- The flow variables after a number of executions of a program, each with a packet of its own. -/
def executions (program : List UInt8) (pkts : Nat → Mem) (m : Mem) : Nat → Except Fault Mem
  | 0 => .ok m
  | k + 1 => do
    let m ← executions program pkts m k
    let s ← runnerRun program ⟨m, pkts k⟩
    .ok s.flowVar

section Executions

variable {rand : Nat} {insts : List Instr} {pktLen : UInt16} {c : CompiledVm} {pkts : Nat →
    Mem} {m : Mem}

/-- **What every execution of the list takes one step further** holds of the variables after the
executions of the program. -/
theorem executions_induct (hc : compile rand insts pktLen = .ok (some c))
    (hm : m.read 0 c.bss.length = c.bss) {P : Nat → Env → Prop} (hstart : P 0 (initVars rand insts))
    (hstep : ∀ k env pkt n, P k env → execAll insts ⟨env, pkt⟩ = .ok n → P (k + 1) n.vars) {k : Nat}
    {m' : Mem} (h : executions c.program pkts m k = .ok m') :
    ∃ env, Rep c.table m' env ∧ P k env := by
  induction k generalizing m' with
  | zero =>
    cases h
    exact ⟨initVars rand insts, rep_bss hc hm, hstart⟩
  | succ k ih =>
    obtain ⟨m1, h₁, h⟩ := bind_eq_ok h
    obtain ⟨s, hs, h⟩ := bind_eq_ok h
    cases h
    obtain ⟨env, hrep, hP⟩ := ih h₁
    have hsim := sim_compile hc (s := ⟨m1, pkts k⟩) (n := ⟨env, pkts k⟩) ⟨hrep, rfl⟩
    obtain ⟨n, hn, hsim⟩ := hsim.ok_left hs
    exact ⟨n.vars, hsim.vars, hstep k env _ n hP hn⟩

/-- A variable starts with what `build_bss` stores. -/
theorem initVars_of_mem (ht : buildFlowVarTable insts = .ok t) (hi : inst ∈ insts) {d : VarDecl}
    (hd : d ∈ declares inst) : initVars rand insts d.name = d.init % 256 ^ d.size := by
  obtain ⟨hlays, -, -⟩ := lays_buildFlowVarTable rand ht
  obtain ⟨pre, post, hsplit⟩ := declared_split rand hi
  have hmem : d ∈ declared rand insts := by
    rw [hsplit]
    exact mem_append_left _ (mem_append_right _ hd)
  have hfind := find?_of_mem hlays.nodup hmem
  simp only [initVars, hfind]

/-- What a counter holds after the executions. -/
theorem executions_rep (hc : compile rand insts pktLen = .ok (some c))
    (hm : m.read 0 c.bss.length = c.bss) {i : FlowMan} (hi : Instr.flowMan i ∈ insts)
    (hcount : i.Counter) {k : Nat} {m' : Mem} (h : executions c.program pkts m k = .ok m') :
    ∃ env, Rep c.table m' env ∧
      (i.counterStep (env i.varName) : Int) = i.counterAt k ∧ ∀ j, k = j + 1 →
          (env i.varName : Int) = i.counterAt j := by
  obtain ⟨ops, hp⟩ := passed_of_compile hc
  refine executions_induct hc hm (P := fun k env =>
    (i.counterStep (env i.varName) : Int) = i.counterAt k ∧
    ∀ j, k = j + 1 → (env i.varName : Int) = i.counterAt j) ⟨?_, fun j hj =>
      absurd hj (by omega)⟩ ?_ h
  · have hstart : initVars rand insts i.varName = i.getBssInitValue.toNat % 256 ^
        i.sizeBytes.toNat :=
      initVars_of_mem hp.table hi (d := ⟨i.varName, i.sizeBytes.toNat, i.getBssInitValue.toNat⟩)
        (mem_singleton.mpr rfl)
    rw [hstart]
    exact hcount.counterStep_start
  · rintro k env pkt n ⟨hnext, -⟩ hn
    have hval := execAll_counter hp.table hi hcount.op hn
    have hnow : (n.vars i.varName : Int) = i.counterAt k := by rw [hval, hnext]
    refine ⟨hcount.counterStep_counterAt hnow, fun j hj => ?_⟩
    obtain rfl : k = j := by omega
    exact hnow

/-- A program without a division by zero can be executed as often as one likes. -/
theorem executions_ok (hc : compile rand insts pktLen = .ok (some c))
    (hm : m.read 0 c.bss.length = c.bss) (hspan : NoWholeRange insts) (k : Nat) :
    ∃ m' env, executions c.program pkts m k = .ok m' ∧ Rep c.table m' env := by
  obtain ⟨ops, hp⟩ := passed_of_compile hc
  induction k with
  | zero => exact ⟨m, initVars rand insts, rfl, rep_bss hc hm⟩
  | succ k ih =>
    obtain ⟨m1, env, h₁, hrep⟩ := ih
    obtain ⟨n, hn⟩ := (execFrom_ok_iff insts insts ⟨env, pkts k⟩).mpr
      ((spansNonzero_iff hp.table).mpr hspan)
    have hsim := sim_compile hc (s := ⟨m1, pkts k⟩) (n := ⟨env, pkts k⟩) ⟨hrep, rfl⟩
    obtain ⟨s, hs, hsim⟩ := hsim.ok_right hn
    refine ⟨s.flowVar, n.vars, ?_, hsim.vars⟩
    simp only [executions, h₁, ok_bind, hs]

end Executions

/-- **A counter runs through its range cyclically.**  The `k`-th execution of a compiled program,
from the content of the BSS and over any packets, leaves in the window of the counter the value
`counterAt k`, which is in the range; and the executions go on as long as no random instruction of
the program divides by zero. -/
theorem counter_cycles (rand : Nat) (insts : List Instr) (pktLen : UInt16) (c : CompiledVm)
    (hc : compile rand insts pktLen = .ok (some c)) (m : Mem) (hm : m.read 0 c.bss.length = c.bss)
    (pkts : Nat → Mem) (i : FlowMan) (hi : Instr.flowMan i ∈ insts) (hcount : i.Counter) (k : Nat) :
    (∃ r, c.table.varLookup i.varName = some r ∧
      ∀ m', executions c.program pkts m (k + 1) = .ok m' →
      (m'.load r.offset r.sizeBytes : Int) = i.counterAt k ∧
        i.minValue.toNat ≤ m'.load r.offset r.sizeBytes ∧
          m'.load r.offset r.sizeBytes ≤ i.maxValue.toNat) ∧
      (NoWholeRange insts → ∃ m', executions c.program pkts m (k + 1) = .ok m') := by
  obtain ⟨ops, hp⟩ := passed_of_compile hc
  obtain ⟨off, w, hr, -, -⟩ := lookup_flowMan hp.table hi
  constructor
  · refine ⟨_, hr, fun m' h => ?_⟩
    obtain ⟨env, hrep, -, hval⟩ := executions_rep hc hm hi hcount h
    have hnow : (m'.load off i.sizeBytes.toNat : Int) = i.counterAt k := by
      rw [hrep _ _ hr]
      exact hval k rfl
    obtain ⟨hlo, hhi⟩ := hcount.counterAt_mem k
    exact ⟨hnow, by simp only; omega, by simp only; omega⟩
  · intro hspan
    obtain ⟨m', -, h, -⟩ := executions_ok hc hm hspan (k + 1)
    exact ⟨m', h⟩

/-- The counter of a test of the repository: a byte from 5 in the range from 1 to 7. -/
def vm2Counter : FlowMan := ⟨"var1", 1, .INC, 5, 1, 7⟩

theorem counter_cycles_vm2 : ∃ c,
    compile 1 [.flowMan vm2Counter, .pktWr ⟨"var1", 26, 0, true⟩] 128 = .ok (some c) ∧
    ∃ r, c.table.varLookup "var1" = some r ∧
      ∀ m', executions c.program (fun _ _ => 0) (fun a => c.bss.getD a 0) 4 = .ok m' →
        (m'.load r.offset r.sizeBytes : Int) = 1 := by
  refine ⟨_, rfl, ?_⟩
  have hcount : vm2Counter.Counter := ⟨Or.inl rfl, by decide, by decide, by decide⟩
  obtain ⟨⟨r, hr, h⟩, -⟩ := counter_cycles 1
    [.flowMan vm2Counter, .pktWr ⟨"var1", 26, 0, true⟩] 128 _ rfl _ (Mem.read_getD _) (fun _ _ =>
      0) vm2Counter
    (mem_cons_self ..) hcount 3
  exact ⟨r, hr, fun m' hm' => (h m' hm').1⟩

end Trex.Vm
