/-
# The flows of a client variable

A client instruction goes through the addresses of a range and, each time it is through, on to the
next port; a limited one starts again from the first flow when the number of flows is reached.  Its
variable starts one address before the range (`build_bss`), because the program steps it before it
is written to a packet.

The op-codes step the fields first and compare them then, so what a field does at the end of its
type decides:

* an address that is not above `ip_max = 2 ^ 32 - 1` goes on to 0, and the port is then never
  changed;
* a port that is not above `port_max = 65535` goes on to 0;
* a flow number that is not above the limit `2 ^ 32 - 1` goes on to 0, and the flows never start
  again;
* a range from address 0 has no address before it, so the first flow is left out the first time.

`FlowClient.flowAt` counts the flows with an odometer of those sizes, and `iterate_next` proves that
the executions read it off.  From it follow exactly when the variable stays in its ranges
(`client_inRange_iff`) and when it goes through the flows as it should (`client_enumerates_iff`).
-/
import Trex.Lib.Odometer
import Trex.Vm.Counter

namespace Trex.Vm

open Trex.Lib Trex.Net

/-! ## 1. The flows -/

/-- The number of addresses that the variable goes through. -/
def FlowClient.ipCount (i : FlowClient) : Nat :=
  if i.clientMax.toNat = 2 ^ 32 - 1 then 2 ^ 32 else i.clientMax.toNat - i.clientMin.toNat + 1

/-- The number of ports that the variable goes through. -/
def FlowClient.portCount (i : FlowClient) : Nat :=
  if i.clientMax.toNat = 2 ^ 32 - 1 then 1
  else if i.isUnlimitedFlows then 2 ^ 16 - clientUnlimitedMinPort
  else if i.portMax.toNat = 2 ^ 16 - 1 then 2 ^ 16
  else i.portMax.toNat - i.portMin.toNat + 1

/-- The address and the port of the flow with a number. -/
def FlowClient.flowAt (i : FlowClient) (j : Nat) : Nat × Nat :=
  ((i.clientMin.toNat + (odometer i.ipCount i.portCount j).1) % 2 ^ 32,
    (i.bssPort + (odometer i.ipCount i.portCount j).2) % 2 ^ 16)

/-- The number of the first flow: a range from 0 has no address before it, and one that is the wrong
way round is over at its first address. -/
def FlowClient.firstFlow (i : FlowClient) : Nat :=
  if i.clientMin.toNat = 0 ∨ i.clientMax.toNat < i.clientMin.toNat then 1 else 0

/-- The flows start again at some time. -/
def FlowClient.restarts (i : FlowClient) : Prop :=
  i.isUnlimitedFlows = false ∧ 0 < i.limitNumFlows.toNat ∧ i.limitNumFlows.toNat < 2 ^ 32 - 1

instance (i : FlowClient) : Decidable i.restarts := inferInstanceAs (Decidable (_ ∧ _))

/-- The number of the flow at the `k`-th execution. -/
def FlowClient.flowIndex (i : FlowClient) (k : Nat) : Nat :=
  if i.restarts ∧ i.limitNumFlows.toNat ≤ k then k % i.limitNumFlows.toNat else k + i.firstFlow

/-- What `build_bss` stores. -/
def FlowClient.start (i : FlowClient) : FlowClientVar := ⟨i.bssIp, i.bssPort, 0⟩

/-- The address and the port of a variable. -/
def FlowClientVar.flow (v : FlowClientVar) : Nat × Nat := (v.curIp, v.curPort)

/-- The ranges are in order. -/
structure FlowClient.Ordered (i : FlowClient) : Prop where
  ip : i.clientMin.toNat ≤ i.clientMax.toNat
  port : i.portMin.toNat ≤ i.portMax.toNat

/-- A range that is the wrong way round does not start at the end of its type: the variable stays at
its start then. -/
structure FlowClient.Regular (i : FlowClient) : Prop where
  ip : i.clientMin.toNat ≤ i.clientMax.toNat ∨ i.clientMin.toNat < 2 ^ 32 - 1
  port : i.portMin.toNat ≤ i.portMax.toNat ∨ i.portMin.toNat < 2 ^ 16 - 1

variable {i : FlowClient} {k : Nat}

theorem FlowClient.Ordered.regular (h : i.Ordered) : i.Regular :=
  ⟨.inl h.ip, .inl h.port⟩

/-- The next port. -/
def FlowClient.nextPort (i : FlowClient) (port : Nat) : Nat :=
  if i.isUnlimitedFlows then (if port = 0 then clientUnlimitedMinPort else port)
  else (if port > i.portMax.toNat then i.portMin.toNat else port)

/-- The address and the port behind a flow, without a limit. -/
def FlowClient.advance (i : FlowClient) (f : Nat × Nat) : Nat × Nat :=
  let ip := (f.1 + 1) % 2 ^ 32
  let port := (f.2 + 1) % 2 ^ 16
  if ip > i.clientMax.toNat then (i.clientMin.toNat, i.nextPort port) else (ip, f.2)

theorem FlowClient.ipCount_pos (i : FlowClient) : 0 < i.ipCount := by
  unfold ipCount
  split <;> omega

theorem FlowClient.portCount_pos (i : FlowClient) : 0 < i.portCount := by
  unfold portCount clientUnlimitedMinPort
  split
  · decide
  split
  · decide
  split <;> omega

/-- The ports come one after the other, and the first one behind the last. -/
theorem FlowClient.Regular.nextPort_eq (h : i.Regular) (hfull : i.clientMax.toNat ≠ 2 ^ 32 - 1)
    {d : Nat} (hd : d < i.portCount) : i.nextPort (((i.bssPort + d) % 2 ^ 16 + 1) % 2 ^ 16) =
      (i.bssPort + if d + 1 = i.portCount then 0 else d + 1) % 2 ^ 16 := by
  have hport := h.port
  have hpmax := i.portMax.toNat_lt
  unfold portCount at hd ⊢
  unfold nextPort bssPort clientUnlimitedMinPort at *
  rw [if_neg hfull] at hd ⊢
  cases hun : i.isUnlimitedFlows with
  | true =>
    simp only [hun, if_true] at hd ⊢
    split <;> split <;> omega
  | false =>
    simp only [hun, Bool.false_eq_true, if_false] at hd ⊢
    by_cases hlast : i.portMax.toNat = 2 ^ 16 - 1
    · rw [if_pos hlast] at hd ⊢
      split <;> split <;> omega
    · rw [if_neg hlast] at hd ⊢
      split <;> split <;> omega

/-- **The op-codes step the odometer.** -/
theorem FlowClient.advance_flowAt (h : i.Regular) (j : Nat) :
    i.advance (i.flowAt j) = i.flowAt (j + 1) := by
  have hip := h.ip
  have hmax := i.clientMax.toNat_lt
  have hlow := odometer_fst_lt i.ipCount_pos i.portCount j
  have hhigh := odometer_snd_lt i.portCount_pos i.ipCount j
  rw [FlowClient.flowAt, FlowClient.flowAt, odometer_succ i.ipCount_pos i.portCount_pos j]
  generalize odometer i.ipCount i.portCount j = d at hlow hhigh
  obtain ⟨a, b⟩ := d
  dsimp only at hlow hhigh ⊢
  have hadvance : ∀ f : Nat × Nat, i.advance f = if (f.1 + 1) % 2 ^ 32 > i.clientMax.toNat then
      (i.clientMin.toNat, i.nextPort ((f.2 + 1) % 2 ^ 16)) else ((f.1 + 1) % 2 ^ 32, f.2) :=
        fun f => rfl
  rw [hadvance]
  dsimp only
  by_cases hfull : i.clientMax.toNat = 2 ^ 32 - 1
  · have hcount : i.ipCount = 2 ^ 32 := if_pos hfull
    have hone : i.portCount = 1 := if_pos hfull
    rw [if_neg (by omega), hcount, hone]
    rw [hcount] at hlow
    rw [hone] at hhigh
    obtain rfl : b = 0 := by omega
    by_cases hturn : a + 1 = 2 ^ 32
    · rw [if_pos hturn, if_pos rfl]
      refine Prod.ext ?_ rfl
      dsimp only
      omega
    · rw [if_neg hturn]
      refine Prod.ext ?_ rfl
      dsimp only
      omega
  · have hcount : i.ipCount = i.clientMax.toNat - i.clientMin.toNat + 1 := if_neg hfull
    rw [hcount] at hlow ⊢
    by_cases hturn : a + 1 = i.clientMax.toNat - i.clientMin.toNat + 1
    · rw [if_pos hturn, if_pos (by omega), h.nextPort_eq hfull hhigh]
      refine Prod.ext ?_ rfl
      dsimp only
      omega
    · rw [if_neg hturn, if_neg (by omega)]
      refine Prod.ext ?_ rfl
      dsimp only
      omega

/-! ## 2. The executions read it off -/

/-- The step, by whether the flows are counted. -/
theorem FlowClient.next_eq (i : FlowClient) (v : FlowClientVar) : i.next v =
    if i.isUnlimitedFlows = true ∨ i.limitNumFlows.toNat = 0 then
      ⟨(i.advance v.flow).1, (i.advance v.flow).2, v.curFlowId⟩
    else if (v.curFlowId + 1) % 2 ^ 32 > i.limitNumFlows.toNat
      then ⟨i.clientMin.toNat, i.portMin.toNat, 1⟩
    else ⟨(i.advance v.flow).1, (i.advance v.flow).2, (v.curFlowId + 1) % 2 ^ 32⟩ := by
  have hadvance : i.advance v.flow = if (v.curIp + 1) % 2 ^ 32 > i.clientMax.toNat then
      (i.clientMin.toNat, i.nextPort ((v.curPort + 1) % 2 ^ 16))
        else ((v.curIp + 1) % 2 ^ 32, v.curPort) := rfl
  rw [hadvance]
  unfold FlowClient.next
  cases hun : i.isUnlimitedFlows with
  | true =>
    simp only [if_true, true_or, clientsUnLimitRun, nextPort, hun]
    split <;> rfl
  | false =>
    simp only [Bool.false_eq_true, if_false, false_or, clientsLimitRun, nextPort, hun]
    by_cases hlim : i.limitNumFlows.toNat = 0
    · rw [if_neg (not_not_intro hlim), if_pos hlim]
      split <;> rfl
    · rw [if_pos hlim, if_neg hlim]
      split
      · rfl
      · split <;> rfl

/-- Without a limit that is ever exceeded the flows go on. -/
theorem FlowClient.next_flow (h : ¬ i.restarts) (v : FlowClientVar) :
    (i.next v).flow = i.advance v.flow := by
  have hlt := i.limitNumFlows.toNat_lt
  rw [next_eq]
  split
  · rfl
  · rename_i hcounted
    have hmax : i.limitNumFlows.toNat = 2 ^ 32 - 1 := by
      by_contra hne
      refine h ⟨Bool.eq_false_iff.mpr fun hun => hcounted (Or.inl hun), ?_, by omega⟩
      exact Nat.pos_of_ne_zero fun h0 => hcounted (Or.inr h0)
    rw [if_neg (by omega)]
    rfl

theorem FlowClient.next_restarts (h : i.restarts) (v : FlowClientVar) : i.next v =
    if (v.curFlowId + 1) % 2 ^ 32 > i.limitNumFlows.toNat
      then ⟨i.clientMin.toNat, i.portMin.toNat, 1⟩
    else ⟨(i.advance v.flow).1, (i.advance v.flow).2, (v.curFlowId + 1) % 2 ^ 32⟩ := by
  obtain ⟨hun, hpos, -⟩ := h
  rw [next_eq, if_neg]
  rintro (hun' | hzero)
  · rw [hun] at hun'
    cases hun'
  · omega

theorem FlowClient.flowAt_zero (i : FlowClient) : i.flowAt 0 = (i.clientMin.toNat, i.bssPort) := by
  have hip := i.clientMin.toNat_lt
  have hport : i.bssPort < 2 ^ 16 := by
    unfold bssPort clientUnlimitedMinPort
    have := i.portMin.toNat_lt
    split <;> omega
  have hzero : odometer i.ipCount i.portCount 0 = (0, 0) := by
    rw [odometer, Nat.zero_mod, Nat.zero_div, Nat.zero_mod]
  rw [flowAt, hzero]
  exact Prod.ext (Nat.mod_eq_of_lt hip) (Nat.mod_eq_of_lt hport)

/-- The first execution takes the biased start to the first flow. -/
theorem FlowClient.advance_start (h : i.Regular) :
    i.advance i.start.flow = i.flowAt i.firstFlow := by
  have hmax := i.clientMax.toNat_lt
  have hip := h.ip
  by_cases hzero : i.clientMin.toNat = 0
  · have hbss : i.bssIp = i.clientMin.toNat := by
      unfold bssIp
      split
      · omega
      · rfl
    have hstart : i.start.flow = i.flowAt 0 := by
      rw [flowAt_zero, ← hbss]
      rfl
    rw [hstart, advance_flowAt h, firstFlow, if_pos (Or.inl hzero)]
  · have hbss : i.bssIp = i.clientMin.toNat - 1 := by
      have hpos : i.clientMin > 0 := UInt32.lt_iff_toNat_lt.mpr (Nat.pos_of_ne_zero hzero)
      rw [bssIp, if_pos hpos]
    have hstart : i.start.flow = (i.clientMin.toNat - 1, i.bssPort) := by
      rw [← hbss]
      rfl
    by_cases hrev : i.clientMax.toNat < i.clientMin.toNat
    · -- the first address is behind the last one, so that the port moves at once
      have hsame : i.advance (i.clientMin.toNat - 1, i.bssPort) = i.advance (i.flowAt 0) := by
        rw [flowAt_zero, advance, advance]
        dsimp only
        rw [if_pos (by omega), if_pos (by omega)]
      rw [hstart, hsame, advance_flowAt h, firstFlow, if_pos (Or.inr hrev)]
    · rw [hstart, firstFlow, if_neg (by omega), flowAt_zero, advance]
      dsimp only
      rw [if_neg (by omega)]
      refine Prod.ext ?_ rfl
      dsimp only
      omega

theorem FlowClient.flowIndex_lt (h : ¬ (i.restarts ∧ i.limitNumFlows.toNat ≤ k)) :
    i.flowIndex k = k + i.firstFlow := if_neg h

/-- **The `k`-th execution leaves the flow with the number `flowIndex k`**, and the flows are
counted from 1. -/
theorem FlowClient.iterate_next (h : i.Regular) (k : Nat) :
    (i.next^[k + 1] i.start).flow = i.flowAt (i.flowIndex k) ∧
      (i.restarts → (i.next^[k + 1] i.start).curFlowId = k % i.limitNumFlows.toNat + 1) := by
  by_cases hre : i.restarts
  · obtain ⟨hun, hpos, hlt⟩ := id hre
    induction k with
    | zero =>
      have hfirst : i.next i.start = ⟨(i.advance i.start.flow).1, (i.advance i.start.flow).2,
          1⟩ := by
        rw [next_restarts hre]
        exact if_neg (by simp only [start]; omega)
      rw [Nat.zero_add, Function.iterate_one, hfirst, flowIndex_lt (by omega), Nat.zero_add,
        Nat.zero_mod]
      exact ⟨advance_start h, fun _ => rfl⟩
    | succ k ih =>
      obtain ⟨hflow, hid⟩ := ih
      have hmod := Nat.mod_lt k hpos
      rw [Function.iterate_succ_apply', next_restarts hre, hid hre, hflow, advance_flowAt h]
      have hturn := succ_div_mod hpos k
      have hport : i.bssPort = i.portMin.toNat := by
        rw [bssPort, hun]
        rfl
      by_cases hlast : k % i.limitNumFlows.toNat + 1 = i.limitNumFlows.toNat
      · -- the last flow of a round
        rw [if_pos hlast] at hturn
        have hzero : (k + 1) % i.limitNumFlows.toNat = 0 := (Prod.mk.inj hturn).1
        have hle : i.limitNumFlows.toNat ≤ k + 1 :=
          Nat.le_of_dvd (by omega) (Nat.dvd_of_mod_eq_zero hzero)
        rw [if_pos (by omega), flowIndex, if_pos ⟨hre, hle⟩, hzero, flowAt_zero, hport]
        exact ⟨rfl, fun _ => rfl⟩
      · rw [if_neg hlast] at hturn
        have hnext : (k + 1) % i.limitNumFlows.toNat = k % i.limitNumFlows.toNat + 1 :=
          (Prod.mk.inj hturn).1
        have hindex : i.flowIndex (k + 1) = i.flowIndex k + 1 := by
          unfold flowIndex
          by_cases hle : i.limitNumFlows.toNat ≤ k
          · rw [if_pos ⟨hre, Nat.le_succ_of_le hle⟩, if_pos ⟨hre, hle⟩, hnext]
          · have hle' : ¬ i.limitNumFlows.toNat ≤ k + 1 := by
              intro hle'
              have heq : k + 1 = i.limitNumFlows.toNat := by omega
              rw [heq, Nat.mod_self] at hnext
              omega
            rw [if_neg (by tauto), if_neg (by tauto)]
            omega
        rw [if_neg (by omega), hindex, hnext]
        refine ⟨rfl, fun _ => ?_⟩
        dsimp only
        omega
  · refine ⟨?_, fun h => absurd h hre⟩
    induction k with
    | zero =>
      rw [Nat.zero_add, Function.iterate_one, next_flow hre, advance_start h,
        flowIndex_lt (by tauto), Nat.zero_add]
    | succ k ih =>
      rw [Function.iterate_succ_apply', next_flow hre, ih, advance_flowAt h,
        flowIndex_lt (by tauto), flowIndex_lt (by tauto)]
      congr 1
      omega

/-! ## 3. The executions of a program -/

/-- The three fields have different names. -/
theorem FlowClient.get_put (i : FlowClient) (env : Env) (v : FlowClientVar) :
    i.get (i.put env v) = v := by
  have h1 : i.varName ++ ".port" ≠ i.varName ++ ".flow_limit" := by simp
  have h2 : i.varName ++ ".ip" ≠ i.varName ++ ".flow_limit" := by simp
  have h3 : i.varName ++ ".ip" ≠ i.varName ++ ".port" := by simp
  simp only [get, put]
  rw [Env.set_same, Env.set_ne _ _ h1, Env.set_same, Env.set_ne _ _ h2, Env.set_ne _ _ h3,
    Env.set_same]

section Executions

variable {rand : Nat} {insts : List Instr} {pktLen : UInt16} {c : CompiledVm} {pkts : Nat →
    Mem} {m : Mem}

/-- **One execution of the list takes the next flow.** -/
theorem execAll_client {t : VarTable} (ht : buildFlowVarTable insts = .ok t)
    (hi : Instr.flowClient i ∈ insts) {n n' : NamedState} (h : execAll insts n = .ok n') :
    i.get n'.vars = i.next (i.get n.vars) := by
  obtain ⟨n1, n2, hexec, hown⟩ := execAll_own ht hi h
  simp only [declares, List.forall_mem_cons] at hown
  obtain ⟨⟨hip, hip'⟩, ⟨hport, hport'⟩, ⟨hlim, hlim'⟩, -⟩ := hown
  have hbefore : i.get n1.vars = i.get n.vars := by
    rw [FlowClient.get, hip, hport, hlim, FlowClient.get]
  have hafter : i.get n'.vars = i.get n2.vars := by
    rw [FlowClient.get, hip', hport', hlim', FlowClient.get]
  have hn2 : n2.vars = i.put n1.vars (i.next (i.get n1.vars)) := by
    cases hexec
    rfl
  rw [hafter, hn2, FlowClient.get_put, hbefore]

theorem get_initVars {t : VarTable} (ht : buildFlowVarTable insts = .ok t)
    (hi : Instr.flowClient i ∈ insts) : i.get (initVars rand insts) = i.start := by
  have hip : i.bssIp < 256 ^ 4 := by
    unfold FlowClient.bssIp
    have := i.clientMin.toNat_lt
    split <;> omega
  have hport : i.bssPort < 256 ^ 2 := by
    unfold FlowClient.bssPort clientUnlimitedMinPort
    have := i.portMin.toNat_lt
    split <;> omega
  have h1 : initVars rand insts (i.varName ++ ".ip") = i.bssIp % 256 ^ 4 :=
    initVars_of_mem ht hi (d := ⟨_, 4, i.bssIp⟩) (by simp [declares])
  have h2 : initVars rand insts (i.varName ++ ".port") = i.bssPort % 256 ^ 2 :=
    initVars_of_mem ht hi (d := ⟨_, 2, i.bssPort⟩) (by simp [declares])
  have h3 : initVars rand insts (i.varName ++ ".flow_limit") = 0 % 256 ^ 4 :=
    initVars_of_mem ht hi (d := ⟨_, 4, 0⟩) (by simp [declares])
  rw [FlowClient.get, h1, h2, h3, Nat.mod_eq_of_lt hip, Nat.mod_eq_of_lt hport]
  rfl

variable {m' : Mem}

/-- **What the window of a client variable holds after `k` executions.** -/
theorem executions_client (hc : compile rand insts pktLen = .ok (some c))
    (hm : m.read 0 c.bss.length = c.bss) (hi : Instr.flowClient i ∈ insts) {off : Nat}
    (hip : c.table.varLookup (i.varName ++ ".ip") = some ⟨off, 4⟩)
    (h : executions c.program pkts m k = .ok m') : loadClient m' off = i.next^[k] i.start := by
  obtain ⟨ops, hp⟩ := passed_of_compile hc
  obtain ⟨env, hrep, hget⟩ :=
    executions_induct hc hm (P := fun k env => i.get env = i.next^[k] i.start)
    (get_initVars hp.table hi)
    (fun k env pkt n hP hn => by
      rw [execAll_client hp.table hi hn, hP, ← Function.iterate_succ_apply' i.next]) h
  obtain ⟨off', hip', hport, hlim, -⟩ := lookup_flowClient hp.table hi
  obtain rfl : off = off' := congrArg VmFlowVarRec.offset (Option.some.inj (hip.symm.trans hip'))
  rw [loadClient_eq hrep hip hport hlim, hget]

/-- The executions end where a random instruction divides by zero, which is in the first one. -/
theorem noWholeRange_of_executions (hc : compile rand insts pktLen = .ok (some c))
    (hm : m.read 0 c.bss.length = c.bss) (h : executions c.program pkts m 1 = .ok m') :
    NoWholeRange insts := by
  obtain ⟨ops, hp⟩ := passed_of_compile hc
  obtain ⟨m1, h₁, h⟩ := bind_eq_ok h
  cases h₁
  obtain ⟨s, hs, -⟩ := bind_eq_ok h
  have hsim := sim_compile hc (s := ⟨m, pkts 0⟩) (n := ⟨initVars rand insts, pkts 0⟩)
    ⟨rep_bss hc hm, rfl⟩
  obtain ⟨n, hn, -⟩ := hsim.ok_left hs
  exact (spansNonzero_iff hp.table).mp ((execFrom_ok_iff insts insts _).mp ⟨n, hn⟩)

theorem executions_one (hc : compile rand insts pktLen = .ok (some c))
    (hm : m.read 0 c.bss.length = c.bss) (h : executions c.program pkts m (k + 1) = .ok m') :
    NoWholeRange insts := by
  induction k generalizing m' with
  | zero => exact noWholeRange_of_executions hc hm h
  | succ k ih =>
    obtain ⟨m1, h₁, -⟩ := bind_eq_ok h
    exact ih h₁

end Executions

/-! ## 4. The ranges -/

/-- The address and the port are in their ranges; an unlimited instruction has a range of ports of
its own. -/
structure FlowClient.InRange (i : FlowClient) (f : Nat × Nat) : Prop where
  ip : i.clientMin.toNat ≤ f.1 ∧ f.1 ≤ i.clientMax.toNat
  port : (if i.isUnlimitedFlows then clientUnlimitedMinPort else i.portMin.toNat) ≤ f.2 ∧
    f.2 ≤ if i.isUnlimitedFlows then 2 ^ 16 - 1 else i.portMax.toNat

/-- The flows start again before the one with number `n`. -/
def FlowClient.EndsBefore (i : FlowClient) (n : Nat) : Prop :=
  i.restarts ∧ i.limitNumFlows.toNat + i.firstFlow ≤ n

instance  (i : FlowClient) (n : Nat) :
    Decidable (i.EndsBefore n) := inferInstanceAs (Decidable (_ ∧ _))

/-- The number of addresses and ports in the ranges. -/
def FlowClient.ipRange (i : FlowClient) : Nat := i.clientMax.toNat - i.clientMin.toNat + 1

@[inherit_doc FlowClient.ipRange]
def FlowClient.portRange (i : FlowClient) : Nat := i.portMax.toNat - i.portMin.toNat + 1

/-- **When the variable stays in its ranges**: the ranges do not end with the greatest number of the
type, or they start with 0, or the flows start again before the variable has gone past the end. -/
structure FlowClient.StaysInRange (i : FlowClient) : Prop where
  ip : i.clientMax.toNat ≠ 2 ^ 32 - 1 ∨ i.clientMin.toNat = 0 ∨ i.EndsBefore i.ipRange
  port : i.isUnlimitedFlows = true ∨ i.clientMax.toNat = 2 ^ 32 - 1 ∨ i.portMax.toNat ≠ 2 ^ 16 - 1 ∨
    i.portMin.toNat = 0 ∨ i.EndsBefore (i.ipRange * i.portRange)

theorem FlowClient.EndsBefore.flowIndex_lt {n : Nat} (h : i.EndsBefore n) (k : Nat) :
    i.flowIndex k < n := by
  obtain ⟨hre, hle⟩ := h
  have hmod := Nat.mod_lt k hre.2.1
  unfold flowIndex
  split
  · omega
  · rename_i hnot
    have hlt : ¬ i.limitNumFlows.toNat ≤ k := fun hle => hnot ⟨hre, hle⟩
    omega

/-- A flow that is not cut off comes. -/
theorem FlowClient.exists_flowIndex {n : Nat} (hn : 0 < n) (h : ¬ i.EndsBefore n) :
    ∃ k, i.flowIndex k = n := by
  have hfirst : i.firstFlow ≤ 1 := by
    unfold firstFlow
    split <;> omega
  refine ⟨n - i.firstFlow, ?_⟩
  rw [i.flowIndex_lt]
  · omega
  · rintro ⟨hre, hle⟩
    exact h ⟨hre, by omega⟩

section Ranges

variable {i : FlowClient} (h : i.Ordered)

include h

theorem FlowClient.Ordered.ip_inRange_iff (j : Nat) :
    (i.clientMin.toNat ≤ (i.flowAt j).1 ∧ (i.flowAt j).1 ≤ i.clientMax.toNat) ↔
      (i.clientMax.toNat = 2 ^ 32 - 1 → j % 2 ^ 32 < 2 ^ 32 - i.clientMin.toNat) := by
  have hip := h.ip
  have hmax := i.clientMax.toNat_lt
  have hlow := odometer_fst_lt i.ipCount_pos i.portCount j
  rw [flowAt]
  dsimp only
  by_cases hfull : i.clientMax.toNat = 2 ^ 32 - 1
  · have hcount : i.ipCount = 2 ^ 32 := if_pos hfull
    have hdigit : (odometer i.ipCount i.portCount j).1 = j % 2 ^ 32 := by rw [odometer, hcount]
    rw [hdigit]
    omega
  · have hcount : i.ipCount = i.clientMax.toNat - i.clientMin.toNat + 1 := if_neg hfull
    omega

theorem FlowClient.Ordered.port_inRange_iff (j : Nat) :
    ((if i.isUnlimitedFlows then clientUnlimitedMinPort else i.portMin.toNat) ≤ (i.flowAt j).2 ∧
      (i.flowAt j).2 ≤ if i.isUnlimitedFlows then 2 ^ 16 - 1 else i.portMax.toNat) ↔
      (i.isUnlimitedFlows = false → i.clientMax.toNat ≠ 2 ^ 32 - 1 → i.portMax.toNat = 2 ^ 16 - 1 →
        j / i.ipRange % 2 ^ 16 < 2 ^ 16 - i.portMin.toNat) := by
  have hport := h.port
  have hpmax := i.portMax.toNat_lt
  have hhigh := odometer_snd_lt i.portCount_pos i.ipCount j
  rw [flowAt, bssPort]
  dsimp only
  by_cases hfull : i.clientMax.toNat = 2 ^ 32 - 1
  · have hone : i.portCount = 1 := if_pos hfull
    have hbound : clientUnlimitedMinPort ≤ 2 ^ 16 - 1 := by decide
    cases hun : i.isUnlimitedFlows with
    | true =>
      simp only [if_true]
      omega
    | false =>
      simp only [Bool.false_eq_true, if_false]
      omega
  · have hip : i.ipCount = i.ipRange := if_neg hfull
    cases hun : i.isUnlimitedFlows with
    | true =>
      have hcount : i.portCount = 2 ^ 16 - clientUnlimitedMinPort := by
        rw [portCount, if_neg hfull, hun]
        rfl
      have hbound : clientUnlimitedMinPort = 1025 := rfl
      simp only [if_true]
      exact iff_of_true (by omega) fun hlim => by cases hlim
    | false =>
      simp only [Bool.false_eq_true, if_false]
      by_cases hlast : i.portMax.toNat = 2 ^ 16 - 1
      · have hcount : i.portCount = 2 ^ 16 := by
          rw [portCount, if_neg hfull, hun, if_neg Bool.false_ne_true, if_pos hlast]
        have hdigit : (odometer i.ipCount i.portCount j).2 = j / i.ipRange % 2 ^ 16 := by
          rw [odometer, hip, hcount]
        rw [hdigit]
        generalize j / i.ipRange = q
        constructor
        · intro hin _ _ _
          omega
        · intro hbelow
          have hlt := hbelow trivial hfull hlast
          omega
      · have hcount : i.portCount = i.portMax.toNat - i.portMin.toNat + 1 := by
          rw [portCount, if_neg hfull, hun, if_neg Bool.false_ne_true, if_neg hlast]
        omega

/-- **The flows that come are in the ranges exactly when the variable stays in them.** -/
theorem FlowClient.Ordered.inRange_iff : (∀ k, i.InRange (i.flowAt (i.flowIndex k))) ↔
    i.StaysInRange := by
  have hip := h.ip
  have hport := h.port
  have hmax := i.clientMax.toNat_lt
  have hpmax := i.portMax.toNat_lt
  have hrange : 0 < i.ipRange := Nat.succ_pos _
  have hports : 0 < i.portRange := Nat.succ_pos _
  constructor
  · intro hall
    refine ⟨?_, ?_⟩
    · by_contra hnot
      push Not at hnot
      obtain ⟨hfull, hmin, hends⟩ := hnot
      obtain ⟨k, hk⟩ := exists_flowIndex hrange hends
      -- the first address behind the range
      have hin := (h.ip_inRange_iff _).mp (hall k).ip hfull
      rw [hk, ipRange, hfull] at hin
      omega
    · by_contra hnot
      push Not at hnot
      obtain ⟨hun, hfull, hlast, hmin, hends⟩ := hnot
      obtain ⟨k, hk⟩ := exists_flowIndex (Nat.mul_pos hrange hports) hends
      -- the first port behind the range
      have hin := (h.port_inRange_iff _).mp (hall k).port (Bool.eq_false_iff.mpr hun) hfull hlast
      rw [hk, Nat.mul_div_cancel_left _ hrange, portRange, hlast] at hin
      omega
  · rintro ⟨hsip, hsport⟩ k
    refine ⟨(h.ip_inRange_iff _).mpr fun hfull =>
      ?_, (h.port_inRange_iff _).mpr fun hun hfull hlast => ?_⟩
    · rcases hsip with hne | hzero | hends
      · exact absurd hfull hne
      · rw [hzero]
        exact Nat.mod_lt _ (by decide)
      · have hlt := hends.flowIndex_lt k
        have hle := Nat.mod_le (i.flowIndex k) (2 ^ 32)
        unfold ipRange at hlt
        omega
    · rcases hsport with hun' | hfull' | hne | hzero | hends
      · rw [hun] at hun'
        cases hun'
      · exact absurd hfull' hfull
      · exact absurd hlast hne
      · rw [hzero]
        exact Nat.mod_lt _ (by decide)
      · have hlt := Nat.div_lt_of_lt_mul (hends.flowIndex_lt k)
        have hle := Nat.mod_le (i.flowIndex k / i.ipRange) (2 ^ 16)
        have hrange : i.portRange = i.portMax.toNat - i.portMin.toNat + 1 := rfl
        omega

end Ranges

/-- **A client variable stays in its ranges exactly when they are not at the end of their types**,
over all executions of a compiled program, from the content of the BSS and whatever the packets are;
a program that divides by zero has no executions. -/
theorem client_inRange_iff (rand : Nat) (insts : List Instr) (pktLen : UInt16) (c : CompiledVm)
    (hc : compile rand insts pktLen = .ok (some c)) (m : Mem) (hm : m.read 0 c.bss.length = c.bss)
    (pkts : Nat → Mem) (i : FlowClient) (hi : Instr.flowClient i ∈ insts)
    (hip : i.clientMin.toNat ≤ i.clientMax.toNat) (hport : i.portMin.toNat ≤ i.portMax.toNat) :
    ∃ off, c.table.varLookup (i.varName ++ ".ip") = some ⟨off, 4⟩ ∧
      c.table.varLookup (i.varName ++ ".port") = some ⟨off + 4, 2⟩ ∧
      ((∀ k m', executions c.program pkts m (k + 1) = .ok m' →
        i.InRange (m'.load off 4, m'.load (off + 4) 2)) ↔
        (NoWholeRange insts → i.StaysInRange)) := by
  obtain ⟨ops, hp⟩ := passed_of_compile hc
  obtain ⟨off, hlip, hlport, -, -⟩ := lookup_flowClient hp.table hi
  refine ⟨off, hlip, hlport, ?_⟩
  have hordered : i.Ordered := ⟨hip, hport⟩
  have hread : ∀ {k m'}, executions c.program pkts m (k + 1) = .ok m' →
      (m'.load off 4, m'.load (off + 4) 2) = i.flowAt (i.flowIndex k) := by
    intro k m' h
    have hload := executions_client hc hm hi hlip h
    rw [← (FlowClient.iterate_next hordered.regular k).1, ← hload]
    rfl
  rw [← hordered.inRange_iff]
  constructor
  · intro hall hspan k
    obtain ⟨m', -, h, -⟩ := executions_ok (m := m) hc hm hspan (k + 1)
    exact hread h ▸ hall k m' h
  · intro hall k m' h
    rw [hread h]
    exact hall (executions_one hc hm h) k

/-- The client of a test of the repository: six addresses, three ports and a limit of four flows. -/
def vm8Client : FlowClient := ⟨"cl1", 0x10000001, 0x10000006, 1025, 1027, 4, 0⟩

theorem client_inRange_vm8 : ∃ c,
    compile 1 [.flowClient vm8Client, .pktWr ⟨"cl1.ip", 26, 0, true⟩] 128 = .ok (some c) ∧
    ∃ off, c.table.varLookup "cl1.ip" = some ⟨off, 4⟩ ∧
      ∀ k m', executions c.program (fun _ _ => 0) (fun a => c.bss.getD a 0) (k + 1) = .ok m' →
        vm8Client.InRange (m'.load off 4, m'.load (off + 4) 2) := by
  refine ⟨_, rfl, ?_⟩
  obtain ⟨off, hoff, -, h⟩ :=
    client_inRange_iff 1 [.flowClient vm8Client, .pktWr ⟨"cl1.ip", 26, 0, true⟩] 128 _
    rfl _ (Mem.read_getD _) (fun _ _ => 0) vm8Client (List.mem_cons_self ..) (by decide) (by decide)
  exact ⟨off, hoff, h.mpr fun _ => ⟨Or.inl (by decide), Or.inr (Or.inr (Or.inl (by decide)))⟩⟩

/-- The last two addresses. -/
def lastAddresses : FlowClient := ⟨"cl1", 0xFFFFFFFE, 0xFFFFFFFF, 1025, 1027, 0, 0⟩

/-- **Behind the last address comes address 0.** -/
theorem client_leaves_range : ∃ c, compile 1 [.flowClient lastAddresses] 128 = .ok (some c) ∧
    ∃ off, c.table.varLookup "cl1.ip" = some ⟨off, 4⟩ ∧
    ∃ m', executions c.program (fun _ _ => 0) (fun a => c.bss.getD a 0) 3 = .ok m' ∧
      m'.load off 4 = 0 ∧ ¬ lastAddresses.InRange (m'.load off 4, m'.load (off + 4) 2) := by
  obtain ⟨c, hc⟩ : ∃ c, compile 1 [.flowClient lastAddresses] 128 = .ok (some c) := ⟨_, rfl⟩
  have hspan : NoWholeRange [.flowClient lastAddresses] := by
    intro i hi
    simp at hi
  obtain ⟨ops, hp⟩ := passed_of_compile hc
  obtain ⟨off, hoff, -, -, -⟩ := lookup_flowClient hp.table (List.mem_singleton.mpr rfl)
  obtain ⟨m', -, h, -⟩ : ∃ m' env, executions c.program (fun _ _ => 0) (fun a => c.bss.getD a 0) 3 =
      .ok m' ∧ Rep c.table m' env := executions_ok hc (Mem.read_getD _) hspan 3
  have hload := executions_client hc (Mem.read_getD _) (List.mem_singleton.mpr rfl) hoff h
  have hip : m'.load off 4 = 0 := (congrArg FlowClientVar.curIp hload).trans (by decide)
  refine ⟨c, hc, off, hoff, m', h, hip, fun hin => ?_⟩
  have hle : lastAddresses.clientMin.toNat ≤ m'.load off 4 := hin.ip.1
  rw [hip] at hle
  exact absurd hle (by decide)

/-! ## 5. The enumeration -/

/-- The number of the flow that the `k`-th execution should yield. -/
def FlowClient.turn (i : FlowClient) (k : Nat) :
    Nat := if i.limitNumFlows = 0 then k else k % i.limitNumFlows.toNat

/-- The flow with a number: the addresses first, then the ports. -/
def FlowClient.nthFlow (i : FlowClient) (j : Nat) : Nat × Nat :=
  (i.clientMin.toNat + j % i.ipRange, i.portMin.toNat + j / i.ipRange % i.portRange)

/-- **A program goes through the flows of a client variable**, which is at `off`: `run k` is the
memory after `k` executions. -/
structure FlowClient.Enumerated (i : FlowClient) (off : Nat) (run : Nat → Except Fault Mem) :
    Prop where
  nth : ∀ k, ∃ m', run (k + 1) = .ok m' ∧
    (m'.load off 4, m'.load (off + 4) 2) = i.nthFlow (i.turn k)
  count : {f | ∃ k m', run (k + 1) = .ok m' ∧ f = (m'.load off 4, m'.load (off + 4) 2)}.ncard =
    if i.limitNumFlows = 0 then i.ipRange * i.portRange
      else min i.limitNumFlows.toNat (i.ipRange * i.portRange)
  distinct : i.limitNumFlows.toNat ≤ i.ipRange * i.portRange → ∀ k < i.limitNumFlows.toNat,
    ∀ k' < i.limitNumFlows.toNat, ∀ m m', run (k + 1) = .ok m → run (k' + 1) = .ok m' →
      (m.load off 4, m.load (off + 4) 2) = (m'.load off 4, m'.load (off + 4) 2) → k = k'

/-- Ranges that do not touch the ends of their types, of a limited instruction. -/
structure FlowClient.Inside (i : FlowClient) : Prop extends i.Ordered where
  limited : i.isUnlimitedFlows = false
  ip_pos : 0 < i.clientMin.toNat
  ip_lt : i.clientMax.toNat < 2 ^ 32 - 1
  port_lt : i.portMax.toNat < 2 ^ 16 - 1

/-- Two flows are the same exactly when their numbers differ by a multiple of the number of
flows. -/
theorem FlowClient.nthFlow_eq_iff (i : FlowClient) (j j' : Nat) : i.nthFlow j = i.nthFlow j' ↔
    j % (i.ipRange * i.portRange) = j' % (i.ipRange * i.portRange) := by
  have hpos : 0 < i.ipRange := Nat.succ_pos _
  rw [← odometer_eq_iff hpos, nthFlow, nthFlow, odometer, odometer, Prod.mk.injEq, Prod.mk.injEq,
    Nat.add_left_cancel_iff, Nat.add_left_cancel_iff]

/-- The number of different flows among the first `n`. -/
theorem FlowClient.ncard_nthFlow (i : FlowClient) (n : Nat) :
    (i.nthFlow '' {j | j < n}).ncard = min n (i.ipRange * i.portRange) := by
  have himage : i.nthFlow '' {j | j < n} = (fun d : Nat × Nat =>
      (i.clientMin.toNat + d.1, i.portMin.toNat + d.2)) ''
      (odometer i.ipRange i.portRange '' {j | j < n}) := by
    rw [Set.image_image]
    rfl
  have hips : 0 < i.ipRange := Nat.succ_pos _
  have hports : 0 < i.portRange := Nat.succ_pos _
  rw [himage, Set.ncard_image_of_injective, ncard_odometer_lt hips hports]
  rintro ⟨a, b⟩ ⟨a', b'⟩ heq
  obtain ⟨h1, h2⟩ := Prod.mk.inj heq
  exact Prod.ext (Nat.add_left_cancel h1) (Nat.add_left_cancel h2)

section Inside

variable {i : FlowClient} (h : i.Inside)

include h

theorem FlowClient.Inside.flowAt_eq (j : Nat) : i.flowAt j = i.nthFlow j := by
  have hip := h.ip
  have hport := h.port
  have hmax := h.ip_lt
  have hpmax := h.port_lt
  have hips : i.ipCount = i.ipRange := if_neg (by omega)
  have hports : i.portCount = i.portRange := by
    rw [portCount, if_neg (by omega), h.limited, if_neg Bool.false_ne_true, if_neg (by omega),
      portRange]
  have hbss : i.bssPort = i.portMin.toNat := by
    rw [bssPort, h.limited]
    rfl
  have hlow := odometer_fst_lt i.ipCount_pos i.portCount j
  have hhigh := odometer_snd_lt i.portCount_pos i.ipCount j
  rw [flowAt, hbss]
  rw [hips, hports] at hlow hhigh ⊢
  have hipRange : i.ipRange = i.clientMax.toNat - i.clientMin.toNat + 1 := rfl
  have hportRange : i.portRange = i.portMax.toNat - i.portMin.toNat + 1 := rfl
  rw [Nat.mod_eq_of_lt (by omega), Nat.mod_eq_of_lt (by omega)]
  rfl

/-- The executions take the turns, but for a limit that no flow number exceeds. -/
theorem FlowClient.Inside.flowIndex_eq (k : Nat) :
    i.flowIndex k = if i.limitNumFlows.toNat = 2 ^ 32 - 1 then k else i.turn k := by
  have hlt := i.limitNumFlows.toNat_lt
  have hfirst : i.firstFlow = 0 := by
    have hpos := h.ip_pos
    have hip := h.ip
    exact if_neg (by omega)
  have hzero : i.limitNumFlows = 0 ↔ i.limitNumFlows.toNat = 0 := by
    rw [← UInt32.toNat_inj]
    rfl
  unfold flowIndex restarts turn
  simp only [hzero, h.limited, hfirst, true_and, Nat.add_zero]
  by_cases hmax : i.limitNumFlows.toNat = 2 ^ 32 - 1
  · rw [if_pos hmax, if_neg (by omega)]
  · rw [if_neg hmax]
    by_cases hnone : i.limitNumFlows.toNat = 0
    · rw [if_neg (by omega), if_pos hnone]
    · rw [if_neg hnone]
      by_cases hle : i.limitNumFlows.toNat ≤ k
      · rw [if_pos ⟨⟨by omega, by omega⟩, hle⟩]
      · rw [if_neg (fun hre => hle hre.2), Nat.mod_eq_of_lt (by omega)]

end Inside

variable {off : Nat} {run : Nat → Except Fault Mem}

/-- What follows from the flows that come: their number, and that they are different before they
come again. -/
theorem FlowClient.enumerated_of_nth (hnth : ∀ k, ∃ m', run (k + 1) = .ok m' ∧
      (m'.load off 4, m'.load (off + 4) 2) = i.nthFlow (i.turn k)) :
    i.Enumerated off run := by
  have hzero : i.limitNumFlows = 0 ↔ i.limitNumFlows.toNat = 0 := by
    rw [← UInt32.toNat_inj]
    rfl
  have hat : ∀ {k m'}, run (k + 1) = .ok m' →
      (m'.load off 4, m'.load (off + 4) 2) = i.nthFlow (i.turn k) := by
    intro k m' h
    obtain ⟨m1, h₁, hflow⟩ := hnth k
    rw [h] at h₁
    cases h₁
    exact hflow
  have hset : {f | ∃ k m', run (k + 1) = .ok m' ∧ f = (m'.load off 4, m'.load (off + 4) 2)} =
      i.nthFlow '' Set.range i.turn := by
    ext f
    constructor
    · rintro ⟨k, m', h, rfl⟩
      exact ⟨_, ⟨k, rfl⟩, (hat h).symm⟩
    · rintro ⟨_, ⟨k, rfl⟩, rfl⟩
      obtain ⟨m', h, hflow⟩ := hnth k
      exact ⟨k, m', h, hflow.symm⟩
  refine ⟨hnth, ?_, fun hle k hk k' hk' m m' h h' heq => ?_⟩
  · rw [hset]
    split
    · rename_i hnone
      -- without a limit all flows come
      have hall : i.nthFlow '' Set.range i.turn =
          i.nthFlow '' {j | j < i.ipRange * i.portRange} := by
        refine Set.Subset.antisymm ?_ (Set.image_mono fun j _ => ⟨j, if_pos hnone⟩)
        rintro _ ⟨j, -, rfl⟩
        exact ⟨j % (i.ipRange * i.portRange),
          Nat.mod_lt _ (Nat.mul_pos (Nat.succ_pos _) (Nat.succ_pos _)),
          (i.nthFlow_eq_iff _ _).mpr (Nat.mod_mod _ _)⟩
      rw [hall, i.ncard_nthFlow, Nat.min_self]
    · rename_i hlim
      have hpos : 0 < i.limitNumFlows.toNat := Nat.pos_of_ne_zero fun h0 => hlim (hzero.mpr h0)
      have hturns : Set.range i.turn = {j | j < i.limitNumFlows.toNat} := by
        ext j
        constructor
        · rintro ⟨k, rfl⟩
          rw [turn, if_neg hlim]
          exact Nat.mod_lt _ hpos
        · intro hj
          exact ⟨j, by rw [turn, if_neg hlim]; exact Nat.mod_eq_of_lt hj⟩
      rw [hturns, i.ncard_nthFlow]
  · rw [hat h, hat h', i.nthFlow_eq_iff] at heq
    have hturn : ∀ j < i.limitNumFlows.toNat, i.turn j = j := by
      intro j hj
      unfold turn
      split
      · rfl
      · exact Nat.mod_eq_of_lt hj
    rwa [hturn k hk, hturn k' hk', Nat.mod_eq_of_lt (Nat.lt_of_lt_of_le hk hle),
      Nat.mod_eq_of_lt (Nat.lt_of_lt_of_le hk' hle)] at heq

/-- What the executions leave in the window of a client variable. -/
theorem FlowClient.Inside.executions_nthFlow (h : i.Inside) {rand : Nat} {insts : List Instr}
    {pktLen : UInt16} {c : CompiledVm} (hc : compile rand insts pktLen = .ok (some c)) {m : Mem}
    (hm : m.read 0 c.bss.length = c.bss) {pkts : Nat → Mem} (hi : Instr.flowClient i ∈ insts)
    (hip : c.table.varLookup (i.varName ++ ".ip") = some ⟨off, 4⟩) {m' : Mem}
    (hrun : executions c.program pkts m (k + 1) = .ok m') :
    (m'.load off 4, m'.load (off + 4) 2) = i.nthFlow (i.flowIndex k) := by
  have hload := executions_client hc hm hi hip hrun
  rw [← h.flowAt_eq, ← (FlowClient.iterate_next h.toOrdered.regular k).1, ← hload]
  rfl

/-- With the greatest limit the flows go on, so the one behind the first round is not the first
one. -/
theorem FlowClient.Inside.dvd_of_enumerated (h : i.Inside) (hread : ∀ k m', run (k + 1) = .ok m' →
      (m'.load off 4, m'.load (off + 4) 2) = i.nthFlow (i.flowIndex k))
    (henum : i.Enumerated off run) (hgreatest : i.limitNumFlows.toNat = 2 ^ 32 - 1) :
    i.ipRange * i.portRange ∣ 2 ^ 32 - 1 := by
  obtain ⟨m', hrun, hflow⟩ := henum.nth (2 ^ 32 - 1)
  rw [hread _ _ hrun, h.flowIndex_eq, if_pos hgreatest, i.nthFlow_eq_iff] at hflow
  have hturn : i.turn (2 ^ 32 - 1) = 0 := by
    have hne : ¬ i.limitNumFlows = 0 := by
      intro h0
      rw [h0] at hgreatest
      cases hgreatest
    rw [FlowClient.turn, if_neg hne, hgreatest, Nat.mod_self]
  rw [hturn, Nat.zero_mod] at hflow
  exact Nat.dvd_of_mod_eq_zero hflow

/-- **A limited client variable goes through its flows as it should, but for the greatest limit**: a
flow number of 32 bits never exceeds it, so the flows do not start again.  Nobody sees that if all
flows have been through at that time. -/
theorem client_enumerates_iff (rand : Nat) (insts : List Instr) (pktLen : UInt16) (c : CompiledVm)
    (hc : compile rand insts pktLen = .ok (some c)) (m : Mem) (hm : m.read 0 c.bss.length = c.bss)
    (pkts : Nat → Mem) (i : FlowClient) (hi : Instr.flowClient i ∈ insts)
    (hlim : i.isUnlimitedFlows = false) (hpos : 0 < i.clientMin.toNat)
    (hip : i.clientMin.toNat ≤ i.clientMax.toNat) (hmax : i.clientMax.toNat < 2 ^ 32 - 1)
    (hport : i.portMin.toNat ≤ i.portMax.toNat) (hpmax : i.portMax.toNat < 2 ^ 16 - 1) :
    ∃ off, c.table.varLookup (i.varName ++ ".ip") = some ⟨off, 4⟩ ∧
      c.table.varLookup (i.varName ++ ".port") = some ⟨off + 4, 2⟩ ∧
      (i.Enumerated off (executions c.program pkts m) ↔ NoWholeRange insts ∧
        (i.limitNumFlows.toNat = 2 ^ 32 - 1 → i.ipRange * i.portRange ∣ 2 ^ 32 - 1)) := by
  obtain ⟨ops, hp⟩ := passed_of_compile hc
  obtain ⟨off, hlip, hlport, -, -⟩ := lookup_flowClient hp.table hi
  refine ⟨off, hlip, hlport, ?_⟩
  have hin : i.Inside := ⟨⟨hip, hport⟩, hlim, hpos, hmax, hpmax⟩
  have hread : ∀ k m', executions c.program pkts m (k + 1) = .ok m' →
      (m'.load off 4, m'.load (off + 4) 2) = i.nthFlow (i.flowIndex k) :=
    fun k m' hrun => hin.executions_nthFlow hc hm hi hlip hrun
  constructor
  · intro henum
    obtain ⟨m1, h₁, -⟩ := henum.nth 0
    exact ⟨executions_one hc hm h₁, hin.dvd_of_enumerated hread henum⟩
  · rintro ⟨hspan, hdvd⟩
    refine FlowClient.enumerated_of_nth fun k => ?_
    obtain ⟨m', -, h, -⟩ : ∃ m' env, executions c.program pkts m (k + 1) = .ok m' ∧
        Rep c.table m' env :=
      executions_ok hc hm hspan (k + 1)
    refine ⟨m', h, (hread k m' h).trans ?_⟩
    rw [hin.flowIndex_eq]
    split
    · rename_i hgreatest
      have hne : ¬ i.limitNumFlows = 0 := by
        intro h0
        rw [h0] at hgreatest
        cases hgreatest
      rw [FlowClient.turn, if_neg hne, hgreatest, i.nthFlow_eq_iff]
      exact (Nat.mod_mod_of_dvd k (hdvd hgreatest)).symm
    · rfl

theorem client_enumerates_vm8 : ∃ c,
    compile 1 [.flowClient vm8Client, .pktWr ⟨"cl1.ip", 26, 0, true⟩] 128 = .ok (some c) ∧
    ∃ off, c.table.varLookup "cl1.ip" = some ⟨off, 4⟩ ∧
      vm8Client.Enumerated off (executions c.program (fun _ _ => 0) (fun a => c.bss.getD a 0)) := by
  refine ⟨_, rfl, ?_⟩
  obtain ⟨off, hoff, -, h⟩ :=
    client_enumerates_iff 1 [.flowClient vm8Client, .pktWr ⟨"cl1.ip", 26, 0, true⟩] 128 _
    rfl _ (Mem.read_getD _) (fun _ _ => 0) vm8Client (List.mem_cons_self ..) (by decide) (by decide)
      (by decide)
    (by decide) (by decide) (by decide)
  refine ⟨off, hoff, h.mpr ⟨?_, fun hgreatest => absurd hgreatest (by decide)⟩⟩
  intro i hi
  simp at hi

/-- Two flows, with the greatest limit. -/
def greatestLimit : FlowClient := ⟨"cl1", 0x10000001, 0x10000002, 1025, 1025, 0xFFFFFFFF, 0⟩

/-- **The greatest limit is not kept.** -/
theorem client_greatestLimit : ∃ c, compile 1 [.flowClient greatestLimit] 128 = .ok (some c) ∧
    ∃ off, c.table.varLookup "cl1.ip" = some ⟨off, 4⟩ ∧
      ¬ greatestLimit.Enumerated off (executions c.program (fun _ _ => 0) (fun a =>
          c.bss.getD a 0)) := by
  obtain ⟨c, hc⟩ : ∃ c, compile 1 [.flowClient greatestLimit] 128 = .ok (some c) := ⟨_, rfl⟩
  obtain ⟨ops, hp⟩ := passed_of_compile hc
  obtain ⟨off, hoff, -, -, -⟩ := lookup_flowClient hp.table (List.mem_singleton.mpr rfl)
  have hin : greatestLimit.Inside :=
    ⟨⟨by decide, by decide⟩, by decide, by decide, by decide, by decide⟩
  refine ⟨c, hc, off, hoff, fun henum => ?_⟩
  have hdvd := hin.dvd_of_enumerated
    (fun k m' hrun => hin.executions_nthFlow hc (Mem.read_getD _) (List.mem_singleton.mpr rfl) hoff
      hrun) henum (by decide)
  exact absurd hdvd (by decide)

/-! ## 6. All flows -/

/-- The flows of all executions. -/
def FlowClient.flows (i : FlowClient) :
    Set (Nat × Nat) := Set.range fun k => i.flowAt (i.flowIndex k)

/-- The number of flows, if no two of them are the same. -/
def FlowClient.flowCount (i : FlowClient) : Nat := i.ipCount * i.portCount

/-- The number of the first flow that does not come any more. -/
def FlowClient.flowEnd (i : FlowClient) : Nat :=
  if i.restarts then i.limitNumFlows.toNat + i.firstFlow else i.flowCount

theorem FlowClient.ipCount_le (i : FlowClient) : i.ipCount ≤ 2 ^ 32 := by
  have hmax := i.clientMax.toNat_lt
  unfold ipCount
  split <;> omega

theorem FlowClient.portCount_le (i : FlowClient) : i.portCount ≤ 2 ^ 16 := by
  have hmax := i.portMax.toNat_lt
  unfold portCount clientUnlimitedMinPort
  split
  · decide
  split
  · decide
  split <;> omega

theorem FlowClient.flowCount_pos (i : FlowClient) :
    0 < i.flowCount := Nat.mul_pos i.ipCount_pos i.portCount_pos

/-- **Two flows are the same exactly when the odometer shows the same.** -/
theorem FlowClient.flowAt_eq_iff (i : FlowClient) (j j' : Nat) :
    i.flowAt j = i.flowAt j' ↔ j % i.flowCount = j' % i.flowCount := by
  have hips := i.ipCount_le
  have hports := i.portCount_le
  have hlow := odometer_fst_lt i.ipCount_pos i.portCount j
  have hlow' := odometer_fst_lt i.ipCount_pos i.portCount j'
  have hhigh := odometer_snd_lt i.portCount_pos i.ipCount j
  have hhigh' := odometer_snd_lt i.portCount_pos i.ipCount j'
  rw [flowCount, ← odometer_eq_iff i.ipCount_pos, flowAt, flowAt, Prod.mk.injEq]
  constructor
  · rintro ⟨h1, h2⟩
    exact Prod.ext (by omega) (by omega)
  · intro h
    rw [h]
    exact ⟨rfl, rfl⟩

/-- The first flows have the first port. -/
theorem FlowClient.flowAt_of_lt {j : Nat} (h : j < i.ipCount) :
    i.flowAt j = ((i.clientMin.toNat + j) % 2 ^ 32, i.bssPort) := by
  have hdigits : odometer i.ipCount i.portCount j = (j, 0) := by
    rw [odometer, Nat.mod_eq_of_lt h, Nat.div_eq_of_lt h, Nat.zero_mod]
  have hzero := congrArg Prod.snd i.flowAt_zero
  have hport : i.bssPort % 2 ^ 16 = i.bssPort := by
    rw [FlowClient.flowAt, odometer, Nat.zero_div, Nat.zero_mod] at hzero
    exact hzero
  rw [flowAt, hdigits, Nat.add_zero, hport]

/-- **The flows that come are those before `flowEnd`.** -/
theorem FlowClient.flows_eq (i : FlowClient) : i.flows = i.flowAt '' {j | j < i.flowEnd} := by
  have hfirst : i.firstFlow ≤ 1 := by
    unfold firstFlow
    split <;> omega
  unfold flows flowEnd
  refine Set.Subset.antisymm ?_ ?_
  · rintro _ ⟨k, rfl⟩
    by_cases hre : i.restarts
    · rw [if_pos hre]
      exact ⟨i.flowIndex k, FlowClient.EndsBefore.flowIndex_lt ⟨hre, le_rfl⟩ k, rfl⟩
    · rw [if_neg hre]
      exact ⟨i.flowIndex k % i.flowCount, Nat.mod_lt _ i.flowCount_pos,
        (i.flowAt_eq_iff _ _).mpr (Nat.mod_mod _ _)⟩
  · rintro _ ⟨j, hj, rfl⟩
    by_cases hre : i.restarts
    · rw [if_pos hre] at hj
      by_cases hzero : j = 0
      · -- the first flow comes when the flows start again, if not at first
        refine ⟨i.limitNumFlows.toNat, ?_⟩
        dsimp only
        rw [flowIndex, if_pos ⟨hre, le_rfl⟩, Nat.mod_self, hzero]
      · refine ⟨j - i.firstFlow, ?_⟩
        have hlt : j < i.limitNumFlows.toNat + i.firstFlow := hj
        dsimp only
        rw [i.flowIndex_lt (by omega)]
        congr 1
        omega
    · rw [if_neg hre] at hj
      refine ⟨j + i.flowCount - i.firstFlow, ?_⟩
      have hpos := i.flowCount_pos
      have hindex : j + i.flowCount - i.firstFlow + i.firstFlow = j + i.flowCount := by omega
      dsimp only
      rw [i.flowIndex_lt (by tauto), hindex, flowAt_eq_iff, Nat.add_mod_right]

/-- **The number of different flows.** -/
theorem FlowClient.ncard_flows (i : FlowClient) : i.flows.ncard = min i.flowEnd i.flowCount := by
  have himage : (i.flowAt '' {j | j < i.flowEnd}).ncard =
      (odometer i.ipCount i.portCount '' {j | j < i.flowEnd}).ncard := by
    have hflow : i.flowAt = (fun d =>
        ((i.clientMin.toNat + d.1) % 2 ^ 32, (i.bssPort + d.2) % 2 ^ 16)) ∘
        odometer i.ipCount i.portCount := rfl
    rw [hflow, Set.image_comp]
    refine Set.InjOn.ncard_image ?_
    rintro _ ⟨j, -, rfl⟩ _ ⟨j', -, rfl⟩ heq
    rw [odometer_eq_iff i.ipCount_pos]
    exact (i.flowAt_eq_iff j j').mp heq
  rw [flows_eq, himage, ncard_odometer_lt i.ipCount_pos i.portCount_pos, flowCount]

theorem FlowClient.flows_finite (i : FlowClient) : i.flows.Finite := by
  rw [flows_eq]
  exact (Set.finite_lt_nat _).image _

/-- **One variable keeps its limit exactly if it starts again and from the first flow, or has not
more flows.** -/
theorem FlowClient.ncard_flows_le_iff : i.flows.ncard ≤ i.limitNumFlows.toNat ↔
    (i.restarts ∧ i.firstFlow = 0) ∨ i.flowCount ≤ i.limitNumFlows.toNat := by
  have hfirst : i.firstFlow ≤ 1 := by
    unfold firstFlow
    split <;> omega
  rw [ncard_flows]
  unfold flowEnd
  by_cases hre : i.restarts
  · rw [if_pos hre]
    simp only [hre, true_and]
    omega
  · rw [if_neg hre]
    simp only [hre, false_and, false_or]
    omega

end Trex.Vm
