/-
# The byte program performs the instruction list

The forward simulation between the two meanings of a VM program.  On one side the runner walks
the emitted bytes over the flow-variable memory (`runnerRun`); on the other the instructions
run one after the other on named variables (`execAll`).  The relation between the states is
`Sim`: the windows of the table hold the values of the variables, and the packets are equal.

* §1 finds the window of the variable that an instruction names.
* §2 does each command on the two sides.
* §3 does one instruction, and then the list by induction.
* §4 is the result about `compile`.

Both sides stop at a random instruction with an empty span, the runner with a division by zero,
and nothing else stops either of them.
-/
import Mathlib.Tactic.Positivity
import Trex.Vm.Layout

namespace Trex.Vm

open Trex.Lib Trex.Net List

/-! ## 1. The window of a named variable -/

section Windows

variable {insts : List Instr} {t : VarTable}

theorem declared_split (rand : Nat) {inst : Instr} (hi : inst ∈ insts) :
    ∃ pre post, declared rand insts = pre ++ declares inst ++ post := by
  obtain ⟨l, l', rfl⟩ := append_of_mem hi
  rw [declared, flatMap_append, flatMap_cons, ← append_assoc, ← append_assoc]
  exact ⟨_, _, rfl⟩

theorem lookup_flowMan (ht : buildFlowVarTable insts = .ok t) {i : FlowMan}
    (hi : Instr.flowMan i ∈ insts) :
    ∃ off w, t.varLookup i.varName = some ⟨off, i.sizeBytes.toNat⟩ ∧ off % 2 ^ 8 = off
      ∧ Width.ofSize i.sizeBytes.toNat = some w := by
  obtain ⟨hlays, hcur, -⟩ := lays_buildFlowVarTable 0 ht
  obtain ⟨pre, post, hsplit⟩ := declared_split 0 hi
  have hr := hlays.lookup_part hsplit (mem_singleton.mpr rfl)
  have hle := hlays.window_le hr
  obtain ⟨w, hw⟩ := hlays.width hr
  simp only [svMaxFlowVar] at hcur
  exact ⟨_, w, hr, Nat.mod_eq_of_lt (by simp only at hle; omega), hw⟩

theorem lookup_flowClient (ht : buildFlowVarTable insts = .ok t) {i : FlowClient}
    (hi : Instr.flowClient i ∈ insts) :
    ∃ off, t.varLookup (i.varName ++ ".ip") = some ⟨off, 4⟩
      ∧ t.varLookup (i.varName ++ ".port") = some ⟨off + 4, 2⟩
      ∧ t.varLookup (i.varName ++ ".flow_limit") = some ⟨off + 6, 4⟩ ∧ off % 2 ^ 8 = off := by
  obtain ⟨hlays, hcur, -⟩ := lays_buildFlowVarTable 0 ht
  obtain ⟨pre, post, hsplit⟩ := declared_split 0 hi
  have hip : t.varLookup (i.varName ++ ".ip") = some ⟨totalSize pre, 4⟩ :=
    hlays.lookup_part hsplit (by simp [layout, declares])
  have hle := hlays.window_le hip
  simp only [svMaxFlowVar] at hcur
  refine ⟨totalSize pre, hip, ?_, ?_, Nat.mod_eq_of_lt (by simp only at hle; omega)⟩
  · exact hlays.lookup_part hsplit (by simp [layout, declares])
  · exact hlays.lookup_part hsplit (by simp [layout, declares])

/-- The seed is the first variable, where the runner reads it. -/
theorem lookup_seed (ht : buildFlowVarTable insts = .ok t) {i : FlowMan}
    (hi : Instr.flowMan i ∈ insts) (hop : i.op = .RANDOM) :
    t.varLookup randomVarName = some ⟨0, 4⟩ := by
  obtain ⟨hlays, -, -⟩ := lays_buildFlowVarTable 0 ht
  have hany : insts.any isRandomInstr = true :=
    any_eq_true.mpr ⟨_, hi, by simp [isRandomInstr, hop]⟩
  have hd : declared 0 insts = [] ++ [⟨randomVarName, 4, 0⟩] ++ insts.flatMap declares := by
    rw [declared, if_pos hany, nil_append]
  exact hlays.lookup_part hd (mem_singleton.mpr rfl)

end Windows

/-! ## 2. One command on both sides -/

theorem FlowMan.lo_lt (i : FlowMan) : i.lo < 256 ^ i.sizeBytes.toNat :=
  Nat.mod_lt _ (by positivity)

theorem FlowMan.hi_lt (i : FlowMan) : i.hi < 256 ^ i.sizeBytes.toNat :=
  Nat.mod_lt _ (by positivity)

/-- The generators leave a 32-bit seed. -/
theorem vmRand_seed_lt (w : Width) (seed : Nat) : (vmRand w seed).2 < 256 ^ 4 := by
  have hlt : ∀ s, (fastrand s).2 < 256 ^ 4 := fun s => Nat.mod_lt _ (by decide)
  cases w <;> exact hlt _

/-- The fields of a client variable are values of their types. -/
structure FlowClientVar.Bounded (v : FlowClientVar) : Prop where
  ip : v.curIp < 256 ^ 4
  port : v.curPort < 256 ^ 2
  flowId : v.curFlowId < 256 ^ 4

variable {v : FlowClientVar} {t : VarTable} {insts : List Instr}

theorem clientsLimitRun_bounded {minPort maxPort minIp maxIp limitFlows : Nat}
    (hport : minPort < 256 ^ 2) (hip : minIp < 256 ^ 4) (hv : v.Bounded) :
    (clientsLimitRun minPort maxPort minIp maxIp limitFlows v).Bounded := by
  have h32 : ∀ n : Nat, (n + 1) % 2 ^ 32 < 256 ^ 4 := fun n => Nat.mod_lt _ (by decide)
  have h16 : ∀ n : Nat, (n + 1) % 2 ^ 16 < 256 ^ 2 := fun n => Nat.mod_lt _ (by decide)
  have hnext : (if (v.curIp + 1) % 2 ^ 32 > maxIp then
      (⟨minIp, if (v.curPort + 1) % 2 ^ 16 > maxPort then minPort else (v.curPort + 1) % 2 ^ 16,
        v.curFlowId⟩ : FlowClientVar)
      else ⟨(v.curIp + 1) % 2 ^ 32, v.curPort, v.curFlowId⟩).Bounded := by
    split
    · refine ⟨hip, ?_, hv.flowId⟩
      dsimp only
      split
      · exact hport
      · exact h16 _
    · exact ⟨h32 _, hv.port, hv.flowId⟩
  simp only [clientsLimitRun]
  generalize (if (v.curIp + 1) % 2 ^ 32 > maxIp then _ else _ : FlowClientVar) = v1 at hnext ⊢
  split
  · split
    · exact ⟨hip, hport, by dsimp only; decide⟩
    · exact ⟨hnext.ip, hnext.port, h32 _⟩
  · exact hnext

theorem clientsUnLimitRun_bounded {minIp maxIp : Nat} (hip : minIp < 256 ^ 4) (hv : v.Bounded) :
    (clientsUnLimitRun minIp maxIp v).Bounded := by
  simp only [clientsUnLimitRun]
  split
  · refine ⟨hip, ?_, hv.flowId⟩
    dsimp only
    split
    · decide
    · exact Nat.mod_lt _ (by decide)
  · exact ⟨Nat.mod_lt _ (by decide), hv.port, hv.flowId⟩

theorem FlowClient.next_bounded (i : FlowClient) (hv : v.Bounded) :
    (i.next v).Bounded := by
  have hip : i.clientMin.toNat < 256 ^ 4 := i.clientMin.toNat_lt
  have hport : i.portMin.toNat < 256 ^ 2 := i.portMin.toNat_lt
  unfold FlowClient.next
  split
  · exact clientsUnLimitRun_bounded hip hv
  · exact clientsLimitRun_bounded hport hip hv

section Commands

variable {t : VarTable} {ds : List VarDecl} {m : Mem} {env : Env}

variable {i : FlowMan} {off : Nat}

variable {w : Width}

theorem rep_runInc (h : Lays t ds) (hrep : Rep t m env)
    (hr : t.varLookup i.varName = some ⟨off, i.sizeBytes.toNat⟩)
    (hw : Width.ofSize i.sizeBytes.toNat = some w) :
    Rep t (DpOp.runInc w off i.lo i.hi m) (env.set i.varName (i.incVal (env i.varName))) := by
  have hv : m.load off i.sizeBytes.toNat = env i.varName := hrep _ _ hr
  simp only [DpOp.runInc, FlowMan.incVal, ofSize_bytes hw, hv]
  split
  · have hst := h.rep_store hrep hr i.lo
    rwa [Nat.mod_eq_of_lt i.lo_lt] at hst
  · exact h.rep_store hrep hr _

theorem rep_runDec (h : Lays t ds) (hrep : Rep t m env)
    (hr : t.varLookup i.varName = some ⟨off, i.sizeBytes.toNat⟩)
    (hw : Width.ofSize i.sizeBytes.toNat = some w) :
    Rep t (DpOp.runDec w off i.lo i.hi m) (env.set i.varName (i.decVal (env i.varName))) := by
  have hv : m.load off i.sizeBytes.toNat = env i.varName := hrep _ _ hr
  simp only [DpOp.runDec, FlowMan.decVal, ofSize_bytes hw, hv]
  split
  · have hst := h.rep_store hrep hr i.hi
    rwa [Nat.mod_eq_of_lt i.hi_lt] at hst
  · exact h.rep_store hrep hr _

/-- A random command draws from the seed that is stored in front of the variables. -/
theorem rep_runRand (h : Lays t ds) (hrep : Rep t m env)
    (hseed : t.varLookup randomVarName = some ⟨0, 4⟩)
    (hr : t.varLookup i.varName = some ⟨off, i.sizeBytes.toNat⟩)
    (hw : Width.ofSize i.sizeBytes.toNat = some w) :
    ExceptRel (Rep t) (DpOp.runRand w off i.lo i.hi m)
      (if i.span = 0 then .error .divByZero
       else .ok ((env.set randomVarName (i.draw (env randomVarName)).2).set i.varName
         (i.draw (env randomVarName)).1)) := by
  have hs : m.load 0 4 = env randomVarName := hrep _ _ hseed
  have hspan : i.span = randSpan w i.lo i.hi := by
    simp only [FlowMan.span, hw]
  simp only [DpOp.runRand, ← hspan, hs]
  split
  · exact rfl
  · simp only [exceptRel_ok, FlowMan.draw, hw, ofSize_bytes hw]
    have h1 := h.rep_store hrep hseed (vmRand w (env randomVarName)).2
    rw [Nat.mod_eq_of_lt (vmRand_seed_lt w _)] at h1
    exact h.rep_store h1 hr _

/-- Storing a client variable is three changes of the environment. -/
theorem rep_storeClient (h : Lays t ds) (hrep : Rep t m env) {i : FlowClient}
    (hip : t.varLookup (i.varName ++ ".ip") = some ⟨off, 4⟩)
    (hport : t.varLookup (i.varName ++ ".port") = some ⟨off + 4, 2⟩)
    (hlim : t.varLookup (i.varName ++ ".flow_limit") = some ⟨off + 6, 4⟩) (hv : v.Bounded) :
    Rep t (storeClient m off v) (i.put env v) := by
  have h1 := h.rep_store hrep hip v.curIp
  have h2 := h.rep_store h1 hport v.curPort
  have h3 := h.rep_store h2 hlim v.curFlowId
  rwa [Nat.mod_eq_of_lt hv.ip, Nat.mod_eq_of_lt hv.port, Nat.mod_eq_of_lt hv.flowId] at h3

theorem loadClient_eq (hrep : Rep t m env) {i : FlowClient}
    (hip : t.varLookup (i.varName ++ ".ip") = some ⟨off, 4⟩)
    (hport : t.varLookup (i.varName ++ ".port") = some ⟨off + 4, 2⟩)
    (hlim : t.varLookup (i.varName ++ ".flow_limit") = some ⟨off + 6, 4⟩) :
    loadClient m off = i.get env := by
  have h1 : m.load off 4 = env (i.varName ++ ".ip") := hrep _ _ hip
  have h2 : m.load (off + 4) 2 = env (i.varName ++ ".port") := hrep _ _ hport
  have h3 : m.load (off + 6) 4 = env (i.varName ++ ".flow_limit") := hrep _ _ hlim
  rw [loadClient, FlowClient.get, h1, h2, h3]

theorem loadClient_bounded (m : Mem) (off : Nat) : (loadClient m off).Bounded :=
  ⟨m.load_lt off 4, m.load_lt (off + 4) 2, m.load_lt (off + 6) 4⟩

/-- A packet write puts the bytes of the variable plus the added value, in the byte order of
the instruction. -/
theorem wr_eq (i : WriteToPkt) (w : Width) (off v : Nat) (s : DpState)
    (hv : s.flowVar.load off w.bytes = v) :
    DpOp.wr w (if i.isBigEndian then pktWrIsBig else 0) off i.pktOffset.toNat
        (signedBits w.bytes i.addValue) s
      = s.pkt.putBytes i.pktOffset.toNat (i.bytes w.bytes v) := by
  have hbig : ∀ b : Bool, ((if b then pktWrIsBig else 0) &&& pktWrIsBig = pktWrIsBig) ↔
      b = true := by
    intro b
    cases b <;> decide
  cases w with
  | w8 =>
    have hone : ∀ n, (toBytes 1 n).reverse = toBytes 1 n := fun n => rfl
    simp only [DpOp.wr, WriteToPkt.bytes, Width.bytes, hone, ite_self, ← hv]
    rfl
  | w16 | w32 | w64 =>
    simp only [DpOp.wr, WriteToPkt.bytes, hbig, hv]
    split
    · rw [Mem.store_bswap]
    · rfl

end Commands

/-! ## 3. One instruction, and the list -/

/-- The two levels agree on a state. -/
structure Sim (t : VarTable) (s : DpState) (n : NamedState) : Prop where
  vars : Rep t s.flowVar n.vars
  pkt : s.pkt = n.pkt

section Simulation

variable {insts : List Instr} {t : VarTable} {pktSize insId cnt : Nat} {ops : List DpOp}
  {s : DpState} {n : NamedState}

theorem runOps_singleton (o : DpOp) (s : DpState) : runOps [o] s = o.run s := by
  simp only [runOps]
  cases o.run s <;> rfl

/-- The command of a flow variable instruction. -/
theorem buildCommand_flowMan {i : FlowMan} {off : Nat} {w : Width}
    (hr : t.varLookup i.varName = some ⟨off, i.sizeBytes.toNat⟩) (hoff : off % 2 ^ 8 = off)
    (hw : Width.ofSize i.sizeBytes.toNat = some w)
    (h : buildCommand t pktSize insId (.flowMan i) = .ok (cnt, ops)) :
    ops = [.flowVar i.op w off i.lo i.hi] := by
  simp only [buildCommand, hw, VarTable.getVarOffset, hr, bind, Except.bind, hoff, ofSize_bytes hw]
    at h
  cases h
  rfl

/-- **One instruction.**  The commands emitted for it and the instruction itself take related
states to related states, or both stop. -/
theorem sim_instr (ht : buildFlowVarTable insts = .ok t) {inst : Instr} (hi : inst ∈ insts)
    (hb : buildCommand t pktSize insId inst = .ok (cnt, ops)) (hsim : Sim t s n) :
    ExceptRel (Sim t) (runOps ops s) (inst.exec insts n) := by
  obtain ⟨hlays, hcur, -⟩ := lays_buildFlowVarTable 0 ht
  obtain ⟨hvars, hpkt⟩ := hsim
  cases inst with
  | fixIpv4Cs i =>
    simp only [buildCommand] at hb
    split at hb
    · cases hb
    · cases hb
      rw [runOps_singleton]
      exact ⟨hvars, by simp only [hpkt]⟩
  | flowMan i =>
    obtain ⟨off, w, hr, hoff, hw⟩ := lookup_flowMan ht hi
    rw [buildCommand_flowMan hr hoff hw hb, runOps_singleton]
    cases hop : i.op with
    | INC =>
      simp only [DpOp.run, Instr.exec, hop]
      exact ⟨rep_runInc hlays hvars hr hw, hpkt⟩
    | DEC =>
      simp only [DpOp.run, Instr.exec, hop]
      exact ⟨rep_runDec hlays hvars hr hw, hpkt⟩
    | RANDOM =>
      have hrand := rep_runRand hlays hvars (lookup_seed ht hi hop) hr hw
      simp only [DpOp.run, Instr.exec, hop]
      split at hrand
      · rename_i hspan
        cases hx : DpOp.runRand w off i.lo i.hi s.flowVar with
        | ok m' => rw [hx] at hrand; exact absurd hrand id
        | error e => rw [hx] at hrand; rw [if_pos hspan]; exact hrand
      · rename_i hspan
        rw [if_neg hspan]
        obtain ⟨m', hm', hrep⟩ := hrand.ok_right rfl
        rw [hm']
        exact ⟨hrep, hpkt⟩
  | pktWr i =>
    simp only [buildCommand] at hb
    split at hb
    · cases hb
    rename_i var hvar
    split at hb
    · cases hb
    obtain ⟨w, hw⟩ := hlays.width hvar
    have hle := hlays.window_le hvar
    have hoff : var.offset % 2 ^ 8 = var.offset := by
      simp only [svMaxFlowVar] at hcur
      omega
    simp only [hw, hoff] at hb
    cases hb
    have hval : s.flowVar.load var.offset w.bytes = n.vars i.flowVarName := by
      rw [ofSize_bytes hw]
      exact hvars _ _ hvar
    have hwr := wr_eq i w _ _ s hval
    rw [runOps_singleton]
    simp only [DpOp.run, Instr.exec, hlays.varSize_eq hvar, hwr]
    exact ⟨hvars, by simp only [hpkt, ofSize_bytes hw]⟩
  | flowClient i =>
    obtain ⟨off, hip, hport, hlim, hoff⟩ := lookup_flowClient ht hi
    have hload := loadClient_eq hvars hip hport hlim
    have hbound := i.next_bounded (loadClient_bounded s.flowVar off)
    simp only [buildCommand, VarTable.getVarOffset, hip, bind, Except.bind, hoff] at hb
    have hstep := rep_storeClient hlays hvars hip hport hlim hbound
    rw [hload] at hstep
    split at hb <;>
      · rename_i hun
        cases hb
        rw [runOps_singleton]
        simp only [DpOp.run, Instr.exec, hload]
        refine ⟨?_, hpkt⟩
        simpa [FlowClient.next, hun] using hstep

theorem runOps_append (ops ops' : List DpOp) (s : DpState) :
    runOps (ops ++ ops') s = runOps ops s >>= runOps ops' := by
  induction ops generalizing s with
  | nil => rfl
  | cons o ops ih =>
    simp only [cons_append, runOps]
    cases o.run s with
    | error e => rfl
    | ok s' => exact ih s'

/-- **The list, by induction**: the commands emitted for the rest of the list and the rest of
the list itself. -/
theorem sim_list (ht : buildFlowVarTable insts = .ok t) : ∀ {rest : List Instr} {insId cnt : Nat}
    {ops : List DpOp} {s : DpState} {n : NamedState}, (∀ i ∈ rest, i ∈ insts) →
      buildCommands t pktSize insId rest = .ok (cnt, ops) → Sim t s n →
        ExceptRel (Sim t) (runOps ops s) (execFrom insts rest n)
  | [], insId, cnt, ops, s, n, _, hb, hsim => by
    cases hb
    exact hsim
  | inst :: rest, insId, cnt, ops, s, n, hsub, hb, hsim => by
    obtain ⟨⟨c1, ops1⟩, hb1, hb⟩ := bind_eq_ok hb
    obtain ⟨⟨c2, ops2⟩, hb2, hb⟩ := bind_eq_ok hb
    cases hb
    rw [runOps_append]
    refine (sim_instr ht (hsub inst (by simp)) hb1 hsim).bind fun s' n' hsim' => ?_
    exact sim_list ht (fun i hi => hsub i (by simp [hi])) hb2 hsim'

end Simulation

/-! ## 4. The emitted commands fit their structs -/

theorem signedBits_lt (w : Nat) (v : Int32) : signedBits w v < 256 ^ w := by
  have hpos : (0 : Int) < 256 ^ w := by positivity
  have h1 := Int.emod_nonneg v.toInt hpos.ne'
  have h2 := Int.emod_lt_of_pos v.toInt hpos
  have h3 : ((signedBits w v : Nat) : Int) < (256 : Int) ^ w := by
    rw [signedBits, Int.toNat_of_nonneg h1]
    exact h2
  exact_mod_cast h3

theorem fits_buildCommand {pktSize insId cnt : Nat} {ops : List DpOp} {inst : Instr}
    (hb : buildCommand t pktSize insId inst = .ok (cnt, ops)) : ∀ o ∈ ops, o.Fits := by
  have h8 : ∀ n : Nat, n % 2 ^ 8 < 256 ^ 1 := fun n => Nat.mod_lt _ (by decide)
  have hpow : ∀ n k : Nat, n % 256 ^ k < 256 ^ k := fun n k => Nat.mod_lt _ (by positivity)
  cases inst with
  | fixIpv4Cs i =>
    simp only [buildCommand] at hb
    split at hb
    · cases hb
    · cases hb
      have := i.pktOffset.toNat_lt
      simpa [DpOp.Fits, DpOp.fields] using this
  | flowMan i =>
    simp only [buildCommand] at hb
    split at hb
    · rename_i w hw
      obtain ⟨off, -, hb⟩ := bind_eq_ok hb
      cases hb
      intro o ho f hf
      obtain rfl := mem_singleton.mp ho
      simp only [DpOp.fields, mem_cons, not_mem_nil, or_false] at hf
      rcases hf with rfl | rfl | rfl
      · exact h8 _
      · exact hpow _ _
      · exact hpow _ _
    · cases hb
      exact fun o ho => absurd ho (by simp)
  | pktWr i =>
    have hpkt : i.pktOffset.toNat < 256 ^ 2 := i.pktOffset.toNat_lt
    have hflags : (if i.isBigEndian then pktWrIsBig else 0) < 256 ^ 1 := by
      split <;> decide
    simp only [buildCommand] at hb
    split at hb
    · cases hb
    split at hb
    · cases hb
    split at hb
    · rename_i w hw
      cases hb
      intro o ho f hf
      obtain rfl := mem_singleton.mp ho
      have hval := signedBits_lt w.bytes i.addValue
      cases w with
      | w8 =>
        simp only [DpOp.fields, mem_cons, not_mem_nil, or_false] at hf
        rcases hf with rfl | rfl | rfl | rfl
        exacts [hflags, h8 _, hval, hpkt]
      | w16 | w32 | w64 =>
        simp only [DpOp.fields, mem_cons, not_mem_nil, or_false] at hf
        rcases hf with rfl | rfl | rfl | rfl
        exacts [hflags, h8 _, hpkt, hval]
    · cases hb
      exact fun o ho => absurd ho (by simp)
  | flowClient i =>
    obtain ⟨off, -, hb⟩ := bind_eq_ok hb
    have hip := i.clientMin.toNat_lt
    have hip' := i.clientMax.toNat_lt
    have hport := i.portMin.toNat_lt
    have hport' := i.portMax.toNat_lt
    have hlim := i.limitNumFlows.toNat_lt
    split at hb <;>
      · cases hb
        intro o ho f hf
        obtain rfl := mem_singleton.mp ho
        simp only [DpOp.fields, mem_cons, not_mem_nil, or_false] at hf
        rcases hf with rfl | rfl | rfl | rfl | rfl | hf
        all_goals first | exact h8 _ | decide | assumption | skip
        all_goals rcases hf with rfl | rfl | rfl
        all_goals assumption

theorem fits_buildCommands {pktSize : Nat} : ∀ {insts : List Instr} {insId cnt : Nat}
    {ops : List DpOp}, buildCommands t pktSize insId insts = .ok (cnt, ops) → ∀ o ∈ ops, o.Fits
  | [], insId, cnt, ops, hb => by
    cases hb
    exact fun o ho => absurd ho (by simp)
  | inst :: rest, insId, cnt, ops, hb => by
    obtain ⟨⟨c1, ops1⟩, hb1, hb⟩ := bind_eq_ok hb
    obtain ⟨⟨c2, ops2⟩, hb2, hb⟩ := bind_eq_ok hb
    cases hb
    intro o ho
    rcases mem_append.mp ho with ho | ho
    · exact fits_buildCommand hb1 o ho
    · exact fits_buildCommands hb2 o ho

/-! ## 5. `compile` -/

/-- No random instruction has a range `min, …, max` whose size is a multiple of `2 ^ 32`, the
bounds read as numbers of the variable's size. -/
def NoWholeRange (insts : List Instr) : Prop :=
  ∀ i, Instr.flowMan i ∈ insts → i.op = .RANDOM → (i.hi + 1) % 2 ^ 32 ≠ i.lo % 2 ^ 32

/-- The span that a random op-code computes is empty exactly for these ranges. -/
theorem randSpan_eq_zero_iff (w : Width) {lo hi : Nat} (hlo : lo < 256 ^ w.bytes) :
    randSpan w lo hi = 0 ↔ (hi + 1) % 2 ^ 32 = lo % 2 ^ 32 := by
  cases w with
  | w8 | w16 | w32 =>
    simp only [Width.bytes] at hlo
    simp only [randSpan]
    omega
  | w64 =>
    simp only [Width.bytes] at hlo
    simp only [randSpan]
    split <;> omega

theorem spansNonzero_iff (ht : buildFlowVarTable insts = .ok t) :
    SpansNonzero insts ↔ NoWholeRange insts := by
  have hone : ∀ i, Instr.flowMan i ∈ insts →
      (i.span = 0 ↔ (i.hi + 1) % 2 ^ 32 = i.lo % 2 ^ 32) := by
    intro i hi
    obtain ⟨off, w, -, -, hw⟩ := lookup_flowMan ht hi
    have hlo : i.lo < 256 ^ w.bytes := by
      rw [ofSize_bytes hw]
      exact i.lo_lt
    simp only [FlowMan.span, hw]
    exact randSpan_eq_zero_iff w hlo
  constructor
  · exact fun h i hi hop heq => h i hi hop ((hone i hi).mpr heq)
  · exact fun h i hi hop heq => h i hi hop ((hone i hi).mp heq)

theorem exec_error {inst : Instr} {n : NamedState} {e : Fault} (h : inst.exec insts n = .error e) :
    e = .divByZero := by
  cases inst with
  | fixIpv4Cs i => cases h
  | flowClient i => cases h
  | pktWr i =>
    simp only [Instr.exec] at h
    split at h <;> cases h
  | flowMan i =>
    simp only [Instr.exec] at h
    split at h
    · cases h
    · cases h
    · split at h
      · cases h
        rfl
      · cases h

/-- Nothing but the division by zero stops a list. -/
theorem execFrom_error {e : Fault} : ∀ {rest : List Instr} {n : NamedState},
    execFrom insts rest n = .error e → e = .divByZero
  | [], n, h => by cases h
  | inst :: rest, n, h => by
    simp only [execFrom] at h
    cases hx : inst.exec insts n with
    | error e' =>
      rw [hx] at h
      cases h
      exact exec_error hx
    | ok n' =>
      rw [hx] at h
      exact execFrom_error h

/-- The simulation for a compiled VM. -/
theorem sim_compile {rand : Nat} {pktLen : UInt16} {c : CompiledVm}
    (hc : compile rand insts pktLen = .ok (some c)) {s : DpState} {n : NamedState}
    (hsim : Sim c.table s n) :
    ExceptRel (Sim c.table) (runnerRun c.program s) (execAll insts n) := by
  obtain ⟨ops, hp⟩ := passed_of_compile hc
  rw [hp.program, runnerRun_bytes (fits_buildCommands hp.commands)]
  exact sim_list hp.table (fun i hi => hi) hp.commands hsim

/-- The content that `build_bss` produced represents the initial values. -/
theorem rep_bss {rand : Nat} {pktLen : UInt16} {c : CompiledVm}
    (hc : compile rand insts pktLen = .ok (some c)) {m : Mem} (hm : m.read 0 c.bss.length = c.bss) :
    Rep c.table m (initVars rand insts) := by
  obtain ⟨ops, hp⟩ := passed_of_compile hc
  obtain ⟨hlays, -, hrand⟩ := lays_buildFlowVarTable rand hp.table
  have hbss := buildBss_eq hrand hp.bss
  refine hlays.rep_init ?_
  rw [← length_initBytes, ← hbss]
  exact hm

/-- **The byte program performs the instruction list.**  From the content of the BSS, and from
whatever the variables hold later, the runner decodes every command and changes the packet and
the variables as the list does; both reach the end exactly when no random instruction has a
range whose size is a multiple of `2 ^ 32`.  Otherwise the runner stops in that instruction with
a division by zero, and that is the only way in which it stops. -/
theorem runner_performs_list (rand : Nat) (insts : List Instr) (pktLen : UInt16) (c : CompiledVm)
    (hc : compile rand insts pktLen = .ok (some c)) :
    (∀ m : Mem, m.read 0 c.bss.length = c.bss → Rep c.table m (initVars rand insts))
      ∧ ∀ (m : Mem) (env : Env) (pkt : Mem), Rep c.table m env →
        (∀ e, runnerRun c.program ⟨m, pkt⟩ = .error e → e = .divByZero)
        ∧ ((∃ s n, runnerRun c.program ⟨m, pkt⟩ = .ok s ∧ execAll insts ⟨env, pkt⟩ = .ok n
              ∧ s.pkt = n.pkt ∧ Rep c.table s.flowVar n.vars)
            ↔ NoWholeRange insts) := by
  refine ⟨fun m hm => rep_bss hc hm, fun m env pkt hrep => ?_⟩
  obtain ⟨ops, hp⟩ := passed_of_compile hc
  have hsim : ExceptRel (Sim c.table) (runnerRun c.program ⟨m, pkt⟩) (execAll insts ⟨env, pkt⟩) :=
    sim_compile hc ⟨hrep, rfl⟩
  constructor
  · intro e he
    rw [he] at hsim
    cases hx : execAll insts ⟨env, pkt⟩ with
    | ok n =>
      rw [hx] at hsim
      exact absurd hsim id
    | error e' =>
      rw [hx] at hsim
      exact hsim.trans (execFrom_error hx)
  · rw [← spansNonzero_iff hp.table, ← execFrom_ok_iff insts insts ⟨env, pkt⟩]
    constructor
    · rintro ⟨s, n, -, hn, -⟩
      exact ⟨n, hn⟩
    · rintro ⟨n, hn⟩
      obtain ⟨s, hs, hsim'⟩ := hsim.ok_right hn
      exact ⟨s, n, hs, hn, hsim'.pkt, hsim'.vars⟩

/-- A counter of two bytes that is written to the packet in network order. -/
def portCounter : List Instr :=
  [.flowMan ⟨"src_port", 2, .INC, 1025, 1025, 65000⟩, .pktWr ⟨"src_port", 34, -1, true⟩]

theorem noWholeRange_portCounter : NoWholeRange portCounter := by
  rintro i hi hop
  simp only [portCounter, mem_cons, Instr.flowMan.injEq, reduceCtorEq, not_mem_nil,
    or_false] at hi
  subst hi
  cases hop

theorem runner_performs_list_portCounter : ∃ c, compile 1 portCounter 64 = .ok (some c)
    ∧ NoWholeRange portCounter
    ∧ ∃ s n, runnerRun c.program ⟨fun a => c.bss.getD a 0, fun _ => 0⟩ = .ok s
      ∧ execAll portCounter ⟨initVars 1 portCounter, fun _ => 0⟩ = .ok n ∧ s.pkt = n.pkt
      ∧ Rep c.table s.flowVar n.vars := by
  refine ⟨_, rfl, noWholeRange_portCounter, ?_⟩
  have h := runner_performs_list 1 portCounter 64 _ rfl
  exact ((h.2 _ _ _ (h.1 _ (Mem.read_getD _))).2).mpr noWholeRange_portCounter

/-- A random variable over all numbers of 32 bits. -/
def wholeRange : List Instr := [.flowMan ⟨"ip", 4, .RANDOM, 0, 0, 0xFFFFFFFF⟩]

/-- **A random variable over all 32-bit numbers is accepted, and its program never runs to the
end.** -/
theorem wholeRange_divides_by_zero : ∃ c, compile 1 wholeRange 64 = .ok (some c)
    ∧ ∀ s, runnerRun c.program s = .error .divByZero := by
  refine ⟨_, rfl, fun s => ?_⟩
  have hfit : ∀ o ∈ [DpOp.flowVar .RANDOM .w32 4 0 0xFFFFFFFF], o.Fits := by decide
  have hzero : randSpan .w32 0 0xFFFFFFFF = 0 := by decide
  refine (runnerRun_bytes hfit s).trans ?_
  simp [runOps, DpOp.run, DpOp.runRand, hzero, Except.map, bind, Except.bind]

end Trex.Vm
