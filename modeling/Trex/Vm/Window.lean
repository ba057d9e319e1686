/-
# Which bytes of the BSS are whose

Three passes over the list use the same offsets without telling each other: `build_flow_var_table`
assigns them, `build_bss` writes the initial values through a pointer of its own, and
`build_program` puts them into the commands.  `LaidOut` says that they agree.

* The windows are disjoint and fill the BSS, since the table is a layout (`Vm.Layout`).
* The bytes of a declaration stand in its window (`Lays.window`).
* A command touches the windows of the names in its instruction and no other byte: it leaves the
  others alone, and what it does depends on none of them (`DpOp.Within`).

A random command does touch another window: the runner passes it the seed, which is in front of the
variables.
-/
import Trex.Vm.Refine

namespace Trex.Vm

open Trex.Lib Trex.Net List

/-! ## 1. The bytes that a command touches -/

/-- **A command stays within some bytes of the flow variables**: it leaves the others alone, and its
effect does not depend on them. -/
structure DpOp.Within (W : Nat → Prop) (o : DpOp) : Prop where
  writes : ∀ {s s'}, o.run s = .ok s' → ∀ x, ¬ W x → s'.flowVar x = s.flowVar x
  reads : ∀ {s1 s2}, s1.pkt = s2.pkt → (∀ x, W x → s1.flowVar x = s2.flowVar x) →
    ExceptRel (fun s1' s2' => s1'.pkt = s2'.pkt ∧ ∀ x, W x →
      s1'.flowVar x = s2'.flowVar x) (o.run s1) (o.run s2)

/-- The bytes from `off` on that belong to `W`. -/
def Covers (W : Nat → Prop) (off size : Nat) : Prop := ∀ x, off ≤ x → x < off + size → W x

section Within

variable {W : Nat → Prop} {m m1 m2 : Mem} {off size : Nat}

theorem Covers.load_congr (h : Covers W off size) (hm : ∀ x, W x → m1 x = m2 x) :
    m1.load off size = m2.load off size :=
  Mem.load_congr fun x h1 h2 => hm x (h x h1 h2)

theorem Covers.store_frame (h : Covers W off size) (v : Nat) {x : Nat} (hx : ¬ W x) :
    m.store off size v x = m x := by
  refine m.store_outside v ?_
  by_contra hin
  push Not at hin
  exact hx (h x hin.1 hin.2)

theorem Covers.store_congr (v : Nat) (hm : ∀ x, W x → m1 x = m2 x) :
    ∀ x, W x → m1.store off size v x = m2.store off size v x :=
  fun x hx => Mem.store_congr fun _ => hm x hx

variable {w : Width}

/-- A step upwards or downwards. -/
theorem within_counter {k : FlowVarOp} {lo hi : Nat} (hk : k ≠ .RANDOM)
    (hW : Covers W off w.bytes) :
    (DpOp.flowVar k w off lo hi).Within W := by
  cases k with
  | RANDOM => exact absurd rfl hk
  | INC =>
    refine ⟨fun h x hx => ?_, fun hpkt hm => ⟨hpkt, ?_⟩⟩
    · cases h
      dsimp only [DpOp.runInc]
      split
      · exact hW.store_frame _ hx
      · exact hW.store_frame _ hx
    · dsimp only [DpOp.runInc]
      rw [hW.load_congr hm]
      split
      · exact Covers.store_congr _ hm
      · exact Covers.store_congr _ hm
  | DEC =>
    refine ⟨fun h x hx => ?_, fun hpkt hm => ⟨hpkt, ?_⟩⟩
    · cases h
      dsimp only [DpOp.runDec]
      split
      · exact hW.store_frame _ hx
      · exact hW.store_frame _ hx
    · dsimp only [DpOp.runDec]
      rw [hW.load_congr hm]
      split
      · exact Covers.store_congr _ hm
      · exact Covers.store_congr _ hm

/-- A draw also touches the seed. -/
theorem within_random {lo hi : Nat} (hseed : Covers W 0 4) (hW : Covers W off w.bytes) :
    (DpOp.flowVar .RANDOM w off lo hi).Within W := by
  have hrun : ∀ s, (DpOp.flowVar .RANDOM w off lo hi).run s = if randSpan w lo hi = 0
      then .error .divByZero else
      .ok ⟨(s.flowVar.store 0 4 (vmRand w (s.flowVar.load 0 4)).2).store off w.bytes
        (lo + (vmRand w (s.flowVar.load 0 4)).1 % randSpan w lo hi), s.pkt⟩ := by
    intro s
    simp only [DpOp.run, DpOp.runRand]
    split <;> rfl
  refine ⟨fun h x hx => ?_, fun hpkt hm => ?_⟩
  · rw [hrun] at h
    split at h
    · cases h
    · cases h
      exact (hW.store_frame _ hx).trans (hseed.store_frame _ hx)
  · rw [hrun, hrun, hseed.load_congr hm]
    split
    · exact rfl
    · exact ⟨hpkt, Covers.store_congr _ (Covers.store_congr _ hm)⟩

/-- A packet write reads its variable. -/
theorem within_pktWr {flags pktOffset valOffset : Nat} (hW : Covers W off w.bytes) :
    (DpOp.pktWr w flags off pktOffset valOffset).Within W := by
  refine ⟨fun h x _ => ?_, fun {s1 s2} hpkt hm => ⟨?_, hm⟩⟩
  · cases h
    rfl
  · have hv := hW.load_congr hm
    cases w <;> simp only [DpOp.wr, hv, hpkt]

/-- A checksum touches no variable. -/
theorem within_ipv4Fix {offset : Nat} : (DpOp.ipv4Fix offset).Within W := by
  refine ⟨fun h x _ => ?_, fun hpkt hm => ⟨?_, hm⟩⟩
  · cases h
    rfl
  · exact congrArg (fun pkt => updateCheckSum pkt offset) hpkt

/-- A client command changes the three fields of its variable. -/
theorem within_client {o : DpOp} {f : FlowClientVar → FlowClientVar}
    (hrun : ∀ s, o.run s = .ok { s with
        flowVar := storeClient s.flowVar off (f (loadClient s.flowVar off)) })
    (hip : Covers W off 4) (hport : Covers W (off + 4) 2) (hlim : Covers W (off + 6) 4) :
    o.Within W := by
  refine ⟨fun h x hx => ?_, fun {s1 s2} hpkt hm => ?_⟩
  · rw [hrun] at h
    cases h
    exact (hlim.store_frame _ hx).trans ((hport.store_frame _ hx).trans (hip.store_frame _ hx))
  · have hload : loadClient s1.flowVar off = loadClient s2.flowVar off := by
      rw [loadClient, loadClient, hip.load_congr hm, hport.load_congr hm, hlim.load_congr hm]
    rw [hrun, hrun, hload]
    exact ⟨hpkt, Covers.store_congr _ (Covers.store_congr _ (Covers.store_congr _ hm))⟩

end Within

/-! ## 2. The windows of an instruction -/

/-- The names in an instruction; a client instruction stands for its three fields. -/
def Instr.names : Instr → List String
  | .flowMan i => [i.varName]
  | .flowClient i => [i.varName ++ ".ip", i.varName ++ ".port", i.varName ++ ".flow_limit"]
  | .pktWr i => [i.flowVarName]
  | .fixIpv4Cs _ => []

/-- The names in an instruction, and the seed if it is random. -/
def Instr.touched (inst : Instr) : List String :=
  inst.names ++ if isRandomInstr inst then [randomVarName] else []

/-- The bytes of the variables with some names. -/
def InWindows (t : VarTable) (names : List String) (x : Nat) : Prop :=
  ∃ name ∈ names, ∃ r, t.varLookup name = some r ∧ r.offset ≤ x ∧ x < r.offset + r.sizeBytes

variable {t : VarTable} {insts : List Instr}

theorem covers_of_lookup {names : List String} {name : String} {r : VmFlowVarRec}
    (hname : name ∈ names) (hr : t.varLookup name = some r) :
    Covers (InWindows t names) r.offset r.sizeBytes :=
  fun _ h1 h2 => ⟨name, hname, r, hr, h1, h2⟩

/-- **The commands of an instruction stay within its windows.** -/
theorem within_buildCommand (ht : buildFlowVarTable insts = .ok t) {inst : Instr}
    (hi : inst ∈ insts) {pktSize insId cnt : Nat} {ops : List DpOp}
    (hb : buildCommand t pktSize insId inst = .ok (cnt, ops)) :
    ∀ o ∈ ops, o.Within (InWindows t inst.touched) := by
  obtain ⟨hlays, hcur, -⟩ := lays_buildFlowVarTable 0 ht
  intro o ho
  cases inst with
  | fixIpv4Cs i =>
    simp only [buildCommand] at hb
    split at hb
    · cases hb
    · cases hb
      rw [mem_singleton.mp ho]
      exact within_ipv4Fix
  | flowMan i =>
    obtain ⟨off, w, hr, hoff, hw⟩ := lookup_flowMan ht hi
    rw [buildCommand_flowMan hr hoff hw hb] at ho
    rw [mem_singleton.mp ho]
    have hname : i.varName ∈ (Instr.flowMan i).touched := mem_append_left _ (mem_singleton.mpr rfl)
    have hown := covers_of_lookup hname hr
    rw [← ofSize_bytes hw] at hown
    by_cases hop : i.op = .RANDOM
    · have hseed : randomVarName ∈ (Instr.flowMan i).touched := by
        simp [Instr.touched, isRandomInstr, hop]
      rw [hop]
      exact within_random (covers_of_lookup hseed (lookup_seed ht hi hop)) hown
    · exact within_counter hop hown
  | pktWr i =>
    simp only [buildCommand] at hb
    split at hb
    · cases hb
    rename_i var hvar
    split at hb
    · cases hb
    obtain ⟨w, hw⟩ := hlays.width hvar
    have hle := hlays.window_le hvar
    have hoff : var.offset % 2 ^ 8 = var.offset := by
      simp only [svMaxFlowVar] at hcur
      omega
    simp only [hw, hoff] at hb
    cases hb
    rw [mem_singleton.mp ho]
    have hname : i.flowVarName ∈ (Instr.pktWr i).touched :=
      mem_append_left _ (mem_singleton.mpr rfl)
    have hown := covers_of_lookup hname hvar
    rw [← ofSize_bytes hw] at hown
    exact within_pktWr hown
  | flowClient i =>
    obtain ⟨off, hip, hport, hlim, hoff⟩ := lookup_flowClient ht hi
    simp only [buildCommand, VarTable.getVarOffset, hip, bind, Except.bind, hoff] at hb
    have hname : ∀ name ∈ (Instr.flowClient i).names, name ∈ (Instr.flowClient i).touched :=
      fun name hmem => mem_append_left _ hmem
    have hip' := covers_of_lookup (hname _ (by simp [Instr.names])) hip
    have hport' := covers_of_lookup (hname _ (by simp [Instr.names])) hport
    have hlim' := covers_of_lookup (hname _ (by simp [Instr.names])) hlim
    split at hb
    · cases hb
      rw [mem_singleton.mp ho]
      exact within_client (fun s => rfl) hip' hport' hlim'
    · cases hb
      rw [mem_singleton.mp ho]
      exact within_client (fun s => rfl) hip' hport' hlim'

/-- The commands of a list, instruction by instruction. -/
theorem buildCommands_forall {pktSize : Nat} {P : Instr → DpOp → Prop} :
    ∀ {insts : List Instr}
    {insId cnt : Nat} {ops : List DpOp}, buildCommands t pktSize insId insts = .ok (cnt, ops) →
      (∀ inst ∈ insts, ∀ k cnt ops, buildCommand t pktSize k inst = .ok (cnt, ops) →
        ∀ o ∈ ops, P inst o) →
        ∃ opss, List.Forall₂ (fun inst ops => ∀ o ∈ ops, P inst o) insts opss ∧ ops = opss.flatten
  | [], insId, cnt, ops, hb, _ => by
    cases hb
    exact ⟨[], .nil, rfl⟩
  | inst :: insts, insId, cnt, ops, hb, h => by
    obtain ⟨⟨c1, ops1⟩, hb1, hb⟩ := bind_eq_ok hb
    obtain ⟨⟨c2, ops2⟩, hb2, hb⟩ := bind_eq_ok hb
    cases hb
    obtain ⟨opss, hops, rfl⟩ :=
      buildCommands_forall hb2 fun inst hi => h inst (mem_cons_of_mem _ hi)
    exact ⟨ops1 :: opss, .cons (h inst (mem_cons_self ..) _ _ _ hb1) hops, rfl⟩

/-! ## 3. The layout -/

/-- **The passes agree on the BSS.**  `accessed` are the names whose windows the commands of an
instruction may touch; `alloc_bss` takes `m_cur_var_offset` bytes. -/
structure LaidOut (rand : Nat) (insts : List Instr) (c : CompiledVm)
    (accessed : Instr → List String) : Prop where
  names : ((declared rand insts).map VarDecl.name).Nodup
  disjoint : ∀ name name' r r', name ≠ name' → c.table.varLookup name = some r →
    c.table.varLookup name' = some r' →
    r.offset + r.sizeBytes ≤ r'.offset ∨ r'.offset + r'.sizeBytes ≤ r.offset
  inside : ∀ name r, c.table.varLookup name = some r → r.offset + r.sizeBytes ≤ c.table.curVarOffset
  filled : c.bss.length = c.table.curVarOffset
  initial : ∀ d ∈ declared rand insts, ∃ r, c.table.varLookup d.name = some r ∧
    r.sizeBytes = d.size ∧ (c.bss.drop r.offset).take r.sizeBytes = toBytes d.size d.init
  commands : ∃ opss, c.program = opss.flatten.flatMap DpOp.bytes ∧
    List.Forall₂ (fun inst ops => ∀ o ∈ ops, o.Fits ∧
      o.Within (InWindows c.table (accessed inst))) insts opss

/-- The bytes of a declaration stand behind those before it. -/
theorem initBytes_window (pre post : List VarDecl) (d : VarDecl) :
    ((initBytes (pre ++ d :: post)).drop (totalSize pre)).take d.size = toBytes d.size d.init := by
  have hsplit : initBytes (pre ++ d :: post) = initBytes pre ++
      (toBytes d.size d.init ++ initBytes post) := by
    simp [initBytes]
  rw [hsplit, drop_left' (length_initBytes pre), take_left' (length_toBytes _ _)]

/-- **A declared variable has a window of its size, and its initial value is there.** -/
theorem Lays.window {ds : List VarDecl} (h : Lays t ds) {d : VarDecl} (hd : d ∈ ds) :
    ∃ r, t.varLookup d.name = some r ∧ r.sizeBytes = d.size ∧
      ((initBytes ds).drop r.offset).take r.sizeBytes = toBytes d.size d.init := by
  obtain ⟨pre, post, rfl⟩ := append_of_mem hd
  have hds : pre ++ d :: post = pre ++ [d] ++ post := by simp
  have hr : t.varLookup d.name = some ⟨totalSize pre, d.size⟩ :=
    h.lookup_part hds (mem_singleton.mpr rfl)
  exact ⟨_, hr, rfl, initBytes_window pre post d⟩

/-- A byte that no command touches keeps its value. -/
theorem runOps_untouched {x : Nat} :
    ∀ {ops : List DpOp} {s s' : DpState}, (∀ o ∈ ops, ∃ W, o.Within W ∧ ¬ W x) →
    runOps ops s = .ok s' → s'.flowVar x = s.flowVar x
  | [], s, s', _, h => by
    cases h
    rfl
  | o :: ops, s, s', hout, h => by
    obtain ⟨s1, h₁, h⟩ := bind_eq_ok h
    obtain ⟨W, hin, hx⟩ := hout o (mem_cons_self ..)
    rw [runOps_untouched (fun o' ho' => hout o' (mem_cons_of_mem _ ho')) h]
    exact hin.writes h₁ x hx

/-- **A run of the program changes the windows of its instructions only.** -/
theorem LaidOut.run_untouched {rand : Nat} {c : CompiledVm} {accessed : Instr → List String}
    (h : LaidOut rand insts c accessed) {s s' : DpState} (hrun : runnerRun c.program s = .ok s')
    {x : Nat} (hx : ∀ inst ∈ insts, ¬ InWindows c.table (accessed inst) x) :
    s'.flowVar x = s.flowVar x := by
  obtain ⟨opss, hprogram, hall⟩ := h.commands
  have hops : ∀ o ∈ opss.flatten, o.Fits ∧ ∃ W, o.Within W ∧ ¬ W x := by
    intro o ho
    obtain ⟨ops, hops, ho⟩ := mem_flatten.mp ho
    obtain ⟨k, hk⟩ := List.getElem?_of_mem hops
    obtain ⟨hlt, rfl⟩ := List.getElem?_eq_some_iff.mp hk
    have hlt' : k < insts.length := hall.length_eq ▸ hlt
    obtain ⟨hfits, hin⟩ := hall.get hlt' hlt o ho
    exact ⟨hfits, _, hin, hx _ (getElem_mem hlt')⟩
  rw [hprogram, runnerRun_bytes fun o ho => (hops o ho).1] at hrun
  exact runOps_untouched (fun o ho => (hops o ho).2) hrun

/-- **What `compile` accepts is laid out**: the windows of the variables, of the fields of the
client variables and of the seed are disjoint and fill the BSS, each holds its initial value, and
every command touches the windows of the names in its instruction and, if it is random, the seed. -/
theorem compile_laidOut (rand : Nat) (insts : List Instr) (pktLen : UInt16) (c : CompiledVm)
    (hc : compile rand insts pktLen = .ok (some c)) : LaidOut rand insts c Instr.touched := by
  obtain ⟨ops, hp⟩ := passed_of_compile hc
  obtain ⟨hlays, -, hrand⟩ := lays_buildFlowVarTable rand hp.table
  have hbss := buildBss_eq hrand hp.bss
  refine ⟨hlays.nodup, ?_, fun name r hr => hlays.window_le hr, ?_, ?_, ?_⟩
  · intro name name' r r' hne hr hr'
    rcases layout_disjoint ((hlays.lookup_iff _ _).mp hr)
      ((hlays.lookup_iff _ _).mp hr') with heq | hd
    · exact absurd (congrArg Prod.fst heq) hne
    · exact hd
  · rw [hbss, length_initBytes, hlays.cur]
  · intro d hd
    rw [hbss]
    exact hlays.window hd
  · have hone : ∀ inst ∈ insts, ∀ k cnt ops, buildCommand c.table pktLen.toNat k inst =
        .ok (cnt, ops) →
        ∀ o ∈ ops, o.Fits ∧ o.Within (InWindows c.table inst.touched) :=
            fun inst hi k cnt ops hb o ho =>
      ⟨fits_buildCommand hb o ho, within_buildCommand hp.table hi hb o ho⟩
    obtain ⟨opss, hall, rfl⟩ := buildCommands_forall hp.commands hone
    exact ⟨opss, hp.program, hall⟩

/-- A random number of one byte and a client variable. -/
def randomAndClient : List Instr :=
  [.flowMan ⟨"x", 1, .RANDOM, 0, 0, 9⟩,
    .flowClient ⟨"cl", 0x10000001, 0x10000006, 1025, 1027, 4, 0⟩]

theorem compile_laidOut_randomAndClient :
    ∃ c, compile 7 randomAndClient 64 = .ok (some c) ∧ LaidOut 7 randomAndClient c Instr.touched :=
  ⟨_, rfl, compile_laidOut 7 randomAndClient 64 _ rfl⟩

/-- **A random command does not stay within the window of its variable**: it changes the seed. -/
theorem random_touches_seed : ∃ c, compile 7 randomAndClient 64 = .ok (some c) ∧
    ¬ LaidOut 7 randomAndClient c Instr.names := by
  obtain ⟨c, hc⟩ : ∃ c, compile 7 randomAndClient 64 = .ok (some c) := ⟨_, rfl⟩
  refine ⟨c, hc, fun h => ?_⟩
  obtain ⟨ops, hp⟩ := passed_of_compile hc
  have hseed : c.table.varLookup randomVarName = some ⟨0, 4⟩ :=
    lookup_seed hp.table (mem_cons_self ..) rfl
  have hrep := rep_bss hc (Mem.read_getD _)
  have hsim := sim_compile hc (s := ⟨fun a => c.bss.getD a 0, fun _ => 0⟩)
    (n := ⟨initVars 7 randomAndClient, fun _ => 0⟩) ⟨hrep, rfl⟩
  obtain ⟨n, hn, hdraw⟩ : ∃ n, execAll randomAndClient ⟨initVars 7 randomAndClient, fun _ => 0⟩ =
      .ok n ∧ n.vars randomVarName = 4029102 := ⟨_, rfl, by decide +kernel⟩
  obtain ⟨s', hs', hsim'⟩ := hsim.ok_right hn
  -- the seed is in no window of a name in the list
  have hout : ∀ x, x < 4 → ∀ inst ∈ randomAndClient, ¬ InWindows c.table inst.names x := by
    rintro x hx inst hinst ⟨name, hname, r, hr, h1, h2⟩
    have hne : randomVarName ≠ name := by
      rintro rfl
      revert inst
      decide
    have hdis := h.disjoint _ _ _ _ hne hseed hr
    dsimp only at hdis
    omega
  have hload : s'.flowVar.load 0 4 = Mem.load (fun a => c.bss.getD a 0) 0 4 :=
    Mem.load_congr fun x _ hx => h.run_untouched hs' (hout x (by omega))
  have hbefore : Mem.load (fun a => c.bss.getD a 0) 0 4 = 7 :=
    (hrep _ _ hseed).trans (by decide +kernel)
  rw [hsim'.vars _ _ hseed, hdraw, hbefore] at hload
  exact absurd hload (by decide)

end Trex.Vm
