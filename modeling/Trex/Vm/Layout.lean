/-
# Where the variables lie

`build_flow_var_table` bumps an offset from variable to variable, in the order in which the list
declares them.  So the table is `layout 0 (declared rand insts)`: the names are distinct, the
windows follow each other without a gap, and all of them lie in the first `svMAX_FLOW_VAR` bytes.

`Lays t ds` says that of a table under construction, and every pass over the list is a pass over
`ds`: adding a variable keeps it (`Lays.varAdd`), so adding the variables of one instruction does
(`lays_addVars`), so the whole loop does (`lays_addAllVars`).

`Rep t m env` connects the two levels: the window of every variable in the table holds the
variable's value.  A store to the window of one variable is a change of that variable alone
(`Lays.rep_store`).
-/
import Mathlib.Data.List.Nodup
import Trex.Vm.Named

namespace Trex.Vm

open Trex.Lib Trex.Net List

/-! ## 1. Consecutive windows -/

/-- The variables one behind the other, from an offset on. -/
def layout : Nat → List VarDecl → List (String × VmFlowVarRec)
  | _, [] => []
  | off, d :: ds => (d.name, ⟨off, d.size⟩) :: layout (off + d.size) ds

/-- The bytes that the variables take together. -/
def totalSize (ds : List VarDecl) : Nat := (ds.map VarDecl.size).sum

theorem totalSize_append (ds ds' : List VarDecl) :
    totalSize (ds ++ ds') = totalSize ds + totalSize ds' := by
  simp [totalSize]

theorem layout_append : ∀ (ds ds' : List VarDecl) (off : Nat),
    layout off (ds ++ ds') = layout off ds ++ layout (off + totalSize ds) ds'
  | [], ds', off => rfl
  | d :: ds, ds', off => by
    have hsum : off + totalSize (d :: ds) = off + d.size + totalSize ds := by
      simp [totalSize, Nat.add_assoc]
    rw [hsum, cons_append, layout, layout, layout_append ds ds', cons_append]

theorem layout_names : ∀ (off : Nat) (ds : List VarDecl),
    (layout off ds).map Prod.fst = ds.map VarDecl.name
  | _, [] => rfl
  | off, d :: ds => by
    rw [layout, map_cons, map_cons, layout_names]

/-- Every window lies inside the whole. -/
theorem layout_inside : ∀ (off : Nat) (ds : List VarDecl), ∀ e ∈ layout off ds,
    off ≤ e.2.offset ∧ e.2.offset + e.2.sizeBytes ≤ off + totalSize ds
  | _, [], e, he => absurd he (by simp [layout])
  | off, d :: ds, e, he => by
    have hsum : totalSize (d :: ds) = d.size + totalSize ds := rfl
    rcases mem_cons.mp he with rfl | he
    · exact ⟨le_refl _, by simp only [hsum]; omega⟩
    · obtain ⟨h1, h2⟩ := layout_inside (off + d.size) ds e he
      exact ⟨by omega, by omega⟩

/-- A window ends before the next one begins. -/
theorem layout_pairwise : ∀ (off : Nat) (ds : List VarDecl),
    (layout off ds).Pairwise fun e e' => e.2.offset + e.2.sizeBytes ≤ e'.2.offset
  | _, [] => List.Pairwise.nil
  | off, d :: ds => by
    refine List.Pairwise.cons (fun e he => ?_) (layout_pairwise (off + d.size) ds)
    exact (layout_inside _ ds e he).1

variable {ds : List VarDecl} {t : VarTable} {inst : Instr} {insts : List Instr} {rand : Nat}

/-- **Two windows are the same one or disjoint.** -/
theorem layout_disjoint {off : Nat} {e e' : String × VmFlowVarRec} (he : e ∈ layout off ds)
    (he' : e' ∈ layout off ds) :
    e = e' ∨ e.2.offset + e.2.sizeBytes ≤ e'.2.offset
      ∨ e'.2.offset + e'.2.sizeBytes ≤ e.2.offset := by
  have hsep := layout_pairwise off ds
  refine Pairwise.forall_of_forall_of_flip
    (R := fun e e' => e = e' ∨ e.2.offset + e.2.sizeBytes ≤ e'.2.offset
      ∨ e'.2.offset + e'.2.sizeBytes ≤ e.2.offset) (fun _ _ => Or.inl rfl) ?_ ?_ he he'
  · exact hsep.imp fun h => Or.inr (Or.inl h)
  · exact hsep.imp fun h => Or.inr (Or.inr h)

theorem layout_sizes {off : Nat} {e : String × VmFlowVarRec} (he : e ∈ layout off ds) :
    ∃ d ∈ ds, d.name = e.1 ∧ d.size = e.2.sizeBytes := by
  induction ds generalizing off with
  | nil => exact absurd he (by simp [layout])
  | cons d ds ih =>
    rcases mem_cons.mp he with rfl | he
    · exact ⟨d, by simp, rfl, rfl⟩
    · obtain ⟨d', hd', h⟩ := ih he
      exact ⟨d', by simp [hd'], h⟩

/-! ## 2. The table is the layout -/

/-- The sizes that have an op-code. -/
def SizeOk (n : Nat) : Prop := ∃ w, Width.ofSize n = some w

theorem ofSize_bytes {n : Nat} {w : Width} (h : Width.ofSize n = some w) : w.bytes = n := by
  unfold Width.ofSize at h
  split at h <;> first | cases h; rfl | exact absurd h (by simp)

/-- The table holds the variables `ds`, one behind the other. -/
structure Lays (t : VarTable) (ds : List VarDecl) : Prop where
  table : t.flowVarOffset = (layout 0 ds).reverse
  cur : t.curVarOffset = totalSize ds
  nodup : (ds.map VarDecl.name).Nodup
  sizes : ∀ d ∈ ds, SizeOk d.size

/-- A list of pairs with distinct keys is looked up by membership. -/
theorem lookup_eq_some_iff_mem {β : Type} : ∀ {l : List (String × β)} {k : String} {v : β},
    (l.map Prod.fst).Nodup → (l.lookup k = some v ↔ (k, v) ∈ l)
  | [], k, v, _ => by simp
  | (k', v') :: l, k, v, hnd => by
    rw [map_cons, nodup_cons] at hnd
    by_cases hk : k = k'
    · subst hk
      have hout : (k, v) ∉ l := fun hmem => hnd.1 (mem_map.mpr ⟨_, hmem, rfl⟩)
      simp [hout, eq_comm]
    · have hbeq : (k == k') = false := by simpa using hk
      have hpair : ¬ (k, v) = (k', v') := fun h => hk (congrArg Prod.fst h)
      rw [lookup_cons, hbeq, lookup_eq_some_iff_mem hnd.2]
      simp [hk]

namespace Lays

variable {t : VarTable} {ds : List VarDecl}

/-- **Looking a variable up finds its window in the layout.** -/
theorem lookup_iff (h : Lays t ds) (name : String) (r : VmFlowVarRec) :
    t.varLookup name = some r ↔ (name, r) ∈ layout 0 ds := by
  have hnd : (t.flowVarOffset.map Prod.fst).Nodup := by
    rw [h.table, map_reverse, layout_names, nodup_reverse]
    exact h.nodup
  rw [VarTable.varLookup, lookup_eq_some_iff_mem hnd, h.table, mem_reverse]

theorem lookup_none_iff (h : Lays t ds) (name : String) :
    t.varLookup name = none ↔ name ∉ ds.map VarDecl.name := by
  rw [← layout_names 0 ds, Option.eq_none_iff_forall_ne_some]
  constructor
  · rintro hno hmem
    obtain ⟨⟨n, r⟩, he, rfl⟩ := mem_map.mp hmem
    exact hno r ((h.lookup_iff n r).mpr he)
  · rintro hno r hr
    exact hno (mem_map_of_mem (f := Prod.fst) ((h.lookup_iff name r).mp hr))

/-- A new variable goes behind the ones that are there. -/
theorem varAdd (h : Lays t ds) (d : VarDecl) (hsize : SizeOk d.size)
    (hnew : t.varLookup d.name = none) : Lays (t.varAdd d.name d.size) (ds ++ [d]) where
  table := by
    rw [layout_append, reverse_append, VarTable.varAdd, h.table, h.cur]
    simp [layout]
  cur := by
    rw [totalSize_append, VarTable.varAdd, h.cur]
    simp [totalSize]
  nodup := by
    rw [map_append, map_singleton]
    refine List.Nodup.append h.nodup (by simp) ?_
    rw [disjoint_singleton]
    exact (h.lookup_none_iff d.name).mp hnew
  sizes := by
    intro x hx
    rcases mem_append.mp hx with hx | hx
    · exact h.sizes x hx
    · rw [mem_singleton.mp hx]
      exact hsize

/-- A name that is still free after another one was added. -/
theorem lookup_varAdd_ne {name n : String} (size : Nat) (hne : n ≠ name)
    (hnone : t.varLookup n = none) : (t.varAdd name size).varLookup n = none := by
  have hbeq : (n == name) = false := by simpa using hne
  rw [VarTable.varLookup, VarTable.varAdd, lookup_cons, hbeq]
  exact hnone

end Lays

/-- The three names of a client variable are distinct. -/
theorem client_names_ne (s : String) :
    s ++ ".port" ≠ s ++ ".ip" ∧ s ++ ".flow_limit" ≠ s ++ ".ip" ∧
        s ++ ".flow_limit" ≠ s ++ ".port" := by
  refine ⟨?_, ?_, ?_⟩ <;>
    · intro h
      have hd := congrArg String.toList h
      simp at hd

theorem not_isSome {β : Type} {x : Option β} (h : ¬ x.isSome = true) : x = none := by
  simpa using h

/-- **Adding the variables of one instruction.** -/
theorem lays_addVars {insId : Nat} {t' : VarTable} (h : Lays t ds)
    (ht : addVars insId t inst = .ok t') : Lays t' (ds ++ declares inst) := by
  cases inst with
  | fixIpv4Cs i =>
    cases ht
    simpa [declares] using h
  | pktWr i =>
    cases ht
    simpa [declares] using h
  | flowMan i =>
    obtain ⟨⟨⟩, hs, ht⟩ := bind_eq_ok ht
    split at ht
    · cases ht
    · rename_i hnew
      cases ht
      refine h.varAdd ⟨i.varName, i.sizeBytes.toNat, i.getBssInitValue.toNat⟩ ?_ (not_isSome hnew)
      unfold FlowMan.sanityCheck at hs
      split at hs
      · rename_i hsz
        rcases hsz with hsz | hsz | hsz | hsz <;> exact ⟨_, by simp only [hsz]; rfl⟩
      · cases hs
  | flowClient i =>
    obtain ⟨hne1, hne2, hne3⟩ := client_names_ne i.varName
    simp only [addVars] at ht
    split at ht
    · cases ht
    rename_i hip
    split at ht
    · cases ht
    rename_i hport
    split at ht
    · cases ht
    rename_i hlim
    cases ht
    have h1 := h.varAdd ⟨i.varName ++ ".ip", 4, i.bssIp⟩ ⟨.w32, rfl⟩ (not_isSome hip)
    have h2 := h1.varAdd ⟨i.varName ++ ".port", 2, i.bssPort⟩ ⟨.w16, rfl⟩
      (Lays.lookup_varAdd_ne _ hne1 (not_isSome hport))
    have h3 := h2.varAdd ⟨i.varName ++ ".flow_limit", 4, 0⟩ ⟨.w32, rfl⟩
      (Lays.lookup_varAdd_ne _ hne3 (Lays.lookup_varAdd_ne _ hne2 (not_isSome hlim)))
    simpa [declares, append_assoc] using h3

theorem addVars_isRandomVar {insId : Nat} {t' : VarTable} (ht : addVars insId t inst = .ok t') :
    t'.isRandomVar = t.isRandomVar := by
  cases inst with
  | fixIpv4Cs i => cases ht; rfl
  | pktWr i => cases ht; rfl
  | flowMan i =>
    obtain ⟨⟨⟩, -, ht⟩ := bind_eq_ok ht
    split at ht
    · cases ht
    · cases ht; rfl
  | flowClient i =>
    simp only [addVars] at ht
    repeat' split at ht
    all_goals cases ht
    rfl

/-- **Adding the variables of a list**, one instruction after the other. -/
theorem lays_addAllVars : ∀ {insts : List Instr} {insId : Nat} {t t' : VarTable}
    {ds : List VarDecl}, Lays t ds → t.curVarOffset ≤ svMaxFlowVar →
      addAllVars insId t insts = .ok t' →
        Lays t' (ds ++ insts.flatMap declares) ∧ t'.curVarOffset ≤ svMaxFlowVar
          ∧ t'.isRandomVar = t.isRandomVar
  | [], insId, t, t', ds, h, hle, ht => by
    cases ht
    exact ⟨by simpa using h, hle, rfl⟩
  | inst :: rest, insId, t, t', ds, h, hle, ht => by
    obtain ⟨t1, h₁, ht⟩ := bind_eq_ok ht
    split at ht
    · cases ht
    · rename_i hmax
      obtain ⟨hl, hm, hr⟩ := lays_addAllVars (lays_addVars h h₁) (by omega) ht
      refine ⟨?_, hm, hr.trans (addVars_isRandomVar h₁)⟩
      simpa [flatMap_cons, append_assoc] using hl

/-- **`build_flow_var_table` lays the declared variables out.** -/
theorem lays_buildFlowVarTable (rand : Nat) (ht : buildFlowVarTable insts = .ok t) :
    Lays t (declared rand insts) ∧ t.curVarOffset ≤ svMaxFlowVar
      ∧ t.isRandomVar = insts.any isRandomInstr := by
  have hempty : Lays ⟨0, insts.any isRandomInstr, []⟩ [] :=
    ⟨rfl, rfl, nodup_nil, fun d hd => absurd hd (by simp)⟩
  unfold buildFlowVarTable initVarTable at ht
  unfold declared
  cases hr : insts.any isRandomInstr with
  | false =>
    rw [hr] at hempty ht
    exact lays_addAllVars hempty (by decide) ht
  | true =>
    rw [hr] at hempty ht
    have hseed := hempty.varAdd ⟨randomVarName, 4, rand⟩ ⟨.w32, rfl⟩ rfl
    exact lays_addAllVars hseed (by simp [VarTable.varAdd, svMaxFlowVar]) ht

/-! ## 3. The windows hold the values -/

/-- The window of every variable holds the variable's value. -/
def Rep (t : VarTable) (m : Mem) (env : Env) : Prop :=
  ∀ name r, t.varLookup name = some r → m.load r.offset r.sizeBytes = env name

namespace Lays

variable {t : VarTable} {ds : List VarDecl} {m : Mem} {env : Env}

variable {name : String} {r : VmFlowVarRec}

/-- **A store to the window of a variable changes that variable alone.** -/
theorem rep_store (h : Lays t ds) (hrep : Rep t m env) (hr : t.varLookup name = some r) (v : Nat) :
    Rep t (m.store r.offset r.sizeBytes v) (env.set name (v % 256 ^ r.sizeBytes)) := by
  intro name' r' hr'
  by_cases hn : name' = name
  · subst hn
    have hrr : r' = r := Option.some.inj (hr'.symm.trans hr)
    rw [hrr, Mem.load_store, Env.set_same]
  · rw [Env.set_ne _ _ hn, ← hrep name' r' hr']
    refine Mem.load_store_of_disjoint m v ?_
    rcases layout_disjoint ((h.lookup_iff _ _).mp hr') ((h.lookup_iff _ _).mp hr) with he | hd | hd
    · exact absurd (congrArg Prod.fst he) hn
    · exact Or.inl hd
    · exact Or.inr hd

/-- A window lies in the first `totalSize` bytes. -/
theorem window_le (h : Lays t ds) (hr : t.varLookup name = some r) :
    r.offset + r.sizeBytes ≤ t.curVarOffset := by
  have := (layout_inside 0 ds _ ((h.lookup_iff name r).mp hr)).2
  rw [h.cur]
  simpa using this

theorem width (h : Lays t ds) (hr : t.varLookup name = some r) :
    ∃ w, Width.ofSize r.sizeBytes = some w := by
  obtain ⟨d, hd, -, hs⟩ := layout_sizes ((h.lookup_iff name r).mp hr)
  exact hs ▸ h.sizes d hd

/-- The variables of a part of the list lie at the offset where the part begins. -/
theorem lookup_part (h : Lays t ds) {pre part post : List VarDecl}
    (hds : ds = pre ++ part ++ post) (hr : (name, r) ∈ layout (totalSize pre) part) :
    t.varLookup name = some r := by
  rw [h.lookup_iff, hds, layout_append, layout_append]
  simp [hr]

end Lays

/-! ## 4. The BSS holds the initial values -/

/-- The bytes of the initial values, one variable behind the other. -/
def initBytes (ds : List VarDecl) : List UInt8 := ds.flatMap fun d => toBytes d.size d.init

theorem bssBytes_eq {b : List UInt8} (h : bssBytes inst = .ok b) :
    b = initBytes (declares inst) := by
  cases inst with
  | fixIpv4Cs i => cases h; rfl
  | pktWr i => cases h; rfl
  | flowClient i =>
    cases h
    simp [initBytes, declares, append_assoc]
  | flowMan i =>
    simp only [bssBytes] at h
    split at h
    · rename_i w hw
      cases h
      simp [initBytes, declares, ofSize_bytes hw]
    · cases h

theorem bssAll_eq : ∀ {insts : List Instr} {bs : List UInt8}, bssAll insts = .ok bs →
    bs = initBytes (insts.flatMap declares)
  | [], bs, h => by
    cases h
    rfl
  | inst :: rest, bs, h => by
    obtain ⟨b, hb, h⟩ := bind_eq_ok h
    obtain ⟨bs', hbs, h⟩ := bind_eq_ok h
    cases h
    rw [bssBytes_eq hb, bssAll_eq hbs]
    simp [initBytes]

/-- **`build_bss` writes the declared variables in the order of the table.** -/
theorem buildBss_eq {bss : List UInt8} (hr : t.isRandomVar = insts.any isRandomInstr)
    (h : buildBss rand t insts = .ok bss) :
    bss = initBytes (declared rand insts) := by
  obtain ⟨bs, hbs, h⟩ := bind_eq_ok h
  cases h
  rw [bssAll_eq hbs, hr, declared]
  cases insts.any isRandomInstr <;> simp [initBytes]

theorem length_initBytes (ds : List VarDecl) : (initBytes ds).length = totalSize ds := by
  simp [initBytes, totalSize, length_flatMap]

/-- A memory that starts with the initial bytes holds the initial values. -/
theorem load_initBytes : ∀ {ds : List VarDecl} {off : Nat} {m : Mem} {e : String × VmFlowVarRec},
    m.read off (totalSize ds) = initBytes ds → e ∈ layout off ds →
      ∃ d ∈ ds, d.name = e.1 ∧ m.load e.2.offset e.2.sizeBytes = d.init % 256 ^ d.size
  | [], off, m, e, _, he => absurd he (by simp [layout])
  | d :: ds, off, m, e, hm, he => by
    have hsum : totalSize (d :: ds) = d.size + totalSize ds := rfl
    have hcons : initBytes (d :: ds) = toBytes d.size d.init ++ initBytes ds := rfl
    rw [hsum, hcons, Mem.read_append] at hm
    obtain ⟨h1, h2⟩ := append_inj hm (by simp)
    rcases mem_cons.mp he with rfl | he
    · refine ⟨d, by simp, rfl, ?_⟩
      rw [← ofBytes_toBytes, ← h1, Mem.ofBytes_read]
    · obtain ⟨d', hd', hn, hl⟩ := load_initBytes h2 he
      exact ⟨d', by simp [hd'], hn, hl⟩

/-- A declaration is found under its own name. -/
theorem find?_of_mem (hnd : (ds.map VarDecl.name).Nodup) {d : VarDecl} (hd : d ∈ ds) :
    ds.find? (fun d' => d'.name == d.name) = some d := by
  induction ds with
  | nil => exact absurd hd (by simp)
  | cons d' ds ih =>
    rw [map_cons, nodup_cons] at hnd
    rcases mem_cons.mp hd with rfl | hd
    · simp
    · have hne : ¬ d'.name = d.name := fun h => hnd.1 (h ▸ mem_map_of_mem hd)
      simpa [hne] using ih hnd.2 hd

/-- **The BSS represents the initial values.** -/
theorem Lays.rep_init {m : Mem} (h : Lays t (declared rand insts))
    (hm : m.read 0 (totalSize (declared rand insts)) = initBytes (declared rand insts)) :
    Rep t m (initVars rand insts) := by
  intro name r hr
  obtain ⟨d, hd, hn, hl⟩ := load_initBytes hm ((h.lookup_iff name r).mp hr)
  subst hn
  simp only [initVars, find?_of_mem h.nodup hd, hl]

/-- The size of a variable in the table is its declared size. -/
theorem Lays.varSize_eq (h : Lays t (declared rand insts)) {name : String} {r : VmFlowVarRec}
    (hr : t.varLookup name = some r) : varSize insts name = some r.sizeBytes := by
  obtain ⟨d, hd, hn, hs⟩ := layout_sizes ((h.lookup_iff name r).mp hr)
  -- the seed's initial value is the only thing that depends on `rand`
  have hsame : (declared 0 insts).map (fun d => (d.name, d.size))
      = (declared rand insts).map fun d => (d.name, d.size) := by
    unfold declared
    cases insts.any isRandomInstr <;> simp
  obtain ⟨d', hd', heq⟩ := mem_map.mp
    (hsame ▸ mem_map_of_mem (f := fun d : VarDecl => (d.name, d.size)) hd)
  have hnd : ((declared 0 insts).map VarDecl.name).Nodup := by
    have hnames := congrArg (List.map Prod.fst) hsame
    simp only [map_map, Function.comp_def] at hnames
    have := h.nodup
    rwa [← hnames] at this
  have hn' : d'.name = name := (congrArg Prod.fst heq).trans hn
  have hs' : d'.size = r.sizeBytes := (congrArg Prod.snd heq).trans hs
  rw [varSize, declOf, ← hn', find?_of_mem hnd hd', Option.map_some, hs']

end Trex.Vm
