/-
# Lists with ranges replaced, and the programs that assemble them

`splice xs pos es` is the rest of `xs` from `pos` on, with the text of every edit of `es` in the
place of its range.  It grows by what the texts are longer than their ranges (`length_splice`).

A program makes such a list in a memory, behind a pointer: it copies stretches of a source, prints
texts with a zero behind them, and goes back to overwrite what it wrote.  `run` is that program with
a limit that it must not write behind; `out` is the list it has written so far.  Where every step
stays in its bounds (`Fit`) and the list fits, the program runs and the memory holds the list
(`run_holds`).
-/
import Trex.Lib.Bytes
import Mathlib.Algebra.BigOperators.Group.List.Basic

namespace Trex.Lib

open List

/-! ## 1. Edits -/

/-- A range, and what stands in its place. -/
structure Edit (α : Type) where
  start : Nat
  stop : Nat
  text : List α
deriving DecidableEq, Repr

section Edits

variable {α : Type}

/-- The list from `pos` on, with the ranges replaced. -/
def splice (xs : List α) : Nat → List (Edit α) → List α
  | pos, [] => xs.drop pos
  | pos, e :: es => (xs.take e.start).drop pos ++ e.text ++ splice xs e.stop es

/-- The ranges are in order, behind `pos` and in a list of `n` elements. -/
def EditsIn (n : Nat) : Nat → List (Edit α) → Prop
  | pos, [] => pos ≤ n
  | pos, e :: es => pos ≤ e.start ∧ e.start ≤ e.stop ∧ EditsIn n e.stop es

instance (n : Nat) : ∀ (pos : Nat) (es : List (Edit α)), Decidable (EditsIn n pos es)
  | pos, [] => inferInstanceAs (Decidable (pos ≤ n))
  | pos, e :: es =>
    have := instDecidableEditsIn n e.stop es
    inferInstanceAs (Decidable (pos ≤ e.start ∧ e.start ≤ e.stop ∧ EditsIn n e.stop es))

/-- What an edit adds. -/
def Edit.growth (e : Edit α) : Int := e.text.length - (e.stop - e.start)

/-- What the edits add. -/
def growth (es : List (Edit α)) : Int := (es.map Edit.growth).sum

@[simp] theorem growth_nil : growth ([] : List (Edit α)) = 0 := rfl

@[simp] theorem growth_cons (e : Edit α) (es : List (Edit α)) :
    growth (e :: es) = e.growth + growth es := rfl

theorem growth_append (es es' : List (Edit α)) : growth (es ++ es') = growth es + growth es' := by
  rw [growth, map_append, sum_append, growth, growth]

theorem EditsIn.le {n : Nat} : ∀ {pos : Nat} {es : List (Edit α)}, EditsIn n pos es → pos ≤ n
  | _, [], h => h
  | _, _ :: _, h => (h.1.trans h.2.1).trans h.2.2.le

@[simp] theorem splice_nil (xs : List α) : splice xs 0 [] = xs := rfl

/-- **The length changes by what the edits add.** -/
theorem length_splice {xs : List α} : ∀ {pos : Nat} {es : List (Edit α)}, EditsIn xs.length pos es →
    ((splice xs pos es).length : Int) = xs.length - pos + growth es
  | pos, [], h => by
    have hle : pos ≤ xs.length := h
    simp only [splice, length_drop, growth_nil]
    omega
  | pos, e :: es, h => by
    obtain ⟨hstart, hstop, hes⟩ := h
    have hle := hes.le
    have hrest := length_splice hes
    simp only [splice, length_append, length_drop, length_take, growth_cons, Edit.growth]
    omega

/-- Only the rest from `pos` on matters. -/
theorem splice_congr {xs ys : List α} {n : Nat} :
    ∀ {pos : Nat} {es : List (Edit α)}, EditsIn n pos es →
    xs.drop pos = ys.drop pos → splice xs pos es = splice ys pos es
  | _, [], _, h => h
  | pos, e :: es, hes, h => by
    have hstop : pos ≤ e.stop := hes.1.trans hes.2.1
    have hhead : (xs.take e.start).drop pos = (ys.take e.start).drop pos := by
      rw [drop_take, drop_take, h]
    have hrest : xs.drop e.stop = ys.drop e.stop := by
      rw [← Nat.add_sub_cancel' hstop, ← drop_drop, h, drop_drop]
    rw [splice, splice, hhead, splice_congr hes.2.2 hrest]

end Edits

/-! ## 2. Programs that write -/

/-- A step of a program that writes behind a pointer. -/
inductive WriteStep
  /-- `memcpy` of a stretch of the source. -/
  | copy (start stop : Nat)
  /-- `sprintf`: a text, with a zero behind it. -/
  | print (text : List UInt8)
  /-- A byte in front of the pointer is overwritten. -/
  | patch (back : Nat) (b : UInt8)
  /-- Bytes at an offset from where the program started are overwritten. -/
  | poke (off : Nat) (bytes : List UInt8)

/-- The memory, and where the pointer is. -/
structure Writer where
  mem : Mem
  pos : Nat

namespace WriteStep

/-- A step, on a memory that ends at `limit`.  The source is at `src`, and the program started at
`base`. -/
def run (srcMem : Mem) (src base limit : Nat) (w : Writer) : WriteStep → Option Writer
  | copy start stop =>
    if start ≤ stop ∧ w.pos + (stop - start) ≤ limit then
      some ⟨w.mem.putBytes w.pos (srcMem.read (src + start) (stop - start)), w.pos + (stop - start)⟩
    else none
  | print text =>
    if w.pos + text.length + 1 ≤ limit
      then some ⟨w.mem.putBytes w.pos (text ++ [0]), w.pos + text.length⟩
    else none
  | patch back b =>
    if 0 < back ∧ back ≤ w.pos then some ⟨w.mem.putBytes (w.pos - back) [b], w.pos⟩ else none
  | poke off bytes =>
    if base + off + bytes.length ≤ limit then some ⟨w.mem.putBytes (base + off) bytes, w.pos⟩
      else none

/-- The list that was written, with some of its elements overwritten. -/
def overwrite (xs : List UInt8) (off : Nat) (bytes : List UInt8) : List UInt8 :=
  xs.take off ++ bytes ++ xs.drop (off + bytes.length)

/-- What a step makes of the list that was written. -/
def out (source xs : List UInt8) : WriteStep → List UInt8
  | copy start stop => xs ++ (source.take stop).drop start
  | print text => xs ++ text
  | patch back b => overwrite xs (xs.length - back) [b]
  | poke off bytes => overwrite xs off bytes

/-- A step stays in its bounds: in a source of `n` bytes, and in the `k` bytes that were written. -/
def Fit (n k : Nat) : WriteStep → Prop
  | copy start stop => start ≤ stop ∧ stop ≤ n
  | print _ => True
  | patch back _ => 0 < back ∧ back ≤ k
  | poke off bytes => off + bytes.length ≤ k

/-- How much is written after a step. -/
def size (k : Nat) : WriteStep → Nat
  | copy start stop => k + (stop - start)
  | print text => k + text.length
  | patch _ _ => k
  | poke _ _ => k

theorem le_size (k : Nat) (st : WriteStep) : k ≤ st.size k := by
  cases st <;> simp [size]

theorem length_overwrite {xs bytes : List UInt8} {off : Nat} (h : off + bytes.length ≤ xs.length) :
    (overwrite xs off bytes).length = xs.length := by
  simp only [overwrite, length_append, length_take, length_drop]
  omega

theorem length_out {source xs : List UInt8} {st : WriteStep} (h : st.Fit source.length xs.length) :
    (st.out source xs).length = st.size xs.length := by
  cases st with
  | copy start stop =>
    obtain ⟨hle, hstop⟩ := h
    simp only [out, size, length_append, length_drop, length_take]
    omega
  | print text => exact length_append
  | patch back b =>
    obtain ⟨hpos, hback⟩ := h
    exact length_overwrite (by rw [length_singleton]; omega)
  | poke off bytes => exact length_overwrite h

end WriteStep

/-! ## 3. What the memory holds -/

/-- The memory holds the list from `base` on, the pointer is behind it, and what is before `base` is
as it was. -/
structure Holds (m : Mem) (base : Nat) (xs : List UInt8) (w : Writer) : Prop where
  pos : w.pos = base + xs.length
  read : w.mem.read base xs.length = xs
  before : ∀ x < base, w.mem x = m x

section Holds

variable {m : Mem} {base : Nat} {xs : List UInt8} {w : Writer}

theorem Holds.init (m : Mem) (base : Nat) : Holds m base [] ⟨m, base⟩ := ⟨rfl, rfl, fun _ _ => rfl⟩

/-- More bytes are written behind the list; what is behind them does not matter. -/
theorem Holds.append (h : Holds m base xs w) (text rest : List UInt8) :
    Holds m base (xs ++ text) ⟨w.mem.putBytes w.pos (text ++ rest), w.pos + text.length⟩ := by
  refine ⟨?_, ?_, fun x hx => ?_⟩
  · simp [h.pos, Nat.add_assoc]
  · have hnew := Mem.read_putBytes_slice w.mem w.pos (l := text ++ rest) (i := 0) (n := text.length)
      (by rw [length_append]; omega)
    rw [length_append, Mem.read_append, Mem.read_putBytes_of_disjoint _ _ (Or.inl h.pos.ge), h.read,
      ← h.pos]
    congr 1
    simpa using hnew
  · have hlt : x < w.pos := by
      rw [h.pos]
      omega
    exact (Mem.putBytes_of_lt _ _ hlt).trans (h.before x hx)

/-- Bytes of the list are overwritten. -/
theorem Holds.overwrite (h : Holds m base xs w) {off : Nat} {bytes : List UInt8}
    (hoff : off + bytes.length ≤ xs.length) :
    Holds m base (WriteStep.overwrite xs off bytes) ⟨w.mem.putBytes (base + off) bytes, w.pos⟩ := by
  have hlen := WriteStep.length_overwrite hoff
  refine ⟨?_, ?_, fun x hx => ?_⟩
  · simp only [hlen, h.pos]
  · have hread := h.read
    obtain ⟨rest, hrest⟩ : ∃ rest, xs.length = off + bytes.length + rest :=
      ⟨_, (Nat.add_sub_cancel' hoff).symm⟩
    rw [hrest, Mem.read_append, Mem.read_append] at hread
    rw [hlen, hrest, Mem.read_append, Mem.read_append, Mem.read_putBytes,
      Mem.read_putBytes_of_disjoint _ _ (Or.inl le_rfl),
      Mem.read_putBytes_of_disjoint _ _ (Or.inr (by rw [Nat.add_assoc]))]
    have htake : xs.take off = w.mem.read base off := by
      rw [← hread, append_assoc, take_left' (Mem.length_read _ _ _)]
    have hdrop : xs.drop (off + bytes.length) = w.mem.read (base + (off + bytes.length)) rest := by
      rw [← hread, drop_left' (by simp)]
    rw [WriteStep.overwrite, htake, hdrop]
  · exact (Mem.putBytes_of_lt _ _ (by omega)).trans (h.before x hx)

end Holds

/-! ## 4. Runs -/

/-- What a program has written. -/
def outSteps (source : List UInt8) : List WriteStep → List UInt8 → List UInt8
  | [], xs => xs
  | st :: sts, xs => outSteps source sts (st.out source xs)

/-- A byte in front of the pointer is overwritten, in the stretch that was copied last. -/
theorem WriteStep.overwrite_back {xs ys : List UInt8} {start stop back : Nat} (b : UInt8)
    (hback : 0 < back) (hstart : start + back ≤ stop) (hstop : stop ≤ xs.length) :
    overwrite (ys ++ (xs.take stop).drop start) ((ys ++ (xs.take stop).drop start).length - back)
      [b]
      = ys ++ (xs.take (stop - back)).drop start ++ [b] ++
          (xs.take stop).drop (stop - back + 1) := by
  have hlen : ((xs.take stop).drop start).length = stop - start := by
    rw [length_drop, length_take, min_eq_left hstop]
  have hoff : (ys ++ (xs.take stop).drop start).length - back = ys.length +
      (stop - back - start) := by
    rw [length_append, hlen]
    omega
  have htake : ((xs.take stop).drop start).take (stop - back - start) =
      (xs.take (stop - back)).drop start := by
    rw [take_drop, take_take]
    congr 2
    omega
  have hdrop : ((xs.take stop).drop start).drop (stop - back - start + 1) =
      (xs.take stop).drop (stop - back + 1) := by
    rw [drop_drop]
    congr 1
    omega
  rw [overwrite, hoff, length_singleton, take_length_add_append, htake, Nat.add_assoc,
    drop_length_add_append, hdrop]

/-- **Texts that are as long as their ranges** are written over them one after the other. -/
theorem outSteps_pokes {source : List UInt8} :
    ∀ {pos : Nat} {es : List (Edit UInt8)} {xs : List UInt8},
    EditsIn xs.length pos es → (∀ e ∈ es, e.start + e.text.length = e.stop) →
      outSteps source (es.map fun e => .poke e.start e.text) xs = xs.take pos ++ splice xs pos es
  | pos, [], xs, _, _ => (take_append_drop pos xs).symm
  | pos, e :: es, xs, hes, hlen => by
    obtain ⟨hstart, hstop, hrest⟩ := hes
    have hsize := hlen e mem_cons_self
    have hle : e.start + e.text.length ≤ xs.length := hsize.le.trans hrest.le
    have hsame := WriteStep.length_overwrite hle
    have hdrop : (WriteStep.overwrite xs e.start e.text).drop e.stop = xs.drop e.stop := by
      rw [WriteStep.overwrite, drop_left' (by
        rw [length_append, length_take, min_eq_left (by omega), hsize]), hsize]
    have htake : (WriteStep.overwrite xs e.start e.text).take e.stop = xs.take e.start ++
        e.text := by
      rw [WriteStep.overwrite, take_left' (by
        rw [length_append, length_take, min_eq_left (by omega), hsize])]
    have hbefore : xs.take e.start = xs.take pos ++ (xs.take e.start).drop pos := by
      conv_lhs => rw [← take_append_drop pos (xs.take e.start), take_take, min_eq_left hstart]
    calc outSteps source (.poke e.start e.text :: es.map fun e => .poke e.start e.text) xs
        = (WriteStep.overwrite xs e.start e.text).take e.stop
          ++ splice (WriteStep.overwrite xs e.start e.text) e.stop es :=
          outSteps_pokes (hsame ▸ hrest) fun e' he' => hlen e' (mem_cons_of_mem _ he')
      _ = xs.take e.start ++ e.text ++ splice xs e.stop es := by
        rw [htake, splice_congr hrest hdrop]
      _ = xs.take pos ++ splice xs pos (e :: es) := by
          conv_lhs => rw [hbefore]
          simp [splice]

section Run

variable {srcMem : Mem} {src base limit n : Nat}

/-- A program. -/
def runSteps (srcMem : Mem) (src base limit : Nat) : List WriteStep → Writer → Option Writer
  | [], w => some w
  | st :: sts, w => (st.run srcMem src base limit w).bind fun w' =>
      runSteps srcMem src base limit sts w'

/-- A program that runs copies no stretch that ends before it starts. -/
theorem copy_le_of_runSteps {start stop : Nat} : ∀ {sts : List WriteStep} {w w' : Writer},
    runSteps srcMem src base limit sts w = some w' → .copy start stop ∈ sts → start ≤ stop
  | st :: sts, w, w', hrun, hmem => by
    obtain ⟨w1, hstep, hrest⟩ := Option.bind_eq_some_iff.mp hrun
    rcases mem_cons.mp hmem with rfl | hmem
    · rw [WriteStep.run] at hstep
      split at hstep
      · rename_i hbounds
        exact hbounds.1
      · cases hstep
    · exact copy_le_of_runSteps hrest hmem

/-- The steps of a program stay in their bounds. -/
def Fit (n : Nat) : List WriteStep → Nat → Prop
  | [], _ => True
  | st :: sts, k => st.Fit n k ∧ Fit n sts (st.size k)

theorem fit_pokes {k : Nat} : ∀ {pos : Nat} {es : List (Edit UInt8)}, EditsIn k pos es →
    (∀ e ∈ es, e.start + e.text.length = e.stop) → Fit n (es.map fun e => .poke e.start e.text) k
  | _, [], _, _ => trivial
  | _, e :: _, hes, hlen =>
    ⟨(hlen e mem_cons_self).le.trans hes.2.2.le,
      fit_pokes hes.2.2 fun e' he' => hlen e' (mem_cons_of_mem _ he')⟩

theorem le_length_outSteps {source : List UInt8} : ∀ {sts : List WriteStep} {xs : List UInt8},
    Fit source.length sts xs.length → xs.length ≤ (outSteps source sts xs).length
  | [], _, _ => le_rfl
  | st :: sts, xs, h => by
    have hlen := WriteStep.length_out h.1
    have hrest : (st.out source xs).length ≤ (outSteps source sts (st.out source xs)).length :=
      le_length_outSteps (by rw [hlen]; exact h.2)
    exact ((st.le_size xs.length).trans hlen.ge).trans hrest

/-- **One step** writes what it should, as long as that fits. -/
theorem WriteStep.run_holds {m : Mem} {xs : List UInt8} {w : Writer} {st : WriteStep}
    (hw : Holds m base xs w) (hfit : st.Fit n xs.length)
    (hlimit : base + (st.out (srcMem.read src n) xs).length + 1 ≤ limit) :
    ∃ w', st.run srcMem src base limit w = some w' ∧
        Holds m base (st.out (srcMem.read src n) xs) w' := by
  have hpos := hw.pos
  have hlen : (srcMem.read src n).length = n := Mem.length_read _ _ _
  rw [WriteStep.length_out (by rwa [hlen])] at hlimit
  cases st with
  | copy start stop =>
    obtain ⟨hle, hstop⟩ := hfit
    have hslice : ((srcMem.read src n).take stop).drop start =
        srcMem.read (src + start) (stop - start) := by
      obtain ⟨k, rfl⟩ := Nat.exists_eq_add_of_le hstop
      obtain ⟨j, rfl⟩ := Nat.exists_eq_add_of_le hle
      rw [Mem.read_append, take_left' (Mem.length_read _ _ _), Mem.read_append,
        drop_left' (Mem.length_read _ _ _), Nat.add_sub_cancel_left]
    refine ⟨_, if_pos ⟨hle, by simp only [WriteStep.size] at hlimit; omega⟩, ?_⟩
    have happend := hw.append (srcMem.read (src + start) (stop - start)) []
    rw [append_nil, Mem.length_read] at happend
    rw [WriteStep.out, hslice]
    exact happend
  | print text =>
    refine ⟨_, if_pos (by simp only [WriteStep.size] at hlimit; omega), ?_⟩
    exact hw.append text [0]
  | patch back b =>
    obtain ⟨hback, hle⟩ := hfit
    refine ⟨_, if_pos ⟨hback, by omega⟩, ?_⟩
    have hoff : w.pos - back = base + (xs.length - back) := by omega
    rw [hoff]
    exact hw.overwrite (by rw [length_singleton]; omega)
  | poke off bytes =>
    have hoff : off + bytes.length ≤ xs.length := hfit
    refine ⟨_, if_pos (by simp only [WriteStep.size] at hlimit; omega), ?_⟩
    exact hw.overwrite hoff

/-- **A program** writes what it should. -/
theorem runSteps_holds {m : Mem} :
    ∀ {sts : List WriteStep} {xs : List UInt8} {w : Writer}, Holds m base xs w →
    Fit n sts xs.length → base + (outSteps (srcMem.read src n) sts xs).length + 1 ≤ limit →
    ∃ w', runSteps srcMem src base limit sts w = some w' ∧
      Holds m base (outSteps (srcMem.read src n) sts xs) w'
  | [], _, w, hw, _, _ => ⟨w, rfl, hw⟩
  | st :: sts, xs, w, hw, hfit, hlimit => by
    have hlen : (srcMem.read src n).length = n := Mem.length_read _ _ _
    have hout : (st.out (srcMem.read src n) xs).length = st.size xs.length :=
      WriteStep.length_out (by rw [hlen]; exact hfit.1)
    have hrest : Fit n sts (st.out (srcMem.read src n) xs).length := by
      rw [hout]
      exact hfit.2
    have hle : (st.out (srcMem.read src n) xs).length
        ≤ (outSteps (srcMem.read src n) sts (st.out (srcMem.read src n) xs)).length :=
      le_length_outSteps (by rw [hlen]; exact hrest)
    obtain ⟨w1, hrun, hw1⟩ := WriteStep.run_holds hw hfit.1
      (by simp only [outSteps] at hlimit; omega :
        base + (st.out (srcMem.read src n) xs).length + 1 ≤ limit)
    obtain ⟨w2, hruns, hw2⟩ := runSteps_holds hw1 hrest hlimit
    refine ⟨w2, ?_, hw2⟩
    rw [runSteps, hrun]
    exact hruns

end Run

end Trex.Lib
