/-
# Numbered pieces of streams that change their sizes

Pieces of several streams come in one list.  A piece has a number and a size, and within a stream
every number is the one before plus the size before it (`InOrder`).  When every piece grows, each
number has to move by what the pieces before it in its stream grew (`Stretched`): then the new list
is in order too, and the end of the first `m` pieces of a stream moves by what these `m` pieces grew
(`Stretched.boundary_eq`).

Numbers are elements of a commutative group, so they may wrap, and a piece may shrink.
-/
import Mathlib.Algebra.BigOperators.Group.List.Basic
import Trex.Lib.Number

namespace Trex.Lib

open List

variable {α β γ G : Type} [DecidableEq γ] [AddCommGroup G]

/-! ## 1. Totals -/

/-- The sum over the pieces of stream `c`. -/
def total (g : α → γ) (f : α → G) (c : γ) (xs : List α) : G := ((ofClass g c xs).map f).sum

section Total

variable (g : α → γ) (f : α → G) (c : γ)

@[simp] theorem total_nil : total g f c [] = 0 := rfl

theorem total_concat (xs : List α) (x : α) :
    total g f c (xs ++ [x]) = total g f c xs + if g x = c then f x else 0 := by
  rw [total, ofClass_concat, map_append, sum_append, ← total]
  split_ifs <;> simp

/-- A stream without pieces. -/
theorem total_eq_zero {g : α → γ} {c : γ} {xs : List α} (h : ofClass g c xs = []) :
    total g f c xs = 0 := by
  rw [total, h]
  rfl

/-- A stream whose pieces add nothing. -/
theorem total_eq_zero_of_forall {g : α → γ} {f : α → G} {c : γ} {xs : List α}
    (h : ∀ x ∈ xs, g x = c → f x = 0) :
    total g f c xs = 0 := by
  refine sum_eq_zero fun y hy => ?_
  obtain ⟨x, hx, rfl⟩ := mem_map.mp hy
  obtain ⟨hmem, hc⟩ := mem_filter.mp hx
  exact h x hmem (of_decide_eq_true hc)

end Total

/-! ## 2. Order -/

/-- In every stream, a number is the one before plus the size before it. -/
def InOrder (g : α → γ) (num len : α → G) (xs : List α) : Prop :=
  ∀ c, (ofClass g c xs).IsChain fun a b => num b = num a + len a

/-- Where the first `m` pieces of stream `c` end. -/
def boundary (g : α → γ) (num len : α → G) (c : γ) (m : Nat) (xs : List α) : Option G :=
  (ofClass g c xs).head?.map fun first => num first + (((ofClass g c xs).take m).map len).sum

section InOrder

variable {g : α → γ} {num len : α → G}

/-- Only the streams of which there are pieces matter. -/
theorem inOrder_of_mem {xs : List α}
    (h : ∀ x ∈ xs, (ofClass g (g x) xs).IsChain fun a b => num b = num a + len a) :
    InOrder g num len xs := by
  intro c
  cases hclass : ofClass g c xs with
  | nil => exact isChain_nil
  | cons x rest =>
    have hx : x ∈ ofClass g c xs := hclass ▸ mem_cons_self
    obtain ⟨hmem, hc⟩ := mem_filter.mp hx
    rw [← hclass, ← of_decide_eq_true hc]
    exact h x hmem

/-- One piece more. -/
theorem inOrder_concat {xs : List α} {x : α} :
    InOrder g num len (xs ++ [x]) ↔
      InOrder g num len xs ∧ ∀ y ∈ (ofClass g (g x) xs).getLast?, num x = num y + len y := by
  unfold InOrder
  constructor
  · intro h
    refine ⟨fun c => ?_, ?_⟩
    · have hc := h c
      rw [ofClass_concat] at hc
      exact hc.left_of_append
    · have hx := h (g x)
      rw [ofClass_concat, if_pos rfl] at hx
      intro y hy
      exact (isChain_append.mp hx).2.2 y hy x rfl
  · rintro ⟨h, hlast⟩ c
    rw [ofClass_concat]
    split_ifs with hc
    · subst hc
      refine isChain_append.mpr ⟨h (g x), isChain_singleton _, ?_⟩
      intro y hy z hz
      cases hz
      exact hlast y hy
    · rw [append_nil]
      exact h c

end InOrder

/-! ## 3. Growing -/

section Stretched

variable (g : α → γ) (num len grow : α → G) (g' : β → γ) (num' len' : β → G)

/-- **The pieces of `ys` are those of `xs`, grown and moved**: every number moves by what the pieces
before it in its stream grew. -/
inductive Stretched : List α → List β → Prop
  | nil : Stretched [] []
  | concat {xs : List α} {ys : List β} {x : α} {y : β} (h : Stretched xs ys) (stream : g' y = g x)
      (number : num' y = num x + total g grow (g x) xs) (size : len' y = len x + grow x) :
      Stretched (xs ++ [x]) (ys ++ [y])

end Stretched

namespace Stretched

variable {g : α → γ} {num len grow : α → G} {g' : β → γ} {num' len' : β →
    G} {xs : List α} {ys : List β}

theorem length_eq (h : Stretched g num len grow g' num' len' xs ys) : ys.length = xs.length := by
  induction h with
  | nil => rfl
  | concat _ _ _ _ ih => rw [length_append, length_append, ih]; rfl

/-- The sizes within a stream. -/
theorem sizes_eq (h : Stretched g num len grow g' num' len' xs ys) (c : γ) :
    (ofClass g' c ys).map len' = (ofClass g c xs).map fun x => len x + grow x := by
  induction h with
  | nil => rfl
  | @concat xs ys x y h stream number size ih =>
    rw [ofClass_concat, ofClass_concat, stream, map_append, map_append, ih]
    split_ifs <;> simp [size]

/-- The first piece of a stream stays where it is. -/
theorem first_eq (h : Stretched g num len grow g' num' len' xs ys) (c : γ) :
    (ofClass g' c ys).head?.map num' = (ofClass g c xs).head?.map num := by
  induction h with
  | nil => rfl
  | @concat xs ys x y h stream number size ih =>
    rw [ofClass_concat, ofClass_concat, stream]
    have hnil : ofClass g' c ys = [] ↔ ofClass g c xs = [] := by
      have hlen := congrArg List.length (h.sizes_eq c)
      rw [length_map, length_map] at hlen
      rw [← length_eq_zero_iff, hlen, length_eq_zero_iff]
    split_ifs with hc
    · by_cases hxs : ofClass g c xs = []
      · have hgrow : total g grow (g x) xs = 0 := by rw [hc]; exact total_eq_zero grow hxs
        rw [hxs, hnil.mpr hxs]
        simp [number, hgrow]
      · rw [List.head?_append_of_ne_nil _ hxs, List.head?_append_of_ne_nil _ (mt hnil.mp hxs)]
        exact ih
    · rw [append_nil, append_nil]
      exact ih

/-- The end of a prefix of a stream moves by what the prefix grew. -/
theorem boundary_eq (h : Stretched g num len grow g' num' len' xs ys) (c : γ) (m : Nat) :
    boundary g' num' len' c m ys =
      (boundary g num len c m xs).map fun n => n + (((ofClass g c xs).take m).map grow).sum := by
  have hsizes : (((ofClass g' c ys).take m).map len').sum =
      (((ofClass g c xs).take m).map len).sum + (((ofClass g c xs).take m).map grow).sum := by
    rw [map_take, h.sizes_eq c, ← map_take, sum_map_add]
  unfold boundary
  rw [hsizes]
  have hfirst := h.first_eq c
  cases hx : (ofClass g c xs).head? with
  | none =>
    rw [hx] at hfirst
    rw [Option.map_eq_none_iff.mp hfirst]
    rfl
  | some first =>
    rw [hx] at hfirst
    obtain ⟨first', hy, heq⟩ := Option.map_eq_some_iff.mp hfirst
    rw [hy]
    simp [heq, add_assoc]

/-- The end of a stream so far. -/
theorem last_eq (h : Stretched g num len grow g' num' len' xs ys) (c : γ) :
    ∀ y ∈ (ofClass g' c ys).getLast?, ∃ x ∈ (ofClass g c xs).getLast?,
      num' y + len' y = num x + len x + total g grow c xs := by
  induction h with
  | nil => intro y hy; cases hy
  | @concat xs ys x y h stream number size ih =>
    rw [ofClass_concat, ofClass_concat, stream, total_concat]
    split_ifs with hc
    · intro z hz
      rw [List.getLast?_concat, Option.mem_some_iff] at hz
      subst hz
      refine ⟨x, by rw [List.getLast?_concat]; rfl, ?_⟩
      rw [number, size, hc]
      exact add_add_add_comm _ _ _ _
    · rw [append_nil, append_nil, add_zero]
      exact ih

/-- **Order is kept.** -/
theorem inOrder (h : Stretched g num len grow g' num' len' xs ys) (hxs : InOrder g num len xs) :
    InOrder g' num' len' ys := by
  induction h with
  | nil => exact fun c => isChain_nil
  | @concat xs ys x y h stream number size ih =>
    obtain ⟨hxs, hlast⟩ := inOrder_concat.mp hxs
    refine inOrder_concat.mpr ⟨ih hxs, ?_⟩
    rw [stream]
    intro z hz
    obtain ⟨w, hw, heq⟩ := h.last_eq (g x) z hz
    rw [number, hlast w hw, heq]

end Stretched

end Trex.Lib
