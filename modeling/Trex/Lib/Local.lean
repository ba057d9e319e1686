/-
# Transformations of a memory that read and write its first bytes only

A function that rewrites the header of a packet is a transformation of memories.  `Local P r w f`
says that `f`, on the memories of `P`, reads below `r` and writes below `w`.  Such functions compose
(`Local.comp`), a store is one (`Local.store`), and a buffer that was cut at `w` is transformed by
its first part alone (`Local.read_append`).
-/
import Trex.Lib.Bytes

namespace Trex.Lib

/-! ## 1. The rules -/

/-- On the memories of `P`, `f` reads below `r`, writes below `w`, and stays in `P`. -/
structure Local (P : Mem → Prop) (r w : Nat) (f : Mem → Mem) : Prop where
  keeps : ∀ {m}, P m → P (f m)
  reads : ∀ {m m'}, P m → P m' → (∀ x < r, m x = m' x) → ∀ {x}, m x = m' x → f m x = f m' x
  writes : ∀ {m}, P m → ∀ {x}, w ≤ x → f m x = m x

/-- A number that is read below `r`. -/
def ReadsBelow (P : Mem → Prop) (r : Nat) (v : Mem → Nat) : Prop :=
  ∀ {m m'}, P m → P m' → (∀ x < r, m x = m' x) → v m = v m'

section Rules

variable {P : Mem → Prop} {r w : Nat} {f g : Mem → Mem}

theorem Local.comp (hg : Local P r w g) (hf : Local P r w f) : Local P r w fun m => g (f m) := by
  constructor
  · intro m hm
    exact hg.keeps (hf.keeps hm)
  · intro m m' hm hm' hr x hx
    refine hg.reads (hf.keeps hm) (hf.keeps hm') ?_ (hf.reads hm hm' hr hx)
    intro y hy
    exact hf.reads hm hm' hr (hr y hy)
  · intro m hm x hx
    rw [hg.writes (hf.keeps hm) hx, hf.writes hm hx]

theorem Local.id : Local P r w fun m => m :=
  ⟨fun hm => hm, fun _ _ _ _ hx => hx, fun _ _ _ => rfl⟩

/-- A condition that does not depend on the memory. -/
theorem Local.ite (c : Prop) [Decidable c] (hf : c → Local P r w f) (hg : ¬ c → Local P r w g) :
    Local P r w fun m => if c then f m else g m := by
  by_cases hc : c
  · simpa only [if_pos hc] using hf hc
  · simpa only [if_neg hc] using hg hc

/-- A store below `w` of a number that was read below `r`. -/
theorem Local.store {a n : Nat} {v : Mem → Nat} (hw : a + n ≤ w) (hv : ReadsBelow P r v)
    (hP : ∀ {m}, P m → P (m.store a n (v m))) : Local P r w fun m => m.store a n (v m) := by
  constructor
  · exact hP
  · intro m m' hm hm' hr x hx
    rw [hv hm hm' hr]
    exact Mem.store_congr fun _ => hx
  · intro m _ x hx
    exact Mem.store_of_ge m _ (by omega)

theorem ReadsBelow.const (n : Nat) : ReadsBelow P r fun _ => n := fun _ _ _ => rfl

end Rules

/-! ## 2. A buffer in two parts -/

/-- A copy agrees with what was copied. -/
theorem putBytes_read (j m : Mem) {n x : Nat} (h : x < n) : j.putBytes 0 (m.read 0 n) x = m x := by
  have hx : (m.read 0 n)[x]? = some (m x) := by
    simp [Mem.read, List.getElem?_range h]
  have h0 := Mem.putBytes_inside (a := 0) j hx
  rwa [Nat.zero_add] at h0

/-- **Cutting before or after**: the first `k` of `n` bytes, copied and transformed, followed by the
rest as it is, are the `n` bytes, copied and transformed. -/
theorem Local.read_append {P : Mem → Prop} {r w : Nat} {f : Mem → Mem} (hf : Local P r w f)
    {m : Mem} {n k : Nat} (hk : r ≤ k) (hkn : k ≤ n) (hcut : k < n → w ≤ k)
    (hP : ∀ {m' : Mem}, (∀ x < r, m' x = m x) → P m') (j j' : Mem) :
    (f (j.putBytes 0 (m.read 0 k))).read 0 k ++ m.read k (n - k)
      = (f (j'.putBytes 0 (m.read 0 n))).read 0 n := by
  have hsub : n = k + (n - k) := by omega
  have hcopy : ∀ x < r, j.putBytes 0 (m.read 0 k) x = m x :=
    fun x hx => putBytes_read j m (by omega)
  have hcopy' : ∀ x < r, j'.putBytes 0 (m.read 0 n) x = m x :=
    fun x hx => putBytes_read j' m (by omega)
  have hfirst : (f (j.putBytes 0 (m.read 0 k))).read 0 k =
      (f (j'.putBytes 0 (m.read 0 n))).read 0 k := by
    refine Mem.read_congr fun x _ hx => hf.reads (hP hcopy) (hP hcopy') ?_ ?_
    · intro y hy
      rw [hcopy y hy, hcopy' y hy]
    · rw [putBytes_read j m (by omega), putBytes_read j' m (by omega)]
  have hrest : m.read k (n - k) = (f (j'.putBytes 0 (m.read 0 n))).read k (n - k) := by
    refine Mem.read_congr fun x hkx hxn => ?_
    have hw := hcut (by omega)
    rw [hf.writes (hP hcopy') (by omega), putBytes_read j' m (by omega)]
  calc (f (j.putBytes 0 (m.read 0 k))).read 0 k ++ m.read k (n - k)
      = (f (j'.putBytes 0 (m.read 0 n))).read 0 k ++
          (f (j'.putBytes 0 (m.read 0 n))).read (0 + k) (n - k) := by
        rw [hfirst, hrest, Nat.zero_add]
    _ = (f (j'.putBytes 0 (m.read 0 n))).read 0 (k + (n - k)) := (Mem.read_append _ _ _ _).symm
    _ = (f (j'.putBytes 0 (m.read 0 n))).read 0 n := congrArg _ hsub.symm

end Trex.Lib
