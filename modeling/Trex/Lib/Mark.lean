/-
# Marking what can be reached

The worklist loop over a graph with at most one link out of every node: pop a node, skip it when it
is marked, otherwise mark it and push its successor.

`markLoop` takes fuel; every turn pops one entry and pushes at most one for each node it marks, so
the number of entries plus the number of unmarked nodes is enough on any graph, cyclic or not
(`markLoop_total`).  What is marked in the end is what can be reached from the entries
(`mem_markLoop_iff`).
-/
import Mathlib.Data.List.Nodup
import Mathlib.Logic.Relation

namespace Trex.Lib

open List

variable {α : Type} [DecidableEq α]

/-- `while (!stack.empty())`: the head of the list is the back of the vector. -/
def markLoop (next : α → Option α) : Nat → List α → List α → Option (List α)
  | _, [], marked => some marked
  | 0, _ :: _, _ => none
  | fuel + 1, a :: stack, marked =>
    if a ∈ marked then markLoop next fuel stack marked
    else markLoop next fuel ((next a).toList ++ stack) (a :: marked)

/-- One link. -/
def Link (next : α → Option α) (a b : α) : Prop := next a = some b

variable {next : α → Option α}

/-- **The loop ends**: on a universe that the links do not leave, the entries and the nodes that are
not marked yet bound the number of turns. -/
theorem markLoop_total (univ : List α) (hnext : ∀ a ∈ univ, ∀ b, next a = some b → b ∈ univ) :
    ∀ (fuel : Nat) (stack marked : List α), (∀ a ∈ stack, a ∈ univ) → (∀ a ∈ marked, a ∈ univ) →
      marked.Nodup → stack.length + univ.length ≤ fuel + marked.length →
        ∃ res, markLoop next fuel stack marked = some res
  | fuel, [], marked, _, _, _, _ => ⟨marked, by cases fuel <;> rfl⟩
  | 0, a :: stack, marked, _, hm, hnd, hfuel => by
    have hle : marked.length ≤ univ.length := Nodup.length_le_of_subset hnd hm
    simp only [length_cons] at hfuel
    omega
  | fuel + 1, a :: stack, marked, hs, hm, hnd, hfuel => by
    have ha : a ∈ univ := hs a (by simp)
    have hs' : ∀ x ∈ stack, x ∈ univ := fun x hx => hs x (by simp [hx])
    simp only [length_cons] at hfuel
    simp only [markLoop]
    split
    · exact markLoop_total univ hnext fuel stack marked hs' hm hnd (by omega)
    · rename_i hout
      refine markLoop_total univ hnext fuel _ _ ?_ ?_ (nodup_cons.mpr ⟨hout, hnd⟩) ?_
      · intro x hx
        rcases mem_append.mp hx with hx | hx
        · exact hnext a ha x (Option.mem_toList.mp hx)
        · exact hs' x hx
      · intro x hx
        rcases mem_cons.mp hx with rfl | hx
        · exact ha
        · exact hm x hx
      · have hone : (next a).toList.length ≤ 1 := by cases next a <;> simp
        simp only [length_append, length_cons]
        omega

/-- Whatever is marked in the end was marked before or can be reached from an entry. -/
theorem markLoop_sound : ∀ {fuel : Nat} {stack marked res : List α},
    markLoop next fuel stack marked = some res → ∀ b ∈ res,
      b ∈ marked ∨ ∃ a ∈ stack, Relation.ReflTransGen (Link next) a b
  | fuel, [], marked, res, h, b, hb => by
    have hres : res = marked := by cases fuel <;> exact (Option.some.inj h).symm
    exact Or.inl (hres ▸ hb)
  | 0, a :: stack, marked, res, h, b, hb => by cases h
  | fuel + 1, a :: stack, marked, res, h, b, hb => by
    simp only [markLoop] at h
    split at h
    · rcases markLoop_sound h b hb with hm | ⟨x, hx, hr⟩
      · exact Or.inl hm
      · exact Or.inr ⟨x, by simp [hx], hr⟩
    · rcases markLoop_sound h b hb with hm | ⟨x, hx, hr⟩
      · rcases mem_cons.mp hm with rfl | hm
        · exact Or.inr ⟨b, by simp, Relation.ReflTransGen.refl⟩
        · exact Or.inl hm
      · rcases mem_append.mp hx with hx | hx
        · have hlink : Link next a x := Option.mem_toList.mp hx
          exact Or.inr ⟨a, by simp, Relation.ReflTransGen.head hlink hr⟩
        · exact Or.inr ⟨x, by simp [hx], hr⟩

/-- In the end the marks hold the entries and are closed under the links, when every link out of a
mark led to a mark or to an entry. -/
theorem markLoop_closed : ∀ {fuel : Nat} {stack marked res : List α},
    (∀ a ∈ marked, ∀ b, next a = some b → b ∈ marked ∨ b ∈ stack) →
      markLoop next fuel stack marked = some res →
        (∀ a, a ∈ marked ∨ a ∈ stack → a ∈ res) ∧ ∀ a ∈ res, ∀ b, next a = some b → b ∈ res
  | fuel, [], marked, res, hinv, h => by
    have hres : res = marked := by cases fuel <;> exact (Option.some.inj h).symm
    subst hres
    refine ⟨fun a ha => ?_, fun a ha b hb => ?_⟩
    · rcases ha with ha | ha
      · exact ha
      · exact absurd ha (by simp)
    · rcases hinv a ha b hb with hm | hm
      · exact hm
      · exact absurd hm (by simp)
  | 0, a :: stack, marked, res, hinv, h => by cases h
  | fuel + 1, a :: stack, marked, res, hinv, h => by
    simp only [markLoop] at h
    split at h
    · rename_i ha
      have hinv' : ∀ x ∈ marked, ∀ b, next x = some b → b ∈ marked ∨ b ∈ stack := by
        intro x hx b hb
        rcases hinv x hx b hb with hm | hm
        · exact Or.inl hm
        · rcases mem_cons.mp hm with rfl | hm
          · exact Or.inl ha
          · exact Or.inr hm
      obtain ⟨hin, hcl⟩ := markLoop_closed hinv' h
      refine ⟨fun x hx => hin x ?_, hcl⟩
      rcases hx with hx | hx
      · exact Or.inl hx
      · rcases mem_cons.mp hx with rfl | hx
        · exact Or.inl ha
        · exact Or.inr hx
    · have hinv' : ∀ x ∈ a :: marked, ∀ b, next x = some b →
          b ∈ a :: marked ∨ b ∈ (next a).toList ++ stack := by
        intro x hx b hb
        rcases mem_cons.mp hx with rfl | hx
        · exact Or.inr (by simp [hb])
        · rcases hinv x hx b hb with hm | hm
          · exact Or.inl (by simp [hm])
          · rcases mem_cons.mp hm with rfl | hm
            · exact Or.inl (by simp)
            · exact Or.inr (by simp [hm])
      obtain ⟨hin, hcl⟩ := markLoop_closed hinv' h
      refine ⟨fun x hx => hin x ?_, hcl⟩
      rcases hx with hx | hx
      · exact Or.inl (by simp [hx])
      · rcases mem_cons.mp hx with rfl | hx
        · exact Or.inl (by simp)
        · exact Or.inr (by simp [hx])

/-- **The marks are what can be reached from the entries.** -/
theorem mem_markLoop_iff {fuel : Nat} {stack res : List α}
    (h : markLoop next fuel stack [] = some res) (b : α) :
    b ∈ res ↔ ∃ a ∈ stack, Relation.ReflTransGen (Link next) a b := by
  constructor
  · intro hb
    rcases markLoop_sound h b hb with hm | hr
    · exact absurd hm (by simp)
    · exact hr
  · rintro ⟨a, ha, hr⟩
    obtain ⟨hin, hcl⟩ := markLoop_closed (fun x hx => absurd hx (by simp)) h
    induction hr with
    | refl => exact hin a (Or.inr ha)
    | tail _ hlink ih => exact hcl _ ih _ hlink

end Trex.Lib
