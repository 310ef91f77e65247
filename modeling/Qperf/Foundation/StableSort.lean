import Mathlib.Data.List.Sort
import Mathlib.Data.List.Pairwise

/-!
# Stable sorting

Insertion sort keeps the order of elements that compare equal.  A list that is ordered by
one strict relation is ordered by a second one just if the first implies the second on its
elements.
-/

namespace Qperf.Foundation

variable {α : Type*} {l : List α}

section Stable

variable {r T : α → α → Prop} [DecidableRel r] [Std.Total r] [IsTrans α r]

theorem pairwise_orderedInsert_stable {a : α} (ha : ∀ b ∈ l, T a b)
    (hl : l.Pairwise fun b c => r b c ∧ (r c b → T b c)) :
    (l.orderedInsert r a).Pairwise fun b c => r b c ∧ (r c b → T b c) := by
  induction l with
  | nil => simp
  | cons b l ih =>
    obtain ⟨hb, hrest⟩ := List.pairwise_cons.mp hl
    obtain ⟨hab, harest⟩ := List.forall_mem_cons.mp ha
    by_cases hle : r a b
    · rw [List.orderedInsert_cons_of_le r l hle]
      refine List.pairwise_cons.mpr ⟨?_, hl⟩
      rintro c hc
      refine ⟨?_, fun _ => ha c hc⟩
      rcases List.mem_cons.mp hc with rfl | hc
      · exact hle
      · exact Trans.trans hle (hb c hc).1
    · rw [List.orderedInsert_of_not_le r l hle]
      refine List.pairwise_cons.mpr ⟨?_, ih harest hrest⟩
      intro c hc
      rcases (List.mem_orderedInsert r).mp hc with rfl | hc
      · exact ⟨(Std.Total.total c b).resolve_left hle, fun h => absurd h hle⟩
      · exact hb c hc

/-- Elements that compare equal stay in the order `T` in which they came. -/
theorem pairwise_insertionSort_stable (hl : l.Pairwise T) :
    (l.insertionSort r).Pairwise fun b c => r b c ∧ (r c b → T b c) := by
  induction l with
  | nil => simp
  | cons a l ih =>
    obtain ⟨ha, hrest⟩ := List.pairwise_cons.mp hl
    refine pairwise_orderedInsert_stable ?_ (ih hrest)
    intro b hb
    exact ha b ((List.mem_insertionSort r).mp hb)

end Stable

theorem pairwise_idxOf [DecidableEq α] (hl : l.Nodup) :
    l.Pairwise fun a b => l.idxOf a < l.idxOf b := by
  rw [List.pairwise_iff_getElem]
  intro i j hi hj hlt
  rwa [hl.idxOf_getElem, hl.idxOf_getElem]

theorem pairwise_iff_of_pairwise {R S : α → α → Prop}
    (hasymm : ∀ a b, R a b → ¬ R b a) (hl : l.Pairwise R) :
    l.Pairwise S ↔ ∀ a ∈ l, ∀ b ∈ l, R a b → S a b := by
  constructor
  · intro hs
    -- either way round, so that the list's order does not matter
    have hboth : l.Pairwise fun a b => (R a b → S a b) ∧ (R b a → S b a) :=
      (hl.and hs).imp fun ⟨hr, hs⟩ => ⟨fun _ => hs, fun h => absurd h (hasymm _ _ hr)⟩
    have : Std.Symm fun a b => (R a b → S a b) ∧ (R b a → S b a) := ⟨fun _ _ h => h.symm⟩
    have hself : ∀ a ∈ l, (R a a → S a a) ∧ (R a a → S a a) := fun a _ =>
      ⟨fun h => absurd h (hasymm a a h), fun h => absurd h (hasymm a a h)⟩
    exact fun a ha b hb => (hboth.forall_of_forall hself ha hb).1
  · intro himp
    exact hl.imp_of_mem fun ha hb hr => himp _ ha _ hb hr

end Qperf.Foundation
