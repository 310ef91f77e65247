import Mathlib.Data.Set.Basic
import Mathlib.Order.Interval.Set.Basic
import Mathlib.Logic.Function.Basic

/-!
# Reading a set of known positions block by block

A partial map gives the length of the block that starts at a position.  Blocks may
overlap, and some of them may never be read.  `Tiles` says that whoever starts at
the read position, or at the first position of a run of known positions, and walks
from block to block, stops exactly at the next unknown position.
-/

namespace Qperf.Foundation

/-- Walking from block to block leads from `p` to `e`. -/
inductive Walk (blocks : Nat → Option Nat) : Nat → Nat → Prop where
  | done (p : Nat) : Walk blocks p p
  | next {p n e : Nat} (hp : blocks p = some n)
      (rest : Walk blocks (p + n) e) : Walk blocks p e

/-- The position is not strictly inside a run of known positions. -/
def Boundary (known : Set Nat) (x : Nat) : Prop :=
  x ∈ known → ∃ y, y + 1 = x ∧ y ∉ known

def Entry (known : Set Nat) (pos p : Nat) : Prop :=
  p = pos ∨ p ∈ known ∧ ∃ y, y + 1 = p ∧ y ∉ known

structure Tiles (known : Set Nat) (blocks : Nat → Option Nat) (pos : Nat) : Prop where
  positive : ∀ p n, blocks p = some n → 0 < n
  inside : ∀ p n, blocks p = some n → ∀ x, p ≤ x → x < p + n → x ∈ known
  below : ∀ x < pos, x ∈ known
  walk : ∀ p, Entry known pos p → ∃ e, e ∉ known ∧ Walk blocks p e

variable {known : Set Nat} {blocks blocks' : Nat → Option Nat}
variable {pos p e a b : Nat}

namespace Walk

theorem le (h : Walk blocks p e) : p ≤ e := by
  induction h with
  | done => exact Nat.le_refl _
  | next _ _ ih => omega

theorem trans {q : Nat} (first : Walk blocks p q) (rest : Walk blocks q e) :
    Walk blocks p e := by
  induction first with
  | done => exact rest
  | next hp _ ih => exact .next hp (ih rest)

theorem congr (hpos : ∀ p n, blocks p = some n → 0 < n) (h : Walk blocks p e)
    (hsame : ∀ x, p ≤ x → x < e → blocks' x = blocks x) :
    Walk blocks' p e := by
  induction h with
  | done => exact .done _
  | @next p n e hp rest ih =>
    have hn := hpos p n hp
    have hle := rest.le
    refine .next ((hsame p (Nat.le_refl _) (by omega)).trans hp) (ih ?_)
    exact fun x hx => hsame x (by omega)

end Walk

namespace Tiles

theorem empty : Tiles ∅ (fun _ => none) 0 where
  positive := fun _ _ h => nomatch h
  inside := fun _ _ h => nomatch h
  below := fun _ h => absurd h (Nat.not_lt_zero _)
  walk := by
    rintro p (rfl | ⟨hp, -⟩)
    · exact ⟨0, id, .done 0⟩
    · exact absurd hp id

theorem mem_of_walk (h : Tiles known blocks pos) (hwalk : Walk blocks p e) :
    ∀ x, p ≤ x → x < e → x ∈ known := by
  induction hwalk with
  | done => exact fun x hx hx' => absurd hx' (Nat.not_lt.mpr hx)
  | @next p n e hp _ ih =>
    intro x hx hx'
    by_cases hin : x < p + n
    · exact h.inside p n hp x hx hin
    · exact ih x (Nat.le_of_not_lt hin) hx'

theorem exists_block (h : Tiles known blocks pos) (x y : Nat) (hx : x ∈ known)
    (hy : y + 1 = x) (hunknown : y ∉ known) : ∃ n, blocks x = some n := by
  obtain ⟨e, he, hwalk⟩ := h.walk x (.inr ⟨hx, y, hy, hunknown⟩)
  cases hwalk with
  | done => exact absurd hx he
  | next hp => exact ⟨_, hp⟩

theorem notMem_of_blocks_eq_none (h : Tiles known blocks pos)
    (hnone : blocks pos = none) : pos ∉ known := by
  obtain ⟨e, he, hwalk⟩ := h.walk pos (.inl rfl)
  cases hwalk with
  | done => exact he
  | next hp =>
    rw [hnone] at hp
    cases hp

theorem le_of_blocks_eq_none (h : Tiles known blocks pos)
    (hnone : blocks pos = none) {m : Nat} (hm : ∀ x < m, x ∈ known) :
    m ≤ pos := by
  apply Nat.le_of_not_lt
  intro hlt
  exact h.notMem_of_blocks_eq_none hnone (hm pos hlt)

theorem advance (h : Tiles known blocks pos) {n : Nat} (hn : blocks pos = some n) :
    Tiles known (Function.update blocks pos none) (pos + n) := by
  have hpositive := h.positive pos n hn
  have hsome : ∀ p m, Function.update blocks pos none p = some m → blocks p = some m := by
    intro p m hp
    by_cases hpos : p = pos
    · subst hpos
      rw [Function.update_self] at hp
      cases hp
    · rwa [Function.update_of_ne hpos] at hp
  -- Walks that start behind the block do not see that it is gone.
  have hkeep : ∀ p e, pos < p → Walk blocks p e → Walk (Function.update blocks pos none) p e := by
    intro p e hp hwalk
    refine hwalk.congr h.positive fun x hx _ => ?_
    exact Function.update_of_ne (by omega) ..
  refine ⟨fun p m hp => h.positive p m (hsome p m hp),
    fun p m hp => h.inside p m (hsome p m hp), ?_, ?_⟩
  · intro x hx
    by_cases hlt : x < pos
    · exact h.below x hlt
    · exact h.inside pos n hn x (Nat.le_of_not_lt hlt) hx
  · rintro p (rfl | ⟨hp, y, hy, hunknown⟩)
    · obtain ⟨e, he, hwalk⟩ := h.walk pos (.inl rfl)
      cases hwalk with
      | done => exact absurd (h.inside pos n hn pos (Nat.le_refl _) (by omega)) he
      | next hp rest =>
        rw [hn] at hp
        cases hp
        exact ⟨e, he, hkeep _ e (by omega) rest⟩
    · obtain ⟨e, he, hwalk⟩ := h.walk p (.inr ⟨hp, y, hy, hunknown⟩)
      have hy' : ¬ y < pos := fun hlt => hunknown (h.below y hlt)
      exact ⟨e, he, hkeep p e (by omega) hwalk⟩

section Fill

variable (hab : a < b) (ha : Boundary known a) (hb : Boundary known b)
variable (hnew : blocks' a = some (b - a))
variable (hout : ∀ x, x < a ∨ b ≤ x → blocks' x = blocks x)
variable (hin : ∀ x, a < x → x < b → blocks' x = blocks x ∨ blocks' x = none)

include hb hout in
theorem walk_end (h : Tiles known blocks pos) :
    ∃ e, e ∉ known ∪ Set.Ico a b ∧ Walk blocks' b e := by
  by_cases hknown : b ∈ known
  · obtain ⟨e, he, hwalk⟩ := h.walk b (.inr ⟨hknown, hb hknown⟩)
    have hle := hwalk.le
    refine ⟨e, ?_, hwalk.congr h.positive fun x hx _ => hout x (.inr hx)⟩
    rintro (hmem | ⟨-, hlt⟩)
    · exact he hmem
    · omega
  · refine ⟨b, ?_, .done b⟩
    rintro (hmem | ⟨-, hlt⟩)
    · exact hknown hmem
    · omega

include hab hb hnew hout in
theorem walk_new (h : Tiles known blocks pos) :
    ∃ e, e ∉ known ∪ Set.Ico a b ∧ Walk blocks' a e := by
  obtain ⟨e, he, hwalk⟩ := h.walk_end hb hout
  refine ⟨e, he, .next hnew ?_⟩
  rwa [Nat.add_sub_cancel' (Nat.le_of_lt hab)]

include ha in
theorem walk_le (h : Tiles known blocks pos) (hp : p < a)
    (hwalk : Walk blocks p e) : e ≤ a := by
  apply Nat.le_of_not_lt
  intro hlt
  obtain ⟨y, hy, hunknown⟩ := ha (h.mem_of_walk hwalk a (Nat.le_of_lt hp) hlt)
  exact hunknown (h.mem_of_walk hwalk y (by omega) (by omega))

include hab ha hb hnew hout hin in
theorem fill (h : Tiles known blocks pos) :
    Tiles (known ∪ Set.Ico a b) blocks' pos := by
  have hcases : ∀ p n, blocks' p = some n → p = a ∧ n = b - a ∨ blocks p = some n := by
    intro p n hp
    by_cases hpa : p = a
    · subst hpa
      rw [hnew] at hp
      cases hp
      exact .inl ⟨rfl, rfl⟩
    · right
      by_cases hinside : a < p ∧ p < b
      · rcases hin p hinside.1 hinside.2 with hsame | hnone
        · exact hsame ▸ hp
        · rw [hnone] at hp
          cases hp
      · exact (hout p (by omega)).symm.trans hp
  refine ⟨?_, ?_, fun x hx => .inl (h.below x hx), ?_⟩
  · intro p n hp
    rcases hcases p n hp with ⟨-, rfl⟩ | hold
    · omega
    · exact h.positive p n hold
  · intro p n hp x hx hx'
    rcases hcases p n hp with ⟨rfl, rfl⟩ | hold
    · exact .inr ⟨hx, by omega⟩
    · exact .inl (h.inside p n hold x hx hx')
  · intro p hp
    by_cases hpa : p = a
    · subst hpa
      exact h.walk_new hab hb hnew hout
    -- No other entry lies in the new block, because its positions are known now.
    have hentry : Entry known pos p ∧ (p < a ∨ b ≤ p) := by
      rcases hp with rfl | ⟨hknown, y, hy, hunknown⟩
      · refine ⟨.inl rfl, ?_⟩
        by_contra hinside
        by_cases haknown : a ∈ known
        · obtain ⟨y, hy, hunknown⟩ := ha haknown
          exact hunknown (h.below y (by omega))
        · exact haknown (h.below a (by omega))
      · have hy' : ¬ (a ≤ y ∧ y < b) := fun hmem => hunknown (.inr hmem)
        refine ⟨.inr ⟨?_, y, hy, fun hmem => hunknown (.inl hmem)⟩, by omega⟩
        rcases hknown with hknown | ⟨hle, hlt⟩
        · exact hknown
        · omega
    obtain ⟨e, he, hwalk⟩ := h.walk p hentry.1
    have hle := hwalk.le
    rcases hentry.2 with hlt | hge
    · have hea := h.walk_le ha hlt hwalk
      have hkeep : Walk blocks' p e := hwalk.congr h.positive
        fun x _ hx => hout x (.inl (by omega))
      by_cases hend : e = a
      · subst hend
        obtain ⟨e', he', hwalk'⟩ := h.walk_new hab hb hnew hout
        exact ⟨e', he', hkeep.trans hwalk'⟩
      · refine ⟨e, ?_, hkeep⟩
        rintro (hmem | ⟨hae, -⟩)
        · exact he hmem
        · omega
    · refine ⟨e, ?_, hwalk.congr h.positive fun x hx _ => hout x (.inr ?_)⟩
      · rintro (hmem | ⟨-, hlt⟩)
        · exact he hmem
        · omega
      · omega

end Fill

theorem stretch (h : Tiles known blocks pos) (hab : a < b)
    (hknown : ∀ x, a ≤ x → x < b → x ∈ known) (hb : ∃ e, e ∉ known ∧ Walk blocks b e) :
    Tiles known (Function.update blocks a (some (b - a))) pos := by
  have hcases : ∀ p n, Function.update blocks a (some (b - a)) p = some n →
      p = a ∧ n = b - a ∨ blocks p = some n := by
    intro p n hp
    by_cases hpa : p = a
    · subst hpa
      rw [Function.update_self] at hp
      cases hp
      exact .inl ⟨rfl, rfl⟩
    · rw [Function.update_of_ne hpa] at hp
      exact .inr hp
  -- A walk that comes through `a` goes on behind the new block.
  have hwalks : ∀ p e, e ∉ known → Walk blocks p e → ∃ e', e' ∉ known ∧
      Walk (Function.update blocks a (some (b - a))) p e' := by
    intro p e he hwalk
    induction hwalk with
    | done p => exact ⟨p, he, .done p⟩
    | @next p n e hp _ ih =>
      by_cases hpa : p = a
      · subst hpa
        obtain ⟨e', he', hrest⟩ := hb
        refine ⟨e', he', .next (Function.update_self ..) ?_⟩
        rw [Nat.add_sub_cancel' (Nat.le_of_lt hab)]
        exact hrest.congr h.positive fun x hx _ => Function.update_of_ne (by omega) ..
      · obtain ⟨e', he', hrest⟩ := ih he
        exact ⟨e', he', .next ((Function.update_of_ne hpa ..).trans hp) hrest⟩
  refine ⟨?_, ?_, h.below, ?_⟩
  · intro p n hp
    rcases hcases p n hp with ⟨-, rfl⟩ | hold
    · omega
    · exact h.positive p n hold
  · intro p n hp x hx hx'
    rcases hcases p n hp with ⟨rfl, rfl⟩ | hold
    · exact hknown x hx (by omega)
    · exact h.inside p n hold x hx hx'
  · intro p hp
    obtain ⟨e, he, hwalk⟩ := h.walk p hp
    exact hwalks p e he hwalk

end Tiles

end Qperf.Foundation
