import Mathlib.Data.List.Count
import Mathlib.Order.Interval.Finset.Nat

/-!
# Segments of a sequence

A sequence is cut into segments, which are stored in any order.  `Segments whole
ended l` says that `l` holds every position of `whole` once and that, if the
sequence has ended, one segment marks its end.
-/

namespace Qperf.Foundation

universe u

structure Segment (α : Type u) where
  offset : Nat
  data : List α
  final : Bool
  deriving DecidableEq

namespace Segment

variable {α : Type u}

def stop (s : Segment α) : Nat := s.offset + s.data.length

def range (s : Segment α) : Finset Nat := Finset.Ico s.offset s.stop

theorem mem_range {s : Segment α} {x : Nat} :
    x ∈ s.range ↔ s.offset ≤ x ∧ x < s.offset + s.data.length :=
  Finset.mem_Ico

def first (s : Segment α) (n : Nat) : Segment α where
  offset := s.offset
  data := s.data.take n
  final := false

def rest (s : Segment α) (n : Nat) : Segment α where
  offset := s.offset + n
  data := s.data.drop n
  final := s.final

theorem first_add_rest {s : Segment α} {n : Nat} (hn : n ≤ s.data.length) (x : Nat) :
    ((if x ∈ (s.first n).range then 1 else 0) +
      if x ∈ (s.rest n).range then 1 else 0) = if x ∈ s.range then 1 else 0 := by
  simp only [mem_range, first, rest, List.length_take, List.length_drop]
  split_ifs <;> omega

theorem stop_rest {s : Segment α} {n : Nat} (hn : n ≤ s.data.length) :
    (s.rest n).stop = s.stop := by
  simp only [stop, rest, List.length_drop]
  omega

end Segment

structure Segments {α : Type u} (whole : List α) (ended : Bool)
    (l : List (Segment α)) : Prop where
  once : ∀ x, l.countP (fun s => decide (x ∈ s.range)) =
    if x < whole.length then 1 else 0
  data : ∀ s ∈ l, s.data = (whole.drop s.offset).take s.data.length
  final : ∀ s ∈ l, s.final = true → s.stop = whole.length
  ends : l.countP (fun s => s.final) = ended.toNat

namespace Segments

variable {α : Type u} {whole : List α} {ended : Bool} {s : Segment α}
variable {l l' : List (Segment α)}

theorem empty : Segments ([] : List α) false [] where
  once := fun x => by simp
  data := fun s hs => by cases hs
  final := fun s hs => by cases hs
  ends := rfl

theorem perm (h : Segments whole ended l) (hperm : l.Perm l') :
    Segments whole ended l' where
  once := fun x => (hperm.countP_eq _).symm.trans (h.once x)
  data := fun s hs => h.data s (hperm.mem_iff.mpr hs)
  final := fun s hs => h.final s (hperm.mem_iff.mpr hs)
  ends := (hperm.countP_eq _).symm.trans h.ends

theorem cut (h : Segments whole ended (s :: l)) {n : Nat} (hn : n ≤ s.data.length) :
    Segments whole ended (s.first n :: s.rest n :: l) where
  once := fun x => by
    have honce := h.once x
    have hsum := s.first_add_rest hn x
    simp only [List.countP_cons, decide_eq_true_eq] at honce ⊢
    omega
  data := by
    have hdata := h.data s List.mem_cons_self
    rintro t (_ | ⟨_, _ | ⟨_, ht⟩⟩)
    · change s.data.take n = (whole.drop s.offset).take (s.data.take n).length
      rw [List.length_take, Nat.min_eq_left hn, hdata, List.take_take, Nat.min_eq_left hn]
    · change s.data.drop n = (whole.drop (s.offset + n)).take (s.data.drop n).length
      rw [List.length_drop, ← List.drop_drop, ← List.drop_take, ← hdata]
    · exact h.data t (List.mem_cons_of_mem _ ht)
  final := by
    rintro t (_ | ⟨_, _ | ⟨_, ht⟩⟩) hfinal
    · cases hfinal
    · rw [Segment.stop_rest hn]
      exact h.final s List.mem_cons_self hfinal
    · exact h.final t (List.mem_cons_of_mem _ ht) hfinal
  ends := by
    have hends := h.ends
    exact hends

theorem extend (h : Segments whole false l) (data : List α) (final : Bool) :
    Segments (whole ++ data) final (⟨whole.length, data, final⟩ :: l) where
  once := fun x => by
    have honce := h.once x
    simp only [List.countP_cons, decide_eq_true_eq, Segment.mem_range,
      List.length_append] at honce ⊢
    rw [honce]
    split_ifs <;> omega
  data := by
    rintro t (_ | ⟨_, ht⟩)
    · simp
    · have hdata := h.data t ht
      have hlength := congrArg List.length hdata
      rw [List.length_take] at hlength
      rw [List.drop_append, List.take_append_of_le_length (by omega)]
      exact hdata
  final := by
    rintro t (_ | ⟨_, ht⟩) hfinal
    · simp [Segment.stop]
    · have hzero := List.countP_eq_zero.mp h.ends t ht
      exact absurd hfinal hzero
  ends := by
    rw [List.countP_cons, h.ends]
    cases final <;> rfl

theorem mem_range_iff (h : Segments whole ended l) {x : Nat} :
    (∃ s ∈ l, x ∈ s.range) ↔ x < whole.length := by
  have hpos : 0 < l.countP (fun s => decide (x ∈ s.range)) ↔ x < whole.length := by
    rw [h.once x]
    split <;> simp [*]
  rw [← hpos, List.countP_pos_iff]
  simp only [decide_eq_true_eq]

theorem pairwise_disjoint (h : Segments whole ended l) :
    l.Pairwise fun s t => Disjoint s.range t.range := by
  have hle : ∀ x, l.countP (fun s => decide (x ∈ s.range)) ≤ 1 := by
    intro x
    rw [h.once x]
    split <;> decide
  clear h
  induction l with
  | nil => exact .nil
  | cons s l ih =>
    refine .cons ?_ (ih fun x => ?_)
    · intro t ht
      rw [Finset.disjoint_left]
      intro x hs hx
      have htwice := hle x
      have hpos : 0 < l.countP (fun s => decide (x ∈ s.range)) :=
        List.countP_pos_iff.mpr ⟨t, ht, decide_eq_true hx⟩
      rw [List.countP_cons, if_pos (decide_eq_true hs)] at htwice
      omega
    · exact ((List.sublist_cons_self s l).countP_le).trans (hle x)

theorem filter_final (h : Segments whole true l) :
    ∃ s, l.filter (fun s => s.final) = [s] ∧ s.stop = whole.length := by
  have hlength : (l.filter fun s => s.final).length = 1 :=
    List.countP_eq_length_filter.symm.trans h.ends
  obtain ⟨s, hs⟩ := List.length_eq_one_iff.mp hlength
  have hmem : s ∈ l.filter fun s => s.final := by simp [hs]
  rw [List.mem_filter] at hmem
  exact ⟨s, hs, h.final s hmem.1 hmem.2⟩

end Segments

end Qperf.Foundation
