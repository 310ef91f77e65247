import Mathlib.Algebra.Order.BigOperators.Group.List
import Mathlib.Tactic.Ring

/-!
# Systems of numbered components

The components of a system are the elements of a list, and a step replaces one of them
or adds one.  What holds of every component, or between any two of them, and the sum of
some quantity over them, is followed through such a step.
-/

namespace Qperf.Foundation

universe u

variable {α : Type u} {l : List α} {i : Nat} {a b : α}

theorem forall_getElem?_set {P : Nat → α → Prop}
    (hl : ∀ j x, l[j]? = some x → P j x) (hb : P i b) :
    ∀ j x, (l.set i b)[j]? = some x → P j x := by
  intro j x hx
  rw [List.getElem?_set] at hx
  split at hx
  · next heq =>
    subst heq
    split at hx
    · cases hx
      exact hb
    · cases hx
  · exact hl j x hx

theorem forall_getElem?_append {P : Nat → α → Prop}
    (hl : ∀ j x, l[j]? = some x → P j x) (hb : P l.length b) :
    ∀ j x, (l ++ [b])[j]? = some x → P j x := by
  intro j x hx
  rcases Nat.lt_trichotomy j l.length with hlt | rfl | hgt
  · rw [List.getElem?_append_left hlt] at hx
    exact hl j x hx
  · rw [List.getElem?_append_right le_rfl, Nat.sub_self] at hx
    cases hx
    exact hb
  · rw [List.getElem?_eq_none (by rw [List.length_append]; exact hgt)] at hx
    cases hx

theorem pairwise_forall_cons {R : α → α → Prop} {P : α → Prop} :
    ((a :: l).Pairwise R ∧ ∀ b ∈ a :: l, P b) ↔
      P a ∧ (∀ b ∈ l, R a b) ∧ l.Pairwise R ∧ ∀ b ∈ l, P b := by
  rw [List.pairwise_cons, List.forall_mem_cons]
  tauto

theorem exists_getElem?_set {R : α → α → Prop} (hrefl : ∀ x, R x x)
    (h : l[i]? = some a) (hab : R a b) {j : Nat} {x : α} (hx : l[j]? = some x) :
    ∃ y, (l.set i b)[j]? = some y ∧ R x y := by
  by_cases hij : i = j
  · subst hij
    rw [h] at hx
    cases hx
    exact ⟨b, List.getElem?_set_self (List.getElem?_eq_some_iff.mp h).1, hab⟩
  · exact ⟨x, by rw [List.getElem?_set_ne hij, hx], hrefl x⟩

theorem sum_map_set (f : α → Nat) (h : l[i]? = some a) :
    ((l.set i b).map f).sum + f a = (l.map f).sum + f b := by
  induction l generalizing i with
  | nil => cases h
  | cons c l ih =>
    cases i with
    | zero =>
      cases h
      simp only [List.set_cons_zero, List.map_cons, List.sum_cons]
      ring
    | succ i =>
      have hrest : l[i]? = some a := h
      have hsum := ih hrest
      simp only [List.set_cons_succ, List.map_cons, List.sum_cons]
      omega

theorem sum_map_add_le {f g : α → Nat} (h : l[i]? = some a)
    (hle : ∀ x ∈ l, f x ≤ g x) : (l.map f).sum + g a ≤ (l.map g).sum + f a := by
  induction l generalizing i with
  | nil => cases h
  | cons c l ih =>
    have hc := hle c (List.mem_cons_self ..)
    have hl : ∀ x ∈ l, f x ≤ g x := fun x hx => hle x (List.mem_cons_of_mem _ hx)
    simp only [List.map_cons, List.sum_cons]
    cases i with
    | zero =>
      cases h
      have hsum : (l.map f).sum ≤ (l.map g).sum := List.sum_le_sum hl
      omega
    | succ i =>
      have hsum := ih h hl
      omega

end Qperf.Foundation
