import Mathlib.Order.WellFounded
import Mathlib.Tactic.Ring

/-!
# Loops of fallible bodies

Rules for `for` loops (`List.foldlM`) and `while` loops whose bodies may raise
an exception.  `whilePrefix done body k` is the state at the loop head after at
most `k` iterations, so a statement about every `k` is a statement about every
prefix of a run.
-/

namespace Qperf.Foundation

universe u v

variable {ε : Type u} {α β σ : Type v}

theorem bind_eq_ok {x : Except ε α} {f : α → Except ε β} {b : β} :
    (x >>= f) = .ok b ↔ ∃ a, x = .ok a ∧ f a = .ok b := by
  cases x with
  | error e => simp [bind, Except.bind]
  | ok a => simp [bind, Except.bind]

theorem bind_ne_error {x : Except ε α} {f : α → Except ε β} {e : ε}
    (hx : x ≠ .error e) (hf : ∀ a, x = .ok a → f a ≠ .error e) :
    (x >>= f) ≠ .error e := by
  cases x with
  | error e' =>
    intro h
    cases h
    exact hx rfl
  | ok a => exact hf a rfl

@[simp] theorem ok_bind (a : α) (f : α → Except ε β) :
    (Except.ok a >>= f) = f a := rfl

@[simp] theorem error_bind (e : ε) (f : α → Except ε β) :
    (Except.error e >>= f) = .error e := rfl

/--
The computation ends with a value that satisfies `Q` or with an error that is
accepted.
-/
def Ends (accepted : ε → Prop) (x : Except ε α) (Q : α → Prop) : Prop :=
  match x with
  | .ok a => Q a
  | .error e => accepted e

section Ends

variable {accepted : ε → Prop} {x : Except ε α} {P Q : α → Prop}

@[simp] theorem ends_ok {a : α} : Ends accepted (.ok a) Q ↔ Q a := Iff.rfl

@[simp] theorem ends_error {e : ε} :
    Ends accepted (.error e : Except ε α) Q ↔ accepted e := Iff.rfl

theorem Ends.mono (h : Ends accepted x P) (hPQ : ∀ a, P a → Q a) :
    Ends accepted x Q := by
  cases x with
  | error e => exact h
  | ok a => exact hPQ a h

theorem Ends.bind {f : α → Except ε β} {R : β → Prop} (h : Ends accepted x P)
    (hf : ∀ a, x = .ok a → P a → Ends accepted (f a) R) : Ends accepted (x >>= f) R := by
  cases x with
  | error e => exact h
  | ok a => exact hf a rfl h

theorem Ends.of_eq (h : Ends accepted x P) (hQ : ∀ a, x = .ok a → Q a) :
    Ends accepted x Q := by
  cases x with
  | error e => exact h
  | ok a => exact hQ a rfl

theorem Ends.of_ok (h : Ends accepted x Q) {a : α} (hx : x = .ok a) : Q a := by
  rw [hx] at h
  exact h

theorem Ends.of_error (h : Ends accepted x Q) {e : ε} (hx : x = .error e) : accepted e := by
  rw [hx] at h
  exact h

end Ends

theorem map_eq_ok {x : Except ε α} {f : α → β} {b : β}
    (h : x.map f = .ok b) : ∃ a, x = .ok a ∧ f a = b := by
  cases x with
  | error e => cases h
  | ok a =>
    cases h
    exact ⟨a, rfl, rfl⟩

theorem mem_mapM_ok {f : α → Except ε β} {l : List α} {r : List β}
    (h : l.mapM f = .ok r) (b : β) : b ∈ r ↔ ∃ a ∈ l, f a = .ok b := by
  induction l generalizing r with
  | nil =>
    cases h
    simp
  | cons a l ih =>
    rw [List.mapM_cons] at h
    obtain ⟨c, hc, h⟩ := bind_eq_ok.mp h
    obtain ⟨rest, hrest, h⟩ := bind_eq_ok.mp h
    cases h
    rw [List.mem_cons, ih hrest]
    simp [hc, eq_comm]

theorem mapM_eq_ok_map {f : α → Except ε β} {g : α → β} {l : List α}
    (h : ∀ a ∈ l, f a = .ok (g a)) : l.mapM f = .ok (l.map g) := by
  induction l with
  | nil => rfl
  | cons a l ih =>
    obtain ⟨ha, hl⟩ := List.forall_mem_cons.mp h
    rw [List.mapM_cons, ha, ok_bind, ih hl]
    rfl

theorem mapM_ofFn_ok {n : Nat} {f : α → Except ε β} {a : Fin n → α} {b : Fin n → β}
    (h : ∀ i, f (a i) = .ok (b i)) : (List.ofFn a).mapM f = .ok (List.ofFn b) := by
  induction n with
  | zero => rfl
  | succ n ih =>
    rw [List.ofFn_succ, List.ofFn_succ, List.mapM_cons, h 0, ok_bind, ih fun i => h i.succ]
    rfl

theorem mapM_ne_error {f : α → Except ε β} {l : List α} {e : ε}
    (h : ∀ a, f a ≠ .error e) : l.mapM f ≠ .error e := by
  induction l with
  | nil =>
    intro hcontra
    cases hcontra
  | cons a l ih =>
    rw [List.mapM_cons]
    refine bind_ne_error (h a) fun b _ => bind_ne_error ih fun rest _ => ?_
    intro hcontra
    cases hcontra

theorem mapM_ok_flatten {f : α → Except ε (List β)} {size : α → Nat} {l : List α}
    (h : ∀ a ∈ l, ∃ r, f a = .ok r ∧ r.length = size a) :
    ∃ rs, l.mapM f = .ok rs ∧ rs.flatten.length = (l.map size).sum := by
  induction l with
  | nil => exact ⟨[], rfl, rfl⟩
  | cons a l ih =>
    obtain ⟨⟨r, hr, hlength⟩, hl⟩ := List.forall_mem_cons.mp h
    obtain ⟨rs, hrs, hsum⟩ := ih hl
    refine ⟨r :: rs, ?_, ?_⟩
    · rw [List.mapM_cons, hr, ok_bind, hrs]
      rfl
    · rw [List.flatten_cons, List.length_append, hlength, hsum, List.map_cons,
        List.sum_cons]

/-! ## Bounded loops -/

section Fold

variable {f : σ → α → Except ε σ}

/-- `P done s` holds when the elements `done` have been processed. -/
theorem foldlM_ok_induct (P : List α → σ → Prop) {l : List α} {s t : σ}
    (hstep : ∀ before x after s t, l = before ++ x :: after →
      P before s → f s x = .ok t → P (before ++ [x]) t)
    (hs : P [] s) (hrun : l.foldlM f s = .ok t) : P l t := by
  suffices h : ∀ (rest processed : List α) (s t : σ), l = processed ++ rest →
      P processed s → rest.foldlM f s = .ok t → P l t from
    h l [] s t rfl hs hrun
  intro rest
  induction rest with
  | nil =>
    intro processed s t hl hP hrest
    cases hrest
    simpa [hl] using hP
  | cons x rest ih =>
    intro processed s t hl hP hrest
    obtain ⟨next, hnext, hrest⟩ := bind_eq_ok.mp hrest
    exact ih (processed ++ [x]) next t (by simp [hl])
      (hstep processed x rest s next hl hP hnext) hrest

theorem foldlM_total_induct (P : List α → σ → Prop) {l : List α} {s : σ}
    (hstep : ∀ before x after s, l = before ++ x :: after → P before s →
      ∃ t, f s x = .ok t ∧ P (before ++ [x]) t) (hs : P [] s) :
    ∃ t, l.foldlM f s = .ok t ∧ P l t := by
  suffices h : ∀ (rest processed : List α) (s : σ), l = processed ++ rest →
      P processed s → ∃ t, rest.foldlM f s = .ok t ∧ P l t from
    h l [] s rfl hs
  intro rest
  induction rest with
  | nil =>
    intro processed s hl hP
    exact ⟨s, rfl, by simpa [hl] using hP⟩
  | cons x rest ih =>
    intro processed s hl hP
    obtain ⟨next, hnext, hP⟩ := hstep processed x rest s hl hP
    obtain ⟨t, ht, hPt⟩ := ih (processed ++ [x]) next (by simp [hl]) hP
    exact ⟨t, by rw [List.foldlM_cons, hnext, ok_bind, ht], hPt⟩

theorem foldlM_ok_of_total (P : σ → Prop) {l : List α} {s : σ}
    (hstep : ∀ s, ∀ x ∈ l, P s → ∃ t, f s x = .ok t ∧ P t) (hs : P s) :
    ∃ t, l.foldlM f s = .ok t := by
  obtain ⟨t, ht, -⟩ := foldlM_total_induct (f := f) (l := l) (fun _ s => P s)
    (fun before x after s hl => hstep s x (hl ▸ by simp)) hs
  exact ⟨t, ht⟩

end Fold

/-! ## Unbounded loops -/

def whilePrefix (done : σ → Bool) (body : σ → Except ε σ) : Nat → σ → Except ε σ
  | 0, s => .ok s
  | k + 1, s =>
    if done s then .ok s
    else body s >>= whilePrefix done body k

section While

variable {done : σ → Bool} {body : σ → Except ε σ}

@[simp] theorem whilePrefix_zero (s : σ) :
    whilePrefix done body 0 s = .ok s := rfl

theorem whilePrefix_succ (k : Nat) (s : σ) : whilePrefix done body (k + 1) s =
      whilePrefix done body k s >>= fun t =>
        if done t then .ok t else body t := by
  induction k generalizing s with
  | zero =>
    simp only [whilePrefix]
    rw [ok_bind]
    split
    · rfl
    · cases body s <;> rfl
  | succ k ih =>
    rw [whilePrefix]
    conv_rhs => rw [whilePrefix]
    split
    · rename_i hdone
      simp [hdone]
    · cases hbody : body s with
      | error e => rfl
      | ok t => simpa using ih t

theorem whilePrefix_succ_cases {k : Nat} {s u : σ}
    (hrun : whilePrefix done body (k + 1) s = .ok u) :
    ∃ t, whilePrefix done body k s = .ok t ∧
      (done t = true ∧ u = t ∨ done t = false ∧ body t = .ok u) := by
  rw [whilePrefix_succ] at hrun
  obtain ⟨t, ht, hlast⟩ := bind_eq_ok.mp hrun
  refine ⟨t, ht, ?_⟩
  cases hdone : done t with
  | true =>
    simp only [hdone, if_true, Except.ok.injEq] at hlast
    exact Or.inl ⟨rfl, hlast.symm⟩
  | false =>
    simp only [hdone, Bool.false_eq_true, if_false] at hlast
    exact Or.inr ⟨rfl, hlast⟩

theorem whilePrefix_of_done {k : Nat} {s t : σ} (hrun : whilePrefix done body k s = .ok t)
    (hdone : done t = true) (more : Nat) : whilePrefix done body (k + more) s = .ok t := by
  induction more with
  | zero => exact hrun
  | succ more ih =>
    rw [← Nat.add_assoc, whilePrefix_succ, ih, ok_bind, if_pos hdone]

theorem whilePrefix_induct (P : σ → Prop)
    (hstep : ∀ s t, P s → done s = false → body s = .ok t → P t) {k : Nat} {s t : σ} (hs : P s)
    (hrun : whilePrefix done body k s = .ok t) : P t := by
  induction k generalizing t with
  | zero =>
    cases hrun
    exact hs
  | succ k ih =>
    obtain ⟨u, hu, hlast⟩ := whilePrefix_succ_cases hrun
    rcases hlast with ⟨-, rfl⟩ | ⟨hdone, hbody⟩
    · exact ih hu
    · exact hstep u t (ih hu) hdone hbody

theorem whilePrefix_terminates (P : σ → Prop) {r : σ → σ → Prop} (hwf : WellFounded r)
    (hstep : ∀ s, P s → done s = false → ∃ t, body s = .ok t ∧ P t ∧ r t s) {s : σ} (hs : P s) :
    ∃ k t, whilePrefix done body k s = .ok t ∧ done t = true ∧ P t := by
  induction s using hwf.induction with
  | _ s ih =>
    cases hdone : done s with
    | true => exact ⟨0, s, rfl, hdone, hs⟩
    | false =>
      obtain ⟨t, hbody, hP, hr⟩ := hstep s hs hdone
      obtain ⟨k, u, hrun, hfinal, hu⟩ := ih t hr hP
      refine ⟨k + 1, u, ?_, hfinal, hu⟩
      rw [whilePrefix, hdone, hbody]
      simpa using hrun

end While

end Qperf.Foundation
