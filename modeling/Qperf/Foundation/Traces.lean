import Qperf.Foundation.Loops

/-!
# Labelled traces

`Trace step s events t` says that the system goes from `s` to `t` by the steps
labelled with `events`.  A property of every run is proved by `Trace.invariant`
from what one step preserves.
-/

namespace Qperf.Foundation

universe u v w

variable {σ : Type u} {α : Type v}

inductive Trace (step : σ → α → σ → Prop) (s : σ) : List α → σ → Prop where
  | nil : Trace step s [] s
  | snoc {events : List α} {t t' : σ} {a : α} (first : Trace step s events t)
      (last : step t a t') : Trace step s (events ++ [a]) t'

namespace Trace

variable {step step' : σ → α → σ → Prop} {s t : σ} {events : List α}

theorem invariant (P : σ → Prop) (hs : P s) (hstep : ∀ t a t', P t → step t a t' → P t')
    (h : Trace step s events t) : P t := by
  induction h with
  | nil => exact hs
  | snoc _ last ih => exact hstep _ _ _ ih last

theorem cons {a : α} {u : σ} (first : step s a t)
    (rest : Trace step t events u) : Trace step s (a :: events) u := by
  induction rest with
  | nil => exact snoc .nil first
  | snoc _ last ih => exact snoc ih last

/--
Running a monadic transition function produces a trace.  `returns x a` says that
the computation `x` ends normally with the value `a`.
-/
theorem of_foldlM_returns {m : Type u → Type w} [Monad m]
    {f : σ → α → m σ} (returns : m σ → σ → Prop) (hpure : ∀ a b, returns (pure a) b → a = b)
    (hbind : ∀ x (g : σ → m σ) b, returns (x >>= g) b → ∃ a, returns x a ∧ returns (g a) b)
    (h : returns (events.foldlM f s) t) :
    Trace (fun s a t => returns (f s a) t) s events t := by
  induction events generalizing s with
  | nil =>
    obtain rfl := hpure s t h
    exact .nil
  | cons a events ih =>
    obtain ⟨next, hnext, hrest⟩ := hbind _ _ _ h
    exact (ih hrest).cons hnext

theorem of_foldlM {f : σ → α → Option σ} (h : events.foldlM f s = some t) :
    Trace (fun s a t => f s a = some t) s events t :=
  of_foldlM_returns (fun x a => x = some a) (fun _ _ => Option.some.inj)
    (fun _ _ _ => Option.bind_eq_some_iff.mp) h

theorem of_foldlM_ok {ε : Type u} {f : σ → α → Except ε σ} (h : events.foldlM f s = .ok t) :
    Trace (fun s a t => f s a = .ok t) s events t :=
  of_foldlM_returns (fun x a => x = Except.ok a) (fun _ _ => Except.ok.inj)
    (fun _ _ _ => bind_eq_ok.mp) h

theorem imp (himp : ∀ s a t, step s a t → step' s a t)
    (h : Trace step s events t) : Trace step' s events t := by
  induction h with
  | nil => exact .nil
  | snoc _ last ih => exact .snoc ih (himp _ _ _ last)

theorem of_foldlM_checked {ε : Type u} {f : σ → α → Except ε σ} {P : σ → α → Prop}
    [∀ s a, Decidable (P s a)] {e : ε}
    (h : events.foldlM (fun s a => if P s a then f s a else .error e) s = .ok t) :
    Trace (fun s a t => f s a = .ok t ∧ P s a) s events t := by
  refine (of_foldlM_ok h).imp ?_
  intro s a t hstep
  split at hstep
  · next hP => exact ⟨hstep, hP⟩
  · cases hstep

end Trace

end Qperf.Foundation
