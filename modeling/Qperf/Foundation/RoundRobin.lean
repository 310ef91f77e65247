import Mathlib.Data.List.Basic
import Mathlib.Data.List.Nodup

/-!
# Round robin

Clients wait in a queue.  The first one is served; it then leaves, or it goes to the end of
the queue.  Between two services of a client, everybody who waited behind it is served
once, in the order of the queue, and nobody else is.
-/

namespace Qperf.Foundation

variable {α : Type*}

theorem concat_eq_split {l before after : List α} {last a : α}
    (h : l ++ [last] = before ++ a :: after) :
    after = [] ∧ before = l ∧ a = last ∨
      ∃ after', after = after' ++ [last] ∧ l = before ++ a :: after' := by
  rcases List.eq_nil_or_concat after with rfl | ⟨after, b, rfl⟩
  · obtain ⟨rfl, hlast⟩ := List.append_inj' h rfl
    exact Or.inl ⟨rfl, rfl, (List.head_eq_of_cons_eq hlast).symm⟩
  · have hassoc : l ++ [last] = (before ++ a :: after) ++ [b] := by simpa using h
    obtain ⟨hl, hlast⟩ := List.append_inj' hassoc rfl
    obtain rfl := List.head_eq_of_cons_eq hlast
    exact Or.inr ⟨after, List.concat_eq_append, hl⟩

structure Service (α : Type*) where
  client : α
  waiting : List α
  leaves : Bool

/-- Histories of a round robin queue.  A client that has left does not come back. -/
inductive RoundRobin : List (Service α) → List α → Prop where
  | start : RoundRobin [] []
  | arrive {history : List (Service α)} {queue new : List α}
      (hrun : RoundRobin history queue) (hnodup : (queue ++ new).Nodup)
      (hnew : ∀ service ∈ history, service.client ∉ new) :
      RoundRobin history (queue ++ new)
  | serve {history : List (Service α)} {client : α} {queue : List α}
      (hrun : RoundRobin history (client :: queue)) (leaves : Bool) :
      RoundRobin (history ++ [⟨client, queue, leaves⟩])
        (if leaves then queue else queue ++ [client])

namespace RoundRobin

variable {history : List (Service α)} {queue : List α}

theorem nodup (h : RoundRobin history queue) : queue.Nodup := by
  induction h with
  | start => exact List.nodup_nil
  | arrive _ hnodup _ _ => exact hnodup
  | @serve _ client queue _ leaves ih =>
    cases leaves with
    | true => exact ih.of_cons
    | false => exact (List.perm_append_singleton client queue).nodup_iff.mpr ih

variable {service : Service α}

theorem not_mem_of_leaves (h : RoundRobin history queue)
    (hservice : service ∈ history) (hleaves : service.leaves = true) :
    service.client ∉ queue := by
  induction h with
  | start => cases hservice
  | arrive _ _ hnew ih =>
    rw [List.mem_append, not_or]
    exact ⟨ih hservice, hnew service hservice⟩
  | @serve history client queue hrun leaves ih =>
    rcases List.mem_append.mp hservice with hold | hlast
    · have hnot := ih hold
      rw [List.mem_cons, not_or] at hnot
      cases leaves with
      | true => exact hnot.2
      | false => simpa [not_or] using ⟨hnot.2, hnot.1⟩
    · obtain rfl := List.mem_singleton.mp hlast
      cases hleaves
      exact (List.nodup_cons.mp hrun.nodup).1

theorem waiting_nodup (h : RoundRobin history queue)
    (hservice : service ∈ history) : service.waiting.Nodup := by
  induction h with
  | start => cases hservice
  | arrive _ _ _ ih => exact ih hservice
  | serve hrun _ ih =>
    rcases List.mem_append.mp hservice with hold | hlast
    · exact ih hold
    · obtain rfl := List.mem_singleton.mp hlast
      exact hrun.nodup.of_cons

/-- Until a client is served again, the queue in front of it only gets shorter. -/
theorem waits (h : RoundRobin history queue) {before since : List (Service α)}
    (hsplit : history = before ++ service :: since) (hstays : service.leaves = false)
    (hsince : ∀ later ∈ since, later.client ≠ service.client) :
    ∃ front back, service.waiting = since.map Service.client ++ front ∧
      queue = front ++ service.client :: back := by
  induction h generalizing since with
  | start => simp at hsplit
  | @arrive history queue new _ _ _ ih =>
    obtain ⟨front, back, hwaiting, hqueue⟩ := ih hsplit hsince
    exact ⟨front, back ++ new, hwaiting, by simp [hqueue]⟩
  | @serve history client queue hrun leaves ih =>
    obtain ⟨rfl, rfl, rfl⟩ | ⟨since, rfl, hhistory⟩ := concat_eq_split hsplit
    · cases hstays
      exact ⟨queue, [], by simp, by simp⟩
    · obtain ⟨front, back, hwaiting, hqueue⟩ :=
        ih hhistory fun later hlater => hsince later (by simp [hlater])
      have hother : client ≠ service.client := hsince ⟨client, queue, leaves⟩ (by simp)
      -- the client that is served now stood in front of the one that waits
      cases front with
      | nil =>
        exact absurd (List.head_eq_of_cons_eq hqueue) hother
      | cons first front =>
        obtain ⟨rfl, hrest⟩ := List.cons_eq_cons.mp hqueue
        refine ⟨front, if leaves then back else back ++ [client], ?_, ?_⟩
        · simpa using hwaiting
        · cases leaves <;> simp [hrest]

theorem between (h : RoundRobin history queue)
    {before since after : List (Service α)} {next : Service α}
    (hsplit : history = (before ++ service :: since) ++ next :: after)
    (hnext : next.client = service.client)
    (hsince : ∀ later ∈ since, later.client ≠ service.client) :
    since.map Service.client = service.waiting := by
  induction h generalizing after with
  | start => simp at hsplit
  | arrive _ _ _ ih => exact ih hsplit
  | @serve history client queue hrun leaves ih =>
    obtain ⟨rfl, rfl, rfl⟩ | ⟨after, rfl, hhistory⟩ := concat_eq_split hsplit
    · have hhead : service.client ∈ client :: queue := by
        rw [← hnext]
        exact List.mem_cons_self
      have hstays : service.leaves = false := by
        rw [← Bool.not_eq_true]
        exact fun hleaves => hrun.not_mem_of_leaves (by simp) hleaves hhead
      obtain ⟨front, back, hwaiting, hqueue⟩ := hrun.waits rfl hstays hsince
      -- the client is at the head of the queue, and it is there once
      cases front with
      | nil => rw [hwaiting, List.append_nil]
      | cons first front =>
        obtain ⟨-, hrest⟩ := List.cons_eq_cons.mp hqueue
        have honce := (List.nodup_cons.mp hrun.nodup).1
        exact absurd (by simp [hrest, ← hnext]) honce
    · exact ih hhistory

end RoundRobin

end Qperf.Foundation
