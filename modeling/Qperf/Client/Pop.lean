import Qperf.Client.Release
import Mathlib.Data.List.Induction

/-!
# Taking requests from the Go scheduler

`PopAvailableRequests` holds the mutex of the scheduler and calls itself once it
has selected a request.  A Go mutex is not reentrant, so the inner call waits for
a lock that only the outer call can release.  The call returns exactly when
there is nothing to select.
-/

namespace Qperf.Client

open Qperf.Foundation

variable {n : Nat}

/-! ## The function -/

inductive PopResult (n : Nat) where
  | returned (request : Option (Fin n)) (s : DynamicFcfsScheduler n)
  | blocked (s : DynamicFcfsScheduler n)

def selectRequest (queues : DomainQueueBlock n) :
    Option (Fin n) × DomainQueueBlock n :=
  match queues.highestPriorityQueue.get with
  | (some request, queue) =>
    (some request, { queues with highestPriorityQueue := queue })
  | (none, _) =>
  match queues.highPriorityQueue.get with
  | (some request, queue) =>
    (some request, { queues with highPriorityQueue := queue })
  | (none, _) =>
  match queues.normalPriorityQueue.get with
  | (some request, queue) =>
    (some request, { queues with normalPriorityQueue := queue })
  | (none, _) =>
  match queues.lowPriorityQueue.get with
  | (some request, queue) =>
    (some request, { queues with lowPriorityQueue := queue })
  | (none, _) =>
  match queues.lowestPriorityQueue.get with
  | (some request, queue) =>
    (some request, { queues with lowestPriorityQueue := queue })
  | (none, _) => (none, queues)

/-- `Lock` on a mutex that is held does not return. -/
def popAvailableRequests (s : DynamicFcfsScheduler n) : PopResult n :=
  if s.locked then .blocked s
  else
    match selectRequest s.queues with
    | (none, queues) => .returned none { s with queues := queues }
    | (some requestToSent, queues) =>
      match popAvailableRequests
          { s with locked := true, queues := queues } with
      | .returned _ t => .returned (some requestToSent) { t with locked := false }
      | .blocked t => .blocked t
termination_by if s.locked then 0 else 1
decreasing_by simp_all

variable {s : DynamicFcfsScheduler n}

theorem popAvailableRequests_of_locked
    (h : s.locked = true) : popAvailableRequests s = .blocked s := by
  rw [popAvailableRequests, if_pos h]

theorem popAvailableRequests_of_unlocked (h : s.locked = false) :
    popAvailableRequests s =
      match selectRequest s.queues with
      | (none, queues) => .returned none { s with queues := queues }
      | (some _, queues) =>
        .blocked { s with locked := true, queues := queues } := by
  rw [popAvailableRequests, if_neg (by simp [h])]
  split
  · rfl
  · rw [popAvailableRequests_of_locked rfl]

/-! ## What it is for -/

def DomainQueueBlock.toList (queues : DomainQueueBlock n) : List (SyncFifoQueue n) :=
  [queues.highestPriorityQueue, queues.highPriorityQueue,
    queues.normalPriorityQueue, queues.lowPriorityQueue,
    queues.lowestPriorityQueue]

def DomainQueueBlock.Empty (queues : DomainQueueBlock n) : Prop :=
  ∀ queue ∈ queues.toList, queue = []

/--
The request is the first one of the best queue that is not empty, and it is the
only one that is removed.
-/
def TakesBest (queues queues' : DomainQueueBlock n) (request : Fin n) : Prop :=
  ∃ better queue worse, queues.toList = better ++ (request :: queue) :: worse ∧
      (∀ queue ∈ better, queue = []) ∧
      queues'.toList = better ++ queue :: worse

def PopSpec (s : DynamicFcfsScheduler n) : Prop :=
  (s.queues.Empty ∧
      ∃ t, popAvailableRequests s = .returned none t ∧ t.queues = s.queues) ∨
    ∃ request t, popAvailableRequests s = .returned (some request) t ∧
      TakesBest s.queues t.queues request

theorem selectRequest_cases (queues : DomainQueueBlock n) :
    (queues.Empty ∧ selectRequest queues = (none, queues)) ∨
      ∃ request queues', selectRequest queues = (some request, queues') ∧
        TakesBest queues queues' request := by
  obtain ⟨highest, high, normal, low, lowest⟩ := queues
  cases highest with
  | cons request queue =>
    exact Or.inr ⟨request, ⟨queue, high, normal, low, lowest⟩, rfl, [], queue,
      [high, normal, low, lowest], rfl, by simp, rfl⟩
  | nil =>
  cases high with
  | cons request queue =>
    exact Or.inr ⟨request, ⟨[], queue, normal, low, lowest⟩, rfl, [[]],
      queue, [normal, low, lowest], rfl, by simp, rfl⟩
  | nil =>
  cases normal with
  | cons request queue =>
    exact Or.inr ⟨request, ⟨[], [], queue, low, lowest⟩, rfl, [[], []],
      queue, [low, lowest], rfl, by simp, rfl⟩
  | nil =>
  cases low with
  | cons request queue =>
    exact Or.inr ⟨request, ⟨[], [], [], queue, lowest⟩, rfl, [[], [], []],
      queue, [lowest], rfl, by simp, rfl⟩
  | nil =>
  cases lowest with
  | cons request queue =>
    exact Or.inr ⟨request, ⟨[], [], [], [], queue⟩, rfl, [[], [], [], []],
      queue, [], rfl, by simp, rfl⟩
  | nil => exact Or.inl ⟨by simp [DomainQueueBlock.Empty,
      DomainQueueBlock.toList], rfl⟩

theorem TakesBest.not_empty {queues queues' : DomainQueueBlock n}
    {request : Fin n} (h : TakesBest queues queues' request) :
    ¬ queues.Empty := by
  obtain ⟨better, queue, worse, heq, -⟩ := h
  intro hempty
  have := hempty (request :: queue) (by simp [heq])
  cases this

theorem popAvailableRequests_of_empty
    (hlock : s.locked = false) (h : s.queues.Empty) :
    popAvailableRequests s = .returned none s := by
  rw [popAvailableRequests_of_unlocked hlock]
  rcases selectRequest_cases s.queues with ⟨-, hselect⟩ | ⟨request, queues', -, htakes⟩
  · rw [hselect]
  · exact absurd h htakes.not_empty

theorem popAvailableRequests_blocked (h : s.locked = true ∨ ¬ s.queues.Empty) :
    ∃ t, popAvailableRequests s = .blocked t := by
  cases hlock : s.locked with
  | true => exact ⟨s, popAvailableRequests_of_locked hlock⟩
  | false =>
    rw [popAvailableRequests_of_unlocked hlock]
    rcases selectRequest_cases s.queues with ⟨hempty, -⟩ | ⟨request, queues', hselect, -⟩
    · exact absurd hempty (h.resolve_left (by simp [hlock]))
    · rw [hselect]
      exact ⟨_, rfl⟩

private theorem popSpec_iff (hlock : s.locked = false) : PopSpec s ↔ s.queues.Empty := by
  constructor
  · intro hspec
    by_contra hne
    obtain ⟨t, ht⟩ := popAvailableRequests_blocked (Or.inr hne)
    rcases hspec with ⟨hempty, -⟩ | ⟨request, t', hreturned, -⟩
    · exact hne hempty
    · rw [ht] at hreturned
      cases hreturned
  · intro hempty
    exact Or.inl ⟨hempty, s, popAvailableRequests_of_empty hlock hempty, rfl⟩

/-! ## Interleavings of `enqueue` and `PopAvailableRequests` -/

inductive QueueOp (n : Nat) where
  | enqueue (block : Fin n)
  | pop

structure PopHistory (n : Nat) where
  scheduler : DynamicFcfsScheduler n
  returned : List (Fin n) := []
  hung : Bool := false

def runOp (h : PopHistory n) : QueueOp n → PopHistory n
  | .enqueue block => { h with scheduler := enqueue h.scheduler block }
  | .pop =>
    match popAvailableRequests h.scheduler with
    | .returned request t =>
      { h with scheduler := t, returned := h.returned ++ request.toList }
    | .blocked t => { h with scheduler := t, hung := true }

def runOps (s : DynamicFcfsScheduler n) (ops : List (QueueOp n)) : PopHistory n :=
  ops.foldl runOp { scheduler := s }

/-- No call hangs, and every enqueued block is returned once or still queued. -/
def Lossless (h : PopHistory n) : Prop :=
  h.hung = false ∧ (h.scheduler.enqueueLog.map Prod.fst).Perm
      (h.returned ++ h.scheduler.queues.toList.flatten)

private theorem runOps_append (s : DynamicFcfsScheduler n) (ops : List (QueueOp n))
    (op : QueueOp n) : runOps s (ops ++ [op]) = runOp (runOps s ops) op := by
  simp [runOps]

private theorem selectQueue_perm (firstImageResourceId : UInt16)
    (block : StreamControlBlock) (queues : DomainQueueBlock n) (i : Fin n) :
    (selectQueue firstImageResourceId block queues i).toList.flatten.Perm
      (queues.toList.flatten ++ [i]) := by
  rw [List.perm_iff_count]
  intro j
  simp only [selectQueue]
  split_ifs <;>
    simp only [DomainQueueBlock.toList, SyncFifoQueue.put,
      List.flatten_cons, List.flatten_nil, List.append_nil,
      List.count_append] <;> omega

private theorem runOp_hung {h : PopHistory n} (hhung : h.hung = true)
    (op : QueueOp n) : (runOp h op).hung = true := by
  cases op with
  | enqueue block => exact hhung
  | pop =>
    simp only [runOp]
    split
    · exact hhung
    · rfl

private theorem foldl_runOp_hung {h : PopHistory n} (hhung : h.hung = true)
    (ops : List (QueueOp n)) : (ops.foldl runOp h).hung = true := by
  induction ops generalizing h with
  | nil => exact hhung
  | cons op ops ih => exact ih (runOp_hung hhung op)

theorem runOps_of_pops_empty (hlock : s.locked = false) (hlog : s.enqueueLog = [])
    (hqueues : s.queues.Empty) (ops : List (QueueOp n))
    (h : ∀ before after, ops = before ++ .pop :: after →
      (runOps s before).scheduler.queues.Empty) :
    (runOps s ops).scheduler.locked = false ∧ Lossless (runOps s ops) := by
  induction ops using List.reverseRecOn with
  | nil =>
    refine ⟨hlock, rfl, ?_⟩
    have hflatten : s.queues.toList.flatten = [] := List.flatten_eq_nil_iff.mpr hqueues
    simp [runOps, hlog, hflatten]
  | append_singleton ops op ih =>
    obtain ⟨hunlocked, hhung, hperm⟩ := ih fun before after heq =>
      h before (after ++ [op]) (by simp [heq])
    rw [runOps_append]
    cases op with
    | enqueue block =>
      refine ⟨hunlocked, hhung, ?_⟩
      simp only [runOp, enqueue, List.map_append, List.map_cons, List.map_nil]
      refine (hperm.append_right [block]).trans ?_
      rw [List.append_assoc]
      exact (selectQueue_perm _ _ _ block).symm.append_left _
    | pop =>
      have hempty := h ops [] rfl
      simp only [runOp, popAvailableRequests_of_empty hunlocked hempty,
        Option.toList_none, List.append_nil]
      exact ⟨hunlocked, hhung, hperm⟩

private theorem pops_empty_of_lossless
    {ops before after : List (QueueOp n)} (h : Lossless (runOps s ops))
    (hsplit : ops = before ++ .pop :: after) :
    (runOps s before).scheduler.queues.Empty := by
  by_contra hne
  obtain ⟨t, ht⟩ := popAvailableRequests_blocked (Or.inr hne)
  have hhung : (runOp (runOps s before) .pop).hung = true := by
    simp only [runOp, ht]
  have hrun : runOps s ops = after.foldl runOp (runOp (runOps s before) .pop) := by
    simp [hsplit, runOps]
  have hall := foldl_runOp_hung hhung after
  rw [← hrun, h.1] at hall
  cases hall

/--
A call meets its contract exactly when all queues are empty, and an interleaving
of calls loses nothing exactly when it never pops from a queue that is not.
-/
theorem popAvailableRequests_correct_iff
    (firstImageResourceId : UInt16) (slice : Fin n → StreamControlBlock) :
    (∀ s : DynamicFcfsScheduler n, s.locked = false →
      (PopSpec s ↔ s.queues.Empty)) ∧
      ∀ ops : List (QueueOp n),
        Lossless (runOps
          (newDynamicFcfsScheduler firstImageResourceId slice) ops) ↔
          ∀ before after, ops = before ++ .pop :: after →
            (runOps (newDynamicFcfsScheduler firstImageResourceId slice)
              before).scheduler.queues.Empty := by
  refine ⟨fun s hlock => popSpec_iff hlock, fun ops => ⟨?_, ?_⟩⟩
  · intro hlossless before after hsplit
    exact pops_empty_of_lossless hlossless hsplit
  · intro hempty
    refine (runOps_of_pops_empty rfl rfl ?_ ops hempty).2
    simp [DomainQueueBlock.Empty, DomainQueueBlock.toList, newDynamicFcfsScheduler]

theorem popAvailableRequests_correct_fresh :
    PopSpec (newDynamicFcfsScheduler 2 sampleSlice) :=
  ((popAvailableRequests_correct_iff 2 sampleSlice).1
    (newDynamicFcfsScheduler 2 sampleSlice) rfl).mpr
    (by simp [DomainQueueBlock.Empty, DomainQueueBlock.toList, newDynamicFcfsScheduler])

theorem popAvailableRequests_deadlocks : ∃ t, popAvailableRequests
        (enqueue (newDynamicFcfsScheduler 2 sampleSlice) 2) = .blocked t ∧
      (2 : Fin 3) ∉ t.queues.toList.flatten := by
  rw [popAvailableRequests_of_unlocked rfl]
  exact ⟨_, rfl, by decide⟩

end Qperf.Client
