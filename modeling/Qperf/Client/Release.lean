import Qperf.Client.Scheduler
import Qperf.Foundation.Traces

/-!
# Which blocks the Go scheduler releases

A pass of `OnStreamFinished` changes statuses from `UNAVAILABLE` to `ENQUEUED`
only, so it enqueues exactly the blocks that are ready when it starts.  The
results about runs speak of every sequence of calls in which each call follows
the completion of the root request or of an enqueued block.
-/

namespace Qperf.Client

open Qperf.Foundation

variable {n : Nat}

/-! ## Dependencies -/

theorem toNat_lt_of_bounds {dep : Int} (h : 0 ≤ dep ∧ dep < n) : dep.toNat < n :=
  (Int.toNat_lt h.1).mpr h.2

def statusAt (status : Fin n → StreamStatus) (dep : Int) : StreamStatus :=
  if h : 0 ≤ dep ∧ dep < n then
    status ⟨dep.toNat, toNat_lt_of_bounds h⟩
  else .unavailable

def DependenciesFinished (status : Fin n → StreamStatus)
    (dependencies : List Int) : Prop :=
  ∀ dep ∈ dependencies, statusAt status dep = .finished

instance (status : Fin n → StreamStatus) (dependencies : List Int) :
    Decidable (DependenciesFinished status dependencies) :=
  inferInstanceAs (Decidable (∀ dep ∈ dependencies, _))

private theorem dependenciesFinished_cons {status : Fin n → StreamStatus} {dep : Int}
    {dependencies : List Int} :
    DependenciesFinished status (dep :: dependencies) ↔
      statusAt status dep = .finished ∧ DependenciesFinished status dependencies := by
  simp [DependenciesFinished]

def InRange (n : Nat) (dependencies : List Int) : Prop :=
  ∀ dep ∈ dependencies, 0 ≤ dep ∧ dep < n

instance (n : Nat) (dependencies : List Int) : Decidable (InRange n dependencies) :=
  inferInstanceAs (Decidable (∀ dep ∈ dependencies, _))

theorem dependenciesMet_of_inRange (slice : Fin n → StreamControlBlock)
    {dependencies : List Int} (h : InRange n dependencies) :
    dependenciesMet slice dependencies =
      .ok (decide (DependenciesFinished (fun i => (slice i).status)
        dependencies)) := by
  induction dependencies with
  | nil => rfl
  | cons dep dependencies ih =>
    have hdep := h dep (by simp)
    have hread : readStatus slice dep =
        .ok (statusAt (fun i => (slice i).status) dep) := by
      rw [readStatus, dif_pos hdep, statusAt, dif_pos hdep]
    rw [dependenciesMet, hread, ok_bind]
    split
    · rename_i hne
      simp only [dependenciesFinished_cons, hne, false_and, decide_false]
    · rename_i heq
      rw [ne_eq, Decidable.not_not] at heq
      rw [ih fun d hd => h d (by simp [hd])]
      simp only [dependenciesFinished_cons, heq, true_and]

theorem statusAt_finished_congr {status status' : Fin n → StreamStatus}
    (h : ∀ i, status i = .finished ↔ status' i = .finished) (dep : Int) :
    statusAt status dep = .finished ↔ statusAt status' dep = .finished := by
  simp only [statusAt]
  split
  · exact h _
  · rfl

/-! ## One pass -/

def Ready (s : DynamicFcfsScheduler n) (i : Fin n) : Prop :=
  s.status i = .unavailable ∧
    DependenciesFinished s.status (s.controlBlockSlice i).dependencies

instance (s : DynamicFcfsScheduler n) (i : Fin n) : Decidable (Ready s i) :=
  inferInstanceAs (Decidable (_ ∧ _))

/-- The pass that started in `s` has looked at the blocks `processed`. -/
structure Pass (now : Fin n → Int64) (s : DynamicFcfsScheduler n)
    (processed : List (Fin n)) (t : DynamicFcfsScheduler n) : Prop where
  block : ∀ i, t.controlBlockSlice i = if i ∈ processed ∧ Ready s i then
      (s.controlBlockSlice i).markEnqueued (now i)
    else s.controlBlockSlice i
  enqueued : t.enqueueLog.map Prod.fst =
    s.enqueueLog.map Prod.fst ++ processed.filter fun i => Ready s i
  logged : ∀ call ∈ t.enqueueLog, call ∈ s.enqueueLog ∨
    DependenciesFinished call.2 (s.controlBlockSlice call.1).dependencies

section Pass

variable {now : Fin n → Int64} {s t : DynamicFcfsScheduler n}
  {processed : List (Fin n)}

theorem Pass.status (h : Pass now s processed t) (i : Fin n) : t.status i =
      if i ∈ processed ∧ Ready s i then .enqueued else s.status i := by
  rw [DynamicFcfsScheduler.status, h.block]
  split <;> rfl

theorem Pass.dependencies (h : Pass now s processed t) (i : Fin n) :
    (t.controlBlockSlice i).dependencies = (s.controlBlockSlice i).dependencies := by
  rw [h.block]
  split <;> rfl

theorem Pass.finished_iff (h : Pass now s processed t) (i : Fin n) :
    t.status i = .finished ↔ s.status i = .finished := by
  rw [h.status]
  split
  · rename_i hready
    simp [hready.2.1]
  · rfl

theorem Pass.dependenciesFinished_iff (h : Pass now s processed t) (dependencies : List Int) :
    DependenciesFinished t.status dependencies ↔ DependenciesFinished s.status dependencies := by
  simp only [DependenciesFinished, statusAt_finished_congr (fun i => h.finished_iff i)]

theorem Pass.nil (now : Fin n → Int64) (s : DynamicFcfsScheduler n) :
    Pass now s [] s where
  block := by simp
  enqueued := by simp
  logged call hcall := Or.inl hcall

theorem Pass.step (h : Pass now s processed t) {i : Fin n} (hi : i ∉ processed)
    (hrange : InRange n (s.controlBlockSlice i).dependencies) :
    ∃ u, releaseBlock now t i = .ok u ∧ Pass now s (processed ++ [i]) u := by
  have hblock : t.controlBlockSlice i = s.controlBlockSlice i := by
    rw [h.block, if_neg fun hmem => hi hmem.1]
  have hstatus : t.status i = s.status i := by
    rw [DynamicFcfsScheduler.status, hblock]
    rfl
  have hmet : dependenciesMet t.controlBlockSlice (t.controlBlockSlice i).dependencies =
        .ok (decide (DependenciesFinished s.status
          (s.controlBlockSlice i).dependencies)) := by
    rw [hblock, dependenciesMet_of_inRange _ hrange]
    congr 2
    exact propext (h.dependenciesFinished_iff _)
  by_cases hready : Ready s i
  · refine ⟨_, by rw [releaseBlock, hstatus, if_pos hready.1, hmet, ok_bind,
      decide_eq_true hready.2, if_pos rfl], ?_⟩
    constructor
    · intro j
      by_cases hj : j = i
      · subst hj
        simp [enqueue, hready, hblock]
      · simp [enqueue, h.block j, hj]
    · simp [enqueue, h.enqueued, hready]
    · intro call hcall
      rcases List.mem_append.mp hcall with hcall | hcall
      · exact h.logged call hcall
      · rw [List.mem_singleton] at hcall
        subst hcall
        refine Or.inr fun dep hdep =>
          (statusAt_finished_congr (fun j => ?_) dep).mp (hready.2 dep hdep)
        dsimp only
        rw [status_setBlock, ← h.finished_iff]
        split
        · rename_i hj
          rw [hj, hstatus, hready.1]
          simp [StreamControlBlock.markEnqueued]
        · rfl
  · have hsame : Pass now s (processed ++ [i]) t := by
      constructor
      · intro j
        rw [h.block]
        by_cases hj : j = i
        · subst hj
          simp [hready]
        · simp [hj]
      · simp [h.enqueued, hready]
      · exact h.logged
    refine ⟨t, ?_, hsame⟩
    rw [releaseBlock, hstatus]
    split
    · rename_i hunavailable
      rw [hmet, ok_bind, decide_eq_false fun hdeps =>
        hready ⟨hunavailable, hdeps⟩]
      rfl
    · rfl

private theorem onStreamFinished_pass (now : Fin n → Int64)
    (hrange : ∀ i, InRange n (s.controlBlockSlice i).dependencies) :
    ∃ t, onStreamFinished now s = .ok t ∧ Pass now s (List.finRange n) t := by
  refine foldlM_total_induct (Pass now s) ?_ (Pass.nil now s)
  intro before i after t hsplit hpass
  refine hpass.step (fun hi => ?_) (hrange i)
  have hnodup : (before ++ i :: after).Nodup := hsplit ▸ List.nodup_finRange n
  exact (List.nodup_append.mp hnodup).2.2 i hi i (by simp) rfl

theorem Pass.waits (h : Pass now s (List.finRange n) t) {i : Fin n}
    (hi : t.status i = .unavailable) :
    ¬ DependenciesFinished t.status (s.controlBlockSlice i).dependencies := by
  rw [h.dependenciesFinished_iff]
  intro hdeps
  rw [h.status] at hi
  split at hi
  · cases hi
  · rename_i hnot
    exact hnot ⟨List.mem_finRange i, hi, hdeps⟩

end Pass

/-! ## Runs -/

structure Completion (n : Nat) where
  block : Fin n
  finishedAt : Int64
  now : Fin n → Int64

def finishStream (s : DynamicFcfsScheduler n) (event : Completion n) :
    Except GoPanic (DynamicFcfsScheduler n) :=
  onStreamFinished event.now (s.setBlock event.block
    ((s.controlBlockSlice event.block).markFinished event.finishedAt))

def Allowed (root : Fin n) (s : DynamicFcfsScheduler n) (i : Fin n) : Prop :=
  i = root ∧ s.status i = .unavailable ∨ s.status i = .enqueued

instance (root : Fin n) (s : DynamicFcfsScheduler n) (i : Fin n) :
    Decidable (Allowed root s i) :=
  inferInstanceAs (Decidable (_ ∨ _))

def FinishStep (root : Fin n) (s : DynamicFcfsScheduler n)
    (event : Completion n) (t : DynamicFcfsScheduler n) : Prop :=
  Allowed root s event.block ∧ finishStream s event = .ok t

inductive Move (root i : Fin n) : StreamStatus → StreamStatus → Prop where
  | stay (status : StreamStatus) : Move root i status status
  | enqueue (h : i ≠ root) : Move root i .unavailable .enqueued
  | finish : Move root i .enqueued .finished
  | finishRoot (h : i = root) : Move root i .unavailable .finished

structure ReleaseInvariant (root : Fin n)
    (slice : Fin n → StreamControlBlock) (s : DynamicFcfsScheduler n) :
    Prop where
  dependencies : ∀ i, (s.controlBlockSlice i).dependencies = (slice i).dependencies
  root_first : ∀ i, s.status i ≠ .unavailable → s.status root = .finished
  nodup : (s.enqueueLog.map Prod.fst).Nodup
  root_not_enqueued : root ∉ s.enqueueLog.map Prod.fst
  available : ∀ i ∈ s.enqueueLog.map Prod.fst, s.status i ≠ .unavailable
  logged : ∀ call ∈ s.enqueueLog,
    DependenciesFinished call.2 (slice call.1).dependencies

section Runs

variable {root : Fin n} {slice : Fin n → StreamControlBlock}
  {s t : DynamicFcfsScheduler n} {event : Completion n}

private theorem newDynamicFcfsScheduler_invariant (firstImageResourceId : UInt16)
    (hfresh : ∀ i, (slice i).status = .unavailable) :
    ReleaseInvariant root slice
      (newDynamicFcfsScheduler firstImageResourceId slice) where
  dependencies _ := rfl
  root_first i hi := absurd (hfresh i) hi
  nodup := by simp [newDynamicFcfsScheduler]
  root_not_enqueued := by simp [newDynamicFcfsScheduler]
  available := by simp [newDynamicFcfsScheduler]
  logged := by simp [newDynamicFcfsScheduler]

theorem ReleaseInvariant.after_finish (h : ReleaseInvariant root slice s)
    {i : Fin n} (hallowed : Allowed root s i) (finishedAt : Int64) :
    ReleaseInvariant root slice (s.setBlock i ((s.controlBlockSlice i).markFinished finishedAt)) ∧
      (s.setBlock i
        ((s.controlBlockSlice i).markFinished finishedAt)).status root = .finished := by
  have hstatus := status_setBlock s i ((s.controlBlockSlice i).markFinished finishedAt)
  have hroot : (s.setBlock i
      ((s.controlBlockSlice i).markFinished finishedAt)).status root = .finished := by
    rw [hstatus]
    split
    · rfl
    · rename_i hne
      rcases hallowed with ⟨heq, -⟩ | henqueued
      · exact absurd heq.symm hne
      · exact h.root_first i (by simp [henqueued])
  refine ⟨⟨fun j => ?_, fun _ _ => hroot, h.nodup, h.root_not_enqueued,
    fun j hj => ?_, h.logged⟩, hroot⟩
  · by_cases hj : j = i
    · subst hj
      rw [controlBlockSlice_setBlock_self]
      exact h.dependencies j
    · rw [controlBlockSlice_setBlock_of_ne _ _ hj]
      exact h.dependencies j
  · rw [hstatus]
    split
    · simp [StreamControlBlock.markFinished]
    · exact h.available j hj

theorem ReleaseInvariant.after_pass (h : ReleaseInvariant root slice s)
    (hroot : s.status root = .finished) {now : Fin n → Int64}
    (hpass : Pass now s (List.finRange n) t) :
    ReleaseInvariant root slice t := by
  have hunavailable : ∀ i ∈ (List.finRange n).filter (fun i => Ready s i),
      s.status i = .unavailable := by
    intro i hi
    have hready : Ready s i := by simpa using hi
    exact hready.1
  constructor
  · intro i
    rw [hpass.dependencies, h.dependencies]
  · intro _ _
    exact (hpass.finished_iff root).mpr hroot
  · rw [hpass.enqueued, List.nodup_append]
    refine ⟨h.nodup, (List.nodup_finRange n).filter _, ?_⟩
    rintro i hi j hj rfl
    exact h.available i hi (hunavailable i hj)
  · rw [hpass.enqueued, List.mem_append, not_or]
    refine ⟨h.root_not_enqueued, fun hmem => ?_⟩
    rw [hunavailable root hmem] at hroot
    cases hroot
  · intro i hi
    rw [hpass.status]
    split
    · simp
    · rename_i hnot
      rw [hpass.enqueued, List.mem_append] at hi
      rcases hi with hi | hi
      · exact h.available i hi
      · have hready : Ready s i := by simpa using hi
        exact absurd ⟨List.mem_finRange i, hready⟩ hnot
  · intro call hcall
    rcases hpass.logged call hcall with hcall | hdeps
    · exact h.logged call hcall
    · rwa [h.dependencies] at hdeps

theorem Move.of_pass (h : ReleaseInvariant root slice s) (hallowed : Allowed root s event.block)
    (hpass : Pass event.now (s.setBlock event.block
      ((s.controlBlockSlice event.block).markFinished event.finishedAt))
      (List.finRange n) t) (i : Fin n) :
    Move root i (s.status i) (t.status i) := by
  have hroot := (h.after_finish hallowed event.finishedAt).2
  rw [hpass.status]
  split
  · rename_i hready
    have hunavailable := hready.2.1
    have hne : i ≠ root := by
      rintro rfl
      rw [hunavailable] at hroot
      cases hroot
    rw [status_setBlock] at hunavailable
    split at hunavailable
    · cases hunavailable
    · rw [hunavailable]
      exact .enqueue hne
  · rw [status_setBlock]
    split
    · rename_i heq
      rw [heq]
      rcases hallowed with ⟨hblock, hstatus⟩ | hstatus
      · rw [hstatus]
        exact .finishRoot hblock
      · rw [hstatus]
        exact .finish
    · exact .stay _

theorem finishStream_spec (hrange : ∀ i, InRange n (slice i).dependencies)
    (h : ReleaseInvariant root slice s) (hallowed : Allowed root s event.block) :
    ∃ t, finishStream s event = .ok t ∧ ReleaseInvariant root slice t ∧
      (∀ i, t.status i = .unavailable →
        ¬ DependenciesFinished t.status (slice i).dependencies) ∧
      ∀ i, Move root i (s.status i) (t.status i) := by
  obtain ⟨hfinish, hroot⟩ := h.after_finish hallowed event.finishedAt
  obtain ⟨t, ht, hpass⟩ := onStreamFinished_pass event.now (fun i => by
    rw [hfinish.dependencies]
    exact hrange i)
  refine ⟨t, ht, hfinish.after_pass hroot hpass, fun i hi => ?_,
    Move.of_pass h hallowed hpass⟩
  have hwaits := hpass.waits hi
  rwa [hfinish.dependencies] at hwaits

theorem trace_releaseInvariant (firstImageResourceId : UInt16)
    (hfresh : ∀ i, (slice i).status = .unavailable)
    (hrange : ∀ i, InRange n (slice i).dependencies) {events : List (Completion n)}
    (hrun : Trace (FinishStep root)
      (newDynamicFcfsScheduler firstImageResourceId slice) events s) :
    ReleaseInvariant root slice s := by
  refine hrun.invariant (ReleaseInvariant root slice)
    (newDynamicFcfsScheduler_invariant firstImageResourceId hfresh) ?_
  rintro s event t hs ⟨hallowed, ht⟩
  obtain ⟨t', ht', hinv, -⟩ := finishStream_spec hrange hs hallowed
  obtain rfl : t = t' := Except.ok.inj (ht.symm.trans ht')
  exact hinv

/--
Every call of `OnStreamFinished` in a sequence of completions returns.  After it
each block has been enqueued at most once, with finished dependencies, the root
never, no ready block waits, and statuses have moved forwards only.
-/
theorem onStreamFinished_releases (firstImageResourceId : UInt16)
    (hfresh : ∀ i, (slice i).status = .unavailable)
    (hrange : ∀ i, InRange n (slice i).dependencies) {events : List (Completion n)}
    (hrun : Trace (FinishStep root)
      (newDynamicFcfsScheduler firstImageResourceId slice) events s)
    (hallowed : Allowed root s event.block) :
    ∃ t, finishStream s event = .ok t ∧ (t.enqueueLog.map Prod.fst).Nodup ∧
      root ∉ t.enqueueLog.map Prod.fst ∧
      (∀ call ∈ t.enqueueLog, DependenciesFinished call.2 (slice call.1).dependencies) ∧
      (∀ i, t.status i = .unavailable →
        ¬ DependenciesFinished t.status (slice i).dependencies) ∧
      ∀ i, Move root i (s.status i) (t.status i) := by
  have hinv := trace_releaseInvariant firstImageResourceId hfresh hrange hrun
  obtain ⟨t, ht, hinv', hwaits, hmove⟩ := finishStream_spec hrange hinv hallowed
  exact ⟨t, ht, hinv'.nodup, hinv'.root_not_enqueued, hinv'.logged, hwaits, hmove⟩

end Runs

def sampleSlice (i : Fin 3) : StreamControlBlock :=
  buildStreamControlBlock
    { resourceId := i
      requestUrl := "https://a/"
      responseSize := 1500
      remainingSize := 1500
      resourceType := ["document", "script", "image"].get i
      dependencies := [[], [0], [0, 1]].get i
      domain := "a"
      method := "GET"
      isStarted := false }

def sampleCompletion (i : Fin 3) : Completion 3 := ⟨i, 0, fun _ => 0⟩

theorem onStreamFinished_releases_sampleSlice :
    ∃ s t, Trace (FinishStep 0) (newDynamicFcfsScheduler 2 sampleSlice)
        [sampleCompletion 0, sampleCompletion 1] s ∧
      s.enqueueLog.map Prod.fst = [1, 2] ∧ finishStream s (sampleCompletion 2) = .ok t ∧
      (t.enqueueLog.map Prod.fst).Nodup ∧ 0 ∉ t.enqueueLog.map Prod.fst ∧
      ∀ i, Move 0 i (s.status i) (t.status i) := by
  have hobs : ([sampleCompletion 0, sampleCompletion 1].foldlM
        (fun (s : DynamicFcfsScheduler 3) event =>
          if Allowed 0 s event.block then finishStream s event else .error .indexOutOfRange)
        (newDynamicFcfsScheduler 2 sampleSlice)).map
        (fun s => (s.status 2, s.enqueueLog.map Prod.fst)) = .ok (.enqueued, [1, 2]) := by
    decide +kernel
  obtain ⟨s, hs, hobs⟩ := map_eq_ok hobs
  obtain ⟨hstatus, hlog⟩ := Prod.mk.inj hobs
  have hrun : Trace (FinishStep 0) _ _ s :=
    (Trace.of_foldlM_checked hs).imp fun _ _ _ h => h.symm
  have hrange : ∀ i, InRange 3 (sampleSlice i).dependencies := by decide
  have hallowed : Allowed 0 s (sampleCompletion 2).block := .inr hstatus
  obtain ⟨t, ht, hnodup, hroot, -, -, hmove⟩ :=
    onStreamFinished_releases 2 (fun _ => rfl) hrange hrun hallowed
  exact ⟨s, t, hrun, hlog, ht, hnodup, hroot, hmove⟩

end Qperf.Client
