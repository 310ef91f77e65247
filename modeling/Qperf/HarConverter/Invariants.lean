import Qperf.HarConverter.Steps
import Mathlib.Data.Fintype.EquivFin

/-!
# The queue invariant of the replay

In every state at the head of the replay loop the active queue holds exactly
the streams whose status is `ENQUEUED`, each of them once, and the streams that
`replay` has ever put into the queue are those that are no longer unavailable.
-/

namespace Qperf.HarConverter

open Qperf.Foundation

variable {n : Nat}

def ReplayState.statusOf (s : ReplayState n) (i : Fin n) : StreamStatus :=
  statusAt s.requestStatus (s.filteredEntries i).resourceId

theorem Numbered.surjective {entries : Entries n} (hnum : Numbered entries)
    {id : Nat} (hid : id < n) : ∃ i, (entries i).resourceId = id := by
  have hinj : Function.Injective fun i : Fin n =>
      (⟨(entries i).resourceId, hnum.lt i⟩ : Fin n) := fun i j hij =>
    hnum.injective (congrArg Fin.val hij)
  obtain ⟨i, hi⟩ := Finite.surjective_of_injective hinj ⟨id, hid⟩
  exact ⟨i, congrArg Fin.val hi⟩

variable {D : Dataset} {activeScheduler : SchedulerType} {s : ReplayState n}

theorem isReplayFinished_iff (hnum : Numbered s.filteredEntries) :
    isReplayFinished s.requestStatus = true ↔ ∀ i, s.statusOf i = .finished := by
  simp only [isReplayFinished, List.all_eq_true, List.mem_finRange,
    forall_const, decide_eq_true_eq]
  constructor
  · intro h i
    rw [ReplayState.statusOf, statusAt, dif_pos (hnum.lt i)]
    exact h _
  · intro h id
    obtain ⟨i, hi⟩ := hnum.surjective id.isLt
    have := h i
    rwa [ReplayState.statusOf, hi, statusAt, dif_pos id.isLt] at this

structure QueueInvariant (s : ReplayState n) : Prop where
  numbered : Numbered s.filteredEntries
  nodup : s.activeStreamQueue.Nodup
  mem_queue : ∀ i, i ∈ s.activeStreamQueue ↔ s.statusOf i = .enqueued
  put_nodup : s.putLog.Nodup
  mem_put : ∀ i, i ∈ s.putLog ↔ s.statusOf i ≠ .unavailable

/-! ## Releasing -/

def newlyReady (s : ReplayState n) : List (Fin n) :=
  (List.finRange n).filter (isReady s)

theorem mem_newlyReady {i : Fin n} : i ∈ newlyReady s ↔ isReady s i = true := by
  simp [newlyReady]

private theorem newlyReady_nodup (s : ReplayState n) : (newlyReady s).Nodup :=
  (List.nodup_finRange n).filter _

theorem statusOf_of_mem_newlyReady {i : Fin n}
    (h : i ∈ newlyReady s) : s.statusOf i = .unavailable :=
  (isReady_iff.mp (mem_newlyReady.mp h)).1

@[simp] theorem released_queue (s : ReplayState n) :
    (released s).activeStreamQueue = s.activeStreamQueue ++ newlyReady s := rfl

@[simp] theorem released_putLog (s : ReplayState n) :
    (released s).putLog = s.putLog ++ newlyReady s := rfl

@[simp] theorem released_replayLog (s : ReplayState n) :
    (released s).replayLog = s.replayLog := rfl

@[simp] theorem released_packetNumber (s : ReplayState n) :
    (released s).packetNumber = s.packetNumber := rfl

@[simp] theorem released_remainingSize (s : ReplayState n) (i : Fin n) :
    ((released s).filteredEntries i).remainingSize =
      (s.filteredEntries i).remainingSize := by
  simp only [released, releaseAll]
  split <;> rfl

theorem released_enqueuedAt (s : ReplayState n) (i : Fin n) :
    ((released s).filteredEntries i).enqueuedAt =
      if i ∈ newlyReady s then some s.packetNumber else (s.filteredEntries i).enqueuedAt := by
  by_cases hi : i ∈ newlyReady s
  · have hready : i ∈ (List.finRange n).filter (isReady s) := hi
    rw [if_pos hi, released, releaseAll]
    simp only [if_pos hready]
  · have hready : i ∉ (List.finRange n).filter (isReady s) := hi
    rw [if_neg hi, released, releaseAll]
    simp only [if_neg hready]

theorem statusOf_released (hnum : Numbered s.filteredEntries) (i : Fin n) :
    (released s).statusOf i = if i ∈ newlyReady s then .enqueued else s.statusOf i := by
  have hid := resourceId_of_request (released_request s i)
  rw [ReplayState.statusOf, hid]
  split
  · rename_i hi
    exact statusAt_releaseAll_of_mem hnum hi
  · rename_i hi
    exact statusAt_releaseAll_of_not_mem hnum hi

theorem QueueInvariant.released (h : QueueInvariant s) :
    QueueInvariant (released s) where
  numbered := released_numbered h.numbered
  nodup := by
    rw [released_queue, List.nodup_append]
    refine ⟨h.nodup, newlyReady_nodup s, ?_⟩
    rintro i hi j hj rfl
    have hqueued := (h.mem_queue i).mp hi
    rw [statusOf_of_mem_newlyReady hj] at hqueued
    cases hqueued
  mem_queue i := by
    rw [released_queue, List.mem_append, statusOf_released h.numbered, h.mem_queue]
    split
    · rename_i hi
      simp [hi]
    · rename_i hi
      simp [hi]
  put_nodup := by
    rw [released_putLog, List.nodup_append]
    refine ⟨h.put_nodup, newlyReady_nodup s, ?_⟩
    rintro i hi j hj rfl
    exact (h.mem_put i).mp hi (statusOf_of_mem_newlyReady hj)
  mem_put i := by
    rw [released_putLog, List.mem_append, statusOf_released h.numbered, h.mem_put]
    split
    · rename_i hi
      simp [hi]
    · rename_i hi
      simp [hi]

/-! ## Packets -/

section Packing

variable {packetNumber : Nat} {entries : Entries n} {queue : List (Fin n)}
  {bytesAdded : Int} {packet : Composition n}

theorem Packing.split (h : Packing packetNumber entries queue bytesAdded packet) :
    ∃ served rest, queue = served ++ rest ∧ packet.activeStreamQueue.Perm rest ∧
      ∀ id, Finishes packet.recipe id ↔ ∃ i ∈ served, (entries i).resourceId = id := by
  cases h with
  | whole served rest hqueue hfits hstop =>
    refine ⟨served, rest, hqueue, List.Perm.refl _, fun id => ?_⟩
    simp [Finishes, lastFrame]
  | cut served i rest remainingSize hqueue hfits hroom hlarge hsub =>
    refine ⟨served, i :: rest, hqueue, List.perm_append_singleton i rest, fun id => ?_⟩
    simp [Finishes, lastFrame]

theorem Packing.mem_queue (h : Packing packetNumber entries queue bytesAdded packet)
    (hnum : Numbered entries) (hnodup : queue.Nodup) (i : Fin n) :
    i ∈ packet.activeStreamQueue ↔
      i ∈ queue ∧ ¬ Finishes packet.recipe (entries i).resourceId := by
  obtain ⟨served, rest, hqueue, hperm, hfinishes⟩ := h.split
  have hmem : Finishes packet.recipe (entries i).resourceId ↔ i ∈ served := by
    rw [hfinishes]
    constructor
    · rintro ⟨j, hj, hid⟩
      exact hnum.injective hid ▸ hj
    · intro hi
      exact ⟨i, hi, rfl⟩
  subst hqueue
  rw [hperm.mem_iff, hmem, List.mem_append]
  constructor
  · intro hi
    refine ⟨Or.inr hi, fun hserved => ?_⟩
    exact (List.nodup_append.mp hnodup).2.2 i hserved i hi rfl
  · rintro ⟨hserved | hrest, hnot⟩
    · exact absurd hserved hnot
    · exact hrest

theorem Packing.mem_of_finishes
    (h : Packing packetNumber entries queue bytesAdded packet)
    (hnum : Numbered entries) {i : Fin n}
    (hi : Finishes packet.recipe (entries i).resourceId) : i ∈ queue := by
  obtain ⟨served, rest, rfl, -, hfinishes⟩ := h.split
  obtain ⟨j, hj, hid⟩ := (hfinishes _).mp hi
  exact List.mem_append_left _ (hnum.injective hid ▸ hj)

theorem Packing.enqueuedAt
    (h : Packing packetNumber entries queue bytesAdded packet) (i : Fin n) :
    (packet.filteredEntries i).enqueuedAt = (entries i).enqueuedAt := by
  have hserve : ∀ served : List (Fin n), (serveAll packetNumber entries served i).enqueuedAt =
        (entries i).enqueuedAt := by
    intro served
    simp only [serveAll]
    split <;> simp
  cases h with
  | whole served rest hqueue hfits hstop => exact hserve served
  | cut served j rest remainingSize hqueue hfits hroom hlarge hsub =>
    by_cases hij : i = j
    · subst hij
      simpa [cutStream] using hserve served
    · simpa [cutStream, Function.update_of_ne hij] using hserve served

theorem Packing.mem_of_frame
    (h : Packing packetNumber entries queue bytesAdded packet)
    {frame : Frame} (hframe : frame ∈ packet.recipe) :
    ∃ i ∈ queue, frame.resourceId = (entries i).resourceId := by
  cases h with
  | whole served rest hqueue hfits hstop =>
    obtain ⟨i, hi, rfl⟩ := List.mem_map.mp hframe
    exact ⟨i, by simp [hqueue, hi], rfl⟩
  | cut served i rest remainingSize hqueue hfits hroom hlarge hsub =>
    rcases List.mem_append.mp hframe with hframe | hframe
    · obtain ⟨j, hj, rfl⟩ := List.mem_map.mp hframe
      exact ⟨j, by simp [hqueue, hj], rfl⟩
    · simp only [List.mem_singleton] at hframe
      exact ⟨i, by simp [hqueue], by rw [hframe]⟩

end Packing

@[simp] theorem recorded_queue (s : ReplayState n) (packet : Composition n) :
    (recorded s packet).activeStreamQueue = packet.activeStreamQueue := rfl

@[simp] theorem recorded_putLog (s : ReplayState n) (packet : Composition n) :
    (recorded s packet).putLog = s.putLog := rfl

@[simp] theorem recorded_replayLog (s : ReplayState n)
    (packet : Composition n) :
    (recorded s packet).replayLog = s.replayLog ++ [packet.recipe] := rfl

@[simp] theorem recorded_packetNumber (s : ReplayState n)
    (packet : Composition n) :
    (recorded s packet).packetNumber = s.packetNumber + 1 := rfl

@[simp] theorem recorded_remainingSize (s : ReplayState n)
    (packet : Composition n) (i : Fin n) :
    ((recorded s packet).filteredEntries i).remainingSize =
      (packet.filteredEntries i).remainingSize := by
  simp only [recorded, markAll]
  split <;> rfl

@[simp] theorem recorded_enqueuedAt (s : ReplayState n)
    (packet : Composition n) (i : Fin n) :
    ((recorded s packet).filteredEntries i).enqueuedAt =
      (packet.filteredEntries i).enqueuedAt := by
  simp only [recorded, markAll]
  split <;> rfl

theorem statusOf_recorded {packet : Composition n}
    (hrequest : ∀ i, (packet.filteredEntries i).request = (s.filteredEntries i).request)
    (hnum : Numbered s.filteredEntries) (i : Fin n) :
    (recorded s packet).statusOf i =
      if Finishes packet.recipe (s.filteredEntries i).resourceId then .finished
      else s.statusOf i := by
  have hid := resourceId_of_request ((recorded_request s packet i).trans (hrequest i))
  have hlt := hnum.lt i
  simp only [ReplayState.statusOf, hid, statusAt, hlt, dite_true]
  rfl

theorem QueueInvariant.recorded (h : QueueInvariant s)
    {packetNumber : Nat} {ordered : List (Fin n)} {packet : Composition n}
    (hperm : ordered.Perm s.activeStreamQueue)
    (hpacking : Packing packetNumber s.filteredEntries ordered 0 packet) :
    QueueInvariant (recorded s packet) := by
  have hnodup : ordered.Nodup := hperm.nodup_iff.mpr h.nodup
  have hstatus := statusOf_recorded hpacking.request h.numbered
  constructor
  · exact h.numbered.congr fun i =>
      (recorded_request s packet i).trans (hpacking.request i)
  · obtain ⟨served, rest, rfl, hrest, -⟩ := hpacking.split
    rw [recorded_queue, hrest.nodup_iff]
    exact (List.nodup_append.mp hnodup).2.1
  · intro i
    rw [recorded_queue, hpacking.mem_queue h.numbered hnodup, hperm.mem_iff,
      h.mem_queue, hstatus]
    split
    · rename_i hfinishes
      simp [hfinishes]
    · rename_i hfinishes
      simp [hfinishes]
  · exact h.put_nodup
  · intro i
    rw [recorded_putLog, h.mem_put, hstatus]
    split
    · rename_i hfinishes
      have hqueued := hpacking.mem_of_finishes h.numbered hfinishes
      rw [hperm.mem_iff, h.mem_queue] at hqueued
      simp [hqueued]
    · rfl

/-! ## Runs -/

theorem startReplay_cases {packetNumber : Nat}
    {s : ReplayState D.size} (h : startReplay D packetNumber = .ok s) :
    ∃ root, getRequestByUrl D.entry D.rootRequestUrl = some root ∧
      s = releaseAll (D.idle packetNumber) [root] := by
  rw [startReplay] at h
  split at h
  · cases h
  · rename_i root hroot
    have hput : putStream (releaseAll (D.idle packetNumber) []) root = .ok s := by
      simpa [releaseAll] using h
    exact ⟨root, hroot, putStream_releaseAll (by simp) hput⟩

theorem statusAt_idle (D : Dataset) (packetNumber id : Nat) :
    statusAt (D.idle packetNumber).requestStatus id = .unavailable := by
  simp only [statusAt, Dataset.idle]
  split <;> rfl

theorem statusOf_start (hnum : Numbered D.entry) (packetNumber : Nat) (root i : Fin D.size) :
    (releaseAll (D.idle packetNumber) [root]).statusOf i =
      if i = root then .enqueued else .unavailable := by
  rw [ReplayState.statusOf, resourceId_of_request (releaseAll_request _ _ _)]
  split
  · rename_i hi
    exact statusAt_releaseAll_of_mem hnum (by simp [hi])
  · rename_i hi
    rw [statusAt_releaseAll_of_not_mem hnum (by simp [hi])]
    exact statusAt_idle D packetNumber _

theorem startReplay_queueInvariant {packetNumber : Nat}
    {s : ReplayState D.size} (hnum : Numbered D.entry)
    (h : startReplay D packetNumber = .ok s) : QueueInvariant s := by
  obtain ⟨root, -, rfl⟩ := startReplay_cases h
  have hstatus := statusOf_start hnum packetNumber root
  constructor
  · exact hnum.congr (releaseAll_request _ _)
  · simp [releaseAll, Dataset.idle]
  · intro i
    rw [hstatus]
    split <;> simp_all [releaseAll, Dataset.idle]
  · simp [releaseAll, Dataset.idle]
  · intro i
    rw [hstatus]
    split <;> simp_all [releaseAll, Dataset.idle]

/--
The invariant rule for runs of `replay`: the queue invariant may be assumed of
every state, and the last premise speaks about one packet only.
-/
theorem replayPrefix_induct (hsched : activeScheduler.Implemented)
    (hnum : Numbered D.entry) (packetNumber : Nat) (P : ReplayState D.size → Prop)
    (hstart : ∀ s, startReplay D packetNumber = .ok s → P s)
    (hstep : ∀ s ordered packet, QueueInvariant s → P s →
      isReplayFinished s.requestStatus = false →
      serviceOrder activeScheduler (released s).filteredEntries
        (released s).activeStreamQueue = .ok ordered →
      ordered.Perm (released s).activeStreamQueue →
      Packing s.packetNumber (released s).filteredEntries ordered 0 packet →
      P (recorded (released s) packet))
    {k : Nat} {s : ReplayState D.size}
    (hrun : replayPrefix activeScheduler D packetNumber k = .ok s) :
    QueueInvariant s ∧ P s := by
  obtain ⟨start, hok, hloop⟩ := bind_eq_ok.mp hrun
  refine whilePrefix_induct (fun s => QueueInvariant s ∧ P s) ?_
    ⟨startReplay_queueInvariant hnum hok, hstart start hok⟩ hloop
  rintro u v ⟨hu, hP⟩ hdone hbody
  obtain ⟨ordered, packet, horder, hperm, hpacking, rfl⟩ :=
    replayIteration_cases hsched hu.numbered hu.released.nodup hbody
  exact ⟨hu.released.recorded hperm hpacking,
    hstep u ordered packet hu hP hdone horder hperm hpacking⟩

theorem replayPrefix_queueInvariant (hsched : activeScheduler.Implemented)
    (hnum : Numbered D.entry) {packetNumber k : Nat} {s : ReplayState D.size}
    (hrun : replayPrefix activeScheduler D packetNumber k = .ok s) :
    QueueInvariant s :=
  (replayPrefix_induct hsched hnum packetNumber (fun _ => True)
    (fun _ _ => trivial) (fun _ _ _ _ _ _ _ _ _ => trivial) hrun).1

theorem replayPrefix_succ_cases {packetNumber k : Nat} {s : ReplayState D.size}
    (hrun : replayPrefix activeScheduler D packetNumber (k + 1) = .ok s) :
    ∃ t, replayPrefix activeScheduler D packetNumber k = .ok t ∧
      (isReplayFinished t.requestStatus = true ∧ s = t ∨
        isReplayFinished t.requestStatus = false ∧
          replayIteration activeScheduler t = .ok s) := by
  obtain ⟨start, hstart, hloop⟩ := bind_eq_ok.mp hrun
  obtain ⟨t, ht, hlast⟩ := whilePrefix_succ_cases hloop
  refine ⟨t, ?_, hlast⟩
  rw [replayPrefix, hstart, ok_bind, ht]

end Qperf.HarConverter
