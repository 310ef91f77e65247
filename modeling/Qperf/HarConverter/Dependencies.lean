import Qperf.HarConverter.Accounting

/-!
# Dependency safety of the replay

A status becomes `FINISHED` only after the finishing frame has been logged, and
an entry other than the root request is put into the queue only when the
statuses of all its dependencies are `FINISHED`.  Every frame of such an entry
is therefore logged in a later packet than the finishing frames of its
dependencies.
-/

namespace Qperf.HarConverter

open Qperf.Foundation

variable {n : Nat}

def FinishedBefore (replayLog : List (List Frame)) (k id : Nat) : Prop :=
  ∃ j < k, ∃ packet, replayLog[j]? = some packet ∧ Finishes packet id

variable {replayLog : List (List Frame)}

theorem FinishedBefore.mono {j k id : Nat} (h : FinishedBefore replayLog j id) (hle : j ≤ k) :
    FinishedBefore replayLog k id := by
  obtain ⟨l, hl, hpacket⟩ := h
  exact ⟨l, Nat.lt_of_lt_of_le hl hle, hpacket⟩

theorem FinishedBefore.append {k id : Nat}
    (h : FinishedBefore replayLog k id) (packet : List Frame) :
    FinishedBefore (replayLog ++ [packet]) k id := by
  obtain ⟨j, hj, earlier, hget, hfinishes⟩ := h
  refine ⟨j, hj, earlier, ?_, hfinishes⟩
  have hlt : j < replayLog.length := (List.getElem?_eq_some_iff.mp hget).1
  rw [List.getElem?_append_left hlt, hget]

def FinishedIn (replayLog : List (List Frame)) (id : Nat) : Prop :=
  FinishedBefore replayLog replayLog.length id

theorem FinishedIn.append {id : Nat} (h : FinishedIn replayLog id) (packet : List Frame) :
    FinishedIn (replayLog ++ [packet]) id :=
  (FinishedBefore.append h packet).mono (by simp)

private theorem finishedIn_append_of_finishes
    {packet : List Frame} {id : Nat} (h : Finishes packet id) :
    FinishedIn (replayLog ++ [packet]) id :=
  ⟨replayLog.length, by simp, packet, by simp, h⟩

structure DependencyInvariant (root : Fin n) (s : ReplayState n) : Prop where
  finished : ∀ id, statusAt s.requestStatus id = .finished → FinishedIn s.replayLog id
  released : ∀ i, i ≠ root → s.statusOf i ≠ .unavailable →
    ∀ d ∈ (s.filteredEntries i).dependencies, FinishedIn s.replayLog d
  logged : ∀ k packet, s.replayLog[k]? = some packet →
    ∀ frame ∈ packet, ∀ i, i ≠ root →
      frame.resourceId = (s.filteredEntries i).resourceId →
      ∀ d ∈ (s.filteredEntries i).dependencies, FinishedBefore s.replayLog k d

theorem DependencyInvariant.after_release {root : Fin n} {s : ReplayState n}
    (hnum : Numbered s.filteredEntries) (h : DependencyInvariant root s) :
    DependencyInvariant root (HarConverter.released s) where
  finished id hid := by
    apply h.finished
    rw [HarConverter.released, statusAt_releaseAll s _ hnum.lt] at hid
    split at hid
    · cases hid
    · exact hid
  released i hroot hstatus := by
    rw [released_replayLog, dependencies_of_request (released_request s i)]
    rw [statusOf_released hnum] at hstatus
    split at hstatus
    · rename_i hready
      intro d hd
      exact h.finished d ((isReady_iff.mp (mem_newlyReady.mp hready)).2 d hd)
    · exact h.released i hroot hstatus
  logged k packet hpacket frame hframe i hroot hid := by
    rw [resourceId_of_request (released_request s i)] at hid
    rw [dependencies_of_request (released_request s i)]
    exact h.logged k packet hpacket frame hframe i hroot hid

theorem DependencyInvariant.after_packet {root : Fin n} {s : ReplayState n}
    (hinv : QueueInvariant s) (h : DependencyInvariant root s)
    {packetNumber : Nat} {ordered : List (Fin n)} {packet : Composition n}
    (hperm : ordered.Perm s.activeStreamQueue)
    (hpacking : Packing packetNumber s.filteredEntries ordered 0 packet) :
    DependencyInvariant root (recorded s packet) := by
  have hrequest : ∀ i, ((recorded s packet).filteredEntries i).request =
      (s.filteredEntries i).request := fun i =>
    (recorded_request s packet i).trans (hpacking.request i)
  constructor
  · intro id hid
    by_cases hfinishes : Finishes packet.recipe id
    · exact finishedIn_append_of_finishes hfinishes
    · refine (h.finished id ?_).append _
      simp only [statusAt] at hid ⊢
      split at hid
      · rename_i hlt
        simpa [recorded, markAll, hfinishes, hlt] using hid
      · cases hid
  · intro i hroot hstatus d hd
    rw [dependencies_of_request (hrequest i)] at hd
    refine (h.released i hroot ?_ d hd).append _
    rw [statusOf_recorded hpacking.request hinv.numbered] at hstatus
    split at hstatus
    · rename_i hfinishes
      have hqueued := hpacking.mem_of_finishes hinv.numbered hfinishes
      rw [hperm.mem_iff, hinv.mem_queue] at hqueued
      simp [hqueued]
    · exact hstatus
  · intro k logged hlogged frame hframe i hroot hid d hd
    rw [recorded_replayLog] at hlogged ⊢
    rw [resourceId_of_request (hrequest i)] at hid
    rw [dependencies_of_request (hrequest i)] at hd
    by_cases hk : k < s.replayLog.length
    · rw [List.getElem?_append_left hk] at hlogged
      exact (h.logged k logged hlogged frame hframe i hroot hid d hd).append _
    · -- The packet composed last: its streams were queued before.
      have hlast : k = s.replayLog.length := by
        have hlt := (List.getElem?_eq_some_iff.mp hlogged).1
        simp only [List.length_append, List.length_singleton] at hlt
        omega
      subst hlast
      simp only [List.getElem?_concat_length, Option.some.injEq] at hlogged
      subst hlogged
      obtain ⟨j, hj, hjd⟩ := hpacking.mem_of_frame hframe
      have hij : i = j := hinv.numbered.injective (hid.symm.trans hjd)
      subst hij
      have hqueued := (hinv.mem_queue i).mp (hperm.mem_iff.mp hj)
      exact FinishedBefore.append (h.released i hroot (by simp [hqueued]) d hd) _

theorem startReplay_dependencyInvariant {D : Dataset}
    (hnum : Numbered D.entry) {packetNumber : Nat} {s : ReplayState D.size}
    {root : Fin D.size} (hroot : getRequestByUrl D.entry D.rootRequestUrl = some root)
    (h : startReplay D packetNumber = .ok s) :
    DependencyInvariant root s := by
  obtain ⟨root', hroot', rfl⟩ := startReplay_cases h
  rw [hroot] at hroot'
  cases hroot'
  constructor
  · intro id hid
    rw [statusAt_releaseAll _ _ hnum.lt] at hid
    split at hid
    · cases hid
    · rw [statusAt_idle] at hid
      cases hid
  · intro i hi hstatus
    rw [statusOf_start hnum, if_neg hi] at hstatus
    exact absurd rfl hstatus
  · intro k packet hpacket
    simp [releaseAll, Dataset.idle] at hpacket

/--
In every run of `replay` an entry is put into the active queue at most once, and
a frame of an entry other than the root request is logged only after the
finishing frames of all its dependencies.
-/
theorem replay_dependency_safety {activeScheduler : SchedulerType}
    (hsched : activeScheduler.Implemented) {D : Dataset}
    (hnum : Numbered D.entry) {packetNumber k : Nat} {s : ReplayState D.size}
    (hrun : replayPrefix activeScheduler D packetNumber k = .ok s) :
    s.putLog.Nodup ∧ ∀ (l : Nat) (packet : List Frame), s.replayLog[l]? = some packet →
        ∀ frame ∈ packet, ∀ i, some i ≠ getRequestByUrl D.entry D.rootRequestUrl →
          frame.resourceId = (D.entry i).resourceId →
          ∀ d ∈ (D.entry i).dependencies,
            ∃ j < l, ∃ earlier : List Frame, s.replayLog[j]? = some earlier ∧
              ∃ last ∈ earlier, last.isFinished = true ∧ last.resourceId = d := by
  have hqueue := replayPrefix_queueInvariant hsched hnum hrun
  refine ⟨hqueue.put_nodup, ?_⟩
  intro l packet hpacket frame hframe i hi hid
  have hrequest := replayPrefix_request hsched hnum hrun i
  cases hroot : getRequestByUrl D.entry D.rootRequestUrl with
  | none =>
    rw [replayPrefix, startReplay, hroot] at hrun
    cases hrun
  | some root =>
    have hne : i ≠ root := by
      rintro rfl
      exact hi hroot.symm
    have hinv := (replayPrefix_induct hsched hnum packetNumber
      (DependencyInvariant root)
      (fun s hs => startReplay_dependencyInvariant hnum hroot hs)
      (fun s ordered packet hinv hs _ _ hperm hpacking =>
        (hs.after_release hinv.numbered).after_packet hinv.released hperm hpacking) hrun).2
    rw [← dependencies_of_request hrequest]
    exact hinv.logged l packet hpacket frame hframe i hne
      (hid.trans (resourceId_of_request hrequest).symm)

theorem replay_dependency_safety_samplePage :
    ∃ s, replayPrefix .naiveRoundRobinScheduler samplePage 0 4 = .ok s ∧
      s.replayLog[3]? = some [⟨2, 1200, false⟩] ∧
      ∃ j < 3, ∃ earlier : List Frame, s.replayLog[j]? = some earlier ∧
        ∃ last ∈ earlier, last.isFinished = true ∧ last.resourceId = 1 := by
  obtain ⟨s, hrun, hlog⟩ := map_eq_ok
    (x := replayPrefix .naiveRoundRobinScheduler samplePage 0 4)
    (f := fun s => s.replayLog[3]?) (b := some [⟨2, 1200, false⟩])
    (by decide +kernel)
  refine ⟨s, hrun, hlog, ?_⟩
  exact (replay_dependency_safety (by trivial) (by decide) hrun).2 3 _ hlog
    ⟨2, 1200, false⟩ (by simp) ⟨2, by decide⟩ (by decide) rfl 1 (by decide)

end Qperf.HarConverter
