import Qperf.HarConverter.Accounting

/-!
# Streams in flight

A stream is in flight from its first frame to its last one.  A packet finishes streams
from the front of the queue and then cuts at most one, so that a stream is in flight
after the packet if it was before and is not finished, or if it is the one that is cut.
-/

namespace Qperf.HarConverter

open Qperf.Foundation

variable {n : Nat}

/-! ## Streams in flight -/

def Touched (replayLog : List (List Frame)) (id : Nat) : Prop :=
  ∃ frame ∈ replayLog.flatten, frame.resourceId = id

/-- The stream is started but not finished. -/
def InFlight (replayLog : List (List Frame)) (id : Nat) : Prop :=
  Touched replayLog id ∧ ¬ Finishes replayLog.flatten id

/-- At most one stream of every type other than `script` is in flight. -/
def SerialByType (D : Dataset) (replayLog : List (List Frame)) : Prop :=
  ∀ i j, (D.entry i).resourceType = (D.entry j).resourceType →
    (D.entry i).resourceType ≠ "script" →
    InFlight replayLog (D.entry i).resourceId →
    InFlight replayLog (D.entry j).resourceId → i = j

structure LogInvariant (s : ReplayState n) : Prop where
  touched : ∀ i, Touched s.replayLog (s.filteredEntries i).resourceId →
    s.statusOf i ≠ .unavailable
  finished : ∀ i, Finishes s.replayLog.flatten
    (s.filteredEntries i).resourceId ↔ s.statusOf i = .finished

theorem LogInvariant.enqueued {s : ReplayState n} (h : LogInvariant s)
    {i : Fin n} (hi : InFlight s.replayLog (s.filteredEntries i).resourceId) :
    s.statusOf i = .enqueued := by
  have htouched := h.touched i hi.1
  have hfinished := mt (h.finished i).mpr hi.2
  cases hs : s.statusOf i <;> simp_all

theorem touched_append {replayLog : List (List Frame)} {packet : List Frame} {id : Nat} :
    Touched (replayLog ++ [packet]) id ↔
      Touched replayLog id ∨ ∃ frame ∈ packet, frame.resourceId = id := by
  simp [Touched, or_and_right, exists_or]

theorem finishes_flatten_append {replayLog : List (List Frame)} {packet : List Frame} {id : Nat} :
    Finishes (replayLog ++ [packet]).flatten id ↔
      Finishes replayLog.flatten id ∨ Finishes packet id := by
  rw [List.flatten_append, finishes_append]
  simp

theorem LogInvariant.after_release {s : ReplayState n} (h : LogInvariant s)
    (hnum : Numbered s.filteredEntries) : LogInvariant (released s) where
  touched i hi := by
    rw [statusOf_released hnum]
    split
    · simp
    · rw [released_replayLog, resourceId_of_request (released_request s i)] at hi
      exact h.touched i hi
  finished i := by
    rw [released_replayLog, resourceId_of_request (released_request s i),
      h.finished, statusOf_released hnum]
    split
    · rename_i hready
      simp [statusOf_of_mem_newlyReady hready]
    · rfl

theorem LogInvariant.after_packet {s : ReplayState n} (hinv : QueueInvariant s)
    (h : LogInvariant s) {packetNumber : Nat} {ordered : List (Fin n)}
    {packet : Composition n} (hperm : ordered.Perm s.activeStreamQueue)
    (hpacking : Packing packetNumber s.filteredEntries ordered 0 packet) :
    LogInvariant (recorded s packet) := by
  have hstatus := statusOf_recorded hpacking.request hinv.numbered
  have hid : ∀ i, ((recorded s packet).filteredEntries i).resourceId =
      (s.filteredEntries i).resourceId := fun i =>
    resourceId_of_request
      ((recorded_request s packet i).trans (hpacking.request i))
  constructor
  · intro i hi
    rw [hid, recorded_replayLog, touched_append] at hi
    rw [hstatus]
    split
    · simp
    · rcases hi with hi | ⟨frame, hframe, hframeId⟩
      · exact h.touched i hi
      · obtain ⟨j, hj, hjd⟩ := hpacking.mem_of_frame hframe
        have hij : i = j := hinv.numbered.injective (hframeId.symm.trans hjd)
        subst hij
        rw [hperm.mem_iff, hinv.mem_queue] at hj
        simp [hj]
  · intro i
    rw [hid, recorded_replayLog, finishes_flatten_append, h.finished, hstatus]
    split
    · rename_i hfinishes
      simp [hfinishes]
    · rename_i hfinishes
      simp [hfinishes]

/-! ## The stream that a packet cuts -/

/-- The packet ends with a part of the data of the stream `i`. -/
structure CutAt (entries : Entries n) (ordered before : List (Fin n))
    (i : Fin n) (after : List (Fin n)) : Prop where
  order : ordered = before ++ i :: after
  fits : Fits entries 0 before
  room : totalRemaining entries before < dataBlockSize
  large : dataBlockSize < totalRemaining entries before + (entries i).remainingSize

section CutAt

variable {packetNumber : Nat} {entries : Entries n}
  {ordered before after : List (Fin n)} {i : Fin n} {packet : Composition n}

theorem CutAt.room_of_append (h : CutAt entries ordered before i after)
    {first second : List (Fin n)} (hsplit : before = first ++ second) :
    totalRemaining entries first < dataBlockSize := by
  cases second with
  | nil =>
    rw [List.append_nil] at hsplit
    exact hsplit ▸ h.room
  | cons j second =>
    have := (h.fits first j second hsplit).1
    omega

theorem CutAt.recipe_eq (h : CutAt entries ordered before i after)
    (hpacking : Packing packetNumber entries ordered 0 packet) :
    ∃ length, packet.recipe = before.map (lastFrame entries) ++
      [⟨(entries i).resourceId, length, false⟩] := by
  have hlarge := h.large
  cases hpacking with
  | whole served rest hqueue hfits hstop =>
    rw [h.order] at hqueue
    rcases List.append_eq_append_iff.mp hqueue with
      ⟨more, hserved, hrest⟩ | ⟨more, hbefore, hrest⟩
    · cases more with
      | nil =>
        have hroom := h.room
        rw [List.append_nil] at hserved
        rcases hstop with rfl | hfull
        · cases hrest
        · rw [hserved] at hfull
          omega
      | cons j more =>
        obtain ⟨rfl, -⟩ := List.cons.inj hrest
        have := (hfits before i more hserved).2
        omega
    · have hroom := h.room_of_append hbefore
      rcases hstop with rfl | hfull
      · simp at hrest
      · omega
  | cut served j rest remainingSize hqueue hfits hroom hlarge' hsub =>
    rw [h.order] at hqueue
    rcases List.append_eq_append_iff.mp hqueue with
      ⟨more, hserved, hrest⟩ | ⟨more, hbefore, hrest⟩
    · cases more with
      | nil =>
        rw [List.append_nil] at hserved
        obtain ⟨rfl, -⟩ := List.cons.inj hrest
        exact ⟨_, by rw [hserved]⟩
      | cons k more =>
        obtain ⟨rfl, -⟩ := List.cons.inj hrest
        have := (hfits before i more hserved).2
        omega
    · cases more with
      | nil =>
        rw [List.append_nil] at hbefore
        obtain ⟨rfl, -⟩ := List.cons.inj hrest
        exact ⟨_, by rw [hbefore]⟩
      | cons k more =>
        obtain ⟨rfl, -⟩ := List.cons.inj hrest
        have := (h.fits served j more hbefore).2
        omega

theorem CutAt.finishes_iff (h : CutAt entries ordered before i after)
    (hpacking : Packing packetNumber entries ordered 0 packet)
    (hnum : Numbered entries) (j : Fin n) :
    Finishes packet.recipe (entries j).resourceId ↔ j ∈ before := by
  obtain ⟨length, hrecipe⟩ := h.recipe_eq hpacking
  rw [hrecipe, finishes_append, finishes_lastFrames hnum, finishes_singleton]
  simp

theorem Packing.frame_iff (hpacking : Packing packetNumber entries ordered 0 packet)
    (hnum : Numbered entries) (j : Fin n) :
    (∃ frame ∈ packet.recipe, frame.resourceId = (entries j).resourceId) ↔
      Finishes packet.recipe (entries j).resourceId ∨
        ∃ before after, CutAt entries ordered before j after := by
  constructor
  · rintro ⟨frame, hframe, hid⟩
    cases hpacking with
    | whole served rest hqueue hfits hstop =>
      obtain ⟨i, hi, rfl⟩ := List.mem_map.mp hframe
      exact Or.inl ⟨_, List.mem_map_of_mem hi, rfl, hid⟩
    | cut served i rest remainingSize hqueue hfits hroom hlarge hsub =>
      rcases List.mem_append.mp hframe with hserved | hcut
      · obtain ⟨k, hk, rfl⟩ := List.mem_map.mp hserved
        exact Or.inl ⟨_, hframe, rfl, hid⟩
      · rw [List.mem_singleton] at hcut
        subst hcut
        obtain rfl : i = j := hnum.injective hid
        exact Or.inr ⟨served, rest, hqueue, hfits, by omega, by omega⟩
  · rintro (⟨frame, hframe, -, hid⟩ | ⟨before, after, hcut⟩)
    · exact ⟨frame, hframe, hid⟩
    · obtain ⟨length, hrecipe⟩ := hcut.recipe_eq hpacking
      exact ⟨⟨(entries j).resourceId, length, false⟩, by simp [hrecipe], rfl⟩

end CutAt

/-! ## One packet -/

private theorem not_finishes_of_mem_queue {s : ReplayState n} (hinv : QueueInvariant s)
    (hlog : LogInvariant s) {i : Fin n} (hi : i ∈ s.activeStreamQueue) :
    ¬ Finishes s.replayLog.flatten (s.filteredEntries i).resourceId := by
  rw [hlog.finished, (hinv.mem_queue i).mp hi]
  simp

theorem inFlight_recorded {s : ReplayState n} (hinv : QueueInvariant s)
    (hlog : LogInvariant s) {packetNumber : Nat} {ordered : List (Fin n)}
    {packet : Composition n} (hperm : ordered.Perm s.activeStreamQueue)
    (hpacking : Packing packetNumber s.filteredEntries ordered 0 packet) (i : Fin n) :
    InFlight (s.replayLog ++ [packet.recipe]) (s.filteredEntries i).resourceId ↔
      InFlight s.replayLog (s.filteredEntries i).resourceId ∧
          ¬ Finishes packet.recipe (s.filteredEntries i).resourceId ∨
        ∃ before after, CutAt s.filteredEntries ordered before i after := by
  rw [InFlight, touched_append, finishes_flatten_append,
    hpacking.frame_iff hinv.numbered, InFlight]
  constructor
  · rintro ⟨htouched | hfinishes | hcut, hnot⟩
    · exact Or.inl ⟨⟨htouched, fun h => hnot (Or.inl h)⟩, fun h => hnot (Or.inr h)⟩
    · exact absurd (Or.inr hfinishes) hnot
    · exact Or.inr hcut
  · rintro (⟨⟨htouched, hlogged⟩, hpacket⟩ | ⟨before, after, hcut⟩)
    · exact ⟨Or.inl htouched, fun h => h.elim hlogged hpacket⟩
    · have hnodup : (before ++ i :: after).Nodup :=
        hcut.order ▸ hperm.nodup_iff.mpr hinv.nodup
      have hi : i ∈ s.activeStreamQueue := hperm.mem_iff.mp (by simp [hcut.order])
      refine ⟨Or.inr (Or.inr ⟨before, after, hcut⟩), ?_⟩
      rintro (hlogged | hpacket)
      · exact not_finishes_of_mem_queue hinv hlog hi hlogged
      · rw [hcut.finishes_iff hpacking hinv.numbered] at hpacket
        exact (List.nodup_append.mp hnodup).2.2 i hpacket i (by simp) rfl

/-! ## Runs -/

section Runs

variable {D : Dataset} {packetNumber : Nat} {s : ReplayState D.size}

theorem startReplay_replayLog
    (h : startReplay D packetNumber = .ok s) : s.replayLog = [] := by
  obtain ⟨root, -, rfl⟩ := startReplay_cases h
  rfl

theorem startReplay_logInvariant (hnum : Numbered D.entry)
    (h : startReplay D packetNumber = .ok s) :
    LogInvariant s := by
  have hlog := startReplay_replayLog h
  obtain ⟨root, -, rfl⟩ := startReplay_cases h
  constructor
  · intro i hi
    simp [hlog, Touched] at hi
  · intro i
    rw [hlog, statusOf_start hnum]
    split <;> simp [Finishes]

theorem replayPrefix_logInvariant {activeScheduler : SchedulerType}
    (hsched : activeScheduler.Implemented) (hnum : Numbered D.entry) {k : Nat}
    (hrun : replayPrefix activeScheduler D packetNumber k = .ok s) :
    LogInvariant s := by
  refine (replayPrefix_induct hsched hnum packetNumber LogInvariant
    (fun s hs => startReplay_logInvariant hnum hs) ?_ hrun).2
  intro s ordered packet hinv hs _ _ hperm hpacking
  exact (hs.after_release hinv.numbered).after_packet hinv.released hperm hpacking

theorem dynamic_implemented :
    SchedulerType.dynamicFirstComeFirstServeScheduler.Implemented := trivial

end Runs

end Qperf.HarConverter
