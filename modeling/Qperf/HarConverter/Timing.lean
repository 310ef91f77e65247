import Qperf.HarConverter.Accounting
import Qperf.HarConverter.Serial

/-!
# The times of an entry

`replay` stamps an entry when it enqueues it, when a scheduler first serves it and when its
last frame is recorded.  The packet counter is the index of the packet in the log, so the
last two stamps can be read off the log.
-/

namespace Qperf.HarConverter

open Qperf.Foundation

variable {n : Nat}

/-! ## Queueing and transmission -/

def timeBetween (a b : Option Nat) : Except PyError Int :=
  match a, b with
  | some a, some b => .ok (a - b)
  | _, _ => .error .typeError

/-- One turn of the loop of `compute_queue_and_transmission_time`. -/
def Entry.computeTimes (entry : Entry) : Except PyError Entry := do
  let queuedFor ← timeBetween entry.startedAt entry.enqueuedAt
  let duration ← timeBetween entry.finishedAt entry.startedAt
  .ok { entry with
    queuedFor := some queuedFor
    transmissionTime := some (duration + 1) }

def computeQueueAndTransmissionTime (filteredEntries : List Entry) :
    Except PyError (List Entry) :=
  filteredEntries.mapM Entry.computeTimes

/-! ## Packets that carry a stream -/

def Carries (recipe : List Frame) (id : Nat) : Prop :=
  ∃ frame ∈ recipe, frame.resourceId = id

instance (recipe : List Frame) (id : Nat) : Decidable (Carries recipe id) :=
  inferInstanceAs (Decidable (∃ _ ∈ _, _))

def carriers (replayLog : List (List Frame)) (id : Nat) : List Nat :=
  replayLog.findIdxs fun recipe => Carries recipe id

theorem carriers_append (replayLog : List (List Frame)) (recipe : List Frame) (id : Nat) :
    carriers (replayLog ++ [recipe]) id =
      carriers replayLog id ++ if Carries recipe id then [replayLog.length] else [] := by
  simp [carriers]

variable {entry : Entry} {recipe : List Frame} {replayLog : List (List Frame)}

theorem carriers_append_of_carries {id : Nat}
    (h : Carries recipe id) (replayLog : List (List Frame)) :
    carriers (replayLog ++ [recipe]) id = carriers replayLog id ++ [replayLog.length] := by
  rw [carriers_append, if_pos h]

private theorem add_length_le_getLast {first last : Nat} {rest : List Nat}
    (hsorted : (first :: rest).Pairwise (· < ·))
    (hlast : (first :: rest).getLast? = some last) : first + rest.length ≤ last := by
  induction rest generalizing first with
  | nil =>
    cases hlast
    exact le_rfl
  | cons second rest ih =>
    obtain ⟨hfirst, hrest⟩ := List.pairwise_cons.mp hsorted
    have hlt := hfirst second List.mem_cons_self
    have hle := ih hrest (by simpa using hlast)
    rw [List.length_cons]
    omega

private theorem length_carriers_le {id first last : Nat}
    (hfirst : (carriers replayLog id).head? = some first)
    (hlast : (carriers replayLog id).getLast? = some last) :
    first ≤ last ∧ (carriers replayLog id).length ≤ last - first + 1 := by
  have hsorted : (carriers replayLog id).Pairwise (· < ·) := List.pairwise_findIdxs
  obtain ⟨rest, hrest⟩ := List.head?_eq_some_iff.mp hfirst
  rw [hrest] at hlast hsorted ⊢
  have hle := add_length_le_getLast hsorted hlast
  rw [List.length_cons]
  omega

section Packet

variable {packetNumber : Nat} {entries : Entries n} {queue : List (Fin n)}
  {bytesAdded : Int} {packet : Composition n}

theorem Packing.entry_cases (h : Packing packetNumber entries queue bytesAdded packet)
    (hnum : Numbered entries) (hnodup : queue.Nodup) (i : Fin n) :
    Carries packet.recipe (entries i).resourceId ∧
        (∃ remainingSize, packet.filteredEntries i =
          ({ entries i with remainingSize := remainingSize } : Entry).markStarted
            packetNumber) ∨
      ¬ Carries packet.recipe (entries i).resourceId ∧
        packet.filteredEntries i = entries i := by
  have hserved : ∀ served : List (Fin n),
      Carries (served.map (lastFrame entries)) (entries i).resourceId ↔ i ∈ served := by
    intro served
    simp only [Carries, List.mem_map, exists_exists_and_eq_and, lastFrame]
    constructor
    · rintro ⟨j, hj, hid⟩
      exact hnum.injective hid ▸ hj
    · exact fun hi => ⟨i, hi, rfl⟩
  cases h with
  | whole served rest hqueue hfits hstop =>
    by_cases hi : i ∈ served
    · exact Or.inl ⟨(hserved served).mpr hi, 0, by simp [serveAll, hi]⟩
    · exact Or.inr ⟨mt (hserved served).mp hi, by simp [serveAll, hi]⟩
  | cut served j rest remainingSize hqueue hfits hroom hlarge hsub =>
    have hj : j ∉ served := by
      intro hmem
      rw [hqueue] at hnodup
      exact (List.nodup_append.mp hnodup).2.2 j hmem j (by simp) rfl
    have hcarries : ∀ length, Carries (served.map (lastFrame entries) ++
        [⟨(entries j).resourceId, length, false⟩]) (entries i).resourceId ↔
          i ∈ served ∨ j = i := by
      intro length
      rw [← hserved served]
      simp [Carries, or_and_right, exists_or, hnum.injective.eq_iff]
    rw [hcarries]
    by_cases hji : j = i
    · subst hji
      refine Or.inl ⟨Or.inr rfl, remainingSize, ?_⟩
      simp [cutStream, serveAll, hj]
    · by_cases hi : i ∈ served
      · refine Or.inl ⟨Or.inl hi, 0, ?_⟩
        simp [cutStream, serveAll, hi, Function.update_of_ne (Ne.symm hji)]
      · refine Or.inr ⟨not_or.mpr ⟨hi, hji⟩, ?_⟩
        simp [cutStream, serveAll, hi, Function.update_of_ne (Ne.symm hji)]

end Packet

/-! ## The invariant -/

structure Stamped (replayLog : List (List Frame)) (status : StreamStatus)
    (entry : Entry) : Prop where
  idle : status = .unavailable → carriers replayLog entry.resourceId = []
  enqueuedAt : status ≠ .unavailable → ∃ enqueuedAt,
    entry.enqueuedAt = some enqueuedAt ∧ enqueuedAt ≤ replayLog.length ∧
      ∀ k ∈ carriers replayLog entry.resourceId, enqueuedAt ≤ k
  isStarted : entry.isStarted = true ↔ carriers replayLog entry.resourceId ≠ []
  startedAt : entry.isStarted = true →
    entry.startedAt = (carriers replayLog entry.resourceId).head?
  finishedAt : status = .finished →
    entry.finishedAt = (carriers replayLog entry.resourceId).getLast? ∧
      carriers replayLog entry.resourceId ≠ []

structure TimeInvariant (s : ReplayState n) : Prop where
  packetNumber : s.packetNumber = s.replayLog.length
  stamped : ∀ i, Stamped s.replayLog (s.statusOf i) (s.filteredEntries i)

theorem TimeInvariant.after_release {s : ReplayState n} (h : TimeInvariant s)
    (hnum : Numbered s.filteredEntries) : TimeInvariant (released s) := by
  refine ⟨h.packetNumber, fun i => ?_⟩
  have hi := h.stamped i
  rw [statusOf_released hnum, released_replayLog]
  by_cases hready : i ∈ newlyReady s
  · have hidle := hi.idle (statusOf_of_mem_newlyReady hready)
    have hentry : (released s).filteredEntries i =
        { s.filteredEntries i with enqueuedAt := some s.packetNumber } :=
      if_pos hready
    rw [if_pos hready, hentry]
    refine ⟨by simp, fun _ => ⟨s.packetNumber, rfl, h.packetNumber.le, ?_⟩, hi.isStarted,
      hi.startedAt, by simp⟩
    intro k hk
    rw [hidle] at hk
    cases hk
  · have hentry : (released s).filteredEntries i = s.filteredEntries i := if_neg hready
    rw [if_neg hready, hentry]
    exact hi

private theorem recorded_entry (s : ReplayState n) (packet : Composition n) (i : Fin n) :
    (recorded s packet).filteredEntries i =
      if Finishes packet.recipe (packet.filteredEntries i).resourceId then
        { packet.filteredEntries i with finishedAt := some s.packetNumber }
      else packet.filteredEntries i := rfl

theorem Stamped.carried (h : Stamped replayLog .enqueued entry)
    (hcarries : Carries recipe entry.resourceId) (remainingSize : Int) :
    Stamped (replayLog ++ [recipe]) .enqueued
      (({ entry with remainingSize := remainingSize } : Entry).markStarted
        replayLog.length) := by
  have hmore := carriers_append_of_carries hcarries replayLog
  obtain ⟨enqueuedAt, hstamp, hle, hbefore⟩ := h.enqueuedAt (by simp)
  have hqueued : ∃ enqueuedAt, entry.enqueuedAt = some enqueuedAt ∧
      enqueuedAt ≤ (replayLog ++ [recipe]).length ∧
      ∀ k ∈ carriers (replayLog ++ [recipe]) entry.resourceId, enqueuedAt ≤ k := by
    refine ⟨enqueuedAt, hstamp, by rw [List.length_append]; omega, fun k hk => ?_⟩
    rw [hmore, List.mem_append, List.mem_singleton] at hk
    rcases hk with hk | rfl
    · exact hbefore k hk
    · exact hle
  unfold Entry.markStarted
  split
  · next hstarted =>
    have hne := h.isStarted.mp hstarted
    refine ⟨by simp, fun _ => hqueued, iff_of_true hstarted (by simp [hmore]), ?_, by simp⟩
    intro _
    rw [hmore, List.head?_append_of_ne_nil _ hne]
    exact h.startedAt hstarted
  · next hstarted =>
    have hnil := not_not.mp (mt h.isStarted.mpr hstarted)
    refine ⟨by simp, fun _ => hqueued, iff_of_true rfl (by simp [hmore]), ?_, by simp⟩
    intro _
    rw [hmore, hnil]
    rfl

theorem Stamped.finish (h : Stamped (replayLog ++ [recipe]) .enqueued entry)
    (hcarries : Carries recipe entry.resourceId) :
    Stamped (replayLog ++ [recipe]) .finished
      { entry with finishedAt := some replayLog.length } := by
  have hmore := carriers_append_of_carries hcarries replayLog
  refine ⟨by simp, fun _ => h.enqueuedAt (by simp), h.isStarted, h.startedAt, fun _ => ?_⟩
  simp [hmore]

theorem Stamped.notCarried
    {status : StreamStatus} (h : Stamped replayLog status entry)
    (hcarries : ¬ Carries recipe entry.resourceId) :
    Stamped (replayLog ++ [recipe]) status entry := by
  have hsame : carriers (replayLog ++ [recipe]) entry.resourceId =
      carriers replayLog entry.resourceId := by
    rw [carriers_append, if_neg hcarries, List.append_nil]
  constructor
  · rw [hsame]
    exact h.idle
  · intro hstatus
    obtain ⟨enqueuedAt, hstamp, hle, hbefore⟩ := h.enqueuedAt hstatus
    rw [hsame, List.length_append]
    exact ⟨enqueuedAt, hstamp, Nat.le_add_right_of_le hle, hbefore⟩
  · rw [hsame]
    exact h.isStarted
  · rw [hsame]
    exact h.startedAt
  · rw [hsame]
    exact h.finishedAt

private theorem carries_of_finishes {id : Nat} (h : Finishes recipe id) :
    Carries recipe id := by
  obtain ⟨frame, hframe, -, hid⟩ := h
  exact ⟨frame, hframe, hid⟩

theorem TimeInvariant.after_packet {s : ReplayState n} (hinv : QueueInvariant s)
    (h : TimeInvariant s) {ordered : List (Fin n)} {packet : Composition n}
    (hperm : ordered.Perm s.activeStreamQueue)
    (hpacking : Packing s.packetNumber s.filteredEntries ordered 0 packet) :
    TimeInvariant (recorded s packet) := by
  refine ⟨?_, fun i => ?_⟩
  · rw [recorded_packetNumber, recorded_replayLog, List.length_append, h.packetNumber]
    rfl
  have hi := h.stamped i
  have hid : (packet.filteredEntries i).resourceId = (s.filteredEntries i).resourceId :=
    resourceId_of_request (hpacking.request i)
  rw [recorded_replayLog, recorded_entry, hid,
    statusOf_recorded hpacking.request hinv.numbered, h.packetNumber]
  rcases hpacking.entry_cases hinv.numbered (hperm.nodup_iff.mpr hinv.nodup) i with
    ⟨hcarries, remainingSize, hentry⟩ | ⟨hcarries, hentry⟩
  · obtain ⟨frame, hframe, hframeId⟩ := hcarries
    obtain ⟨j, hj, hjd⟩ := hpacking.mem_of_frame hframe
    obtain rfl : i = j := hinv.numbered.injective (hframeId.symm.trans hjd)
    have hstatus := (hinv.mem_queue i).mp (hperm.mem_iff.mp hj)
    rw [hstatus] at hi ⊢
    have hcarried := hi.carried ⟨frame, hframe, hframeId⟩ remainingSize
    rw [hentry, h.packetNumber]
    split
    · next hfinishes => exact hcarried.finish (by simpa using carries_of_finishes hfinishes)
    · exact hcarried
  · have hfinishes := mt carries_of_finishes hcarries
    rw [if_neg hfinishes, if_neg hfinishes, hentry]
    exact hi.notCarried hcarries

/-! ## Runs -/

theorem startReplay_timeInvariant {D : Dataset} {s : ReplayState D.size}
    (hnum : Numbered D.entry) (hfresh : ∀ i, (D.entry i).isStarted = false)
    (h : startReplay D 0 = .ok s) : TimeInvariant s := by
  obtain ⟨root, -, rfl⟩ := startReplay_cases h
  refine ⟨rfl, fun i => ?_⟩
  have hlog : (releaseAll (D.idle 0) [root]).replayLog = [] := rfl
  rw [statusOf_start hnum, hlog]
  by_cases hi : i = root
  · have hentry : (releaseAll (D.idle 0) [root]).filteredEntries i =
        { D.entry i with enqueuedAt := some 0 } := if_pos (List.mem_singleton.mpr hi)
    rw [if_pos hi, hentry]
    exact ⟨by simp, fun _ => ⟨0, rfl, le_rfl, by simp⟩, by simp [hfresh, carriers],
      by simp [hfresh], by simp⟩
  · have hentry : (releaseAll (D.idle 0) [root]).filteredEntries i = D.entry i :=
      if_neg (mt List.mem_singleton.mp hi)
    rw [if_neg hi, hentry]
    exact ⟨fun _ => rfl, by simp, by simp [hfresh, carriers], by simp [hfresh], by simp⟩

theorem replayPrefix_timeInvariant {activeScheduler : SchedulerType}
    (hsched : activeScheduler.Implemented) {D : Dataset} (hnum : Numbered D.entry)
    (hfresh : ∀ i, (D.entry i).isStarted = false) {k : Nat} {s : ReplayState D.size}
    (hrun : replayPrefix activeScheduler D 0 k = .ok s) : TimeInvariant s :=
  (replayPrefix_induct hsched hnum 0 TimeInvariant
    (fun _ hs => startReplay_timeInvariant hnum hfresh hs)
    (fun _ _ _ hinv hs _ _ hperm hpacking =>
      (hs.after_release hinv.numbered).after_packet hinv.released hperm hpacking) hrun).2

/-- The times of an entry after `replay` and `compute_queue_and_transmission_time`. -/
structure EntryTimes (replayLog : List (List Frame)) (entry : Entry)
    (enqueuedAt startedAt finishedAt : Nat) (queuedFor transmissionTime : Int) : Prop where
  enqueuedAt_eq : entry.enqueuedAt = some enqueuedAt
  startedAt_eq : entry.startedAt = some startedAt
  finishedAt_eq : entry.finishedAt = some finishedAt
  enqueued_le : enqueuedAt ≤ startedAt
  started_le : startedAt ≤ finishedAt
  first : (carriers replayLog entry.resourceId).head? = some startedAt
  last : (carriers replayLog entry.resourceId).getLast? = some finishedAt
  queuedFor_eq : entry.queuedFor = some queuedFor
  queuedFor_nonneg : 0 ≤ queuedFor
  transmissionTime_eq : entry.transmissionTime = some transmissionTime
  packets_le : (carriers replayLog entry.resourceId).length ≤ transmissionTime

theorem Stamped.computeTimes (h : Stamped replayLog .finished entry) :
    ∃ enqueuedAt startedAt finishedAt queuedFor transmissionTime entry',
      entry.computeTimes = .ok entry' ∧ entry'.request = entry.request ∧
      EntryTimes replayLog entry' enqueuedAt startedAt finishedAt queuedFor transmissionTime := by
  obtain ⟨enqueuedAt, hstamp, -, hbefore⟩ := h.enqueuedAt (by simp)
  obtain ⟨hfinished, hne⟩ := h.finishedAt rfl
  have hstarted := h.startedAt (h.isStarted.mpr hne)
  obtain ⟨startedAt, hfirst⟩ := Option.ne_none_iff_exists'.mp
    (mt List.head?_eq_none_iff.mp hne)
  obtain ⟨finishedAt, hlast⟩ := Option.ne_none_iff_exists'.mp
    (mt List.getLast?_eq_none_iff.mp hne)
  have hqueued := hbefore startedAt (List.mem_of_mem_head? hfirst)
  obtain ⟨hordered, hlength⟩ := length_carriers_le hfirst hlast
  rw [hfirst] at hstarted
  rw [hlast] at hfinished
  refine ⟨enqueuedAt, startedAt, finishedAt, startedAt - enqueuedAt,
    finishedAt - startedAt + 1, { entry with
      queuedFor := some (startedAt - enqueuedAt)
      transmissionTime := some (finishedAt - startedAt + 1) }, ?_, rfl, ⟨hstamp, hstarted,
    hfinished, hqueued, hordered, hfirst, hlast, rfl, by omega, rfl, ?_⟩⟩
  · rw [Entry.computeTimes, hstamp, hstarted, hfinished]
    rfl
  · change ((carriers replayLog entry.resourceId).length : Int) ≤ _
    omega

theorem TimeInvariant.computeTimes {s : ReplayState n} (h : TimeInvariant s)
    (hdone : ∀ i, s.statusOf i = .finished) :
    ∃ entries : Entries n, computeQueueAndTransmissionTime (List.ofFn s.filteredEntries) =
        .ok (List.ofFn entries) ∧ ∀ i, (entries i).request = (s.filteredEntries i).request ∧
        ∃ enqueuedAt startedAt finishedAt queuedFor transmissionTime,
          EntryTimes s.replayLog (entries i) enqueuedAt startedAt finishedAt queuedFor
            transmissionTime := by
  have hstamped : ∀ i, Stamped s.replayLog .finished (s.filteredEntries i) := fun i =>
    hdone i ▸ h.stamped i
  choose enqueuedAt startedAt finishedAt queuedFor transmissionTime entries hcompute
    hrequest hentry using fun i => (hstamped i).computeTimes
  exact ⟨entries, mapM_ofFn_ok hcompute, fun i => ⟨hrequest i, _, _, _, _, _, hentry i⟩⟩

theorem replay_times {activeScheduler : SchedulerType}
    (hsched : activeScheduler.Implemented) {D : Dataset} (hnum : Numbered D.entry)
    (hfresh : ∀ i, (D.entry i).isStarted = false) {k : Nat} {s : ReplayState D.size}
    (hrun : replayPrefix activeScheduler D 0 k = .ok s)
    (hdone : isReplayFinished s.requestStatus = true) :
    ∃ entries : Entries D.size, computeQueueAndTransmissionTime (List.ofFn s.filteredEntries) =
        .ok (List.ofFn entries) ∧ ∀ i, (entries i).request = (D.entry i).request ∧
        ∃ enqueuedAt startedAt finishedAt queuedFor transmissionTime,
          EntryTimes s.replayLog (entries i) enqueuedAt startedAt finishedAt queuedFor
            transmissionTime := by
  have hinv := replayPrefix_queueInvariant hsched hnum hrun
  have htimes := replayPrefix_timeInvariant hsched hnum hfresh hrun
  obtain ⟨entries, hcompute, hentries⟩ :=
    htimes.computeTimes ((isReplayFinished_iff hinv.numbered).mp hdone)
  refine ⟨entries, hcompute, fun i => ⟨?_, (hentries i).2⟩⟩
  rw [(hentries i).1, replayPrefix_request hsched hnum hrun]

theorem replay_times_samplePage : ∃ s, ∃ entries : Entries samplePage.size,
    replayPrefix .dynamicFirstComeFirstServeScheduler samplePage 0 10 = .ok s ∧
      computeQueueAndTransmissionTime (List.ofFn s.filteredEntries) =
        .ok (List.ofFn entries) ∧
      ∀ i, ∃ enqueuedAt startedAt finishedAt queuedFor transmissionTime,
        EntryTimes s.replayLog (entries i) enqueuedAt startedAt finishedAt queuedFor
          transmissionTime := by
  obtain ⟨s, hrun, hdone⟩ := map_eq_ok
    (x := replayPrefix .dynamicFirstComeFirstServeScheduler samplePage 0 10)
    (f := fun s => isReplayFinished s.requestStatus) (b := true) (by decide +kernel)
  obtain ⟨entries, hcompute, htimes⟩ :=
    replay_times dynamic_implemented (by decide) (by decide) hrun hdone
  exact ⟨s, entries, hrun, hcompute, fun i => (htimes i).2⟩

end Qperf.HarConverter
