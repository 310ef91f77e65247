import Qperf.HarConverter.PriorityQueue
import Qperf.HarConverter.Serial

/-!
# Streams of one type under the dynamic scheduler

`dynamic_first_come_first_serve_scheduler` is meant to finish one stream of a type before
it starts the next.  Within a type the rebuilt queue is sorted by `enqueued_at`, and a
stream in flight was enqueued no later than the streams of its type that wait with it.  A
stream that stands in front of one in flight was therefore enqueued for the same packet:
the stable sort then leaves the one that was cut, and put back at the tail, behind it.
-/

namespace Qperf.HarConverter

open Qperf.Foundation

variable {n : Nat}

variable {entries : Entries n} {packetNumber : Nat}

/-- Streams of one type are served in the order of their enqueueing. -/
def FirstComeFirst (entries : Entries n) (i j : Fin n) : Prop :=
  (entries i).resourceType = (entries j).resourceType →
    (entries i).resourceType ≠ "script" →
    enqueueTime entries i ≤ enqueueTime entries j

theorem Precedes.firstComeFirst {demoting : String} {queue : List (Fin n)} {i j : Fin n}
    (h : Precedes demoting entries queue i j) : FirstComeFirst entries i j := by
  intro htype hscript
  have hclass : priorityClass demoting entries queue i =
      priorityClass demoting entries queue j := by
    simp only [priorityClass, if_neg (htype ▸ hscript), htype]
  unfold Precedes Sooner at h
  omega

theorem firstComeFirst_ordered {queue ordered : List (Fin n)} (hnodup : queue.Nodup)
    (h : replaceWithDynamicQueue entries queue = .ok ordered) :
    ordered.Pairwise (FirstComeFirst entries) :=
  (replaceWithDynamicQueue_pairwise hnodup h).imp Precedes.firstComeFirst

/-! ## Arrivals -/

/--
Streams in flight came no later than the streams of their type in the queue, and nothing
in the queue comes from the future.
-/
structure ArrivalInvariant (s : ReplayState n) : Prop where
  enqueued : ∀ i ∈ s.activeStreamQueue,
    enqueueTime s.filteredEntries i ≤ s.packetNumber
  started : ∀ i j, InFlight s.replayLog (s.filteredEntries i).resourceId →
    s.statusOf j = .enqueued → FirstComeFirst s.filteredEntries i j

theorem firstComeFirst_congr {entries' : Entries n} {i j : Fin n}
    (hi : (entries' i).request = (entries i).request)
    (hj : (entries' j).request = (entries j).request)
    (hti : enqueueTime entries' i = enqueueTime entries i)
    (htj : enqueueTime entries' j = enqueueTime entries j) :
    FirstComeFirst entries' i j ↔ FirstComeFirst entries i j := by
  rw [FirstComeFirst, FirstComeFirst, resourceType_of_request hi,
    resourceType_of_request hj, hti, htj]

private theorem enqueueTime_released (s : ReplayState n) (i : Fin n) :
    enqueueTime (released s).filteredEntries i =
      if i ∈ newlyReady s then s.packetNumber else enqueueTime s.filteredEntries i := by
  rw [enqueueTime, released_enqueuedAt]
  split <;> rfl

theorem ArrivalInvariant.after_release {s : ReplayState n}
    (hinv : QueueInvariant s) (hlog : LogInvariant s)
    (h : ArrivalInvariant s) : ArrivalInvariant (released s) := by
  have hid : ∀ i, ((released s).filteredEntries i).resourceId =
      (s.filteredEntries i).resourceId := fun i =>
    resourceId_of_request (released_request s i)
  constructor
  · intro i hi
    rw [enqueueTime_released, released_packetNumber]
    rw [released_queue, List.mem_append] at hi
    split
    · exact le_rfl
    · rename_i hready
      exact h.enqueued i (hi.resolve_right hready)
  · intro i j hi hj
    rw [released_replayLog, hid] at hi
    have hqueued := hlog.enqueued hi
    have hiready : i ∉ newlyReady s := by
      intro hready
      rw [statusOf_of_mem_newlyReady hready] at hqueued
      cases hqueued
    have hti : enqueueTime (released s).filteredEntries i = enqueueTime s.filteredEntries i := by
      rw [enqueueTime_released, if_neg hiready]
    by_cases hjready : j ∈ newlyReady s
    · intro _ _
      rw [hti, enqueueTime_released, if_pos hjready]
      exact h.enqueued i ((hinv.mem_queue i).mpr hqueued)
    · rw [statusOf_released hinv.numbered, if_neg hjready] at hj
      rw [firstComeFirst_congr (released_request s i) (released_request s j) hti
        (by rw [enqueueTime_released, if_neg hjready])]
      exact h.started i j hi hj

theorem enqueueTime_recorded (s : ReplayState n) {ordered : List (Fin n)} {packet : Composition n}
    (hpacking : Packing packetNumber s.filteredEntries ordered 0 packet) (i : Fin n) :
    enqueueTime (recorded s packet).filteredEntries i = enqueueTime s.filteredEntries i := by
  rw [enqueueTime, recorded_enqueuedAt, hpacking.enqueuedAt, enqueueTime]

theorem ArrivalInvariant.after_packet {s : ReplayState n}
    (hinv : QueueInvariant s) (hlog : LogInvariant s)
    (h : ArrivalInvariant s) {ordered : List (Fin n)} {packet : Composition n}
    (horder : replaceWithDynamicQueue s.filteredEntries s.activeStreamQueue = .ok ordered)
    (hpacking : Packing s.packetNumber s.filteredEntries ordered 0 packet) :
    ArrivalInvariant (recorded s packet) := by
  have hperm := replaceWithDynamicQueue_perm horder
  have hrequest : ∀ i, ((recorded s packet).filteredEntries i).request =
      (s.filteredEntries i).request := fun i =>
    (recorded_request s packet i).trans (hpacking.request i)
  have htime := enqueueTime_recorded s hpacking
  have hid := fun i => resourceId_of_request (hrequest i)
  constructor
  · intro i hi
    rw [htime, recorded_packetNumber]
    rw [recorded_queue, hpacking.mem_queue hinv.numbered
      (hperm.nodup_iff.mpr hinv.nodup), hperm.mem_iff] at hi
    exact Nat.le_succ_of_le (h.enqueued i hi.1)
  · intro i j hi hj
    rw [firstComeFirst_congr (hrequest i) (hrequest j) (htime i) (htime j)]
    rw [hid, recorded_replayLog] at hi
    rw [inFlight_recorded hinv hlog hperm hpacking] at hi
    rw [statusOf_recorded hpacking.request hinv.numbered] at hj
    split at hj
    · cases hj
    · rename_i hunfinished
      rcases hi with ⟨hi, -⟩ | ⟨before, after, hcut⟩
      · exact h.started i j hi hj
      · -- The waiting stream stands behind the one that is cut.
        have hjq : j ∈ ordered := by
          rw [hperm.mem_iff, hinv.mem_queue]
          exact hj
        have hpairwise := firstComeFirst_ordered hinv.nodup horder
        rw [hcut.order, List.pairwise_append, List.pairwise_cons] at hpairwise
        rw [hcut.order, List.mem_append, List.mem_cons] at hjq
        rcases hjq with hbefore | rfl | hafter
        · exact absurd ((hcut.finishes_iff hpacking hinv.numbered j).mpr
            hbefore) hunfinished
        · exact fun _ _ => le_rfl
        · exact hpairwise.2.1.1 j hafter

private theorem startReplay_arrivalInvariant {D : Dataset}
    {s : ReplayState D.size} (h : startReplay D packetNumber = .ok s) :
    ArrivalInvariant s := by
  have hlog := startReplay_replayLog h
  obtain ⟨root, -, rfl⟩ := startReplay_cases h
  constructor
  · intro i hi
    have hroot : i = root := by
      simpa [releaseAll, Dataset.idle] using hi
    simp [enqueueTime, releaseAll, hroot]
  · intro i j hi
    simp [hlog, InFlight, Touched] at hi

section

variable {D : Dataset} (hnum : Numbered D.entry) {k : Nat} {s : ReplayState D.size}
variable (hrun : replayPrefix .dynamicFirstComeFirstServeScheduler D packetNumber k = .ok s)
include hnum hrun

theorem replayPrefix_arrivalInvariant : ArrivalInvariant s := by
  refine (replayPrefix_induct dynamic_implemented hnum packetNumber
    (fun s => LogInvariant s ∧ ArrivalInvariant s) ?_ ?_ hrun).2.2
  · intro s hs
    exact ⟨startReplay_logInvariant hnum hs, startReplay_arrivalInvariant hs⟩
  · rintro s ordered packet hinv ⟨hlog, hs⟩ - horder hperm hpacking
    have hlog' := hlog.after_release hinv.numbered
    exact ⟨hlog'.after_packet hinv.released hperm hpacking,
      (hs.after_release hinv hlog).after_packet hinv.released hlog' horder hpacking⟩

/--
A stream that is served ahead of one in flight of its type was enqueued for the same
packet.
-/
theorem enqueueTime_eq_of_ahead (before : List (Fin D.size)) {after : List (Fin D.size)}
    {a b : Fin D.size} (horder : replaceWithDynamicQueue (released s).filteredEntries
      (released s).activeStreamQueue = .ok (before ++ b :: after))
    (ha : a ∈ after) (htype : (D.entry a).resourceType = (D.entry b).resourceType)
    (hscript : (D.entry b).resourceType ≠ "script")
    (hflight : InFlight s.replayLog (D.entry a).resourceId) :
    a ≠ b ∧ enqueueTime (released s).filteredEntries a =
      enqueueTime (released s).filteredEntries b := by
  have hinv := replayPrefix_queueInvariant dynamic_implemented hnum hrun
  have hlog := replayPrefix_logInvariant dynamic_implemented hnum hrun
  have harrival := (replayPrefix_arrivalInvariant hnum hrun).after_release hinv hlog
  have hrequest := fun i => (released_request s i).trans
    (replayPrefix_request dynamic_implemented hnum hrun i)
  have hrel := hinv.released
  have hperm := replaceWithDynamicQueue_perm horder
  have hnodup := hperm.nodup_iff.mpr hrel.nodup
  have hpairwise := firstComeFirst_ordered hrel.nodup horder
  rw [List.nodup_append, List.nodup_cons] at hnodup
  rw [List.pairwise_append, List.pairwise_cons] at hpairwise
  have hb : (released s).statusOf b = .enqueued :=
    (hrel.mem_queue b).mp (hperm.mem_iff.mp (by simp))
  rw [← resourceId_of_request (hrequest a)] at hflight
  have hab := harrival.started a b hflight hb
  have hba := hpairwise.2.1.1 a ha
  simp only [FirstComeFirst, resourceType_of_request (hrequest _)] at hab hba
  refine ⟨fun h => hnodup.2.1.1 (h ▸ ha), ?_⟩
  exact Nat.le_antisymm (hab htype (htype ▸ hscript)) (hba htype.symm hscript)

end

theorem enqueueTime_eq_of_ahead_samplePage : ∃ s,
    replayPrefix .dynamicFirstComeFirstServeScheduler samplePage 0 4 = .ok s ∧
      replaceWithDynamicQueue (released s).filteredEntries
        (released s).activeStreamQueue = .ok [⟨3, by decide⟩, ⟨2, by decide⟩] ∧
      enqueueTime (released s).filteredEntries ⟨2, by decide⟩ =
        enqueueTime (released s).filteredEntries ⟨3, by decide⟩ := by
  have hobs : (replayPrefix .dynamicFirstComeFirstServeScheduler samplePage 0 4).map
      (fun s => (s.replayLog, replaceWithDynamicQueue (released s).filteredEntries
        (released s).activeStreamQueue)) =
      .ok ([[⟨0, 1200, false⟩], [⟨0, 300, true⟩], [⟨1, 0, true⟩], [⟨2, 1200, false⟩]],
        .ok [⟨3, by decide⟩, ⟨2, by decide⟩]) := by
    decide +kernel
  obtain ⟨s, hrun, hs⟩ := map_eq_ok hobs
  obtain ⟨hlog, horder⟩ := Prod.mk.inj hs
  have hflight : InFlight s.replayLog 2 := by
    rw [hlog]
    exact ⟨⟨⟨2, 1200, false⟩, by decide, rfl⟩, by decide⟩
  have hnum : Numbered samplePage.entry := by decide
  exact ⟨s, hrun, horder, (enqueueTime_eq_of_ahead hnum hrun [] horder
    (List.mem_singleton_self _) rfl (by decide) hflight).2⟩

/-! ## One stream of a type at a time -/

/-- No two streams of one type, other than `script`, were enqueued for the same packet. -/
def NoTies (s : ReplayState n) : Prop :=
  ∀ i ∈ s.activeStreamQueue, ∀ j ∈ s.activeStreamQueue,
    (s.filteredEntries i).resourceType = (s.filteredEntries j).resourceType →
    (s.filteredEntries i).resourceType ≠ "script" →
    enqueueTime s.filteredEntries i = enqueueTime s.filteredEntries j → i = j

instance (s : ReplayState n) : Decidable (NoTies s) :=
  inferInstanceAs (Decidable (∀ i ∈ s.activeStreamQueue, ∀ j ∈ s.activeStreamQueue, _))

theorem NoTies.after_packet {s : ReplayState n} (h : NoTies s) (hinv : QueueInvariant s)
    {ordered : List (Fin n)} {packet : Composition n} (hperm : ordered.Perm s.activeStreamQueue)
    (hpacking : Packing packetNumber s.filteredEntries ordered 0 packet) :
    NoTies (recorded s packet) := by
  have hqueue : ∀ i ∈ (recorded s packet).activeStreamQueue, i ∈ s.activeStreamQueue := by
    intro i hi
    rw [recorded_queue, hpacking.mem_queue hinv.numbered
      (hperm.nodup_iff.mpr hinv.nodup), hperm.mem_iff] at hi
    exact hi.1
  have htype := fun i => resourceType_of_request
    ((recorded_request s packet i).trans (hpacking.request i))
  have htime := enqueueTime_recorded s hpacking
  intro i hi j hj
  rw [htype, htype, htime, htime]
  exact h i (hqueue i hi) j (hqueue j hj)

theorem NoTies.serialByType {D : Dataset} {s : ReplayState D.size} (h : NoTies s)
    (hinv : QueueInvariant s) (hlog : LogInvariant s) (harrival : ArrivalInvariant s)
    (hrequest : ∀ i, (s.filteredEntries i).request = (D.entry i).request) :
    SerialByType D s.replayLog := by
  intro i j htype hscript hi hj
  rw [← resourceId_of_request (hrequest _)] at hi hj
  rw [← resourceType_of_request (hrequest i)] at htype hscript
  rw [← resourceType_of_request (hrequest j)] at htype
  have hiq := hlog.enqueued hi
  have hjq := hlog.enqueued hj
  refine h i ((hinv.mem_queue i).mpr hiq) j ((hinv.mem_queue j).mpr hjq) htype hscript ?_
  exact Nat.le_antisymm (harrival.started i j hi hjq htype hscript)
    (harrival.started j i hj hiq htype.symm (htype ▸ hscript))

/--
In a run in which no queue that is handed to the scheduler holds two streams of one type
with the same `enqueued_at`, one stream of a type is served at a time.
-/
theorem dynamic_serial_of_noTies {D : Dataset} (hnum : Numbered D.entry) {k : Nat}
    (hties : ∀ j < k, ∀ t,
      replayPrefix .dynamicFirstComeFirstServeScheduler D packetNumber j = .ok t →
        NoTies (released t)) :
    ∀ j ≤ k, ∀ t, replayPrefix .dynamicFirstComeFirstServeScheduler D packetNumber j = .ok t →
        SerialByType D t.replayLog := by
  intro j hj
  induction j with
  | zero =>
    intro t ht
    obtain ⟨start, hstart, hloop⟩ := bind_eq_ok.mp ht
    cases hloop
    intro i j _ _ hi
    simp [startReplay_replayLog hstart, InFlight, Touched] at hi
  | succ j ih =>
    intro t ht
    obtain ⟨u, hu, ⟨-, rfl⟩ | ⟨-, hbody⟩⟩ := replayPrefix_succ_cases ht
    · exact ih (Nat.le_of_succ_le hj) t hu
    · have hinv := replayPrefix_queueInvariant dynamic_implemented hnum hu
      have hinv' := replayPrefix_queueInvariant dynamic_implemented hnum ht
      have hlog := replayPrefix_logInvariant dynamic_implemented hnum ht
      have harrival := replayPrefix_arrivalInvariant hnum ht
      have hrequest := replayPrefix_request dynamic_implemented hnum ht
      obtain ⟨ordered, packet, -, hperm, hpacking, rfl⟩ :=
        replayIteration_cases dynamic_implemented hinv.numbered hinv.released.nodup hbody
      exact ((hties j hj u hu).after_packet hinv.released hperm hpacking).serialByType
        hinv' hlog harrival hrequest

/-- The second image waits for the stylesheet, and so comes a packet later. -/
def staggeredPage : Dataset where
  rootRequestUrl := "https://a/"
  filteredEntries :=
    [.fresh 0 "https://a/" 1500 "document" [] "a" "GET",
      .fresh 1 "https://a/s.css" 300 "stylesheet" [0] "a" "GET",
      .fresh 2 "https://a/1.png" 2000 "image" [0] "a" "GET",
      .fresh 3 "https://a/2.png" 2000 "image" [0, 1] "a" "GET"]

theorem dynamic_serial_staggeredPage : ∃ s,
    replayPrefix .dynamicFirstComeFirstServeScheduler staggeredPage 0 5 = .ok s ∧
      s.replayLog = [[⟨0, 1200, false⟩], [⟨0, 300, true⟩],
        [⟨1, 300, true⟩, ⟨2, 900, false⟩], [⟨2, 1100, true⟩, ⟨3, 100, false⟩],
        [⟨3, 1200, false⟩]] ∧
      ∀ j ≤ 5, ∀ t,
        replayPrefix .dynamicFirstComeFirstServeScheduler staggeredPage 0 j = .ok t →
          SerialByType staggeredPage t.replayLog := by
  obtain ⟨s, hrun, hlog⟩ := map_eq_ok
    (x := replayPrefix .dynamicFirstComeFirstServeScheduler staggeredPage 0 5)
    (f := fun s => s.replayLog) (b := [[⟨0, 1200, false⟩], [⟨0, 300, true⟩],
      [⟨1, 300, true⟩, ⟨2, 900, false⟩], [⟨2, 1100, true⟩, ⟨3, 100, false⟩],
      [⟨3, 1200, false⟩]]) (by decide +kernel)
  have hnum : Numbered staggeredPage.entry := by decide
  refine ⟨s, hrun, hlog, dynamic_serial_of_noTies hnum fun j hj t ht => ?_⟩
  have hall : ∀ j < 5, (replayPrefix .dynamicFirstComeFirstServeScheduler staggeredPage
      0 j).map (fun t => decide (NoTies (released t))) = .ok true := by
    decide +kernel
  have hnone := hall j hj
  rw [ht] at hnone
  exact of_decide_eq_true (Except.ok.inj hnone)

theorem two_images_in_flight : ∃ s,
    replayPrefix .dynamicFirstComeFirstServeScheduler samplePage 0 5 = .ok s ∧
      ¬ SerialByType samplePage s.replayLog := by
  obtain ⟨s, hrun, hlog⟩ := map_eq_ok
    (x := replayPrefix .dynamicFirstComeFirstServeScheduler samplePage 0 5)
    (f := fun s => s.replayLog) (b := [[⟨0, 1200, false⟩], [⟨0, 300, true⟩],
      [⟨1, 0, true⟩], [⟨2, 1200, false⟩], [⟨3, 1200, false⟩]]) (by decide +kernel)
  refine ⟨s, hrun, fun hserial => ?_⟩
  rw [hlog] at hserial
  have heq := hserial ⟨2, by decide⟩ ⟨3, by decide⟩ (by decide) (by decide)
    ⟨⟨⟨2, 1200, false⟩, by decide, rfl⟩, by decide⟩
    ⟨⟨⟨3, 1200, false⟩, by decide, rfl⟩, by decide⟩
  cases heq

end Qperf.HarConverter
