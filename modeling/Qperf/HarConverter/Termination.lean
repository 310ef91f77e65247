import Qperf.HarConverter.Accounting
import Qperf.HarConverter.Totality
import Mathlib.Algebra.BigOperators.Fin
import Mathlib.Algebra.Order.BigOperators.Group.Finset
import Mathlib.Data.Prod.Lex

/-!
# Termination of the replay

Every packet either finishes a stream or is filled by a single stream.  In the
second case the float that holds the remaining size of that stream decreases,
because the subtrahend 1200 is larger than half a unit in the last place of
every float up to `2 ^ 64`.  Beyond that bound it does not decrease, and the
replay never ends.
-/

namespace Qperf.HarConverter

open Qperf.Foundation

variable {n : Nat}

/-! ## The invariant of a terminating run -/

/-- `j` must finish before `i` can be enqueued; neither is the root request. -/
def DependsOn (D : Dataset) (root j i : Fin D.size) : Prop :=
  j ≠ root ∧ i ≠ root ∧ (D.entry j).resourceId ∈ (D.entry i).dependencies

structure Replayable (D : Dataset) (root : Fin D.size) : Prop where
  root_eq : getRequestByUrl D.entry D.rootRequestUrl = some root
  numbered : Numbered D.entry
  size_nonneg : ∀ i, 0 ≤ (D.entry i).remainingSize
  dependency_lt : ∀ i, i ≠ root → ∀ d ∈ (D.entry i).dependencies, d < D.size
  wellFounded : WellFounded (DependsOn D root)

structure Running (D : Dataset) (root : Fin D.size)
    (s : ReplayState D.size) : Prop where
  queue : QueueInvariant s
  request : ∀ i, (s.filteredEntries i).request = (D.entry i).request
  root_put : s.statusOf root ≠ .unavailable
  size_nonneg : ∀ i, 0 ≤ (s.filteredEntries i).remainingSize
  size_le : ∀ i, roundTo 53 (s.filteredEntries i).remainingSize.natAbs ≤ 2 ^ 64
  stamped : ∀ i ∈ s.activeStreamQueue, (s.filteredEntries i).enqueuedAt.isSome

theorem floatSub_descends {a b r : Int} (hb : 0 ≤ b) (hle : b ≤ dataBlockSize) (hba : b < a)
    (ha : roundTo 53 a.natAbs ≤ 2 ^ 64) (h : floatSub a b = .ok r) :
    0 ≤ r ∧ roundTo 53 r.natAbs ≤ 2 ^ 64 ∧
      (b = dataBlockSize → roundTo 53 r.natAbs < roundTo 53 a.natAbs) := by
  obtain ⟨x, rfl⟩ := Int.eq_ofNat_of_zero_le (show 0 ≤ a by omega)
  obtain ⟨y, rfl⟩ := Int.eq_ofNat_of_zero_le hb
  simp only [dataBlockSize] at hle ⊢
  rw [Int.natAbs_natCast] at ha ⊢
  have hlt : y < roundTo 53 x := lt_roundTo_of_lt (by omega) (by omega)
  have hr := floatSub_eq_ok (by omega) (by omega) h
  subst hr
  rw [Int.natAbs_natCast, roundTo_idem (by decide)]
  refine ⟨by omega, roundTo_le_two_pow (by decide) (a := 11) (by omega), ?_⟩
  intro hy
  obtain rfl : y = 1200 := by omega
  exact roundTo_sub_dataBlockSize_lt ha (by omega)

variable {packet : Composition n} {packetNumber : Nat}

theorem Packing.remainingSize_cases {entries : Entries n} {queue : List (Fin n)}
    (h : Packing packetNumber entries queue 0 packet)
    (hsize : ∀ i, 0 ≤ (entries i).remainingSize) (i : Fin n) :
    (packet.filteredEntries i).remainingSize = (entries i).remainingSize ∨
      (Finishes packet.recipe (entries i).resourceId ∧
        (packet.filteredEntries i).remainingSize = 0) ∨
      ∃ length, 0 ≤ length ∧ length ≤ dataBlockSize ∧ length < (entries i).remainingSize ∧
        floatSub (entries i).remainingSize length =
          .ok (packet.filteredEntries i).remainingSize := by
  have hserve : ∀ served : List (Fin n), (serveAll packetNumber entries served i).remainingSize =
          (entries i).remainingSize ∨
        (i ∈ served ∧
          (serveAll packetNumber entries served i).remainingSize = 0) := by
    intro served
    simp only [serveAll]
    split
    · rename_i hi
      simp [hi]
    · exact Or.inl rfl
  have hfinishes : ∀ (served : List (Fin n)) (others : List Frame),
      i ∈ served → Finishes (served.map (lastFrame entries) ++ others)
        (entries i).resourceId := by
    intro served others hi
    exact ⟨lastFrame entries i, by simp [List.mem_map_of_mem hi], rfl, rfl⟩
  cases h with
  | whole served rest hqueue hfits hstop =>
    refine (hserve served).imp_right fun h => Or.inl ⟨?_, h.2⟩
    simpa using hfinishes served [] h.1
  | cut served j rest remainingSize hqueue hfits hroom hlarge hsub =>
    by_cases hij : i = j
    · subst hij
      have hserved : 0 ≤ totalRemaining entries served :=
        totalRemaining_nonneg fun i _ => hsize i
      refine Or.inr (Or.inr
        ⟨dataBlockSize - (0 + totalRemaining entries served), by omega,
          by omega, by omega, ?_⟩)
      simpa [cutStream] using hsub
    · simp only [cutStream, Function.update_of_ne hij]
      exact (hserve served).imp_right fun h =>
        Or.inl ⟨hfinishes served _ h.1, h.2⟩

section Running

variable {D : Dataset} {root : Fin D.size} {s : ReplayState D.size}

theorem Running.after_release (h : Running D root s) :
    Running D root (released s) where
  queue := h.queue.released
  request i := (released_request s i).trans (h.request i)
  root_put := by
    rw [statusOf_released h.queue.numbered]
    split
    · simp
    · exact h.root_put
  size_nonneg i := by
    rw [released_remainingSize]
    exact h.size_nonneg i
  size_le i := by
    rw [released_remainingSize]
    exact h.size_le i
  stamped i hi := by
    rw [released_enqueuedAt]
    split
    · rfl
    · rename_i hready
      rw [released_queue, List.mem_append] at hi
      exact h.stamped i (hi.resolve_right hready)

variable {packet : Composition D.size}

theorem Running.after_packet (h : Running D root s) {packetNumber : Nat}
    {ordered : List (Fin D.size)} (hperm : ordered.Perm s.activeStreamQueue)
    (hpacking : Packing packetNumber s.filteredEntries ordered 0 packet) :
    Running D root (recorded s packet) := by
  have hsize : ∀ i, 0 ≤ (packet.filteredEntries i).remainingSize ∧
      roundTo 53 (packet.filteredEntries i).remainingSize.natAbs ≤ 2 ^ 64 := by
    intro i
    rcases hpacking.remainingSize_cases h.size_nonneg i with
      heq | ⟨-, hzero⟩ | ⟨length, hnonneg, hle, hlt, hsub⟩
    · rw [heq]
      exact ⟨h.size_nonneg i, h.size_le i⟩
    · rw [hzero]
      exact ⟨by omega, by decide⟩
    · have := floatSub_descends hnonneg hle hlt (h.size_le i) hsub
      exact ⟨this.1, this.2.1⟩
  constructor
  · exact h.queue.recorded hperm hpacking
  · intro i
    exact ((recorded_request s packet i).trans (hpacking.request i)).trans (h.request i)
  · rw [statusOf_recorded hpacking.request h.queue.numbered]
    split
    · simp
    · exact h.root_put
  · intro i
    rw [recorded_remainingSize]
    exact (hsize i).1
  · intro i
    rw [recorded_remainingSize]
    exact (hsize i).2
  · intro i hi
    rw [recorded_queue, hpacking.mem_queue h.queue.numbered
      (hperm.nodup_iff.mpr h.queue.nodup), hperm.mem_iff] at hi
    rw [recorded_enqueuedAt, hpacking.enqueuedAt]
    exact h.stamped i hi.1

/-! ## Progress -/

/--
While a request is unfinished, the queue is not empty when a packet is
composed: a minimal unavailable entry has only finished dependencies.
-/
theorem Running.queue_ne_nil (hD : Replayable D root) (h : Running D root s)
    (hdone : isReplayFinished s.requestStatus = false) :
    (released s).activeStreamQueue ≠ [] := by
  intro hempty
  rw [released_queue, List.append_eq_nil_iff] at hempty
  obtain ⟨hqueue, hready⟩ := hempty
  have hstatus : ∀ i, s.statusOf i ≠ .unavailable → s.statusOf i = .finished := by
    intro i hi
    have hnot := mt (h.queue.mem_queue i).mpr (by simp [hqueue])
    cases hs : s.statusOf i <;> simp_all
  obtain ⟨i, hi⟩ : ∃ i, s.statusOf i = .unavailable := by
    by_contra hnone
    have : isReplayFinished s.requestStatus = true :=
      (isReplayFinished_iff h.queue.numbered).mpr fun i =>
        hstatus i fun hi => hnone ⟨i, hi⟩
    rw [hdone] at this
    cases this
  obtain ⟨m, hm, hmin⟩ := hD.wellFounded.has_min {i | s.statusOf i = .unavailable} ⟨i, hi⟩
  have hroot : m ≠ root := fun heq => h.root_put (heq ▸ hm)
  have hmready : isReady s m = true := by
    refine isReady_iff.mpr ⟨hm, fun d hd => ?_⟩
    rw [dependencies_of_request (h.request m)] at hd
    obtain ⟨j, hj⟩ := hD.numbered.surjective (hD.dependency_lt m hroot d hd)
    rw [← hj, ← resourceId_of_request (h.request j)]
    apply hstatus
    by_cases hjroot : j = root
    · exact hjroot ▸ h.root_put
    · intro hunavailable
      exact hmin j hunavailable ⟨hjroot, hroot, hj ▸ hd⟩
  have := mem_newlyReady.mpr hmready
  simp [hready] at this

def unfinished (s : ReplayState n) : Finset (Fin n) :=
  Finset.univ.filter fun i => s.statusOf i ≠ .finished

def backlog (s : ReplayState n) : Nat :=
  ∑ i, roundTo 53 (s.filteredEntries i).remainingSize.natAbs

def Descends (t s : ReplayState n) : Prop :=
  toLex ((unfinished t).card, backlog t) < toLex ((unfinished s).card, backlog s)

private theorem descends_wellFounded : WellFounded (Descends (n := n)) :=
  InvImage.wf (fun s : ReplayState n =>
    toLex ((unfinished s).card, backlog s)) wellFounded_lt

private theorem unfinished_released (hnum : Numbered s.filteredEntries) :
    unfinished (released s) = unfinished s := by
  ext i
  simp only [unfinished, Finset.mem_filter, Finset.mem_univ, true_and,
    statusOf_released hnum]
  split
  · rename_i hready
    simp [statusOf_of_mem_newlyReady hready]
  · rfl

private theorem backlog_released (s : ReplayState n) : backlog (released s) = backlog s := by
  simp [backlog]

theorem unfinished_recorded_subset (h : QueueInvariant s)
    (hrequest : ∀ i, (packet.filteredEntries i).request = (s.filteredEntries i).request) :
    unfinished (recorded s packet) ⊆ unfinished s := by
  intro i hi
  simp only [unfinished, Finset.mem_filter, Finset.mem_univ, true_and,
    statusOf_recorded hrequest h.numbered] at hi ⊢
  split at hi
  · exact absurd rfl hi
  · exact hi

private theorem unfinished_recorded_lt (h : QueueInvariant s)
    (hrequest : ∀ i, (packet.filteredEntries i).request = (s.filteredEntries i).request)
    {i : Fin D.size} (hi : i ∈ s.activeStreamQueue)
    (hfinishes : Finishes packet.recipe (s.filteredEntries i).resourceId) :
    (unfinished (recorded s packet)).card < (unfinished s).card := by
  refine Finset.card_lt_card ⟨unfinished_recorded_subset h hrequest, fun hsubset => ?_⟩
  have hmem : i ∈ unfinished s := by
    simp [unfinished, (h.mem_queue i).mp hi]
  have hnot := hsubset hmem
  simp [unfinished, statusOf_recorded hrequest h.numbered, hfinishes] at hnot

theorem Running.descends (h : Running D root s) {packetNumber : Nat} {ordered : List (Fin D.size)}
    (hperm : ordered.Perm s.activeStreamQueue) (hne : ordered ≠ [])
    (hpacking : Packing packetNumber s.filteredEntries ordered 0 packet) :
    Descends (recorded s packet) s := by
  have hrequest := hpacking.request
  have hfirst : ∀ i ∈ ordered, Finishes packet.recipe (s.filteredEntries i).resourceId →
      Descends (recorded s packet) s := by
    intro i hi hfinishes
    exact Prod.Lex.toLex_lt_toLex.mpr (Or.inl
      (unfinished_recorded_lt h.queue hrequest (hperm.mem_iff.mp hi) hfinishes))
  cases hpacking with
  | whole served rest hqueue hfits hstop =>
    cases served with
    | nil =>
      -- A packet without a frame needs an empty queue.
      rcases hstop with rfl | hfull
      · exact absurd hqueue hne
      · simp [dataBlockSize] at hfull
    | cons i served =>
      exact hfirst i (by simp [hqueue]) ⟨lastFrame s.filteredEntries i, by simp, rfl, rfl⟩
  | cut served i rest remainingSize hqueue hfits hroom hlarge hsub =>
    cases served with
    | cons j served =>
      exact hfirst j (by simp [hqueue]) ⟨lastFrame s.filteredEntries j, by simp, rfl, rfl⟩
    | nil =>
      -- The packet carries nothing but a part of `i`, which shrinks.
      simp only [totalRemaining_nil, Int.add_zero, Int.sub_zero,
        Int.zero_add] at hlarge hsub
      have hlt := (floatSub_descends (by decide) (Int.le_refl _) hlarge
        (h.size_le i) hsub).2.2 rfl
      refine Prod.Lex.toLex_lt_toLex.mpr ?_
      rcases Nat.lt_or_eq_of_le (Finset.card_le_card
        (unfinished_recorded_subset h.queue hrequest)) with hcard | hcard
      · exact Or.inl hcard
      · refine Or.inr ⟨hcard, Finset.sum_lt_sum (fun j _ => ?_) ⟨i, Finset.mem_univ i, ?_⟩⟩
        · by_cases hj : j = i
          · subst hj
            simpa [cutStream] using Nat.le_of_lt hlt
          · simp [cutStream, Function.update_of_ne hj]
        · simpa [cutStream] using hlt

theorem Running.iteration {activeScheduler : SchedulerType}
    (hsched : activeScheduler.Implemented) (hD : Replayable D root)
    (h : Running D root s) (hdone : isReplayFinished s.requestStatus = false) :
    ∃ t, replayIteration activeScheduler s = .ok t ∧ Running D root t ∧ Descends t s := by
  have hready : enqueueReady s = .ok (released s) := by
    refine enqueueReady_of_lt h.queue.numbered fun i hi d hd => ?_
    rw [dependencies_of_request (h.request i)] at hd
    exact hD.dependency_lt i (fun heq => h.root_put (heq ▸ hi)) d hd
  have hrel := h.after_release
  obtain ⟨packet, hpacket⟩ := composePacket_ok hsched hrel.queue.nodup
    hrel.stamped fun i => ⟨hrel.size_nonneg i, hrel.size_le i⟩
  obtain ⟨ordered, -, hperm, hpacking⟩ :=
    composeNextPacket_packing hsched hrel.queue.nodup hpacket
  have hne : ordered ≠ [] := by
    rintro rfl
    exact h.queue_ne_nil hD hdone hperm.nil_eq.symm
  refine ⟨recorded (released s) packet, ?_, hrel.after_packet hperm hpacking, ?_⟩
  · rw [replayIteration, hready, ok_bind, hpacket, ok_bind,
      recordPacket_ok hrel.queue.numbered hpacking]
  · have hdesc := hrel.descends hperm hne hpacking
    rwa [Descends, unfinished_released h.queue.numbered, backlog_released] at hdesc

theorem startReplay_running (hD : Replayable D root)
    (hsize : ∀ i, (D.entry i).remainingSize ≤ 2 ^ 64 + 2 ^ 11) (packetNumber : Nat) :
    ∃ s, startReplay D packetNumber = .ok s ∧ Running D root s := by
  obtain ⟨s, hs⟩ : ∃ s, startReplay D packetNumber = .ok s := by
    rw [startReplay, hD.root_eq]
    exact putStream_ok (hD.numbered.lt root)
  have hqueue := startReplay_queueInvariant hD.numbered hs
  obtain ⟨root', hroot', rfl⟩ := startReplay_cases hs
  rw [hD.root_eq] at hroot'
  cases hroot'
  have hremaining : ∀ i, ((releaseAll (D.idle packetNumber) [root]).filteredEntries
        i).remainingSize = (D.entry i).remainingSize := by
    intro i
    simp only [releaseAll]
    split <;> rfl
  refine ⟨_, hs, hqueue, releaseAll_request _ _, ?_, ?_, ?_, ?_⟩
  · rw [statusOf_start hD.numbered, if_pos rfl]
    simp
  · intro i
    rw [hremaining]
    exact hD.size_nonneg i
  · intro i
    rw [hremaining]
    have hle := hsize i
    have hnonneg := hD.size_nonneg i
    exact roundTo_le_of_le_midpoint (by omega)
  · intro i hi
    have hi' : i = root := by
      simpa [releaseAll, Dataset.idle] using hi
    simp [releaseAll, hi']

end Running

/-! ## Streams that never finish -/

private theorem floatSub_above {a b r : Int} (hb : 0 ≤ b) (hle : b ≤ dataBlockSize)
    (ha : 2 ^ 64 + 2 ^ 11 < a) (h : floatSub a b = .ok r) :
    2 ^ 64 + 2 ^ 11 < r := by
  obtain ⟨x, rfl⟩ := Int.eq_ofNat_of_zero_le (show 0 ≤ a by omega)
  obtain ⟨y, rfl⟩ := Int.eq_ofNat_of_zero_le hb
  simp only [dataBlockSize] at hle
  have hr := floatSub_eq_ok (by omega) (by omega) h
  have hx : 2 ^ 64 + 2 ^ 12 ≤ roundTo 53 x := le_roundTo_above (by omega)
  have hrest : 2 ^ 64 + 2 ^ 12 ≤ roundTo 53 (roundTo 53 x - y) :=
    le_roundTo_above (by omega)
  omega

private theorem floatSub_nonneg {a b r : Int} (hb : 0 ≤ b) (hle : b ≤ dataBlockSize)
    (hba : b < a) (h : floatSub a b = .ok r) : 0 ≤ r := by
  obtain ⟨x, rfl⟩ := Int.eq_ofNat_of_zero_le (show 0 ≤ a by omega)
  obtain ⟨y, rfl⟩ := Int.eq_ofNat_of_zero_le hb
  simp only [dataBlockSize] at hle
  have hr := floatSub_eq_ok (by omega) (by omega) h
  omega

theorem Packing.size_le_of_finishes {entries : Entries n} {queue : List (Fin n)}
    (h : Packing packetNumber entries queue 0 packet)
    (hnum : Numbered entries) (hsize : ∀ i, 0 ≤ (entries i).remainingSize)
    {i : Fin n} (hi : Finishes packet.recipe (entries i).resourceId) :
    (entries i).remainingSize ≤ dataBlockSize := by
  have hserved : ∀ served : List (Fin n), Fits entries 0 served →
      i ∈ served → (entries i).remainingSize ≤ dataBlockSize := by
    intro served hfits hmem
    obtain ⟨before, after, hsplit⟩ := List.append_of_mem hmem
    have hroom := (hfits before i after hsplit).2
    have hbefore : 0 ≤ totalRemaining entries before :=
      totalRemaining_nonneg fun j _ => hsize j
    omega
  cases h with
  | whole served rest hqueue hfits hstop =>
    exact hserved served hfits ((finishes_lastFrames hnum served i).mp hi)
  | cut served j rest remainingSize hqueue hfits hroom hlarge hsub =>
    rcases finishes_append.mp hi with hi | hi
    · exact hserved served hfits ((finishes_lastFrames hnum served i).mp hi)
    · cases (finishes_singleton.mp hi).1

structure Oversized (i : Fin n) (s : ReplayState n) : Prop where
  size_nonneg : ∀ j, 0 ≤ (s.filteredEntries j).remainingSize
  size_gt : 2 ^ 64 + 2 ^ 11 < (s.filteredEntries i).remainingSize
  unfinished : s.statusOf i ≠ .finished

theorem Oversized.after_packet {i : Fin n} {s : ReplayState n}
    (h : Oversized i s) (hnum : Numbered s.filteredEntries) {ordered : List (Fin n)}
    (hpacking : Packing packetNumber s.filteredEntries ordered 0 packet) :
    Oversized i (recorded s packet) := by
  have hnot : ¬ Finishes packet.recipe (s.filteredEntries i).resourceId := by
    intro hfinishes
    have hle := hpacking.size_le_of_finishes hnum h.size_nonneg hfinishes
    have hgt := h.size_gt
    rw [dataBlockSize] at hle
    omega
  constructor
  · intro j
    rw [recorded_remainingSize]
    rcases hpacking.remainingSize_cases h.size_nonneg j with
      heq | ⟨-, hzero⟩ | ⟨length, hnonneg, hle, hlt, hsub⟩
    · rw [heq]
      exact h.size_nonneg j
    · exact Int.le_of_eq hzero.symm
    · exact floatSub_nonneg hnonneg hle hlt hsub
  · rw [recorded_remainingSize]
    rcases hpacking.remainingSize_cases h.size_nonneg i with
      heq | ⟨hfinishes, -⟩ | ⟨length, hnonneg, hle, hlt, hsub⟩
    · rw [heq]
      exact h.size_gt
    · exact absurd hfinishes hnot
    · exact floatSub_above hnonneg hle h.size_gt hsub
  · rw [statusOf_recorded hpacking.request hnum, if_neg hnot]
    exact h.unfinished

theorem Oversized.after_release {i : Fin n} {s : ReplayState n}
    (h : Oversized i s) (hnum : Numbered s.filteredEntries) :
    Oversized i (released s) where
  size_nonneg j := by
    rw [released_remainingSize]
    exact h.size_nonneg j
  size_gt := by
    rw [released_remainingSize]
    exact h.size_gt
  unfinished := by
    rw [statusOf_released hnum]
    split
    · simp
    · exact h.unfinished

theorem replayPrefix_oversized {activeScheduler : SchedulerType}
    (hsched : activeScheduler.Implemented) {D : Dataset}
    (hnum : Numbered D.entry) (hsize : ∀ i, 0 ≤ (D.entry i).remainingSize)
    {i : Fin D.size} (hi : 2 ^ 64 + 2 ^ 11 < (D.entry i).remainingSize)
    {packetNumber k : Nat} {s : ReplayState D.size}
    (hrun : replayPrefix activeScheduler D packetNumber k = .ok s) :
    s.statusOf i ≠ .finished := by
  have hinv := (replayPrefix_induct hsched hnum packetNumber (Oversized i)
    (fun s hs => ?_)
    (fun s ordered packet hinv hs _ _ _ hpacking =>
      (hs.after_release hinv.numbered).after_packet hinv.released.numbered hpacking) hrun).2
  · exact hinv.unfinished
  · obtain ⟨root, -, rfl⟩ := startReplay_cases hs
    have hremaining : ∀ j, ((releaseAll (D.idle packetNumber) [root]).filteredEntries
          j).remainingSize = (D.entry j).remainingSize := by
      intro j
      simp only [releaseAll]
      split <;> rfl
    refine ⟨fun j => ?_, ?_, ?_⟩
    · rw [hremaining]
      exact hsize j
    · rw [hremaining]
      exact hi
    · rw [statusOf_start hnum]
      split <;> simp

/-! ## The result -/

theorem Replayable.terminates {activeScheduler : SchedulerType}
    (hsched : activeScheduler.Implemented) {D : Dataset} {root : Fin D.size}
    (hD : Replayable D root)
    (hsize : ∀ i, (D.entry i).remainingSize ≤ 2 ^ 64 + 2 ^ 11) (packetNumber : Nat) :
    ∃ k s, replayPrefix activeScheduler D packetNumber k = .ok s ∧
      isReplayFinished s.requestStatus = true ∧ ∀ i, s.statusOf i = .finished := by
  obtain ⟨start, hstart, hrunning⟩ := startReplay_running hD hsize packetNumber
  obtain ⟨k, s, hloop, hdone, hs⟩ := whilePrefix_terminates
    (Running D root) descends_wellFounded
    (fun s hs hdone => hs.iteration hsched hD hdone) hrunning
  refine ⟨k, s, ?_, hdone, (isReplayFinished_iff hs.queue.numbered).mp hdone⟩
  rw [replayPrefix, hstart, ok_bind, hloop]

/--
With a root entry, in-range dependencies and no cycle among the other entries,
`replay` ends with every request finished exactly when no response is larger
than `2 ^ 64 + 2048` bytes.
-/
theorem replay_terminates_iff {activeScheduler : SchedulerType}
    (hsched : activeScheduler.Implemented) {D : Dataset} {root : Fin D.size}
    (hD : Replayable D root) (packetNumber : Nat) :
    (∃ k s, replayPrefix activeScheduler D packetNumber k = .ok s ∧
      isReplayFinished s.requestStatus = true ∧
      ∀ i, s.statusOf i = .finished) ↔ ∀ i, (D.entry i).remainingSize ≤ 2 ^ 64 + 2 ^ 11 := by
  constructor
  · rintro ⟨k, s, hrun, -, hfinished⟩ i
    by_contra hi
    exact replayPrefix_oversized hsched hD.numbered hD.size_nonneg
      (by omega) hrun (hfinished i)
  · intro hsize
    exact hD.terminates hsched hsize packetNumber

private theorem samplePage_replayable : Replayable samplePage ⟨0, by decide⟩ where
  root_eq := by decide
  numbered := by decide
  size_nonneg := by decide
  dependency_lt := by decide
  wellFounded := by
    refine Subrelation.wf (r := fun j i => j < i) ?_ wellFounded_lt
    intro j i h
    revert j i
    simp only [DependsOn]
    decide

theorem replay_terminates_samplePage :
    ∃ k s, replayPrefix .dynamicFirstComeFirstServeScheduler samplePage 0 k = .ok s ∧
      isReplayFinished s.requestStatus = true ∧ ∀ i, s.statusOf i = .finished :=
  (replay_terminates_iff (by trivial) samplePage_replayable 0).mpr (by decide)

private theorem singlePage_replayable (size : Int) (h : 0 ≤ size) :
    Replayable (singlePage size) ⟨0, Nat.zero_lt_one⟩ where
  root_eq := rfl
  numbered :=
    ⟨fun | ⟨0, _⟩ => Nat.zero_lt_one, fun i j _ => Subsingleton.elim (α := Fin 1) i j⟩
  size_nonneg := fun | ⟨0, _⟩ => h
  dependency_lt i hi := absurd (Subsingleton.elim (α := Fin 1) i _) hi
  wellFounded := ⟨fun i => ⟨i, fun j hji =>
    absurd (Subsingleton.elim (α := Fin 1) j _) hji.1⟩⟩

/-- Cutting 1200 bytes off a larger float gives the same float again. -/
theorem replay_runs_forever :
    Replayable (singlePage (2 ^ 64 + 2 ^ 11 + 1)) ⟨0, Nat.zero_lt_one⟩ ∧
      ∀ activeScheduler : SchedulerType, activeScheduler.Implemented →
        ∀ (packetNumber k : Nat) (s : ReplayState (singlePage (2 ^ 64 + 2 ^ 11 + 1)).size),
          replayPrefix activeScheduler (singlePage (2 ^ 64 + 2 ^ 11 + 1)) packetNumber k = .ok s →
          isReplayFinished s.requestStatus = false := by
  have hD := singlePage_replayable (2 ^ 64 + 2 ^ 11 + 1) (by decide)
  refine ⟨hD, fun activeScheduler hsched packetNumber k s hrun => ?_⟩
  have hqueue := replayPrefix_queueInvariant hsched hD.numbered hrun
  rw [Bool.eq_false_iff, ne_eq, isReplayFinished_iff hqueue.numbered]
  intro hfinished
  exact replayPrefix_oversized hsched hD.numbered hD.size_nonneg
    (i := ⟨0, Nat.zero_lt_one⟩) (by decide) hrun (hfinished _)

end Qperf.HarConverter
