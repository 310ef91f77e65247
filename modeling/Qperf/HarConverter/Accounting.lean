import Qperf.HarConverter.Invariants
import Mathlib.Algebra.Order.BigOperators.Group.List
import Mathlib.Algebra.Order.Group.Int

/-!
# Byte accounting of the replay

The frames of one stream, read across all packets of the log, cut its initial
size into consecutive pieces.  While the stream is queued something is left to
send (or nothing has been sent yet); its last piece is the only one that is
flagged as finished.
-/

namespace Qperf.HarConverter

open Qperf.Foundation

variable {n : Nat}

def sumLengths (frames : List Frame) : Int := (frames.map Frame.length).sum

@[simp] theorem sumLengths_nil : sumLengths [] = 0 := rfl

@[simp] theorem sumLengths_cons (frame : Frame) (frames : List Frame) :
    sumLengths (frame :: frames) = frame.length + sumLengths frames := by
  simp [sumLengths]

@[simp] theorem sumLengths_append (first second : List Frame) :
    sumLengths (first ++ second) = sumLengths first + sumLengths second := by
  simp [sumLengths]

variable {D : Dataset} {after before frames : List Frame} {frame : Frame}
variable {remaining size : Int} {s : ReplayState D.size} {status : StreamStatus}

theorem sumLengths_nonneg
    (h : ∀ frame ∈ frames, 0 ≤ frame.length) : 0 ≤ sumLengths frames := by
  refine List.sum_nonneg fun length hlength => ?_
  obtain ⟨frame, hframe, rfl⟩ := List.mem_map.mp hlength
  exact h frame hframe

def ofStream (id : Nat) (frames : List Frame) : List Frame :=
  frames.filter fun frame => frame.resourceId = id

def framesOf (replayLog : List (List Frame)) (id : Nat) : List Frame :=
  ofStream id replayLog.flatten

@[simp] theorem ofStream_append (id : Nat) (first second : List Frame) :
    ofStream id (first ++ second) = ofStream id first ++ ofStream id second :=
  List.filter_append ..

theorem framesOf_append_packet (replayLog : List (List Frame)) (packet : List Frame) (id : Nat) :
    framesOf (replayLog ++ [packet]) id = framesOf replayLog id ++ ofStream id packet := by
  simp [framesOf]

/-! ## Packets -/

section Packet

variable {entries : Entries n} {queue : List (Fin n)} {packetNumber : Nat}
  {packet : Composition n}

private theorem sumLengths_lastFrames (entries : Entries n) (served : List (Fin n)) :
    sumLengths (served.map (lastFrame entries)) = totalRemaining entries served := by
  simp [sumLengths, totalRemaining, lastFrame, Function.comp_def]

theorem Fits.total_le {bytesAdded : Int} {served : List (Fin n)}
    (hroom : bytesAdded ≤ dataBlockSize) (h : Fits entries bytesAdded served) :
    bytesAdded + totalRemaining entries served ≤ dataBlockSize := by
  rcases List.eq_nil_or_concat served with rfl | ⟨before, i, rfl⟩
  · simpa using hroom
  · have := (h before i [] (by simp)).2
    simpa [Int.add_assoc] using this

theorem totalRemaining_nonneg (hsize : ∀ i ∈ queue, 0 ≤ (entries i).remainingSize) :
    0 ≤ totalRemaining entries queue := by
  refine List.sum_nonneg fun size h => ?_
  obtain ⟨i, hi, rfl⟩ := List.mem_map.mp h
  exact hsize i hi

theorem Packing.sumLengths_eq (h : Packing packetNumber entries queue 0 packet)
    (hsize : ∀ i ∈ queue, 0 ≤ (entries i).remainingSize) :
    sumLengths packet.recipe = min dataBlockSize (totalRemaining entries queue) := by
  cases h with
  | whole served rest hqueue hfits hstop =>
    have hle := hfits.total_le (by decide)
    have hrest : 0 ≤ totalRemaining entries rest :=
      totalRemaining_nonneg fun i hi => hsize i (by simp [hqueue, hi])
    rw [sumLengths_lastFrames, hqueue, totalRemaining_append]
    rcases hstop with rfl | hfull
    · simp only [totalRemaining_nil]
      omega
    · omega
  | cut served i rest remainingSize hqueue hfits hroom hlarge hsub =>
    have hrest : 0 ≤ totalRemaining entries rest :=
      totalRemaining_nonneg fun i hi => hsize i (by simp [hqueue, hi])
    simp only [sumLengths_append, sumLengths_lastFrames, sumLengths_cons,
      sumLengths_nil, hqueue, totalRemaining_append, totalRemaining_cons]
    omega

theorem Packing.length_nonneg (h : Packing packetNumber entries queue 0 packet)
    (hsize : ∀ i ∈ queue, 0 ≤ (entries i).remainingSize) :
    ∀ frame ∈ packet.recipe, 0 ≤ frame.length := by
  intro frame hframe
  cases h with
  | whole served rest hqueue hfits hstop =>
    obtain ⟨i, hi, rfl⟩ := List.mem_map.mp hframe
    exact hsize i (by simp [hqueue, hi])
  | cut served i rest remainingSize hqueue hfits hroom hlarge hsub =>
    rcases List.mem_append.mp hframe with hframe | hframe
    · obtain ⟨j, hj, rfl⟩ := List.mem_map.mp hframe
      exact hsize j (by simp [hqueue, hj])
    · simp only [List.mem_singleton] at hframe
      subst hframe
      simp only
      omega

/-! ## The frames of one stream in one packet -/

theorem ofStream_lastFrames (hnum : Numbered entries) {served : List (Fin n)}
    (hnodup : served.Nodup) (i : Fin n) :
    ofStream (entries i).resourceId (served.map (lastFrame entries)) =
      if i ∈ served then [lastFrame entries i] else [] := by
  induction served with
  | nil => rfl
  | cons j served ih =>
    obtain ⟨hj, hserved⟩ := List.nodup_cons.mp hnodup
    have ih := ih hserved
    simp only [ofStream] at ih
    simp only [ofStream, List.map_cons, List.filter_cons, ih]
    by_cases hij : i = j
    · subst hij
      simp [lastFrame, hj]
    · have hne : (entries j).resourceId ≠ (entries i).resourceId := by
        intro heq
        exact hij (hnum.injective heq.symm)
      simp [lastFrame, hij, hne]

inductive Served (entries : Entries n) (packet : Composition n)
    (i : Fin n) : Prop where
  | skipped
      (hframes : ofStream (entries i).resourceId packet.recipe = [])
      (hfinishes : ¬ Finishes packet.recipe (entries i).resourceId)
      (hsize : (packet.filteredEntries i).remainingSize = (entries i).remainingSize)
  | completed
      (hframes : ofStream (entries i).resourceId packet.recipe = [lastFrame entries i])
      (hfinishes : Finishes packet.recipe (entries i).resourceId)
      (hsize : (packet.filteredEntries i).remainingSize = 0)
  | cut (length : Int)
      (hframes : ofStream (entries i).resourceId packet.recipe =
        [⟨(entries i).resourceId, length, false⟩])
      (hfinishes : ¬ Finishes packet.recipe (entries i).resourceId)
      (hpos : 0 < length) (hlt : length < (entries i).remainingSize)
      (hsize : floatSub (entries i).remainingSize length =
        .ok (packet.filteredEntries i).remainingSize)

theorem finishes_lastFrames (hnum : Numbered entries) (served : List (Fin n)) (i : Fin n) :
    Finishes (served.map (lastFrame entries)) (entries i).resourceId ↔ i ∈ served := by
  constructor
  · rintro ⟨frame, hframe, -, hid⟩
    obtain ⟨j, hj, rfl⟩ := List.mem_map.mp hframe
    exact hnum.injective hid ▸ hj
  · intro hi
    exact ⟨lastFrame entries i, List.mem_map.mpr ⟨i, hi, rfl⟩, rfl, rfl⟩

theorem Packing.served (h : Packing packetNumber entries queue 0 packet)
    (hnum : Numbered entries) (hnodup : queue.Nodup) (i : Fin n) :
    Served entries packet i := by
  cases h with
  | whole served rest hqueue hfits hstop =>
    have hserved : served.Nodup := by
      rw [hqueue] at hnodup
      exact (List.nodup_append.mp hnodup).1
    have hframes := ofStream_lastFrames hnum hserved i
    have hfinishes := finishes_lastFrames hnum served i
    by_cases hi : i ∈ served
    · exact .completed (by simpa [hi] using hframes)
        (hfinishes.mpr hi) (by simp [serveAll, hi])
    · exact .skipped (by simpa [hi] using hframes)
        (fun h => hi (hfinishes.mp h)) (by simp [serveAll, hi])
  | cut served j rest remainingSize hqueue hfits hroom hlarge hsub =>
    rw [hqueue] at hnodup
    obtain ⟨hserved, hrest, hdisjoint⟩ := List.nodup_append.mp hnodup
    have hj : j ∉ served := fun hj => hdisjoint j hj j (by simp) rfl
    have hframes := ofStream_lastFrames hnum hserved i
    have hfinishes : Finishes (served.map (lastFrame entries) ++
        [⟨(entries j).resourceId,
          dataBlockSize - (0 + totalRemaining entries served), false⟩])
        (entries i).resourceId ↔ i ∈ served := by
      rw [finishes_append, finishes_lastFrames hnum, finishes_singleton]
      simp
    by_cases hij : i = j
    · subst hij
      refine .cut (dataBlockSize - (0 + totalRemaining entries served))
        ?_ (fun h => hj (hfinishes.mp h)) (by omega) (by omega) ?_
      · simp [hframes, hj]
        simp [ofStream]
      · simpa [cutStream] using hsub
    · have hne : (entries j).resourceId ≠ (entries i).resourceId := by
        intro heq
        exact hij (hnum.injective heq.symm)
      by_cases hi : i ∈ served
      · refine .completed ?_ (hfinishes.mpr hi) ?_
        · simp [hframes, hi]
          simp [ofStream, hne]
        · simp [cutStream, Function.update_of_ne hij, serveAll, hi]
      · refine .skipped ?_ (fun h => hi (hfinishes.mp h)) ?_
        · simp [hframes, hi]
          simp [ofStream, hne]
        · simp [cutStream, Function.update_of_ne hij, serveAll, hi]

end Packet

/-! ## Histories of one stream -/

structure Sending (size remaining : Int) (frames : List Frame) : Prop where
  unfinished : ∀ frame ∈ frames, frame.isFinished = false
  nonneg : ∀ frame ∈ frames, 0 ≤ frame.length
  total : sumLengths frames + remaining = size
  remaining_nonneg : 0 ≤ remaining
  pending : frames = [] ∨ 0 < remaining

def Sent (size : Int) (frames : List Frame) : Prop :=
  ∃ earlier last, frames = earlier ++ [last] ∧ last.isFinished = true ∧
    Sending size last.length earlier

def StreamAccount (size remaining : Int) (frames : List Frame) : StreamStatus → Prop
  | .unavailable => frames = [] ∧ remaining = size
  | .enqueued => Sending size remaining frames
  | .finished => remaining = 0 ∧ Sent size frames

theorem Sending.fresh (h : 0 ≤ size) : Sending size size [] where
  unfinished := by simp
  nonneg := by simp
  total := by simp
  remaining_nonneg := h
  pending := Or.inl rfl

theorem Sending.remaining_le
    (h : Sending size remaining frames) : remaining ≤ size := by
  have hsum := sumLengths_nonneg h.nonneg
  have htotal := h.total
  omega

theorem Sending.cut {length : Int}
    (h : Sending size remaining frames) (hpos : 0 < length)
    (hlt : length < remaining) (id : Nat) :
    Sending size (remaining - length) (frames ++ [⟨id, length, false⟩]) where
  unfinished frame hframe := by
    rcases List.mem_append.mp hframe with hframe | hframe
    · exact h.unfinished frame hframe
    · simp only [List.mem_singleton] at hframe
      rw [hframe]
  nonneg frame hframe := by
    rcases List.mem_append.mp hframe with hframe | hframe
    · exact h.nonneg frame hframe
    · simp only [List.mem_singleton] at hframe
      subst hframe
      exact Int.le_of_lt hpos
  total := by
    have htotal := h.total
    simp only [sumLengths_append, sumLengths_cons, sumLengths_nil]
    omega
  remaining_nonneg := by omega
  pending := Or.inr (by omega)

theorem Sending.at_frame (h : Sending size remaining (before ++ frame :: after)) :
    frame.isFinished = false ∧ sumLengths (before ++ [frame]) < size := by
  refine ⟨h.unfinished frame (by simp), ?_⟩
  have hafter : 0 ≤ sumLengths after :=
    sumLengths_nonneg fun f hf => h.nonneg f (by simp [hf])
  have htotal := h.total
  have hpending : 0 < remaining := by
    rcases h.pending with hnil | hpos
    · simp at hnil
    · exact hpos
  simp only [sumLengths_append, sumLengths_cons, sumLengths_nil] at htotal ⊢
  omega

theorem Sent.total {size : Int} {frames : List Frame} (h : Sent size frames) :
    sumLengths frames = size := by
  obtain ⟨earlier, last, rfl, -, hsending⟩ := h
  simpa using hsending.total

theorem Sent.at_frame (h : Sent size (before ++ frame :: after)) :
    (frame.isFinished = true ↔ sumLengths (before ++ [frame]) = size) ∧
      (frame.isFinished = true → after = []) := by
  have htotal := h.total
  obtain ⟨earlier, last, hsplit, hlast, hsending⟩ := h
  rcases List.eq_nil_or_concat after with rfl | ⟨after, final, rfl⟩
  · obtain ⟨rfl, hframe⟩ := List.append_inj' hsplit rfl
    simp only [List.cons.injEq, and_true] at hframe
    subst hframe
    exact ⟨by simp [hlast, htotal], fun _ => rfl⟩
  · have hassoc : (before ++ frame :: after) ++ [final] = earlier ++ [last] := by
      simpa using hsplit
    obtain ⟨rfl, -⟩ := List.append_inj' hassoc rfl
    obtain ⟨hunfinished, hlt⟩ := hsending.at_frame
    constructor
    · simp only [hunfinished, Bool.false_eq_true, false_iff]
      omega
    · simp [hunfinished]

theorem StreamAccount.total {size remaining : Int} {frames : List Frame}
    {status : StreamStatus} (h : StreamAccount size remaining frames status) :
    sumLengths frames + remaining = size := by
  cases status with
  | unavailable =>
    obtain ⟨rfl, rfl⟩ := h
    simp
  | enqueued => exact Sending.total h
  | finished =>
    obtain ⟨rfl, hsent⟩ := h
    simpa using hsent.total

theorem StreamAccount.at_frame
    (h : StreamAccount size remaining (before ++ frame :: after) status) :
    (frame.isFinished = true ↔ sumLengths (before ++ [frame]) = size) ∧
      (frame.isFinished = true → after = []) := by
  cases status with
  | unavailable => simp [StreamAccount] at h
  | enqueued =>
    obtain ⟨hunfinished, hlt⟩ := Sending.at_frame h
    constructor
    · simp only [hunfinished, Bool.false_eq_true, false_iff]
      omega
    · simp [hunfinished]
  | finished => exact h.2.at_frame

theorem StreamAccount.countP_le_one (h : StreamAccount size remaining frames status) :
    frames.countP Frame.isFinished ≤ 1 := by
  have hzero : ∀ {remaining : Int} {frames : List Frame},
      Sending size remaining frames → frames.countP Frame.isFinished = 0 := by
    intro remaining frames h
    rw [List.countP_eq_zero]
    intro frame hframe
    simp [h.unfinished frame hframe]
  cases status with
  | unavailable => simp [h.1]
  | enqueued => simp [hzero h]
  | finished =>
    obtain ⟨earlier, last, rfl, hlast, hsending⟩ := h.2
    simp [List.countP_append, hzero hsending, hlast]

theorem StreamAccount.remaining_bounds (hsize : 0 ≤ size)
    (h : StreamAccount size remaining frames status) :
    0 ≤ remaining ∧ remaining ≤ size := by
  cases status with
  | unavailable =>
    obtain ⟨-, rfl⟩ := h
    exact ⟨hsize, Int.le_refl _⟩
  | enqueued => exact ⟨Sending.remaining_nonneg h, Sending.remaining_le h⟩
  | finished =>
    obtain ⟨rfl, -⟩ := h
    exact ⟨Int.le_refl _, hsize⟩

/-! ## Runs -/

/-- Every stream's frames account for the bytes that it no longer has. -/
def Accounted (D : Dataset) (s : ReplayState D.size) : Prop :=
  ∀ i, StreamAccount (D.entry i).remainingSize
    (s.filteredEntries i).remainingSize
    (framesOf s.replayLog (s.filteredEntries i).resourceId) (s.statusOf i)

theorem Accounted.after_release (hnum : Numbered s.filteredEntries)
    (hsize : ∀ i, 0 ≤ (D.entry i).remainingSize) (h : Accounted D s) :
    Accounted D (released s) := by
  intro i
  rw [released_remainingSize, released_replayLog,
    resourceId_of_request (released_request s i), statusOf_released hnum]
  have hi := h i
  split
  · rename_i hready
    rw [statusOf_of_mem_newlyReady hready] at hi
    obtain ⟨hframes, hremaining⟩ := hi
    rw [hframes, hremaining]
    exact Sending.fresh (hsize i)
  · exact hi

theorem Accounted.after_packet
    (hinv : QueueInvariant s) (hsize : ∀ i, 0 ≤ (D.entry i).remainingSize ∧
      (D.entry i).remainingSize ≤ 2 ^ 53)
    (h : Accounted D s) {packetNumber : Nat} {ordered : List (Fin D.size)}
    {packet : Composition D.size} (hperm : ordered.Perm s.activeStreamQueue)
    (hpacking : Packing packetNumber s.filteredEntries ordered 0 packet) :
    Accounted D (recorded s packet) := by
  intro i
  have hnum := hinv.numbered
  have hbounds := fun j => (h j).remaining_bounds (hsize j).1
  have hserved := hpacking.served hnum (hperm.nodup_iff.mpr hinv.nodup) i
  have hqueued : ofStream (s.filteredEntries i).resourceId packet.recipe ≠ [] →
      s.statusOf i = .enqueued := by
    intro hne
    obtain ⟨frame, hframe⟩ := List.exists_mem_of_ne_nil _ hne
    obtain ⟨hmem, hid⟩ := List.mem_filter.mp hframe
    obtain ⟨j, hj, hjd⟩ := hpacking.mem_of_frame hmem
    have hij : i = j := by
      apply hnum.injective
      simp only [decide_eq_true_eq] at hid
      exact hid.symm.trans hjd
    subst hij
    exact (hinv.mem_queue i).mp (hperm.mem_iff.mp hj)
  rw [recorded_remainingSize, recorded_replayLog, framesOf_append_packet,
    resourceId_of_request ((recorded_request s packet i).trans
      (hpacking.request i)),
    statusOf_recorded hpacking.request hnum]
  have hi := h i
  cases hserved with
  | skipped hframes hfinishes hremaining =>
    rw [if_neg hfinishes, hframes, hremaining, List.append_nil]
    exact hi
  | completed hframes hfinishes hremaining =>
    rw [hqueued (by simp [hframes])] at hi
    rw [if_pos hfinishes, hframes, hremaining]
    exact ⟨rfl, _, _, rfl, rfl, hi⟩
  | cut length hframes hfinishes hpos hlt hremaining =>
    have hstatus := hqueued (by simp [hframes])
    rw [hstatus] at hi
    have hle := (hbounds i).2
    rw [floatSub_of_le (by omega) (by omega) (Int.le_trans hle (hsize i).2)] at hremaining
    simp only [Except.ok.injEq] at hremaining
    rw [if_neg hfinishes, hframes, ← hremaining, hstatus]
    exact Sending.cut hi hpos hlt _

private theorem startReplay_accounted (hnum : Numbered D.entry)
    (hsize : ∀ i, 0 ≤ (D.entry i).remainingSize) {packetNumber : Nat}
    (h : startReplay D packetNumber = .ok s) :
    Accounted D s := by
  obtain ⟨root, -, rfl⟩ := startReplay_cases h
  intro i
  have hremaining : ((releaseAll (D.idle packetNumber)
      [root]).filteredEntries i).remainingSize = (D.entry i).remainingSize := by
    simp only [releaseAll]
    split <;> rfl
  rw [hremaining, statusOf_start hnum]
  split
  · exact Sending.fresh (hsize i)
  · exact ⟨rfl, rfl⟩

structure ByteAccounting (activeScheduler : SchedulerType) (D : Dataset)
    (s : ReplayState D.size) : Prop where
  packet : ∀ ready packet, isReplayFinished s.requestStatus = false →
    enqueueReady s = .ok ready →
    composePacket activeScheduler ready = .ok packet →
    (∀ frame ∈ packet.recipe, 0 ≤ frame.length) ∧
      sumLengths packet.recipe = min dataBlockSize
        (totalRemaining ready.filteredEntries ready.activeStreamQueue)
  stream : ∀ i, sumLengths (framesOf s.replayLog (D.entry i).resourceId) +
    (s.filteredEntries i).remainingSize = (D.entry i).remainingSize
  finish_once : ∀ i, (framesOf s.replayLog
    (D.entry i).resourceId).countP Frame.isFinished ≤ 1
  finish_exact : ∀ i before frame after,
    s.replayLog.flatten = before ++ frame :: after →
    frame.resourceId = (D.entry i).resourceId →
    (frame.isFinished = true ↔
      sumLengths (ofStream (D.entry i).resourceId (before ++ [frame])) =
        (D.entry i).remainingSize) ∧
      (frame.isFinished = true → ∀ later ∈ after, later.resourceId ≠ (D.entry i).resourceId)

theorem Accounted.byteAccounting {activeScheduler : SchedulerType}
    (hsched : activeScheduler.Implemented) (hsize : ∀ i, 0 ≤ (D.entry i).remainingSize)
    (hinv : QueueInvariant s) (h : Accounted D s)
    (hrequest : ∀ i, (s.filteredEntries i).request = (D.entry i).request) :
    ByteAccounting activeScheduler D s := by
  have haccount : ∀ i, StreamAccount (D.entry i).remainingSize (s.filteredEntries i).remainingSize
      (framesOf s.replayLog (D.entry i).resourceId) (s.statusOf i) := by
    intro i
    have hi := h i
    rwa [resourceId_of_request (hrequest i)] at hi
  constructor
  · intro ready packet _ hready hpacket
    have heq := enqueueReady_eq hinv.numbered hready
    subst heq
    obtain ⟨ordered, -, hperm, hpacking⟩ :=
      composeNextPacket_packing hsched hinv.released.nodup hpacket
    have hnonneg : ∀ i ∈ ordered, 0 ≤ ((released s).filteredEntries i).remainingSize := by
      intro i _
      rw [released_remainingSize]
      exact ((h i).remaining_bounds (hsize i)).1
    refine ⟨hpacking.length_nonneg hnonneg, ?_⟩
    rw [hpacking.sumLengths_eq hnonneg]
    congr 1
    exact (hperm.map _).sum_eq
  · intro i
    exact (haccount i).total
  · intro i
    exact (haccount i).countP_le_one
  · intro i before frame after hlog hid
    have hi := haccount i
    have hsplit : framesOf s.replayLog (D.entry i).resourceId =
        ofStream (D.entry i).resourceId before ++
          frame :: ofStream (D.entry i).resourceId after := by
      simp [framesOf, hlog, ofStream, hid]
    rw [hsplit] at hi
    obtain ⟨hiff, hafter⟩ := hi.at_frame
    refine ⟨?_, fun hfinished later hlater hlid => ?_⟩
    · simpa [ofStream, hid] using hiff
    · have hmem : later ∈ ofStream (D.entry i).resourceId after :=
        List.mem_filter.mpr ⟨hlater, by simp [hlid]⟩
      rw [hafter hfinished] at hmem
      simp at hmem

theorem replayPrefix_request {activeScheduler : SchedulerType}
    (hsched : activeScheduler.Implemented) (hnum : Numbered D.entry) {packetNumber k : Nat}
    (hrun : replayPrefix activeScheduler D packetNumber k = .ok s)
    (i : Fin D.size) : (s.filteredEntries i).request = (D.entry i).request := by
  refine (replayPrefix_induct hsched hnum packetNumber
    (fun s => ∀ i, (s.filteredEntries i).request = (D.entry i).request)
    ?_ ?_ hrun).2 i
  · intro s hs i
    obtain ⟨root, -, rfl⟩ := startReplay_cases hs
    exact releaseAll_request _ _ _
  · intro s ordered packet _ hs _ _ _ hpacking i
    rw [recorded_request, hpacking.request, released_request, hs]

/--
Byte accounting over every prefix of a run, for sizes that the float arithmetic
of the schedulers represents exactly.
-/
theorem replay_byte_accounting {activeScheduler : SchedulerType}
    (hsched : activeScheduler.Implemented) {D : Dataset} (hnum : Numbered D.entry)
    (hsize : ∀ i, 0 ≤ (D.entry i).remainingSize ∧ (D.entry i).remainingSize ≤ 2 ^ 53)
    {packetNumber k : Nat} {s : ReplayState D.size}
    (hrun : replayPrefix activeScheduler D packetNumber k = .ok s) :
    ByteAccounting activeScheduler D s := by
  have hnonneg : ∀ i, 0 ≤ (D.entry i).remainingSize := fun i => (hsize i).1
  obtain ⟨hinv, haccounted⟩ := replayPrefix_induct hsched hnum packetNumber
    (Accounted D) (fun s hs => startReplay_accounted hnum hnonneg hs)
    (fun s ordered packet hinv hs _ _ hperm hpacking =>
      (hs.after_release hinv.numbered hnonneg).after_packet hinv.released hsize hperm
        hpacking) hrun
  exact haccounted.byteAccounting hsched hnonneg hinv
    (replayPrefix_request hsched hnum hrun)

theorem replay_byte_accounting_samplePage :
    ∃ s, replayPrefix .dynamicFirstComeFirstServeScheduler samplePage 0 4 =
        .ok s ∧ s.replayLog.length = 4 ∧
      ByteAccounting .dynamicFirstComeFirstServeScheduler samplePage s := by
  obtain ⟨s, hrun, hlength⟩ := map_eq_ok
    (x := replayPrefix .dynamicFirstComeFirstServeScheduler samplePage 0 4)
    (f := fun s => s.replayLog.length) (b := 4) (by decide +kernel)
  exact ⟨s, hrun, hlength, replay_byte_accounting (by trivial) (by decide) (by decide) hrun⟩

/--
One byte above `2 ^ 53` the first cut already rounds: the frame carries 1200
bytes, but the size drops by 1201.
-/
theorem replay_loses_byte_above_float_precision :
    Numbered (singlePage (2 ^ 53 + 1)).entry ∧
      (∀ i, 0 ≤ ((singlePage (2 ^ 53 + 1)).entry i).remainingSize) ∧
      ∃ s, replayPrefix .naiveRoundRobinScheduler (singlePage (2 ^ 53 + 1)) 0 1 = .ok s ∧
        ¬ ByteAccounting .naiveRoundRobinScheduler (singlePage (2 ^ 53 + 1)) s := by
  refine ⟨by decide, by decide, ?_⟩
  obtain ⟨s, hrun, htotal⟩ := map_eq_ok
    (x := replayPrefix .naiveRoundRobinScheduler (singlePage (2 ^ 53 + 1)) 0 1)
    (f := fun s => sumLengths (framesOf s.replayLog 0) +
      (s.filteredEntries ⟨0, by decide⟩).remainingSize)
    (b := 2 ^ 53) (by decide +kernel)
  refine ⟨s, hrun, fun h => ?_⟩
  have hstream := h.stream ⟨0, by decide⟩
  have hid : ((singlePage (2 ^ 53 + 1)).entry ⟨0, by decide⟩).resourceId = 0 := rfl
  have hsize : ((singlePage (2 ^ 53 + 1)).entry ⟨0, by decide⟩).remainingSize =
      2 ^ 53 + 1 := rfl
  rw [hid, hsize] at hstream
  omega

end Qperf.HarConverter
