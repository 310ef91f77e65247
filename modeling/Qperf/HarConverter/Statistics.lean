import Qperf.HarConverter.Fairness
import Qperf.HarConverter.Timing
import Mathlib.Data.Fintype.Basic
import Mathlib.Data.Rat.Defs
import Mathlib.Order.WithBot

/-!
# Timing statistics

`compute_classified_timing_statistics` averages the times of the entries over four classes.
The table of the classes is fixed, while the resource types come from the HAR file: a type
without a class raises `KeyError`, and a class without entries raises `ZeroDivisionError`.
The averages are kept as exact quotients.
-/

namespace Qperf.HarConverter

open Qperf.Foundation

/-! ## The table -/

inductive StatisticsError where
  | keyError
  | typeError
  | zeroDivisionError
  deriving DecidableEq, Repr

inductive StatisticsClass where
  | criticalPath
  | image
  | xhr
  | other
  deriving DecidableEq, Repr

instance : Fintype StatisticsClass where
  elems := {.criticalPath, .image, .xhr, .other}
  complete row := by cases row <;> decide

def StatisticsClass.ofKey (key : String) : Option StatisticsClass :=
  if key = "critical_path" then some .criticalPath
  else if key = "image" then some .image
  else if key = "xhr" then some .xhr
  else if key = "other" then some .other
  else none

/-- A row of the table, with sums or averages.  No request has started at time `⊤`. -/
structure TimingStatistics (τ : Type) where
  requestCount : Nat
  enqueuedAt : τ
  queuedFor : τ
  startedAt : τ
  finishedAt : τ
  transmissionTime : τ
  minStartTime : WithTop Nat
  maxFinishTime : Nat
  deriving DecidableEq

def resultTemplate : TimingStatistics Int where
  requestCount := 0
  enqueuedAt := 0
  queuedFor := 0
  startedAt := 0
  finishedAt := 0
  transmissionTime := 0
  minStartTime := ⊤
  maxFinishTime := 0

/-! ## Samples -/

structure Times where
  enqueuedAt : Nat
  queuedFor : Int
  startedAt : Nat
  finishedAt : Nat
  transmissionTime : Int

/-- Adding `None` to a number raises. -/
def Entry.times (entry : Entry) : Except StatisticsError Times :=
  match entry.enqueuedAt, entry.queuedFor, entry.startedAt, entry.finishedAt,
    entry.transmissionTime with
  | some enqueuedAt, some queuedFor, some startedAt, some finishedAt,
    some transmissionTime =>
      .ok ⟨enqueuedAt, queuedFor, startedAt, finishedAt, transmissionTime⟩
  | _, _, _, _, _ => .error .typeError

def TimingStatistics.add (row : TimingStatistics Int) (times : Times) :
    TimingStatistics Int where
  requestCount := row.requestCount + 1
  enqueuedAt := row.enqueuedAt + times.enqueuedAt
  queuedFor := row.queuedFor + times.queuedFor
  startedAt := row.startedAt + times.startedAt
  finishedAt := row.finishedAt + times.finishedAt
  transmissionTime := row.transmissionTime + times.transmissionTime
  minStartTime :=
    if (times.startedAt : WithTop Nat) < row.minStartTime then times.startedAt
    else row.minStartTime
  maxFinishTime :=
    if times.finishedAt > row.maxFinishTime then times.finishedAt else row.maxFinishTime

abbrev StatisticsTable (τ : Type) := StatisticsClass → TimingStatistics τ

def addNewStatisticSample (resourceType : String) (entry : Entry)
    (timingStatistics : StatisticsTable Int) :
    Except StatisticsError (StatisticsTable Int) :=
  match StatisticsClass.ofKey resourceType with
  | none => .error .keyError
  | some row => do
    let times ← entry.times
    .ok (Function.update timingStatistics row ((timingStatistics row).add times))

def Entry.statisticsKey (entry : Entry) : String :=
  if entry.resourceType = "document" ∨ entry.resourceType = "stylesheet" ∨
      entry.resourceType = "script" then "critical_path"
  else entry.resourceType

/-- The first loop of `compute_classified_timing_statistics`. -/
def collectSamples (filteredEntries : List Entry) :
    Except StatisticsError (StatisticsTable Int) :=
  filteredEntries.foldlM
    (fun timingStatistics entry =>
      addNewStatisticSample entry.statisticsKey entry timingStatistics)
    (fun _ => resultTemplate)

def TimingStatistics.average (row : TimingStatistics Int) :
    Except StatisticsError (TimingStatistics ℚ) :=
  if row.requestCount = 0 then .error .zeroDivisionError
  else .ok
    { requestCount := row.requestCount
      enqueuedAt := (row.enqueuedAt : ℚ) / row.requestCount
      queuedFor := (row.queuedFor : ℚ) / row.requestCount
      startedAt := (row.startedAt : ℚ) / row.requestCount
      finishedAt := (row.finishedAt : ℚ) / row.requestCount
      transmissionTime := (row.transmissionTime : ℚ) / row.requestCount
      minStartTime := row.minStartTime
      maxFinishTime := row.maxFinishTime }

def computeClassifiedTimingStatistics (filteredEntries : List Entry) :
    Except StatisticsError (StatisticsTable ℚ) := do
  let sums ← collectSamples filteredEntries
  let criticalPath ← (sums .criticalPath).average
  let image ← (sums .image).average
  let xhr ← (sums .xhr).average
  let other ← (sums .other).average
  .ok fun
    | .criticalPath => criticalPath
    | .image => image
    | .xhr => xhr
    | .other => other

/-! ## Collecting samples -/

def Entry.statisticsClass (entry : Entry) : Option StatisticsClass :=
  StatisticsClass.ofKey entry.statisticsKey

def InClass (row : StatisticsClass) (entry : Entry) : Prop :=
  entry.statisticsClass = some row

instance (row : StatisticsClass) : DecidablePred (InClass row) :=
  fun _ => inferInstanceAs (Decidable (_ = _))

structure Summarizes {τ : Type} (entries : List Entry) (row : StatisticsClass)
    (stats : TimingStatistics τ) : Prop where
  requestCount : stats.requestCount = entries.countP (InClass row ·)
  minStartTime : ∀ entry ∈ entries, InClass row entry → ∀ startedAt ∈ entry.startedAt,
    stats.minStartTime ≤ startedAt
  maxFinishTime : ∀ entry ∈ entries, InClass row entry → ∀ finishedAt ∈ entry.finishedAt,
    finishedAt ≤ stats.maxFinishTime

structure Sampled (entries : List Entry) (sums : StatisticsTable Int) : Prop where
  known : ∀ entry ∈ entries, ∃ row, InClass row entry
  rows : ∀ row, Summarizes entries row (sums row)

private theorem times_eq_ok {entry : Entry} {times : Times} (h : entry.times = .ok times) :
    entry.startedAt = some times.startedAt ∧ entry.finishedAt = some times.finishedAt := by
  unfold Entry.times at h
  split at h
  · cases h
    exact ⟨‹_›, ‹_›⟩
  · cases h

section Summarizes

variable {τ : Type} {entries : List Entry} {row : StatisticsClass} {entry : Entry}

theorem Summarizes.add {stats : TimingStatistics Int} (h : Summarizes entries row stats)
    {times : Times} (hclass : InClass row entry) (htimes : entry.times = .ok times) :
    Summarizes (entries ++ [entry]) row (stats.add times) := by
  obtain ⟨hstarted, hfinished⟩ := times_eq_ok htimes
  constructor
  · rw [List.countP_append, ← h.requestCount]
    simp [TimingStatistics.add, hclass]
  · intro other hother hin startedAt hstart
    simp only [TimingStatistics.add]
    rcases List.mem_append.mp hother with hold | hlast
    · have hle := h.minStartTime other hold hin startedAt hstart
      split
      · next hlt => exact hlt.le.trans hle
      · exact hle
    · obtain rfl := List.mem_singleton.mp hlast
      obtain rfl : times.startedAt = startedAt := by
        simpa [hstarted] using hstart
      split
      · exact le_rfl
      · next hnot => exact not_lt.mp hnot
  · intro other hother hin finishedAt hfinish
    simp only [TimingStatistics.add]
    rcases List.mem_append.mp hother with hold | hlast
    · have hle := h.maxFinishTime other hold hin finishedAt hfinish
      split <;> omega
    · obtain rfl := List.mem_singleton.mp hlast
      obtain rfl : times.finishedAt = finishedAt := by
        simpa [hfinished] using hfinish
      split <;> omega

theorem Summarizes.skip {stats : TimingStatistics τ} (h : Summarizes entries row stats)
    (hclass : ¬ InClass row entry) : Summarizes (entries ++ [entry]) row stats := by
  have hmem : ∀ other ∈ entries ++ [entry], InClass row other → other ∈ entries := by
    intro other hother hin
    rcases List.mem_append.mp hother with hold | hlast
    · exact hold
    · exact absurd (List.mem_singleton.mp hlast ▸ hin) hclass
  constructor
  · rw [List.countP_append, ← h.requestCount]
    simp [hclass]
  · exact fun other hother hin => h.minStartTime other (hmem other hother hin) hin
  · exact fun other hother hin => h.maxFinishTime other (hmem other hother hin) hin

private theorem addNewStatisticSample_of_inClass {times : Times} (hclass : InClass row entry)
    (htimes : entry.times = .ok times) (sums : StatisticsTable Int) :
    addNewStatisticSample entry.statisticsKey entry sums =
      .ok (Function.update sums row ((sums row).add times)) := by
  have hkey : StatisticsClass.ofKey entry.statisticsKey = some row := hclass
  rw [addNewStatisticSample, hkey, htimes]
  rfl

theorem Sampled.add {sums : StatisticsTable Int} (h : Sampled entries sums) {times : Times}
    (hclass : InClass row entry) (htimes : entry.times = .ok times) :
    Sampled (entries ++ [entry]) (Function.update sums row ((sums row).add times)) := by
  constructor
  · intro other hother
    rcases List.mem_append.mp hother with hold | hlast
    · exact h.known other hold
    · exact ⟨row, List.mem_singleton.mp hlast ▸ hclass⟩
  · intro row'
    by_cases hrow : row' = row
    · subst hrow
      rw [Function.update_self]
      exact (h.rows row').add hclass htimes
    · rw [Function.update_of_ne hrow]
      exact (h.rows row').skip fun hin => hrow (Option.some.inj (hin.symm.trans hclass))

end Summarizes

theorem sampled_nil : Sampled [] fun _ => resultTemplate :=
  ⟨by simp, fun row => ⟨by simp [resultTemplate], by simp, by simp⟩⟩

section Table

variable {entries : List Entry}

theorem collectSamples_of_known (htimes : ∀ entry ∈ entries, ∃ times, entry.times = .ok times)
    (hknown : ∀ entry ∈ entries, ∃ row, InClass row entry) :
    ∃ sums, collectSamples entries = .ok sums ∧ Sampled entries sums := by
  refine foldlM_total_induct Sampled ?_ sampled_nil
  intro before entry after sums hsplit hsampled
  have hmem : entry ∈ entries := by simp [hsplit]
  obtain ⟨row, hrow⟩ := hknown entry hmem
  obtain ⟨times, hok⟩ := htimes entry hmem
  exact ⟨_, addNewStatisticSample_of_inClass hrow hok sums, hsampled.add hrow hok⟩

private theorem collectSamples_eq_ok {sums : StatisticsTable Int}
    (h : collectSamples entries = .ok sums) : Sampled entries sums := by
  refine foldlM_ok_induct Sampled ?_ sampled_nil h
  intro before entry after sums sums' _ hsampled hadd
  unfold addNewStatisticSample at hadd
  split at hadd
  · cases hadd
  · next row hrow =>
    obtain ⟨times, htimes, hadd⟩ := bind_eq_ok.mp hadd
    cases hadd
    exact hsampled.add hrow htimes

/-! ## Averages -/

theorem Summarizes.average {row : StatisticsClass} {sums : TimingStatistics Int}
    {averages : TimingStatistics ℚ} (h : Summarizes entries row sums)
    (haverage : sums.average = .ok averages) :
    Summarizes entries row averages ∧ ∃ entry ∈ entries, InClass row entry := by
  unfold TimingStatistics.average at haverage
  split at haverage
  · cases haverage
  · next hcount =>
    cases haverage
    refine ⟨⟨h.requestCount, h.minStartTime, h.maxFinishTime⟩, ?_⟩
    rw [h.requestCount, ← Ne, ← Nat.pos_iff_ne_zero, List.countP_pos_iff] at hcount
    simpa using hcount

theorem Summarizes.exists_average {row : StatisticsClass} {sums : TimingStatistics Int}
    (h : Summarizes entries row sums) (hentry : ∃ entry ∈ entries, InClass row entry) :
    ∃ averages, sums.average = .ok averages := by
  have hcount : sums.requestCount ≠ 0 := by
    rw [h.requestCount, ← Nat.pos_iff_ne_zero, List.countP_pos_iff]
    simpa using hentry
  exact ⟨_, if_neg hcount⟩

theorem computeClassifiedTimingStatistics_eq_ok {stats : StatisticsTable ℚ}
    (h : computeClassifiedTimingStatistics entries = .ok stats) :
    (∀ entry ∈ entries, ∃ row, InClass row entry) ∧
      ∀ row, Summarizes entries row (stats row) ∧ ∃ entry ∈ entries, InClass row entry := by
  obtain ⟨sums, hsums, h⟩ := bind_eq_ok.mp h
  obtain ⟨criticalPath, hcriticalPath, h⟩ := bind_eq_ok.mp h
  obtain ⟨image, himage, h⟩ := bind_eq_ok.mp h
  obtain ⟨xhr, hxhr, h⟩ := bind_eq_ok.mp h
  obtain ⟨other, hother, h⟩ := bind_eq_ok.mp h
  cases h
  have hsampled := collectSamples_eq_ok hsums
  refine ⟨hsampled.known, fun row => ?_⟩
  cases row with
  | criticalPath => exact (hsampled.rows .criticalPath).average hcriticalPath
  | image => exact (hsampled.rows .image).average himage
  | xhr => exact (hsampled.rows .xhr).average hxhr
  | other => exact (hsampled.rows .other).average hother

private theorem computeClassifiedTimingStatistics_of_known
    (htimes : ∀ entry ∈ entries, ∃ times, entry.times = .ok times)
    (hknown : ∀ entry ∈ entries, ∃ row, InClass row entry)
    (hused : ∀ row, ∃ entry ∈ entries, InClass row entry) :
    ∃ stats, computeClassifiedTimingStatistics entries = .ok stats := by
  obtain ⟨sums, hsums, hsampled⟩ := collectSamples_of_known htimes hknown
  choose averages haverages using fun row => (hsampled.rows row).exists_average (hused row)
  rw [computeClassifiedTimingStatistics, hsums]
  simp only [ok_bind, haverages]
  exact ⟨_, rfl⟩

theorem countP_classes (hknown : ∀ entry ∈ entries, ∃ row, InClass row entry) :
    entries.countP (InClass .criticalPath ·) + entries.countP (InClass .image ·) +
      entries.countP (InClass .xhr ·) + entries.countP (InClass .other ·) = entries.length := by
  induction entries with
  | nil => rfl
  | cons entry entries ih =>
    obtain ⟨⟨row, hrow⟩, hrest⟩ := List.forall_mem_cons.mp hknown
    have hcount := ih hrest
    have hin : ∀ row', InClass row' entry ↔ row' = row := fun row' =>
      ⟨fun h => Option.some.inj (h.symm.trans hrow), fun h => h ▸ hrow⟩
    simp only [List.countP_cons, List.length_cons, hin]
    cases row <;> simp <;> omega

structure Classifies (entries : List Entry) (stats : StatisticsTable ℚ) : Prop where
  total : (stats .criticalPath).requestCount + (stats .image).requestCount +
    (stats .xhr).requestCount + (stats .other).requestCount = entries.length
  rows : ∀ row, Summarizes entries row (stats row)

theorem classifies_iff (htimes : ∀ entry ∈ entries, ∃ times, entry.times = .ok times) :
    (∃ stats, computeClassifiedTimingStatistics entries = .ok stats ∧
        Classifies entries stats) ↔
      (∀ entry ∈ entries, ∃ row, InClass row entry) ∧
        ∀ row, ∃ entry ∈ entries, InClass row entry := by
  constructor
  · rintro ⟨stats, hok, -⟩
    obtain ⟨hknown, hrows⟩ := computeClassifiedTimingStatistics_eq_ok hok
    exact ⟨hknown, fun row => (hrows row).2⟩
  · rintro ⟨hknown, hused⟩
    obtain ⟨stats, hok⟩ := computeClassifiedTimingStatistics_of_known htimes hknown hused
    have hrows := fun row => ((computeClassifiedTimingStatistics_eq_ok hok).2 row).1
    refine ⟨stats, hok, ?_, hrows⟩
    rw [(hrows .criticalPath).requestCount, (hrows .image).requestCount,
      (hrows .xhr).requestCount, (hrows .other).requestCount]
    exact countP_classes hknown

end Table

/-! ## After a replay -/

theorem EntryTimes.times {replayLog : List (List Frame)} {entry : Entry}
    {enqueuedAt startedAt finishedAt : Nat} {queuedFor transmissionTime : Int}
    (h : EntryTimes replayLog entry enqueuedAt startedAt finishedAt queuedFor
      transmissionTime) : ∃ times, entry.times = .ok times := by
  refine ⟨⟨enqueuedAt, queuedFor, startedAt, finishedAt, transmissionTime⟩, ?_⟩
  rw [Entry.times, h.enqueuedAt_eq, h.queuedFor_eq, h.startedAt_eq, h.finishedAt_eq,
    h.transmissionTime_eq]

def StatisticsClass.types : StatisticsClass → List String
  | .criticalPath => ["document", "stylesheet", "script", "critical_path"]
  | .image => ["image"]
  | .xhr => ["xhr"]
  | .other => ["other"]

private theorem inClass_iff (row : StatisticsClass) (entry : Entry) :
    InClass row entry ↔ entry.resourceType ∈ row.types := by
  unfold InClass Entry.statisticsClass Entry.statisticsKey
  split
  · next hcritical =>
    rcases hcritical with htype | htype | htype <;> rw [htype] <;>
      cases row <;> decide
  · next hcritical =>
    unfold StatisticsClass.ofKey
    split_ifs with hpath himage hxhr hother <;> cases row <;>
      simp_all [StatisticsClass.types]

/--
The statistics of a complete replay are computed just if every resource type has a class
and every class has an entry.
-/
theorem replay_statistics_iff {activeScheduler : SchedulerType}
    (hsched : activeScheduler.Implemented) {D : Dataset} (hnum : Numbered D.entry)
    (hfresh : ∀ i, (D.entry i).isStarted = false) {k : Nat} {s : ReplayState D.size}
    (hrun : replayPrefix activeScheduler D 0 k = .ok s)
    (hdone : isReplayFinished s.requestStatus = true) :
    ∃ entries, computeQueueAndTransmissionTime (List.ofFn s.filteredEntries) = .ok entries ∧
      ((∃ stats, computeClassifiedTimingStatistics entries = .ok stats ∧
          Classifies entries stats) ↔
        (∀ i, ∃ row : StatisticsClass, (D.entry i).resourceType ∈ row.types) ∧
          ∀ row : StatisticsClass, ∃ i, (D.entry i).resourceType ∈ row.types) := by
  have hinv := replayPrefix_queueInvariant hsched hnum hrun
  have htimes := replayPrefix_timeInvariant hsched hnum hfresh hrun
  obtain ⟨entries, hcompute, hentries⟩ :=
    htimes.computeTimes ((isReplayFinished_iff hinv.numbered).mp hdone)
  have htype : ∀ i, (entries i).resourceType = (D.entry i).resourceType := fun i =>
    resourceType_of_request
      ((hentries i).1.trans (replayPrefix_request hsched hnum hrun i))
  refine ⟨List.ofFn entries, hcompute, ?_⟩
  rw [classifies_iff]
  · simp only [List.mem_ofFn, forall_exists_index, forall_apply_eq_imp_iff,
      exists_exists_eq_and, inClass_iff, htype]
  · intro entry hentry
    obtain ⟨i, rfl⟩ := List.mem_ofFn.mp hentry
    obtain ⟨_, _, _, _, _, hi⟩ := (hentries i).2
    exact hi.times

def mixedPage : Dataset where
  rootRequestUrl := "https://a/"
  filteredEntries :=
    [.fresh 0 "https://a/" 1500 "document" [] "a" "GET",
      .fresh 1 "https://a/1.png" 700 "image" [0] "a" "GET",
      .fresh 2 "https://a/data" 300 "xhr" [0] "a" "GET",
      .fresh 3 "https://a/ping" 0 "other" [0] "a" "GET"]

theorem replay_statistics_mixedPage : ∃ s entries stats,
    replayPrefix .naiveRoundRobinScheduler mixedPage 0 5 = .ok s ∧
      computeQueueAndTransmissionTime (List.ofFn s.filteredEntries) = .ok entries ∧
      computeClassifiedTimingStatistics entries = .ok stats ∧ Classifies entries stats := by
  obtain ⟨s, hrun, hdone⟩ := map_eq_ok
    (x := replayPrefix .naiveRoundRobinScheduler mixedPage 0 5)
    (f := fun s => isReplayFinished s.requestStatus) (b := true) (by decide +kernel)
  obtain ⟨entries, hcompute, hiff⟩ :=
    replay_statistics_iff naive_implemented (by decide) (by decide) hrun hdone
  obtain ⟨stats, hstats, hclassifies⟩ := hiff.mpr ⟨by decide, by decide⟩
  exact ⟨s, entries, stats, hrun, hcompute, hstats, hclassifies⟩

def fontPage : Dataset where
  rootRequestUrl := "https://a/"
  filteredEntries :=
    [.fresh 0 "https://a/" 1500 "document" [] "a" "GET",
      .fresh 1 "https://a/font.woff" 700 "font" [0] "a" "GET"]

def statisticsFailure (filteredEntries : List Entry) : Option StatisticsError :=
  match computeClassifiedTimingStatistics filteredEntries with
  | .ok _ => none
  | .error e => some e

theorem statistics_fail :
    (replayPrefix .naiveRoundRobinScheduler samplePage 0 10).map (fun s =>
        (isReplayFinished s.requestStatus,
          (computeQueueAndTransmissionTime (List.ofFn s.filteredEntries)).map
            statisticsFailure)) = .ok (true, .ok (some .zeroDivisionError)) ∧
    (replayPrefix .naiveRoundRobinScheduler fontPage 0 10).map (fun s =>
        (isReplayFinished s.requestStatus,
          (computeQueueAndTransmissionTime (List.ofFn s.filteredEntries)).map
            statisticsFailure)) = .ok (true, .ok (some .keyError)) := by
  decide +kernel

end Qperf.HarConverter
