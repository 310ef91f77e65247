import Qperf.Foundation.StableSort
import Qperf.HarConverter.Totality

/-!
# The order of the dynamic queue

`replace_with_dynamic_queue` sorts the waiting streams by class, then by `enqueued_at`,
and leaves ties as it found them.  Scripts change their class during the scan.  The
variable that remembers this is called `first_image`, but it is set by the first script.
-/

namespace Qperf.HarConverter

open Qperf.Foundation

variable {n : Nat} {entries : Entries n} {queue : List (Fin n)} {demoting : String}

/-! ## Classes -/

/-- A stream of the given type stands before `i` in the queue. -/
def Behind (resourceType : String) (entries : Entries n) (queue : List (Fin n))
    (i : Fin n) : Prop :=
  ∃ j ∈ queue.takeWhile (· ≠ i), (entries j).resourceType = resourceType

instance (resourceType : String) (i : Fin n) :
    Decidable (Behind resourceType entries queue i) :=
  inferInstanceAs (Decidable (∃ j ∈ _, _))

/--
The class of a stream, from 1 to 5, when a stream of the type `demoting` puts the scripts
behind it into the third class.
-/
def priorityClass (demoting : String) (entries : Entries n) (queue : List (Fin n))
    (i : Fin n) : Nat :=
  let resourceType := (entries i).resourceType
  if resourceType = "document" ∨ resourceType = "stylesheet" ∨
      resourceType = "font" then 1
  else if resourceType = "script" then
    if Behind demoting entries queue i then 3 else 2
  else if resourceType = "xhr" then 2
  else if resourceType = "image" then 4
  else 5

def enqueueTime (entries : Entries n) (i : Fin n) : Nat :=
  (entries i).enqueuedAt.getD 0

/-- By `enqueued_at`, then by the position in the scanned queue. -/
def Sooner (entries : Entries n) (queue : List (Fin n)) (i j : Fin n) : Prop :=
  enqueueTime entries i < enqueueTime entries j ∨
    enqueueTime entries i = enqueueTime entries j ∧ queue.idxOf i < queue.idxOf j

instance : DecidableRel (Sooner entries queue) :=
  fun _ _ => inferInstanceAs (Decidable (_ ∨ _))

theorem Sooner.asymm {i j : Fin n} (h : Sooner entries queue i j) :
    ¬ Sooner entries queue j i := by
  unfold Sooner at *
  omega

private theorem sooner_of_not {i j : Fin n} (hi : i ∈ queue) (hne : i ≠ j)
    (h : ¬ Sooner entries queue i j) : Sooner entries queue j i := by
  have hpos : queue.idxOf i ≠ queue.idxOf j := mt (List.idxOf_inj hi).mp hne
  unfold Sooner at *
  omega

/-- By class, and within a class by `enqueued_at` and position. -/
def Precedes (demoting : String) (entries : Entries n) (queue : List (Fin n))
    (i j : Fin n) : Prop :=
  priorityClass demoting entries queue i < priorityClass demoting entries queue j ∨
    priorityClass demoting entries queue i = priorityClass demoting entries queue j ∧
      Sooner entries queue i j

instance : DecidableRel (Precedes demoting entries queue) :=
  fun _ _ => inferInstanceAs (Decidable (_ ∨ _))

theorem Precedes.asymm {i j : Fin n} (h : Precedes demoting entries queue i j) :
    ¬ Precedes demoting entries queue j i := by
  rintro (hlt | ⟨heq, hsooner⟩)
  · rcases h with hlt' | ⟨heq, -⟩ <;> omega
  · rcases h with hlt | ⟨-, hsooner'⟩
    · omega
    · exact hsooner.asymm hsooner'

structure Waiting (entries : Entries n) (queue : List (Fin n)) : Prop where
  nodup : queue.Nodup
  enqueuedAt : ∀ i ∈ queue, (entries i).enqueuedAt ≠ none

private theorem waiting_released {s : ReplayState n} (hinv : QueueInvariant s)
    (hstamped : ∀ i ∈ s.activeStreamQueue, (s.filteredEntries i).enqueuedAt ≠ none) :
    Waiting (released s).filteredEntries (released s).activeStreamQueue := by
  refine ⟨hinv.released.nodup, fun i hi => ?_⟩
  rw [released_enqueuedAt]
  split
  · simp
  · next hready =>
    rw [released_queue, List.mem_append] at hi
    exact hstamped i (hi.resolve_right hready)

/-- Every queue that `replay` hands to a scheduler is such a queue. -/
theorem replayPrefix_waiting {activeScheduler : SchedulerType}
    (hsched : activeScheduler.Implemented) {D : Dataset} (hnum : Numbered D.entry)
    {packetNumber k : Nat} {s : ReplayState D.size}
    (hrun : replayPrefix activeScheduler D packetNumber k = .ok s) :
    Waiting (released s).filteredEntries (released s).activeStreamQueue := by
  refine (fun ⟨hinv, hstamped⟩ => waiting_released hinv hstamped)
    (replayPrefix_induct hsched hnum packetNumber
      (fun s => ∀ i ∈ s.activeStreamQueue, (s.filteredEntries i).enqueuedAt ≠ none)
      ?_ ?_ hrun)
  · intro s hs i hi
    obtain ⟨root, -, rfl⟩ := startReplay_cases hs
    have hroot : i = root := by simpa [releaseAll, Dataset.idle] using hi
    simp [releaseAll, hroot]
  · intro s ordered packet hinv hs _ _ hperm hpacking i hi
    rw [recorded_enqueuedAt, hpacking.enqueuedAt]
    have hqueue := (hpacking.mem_queue hinv.released.numbered
      (hperm.nodup_iff.mpr hinv.released.nodup) i).mp hi
    exact (waiting_released hinv hs).enqueuedAt i (hperm.mem_iff.mp hqueue.1)

theorem replayPrefix_waiting_samplePage : ∃ s : ReplayState samplePage.size,
    (released s).activeStreamQueue.length = 2 ∧
      Waiting (released s).filteredEntries (released s).activeStreamQueue := by
  have hrun : (replayPrefix .naiveRoundRobinScheduler samplePage 0 3).map
      (fun s => (released s).activeStreamQueue.length) = .ok 2 := by
    decide +kernel
  obtain ⟨s, hs, hqueue⟩ := map_eq_ok hrun
  have hsched : SchedulerType.Implemented .naiveRoundRobinScheduler := trivial
  exact ⟨s, hqueue, replayPrefix_waiting hsched (by decide) hs⟩

private theorem takeWhile_ne_of_mem {i : Fin n} (hi : i ∈ queue) (more : List (Fin n)) :
    (queue ++ more).takeWhile (· ≠ i) = queue.takeWhile (· ≠ i) := by
  induction queue with
  | nil => cases hi
  | cons j queue ih =>
    by_cases hj : j = i
    · simp [hj]
    · have hi := (List.mem_cons.mp hi).resolve_left (Ne.symm hj)
      simpa [hj] using ih hi

private theorem priorityClass_append {i : Fin n} (hi : i ∈ queue) (more : List (Fin n)) :
    priorityClass demoting entries (queue ++ more) i =
      priorityClass demoting entries queue i := by
  have hsame : Behind demoting entries (queue ++ more) i ↔ Behind demoting entries queue i := by
    rw [Behind, takeWhile_ne_of_mem hi, Behind]
  simp only [priorityClass, hsame]

private theorem takeWhile_ne_last {i : Fin n} (hi : i ∉ queue) :
    (queue ++ [i]).takeWhile (· ≠ i) = queue := by
  rw [List.takeWhile_append_of_pos]
  · simp
  · intro j hj
    simpa using ne_of_mem_of_not_mem hj hi

/-! ## The scan -/

def ofClass (entries : Entries n) (queue : List (Fin n)) (k : Nat) : List (Fin n) :=
  queue.filter (priorityClass "script" entries queue · = k)

private theorem ofClass_concat (i : Fin n) (k : Nat) : ofClass entries (queue ++ [i]) k =
      ofClass entries queue k ++
        if priorityClass "script" entries (queue ++ [i]) i = k then [i] else [] := by
  have hold : queue.filter (priorityClass "script" entries (queue ++ [i]) · = k) =
      ofClass entries queue k :=
    List.filter_congr fun j hj => by rw [priorityClass_append hj]
  rw [ofClass, List.filter_append, hold, List.filter_singleton, Bool.cond_decide]

structure Scanned (entries : Entries n) (queue : List (Fin n))
    (lists : PriorityLists n) : Prop where
  highest : lists.highestPriorityList = ofClass entries queue 1
  high : lists.highPriorityList = ofClass entries queue 2
  normal : lists.normalPriorityList = ofClass entries queue 3
  low : lists.lowPriorityList = ofClass entries queue 4
  lowest : lists.lowestPriorityList = ofClass entries queue 5
  firstImage : lists.firstImage = -1 ↔
    ¬ ∃ j ∈ queue, (entries j).resourceType = "script"

theorem Scanned.concat {lists lists' : PriorityLists n} {i : Fin n} {k : Nat}
    (h : Scanned entries queue lists)
    (hk : priorityClass "script" entries (queue ++ [i]) i = k)
    (hlists : lists' = { lists with
      highestPriorityList := lists.highestPriorityList ++ if k = 1 then [i] else []
      highPriorityList := lists.highPriorityList ++ if k = 2 then [i] else []
      normalPriorityList := lists.normalPriorityList ++ if k = 3 then [i] else []
      lowPriorityList := lists.lowPriorityList ++ if k = 4 then [i] else []
      lowestPriorityList := lists.lowestPriorityList ++ if k = 5 then [i] else []
      firstImage := lists'.firstImage })
    (hfirst : lists'.firstImage = -1 ↔
      ¬ ∃ j ∈ queue ++ [i], (entries j).resourceType = "script") :
    Scanned entries (queue ++ [i]) lists' := by
  have hconcat := @ofClass_concat n entries queue i
  rw [hk] at hconcat
  rw [hlists] at hfirst ⊢
  constructor
  · rw [hconcat, ← h.highest]
  · rw [hconcat, ← h.high]
  · rw [hconcat, ← h.normal]
  · rw [hconcat, ← h.low]
  · rw [hconcat, ← h.lowest]
  · exact hfirst

theorem Scanned.classifyStream {lists : PriorityLists n} {i : Fin n}
    (h : Scanned entries queue lists) (hi : i ∉ queue) :
    Scanned entries (queue ++ [i]) (classifyStream entries lists i) := by
  have hfirst : (entries i).resourceType ≠ "script" → (lists.firstImage = -1 ↔
        ¬ ∃ j ∈ queue ++ [i], (entries j).resourceType = "script") := by
    intro hne
    rw [h.firstImage]
    simp [or_and_right, exists_or, hne]
  have hbehind : Behind "script" entries (queue ++ [i]) i ↔
      ∃ j ∈ queue, (entries j).resourceType = "script" := by
    rw [Behind, takeWhile_ne_last hi]
  simp only [HarConverter.classifyStream]
  split_ifs with hdocument hscript hnone hxhr himage
  · refine h.concat (k := 1) ?_ (by simp) (hfirst ?_)
    · rw [priorityClass, if_pos hdocument]
    · rcases hdocument with htype | htype | htype <;> simp [htype]
  · refine h.concat (k := 2) ?_ (by simp) ?_
    · rw [priorityClass, if_neg hdocument, if_pos hscript,
        if_neg (hbehind.not.mpr (h.firstImage.mp hnone))]
    · refine iff_of_false ?_ (not_not.mpr ⟨i, by simp, hscript⟩)
      change ((entries i).resourceId : Int) ≠ -1
      omega
  · refine h.concat (k := 3) ?_ (by simp) ?_
    · rw [priorityClass, if_neg hdocument, if_pos hscript,
        if_pos (hbehind.mpr (not_not.mp (mt h.firstImage.mpr hnone)))]
    · exact iff_of_false hnone (not_not.mpr ⟨i, by simp, hscript⟩)
  · refine h.concat (k := 2) ?_ (by simp) (hfirst hscript)
    rw [priorityClass, if_neg hdocument, if_neg hscript, if_pos hxhr]
  · refine h.concat (k := 4) ?_ (by simp) (hfirst hscript)
    rw [priorityClass, if_neg hdocument, if_neg hscript, if_neg hxhr, if_pos himage]
  · refine h.concat (k := 5) ?_ (by simp) (hfirst hscript)
    rw [priorityClass, if_neg hdocument, if_neg hscript, if_neg hxhr, if_neg himage]

private theorem scanned_classifyStreams (hnodup : queue.Nodup) :
    Scanned entries queue (classifyStreams entries queue) := by
  induction queue using List.reverseRecOn with
  | nil => constructor <;> simp [classifyStreams, ofClass]
  | append_singleton queue i ih =>
    obtain ⟨hqueue, -, hi⟩ := List.nodup_append.mp hnodup
    rw [classifyStreams, List.foldl_append]
    exact (ih hqueue).classifyStream fun hmem => hi i hmem i (by simp) rfl

/-! ## Sorting -/

theorem inTimeOrder_ofClass (hnodup : queue.Nodup) (k : Nat) :
    (inTimeOrder entries (ofClass entries queue k)).Pairwise
        (Precedes "script" entries queue) ∧
      ∀ i ∈ inTimeOrder entries (ofClass entries queue k),
        priorityClass "script" entries queue i = k := by
  have hclass : ∀ i ∈ inTimeOrder entries (ofClass entries queue k),
      priorityClass "script" entries queue i = k := fun i hi => by
    simpa using (List.mem_filter.mp ((List.mem_insertionSort _).mp hi)).2
  have hpositions : (ofClass entries queue k).Pairwise
      fun i j => queue.idxOf i < queue.idxOf j :=
    (pairwise_idxOf hnodup).sublist List.filter_sublist
  refine ⟨(pairwise_insertionSort_stable hpositions).imp_of_mem ?_, hclass⟩
  rintro i j hi hj ⟨hle, htie⟩
  refine Or.inr ⟨(hclass i hi).trans (hclass j hj).symm, ?_⟩
  rcases Nat.lt_or_eq_of_le hle with hlt | heq
  · exact Or.inl hlt
  · exact Or.inr ⟨heq, htie heq.ge⟩

theorem replaceWithDynamicQueue_pairwise {ordered : List (Fin n)} (hnodup : queue.Nodup)
    (h : replaceWithDynamicQueue entries queue = .ok ordered) :
    ordered.Pairwise (Precedes "script" entries queue) := by
  have hscan : Scanned entries queue (classifyStreams entries queue) :=
    scanned_classifyStreams hnodup
  have hlists : (classifyStreams entries queue).inOrder =
      [1, 2, 3, 4, 5].map (ofClass entries queue) := by
    simp [PriorityLists.inOrder, hscan.highest, hscan.high, hscan.normal, hscan.low,
      hscan.lowest]
  rw [replaceWithDynamicQueue_eq h, hlists, List.map_map, List.pairwise_flatten,
    List.forall_mem_map, List.pairwise_map]
  refine ⟨fun k _ => (inTimeOrder_ofClass hnodup k).1, ?_⟩
  have hclasses : [1, 2, 3, 4, 5].Pairwise (· < ·) := by decide
  refine hclasses.imp fun hlt i hi j hj => Or.inl ?_
  rwa [(inTimeOrder_ofClass hnodup _).2 i hi, (inTimeOrder_ofClass hnodup _).2 j hj]

/-! ## Scripts in their places -/

theorem priorityClass_script {i : Fin n} (h : (entries i).resourceType = "script") :
    priorityClass demoting entries queue i =
      if Behind demoting entries queue i then 3 else 2 := by
  simp [priorityClass, h]

private theorem priorityClass_xhr {i : Fin n} (h : (entries i).resourceType = "xhr") :
    priorityClass demoting entries queue i = 2 := by
  simp [priorityClass, h]

private theorem priorityClass_other (demoting : String) (queue : List (Fin n)) {i : Fin n}
    (h : (entries i).resourceType ≠ "script") :
    priorityClass demoting entries queue i = priorityClass "image" entries queue i ∧
      priorityClass demoting entries queue i ≠ 3 ∧
      (priorityClass demoting entries queue i = 2 → (entries i).resourceType = "xhr") := by
  simp only [priorityClass, if_neg h, true_and]
  split_ifs with _ hxhr <;> simp [*]

/--
The first script is not behind an image, or it comes after every `xhr` and before the
other scripts all the same.  Every other script that is not behind an image comes after
the first script and every `xhr`, and before the scripts behind an image.
-/
structure ScriptsInPlace (entries : Entries n) (queue : List (Fin n)) : Prop where
  first : ∀ f ∈ queue, (entries f).resourceType = "script" →
    ¬ Behind "script" entries queue f → Behind "image" entries queue f →
    (∀ x ∈ queue, (entries x).resourceType = "xhr" → Sooner entries queue x f) ∧
      ∀ t ∈ queue, (entries t).resourceType = "script" →
        Behind "script" entries queue t → Sooner entries queue f t
  others : ∀ t ∈ queue, (entries t).resourceType = "script" →
    Behind "script" entries queue t → ¬ Behind "image" entries queue t →
    (∀ x ∈ queue, (entries x).resourceType = "xhr" ∨
        (entries x).resourceType = "script" ∧ ¬ Behind "script" entries queue x →
      Sooner entries queue x t) ∧
      ∀ u ∈ queue, (entries u).resourceType = "script" →
        Behind "image" entries queue u → Sooner entries queue t u

theorem scriptsInPlace_of_precedes
    (h : ∀ i ∈ queue, ∀ j ∈ queue, Precedes "script" entries queue i j →
      Precedes "image" entries queue i j) : ScriptsInPlace entries queue where
  first f hf hscript hfirst himage := by
    have hcode : priorityClass "script" entries queue f = 2 := by
      rw [priorityClass_script hscript, if_neg hfirst]
    have hclaim : priorityClass "image" entries queue f = 3 := by
      rw [priorityClass_script hscript, if_pos himage]
    constructor
    · intro x hx hxhr
      by_contra hnot
      have hne : x ≠ f := fun heq => by simp [heq, hscript] at hxhr
      have hprecedes := h f hf x hx (.inr ⟨hcode.trans (priorityClass_xhr hxhr).symm,
        sooner_of_not hx hne hnot⟩)
      unfold Precedes at hprecedes
      rw [hclaim, priorityClass_xhr hxhr] at hprecedes
      omega
    · intro t ht hscript' hbehind
      have hcode' : priorityClass "script" entries queue t = 3 := by
        rw [priorityClass_script hscript', if_pos hbehind]
      have hclaim' : priorityClass "image" entries queue t = _ := priorityClass_script hscript'
      rcases h f hf t ht (.inl (by omega)) with hlt | ⟨-, hsooner⟩
      · split at hclaim' <;> omega
      · exact hsooner
  others t ht hscript hbehind himage := by
    have hcode : priorityClass "script" entries queue t = 3 := by
      rw [priorityClass_script hscript, if_pos hbehind]
    have hclaim : priorityClass "image" entries queue t = 2 := by
      rw [priorityClass_script hscript, if_neg himage]
    constructor
    · intro x hx hkind
      have hcode' : priorityClass "script" entries queue x = 2 := by
        rcases hkind with hxhr | ⟨hscript', hfirst⟩
        · exact priorityClass_xhr hxhr
        · rw [priorityClass_script hscript', if_neg hfirst]
      have hclaim' : 2 ≤ priorityClass "image" entries queue x := by
        rcases hkind with hxhr | ⟨hscript', -⟩
        · exact (priorityClass_xhr hxhr).ge
        · rw [priorityClass_script hscript']
          split <;> omega
      rcases h x hx t ht (.inl (by omega)) with hlt | ⟨-, hsooner⟩
      · omega
      · exact hsooner
    · intro u hu hscript' himage'
      by_contra hnot
      have hne : t ≠ u := fun heq => himage (heq ▸ himage')
      have hclaim' : priorityClass "image" entries queue u = 3 := by
        rw [priorityClass_script hscript', if_pos himage']
      have hcode' : priorityClass "script" entries queue u = _ := priorityClass_script hscript'
      have hprecedes : Precedes "script" entries queue u t := by
        split at hcode'
        · exact .inr ⟨hcode'.trans hcode.symm, sooner_of_not ht hne hnot⟩
        · exact .inl (by omega)
      rcases h u hu t ht hprecedes with hlt | ⟨heq, -⟩ <;> omega

private theorem mem_takeWhile_ne {i j : Fin n} (hi : i ∈ queue)
    (hlt : queue.idxOf i < queue.idxOf j) : i ∈ queue.takeWhile (· ≠ j) := by
  induction queue with
  | nil => cases hi
  | cons k queue ih =>
    have hkj : k ≠ j := by
      rintro rfl
      simp at hlt
    rw [List.takeWhile_cons_of_pos (by simpa using hkj)]
    by_cases hki : k = i
    · simp [hki]
    · rw [List.idxOf_cons_ne _ hki, List.idxOf_cons_ne _ hkj] at hlt
      exact List.mem_cons_of_mem _
        (ih ((List.mem_cons.mp hi).resolve_left (Ne.symm hki)) (Nat.lt_of_succ_lt_succ hlt))

private theorem firstScript_unique {i j : Fin n} (hi : i ∈ queue) (hj : j ∈ queue)
    (hsi : (entries i).resourceType = "script") (hsj : (entries j).resourceType = "script")
    (hbi : ¬ Behind "script" entries queue i) (hbj : ¬ Behind "script" entries queue j) :
    i = j := by
  rw [← List.idxOf_inj hi]
  rcases Nat.lt_trichotomy (queue.idxOf i) (queue.idxOf j) with hlt | heq | hlt
  · exact absurd ⟨i, mem_takeWhile_ne hi hlt, hsi⟩ hbj
  · exact heq
  · exact absurd ⟨j, mem_takeWhile_ne hj hlt, hsj⟩ hbi

section ScriptsInPlace

variable (h : ScriptsInPlace entries queue) {i j : Fin n} (hi : i ∈ queue) (hj : j ∈ queue)
variable (hij : Precedes "script" entries queue i j)
include h hi hj hij

theorem ScriptsInPlace.precedes_scripts (hsi : (entries i).resourceType = "script")
    (hsj : (entries j).resourceType = "script") : Precedes "image" entries queue i j := by
  unfold Precedes at hij ⊢
  rw [priorityClass_script hsi, priorityClass_script hsj] at hij ⊢
  by_cases hbj : Behind "script" entries queue j
  · have hsooner : (Behind "image" entries queue i ∨ ¬ Behind "image" entries queue j) →
        Sooner entries queue i j := by
      intro hkind
      by_cases hbi : Behind "script" entries queue i
      · rw [if_pos hbi, if_pos hbj] at hij
        exact (hij.resolve_left (Nat.lt_irrefl 3)).2
      · by_cases hmi : Behind "image" entries queue i
        · exact (h.first i hi hsi hbi hmi).2 j hj hsj hbj
        · exact (h.others j hj hsj hbj (hkind.resolve_left hmi)).1 i hi (.inr ⟨hsi, hbi⟩)
    by_cases hmj : Behind "image" entries queue j
    · rw [if_pos hmj]
      by_cases hmi : Behind "image" entries queue i
      · rw [if_pos hmi]
        exact .inr ⟨rfl, hsooner (.inl hmi)⟩
      · rw [if_neg hmi]
        exact .inl (Nat.lt_succ_self 2)
    · have hij := hsooner (.inr hmj)
      have hmi : ¬ Behind "image" entries queue i := fun hmi =>
        hij.asymm ((h.others j hj hsj hbj hmj).2 i hi hsi hmi)
      rw [if_neg hmi, if_neg hmj]
      exact .inr ⟨rfl, hij⟩
  · by_cases hbi : Behind "script" entries queue i
    · rw [if_pos hbi, if_neg hbj] at hij
      omega
    · obtain rfl := firstScript_unique hi hj hsi hsj hbi hbj
      have hself := (hij.resolve_left (Nat.lt_irrefl _)).2
      exact absurd hself hself.asymm

theorem ScriptsInPlace.precedes : Precedes "image" entries queue i j := by
  by_cases hsi : (entries i).resourceType = "script"
  · by_cases hsj : (entries j).resourceType = "script"
    · exact h.precedes_scripts hi hj hij hsi hsj
    · obtain ⟨hsame, hthree, hxhr⟩ := priorityClass_other "script" queue hsj
      unfold Precedes at hij ⊢
      rw [priorityClass_script hsi] at hij ⊢
      rw [← hsame]
      by_cases hbi : Behind "script" entries queue i
      · rw [if_pos hbi] at hij
        refine .inl ?_
        split <;> omega
      · rw [if_neg hbi] at hij
        split
        · next hmi =>
          rcases hij with hlt | ⟨heq, hsooner⟩
          · exact .inl (by omega)
          · exact absurd hsooner ((h.first i hi hsi hbi hmi).1 j hj (hxhr heq.symm)).asymm
        · exact hij
  · obtain ⟨hsame, hthree, hxhr⟩ := priorityClass_other "script" queue hsi
    unfold Precedes at hij ⊢
    rw [← hsame]
    by_cases hsj : (entries j).resourceType = "script"
    · rw [priorityClass_script hsj] at hij ⊢
      by_cases hbj : Behind "script" entries queue j
      · rw [if_pos hbj] at hij
        split
        · exact hij
        · next hmj =>
          by_cases htwo : priorityClass "script" entries queue i = 2
          · exact .inr ⟨htwo, (h.others j hj hsj hbj hmj).1 i hi (.inl (hxhr htwo))⟩
          · exact .inl (by omega)
      · rw [if_neg hbj] at hij
        split
        · exact .inl (by omega)
        · exact hij
    · rw [← (priorityClass_other "script" queue hsj).1]
      exact hij

end ScriptsInPlace

/--
The streams are ordered by class, with the scripts behind an image in the third one, and
by `enqueued_at` within a class, exactly if the scripts that the scan puts into another
class are in their places all the same.
-/
theorem replaceWithDynamicQueue_precedes_iff (hq : Waiting entries queue) :
    ∃ ordered, replaceWithDynamicQueue entries queue = .ok ordered ∧
      ordered.Perm queue ∧
      (ordered.Pairwise (Precedes "image" entries queue) ↔ ScriptsInPlace entries queue) := by
  obtain ⟨ordered, hordered⟩ := replaceWithDynamicQueue_of_stamped
    fun i hi => Option.isSome_iff_ne_none.mpr (hq.enqueuedAt i hi)
  have hperm := replaceWithDynamicQueue_perm hordered
  refine ⟨ordered, hordered, hperm, ?_⟩
  rw [pairwise_iff_of_pairwise (fun _ _ => Precedes.asymm)
    (replaceWithDynamicQueue_pairwise hq.nodup hordered)]
  simp only [hperm.mem_iff]
  exact ⟨scriptsInPlace_of_precedes, fun h i hi j hj => h.precedes hi hj⟩

def arrivals (types : List String) : Entries types.length := fun i =>
  { Entry.fresh i "" 0 types[i] [] "" "" with enqueuedAt := some 0 }

theorem replaceWithDynamicQueue_precedes_iff_mixed :
    ∃ ordered, replaceWithDynamicQueue (arrivals ["image", "xhr", "script", "script"])
        [0, 1, 2, 3] = .ok ordered ∧
      ordered.Pairwise
        (Precedes "image" (arrivals ["image", "xhr", "script", "script"]) [0, 1, 2, 3]) := by
  have hq : Waiting (arrivals ["image", "xhr", "script", "script"]) [0, 1, 2, 3] :=
    ⟨by decide, by decide +kernel⟩
  obtain ⟨ordered, hordered, -, hiff⟩ := replaceWithDynamicQueue_precedes_iff hq
  exact ⟨ordered, hordered, hiff.mpr ⟨by decide +kernel, by decide +kernel⟩⟩

/-- Without any image, the second script falls behind a request that came after it. -/
theorem replaceWithDynamicQueue_twoScripts :
    replaceWithDynamicQueue (arrivals ["script", "script", "xhr"]) [0, 1, 2] =
        .ok [0, 2, 1] ∧
      ¬ List.Pairwise (Precedes "image" (arrivals ["script", "script", "xhr"]) [0, 1, 2])
        [0, 2, 1] := by
  decide +kernel

end Qperf.HarConverter
