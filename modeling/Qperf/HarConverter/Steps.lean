import Qperf.HarConverter.Replay

/-!
# What one iteration of the replay loop does

Every function of the loop body is given a closed form: `enqueueReady` releases
exactly the ready entries, a scheduler serves a prefix of some ordering of the
queue and cuts at most one stream, and `recordPacket` marks the streams of the
finishing frames.  The invariants of the replay are derived from these forms
and never unfold the loop body again.
-/

namespace Qperf.HarConverter

open Qperf.Foundation

variable {n : Nat}

def statusAt (requestStatus : Fin n → StreamStatus) (id : Nat) : StreamStatus :=
  if h : id < n then requestStatus ⟨id, h⟩ else .unavailable

variable {dependencies : List Nat} {entries : Entries n} {id : Nat}
variable {packet : Composition n} {queue : List (Fin n)}
variable {requestStatus : Fin n → StreamStatus} {t : ReplayState n}

theorem readStatus_eq_ok
    {status : StreamStatus} (h : readStatus requestStatus id = .ok status) :
    statusAt requestStatus id = status := by
  simp only [readStatus] at h
  simp only [statusAt]
  split at h
  · rename_i hid
    cases h
    simp [hid]
  · cases h

theorem readStatus_of_lt (requestStatus : Fin n → StreamStatus) (h : id < n) :
    readStatus requestStatus id = .ok (statusAt requestStatus id) := by
  simp [readStatus, statusAt, h]

/-! ## Dependencies -/

def dependenciesFinished (requestStatus : Fin n → StreamStatus)
    (dependencies : List Nat) : Bool :=
  dependencies.all fun d => statusAt requestStatus d = .finished

private theorem isDependenciesMet_eq_ok {met : Bool}
    (h : isDependenciesMet requestStatus dependencies = .ok met) :
    met = dependenciesFinished requestStatus dependencies := by
  induction dependencies with
  | nil =>
    cases h
    rfl
  | cons d dependencies ih =>
    obtain ⟨status, hread, hrest⟩ := bind_eq_ok.mp h
    have hstatus := readStatus_eq_ok hread
    simp only [dependenciesFinished, List.all_cons, hstatus]
    split at hrest
    · rename_i hne
      cases hrest
      simp [hne]
    · rename_i heq
      rw [ih hrest]
      simp only [ne_eq, Decidable.not_not] at heq
      simp [heq, dependenciesFinished]

theorem isDependenciesMet_of_lt (requestStatus : Fin n → StreamStatus)
    (h : ∀ d ∈ dependencies, d < n) :
    isDependenciesMet requestStatus dependencies =
      .ok (dependenciesFinished requestStatus dependencies) := by
  induction dependencies with
  | nil => rfl
  | cons d dependencies ih =>
    rw [isDependenciesMet, readStatus_of_lt requestStatus (h d (by simp)), ok_bind]
    simp only [dependenciesFinished, List.all_cons]
    split
    · rename_i hne
      simp [hne]
    · rename_i heq
      simp only [ne_eq, Decidable.not_not] at heq
      rw [ih fun d hd => h d (by simp [hd])]
      simp [heq, dependenciesFinished]

private theorem dependenciesFinished_iff :
    dependenciesFinished requestStatus dependencies = true ↔
      ∀ d ∈ dependencies, statusAt requestStatus d = .finished := by
  simp [dependenciesFinished]

/-! ## Enqueueing -/

def isReady (s : ReplayState n) (i : Fin n) : Bool :=
  statusAt s.requestStatus (s.filteredEntries i).resourceId = .unavailable &&
    dependenciesFinished s.requestStatus (s.filteredEntries i).dependencies

def releaseAll (s : ReplayState n) (new : List (Fin n)) : ReplayState n :=
  { s with
    filteredEntries := fun i =>
      if i ∈ new then
        { s.filteredEntries i with enqueuedAt := some s.packetNumber }
      else s.filteredEntries i
    requestStatus := fun id =>
      if ∃ i ∈ new, (s.filteredEntries i).resourceId = id then .enqueued
      else s.requestStatus id
    activeStreamQueue := s.activeStreamQueue ++ new
    putLog := s.putLog ++ new }

def released (s : ReplayState n) : ReplayState n :=
  releaseAll s ((List.finRange n).filter (isReady s))

theorem statusAt_releaseAll (s : ReplayState n) (new : List (Fin n))
    (hlt : ∀ i, (s.filteredEntries i).resourceId < n) (id : Nat) :
    statusAt (releaseAll s new).requestStatus id =
      if ∃ i ∈ new, (s.filteredEntries i).resourceId = id then .enqueued
      else statusAt s.requestStatus id := by
  simp only [statusAt, releaseAll]
  by_cases hid : id < n
  · simp [hid]
  · have hnone : ¬ ∃ i ∈ new, (s.filteredEntries i).resourceId = id := by
      rintro ⟨i, -, rfl⟩
      exact hid (hlt i)
    simp [hid, hnone]

theorem putStream_releaseAll {s : ReplayState n} {new : List (Fin n)}
    {i : Fin n} (hi : i ∉ new) (h : putStream (releaseAll s new) i = .ok t) :
    t = releaseAll s (new ++ [i]) := by
  obtain ⟨status, hwrite, ht⟩ := bind_eq_ok.mp h
  have hentry : (releaseAll s new).filteredEntries i = s.filteredEntries i := by
    simp [releaseAll, hi]
  rw [hentry] at hwrite ht
  simp only [writeStatus] at hwrite
  split at hwrite
  · cases hwrite
    cases ht
    simp only [releaseAll, List.append_assoc]
    congr 1
    · funext j
      by_cases hj : j = i
      · subst hj
        simp
      · simp [hj]
    · funext id
      by_cases hid : id = ⟨(s.filteredEntries i).resourceId, by assumption⟩
      · subst hid
        simp
      · have hne : (s.filteredEntries i).resourceId ≠ id := by
          intro heq
          exact hid (Fin.ext heq.symm)
        simp [Function.update_of_ne hid, or_and_right, exists_or, hne]
  · cases hwrite

section Enqueue

variable {s : ReplayState n}

theorem isReady_iff {i : Fin n} : isReady s i = true ↔
      statusAt s.requestStatus (s.filteredEntries i).resourceId =
          .unavailable ∧
        ∀ d ∈ (s.filteredEntries i).dependencies,
          statusAt s.requestStatus d = .finished := by
  simp [isReady, dependenciesFinished_iff]

variable (hnum : Numbered s.filteredEntries)
include hnum

variable {new : List (Fin n)}

private theorem dependenciesFinished_releaseAll
    (hnew : ∀ i ∈ new, isReady s i = true) (dependencies : List Nat) :
    dependenciesFinished (releaseAll s new).requestStatus dependencies =
      dependenciesFinished s.requestStatus dependencies := by
  simp only [dependenciesFinished]
  congr 1
  funext d
  rw [statusAt_releaseAll s new hnum.lt]
  split
  · rename_i hd
    obtain ⟨i, hi, rfl⟩ := hd
    simp [(isReady_iff.mp (hnew i hi)).1]
  · rfl

theorem statusAt_releaseAll_of_not_mem {i : Fin n} (hi : i ∉ new) :
    statusAt (releaseAll s new).requestStatus (s.filteredEntries i).resourceId =
      statusAt s.requestStatus (s.filteredEntries i).resourceId := by
  rw [statusAt_releaseAll s new hnum.lt, if_neg]
  rintro ⟨j, hj, hid⟩
  exact hi (hnum.injective hid ▸ hj)

theorem statusAt_releaseAll_of_mem {i : Fin n} (hi : i ∈ new) :
    statusAt (releaseAll s new).requestStatus (s.filteredEntries i).resourceId = .enqueued := by
  rw [statusAt_releaseAll s new hnum.lt, if_pos ⟨i, hi, rfl⟩]

theorem enqueueIfReady_releaseAll {t : ReplayState n}
    {i : Fin n} (hnew : ∀ j ∈ new, isReady s j = true) (hi : i ∉ new)
    (h : enqueueIfReady (releaseAll s new) i = .ok t) :
    t = releaseAll s (new ++ [i].filter (isReady s)) := by
  have hentry : (releaseAll s new).filteredEntries i = s.filteredEntries i := by
    simp [releaseAll, hi]
  rw [enqueueIfReady, hentry] at h
  obtain ⟨status, hread, hrest⟩ := bind_eq_ok.mp h
  have hstatus := readStatus_eq_ok hread
  rw [statusAt_releaseAll_of_not_mem hnum hi] at hstatus
  by_cases havailable : status = .unavailable
  · rw [if_pos havailable] at hrest
    obtain ⟨met, hmet, hput⟩ := bind_eq_ok.mp hrest
    have hready : isReady s i = met := by
      rw [isDependenciesMet_eq_ok hmet, dependenciesFinished_releaseAll hnum hnew]
      simp [isReady, hstatus, havailable]
    cases met with
    | true =>
      simpa [hready] using putStream_releaseAll hi hput
    | false =>
      cases hput
      simp [hready]
  · rw [if_neg havailable] at hrest
    cases hrest
    simp [isReady, hstatus, havailable]

theorem enqueueReady_eq {t : ReplayState n} (h : enqueueReady s = .ok t) :
    t = released s := by
  refine foldlM_ok_induct
    (fun processed u => u = releaseAll s (processed.filter (isReady s)))
    ?_ ?_ h
  · intro before i after u v hsplit hu hv
    subst hu
    have hnodup : (before ++ i :: after).Nodup := hsplit ▸ List.nodup_finRange n
    have hi : i ∉ before.filter (isReady s) := by
      intro hmem
      have hbefore : i ∈ before := List.mem_of_mem_filter hmem
      exact (List.nodup_append.mp hnodup).2.2 i hbefore i (by simp) rfl
    have hv' := enqueueIfReady_releaseAll hnum (fun j hj => (List.mem_filter.mp hj).2) hi hv
    rw [hv', List.filter_append]
  · simp [releaseAll]

end Enqueue

/-! ## Filling a packet -/

def totalRemaining (entries : Entries n) (streams : List (Fin n)) : Int :=
  (streams.map fun i => (entries i).remainingSize).sum

@[simp] theorem totalRemaining_nil (entries : Entries n) :
    totalRemaining entries [] = 0 := rfl

@[simp] theorem totalRemaining_cons (entries : Entries n) (i : Fin n)
    (streams : List (Fin n)) :
    totalRemaining entries (i :: streams) =
      (entries i).remainingSize + totalRemaining entries streams := by
  simp [totalRemaining]

@[simp] theorem totalRemaining_append (entries : Entries n)
    (first second : List (Fin n)) :
    totalRemaining entries (first ++ second) =
      totalRemaining entries first + totalRemaining entries second := by
  simp [totalRemaining]

private theorem totalRemaining_congr {entries' : Entries n} {streams : List (Fin n)}
    (h : ∀ i ∈ streams, entries i = entries' i) :
    totalRemaining entries streams = totalRemaining entries' streams := by
  simp only [totalRemaining]
  congr 1
  exact List.map_congr_left fun i hi => by rw [h i hi]

def lastFrame (entries : Entries n) (i : Fin n) : Frame :=
  ⟨(entries i).resourceId, (entries i).remainingSize, true⟩

def serveAll (packetNumber : Nat) (entries : Entries n)
    (served : List (Fin n)) : Entries n := fun i =>
  if i ∈ served then
    ({ entries i with remainingSize := 0 } : Entry).markStarted packetNumber
  else entries i

@[simp] theorem serveAll_nil (packetNumber : Nat) (entries : Entries n) :
    serveAll packetNumber entries [] = entries := by
  funext i
  simp [serveAll]

def cutStream (packetNumber : Nat) (entries : Entries n) (i : Fin n)
    (remainingSize : Int) : Entries n :=
  Function.update entries i
    (({ entries i with remainingSize := remainingSize } : Entry).markStarted
      packetNumber)

def Fits (entries : Entries n) (bytesAdded : Int) (served : List (Fin n)) : Prop :=
  ∀ before i after, served = before ++ i :: after →
    bytesAdded + totalRemaining entries before < dataBlockSize ∧
      bytesAdded + totalRemaining entries before +
        (entries i).remainingSize ≤ dataBlockSize

/--
The two outcomes of the scheduling loop.  A prefix of the queue is served
completely; then either the packet is full or the queue is exhausted, or one
more stream fills the packet with a part of its data and goes to the tail.
-/
inductive Packing (packetNumber : Nat) (entries : Entries n)
    (queue : List (Fin n)) (bytesAdded : Int) : Composition n → Prop where
  | whole (served rest : List (Fin n)) (hqueue : queue = served ++ rest)
      (hfits : Fits entries bytesAdded served)
      (hstop : rest = [] ∨ dataBlockSize ≤ bytesAdded + totalRemaining entries served) :
      Packing packetNumber entries queue bytesAdded
        ⟨served.map (lastFrame entries), serveAll packetNumber entries served, rest⟩
  | cut (served : List (Fin n)) (i : Fin n) (rest : List (Fin n))
      (remainingSize : Int) (hqueue : queue = served ++ i :: rest)
      (hfits : Fits entries bytesAdded served)
      (hroom : bytesAdded + totalRemaining entries served < dataBlockSize)
      (hlarge : dataBlockSize < bytesAdded + totalRemaining entries served +
        (entries i).remainingSize)
      (hsub : floatSub (entries i).remainingSize
        (dataBlockSize - (bytesAdded + totalRemaining entries served)) =
          .ok remainingSize) :
      Packing packetNumber entries queue bytesAdded
        ⟨served.map (lastFrame entries) ++ [⟨(entries i).resourceId,
            dataBlockSize - (bytesAdded + totalRemaining entries served),
            false⟩],
          cutStream packetNumber (serveAll packetNumber entries served) i
            remainingSize,
          rest ++ [i]⟩

theorem Fits.nil (entries : Entries n) (bytesAdded : Int) :
    Fits entries bytesAdded [] := by
  intro before i after h
  simp at h

theorem Fits.cons {entries : Entries n} {bytesAdded : Int} {i : Fin n}
    {served : List (Fin n)} (hroom : bytesAdded < dataBlockSize)
    (hi : bytesAdded + (entries i).remainingSize ≤ dataBlockSize)
    (h : Fits entries (bytesAdded + (entries i).remainingSize) served) :
    Fits entries bytesAdded (i :: served) := by
  intro before j after hsplit
  cases before with
  | nil =>
    obtain ⟨rfl, -⟩ := hsplit
    simpa using ⟨hroom, hi⟩
  | cons k before =>
    simp only [List.cons_append, List.cons.injEq] at hsplit
    obtain ⟨rfl, hrest⟩ := hsplit
    have := h before j after hrest
    simp only [totalRemaining_cons]
    omega

theorem Packing.cons {packetNumber : Nat} {entries entries' : Entries n}
    {i : Fin n} {queue : List (Fin n)} {bytesAdded : Int}
    {packet : Composition n} (hi : i ∉ queue)
    (hentries : entries' = serveAll packetNumber entries [i])
    (hroom : bytesAdded < dataBlockSize)
    (hfit : bytesAdded + (entries i).remainingSize ≤ dataBlockSize)
    (h : Packing packetNumber entries' queue
      (bytesAdded + (entries i).remainingSize) packet) :
    Packing packetNumber entries (i :: queue) bytesAdded
      { packet with recipe := lastFrame entries i :: packet.recipe } := by
  have hsame : ∀ j, j ≠ i → entries' j = entries j := by
    intro j hj
    simp [hentries, serveAll, hj]
  have hserve : ∀ served : List (Fin n), i ∉ served →
      serveAll packetNumber entries' served = serveAll packetNumber entries (i :: served) := by
    intro served hnot
    funext j
    by_cases hj : j = i
    · subst hj
      simp [serveAll, hnot, hentries]
    · simp [serveAll, hj, hsame j hj]
  have hmap : ∀ served : List (Fin n), i ∉ served →
      served.map (lastFrame entries') = served.map (lastFrame entries) := by
    intro served hnot
    refine List.map_congr_left fun j hj => ?_
    have hji : j ≠ i := fun heq => hnot (heq ▸ hj)
    simp [lastFrame, hsame j hji]
  have htotal : ∀ served : List (Fin n), i ∉ served →
      totalRemaining entries' served = totalRemaining entries served := by
    intro served hnot
    exact totalRemaining_congr fun j hj =>
      hsame j fun heq => hnot (heq ▸ hj)
  have hfits : ∀ served : List (Fin n), i ∉ served →
      Fits entries' (bytesAdded + (entries i).remainingSize) served →
      Fits entries bytesAdded (i :: served) := by
    intro served hnot hserved
    refine Fits.cons hroom hfit fun before j after hsplit => ?_
    subst hsplit
    simp only [List.mem_append, List.mem_cons, not_or] at hnot
    have := hserved before j after rfl
    rwa [htotal before hnot.1, hsame j fun heq => hnot.2.1 heq.symm] at this
  cases h with
  | whole served rest hqueue hserved hstop =>
    subst hqueue
    simp only [List.mem_append, not_or] at hi
    rw [htotal served hi.1] at hstop
    have : Packing packetNumber entries (i :: (served ++ rest)) bytesAdded _ :=
      .whole (i :: served) rest (by simp) (hfits served hi.1 hserved)
        (by simpa [Int.add_assoc] using hstop)
    simpa [hserve served hi.1, hmap served hi.1] using this
  | cut served j rest remainingSize hqueue hserved hroom' hlarge hsub =>
    subst hqueue
    simp only [List.mem_append, List.mem_cons, not_or] at hi
    obtain ⟨hnot, hij, -⟩ := hi
    have hj : entries' j = entries j := hsame j fun heq => hij heq.symm
    rw [htotal served hnot] at hroom' hlarge hsub
    rw [hj] at hlarge hsub
    have : Packing packetNumber entries (i :: (served ++ j :: rest)) bytesAdded _ :=
      .cut (i :: served) j rest remainingSize (by simp)
        (hfits served hnot hserved)
        (by simpa [Int.add_assoc] using hroom')
        (by simpa [Int.add_assoc] using hlarge)
        (by simpa [Int.add_assoc] using hsub)
    simpa [hserve served hnot, hmap served hnot, htotal served hnot, hj,
      Int.add_assoc] using this

theorem fillPacket_packing {packetNumber : Nat} {bytesAdded : Int} (hnodup : queue.Nodup)
    (h : fillPacket packetNumber entries queue bytesAdded = .ok packet) :
    Packing packetNumber entries queue bytesAdded packet := by
  induction queue generalizing entries bytesAdded packet with
  | nil =>
    cases h
    exact .whole [] [] rfl (Fits.nil _ _) (Or.inl rfl)
  | cons i queue ih =>
    obtain ⟨hi, hqueue⟩ := List.nodup_cons.mp hnodup
    rw [fillPacket] at h
    split at h
    · rename_i hroom
      dsimp only at h
      split at h
      · obtain ⟨remainingSize, hsub, hpacket⟩ := bind_eq_ok.mp h
        cases hpacket
        have : Packing packetNumber entries (i :: queue) bytesAdded _ :=
          .cut [] i queue remainingSize rfl (Fits.nil _ _)
            (by simpa using hroom) (by simp; omega) (by simpa using hsub)
        simpa [cutStream] using this
      · obtain ⟨rest, hrest, hpacket⟩ := bind_eq_ok.mp h
        cases hpacket
        refine Packing.cons hi ?_ hroom (by omega) (ih hqueue hrest)
        funext j
        by_cases hj : j = i
        · subst hj
          simp [serveAll]
        · simp [serveAll, hj]
    · rename_i hfull
      cases h
      have : Packing packetNumber entries (i :: queue) bytesAdded _ :=
        .whole [] (i :: queue) rfl (Fits.nil _ _)
          (Or.inr (by simpa using hfull))
      simpa using this

/-! ## Ordering the queue -/

def PriorityLists.inOrder (lists : PriorityLists n) : List (List (Fin n)) :=
  [lists.highestPriorityList, lists.highPriorityList, lists.normalPriorityList,
    lists.lowPriorityList, lists.lowestPriorityList]

private theorem classifyStream_perm (entries : Entries n) (lists : PriorityLists n) (i : Fin n) :
    (classifyStream entries lists i).inOrder.flatten.Perm (lists.inOrder.flatten ++ [i]) := by
  rw [List.perm_iff_count]
  intro j
  simp only [classifyStream]
  split_ifs <;>
    simp only [PriorityLists.inOrder, List.flatten_cons, List.count_append] <;> omega

theorem classifyStreams_perm (entries : Entries n) (queue : List (Fin n)) :
    (classifyStreams entries queue).inOrder.flatten.Perm queue := by
  suffices h : ∀ lists : PriorityLists n,
      (queue.foldl (classifyStream entries) lists).inOrder.flatten.Perm
        (lists.inOrder.flatten ++ queue) from h {}
  induction queue with
  | nil => simp
  | cons i queue ih =>
    intro lists
    refine (ih (classifyStream entries lists i)).trans ?_
    simpa using (classifyStream_perm entries lists i).append_right queue

def inTimeOrder (entries : Entries n) (tmpList : List (Fin n)) : List (Fin n) :=
  tmpList.insertionSort fun i j =>
    (entries i).enqueuedAt.getD 0 ≤ (entries j).enqueuedAt.getD 0

private theorem sortByStartTime_eq {tmpList sorted : List (Fin n)}
    (h : sortByStartTime entries tmpList = .ok sorted) :
    sorted = inTimeOrder entries tmpList := by
  rw [sortByStartTime] at h
  split at h
  · cases h
  · cases h
    rfl

theorem replaceWithDynamicQueue_eq {ordered : List (Fin n)}
    (h : replaceWithDynamicQueue entries queue = .ok ordered) :
    ordered = ((classifyStreams entries queue).inOrder.map (inTimeOrder entries)).flatten := by
  obtain ⟨highest, hhighest, h⟩ := bind_eq_ok.mp h
  obtain ⟨high, hhigh, h⟩ := bind_eq_ok.mp h
  obtain ⟨normal, hnormal, h⟩ := bind_eq_ok.mp h
  obtain ⟨low, hlow, h⟩ := bind_eq_ok.mp h
  obtain ⟨lowest, hlowest, h⟩ := bind_eq_ok.mp h
  cases h
  rw [sortByStartTime_eq hhighest, sortByStartTime_eq hhigh, sortByStartTime_eq hnormal,
    sortByStartTime_eq hlow, sortByStartTime_eq hlowest]
  simp [PriorityLists.inOrder]

theorem replaceWithDynamicQueue_perm {ordered : List (Fin n)}
    (h : replaceWithDynamicQueue entries queue = .ok ordered) :
    ordered.Perm queue := by
  rw [replaceWithDynamicQueue_eq h]
  refine List.Perm.trans (List.Perm.flatten_congr ?_) (classifyStreams_perm entries queue)
  rw [List.forall₂_map_left_iff, List.forall₂_same]
  exact fun tmpList _ => List.perm_insertionSort _ tmpList

def serviceOrder (activeScheduler : SchedulerType) (entries : Entries n)
    (queue : List (Fin n)) : Except PyError (List (Fin n)) :=
  match activeScheduler with
  | .dynamicFirstComeFirstServeScheduler =>
    replaceWithDynamicQueue entries queue
  | _ => .ok queue

theorem composeNextPacket_packing {activeScheduler : SchedulerType}
    (hsched : activeScheduler.Implemented) {packetNumber : Nat} (hnodup : queue.Nodup)
    (h : composeNextPacket activeScheduler packetNumber entries queue = .ok packet) :
    ∃ ordered, serviceOrder activeScheduler entries queue = .ok ordered ∧ ordered.Perm queue ∧
      Packing packetNumber entries ordered 0 packet := by
  cases activeScheduler with
  | naiveRoundRobinScheduler =>
    exact ⟨queue, rfl, List.Perm.refl _, fillPacket_packing hnodup h⟩
  | dynamicFirstComeFirstServeScheduler =>
    obtain ⟨ordered, hordered, hfill⟩ := bind_eq_ok.mp h
    have hperm := replaceWithDynamicQueue_perm hordered
    exact ⟨ordered, hordered, hperm, fillPacket_packing (hperm.nodup_iff.mpr hnodup) hfill⟩
  | weightedRoundRobinScheduler => exact hsched.elim
  | classifiedWeightedRoundRobinScheduler => exact hsched.elim

/-! ## Recording a packet -/

def Finishes (frames : List Frame) (id : Nat) : Prop :=
  ∃ frame ∈ frames, frame.isFinished = true ∧ frame.resourceId = id

instance (frames : List Frame) (id : Nat) : Decidable (Finishes frames id) :=
  inferInstanceAs (Decidable (∃ frame ∈ frames, _ ∧ _))

theorem finishes_append {first second : List Frame} : Finishes (first ++ second) id ↔
      Finishes first id ∨ Finishes second id := by
  simp [Finishes, or_and_right, exists_or]

theorem finishes_singleton {frame : Frame} :
    Finishes [frame] id ↔ frame.isFinished = true ∧ frame.resourceId = id := by
  simp [Finishes]

def markAll (s : ReplayState n) (frames : List Frame) : ReplayState n :=
  { s with
    filteredEntries := fun i =>
      if Finishes frames (s.filteredEntries i).resourceId then
        { s.filteredEntries i with finishedAt := some s.packetNumber }
      else s.filteredEntries i
    requestStatus := fun id =>
      if Finishes frames id then .finished else s.requestStatus id }

@[simp] theorem markAll_resourceId (s : ReplayState n) (frames : List Frame)
    (i : Fin n) :
    ((markAll s frames).filteredEntries i).resourceId =
      (s.filteredEntries i).resourceId := by
  simp only [markAll]
  split <;> rfl

theorem getRequestById_eq_some {i : Fin n}
    (h : getRequestById id entries = some i) : (entries i).resourceId = id := by
  simpa using List.find?_some h

theorem getRequestByUrl_eq_some {url : String}
    {i : Fin n} (h : getRequestByUrl entries url = some i) :
    (entries i).requestUrl = url := by
  simpa using List.find?_some h

theorem markFinished_markAll {s : ReplayState n}
    (hnum : Numbered s.filteredEntries) {frames : List Frame} {frame : Frame}
    (h : markFinished (markAll s frames) frame = .ok t) :
    t = markAll s (frames ++ [frame]) := by
  rw [markFinished] at h
  by_cases hfinished : frame.isFinished = true
  · rw [if_pos hfinished] at h
    obtain ⟨status, hwrite, hmatch⟩ := bind_eq_ok.mp h
    split at hmatch
    · cases hmatch
    · rename_i i hget
      have hid : (s.filteredEntries i).resourceId = frame.resourceId := by
        simpa using getRequestById_eq_some hget
      cases hmatch
      simp only [writeStatus] at hwrite
      split at hwrite
      · rename_i hlt
        cases hwrite
        simp only [markAll]
        congr 1
        · funext j
          by_cases hj : j = i
          · subst hj
            have hmark : Finishes (frames ++ [frame]) (s.filteredEntries j).resourceId :=
              ⟨frame, by simp, hfinished, hid.symm⟩
            rw [Function.update_self, if_pos hmark]
            split <;> rfl
          · have hne : frame.resourceId ≠ (s.filteredEntries j).resourceId := by
              intro heq
              exact hj (hnum.injective (heq.symm.trans hid.symm))
            simp [Function.update_of_ne hj, finishes_append, finishes_singleton, hne]
        · funext id
          by_cases hidx : id = ⟨frame.resourceId, hlt⟩
          · subst hidx
            simp [finishes_append, finishes_singleton, hfinished]
          · have hne : frame.resourceId ≠ id := by
              intro heq
              exact hidx (Fin.ext heq.symm)
            simp [Function.update_of_ne hidx, finishes_append, finishes_singleton, hne]
      · cases hwrite
  · rw [if_neg hfinished] at h
    cases h
    simp [markAll, finishes_append, finishes_singleton, hfinished]

def recorded (s : ReplayState n) (packet : Composition n) : ReplayState n :=
  { markAll { s with
      filteredEntries := packet.filteredEntries
      activeStreamQueue := packet.activeStreamQueue } packet.recipe with
    replayLog := s.replayLog ++ [packet.recipe]
    packetNumber := s.packetNumber + 1 }

theorem recordPacket_eq {s : ReplayState n} (hnum : Numbered packet.filteredEntries)
    (h : recordPacket s packet = .ok t) : t = recorded s packet := by
  obtain ⟨marked, hmarked, ht⟩ := bind_eq_ok.mp h
  have hall := foldlM_ok_induct
    (fun processed u => u = markAll { s with
      filteredEntries := packet.filteredEntries
      activeStreamQueue := packet.activeStreamQueue } processed)
    (fun before frame after u v _ hu hv => by
      subst hu
      exact markFinished_markAll hnum hv)
    (by simp [markAll, Finishes]) hmarked
  subst hall
  cases ht
  rfl

/-! ## The whole iteration -/

structure Request where
  resourceId : Nat
  requestUrl : String
  responseSize : Int
  resourceType : String
  dependencies : List Nat
  domain : String
  method : String

def Entry.request (entry : Entry) : Request :=
  { resourceId := entry.resourceId
    requestUrl := entry.requestUrl
    responseSize := entry.responseSize
    resourceType := entry.resourceType
    dependencies := entry.dependencies
    domain := entry.domain
    method := entry.method }

theorem resourceId_of_request {e e' : Entry} (h : e.request = e'.request) :
    e.resourceId = e'.resourceId := congrArg Request.resourceId h

theorem resourceType_of_request {e e' : Entry} (h : e.request = e'.request) :
    e.resourceType = e'.resourceType := congrArg Request.resourceType h

theorem dependencies_of_request {e e' : Entry} (h : e.request = e'.request) :
    e.dependencies = e'.dependencies := congrArg Request.dependencies h

@[simp] theorem markStarted_request (packetNumber : Nat) (stream : Entry) :
    (stream.markStarted packetNumber).request = stream.request := by
  simp only [Entry.markStarted]
  split <;> rfl

@[simp] theorem releaseAll_request (s : ReplayState n) (new : List (Fin n))
    (i : Fin n) :
    ((releaseAll s new).filteredEntries i).request =
      (s.filteredEntries i).request := by
  simp only [releaseAll]
  split <;> rfl

@[simp] theorem released_request (s : ReplayState n) (i : Fin n) :
    ((released s).filteredEntries i).request = (s.filteredEntries i).request :=
  releaseAll_request s _ i

@[simp] theorem serveAll_request (packetNumber : Nat) (entries : Entries n)
    (served : List (Fin n)) (i : Fin n) :
    (serveAll packetNumber entries served i).request = (entries i).request := by
  simp only [serveAll]
  split
  · rw [markStarted_request]
    rfl
  · rfl

@[simp] theorem cutStream_request (packetNumber : Nat) (entries : Entries n)
    (i : Fin n) (remainingSize : Int) (j : Fin n) :
    (cutStream packetNumber entries i remainingSize j).request =
      (entries j).request := by
  simp only [cutStream]
  by_cases hj : j = i
  · subst hj
    rw [Function.update_self, markStarted_request]
    rfl
  · rw [Function.update_of_ne hj]

theorem Packing.request {packetNumber : Nat} {entries : Entries n}
    {queue : List (Fin n)} {bytesAdded : Int} {packet : Composition n}
    (h : Packing packetNumber entries queue bytesAdded packet) (i : Fin n) :
    (packet.filteredEntries i).request = (entries i).request := by
  cases h <;> simp

@[simp] theorem recorded_request (s : ReplayState n) (packet : Composition n)
    (i : Fin n) :
    ((recorded s packet).filteredEntries i).request =
      (packet.filteredEntries i).request := by
  simp only [recorded, markAll]
  split <;> rfl

theorem Numbered.congr {entries' : Entries n}
    (h : ∀ i, (entries' i).request = (entries i).request)
    (hnum : Numbered entries) : Numbered entries' where
  lt i := by
    rw [resourceId_of_request (h i)]
    exact hnum.lt i
  injective i j hij := by
    apply hnum.injective
    simpa only [resourceId_of_request (h _)] using hij

theorem released_numbered {s : ReplayState n} (hnum : Numbered s.filteredEntries) :
    Numbered (released s).filteredEntries :=
  hnum.congr (released_request s)

theorem replayIteration_cases {activeScheduler : SchedulerType}
    (hsched : activeScheduler.Implemented) {s : ReplayState n} (hnum : Numbered s.filteredEntries)
    (hnodup : (released s).activeStreamQueue.Nodup)
    (h : replayIteration activeScheduler s = .ok t) :
    ∃ ordered packet,
      serviceOrder activeScheduler (released s).filteredEntries
        (released s).activeStreamQueue = .ok ordered ∧
      ordered.Perm (released s).activeStreamQueue ∧
      Packing s.packetNumber (released s).filteredEntries ordered 0 packet ∧
      t = recorded (released s) packet := by
  obtain ⟨ready, hready, h⟩ := bind_eq_ok.mp h
  obtain ⟨packet, hpacket, hrecord⟩ := bind_eq_ok.mp h
  have heq := enqueueReady_eq hnum hready
  subst heq
  obtain ⟨ordered, horder, hperm, hpacking⟩ :=
    composeNextPacket_packing hsched hnodup hpacket
  have hnum' : Numbered packet.filteredEntries :=
    (released_numbered hnum).congr hpacking.request
  exact ⟨ordered, packet, horder, hperm, hpacking, recordPacket_eq hnum' hrecord⟩

end Qperf.HarConverter
