import Qperf.HarConverter.Invariants

/-!
# The loop body of the replay does not fail

Three things can raise in an iteration: a status index out of range, comparing
a missing `enqueued_at`, and the conversion of a large size to a float.  None of
them happens when ids are in range, queued streams are stamped and sizes round
to at most `2 ^ 64`.
-/

namespace Qperf.HarConverter

open Qperf.Foundation

variable {n : Nat}

/-! ## The float arithmetic of a cut -/

theorem toFloat_eq_ok {a : Nat} {r : Int} (h : toFloat a = .ok r) :
    r = roundTo 53 a := by
  rw [toFloat, Int.natAbs_natCast] at h
  split at h
  · cases h
    rcases Nat.eq_zero_or_pos a with rfl | hpos
    · rfl
    · rw [Int.sign_eq_one_of_pos (by omega), Int.one_mul]
  · cases h

private theorem toFloat_of_roundTo_le {a : Nat} (h : roundTo 53 a ≤ 2 ^ 64) :
    toFloat a = .ok (roundTo 53 a) := by
  have hlimit : 2 ^ 64 < floatLimit := two_pow_lt_floatLimit (by decide)
  have hok : toFloat a = .ok ((a : Int).sign * roundTo 53 a) := by
    rw [toFloat, Int.natAbs_natCast, if_pos (by omega)]
  rw [hok, toFloat_eq_ok hok]

theorem lt_roundTo_of_lt {a b : Nat} (hb : b < 2 ^ 53) (h : b < a) :
    b < roundTo 53 a := by
  by_cases ha : a ≤ 2 ^ 53
  · rwa [roundTo_of_le (by decide) ha]
  · exact Nat.lt_of_lt_of_le hb (two_pow_le_roundTo (by decide) (by decide) (by omega))

theorem floatSub_eq_ok {a b : Nat} {r : Int} (hb : b < 2 ^ 53) (hba : b < a)
    (h : floatSub a b = .ok r) : r = roundTo 53 (roundTo 53 a - b) := by
  obtain ⟨x, hx, hr⟩ := bind_eq_ok.mp h
  have hlt := lt_roundTo_of_lt hb hba
  rw [toFloat_eq_ok hx, ← Int.ofNat_sub (Nat.le_of_lt hlt)] at hr
  exact toFloat_eq_ok hr

private theorem floatSub_of_roundTo_le {a b : Nat} (hb : b < 2 ^ 53) (hba : b < a)
    (ha : roundTo 53 a ≤ 2 ^ 64) :
    floatSub a b = .ok (roundTo 53 (roundTo 53 a - b)) := by
  have hlt := lt_roundTo_of_lt hb hba
  rw [floatSub, toFloat_of_roundTo_le ha, ok_bind, ← Int.ofNat_sub (Nat.le_of_lt hlt)]
  exact toFloat_of_roundTo_le (roundTo_le_two_pow (by decide) (a := 11) (by omega))

theorem roundTo_sub_dataBlockSize_lt {x : Nat} (hx : x ≤ 2 ^ 64)
    (hpos : 1200 ≤ x) : roundTo 53 (x - 1200) < x := by
  have h := roundTo_le_add (p := 53) (by decide) (n := x - 1200) (a := 10) (by omega)
  omega

theorem le_roundTo_above {y : Nat} (hy : 2 ^ 64 + 2 ^ 11 < y) :
    2 ^ 64 + 2 ^ 12 ≤ roundTo 53 y := by
  by_cases hlarge : 2 ^ 65 ≤ y
  · have := two_pow_le_roundTo (p := 53) (by decide) (a := 65) (by decide) hlarge
    omega
  · have hlog : y.log2 = 64 := by
      rw [Nat.log2_eq_iff (by omega)]
      omega
    have hbits : droppedBits 53 y = 12 := by
      rw [droppedBits, hlog]
    have hround : 2 ^ 52 < roundShift y 12 := lt_roundShift (by omega)
    rw [roundTo, hbits]
    omega

theorem roundTo_le_of_le_midpoint {y : Nat} (hy : y ≤ 2 ^ 64 + 2 ^ 11) :
    roundTo 53 y ≤ 2 ^ 64 := by
  by_cases hsmall : y ≤ 2 ^ 64
  · exact roundTo_le_two_pow (by decide) (a := 11) hsmall
  · have hlog : y.log2 = 64 := by
      rw [Nat.log2_eq_iff (by omega)]
      omega
    have hbits : droppedBits 53 y = 12 := by
      rw [droppedBits, hlog]
    have hround : roundShift y 12 ≤ 2 ^ 52 := roundShift_le_of_even (by decide) (by omega)
    rw [roundTo, hbits]
    omega

/-! ## Enqueueing, composing and recording -/

variable {entries : Entries n} {s : ReplayState n}

theorem putStream_ok {i : Fin n} (h : (s.filteredEntries i).resourceId < n) :
    ∃ t, putStream s i = .ok t := by
  rw [putStream, writeStatus, dif_pos h, ok_bind]
  exact ⟨_, rfl⟩

theorem enqueueReady_of_lt (hnum : Numbered s.filteredEntries)
    (hlt : ∀ i, s.statusOf i = .unavailable →
      ∀ d ∈ (s.filteredEntries i).dependencies, d < n) :
    enqueueReady s = .ok (released s) := by
  have htotal : ∃ t, enqueueReady s = .ok t := by
    refine foldlM_ok_of_total
      (fun u => ∃ new, u = releaseAll s new ∧ ∀ j ∈ new, isReady s j = true) ?_
      ⟨[], by simp [releaseAll], by simp⟩
    rintro u i - ⟨new, rfl, hnew⟩
    have hid := resourceId_of_request (releaseAll_request s new i)
    have hread : readStatus (releaseAll s new).requestStatus
        ((releaseAll s new).filteredEntries i).resourceId = .ok
          (statusAt (releaseAll s new).requestStatus
            (s.filteredEntries i).resourceId) := by
      rw [hid]
      exact readStatus_of_lt _ (hnum.lt i)
    by_cases hi : i ∈ new
    · refine ⟨releaseAll s new, ?_, new, rfl, hnew⟩
      rw [enqueueIfReady, hread, ok_bind, statusAt_releaseAll_of_mem hnum hi]
      rfl
    · have hbody : ∃ t, enqueueIfReady (releaseAll s new) i = .ok t := by
        rw [enqueueIfReady, hread, ok_bind, statusAt_releaseAll_of_not_mem hnum hi]
        split
        · rename_i hstatus
          rw [dependencies_of_request (releaseAll_request s new i),
            isDependenciesMet_of_lt _ (hlt i hstatus), ok_bind]
          split
          · exact putStream_ok (hid ▸ hnum.lt i)
          · exact ⟨_, rfl⟩
        · exact ⟨_, rfl⟩
      obtain ⟨t, ht⟩ := hbody
      refine ⟨t, ht, _, enqueueIfReady_releaseAll hnum hnew hi ht, ?_⟩
      intro j hj
      rcases List.mem_append.mp hj with hj | hj
      · exact hnew j hj
      · exact (List.mem_filter.mp hj).2
  obtain ⟨t, ht⟩ := htotal
  rw [ht, enqueueReady_eq hnum ht]

theorem fillPacket_of_roundTo_le (packetNumber : Nat)
    {queue : List (Fin n)} {bytesAdded : Int} (hadded : 0 ≤ bytesAdded)
    (hnodup : queue.Nodup) (hsize : ∀ i ∈ queue, 0 ≤ (entries i).remainingSize ∧
      roundTo 53 (entries i).remainingSize.natAbs ≤ 2 ^ 64) :
    ∃ packet, fillPacket packetNumber entries queue bytesAdded = .ok packet := by
  induction queue generalizing entries bytesAdded with
  | nil => exact ⟨_, rfl⟩
  | cons i queue ih =>
    obtain ⟨hi, hqueue⟩ := List.nodup_cons.mp hnodup
    obtain ⟨hnonneg, hround⟩ := hsize i (by simp)
    rw [fillPacket]
    split
    · dsimp only
      split
      · rename_i hlarge
        obtain ⟨a, ha⟩ := Int.eq_ofNat_of_zero_le hnonneg
        obtain ⟨b, hb⟩ := Int.eq_ofNat_of_zero_le
          (show 0 ≤ dataBlockSize - bytesAdded by omega)
        rw [ha, Int.natAbs_natCast] at hround
        rw [ha, hb] at hlarge ⊢
        have hsmall : b < 2 ^ 53 := by
          have : (b : Int) ≤ 1200 := by
            rw [← hb, dataBlockSize]
            omega
          omega
        rw [floatSub_of_roundTo_le hsmall (by omega) hround, ok_bind]
        exact ⟨_, rfl⟩
      · have hroom' : 0 ≤ bytesAdded + (entries i).remainingSize := by omega
        have hsize' : ∀ j ∈ queue, ∀ entry : Entry,
            0 ≤ (Function.update entries i entry j).remainingSize ∧
              roundTo 53 (Function.update entries i entry
                j).remainingSize.natAbs ≤ 2 ^ 64 := by
          intro j hj entry
          have hji : j ≠ i := fun heq => hi (heq ▸ hj)
          rw [Function.update_of_ne hji]
          exact hsize j (by simp [hj])
        obtain ⟨rest, hrest⟩ := ih hroom' hqueue fun j hj => hsize' j hj _
        rw [hrest, ok_bind]
        exact ⟨_, rfl⟩
    · exact ⟨_, rfl⟩

private theorem sortByStartTime_of_stamped (entries : Entries n) {tmpList : List (Fin n)}
    (h : ∀ i ∈ tmpList, (entries i).enqueuedAt.isSome) :
    sortByStartTime entries tmpList = .ok (inTimeOrder entries tmpList) := by
  have hnone : tmpList.any (fun i => (entries i).enqueuedAt.isNone) = false := by
    rw [List.any_eq_false]
    intro i hi
    obtain ⟨t, ht⟩ := Option.isSome_iff_exists.mp (h i hi)
    simp [ht]
  rw [sortByStartTime, hnone]
  simp [inTimeOrder]

theorem replaceWithDynamicQueue_of_stamped
    {queue : List (Fin n)} (h : ∀ i ∈ queue, (entries i).enqueuedAt.isSome) :
    ∃ ordered, replaceWithDynamicQueue entries queue = .ok ordered := by
  have hsort : ∀ tmpList ∈ (classifyStreams entries queue).inOrder,
      sortByStartTime entries tmpList = .ok (inTimeOrder entries tmpList) := by
    intro tmpList hlist
    refine sortByStartTime_of_stamped entries fun i hi => h i ?_
    exact (classifyStreams_perm entries queue).mem_iff.mp
      (List.mem_flatten.mpr ⟨tmpList, hlist, hi⟩)
  simp only [PriorityLists.inOrder, List.forall_mem_cons] at hsort
  obtain ⟨hhighest, hhigh, hnormal, hlow, hlowest, -⟩ := hsort
  simp only [replaceWithDynamicQueue, hhighest, hhigh, hnormal, hlow, hlowest, ok_bind]
  exact ⟨_, rfl⟩

theorem composePacket_ok {activeScheduler : SchedulerType} (hsched : activeScheduler.Implemented)
    (hnodup : s.activeStreamQueue.Nodup) (hstamped : ∀ i ∈ s.activeStreamQueue,
      (s.filteredEntries i).enqueuedAt.isSome)
    (hsize : ∀ i, 0 ≤ (s.filteredEntries i).remainingSize ∧
      roundTo 53 (s.filteredEntries i).remainingSize.natAbs ≤ 2 ^ 64) :
    ∃ packet, composePacket activeScheduler s = .ok packet := by
  cases activeScheduler with
  | naiveRoundRobinScheduler =>
    exact fillPacket_of_roundTo_le _ (Int.le_refl 0) hnodup fun i _ => hsize i
  | dynamicFirstComeFirstServeScheduler =>
    obtain ⟨ordered, hordered⟩ := replaceWithDynamicQueue_of_stamped hstamped
    have hperm := replaceWithDynamicQueue_perm hordered
    obtain ⟨packet, hpacket⟩ := fillPacket_of_roundTo_le
      s.packetNumber (Int.le_refl 0)
      (hperm.nodup_iff.mpr hnodup) fun i _ => hsize i
    exact ⟨packet, by
      rw [composePacket, composeNextPacket,
        dynamicFirstComeFirstServeScheduler, hordered, ok_bind, hpacket]⟩
  | weightedRoundRobinScheduler => exact hsched.elim
  | classifiedWeightedRoundRobinScheduler => exact hsched.elim

private theorem getRequestById_of_numbered (hnum : Numbered entries) (i : Fin n) :
    getRequestById (entries i).resourceId entries = some i := by
  cases hget : getRequestById (entries i).resourceId entries with
  | none =>
    have := List.find?_eq_none.mp hget i (List.mem_finRange i)
    simp at this
  | some j =>
    rw [hnum.injective (getRequestById_eq_some hget)]

theorem markFinished_ok {s : ReplayState n}
    (hnum : Numbered s.filteredEntries) (frames : List Frame) {frame : Frame}
    {i : Fin n} (hid : frame.resourceId = (s.filteredEntries i).resourceId) :
    ∃ t, markFinished (markAll s frames) frame = .ok t := by
  have hnum' : Numbered (markAll s frames).filteredEntries :=
    hnum.congr fun j => by
      simp only [markAll]
      split <;> rfl
  have hget := getRequestById_of_numbered hnum' i
  rw [markAll_resourceId, ← hid] at hget
  have hlt : frame.resourceId < n := hid ▸ hnum.lt i
  rw [markFinished]
  split
  · rw [writeStatus, dif_pos hlt, ok_bind, hget]
    exact ⟨_, rfl⟩
  · exact ⟨_, rfl⟩

theorem recordPacket_ok {packetNumber : Nat} {ordered : List (Fin n)} {packet : Composition n}
    (hnum : Numbered s.filteredEntries)
    (hpacking : Packing packetNumber s.filteredEntries ordered 0 packet) :
    recordPacket s packet = .ok (recorded s packet) := by
  have hnum' : Numbered packet.filteredEntries := hnum.congr hpacking.request
  let loaded : ReplayState n := { s with
    filteredEntries := packet.filteredEntries
    activeStreamQueue := packet.activeStreamQueue }
  have hmarked : ∃ t, packet.recipe.foldlM markFinished loaded = .ok t := by
    refine foldlM_ok_of_total (fun u => ∃ frames, u = markAll loaded frames)
      ?_ ⟨[], by simp [markAll, Finishes]⟩
    rintro u frame hframe ⟨frames, rfl⟩
    obtain ⟨i, -, hid⟩ := hpacking.mem_of_frame hframe
    rw [← resourceId_of_request (hpacking.request i)] at hid
    obtain ⟨t, ht⟩ := markFinished_ok (s := loaded) hnum' frames hid
    exact ⟨t, ht, _, markFinished_markAll hnum' ht⟩
  obtain ⟨t, ht⟩ : ∃ t, recordPacket s packet = .ok t := by
    obtain ⟨marked, hmarked⟩ := hmarked
    exact ⟨_, by rw [recordPacket, hmarked, ok_bind]⟩
  rw [ht, recordPacket_eq hnum' ht]

end Qperf.HarConverter
