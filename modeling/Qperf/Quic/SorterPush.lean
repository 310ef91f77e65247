import Qperf.Quic.SorterGaps

/-!
# What a push to the frame sorter can do

The cases of `Push`.  Data at an offset that the queue knows already is compared
with the entry there before the gaps are looked at.
-/

namespace Qperf.Quic

namespace FrameSorter

def cutData (data : Slice) (offset start stop : Nat) : Slice :=
  (data.drop (start - offset)).take (stop - start)

def wasCut (offset stop : Nat) (gap : ByteInterval) (e : EndGap) : Bool :=
  decide (offset < gap.start) || decide (stop > e.endGap.stop)

variable {s : FrameSorter} {data : Slice} {offset : Nat}
variable {doneCb : Option Callback}

theorem front_eq (data : Slice) (offset : Nat) (gap : ByteInterval) :
    (if offset < gap.start then
      (gap.start, data.drop (gap.start - offset)) else (offset, data)) =
      (cutStart offset gap, data.drop (cutStart offset gap - offset)) := by
  unfold cutStart
  split
  · rw [Nat.max_eq_right (by omega)]
  · rw [Nat.max_eq_left (by omega), Nat.sub_self]
    rfl

theorem fillGap_eq (doneCb : Option Callback) (before : List ByteInterval)
    {after : List ByteInterval} {gap : ByteInterval}
    {calls : List Callback} {e : EndGap}
    (hseek : seekEndGap (cutStart offset gap) (offset + data.length) gap true
      s.queue calls after = .ok e) :
    s.fillGap data offset doneCb calls before gap after =
      insertFrame
        { s with
          queue := e.queue
          gaps := gapsAfter offset (offset + data.length) before gap e }
        (cutData data offset (cutStart offset gap) (cutStop (offset + data.length) e))
        (cutStart offset gap) doneCb (wasCut offset (offset + data.length) gap e)
        e.calls := by
  have hback : (if offset + data.length > e.endGap.stop then
      (e.endGap.stop, (data.drop (cutStart offset gap - offset)).take
        ((data.drop (cutStart offset gap - offset)).length -
          (offset + data.length - e.endGap.stop)))
      else (offset + data.length, data.drop (cutStart offset gap - offset))) =
      (cutStop (offset + data.length) e, cutData data offset
        (cutStart offset gap) (cutStop (offset + data.length) e)) := by
    have hlen : (data.drop (cutStart offset gap - offset)).length =
        offset + data.length - cutStart offset gap := by
      unfold cutStart Slice.drop Slice.length
      rw [List.length_drop]
      omega
    unfold cutData cutStop
    split
    · rw [Nat.min_eq_right (by omega), hlen]
      congr 2
      omega
    · rw [Nat.min_eq_left (by omega), ← hlen]
      unfold Slice.take Slice.length
      rw [List.take_length]
  unfold fillGap
  simp only [front_eq, hseek, hback]
  rfl

theorem seekEndGap_error {offset stop : Nat} {endGap : ByteInterval}
    {isGap : Bool} {queue : SorterQueue} {calls : List Callback}
    {rest : List ByteInterval} {e : EndGap}
    (h : seekEndGap offset stop endGap isGap queue calls rest = .error e) :
    ∃ skipped, endGap :: rest = skipped ++ [e.endGap] ∧ e.rest = [] ∧
      e.isGap = (isGap && skipped.isEmpty) ∧
      (e.queue, e.calls) = deleteAll offset skipped queue calls := by
  induction rest generalizing endGap isGap queue calls with
  | nil =>
    unfold seekEndGap at h
    split at h
    · cases h
    · cases h
      exact ⟨[], rfl, rfl, by simp, rfl⟩
  | cons next rest ih =>
    unfold seekEndGap at h
    split at h
    · cases h
    · split at h
      · cases h
      · obtain ⟨skipped, hsplit, hrest, hisGap, heffects⟩ := ih h
        refine ⟨endGap :: skipped, by rw [hsplit]; rfl, hrest, ?_, heffects⟩
        simpa using hisGap

inductive PushCase (s : FrameSorter) (data : Slice) (offset : Nat)
    (doneCb : Option Callback) : Pushed → Prop where
  | known (h : data.length = 0 ∨ ∃ old, s.queue.lookup offset = some old ∧
        data.length ≤ old.data.length) :
      PushCase s data offset doneCb ⟨s, doneCb.toList, none⟩
  | duplicate {queue : SorterQueue} {calls : List Callback}
      (hlen : 0 < data.length)
      (hreplace : replaceShorter s.queue data offset doneCb = some (queue, calls))
      (hgaps : ∀ g ∈ s.gaps, offset + data.length ≤ g.start ∨ g.stop < offset)
      (hlast : ∃ g ∈ s.gaps, offset + data.length ≤ g.start) :
      PushCase s data offset doneCb
        ⟨{ s with queue }, calls ++ doneCb.toList, none⟩
  | noGap {queue : SorterQueue} {calls : List Callback}
      (hreplace : replaceShorter s.queue data offset doneCb = some (queue, calls)) :
      PushCase s data offset doneCb ⟨{ s with queue }, calls, some .noGapFound⟩
  | noEndGap {queue : SorterQueue} {calls : List Callback}
      {skipped : List ByteInterval} {gaps : List ByteInterval}
      {position : Nat} {state : SorterQueue × List Callback}
      (hreplace : replaceShorter s.queue data offset doneCb = some (queue, calls))
      (hgaps : gaps.Sublist s.gaps)
      (heffects : state = deleteAll position skipped queue calls) :
      PushCase s data offset doneCb
        ⟨{ s with queue := state.1, gaps }, state.2, some .noEndGapFound⟩
  | filled {queue : SorterQueue} {calls : List Callback}
      {before skipped : List ByteInterval} {gap : ByteInterval} {e : EndGap}
      (hreplace : replaceShorter s.queue data offset doneCb = some (queue, calls))
      (haround : Around offset (offset + data.length) s.gaps before skipped gap e)
      (heffects : (e.queue, e.calls) =
        deleteAll (cutStart offset gap) skipped queue calls) :
      PushCase s data offset doneCb
        (insertFrame
          { s with
            queue := e.queue
            gaps := gapsAfter offset (offset + data.length) before gap e }
          (cutData data offset (cutStart offset gap) (cutStop (offset + data.length) e))
          (cutStart offset gap) doneCb
          (wasCut offset (offset + data.length) gap e) e.calls)

private theorem insertFrame_error_ne (s : FrameSorter) (data : Slice) (offset : Nat)
    (doneCb : Option Callback) (wasCut : Bool) (calls : List Callback) :
    (s.insertFrame data offset doneCb wasCut calls).error ≠ some .duplicateStreamData := by
  unfold insertFrame
  split
  · simp
  · split <;> simp

theorem EndGap.list_sublist {e : EndGap} {gap : ByteInterval} {after skipped : List ByteInterval}
    (hsplit : gap :: after = skipped ++ [e.endGap]) (hrest : e.rest = [])
    (hisGap : e.isGap = (true && skipped.isEmpty)) :
    (e.list gap).Sublist (gap :: after) := by
  unfold EndGap.list
  rw [hrest]
  cases skipped with
  | nil =>
    rw [if_pos (by simpa using hisGap)]
    exact List.singleton_sublist.mpr List.mem_cons_self
  | cons g skipped =>
    rw [if_neg (by simp [hisGap])]
    rw [List.cons_append, List.cons.injEq] at hsplit
    split
    · refine List.Sublist.cons_cons gap ?_
      rw [hsplit.2]
      exact List.sublist_append_right ..
    · exact List.singleton_sublist.mpr List.mem_cons_self

variable {calls : List Callback}

theorem push_eq_of_duplicate {sorter : FrameSorter} (h : s.push' data offset doneCb =
      ⟨sorter, calls, some .duplicateStreamData⟩) :
    s.push data offset doneCb = ⟨sorter, calls ++ doneCb.toList, none⟩ := by
  unfold push
  simp only [h, if_true]

theorem push_of_known (h : data.length = 0 ∨
      replaceShorter s.queue data offset doneCb = none) :
    s.push data offset doneCb = ⟨s, doneCb.toList, none⟩ := by
  have hpush : s.push' data offset doneCb = ⟨s, [], some .duplicateStreamData⟩ := by
    unfold push'
    split
    · rfl
    · next hlen => rw [h.resolve_left hlen]
  exact push_eq_of_duplicate hpush

private theorem push_eq_of_error_ne {pushed : Pushed} (h : s.push' data offset doneCb = pushed)
    (hne : pushed.error ≠ some .duplicateStreamData) :
    s.push data offset doneCb = pushed := by
  unfold push
  simp only [h, if_neg hne]

theorem push'_of_replaceShorter {queue : SorterQueue}
    (hlen : data.length ≠ 0) (hreplace : replaceShorter s.queue data offset doneCb =
      some (queue, calls)) :
    s.push' data offset doneCb =
      match skipGaps offset (offset + data.length) s.gaps with
      | .duplicate => ⟨{ s with queue }, calls, some .duplicateStreamData⟩
      | .noGap => ⟨{ s with queue }, calls, some .noGapFound⟩
      | .found before gap after =>
        fillGap { s with queue } data offset doneCb calls before gap after := by
  unfold push'
  rw [if_neg hlen]
  split
  · next h =>
    rw [hreplace] at h
    cases h
  · next h =>
    rw [hreplace] at h
    cases h
    rfl

private theorem fillGap_error (doneCb : Option Callback)
    (before : List ByteInterval) {after : List ByteInterval}
    {gap : ByteInterval} {calls : List Callback} {e : EndGap}
    (hseek : seekEndGap (cutStart offset gap) (offset + data.length) gap true
      s.queue calls after = .error e) :
    s.fillGap data offset doneCb calls before gap after =
      ⟨{ s with queue := e.queue, gaps := before ++ e.list gap }, e.calls,
        some .noEndGapFound⟩ := by
  unfold fillGap
  simp only [front_eq, hseek]

private theorem exists_of_replaceShorter_eq_none
    (h : replaceShorter s.queue data offset doneCb = none) :
    ∃ old, s.queue.lookup offset = some old ∧ data.length ≤ old.data.length := by
  unfold replaceShorter at h
  split at h
  · cases h
  · next old hold =>
    split at h
    · next hle => exact ⟨old, hold, hle⟩
    · cases h

theorem push_cases (hsep : Separated s.gaps) (data : Slice) (offset : Nat)
    (doneCb : Option Callback) :
    PushCase s data offset doneCb (s.push data offset doneCb) := by
  by_cases hlen : data.length = 0
  · rw [push_of_known (.inl hlen)]
    exact .known (.inl hlen)
  cases hreplace : replaceShorter s.queue data offset doneCb with
  | none =>
    rw [push_of_known (.inr hreplace)]
    exact .known (.inr (exists_of_replaceShorter_eq_none hreplace))
  | some state =>
    obtain ⟨queue, calls⟩ := state
    have hpush := push'_of_replaceShorter hlen hreplace
    cases hsearch : skipGaps offset (offset + data.length) s.gaps with
    | duplicate =>
      rw [hsearch] at hpush
      rw [push_eq_of_duplicate hpush]
      obtain ⟨hgaps, hlast⟩ := skipGaps_duplicate hsep hsearch
      exact .duplicate (Nat.pos_of_ne_zero hlen) hreplace hgaps hlast
    | noGap =>
      rw [hsearch] at hpush
      rw [push_eq_of_error_ne hpush (by simp)]
      exact .noGap hreplace
    | found before gap after =>
      rw [hsearch] at hpush
      obtain ⟨hgaps, -⟩ := skipGaps_found hsearch
      cases hseek : seekEndGap (cutStart offset gap)
          (offset + data.length) gap true queue calls after with
      | error e =>
        obtain ⟨skipped, hsplit, hrest, hisGap, heffects⟩ := seekEndGap_error hseek
        have hfill := fillGap_error (s := { s with queue }) doneCb before
          hseek
        rw [push_eq_of_error_ne (hpush.trans hfill) (by simp)]
        refine .noEndGap hreplace ?_ heffects
        rw [hgaps]
        exact (List.Sublist.refl before).append (EndGap.list_sublist hsplit hrest hisGap)
      | ok e =>
        obtain ⟨skipped, hreached⟩ := seekEndGap_ok hseek
        have haround : Around offset (offset + data.length) s.gaps before
            skipped gap e := hreached.around (by omega) hsearch
        have hfill := fillGap_eq (s := { s with queue }) doneCb before hseek
        rw [push_eq_of_error_ne (hpush.trans hfill) (insertFrame_error_ne _ _ _ _ _ _)]
        exact .filled hreplace haround hreached.effects

/-! ## Lookups after a push -/

theorem lookup_deleteCovered (queue : SorterQueue) (calls : List Callback) (position x : Nat) :
    (deleteCovered offset queue calls position).1.lookup x =
      if x ≠ offset ∧ x = position then none else queue.lookup x := by
  unfold deleteCovered
  by_cases hposition : position = offset
  · subst hposition
    simp
  · rw [if_pos hposition]
    by_cases hx : x = position
    · subst hx
      simp [hposition]
    · rw [if_neg (fun h => hx h.2)]
      exact AList.lookup_erase_ne hx

theorem lookup_deleteAll (skipped : List ByteInterval) (queue : SorterQueue)
    (calls : List Callback) (x : Nat) :
    (deleteAll offset skipped queue calls).1.lookup x =
      if x ≠ offset ∧ x ∈ skipped.map ByteInterval.stop then none else queue.lookup x := by
  induction skipped generalizing queue calls with
  | nil => simp [deleteAll]
  | cons g skipped ih =>
    refine (ih (deleteCovered offset queue calls g.stop).1
      (deleteCovered offset queue calls g.stop).2).trans ?_
    rw [lookup_deleteCovered, List.map_cons]
    by_cases hx : x = offset
    · simp [hx]
    · by_cases hg : x = g.stop
      · rw [if_pos (c := x ≠ offset ∧ x = g.stop) ⟨hx, hg⟩, ite_self,
          if_pos ⟨hx, List.mem_cons.mpr (.inl hg)⟩]
      · simp [hx, hg]

theorem Around.skipped_inside {stop : Nat}
    {gaps before skipped : List ByteInterval} {gap : ByteInterval} {e : EndGap}
    (h : Around offset stop gaps before skipped gap e) (hsep : Separated gaps)
    {g : ByteInterval} (hg : g ∈ skipped) :
    cutStart offset gap ≤ g.stop ∧ g.stop < cutStop stop e := by
  have hord := h.ordered hsep
  have hlt := hord.lt_endGap g hg
  have hend := hsep.nonempty e.endGap (by simp [h.split])
  have hreaches := h.reaches_end
  have hstarts := h.starts
  have hle : gap.stop ≤ g.stop := by
    rcases h.head with ⟨rfl, -⟩ | ⟨others, rfl⟩
    · cases hg
    · rcases List.mem_cons.mp hg with rfl | hg
      · exact Nat.le_refl _
      · have hsplit := hsep.ordered
        rw [h.split] at hsplit
        have hskipped := (List.pairwise_append.mp (List.pairwise_append.mp hsplit).2.1).1
        have hothers := (List.pairwise_cons.mp hskipped).1 g hg
        have hne := hsep.nonempty g (by simp [h.split, hg])
        omega
  have hgap := hsep.nonempty gap hord.mem
  unfold cutStart cutStop
  omega

theorem insertFrame_ok {wasCut : Bool}
    (h : (s.insertFrame data offset doneCb wasCut calls).error = none) :
    ∃ entry, entry.data.bytes = data.bytes ∧
      (s.insertFrame data offset doneCb wasCut calls).sorter =
        { s with queue := s.queue.insert offset entry } := by
  unfold insertFrame at *
  split at h
  · cases h
  · next hgaps =>
    rw [if_neg hgaps]
    split
    · exact ⟨_, rfl, rfl⟩
    · exact ⟨_, rfl, rfl⟩

theorem replaceShorter_eq_some {queue next : SorterQueue}
    (h : replaceShorter queue data offset doneCb = some (next, calls)) :
    (queue.lookup offset = none ∧ next = queue ∧ calls = []) ∨
      ∃ old, queue.lookup offset = some old ∧ old.data.length < data.length ∧
        next = queue.insert offset ⟨data, doneCb⟩ ∧ calls = old.doneCb.toList := by
  unfold replaceShorter at h
  split at h
  · next hnone =>
    cases h
    exact .inl ⟨hnone, rfl, rfl⟩
  · next old hold =>
    split at h
    · cases h
    · next hlt =>
      cases h
      exact .inr ⟨old, hold, Nat.lt_of_not_le hlt, rfl, rfl⟩

/-! ## Separated gaps -/

theorem separated_new : Separated FrameSorter.new.gaps := by
  refine ⟨?_, List.pairwise_singleton .., ?_⟩
  · decide
  · simp [FrameSorter.new]

theorem gaps_insertFrame (s : FrameSorter) (data : Slice) (offset : Nat)
    (doneCb : Option Callback) (wasCut : Bool) (calls : List Callback) :
    (s.insertFrame data offset doneCb wasCut calls).sorter.gaps = s.gaps := by
  unfold insertFrame
  split
  · rfl
  · split <;> rfl

theorem separated_push (hsep : Separated s.gaps) (data : Slice)
    (offset : Nat) (doneCb : Option Callback) :
    Separated (s.push data offset doneCb).sorter.gaps := by
  have hcase := push_cases hsep data offset doneCb
  generalize s.push data offset doneCb = pushed at hcase ⊢
  cases hcase with
  | known | duplicate | noGap => exact hsep
  | noEndGap _ hgaps => exact hsep.of_sublist hgaps
  | filled _ haround =>
    rw [gaps_insertFrame]
    exact haround.separated hsep

end FrameSorter

end Qperf.Quic
