import Qperf.Quic.SorterFrames

/-!
# The gaps are what was not pushed

The frame sorter starts with one gap up to the largest offset.  As long as no push
fails, its gaps are the positions that no push has covered.  The last position below
the largest offset stays missing, so that the search for a gap always ends.
-/

namespace Qperf.Quic

open Qperf.Foundation FrameSorter

inductive SorterInput where
  | push (data : Slice) (offset : Nat) (doneCb : Option Callback)
  | pop

def SorterInput.Below : SorterInput → Prop
  | .push data offset _ => offset + data.length < maxByteCount
  | .pop => True

structure PushHistory where
  sorter : FrameSorter
  ranges : List ByteInterval
  errors : List SorterError

namespace PushHistory

def new : PushHistory := ⟨.new, [], []⟩

def perform (h : PushHistory) : SorterInput → PushHistory
  | .push data offset doneCb =>
    let pushed := h.sorter.push data offset doneCb
    ⟨pushed.sorter, h.ranges ++ [⟨offset, offset + data.length⟩],
      h.errors ++ pushed.error.toList⟩
  | .pop => { h with sorter := h.sorter.pop.sorter }

def run (h : PushHistory) (inputs : List SorterInput) : PushHistory :=
  inputs.foldl perform h

/-- Some push covered the position. -/
def Covered (h : PushHistory) (x : Nat) : Prop := ∃ range ∈ h.ranges, range.Contains x

end PushHistory

namespace FrameSorter

variable {s : FrameSorter} {data : Slice} {offset : Nat} {doneCb : Option Callback}

abbrev EntriesIn (known : Set Nat) (queue : SorterQueue) : Prop :=
  EveryEntry (fun p bytes => ∀ x, p ≤ x → x < p + bytes.length → x ∈ known) queue

private theorem cuttable_entriesIn (known : Set Nat) :
    Cuttable fun p bytes => ∀ x, p ≤ x → x < p + bytes.length → x ∈ known := by
  intro p bytes k m hall hk x hx hx'
  rw [List.length_take, List.length_drop] at hx'
  exact hall x (by omega) (by omega)

theorem received_push (hsep : Separated s.gaps) (hentries : EntriesIn s.received s.queue)
    (herror : (s.push data offset doneCb).error = none) :
    (s.push data offset doneCb).sorter.received =
      s.received ∪ Set.Ico offset (offset + data.length) := by
  have hcase := push_cases hsep data offset doneCb
  generalize s.push data offset doneCb = pushed at hcase herror ⊢
  cases hcase with
  | known hknown =>
    refine (Set.union_eq_self_of_subset_right ?_).symm
    rintro x ⟨hx, hx'⟩
    rcases hknown with hzero | ⟨old, hold, hle⟩
    · omega
    · exact hentries offset old hold x hx (Nat.lt_of_lt_of_le hx' (Nat.add_le_add_left hle _))
  | duplicate _ _ hgaps hlast =>
    refine (Set.union_eq_self_of_subset_right ?_).symm
    exact fun x hx => mem_received_of_gaps hsep hgaps hlast hx.1 hx.2
  | noGap => cases herror
  | noEndGap => cases herror
  | @filled _ _ _ _ _ e _ haround =>
    rw [← haround.received_eq hsep e.queue]
    unfold received
    rw [gaps_insertFrame]

theorem EntriesIn.push (hsep : Separated s.gaps) (hentries : EntriesIn s.received s.queue)
    (herror : (s.push data offset doneCb).error = none) :
    EntriesIn (s.push data offset doneCb).sorter.received
      (s.push data offset doneCb).sorter.queue := by
  rcases push_entries hsep herror with hsame | ⟨-, -, hpush⟩
  · rw [hsame]
    exact hentries
  · rw [received_push hsep hentries herror]
    refine hpush _ (cuttable_entriesIn _) ?_ fun x hx hx' => .inr ⟨hx, hx'⟩
    exact fun p entry hentry x hx hx' => .inl (hentries p entry hentry x hx hx')

private theorem received_pop (s : FrameSorter) : s.pop.sorter.received = s.received := by
  unfold received
  rw [gaps_pop]

private theorem everyEntry_pop {P : Nat → List UInt8 → Prop} (h : EveryEntry P s.queue) :
    EveryEntry P s.pop.sorter.queue := by
  unfold pop
  split
  · exact h
  · exact h.erase s.readPos

end FrameSorter

namespace PushHistory

variable {h : PushHistory} {input : SorterInput}

/-! ## Runs with errors -/

structure Open (h : PushHistory) : Prop where
  separated : Separated h.sorter.gaps
  last : Missing h.sorter.gaps (maxByteCount - 1)
  noGap : .noGapFound ∉ h.errors
  noEndGap : .noEndGapFound ∉ h.errors

private theorem open_new : Open .new where
  separated := separated_new
  last := ⟨_, List.mem_singleton_self _, Nat.zero_le _, by decide⟩
  noGap := List.not_mem_nil
  noEndGap := List.not_mem_nil

theorem Open.perform (hopen : Open h) (hbelow : input.Below) : Open (h.perform input) := by
  cases input with
  | pop =>
    have hgaps := gaps_pop h.sorter
    exact ⟨hgaps ▸ hopen.separated, hgaps ▸ hopen.last, hopen.noGap, hopen.noEndGap⟩
  | push data offset doneCb =>
    have hsep := separated_push hopen.separated data offset doneCb
    obtain ⟨g, hg, hstart, hstop⟩ := hopen.last
    have hlt : offset + data.length < g.stop := by
      unfold SorterInput.Below at hbelow
      omega
    obtain ⟨hgap, hend⟩ := push_error_ne hg hlt doneCb
    have hnot : maxByteCount - 1 ∉ (h.sorter.push data offset doneCb).sorter.received := by
      have hold : maxByteCount - 1 ∉ h.sorter.received := notMem_received hg hstart hstop
      rcases push_received hopen.separated hg hlt doneCb with hsame | hadded
      · rwa [hsame]
      · rw [hadded]
        rintro (hmem | ⟨-, hin⟩)
        · exact hold hmem
        · unfold SorterInput.Below at hbelow
          omega
    refine ⟨hsep, ?_, ?_, ?_⟩
    · by_contra hmissing
      exact hnot ⟨by decide, hmissing⟩
    · exact List.not_mem_append hopen.noGap (by simpa using hgap)
    · exact List.not_mem_append hopen.noEndGap (by simpa using hend)

/-! ## Runs without errors -/

structure Complete (h : PushHistory) : Prop where
  entries : EntriesIn h.sorter.received h.sorter.queue
  received : ∀ x, x ∈ h.sorter.received ↔ h.Covered x

private theorem complete_new : Complete .new where
  entries := everyEntry_new _
  received := by
    intro x
    constructor
    · intro hx
      exact absurd ⟨_, List.mem_singleton_self _, Nat.zero_le _, hx.1⟩ hx.2
    · rintro ⟨range, hrange, -⟩
      cases hrange

theorem Complete.perform (hcomplete : Complete h) (hopen : Open h)
    (herrors : (h.perform input).errors = []) : Complete (h.perform input) := by
  cases input with
  | pop =>
    have hreceived := received_pop h.sorter
    refine ⟨?_, fun x => ?_⟩
    · change EntriesIn h.sorter.pop.sorter.received h.sorter.pop.sorter.queue
      rw [hreceived]
      exact everyEntry_pop hcomplete.entries
    · change x ∈ h.sorter.pop.sorter.received ↔ h.Covered x
      rw [hreceived]
      exact hcomplete.received x
  | push data offset doneCb =>
    have herror : (h.sorter.push data offset doneCb).error = none :=
      Option.toList_eq_nil_iff.mp (List.append_eq_nil_iff.mp herrors).2
    have hreceived := received_push hopen.separated hcomplete.entries herror
    refine ⟨EntriesIn.push hopen.separated hcomplete.entries herror, fun x => ?_⟩
    change x ∈ (h.sorter.push data offset doneCb).sorter.received ↔
      ∃ range ∈ h.ranges ++ [_], range.Contains x
    rw [hreceived, Set.mem_union, hcomplete.received]
    simp only [Covered, List.mem_append, List.mem_singleton, or_and_right, exists_or,
      exists_eq_left]
    rfl

variable {inputs : List SorterInput}

private theorem errors_of_run (h : PushHistory)
    (herrors : (h.run inputs).errors = []) : h.errors = [] := by
  induction inputs generalizing h with
  | nil => exact herrors
  | cons input inputs ih =>
    have hnext := ih (h.perform input) herrors
    cases input with
    | pop => exact hnext
    | push => exact (List.append_eq_nil_iff.mp hnext).1

theorem Open.run (hopen : Open h)
    (hbelow : ∀ input ∈ inputs, input.Below) : Open (h.run inputs) := by
  induction inputs generalizing h with
  | nil => exact hopen
  | cons input inputs ih =>
    obtain ⟨hinput, hinputs⟩ := List.forall_mem_cons.mp hbelow
    exact ih (hopen.perform hinput) hinputs

theorem Complete.run (hcomplete : Complete h) (hopen : Open h)
    (hbelow : ∀ input ∈ inputs, input.Below) (herrors : (h.run inputs).errors = []) :
    Complete (h.run inputs) := by
  induction inputs generalizing h with
  | nil => exact hcomplete
  | cons input inputs ih =>
    obtain ⟨hinput, hinputs⟩ := List.forall_mem_cons.mp hbelow
    have hnext := hcomplete.perform hopen (errors_of_run (h.perform input) herrors)
    exact ih hnext (hopen.perform hinput) hinputs herrors

/--
The gaps are sorted, not empty and apart from each other, and they are the positions
that no push has covered.  The searches for a gap succeed also after other errors.
-/
theorem gaps_complement (inputs : List SorterInput) (hbelow : ∀ input ∈ inputs, input.Below) :
    ((new.run inputs).errors = [] →
      Separated (new.run inputs).sorter.gaps ∧ ∀ x, Missing (new.run inputs).sorter.gaps x ↔
        x < maxByteCount ∧ ¬ (new.run inputs).Covered x) ∧ .noGapFound ∉ (new.run inputs).errors ∧
    .noEndGapFound ∉ (new.run inputs).errors := by
  have hopen := open_new.run hbelow
  refine ⟨fun herrors => ⟨hopen.separated, fun x => ?_⟩, hopen.noGap, hopen.noEndGap⟩
  have hcomplete := complete_new.run open_new hbelow herrors
  rw [← hcomplete.received]
  constructor
  · rintro ⟨g, hg, hstart, hstop⟩
    have hbound := hopen.separated.bounded g hg
    exact ⟨by omega, notMem_received hg hstart hstop⟩
  · rintro ⟨hx, hnot⟩
    by_contra hmissing
    exact hnot ⟨hx, hmissing⟩

theorem gaps_complement_overlap :
    ∃ inputs : List SorterInput, (new.run inputs).errors = [] ∧
      (new.run inputs).sorter.gaps = [⟨2, 5⟩, ⟨12, maxByteCount⟩] ∧
      ∀ x, Missing (new.run inputs).sorter.gaps x ↔
        x < maxByteCount ∧ ¬ (new.run inputs).Covered x := by
  refine ⟨[.push ⟨List.replicate 4 0, none⟩ 5 none, .push ⟨List.replicate 5 0, none⟩ 7 none,
    .push ⟨[0, 0], none⟩ 0 none, .pop], by decide +kernel, by decide +kernel, ?_⟩
  refine ((gaps_complement _ ?_).1 (by decide +kernel)).2
  simp only [List.forall_mem_cons, List.not_mem_nil, false_implies, implies_true, and_true]
  exact ⟨by unfold SorterInput.Below; decide, by unfold SorterInput.Below; decide,
    by unfold SorterInput.Below; decide, trivial⟩

end PushHistory

end Qperf.Quic
