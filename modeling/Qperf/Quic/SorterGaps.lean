import Qperf.Quic.FrameSorter
import Mathlib.Data.Set.Basic

/-!
# The gaps of the frame sorter

`push` works on the gaps in three steps: it skips those before the frame, looks
for the last one that the frame reaches, and adjusts the two gaps.  The result is
that the positions of the frame are taken out of the gaps.
-/

namespace Qperf.Quic

def ByteInterval.Contains (g : ByteInterval) (x : Nat) : Prop :=
  g.start ≤ x ∧ x < g.stop

/-- Sorted intervals, none of them empty or next to another one. -/
structure Separated (gaps : List ByteInterval) : Prop where
  nonempty : ∀ g ∈ gaps, g.start < g.stop
  ordered : gaps.Pairwise fun g h => g.stop < h.start
  bounded : ∀ g ∈ gaps, g.stop ≤ maxByteCount

def Missing (gaps : List ByteInterval) (x : Nat) : Prop :=
  ∃ g ∈ gaps, g.Contains x

theorem missing_append (gaps gaps' : List ByteInterval) (x : Nat) :
    Missing (gaps ++ gaps') x ↔ Missing gaps x ∨ Missing gaps' x := by
  unfold Missing
  simp only [List.mem_append, or_and_right, exists_or]

theorem missing_cons (g : ByteInterval) (gaps : List ByteInterval) (x : Nat) :
    Missing (g :: gaps) x ↔ g.Contains x ∨ Missing gaps x := by
  unfold Missing
  simp

theorem Separated.of_sublist {gaps gaps' : List ByteInterval}
    (h : Separated gaps) (hsub : gaps'.Sublist gaps) : Separated gaps' :=
  ⟨fun g hg => h.nonempty g (hsub.subset hg), h.ordered.sublist hsub,
    fun g hg => h.bounded g (hsub.subset hg)⟩

namespace FrameSorter

/-! ## Finding the gaps -/

theorem skipGaps_found {start stop : Nat} {gaps before after : List ByteInterval}
    {gap : ByteInterval} (h : skipGaps start stop gaps = .found before gap after) :
    gaps = before ++ gap :: after ∧ (∀ g ∈ before, g.stop < start) ∧
      gap.start < stop ∧ start ≤ gap.stop := by
  induction gaps generalizing before with
  | nil => cases h
  | cons g gaps ih =>
    unfold skipGaps at h
    split at h
    · cases h
    · next hstop =>
      split at h
      · next hstart =>
        cases h
        exact ⟨rfl, by simp, Nat.lt_of_not_le hstop, hstart⟩
      · next hstart =>
        split at h
        · next before' found rest hfound =>
          cases h
          obtain ⟨hgaps, hbefore, hgap⟩ := ih hfound
          refine ⟨by rw [hgaps]; rfl, ?_, hgap⟩
          exact List.forall_mem_cons.mpr ⟨Nat.lt_of_not_le hstart, hbefore⟩
        · cases h
        · cases h

theorem skipGaps_duplicate {start stop : Nat} {gaps : List ByteInterval}
    (hsep : Separated gaps) (h : skipGaps start stop gaps = .duplicate) :
    (∀ g ∈ gaps, stop ≤ g.start ∨ g.stop < start) ∧ ∃ g ∈ gaps, stop ≤ g.start := by
  induction gaps with
  | nil => cases h
  | cons g gaps ih =>
    unfold skipGaps at h
    have hnext := (List.pairwise_cons.mp hsep.ordered).1
    have hg := hsep.nonempty g List.mem_cons_self
    rw [List.forall_mem_cons, List.exists_mem_cons_iff]
    split at h
    · next hstop =>
      refine ⟨⟨.inl hstop, fun g' hg' => .inl ?_⟩, .inl hstop⟩
      have hlt := hnext g' hg'
      omega
    · split at h
      · cases h
      · next hstart =>
        split at h
        · cases h
        · next hrest =>
          obtain ⟨hall, hlast⟩ := ih (hsep.of_sublist (List.sublist_cons_self ..)) hrest
          exact ⟨⟨.inr (Nat.lt_of_not_le hstart), hall⟩, .inr hlast⟩
        · cases h

def deleteAll (offset : Nat) (skipped : List ByteInterval) (queue : SorterQueue)
    (calls : List Callback) : SorterQueue × List Callback :=
  skipped.foldl (fun state g => deleteCovered offset state.1 state.2 g.stop)
    (queue, calls)

structure Reached (offset stop : Nat) (gaps : List ByteInterval) (isGap : Bool)
    (queue : SorterQueue) (calls : List Callback) (e : EndGap)
    (skipped : List ByteInterval) : Prop where
  split : gaps = skipped ++ e.endGap :: e.rest
  isGap : e.isGap = (isGap && skipped.isEmpty)
  covered : ∀ g ∈ skipped, g.stop ≤ stop
  start : skipped ≠ [] → e.endGap.start ≤ stop
  effects : (e.queue, e.calls) = deleteAll offset skipped queue calls
  ending : stop < e.endGap.stop ∧ e.inList = true ∨
    e.endGap.stop ≤ stop ∧ e.inList = e.isGap ∧
      ∃ next rest, e.rest = next :: rest ∧ stop < next.start

theorem seekEndGap_ok {offset stop : Nat} {endGap : ByteInterval} {isGap : Bool}
    {queue : SorterQueue} {calls : List Callback} {rest : List ByteInterval}
    {e : EndGap} (h : seekEndGap offset stop endGap isGap queue calls rest = .ok e) :
    ∃ skipped, Reached offset stop (endGap :: rest) isGap queue calls e skipped := by
  induction rest generalizing endGap isGap queue calls with
  | nil =>
    unfold seekEndGap at h
    split at h
    · next hstop =>
      cases h
      exact ⟨[], rfl, by simp, by simp, by simp, rfl, .inl ⟨hstop, rfl⟩⟩
    · cases h
  | cons next rest ih =>
    unfold seekEndGap at h
    split at h
    · next hstop =>
      cases h
      exact ⟨[], rfl, by simp, by simp, by simp, rfl, .inl ⟨hstop, rfl⟩⟩
    · next hstop =>
      split at h
      · next hnext =>
        cases h
        exact ⟨[], rfl, by simp, by simp, by simp, rfl,
          .inr ⟨Nat.le_of_not_lt hstop, rfl, next, rest, rfl, hnext⟩⟩
      · next hnext =>
        obtain ⟨skipped, hreached⟩ := ih h
        refine ⟨endGap :: skipped, by rw [hreached.split]; rfl, ?_, ?_, ?_,
          hreached.effects, hreached.ending⟩
        · simpa using hreached.isGap
        · exact List.forall_mem_cons.mpr ⟨Nat.le_of_not_lt hstop, hreached.covered⟩
        · intro _
          cases skipped with
          | nil =>
            have hsplit := hreached.split
            rw [List.nil_append, List.cons.injEq] at hsplit
            rw [← hsplit.1]
            exact Nat.le_of_not_lt hnext
          | cons => exact hreached.start (by simp)

/-! ## Taking a frame out of the gaps -/

/--
The gaps around a frame: those of `before` end before it starts, those of
`skipped` are covered by it, and it does not reach those behind `endGap`.
-/
structure Around (offset stop : Nat) (gaps before skipped : List ByteInterval)
    (gap : ByteInterval) (e : EndGap) : Prop where
  nonempty : offset < stop
  split : gaps = before ++ (skipped ++ e.endGap :: e.rest)
  head : skipped = [] ∧ e.endGap = gap ∨ ∃ others, skipped = gap :: others
  ends_before : ∀ g ∈ before, g.stop < offset
  reaches : gap.start < stop
  starts : offset ≤ gap.stop
  covered : ∀ g ∈ skipped, g.stop ≤ stop
  reaches_end : e.endGap.start ≤ stop
  isGap : e.isGap = skipped.isEmpty
  ending : stop < e.endGap.stop ∧ e.inList = true ∨
    e.endGap.stop ≤ stop ∧ e.inList = e.isGap ∧
      ∃ next rest, e.rest = next :: rest ∧ stop < next.start

theorem Reached.around {offset start stop : Nat}
    {gaps before after skipped : List ByteInterval} {gap : ByteInterval}
    {queue : SorterQueue} {calls : List Callback} {e : EndGap}
    (h : Reached start stop (gap :: after) true queue calls e skipped) (hstop : offset < stop)
    (hfound : skipGaps offset stop gaps = .found before gap after) :
    Around offset stop gaps before skipped gap e := by
  obtain ⟨hgaps, hbefore, hreaches, hstarts⟩ := skipGaps_found hfound
  have hsplit := h.split
  have hisGap : e.isGap = skipped.isEmpty := by simpa using h.isGap
  rw [hsplit] at hgaps
  cases skipped with
  | nil =>
    rw [List.nil_append, List.cons.injEq] at hsplit
    exact ⟨hstop, hgaps, .inl ⟨rfl, hsplit.1.symm⟩, hbefore, hreaches, hstarts,
      h.covered, hsplit.1 ▸ Nat.le_of_lt hreaches, hisGap, h.ending⟩
  | cons g others =>
    rw [List.cons_append, List.cons.injEq] at hsplit
    exact ⟨hstop, hgaps, .inr ⟨others, by rw [hsplit.1]⟩, hbefore, hreaches,
      hstarts, h.covered, h.start (by simp), hisGap, h.ending⟩

structure Ordered (gaps before skipped : List ByteInterval) (gap : ByteInterval)
    (e : EndGap) : Prop where
  mem : gap ∈ gaps
  before_lt : ∀ g ∈ before, g.stop < gap.start
  gap_le : ∀ g ∈ skipped, gap.start ≤ g.start
  lt_endGap : ∀ g ∈ skipped, g.stop < e.endGap.start
  endGap_lt : ∀ g ∈ e.rest, e.endGap.stop < g.start
  start_le : gap.start ≤ e.endGap.start
  stop_le : gap.stop ≤ e.endGap.stop

section Around

variable {offset stop : Nat} {gaps before skipped : List ByteInterval}
variable {gap : ByteInterval} {e : EndGap}

theorem Around.ordered (h : Around offset stop gaps before skipped gap e)
    (hsep : Separated gaps) : Ordered gaps before skipped gap e := by
  have hord := hsep.ordered
  have hne := hsep.nonempty
  rw [h.split] at hord hne
  obtain ⟨-, hright, hbefore⟩ := List.pairwise_append.mp hord
  obtain ⟨hskipped, hend, hcross⟩ := List.pairwise_append.mp hright
  have hrest := (List.pairwise_cons.mp hend).1
  have hendGap := hne e.endGap (by simp)
  rcases h.head with ⟨rfl, rfl⟩ | ⟨others, rfl⟩
  · exact ⟨by simp [h.split], fun g hg => hbefore g hg _ (by simp), by simp,
      by simp, hrest, Nat.le_refl _, Nat.le_refl _⟩
  · have hgap := hne gap (by simp)
    have hlt := hcross gap List.mem_cons_self e.endGap List.mem_cons_self
    refine ⟨by simp [h.split], fun g hg => hbefore g hg _ (by simp), ?_,
      fun g hg => hcross g hg _ List.mem_cons_self, hrest, by omega, by omega⟩
    intro g hg
    rcases List.mem_cons.mp hg with rfl | hg
    · exact Nat.le_refl _
    · have hothers := (List.pairwise_cons.mp hskipped).1 g hg
      omega

theorem Around.stop_lt (h : Around offset stop gaps before skipped gap e)
    (hsep : Separated gaps) : ∀ g ∈ e.rest, stop < g.start := by
  intro g hg
  rcases h.ending with ⟨hlt, -⟩ | ⟨-, -, next, rest, hrest, hlt⟩
  · exact Nat.lt_trans hlt ((h.ordered hsep).endGap_lt g hg)
  · have hord := hsep.ordered
    have hnext := hsep.nonempty next (by simp [h.split, hrest])
    rw [h.split, hrest] at hord
    have htail := (List.pairwise_append.mp hord).2.1
    have hrest' := (List.pairwise_append.mp htail).2.1
    have hlast := (List.pairwise_cons.mp (List.pairwise_cons.mp hrest').2).1
    rw [hrest] at hg
    rcases List.mem_cons.mp hg with rfl | hg
    · exact hlt
    · exact Nat.lt_trans (Nat.lt_trans hlt hnext) (hlast g hg)

def cutStart (offset : Nat) (gap : ByteInterval) : Nat := max offset gap.start

def cutStop (stop : Nat) (e : EndGap) : Nat := min stop e.endGap.stop

def leftGap (start : Nat) (gap : ByteInterval) : List ByteInterval :=
  if gap.start < start then [⟨gap.start, start⟩] else []

def rightGap (stop : Nat) (endGap : ByteInterval) : List ByteInterval :=
  if stop < endGap.stop then [⟨stop, endGap.stop⟩] else []

theorem Around.adjustGaps_eq (h : Around offset stop gaps before skipped gap e)
    (hsep : Separated gaps) :
    adjustGaps (cutStart offset gap) (cutStop stop e) gap e =
      leftGap (cutStart offset gap) gap ++ (rightGap (cutStop stop e) e.endGap ++ e.rest) := by
  have hord := h.ordered hsep
  have hstart : gap.start ≤ cutStart offset gap := Nat.le_max_right ..
  have hcutStop : cutStop stop e ≤ e.endGap.stop := Nat.min_le_right ..
  have hisGap := h.isGap
  unfold adjustGaps leftGap rightGap EndGap.list
  rcases h.head with ⟨rfl, rfl⟩ | ⟨others, rfl⟩
  · -- The first gap is also the last one.
    simp only [List.isEmpty_nil] at hisGap
    split_ifs <;> first | rfl | omega
  · have hcovered := h.covered gap List.mem_cons_self
    have hstop : gap.stop ≤ cutStop stop e := by
      have hle := hord.stop_le
      unfold cutStop
      omega
    simp only [List.isEmpty_cons] at hisGap
    simp only [hisGap, Bool.false_eq_true, if_false]
    rcases h.ending with ⟨hlt, hlist⟩ | ⟨hle, hlist, -⟩
    · have hcut : cutStop stop e < e.endGap.stop := by
        unfold cutStop
        omega
      split_ifs <;> first | rfl | omega
    · have hcut : cutStop stop e = e.endGap.stop := by
        unfold cutStop
        omega
      rw [hisGap] at hlist
      simp only [hlist, Bool.false_eq_true, if_false]
      split_ifs <;> first | rfl | omega

def gapsAfter (offset stop : Nat) (before : List ByteInterval)
    (gap : ByteInterval) (e : EndGap) : List ByteInterval :=
  before ++ adjustGaps (cutStart offset gap) (cutStop stop e) gap e

private theorem missing_leftGap (start : Nat) (gap : ByteInterval) (x : Nat) :
    Missing (leftGap start gap) x ↔ gap.start ≤ x ∧ x < start := by
  unfold leftGap
  split
  · simp [Missing, ByteInterval.Contains]
  · simp [Missing]
    omega

private theorem missing_rightGap (stop : Nat) (endGap : ByteInterval) (x : Nat) :
    Missing (rightGap stop endGap) x ↔ stop ≤ x ∧ x < endGap.stop := by
  unfold rightGap
  split
  · simp [Missing, ByteInterval.Contains]
  · simp [Missing]
    omega

theorem Around.missing_iff (h : Around offset stop gaps before skipped gap e)
    (hsep : Separated gaps) (x : Nat) :
    Missing (gapsAfter offset stop before gap e) x ↔
      Missing gaps x ∧ ¬ (offset ≤ x ∧ x < stop) := by
  have hord := h.ordered hsep
  have hrest := h.stop_lt hsep
  have hstart := h.starts
  have hreaches := h.reaches_end
  have hle := hord.start_le
  unfold gapsAfter
  rw [h.adjustGaps_eq hsep, missing_append, missing_append, missing_append,
    missing_leftGap, missing_rightGap, h.split, missing_append, missing_append,
    missing_cons]
  unfold cutStart cutStop ByteInterval.Contains
  constructor
  · rintro (⟨g, hg, hx⟩ | hx | hx | ⟨g, hg, hx⟩)
    · have hlt := h.ends_before g hg
      have hx2 := hx.2
      exact ⟨.inl ⟨g, hg, hx⟩, by omega⟩
    · refine ⟨.inr ?_, by omega⟩
      rcases h.head with ⟨rfl, rfl⟩ | ⟨others, rfl⟩
      · exact .inr (.inl (by omega))
      · exact .inl ⟨gap, List.mem_cons_self, hx.1, by omega⟩
    · exact ⟨.inr (.inr (.inl (by omega))), by omega⟩
    · have hlt := hrest g hg
      have hx1 := hx.1
      exact ⟨.inr (.inr (.inr ⟨g, hg, hx⟩)), by omega⟩
  · rintro ⟨hmem | ⟨g, hg, hx⟩ | hx | hmem, hout⟩
    · exact .inl hmem
    · have hcovered := h.covered g hg
      have hgap := hord.gap_le g hg
      have hx1 := hx.1
      have hx2 := hx.2
      exact .inr (.inl (by omega))
    · by_cases hlt : x < offset
      · exact .inr (.inl (by omega))
      · exact .inr (.inr (.inl (by omega)))
    · exact .inr (.inr (.inr hmem))

theorem Around.rest_of_missing
    (h : Around offset stop gaps before skipped gap e) (hsep : Separated gaps)
    {x : Nat} (hx : offset ≤ x) (hx' : x < stop) (hmissing : Missing gaps x) :
    cutStart offset gap ≤ x ∧ x < cutStop stop e := by
  have hord := h.ordered hsep
  have hle := hord.start_le
  rw [h.split, missing_append, missing_append, missing_cons] at hmissing
  unfold cutStart cutStop
  rcases hmissing with ⟨g, hg, hin⟩ | ⟨g, hg, hin⟩ | hin | ⟨g, hg, hin⟩
  · have hlt := h.ends_before g hg
    have hin2 := hin.2
    omega
  · have hgap := hord.gap_le g hg
    have hlt := hord.lt_endGap g hg
    obtain ⟨hin1, hin2⟩ := hin
    have hend := hsep.nonempty e.endGap (by simp [h.split])
    omega
  · obtain ⟨hin1, hin2⟩ := hin
    omega
  · have hlt := h.stop_lt hsep g hg
    have hin1 := hin.1
    omega

private theorem mem_leftGap {start : Nat} {g : ByteInterval} :
    g ∈ leftGap start gap ↔ gap.start < start ∧ g = ⟨gap.start, start⟩ := by
  unfold leftGap
  split <;> simp [*]

private theorem mem_rightGap {stop : Nat} {endGap g : ByteInterval} :
    g ∈ rightGap stop endGap ↔ stop < endGap.stop ∧ g = ⟨stop, endGap.stop⟩ := by
  unfold rightGap
  split <;> simp [*]

theorem Around.separated (h : Around offset stop gaps before skipped gap e)
    (hsep : Separated gaps) :
    Separated (gapsAfter offset stop before gap e) := by
  have hord := h.ordered hsep
  have hendMem : e.endGap ∈ gaps := by simp [h.split]
  have hend := hsep.nonempty e.endGap hendMem
  have hbounded := hsep.bounded e.endGap hendMem
  have hbefore : before.Sublist gaps := by
    rw [h.split]
    exact List.sublist_append_left ..
  have hrest : e.rest.Sublist gaps := by
    rw [h.split]
    exact ((List.sublist_cons_self ..).trans
      (List.sublist_append_right ..)).trans (List.sublist_append_right ..)
  have hstarts := h.starts
  have hreaches := h.reaches
  have hnonempty := h.nonempty
  obtain ⟨-, hlt, -, -, hendLt, hstartLe, hstopLe⟩ := hord
  unfold gapsAfter
  rw [h.adjustGaps_eq hsep]
  unfold cutStart cutStop
  refine ⟨?_, ?_, ?_⟩
  · simp only [List.mem_append, mem_leftGap, mem_rightGap]
    rintro g (hg | ⟨hg, rfl⟩ | ⟨hg, rfl⟩ | hg)
    · exact hsep.nonempty g (hbefore.subset hg)
    · exact hg
    · exact hg
    · exact hsep.nonempty g (hrest.subset hg)
  · have hleft : (leftGap (max offset gap.start) gap).Pairwise
        fun g h => g.stop < h.start := by
      unfold leftGap
      split <;> simp
    have hright : (rightGap (min stop e.endGap.stop) e.endGap).Pairwise
        fun g h => g.stop < h.start := by
      unfold rightGap
      split <;> simp
    refine List.pairwise_append.mpr ⟨hsep.ordered.sublist hbefore,
      List.pairwise_append.mpr ⟨hleft, List.pairwise_append.mpr
        ⟨hright, hsep.ordered.sublist hrest, ?_⟩, ?_⟩, ?_⟩
    · intro g hg g' hg'
      obtain ⟨-, rfl⟩ := mem_rightGap.mp hg
      exact hendLt g' hg'
    · intro g hg g' hg'
      obtain ⟨-, rfl⟩ := mem_leftGap.mp hg
      rcases List.mem_append.mp hg' with hg' | hg'
      · obtain ⟨hstop, rfl⟩ := mem_rightGap.mp hg'
        change max offset gap.start < min stop e.endGap.stop
        omega
      · have hrestLt := hendLt g' hg'
        change max offset gap.start < g'.start
        omega
    · intro g hg g' hg'
      have hg := hlt g hg
      simp only [List.mem_append, mem_leftGap, mem_rightGap] at hg'
      rcases hg' with ⟨-, rfl⟩ | ⟨hstop, rfl⟩ | hg'
      · exact hg
      · change g.stop < min stop e.endGap.stop
        omega
      · have hrestLt := hendLt g' hg'
        omega
  · simp only [List.mem_append, mem_leftGap, mem_rightGap]
    rintro g (hg | ⟨hg, rfl⟩ | ⟨hg, rfl⟩ | hg)
    · exact hsep.bounded g (hbefore.subset hg)
    · change max offset gap.start ≤ maxByteCount
      omega
    · exact hbounded
    · exact hsep.bounded g (hrest.subset hg)

end Around

end FrameSorter

end Qperf.Quic
