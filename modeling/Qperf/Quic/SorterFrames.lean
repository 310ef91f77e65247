import Qperf.Quic.SorterEntries

/-!
# Frames that do not overlap

If two frames have the same range or no position in common, then no frame is cut: an
entry of the queue is a whole frame.  As long as the last gap is behind all frames, too
many gaps are the only error of a push.
-/

namespace Qperf.Quic

namespace FrameSorter

open Qperf.Foundation

variable {s : FrameSorter} {stream : List UInt8} {data : Slice} {offset : Nat}
variable {doneCb : Option Callback}

/-! ## The positions before the gaps -/

variable {g : ByteInterval}

theorem mem_before_gap (hsep : Separated s.gaps) (hg : g ∈ s.gaps)
    {x : Nat} (hx : x + 1 = g.start) : x ∈ s.received := by
  have hgap := hsep.nonempty g hg
  have hbound := hsep.bounded g hg
  refine ⟨by omega, ?_⟩
  rintro ⟨g', hg', hle, hlt⟩
  obtain ⟨before, after, hsplit⟩ := List.append_of_mem hg
  have hord := hsep.ordered
  rw [hsplit] at hord hg'
  obtain ⟨-, hafter, hbefore⟩ := List.pairwise_append.mp hord
  rcases List.mem_append.mp hg' with hmem | hmem
  · have := hbefore g' hmem g (List.mem_cons_self ..)
    omega
  · rcases List.mem_cons.mp hmem with rfl | hmem
    · omega
    · have := (List.pairwise_cons.mp hafter).1 g' hmem
      omega

theorem nodup_starts {gaps : List ByteInterval} (hsep : Separated gaps) :
    (gaps.map ByteInterval.start).Nodup := by
  rw [List.Nodup, List.pairwise_map]
  refine hsep.ordered.imp_of_mem ?_
  intro g g' hg _ hlt heq
  have := hsep.nonempty g hg
  omega

/-! ## Errors -/

private theorem skipGaps_ne_noGap {start stop : Nat} {gaps : List ByteInterval}
    (hg : g ∈ gaps) (hle : start ≤ g.stop) :
    skipGaps start stop gaps ≠ .noGap := by
  induction gaps with
  | nil => cases hg
  | cons first gaps ih =>
    unfold skipGaps
    split
    · simp
    · split
      · simp
      · next hlt =>
        rcases List.mem_cons.mp hg with rfl | hmem
        · exact absurd hle hlt
        · have hne := ih hmem
          cases hskip : skipGaps start stop gaps with
          | noGap => exact absurd hskip hne
          | duplicate => simp
          | found before gap after => simp

theorem seekEndGap_of_lt {stop : Nat} {endGap : ByteInterval}
    {rest : List ByteInterval} (hg : g ∈ endGap :: rest) (hlt : stop < g.stop)
    (position : Nat) (isGap : Bool) (queue : SorterQueue) (calls : List Callback) :
    ∃ e, seekEndGap position stop endGap isGap queue calls rest = .ok e := by
  induction rest generalizing endGap isGap queue calls with
  | nil =>
    rw [List.mem_singleton] at hg
    subst hg
    exact ⟨_, if_pos hlt⟩
  | cons next rest ih =>
    unfold seekEndGap
    split
    · exact ⟨_, rfl⟩
    · next hge =>
      split
      · exact ⟨_, rfl⟩
      · rcases List.mem_cons.mp hg with rfl | hmem
        · exact absurd hlt hge
        · exact ih hmem _ _ _

theorem insertFrame_error (s : FrameSorter) (data : Slice) (offset : Nat)
    (doneCb : Option Callback) (wasCut : Bool) (calls : List Callback) :
    (s.insertFrame data offset doneCb wasCut calls).error =
      if s.gaps.length > maxStreamFrameSorterGaps then some .tooManyGaps else none := by
  unfold insertFrame
  split
  · rfl
  · split <;> rfl

private theorem fillGap_error_ne {after : List ByteInterval} {gap : ByteInterval}
    (hg : g ∈ gap :: after) (hlt : offset + data.length < g.stop) (s : FrameSorter)
    (doneCb : Option Callback) (calls : List Callback) (before : List ByteInterval) :
    (s.fillGap data offset doneCb calls before gap after).error ≠ some .noGapFound ∧
      (s.fillGap data offset doneCb calls before gap after).error ≠ some .noEndGapFound := by
  obtain ⟨e, he⟩ := seekEndGap_of_lt hg hlt (cutStart offset gap) true s.queue calls
  unfold fillGap
  rw [front_eq]
  dsimp only
  rw [he]
  rw [insertFrame_error]
  constructor <;> split <;> simp

theorem push_error_ne (hg : g ∈ s.gaps)
    (hlt : offset + data.length < g.stop) (doneCb : Option Callback) :
    (s.push data offset doneCb).error ≠ some .noGapFound ∧
      (s.push data offset doneCb).error ≠ some .noEndGapFound := by
  by_cases hlen : data.length = 0
  · simp [push_of_known (.inl hlen)]
  cases hreplace : replaceShorter s.queue data offset doneCb with
  | none => simp [push_of_known (.inr hreplace)]
  | some state =>
    obtain ⟨queue, calls⟩ := state
    have hpush := push'_of_replaceShorter hlen hreplace
    cases hsearch : skipGaps offset (offset + data.length) s.gaps with
    | duplicate =>
      rw [hsearch] at hpush
      rw [push_eq_of_duplicate hpush]
      simp
    | noGap => exact absurd hsearch (skipGaps_ne_noGap hg (by omega))
    | found before gap after =>
      rw [hsearch] at hpush
      obtain ⟨hsplit, hbefore, -⟩ := skipGaps_found hsearch
      have hmem : g ∈ gap :: after := by
        rw [hsplit] at hg
        refine (List.mem_append.mp hg).resolve_left fun hfirst => ?_
        have := hbefore g hfirst
        omega
      have hfill := fillGap_error_ne hmem hlt { s with queue } doneCb calls before
      unfold push
      rw [hpush]
      dsimp only
      split
      · simp
      · exact hfill

theorem push_error (hsep : Separated s.gaps) (hg : g ∈ s.gaps)
    (hlt : offset + data.length < g.stop) (hgaps : s.gaps.length ≤ maxStreamFrameSorterGaps) :
    (s.push data offset doneCb).error =
      if maxStreamFrameSorterGaps < (s.push data offset doneCb).sorter.gaps.length then
        some .tooManyGaps else none := by
  have hcase := push_cases hsep data offset doneCb
  obtain ⟨hgap, hend⟩ := push_error_ne hg hlt doneCb
  generalize s.push data offset doneCb = pushed at hcase hgap hend ⊢
  cases hcase with
  | known | duplicate => rw [if_neg (Nat.not_lt.mpr hgaps)]
  | noGap => exact absurd rfl hgap
  | noEndGap => exact absurd rfl hend
  | filled => rw [insertFrame_error, gaps_insertFrame]

theorem push_received (hsep : Separated s.gaps) (hg : g ∈ s.gaps)
    (hlt : offset + data.length < g.stop) (doneCb : Option Callback) :
    (s.push data offset doneCb).sorter.received = s.received ∨
      (s.push data offset doneCb).sorter.received =
        s.received ∪ Set.Ico offset (offset + data.length) := by
  have hcase := push_cases hsep data offset doneCb
  obtain ⟨hgap, hend⟩ := push_error_ne hg hlt doneCb
  generalize s.push data offset doneCb = pushed at hcase hgap hend ⊢
  cases hcase with
  | known | duplicate => exact .inl rfl
  | noGap => exact absurd rfl hgap
  | noEndGap => exact absurd rfl hend
  | @filled _ _ _ _ _ e _ haround =>
    refine .inr ?_
    rw [← haround.received_eq hsep e.queue]
    unfold received
    rw [gaps_insertFrame]

/-! ## Whole frames -/

theorem Assembled.lookup_isSome (h : Assembled stream s) {x : Nat}
    (hknown : x ∈ s.received) (hpred : ∃ y, y + 1 = x ∧ y ∉ s.received) :
    ∃ entry, s.queue.lookup x = some entry := by
  obtain ⟨y, hy, hunknown⟩ := hpred
  obtain ⟨n, hn⟩ := h.tiles.exists_block x y hknown hy hunknown
  obtain ⟨entry, hentry, -⟩ := Option.map_eq_some_iff.mp hn
  exact ⟨entry, hentry⟩

section Around

variable {stop : Nat} {before skipped : List ByteInterval} {gap : ByteInterval}
  {e : EndGap}

theorem Around.uncut (h : Around offset stop s.gaps before skipped gap e)
    (hsep : Separated s.gaps) (hmissing : ∀ x, offset ≤ x → x < stop → Missing s.gaps x) :
    cutStart offset gap = offset ∧ cutStop stop e = stop := by
  have hord := h.ordered hsep
  have hnonempty := h.nonempty
  have hstarts := h.starts
  have hstopLe := hord.stop_le
  have hcases : ∀ g ∈ s.gaps,
      g.stop < offset ∨ g = e.endGap ∨ g.stop < e.endGap.start ∧ gap.start ≤ g.start ∨
        e.endGap.stop < g.start := by
    intro g hg
    rw [h.split, List.mem_append, List.mem_append, List.mem_cons] at hg
    rcases hg with hg | hg | rfl | hg
    · exact .inl (h.ends_before g hg)
    · exact .inr (.inr (.inl ⟨hord.lt_endGap g hg, hord.gap_le g hg⟩))
    · exact .inr (.inl rfl)
    · exact .inr (.inr (.inr (hord.endGap_lt g hg)))
  have hstartLe := hord.start_le
  have hend := hsep.nonempty e.endGap (by simp [h.split])
  constructor
  · apply Nat.max_eq_left
    obtain ⟨g, hg, hin, hin'⟩ := hmissing offset (Nat.le_refl _) hnonempty
    rcases hcases g hg with hlt | rfl | ⟨-, hle⟩ | hlt <;> omega
  · apply Nat.min_eq_left
    apply Nat.le_of_not_lt
    intro hshort
    obtain ⟨g, hg, hin, hin'⟩ := hmissing e.endGap.stop (by omega) hshort
    rcases hcases g hg with hlt | rfl | ⟨hlt, -⟩ | hlt <;> omega

theorem Around.behind (h : Around offset stop s.gaps before skipped gap e)
    (hsep : Separated s.gaps)
    (hknown : ∀ x, offset ≤ x → x < stop → ¬ Missing s.gaps x) : gap.stop = offset := by
  have hord := h.ordered hsep
  have hgap := hsep.nonempty gap hord.mem
  have hstarts := h.starts
  have hreaches := h.reaches
  have hnonempty := h.nonempty
  by_contra hne
  refine hknown (max offset gap.start) (Nat.le_max_left ..) (by omega) ?_
  exact ⟨gap, hord.mem, Nat.le_max_right .., by omega⟩

end Around

abbrev Whole (P : Nat → Nat → Prop) (queue : SorterQueue) : Prop :=
  EveryEntry (fun p bytes => P p bytes.length) queue

theorem Whole.push {P : Nat → Nat → Prop} (hwhole : Whole P s.queue)
    (h : Assembled stream s) (hdata : P offset data.length)
    (hunique : ∀ n, 0 < n → P offset n → n = data.length)
    (hrange : (∀ x, offset ≤ x → x < offset + data.length → x ∈ s.received) ∨
      ∀ x, offset ≤ x → x < offset + data.length → x ∉ s.received)
    (herror : (s.push data offset doneCb).error = none) :
    Whole P (s.push data offset doneCb).sorter.queue := by
  have hsep := h.separated
  have hcase := push_cases hsep data offset doneCb
  generalize s.push data offset doneCb = pushed at hcase herror ⊢
  have hreplaced : ∀ queue calls, replaceShorter s.queue data offset doneCb =
      some (queue, calls) → s.queue.lookup offset = none ∧ queue = s.queue := by
    intro queue calls hreplace
    rcases replaceShorter_eq_some hreplace with ⟨hnone, rfl, -⟩ | ⟨old, hold, hlt, -⟩
    · exact ⟨hnone, rfl⟩
    · have hpos : 0 < old.data.length :=
        h.tiles.positive offset old.data.length (by rw [blocksOf, hold]; rfl)
      have := hunique _ hpos (hwhole offset old hold)
      omega
  cases hcase with
  | known => exact hwhole
  | @duplicate queue calls _ hreplace =>
    obtain ⟨-, rfl⟩ := hreplaced queue calls hreplace
    exact hwhole
  | noGap => cases herror
  | noEndGap => cases herror
  | @filled queue calls before skipped gap e hreplace haround heffects =>
    obtain ⟨hnone, rfl⟩ := hreplaced queue calls hreplace
    obtain ⟨entry, hbytes, hsorter⟩ := insertFrame_ok herror
    have hmax := haround.stop_lt_max hsep
    rcases hrange with hknown | hunknown
    · -- The range starts behind a gap, so that its entry is still in the queue.
      have hbehind := haround.behind hsep fun x hx hx' => (hknown x hx hx').2
      have hord := haround.ordered hsep
      have hgap := hsep.nonempty gap hord.mem
      obtain ⟨old, hold⟩ := h.lookup_isSome
        (hknown offset (Nat.le_refl _) haround.nonempty)
        ⟨offset - 1, by omega, notMem_received hord.mem (by omega) (by omega)⟩
      rw [hnone] at hold
      cases hold
    · have hmissing : ∀ x, offset ≤ x → x < offset + data.length → Missing s.gaps x := by
        intro x hx hx'
        by_contra hnot
        exact hunknown x hx hx' ⟨by omega, hnot⟩
      obtain ⟨hstart, hstop⟩ := haround.uncut hsep hmissing
      have hlength : (cutData data offset offset (offset + data.length)).length =
          offset + data.length - offset :=
        length_cutData (Nat.le_refl _) (Nat.le_refl _)
      have hdeleted := hwhole.deleteAll (cutStart offset gap) skipped calls
      rw [← heffects] at hdeleted
      rw [hsorter, hstart]
      refine hdeleted.insert ?_
      rw [hbytes, hstart, hstop]
      change P offset (cutData data offset offset (offset + data.length)).length
      rw [hlength, Nat.add_sub_cancel_left]
      exact hdata

end FrameSorter

end Qperf.Quic
