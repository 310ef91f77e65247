import Qperf.Foundation.Blocks
import Qperf.Foundation.Traces
import Qperf.Quic.SorterPush

/-!
# Reassembly of a stream

The entries of the queue tile the received positions: a reader that pops one entry
after the other stops at the first gap.  A push keeps this, unless it replaces an
entry by a longer one that ends strictly inside received data.
-/

namespace Qperf.Quic

open Qperf.Foundation

namespace FrameSorter

def received (s : FrameSorter) : Set Nat :=
  { x | x < maxByteCount ∧ ¬ Missing s.gaps x }

def blocksOf (queue : SorterQueue) (p : Nat) : Option Nat :=
  (queue.lookup p).map fun entry => entry.data.length

def segmentAt (stream : List UInt8) (offset length : Nat) : List UInt8 :=
  (stream.drop offset).take length

structure Assembled (stream : List UInt8) (s : FrameSorter) : Prop where
  separated : Separated s.gaps
  tiles : Tiles s.received (blocksOf s.queue) s.readPos
  content : ∀ p entry, s.queue.lookup p = some entry →
    entry.data.bytes = segmentAt stream p entry.data.length

/--
Data that is longer than the entry at its offset does not end strictly inside
received data.
-/
def Reconcilable (s : FrameSorter) (offset length : Nat) : Prop :=
  ∀ old, s.queue.lookup offset = some old → old.data.length < length →
    ∃ g ∈ s.gaps, g.start ≤ offset + length ∧ offset + length ≤ g.stop

instance (s : FrameSorter) (offset length : Nat) :
    Decidable (s.Reconcilable offset length) :=
  decidable_of_iff (∀ old ∈ s.queue.lookup offset, old.data.length < length →
    ∃ g ∈ s.gaps, g.start ≤ offset + length ∧ offset + length ≤ g.stop) Iff.rfl

/-! ## The positions around a frame -/

variable {s : FrameSorter} {stream : List UInt8}

theorem notMem_received {g : ByteInterval} (hg : g ∈ s.gaps) {x : Nat}
    (hx : g.start ≤ x) (hx' : x < g.stop) : x ∉ s.received :=
  fun hmem => hmem.2 ⟨g, hg, hx, hx'⟩

theorem boundary_of_mem_gaps (hsep : Separated s.gaps) {g : ByteInterval}
    (hg : g ∈ s.gaps) {x : Nat} (hx : g.start ≤ x) (hx' : x ≤ g.stop) :
    Boundary s.received x := by
  intro hmem
  have hne := hsep.nonempty g hg
  have hstop : ¬ x < g.stop := fun hlt => notMem_received hg hx hlt hmem
  exact ⟨x - 1, by omega, notMem_received hg (by omega) (by omega)⟩

section Around

variable {offset stop : Nat} {before skipped : List ByteInterval}
variable {gap : ByteInterval} {e : EndGap}

section

variable (h : Around offset stop s.gaps before skipped gap e)
variable (hsep : Separated s.gaps)
include h hsep

theorem Around.stop_lt_max : stop < maxByteCount := by
  rcases h.ending with ⟨hlt, -⟩ | ⟨-, -, next, rest, hrest, hlt⟩
  · have hle := hsep.bounded e.endGap (by simp [h.split])
    omega
  · have hmem : next ∈ s.gaps := by simp [h.split, hrest]
    have hne := hsep.nonempty next hmem
    have hle := hsep.bounded next hmem
    omega

theorem Around.received_eq (queue : SorterQueue) :
    received { s with queue, gaps := gapsAfter offset stop before gap e } =
      s.received ∪ Set.Ico offset stop := by
  have hmax := h.stop_lt_max hsep
  ext x
  change x < maxByteCount ∧ ¬ Missing (gapsAfter ..) x ↔
    (x < maxByteCount ∧ ¬ Missing s.gaps x) ∨ (offset ≤ x ∧ x < stop)
  rw [h.missing_iff hsep]
  constructor
  · rintro ⟨hx, hnot⟩
    by_cases hin : offset ≤ x ∧ x < stop
    · exact .inr hin
    · exact .inl ⟨hx, fun hmissing => hnot ⟨hmissing, hin⟩⟩
  · rintro (⟨hx, hnot⟩ | hin)
    · exact ⟨hx, fun hboth => hnot hboth.1⟩
    · exact ⟨by omega, fun hboth => hboth.2 hin⟩

theorem Around.union_eq : s.received ∪ Set.Ico offset stop =
      s.received ∪ Set.Ico (cutStart offset gap) (cutStop stop e) := by
  have hmax := h.stop_lt_max hsep
  ext x
  constructor
  · rintro (hmem | ⟨hx, hx'⟩)
    · exact .inl hmem
    · by_cases hmissing : Missing s.gaps x
      · exact .inr (h.rest_of_missing hsep hx hx' hmissing)
      · exact .inl ⟨by omega, hmissing⟩
  · rintro (hmem | ⟨hx, hx'⟩)
    · exact .inl hmem
    · exact .inr ⟨Nat.le_trans (Nat.le_max_left ..) hx,
        Nat.lt_of_lt_of_le hx' (Nat.min_le_left ..)⟩

theorem Around.boundary_start : Boundary s.received (cutStart offset gap) := by
  have hord := h.ordered hsep
  have hgap := hsep.nonempty gap hord.mem
  have hstarts := h.starts
  exact boundary_of_mem_gaps hsep hord.mem (Nat.le_max_right ..)
    (Nat.max_le.mpr ⟨hstarts, Nat.le_of_lt hgap⟩)

theorem Around.boundary_stop : Boundary s.received (cutStop stop e) := by
  have hmem : e.endGap ∈ s.gaps := by simp [h.split]
  have hend := hsep.nonempty e.endGap hmem
  exact boundary_of_mem_gaps hsep hmem
    (Nat.le_min.mpr ⟨h.reaches_end, Nat.le_of_lt hend⟩) (Nat.min_le_right ..)

end

def fillQueue (queue : SorterQueue) (start : Nat) (skipped : List ByteInterval)
    (calls : List Callback) (entry : FrameSorterEntry) : SorterQueue :=
  (deleteAll start skipped queue calls).1.insert start entry

theorem lookup_fillQueue_of_ne {start x : Nat} (hx : x ≠ start)
    (queue : SorterQueue) (skipped : List ByteInterval) (calls : List Callback)
    (entry : FrameSorterEntry) :
    (fillQueue queue start skipped calls entry).lookup x =
      if x ∈ skipped.map ByteInterval.stop then none else queue.lookup x := by
  unfold fillQueue
  rw [AList.lookup_insert_ne hx, lookup_deleteAll]
  simp only [ne_eq, hx, not_false_eq_true, true_and]

section

variable (h : Around offset stop s.gaps before skipped gap e)
variable (hsep : Separated s.gaps)
include h hsep

theorem Around.notMem_skipped {x : Nat} (hx : x < cutStart offset gap ∨ cutStop stop e ≤ x) :
    x ∉ skipped.map ByteInterval.stop := by
  intro hmem
  obtain ⟨g, hg, rfl⟩ := List.mem_map.mp hmem
  have hinside := h.skipped_inside hsep hg
  omega

theorem Around.tiles_fill (htiles : Tiles s.received (blocksOf s.queue) s.readPos)
    (hlt : cutStart offset gap < cutStop stop e) {queue : SorterQueue}
    (hqueue : ∀ x ≠ cutStart offset gap, queue.lookup x = s.queue.lookup x)
    (calls : List Callback) {entry : FrameSorterEntry}
    (hentry : entry.data.length = cutStop stop e - cutStart offset gap) :
    Tiles (s.received ∪ Set.Ico offset stop)
      (blocksOf (fillQueue queue (cutStart offset gap) skipped calls entry)) s.readPos ∧
    ∃ p, p ∉ s.received ∪ Set.Ico offset stop ∧
      Walk (blocksOf (fillQueue queue (cutStart offset gap) skipped calls entry))
        (cutStop stop e) p := by
  have hnew : blocksOf (fillQueue queue (cutStart offset gap) skipped calls entry)
      (cutStart offset gap) = some (cutStop stop e - cutStart offset gap) := by
    unfold blocksOf fillQueue
    rw [AList.lookup_insert, Option.map_some, hentry]
  have hout : ∀ x, x < cutStart offset gap ∨ cutStop stop e ≤ x →
      blocksOf (fillQueue queue (cutStart offset gap) skipped calls entry) x =
        blocksOf s.queue x := by
    intro x hx
    have hne : x ≠ cutStart offset gap := by omega
    unfold blocksOf
    rw [lookup_fillQueue_of_ne hne, if_neg (h.notMem_skipped hsep hx), hqueue x hne]
  rw [h.union_eq hsep]
  refine ⟨htiles.fill hlt (h.boundary_start hsep) (h.boundary_stop hsep) hnew
    hout ?_, htiles.walk_end (h.boundary_stop hsep) hout⟩
  intro x hx _
  have hne : x ≠ cutStart offset gap := by omega
  unfold blocksOf
  rw [lookup_fillQueue_of_ne hne, hqueue x hne]
  split
  · exact .inr rfl
  · exact .inl rfl

theorem Around.cutStop_eq (hend : ∃ g ∈ s.gaps, g.start ≤ stop ∧ stop ≤ g.stop) :
    cutStop stop e = stop := by
  obtain ⟨g, hg, hstart, hstop⟩ := hend
  have hord := h.ordered hsep
  have hendGap := hsep.nonempty e.endGap (by simp [h.split])
  have hnonempty := h.nonempty
  apply Nat.min_eq_left
  rw [h.split, List.mem_append, List.mem_append, List.mem_cons] at hg
  rcases hg with hg | hg | rfl | hg
  · have hlt := h.ends_before g hg
    omega
  · have hlt := hord.lt_endGap g hg
    omega
  · exact hstop
  · have hlt := h.stop_lt hsep g hg
    omega

theorem Around.cut_lt (hentries : ∀ x y, x ∈ s.received → y + 1 = x → y ∉ s.received →
      ∃ n, blocksOf s.queue x = some n)
    (hnone : s.queue.lookup offset = none) :
    cutStart offset gap < cutStop stop e := by
  apply Nat.lt_of_not_le
  intro hle
  have hord := h.ordered hsep
  have hgap := hsep.nonempty gap hord.mem
  have hendGap := hsep.nonempty e.endGap (by simp [h.split])
  have hnonempty := h.nonempty
  have hreaches := h.reaches
  have hstarts := h.starts
  have hstopLe := hord.stop_le
  unfold cutStart cutStop at hle
  -- The data starts where the first gap ends, and that is received.
  have hunknown : offset - 1 ∉ s.received := notMem_received hord.mem (by omega) (by omega)
  have hknown : offset ∈ s.received := by
    refine ⟨Nat.lt_trans hnonempty (h.stop_lt_max hsep), ?_⟩
    rintro ⟨g, hg, hin⟩
    rw [h.split, List.mem_append, List.mem_append, List.mem_cons] at hg
    obtain ⟨hin1, hin2⟩ := hin
    rcases hg with hg | hg | rfl | hg
    · have hlt := h.ends_before g hg
      omega
    · have hlt := hord.lt_endGap g hg
      omega
    · omega
    · have hlt := h.stop_lt hsep g hg
      omega
  obtain ⟨n, hn⟩ := hentries offset (offset - 1) hknown (by omega) hunknown
  rw [blocksOf, hnone] at hn
  cases hn

end

end Around

/-! ## Pushing a segment of the stream -/

theorem length_segmentAt {offset length : Nat} (h : offset + length ≤ stream.length) :
    (segmentAt stream offset length).length = length := by
  unfold segmentAt
  rw [List.length_take, List.length_drop]
  omega

private theorem bytes_cutData {data : Slice} {offset start stop : Nat}
    (hdata : data.bytes = segmentAt stream offset data.length)
    (hstart : offset ≤ start) (hstop : stop ≤ offset + data.length) :
    (cutData data offset start stop).bytes = segmentAt stream start (stop - start) := by
  change (data.bytes.drop (start - offset)).take (stop - start) = _
  rw [hdata]
  unfold segmentAt
  rw [List.drop_take, List.drop_drop, List.take_take]
  congr 1
  · omega
  · congr 1
    omega

theorem content_insert {queue : SorterQueue} {offset : Nat} {entry : FrameSorterEntry}
    (hcontent : ∀ p entry, queue.lookup p = some entry →
      entry.data.bytes = segmentAt stream p entry.data.length)
    (hentry : entry.data.bytes = segmentAt stream offset entry.data.length) :
    ∀ p found, (queue.insert offset entry).lookup p = some found →
      found.data.bytes = segmentAt stream p found.data.length := by
  intro p found hfound
  by_cases hp : p = offset
  · subst hp
    rw [AList.lookup_insert] at hfound
    cases hfound
    exact hentry
  · rw [AList.lookup_insert_ne hp] at hfound
    exact hcontent p found hfound

private theorem content_deleteAll {queue : SorterQueue}
    (hcontent : ∀ p entry, queue.lookup p = some entry →
      entry.data.bytes = segmentAt stream p entry.data.length)
    (offset : Nat) (skipped : List ByteInterval) (calls : List Callback) :
    ∀ p found, (deleteAll offset skipped queue calls).1.lookup p = some found →
      found.data.bytes = segmentAt stream p found.data.length := by
  intro p found hfound
  rw [lookup_deleteAll] at hfound
  split at hfound
  · cases hfound
  · exact hcontent p found hfound

structure AfterPush (stream : List UInt8) (s : FrameSorter)
    (offset length : Nat) (next : FrameSorter) : Prop where
  assembled : Assembled stream next
  readPos : next.readPos = s.readPos
  received : next.received = s.received ∪ Set.Ico offset (offset + length)

theorem Assembled.of_covered (h : Assembled stream s) {offset length : Nat}
    (hcovered : ∀ x, offset ≤ x → x < offset + length → x ∈ s.received) :
    AfterPush stream s offset length s := by
  refine ⟨h, rfl, (Set.union_eq_self_of_subset_right ?_).symm⟩
  exact fun x hx => hcovered x hx.1 hx.2

section Push

variable {data : Slice} {offset : Nat} {doneCb : Option Callback}
variable {queue : SorterQueue} {calls : List Callback}

theorem mem_received_of_gaps (hsep : Separated s.gaps) {offset stop : Nat}
    (hgaps : ∀ g ∈ s.gaps, stop ≤ g.start ∨ g.stop < offset)
    (hlast : ∃ g ∈ s.gaps, stop ≤ g.start) {x : Nat} (hx : offset ≤ x)
    (hx' : x < stop) : x ∈ s.received := by
  obtain ⟨last, hlastMem, hle⟩ := hlast
  have hbound := hsep.bounded last hlastMem
  have hne := hsep.nonempty last hlastMem
  refine ⟨by omega, ?_⟩
  rintro ⟨g, hg, hin1, hin2⟩
  rcases hgaps g hg with hg | hg <;> omega

theorem Assembled.duplicate (h : Assembled stream s)
    (hdata : data.bytes = segmentAt stream offset data.length)
    (hrec : s.Reconcilable offset data.length) (hlen : 0 < data.length)
    (hreplace : replaceShorter s.queue data offset doneCb = some (queue, calls))
    (hgaps : ∀ g ∈ s.gaps, offset + data.length ≤ g.start ∨ g.stop < offset)
    (hlast : ∃ g ∈ s.gaps, offset + data.length ≤ g.start) :
    AfterPush stream s offset data.length { s with queue } := by
  have hcovered : ∀ x, offset ≤ x → x < offset + data.length → x ∈ s.received :=
    fun _ => mem_received_of_gaps h.separated hgaps hlast
  rcases replaceShorter_eq_some hreplace with
    ⟨-, rfl, -⟩ | ⟨old, hold, hshorter, rfl, -⟩
  · exact h.of_covered hcovered
  · obtain ⟨g, hg, hstart, hstop⟩ := hrec old hold hshorter
    have hunknown : offset + data.length ∉ s.received := by
      apply notMem_received hg hstart
      rcases hgaps g hg with hg' | hg'
      · have hne := h.separated.nonempty g hg
        omega
      · omega
    have hblocks : blocksOf (s.queue.insert offset ⟨data, doneCb⟩) =
        Function.update (blocksOf s.queue) offset (some (offset + data.length - offset)) := by
      funext x
      unfold blocksOf
      by_cases hx : x = offset
      · subst hx
        rw [AList.lookup_insert, Function.update_self, Nat.add_sub_cancel_left]
        rfl
      · rw [AList.lookup_insert_ne hx, Function.update_of_ne hx]
    refine ⟨⟨h.separated, ?_, content_insert h.content hdata⟩, rfl, ?_⟩
    · rw [hblocks]
      exact h.tiles.stretch (by omega) hcovered ⟨_, hunknown, .done _⟩
    · exact (h.of_covered hcovered).received

theorem length_cutData {start stop : Nat} (hstart : offset ≤ start)
    (hstop : stop ≤ offset + data.length) :
    (cutData data offset start stop).length = stop - start := by
  change ((data.bytes.drop (start - offset)).take (stop - start)).length = _
  rw [List.length_take, List.length_drop]
  unfold Slice.length at hstop
  omega

theorem blocksOf_fillQueue_insert {start : Nat} {skipped : List ByteInterval}
    (hne : offset ≠ start) (hmem : offset ∉ skipped.map ByteInterval.stop)
    (queue : SorterQueue) (calls : List Callback) (replaced entry : FrameSorterEntry) :
    blocksOf (fillQueue (queue.insert offset replaced) start skipped calls
      entry) =
      Function.update (blocksOf (fillQueue queue start skipped calls entry))
        offset (some replaced.data.length) := by
  funext x
  unfold blocksOf
  by_cases hx : x = offset
  · subst hx
    rw [lookup_fillQueue_of_ne hne, if_neg hmem, AList.lookup_insert, Function.update_self]
    rfl
  · rw [Function.update_of_ne hx]
    by_cases hstart : x = start
    · subst hstart
      unfold fillQueue
      rw [AList.lookup_insert, AList.lookup_insert]
    · rw [lookup_fillQueue_of_ne hstart, lookup_fillQueue_of_ne hstart,
        AList.lookup_insert_ne hx]

theorem Assembled.tiles_filled (h : Assembled stream s) (hrec : s.Reconcilable offset data.length)
    (hreplace : replaceShorter s.queue data offset doneCb = some (queue, calls))
    {before skipped : List ByteInterval} {gap : ByteInterval} {e : EndGap}
    (haround : Around offset (offset + data.length) s.gaps before skipped gap e)
    {entry : FrameSorterEntry} (hentry : entry.data.length =
      cutStop (offset + data.length) e - cutStart offset gap) :
    Tiles (s.received ∪ Set.Ico offset (offset + data.length))
      (blocksOf (fillQueue queue (cutStart offset gap) skipped calls entry)) s.readPos := by
  have hsep := h.separated
  rcases replaceShorter_eq_some hreplace with
    ⟨hnone, rfl, -⟩ | ⟨old, hold, hshorter, rfl, -⟩
  · exact (haround.tiles_fill hsep h.tiles
      (haround.cut_lt hsep h.tiles.exists_block hnone) (fun _ _ => rfl) calls
      hentry).1
  have hend := haround.cutStop_eq hsep (hrec old hold hshorter)
  have hlt : cutStart offset gap < cutStop (offset + data.length) e := by
    rw [hend]
    exact Nat.max_lt.mpr ⟨haround.nonempty, haround.reaches⟩
  by_cases hstart : cutStart offset gap = offset
  · -- The entry at the start of the rest is the one that was replaced.
    refine (haround.tiles_fill hsep h.tiles hlt (fun x hx => ?_) calls hentry).1
    exact AList.lookup_insert_ne (hstart ▸ hx)
  · have hbefore : offset < cutStart offset gap :=
      Nat.lt_of_le_of_ne (Nat.le_max_left ..) (Ne.symm hstart)
    obtain ⟨htiles, hwalk⟩ := haround.tiles_fill hsep h.tiles hlt
      (fun _ _ => rfl) calls hentry
    rw [hend] at hwalk
    rw [blocksOf_fillQueue_insert (Nat.ne_of_lt hbefore)
      (haround.notMem_skipped hsep (.inl hbefore))]
    have hstretch := htiles.stretch haround.nonempty (fun x hx hx' => .inr ⟨hx, hx'⟩) hwalk
    rwa [Nat.add_sub_cancel_left] at hstretch

theorem Assembled.filled (h : Assembled stream s)
    (hdata : data.bytes = segmentAt stream offset data.length)
    (hrec : s.Reconcilable offset data.length)
    (hreplace : replaceShorter s.queue data offset doneCb = some (queue, calls))
    {before skipped : List ByteInterval} {gap : ByteInterval} {e : EndGap}
    (haround : Around offset (offset + data.length) s.gaps before skipped gap e)
    {entry : FrameSorterEntry}
    (hentry : entry.data.bytes = (cutData data offset (cutStart offset gap)
      (cutStop (offset + data.length) e)).bytes) :
    AfterPush stream s offset data.length
      { s with
        queue := fillQueue queue (cutStart offset gap) skipped calls entry
        gaps := gapsAfter offset (offset + data.length) before gap e } := by
  have hsep := h.separated
  have hstart : offset ≤ cutStart offset gap := Nat.le_max_left ..
  have hstop : cutStop (offset + data.length) e ≤ offset + data.length := Nat.min_le_left ..
  have hlength : entry.data.length = cutStop (offset + data.length) e - cutStart offset gap := by
    rw [Slice.length, hentry]
    exact length_cutData hstart hstop
  have hreceived := haround.received_eq hsep
    (fillQueue queue (cutStart offset gap) skipped calls entry)
  refine ⟨⟨haround.separated hsep, ?_, ?_⟩, rfl, hreceived⟩
  · rw [hreceived]
    exact h.tiles_filled hrec hreplace haround hlength
  · have hqueue : ∀ p entry, queue.lookup p = some entry →
        entry.data.bytes = segmentAt stream p entry.data.length := by
      rcases replaceShorter_eq_some hreplace with
        ⟨-, rfl, -⟩ | ⟨old, -, -, rfl, -⟩
      · exact h.content
      · exact content_insert h.content hdata
    refine content_insert (content_deleteAll hqueue _ _ _) ?_
    rw [hentry, hlength]
    exact bytes_cutData hdata hstart hstop

end Push

theorem Assembled.push (h : Assembled stream s) {offset length : Nat}
    (hlength : offset + length ≤ stream.length)
    (hrec : s.Reconcilable offset length) {buffer doneCb : Option Callback}
    (herror : (s.push ⟨segmentAt stream offset length, buffer⟩ offset
      doneCb).error = none) :
    AfterPush stream s offset length
      (s.push ⟨segmentAt stream offset length, buffer⟩ offset doneCb).sorter := by
  obtain ⟨data, hdata⟩ : ∃ data : Slice,
      data = ⟨segmentAt stream offset length, buffer⟩ := ⟨_, rfl⟩
  have hlen : data.length = length := by
    rw [hdata]
    exact length_segmentAt hlength
  have hbytes : data.bytes = segmentAt stream offset data.length := by
    rw [hlen, hdata]
  rw [← hdata] at herror ⊢
  subst hlen
  have hcase := push_cases h.separated data offset doneCb
  generalize s.push data offset doneCb = pushed at hcase herror ⊢
  cases hcase with
  | known hknown =>
    apply h.of_covered
    intro x hx hx'
    rcases hknown with hzero | ⟨old, hold, hle⟩
    · omega
    · refine h.tiles.inside offset old.data.length ?_ x hx (by omega)
      rw [blocksOf, hold]
      rfl
  | duplicate hpos hreplace hgaps hlast =>
    exact h.duplicate hbytes hrec hpos hreplace hgaps hlast
  | noGap => cases herror
  | noEndGap => cases herror
  | filled hreplace haround heffects =>
    obtain ⟨entry, hentry, hsorter⟩ := insertFrame_ok herror
    have hfilled := h.filled hbytes hrec hreplace haround hentry
    rw [hsorter]
    unfold fillQueue at hfilled
    rw [← heffects] at hfilled
    exact hfilled

/-! ## Popping -/

theorem lookup_of_pop {data : Slice} (hdata : s.pop.data = some data) :
    ∃ entry, s.queue.lookup s.readPos = some entry ∧ entry.data = data ∧
      s.pop.sorter = { s with
        queue := s.queue.erase s.readPos
        readPos := s.readPos + data.length } := by
  unfold pop at *
  split at hdata
  · cases hdata
  · next entry hentry =>
    cases hdata
    exact ⟨entry, hentry, rfl, rfl⟩

theorem lookup_eq_none_of_pop (hdata : s.pop.data = none) :
    s.queue.lookup s.readPos = none ∧ s.pop.sorter = s := by
  unfold pop at *
  split at hdata
  · next hnone => exact ⟨hnone, rfl⟩
  · cases hdata

private theorem blocksOf_erase (queue : SorterQueue) (p : Nat) :
    blocksOf (queue.erase p) = Function.update (blocksOf queue) p none := by
  funext x
  unfold blocksOf
  by_cases hx : x = p
  · subst hx
    rw [AList.lookup_erase, Function.update_self]
    rfl
  · rw [AList.lookup_erase_ne hx, Function.update_of_ne hx]

structure AfterPop (stream : List UInt8) (s : FrameSorter) (data : Slice) : Prop where
  assembled : Assembled stream s.pop.sorter
  received : s.pop.sorter.received = s.received
  readPos : s.pop.sorter.readPos = s.readPos + data.length
  nonempty : data.bytes ≠ []
  bytes : data.bytes = segmentAt stream s.readPos data.length

theorem Assembled.pop (h : Assembled stream s) {data : Slice}
    (hdata : s.pop.data = some data) : AfterPop stream s data := by
  obtain ⟨entry, hentry, rfl, hsorter⟩ := lookup_of_pop hdata
  have hblock : blocksOf s.queue s.readPos = some entry.data.length := by
    rw [blocksOf, hentry]
    rfl
  refine ⟨?_, by rw [hsorter]; rfl, by rw [hsorter], ?_, h.content s.readPos entry hentry⟩
  · rw [hsorter]
    refine ⟨h.separated, ?_, ?_⟩
    · rw [blocksOf_erase]
      exact h.tiles.advance hblock
    · intro p found hfound
      by_cases hp : p = s.readPos
      · subst hp
        rw [AList.lookup_erase] at hfound
        cases hfound
      · rw [AList.lookup_erase_ne hp] at hfound
        exact h.content p found hfound
  · have hpos := h.tiles.positive s.readPos entry.data.length hblock
    exact List.ne_nil_of_length_pos hpos

theorem Assembled.new (stream : List UInt8) : Assembled stream .new := by
  have hreceived : FrameSorter.new.received = ∅ := by
    refine Set.eq_empty_of_forall_notMem fun x hx => hx.2 ?_
    exact ⟨_, List.mem_singleton_self _, Nat.zero_le x, hx.1⟩
  have hblocks : blocksOf FrameSorter.new.queue = fun _ => none := by
    funext x
    rfl
  refine ⟨separated_new, ?_, ?_⟩
  · rw [hreceived, hblocks]
    exact Tiles.empty
  · intro p entry hentry
    cases hentry

end FrameSorter

/-! ## Runs -/

inductive SorterCall where
  | push (offset length : Nat) (doneCb : Option Callback)
  | pop

structure Delivery where
  sorter : FrameSorter
  pushed : List (Nat × Nat)
  delivered : List UInt8

namespace Delivery

open FrameSorter

def new : Delivery := ⟨.new, [], []⟩

def pop (d : Delivery) : Delivery :=
  { d with
    sorter := d.sorter.pop.sorter
    delivered := d.delivered ++ (d.sorter.pop.data.map Slice.bytes).getD [] }

def step (stream : List UInt8) (d : Delivery) : SorterCall → Option Delivery
  | .push offset length doneCb =>
    let pushed :=
      d.sorter.push ⟨segmentAt stream offset length, doneCb⟩ offset doneCb
    if offset + length ≤ stream.length ∧ pushed.error = none then
      some { d with
        sorter := pushed.sorter
        pushed := d.pushed ++ [(offset, length)] }
    else none
  | .pop => some d.pop

inductive Drains : Delivery → Delivery → Prop where
  | stop {d : Delivery} (h : d.sorter.pop.data = none) : Drains d d
  | pop {d final : Delivery} (h : d.sorter.pop.data ≠ none)
      (rest : Drains d.pop final) : Drains d final

/-- The pushed ranges cover the first `m` positions. -/
def Covers (d : Delivery) (m : Nat) : Prop :=
  ∀ x < m, ∃ range ∈ d.pushed, range.1 ≤ x ∧ x < range.1 + range.2

structure Exact (stream : List UInt8) (d : Delivery) : Prop where
  readPos : d.sorter.readPos = d.delivered.length
  delivered : d.delivered = stream.take d.delivered.length
  next : ∀ data, d.sorter.pop.data = some data → data.bytes ≠ [] ∧
    data.bytes = segmentAt stream d.sorter.readPos data.length
  drains : ∃ final, d.Drains final
  complete : ∀ final m, d.Drains final → d.Covers m →
    stream.take m <+: final.delivered

def Reconciles (d : Delivery) : SorterCall → Prop
  | .push offset length _ => d.sorter.Reconcilable offset length
  | .pop => True

instance (d : Delivery) : (call : SorterCall) → Decidable (d.Reconciles call)
  | .push offset length _ =>
    inferInstanceAs (Decidable (d.sorter.Reconcilable offset length))
  | .pop => .isTrue trivial

variable {stream : List UInt8} {d next : Delivery}

structure Invariant (stream : List UInt8) (d : Delivery) : Prop where
  assembled : Assembled stream d.sorter
  readPos : d.sorter.readPos = d.delivered.length
  delivered : d.delivered = stream.take d.delivered.length
  pushed : ∀ range ∈ d.pushed, ∀ x, range.1 ≤ x → x < range.1 + range.2 →
    x ∈ d.sorter.received

theorem Invariant.new (stream : List UInt8) : Invariant stream .new :=
  ⟨.new stream, rfl, rfl, by simp [Delivery.new]⟩

theorem take_append_segmentAt {n : Nat} {bytes : List UInt8}
    (h : bytes = segmentAt stream n bytes.length) :
    stream.take n ++ bytes = stream.take (n + bytes.length) := by
  rw [List.take_add, ← segmentAt, ← h]

theorem length_delivered_pop {data : Slice} (hdata : d.sorter.pop.data = some data) :
    d.pop.delivered.length = d.delivered.length + data.bytes.length := by
  unfold Delivery.pop
  rw [hdata]
  exact List.length_append ..

theorem Invariant.pop (h : Invariant stream d) : Invariant stream d.pop := by
  cases hdata : d.sorter.pop.data with
  | none =>
    have hsame : d.pop = d := by
      unfold Delivery.pop
      rw [(lookup_eq_none_of_pop hdata).2, hdata]
      simp
    rw [hsame]
    exact h
  | some data =>
    have hpop := h.assembled.pop hdata
    have hdelivered : d.pop.delivered = d.delivered ++ data.bytes := by
      unfold Delivery.pop
      rw [hdata]
      rfl
    have hlength := length_delivered_pop hdata
    refine ⟨hpop.assembled, ?_, ?_, ?_⟩
    · rw [hlength, ← h.readPos]
      exact hpop.readPos
    · have hbytes := hpop.bytes
      rw [h.readPos] at hbytes
      rw [hlength, hdelivered, ← take_append_segmentAt hbytes, ← h.delivered]
    · intro range hrange x hx hx'
      change x ∈ d.sorter.pop.sorter.received
      rw [hpop.received]
      exact h.pushed range hrange x hx hx'

theorem Invariant.step (h : Invariant stream d) {call : SorterCall}
    (hreconciles : d.Reconciles call) (hstep : d.step stream call = some next) :
    Invariant stream next := by
  cases call with
  | push offset length doneCb =>
    simp only [Delivery.step] at hstep
    split at hstep
    · next hok =>
      cases hstep
      have hpush := h.assembled.push hok.1 hreconciles hok.2
      refine ⟨hpush.assembled, hpush.readPos.trans h.readPos, h.delivered, ?_⟩
      intro range hrange x hx hx'
      rw [hpush.received]
      rcases List.mem_append.mp hrange with hrange | hrange
      · exact .inl (h.pushed range hrange x hx hx')
      · rw [List.mem_singleton.mp hrange] at hx hx'
        exact .inr ⟨hx, hx'⟩
    · cases hstep
  | pop =>
    cases hstep
    exact h.pop

theorem Invariant.length_le (h : Invariant stream d) :
    d.delivered.length ≤ stream.length := by
  rw [h.delivered]
  exact List.length_take_le' ..

theorem Invariant.drains (h : Invariant stream d) : ∃ final, d.Drains final := by
  obtain ⟨n, hn⟩ : ∃ n, n = stream.length - d.delivered.length := ⟨_, rfl⟩
  induction n using Nat.strong_induction_on generalizing d with
  | _ n ih =>
    cases hdata : d.sorter.pop.data with
    | none => exact ⟨d, .stop hdata⟩
    | some data =>
      have hpos : 0 < data.bytes.length :=
        List.length_pos_of_ne_nil (h.assembled.pop hdata).nonempty
      have hlength := length_delivered_pop hdata
      have hle := h.pop.length_le
      obtain ⟨final, hfinal⟩ := ih (stream.length - d.pop.delivered.length)
        (by omega) h.pop rfl
      exact ⟨final, .pop (by simp [hdata]) hfinal⟩

theorem Invariant.complete (h : Invariant stream d) {final : Delivery} {m : Nat}
    (hdrains : d.Drains final) (hcovers : d.Covers m) :
    stream.take m <+: final.delivered := by
  induction hdrains with
  | @stop d hnone =>
    have hlookup := (lookup_eq_none_of_pop hnone).1
    have hle : m ≤ d.sorter.readPos := by
      refine h.assembled.tiles.le_of_blocks_eq_none ?_ fun x hx => ?_
      · rw [blocksOf, hlookup]
        rfl
      · obtain ⟨range, hrange, hx, hx'⟩ := hcovers x hx
        exact h.pushed range hrange x hx hx'
    rw [h.readPos] at hle
    rw [h.delivered]
    exact List.take_prefix_take_left hle
  | pop _ _ ih => exact ih h.pop hcovers

def ReachesReconciled (stream : List UInt8) :
    Delivery → List SorterCall → Delivery → Prop :=
  Trace fun d call next =>
    d.step stream call = some next ∧ d.Reconciles call

/--
Every pop returns the bytes of the stream at the read position, and whatever was
pushed without a gap can be popped.
-/
theorem reassembly_exact (stream : List UInt8) (calls : List SorterCall)
    (d : Delivery) (h : ReachesReconciled stream .new calls d) :
    d.Exact stream := by
  have hinv : Invariant stream d := Trace.invariant (Invariant stream)
    (.new stream) (fun _ _ _ hd hstep => hd.step hstep.2 hstep.1) h
  refine ⟨hinv.readPos, hinv.delivered, fun data hdata => ?_, hinv.drains,
    fun final m => hinv.complete⟩
  have hpop := hinv.assembled.pop hdata
  exact ⟨hpop.nonempty, hpop.bytes⟩

def countingStream : List UInt8 := (List.range 20).map UInt8.ofNat

theorem reassembly_exact_longerSegment : ∃ d, ReachesReconciled countingStream .new
      [.push 4 3 none, .push 4 6 none, .push 0 5 none, .pop] d ∧
      d.Exact countingStream := by
  have hrun : ∃ d, ReachesReconciled countingStream .new
      [.push 4 3 none, .push 4 6 none, .push 0 5 none, .pop] d :=
    ⟨_, .cons ⟨rfl, by decide +kernel⟩ <| .cons ⟨rfl, by decide +kernel⟩ <|
      .cons ⟨rfl, by decide +kernel⟩ <| .cons ⟨rfl, trivial⟩ .nil⟩
  obtain ⟨d, hd⟩ := hrun
  exact ⟨d, hd, reassembly_exact _ _ d hd⟩

def Reaches (stream : List UInt8) : Delivery → List SorterCall → Delivery → Prop :=
  Trace fun d call next => d.step stream call = some next

def observe (d : Delivery) : List (Nat × Nat) × Bool × Bool × Nat :=
  (d.pushed, d.sorter.pop.data.isSome, d.pop.sorter.pop.data.isSome, d.pop.delivered.length)

/--
The segment from 0 to 8 replaces the one from 0 to 5, although the one from 5 to
10 is there, and the bytes 8 and 9 cannot be read any more.  Behind a gap, such a
segment is cut to nothing, and an empty slice is popped.
-/
theorem frameSorter_loses_data : (∃ d final, Reaches countingStream .new
        [.push 0 5 none, .push 5 5 none, .push 0 8 none] d ∧
      d.Covers 10 ∧ d.Drains final ∧ final.delivered.length = 8 ∧
      ¬ d.Exact countingStream) ∧
    ∃ d data, Reaches countingStream .new
        [.push 10 5 none, .push 15 5 none, .push 10 8 none, .push 0 10 none,
          .pop] d ∧
      d.sorter.pop.data = some data ∧ data.bytes = [] := by
  constructor
  · have hrun : ([.push 0 5 none, .push 5 5 none, .push 0 8 none].foldlM
        (step countingStream) .new).map observe =
        some ([(0, 5), (5, 5), (0, 8)], true, false, 8) := by
      decide +kernel
    obtain ⟨d, hd, hobserved⟩ := Option.map_eq_some_iff.mp hrun
    simp only [observe, Prod.mk.injEq] at hobserved
    obtain ⟨hpushed, hfirst, hsecond, hlength⟩ := hobserved
    have hcovers : d.Covers 10 := by
      intro x hx
      rw [hpushed]
      by_cases hlt : x < 5
      · exact ⟨(0, 5), by simp, Nat.zero_le _, hlt⟩
      · exact ⟨(5, 5), by simp, Nat.le_of_not_lt hlt, hx⟩
    have hdrains : d.Drains d.pop := by
      refine .pop ?_ (.stop (by simpa using hsecond))
      intro hnone
      simp [hnone] at hfirst
    refine ⟨d, d.pop, Trace.of_foldlM hd, hcovers, hdrains, hlength, ?_⟩
    intro hexact
    have hpre := (hexact.complete d.pop 10 hdrains hcovers).length_le
    rw [hlength] at hpre
    exact absurd hpre (by decide)
  · have hrun : ([.push 10 5 none, .push 15 5 none, .push 10 8 none,
        .push 0 10 none, .pop].foldlM (step countingStream) .new).map
        (fun d => d.sorter.pop.data.map Slice.bytes) = some (some []) := by
      decide +kernel
    obtain ⟨d, hd, hobserved⟩ := Option.map_eq_some_iff.mp hrun
    obtain ⟨data, hdata, hbytes⟩ := Option.map_eq_some_iff.mp hobserved
    exact ⟨d, data, Trace.of_foldlM hd, hdata, hbytes⟩

end Delivery

end Qperf.Quic
