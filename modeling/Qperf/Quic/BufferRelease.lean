import Qperf.Foundation.Traces
import Qperf.Quic.SorterPush

/-!
# Release of receive buffers

The callback of an entry gives the buffer of its data back to a pool.  A buffer has
one owner at a time: an entry of the queue, the caller of `Pop`, or the pool.  A
push that replaces an entry which does not start behind a gap gives its buffer two
owners.
-/

namespace Qperf.Quic

open Qperf.Foundation

namespace FrameSorter

/-! ## Owners -/

/--
The callbacks that the sorter has invoked are `released`, those that pops have
returned are `returned`, and `used` are all that pushes have handed in.
-/
structure Owned (queue : SorterQueue) (released returned used : List Callback) :
    Prop where
  owner : ∀ p entry, queue.lookup p = some entry → entry.data.buffer = entry.doneCb
  unique : ∀ p q entry other b, queue.lookup p = some entry →
    queue.lookup q = some other → entry.doneCb = some b →
    other.doneCb = some b → p = q
  held : ∀ p entry b, queue.lookup p = some entry → entry.doneCb = some b →
    b ∉ released ∧ b ∉ returned ∧ b ∈ used
  once : released.Nodup
  apart : ∀ b ∈ released, b ∉ returned
  used_released : ∀ b ∈ released, b ∈ used
  used_returned : ∀ b ∈ returned, b ∈ used

def HeldOnlyAt (queue : SorterQueue) (p : Nat) (b : Callback) : Prop :=
  ∀ q entry, queue.lookup q = some entry → entry.doneCb = some b → q = p

namespace Owned

variable {queue next : SorterQueue} {released returned used : List Callback}
variable {p : Nat} {b : Callback} {entry : FrameSorterEntry}

section

variable (h : Owned queue released returned used)
include h

theorem mono (hsub : ∀ q entry, next.lookup q = some entry →
      queue.lookup q = some entry) : Owned next released returned used where
  owner := fun q entry hq => h.owner q entry (hsub q entry hq)
  unique := fun q r entry other b hq hr =>
    h.unique q r entry other b (hsub q entry hq) (hsub r other hr)
  held := fun q entry b hq => h.held q entry b (hsub q entry hq)
  __ := h

theorem use (b : Callback) : Owned queue released returned (used ++ [b]) where
  __ := h
  held := fun q entry b hq hb => by
    obtain ⟨hreleased, hreturned, hused⟩ := h.held q entry b hq hb
    exact ⟨hreleased, hreturned, List.mem_append_left _ hused⟩
  used_released := fun b hb => List.mem_append_left _ (h.used_released b hb)
  used_returned := fun b hb => List.mem_append_left _ (h.used_returned b hb)

theorem release (hheld : ∀ q entry, queue.lookup q = some entry → entry.doneCb ≠ some b)
    (hreleased : b ∉ released) (hreturned : b ∉ returned) (hused : b ∈ used) :
    Owned queue (released ++ [b]) returned used := by
  refine ⟨h.owner, h.unique, ?_, ?_, ?_, ?_, h.used_returned⟩
  · intro q entry c hq hc
    obtain ⟨hc1, hc2⟩ := h.held q entry c hq hc
    refine ⟨?_, hc2⟩
    rw [List.mem_append, List.mem_singleton]
    rintro (hmem | rfl)
    · exact hc1 hmem
    · exact hheld q entry hq hc
  · exact List.Nodup.append h.once (List.nodup_singleton b)
      (List.disjoint_singleton.mpr hreleased)
  · intro c hc
    rcases List.mem_append.mp hc with hc | hc
    · exact h.apart c hc
    · rw [List.mem_singleton.mp hc]
      exact hreturned
  · intro c hc
    rcases List.mem_append.mp hc with hc | hc
    · exact h.used_released c hc
    · rw [List.mem_singleton.mp hc]
      exact hused

theorem giveBack (hheld : ∀ q entry, queue.lookup q = some entry → entry.doneCb ≠ some b)
    (hreleased : b ∉ released) (hused : b ∈ used) :
    Owned queue released (returned ++ [b]) used := by
  refine ⟨h.owner, h.unique, ?_, h.once, ?_, h.used_released, ?_⟩
  · intro q entry c hq hc
    obtain ⟨hc1, hc2, hc3⟩ := h.held q entry c hq hc
    refine ⟨hc1, ?_, hc3⟩
    rw [List.mem_append, List.mem_singleton]
    rintro (hmem | rfl)
    · exact hc2 hmem
    · exact hheld q entry hq hc
  · intro c hc
    rw [List.mem_append, List.mem_singleton]
    rintro (hmem | rfl)
    · exact h.apart c hc hmem
    · exact hreleased hc
  · intro c hc
    rcases List.mem_append.mp hc with hc | hc
    · exact h.used_returned c hc
    · rw [List.mem_singleton.mp hc]
      exact hused

end

theorem lookup_of_erase {q : Nat} (hq : (queue.erase p).lookup q = some entry) :
    q ≠ p ∧ queue.lookup q = some entry := by
  by_cases hqp : q = p
  · subst hqp
    rw [AList.lookup_erase] at hq
    cases hq
  · rw [AList.lookup_erase_ne hqp] at hq
    exact ⟨hqp, hq⟩

section

variable (h : Owned queue released returned used)
include h

theorem erase (p : Nat) : Owned (queue.erase p) released returned used :=
  h.mono fun _ _ hq => (lookup_of_erase hq).2

theorem not_held_erase (hp : queue.lookup p = some entry) (hb : entry.doneCb = some b) :
    ∀ q other, (queue.erase p).lookup q = some other → other.doneCb ≠ some b := by
  intro q other hq hother
  obtain ⟨hne, hq⟩ := lookup_of_erase hq
  exact hne (h.unique q p other entry b hq hp hother hb)

theorem erase_release (p : Nat) : Owned (queue.erase p)
      (released ++ ((queue.lookup p).bind (·.doneCb)).toList) returned used := by
  cases hp : queue.lookup p with
  | none => simpa using h.erase p
  | some entry =>
    cases hb : entry.doneCb with
    | none => simpa [hb] using h.erase p
    | some b =>
      obtain ⟨hreleased, hreturned, hused⟩ := h.held p entry b hp hb
      simpa [hb] using (h.erase p).release (h.not_held_erase hp hb)
        hreleased hreturned hused

private theorem erase_giveBack (hp : queue.lookup p = some entry) :
    Owned (queue.erase p) released (returned ++ entry.doneCb.toList) used := by
  cases hb : entry.doneCb with
  | none => simpa using h.erase p
  | some b =>
    obtain ⟨hreleased, -, hused⟩ := h.held p entry b hp hb
    exact (h.erase p).giveBack (h.not_held_erase hp hb) hreleased hused

theorem insert (howner : entry.data.buffer = entry.doneCb)
    (hcb : ∀ b, entry.doneCb = some b → HeldOnlyAt queue p b ∧
      b ∉ released ∧ b ∉ returned ∧ b ∈ used) :
    Owned (queue.insert p entry) released returned used := by
  have hcases : ∀ q other, (queue.insert p entry).lookup q = some other →
      q = p ∧ other = entry ∨ q ≠ p ∧ queue.lookup q = some other := by
    intro q other hq
    by_cases hqp : q = p
    · subst hqp
      rw [AList.lookup_insert] at hq
      cases hq
      exact .inl ⟨rfl, rfl⟩
    · rw [AList.lookup_insert_ne hqp] at hq
      exact .inr ⟨hqp, hq⟩
  refine ⟨?_, ?_, ?_, h.once, h.apart, h.used_released, h.used_returned⟩
  · intro q other hq
    rcases hcases q other hq with ⟨-, rfl⟩ | ⟨-, hq⟩
    · exact howner
    · exact h.owner q other hq
  · intro q r first second b hq hr hfirst hsecond
    rcases hcases q first hq with ⟨rfl, rfl⟩ | ⟨-, hold⟩
    · rcases hcases r second hr with ⟨rfl, -⟩ | ⟨hne, hr⟩
      · rfl
      · exact absurd ((hcb b hfirst).1 r second hr hsecond) hne
    · rcases hcases r second hr with ⟨rfl, rfl⟩ | ⟨-, hr⟩
      · exact (hcb b hsecond).1 q first hold hfirst
      · exact h.unique q r first second b hold hr hfirst hsecond
  · intro q other b hq hb
    rcases hcases q other hq with ⟨-, rfl⟩ | ⟨-, hq⟩
    · exact (hcb b hb).2
    · exact h.held q other b hq hb

end

end Owned

/-! ## Pushing and popping -/

structure InPush (queue : SorterQueue) (released returned used : List Callback)
    (p : Nat) (b : Callback) : Prop where
  owned : Owned queue released returned used
  only : HeldOnlyAt queue p b
  released : b ∉ released
  returned : b ∉ returned
  used : b ∈ used

section InPush

variable {queue : SorterQueue} {released returned used : List Callback}
variable {p : Nat} {b : Callback}

theorem Owned.inPush (h : Owned queue released returned used)
    (hb : b ∉ used) (p : Nat) : InPush queue released returned (used ++ [b]) p b
    where
  owned := h.use b
  only := fun q entry hq hentry => absurd (h.held q entry b hq hentry).2.2 hb
  released := fun hmem => hb (h.used_released b hmem)
  returned := fun hmem => hb (h.used_returned b hmem)
  used := by simp

theorem Owned.replace (h : Owned queue released returned used)
    {old entry : FrameSorterEntry} (hp : queue.lookup p = some old)
    (howner : entry.data.buffer = entry.doneCb) (hb : entry.doneCb = some b) (hfresh : b ∉ used) :
    InPush (queue.insert p entry) (released ++ old.doneCb.toList) returned (used ++ [b]) p b := by
  have herase := (h.erase_release p).inPush hfresh p
  rw [hp] at herase
  refine ⟨(herase.owned.insert (p := p) howner ?_).mono ?_, ?_, herase.released,
    herase.returned, herase.used⟩
  · intro c hc
    obtain rfl : b = c := Option.some.inj (hb.symm.trans hc)
    exact ⟨herase.only, herase.released, herase.returned, herase.used⟩
  · intro q other hq
    by_cases hqp : q = p
    · subst hqp
      rw [AList.lookup_insert] at hq ⊢
      exact hq
    · rw [AList.lookup_insert_ne hqp] at hq ⊢
      rwa [AList.lookup_erase_ne hqp]
  · intro q other hq hother
    by_contra hqp
    rw [AList.lookup_insert_ne hqp] at hq
    exact hfresh (h.held q other b hq hother).2.2

variable {calls initial : List Callback}

theorem Owned.deleteCovered
    (h : Owned queue (initial ++ calls) returned used) (offset position : Nat) :
    Owned (FrameSorter.deleteCovered offset queue calls position).1
      (initial ++ (FrameSorter.deleteCovered offset queue calls position).2) returned used := by
  unfold FrameSorter.deleteCovered
  split
  · rw [← List.append_assoc]
    exact h.erase_release position
  · exact h

theorem Owned.deleteAll
    (h : Owned queue (initial ++ calls) returned used) (offset : Nat)
    (skipped : List ByteInterval) :
    Owned (FrameSorter.deleteAll offset skipped queue calls).1
      (initial ++ (FrameSorter.deleteAll offset skipped queue calls).2) returned used := by
  induction skipped generalizing queue calls with
  | nil => exact h
  | cons g skipped ih => exact ih (h.deleteCovered offset g.stop)

theorem InPush.deleteCovered
    (h : InPush queue (initial ++ calls) returned used p b) (position : Nat) :
    InPush (FrameSorter.deleteCovered p queue calls position).1
      (initial ++ (FrameSorter.deleteCovered p queue calls position).2) returned used p b := by
  refine ⟨h.owned.deleteCovered p position, ?_, ?_, h.returned, h.used⟩
  · intro q entry hq
    rw [lookup_deleteCovered] at hq
    split at hq
    · cases hq
    · exact h.only q entry hq
  · unfold FrameSorter.deleteCovered
    split
    · next hposition =>
      rw [← List.append_assoc, List.mem_append, not_or]
      refine ⟨h.released, fun hmem => ?_⟩
      obtain ⟨entry, hentry, hcb⟩ := Option.bind_eq_some_iff.mp (Option.mem_toList.mp hmem)
      exact hposition (h.only position entry hentry hcb)
    · exact h.released

theorem InPush.deleteAll (h : InPush queue (initial ++ calls) returned used p b)
    (skipped : List ByteInterval) :
    InPush (FrameSorter.deleteAll p skipped queue calls).1
      (initial ++ (FrameSorter.deleteAll p skipped queue calls).2) returned used p b := by
  induction skipped generalizing queue calls with
  | nil => exact h
  | cons g skipped ih => exact ih (h.deleteCovered g.stop)

theorem InPush.insertFrame {s : FrameSorter} {initial calls : List Callback}
    (h : InPush s.queue (initial ++ calls) returned used p b) {data : Slice}
    (hdata : data.buffer = some b) (wasCut : Bool) :
    Owned (s.insertFrame data p (some b) wasCut calls).sorter.queue
      (initial ++ (s.insertFrame data p (some b) wasCut calls).calls) returned used := by
  unfold FrameSorter.insertFrame
  split
  · exact h.owned
  · split
    · -- The data is copied, so that its buffer can go back to the pool.
      rw [← List.append_assoc]
      refine (h.owned.insert rfl (by simp)).release ?_ h.released h.returned h.used
      intro q entry hq hentry
      by_cases hqp : q = p
      · subst hqp
        rw [AList.lookup_insert] at hq
        cases hq
        cases hentry
      · rw [AList.lookup_insert_ne hqp] at hq
        exact hqp (h.only q entry hq hentry)
    · refine h.owned.insert hdata fun c hc => ?_
      cases hc
      exact ⟨h.only, h.released, h.returned, h.used⟩

end InPush

/--
Data that is longer than the entry at its offset starts where a gap ends, so that
it stays at this offset.
-/
def StartsBlock (s : FrameSorter) (offset length : Nat) : Prop :=
  ∀ old, s.queue.lookup offset = some old → old.data.length < length →
    ∃ g ∈ s.gaps, g.stop = offset

instance (s : FrameSorter) (offset length : Nat) :
    Decidable (s.StartsBlock offset length) :=
  decidable_of_iff (∀ old ∈ s.queue.lookup offset, old.data.length < length →
    ∃ g ∈ s.gaps, g.stop = offset) Iff.rfl

section Push

variable {s : FrameSorter} {offset : Nat} {released returned used : List Callback}
variable {b : Callback}

theorem Around.cutStart_eq {stop : Nat} {before skipped : List ByteInterval}
    {gap : ByteInterval} {e : EndGap} (h : Around offset stop s.gaps before skipped gap e)
    (hsep : Separated s.gaps) (hstart : ∃ g ∈ s.gaps, g.stop = offset) :
    cutStart offset gap = offset := by
  obtain ⟨g, hg, hstop⟩ := hstart
  have hord := h.ordered hsep
  have hne := hsep.nonempty g hg
  apply Nat.max_eq_left
  have hle := hord.start_le
  rw [h.split, List.mem_append, List.mem_append, List.mem_cons] at hg
  rcases hg with hg | hg | rfl | hg
  · have hlt := h.ends_before g hg
    omega
  · have hgap := hord.gap_le g hg
    omega
  · omega
  · have hlt := hord.endGap_lt g hg
    have hend := hsep.nonempty e.endGap (by simp [h.split])
    omega

theorem Owned.replaceShorter (h : Owned s.queue released returned used)
    (hfresh : b ∉ used) {data : Slice} (hdata : data.buffer = some b)
    {queue : SorterQueue} {calls : List Callback}
    (hreplace : replaceShorter s.queue data offset (some b) = some (queue, calls)) :
    InPush queue (released ++ calls) returned (used ++ [b]) offset b := by
  rcases replaceShorter_eq_some hreplace with
    ⟨-, rfl, rfl⟩ | ⟨old, hold, -, rfl, rfl⟩
  · rw [List.append_nil]
    exact h.inPush hfresh offset
  · exact h.replace hold hdata rfl hfresh

theorem Owned.push (h : Owned s.queue released returned used)
    (hsep : Separated s.gaps) (hfresh : b ∉ used) {data : Slice}
    (hdata : data.buffer = some b) (hstart : s.StartsBlock offset data.length) :
    Owned (s.push data offset (some b)).sorter.queue
      (released ++ (s.push data offset (some b)).calls) returned (used ++ [b]) := by
  have hcase := push_cases hsep data offset (some b)
  generalize s.push data offset (some b) = pushed at hcase ⊢
  have hpush := h.inPush hfresh offset
  have hrelease : Owned s.queue (released ++ [b]) returned (used ++ [b]) := by
    refine hpush.owned.release ?_ hpush.released hpush.returned hpush.used
    exact fun q entry hq hcb => hfresh (h.held q entry b hq hcb).2.2
  cases hcase with
  | known => exact hrelease
  | duplicate hlen hreplace hgaps =>
    rcases replaceShorter_eq_some hreplace with
      ⟨-, rfl, rfl⟩ | ⟨old, hold, hshorter, -, -⟩
    · exact hrelease
    · -- Such data reaches the gap behind the entry.
      obtain ⟨g, hg, hstop⟩ := hstart old hold hshorter
      have hne := hsep.nonempty g hg
      rcases hgaps g hg with hlt | hlt <;> omega
  | noGap hreplace => exact (h.replaceShorter hfresh hdata hreplace).owned
  | noEndGap hreplace _ heffects =>
    subst heffects
    exact (h.replaceShorter hfresh hdata hreplace).owned.deleteAll ..
  | @filled queue calls before skipped gap e hreplace haround heffects =>
    have hstate : InPush queue (released ++ calls) returned (used ++ [b])
        (cutStart offset gap) b := by
      rcases replaceShorter_eq_some hreplace with
        ⟨-, rfl, rfl⟩ | ⟨old, hold, hshorter, -, -⟩
      · rw [List.append_nil]
        exact h.inPush hfresh _
      · rw [haround.cutStart_eq hsep (hstart old hold hshorter)]
        exact h.replaceShorter hfresh hdata hreplace
    have hdeleted := hstate.deleteAll skipped
    rw [← heffects] at hdeleted
    have hcut : (cutData data offset (cutStart offset gap)
        (cutStop (offset + data.length) e)).buffer = some b := hdata
    exact InPush.insertFrame (s := { s with queue := e.queue, gaps := _ })
      hdeleted hcut _

theorem Owned.pop (h : Owned s.queue released returned used) :
    Owned s.pop.sorter.queue released (returned ++ s.pop.doneCb.toList) used := by
  unfold FrameSorter.pop
  split
  · simpa using h
  · next entry hentry => exact h.erase_giveBack hentry

end Push

end FrameSorter

/-! ## Runs -/

inductive BufferCall where
  | push (bytes : List UInt8) (offset : Nat) (doneCb : Callback)
  | pop

structure Ledger where
  sorter : FrameSorter
  used : List Callback
  released : List Callback
  returned : List Callback

namespace Ledger

open FrameSorter

def new : Ledger := ⟨.new, [], [], []⟩

/-- A call of `Push` or `Pop`.  Every push has a buffer and a callback of its own. -/
def step (l : Ledger) : BufferCall → Option Ledger
  | .push bytes offset doneCb =>
    if doneCb ∈ l.used then none
    else
      let pushed :=
        l.sorter.push ⟨bytes, some doneCb⟩ offset (some doneCb)
      some { l with
        sorter := pushed.sorter
        used := l.used ++ [doneCb]
        released := l.released ++ pushed.calls }
  | .pop =>
    some { l with
      sorter := l.sorter.pop.sorter
      returned := l.returned ++ l.sorter.pop.doneCb.toList }

/--
No callback is invoked twice, or invoked although a pop has returned it, and no
entry of the queue refers to a buffer that was released.
-/
structure Safe (l : Ledger) : Prop where
  once : l.released.Nodup
  unused : ∀ p entry b, l.sorter.queue.lookup p = some entry →
    entry.data.buffer = some b → b ∉ l.released
  apart : ∀ b ∈ l.released, b ∉ l.returned

def StartsBlocks (l : Ledger) : BufferCall → Prop
  | .push bytes offset _ => l.sorter.StartsBlock offset bytes.length
  | .pop => True

instance (l : Ledger) : (call : BufferCall) → Decidable (l.StartsBlocks call)
  | .push bytes offset _ =>
    inferInstanceAs (Decidable (l.sorter.StartsBlock offset bytes.length))
  | .pop => .isTrue trivial

structure Invariant (l : Ledger) : Prop where
  separated : Separated l.sorter.gaps
  owned : Owned l.sorter.queue l.released l.returned l.used

theorem Invariant.new : Invariant .new where
  separated := separated_new
  owned := by
    refine ⟨?_, ?_, ?_, List.nodup_nil, ?_, ?_, ?_⟩
    all_goals simp [Ledger.new]

theorem Invariant.step {l next : Ledger} {call : BufferCall}
    (h : l.Invariant) (hstarts : l.StartsBlocks call)
    (hstep : l.step call = some next) : next.Invariant := by
  cases call with
  | push bytes offset doneCb =>
    simp only [Ledger.step] at hstep
    split at hstep
    · cases hstep
    · next hfresh =>
      cases hstep
      exact ⟨separated_push h.separated .., h.owned.push h.separated hfresh rfl hstarts⟩
  | pop =>
    cases hstep
    refine ⟨?_, h.owned.pop⟩
    rw [gaps_pop]
    exact h.separated

def ReachesInBlocks : Ledger → List BufferCall → Ledger → Prop :=
  Trace fun l call next => l.step call = some next ∧ l.StartsBlocks call

theorem buffers_released_safely (calls : List BufferCall) (l : Ledger)
    (h : ReachesInBlocks .new calls l) : l.Safe := by
  have hinv : l.Invariant := Trace.invariant Invariant .new
    (fun _ _ _ hl hstep => hl.step hstep.2 hstep.1) h
  refine ⟨hinv.owned.once, ?_, hinv.owned.apart⟩
  intro p entry b hentry hbuffer
  rw [hinv.owned.owner p entry hentry] at hbuffer
  exact (hinv.owned.held p entry b hentry hbuffer).1

theorem buffers_released_safely_longerSegment :
    ∃ l, ReachesInBlocks .new [.push [5, 6, 7] 4 0, .push [5, 6, 7, 8, 9] 4 1,
      .push [1, 2, 3, 4, 5] 0 2, .pop] l ∧ l.released = [0, 2] ∧ l.Safe := by
  have hrun : ∃ l, ReachesInBlocks .new [.push [5, 6, 7] 4 0,
      .push [5, 6, 7, 8, 9] 4 1, .push [1, 2, 3, 4, 5] 0 2, .pop] l ∧ l.released = [0, 2] :=
    ⟨_, .cons ⟨rfl, by decide +kernel⟩ <| .cons ⟨rfl, by decide +kernel⟩ <|
      .cons ⟨rfl, by decide +kernel⟩ <| .cons ⟨rfl, trivial⟩ .nil,
      by decide +kernel⟩
  obtain ⟨l, hl, hreleased⟩ := hrun
  exact ⟨l, hl, hreleased, buffers_released_safely _ l hl⟩

def Reaches : Ledger → List BufferCall → Ledger → Prop :=
  Trace fun l call next => l.step call = some next

/--
The third segment replaces the first one and is then found to be a duplicate: its
callback is invoked, while its data is in the queue, and returned by the pop.
-/
theorem buffer_released_twice : ∃ l l', Reaches .new
      [.push [1, 2, 3, 4, 5] 0 0, .push [6, 7, 8, 9, 10] 5 1,
        .push [1, 2, 3, 4, 5, 6, 7, 8] 0 2] l ∧
    ((l.sorter.queue.lookup 0).bind fun entry => entry.data.buffer) = some 2 ∧
    l.released = [0, 2] ∧ l.step .pop = some l' ∧ l'.released = [0, 2] ∧
    l'.returned = [2] ∧ ¬ l.Safe ∧ ¬ l'.Safe := by
  have hrun : ([.push [1, 2, 3, 4, 5] 0 0, .push [6, 7, 8, 9, 10] 5 1,
      .push [1, 2, 3, 4, 5, 6, 7, 8] 0 2].foldlM step .new).map
      (fun l => ((l.sorter.queue.lookup 0).bind fun entry => entry.data.buffer,
        l.released, (l.step .pop).map fun l' => (l'.released, l'.returned))) =
      some (some 2, [0, 2], some ([0, 2], [2])) := by
    decide +kernel
  obtain ⟨l, hl, hobserved⟩ := Option.map_eq_some_iff.mp hrun
  simp only [Prod.mk.injEq] at hobserved
  obtain ⟨hbuffer, hreleased, hpop⟩ := hobserved
  obtain ⟨l', hl', hlists⟩ := Option.map_eq_some_iff.mp hpop
  simp only [Prod.mk.injEq] at hlists
  refine ⟨l, l', Trace.of_foldlM hl, hbuffer, hreleased, hl', hlists.1, hlists.2, ?_, ?_⟩
  · intro hsafe
    obtain ⟨entry, hentry, hslice⟩ := Option.bind_eq_some_iff.mp hbuffer
    exact hsafe.unused 0 entry 2 hentry hslice (by simp [hreleased])
  · intro hsafe
    exact hsafe.apart 2 (by simp [hlists.1]) (by simp [hlists.2])

end Ledger

end Qperf.Quic
