import Qperf.Quic.IncomingStreams

/-!
# Limits of incoming streams

The limit that is sent to the peer is computed from the number of streams in the map
whenever one is deleted.  A stream that was not accepted yet stays in the map until it
is, so that the numbers accepted are consecutive.  `GetOrOpenStream` is called by the
goroutine of the session only: one call at a time stands between its two sections.
-/

namespace Qperf.Quic

open Qperf.Foundation

/-! ## Consecutive numbers -/

def numbersFrom : Nat → StreamNum → List StreamNum
  | 0, _ => []
  | k + 1, num => num :: numbersFrom k (num + 1)

theorem numbersFrom_add (j k : Nat) (num : StreamNum) :
    numbersFrom (j + k) num = numbersFrom j num ++ numbersFrom k (num + j) := by
  induction j generalizing num with
  | zero => simp [numbersFrom]
  | succ j ih =>
    rw [Nat.succ_add, numbersFrom, ih, numbersFrom, List.cons_append]
    congr 3
    push_cast
    ring

theorem mem_numbersFrom {k : Nat} {num n : StreamNum} :
    n ∈ numbersFrom k num ↔ num ≤ n ∧ n < num + k := by
  induction k generalizing num with
  | zero => simp [numbersFrom]
  | succ k ih =>
    rw [numbersFrom, List.mem_cons, ih]
    lia

namespace IncomingItemsMap

variable {m m' : IncomingItemsMap} {num n : StreamNum}

theorem mem_openLoop {k : Nat} {newNum : StreamNum} {streams : Finset StreamNum} :
    n ∈ openLoop k newNum streams ↔ n ∈ streams ∨ n ∈ numbersFrom k newNum := by
  induction k generalizing newNum streams with
  | zero => simp [openLoop, numbersFrom]
  | succ k ih =>
    rw [openLoop, ih, Finset.mem_insert, numbersFrom, List.mem_cons]
    tauto

private theorem card_openLoop {k : Nat} {newNum : StreamNum} {streams : Finset StreamNum}
    (hnew : ∀ n ∈ streams, n < newNum) :
    (openLoop k newNum streams).card = streams.card + k := by
  induction k generalizing newNum streams with
  | zero => rfl
  | succ k ih =>
    have hnotin : newNum ∉ streams := fun hmem => lt_irrefl _ (hnew newNum hmem)
    rw [openLoop, ih, Finset.card_insert_of_notMem hnotin]
    · omega
    · intro n hn
      rcases Finset.mem_insert.mp hn with rfl | hn
      · lia
      · have := hnew n hn
        lia

/-! ## Invariant of the map -/

structure Bounded (m : IncomingItemsMap) : Prop where
  closeErr : m.closeErr = none
  accept : 1 ≤ m.nextStreamToAccept ∧ m.nextStreamToAccept ≤ m.nextStreamToOpen
  limit : m.maxStream + m.streams.card = m.nextStreamToOpen - 1 + m.maxNumStreams
  opened : m.nextStreamToOpen - 1 ≤ m.maxStream
  streams : ∀ n ∈ m.streams, 1 ≤ n ∧ n < m.nextStreamToOpen
  unaccepted : ∀ n, m.nextStreamToAccept ≤ n → n < m.nextStreamToOpen → n ∈ m.streams
  marked : ∀ n ∈ m.streamsToDelete, m.nextStreamToAccept ≤ n ∧ n ∈ m.streams
  increasing : m.queuedMaxStreams.Pairwise (· < ·)
  queued : ∀ q ∈ m.queuedMaxStreams, q ≤ m.maxStream

theorem Bounded.new (maxStreams : Nat) : (new maxStreams).Bounded where
  closeErr := rfl
  accept := ⟨le_refl 1, le_refl 1⟩
  limit := by simp [IncomingItemsMap.new]
  opened := by simp [IncomingItemsMap.new]
  streams := fun _ hn => (Finset.notMem_empty _ hn).elim
  unaccepted := fun n h h' => by simp only [IncomingItemsMap.new] at h h'; lia
  marked := fun _ hn => (Finset.notMem_empty _ hn).elim
  increasing := .nil
  queued := fun _ hq => (List.not_mem_nil hq).elim

def removeStream (m : IncomingItemsMap) (num : StreamNum) : IncomingItemsMap :=
  { m with
    streams := m.streams.erase num
    maxStream := m.maxStream + 1
    queuedMaxStreams := m.queuedMaxStreams ++ [m.maxStream + 1] }

theorem Bounded.raiseLimit (h : m.Bounded) (hmem : num ∈ m.streams) :
    { m with streams := m.streams.erase num }.raiseLimit = m.removeStream num := by
  have hcard := Finset.card_erase_add_one hmem
  have hlimit := h.limit
  have hopened := h.opened
  have hroom : m.maxNumStreams > (m.streams.erase num).card := by lia
  have hmax : m.nextStreamToOpen + (m.maxNumStreams - (m.streams.erase num).card : Nat) -
      1 = m.maxStream + 1 := by lia
  unfold IncomingItemsMap.raiseLimit
  simp only [hroom, if_true, hmax]
  rfl

theorem Bounded.removeStream (h : m.Bounded) (hmem : num ∈ m.streams)
    (haccepted : num < m.nextStreamToAccept) : (m.removeStream num).Bounded where
  __ := h
  limit := by
    have hcard := Finset.card_erase_add_one hmem
    have hlimit := h.limit
    simp only [IncomingItemsMap.removeStream]
    lia
  opened := by
    have hopened := h.opened
    simp only [IncomingItemsMap.removeStream]
    lia
  streams := fun n hn => h.streams n (Finset.mem_of_mem_erase hn)
  unaccepted := by
    intro n hn hlt
    have hne : n ≠ num := by
      rintro rfl
      exact absurd haccepted (not_lt.mpr hn)
    exact Finset.mem_erase.mpr ⟨hne, h.unaccepted n hn hlt⟩
  marked := by
    intro n hn
    obtain ⟨hle, hin⟩ := h.marked n hn
    have hne : n ≠ num := by
      rintro rfl
      exact absurd haccepted (not_lt.mpr hle)
    exact ⟨hle, Finset.mem_erase.mpr ⟨hne, hin⟩⟩
  increasing := by
    refine List.pairwise_append.mpr ⟨h.increasing, List.pairwise_singleton .., ?_⟩
    intro q hq q' hq'
    obtain rfl := List.mem_singleton.mp hq'
    have := h.queued q hq
    lia
  queued := by
    intro q hq
    rcases List.mem_append.mp hq with hq | hq
    · have := h.queued q hq
      simp only [IncomingItemsMap.removeStream]
      lia
    · exact le_of_eq (List.mem_singleton.mp hq)

/-! ## Calls -/

inductive Deleted (m : IncomingItemsMap) (num : StreamNum) : IncomingItemsMap → Prop where
  | marked (hmem : num ∈ m.streams) (hunaccepted : m.nextStreamToAccept ≤ num) :
      Deleted m num { m with streamsToDelete := insert num m.streamsToDelete }
  | removed (hmem : num ∈ m.streams) (haccepted : num < m.nextStreamToAccept) :
      Deleted m num (m.removeStream num)

theorem Bounded.deleteStream (h : m.Bounded) (hdelete : m.deleteStream num = .ok m') :
    m.Deleted num m' := by
  unfold IncomingItemsMap.deleteStream at hdelete
  split at hdelete
  · cases hdelete
  next hmem =>
  have hmem := not_not.mp hmem
  split at hdelete
  · next hunaccepted =>
    split at hdelete
    · cases hdelete
    · cases hdelete
      exact .marked hmem hunaccepted
  · next haccepted =>
    cases hdelete
    rw [h.raiseLimit hmem]
    exact .removed hmem (not_le.mp haccepted)

theorem Bounded.deleted (h : m.Bounded) (hdeleted : m.Deleted num m') : m'.Bounded := by
  cases hdeleted with
  | marked hmem hunaccepted =>
    refine { h with marked := ?_ }
    intro n hn
    rcases Finset.mem_insert.mp hn with rfl | hn
    · exact ⟨hunaccepted, hmem⟩
    · exact h.marked n hn
  | removed hmem haccepted => exact h.removeStream hmem haccepted

def acceptNext (m : IncomingItemsMap) : IncomingItemsMap :=
  { m with
    nextStreamToAccept := m.nextStreamToAccept + 1
    streamsToDelete := m.streamsToDelete.erase m.nextStreamToAccept }

theorem Bounded.acceptNext (h : m.Bounded) (hmem : m.nextStreamToAccept ∈ m.streams) :
    m.acceptNext.Bounded := by
  have haccept := h.accept
  have hlt := (h.streams _ hmem).2
  refine { h with accept := ?_, unaccepted := ?_, marked := ?_ }
  · simp only [IncomingItemsMap.acceptNext]
    lia
  · intro n hn
    simp only [IncomingItemsMap.acceptNext] at hn
    exact h.unaccepted n (by lia)
  · intro n hn
    obtain ⟨hne, hin⟩ := Finset.mem_erase.mp hn
    obtain ⟨hle, hstream⟩ := h.marked n hin
    simp only [IncomingItemsMap.acceptNext]
    exact ⟨by lia, hstream⟩

inductive Accepted (m : IncomingItemsMap) : Accepting → Prop where
  | wait (hnone : m.nextStreamToAccept = m.nextStreamToOpen) : Accepted m .wait
  | kept (hmem : m.nextStreamToAccept ∈ m.streams)
      (hunmarked : m.nextStreamToAccept ∉ m.streamsToDelete) :
      Accepted m (.returned (.ok m.nextStreamToAccept) m.acceptNext)
  | completed (hmem : m.nextStreamToAccept ∈ m.streams)
      (hmarked : m.nextStreamToAccept ∈ m.streamsToDelete) :
      Accepted m (.returned (.ok m.nextStreamToAccept)
        (m.acceptNext.removeStream m.nextStreamToAccept))

theorem Bounded.deleteStream_acceptNext (h : m.Bounded)
    (hmem : m.nextStreamToAccept ∈ m.streams) :
    m.acceptNext.deleteStream m.nextStreamToAccept =
      .ok (m.acceptNext.removeStream m.nextStreamToAccept) := by
  have hin : ¬ m.nextStreamToAccept ∉ m.acceptNext.streams := not_not.mpr hmem
  have haccepted : ¬ m.nextStreamToAccept ≥ m.acceptNext.nextStreamToAccept := by
    simp [IncomingItemsMap.acceptNext]
  unfold IncomingItemsMap.deleteStream
  rw [if_neg hin, if_neg haccepted, (h.acceptNext hmem).raiseLimit hmem]

theorem Bounded.acceptStream (h : m.Bounded) : m.Accepted m.acceptStream := by
  unfold IncomingItemsMap.acceptStream
  dsimp only
  split
  · next err herr =>
    rw [h.closeErr] at herr
    cases herr
  split
  · next hmem =>
    split
    · next hmarked =>
      have hdelete := h.deleteStream_acceptNext hmem
      rw [IncomingItemsMap.acceptNext] at hdelete
      rw [hdelete]
      exact .completed hmem hmarked
    · next hunmarked =>
      have hsame : m.acceptNext =
          { m with nextStreamToAccept := m.nextStreamToAccept + 1 } := by
        rw [IncomingItemsMap.acceptNext, Finset.erase_eq_of_notMem hunmarked]
      rw [← hsame]
      exact .kept hmem hunmarked
  · next hnone =>
    refine .wait (le_antisymm h.accept.2 (not_lt.mp fun hlt => hnone ?_))
    exact h.unaccepted _ (le_refl _) hlt

theorem Bounded.accepted (h : m.Bounded) {result : Except StreamMapError StreamNum}
    (haccepted : m.Accepted (.returned result m')) : m'.Bounded := by
  cases haccepted with
  | kept hmem _ => exact h.acceptNext hmem
  | completed hmem _ =>
    apply (h.acceptNext hmem).removeStream hmem
    simp only [IncomingItemsMap.acceptNext]
    lia

theorem natCast_numOpened (hnew : m.nextStreamToOpen ≤ num) :
    (m.numOpened num : Int) = num + 1 - m.nextStreamToOpen :=
  Int.toNat_of_nonneg (by lia)

private theorem mem_openStreams (hnew : m.nextStreamToOpen ≤ num) :
    n ∈ (m.openStreams num).streams ↔ n ∈ m.streams ∨ m.nextStreamToOpen ≤ n ∧ n ≤ num := by
  have hnum := natCast_numOpened hnew
  rw [openStreams, mem_openLoop, mem_numbersFrom]
  lia

theorem Bounded.openStreams (h : m.Bounded) (hnew : m.nextStreamToOpen ≤ num)
    (hlimit : num ≤ m.maxStream) : (m.openStreams num).Bounded := by
  have hnum := natCast_numOpened hnew
  have hmem (n : StreamNum) := mem_openStreams (n := n) hnew
  have hcard : (m.openStreams num).streams.card = m.streams.card + m.numOpened num :=
    card_openLoop fun n hn => (h.streams n hn).2
  have haccept := h.accept
  have hopen : (m.openStreams num).nextStreamToOpen = num + 1 := rfl
  refine ⟨h.closeErr, ?_, ?_, ?_, ?_, ?_, ?_, h.increasing, h.queued⟩
  · exact ⟨haccept.1, le_trans haccept.2 (by lia)⟩
  · have := h.limit
    change m.maxStream + _ = num + 1 - 1 + (m.maxNumStreams : Int)
    lia
  · change num + 1 - 1 ≤ m.maxStream
    lia
  · intro n hn
    rcases (hmem n).mp hn with hn | hn
    · have := h.streams n hn
      lia
    · lia
  · intro n hn hlt
    rw [hmem]
    by_cases hold : n < m.nextStreamToOpen
    · exact .inl (h.unaccepted n hn hold)
    · exact .inr (by lia)
  · intro n hn
    obtain ⟨hle, hin⟩ := h.marked n hn
    exact ⟨hle, (hmem n).mpr (.inl hin)⟩

def Gone (m : IncomingItemsMap) (n : StreamNum) : Prop :=
  n < m.nextStreamToOpen ∧ (n ∈ m.streams → n ∈ m.streamsToDelete)

theorem Deleted.gone (hdeleted : m.Deleted num m') (h : m.Bounded) : m'.Gone num := by
  cases hdeleted with
  | marked hmem _ => exact ⟨(h.streams num hmem).2, fun _ => Finset.mem_insert_self ..⟩
  | removed hmem _ =>
    exact ⟨(h.streams num hmem).2, fun hin => absurd hin (Finset.notMem_erase num _)⟩

theorem Gone.deleted (hgone : m.Gone n) (hdeleted : m.Deleted num m') : m'.Gone n := by
  cases hdeleted with
  | marked _ _ =>
    exact ⟨hgone.1, fun hin => Finset.mem_insert_of_mem (hgone.2 hin)⟩
  | removed _ _ =>
    exact ⟨hgone.1, fun hin => hgone.2 (Finset.mem_of_mem_erase hin)⟩

theorem Gone.accepted (hgone : m.Gone n) {result : Except StreamMapError StreamNum}
    (haccepted : m.Accepted (.returned result m')) : m'.Gone n := by
  cases haccepted with
  | kept _ hunmarked =>
    refine ⟨hgone.1, fun hin => Finset.mem_erase.mpr ⟨?_, hgone.2 hin⟩⟩
    rintro rfl
    exact hunmarked (hgone.2 hin)
  | completed _ _ =>
    refine ⟨hgone.1, fun hin => ?_⟩
    obtain ⟨hne, hin⟩ := Finset.mem_erase.mp hin
    exact Finset.mem_erase.mpr ⟨hne, hgone.2 hin⟩

theorem Gone.openStreams (hgone : m.Gone n) (hnew : m.nextStreamToOpen ≤ num) :
    (m.openStreams num).Gone n := by
  refine ⟨lt_of_lt_of_le hgone.1 (by simp only [IncomingItemsMap.openStreams]; lia), ?_⟩
  intro hin
  rw [IncomingItemsMap.openStreams, mem_openLoop, mem_numbersFrom] at hin
  rcases hin with hin | hin
  · exact hgone.2 hin
  · exact absurd hgone.1 (not_lt.mpr hin.1)

theorem Gone.lookupStream (hgone : m.Gone n) (h : m.Bounded) :
    m.lookupStream n = .found none := by
  have hopened := h.opened
  have hlt := hgone.1
  rw [IncomingItemsMap.lookupStream, if_neg (by lia), if_pos hlt,
    if_neg fun hin => hin.1 (hgone.2 hin.2)]

end IncomingItemsMap

/-! ## Runs -/

structure StreamRecord where
  created : List StreamNum := []
  accepted : List StreamNum := []
  deleted : List StreamNum := []

section Runs

variable {ι : Type} [DecidableEq ι]

def StreamRecord.after (r : StreamRecord) (s : AcceptState ι Unit) :
    AcceptEvent ι Unit → StreamRecord
  | .lock _ =>
    match s.map.acceptStream with
    | .returned (.ok num) _ => { r with accepted := r.accepted ++ [num] }
    | _ => r
  | .openStreams _ =>
    match s.opening () with
    | some num =>
      { r with created := r.created ++
          numbersFrom (s.map.numOpened num) s.map.nextStreamToOpen }
    | none => r
  | .deleteStream num =>
    match s.map.deleteStream num with
    | .ok _ => { r with deleted := r.deleted ++ [num] }
    | .error _ => r
  | _ => r

structure RecordedState (ι : Type) where
  state : AcceptState ι Unit
  record : StreamRecord

namespace RecordedState

def new (ι : Type) (maxStreams : Nat) : RecordedState ι := ⟨.new ι Unit maxStreams, {}⟩

def Step (s : RecordedState ι) (event : AcceptEvent ι Unit) (s' : RecordedState ι) :
    Prop :=
  s.state.Step event s'.state ∧ s'.record = s.record.after s.state event

structure Limited (maxStreams : Nat) (s : RecordedState ι) : Prop where
  bounded : s.state.map.Bounded
  maxNumStreams : s.state.map.maxNumStreams = maxStreams
  opening : ∀ num, s.state.opening () = some num →
    s.state.map.nextStreamToOpen ≤ num ∧ num ≤ s.state.map.maxStream
  created : s.record.created = numbersFrom (s.state.map.nextStreamToOpen - 1).toNat 1
  accepted : s.record.accepted = numbersFrom (s.state.map.nextStreamToAccept - 1).toNat 1
  deleted : ∀ n ∈ s.record.deleted, s.state.map.Gone n

omit [DecidableEq ι] in
theorem Limited.new (maxStreams : Nat) : (new ι maxStreams).Limited maxStreams where
  bounded := .new maxStreams
  maxNumStreams := rfl
  opening := fun _ h => by cases h
  created := rfl
  accepted := rfl
  deleted := fun _ hn => (List.not_mem_nil hn).elim

variable {maxStreams : Nat} {s s' : RecordedState ι} {event : AcceptEvent ι Unit}

theorem Limited.acceptStream {caller : ι} (h : s.Limited maxStreams)
    {result : Except StreamMapError StreamNum} {m : IncomingItemsMap}
    (haccept : s.state.map.acceptStream = .returned result m) :
    Limited maxStreams (⟨{ s.state.setPhase caller .outside with map := m },
      s.record.after s.state (.lock caller)⟩ : RecordedState ι) := by
  have haccepted := h.bounded.acceptStream
  rw [haccept] at haccepted
  have hfields : result = .ok s.state.map.nextStreamToAccept ∧
      m.maxNumStreams = s.state.map.maxNumStreams ∧
      m.nextStreamToOpen = s.state.map.nextStreamToOpen ∧
      m.nextStreamToAccept = s.state.map.nextStreamToAccept + 1 ∧
      s.state.map.maxStream ≤ m.maxStream := by
    cases haccepted with
    | kept _ _ => exact ⟨rfl, rfl, rfl, rfl, le_refl _⟩
    | completed _ _ =>
      exact ⟨rfl, rfl, rfl, rfl, le_of_lt (Int.lt_succ _)⟩
  obtain ⟨rfl, hnum, hopen, hnext, hmax⟩ := hfields
  have hafter : s.record.after s.state (.lock caller) = { s.record with
        accepted := s.record.accepted ++ [s.state.map.nextStreamToAccept] } := by
    simp only [StreamRecord.after, haccept]
  have hone := h.bounded.accept.1
  rw [hafter]
  refine ⟨h.bounded.accepted haccepted, hnum.trans h.maxNumStreams, ?_, ?_, ?_, ?_⟩
  · intro num hopening
    obtain ⟨hle, hlimit⟩ := h.opening num hopening
    exact ⟨hopen.trans_le hle, hlimit.trans hmax⟩
  · simp only [hopen]
    exact h.created
  · have hlength : (m.nextStreamToAccept - 1).toNat =
        (s.state.map.nextStreamToAccept - 1).toNat + 1 := by lia
    have hcast : (1 : Int) + (s.state.map.nextStreamToAccept - 1).toNat =
        s.state.map.nextStreamToAccept := by lia
    simp only [hlength, h.accepted, numbersFrom_add, hcast]
    rfl
  · exact fun n hn => (h.deleted n hn).accepted haccepted

omit [DecidableEq ι] in
theorem Limited.openStreams (h : s.Limited maxStreams) {num : StreamNum}
    {accepting : ι → AcceptPhase} (hopening : s.state.opening () = some num) :
    Limited maxStreams (⟨{
        map := s.state.map.openStreams num
        accepting
        opening := Function.update s.state.opening () none },
      s.record.after s.state (.openStreams ())⟩ : RecordedState ι) := by
  obtain ⟨hle, hlimit⟩ := h.opening num hopening
  have hafter : s.record.after s.state (.openStreams ()) = { s.record with
        created := s.record.created ++
          numbersFrom (s.state.map.numOpened num) s.state.map.nextStreamToOpen } := by
    simp only [StreamRecord.after, hopening]
  have hone := h.bounded.accept
  rw [hafter]
  refine ⟨h.bounded.openStreams hle hlimit, h.maxNumStreams, ?_, ?_, h.accepted, ?_⟩
  · intro num' hopening'
    cases hopening'
  · have hlength : (num + 1 - 1).toNat =
        (s.state.map.nextStreamToOpen - 1).toNat + s.state.map.numOpened num := by
      unfold IncomingItemsMap.numOpened
      lia
    have hcast : (1 : Int) + (s.state.map.nextStreamToOpen - 1).toNat =
        s.state.map.nextStreamToOpen := by lia
    change s.record.created ++ _ = numbersFrom (num + 1 - 1).toNat 1
    rw [hlength, numbersFrom_add, hcast, h.created]
  · exact fun n hn => (h.deleted n hn).openStreams hle

omit [DecidableEq ι] in
theorem Limited.deleteStream (h : s.Limited maxStreams) {num : StreamNum}
    {m : IncomingItemsMap} (hdelete : s.state.map.deleteStream num = .ok m) :
    Limited maxStreams (⟨{ s.state with map := m },
      s.record.after s.state (.deleteStream num)⟩ : RecordedState ι) := by
  have hdeleted := h.bounded.deleteStream hdelete
  have hfields : m.maxNumStreams = s.state.map.maxNumStreams ∧
      m.nextStreamToOpen = s.state.map.nextStreamToOpen ∧
      m.nextStreamToAccept = s.state.map.nextStreamToAccept ∧
      s.state.map.maxStream ≤ m.maxStream := by
    cases hdeleted with
    | marked _ _ => exact ⟨rfl, rfl, rfl, le_refl _⟩
    | removed _ _ => exact ⟨rfl, rfl, rfl, le_of_lt (Int.lt_succ _)⟩
  obtain ⟨hnum, hopen, hnext, hmax⟩ := hfields
  have hafter : s.record.after s.state (.deleteStream num) =
      { s.record with deleted := s.record.deleted ++ [num] } := by
    simp only [StreamRecord.after, hdelete]
  rw [hafter]
  refine ⟨h.bounded.deleted hdeleted, hnum.trans h.maxNumStreams, ?_, ?_, ?_, ?_⟩
  · intro num hopening
    obtain ⟨hle, hlimit⟩ := h.opening num hopening
    exact ⟨hopen.trans_le hle, hlimit.trans hmax⟩
  · simp only [hopen]
    exact h.created
  · simp only [hnext]
    exact h.accepted
  · intro n hn
    rcases List.mem_append.mp hn with hn | hn
    · exact (h.deleted n hn).deleted hdeleted
    · obtain rfl := List.mem_singleton.mp hn
      exact hdeleted.gone h.bounded

theorem Limited.step (h : s.Limited maxStreams) (hstep : s.Step event s') :
    s'.Limited maxStreams := by
  obtain ⟨state', r'⟩ := s'
  obtain ⟨hstep, hrecord⟩ := hstep
  subst hrecord
  have hsame : s.record.after s.state event = s.record → ∀ accepting,
      Limited maxStreams (⟨{ s.state with accepting },
        s.record.after s.state event⟩ : RecordedState ι) := by
    intro hrecord accepting
    rw [hrecord]
    exact { h with }
  cases hstep with
  | wait hphase haccept =>
    apply hsame
    simp only [StreamRecord.after, haccept]
  | returned hphase haccept => exact h.acceptStream haccept
  | select hphase | cancel hphase => exact hsame rfl _
  | lookup hfree hlookup => exact hsame rfl _
  | @mustOpen opener num hfree hlookup =>
    refine { h with opening := ?_ }
    intro num' hopening
    simp only [Function.update_self, Option.some.injEq] at hopening
    subst hopening
    unfold IncomingItemsMap.lookupStream at hlookup
    split at hlookup
    · cases hlookup
    split at hlookup
    · split at hlookup <;> cases hlookup
    · next hlimit hnew => exact ⟨not_lt.mp hnew, not_lt.mp hlimit⟩
  | openStreams hopening hsignals => exact h.openStreams hopening
  | deleteFails hdelete =>
    apply hsame
    simp only [StreamRecord.after, hdelete]
  | deleted hdelete => exact h.deleteStream hdelete

/-- The limits and the numbers of the streams in every reachable state. -/
theorem incomingLimits {events : List (AcceptEvent ι Unit)}
    (h : Trace Step (new ι maxStreams) events s) :
    s.state.map.maxStream + s.state.map.streams.card =
        s.state.map.nextStreamToOpen - 1 + s.state.map.maxNumStreams ∧
      s.state.map.streams.card ≤ s.state.map.maxNumStreams ∧
      s.state.map.maxNumStreams = maxStreams ∧ s.state.map.queuedMaxStreams.Pairwise (· < ·) ∧
      (∀ num, s.state.map.maxStream < num →
        (∃ err, s.state.map.lookupStream num = .error err) ∧
          ∀ s', s.Step (.lookup () num) s' → s' = s) ∧
      s.record.created = numbersFrom (s.state.map.nextStreamToOpen - 1).toNat 1 ∧
      s.record.accepted = numbersFrom (s.state.map.nextStreamToAccept - 1).toNat 1 ∧
      (s.state.map.nextStreamToAccept < s.state.map.nextStreamToOpen →
        ∃ m, s.state.map.acceptStream =
          .returned (.ok s.state.map.nextStreamToAccept) m) ∧
      ∀ n ∈ s.record.deleted, s.state.map.lookupStream n = .found none ∧
        s.state.opening () ≠ some n := by
  have hlimited : s.Limited maxStreams :=
    Trace.invariant (Limited maxStreams) (Limited.new maxStreams)
      (fun _ _ _ ht hstep => ht.step hstep) h
  have hlimit := hlimited.bounded.limit
  have hopened := hlimited.bounded.opened
  refine ⟨hlimit, by lia, hlimited.maxNumStreams, hlimited.bounded.increasing, ?_,
    hlimited.created, hlimited.accepted, ?_, ?_⟩
  · intro num hnum
    have hreject : s.state.map.lookupStream num = .error
        (.streamError "peer tried to open stream %d (current limit: %d)"
          [num, s.state.map.maxStream]) := if_pos hnum
    refine ⟨⟨_, hreject⟩, ?_⟩
    rintro ⟨state', r'⟩ ⟨hstep, hrecord⟩
    simp only at hstep hrecord
    cases hstep with
    | lookup _ _ =>
      rw [hrecord]
      rfl
    | mustOpen _ hlookup =>
      rw [hreject] at hlookup
      cases hlookup
  · intro hlt
    have haccepted := hlimited.bounded.acceptStream
    generalize s.state.map.acceptStream = accepting at *
    cases haccepted with
    | wait hnone => exact absurd hnone (ne_of_lt hlt)
    | kept _ _ | completed _ _ => exact ⟨_, rfl⟩
  · intro n hn
    have hgone := hlimited.deleted n hn
    refine ⟨hgone.lookupStream hlimited.bounded, ?_⟩
    intro hopening
    exact absurd hgone.1 (not_lt.mpr (hlimited.opening n hopening).1)

theorem incomingLimits_completed : ∃ s, Trace Step (new Unit 2)
        [.lookup () 2, .openStreams (), .deleteStream 1, .lock ()] s ∧
      s.record.created = [1, 2] ∧ s.record.accepted = [1] ∧ s.record.deleted = [1] ∧
      s.state.map.queuedMaxStreams = [3] ∧
      s.state.map.lookupStream 1 = .found none := by
  let opening : RecordedState Unit :=
    ⟨{ AcceptState.new Unit Unit 2 with
       opening := Function.update (fun _ => none) () (some 2) }, {}⟩
  let opened : RecordedState Unit :=
    ⟨{ map := (IncomingItemsMap.new 2).openStreams 2
       accepting := fun _ => .outside
       opening := Function.update opening.state.opening () none },
      { created := [1, 2] }⟩
  let marked : RecordedState Unit :=
    ⟨{ opened.state with map := { opened.state.map with streamsToDelete := {1} } },
      { created := [1, 2], deleted := [1] }⟩
  let accepted : RecordedState Unit :=
    ⟨{ marked.state.setPhase () .outside with
       map := marked.state.map.acceptNext.removeStream 1 },
      { created := [1, 2], accepted := [1], deleted := [1] }⟩
  have hopening : Step (new Unit 2) (.lookup () 2) opening := ⟨.mustOpen rfl rfl, rfl⟩
  have hopened : Step opening (.openStreams ()) opened :=
    ⟨.openStreams rfl (.missed (fun _ h => by cases h)
      (.missed (fun _ h => by cases h) .done)), rfl⟩
  have hmarked : Step opened (.deleteStream 1) marked := ⟨.deleted rfl, rfl⟩
  have haccepted : Step marked (.lock ()) accepted := ⟨.returned (.inl rfl) rfl, rfl⟩
  have hrun : Trace Step (new Unit 2)
      [.lookup () 2, .openStreams (), .deleteStream 1, .lock ()] accepted :=
    .snoc (.snoc (.snoc (.snoc .nil hopening) hopened) hmarked) haccepted
  have hlimits := incomingLimits hrun
  exact ⟨accepted, hrun, rfl, rfl, rfl, rfl,
    (hlimits.2.2.2.2.2.2.2.2 1 List.mem_cons_self).1⟩

end RecordedState

end Runs

end Qperf.Quic
