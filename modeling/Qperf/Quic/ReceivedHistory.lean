import Qperf.Quic.ReceivedPackets

/-!
# The history of received packets

The ranges of a history are disjoint, ascending and do not touch.  They hold the packet
numbers that were received and not deleted: all of them as long as there were never more
than `MaxNumAckRanges` ranges, as the oldest ranges are forgotten then.
-/

namespace Qperf.Quic

open Qperf.Foundation

/-! ## Lists of ranges -/

def PacketInterval.Contains (r : PacketInterval) (n : PacketNumber) : Prop :=
  r.start ≤ n ∧ n ≤ r.last

def InRanges (ranges : List PacketInterval) (n : PacketNumber) : Prop :=
  ∃ r ∈ ranges, r.Contains n

structure Ascending (ranges : List PacketInterval) : Prop where
  apart : ranges.Pairwise fun a b => a.last + 1 < b.start
  nonempty : ∀ r ∈ ranges, r.start ≤ r.last

/-- From the back to the front, as the loop of `addToRanges` goes through them. -/
@[mk_iff]
structure Descending (ranges : List PacketInterval) : Prop where
  apart : ranges.Pairwise fun a b => b.last + 1 < a.start
  nonempty : ∀ r ∈ ranges, r.start ≤ r.last

theorem ascending_reverse {ranges : List PacketInterval} :
    Ascending ranges.reverse ↔ Descending ranges := by
  constructor
  · intro h
    exact ⟨List.pairwise_reverse.mp h.apart, fun r hr => h.nonempty r (by simpa using hr)⟩
  · intro h
    exact ⟨List.pairwise_reverse.mpr h.apart, fun r hr => h.nonempty r (by simpa using hr)⟩

@[simp]
theorem inRanges_nil (n : PacketNumber) : InRanges [] n ↔ False := by
  simp [InRanges]

@[simp]
theorem inRanges_cons (r : PacketInterval) (ranges : List PacketInterval)
    (n : PacketNumber) : InRanges (r :: ranges) n ↔ r.Contains n ∨ InRanges ranges n := by
  simp [InRanges]

@[simp]
theorem inRanges_reverse (ranges : List PacketInterval) (n : PacketNumber) :
    InRanges ranges.reverse n ↔ InRanges ranges n := by
  simp [InRanges]

theorem descending_cons {r : PacketInterval} {ranges : List PacketInterval} :
    Descending (r :: ranges) ↔
      r.start ≤ r.last ∧ (∀ b ∈ ranges, b.last + 1 < r.start) ∧ Descending ranges := by
  rw [descending_iff, descending_iff, pairwise_forall_cons]

namespace ReceivedPacketHistory

variable {ranges : List PacketInterval} {p n : PacketNumber}

/-! ## One packet -/

private theorem inRanges_mergeDown (el : PacketInterval) (hel : el.start ≤ el.last)
    (h : Descending ranges) :
    InRanges (mergeDown el ranges) n ↔ el.Contains n ∨ InRanges ranges n := by
  cases ranges with
  | nil => simp [mergeDown]
  | cons prev before =>
    obtain ⟨hprev, -, -⟩ := descending_cons.mp h
    rw [mergeDown]
    split
    · simp only [inRanges_cons, PacketInterval.Contains]
      grind
    · simp only [inRanges_cons]

theorem descending_mergeDown (h : Descending ranges) {el : PacketInterval}
    (hel : el.start ≤ el.last) (hbelow : ∀ b ∈ ranges, b.last < el.start) :
    Descending (mergeDown el ranges) := by
  cases ranges with
  | nil => exact descending_cons.mpr ⟨hel, fun _ hb => (List.not_mem_nil hb).elim, h⟩
  | cons prev before =>
    obtain ⟨hprev, hbefore, hrest⟩ := descending_cons.mp h
    have hlt := hbelow prev List.mem_cons_self
    rw [mergeDown]
    split
    · exact descending_cons.mpr ⟨by simp only; lia, hbefore, hrest⟩
    · refine descending_cons.mpr ⟨hel, List.forall_mem_cons.mpr ⟨by lia, ?_⟩, h⟩
      intro b hb
      have := hbefore b hb
      lia

theorem inRanges_addLoop (h : Descending ranges) :
    InRanges (addLoop p ranges) n ↔ n = p ∨ InRanges ranges n := by
  induction ranges with
  | nil => simp [addLoop, PacketInterval.Contains, le_antisymm_iff, and_comm]
  | cons el before ih =>
    obtain ⟨hel, -, hrest⟩ := descending_cons.mp h
    rw [addLoop]
    split_ifs with hin hlast hstart hgt
    · rw [inRanges_cons]
      unfold PacketInterval.Contains
      grind
    · rw [inRanges_mergeDown _ (by simp only; lia) hrest, inRanges_cons]
      unfold PacketInterval.Contains
      grind
    · rw [inRanges_mergeDown _ (by simp only; lia) hrest, inRanges_cons]
      unfold PacketInterval.Contains
      grind
    · rw [inRanges_cons]
      unfold PacketInterval.Contains
      grind
    · rw [inRanges_cons, ih hrest, inRanges_cons]
      tauto

theorem descending_addLoop (h : Descending ranges) : Descending (addLoop p ranges) := by
  induction ranges with
  | nil =>
    exact descending_cons.mpr ⟨le_refl p, fun _ hb => (List.not_mem_nil hb).elim, h⟩
  | cons el before ih =>
    obtain ⟨hel, hbelow, hrest⟩ := descending_cons.mp h
    rw [addLoop]
    split_ifs with hin hlast hstart hgt
    · exact h
    · apply descending_mergeDown hrest (by simp only; lia)
      intro b hb
      have := hbelow b hb
      lia
    · apply descending_mergeDown hrest (by simp only; lia)
      intro b hb
      have := hbelow b hb
      lia
    · refine descending_cons.mpr ⟨le_refl p, ?_, h⟩
      refine List.forall_mem_cons.mpr ⟨by simp only; lia, ?_⟩
      intro b hb
      have := hbelow b hb
      lia
    · have hadded := ih hrest
      refine descending_cons.mpr ⟨hel, ?_, hadded⟩
      intro b hb
      -- The last number of `b` is `p` or in one of the ranges before.
      have hlast' : InRanges (addLoop p before) b.last :=
        ⟨b, hb, hadded.nonempty b hb, le_refl _⟩
      rcases (inRanges_addLoop hrest).mp hlast' with heq | ⟨r, hr, hr'⟩
      · lia
      · have := hbelow r hr
        have := hr'.2
        lia

/-! ## Deletion -/

theorem inRanges_deleteLoop (h : Ascending ranges) :
    InRanges (deleteLoop p ranges) n ↔ p ≤ n ∧ InRanges ranges n := by
  induction ranges with
  | nil => simp [deleteLoop]
  | cons el after ih =>
    obtain ⟨hafter, hapart⟩ := List.pairwise_cons.mp h.apart
    obtain ⟨hel, hnonempty⟩ := List.forall_mem_cons.mp h.nonempty
    have habove : InRanges after n → el.last < n := by
      rintro ⟨r, hr, hr'⟩
      have := hafter r hr
      have := hr'.1
      lia
    rw [deleteLoop]
    split_ifs with hbelow hcut
    · rw [ih ⟨hapart, hnonempty⟩, inRanges_cons]
      unfold PacketInterval.Contains
      grind
    · rw [inRanges_cons, inRanges_cons]
      unfold PacketInterval.Contains
      grind
    · rw [inRanges_cons]
      unfold PacketInterval.Contains
      grind

private theorem ascending_deleteLoop (h : Ascending ranges) : Ascending (deleteLoop p ranges) := by
  induction ranges with
  | nil => exact h
  | cons el after ih =>
    obtain ⟨hafter, hapart⟩ := List.pairwise_cons.mp h.apart
    obtain ⟨hel, hnonempty⟩ := List.forall_mem_cons.mp h.nonempty
    rw [deleteLoop]
    split_ifs with hbelow hcut
    · exact ih ⟨hapart, hnonempty⟩
    · exact ⟨List.pairwise_cons.mpr ⟨hafter, hapart⟩,
        List.forall_mem_cons.mpr ⟨hcut.2, hnonempty⟩⟩
    · exact h

private theorem length_deleteLoop_le : (deleteLoop p ranges).length ≤ ranges.length := by
  induction ranges with
  | nil => exact Nat.le_refl 0
  | cons el after ih =>
    rw [deleteLoop]
    split_ifs
    · exact Nat.le_succ_of_le ih
    · exact Nat.le_refl _
    · exact Nat.le_refl _

/-! ## Calls -/

variable {h : ReceivedPacketHistory}

private theorem ascending_addToRanges (hranges : Ascending h.ranges) :
    Ascending (h.addToRanges p).ranges := by
  rw [← List.reverse_reverse h.ranges, ascending_reverse] at hranges
  exact ascending_reverse.mpr (descending_addLoop hranges)

private theorem inRanges_addToRanges (hranges : Ascending h.ranges) :
    InRanges (h.addToRanges p).ranges n ↔ n = p ∨ InRanges h.ranges n := by
  rw [← List.reverse_reverse h.ranges, ascending_reverse] at hranges
  rw [addToRanges, inRanges_reverse, inRanges_addLoop hranges, inRanges_reverse]

theorem ranges_maybeDeleteOldRanges (h : ReceivedPacketHistory) :
    h.maybeDeleteOldRanges.ranges = h.ranges.drop (h.ranges.length - maxNumAckRanges) := by
  rw [maybeDeleteOldRanges]

private theorem ascending_maybeDeleteOldRanges (hranges : Ascending h.ranges) :
    Ascending h.maybeDeleteOldRanges.ranges := by
  rw [ranges_maybeDeleteOldRanges]
  exact ⟨hranges.apart.sublist (List.drop_sublist ..),
    fun r hr => hranges.nonempty r (List.mem_of_mem_drop hr)⟩

private theorem inRanges_of_maybeDeleteOldRanges
    (hn : InRanges h.maybeDeleteOldRanges.ranges n) : InRanges h.ranges n := by
  rw [ranges_maybeDeleteOldRanges] at hn
  obtain ⟨r, hr, hcontains⟩ := hn
  exact ⟨r, List.mem_of_mem_drop hr, hcontains⟩

private theorem maybeDeleteOldRanges_of_le (hle : h.ranges.length ≤ maxNumAckRanges) :
    h.maybeDeleteOldRanges = h := by
  rw [maybeDeleteOldRanges, Nat.sub_eq_zero_of_le hle]
  rfl

private theorem length_maybeDeleteOldRanges_le :
    h.maybeDeleteOldRanges.ranges.length ≤ maxNumAckRanges := by
  rw [ranges_maybeDeleteOldRanges, List.length_drop]
  omega

theorem validateAckRanges_getAckRanges (hranges : Ascending h.ranges)
    (hne : h.ranges ≠ []) (delayTime : Int) :
    AckFrame.validateAckRanges ⟨h.getAckRanges, delayTime⟩ = true := by
  have hdescend : ∀ l, Descending l →
      AckFrame.rangesDescend (l.map fun r => (⟨r.start, r.last⟩ : AckRange)) = true := by
    intro l hl
    induction l with
    | nil => rfl
    | cons r l ih =>
      obtain ⟨-, hbelow, hrest⟩ := descending_cons.mp hl
      cases l with
      | nil => rfl
      | cons b l =>
        have hb := hbelow b List.mem_cons_self
        have hnonempty := (descending_cons.mp hrest).1
        simp only [List.map_cons, AckFrame.rangesDescend, Bool.and_eq_true,
          decide_eq_true_eq]
        exact ⟨⟨by lia, by lia⟩, ih hrest⟩
  rw [← List.reverse_reverse h.ranges, ascending_reverse] at hranges
  simp only [AckFrame.validateAckRanges, getAckRanges, Bool.and_eq_true,
    Bool.not_eq_true', List.isEmpty_eq_false_iff, List.all_eq_true, decide_eq_true_eq]
  refine ⟨⟨by simpa using hne, ?_⟩, hdescend _ hranges⟩
  intro r hr
  obtain ⟨interval, hinterval, rfl⟩ := List.mem_map.mp hr
  exact hranges.nonempty interval hinterval

end ReceivedPacketHistory

/-! ## Runs -/

inductive HistoryEvent where
  | receivedPacket (p : PacketNumber)
  | deleteBelow (q : PacketNumber)
  deriving DecidableEq, Repr

structure HistoryState where
  history : ReceivedPacketHistory := {}
  received : List PacketNumber := []
  deleted : List PacketNumber := []
  exceeded : Bool := false
  deriving DecidableEq, Repr

namespace HistoryState

def step (s : HistoryState) : HistoryEvent → HistoryState
  | .receivedPacket p =>
    { s with
      history := s.history.receivedPacket p
      received := p :: s.received
      exceeded := s.exceeded || (s.history.deletedBelow ≤ p &&
        decide (maxNumAckRanges < (s.history.addToRanges p).ranges.length)) }
  | .deleteBelow q =>
    { s with
      history := s.history.deleteBelow q
      deleted := q :: s.deleted }

def run (events : List HistoryEvent) : HistoryState := events.foldl step {}

/-- The numbers that the history is meant to hold. -/
def Kept (s : HistoryState) (n : PacketNumber) : Prop :=
  n ∈ s.received ∧ ∀ q ∈ s.deleted, q ≤ n

structure Invariant (s : HistoryState) : Prop where
  ascending : Ascending s.history.ranges
  length : s.history.ranges.length ≤ maxNumAckRanges
  deletedBelow : 0 ≤ s.history.deletedBelow
  received : ∀ p ∈ s.received, 0 ≤ p
  deleted : ∀ n, 0 ≤ n → (s.history.deletedBelow ≤ n ↔ ∀ q ∈ s.deleted, q ≤ n)
  sound : ∀ n, InRanges s.history.ranges n → s.Kept n
  exact : s.exceeded = false → ∀ n, s.Kept n → InRanges s.history.ranges n

theorem Invariant.new : ({} : HistoryState).Invariant where
  ascending := ⟨.nil, fun _ hr => (List.not_mem_nil hr).elim⟩
  length := by decide
  deletedBelow := le_refl 0
  received := fun _ hp => (List.not_mem_nil hp).elim
  deleted := fun n hn => ⟨fun _ _ hq => (List.not_mem_nil hq).elim, fun _ => hn⟩
  sound := fun n hn => ((inRanges_nil n).mp hn).elim
  exact := fun _ _ hn => (List.not_mem_nil hn.1).elim

variable {s : HistoryState} {p q : PacketNumber}

theorem Kept.receivedPacket_iff {n : PacketNumber} :
    (s.step (.receivedPacket p)).Kept n ↔ n = p ∧ (∀ q ∈ s.deleted, q ≤ n) ∨ s.Kept n := by
  simp only [Kept, step, List.mem_cons]
  tauto

theorem Kept.deleteBelow_iff {n : PacketNumber} :
    (s.step (.deleteBelow q)).Kept n ↔ q ≤ n ∧ s.Kept n := by
  simp only [Kept, step, List.forall_mem_cons]
  tauto

theorem Invariant.ignoredPacket (h : s.Invariant) (hp : 0 ≤ p)
    (hignored : p < s.history.deletedBelow) :
    (s.step (.receivedPacket p)).Invariant := by
  have hhistory : (s.step (.receivedPacket p)).history = s.history := if_pos hignored
  have hexceeded : (s.step (.receivedPacket p)).exceeded = s.exceeded := by
    simp [step, hignored]
  refine ⟨?_, ?_, ?_, List.forall_mem_cons.mpr ⟨hp, h.received⟩, ?_, ?_, ?_⟩
  · exact hhistory ▸ h.ascending
  · exact hhistory ▸ h.length
  · exact hhistory ▸ h.deletedBelow
  · exact hhistory ▸ h.deleted
  · intro n hn
    exact Kept.receivedPacket_iff.mpr (.inr (h.sound n (hhistory ▸ hn)))
  · intro hexact n hn
    rw [hhistory]
    rcases Kept.receivedPacket_iff.mp hn with ⟨rfl, hdeleted⟩ | hkept
    · exact absurd ((h.deleted n hp).mpr hdeleted) (not_le.mpr hignored)
    · exact h.exact (hexceeded ▸ hexact) n hkept

theorem Invariant.addedPacket (h : s.Invariant) (hp : 0 ≤ p)
    (hadded : s.history.deletedBelow ≤ p) :
    (s.step (.receivedPacket p)).Invariant := by
  have hhistory : (s.step (.receivedPacket p)).history =
      (s.history.addToRanges p).maybeDeleteOldRanges := if_neg (not_lt.mpr hadded)
  have hdeletedBelow : (s.step (.receivedPacket p)).history.deletedBelow =
      s.history.deletedBelow := ReceivedPacketHistory.receivedPacket_deletedBelow
  refine ⟨?_, ?_, ?_, List.forall_mem_cons.mpr ⟨hp, h.received⟩, ?_, ?_, ?_⟩
  · rw [hhistory]
    exact ReceivedPacketHistory.ascending_maybeDeleteOldRanges
      (ReceivedPacketHistory.ascending_addToRanges h.ascending)
  · rw [hhistory]
    exact ReceivedPacketHistory.length_maybeDeleteOldRanges_le
  · exact hdeletedBelow ▸ h.deletedBelow
  · exact hdeletedBelow ▸ h.deleted
  · intro n hn
    rw [hhistory] at hn
    have hin := ReceivedPacketHistory.inRanges_of_maybeDeleteOldRanges hn
    rcases (ReceivedPacketHistory.inRanges_addToRanges h.ascending).mp hin with rfl | hin
    · exact Kept.receivedPacket_iff.mpr (.inl ⟨rfl, (h.deleted n hp).mp hadded⟩)
    · exact Kept.receivedPacket_iff.mpr (.inr (h.sound n hin))
  · intro hexact n hn
    simp only [step, hadded, decide_true, Bool.true_and, Bool.or_eq_false_iff,
      decide_eq_false_iff_not, not_lt] at hexact
    rw [hhistory, ReceivedPacketHistory.maybeDeleteOldRanges_of_le hexact.2,
      ReceivedPacketHistory.inRanges_addToRanges h.ascending]
    rcases Kept.receivedPacket_iff.mp hn with ⟨rfl, -⟩ | hkept
    · exact .inl rfl
    · exact .inr (h.exact hexact.1 n hkept)

theorem Invariant.deleteBelow (h : s.Invariant) (q : PacketNumber) :
    (s.step (.deleteBelow q)).Invariant := by
  by_cases hq : q < s.history.deletedBelow
  · have hhistory : (s.step (.deleteBelow q)).history = s.history := if_pos hq
    refine ⟨?_, ?_, ?_, h.received, ?_, ?_, ?_⟩
    · exact hhistory ▸ h.ascending
    · exact hhistory ▸ h.length
    · exact hhistory ▸ h.deletedBelow
    · intro n hn
      rw [hhistory, h.deleted n hn]
      refine ⟨fun hall => List.forall_mem_cons.mpr ⟨?_, hall⟩,
        fun hall => (List.forall_mem_cons.mp hall).2⟩
      exact hq.le.trans ((h.deleted n hn).mpr hall)
    · intro n hn
      have hkept := h.sound n (hhistory ▸ hn)
      have hle := (h.deleted n (h.received n hkept.1)).mpr hkept.2
      exact Kept.deleteBelow_iff.mpr ⟨hq.le.trans hle, hkept⟩
    · intro hexact n hn
      rw [hhistory]
      exact h.exact hexact n (Kept.deleteBelow_iff.mp hn).2
  · have hle := not_lt.mp hq
    have hhistory : (s.step (.deleteBelow q)).history =
        { ranges := ReceivedPacketHistory.deleteLoop q s.history.ranges
          deletedBelow := q } := if_neg hq
    refine ⟨?_, ?_, ?_, h.received, ?_, ?_, ?_⟩
    · rw [hhistory]
      exact ReceivedPacketHistory.ascending_deleteLoop h.ascending
    · rw [hhistory]
      exact ReceivedPacketHistory.length_deleteLoop_le.trans h.length
    · rw [hhistory]
      exact h.deletedBelow.trans hle
    · intro n hn
      rw [hhistory]
      refine ⟨fun hqn => List.forall_mem_cons.mpr ⟨hqn, ?_⟩,
        fun hall => (List.forall_mem_cons.mp hall).1⟩
      exact (h.deleted n hn).mp (hle.trans hqn)
    · intro n hn
      rw [hhistory] at hn
      have hin := (ReceivedPacketHistory.inRanges_deleteLoop h.ascending).mp hn
      exact Kept.deleteBelow_iff.mpr ⟨hin.1, h.sound n hin.2⟩
    · intro hexact n hn
      obtain ⟨hqn, hkept⟩ := Kept.deleteBelow_iff.mp hn
      rw [hhistory]
      exact (ReceivedPacketHistory.inRanges_deleteLoop h.ascending).mpr
        ⟨hqn, h.exact hexact n hkept⟩

theorem Invariant.step (h : s.Invariant) {event : HistoryEvent}
    (hevent : ∀ p, event = .receivedPacket p → 0 ≤ p) : (s.step event).Invariant := by
  cases event with
  | receivedPacket p =>
    by_cases hignored : p < s.history.deletedBelow
    · exact h.ignoredPacket (hevent p rfl) hignored
    · exact h.addedPacket (hevent p rfl) (not_lt.mp hignored)
  | deleteBelow q => exact h.deleteBelow q

theorem Invariant.foldl (h : s.Invariant) {events : List HistoryEvent}
    (hevents : ∀ p, .receivedPacket p ∈ events → 0 ≤ p) :
    (events.foldl HistoryState.step s).Invariant := by
  induction events generalizing s with
  | nil => exact h
  | cons event events ih =>
    apply ih
    · exact h.step fun p hp => hevents p (hp ▸ List.mem_cons_self)
    · exact fun p hp => hevents p (List.mem_cons_of_mem _ hp)

theorem run_ranges (events : List HistoryEvent)
    (hevents : ∀ p, .receivedPacket p ∈ events → 0 ≤ p) :
    Ascending (run events).history.ranges ∧ (run events).history.ranges.length ≤ 500 ∧
      (∀ n, InRanges (run events).history.ranges n → (run events).Kept n) ∧
      ((run events).exceeded = false →
        ∀ n, InRanges (run events).history.ranges n ↔ (run events).Kept n) ∧
      ((run events).history.ranges ≠ [] → ∀ delayTime,
        AckFrame.validateAckRanges ⟨(run events).history.getAckRanges, delayTime⟩ =
          true) := by
  have hrun : (run events).Invariant := Invariant.new.foldl hevents
  refine ⟨hrun.ascending, hrun.length, hrun.sound, ?_, ?_⟩
  · intro hexact n
    exact ⟨hrun.sound n, hrun.exact hexact n⟩
  · intro hne delayTime
    exact ReceivedPacketHistory.validateAckRanges_getAckRanges hrun.ascending hne delayTime

theorem run_ranges_merged :
    (run [.receivedPacket 3, .receivedPacket 5, .receivedPacket 4,
        .deleteBelow 4]).history.ranges = [⟨4, 5⟩] ∧ ∀ n, InRanges [⟨4, 5⟩] n ↔
        (run [.receivedPacket 3, .receivedPacket 5, .receivedPacket 4,
          .deleteBelow 4]).Kept n := by
  have hranges : (run [.receivedPacket 3, .receivedPacket 5, .receivedPacket 4,
      .deleteBelow 4]).history.ranges = [⟨4, 5⟩] := by decide
  have hrun := run_ranges
    [.receivedPacket 3, .receivedPacket 5, .receivedPacket 4, .deleteBelow 4]
    (by simp)
  exact ⟨hranges, hranges ▸ hrun.2.2.2.1 (by decide)⟩

end HistoryState

end Qperf.Quic
