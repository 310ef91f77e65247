import Mathlib.Data.List.Chain
import Mathlib.Data.List.DropRight
import Qperf.Quic.AckedPackets
import Qperf.Quic.SentHistory

/-!
# Skipped packet numbers

The generator leaves out a packet number from time to time and remembers the last ones
it left out.  A peer that acknowledges one of these has not seen the packets it
acknowledges.  Where the next number to skip lies does not matter for this.
-/

namespace Qperf.Quic

open Qperf.Foundation

structure Numbering where
  generator : PacketNumberGenerator
  popped : List PacketNumber

namespace Numbering

def new (initial averagePeriod : PacketNumber) (num : UInt16) : Numbering :=
  ⟨.new initial averagePeriod num, []⟩

def pop (s : Numbering) (num : UInt16) : Numbering :=
  ⟨(s.generator.pop num).2, s.popped ++ [(s.generator.pop num).1]⟩

/-- The numbers below the next one that were never returned, in ascending order. -/
def skipped (initial : PacketNumber) (s : Numbering) : List PacketNumber :=
  ((List.range (s.generator.next - initial).toNat).map
    fun i : Nat => initial + (i : Int)).filter
      fun n => !s.popped.contains n

variable {initial : PacketNumber} {s : Numbering}

/-! ## One pop -/

inductive PopCase (g : PacketNumberGenerator) : PacketNumberGenerator → Prop where
  | next : PopCase g { g with next := g.next + 1 }
  | skip (nextToSkip : PacketNumber) :
      PopCase g { g with
        next := g.next + 2
        nextToSkip
        history :=
          (if g.history.length + 1 > maxTrackedSkippedPackets then g.history.tail
          else g.history) ++ [g.next + 1] }

private theorem pop_cases (g : PacketNumberGenerator) (num : UInt16) : PopCase g (g.pop num).2 := by
  unfold PacketNumberGenerator.pop
  dsimp only
  split
  · have hnext : g.next + 1 + 1 = g.next + 2 := by lia
    rw [hnext]
    exact .skip _
  · exact .next

theorem mem_skipped {n : PacketNumber} :
    n ∈ s.skipped initial ↔ initial ≤ n ∧ n < s.generator.next ∧ n ∉ s.popped := by
  simp only [skipped, List.mem_filter, List.mem_map, List.mem_range, Bool.not_eq_true',
    List.contains_eq_mem, decide_eq_false_iff_not]
  constructor
  · rintro ⟨⟨i, hi, rfl⟩, hnot⟩
    exact ⟨by lia, by lia, hnot⟩
  · rintro ⟨hle, hlt, hnot⟩
    exact ⟨⟨(n - initial).toNat, by lia, by lia⟩, hnot⟩

structure Tracked (initial : PacketNumber) (s : Numbering) : Prop where
  start : initial ≤ s.generator.next
  below : ∀ n ∈ s.popped, n < s.generator.next
  chain : s.popped.IsChain fun a b => b = a + 1 ∨ b = a + 2
  last : ∀ n, s.popped.getLast? = some n →
    s.generator.next = n + 1 ∨ s.generator.next = n + 2
  apart : ∀ n ∈ s.skipped initial, n + 1 ∉ s.skipped initial
  history : s.generator.history = (s.skipped initial).rtake maxTrackedSkippedPackets

private theorem tracked_new (initial averagePeriod : PacketNumber) (num : UInt16) :
    Tracked initial (new initial averagePeriod num) := by
  have hskipped : (new initial averagePeriod num).skipped initial = [] := by
    change (List.map _ (List.range (initial - initial).toNat)).filter _ = []
    rw [sub_self]
    rfl
  refine ⟨le_refl _, List.forall_mem_nil _, .nil, by simp [new], ?_, ?_⟩
  · rw [hskipped]
    exact List.forall_mem_nil _
  · rw [hskipped, List.rtake_nil]
    rfl

theorem skipped_add (h : Tracked initial s) {g : PacketNumberGenerator} {k : Nat}
    (hnext : g.next = s.generator.next + (k + 1 : Nat)) :
    (⟨g, s.popped ++ [s.generator.next]⟩ : Numbering).skipped initial =
      s.skipped initial ++ (List.range k).map
        fun i : Nat => s.generator.next + 1 + (i : Int) := by
  have hstart := h.start
  have hlength : (g.next - initial).toNat =
      (s.generator.next - initial).toNat + (k + 1) := by lia
  unfold skipped
  rw [hlength, List.range_add, List.map_append, List.filter_append]
  congr 1
  · apply List.filter_congr
    intro n hn
    obtain ⟨i, hi, rfl⟩ := List.mem_map.mp hn
    have hne : initial + (i : Int) ≠ s.generator.next := by
      have := List.mem_range.mp hi
      lia
    simp [hne]
  · rw [List.range_succ_eq_map]
    simp only [List.map_cons, List.map_map]
    rw [List.filter_cons_of_neg]
    · rw [List.filter_eq_self.mpr]
      · apply List.map_congr_left
        intro i _
        lia
      · intro n hn
        obtain ⟨i, -, rfl⟩ := List.mem_map.mp hn
        have hnot : ∀ m ∈ s.popped, m ≠ s.generator.next + 1 + i := by
          intro m hm heq
          have := h.below m hm
          lia
        simp only [Function.comp_apply, Bool.not_eq_true', List.contains_eq_mem,
          decide_eq_false_iff_not, List.mem_append, List.mem_singleton, not_or]
        constructor
        · intro hmem
          refine hnot _ hmem ?_
          lia
        · lia
    · have hfirst : initial + ((s.generator.next - initial).toNat + 0 : Nat) =
          s.generator.next := by lia
      simp only [hfirst]
      simp

private theorem rtake_concat (l : List PacketNumber) (n : PacketNumber) :
    (if (l.rtake maxTrackedSkippedPackets).length + 1 > maxTrackedSkippedPackets then
        (l.rtake maxTrackedSkippedPackets).tail
      else l.rtake maxTrackedSkippedPackets) ++ [n] =
      (l ++ [n]).rtake maxTrackedSkippedPackets := by
  unfold maxTrackedSkippedPackets
  rw [List.rtake_concat_succ]
  congr 1
  simp only [List.rtake, List.length_drop, List.tail_drop]
  split
  · congr 1
    lia
  · congr 1
    lia

theorem Tracked.pop (h : Tracked initial s) (num : UInt16) :
    Tracked initial (s.pop num) := by
  have hstart := h.start
  have hcase := pop_cases s.generator num
  unfold Numbering.pop
  rw [SentPacketHandler.pop_fst]
  generalize (s.generator.pop num).2 = g at hcase ⊢
  have hchain : (s.popped ++ [s.generator.next]).IsChain fun a b => b = a + 1 ∨ b = a + 2 := by
    refine List.isChain_append.mpr ⟨h.chain, List.isChain_singleton _, ?_⟩
    intro n hn m hm
    cases hm
    exact h.last n hn
  have hbelow : s.generator.next < g.next → ∀ n ∈ s.popped ++ [s.generator.next], n < g.next := by
    intro hlt n hn
    rcases List.mem_append.mp hn with hn | hn
    · exact (h.below n hn).trans hlt
    · rwa [List.mem_singleton.mp hn]
  cases hcase with
  | next =>
    have hskipped := skipped_add h
      (g := { s.generator with next := s.generator.next + 1 }) (k := 0) rfl
    rw [List.range_zero, List.map_nil, List.append_nil] at hskipped
    refine ⟨?_, hbelow (Int.lt_succ _), hchain, ?_, ?_, ?_⟩
    · lia
    · intro n hn
      rw [List.getLast?_concat, Option.some.injEq] at hn
      exact .inl (congrArg (· + 1) hn)
    · rw [hskipped]
      exact h.apart
    · rw [hskipped]
      exact h.history
  | skip nextToSkip =>
    have hskipped := skipped_add h (g := { s.generator with
      next := s.generator.next + 2
      nextToSkip
      history := (if s.generator.history.length + 1 > maxTrackedSkippedPackets then
          s.generator.history.tail
        else s.generator.history) ++ [s.generator.next + 1] }) (k := 1) rfl
    have hone : ((List.range 1).map fun i : Nat => s.generator.next + 1 + (i : Int)) =
        [s.generator.next + 1] := by simp
    rw [hone] at hskipped
    refine ⟨?_, hbelow (by dsimp only; lia), hchain, ?_, ?_, ?_⟩
    · lia
    · intro n hn
      rw [List.getLast?_concat, Option.some.injEq] at hn
      exact .inr (congrArg (· + 2) hn)
    · -- The number in front of the new one was returned.
      rw [hskipped]
      intro n hn hn'
      rcases List.mem_append.mp hn' with hold | hnew
      · rcases List.mem_append.mp hn with hn | hn
        · exact h.apart n hn hold
        · have := (mem_skipped.mp hold).2.1
          rw [List.mem_singleton.mp hn] at this
          lia
      · have hnext := List.mem_singleton.mp hnew
        rcases List.mem_append.mp hn with hn | hn
        · have := (mem_skipped.mp hn).2.1
          lia
        · have := List.mem_singleton.mp hn
          lia
    · rw [hskipped, ← rtake_concat, ← h.history]

/-! ## Validation -/

private theorem validateLoop_eq {ack : AckFrame} (h : ack.validateAckRanges = true)
    (history : List PacketNumber) :
    PacketNumberGenerator.validateLoop ack history =
      .ok (decide (∀ pn ∈ history, ¬ ack.Acks pn)) := by
  induction history with
  | nil => simp [PacketNumberGenerator.validateLoop]
  | cons pn history ih =>
    rw [PacketNumberGenerator.validateLoop, ack.acksPacket_eq h, ok_bind, ih]
    by_cases hacks : ack.Acks pn
    · simp [hacks]
      rfl
    · simp [hacks]

def run (initial averagePeriod : PacketNumber) (first : UInt16) (nums : List UInt16) :
    Numbering :=
  nums.foldl pop (new initial averagePeriod first)

private theorem tracked_run (initial averagePeriod : PacketNumber) (first : UInt16)
    (nums : List UInt16) : Tracked initial (run initial averagePeriod first nums) :=
  List.foldlRecOn nums pop (tracked_new initial averagePeriod first)
    fun _ h num _ => h.pop num

/--
Whatever the random numbers are, the numbers that are returned go up by 1 or 2, and an
ACK frame is refused if it has one of the numbers skipped last, but not if it has only
numbers that were returned.
-/
theorem skippedNumbers_protect (initial averagePeriod : PacketNumber) (first : UInt16)
    (nums : List UInt16) (s : Numbering) (hs : s = run initial averagePeriod first nums) :
    (s.popped.IsChain fun a b => b = a + 1 ∨ b = a + 2) ∧
    (∀ num, s.generator.peek = (s.generator.pop num).1) ∧
    (∀ n ∈ s.skipped initial, n + 1 ∉ s.skipped initial) ∧
    ∀ ack : AckFrame, ack.validateAckRanges = true →
      ((∀ p, ack.Acks p → p ∈ s.popped) → s.generator.validate ack = .ok true) ∧
      ∀ p ∈ (s.skipped initial).rtake maxTrackedSkippedPackets, ack.Acks p →
        s.generator.validate ack = .ok false := by
  have h : Tracked initial s := hs ▸ tracked_run initial averagePeriod first nums
  refine ⟨h.chain, fun num => (SentPacketHandler.pop_fst _ num).symm, h.apart, ?_⟩
  intro ack hvalid
  rw [PacketNumberGenerator.validate, validateLoop_eq hvalid, h.history]
  constructor
  · intro hpopped
    refine congrArg Except.ok (decide_eq_true fun pn hpn hacks => ?_)
    exact (mem_skipped.mp (List.mem_of_mem_drop hpn)).2.2 (hpopped pn hacks)
  · intro p hp hacks
    exact congrArg Except.ok (decide_eq_false fun hnone => hnone p hp hacks)

theorem skippedNumbers_protect_shortPeriod :
    (run 0 1 0 [0, 0, 0, 0]).popped = [0, 1, 3, 4] ∧ (run 0 1 0 [0, 0, 0, 0]).skipped 0 = [2, 5] ∧
      (run 0 1 0 [0, 0, 0, 0]).generator.validate ⟨[⟨3, 4⟩, ⟨0, 1⟩], 0⟩ = .ok true ∧
      (run 0 1 0 [0, 0, 0, 0]).generator.validate ⟨[⟨0, 4⟩], 0⟩ = .ok false := by
  have hpopped : (run 0 1 0 [0, 0, 0, 0]).popped = [0, 1, 3, 4] := by decide +kernel
  have hskipped : (run 0 1 0 [0, 0, 0, 0]).skipped 0 = [2, 5] := by decide +kernel
  obtain ⟨-, -, -, hvalidate⟩ := skippedNumbers_protect 0 1 0 [0, 0, 0, 0] _ rfl
  refine ⟨hpopped, hskipped, (hvalidate ⟨[⟨3, 4⟩, ⟨0, 1⟩], 0⟩ (by decide)).1 ?_,
    (hvalidate ⟨[⟨0, 4⟩], 0⟩ (by decide)).2 2 ?_ (by decide)⟩
  · rw [hpopped]
    rintro p ⟨r, hr, hlow, hhigh⟩
    simp only [List.mem_cons, List.not_mem_nil, or_false] at hr ⊢
    rcases hr with rfl | rfl <;> lia
  · decide

end Numbering

end Qperf.Quic
