import Qperf.Quic.ControlFrames
import Qperf.Quic.SentPackets

/-!
# Encoding of ACK frames

An ACK frame is cut to the ranges that `numEncodableAckRanges` counts.  The count
leaves out the first range, so that a frame can exceed `MaxAckFrameSize` by the
eight bytes that it takes at most.
-/

namespace Qperf.Quic

open Qperf.Foundation

def maxAckFrameSize : Nat := 1000

def ackDelayExponent : Nat := 3

/-- The delay is in nanoseconds; the conversion to `uint64` wraps. -/
def encodeAckDelay (delay : Int) : Nat :=
  wrapByteCount (delay.tdiv (1000 * 2 ^ ackDelayExponent))

def encodeAckRange (previous r : AckRange) : Nat × Nat :=
  (wrapByteCount (previous.smallest - r.largest - 2),
    wrapByteCount (r.largest - r.smallest))

def encodeAckRanges : AckRange → List AckRange → List Nat
  | _, [] => []
  | previous, r :: ranges =>
    let (gap, len) := encodeAckRange previous r
    gap :: len :: encodeAckRanges r ranges

/-- The loop from range `i` on, where `length` bytes are used up already. -/
def encodableLoop : Nat → Nat → AckRange → List AckRange → Except GoPanic Nat
  | _, i, _, [] => .ok i
  | length, i, previous, r :: ranges => do
    let (gap, len) := encodeAckRange previous r
    let gapLen ← varIntLen gap
    let lenLen ← varIntLen len
    if length + (gapLen + lenLen) > maxAckFrameSize then
      return i - 1
    else
      encodableLoop (length + (gapLen + lenLen)) (i + 1) r ranges

namespace AckFrame

def numEncodableAckRanges (f : AckFrame) : Except GoPanic Nat :=
  match f.ackRanges with
  | [] => .error .indexOutOfRange
  | first :: ranges => do
    let largestLen ← varIntLen (wrapByteCount first.largest)
    let delayLen ← varIntLen (encodeAckDelay f.delayTime)
    -- The number of ranges is taken to need two bytes.
    encodableLoop (1 + largestLen + delayLen + 2) 1 first ranges

def length (f : AckFrame) : Except GoPanic Nat :=
  match f.ackRanges with
  | [] => .error .indexOutOfRange
  | first :: ranges => do
    let numRanges ← f.numEncodableAckRanges
    frameLen ([wrapByteCount first.largest, encodeAckDelay f.delayTime,
      wrapByteCount (numRanges - 1),
      wrapByteCount (first.largest - first.smallest)] ++
      encodeAckRanges first (ranges.take (numRanges - 1))) 0

def write (f : AckFrame) : Except Failure (List UInt8) :=
  match f.ackRanges with
  | [] => .error (.panic .indexOutOfRange)
  | first :: ranges =>
    match f.numEncodableAckRanges with
    | .error cause => .error (.panic cause)
    | .ok numRanges =>
      writeFrame 0x2 ([wrapByteCount first.largest,
        encodeAckDelay f.delayTime, wrapByteCount (numRanges - 1),
        wrapByteCount (first.largest - first.smallest)] ++
        encodeAckRanges first (ranges.take (numRanges - 1))) []

def rangesDescend : List AckRange → Bool
  | last :: r :: ranges =>
    -- The sum does not wrap: the numbers of a parsed frame are below 2 ^ 62.
    last.smallest > r.smallest && last.smallest > r.largest + 1 &&
      rangesDescend (r :: ranges)
  | _ => true

def validateAckRanges (f : AckFrame) : Bool :=
  !f.ackRanges.isEmpty &&
    f.ackRanges.all (fun r => r.smallest ≤ r.largest) &&
    rangesDescend f.ackRanges

/-- The frames that the received packet trackers build. -/
structure Valid (f : AckFrame) : Prop where
  ranges : f.validateAckRanges = true
  smallest : ∀ r ∈ f.ackRanges, 0 ≤ r.smallest
  largest : ∀ r ∈ f.ackRanges, r.largest ≤ maxVarInt8
  delayTime : 0 ≤ f.delayTime
  delayTime_lt : f.delayTime < 2 ^ 63

end AckFrame

/-! ## Encodable numbers -/

theorem wrapByteCount_of_nonneg {n : Int} (h : 0 ≤ n) (hlt : n ≤ maxVarInt8) :
    wrapByteCount n ≤ maxVarInt8 := by
  unfold wrapByteCount
  omega

theorem natCast_wrapByteCount {n : Int} (h : 0 ≤ n) (hle : n ≤ maxVarInt8) :
    (wrapByteCount n : Int) = n := by
  unfold wrapByteCount
  unfold maxVarInt8 at hle
  omega

theorem encodeAckDelay_le {delay : Int} (h : 0 ≤ delay) (hlt : delay < 2 ^ 63) :
    encodeAckDelay delay ≤ maxVarInt8 := by
  unfold encodeAckDelay ackDelayExponent
  rw [Int.tdiv_eq_ediv_of_nonneg h]
  apply wrapByteCount_of_nonneg
  · omega
  · unfold maxVarInt8
    omega

def Below (previous : AckRange) (ranges : List AckRange) : Prop :=
  AckFrame.rangesDescend (previous :: ranges) = true ∧
    previous.smallest ≤ maxVarInt8 ∧
    ∀ r ∈ ranges, 0 ≤ r.smallest ∧ r.smallest ≤ r.largest ∧ r.largest ≤ maxVarInt8

theorem Below.tail {previous r : AckRange} {ranges : List AckRange}
    (h : Below previous (r :: ranges)) : Below r ranges := by
  obtain ⟨hdescend, -, hranges⟩ := h
  have hr := hranges r (by simp)
  simp only [AckFrame.rangesDescend, Bool.and_eq_true] at hdescend
  exact ⟨hdescend.2, by lia, fun q hq => hranges q (by simp [hq])⟩

theorem Below.gap {previous r : AckRange} {ranges : List AckRange}
    (h : Below previous (r :: ranges)) :
    (encodeAckRange previous r).1 ≤ maxVarInt8 ∧ (encodeAckRange previous r).2 ≤ maxVarInt8 := by
  obtain ⟨hdescend, hprevious, hranges⟩ := h
  have hr := hranges r (by simp)
  simp only [AckFrame.rangesDescend, Bool.and_eq_true, decide_eq_true_eq] at hdescend
  constructor
  · exact wrapByteCount_of_nonneg (by lia) (by lia)
  · exact wrapByteCount_of_nonneg (by lia) (by lia)

theorem Below.take {previous : AckRange} {ranges : List AckRange}
    (h : Below previous ranges) (n : Nat) : Below previous (ranges.take n) := by
  induction ranges generalizing previous n with
  | nil => simpa using h
  | cons r ranges ih =>
    cases n with
    | zero => exact ⟨rfl, h.2.1, fun _ hq => nomatch hq⟩
    | succ n =>
      have hd := h.1
      have htake := (ih h.tail n).1
      simp only [AckFrame.rangesDescend, Bool.and_eq_true] at hd
      refine ⟨?_, h.2.1, fun q hq => h.2.2 q (List.mem_of_mem_take hq)⟩
      simp only [List.take_succ_cons, AckFrame.rangesDescend, Bool.and_eq_true]
      exact ⟨hd.1, htake⟩

theorem Below.validateAckRanges {first : AckRange} {ranges : List AckRange}
    (h : Below first ranges) (hfirst : first.smallest ≤ first.largest) (delay : Int) :
    AckFrame.validateAckRanges ⟨first :: ranges, delay⟩ = true := by
  obtain ⟨hdescend, -, hranges⟩ := h
  simp only [AckFrame.validateAckRanges, List.isEmpty_cons, Bool.not_false, Bool.true_and,
    Bool.and_eq_true, List.all_eq_true, decide_eq_true_eq]
  refine ⟨List.forall_mem_cons.mpr ⟨hfirst, fun r hr => ?_⟩, hdescend⟩
  exact (hranges r hr).2.1

theorem Below.encodable {previous : AckRange} {ranges : List AckRange}
    (h : Below previous ranges) : Encodable (encodeAckRanges previous ranges) := by
  induction ranges generalizing previous with
  | nil => exact fun _ hi => nomatch hi
  | cons r ranges ih =>
    intro i hi
    rcases List.mem_cons.mp hi with rfl | hi
    · exact h.gap.1
    rcases List.mem_cons.mp hi with rfl | hi
    · exact h.gap.2
    · exact ih h.tail i hi

/-! ## The size of a frame -/

theorem length_encodeAckRanges (previous : AckRange) (ranges : List AckRange) :
    2 * ranges.length ≤ varIntsSize (encodeAckRanges previous ranges) := by
  induction ranges generalizing previous with
  | nil => exact Nat.zero_le _
  | cons r ranges ih =>
    have hgap := varIntSize_pos (encodeAckRange previous r).1
    have hlen := varIntSize_pos (encodeAckRange previous r).2
    have htail := ih r
    simp only [encodeAckRanges, varIntsSize, List.map_cons, List.sum_cons,
      List.length_cons] at htail ⊢
    omega

theorem varIntsSize_encodeAckRanges_cons (previous r : AckRange) (ranges : List AckRange) :
    varIntsSize (encodeAckRanges previous (r :: ranges)) =
      varIntSize (encodeAckRange previous r).1 + varIntSize (encodeAckRange previous r).2 +
        varIntsSize (encodeAckRanges r ranges) := by
  exact (Nat.add_assoc ..).symm

theorem varIntsSize_encodeAckRanges_nil (previous : AckRange) :
    varIntsSize (encodeAckRanges previous []) = 0 := rfl

/--
Either all ranges fit, or the loop stops at the first range that does not fit and
gives up the range in front of it as well.
-/
theorem Below.encodableLoop_cases {previous : AckRange} {ranges : List AckRange}
    (h : Below previous ranges) {length i : Nat} (hlength : length ≤ maxAckFrameSize) :
    ∃ num, Quic.encodableLoop length i previous ranges = .ok num ∧
      (num = i + ranges.length ∧
        length + varIntsSize (encodeAckRanges previous ranges) ≤ maxAckFrameSize ∨
      ∃ j < ranges.length, num = i + j - 1 ∧
        length + varIntsSize (encodeAckRanges previous (ranges.take j)) ≤ maxAckFrameSize ∧
        maxAckFrameSize <
          length + varIntsSize (encodeAckRanges previous (ranges.take (j + 1)))) := by
  induction ranges generalizing previous length i with
  | nil => exact ⟨i, rfl, .inl ⟨rfl, hlength⟩⟩
  | cons r ranges ih =>
    have hcons := varIntsSize_encodeAckRanges_cons previous r
    simp only [Quic.encodableLoop, varIntLen_of_le h.gap.1,
      varIntLen_of_le h.gap.2, ok_bind]
    split
    · next hexceeds =>
      refine ⟨i - 1, rfl, .inr ⟨0, Nat.zero_lt_succ _, rfl, hlength, ?_⟩⟩
      rw [List.take_succ_cons, List.take_zero, hcons, varIntsSize_encodeAckRanges_nil]
      omega
    · next hfits =>
      obtain ⟨num, hnum, hcase⟩ := ih h.tail (i := i + 1) (Nat.le_of_not_lt hfits)
      refine ⟨num, hnum, ?_⟩
      rcases hcase with ⟨rfl, hsize⟩ | ⟨j, hj, rfl, hsize, hexceeds⟩
      · refine .inl ⟨by rw [List.length_cons]; omega, ?_⟩
        rw [hcons]
        omega
      · refine .inr ⟨j + 1, Nat.succ_lt_succ hj, by omega, ?_, ?_⟩
        · rw [List.take_succ_cons, hcons]
          omega
        · rw [List.take_succ_cons, hcons]
          omega

theorem varIntsSize_take_mono (previous : AckRange) (ranges : List AckRange)
    {m n : Nat} (hle : m ≤ n) :
    varIntsSize (encodeAckRanges previous (ranges.take m)) ≤
      varIntsSize (encodeAckRanges previous (ranges.take n)) := by
  induction ranges generalizing previous m n with
  | nil => simp
  | cons r ranges ih =>
    cases m with
    | zero => exact Nat.zero_le _
    | succ m =>
      obtain ⟨n, rfl⟩ : ∃ k, n = k + 1 := ⟨n - 1, by omega⟩
      rw [List.take_succ_cons, List.take_succ_cons,
        varIntsSize_encodeAckRanges_cons, varIntsSize_encodeAckRanges_cons]
      exact Nat.add_le_add_left (ih r (Nat.le_of_succ_le_succ hle)) _

theorem Below.encodableLoop {previous : AckRange} {ranges : List AckRange}
    (h : Below previous ranges) {length i : Nat} (hlength : length ≤ maxAckFrameSize) :
    ∃ num, encodableLoop length i previous ranges = .ok num ∧ num ≤ i + ranges.length ∧
      (length + 16 ≤ maxAckFrameSize → i ≤ num) ∧ i ≤ num + 1 ∧
      length + varIntsSize (encodeAckRanges previous (ranges.take (num - i))) ≤
        maxAckFrameSize := by
  obtain ⟨num, hnum, hcase⟩ := h.encodableLoop_cases (i := i) hlength
  refine ⟨num, hnum, ?_⟩
  rcases hcase with ⟨rfl, hsize⟩ | ⟨j, hj, rfl, hsize, hexceeds⟩
  · refine ⟨Nat.le_refl _, fun _ => Nat.le_add_right .., by omega, ?_⟩
    rwa [Nat.add_sub_cancel_left, List.take_length]
  · have hmono := varIntsSize_take_mono previous ranges (show i + j - 1 - i ≤ j by omega)
    refine ⟨by omega, fun hroom => ?_, by omega, by omega⟩
    -- Every range takes at most 16 bytes, so that there is room for the first one.
    cases ranges with
    | nil => exact absurd hj (Nat.not_lt_zero _)
    | cons r ranges =>
      have hgap := varIntSize_le (encodeAckRange previous r).1
      have hlen := varIntSize_le (encodeAckRange previous r).2
      cases j with
      | zero =>
        rw [List.take_succ_cons, List.take_zero,
          varIntsSize_encodeAckRanges_cons, varIntsSize_encodeAckRanges_nil]
          at hexceeds
        omega
      | succ j => omega

namespace AckFrame

variable {f : AckFrame}

def maxWireLen : Nat := maxAckFrameSize + 8

variable {first : AckRange} {ranges : List AckRange}

theorem Valid.below (h : f.Valid) (hranges : f.ackRanges = first :: ranges) :
    0 ≤ first.smallest ∧ first.smallest ≤ first.largest ∧
      first.largest ≤ maxVarInt8 ∧ Below first ranges := by
  have hvalid := h.ranges
  simp only [validateAckRanges, hranges, List.isEmpty_cons, Bool.not_false,
    Bool.true_and, Bool.and_eq_true, List.all_eq_true, decide_eq_true_eq]
    at hvalid
  obtain ⟨hordered, hdescend⟩ := hvalid
  have hall : ∀ r ∈ first :: ranges, 0 ≤ r.smallest ∧
      r.smallest ≤ r.largest ∧ r.largest ≤ maxVarInt8 := fun r hr =>
    ⟨h.smallest r (hranges ▸ hr), hordered r hr, h.largest r (hranges ▸ hr)⟩
  have hfirst := hall first (by simp)
  exact ⟨hfirst.1, hfirst.2.1, hfirst.2.2, hdescend, by lia,
    fun r hr => hall r (by simp [hr])⟩

def encodedFields (f : AckFrame) (first : AckRange) (ranges : List AckRange)
    (num : Nat) : List Nat :=
  [wrapByteCount first.largest, encodeAckDelay f.delayTime,
    wrapByteCount (num - 1), wrapByteCount (first.largest - first.smallest)] ++
    encodeAckRanges first (ranges.take (num - 1))

theorem Valid.encodable_encodedFields (h : f.Valid)
    (hranges : f.ackRanges = first :: ranges) {num : Nat}
    (hpos : 1 ≤ num) (hnum : num ≤ maxVarInt8) :
    Encodable (f.encodedFields first ranges num) := by
  obtain ⟨hsmallest, hordered, hlargest, hbelow⟩ := h.below hranges
  intro i hi
  rcases List.mem_append.mp hi with hi | hi
  · simp only [List.mem_cons, List.not_mem_nil, or_false] at hi
    rcases hi with rfl | rfl | rfl | rfl
    · exact wrapByteCount_of_nonneg (by lia) hlargest
    · exact encodeAckDelay_le h.delayTime h.delayTime_lt
    · exact wrapByteCount_of_nonneg (by omega) (by omega)
    · exact wrapByteCount_of_nonneg (by lia) (by lia)
  · exact (hbelow.take _).encodable i hi

theorem Valid.front_fits (h : f.Valid) (hranges : f.ackRanges = first :: ranges) :
    wrapByteCount first.largest ≤ maxVarInt8 ∧ encodeAckDelay f.delayTime ≤ maxVarInt8 ∧
      1 + varIntSize (wrapByteCount first.largest) +
        varIntSize (encodeAckDelay f.delayTime) + 2 + 16 ≤ maxAckFrameSize := by
  obtain ⟨hsmallest, hordered, hlargest, -⟩ := h.below hranges
  have hfirstSize := varIntSize_le (wrapByteCount first.largest)
  have hdelaySize := varIntSize_le (encodeAckDelay f.delayTime)
  refine ⟨wrapByteCount_of_nonneg (by lia) hlargest,
    encodeAckDelay_le h.delayTime h.delayTime_lt, ?_⟩
  unfold maxAckFrameSize
  omega

theorem Valid.numEncodableAckRanges (h : f.Valid) (hranges : f.ackRanges = first :: ranges) :
    ∃ num, f.numEncodableAckRanges = .ok num ∧ 1 ≤ num ∧ num ≤ 501 ∧
      varIntsSize (f.encodedFields first ranges num) < maxWireLen := by
  obtain ⟨-, -, -, hbelow⟩ := h.below hranges
  obtain ⟨hfirst, hdelay, hroom⟩ := h.front_fits hranges
  have hlenSize := varIntSize_le (wrapByteCount (first.largest - first.smallest))
  obtain ⟨num, hnum, hle, hge, -, hsize⟩ :=
    hbelow.encodableLoop (i := 1) (Nat.le_of_add_right_le hroom)
  have hpos := hge hroom
  have hcount := length_encodeAckRanges first (ranges.take (num - 1))
  rw [List.length_take, Nat.min_eq_left (by omega)] at hcount
  unfold maxAckFrameSize at hsize
  have hnumSize : varIntSize (wrapByteCount (num - 1)) ≤ 2 := by
    refine Nat.le_trans (varIntSize_mono (j := 16383) ?_) (by decide)
    unfold wrapByteCount
    omega
  refine ⟨num, ?_, hpos, by omega, ?_⟩
  · simp only [AckFrame.numEncodableAckRanges, hranges, varIntLen_of_le hfirst,
      varIntLen_of_le hdelay, ok_bind, hnum]
  · simp only [encodedFields, varIntsSize, List.map_append, List.sum_append,
      List.map_cons, List.map_nil, List.sum_cons, List.sum_nil, maxWireLen,
      maxAckFrameSize] at hsize ⊢
    omega

theorem Valid.sizes (h : f.Valid) :
    ∃ n bytes, f.length = .ok n ∧ f.write = .ok bytes ∧ bytes.length = n ∧
      1 ≤ n ∧ n ≤ maxWireLen := by
  have hne := h.ranges
  cases hranges : f.ackRanges with
  | nil => simp [validateAckRanges, hranges] at hne
  | cons first ranges =>
    obtain ⟨num, hnum, hpos, hle, hsize⟩ := h.numEncodableAckRanges hranges
    have hencodable := h.encodable_encodedFields hranges hpos (Nat.le_trans hle (by decide))
    obtain ⟨bytes, hbytes, hlen⟩ := writeFrame_of_encodable 0x2 hencodable []
    refine ⟨_, bytes, ?_, ?_, hlen, by omega, ?_⟩
    · simp only [AckFrame.length, hranges, hnum, ok_bind]
      exact frameLen_of_encodable hencodable 0
    · simp only [AckFrame.write, hranges, hnum]
      exact hbytes
    · rw [List.length_nil]
      omega

end AckFrame

end Qperf.Quic
