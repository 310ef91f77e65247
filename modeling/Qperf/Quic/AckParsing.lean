import Qperf.Quic.AckedPackets
import Qperf.Quic.ParsedHeaders

/-!
# What the parser accepts as an ACK frame

Every range that the parser reads is checked against the lower end of the range before
it, so that the subtractions do not go below 0.  The ranges come out valid, and the
check of the whole frame at the end finds nothing.
-/

namespace Qperf.Quic

open Qperf.Foundation Qperf.Foundation.Reader

variable {bytes rest : List UInt8}

theorem readAckRanges_eq_ok {n : Nat} (previous : AckRange) {ranges : List AckRange}
    (hprevious : previous.smallest ≤ maxVarInt8)
    (h : readAckRanges n previous.smallest bytes = .ok (ranges, rest)) :
    Below previous ranges ∧ ranges.length = n ∧
      ∃ front, bytes = front ++ rest ∧ 2 * n ≤ front.length := by
  induction n generalizing bytes previous ranges with
  | zero =>
    obtain ⟨rfl, rfl⟩ := pure_run_eq_ok h
    exact ⟨⟨rfl, hprevious, List.forall_mem_nil _⟩, rfl, [], rfl, Nat.zero_le _⟩
  | succ n ih =>
    obtain ⟨gap, mid, hgap, hrest⟩ := bind_run_eq_ok.mp h
    obtain ⟨gapBytes, rfl, hgapBytes⟩ := readVarInt_eq_ok hgap
    split at hrest
    · cases hrest
    · next hroom =>
      obtain ⟨ackBlock, mid, hblock, hranges⟩ := bind_run_eq_ok.mp hrest
      obtain ⟨blockBytes, rfl, hblockBytes⟩ := readVarInt_eq_ok hblock
      split at hranges
      · cases hranges
      · next hle =>
        obtain ⟨others, mid, hothers, hend⟩ := bind_run_eq_ok.mp hranges
        obtain ⟨rfl, rfl⟩ := pure_run_eq_ok hend
        obtain ⟨hbelow, hlength, front, rfl, hfront⟩ := ih
          ⟨previous.smallest - gap - 2 - ackBlock, previous.smallest - gap - 2⟩
          (by dsimp only; lia) hothers
        have hgapPos := (varIntSize_pos gap).trans hgapBytes.size
        have hblockPos := (varIntSize_pos ackBlock).trans hblockBytes.size
        refine ⟨⟨?_, hprevious, ?_⟩, congrArg (· + 1) hlength,
          gapBytes ++ blockBytes ++ front, ?_, ?_⟩
        · simp only [AckFrame.rangesDescend, Bool.and_eq_true, decide_eq_true_eq]
          exact ⟨⟨by lia, by lia⟩, hbelow.1⟩
        · refine List.forall_mem_cons.mpr ⟨⟨?_, ?_, ?_⟩, hbelow.2.2⟩ <;>
            dsimp only <;> lia
        · rw [List.append_assoc, List.append_assoc]
        · rw [List.length_append, List.length_append]
          omega

def parseAckFrameUnchecked (ackDelayExponent : Nat) : FrameReader AckFrame := do
  let typeByte ← readByte .eof
  let ecn := decide (typeByte &&& 0x1 > 0)
  let largestAcked ← readVarInt
  let delay ← readVarInt
  let numBlocks ← readVarInt
  let ackBlock ← readVarInt
  if ackBlock > largestAcked then
    throw (.message "invalid first ACK range")
  else
    let smallest : PacketNumber := largestAcked - ackBlock
    let ranges ← readAckRanges numBlocks smallest
    let frame : AckFrame :=
      { ackRanges := ⟨smallest, largestAcked⟩ :: ranges
        delayTime := decodeAckDelay ackDelayExponent delay }
    if ecn then
      let _ ← readVarInt
      let _ ← readVarInt
      let _ ← readVarInt
      return frame
    else
      return frame

theorem front_of_readVarInt {value : Nat} (h : readVarInt bytes = .ok (value, rest)) :
    ∃ front, bytes = front ++ rest ∧ 1 ≤ front.length ∧ value ≤ maxVarInt8 := by
  obtain ⟨front, hbytes, hfront⟩ := readVarInt_eq_ok h
  exact ⟨front, hbytes, (varIntSize_pos value).trans hfront.size, hfront.value_le⟩

theorem first_le {largestAcked ackBlock : Nat} (hlargest : largestAcked ≤ maxVarInt8)
    (hblock : ¬ ackBlock > largestAcked) :
    (0 : Int) ≤ largestAcked - ackBlock ∧ (largestAcked - ackBlock : Int) ≤ largestAcked ∧
      (largestAcked : Int) ≤ maxVarInt8 := by
  omega

/-- Nothing that `parseAckFrame` computes from the numbers it reads wraps as an `int64`. -/
theorem bmod_ackRange {smallest : PacketNumber} {gap ackBlock : Nat}
    (hsmallest : 0 ≤ smallest ∧ smallest ≤ maxVarInt8) (hgap : gap ≤ maxVarInt8)
    (hblock : ackBlock ≤ maxVarInt8) :
    ∀ i ∈ [(gap + 2 : Int), smallest - gap - 2, smallest - gap - 2 - ackBlock],
      Int.bmod i (2 ^ 64) = i := by
  unfold maxVarInt8 at hsmallest hgap hblock
  simp only [List.mem_cons, List.not_mem_nil, or_false]
  rintro i (rfl | rfl | rfl) <;> apply Int.bmod_eq_of_le <;> lia

/-- The ranges of a frame that was accepted, and how many bytes they take. -/
structure AckFrame.Parsed (f : AckFrame) (bytes rest : List UInt8) : Prop where
  nonempty : f.ackRanges ≠ []
  numbers : ∀ r ∈ f.ackRanges, 0 ≤ r.smallest ∧ r.smallest ≤ r.largest ∧ r.largest < 2 ^ 62
  apart : f.ackRanges.Pairwise fun a b => b.largest + 1 < a.smallest
  consumed : ∃ front, bytes = front ++ rest ∧ f.ackRanges.length ≤ front.length

theorem parsed_of_below {first : AckRange} {ranges : List AckRange}
    (hbelow : Below first ranges) (hfirst : 0 ≤ first.smallest ∧
      first.smallest ≤ first.largest ∧ first.largest ≤ maxVarInt8) (delay : Int)
    (hconsumed : ∃ front, bytes = front ++ rest ∧ ranges.length + 1 ≤ front.length) :
    AckFrame.Parsed ⟨first :: ranges, delay⟩ bytes rest := by
  have hvalid := hbelow.validateAckRanges hfirst.2.1 delay
  obtain ⟨hne, hapart, -⟩ := AckFrame.descending hvalid
  refine ⟨hne, ?_, hapart, hconsumed⟩
  refine List.forall_mem_cons.mpr ⟨?_, fun r hr => ?_⟩
  · unfold maxVarInt8 at hfirst
    exact ⟨hfirst.1, hfirst.2.1, by lia⟩
  · have := hbelow.2.2 r hr
    unfold maxVarInt8 at this
    exact ⟨this.1, this.2.1, by lia⟩

theorem parseAckFrame_eq_unchecked (ackDelayExponent : Nat) (bytes : List UInt8) :
    parseAckFrame ackDelayExponent bytes = parseAckFrameUnchecked ackDelayExponent bytes := by
  refine bind_run_congr fun typeByte mid _ => ?_
  refine bind_run_congr fun largestAcked mid hlargest => ?_
  refine bind_run_congr fun delay mid _ => ?_
  refine bind_run_congr fun numBlocks mid _ => ?_
  refine bind_run_congr fun ackBlock mid _ => ?_
  obtain ⟨-, -, -, hmax⟩ := front_of_readVarInt hlargest
  split
  · rfl
  · next hblock =>
    refine bind_run_congr fun ranges mid hranges => ?_
    obtain ⟨hnonneg, hle, hmax'⟩ := first_le hmax hblock
    obtain ⟨hbelow, -⟩ := readAckRanges_eq_ok
      ⟨largestAcked - ackBlock, largestAcked⟩ (hle.trans hmax') hranges
    have hvalid := hbelow.validateAckRanges hle (decodeAckDelay ackDelayExponent delay)
    rw [hvalid]
    rfl

theorem skipped_of_ecn {frame f : AckFrame} {ecn : Bool} (h : (if ecn then do
        let _ ← readVarInt
        let _ ← readVarInt
        let _ ← readVarInt
        return frame
      else return frame : FrameReader AckFrame) bytes = .ok (f, rest)) :
    f = frame ∧ ∃ front, bytes = front ++ rest := by
  split at h
  · obtain ⟨_, mid, h1, h⟩ := bind_run_eq_ok.mp h
    obtain ⟨_, mid, h2, h⟩ := bind_run_eq_ok.mp h
    obtain ⟨_, mid, h3, h⟩ := bind_run_eq_ok.mp h
    obtain ⟨rfl, rfl⟩ := pure_run_eq_ok h
    obtain ⟨front1, rfl, -⟩ := front_of_readVarInt h1
    obtain ⟨front2, rfl, -⟩ := front_of_readVarInt h2
    obtain ⟨front3, rfl, -⟩ := front_of_readVarInt h3
    exact ⟨rfl, front1 ++ front2 ++ front3, by simp⟩
  · obtain ⟨rfl, rfl⟩ := pure_run_eq_ok h
    exact ⟨rfl, [], rfl⟩

/--
Whatever the bytes are, an ACK frame that is accepted has valid ranges, no more of them
than there were bytes, and the check at the end of the parser never fails.
-/
theorem parseAckFrame_sound (ackDelayExponent : Nat) (bytes : List UInt8) :
    (∀ f rest, parseAckFrame ackDelayExponent bytes = .ok (f, rest) → f.Parsed bytes rest) ∧
    parseAckFrame ackDelayExponent bytes = parseAckFrameUnchecked ackDelayExponent bytes := by
  refine ⟨fun f rest h => ?_, parseAckFrame_eq_unchecked ackDelayExponent bytes⟩
  rw [parseAckFrame_eq_unchecked] at h
  obtain ⟨typeByte, mid₁, htype, h₁⟩ := bind_run_eq_ok.mp h
  obtain ⟨largestAcked, mid₂, hlargest, h₂⟩ := bind_run_eq_ok.mp h₁
  obtain ⟨delay, mid₃, hdelay, h₃⟩ := bind_run_eq_ok.mp h₂
  obtain ⟨numBlocks, mid₄, hnum, h₄⟩ := bind_run_eq_ok.mp h₃
  obtain ⟨ackBlock, mid₅, hblock, h₅⟩ := bind_run_eq_ok.mp h₄
  obtain ⟨front₁, hbytes₁, hlen₁, hmax⟩ := front_of_readVarInt hlargest
  obtain ⟨front₂, hbytes₂, -⟩ := front_of_readVarInt hdelay
  obtain ⟨front₃, hbytes₃, -⟩ := front_of_readVarInt hnum
  obtain ⟨front₄, hbytes₄, -⟩ := front_of_readVarInt hblock
  split at h₅
  · cases h₅
  · next hfits =>
    obtain ⟨ranges, mid₆, hranges, h₆⟩ := bind_run_eq_ok.mp h₅
    obtain ⟨hnonneg, hle, hmax'⟩ := first_le hmax hfits
    obtain ⟨hbelow, hlength, front₅, hbytes₅, hlen₅⟩ := readAckRanges_eq_ok
      ⟨largestAcked - ackBlock, largestAcked⟩ (hle.trans hmax') hranges
    obtain ⟨rfl, front₆, hbytes₆⟩ := skipped_of_ecn h₆
    refine parsed_of_below hbelow ⟨hnonneg, hle, hmax'⟩ _
      ⟨typeByte :: (front₁ ++ front₂ ++ front₃ ++ front₄ ++ front₅ ++ front₆), ?_, ?_⟩
    · rw [readByte_eq_ok htype, hbytes₁, hbytes₂, hbytes₃, hbytes₄, hbytes₅, hbytes₆]
      simp only [List.cons_append, List.append_assoc]
    · simp only [List.length_cons, List.length_append]
      omega

theorem parseAckFrame_sound_twoRanges :
    ∃ f, parseAckFrame 3 [2, 12, 0, 1, 2, 3, 2, 255] = .ok (f, [255]) ∧
      f.ackRanges = [⟨10, 12⟩, ⟨3, 5⟩] ∧ f.Parsed [2, 12, 0, 1, 2, 3, 2, 255] [255] := by
  have hparse : parseAckFrame 3 [2, 12, 0, 1, 2, 3, 2, 255] =
      .ok (⟨[⟨10, 12⟩, ⟨3, 5⟩], 0⟩, [255]) := by
    decide +kernel
  exact ⟨_, hparse, rfl, (parseAckFrame_sound 3 _).1 _ _ hparse⟩

end Qperf.Quic
