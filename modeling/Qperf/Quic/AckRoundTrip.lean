import Qperf.Quic.FrameRoundTrip

/-!
# ACK frames are parsed as they were written

The ranges are encoded downwards, each by the gap to the one above it and its length.
The parser gets back the ranges that were encoded; the delay is cut to multiples of
eight microseconds.
-/

namespace Qperf.Quic

open Qperf.Foundation Qperf.Foundation.Reader

/-! ## The delay -/

theorem decodeAckDelay_encodeAckDelay {delay : Int} (h : 0 ≤ delay) (hlt : delay < 2 ^ 63) :
    decodeAckDelay ackDelayExponent (encodeAckDelay delay) = delay / 8000 * 8000 := by
  have hencoded : (encodeAckDelay delay : Int) = delay / 8000 := by
    unfold encodeAckDelay ackDelayExponent
    rw [Int.tdiv_eq_ediv_of_nonneg h]
    exact natCast_wrapByteCount (by omega) (by unfold maxVarInt8; omega)
  have hmicro : delay / 8000 * 2 ^ ackDelayExponent * 1000 = delay / 8000 * 8000 := by
    unfold ackDelayExponent
    omega
  have hbmod : Int.bmod (delay / 8000 * 8000) (2 ^ 64) = delay / 8000 * 8000 := by
    apply Int.bmod_eq_of_le <;> omega
  unfold decodeAckDelay
  simp only [hencoded, hmicro, hbmod]
  rw [if_neg (by omega)]

/-! ## Ranges -/

variable {previous : AckRange} {ranges : List AckRange}

theorem Below.decode {r : AckRange} (h : Below previous (r :: ranges)) :
    ((encodeAckRange previous r).1 : Int) = previous.smallest - r.largest - 2 ∧
      ((encodeAckRange previous r).2 : Int) = r.largest - r.smallest := by
  obtain ⟨hdescend, hprevious, hranges⟩ := h
  have hr := hranges r (by simp)
  simp only [AckFrame.rangesDescend, Bool.and_eq_true, decide_eq_true_eq] at hdescend
  constructor
  · exact natCast_wrapByteCount (by lia) (by lia)
  · exact natCast_wrapByteCount (by lia) (by lia)

theorem Below.reads (h : Below previous ranges) :
    Reads (readAckRanges ranges.length previous.smallest)
      (((encodeAckRanges previous ranges).map varIntBytes).foldr (· ++ ·) []) ranges := by
  induction ranges generalizing previous with
  | nil => exact reads_pure []
  | cons r ranges ih =>
    obtain ⟨hgapLe, hlenLe⟩ := h.gap
    have hgap := reads_readVarInt (writeVarInt_eq_varIntBytes hgapLe)
    have hlen := reads_readVarInt (writeVarInt_eq_varIntBytes hlenLe)
    obtain ⟨hgapEq, hlenEq⟩ := h.decode
    have hr := h.2.2 r (by simp)
    apply hgap.bind
    rw [if_neg (by lia)]
    apply hlen.bind
    rw [if_neg (by lia)]
    have hlargest : previous.smallest - (encodeAckRange previous r).1 - 2 =
        r.largest := by lia
    have hsmallest : r.largest - ((encodeAckRange previous r).2 : Int) =
        r.smallest := by lia
    simp only [hlargest, hsmallest]
    exact (ih h.tail).bind_pure rfl

private theorem encodableLoop_le {length i num : Nat}
    (h : encodableLoop length i previous ranges = .ok num) :
    num ≤ i + ranges.length := by
  induction ranges generalizing length i previous with
  | nil =>
    cases h
    exact Nat.le_refl _
  | cons r ranges ih =>
    obtain ⟨gapLen, -, h⟩ := bind_eq_ok.mp h
    obtain ⟨lenLen, -, h⟩ := bind_eq_ok.mp h
    rw [List.length_cons]
    split at h
    · cases h
      omega
    · have := ih h
      omega

namespace AckFrame

variable {f : AckFrame}

theorem Valid.validate_take (h : f.Valid) {first : AckRange} {ranges : List AckRange}
    (hranges : f.ackRanges = first :: ranges) (n : Nat) (delay : Int) :
    AckFrame.validateAckRanges ⟨first :: ranges.take n, delay⟩ = true := by
  obtain ⟨-, hfirst, -, hbelow⟩ := h.below hranges
  exact (hbelow.take n).validateAckRanges hfirst delay

/-- The frame that the parser gets: the first `num` ranges and the delay, cut. -/
def encoded (f : AckFrame) (num : Nat) : AckFrame :=
  { ackRanges := f.ackRanges.take num
    delayTime := f.delayTime / 8000 * 8000 }

theorem Valid.reads (h : f.Valid) {first : AckRange} {ranges : List AckRange}
    (hranges : f.ackRanges = first :: ranges) {num : Nat} (hpos : 1 ≤ num)
    (hnum : num ≤ 1 + ranges.length) (hmax : num ≤ maxVarInt8) :
    Reads (parseAckFrame ackDelayExponent)
      (0x2 :: ((f.encodedFields first ranges num).map varIntBytes).foldr (· ++ ·) [])
      (f.encoded num) := by
  obtain ⟨hsmallest, hordered, hlargest, hbelow⟩ := h.below hranges
  have hencodable := h.encodable_encodedFields hranges hpos hmax
  obtain ⟨⟨hla, hdelay, hcount, hblock⟩, -⟩ := (List.forall_append ..).mp hencodable.reads
  have hlargestEq : (wrapByteCount first.largest : Int) = first.largest :=
    natCast_wrapByteCount (by lia) hlargest
  have hblockEq : (wrapByteCount (first.largest - first.smallest) : Int) =
      first.largest - first.smallest :=
    natCast_wrapByteCount (by lia) (by lia)
  have hcountEq : wrapByteCount (num - 1) = (ranges.take (num - 1)).length := by
    have hcast := natCast_wrapByteCount (n := num - 1) (by omega) (by omega)
    rw [List.length_take]
    omega
  have hfirst : (wrapByteCount first.largest : Int) -
      wrapByteCount (first.largest - first.smallest) = first.smallest := by lia
  have hencoded : f.encoded num =
      ⟨first :: ranges.take (num - 1), f.delayTime / 8000 * 8000⟩ := by
    obtain ⟨n, rfl⟩ : ∃ n, num = n + 1 := ⟨num - 1, by omega⟩
    rw [encoded, hranges]
    rfl
  apply Reads.cons
  apply hla.bind
  apply hdelay.bind
  apply hcount.bind
  apply hblock.bind
  rw [if_neg (by lia), hcountEq, hfirst]
  apply (hbelow.take (num - 1)).reads.bind_pure
  rw [hlargestEq, decodeAckDelay_encodeAckDelay h.delayTime h.delayTime_lt, hencoded]
  have hvalid := h.validate_take hranges (num - 1) (f.delayTime / 8000 * 8000)
  exact if_neg (Bool.not_eq_true _ ▸ congrArg not hvalid)

/-- What `Write` produces is parsed to the ranges that were encoded. -/
theorem parseAckFrame_write (f : AckFrame) (h : f.Valid) :
    ∃ num bytes, f.numEncodableAckRanges = .ok num ∧ 1 ≤ num ∧
      f.write = .ok bytes ∧ f.length = .ok bytes.length ∧
      ∀ suffix, parseAckFrame ackDelayExponent (bytes ++ suffix) =
        .ok ({ ackRanges := f.ackRanges.take num
               delayTime := f.delayTime / 8000 * 8000 }, suffix) := by
  have hne := h.ranges
  cases hranges : f.ackRanges with
  | nil => simp [validateAckRanges, hranges] at hne
  | cons first ranges =>
    obtain ⟨num, hnum, hpos, hle, -⟩ := h.numEncodableAckRanges hranges
    have hmax : num ≤ maxVarInt8 := Nat.le_trans hle (by decide)
    have hencodable := h.encodable_encodedFields hranges hpos hmax
    obtain ⟨n, bytes, hlength, hwrite, hlen, -⟩ := h.sizes
    have hcount : num ≤ 1 + ranges.length := by
      simp only [AckFrame.numEncodableAckRanges, hranges] at hnum
      obtain ⟨largestLen, -, hloop⟩ := bind_eq_ok.mp hnum
      obtain ⟨delayLen, -, hloop⟩ := bind_eq_ok.mp hloop
      exact encodableLoop_le hloop
    have hbytes : f.write = .ok (0x2 ::
        ((f.encodedFields first ranges num).map varIntBytes).foldr (· ++ ·) []) := by
      simp only [AckFrame.write, hranges, hnum]
      exact hencodable.writeFrame 0x2 []
    rw [hbytes] at hwrite
    cases hwrite
    refine ⟨num, _, hnum, hpos, hbytes, hlen ▸ hlength, ?_⟩
    rw [← hranges]
    exact h.reads hranges hpos hcount hmax

theorem parseAckFrame_write_twoRanges :
    (⟨[⟨10, 12⟩, ⟨3, 5⟩], 20000⟩ : AckFrame).Valid ∧
      ∃ num bytes, numEncodableAckRanges ⟨[⟨10, 12⟩, ⟨3, 5⟩], 20000⟩ = .ok num ∧
        1 ≤ num ∧ AckFrame.write ⟨[⟨10, 12⟩, ⟨3, 5⟩], 20000⟩ = .ok bytes ∧
        AckFrame.length ⟨[⟨10, 12⟩, ⟨3, 5⟩], 20000⟩ = .ok bytes.length ∧
        ∀ suffix, parseAckFrame ackDelayExponent (bytes ++ suffix) =
          .ok ({ ackRanges := [⟨10, 12⟩, ⟨3, 5⟩].take num
                 delayTime := 20000 / 8000 * 8000 }, suffix) := by
  have hvalid : (⟨[⟨10, 12⟩, ⟨3, 5⟩], 20000⟩ : AckFrame).Valid :=
    ⟨by decide, by decide, by decide, by decide, by decide⟩
  exact ⟨hvalid, parseAckFrame_write _ hvalid⟩

end AckFrame

end Qperf.Quic
