import Qperf.Quic.AckParsing
import Qperf.Quic.TransportParameters

/-!
# Durations of the peer

A duration comes as a number of microseconds or milliseconds and becomes a number of
nanoseconds in an `int64`.  A product that wraps to a negative number is found, but one
that wraps once more is taken for a short duration.
-/

namespace Qperf.Quic

open Qperf.Foundation Qperf.Foundation.Reader

def microsecond : Int := 1000

/-! ## Acknowledgement delays -/

def ackDelayField : FrameReader Nat := do
  let _ ← readByte .eof
  let _ ← readVarInt
  readVarInt

theorem delayTime_of_parsed {ackDelayExponent v : Nat} {bytes rest rest' : List UInt8}
    {f : AckFrame} (hparse : parseAckFrame ackDelayExponent bytes = .ok (f, rest))
    (hfield : ackDelayField bytes = .ok (v, rest')) :
    f.delayTime = decodeAckDelay ackDelayExponent v := by
  rw [parseAckFrame_eq_unchecked] at hparse
  obtain ⟨typeByte, mid₁, htype, h₁⟩ := bind_run_eq_ok.mp hparse
  obtain ⟨largestAcked, mid₂, hlargest, h₂⟩ := bind_run_eq_ok.mp h₁
  obtain ⟨delay, mid₃, hdelay, h₃⟩ := bind_run_eq_ok.mp h₂
  obtain ⟨numBlocks, mid₄, -, h₄⟩ := bind_run_eq_ok.mp h₃
  obtain ⟨ackBlock, mid₅, -, h₅⟩ := bind_run_eq_ok.mp h₄
  have hv : ackDelayField bytes = .ok (delay, mid₃) :=
    bind_run_eq_ok.mpr ⟨_, _, htype, bind_run_eq_ok.mpr ⟨_, _, hlargest, hdelay⟩⟩
  obtain rfl : delay = v := (Prod.mk.inj (Except.ok.inj (hv.symm.trans hfield))).1
  by_cases hblock : ackBlock > largestAcked
  · rw [if_pos hblock] at h₅
    cases h₅
  · rw [if_neg hblock] at h₅
    obtain ⟨ranges, mid₆, -, h₆⟩ := bind_run_eq_ok.mp h₅
    rw [(skipped_of_ecn h₆).1]

def delayedAck (v : Nat) : List UInt8 := [0x2, 0] ++ varIntBytes v ++ [0, 0]

theorem parseAckFrame_delayedAck {v : Nat} (h : v ≤ maxVarInt8) (ackDelayExponent : Nat) :
    parseAckFrame ackDelayExponent (delayedAck v) =
        .ok (⟨[⟨0, 0⟩], decodeAckDelay ackDelayExponent v⟩, []) ∧
      ackDelayField (delayedAck v) = .ok (v, [0, 0]) := by
  have hread := reads_readVarInt (writeVarInt_eq_varIntBytes h) [0, 0]
  have hzero : ∀ rest, readVarInt (0 :: rest) = .ok (0, rest) := fun _ => rfl
  refine ⟨?_, hread⟩
  rw [delayedAck, List.append_assoc, List.cons_append, List.cons_append, List.nil_append,
    parseAckFrame, readByte_bind, bind_of_ok (hzero _), bind_of_ok hread,
    bind_of_ok (hzero _), bind_of_ok (hzero _)]
  rfl

def clampDuration (d : Int) : Int := if d ≤ infDuration then d else infDuration

/-- `DelayTime` is the delay in the frame, whatever else the frame says. -/
def AckDelayExact (v ackDelayExponent : Nat) : Prop :=
  ∀ bytes f rest rest', parseAckFrame ackDelayExponent bytes = .ok (f, rest) →
    ackDelayField bytes = .ok (v, rest') →
    f.delayTime = clampDuration (v * 2 ^ ackDelayExponent * microsecond)

theorem bmod_natCast (m : Nat) : Int.bmod (m : Int) (2 ^ 64) =
      if m % 2 ^ 64 < 2 ^ 63 then ((m % 2 ^ 64 : Nat) : Int)
      else ((m % 2 ^ 64 : Nat) : Int) - 2 ^ 64 := by
  rw [Int.bmod_def]
  split_ifs <;> omega

theorem decodeAckDelay_eq_iff (ackDelayExponent v : Nat) :
    decodeAckDelay ackDelayExponent v = clampDuration (v * 2 ^ ackDelayExponent * microsecond) ↔
      v * 2 ^ ackDelayExponent * 1000 < 2 ^ 63 ∨
        2 ^ 63 ≤ v * 2 ^ ackDelayExponent * 1000 % 2 ^ 64 := by
  have hcast : (v * 2 ^ ackDelayExponent * 1000 : Int) =
      ((v * 2 ^ ackDelayExponent * 1000 : Nat) : Int) := by
    rfl
  -- The product is even, so that it is never the longest duration itself.
  have heven : v * 2 ^ ackDelayExponent * 1000 % 2 = 0 := by omega
  unfold decodeAckDelay clampDuration microsecond infDuration
  rw [hcast, bmod_natCast]
  generalize v * 2 ^ ackDelayExponent * 1000 = n at heven ⊢
  dsimp only
  split_ifs <;> omega

theorem ackDelayExact_iff {v : Nat} (h : v ≤ maxVarInt8) (ackDelayExponent : Nat) :
    AckDelayExact v ackDelayExponent ↔
      v * 2 ^ ackDelayExponent * 1000 < 2 ^ 63 ∨
        2 ^ 63 ≤ v * 2 ^ ackDelayExponent * 1000 % 2 ^ 64 := by
  rw [← decodeAckDelay_eq_iff]
  constructor
  · intro hexact
    obtain ⟨hparse, hfield⟩ := parseAckFrame_delayedAck h ackDelayExponent
    have heq := hexact _ _ _ _ hparse hfield
    generalize decodeAckDelay ackDelayExponent v = delayTime at heq ⊢
    exact heq
  · intro heq bytes f rest rest' hparse hfield
    rw [delayTime_of_parsed hparse hfield, heq]

/-! ## Transport parameters -/

namespace TransportParameters

variable {v : Nat}

theorem readNumericTransportParameter_eq {bytes rest : List UInt8}
    (h : readVarInt bytes = .ok (v, rest)) (p : TransportParameters) (paramID : Nat) :
    p.readNumericTransportParameter paramID (bytes.length - rest.length) bytes =
      (p.setNumeric paramID v).map (·, rest) := by
  have hread : readVarInt.withError (TransportError.readingNumber paramID) bytes =
      .ok (v, rest) := by
    rw [withError, h]
  rw [readNumericTransportParameter, remaining_bind, bind_of_ok hread, remaining_bind,
    if_neg (not_not.mpr rfl)]
  cases p.setNumeric paramID v <;> rfl

/-- Every delay that is accepted is taken over, and it is less than `MaxMaxAckDelay`. -/
def MaxAckDelayExact (v : Nat) : Prop :=
  ∀ (p : TransportParameters) bytes rest, readVarInt bytes = .ok (v, rest) →
    if v < 2 ^ 14 then
      p.readNumericTransportParameter ParameterID.maxAckDelay.code
          (bytes.length - rest.length) bytes =
        .ok ({ p with maxAckDelay := v * millisecond }, rest)
    else
      ∃ err, p.readNumericTransportParameter ParameterID.maxAckDelay.code
        (bytes.length - rest.length) bytes = .error err

/-- The timeout is not shorter than what the peer has announced. -/
def IdleTimeoutExact (v : Nat) : Prop :=
  ∀ (p p' : TransportParameters) bytes rest rest', readVarInt bytes = .ok (v, rest) →
    p.readNumericTransportParameter ParameterID.idleTimeout.code
        (bytes.length - rest.length) bytes = .ok (p', rest') →
    min (v * millisecond) infDuration ≤ p'.idleTimeout

theorem milliseconds_eq (v : Nat) :
    milliseconds v = if v * 1000000 % 2 ^ 64 < 2 ^ 63 then ((v * 1000000 % 2 ^ 64 : Nat) : Int)
      else ((v * 1000000 % 2 ^ 64 : Nat) : Int) - 2 ^ 64 :=
  bmod_natCast (v * 1000000)

theorem milliseconds_of_lt (h : v * 1000000 < 2 ^ 63) :
    milliseconds v = v * millisecond := by
  unfold millisecond
  rw [milliseconds_eq]
  split_ifs <;> omega

private theorem setNumeric_of_lt (h : v < 2 ^ 14) (p : TransportParameters) :
    p.setNumeric ParameterID.maxAckDelay.code v =
      .ok { p with maxAckDelay := v * millisecond } := by
  have hdelay := milliseconds_of_lt (by omega : v * 1000000 < 2 ^ 63)
  have hnonneg : ¬ (v : Int) * millisecond < 0 := by
    unfold millisecond
    omega
  have hlow : ¬ (v : Int) * millisecond ≥ maxMaxAckDelay := by
    unfold maxMaxAckDelay millisecond
    omega
  rw [setNumeric, ParameterID.ofCode_code]
  simp only [hdelay, hlow, hnonneg, if_false]

private theorem setNumeric_eq_error_iff (v : Nat) (p : TransportParameters) :
    (∃ err, p.setNumeric ParameterID.maxAckDelay.code v = .error err) ↔
      2 ^ 14 * 1000000 ≤ v * 1000000 % 2 ^ 64 ∧ v * 1000000 % 2 ^ 64 < 2 ^ 63 := by
  have hlarge : maxMaxAckDelay ≤ milliseconds v ↔
      2 ^ 14 * 1000000 ≤ v * 1000000 % 2 ^ 64 ∧ v * 1000000 % 2 ^ 64 < 2 ^ 63 := by
    unfold maxMaxAckDelay millisecond
    rw [milliseconds_eq]
    split_ifs <;> omega
  rw [setNumeric, ParameterID.ofCode_code, ← hlarge]
  dsimp only
  split_ifs with hlarge hneg <;> simp [hlarge]

theorem exists_readVarInt (h : v ≤ maxVarInt8) :
    ∃ bytes, readVarInt bytes = .ok (v, []) :=
  ⟨varIntBytes v ++ [], reads_readVarInt (writeVarInt_eq_varIntBytes h) []⟩

theorem maxAckDelayExact_iff (h : v ≤ maxVarInt8) :
    MaxAckDelayExact v ↔ v < 2 ^ 14 ∨
      2 ^ 14 * 1000000 ≤ v * 1000000 % 2 ^ 64 ∧ v * 1000000 % 2 ^ 64 < 2 ^ 63 := by
  constructor
  · intro hexact
    obtain ⟨bytes, hread⟩ := exists_readVarInt h
    refine or_iff_not_imp_left.mpr fun hlarge => ?_
    have herror := hexact zero bytes [] hread
    rw [if_neg hlarge, readNumericTransportParameter_eq hread] at herror
    obtain ⟨err, herr⟩ := herror
    refine (setNumeric_eq_error_iff v zero).mp ?_
    cases hset : zero.setNumeric ParameterID.maxAckDelay.code v with
    | error err => exact ⟨err, rfl⟩
    | ok p' =>
      rw [hset] at herr
      cases herr
  · intro hcases p bytes rest hread
    rw [readNumericTransportParameter_eq hread]
    split_ifs with hsmall
    · rw [setNumeric_of_lt hsmall]
      rfl
    · obtain ⟨err, herr⟩ := (setNumeric_eq_error_iff v p).mpr (hcases.resolve_left hsmall)
      exact ⟨err, by rw [herr]; rfl⟩

theorem idleTimeoutExact_iff (h : v ≤ maxVarInt8) :
    IdleTimeoutExact v ↔ v * 1000000 < 2 ^ 63 := by
  have hset : ∀ p : TransportParameters, p.setNumeric ParameterID.idleTimeout.code v =
      .ok { p with idleTimeout := max minRemoteIdleTimeout (milliseconds v) } :=
    fun _ => rfl
  constructor
  · intro hexact
    obtain ⟨bytes, hread⟩ := exists_readVarInt h
    have hparam := readNumericTransportParameter_eq hread zero ParameterID.idleTimeout.code
    have hmin := hexact _ _ _ _ _ hread hparam
    rw [milliseconds_eq] at hmin
    unfold minRemoteIdleTimeout infDuration millisecond at hmin
    dsimp only at hmin
    split_ifs at hmin <;> omega
  · intro hlt p p' bytes rest rest' hread hparam
    rw [readNumericTransportParameter_eq hread, hset, milliseconds_of_lt hlt] at hparam
    cases hparam
    exact (min_le_left _ _).trans (le_max_right _ _)

end TransportParameters

open TransportParameters

/--
The durations are exact as long as no product wraps to a number that is not negative; a
timeout is never checked.
-/
theorem durations_exact_iff {v : Nat} (h : v ≤ maxVarInt8) (ackDelayExponent : Nat) :
    (AckDelayExact v ackDelayExponent ↔
      v * 2 ^ ackDelayExponent * 1000 < 2 ^ 63 ∨
        2 ^ 63 ≤ v * 2 ^ ackDelayExponent * 1000 % 2 ^ 64) ∧
    (MaxAckDelayExact v ↔ v < 2 ^ 14 ∨
      2 ^ 14 * 1000000 ≤ v * 1000000 % 2 ^ 64 ∧ v * 1000000 % 2 ^ 64 < 2 ^ 63) ∧
    (IdleTimeoutExact v ↔ v * 1000000 < 2 ^ 63) :=
  ⟨ackDelayExact_iff h ackDelayExponent, maxAckDelayExact_iff h, idleTimeoutExact_iff h⟩

theorem durations_exact_thirty :
    AckDelayExact 30 3 ∧ MaxAckDelayExact 30 ∧ IdleTimeoutExact 30 := by
  obtain ⟨hack, hmax, hidle⟩ := durations_exact_iff (v := 30) (by decide) 3
  exact ⟨hack.mpr (.inl (by decide)), hmax.mpr (.inl (by decide)), hidle.mpr (by decide)⟩

/--
A delay of 2 ^ 61 microseconds is taken for none at all.  The largest number for
`max_ack_delay` is accepted, and the longest idle timeout becomes five seconds.
-/
theorem durations_wrap : (parseAckFrame 0 [0x2, 0, 0xe0, 0, 0, 0, 0, 0, 0, 0, 0, 0] =
        .ok (⟨[⟨0, 0⟩], 0⟩, []) ∧ ¬ AckDelayExact (2 ^ 61) 0) ∧
    (zero.setNumeric ParameterID.maxAckDelay.code maxVarInt8 =
      .ok { zero with maxAckDelay := infDuration } ∧ ¬ MaxAckDelayExact maxVarInt8) ∧
    (zero.setNumeric ParameterID.idleTimeout.code maxVarInt8 =
      .ok { zero with idleTimeout := minRemoteIdleTimeout } ∧
        ¬ IdleTimeoutExact maxVarInt8) := by
  refine ⟨⟨by decide +kernel, ?_⟩, ⟨by decide +kernel, ?_⟩, by decide +kernel, ?_⟩
  · exact mt (ackDelayExact_iff (by decide) 0).mp (by decide +kernel)
  · exact mt (maxAckDelayExact_iff (by decide)).mp (by decide +kernel)
  · exact mt (idleTimeoutExact_iff (by decide)).mp (by decide +kernel)

end Qperf.Quic
