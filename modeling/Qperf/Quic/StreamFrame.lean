import Qperf.Foundation.Loops

/-!
# STREAM frames

The sizes of variable-length integers and STREAM frames, as the packet packer
computes them before it writes a frame.  Where the Go code panics, the functions
here return an error.
-/

namespace Qperf.Quic

open Qperf.Foundation

abbrev StreamID := Nat

inductive GoPanic where
  | varIntTooLarge (value : Nat)
  | sliceBounds
  | indexOutOfRange
  | negativeOutstandingFrames
  | wrongFrameSize
  deriving DecidableEq, Repr

def minStreamFrameSize : Nat := 128

def maxReceivePacketSize : Nat := 1452

/-! ## Variable-length integers -/

def maxVarInt1 : Nat := 63
def maxVarInt2 : Nat := 16383
def maxVarInt4 : Nat := 1073741823
def maxVarInt8 : Nat := 4611686018427387903

def varIntLen (i : Nat) : Except GoPanic Nat :=
  if i ≤ maxVarInt1 then .ok 1
  else if i ≤ maxVarInt2 then .ok 2
  else if i ≤ maxVarInt4 then .ok 4
  else if i ≤ maxVarInt8 then .ok 8
  else .error (.varIntTooLarge i)

theorem varIntLen_bounds {i n : Nat} (h : varIntLen i = .ok n) : 1 ≤ n ∧ n ≤ 8 := by
  simp only [varIntLen] at h
  repeat' split at h
  all_goals cases h
  all_goals decide

private theorem varIntLen_eq_one_iff {i n : Nat} (h : varIntLen i = .ok n) :
    n = 1 ↔ i ≤ maxVarInt1 := by
  simp only [varIntLen] at h
  repeat' split at h
  all_goals cases h
  all_goals simp [*]

/-! ## Frame sizes -/

structure StreamFrame where
  streamID : StreamID
  offset : Nat
  data : List UInt8
  finBit : Bool
  dataLenPresent : Bool
  deriving DecidableEq, Repr

namespace StreamFrame

def dataLen (f : StreamFrame) : Nat := f.data.length

def baseLen (f : StreamFrame) : Except GoPanic Nat := do
  let idLen ← varIntLen f.streamID
  if f.offset ≠ 0 then
    let offsetLen ← varIntLen f.offset
    return 1 + idLen + offsetLen
  else
    return 1 + idLen

def length (f : StreamFrame) : Except GoPanic Nat := do
  let baseLen ← f.baseLen
  if f.dataLenPresent then
    let lenLen ← varIntLen f.dataLen
    return baseLen + lenLen + f.dataLen
  else
    return baseLen + f.dataLen

def maxDataLen (f : StreamFrame) (maxSize : Nat) : Except GoPanic Nat := do
  let baseLen ← f.baseLen
  -- The data length is taken to need one byte first.
  let headerLen := if f.dataLenPresent then baseLen + 1 else baseLen
  if headerLen > maxSize then
    return 0
  else if f.dataLenPresent then
    let lenLen ← varIntLen (maxSize - headerLen)
    return if lenLen ≠ 1 then maxSize - headerLen - 1 else maxSize - headerLen
  else
    return maxSize - headerLen

/--
What `MaybeSplitOffFrame` returns: no split is needed, the size does not allow
for one byte of data, or a new frame and what is left of the old one.
-/
inductive Split where
  | fits
  | tooSmall
  | split (first rest : StreamFrame)
  deriving DecidableEq, Repr

def maybeSplitOffFrame (f : StreamFrame) (maxSize : Nat) : Except GoPanic Split := do
  let length ← f.length
  if maxSize ≥ length then
    return .fits
  else
    let n ← f.maxDataLen maxSize
    if n = 0 then
      return .tooSmall
    -- The rest is copied into a buffer of the frame pool.
    else if n > f.dataLen ∨ f.dataLen - n > maxReceivePacketSize then
      .error .sliceBounds
    else
      return .split
        { f with data := f.data.take n, finBit := false }
        { f with data := f.data.drop n, offset := f.offset + n }

theorem baseLen_bounds {f : StreamFrame} {n : Nat} (h : f.baseLen = .ok n) :
    2 ≤ n ∧ n ≤ 17 := by
  obtain ⟨idLen, hid, h⟩ := bind_eq_ok.mp h
  have := varIntLen_bounds hid
  split at h
  · obtain ⟨offsetLen, hoffset, h⟩ := bind_eq_ok.mp h
    have := varIntLen_bounds hoffset
    cases h
    omega
  · cases h
    omega

theorem length_of_data_eq_nil {f : StreamFrame} {length : Nat}
    (hpresent : f.dataLenPresent) (hdata : f.data = []) :
    f.length = .ok length ↔ ∃ n, f.baseLen = .ok n ∧ length = n + 1 := by
  simp only [StreamFrame.length, hpresent, dataLen, hdata, List.length_nil]
  rw [bind_eq_ok]
  refine exists_congr fun n => and_congr_right fun _ => ?_
  change Except.ok (n + 1 + 0) = Except.ok length ↔ _
  rw [Except.ok.injEq, Nat.add_zero, eq_comm]

theorem maxDataLen_eq_zero_iff {f : StreamFrame} {maxSize length n : Nat}
    (hpresent : f.dataLenPresent) (hdata : f.data = [])
    (hlength : f.length = .ok length) (h : f.maxDataLen maxSize = .ok n) :
    n = 0 ↔ maxSize ≤ length := by
  obtain ⟨baseLen, hbase, rfl⟩ := (length_of_data_eq_nil hpresent hdata).mp hlength
  simp only [maxDataLen, hbase, ok_bind, hpresent, if_true] at h
  split at h
  · cases h
    omega
  · obtain ⟨lenLen, hlen, h⟩ := bind_eq_ok.mp h
    have hone := varIntLen_eq_one_iff hlen
    cases h
    simp only [maxVarInt1] at hone
    split <;> omega

end StreamFrame

end Qperf.Quic
