import Qperf.Quic.FrameSizes

/-!
# Splitting frames of the pool

`MaybeSplitOffFrame` gets a frame from the pool, swaps the data slices of the two
frames and copies what is left of the data into the slice from the pool.  On what is sent
this has the effect of `StreamFrame.maybeSplitOffFrame`.
-/

namespace Qperf.Quic

open Qperf.Foundation

/-- A slice: the first `len` bytes of an array that goes up to its capacity. -/
structure DataSlice where
  array : List UInt8
  len : Nat
  inBounds : len ≤ array.length

namespace DataSlice

def bytes (s : DataSlice) : List UInt8 := s.array.take s.len

def cap (s : DataSlice) : Nat := s.array.length

def upTo (s : DataSlice) (n : Nat) : Except GoPanic DataSlice :=
  if h : n ≤ s.array.length then .ok ⟨s.array, n, h⟩ else .error .sliceBounds

theorem length_copied (s : DataSlice) (src : List UInt8) :
    (src.take s.len ++ s.array.drop (min s.len src.length)).length = s.array.length := by
  have := s.inBounds
  rw [List.length_append, List.length_take, List.length_drop]
  omega

def copy (s : DataSlice) (src : List UInt8) : DataSlice where
  array := src.take s.len ++ s.array.drop (min s.len src.length)
  len := s.len
  inBounds := Nat.le_trans s.inBounds (Nat.le_of_eq (s.length_copied src).symm)

theorem length_bytes (s : DataSlice) : s.bytes.length = s.len := by
  rw [bytes, List.length_take, Nat.min_eq_left s.inBounds]

private theorem bytes_copy (s : DataSlice) (src : List UInt8) (h : src.length = s.len) :
    (s.copy src).bytes = src := by
  change (src.take s.len ++ s.array.drop _).take s.len = src
  rw [← h, List.take_length, List.take_left]

end DataSlice

/-- `StreamFrame` in the source: the data is a slice, which may be from the pool. -/
structure PooledFrame where
  streamID : StreamID
  offset : Nat
  data : DataSlice
  finBit : Bool
  dataLenPresent : Bool
  fromPool : Bool

namespace PooledFrame

def frame (f : PooledFrame) : StreamFrame :=
  ⟨f.streamID, f.offset, f.data.bytes, f.finBit, f.dataLenPresent⟩

/--
`pooled` is the frame that `GetStreamFrame` returns, whose array no other frame uses.
The results are the new frame, the frame itself and whether splitting was required.
-/
def maybeSplitOffFrame (f pooled : PooledFrame) (maxSize : Nat) :
    Except GoPanic (Option PooledFrame × PooledFrame × Bool) := do
  let length ← f.frame.length
  if maxSize ≥ length then
    return (none, f, false)
  else
    let n ← f.frame.maxDataLen maxSize
    if n = 0 then
      return (none, f, true)
    else if n > f.data.len then
      .error .sliceBounds
    else
      let data ← pooled.data.upTo (f.data.len - n)
      let newData ← f.data.upTo n
      return (some
          { pooled with
            streamID := f.streamID
            offset := f.offset
            finBit := false
            dataLenPresent := f.dataLenPresent
            data := newData
            fromPool := f.fromPool },
        { f with
          data := data.copy (f.data.bytes.drop n)
          offset := f.offset + n
          fromPool := pooled.fromPool },
        true)

def putStreamFrame (f : PooledFrame) : Except GoPanic (Option PooledFrame) :=
  if !f.fromPool then .ok none
  else if f.data.cap ≠ maxReceivePacketSize then .error .wrongFrameSize
  else .ok (some f)

def fresh : PooledFrame :=
  ⟨0, 0, ⟨List.replicate maxReceivePacketSize 0, 0, Nat.zero_le _⟩, false, false, true⟩

def PoolSized (f : PooledFrame) : Prop := f.fromPool = true → f.data.cap = maxReceivePacketSize

variable {f pooled : PooledFrame} {maxSize : Nat}

theorem PoolSized.putStreamFrame (h : f.PoolSized) :
    ∃ returned, f.putStreamFrame = .ok returned := by
  unfold PooledFrame.putStreamFrame
  split
  · exact ⟨_, rfl⟩
  · next hpool => exact ⟨_, if_neg (not_not.mpr (h (by simpa using hpool)))⟩

/-! ## The swap -/

theorem upTo_swap {n : Nat} (hn : n ≤ f.data.len) (hcap : f.data.len - n ≤ pooled.data.cap) :
    ∃ data newData, pooled.data.upTo (f.data.len - n) = .ok data ∧
      f.data.upTo n = .ok newData ∧ newData.bytes = f.data.bytes.take n ∧
      (data.copy (f.data.bytes.drop n)).bytes = f.data.bytes.drop n ∧
      newData.cap = f.data.cap ∧ (data.copy (f.data.bytes.drop n)).cap = pooled.data.cap := by
  refine ⟨_, _, dif_pos hcap, dif_pos (Nat.le_trans hn f.data.inBounds), ?_, ?_, rfl,
    DataSlice.length_copied ..⟩
  · rw [DataSlice.bytes, DataSlice.bytes, List.take_take, Nat.min_eq_left hn]
  · exact DataSlice.bytes_copy _ _ (by rw [List.length_drop, DataSlice.length_bytes])

/-- What the result says about the frames that are sent. -/
def sentFrames : Option PooledFrame × PooledFrame × Bool → StreamFrame.Split
  | (none, _, false) => .fits
  | (none, _, true) => .tooSmall
  | (some new, rest, _) => .split new.frame rest.frame

theorem maybeSplitOffFrame_sentFrames (hpool : pooled.data.cap = maxReceivePacketSize) :
    (f.maybeSplitOffFrame pooled maxSize).map sentFrames =
      f.frame.maybeSplitOffFrame maxSize := by
  have hbytes : f.frame.dataLen = f.data.len := f.data.length_bytes
  unfold maybeSplitOffFrame StreamFrame.maybeSplitOffFrame
  cases f.frame.length with
  | error => rfl
  | ok length =>
    simp only [ok_bind]
    split_ifs with hfits
    · rfl
    cases f.frame.maxDataLen maxSize with
    | error => rfl
    | ok n =>
      simp only [ok_bind, hbytes]
      by_cases hzero : n = 0
      · rw [if_pos hzero, if_pos hzero]
        rfl
      rw [if_neg hzero, if_neg hzero]
      by_cases hlong : n > f.data.len
      · rw [if_pos hlong, if_pos (.inl hlong)]
        rfl
      rw [if_neg hlong]
      by_cases hcut : f.data.len - n > maxReceivePacketSize
      · have hupTo : pooled.data.upTo (f.data.len - n) = .error .sliceBounds :=
          dif_neg (Nat.not_le.mpr (hpool.trans_lt hcut))
        rw [if_pos (.inr hcut), hupTo]
        rfl
      · obtain ⟨data, newData, hdata, hnew, hfirst, hrest, -⟩ :=
          upTo_swap (Nat.not_lt.mp hlong) (hpool.symm ▸ Nat.not_lt.mp hcut)
        rw [if_neg (not_or.mpr ⟨hlong, hcut⟩), hdata, ok_bind, hnew, ok_bind]
        simp only [Except.map, pure, Except.pure, sentFrames, frame, hfirst, hrest]

structure Swapped (f pooled new rest : PooledFrame) (n : Nat) : Prop where
  newFrame : new.frame = f.frame.splitFirst n
  restFrame : rest.frame = f.frame.splitRest n
  newPool : new.fromPool = f.fromPool ∧ new.data.cap = f.data.cap
  restPool : rest.fromPool = pooled.fromPool ∧ rest.data.cap = pooled.data.cap

theorem maybeSplitOffFrame_eq (hbase : f.frame.baseLen = .ok f.frame.prefixLen)
    (hlen : f.data.len ≤ maxReceivePacketSize)
    (hpool : pooled.data.cap = maxReceivePacketSize) (hmax : maxSize ≤ 16383) :
    if f.frame.wireLen ≤ maxSize then f.maybeSplitOffFrame pooled maxSize = .ok (none, f, false)
    else if f.frame.room maxSize = 0 then
      f.maybeSplitOffFrame pooled maxSize = .ok (none, f, true)
    else ∃ new rest, f.maybeSplitOffFrame pooled maxSize = .ok (some new, rest, true) ∧
      Swapped f pooled new rest (f.frame.room maxSize) := by
  have hbytes : f.frame.dataLen = f.data.len := f.data.length_bytes
  unfold maybeSplitOffFrame
  rw [StreamFrame.length_of_le hbase (by rw [hbytes]; exact Nat.le_trans hlen (by decide)),
    ok_bind]
  split
  · rfl
  · next hlong =>
    rw [StreamFrame.maxDataLen_of_baseLen hbase hmax, ok_bind]
    split
    · rfl
    · next hroom =>
      have hlt := StreamFrame.room_lt_dataLen hmax hroom (Nat.lt_of_not_le hlong)
      rw [hbytes] at hlt
      have hupTo : f.data.len - f.frame.room maxSize ≤ pooled.data.cap := by omega
      obtain ⟨data, newData, hdata, hnew, hfirst, hrest, hcaps⟩ :=
        upTo_swap (Nat.le_of_lt hlt) hupTo
      rw [if_neg (Nat.not_lt.mpr (Nat.le_of_lt hlt)), hdata, ok_bind, hnew, ok_bind]
      refine ⟨_, _, rfl, ?_, ?_, ⟨rfl, hcaps.1⟩, rfl, hcaps.2⟩
      · rw [frame, hfirst]
        rfl
      · rw [frame, hrest]
        rfl

/-! ## Sizes and splits -/

/-- `n` bytes of data fit into a frame of the size, and one more byte does not. -/
structure Tight (f : StreamFrame) (maxSize n : Nat) : Prop where
  fits : ∀ data : List UInt8, data.length = n →
    ∃ length ≤ maxSize, StreamFrame.length { f with data } = .ok length
  exceeds : ∀ data : List UInt8, data.length = n + 1 →
    ∃ length > maxSize, StreamFrame.length { f with data } = .ok length

theorem tight_room {f : StreamFrame} (hbase : f.baseLen = .ok f.prefixLen)
    (hmax : maxSize ≤ 16383) (hroom : 0 < f.room maxSize) :
    Tight f maxSize (f.room maxSize) := by
  have hle := f.room_le maxSize
  have hlength : ∀ data : List UInt8, data.length ≤ 16383 →
      StreamFrame.length { f with data } = .ok (f.lenWithData data.length) := by
    intro data hdata
    exact StreamFrame.length_of_le (f := { f with data }) hbase
      (Nat.le_trans hdata (by decide))
  constructor
  · intro data hdata
    refine ⟨_, ?_, hlength data (by omega)⟩
    exact (StreamFrame.lenWithData_le_iff hmax hroom).mpr (Nat.le_of_eq hdata)
  · intro data hdata
    refine ⟨_, ?_, hlength data (by omega)⟩
    apply Nat.lt_of_not_le
    intro hfits
    have := (StreamFrame.lenWithData_le_iff hmax hroom).mp hfits
    omega

/-- The data is distributed over two frames, the first of which has the given size. -/
structure Lossless (f first rest : StreamFrame) (maxSize : Nat) : Prop where
  length : ∃ length ≤ maxSize, first.length = .ok length
  noFin : first.finBit = false
  data : first.data ++ rest.data = f.data
  first_ne : first.data ≠ []
  rest_ne : rest.data ≠ []
  streamID : first.streamID = f.streamID ∧ rest.streamID = f.streamID
  offset : first.offset = f.offset ∧ rest.offset = f.offset + first.dataLen
  finBit : rest.finBit = f.finBit
  dataLenPresent : first.dataLenPresent = f.dataLenPresent ∧
    rest.dataLenPresent = f.dataLenPresent

theorem lossless_split {f : StreamFrame} (hbase : f.baseLen = .ok f.prefixLen)
    (hmax : maxSize ≤ 16383) (hroom : f.room maxSize ≠ 0) (hlong : maxSize < f.wireLen) :
    Lossless f (f.splitFirst (f.room maxSize)) (f.splitRest (f.room maxSize)) maxSize := by
  have hlt := StreamFrame.room_lt_dataLen hmax hroom hlong
  have hfirst : (f.data.take (f.room maxSize)).length = f.room maxSize :=
    List.length_take_of_le (Nat.le_of_lt hlt)
  refine ⟨?_, rfl, List.take_append_drop .., ?_, ?_, ⟨rfl, rfl⟩, ⟨rfl, ?_⟩, rfl, rfl, rfl⟩
  · exact (tight_room hbase hmax (Nat.pos_of_ne_zero hroom)).fits _ hfirst
  · exact List.ne_nil_of_length_pos
      (Nat.lt_of_lt_of_eq (Nat.pos_of_ne_zero hroom) hfirst.symm)
  · refine List.ne_nil_of_length_pos (Nat.lt_of_lt_of_eq ?_ List.length_drop.symm)
    exact Nat.sub_pos_of_lt hlt
  · exact congrArg (f.offset + ·) hfirst.symm

/--
`MaxDataLen` is the most data that fits, and `MaybeSplitOffFrame` splits a frame that
is too long unless no data fits.  Frames from the pool can be put back afterwards.
-/
theorem split_optimal_lossless (f pooled : PooledFrame) (maxSize : Nat)
    (hid : f.streamID ≤ maxVarInt8) (hoffset : f.offset ≤ maxVarInt8)
    (hlen : f.data.len ≤ maxReceivePacketSize)
    (hpool : pooled.data.cap = maxReceivePacketSize) (hmax : maxSize ≤ 16383) :
    ∃ length n, f.frame.length = .ok length ∧ f.frame.maxDataLen maxSize = .ok n ∧
      (0 < n → Tight f.frame maxSize n) ∧
      (f.maybeSplitOffFrame pooled maxSize = .ok (none, f, false) ↔ length ≤ maxSize) ∧
      (f.maybeSplitOffFrame pooled maxSize = .ok (none, f, true) ↔
        maxSize < length ∧ n = 0) ∧
      (maxSize < length → 0 < n →
        ∃ new rest, f.maybeSplitOffFrame pooled maxSize = .ok (some new, rest, true) ∧
          Lossless f.frame new.frame rest.frame maxSize ∧ new.frame.dataLen = n ∧
          (f.PoolSized → ∃ returned, new.putStreamFrame = .ok returned) ∧
          ∃ returned, rest.putStreamFrame = .ok returned) := by
  have hbase : f.frame.baseLen = .ok f.frame.prefixLen :=
    StreamFrame.baseLen_of_le hid hoffset
  have hbytes : f.frame.dataLen = f.data.len := f.data.length_bytes
  refine ⟨f.frame.wireLen, f.frame.room maxSize, StreamFrame.length_of_le hbase ?_,
    StreamFrame.maxDataLen_of_baseLen hbase hmax, tight_room hbase hmax, ?_⟩
  · rw [hbytes]
    exact Nat.le_trans hlen (by decide)
  have hcases := maybeSplitOffFrame_eq hbase hlen hpool hmax
  split at hcases
  · next hfits =>
    rw [hcases]
    exact ⟨by simp [hfits], by simp [Nat.not_lt.mpr hfits],
      fun hlong => absurd hlong (Nat.not_lt.mpr hfits)⟩
  · next hlong =>
    split at hcases
    · next hzero =>
      rw [hcases]
      exact ⟨by simp [hlong], by simp [hzero, Nat.lt_of_not_le hlong],
        fun _ hpos => absurd hzero (Nat.ne_of_gt hpos)⟩
    · next hroom =>
      obtain ⟨new, rest, hsplit, hswapped⟩ := hcases
      rw [hsplit]
      refine ⟨by simp [hlong], by simp [hroom], fun _ _ => ⟨new, rest, rfl, ?_, ?_, ?_, ?_⟩⟩
      · rw [hswapped.newFrame, hswapped.restFrame]
        exact lossless_split hbase hmax hroom (Nat.lt_of_not_le hlong)
      · rw [hswapped.newFrame]
        refine List.length_take_of_le (Nat.le_of_lt ?_)
        exact StreamFrame.room_lt_dataLen hmax hroom (Nat.lt_of_not_le hlong)
      · intro hsized
        refine PoolSized.putStreamFrame fun hnew => ?_
        rw [hswapped.newPool.2]
        exact hsized (hswapped.newPool.1 ▸ hnew)
      · exact PoolSized.putStreamFrame fun _ => hswapped.restPool.2.trans hpool

def hundredBytes : PooledFrame :=
  ⟨4, 0, ⟨List.replicate 100 7, 100, Nat.le_of_eq List.length_replicate.symm⟩, true, true,
    false⟩

theorem split_optimal_lossless_hundredBytes :
    hundredBytes.frame.length = .ok 104 ∧ hundredBytes.frame.maxDataLen 70 = .ok 66 ∧
      Tight hundredBytes.frame 70 66 ∧
      ∃ new rest, hundredBytes.maybeSplitOffFrame fresh 70 = .ok (some new, rest, true) ∧
        Lossless hundredBytes.frame new.frame rest.frame 70 ∧ rest.offset = 66 := by
  have hlength : hundredBytes.frame.length = .ok 104 := by decide +kernel
  have hroom : hundredBytes.frame.maxDataLen 70 = .ok 66 := by decide +kernel
  obtain ⟨length, n, hlength', hroom', htight, -, -, hsplit⟩ :=
    split_optimal_lossless hundredBytes fresh 70 (by decide) (by decide) (by decide)
      List.length_replicate (by decide)
  cases hlength'
  cases hroom'
  obtain ⟨new, rest, heq, hlossless, hn, -⟩ := hsplit (by decide) (by decide)
  refine ⟨hlength, hroom, htight (by decide), new, rest, heq, hlossless, ?_⟩
  have hoffset := hlossless.offset.2
  rw [hn] at hoffset
  exact hoffset

end PooledFrame

end Qperf.Quic
