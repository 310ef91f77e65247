import Qperf.Quic.StreamFrame
import Mathlib.Tactic.Ring

/-!
# Sizes of encoded frames

`varIntSize` and `wireLen` are the sizes that `VarIntLen` and `Length` return for
numbers that fit into 62 bits.  `MaxDataLen` is shown to be the largest amount of
data for which a frame is not longer than the given size, and `Write` to produce
as many bytes as `Length` says.
-/

namespace Qperf.Quic

open Qperf.Foundation

/-! ## Variable-length integers -/

def varIntSize (i : Nat) : Nat :=
  if i ≤ maxVarInt1 then 1
  else if i ≤ maxVarInt2 then 2
  else if i ≤ maxVarInt4 then 4
  else 8

theorem varIntLen_of_le {i : Nat} (h : i ≤ maxVarInt8) :
    varIntLen i = .ok (varIntSize i) := by
  unfold varIntLen varIntSize
  split
  · rfl
  split
  · rfl
  split
  · rfl
  · rfl

theorem varIntLen_of_lt {i : Nat} (h : maxVarInt8 < i) :
    varIntLen i = .error (.varIntTooLarge i) := by
  unfold varIntLen
  unfold maxVarInt8 at h
  unfold maxVarInt1 maxVarInt2 maxVarInt4 maxVarInt8
  rw [if_neg (by omega), if_neg (by omega), if_neg (by omega), if_neg (by omega)]

theorem varIntSize_mono {i j : Nat} (h : i ≤ j) : varIntSize i ≤ varIntSize j := by
  unfold varIntSize maxVarInt1 maxVarInt2 maxVarInt4
  split_ifs <;> omega

theorem varIntSize_pos (i : Nat) : 1 ≤ varIntSize i := by
  unfold varIntSize
  split_ifs <;> decide

theorem varIntSize_le (i : Nat) : varIntSize i ≤ 8 := by
  unfold varIntSize
  split_ifs <;> decide

theorem varIntSize_of_le {i : Nat} (h : i ≤ 63) : varIntSize i = 1 :=
  if_pos h

theorem varIntSize_of_le_two {i : Nat} (h : 63 < i) (h' : i ≤ 16383) :
    varIntSize i = 2 := by
  unfold varIntSize maxVarInt1 maxVarInt2
  rw [if_neg (by omega), if_pos h']

namespace StreamFrame

/-! ## Length -/

/-- The numbers of the frame can be encoded, and its data is in a pooled buffer. -/
structure Valid (f : StreamFrame) : Prop where
  streamID : f.streamID ≤ maxVarInt8
  offset : f.offset + f.dataLen ≤ maxVarInt8
  dataLen : f.dataLen ≤ maxReceivePacketSize

def prefixLen (f : StreamFrame) : Nat :=
  1 + varIntSize f.streamID + if f.offset ≠ 0 then varIntSize f.offset else 0

def wireLen (f : StreamFrame) : Nat :=
  f.prefixLen + (if f.dataLenPresent then varIntSize f.dataLen else 0) + f.dataLen

theorem prefixLen_bounds (f : StreamFrame) : 2 ≤ f.prefixLen ∧ f.prefixLen ≤ 17 := by
  have hid := varIntSize_pos f.streamID
  have hid' := varIntSize_le f.streamID
  have hoffset := varIntSize_le f.offset
  unfold prefixLen
  split_ifs <;> omega

variable {f : StreamFrame}

theorem baseLen_of_le (hid : f.streamID ≤ maxVarInt8)
    (hoffset : f.offset ≤ maxVarInt8) : f.baseLen = .ok f.prefixLen := by
  unfold baseLen prefixLen
  rw [varIntLen_of_le hid, ok_bind]
  split
  · rw [varIntLen_of_le hoffset, ok_bind]
    rfl
  · rfl

theorem Valid.baseLen (h : f.Valid) : f.baseLen = .ok f.prefixLen :=
  baseLen_of_le h.streamID (Nat.le_trans (Nat.le_add_right ..) h.offset)

theorem length_of_le (hbase : f.baseLen = .ok f.prefixLen)
    (hlen : f.dataLen ≤ maxVarInt8) : f.length = .ok f.wireLen := by
  unfold StreamFrame.length wireLen
  rw [hbase, ok_bind]
  split
  · rw [varIntLen_of_le hlen, ok_bind]
    rfl
  · rfl

theorem Valid.length (h : f.Valid) : f.length = .ok f.wireLen :=
  length_of_le h.baseLen (Nat.le_trans (Nat.le_add_left ..) h.offset)

/-! ## Room for data -/

def lenWithData (f : StreamFrame) (n : Nat) : Nat :=
  f.prefixLen + (if f.dataLenPresent then varIntSize n else 0) + n

/-- What `MaxDataLen` computes, for sizes whose length field takes two bytes. -/
def room (f : StreamFrame) (maxSize : Nat) : Nat :=
  let headerLen := if f.dataLenPresent then f.prefixLen + 1 else f.prefixLen
  if maxSize < headerLen then 0
  else if f.dataLenPresent && decide (63 < maxSize - headerLen) then
    maxSize - headerLen - 1
  else maxSize - headerLen

variable {maxSize : Nat}

theorem maxDataLen_of_baseLen (hbase : f.baseLen = .ok f.prefixLen) (hmax : maxSize ≤ 16383) :
    f.maxDataLen maxSize = .ok (f.room maxSize) := by
  unfold maxDataLen room
  rw [hbase, ok_bind]
  cases hpresent : f.dataLenPresent with
  | false =>
    simp only [Bool.false_eq_true, if_false, Bool.false_and]
    split <;> rfl
  | true =>
    simp only [if_true, Bool.true_and, decide_eq_true_eq]
    split
    · rfl
    · have hle : maxSize - (f.prefixLen + 1) ≤ maxVarInt8 := by
        unfold maxVarInt8
        omega
      rw [varIntLen_of_le hle, ok_bind]
      by_cases hsmall : 63 < maxSize - (f.prefixLen + 1)
      · rw [varIntSize_of_le_two hsmall (by omega), if_pos hsmall]
        rfl
      · rw [varIntSize_of_le (by omega), if_neg hsmall]
        rfl

theorem lenWithData_le_iff {n : Nat} (hmax : maxSize ≤ 16383) (hroom : 0 < f.room maxSize) :
    f.lenWithData n ≤ maxSize ↔ n ≤ f.room maxSize := by
  have hsmall : n ≤ 63 → varIntSize n = 1 := varIntSize_of_le
  have hmedium : 63 < n → n ≤ 16383 → varIntSize n = 2 := varIntSize_of_le_two
  unfold room lenWithData at *
  cases hpresent : f.dataLenPresent with
  | false =>
    simp only [hpresent, Bool.false_eq_true, if_false, Bool.false_and,
      Nat.add_zero] at hroom ⊢
    split at hroom
    · omega
    · rw [if_neg (by assumption)]
      omega
  | true =>
    simp only [hpresent, if_true, Bool.true_and, decide_eq_true_eq] at hroom ⊢
    split at hroom
    · omega
    · rw [if_neg (by assumption)]
      split
      · omega
      · omega

theorem room_eq_zero_iff (f : StreamFrame) (maxSize : Nat) :
    f.room maxSize = 0 ↔ maxSize ≤ f.lenWithData 0 := by
  have hzero : varIntSize 0 = 1 := rfl
  unfold room lenWithData
  cases f.dataLenPresent with
  | false =>
    simp only [Bool.false_eq_true, if_false, Bool.false_and, Nat.add_zero]
    split <;> omega
  | true =>
    simp only [if_true, Bool.true_and, decide_eq_true_eq, hzero, Nat.add_zero]
    split
    · omega
    · split <;> omega

theorem room_le (f : StreamFrame) (maxSize : Nat) : f.room maxSize ≤ maxSize - 2 := by
  have hpre := (prefixLen_bounds f).1
  unfold room
  dsimp only
  split_ifs <;> omega

private theorem wireLen_eq_lenWithData (f : StreamFrame) :
    f.wireLen = f.lenWithData f.dataLen := rfl

theorem room_lt_dataLen (hmax : maxSize ≤ 16383)
    (hroom : f.room maxSize ≠ 0) (hlong : maxSize < f.wireLen) :
    f.room maxSize < f.dataLen := by
  apply Nat.lt_of_not_le
  intro hle
  have hfits := (lenWithData_le_iff hmax (Nat.pos_of_ne_zero hroom)).mpr hle
  rw [wireLen_eq_lenWithData] at hlong
  omega

/-! ## Splitting -/

def splitFirst (f : StreamFrame) (n : Nat) : StreamFrame :=
  { f with data := f.data.take n, finBit := false }

def splitRest (f : StreamFrame) (n : Nat) : StreamFrame :=
  { f with data := f.data.drop n, offset := f.offset + n }

theorem maybeSplitOffFrame_of_baseLen (hbase : f.baseLen = .ok f.prefixLen)
    (hlen : f.dataLen ≤ maxReceivePacketSize) (hmax : maxSize ≤ 16383) :
    f.maybeSplitOffFrame maxSize = .ok
      (if f.wireLen ≤ maxSize then .fits else if f.room maxSize = 0 then .tooSmall
      else .split (f.splitFirst (f.room maxSize))
        (f.splitRest (f.room maxSize))) := by
  unfold StreamFrame.maybeSplitOffFrame
  rw [length_of_le hbase (Nat.le_trans hlen (by decide)), ok_bind]
  split
  · rfl
  · next hlong =>
    rw [maxDataLen_of_baseLen hbase hmax, ok_bind]
    split
    · rfl
    · next hroom =>
      have hlt := room_lt_dataLen hmax hroom (Nat.lt_of_not_le hlong)
      rw [if_neg (by omega)]
      rfl

theorem Valid.maybeSplitOffFrame (h : f.Valid) (hmax : maxSize ≤ 16383) :
    f.maybeSplitOffFrame maxSize = .ok
      (if f.wireLen ≤ maxSize then .fits else if f.room maxSize = 0 then .tooSmall
      else .split (f.splitFirst (f.room maxSize))
        (f.splitRest (f.room maxSize))) :=
  maybeSplitOffFrame_of_baseLen h.baseLen h.dataLen hmax

theorem Valid.splitFirst (h : f.Valid) (n : Nat) : (f.splitFirst n).Valid := by
  have hoffset := h.offset
  have hlen := h.dataLen
  have htake : (f.data.take n).length ≤ f.data.length := List.length_take_le' ..
  unfold StreamFrame.dataLen at hoffset hlen
  refine ⟨h.streamID, ?_, ?_⟩
  · change f.offset + (f.data.take n).length ≤ maxVarInt8
    omega
  · change (f.data.take n).length ≤ maxReceivePacketSize
    omega

theorem Valid.splitRest (h : f.Valid) {n : Nat} (hn : n ≤ f.dataLen) :
    (f.splitRest n).Valid := by
  have hoffset := h.offset
  have hlen := h.dataLen
  unfold StreamFrame.dataLen at hoffset hlen hn
  have hdrop : (f.data.drop n).length = f.data.length - n := List.length_drop ..
  refine ⟨h.streamID, ?_, ?_⟩
  · change f.offset + n + (f.data.drop n).length ≤ maxVarInt8
    omega
  · change (f.data.drop n).length ≤ maxReceivePacketSize
    omega

theorem wireLen_splitFirst_le (hmax : maxSize ≤ 16383) (hroom : f.room maxSize ≠ 0) :
    (f.splitFirst (f.room maxSize)).wireLen ≤ maxSize := by
  have htake : (f.splitFirst (f.room maxSize)).dataLen ≤ f.room maxSize := by
    exact List.length_take_le ..
  exact (lenWithData_le_iff hmax (Nat.pos_of_ne_zero hroom)).mpr htake

end StreamFrame

/-! ## Writing -/

/-- How a function that returns an error can end without a result. -/
inductive Failure where
  | error (message : String)
  | panic (cause : GoPanic)
  deriving DecidableEq, Repr

def writeVarInt (i : Nat) : Except Failure (List UInt8) :=
  if i ≤ maxVarInt1 then .ok [UInt8.ofNat i]
  else if i ≤ maxVarInt2 then
    .ok [UInt8.ofNat (i >>> 8) ||| 0x40, UInt8.ofNat i]
  else if i ≤ maxVarInt4 then
    .ok [UInt8.ofNat (i >>> 24) ||| 0x80, UInt8.ofNat (i >>> 16),
      UInt8.ofNat (i >>> 8), UInt8.ofNat i]
  else if i ≤ maxVarInt8 then
    .ok [UInt8.ofNat (i >>> 56) ||| 0xc0, UInt8.ofNat (i >>> 48),
      UInt8.ofNat (i >>> 40), UInt8.ofNat (i >>> 32),
      UInt8.ofNat (i >>> 24), UInt8.ofNat (i >>> 16),
      UInt8.ofNat (i >>> 8), UInt8.ofNat i]
  else .error (.panic (.varIntTooLarge i))

def writeOptionalVarInt (present : Bool) (i : Nat) : Except Failure (List UInt8) :=
  if present then writeVarInt i else .ok []

def StreamFrame.typeByte (f : StreamFrame) : UInt8 :=
  0x8 ^^^ (if f.finBit then 0x1 else 0) ^^^
    (if f.dataLenPresent then 0x2 else 0) ^^^ (if f.offset ≠ 0 then 0x4 else 0)

def StreamFrame.write (f : StreamFrame) : Except Failure (List UInt8) :=
  if f.data.isEmpty && !f.finBit then
    .error (.error "StreamFrame: attempting to write empty frame without FIN")
  else do
    let streamID ← writeVarInt f.streamID
    let offset ← writeOptionalVarInt (f.offset ≠ 0) f.offset
    let dataLen ← writeOptionalVarInt f.dataLenPresent f.dataLen
    return f.typeByte :: streamID ++ offset ++ dataLen ++ f.data

theorem writeVarInt_of_le {i : Nat} (h : i ≤ maxVarInt8) :
    ∃ bytes, writeVarInt i = .ok bytes ∧ bytes.length = varIntSize i := by
  unfold writeVarInt varIntSize
  split
  · exact ⟨_, rfl, rfl⟩
  split
  · exact ⟨_, rfl, rfl⟩
  split
  · exact ⟨_, rfl, rfl⟩
  · exact ⟨_, rfl, rfl⟩

private theorem writeOptionalVarInt_of_le (present : Bool) {i : Nat} (h : i ≤ maxVarInt8) :
    ∃ bytes, writeOptionalVarInt present i = .ok bytes ∧
      bytes.length = if present then varIntSize i else 0 := by
  cases present with
  | false => exact ⟨[], rfl, rfl⟩
  | true => exact writeVarInt_of_le h

theorem StreamFrame.Valid.write {f : StreamFrame} (h : f.Valid)
    (hwritten : f.data ≠ [] ∨ f.finBit = true) :
    ∃ bytes, f.write = .ok bytes ∧ bytes.length = f.wireLen := by
  have hoffset : f.offset ≤ maxVarInt8 := Nat.le_trans (Nat.le_add_right ..) h.offset
  have hlen : f.dataLen ≤ maxVarInt8 := Nat.le_trans (Nat.le_add_left ..) h.offset
  obtain ⟨id, hid, hidLen⟩ := writeVarInt_of_le h.streamID
  obtain ⟨offset, hoff, hoffLen⟩ := writeOptionalVarInt_of_le (f.offset ≠ 0) hoffset
  obtain ⟨len, hlen', hlenLen⟩ := writeOptionalVarInt_of_le f.dataLenPresent hlen
  have hguard : (f.data.isEmpty && !f.finBit) = false := by
    rcases hwritten with hdata | hfin
    · simp [hdata]
    · simp [hfin]
  refine ⟨f.typeByte :: id ++ offset ++ len ++ f.data, ?_, ?_⟩
  · unfold StreamFrame.write
    rw [hguard, hid, hoff, hlen']
    rfl
  · simp only [List.length_append, List.length_cons, hidLen, hoffLen, hlenLen,
      wireLen, prefixLen, StreamFrame.dataLen, decide_eq_true_eq]
    omega

end Qperf.Quic
