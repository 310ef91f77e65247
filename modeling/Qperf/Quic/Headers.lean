import Qperf.Foundation.BigEndian
import Qperf.Quic.ControlFrames
import Qperf.Quic.SentPackets

/-!
# Packet headers

The header of a packet up to its packet number, as it is written before header
protection is applied.  Fields that are not set have Go's zero values.
-/

namespace Qperf.Quic

open Qperf.Foundation

abbrev ConnectionID := List UInt8

inductive PacketType where
  | initial
  | retry
  | handshake
  | zeroRTT
  deriving DecidableEq, Repr

inductive KeyPhaseBit where
  | zero
  | one
  deriving DecidableEq, Repr

/-- Short headers have no type. -/
structure Header where
  isLongHeader : Bool := false
  typeByte : UInt8 := 0
  type : Option PacketType := none
  version : Nat := 0
  srcConnectionID : ConnectionID := []
  destConnectionID : ConnectionID := []
  length : Nat := 0
  token : List UInt8 := []
  supportedVersions : List Nat := []
  origDestConnectionID : ConnectionID := []
  parsedLen : Nat := 0
  deriving DecidableEq, Repr

/-- `unprotectedTypeByte` is the type byte after header protection is removed. -/
structure ExtendedHeader extends Header where
  unprotectedTypeByte : UInt8 := 0
  keyPhase : KeyPhaseBit := .zero
  packetNumberLen : Nat := 0
  packetNumber : PacketNumber := 0
  deriving DecidableEq, Repr

def ExtendedHeader.withLength (h : ExtendedHeader) (length : Nat) :
    ExtendedHeader := { h with length }

/-! ## Writing -/

def writeUint32 (i : Nat) : List UInt8 := bigEndian 4 i

def PacketType.bits : Option PacketType → UInt8
  | some .zeroRTT => 0x1
  | some .handshake => 0x2
  | some .retry => 0x3
  | _ => 0x0

def connIDLenError (length : Nat) : Failure :=
  .error ("invalid connection ID length: " ++ toString length ++ " bytes")

namespace ExtendedHeader

def writePacketNumber (h : ExtendedHeader) : Except Failure (List UInt8) :=
  if 1 ≤ h.packetNumberLen ∧ h.packetNumberLen ≤ 4 then
    .ok (bigEndian h.packetNumberLen (wrapByteCount h.packetNumber))
  else
    .error (.error
      ("invalid packet number length: " ++ toString h.packetNumberLen))

def longFirstByte (h : ExtendedHeader) : UInt8 :=
  let firstByte : UInt8 := (0xc0 : UInt8) ||| (PacketType.bits h.type <<< 4)
  if h.type = some .retry then firstByte
  else firstByte ||| UInt8.ofNat (h.packetNumberLen - 1)

def invariantPart (h : ExtendedHeader) : List UInt8 :=
  h.longFirstByte :: writeUint32 h.version ++
    UInt8.ofNat h.destConnectionID.length :: h.destConnectionID ++
    UInt8.ofNat h.srcConnectionID.length :: h.srcConnectionID

def writeToken (h : ExtendedHeader) : Except Failure (List UInt8) :=
  if h.type = some .initial then do
    let tokenLen ← writeVarInt h.token.length
    return tokenLen ++ h.token
  else .ok []

def writeLongHeader (h : ExtendedHeader) : Except Failure (List UInt8) :=
  if h.type = some .retry then
    .ok (h.invariantPart ++
      UInt8.ofNat h.origDestConnectionID.length :: h.origDestConnectionID ++
      h.token)
  else do
    let token ← h.writeToken
    let length ← writeVarInt h.length
    let packetNumber ← h.writePacketNumber
    return h.invariantPart ++ token ++ length ++ packetNumber

def shortFirstByte (h : ExtendedHeader) : UInt8 :=
  let typeByte : UInt8 := (0x40 : UInt8) ||| UInt8.ofNat (h.packetNumberLen - 1)
  if h.keyPhase = .one then typeByte ||| 0x4 else typeByte

def writeShortHeader (h : ExtendedHeader) : Except Failure (List UInt8) := do
  let packetNumber ← h.writePacketNumber
  return h.shortFirstByte :: h.destConnectionID ++ packetNumber

def write (h : ExtendedHeader) : Except Failure (List UInt8) :=
  if h.destConnectionID.length > maxConnIDLen then
    .error (connIDLenError h.destConnectionID.length)
  else if h.srcConnectionID.length > maxConnIDLen then
    .error (connIDLenError h.srcConnectionID.length)
  else if h.origDestConnectionID.length > maxConnIDLen then
    .error (connIDLenError h.origDestConnectionID.length)
  else if h.isLongHeader then h.writeLongHeader
  else h.writeShortHeader

def getLength (h : ExtendedHeader) : Except GoPanic Nat :=
  if h.isLongHeader then do
    let lengthLen ← varIntLen h.length
    let length := 1 + 4 + 1 + h.destConnectionID.length + 1 +
      h.srcConnectionID.length + h.packetNumberLen + lengthLen
    if h.type = some .initial then
      let tokenLen ← varIntLen h.token.length
      return length + (tokenLen + h.token.length)
    else
      return length
  else
    .ok (1 + h.destConnectionID.length + h.packetNumberLen)

/-! ## Sizes -/

def wireLen (h : ExtendedHeader) : Nat :=
  if h.isLongHeader then
    7 + h.destConnectionID.length + h.srcConnectionID.length +
      h.packetNumberLen + varIntSize h.length +
      if h.type = some .initial then
        varIntSize h.token.length + h.token.length
      else 0
  else 1 + h.destConnectionID.length + h.packetNumberLen

/-- A header that `Write` accepts, with encodable numbers. -/
structure Valid (h : ExtendedHeader) : Prop where
  destConnectionID : h.destConnectionID.length ≤ maxConnIDLen
  srcConnectionID : h.srcConnectionID.length ≤ maxConnIDLen
  origDestConnectionID : h.origDestConnectionID.length ≤ maxConnIDLen
  length : h.length ≤ maxVarInt8
  token : h.token.length ≤ maxVarInt8
  packetNumberLen : 1 ≤ h.packetNumberLen ∧ h.packetNumberLen ≤ 4
  type : h.type ≠ some .retry

variable {h : ExtendedHeader}

theorem getLength_of_le (hlength : h.length ≤ maxVarInt8)
    (htoken : h.token.length ≤ maxVarInt8) : h.getLength = .ok h.wireLen := by
  unfold getLength wireLen
  split
  · rw [varIntLen_of_le hlength, ok_bind]
    by_cases htype : h.type = some .initial
    · rw [if_pos htype, if_pos htype, varIntLen_of_le htoken, ok_bind]
      congr 1
      omega
    · rw [if_neg htype, if_neg htype]
      congr 1
      omega
  · rfl

private theorem length_invariantPart (h : ExtendedHeader) : h.invariantPart.length =
      7 + h.destConnectionID.length + h.srcConnectionID.length := by
  simp only [invariantPart, writeUint32, List.length_append, List.length_cons,
    length_bigEndian]
  omega

theorem Valid.writePacketNumber (hv : h.Valid) : h.writePacketNumber =
      .ok (bigEndian h.packetNumberLen (wrapByteCount h.packetNumber)) :=
  if_pos hv.packetNumberLen

theorem Valid.writeToken (hv : h.Valid) :
    ∃ bytes, h.writeToken = .ok bytes ∧ bytes.length =
      if h.type = some .initial then varIntSize h.token.length + h.token.length else 0 := by
  unfold ExtendedHeader.writeToken
  split
  · obtain ⟨bytes, hbytes, hlen⟩ := writeVarInt_of_le hv.token
    rw [hbytes, ok_bind]
    exact ⟨_, rfl, by rw [List.length_append, hlen]⟩
  · exact ⟨[], rfl, rfl⟩

theorem Valid.write_eq (hv : h.Valid) :
    h.write = if h.isLongHeader then h.writeLongHeader else h.writeShortHeader := by
  unfold ExtendedHeader.write
  rw [if_neg (Nat.not_lt.mpr hv.destConnectionID),
    if_neg (Nat.not_lt.mpr hv.srcConnectionID),
    if_neg (Nat.not_lt.mpr hv.origDestConnectionID)]

theorem Valid.write (hv : h.Valid) :
    ∃ bytes, h.write = .ok bytes ∧ bytes.length = h.wireLen := by
  rw [hv.write_eq]
  unfold wireLen
  split
  · obtain ⟨token, htoken, htokenLen⟩ := hv.writeToken
    obtain ⟨length, hlength, hlengthLen⟩ := writeVarInt_of_le hv.length
    unfold writeLongHeader
    rw [if_neg hv.type, htoken, ok_bind, hlength, ok_bind, hv.writePacketNumber, ok_bind]
    refine ⟨_, rfl, ?_⟩
    rw [List.length_append, List.length_append, List.length_append,
      length_invariantPart, htokenLen, hlengthLen, length_bigEndian]
    omega
  · unfold writeShortHeader
    rw [hv.writePacketNumber, ok_bind]
    refine ⟨_, rfl, ?_⟩
    rw [List.length_append, List.length_cons, length_bigEndian]
    omega

theorem write_of_long (hlong : maxConnIDLen < h.destConnectionID.length ∨
      maxConnIDLen < h.srcConnectionID.length) :
    ∃ message, h.write = .error (.error message) := by
  unfold ExtendedHeader.write
  split
  · exact ⟨_, rfl⟩
  · next hdest =>
    rw [if_pos (hlong.resolve_left hdest)]
    exact ⟨_, rfl⟩

theorem write_of_wrapped (hdest : h.destConnectionID.length ≤ maxConnIDLen)
    (hsrc : h.srcConnectionID.length ≤ maxConnIDLen)
    (horig : h.origDestConnectionID.length ≤ maxConnIDLen)
    (hlong : h.isLongHeader = true) (htype : h.type ≠ some .retry)
    (htoken : h.token.length ≤ maxVarInt8) (hlength : maxVarInt8 < h.length) :
    ∃ cause, h.write = .error (.panic cause) := by
  have htokenOk : ∃ bytes, h.writeToken = .ok bytes := by
    obtain ⟨tokenLen, htokenLen, -⟩ := writeVarInt_of_le htoken
    unfold ExtendedHeader.writeToken
    rw [htokenLen]
    split <;> exact ⟨_, rfl⟩
  have hpanic : writeVarInt h.length = .error (.panic (.varIntTooLarge h.length)) := by
    unfold maxVarInt8 at hlength
    unfold writeVarInt maxVarInt1 maxVarInt2 maxVarInt4 maxVarInt8
    rw [if_neg (by omega), if_neg (by omega), if_neg (by omega), if_neg (by omega)]
  obtain ⟨token, htoken⟩ := htokenOk
  unfold ExtendedHeader.write writeLongHeader
  rw [if_neg (Nat.not_lt.mpr hdest), if_neg (Nat.not_lt.mpr hsrc),
    if_neg (Nat.not_lt.mpr horig), if_pos hlong, if_neg htype, htoken, ok_bind,
    hpanic]
  exact ⟨_, rfl⟩

end ExtendedHeader

end Qperf.Quic
