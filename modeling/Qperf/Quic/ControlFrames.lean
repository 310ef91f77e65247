import Qperf.Foundation.BigEndian
import Qperf.Quic.FrameSizes

/-!
# Frames other than STREAM and ACK

The frames that the framer keeps on its stack of control frames and that the
retransmission queue holds.  `Length` and `Write` are translated separately for
each type; for encodable numbers `Write` produces as many bytes as `Length` says.
-/

namespace Qperf.Quic

open Qperf.Foundation

def maxConnIDLen : Nat := 20

inductive StreamType where
  | bidi
  | uni
  deriving DecidableEq, Repr

structure CryptoFrame where
  offset : Nat
  data : List UInt8
  deriving DecidableEq, Repr

inductive ControlFrame where
  | connectionClose (isApplicationError : Bool) (errorCode frameType : Nat)
      (reasonPhrase : List UInt8)
  | crypto (frame : CryptoFrame)
  | dataBlocked (dataLimit : Nat)
  | maxData (byteOffset : Nat)
  | maxStreamData (streamID : StreamID) (byteOffset : Nat)
  | maxStreams (type : StreamType) (maxStreamNum : Nat)
  | newConnectionID (sequenceNumber retirePriorTo : Nat)
      (connectionID : List UInt8) (statelessResetToken : Vector UInt8 16)
  | newToken (token : List UInt8)
  | pathChallenge (data : Vector UInt8 8)
  | pathResponse (data : Vector UInt8 8)
  | ping
  | resetStream (streamID : StreamID) (byteOffset errorCode : Nat)
  | retireConnectionID (sequenceNumber : Nat)
  | stopSending (streamID : StreamID) (errorCode : Nat)
  | streamDataBlocked (streamID : StreamID) (dataLimit : Nat)
  | streamsBlocked (type : StreamType) (streamLimit : Nat)
  deriving DecidableEq, Repr

/-! ## Length and Write -/

def frameLen (varInts : List Nat) (rest : Nat) : Except GoPanic Nat := do
  let lengths ← varInts.mapM varIntLen
  return 1 + lengths.sum + rest

def writeFrame (typeByte : UInt8) (varInts : List Nat) (rest : List UInt8) :
    Except Failure (List UInt8) := do
  let fields ← varInts.mapM writeVarInt
  return typeByte :: fields.flatten ++ rest

def writeUint16 (i : Nat) : List UInt8 := bigEndian 2 i

namespace CryptoFrame

def length (f : CryptoFrame) : Except GoPanic Nat :=
  frameLen [f.offset, f.data.length] f.data.length

def write (f : CryptoFrame) : Except Failure (List UInt8) :=
  writeFrame 0x6 [f.offset, f.data.length] f.data

/-- The data length is taken to need one byte first. -/
def maxDataLen (f : CryptoFrame) (maxSize : Nat) : Except GoPanic Nat := do
  let offsetLen ← varIntLen f.offset
  let headerLen := 1 + offsetLen + 1
  if headerLen > maxSize then
    return 0
  else
    let lenLen ← varIntLen (maxSize - headerLen)
    return if lenLen ≠ 1 then maxSize - headerLen - 1 else maxSize - headerLen

end CryptoFrame

namespace ControlFrame

def length : ControlFrame → Except GoPanic Nat
  | .connectionClose isApplicationError errorCode frameType reasonPhrase =>
    frameLen ([errorCode, reasonPhrase.length] ++
      if isApplicationError then [] else [frameType]) reasonPhrase.length
  | .crypto frame => frame.length
  | .dataBlocked dataLimit => frameLen [dataLimit] 0
  | .maxData byteOffset => frameLen [byteOffset] 0
  | .maxStreamData streamID byteOffset => frameLen [streamID, byteOffset] 0
  | .maxStreams _ maxStreamNum => frameLen [maxStreamNum] 0
  | .newConnectionID sequenceNumber retirePriorTo connectionID _ =>
    frameLen [sequenceNumber, retirePriorTo] (1 + connectionID.length + 16)
  | .newToken token => frameLen [token.length] token.length
  | .pathChallenge _ => .ok (1 + 8)
  | .pathResponse _ => .ok (1 + 8)
  | .ping => .ok 1
  | .resetStream streamID byteOffset errorCode =>
    frameLen [streamID, errorCode, byteOffset] 0
  | .retireConnectionID sequenceNumber => frameLen [sequenceNumber] 0
  | .stopSending streamID _ => frameLen [streamID] 2
  | .streamDataBlocked streamID dataLimit => frameLen [streamID, dataLimit] 0
  | .streamsBlocked _ streamLimit => frameLen [streamLimit] 0

def write : ControlFrame → Except Failure (List UInt8)
  | .connectionClose isApplicationError errorCode frameType reasonPhrase =>
    if isApplicationError then
      writeFrame 0x1d [errorCode, reasonPhrase.length] reasonPhrase
    else
      writeFrame 0x1c [errorCode, frameType, reasonPhrase.length] reasonPhrase
  | .crypto frame => frame.write
  | .dataBlocked dataLimit => writeFrame 0x14 [dataLimit] []
  | .maxData byteOffset => writeFrame 0x10 [byteOffset] []
  | .maxStreamData streamID byteOffset =>
    writeFrame 0x11 [streamID, byteOffset] []
  | .maxStreams .bidi maxStreamNum => writeFrame 0x12 [maxStreamNum] []
  | .maxStreams .uni maxStreamNum => writeFrame 0x13 [maxStreamNum] []
  | .newConnectionID sequenceNumber retirePriorTo connectionID token => do
    let start ← writeFrame 0x18 [sequenceNumber, retirePriorTo] []
    if connectionID.length > maxConnIDLen then
      .error (.error
        ("invalid connection ID length: " ++ toString connectionID.length))
    else
      return start ++ UInt8.ofNat connectionID.length :: connectionID ++ token.toList
  | .newToken token => writeFrame 0x7 [token.length] token
  | .pathChallenge data => .ok (0x1a :: data.toList)
  | .pathResponse data => .ok (0x1b :: data.toList)
  | .ping => .ok [0x1]
  | .resetStream streamID byteOffset errorCode =>
    writeFrame 0x4 [streamID, errorCode, byteOffset] []
  | .retireConnectionID sequenceNumber => writeFrame 0x19 [sequenceNumber] []
  | .stopSending streamID errorCode =>
    writeFrame 0x5 [streamID] (writeUint16 errorCode)
  | .streamDataBlocked streamID dataLimit =>
    writeFrame 0x15 [streamID, dataLimit] []
  | .streamsBlocked .bidi streamLimit => writeFrame 0x16 [streamLimit] []
  | .streamsBlocked .uni streamLimit => writeFrame 0x17 [streamLimit] []

end ControlFrame

/-! ## Sizes -/

def Encodable (varInts : List Nat) : Prop := ∀ i ∈ varInts, i ≤ maxVarInt8

def varIntsSize (varInts : List Nat) : Nat := (varInts.map varIntSize).sum

theorem frameLen_of_encodable {varInts : List Nat} (h : Encodable varInts)
    (rest : Nat) : frameLen varInts rest = .ok (1 + varIntsSize varInts + rest) := by
  have hmap : varInts.mapM varIntLen = .ok (varInts.map varIntSize) :=
    mapM_eq_ok_map fun i hi => varIntLen_of_le (h i hi)
  unfold frameLen
  rw [hmap]
  rfl

theorem writeFrame_of_encodable (typeByte : UInt8) {varInts : List Nat}
    (h : Encodable varInts) (rest : List UInt8) :
    ∃ bytes, writeFrame typeByte varInts rest = .ok bytes ∧
      bytes.length = 1 + varIntsSize varInts + rest.length := by
  obtain ⟨fields, hfields, hsum⟩ := mapM_ok_flatten
    fun i (hi : i ∈ varInts) => writeVarInt_of_le (h i hi)
  refine ⟨typeByte :: fields.flatten ++ rest, ?_, ?_⟩
  · unfold writeFrame
    rw [hfields]
    rfl
  · change _ = varIntsSize varInts at hsum
    simp only [List.length_append, List.length_cons, hsum]
    omega

namespace CryptoFrame

def Valid (f : CryptoFrame) : Prop := f.offset + f.data.length ≤ maxVarInt8

variable {f : CryptoFrame}

theorem Valid.encodable (h : f.Valid) : Encodable [f.offset, f.data.length] := by
  unfold Valid at h
  intro i hi
  simp only [List.mem_cons, List.not_mem_nil, or_false] at hi
  omega

def wireLen (f : CryptoFrame) : Nat :=
  1 + varIntSize f.offset + varIntSize f.data.length + f.data.length

theorem Valid.length (h : f.Valid) : f.length = .ok f.wireLen := by
  rw [CryptoFrame.length, frameLen_of_encodable h.encodable]
  simp [varIntsSize, wireLen, Nat.add_assoc]

end CryptoFrame

namespace ControlFrame

def varInts : ControlFrame → List Nat
  | .connectionClose isApplicationError errorCode frameType reasonPhrase =>
    [errorCode, reasonPhrase.length] ++ if isApplicationError then [] else [frameType]
  | .crypto frame => [frame.offset, frame.data.length]
  | .dataBlocked dataLimit => [dataLimit]
  | .maxData byteOffset => [byteOffset]
  | .maxStreamData streamID byteOffset => [streamID, byteOffset]
  | .maxStreams _ maxStreamNum => [maxStreamNum]
  | .newConnectionID sequenceNumber retirePriorTo _ _ =>
    [sequenceNumber, retirePriorTo]
  | .newToken token => [token.length]
  | .pathChallenge _ => []
  | .pathResponse _ => []
  | .ping => []
  | .resetStream streamID byteOffset errorCode =>
    [streamID, errorCode, byteOffset]
  | .retireConnectionID sequenceNumber => [sequenceNumber]
  | .stopSending streamID _ => [streamID]
  | .streamDataBlocked streamID dataLimit => [streamID, dataLimit]
  | .streamsBlocked _ streamLimit => [streamLimit]

def restLen : ControlFrame → Nat
  | .connectionClose _ _ _ reasonPhrase => reasonPhrase.length
  | .crypto frame => frame.data.length
  | .newConnectionID _ _ connectionID _ => 1 + connectionID.length + 16
  | .newToken token => token.length
  | .pathChallenge _ => 8
  | .pathResponse _ => 8
  | .stopSending _ _ => 2
  | _ => 0

def wireLen (f : ControlFrame) : Nat := 1 + varIntsSize f.varInts + f.restLen

def ConnIDFits : ControlFrame → Prop
  | .newConnectionID _ _ connectionID _ => connectionID.length ≤ maxConnIDLen
  | _ => True

structure Valid (f : ControlFrame) : Prop where
  encodable : Encodable f.varInts
  connID : f.ConnIDFits

variable {f : ControlFrame}

theorem Valid.length (h : f.Valid) : f.length = .ok f.wireLen := by
  have hencodable := h.encodable
  cases f with
  | pathChallenge data => rfl
  | pathResponse data => rfl
  | ping => rfl
  | _ => exact frameLen_of_encodable hencodable _

theorem Valid.write (h : f.Valid) :
    ∃ bytes, f.write = .ok bytes ∧ bytes.length = f.wireLen := by
  have hencodable := h.encodable
  cases f with
  | connectionClose isApplicationError errorCode frameType reasonPhrase =>
    cases isApplicationError with
    | true => exact writeFrame_of_encodable _ hencodable _
    | false =>
      -- `Length` adds the frame type last, `Write` writes it second.
      have hperm : Encodable [errorCode, frameType, reasonPhrase.length] :=
        fun i hi => hencodable i (by simp [varInts] at hi ⊢; tauto)
      obtain ⟨bytes, hbytes, hlen⟩ := writeFrame_of_encodable 0x1c hperm reasonPhrase
      refine ⟨bytes, hbytes, ?_⟩
      simp only [hlen, wireLen, varIntsSize, varInts, restLen, List.map_cons,
        List.map_nil, List.sum_cons, List.sum_nil, List.cons_append,
        List.nil_append, Bool.false_eq_true, if_false]
      omega
  | newConnectionID sequenceNumber retirePriorTo connectionID token =>
    obtain ⟨start, hstart, hlen⟩ := writeFrame_of_encodable 0x18 hencodable []
    change writeFrame 0x18 [sequenceNumber, retirePriorTo] [] = _ at hstart
    simp only [ControlFrame.write, hstart, ok_bind]
    rw [if_neg (Nat.not_lt.mpr h.connID)]
    refine ⟨_, rfl, ?_⟩
    simp only [List.length_append, List.length_cons, hlen, List.length_nil,
      Vector.length_toList, wireLen, restLen]
    omega
  | pathChallenge data | pathResponse data =>
    exact ⟨_, rfl, by simp [wireLen, varIntsSize, varInts, restLen]⟩
  | ping => exact ⟨_, rfl, rfl⟩
  | maxStreams type maxStreamNum =>
    cases type with
    | bidi | uni => exact writeFrame_of_encodable _ hencodable _
  | streamsBlocked type streamLimit =>
    cases type with
    | bidi | uni => exact writeFrame_of_encodable _ hencodable _
  | stopSending streamID errorCode =>
    obtain ⟨bytes, hbytes, hlen⟩ :=
      writeFrame_of_encodable 0x5 hencodable (writeUint16 errorCode)
    exact ⟨bytes, hbytes, by rw [hlen, writeUint16, length_bigEndian]; rfl⟩
  | _ => exact writeFrame_of_encodable _ hencodable _

theorem Valid.crypto {cf : CryptoFrame} (h : cf.Valid) :
    (ControlFrame.crypto cf).Valid :=
  ⟨h.encodable, trivial⟩

theorem wireLen_crypto (cf : CryptoFrame) :
    (ControlFrame.crypto cf).wireLen = cf.wireLen := by
  simp [wireLen, varInts, restLen, varIntsSize, CryptoFrame.wireLen, Nat.add_assoc]

end ControlFrame

end Qperf.Quic
