import Mathlib.Data.List.Sort
import Qperf.Quic.CryptoSetup
import Qperf.Quic.FrameParser

/-!
# Transport parameters

The parameters of a connection are sent as a list of entries, each with its number, its
length and its value.  `Unmarshal` skips the entries that it does not know and refuses a
list in which a number stands twice.  Durations are in nanoseconds and wrap like `int64`.
-/

namespace Qperf.Quic

open Qperf.Foundation Qperf.Foundation.Reader

inductive ParameterID where
  | originalConnectionID
  | idleTimeout
  | statelessResetToken
  | maxPacketSize
  | initialMaxData
  | initialMaxStreamDataBidiLocal
  | initialMaxStreamDataBidiRemote
  | initialMaxStreamDataUni
  | initialMaxStreamsBidi
  | initialMaxStreamsUni
  | ackDelayExponent
  | maxAckDelay
  | disableMigration
  deriving DecidableEq, Repr

namespace ParameterID

def code : ParameterID → Nat
  | originalConnectionID => 0x0
  | idleTimeout => 0x1
  | statelessResetToken => 0x2
  | maxPacketSize => 0x3
  | initialMaxData => 0x4
  | initialMaxStreamDataBidiLocal => 0x5
  | initialMaxStreamDataBidiRemote => 0x6
  | initialMaxStreamDataUni => 0x7
  | initialMaxStreamsBidi => 0x8
  | initialMaxStreamsUni => 0x9
  | ackDelayExponent => 0xa
  | maxAckDelay => 0xb
  | disableMigration => 0xc

def ofCode : Nat → Option ParameterID
  | 0x0 => some originalConnectionID
  | 0x1 => some idleTimeout
  | 0x2 => some statelessResetToken
  | 0x3 => some maxPacketSize
  | 0x4 => some initialMaxData
  | 0x5 => some initialMaxStreamDataBidiLocal
  | 0x6 => some initialMaxStreamDataBidiRemote
  | 0x7 => some initialMaxStreamDataUni
  | 0x8 => some initialMaxStreamsBidi
  | 0x9 => some initialMaxStreamsUni
  | 0xa => some ackDelayExponent
  | 0xb => some maxAckDelay
  | 0xc => some disableMigration
  | _ => none

@[simp]
theorem ofCode_code (id : ParameterID) : ofCode id.code = some id := by
  cases id <;> rfl

end ParameterID

structure TransportParameters where
  initialMaxStreamDataBidiLocal : Nat
  initialMaxStreamDataBidiRemote : Nat
  initialMaxStreamDataUni : Nat
  initialMaxData : Nat
  maxAckDelay : Int
  ackDelayExponent : Nat
  disableMigration : Bool
  maxPacketSize : Nat
  maxUniStreamNum : Nat
  maxBidiStreamNum : Nat
  idleTimeout : Int
  statelessResetToken : Option (Vector UInt8 16)
  originalConnectionID : List UInt8
  deriving DecidableEq, Repr

def millisecond : Int := 1000000
def minRemoteIdleTimeout : Int := 5000 * millisecond
def maxAckDelayExponent : Nat := 20
def defaultMaxAckDelay : Int := 25 * millisecond
def maxMaxAckDelay : Int := 2 ^ 14 * millisecond

inductive TransportError where
  | tooShort
  | wrongLength (expected actual : Nat)
  | readingNumber (paramID : Nat) (err : ParseError)
  | inconsistentLength (paramID : Nat)
  | remainingTooShort (remaining paramLen : Nat)
  | disableMigrationLength (paramLen : Nat)
  | clientResetToken
  | resetTokenLength (paramLen : Nat)
  | clientConnectionID
  | maxPacketSize (val : Nat)
  | ackDelayExponent (val : Nat)
  | maxAckDelay (delay : Int)
  | notFound (paramID : Nat)
  | duplicate (paramID : Nat)
  | leftover (n : Nat)
  deriving DecidableEq, Repr

def TransportError.text : TransportError → String
  | tooShort => "transport parameter data too short"
  | wrongLength expected actual =>
    s!"expected transport parameters to be {expected} bytes long, have {actual}"
  | readingNumber paramID err =>
    s!"error while reading transport parameter {paramID}: " ++ err.text
  | inconsistentLength paramID =>
    s!"inconsistent transport parameter length for {paramID}"
  | remainingTooShort remaining paramLen =>
    s!"remaining length ({remaining}) smaller than parameter length ({paramLen})"
  | disableMigrationLength paramLen =>
    s!"wrong length for disable_migration: {paramLen} (expected empty)"
  | clientResetToken => "client sent a stateless_reset_token"
  | resetTokenLength paramLen =>
    s!"wrong length for stateless_reset_token: {paramLen} (expected 16)"
  | clientConnectionID => "client sent an original_connection_id"
  | maxPacketSize val =>
    s!"invalid value for max_packet_size: {val} (minimum 1200)"
  | ackDelayExponent val =>
    s!"invalid value for ack_delay_exponent: {val} (maximum {maxAckDelayExponent})"
  | maxAckDelay delay =>
    "invalid value for max_ack_delay: " ++ toString (delay.tdiv millisecond) ++
      "ms (maximum " ++
      toString ((maxMaxAckDelay - millisecond).tdiv millisecond) ++ "ms)"
  | notFound paramID =>
    s!"TransportParameter BUG: transport parameter {paramID} not found"
  | duplicate paramID =>
    "received duplicate transport parameter 0x" ++
      String.ofList (Nat.toDigits 16 paramID)
  | leftover n => s!"should have read all data. Still have {n} bytes"

abbrev TransportReader := Reader TransportError

namespace TransportParameters

def zero : TransportParameters :=
  ⟨0, 0, 0, 0, 0, 0, false, 0, 0, 0, 0, none, []⟩

def milliseconds (val : Nat) : Int := Int.bmod (val * millisecond) (2 ^ 64)

/-! ## Unmarshal -/

def setNumeric (p : TransportParameters) (paramID val : Nat) :
    Except TransportError TransportParameters :=
  match ParameterID.ofCode paramID with
  | some .initialMaxStreamDataBidiLocal =>
    .ok { p with initialMaxStreamDataBidiLocal := val }
  | some .initialMaxStreamDataBidiRemote =>
    .ok { p with initialMaxStreamDataBidiRemote := val }
  | some .initialMaxStreamDataUni => .ok { p with initialMaxStreamDataUni := val }
  | some .initialMaxData => .ok { p with initialMaxData := val }
  | some .initialMaxStreamsBidi => .ok { p with maxBidiStreamNum := val }
  | some .initialMaxStreamsUni => .ok { p with maxUniStreamNum := val }
  | some .idleTimeout =>
    .ok { p with idleTimeout := max minRemoteIdleTimeout (milliseconds val) }
  | some .maxPacketSize =>
    if val < 1200 then .error (.maxPacketSize val)
    else .ok { p with maxPacketSize := val }
  | some .ackDelayExponent =>
    if val > maxAckDelayExponent then .error (.ackDelayExponent val)
    else .ok { p with ackDelayExponent := val }
  | some .maxAckDelay =>
    let maxAckDelay := milliseconds val
    if maxAckDelay ≥ maxMaxAckDelay then .error (.maxAckDelay maxAckDelay)
    else if maxAckDelay < 0 then .ok { p with maxAckDelay := infDuration }
    else .ok { p with maxAckDelay }
  | _ => .error (.notFound paramID)

def readNumericTransportParameter (p : TransportParameters)
    (paramID expectedLen : Nat) : TransportReader TransportParameters := do
  let remainingLen ← remaining
  let val ← readVarInt.withError (.readingNumber paramID)
  let left ← remaining
  if remainingLen - left ≠ expectedLen then
    throw (.inconsistentLength paramID)
  else
    StateT.lift (p.setNumeric paramID val)

end TransportParameters

structure UnmarshalState where
  params : TransportParameters
  parameterIDs : List Nat
  readAckDelayExponent : Bool
  readMaxAckDelay : Bool

/-- `r.Read`, whose error is ignored: bytes that are missing stay 0. -/
def readToken : TransportReader (Vector UInt8 16) := fun bytes =>
  .ok (Vector.ofFn fun i => bytes.getD i 0, bytes.drop 16)

def readBytes (n : Nat) : TransportReader (List UInt8) := fun bytes =>
  .ok (bytes.take n, bytes.drop n)

def requireRemaining (paramLen : Nat) : TransportReader Unit := do
  let left ← remaining
  if left < paramLen then throw (.remainingTooShort left paramLen)

def readParameter (sentBy : Perspective) (s : UnmarshalState) (paramID paramLen : Nat) :
    TransportReader UnmarshalState := do
  let s := { s with parameterIDs := s.parameterIDs ++ [paramID] }
  match ParameterID.ofCode paramID with
  | some .ackDelayExponent =>
    let params ← s.params.readNumericTransportParameter paramID paramLen
    return { s with params, readAckDelayExponent := true }
  | some .maxAckDelay =>
    let params ← s.params.readNumericTransportParameter paramID paramLen
    return { s with params, readMaxAckDelay := true }
  | some .disableMigration =>
    requireRemaining paramLen
    if paramLen ≠ 0 then throw (.disableMigrationLength paramLen)
    else return { s with params := { s.params with disableMigration := true } }
  | some .statelessResetToken =>
    requireRemaining paramLen
    if sentBy = .client then throw .clientResetToken
    else if paramLen ≠ 16 then throw (.resetTokenLength paramLen)
    else
      let token ← readToken
      return { s with params := { s.params with statelessResetToken := some token } }
  | some .originalConnectionID =>
    requireRemaining paramLen
    if sentBy = .client then throw .clientConnectionID
    else
      let originalConnectionID ← readBytes paramLen
      return { s with params := { s.params with originalConnectionID } }
  | some _ =>
    let params ← s.params.readNumericTransportParameter paramID paramLen
    return { s with params }
  | none =>
    requireRemaining paramLen
    let _ ← readBytes paramLen
    return s

/-- Entries are read while there are four bytes; every turn takes at least these. -/
def unmarshalLoop (sentBy : Perspective) :
    Nat → UnmarshalState → TransportReader UnmarshalState
  | 0, s => pure s
  | turns + 1, s => fun bytes =>
    match bytes with
    | b1 :: b2 :: b3 :: b4 :: rest =>
      (readParameter sentBy s (b2.toNat + b1.toNat <<< 8) (b4.toNat + b3.toNat <<< 8) >>=
        unmarshalLoop sentBy turns) rest
    | _ => .ok (s, bytes)

def firstDuplicate : List Nat → Option Nat
  | a :: b :: ids => if a = b then some a else firstDuplicate (b :: ids)
  | _ => none

def UnmarshalState.finish (s : UnmarshalState) (left : Nat) :
    Except TransportError TransportParameters :=
  let params := { s.params with
    ackDelayExponent :=
      if s.readAckDelayExponent then s.params.ackDelayExponent else defaultAckDelayExponent
    maxAckDelay := if s.readMaxAckDelay then s.params.maxAckDelay else defaultMaxAckDelay
    maxPacketSize :=
      if s.params.maxPacketSize = 0 then maxByteCount else s.params.maxPacketSize }
  match firstDuplicate (s.parameterIDs.insertionSort (· ≤ ·)) with
  | some paramID => .error (.duplicate paramID)
  | none => if left ≠ 0 then .error (.leftover left) else .ok params

namespace TransportParameters

def unmarshal (p : TransportParameters) (data : List UInt8) (sentBy : Perspective) :
    Except TransportError TransportParameters :=
  match data with
  | b1 :: b2 :: bytes =>
    let length := b2.toNat + b1.toNat <<< 8
    if bytes.length < length then
      .error (.wrongLength length bytes.length)
    else do
      let read ← unmarshalLoop sentBy bytes.length ⟨p, [], false, false⟩ bytes
      read.1.finish read.2.length
  | _ => .error .tooShort

/-! ## Marshal -/

/-- The random entry: `rand.Intn(100)`, and up to 15 random bytes. -/
structure Grease where
  number : Fin 100
  data : List UInt8
  short : data.length < 16

def Grease.code (g : Grease) : Nat := 27 + 31 * g.number

def marshalParam (paramID : Nat) (payload : List UInt8) : List UInt8 :=
  writeUint16 paramID ++ writeUint16 payload.length ++ payload

def marshalVarintParam (id : ParameterID) (val : Nat) : Except Failure (List UInt8) := do
  let len ← (varIntLen val).mapError Failure.panic
  let bytes ← writeVarInt val
  return writeUint16 id.code ++ writeUint16 len ++ bytes

def fixedParams (p : TransportParameters) : List (ParameterID × Nat) :=
  [(.initialMaxStreamDataBidiLocal, p.initialMaxStreamDataBidiLocal),
    (.initialMaxStreamDataBidiRemote, p.initialMaxStreamDataBidiRemote),
    (.initialMaxStreamDataUni, p.initialMaxStreamDataUni),
    (.initialMaxData, p.initialMaxData),
    (.initialMaxStreamsBidi, p.maxBidiStreamNum),
    (.initialMaxStreamsUni, p.maxUniStreamNum),
    (.idleTimeout, wrapByteCount (p.idleTimeout.tdiv millisecond)),
    (.maxPacketSize, maxReceivePacketSize)]

def defaultedParams (p : TransportParameters) : List (ParameterID × Nat) :=
  (if p.maxAckDelay ≠ defaultMaxAckDelay then
    [(.maxAckDelay, wrapByteCount (p.maxAckDelay.tdiv millisecond))] else []) ++
  (if p.ackDelayExponent ≠ defaultAckDelayExponent then
    [(.ackDelayExponent, p.ackDelayExponent)] else [])

def numericParams (p : TransportParameters) : List (ParameterID × Nat) :=
  p.fixedParams ++ p.defaultedParams

def otherParams (p : TransportParameters) : List (ParameterID × List UInt8) :=
  (if p.disableMigration then [(.disableMigration, [])] else []) ++
  (p.statelessResetToken.toList.map fun token => (.statelessResetToken, token.toList)) ++
  (if p.originalConnectionID.length > 0 then
    [(.originalConnectionID, p.originalConnectionID)] else [])

def marshal (p : TransportParameters) (grease : Grease) : Except Failure (List UInt8) := do
  let numeric ← p.numericParams.mapM fun param => marshalVarintParam param.1 param.2
  let entries := marshalParam grease.code grease.data ++ numeric.flatten ++
    (p.otherParams.map fun param => marshalParam param.1.code param.2).flatten
  return writeUint16 entries.length ++ entries

end TransportParameters

end Qperf.Quic
