import Qperf.Foundation.Readers
import Qperf.Quic.FrameSorter
import Qperf.Quic.PacketPacker

/-!
# Parsing of frames

`ParseNext` skips PADDING and parses the next frame of a packet.  Every frame type has
a parser of its own, which reads the type byte again.
-/

namespace Qperf.Quic

open Qperf.Foundation Qperf.Foundation.Reader

inductive ParseError where
  | eof
  | unexpectedEOF
  | message (text : String)
  | frameEncodingError (text : String)
  deriving DecidableEq, Repr

def ParseError.text : ParseError → String
  | .eof => "EOF"
  | .unexpectedEOF => "unexpected EOF"
  | .message text => text
  | .frameEncodingError text => "FRAME_ENCODING_ERROR: " ++ text

abbrev FrameReader := Reader ParseError

/-! ## Numbers and strings -/

def readVarInt : FrameReader Nat := do
  let firstByte ← readByte .eof
  let len := 1 <<< ((firstByte &&& 0xc0) >>> 6).toNat
  let b1 := firstByte &&& (0xff - 0xc0)
  if len = 1 then
    return b1.toNat
  else
    let b2 ← readByte .eof
    if len = 2 then
      return b2.toNat + b1.toNat <<< 8
    else
      let b3 ← readByte .eof
      let b4 ← readByte .eof
      if len = 4 then
        return b4.toNat + b3.toNat <<< 8 + b2.toNat <<< 16 + b1.toNat <<< 24
      else
        let b5 ← readByte .eof
        let b6 ← readByte .eof
        let b7 ← readByte .eof
        let b8 ← readByte .eof
        return b8.toNat + b7.toNat <<< 8 + b6.toNat <<< 16 + b5.toNat <<< 24 +
          b4.toNat <<< 32 + b3.toNat <<< 40 + b2.toNat <<< 48 + b1.toNat <<< 56

def readOptionalVarInt (present : Bool) : FrameReader Nat :=
  if present then readVarInt else pure 0

def readUint16 : FrameReader Nat := do
  let b2 ← readByte .eof
  let b1 ← readByte .eof
  return b1.toNat + b2.toNat <<< 8

def readSlice (n : Nat) : FrameReader (List UInt8) := readFull .eof .unexpectedEOF n

def readCounted (n : Nat) : FrameReader (List UInt8) := do
  let left ← remaining
  if n > left then
    throw .eof
  else
    readSlice n

/-- An array of `n` bytes; an end within it is reported as the end of the packet. -/
def readArray (n : Nat) : FrameReader (Vector UInt8 n) := fun bytes =>
  if h : n ≤ bytes.length then
    .ok (⟨(bytes.take n).toArray, by simp [h]⟩, bytes.drop n)
  else
    .error .eof

def readConnectionID (len : Nat) : FrameReader (List UInt8) := fun bytes =>
  match readSlice len bytes with
  | .error .unexpectedEOF => .error .eof
  | result => result

/-! ## Frames -/

def parsePingFrame : FrameReader ControlFrame := do
  let _ ← readByte .eof
  return .ping

def parseResetStreamFrame : FrameReader ControlFrame := do
  let _ ← readByte .eof
  let streamID ← readVarInt
  let errorCode ← readVarInt
  let byteOffset ← readVarInt
  return .resetStream streamID byteOffset errorCode

def parseStopSendingFrame : FrameReader ControlFrame := do
  let _ ← readByte .eof
  let streamID ← readVarInt
  let errorCode ← readUint16
  return .stopSending streamID errorCode

def parseCryptoFrame : FrameReader ControlFrame := do
  let _ ← readByte .eof
  let offset ← readVarInt
  let dataLen ← readVarInt
  let data ← readCounted dataLen
  return .crypto ⟨offset, data⟩

def parseNewTokenFrame : FrameReader ControlFrame := do
  let _ ← readByte .eof
  let tokenLen ← readVarInt
  let left ← remaining
  if left < tokenLen then
    throw .eof
  else if tokenLen = 0 then
    throw (.message "token must not be empty")
  else
    let token ← readSlice tokenLen
    return .newToken token

def parseMaxDataFrame : FrameReader ControlFrame := do
  let _ ← readByte .eof
  let byteOffset ← readVarInt
  return .maxData byteOffset

def parseMaxStreamDataFrame : FrameReader ControlFrame := do
  let _ ← readByte .eof
  let streamID ← readVarInt
  let byteOffset ← readVarInt
  return .maxStreamData streamID byteOffset

/-- Unidirectional is the zero value of a `StreamType`. -/
def parseMaxStreamsFrame : FrameReader ControlFrame := do
  let typeByte ← readByte .eof
  let type := if typeByte = 0x12 then StreamType.bidi else .uni
  let maxStreamNum ← readVarInt
  return .maxStreams type maxStreamNum

def parseDataBlockedFrame : FrameReader ControlFrame := do
  let _ ← readByte .eof
  let dataLimit ← readVarInt
  return .dataBlocked dataLimit

def parseStreamDataBlockedFrame : FrameReader ControlFrame := do
  let _ ← readByte .eof
  let streamID ← readVarInt
  let dataLimit ← readVarInt
  return .streamDataBlocked streamID dataLimit

def parseStreamsBlockedFrame : FrameReader ControlFrame := do
  let typeByte ← readByte .eof
  let type := if typeByte = 0x16 then StreamType.bidi else .uni
  let streamLimit ← readVarInt
  return .streamsBlocked type streamLimit

def parseNewConnectionIDFrame : FrameReader ControlFrame := do
  let _ ← readByte .eof
  let seq ← readVarInt
  let ret ← readVarInt
  if ret > seq then
    throw (.message ("Retire Prior To value (" ++ toString ret ++
      ") larger than Sequence Number (" ++ toString seq ++ ")"))
  else
    let connIDLen ← readByte .eof
    if connIDLen.toNat > maxConnIDLen then
      throw (.message
        ("invalid connection ID length: " ++ toString connIDLen.toNat))
    else
      let connID ← readConnectionID connIDLen.toNat
      let token ← readArray 16
      return .newConnectionID seq ret connID token

def parseRetireConnectionIDFrame : FrameReader ControlFrame := do
  let _ ← readByte .eof
  let seq ← readVarInt
  return .retireConnectionID seq

def parsePathChallengeFrame : FrameReader ControlFrame := do
  let _ ← readByte .eof
  let data ← readArray 8
  return .pathChallenge data

def parsePathResponseFrame : FrameReader ControlFrame := do
  let _ ← readByte .eof
  let data ← readArray 8
  return .pathResponse data

def parseConnectionCloseFrame : FrameReader ControlFrame := do
  let typeByte ← readByte .eof
  let isApplicationError := decide (typeByte = 0x1d)
  let errorCode ← readVarInt
  let frameType ← readOptionalVarInt !isApplicationError
  let reasonPhraseLen ← readVarInt
  let reasonPhrase ← readCounted reasonPhraseLen
  return .connectionClose isApplicationError errorCode frameType reasonPhrase

def readDataLen (hasDataLen : Bool) : FrameReader Nat :=
  if hasDataLen then readVarInt else remaining

def readStreamData (offset dataLen : Nat) : FrameReader (List UInt8) := do
  -- Larger frames are read into a pooled buffer.
  if minStreamFrameBufferSize ≤ dataLen ∧ maxReceivePacketSize < dataLen then
    throw .eof
  else
    let data ← readSlice dataLen
    if offset + dataLen > maxByteCount then
      throw (.frameEncodingError "stream data overflows maximum offset")
    else
      return data

def parseStreamFrame : FrameReader StreamFrame := do
  let typeByte ← readByte .eof
  let hasOffset := decide (typeByte &&& 0x4 > 0)
  let fin := decide (typeByte &&& 0x1 > 0)
  let hasDataLen := decide (typeByte &&& 0x2 > 0)
  let streamID ← readVarInt
  let offset ← readOptionalVarInt hasOffset
  let dataLen ← readDataLen hasDataLen
  let data ← readStreamData offset dataLen
  return ⟨streamID, offset, data, fin, hasDataLen⟩

/-! ## ACK frames -/

def errInvalidAckRanges : ParseError :=
  .message "AckFrame: ACK frame contains invalid ACK ranges"

def infDuration : Int := 2 ^ 63 - 1

/-- The conversions to `time.Duration` wrap; a negative delay is an overflow. -/
def decodeAckDelay (ackDelayExponent delay : Nat) : Int :=
  let delayTime := Int.bmod (delay * 2 ^ ackDelayExponent * 1000) (2 ^ 64)
  if delayTime < 0 then infDuration else delayTime

def readAckRanges : Nat → PacketNumber → FrameReader (List AckRange)
  | 0, _ => pure []
  | numBlocks + 1, smallest => do
    let gap ← readVarInt
    if smallest < gap + 2 then
      throw errInvalidAckRanges
    else
      let largest := smallest - gap - 2
      let ackBlock ← readVarInt
      if ackBlock > largest then
        throw errInvalidAckRanges
      else
        let ranges ← readAckRanges numBlocks (largest - ackBlock)
        return ⟨largest - ackBlock, largest⟩ :: ranges

def parseAckFrame (ackDelayExponent : Nat) : FrameReader AckFrame := do
  let typeByte ← readByte .eof
  let ecn := decide (typeByte &&& 0x1 > 0)
  let largestAcked ← readVarInt
  let delay ← readVarInt
  let numBlocks ← readVarInt
  let ackBlock ← readVarInt
  if ackBlock > largestAcked then
    throw (.message "invalid first ACK range")
  else
    let smallest : PacketNumber := largestAcked - ackBlock
    let ranges ← readAckRanges numBlocks smallest
    let frame : AckFrame :=
      { ackRanges := ⟨smallest, largestAcked⟩ :: ranges
        delayTime := decodeAckDelay ackDelayExponent delay }
    if !frame.validateAckRanges then
      throw errInvalidAckRanges
    else
      if ecn then
        -- The ECN section is skipped.
        let _ ← readVarInt
        let _ ← readVarInt
        let _ ← readVarInt
        return frame
      else
        return frame

/-! ## The parser -/

inductive ParsedFrame where
  | ack (f : AckFrame)
  | frame (f : Frame)
  deriving DecidableEq, Repr

def ParsedFrame.name : ParsedFrame → String
  | .ack _ => "AckFrame"
  | .frame (.stream _) => "StreamFrame"
  | .frame (.control f) =>
    match f with
    | .connectionClose .. => "ConnectionCloseFrame"
    | .crypto _ => "CryptoFrame"
    | .dataBlocked _ => "DataBlockedFrame"
    | .maxData _ => "MaxDataFrame"
    | .maxStreamData .. => "MaxStreamDataFrame"
    | .maxStreams .. => "MaxStreamsFrame"
    | .newConnectionID .. => "NewConnectionIDFrame"
    | .newToken _ => "NewTokenFrame"
    | .pathChallenge _ => "PathChallengeFrame"
    | .pathResponse _ => "PathResponseFrame"
    | .ping => "PingFrame"
    | .resetStream .. => "ResetStreamFrame"
    | .retireConnectionID _ => "RetireConnectionIDFrame"
    | .stopSending .. => "StopSendingFrame"
    | .streamDataBlocked .. => "StreamDataBlockedFrame"
    | .streamsBlocked .. => "StreamsBlockedFrame"

def EncryptionLevel.text : EncryptionLevel → String
  | .initial => "Initial"
  | .handshake => "Handshake"
  | .oneRTT => "1-RTT"

structure FrameParser where
  ackDelayExponent : Nat
  deriving DecidableEq, Repr

def defaultAckDelayExponent : Nat := 3

namespace FrameParser

def isAllowedAtEncLevel (f : ParsedFrame) : EncryptionLevel → Bool
  | .oneRTT => true
  | .initial | .handshake =>
    match f with
    | .ack _ | .frame (.control (.crypto _))
    | .frame (.control (.connectionClose ..)) => true
    | _ => false

def parseFrameOfType (p : FrameParser) (typeByte : UInt8)
    (encLevel : EncryptionLevel) : FrameReader ParsedFrame :=
  let control (parse : FrameReader ControlFrame) : FrameReader ParsedFrame := do
    let f ← parse
    return .frame (.control f)
  if typeByte &&& 0xf8 = 0x8 then do
    let f ← parseStreamFrame
    return .frame (.stream f)
  else
    match typeByte with
    | 0x1 => control parsePingFrame
    | 0x2 | 0x3 => do
      let ackDelayExponent :=
        if encLevel ≠ .oneRTT then defaultAckDelayExponent
        else p.ackDelayExponent
      let f ← parseAckFrame ackDelayExponent
      return .ack f
    | 0x4 => control parseResetStreamFrame
    | 0x5 => control parseStopSendingFrame
    | 0x6 => control parseCryptoFrame
    | 0x7 => control parseNewTokenFrame
    | 0x10 => control parseMaxDataFrame
    | 0x11 => control parseMaxStreamDataFrame
    | 0x12 | 0x13 => control parseMaxStreamsFrame
    | 0x14 => control parseDataBlockedFrame
    | 0x15 => control parseStreamDataBlockedFrame
    | 0x16 | 0x17 => control parseStreamsBlockedFrame
    | 0x18 => control parseNewConnectionIDFrame
    | 0x19 => control parseRetireConnectionIDFrame
    | 0x1a => control parsePathChallengeFrame
    | 0x1b => control parsePathResponseFrame
    | 0x1c | 0x1d => control parseConnectionCloseFrame
    | _ =>
      throw (.message ("unknown type byte 0x" ++
        String.ofList (Nat.toDigits 16 typeByte.toNat)))

def parseFrame (p : FrameParser) (typeByte : UInt8) (encLevel : EncryptionLevel) :
    FrameReader ParsedFrame := do
  let f ← p.parseFrameOfType typeByte encLevel
  if isAllowedAtEncLevel f encLevel then
    return f
  else
    throw (.message
      (f.name ++ " not allowed at encryption level " ++ encLevel.text))

/-- PADDING is skipped; at the end of the packet there is no frame. -/
def parseNext (p : FrameParser) (encLevel : EncryptionLevel) :
    FrameReader (Option ParsedFrame)
  | [] => .ok (none, [])
  | typeByte :: rest =>
    if typeByte = 0x0 then p.parseNext encLevel rest
    else
      match p.parseFrame typeByte encLevel (typeByte :: rest) with
      | .error e => .error (.frameEncodingError e.text)
      | .ok (f, rest) => .ok (some f, rest)

end FrameParser

end Qperf.Quic
