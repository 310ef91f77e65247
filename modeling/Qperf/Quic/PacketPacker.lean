import Qperf.Quic.AckFrames
import Qperf.Quic.CryptoSetup
import Qperf.Quic.CryptoStreams
import Qperf.Quic.Framer

/-!
# The packet packer

`PackPacket` fills a packet and seals it.  Initial and Handshake packets are sent
until the keys are dropped; they hold an ACK and either frames that were lost or new
data of the crypto stream.  The components that the packer refers to are fields of
its state.  Lengths are `ByteCount`s, so that every difference wraps.
-/

namespace Qperf.Quic

open Qperf.Foundation

/-! ## Frames of a packet -/

inductive Frame where
  | stream (f : StreamFrame)
  | control (f : ControlFrame)
  deriving DecidableEq, Repr

def Frame.write : Frame → Except Failure (List UInt8)
  | .stream f => f.write
  | .control f => f.write

inductive OnLost where
  | queueRetransmission
  | addInitial
  | addHandshake
  | addAppData
  deriving DecidableEq, Repr

structure TrackedFrame where
  frame : Frame
  onLost : OnLost
  deriving DecidableEq, Repr

/-! ## The state of the packer -/

/--
The trackers of received packets, as far as the packer sees them: the frame that
`GetAckFrame` returns next.  A tracker whose packets were dropped is `none`.
-/
structure ReceivedPacketHandler where
  initialPackets : Option (Option AckFrame)
  handshakePackets : Option (Option AckFrame)
  oneRTTPackets : Option AckFrame
  deriving DecidableEq, Repr

/-- The delay is ignored by the receiver of an Initial or Handshake packet. -/
def ReceivedPacketHandler.getAckFrame (h : ReceivedPacketHandler) :
    EncryptionLevel → Option AckFrame × ReceivedPacketHandler
  | .initial =>
    (h.initialPackets.join.map fun ack => { ack with delayTime := 0 },
      { h with initialPackets := h.initialPackets.map fun _ => none })
  | .handshake =>
    (h.handshakePackets.join.map fun ack => { ack with delayTime := 0 },
      { h with handshakePackets := h.handshakePackets.map fun _ => none })
  | .oneRTT => (h.oneRTTPackets, { h with oneRTTPackets := none })

structure PacketPacker where
  destConnID : ConnectionID
  srcConnID : ConnectionID
  perspective : Perspective
  version : Nat
  cryptoSetup : CryptoSetup
  handshakeConfirmed : Bool
  initialStream : CryptoStream
  handshakeStream : CryptoStream
  token : List UInt8
  pnManager : SentPacketHandler TrackedFrame
  framer : Connection
  acks : ReceivedPacketHandler
  retransmissionQueue : RetransmissionQueue
  maxPacketSize : Nat
  numNonAckElicitingAcks : Nat

def minInitialPacketSize : Nat := 1200

def maxPacketSizeIPv4 : Nat := 1252

def maxPacketSizeIPv6 : Nat := 1232

def maxNonAckElicitingAcks : Nat := 19

inductive RemoteAddr where
  | udpIPv4
  | udpIPv6
  | other
  deriving DecidableEq, Repr

def getMaxPacketSize : RemoteAddr → Nat
  | .udpIPv4 => maxPacketSizeIPv4
  | .udpIPv6 => maxPacketSizeIPv6
  | .other => minInitialPacketSize

def newPacketPacker (destConnID srcConnID : ConnectionID)
    (initialStream handshakeStream : CryptoStream)
    (pnManager : SentPacketHandler TrackedFrame)
    (retransmissionQueue : RetransmissionQueue) (remoteAddr : RemoteAddr)
    (cryptoSetup : CryptoSetup) (framer : Connection)
    (acks : ReceivedPacketHandler) (perspective : Perspective)
    (version : Nat) : PacketPacker where
  destConnID := destConnID
  srcConnID := srcConnID
  perspective := perspective
  version := version
  cryptoSetup := cryptoSetup
  handshakeConfirmed := false
  initialStream := initialStream
  handshakeStream := handshakeStream
  token := []
  pnManager := pnManager
  framer := framer
  acks := acks
  retransmissionQueue := retransmissionQueue
  maxPacketSize := getMaxPacketSize remoteAddr
  numNonAckElicitingAcks := 0

structure Payload where
  frames : List Frame := []
  ack : Option AckFrame := none
  length : Nat := 0
  deriving DecidableEq, Repr

structure PackedPacket where
  header : ExtendedHeader
  raw : List UInt8
  ack : Option AckFrame
  frames : List Frame
  deriving DecidableEq, Repr

/-- How packing ends without a packet; the sealer errors carry their cause. -/
inductive PackError where
  | panic (cause : GoPanic)
  | handlerPanic (cause : HandlerPanic)
  | negativeRepeatCount
  | write (message : String)
  | sealer (err : SealerError)
  | noInitialSealer (err : SealerError)
  | noHandshakeSealer (err : SealerError)
  | payloadSizeInconsistent (expected got : Nat)
  | packetTooLarge (size allowed : Nat)
  | packetNumbersDoNotMatch
  deriving DecidableEq, Repr

/--
What is not part of the state: the limit of the configuration, the conversion that
Go leaves open, and the random number that `PopPacketNumber` may draw.
-/
structure PackInput where
  limit : Int
  convert : Nat → Int32
  num : UInt16

def ofPanic {α : Type} : Except GoPanic α → Except PackError α
  | .ok a => .ok a
  | .error cause => .error (.panic cause)

def ofHandler {α : Type} : Except HandlerPanic α → Except PackError α
  | .ok a => .ok a
  | .error cause => .error (.handlerPanic cause)

def ofWrite {α : Type} : Except Failure α → Except PackError α
  | .ok a => .ok a
  | .error (.error message) => .error (.write message)
  | .error (.panic cause) => .error (.panic cause)

namespace PacketPacker

/-! ## Headers -/

def getShortHeader (p : PacketPacker) (kp : KeyPhaseBit) :
    Except HandlerPanic ExtendedHeader := do
  let (pn, pnLen) ← p.pnManager.peekPacketNumber .oneRTT
  return {
    packetNumber := pn
    packetNumberLen := pnLen
    destConnectionID := p.destConnID
    keyPhase := kp }

/--
Packet numbers are always sent with four bytes, and the length is set to the maximum
packet size, so that the header ends up at most as big as `GetLength` says.
-/
def longHeader (p : PacketPacker) (encLevel : EncryptionLevel)
    (pn : PacketNumber) : ExtendedHeader where
  packetNumber := pn
  destConnectionID := p.destConnID
  type := match encLevel with
    | .initial => some .initial
    | .handshake => some .handshake
    | .oneRTT => none
  token := if encLevel = .initial then p.token else []
  version := p.version
  isLongHeader := true
  packetNumberLen := 4
  srcConnectionID := p.srcConnID
  length := p.maxPacketSize

def getLongHeader (p : PacketPacker) (encLevel : EncryptionLevel) :
    Except HandlerPanic ExtendedHeader := do
  let (pn, _) ← p.pnManager.peekPacketNumber encLevel
  return p.longHeader encLevel pn

/-! ## Writing and sealing -/

/-- `bytes.Repeat` panics if the length, as an `int`, is negative. -/
def padding (paddingLen : Nat) : Except PackError (List UInt8) :=
  if paddingLen ≥ 2 ^ 63 then .error .negativeRepeatCount
  else .ok (List.replicate paddingLen 0)

def writeAck : Option AckFrame → Except Failure (List UInt8)
  | none => .ok []
  | some ack => ack.write

def encryptHeader (sealer : Sealer) (raw : List UInt8)
    (pnOffset payloadOffset : Nat) : List UInt8 :=
  let sample := (raw.drop (pnOffset + 4)).take 16
  let (firstByte, pnBytes) := sealer.headerProtector.apply sample (raw.headD 0)
    ((raw.drop pnOffset).take (payloadOffset - pnOffset))
  firstByte :: (raw.take pnOffset).drop 1 ++ pnBytes ++ raw.drop payloadOffset

/-- The buffer has `MaxReceivePacketSize` bytes; the check leaves out the overhead. -/
def writeAndSealPacketWithPadding (p : PacketPacker) (header : ExtendedHeader)
    (payload : Payload) (paddingLen : Nat) (encLevel : EncryptionLevel)
    (sealer : Sealer) (num : UInt16) :
    Except PackError (PackedPacket × PacketPacker) := do
  let hdr ← ofWrite header.write
  let ack ← ofWrite (writeAck payload.ack)
  let zeros ← padding paddingLen
  let frames ← ofWrite (payload.frames.mapM Frame.write)
  let data := ack ++ zeros ++ frames.flatten
  let payloadSize := wrapByteCount (data.length - paddingLen)
  if payloadSize ≠ payload.length then
    .error (.payloadSizeInconsistent payload.length payloadSize)
  else if hdr.length + data.length > p.maxPacketSize then
    .error (.packetTooLarge (hdr.length + data.length) p.maxPacketSize)
  else if hdr.length + data.length + aeadOverhead > maxReceivePacketSize then
    .error (.panic .sliceBounds)
  else
    let raw := hdr ++ sealer.sealData data header.packetNumber hdr
    let raw := encryptHeader sealer raw (hdr.length - header.packetNumberLen)
      hdr.length
    let (pn, pnManager) ← ofHandler (p.pnManager.popPacketNumber encLevel num)
    if pn ≠ header.packetNumber then
      .error .packetNumbersDoNotMatch
    else
      return (⟨header, raw, payload.ack, payload.frames⟩, { p with pnManager })

def writeAndSealPacket (p : PacketPacker) (header : ExtendedHeader)
    (payload : Payload) (encLevel : EncryptionLevel) (sealer : Sealer)
    (num : UInt16) : Except PackError (PackedPacket × PacketPacker) :=
  if encLevel ≠ .oneRTT then
    if p.perspective = .client ∧ header.type = some .initial then do
      let headerLen ← ofPanic header.getLength
      p.writeAndSealPacketWithPadding
        (header.withLength (wrapByteCount
          (header.packetNumberLen + minInitialPacketSize - headerLen)))
        payload
        (wrapByteCount (minInitialPacketSize - aeadOverhead - headerLen - payload.length))
        encLevel sealer num
    else
      p.writeAndSealPacketWithPadding
        (header.withLength (header.packetNumberLen + aeadOverhead + payload.length))
        payload 0 encLevel sealer num
  else if payload.length < wrapByteCount (4 - header.packetNumberLen) then
    p.writeAndSealPacketWithPadding header payload
      (wrapByteCount (4 - header.packetNumberLen - payload.length)) encLevel
      sealer num
  else
    p.writeAndSealPacketWithPadding header payload 0 encLevel sealer num

/-! ## Initial and Handshake packets -/

def cryptoStream (p : PacketPacker) : EncryptionLevel → CryptoStream
  | .initial => p.initialStream
  | _ => p.handshakeStream

def setCryptoStream (p : PacketPacker) (encLevel : EncryptionLevel)
    (s : CryptoStream) : PacketPacker :=
  match encLevel with
  | .initial => { p with initialStream := s }
  | _ => { p with handshakeStream := s }

def ackPayload : Option AckFrame → Except GoPanic Payload
  | none => .ok {}
  | some ack => do
    let length ← ack.length
    return { ack := some ack, length }

/--
The loop that takes frames from the retransmission queue, while at least `least` of
the `available` bytes are left.  Every turn but the last one takes a frame, so that
`turns` is at least the number of queued frames.
-/
def popLoop (get : RetransmissionQueue → Nat →
      Except GoPanic (Option ControlFrame × RetransmissionQueue))
    (available : Int) (least : Nat) :
    Nat → RetransmissionQueue → Payload →
      Except GoPanic (RetransmissionQueue × Payload)
  | 0, q, payload => .ok (q, payload)
  | turns + 1, q, payload =>
    let remainingLen := wrapByteCount (available - payload.length)
    if remainingLen < least then .ok (q, payload)
    else do
      let (f, q) ← get q remainingLen
      match f with
      | none => return (q, payload)
      | some f =>
        let length ← f.length
        popLoop get available least turns q
          { payload with
            frames := payload.frames ++ [.control f]
            length := payload.length + length }

/-- Initial packets are not filled beyond `MinInitialPacketSize`. -/
def popRetransmissions (p : PacketPacker) (encLevel : EncryptionLevel)
    (hdrLen : Nat) (payload : Payload) :
    Except GoPanic (RetransmissionQueue × Payload) :=
  let q := p.retransmissionQueue
  match encLevel with
  | .initial =>
    popLoop RetransmissionQueue.getInitialFrame
      (minInitialPacketSize - hdrLen - aeadOverhead) 0
      (q.initialCryptoData.length + q.initial.length) q payload
  | _ =>
    popLoop RetransmissionQueue.getHandshakeFrame
      (p.maxPacketSize - hdrLen - aeadOverhead) 0
      (q.handshakeCryptoData.length + q.handshake.length) q payload

def packCryptoPacket (p : PacketPacker) (encLevel : EncryptionLevel)
    (sealer : Sealer) (hasData hasRetransmission : Bool) (ack : Option AckFrame)
    (num : UInt16) : Except PackError (PackedPacket × PacketPacker) := do
  let payload ← ofPanic (ackPayload ack)
  let hdr ← ofHandler (p.getLongHeader encLevel)
  let hdrLen ← ofPanic hdr.getLength
  if hasRetransmission then
    let (retransmissionQueue, payload) ←
      ofPanic (p.popRetransmissions encLevel hdrLen payload)
    { p with retransmissionQueue }.writeAndSealPacket hdr payload encLevel sealer
      num
  else if hasData then
    let (cf, s) ← ofPanic ((p.cryptoStream encLevel).popCryptoFrame
      (wrapByteCount (p.maxPacketSize - hdrLen - aeadOverhead - payload.length)))
    let length ← ofPanic cf.length
    (p.setCryptoStream encLevel s).writeAndSealPacket hdr
      { payload with
        frames := [.control (.crypto cf)]
        length := payload.length + length } encLevel sealer num
  else
    p.writeAndSealPacket hdr payload encLevel sealer num

def confirmHandshake (p : PacketPacker) : PacketPacker :=
  match p.cryptoSetup.getInitialSealer, p.cryptoSetup.getHandshakeSealer with
  | .error .keysDropped, .error .keysDropped => { p with handshakeConfirmed := true }
  | _, _ => p

def takeAck (p : PacketPacker) (encLevel : EncryptionLevel) :
    Option AckFrame × PacketPacker :=
  let (ack, acks) := p.acks.getAckFrame encLevel
  (ack, { p with acks })

def maybePackHandshakePacket (p : PacketPacker) (num : UInt16) :
    Except PackError (Option PackedPacket × PacketPacker) :=
  let hasData := p.handshakeStream.hasData
  let hasRetransmission := p.retransmissionQueue.hasHandshakeData
  let (ack, p) := p.takeAck .handshake
  if hasData || hasRetransmission || ack.isSome then
    match p.cryptoSetup.getHandshakeSealer with
    | .error err => .error (.noHandshakeSealer err)
    | .ok sealer => do
      let (packet, p) ← p.packCryptoPacket .handshake sealer hasData
        hasRetransmission ack num
      return (some packet, p)
  else .ok (none, p)

def maybePackCryptoPacket (p : PacketPacker) (num : UInt16) :
    Except PackError (Option PackedPacket × PacketPacker) :=
  let p := p.confirmHandshake
  let hasData := p.initialStream.hasData
  let hasRetransmission := p.retransmissionQueue.hasInitialData
  let (ack, p) := p.takeAck .initial
  if hasData || hasRetransmission || ack.isSome then
    match p.cryptoSetup.getInitialSealer with
    | .error err => .error (.noInitialSealer err)
    | .ok sealer => do
      let (packet, p) ← p.packCryptoPacket .initial sealer hasData
        hasRetransmission ack num
      return (some packet, p)
  else p.maybePackHandshakePacket num

/-! ## 1-RTT packets -/

def controlFrameLoop (maxLen : Nat) : List ControlFrame → List ControlFrame → Nat →
      Except GoPanic (List ControlFrame × List ControlFrame × Nat)
  | [], frames, length => .ok ([], frames, length)
  | f :: stack, frames, length => do
    let frameLen ← f.length
    if length + frameLen > maxLen then
      return (f :: stack, frames, length)
    else
      controlFrameLoop maxLen stack (frames ++ [f]) (length + frameLen)

def appendControlFrames (controlFrames : List ControlFrame) (maxLen : Nat) :
    Except GoPanic (List ControlFrame × List ControlFrame × Nat) := do
  let (stack, frames, length) ←
    controlFrameLoop maxLen controlFrames.reverse [] 0
  return (stack.reverse, frames, length)

def fillPacket (ack : Option AckFrame) (q : RetransmissionQueue)
    (c : Connection) (input : PackInput) (maxFrameSize : Nat) :
    Except GoPanic (Payload × RetransmissionQueue × Connection) := do
  let payload ← ackPayload ack
  let (q, payload) ← popLoop RetransmissionQueue.getAppDataFrame maxFrameSize
    minStreamFrameSize q.appData.length q payload
  let (controlFrames, control, controlLen) ←
    appendControlFrames c.framer.controlFrames
      (wrapByteCount (maxFrameSize - payload.length))
  let length := payload.length + controlLen
  let (c, streams, streamLen) ←
    { c with framer := { c.framer with controlFrames } }.appendStreamFrames
      input.convert (wrapByteCount (maxFrameSize - length)) input.limit
  return ({ payload with
      frames := payload.frames ++ control.map .control ++ streams.map .stream
      length := length + streamLen }, q, c)

def composeNextPacket (p : PacketPacker) (input : PackInput)
    (maxFrameSize : Nat) : Except GoPanic (Payload × PacketPacker) := do
  let (ack, p) := p.takeAck .oneRTT
  let (payload, retransmissionQueue, framer) ←
    fillPacket ack p.retransmissionQueue p.framer input maxFrameSize
  return (payload, { p with retransmissionQueue, framer })

/-- A PING is added to every twentieth packet that holds only an ACK. -/
def addPing (p : PacketPacker) (payload : Payload) : Payload × PacketPacker :=
  if payload.frames.isEmpty then
    if p.numNonAckElicitingAcks ≥ maxNonAckElicitingAcks then
      ({ payload with
          frames := payload.frames ++ [.control .ping]
          length := payload.length + 1 },
        { p with numNonAckElicitingAcks := 0 })
    else
      (payload, { p with numNonAckElicitingAcks := p.numNonAckElicitingAcks + 1 })
  else (payload, { p with numNonAckElicitingAcks := 0 })

def packAppData (p : PacketPacker) (input : PackInput) :
    Except PackError (Option PackedPacket × PacketPacker) :=
  match p.cryptoSetup.get1RTTSealer with
  | .error _ => .ok (none, p)
  | .ok sealer => do
    let header ← ofHandler (p.getShortHeader p.cryptoSetup.keyPhase)
    let headerLen ← ofPanic header.getLength
    let maxSize := wrapByteCount (p.maxPacketSize - aeadOverhead - headerLen)
    let (payload, p) ← ofPanic (p.composeNextPacket input maxSize)
    if payload.frames.isEmpty && payload.ack.isNone then
      return (none, p)
    else
      let (payload, p) := p.addPing payload
      let (packet, p) ←
        p.writeAndSealPacket header payload .oneRTT sealer input.num
      return (some packet, p)

def packPacket (p : PacketPacker) (input : PackInput) :
    Except PackError (Option PackedPacket × PacketPacker) :=
  if p.handshakeConfirmed then p.packAppData input
  else do
    let (packet, p) ← p.maybePackCryptoPacket input.num
    match packet with
    | some packet => return (some packet, p)
    | none => p.packAppData input

end PacketPacker

end Qperf.Quic
