import Qperf.Foundation.Traces
import Qperf.Quic.PacketRoundTrip
import Qperf.Quic.FrameReports

/-!
# The session around the packet packer

The events of a session that reach its packet packer.  Packets are sent and come back as
acknowledged, lost or probed; the frames of a lost packet are queued again.  Keys are
installed and dropped, a Retry replaces the token and the connection ID, and the peer may
lower the packet size.  What the applications, the streams and the received packets
contribute is an input: the framer and the next ACK frames may change at any time.
-/

namespace Qperf.Quic

open Qperf.Foundation

inductive SessionError where
  | pack (err : PackError)
  | handlerPanic (cause : HandlerPanic)
  | ack (err : AckError)
  | unexpectedLevel
  | invalidMaxPacketSize (value : Nat)
  deriving DecidableEq, Repr

def liftPack {α : Type} : Except PackError α → Except SessionError α
  | .ok a => .ok a
  | .error err => .error (.pack err)

def liftHandler {α : Type} : Except HandlerPanic α → Except SessionError α
  | .ok a => .ok a
  | .error cause => .error (.handlerPanic cause)

/-! ## Packets for the sent packet handler -/

def Frame.onLost (encLevel : EncryptionLevel) : Frame → OnLost
  | .stream _ => .queueRetransmission
  | .control _ =>
    match encLevel with
    | .initial => .addInitial
    | .handshake => .addHandshake
    | .oneRTT => .addAppData

namespace PackedPacket

def encryptionLevel (packet : PackedPacket) : Option EncryptionLevel :=
  if packet.header.isLongHeader then
    match packet.header.type with
    | some .initial => some .initial
    | some .handshake => some .handshake
    | _ => none
  else some .oneRTT

def largestAcked (packet : PackedPacket) : Except SessionError PacketNumber :=
  match packet.ack with
  | none => .ok invalidPacketNumber
  | some ack => liftHandler ack.largestAcked

def toAckHandlerPacket (packet : PackedPacket) (sendTime : Time) :
    Except SessionError (SentPacket TrackedFrame) :=
  match packet.encryptionLevel with
  | none => .error .unexpectedLevel
  | some encLevel => do
    let largestAcked ← packet.largestAcked
    return {
      packetNumber := packet.header.packetNumber
      frames := packet.frames.map fun f => ⟨f, f.onLost encLevel⟩
      largestAcked
      length := packet.raw.length
      encryptionLevel := encLevel
      sendTime
      includedInBytesInFlight := false }

end PackedPacket

/-! ## The trackers of received packets -/

namespace ReceivedPacketHandler

/-- `GetAckFrame` of the level returns `ack` next, unless its tracker was dropped. -/
def setAck (h : ReceivedPacketHandler) (ack : Option AckFrame) :
    EncryptionLevel → ReceivedPacketHandler
  | .initial => { h with initialPackets := h.initialPackets.map fun _ => ack }
  | .handshake => { h with handshakePackets := h.handshakePackets.map fun _ => ack }
  | .oneRTT => { h with oneRTTPackets := ack }

def dropPackets (h : ReceivedPacketHandler) :
    EncryptionLevel → Except HandlerPanic ReceivedPacketHandler
  | .initial => .ok { h with initialPackets := none }
  | .handshake => .ok { h with handshakePackets := none }
  | .oneRTT => .error (.cannotDropKeys .oneRTT)

end ReceivedPacketHandler

/-! ## Keys -/

namespace CryptoSetup

def changeConnectionID (c : CryptoSetup) (sealer : Sealer) : CryptoSetup :=
  { c with initialOpener := true, initialSealer := some sealer }

def setReadKey (c : CryptoSetup) : EncryptionLevel → Except SessionError CryptoSetup
  | .initial => .error .unexpectedLevel
  | .handshake => .ok { c with handshakeOpener := true }
  | .oneRTT => .ok c

def setWriteKey (c : CryptoSetup) (sealer : Sealer) :
    EncryptionLevel → Except SessionError CryptoSetup
  | .initial => .error .unexpectedLevel
  | .handshake =>
    .ok { c with writeEncLevel := .handshake, handshakeSealer := some sealer }
  | .oneRTT => .ok { c with writeEncLevel := .oneRTT, oneRTTSealer := some sealer }

def rollKeys (c : CryptoSetup) (sealer : Sealer) (keyPhase : KeyPhaseBit) :
    CryptoSetup :=
  { c with oneRTTSealer := c.oneRTTSealer.map fun _ => sealer, keyPhase }

end CryptoSetup

namespace PacketPacker

/-! ## ACK packets -/

def takeFirstAck (p : PacketPacker) :
    List EncryptionLevel → Option (EncryptionLevel × AckFrame) × PacketPacker
  | [] => (none, p)
  | encLevel :: levels =>
    match p.takeAck encLevel with
    | (some ack, p) => (some (encLevel, ack), p)
    | (none, p) => p.takeFirstAck levels

def ofSealer {α : Type} : Except SealerError α → Except PackError α
  | .ok a => .ok a
  | .error err => .error (.sealer err)

def getSealerAndHeader (p : PacketPacker) (encLevel : EncryptionLevel) :
    Except PackError (Sealer × ExtendedHeader) := do
  let sealer ← ofSealer <| match encLevel with
    | .initial => p.cryptoSetup.getInitialSealer
    | .handshake => p.cryptoSetup.getHandshakeSealer
    | .oneRTT => p.cryptoSetup.get1RTTSealer
  let hdr ← ofHandler <| match encLevel with
    | .oneRTT => p.getShortHeader p.cryptoSetup.keyPhase
    | _ => p.getLongHeader encLevel
  return (sealer, hdr)

def maybePackAckPacket (p : PacketPacker) (num : UInt16) :
    Except PackError (Option PackedPacket × PacketPacker) :=
  match p.takeFirstAck (if p.handshakeConfirmed then [.oneRTT]
      else [.initial, .handshake, .oneRTT]) with
  | (none, p) => .ok (none, p)
  | (some (encLevel, ack), p) => do
    let payload ← ofPanic (ackPayload (some ack))
    let (sealer, hdr) ← p.getSealerAndHeader encLevel
    let (packet, p) ← p.writeAndSealPacket hdr payload encLevel sealer num
    return (some packet, p)

/-! ## Callbacks -/

/-- A STREAM frame goes back to its stream, which is a change of the framer. -/
def callback (p : PacketPacker) : FrameCallback TrackedFrame → PacketPacker
  | .onAcked _ => p
  | .onLost ⟨.control f, .addInitial⟩ =>
    { p with retransmissionQueue := p.retransmissionQueue.addInitial f }
  | .onLost ⟨.control f, .addHandshake⟩ =>
    { p with retransmissionQueue := p.retransmissionQueue.addHandshake f }
  | .onLost ⟨.control f, .addAppData⟩ =>
    { p with retransmissionQueue := p.retransmissionQueue.addAppData f }
  | .onLost _ => p

def handle (p : PacketPacker) (handled : Handled TrackedFrame) : PacketPacker :=
  handled.callbacks.foldl callback { p with pnManager := handled.handler }

def handleChecked (p : PacketPacker) (handled : Handled TrackedFrame) :
    Except SessionError PacketPacker :=
  match handled.error with
  | some err => .error (.ack err)
  | none => .ok (p.handle handled)

/-! ## Dropping keys -/

/-- The retransmission queue is not told. -/
def dropEncryptionLevel (p : PacketPacker) (encLevel : EncryptionLevel) :
    Except SessionError PacketPacker := do
  let pnManager ← liftHandler (p.pnManager.dropPackets encLevel)
  let acks ← liftHandler (p.acks.dropPackets encLevel)
  return { p with pnManager, acks }

def dropInitialKeys (p : PacketPacker) : Except SessionError PacketPacker :=
  if p.cryptoSetup.initialOpener then
    dropEncryptionLevel { p with cryptoSetup :=
      { p.cryptoSetup with initialOpener := false, initialSealer := none } } .initial
  else .ok p

def dropHandshakeKeys (p : PacketPacker) : Except SessionError PacketPacker :=
  if p.cryptoSetup.handshakeOpener then
    dropEncryptionLevel { p with cryptoSetup :=
      { p.cryptoSetup with handshakeOpener := false, handshakeSealer := none } }
      .handshake
  else .ok p

def setLargest1RTTAcked (p : PacketPacker) : Except SessionError PacketPacker := do
  let p ← p.dropInitialKeys
  p.dropHandshakeKeys

end PacketPacker

/-! ## The session -/

structure PackingSession where
  packer : PacketPacker
  receivedFirstPacket : Bool
  receivedRetry : Bool

inductive SessionEvent where
  | sendPacket (input : PackInput) (sendTime : Time) (rtt : RoundTrip)
  | sendAckOnlyPacket (num : UInt16) (sendTime : Time) (rtt : RoundTrip)
  | ackFrame (frame : AckFrame) (encLevel : EncryptionLevel) (rcvTime : Time)
      (rtt : RoundTrip)
  | lossDetectionTimeout (now : Time) (rtt : RoundTrip)
  | queueProbePacket
  | retryPacket (hdr : Header) (num₁ num₂ : UInt16) (rtt : RoundTrip) (sealer : Sealer)
  | unpackedPacket (hdr : Header)
  | transportParameters (maxPacketSize : Nat)
  | writeRecord (data : List UInt8)
  | setReadKey (encLevel : EncryptionLevel)
  | setWriteKey (encLevel : EncryptionLevel) (sealer : Sealer)
  | rollKeys (sealer : Sealer) (keyPhase : KeyPhaseBit)
  | nextAck (encLevel : EncryptionLevel) (ack : Option AckFrame)
  | framer (c : Connection)

namespace PackingSession

def sentPacket (p : PacketPacker) (packet : Option PackedPacket) (sendTime : Time)
    (rtt : RoundTrip) : Except SessionError PacketPacker :=
  match packet with
  | none => .ok p
  | some packet => do
    let sent ← packet.toAckHandlerPacket sendTime
    let pnManager ← liftHandler (p.pnManager.sentPacket sent rtt)
    return { p with pnManager }

def sendPacket (p : PacketPacker) (input : PackInput) (sendTime : Time)
    (rtt : RoundTrip) : Except SessionError PacketPacker := do
  let (packet, p) ← liftPack (p.packPacket input)
  sentPacket p packet sendTime rtt

def maybeSendAckOnlyPacket (p : PacketPacker) (num : UInt16) (sendTime : Time)
    (rtt : RoundTrip) : Except SessionError PacketPacker := do
  let (packet, p) ← liftPack (p.maybePackAckPacket num)
  sentPacket p packet sendTime rtt

def handleAckFrame (p : PacketPacker) (frame : AckFrame) (encLevel : EncryptionLevel)
    (rcvTime : Time) (rtt : RoundTrip) : Except SessionError PacketPacker := do
  let handled ← liftHandler (p.pnManager.receivedAck frame encLevel rcvTime rtt)
  let p ← p.handleChecked handled
  if encLevel = .oneRTT then p.setLargest1RTTAcked else return p

/-- The packer always has the destination connection ID of the session. -/
def handleRetryPacket (s : PackingSession) (hdr : Header) (num₁ num₂ : UInt16)
    (rtt : RoundTrip) (sealer : Sealer) : Except SessionError PackingSession :=
  if s.packer.perspective = .server then .ok s
  else if s.receivedFirstPacket then .ok s
  else if hdr.origDestConnectionID ≠ s.packer.destConnID then .ok s
  else if hdr.srcConnectionID = s.packer.destConnID then .ok s
  else if s.receivedRetry then .ok s
  else do
    let handled ← liftHandler (s.packer.pnManager.resetForRetry num₁ num₂ rtt)
    let p ← s.packer.handleChecked handled
    return { s with
      receivedRetry := true
      packer := { p with
        cryptoSetup := p.cryptoSetup.changeConnectionID sealer
        token := hdr.token
        destConnID := hdr.srcConnectionID } }

/-- A client takes its destination connection ID from the first packet. -/
def handleUnpackedPacket (s : PackingSession) (hdr : Header) : PackingSession where
  packer :=
    if s.packer.perspective = .client ∧ s.receivedFirstPacket = false ∧
        hdr.isLongHeader = true ∧ hdr.srcConnectionID ≠ s.packer.destConnID then
      { s.packer with destConnID := hdr.srcConnectionID }
    else s.packer
  receivedFirstPacket := true
  receivedRetry := s.receivedRetry

/-- The parser of the parameters rejects sizes below 1200. -/
def handleTransportParameters (p : PacketPacker) (maxPacketSize : Nat) :
    Except SessionError PacketPacker :=
  if maxPacketSize = 0 then .ok p
  else if maxPacketSize < 1200 then .error (.invalidMaxPacketSize maxPacketSize)
  else .ok { p with maxPacketSize := min p.maxPacketSize maxPacketSize }

def writeRecord (p : PacketPacker) (data : List UInt8) :
    Except SessionError PacketPacker :=
  match p.cryptoSetup.writeEncLevel with
  | .initial => .ok { p with initialStream := p.initialStream.write data }
  | .handshake => .ok { p with handshakeStream := p.handshakeStream.write data }
  | .oneRTT => .error .unexpectedLevel

def setCryptoSetup (p : PacketPacker) (result : Except SessionError CryptoSetup) :
    Except SessionError PacketPacker := do
  let cryptoSetup ← result
  return { p with cryptoSetup }

def onPacker (s : PackingSession) (result : Except SessionError PacketPacker) :
    Except SessionError PackingSession := do
  let packer ← result
  return { s with packer }

def step (s : PackingSession) : SessionEvent → Except SessionError PackingSession
  | .sendPacket input sendTime rtt => s.onPacker (sendPacket s.packer input sendTime rtt)
  | .sendAckOnlyPacket num sendTime rtt =>
    s.onPacker (maybeSendAckOnlyPacket s.packer num sendTime rtt)
  | .ackFrame frame encLevel rcvTime rtt =>
    s.onPacker (handleAckFrame s.packer frame encLevel rcvTime rtt)
  | .lossDetectionTimeout now rtt => s.onPacker do
      let handled ← liftHandler (s.packer.pnManager.onLossDetectionTimeout now rtt)
      s.packer.handleChecked handled
  | .queueProbePacket => s.onPacker do
      let (handled, _) ← liftHandler s.packer.pnManager.queueProbePacket
      s.packer.handleChecked handled
  | .retryPacket hdr num₁ num₂ rtt sealer => s.handleRetryPacket hdr num₁ num₂ rtt sealer
  | .unpackedPacket hdr => .ok (s.handleUnpackedPacket hdr)
  | .transportParameters maxPacketSize =>
    s.onPacker (handleTransportParameters s.packer maxPacketSize)
  | .writeRecord data => s.onPacker (writeRecord s.packer data)
  | .setReadKey encLevel =>
    s.onPacker (setCryptoSetup s.packer (s.packer.cryptoSetup.setReadKey encLevel))
  | .setWriteKey encLevel sealer => s.onPacker
      (setCryptoSetup s.packer (s.packer.cryptoSetup.setWriteKey sealer encLevel))
  | .rollKeys sealer keyPhase => s.onPacker
      (setCryptoSetup s.packer (.ok (s.packer.cryptoSetup.rollKeys sealer keyPhase)))
  | .nextAck encLevel ack =>
    s.onPacker (.ok { s.packer with acks := s.packer.acks.setAck ack encLevel })
  | .framer c => s.onPacker (.ok { s.packer with framer := c })

def new (destConnID srcConnID : ConnectionID) (initialPN : PacketNumber)
    (num₁ num₂ num₃ : UInt16) (remoteAddr : RemoteAddr) (sealer : Sealer)
    (framer : Connection) (perspective : Perspective) (version : Nat)
    (token : List UInt8) : PackingSession where
  packer := { newPacketPacker destConnID srcConnID .new .new
      (.new initialPN num₁ num₂ num₃) .new remoteAddr
      ⟨.initial, true, some sealer, false, none, none, .zero⟩ framer
      ⟨some none, some none, none⟩ perspective version with token }
  receivedFirstPacket := false
  receivedRetry := false

end PackingSession

end Qperf.Quic
