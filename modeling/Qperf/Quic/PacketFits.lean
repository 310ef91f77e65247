import Qperf.Quic.PacketSizes

/-!
# Every packet fits

Which packets `PackPacket` can pack without a panic or a size error.  1-RTT,
Handshake and a server's Initial packets always fit.  A client pads its Initial
packets to `MinInitialPacketSize`, but fills them with new data up to the maximum
packet size, and does not take the length of the token into account.
-/

namespace Qperf.Quic

open Qperf.Foundation

/-! ## What is expected of a packet -/

/-- Neither a panic nor one of the errors about sizes. -/
def PackError.Accepted : PackError → Prop
  | .write _ => True
  | .sealer _ => True
  | .noInitialSealer _ => True
  | .noHandshakeSealer _ => True
  | .packetNumbersDoNotMatch => True
  | _ => False

structure PackedPacket.Fits (packet : PackedPacket) (maxPacketSize : Nat)
    (perspective : Perspective) : Prop where
  size : packet.raw.length ≤ maxPacketSize
  written : ∃ padding, packet.Written padding
  initial : perspective = .client → packet.header.type = some .initial →
    packet.raw.length = minInitialPacketSize

namespace PacketPacker

/-! ## Contents of the packer -/

/-- What `newPacketPacker`, `HandleTransportParameters` and the session set. -/
structure Limits (p : PacketPacker) : Prop where
  minSize : minInitialPacketSize ≤ p.maxPacketSize
  maxSize : p.maxPacketSize ≤ maxPacketSizeIPv4
  destConnID : p.destConnID.length < 256
  srcConnID : p.srcConnID.length < 256
  token : p.token.length ≤ maxVarInt8
  serverToken : p.perspective = .server → p.token = []

/-- The contents of the packer can be encoded and fit into the memory. -/
structure Valid (p : PacketPacker) : Prop extends Limits p where
  memory : p.token.length +
    framesSize (p.retransmissionQueue.initialFrames.map .control) ≤ maxVarInt8
  appMemory : framesSize (p.retransmissionQueue.appData.map .control) +
    framesSize (p.framer.framer.controlFrames.map .control) ≤ 2 ^ 30
  initialStream : p.initialStream.Valid
  handshakeStream : p.handshakeStream.Valid
  initialFrames : ∀ f ∈ p.retransmissionQueue.initialFrames, f.Valid
  handshakeFrames : ∀ f ∈ p.retransmissionQueue.handshakeFrames, f.Valid
  appData : ∀ f ∈ p.retransmissionQueue.appData, f.Valid
  controlFrames : ∀ f ∈ p.framer.framer.controlFrames, f.Valid
  framer : p.framer.Valid
  acks : ∀ encLevel, AckValid (p.acks.getAckFrame encLevel).1
  initialSpace : p.cryptoSetup.initialSealer.isSome →
    p.pnManager.initialPackets.isSome
  handshakeSpace : p.cryptoSetup.handshakeSealer.isSome →
    p.pnManager.handshakePackets.isSome

/-- A connection ID is longer than what `Write` accepts. -/
def LongIDs (p : PacketPacker) : Prop :=
  maxConnIDLen < p.destConnID.length ∨ maxConnIDLen < p.srcConnID.length

instance (p : PacketPacker) : Decidable p.LongIDs :=
  inferInstanceAs (Decidable (_ ∨ _))

def longHeaderLen (p : PacketPacker) (encLevel : EncryptionLevel) : Nat :=
  11 + p.destConnID.length + p.srcConnID.length + varIntSize p.maxPacketSize +
    if encLevel = .initial then varIntSize p.token.length + p.token.length else 0

variable {p : PacketPacker} {payload : Payload} {encLevel : EncryptionLevel}
variable {header : ExtendedHeader} {sealer : Sealer} {num : UInt16}
variable {space : PacketNumberSpace TrackedFrame} {ack : Option AckFrame}

theorem Limits.setQueue (hp : p.Limits) (q : RetransmissionQueue) :
    Limits { p with retransmissionQueue := q } :=
  { hp with }

theorem Limits.setStreams (hp : p.Limits) (initial handshake : CryptoStream) :
    Limits { p with initialStream := initial, handshakeStream := handshake } :=
  { hp with }

theorem setCryptoStream_eq (p : PacketPacker) (encLevel : EncryptionLevel)
    (s : CryptoStream) : ∃ initial handshake, p.setCryptoStream encLevel s =
      { p with initialStream := initial, handshakeStream := handshake } := by
  cases encLevel with
  | initial => exact ⟨s, p.handshakeStream, rfl⟩
  | handshake | oneRTT => exact ⟨p.initialStream, s, rfl⟩

theorem Limits.varIntSize_maxPacketSize (hp : p.Limits) :
    varIntSize p.maxPacketSize = 2 := by
  have hmin := hp.minSize
  have hmax := hp.maxSize
  unfold minInitialPacketSize at hmin
  unfold maxPacketSizeIPv4 at hmax
  exact varIntSize_of_le_two (by omega) (by omega)

theorem Limits.longHeaderLen_le (hp : p.Limits) (encLevel : EncryptionLevel) :
    p.longHeaderLen encLevel ≤ p.token.length + 531 := by
  have hdest := hp.destConnID
  have hsrc := hp.srcConnID
  have htoken := varIntSize_le p.token.length
  unfold longHeaderLen
  rw [hp.varIntSize_maxPacketSize]
  split <;> omega

theorem wireLen_longHeader (p : PacketPacker) (hlevel : encLevel ≠ .oneRTT)
    (pn : PacketNumber) (length : Nat) :
    ((p.longHeader encLevel pn).withLength length).wireLen + varIntSize p.maxPacketSize =
      p.longHeaderLen encLevel + varIntSize length := by
  cases encLevel with
  | initial =>
    simp only [ExtendedHeader.wireLen, ExtendedHeader.withLength, longHeader,
      longHeaderLen, if_true]
    omega
  | handshake =>
    simp only [ExtendedHeader.wireLen, ExtendedHeader.withLength, longHeader,
      longHeaderLen, if_true, reduceCtorEq, if_false, Option.some.injEq]
    omega
  | oneRTT => exact absurd rfl hlevel

theorem Limits.getLength_longHeader (hp : p.Limits) (hlevel : encLevel ≠ .oneRTT)
    (pn : PacketNumber) :
    (p.longHeader encLevel pn).getLength = .ok (p.longHeaderLen encLevel) := by
  have hmax := hp.maxSize
  have htoken := hp.token
  have hsize := p.wireLen_longHeader hlevel pn p.maxPacketSize
  rw [ExtendedHeader.getLength_of_le (Nat.le_trans hmax (by decide))]
  · exact congrArg Except.ok (Nat.add_right_cancel hsize)
  · unfold longHeader
    dsimp only
    split
    · exact htoken
    · exact Nat.zero_le _

theorem Limits.longHeader_valid (hp : p.Limits) (hids : ¬ p.LongIDs)
    (pn : PacketNumber) {length : Nat} (hlength : length ≤ maxVarInt8) :
    ((p.longHeader encLevel pn).withLength length).Valid := by
  obtain ⟨hdest, hsrc⟩ := not_or.mp hids
  refine ⟨Nat.le_of_not_lt hdest, Nat.le_of_not_lt hsrc, Nat.zero_le _, hlength,
    ?_, ⟨Nat.one_le_ofNat, Nat.le_refl 4⟩, ?_⟩
  · unfold ExtendedHeader.withLength longHeader
    dsimp only
    split
    · exact hp.token
    · exact Nat.zero_le _
  · cases encLevel <;> exact (nofun)

/-! ## Sealing packets -/

/-- The packet that is sealed fits, or an error is returned that may be expected. -/
def SealsFitting (result : Except PackError (PackedPacket × PacketPacker))
    (p : PacketPacker) : Prop :=
  Ends PackError.Accepted result fun r => r.1.Fits p.maxPacketSize p.perspective

theorem seals_of_long (hlong : maxConnIDLen < header.destConnectionID.length ∨
      maxConnIDLen < header.srcConnectionID.length) (padding : Nat) :
    p.SealsFitting (p.writeAndSealPacketWithPadding header payload padding encLevel
      sealer num) := by
  obtain ⟨message, hwrite⟩ := ExtendedHeader.write_of_long hlong
  unfold writeAndSealPacketWithPadding
  rw [hwrite]
  trivial

private theorem not_seals_of_panic {cause : GoPanic}
    (hwrite : header.write = .error (.panic cause)) (padding : Nat) :
    ¬ p.SealsFitting (p.writeAndSealPacketWithPadding header payload padding encLevel
      sealer num) := by
  unfold writeAndSealPacketWithPadding
  rw [hwrite]
  exact id

private theorem not_seals_of_negative (hheader : header.Valid) (hpayload : payload.Sized)
    {padding : Nat} (hpadding : 2 ^ 63 ≤ padding) :
    ¬ p.SealsFitting (p.writeAndSealPacketWithPadding header payload padding encLevel
      sealer num) := by
  obtain ⟨hdr, hhdr, -⟩ := hheader.write
  obtain ⟨ack, hack, -⟩ := hpayload.ack.writeAck
  unfold writeAndSealPacketWithPadding PacketPacker.padding
  rw [hhdr, hack, if_pos hpadding]
  exact id

theorem seals_of_room {padding : Nat} (hmax : p.maxPacketSize ≤ maxPacketSizeIPv4)
    (hheader : header.Valid) (hpayload : payload.Sized)
    (hspace : p.pnManager.getPacketNumberSpace encLevel = .ok space)
    (hpeek : space.pns.peek = header.packetNumber)
    (hother : ¬ (p.perspective = .client ∧ header.type = some .initial))
    (htotal : header.wireLen + payload.length + padding + aeadOverhead ≤ p.maxPacketSize) :
    p.SealsFitting (p.writeAndSealPacketWithPadding header payload padding encLevel
      sealer num) := by
  obtain ⟨packet, next, hresult, rfl, hwritten, hraw⟩ :=
    sealed_of_room hmax hheader hpayload hspace hpeek htotal sealer num
  rw [hresult]
  exact ⟨Nat.le_trans (Nat.le_of_eq hraw) htotal, ⟨_, hwritten⟩,
    fun hclient hinitial => absurd ⟨hclient, hinitial⟩ hother⟩

/--
A client's Initial packet is padded to `MinInitialPacketSize`.  The header takes up
its full length only if the length field needs two bytes.
-/
theorem seals_clientInitial (hp : p.Limits) (hids : ¬ p.LongIDs)
    (hclient : p.perspective = .client) (hpayload : payload.Sized)
    (hmemory : p.token.length + payload.length ≤ maxVarInt8 + maxReceivePacketSize)
    (hspace : p.pnManager.getPacketNumberSpace .initial = .ok space) :
    p.SealsFitting (p.writeAndSealPacket (p.longHeader .initial space.pns.peek) payload
        .initial sealer num) ↔
      p.longHeaderLen .initial + 63 < minInitialPacketSize + 4 ∧
        p.longHeaderLen .initial + aeadOverhead + payload.length ≤ minInitialPacketSize := by
  have hlevel : EncryptionLevel.initial ≠ .oneRTT := by decide
  have hsize := p.wireLen_longHeader hlevel space.pns.peek
  have hheaderLen := hp.longHeaderLen_le .initial
  rw [hp.varIntSize_maxPacketSize] at hsize
  have hmin := hp.minSize
  unfold maxVarInt8 maxReceivePacketSize at hmemory
  unfold writeAndSealPacket
  rw [if_pos hlevel, if_pos ⟨hclient, rfl⟩, hp.getLength_longHeader hlevel]
  simp only [ofPanic, ok_bind, minInitialPacketSize, aeadOverhead] at hmin ⊢
  generalize p.longHeaderLen .initial = headerLen at *
  have hpn : (p.longHeader .initial space.pns.peek).packetNumberLen = 4 := rfl
  rw [hpn]
  by_cases hfit : headerLen + 16 + payload.length ≤ 1200
  · have hlength : wrapByteCount
        (((4 : Nat) : Int) + (1200 : Nat) - headerLen) = 1204 - headerLen := by
      unfold wrapByteCount
      omega
    have hpadding : wrapByteCount (((1200 : Nat) : Int) - (16 : Nat) - headerLen -
        payload.length) = 1184 - headerLen - payload.length := by
      unfold wrapByteCount
      omega
    rw [hlength, hpadding]
    specialize hsize (1204 - headerLen)
    have hfield : varIntSize (1204 - headerLen) ≤ 2 :=
      Nat.le_trans (varIntSize_mono (show _ ≤ 16383 by omega)) (by decide)
    have hfieldLe : 1204 - headerLen ≤ maxVarInt8 :=
      Nat.le_trans (Nat.sub_le ..) (by decide)
    have htotal : ((p.longHeader .initial space.pns.peek).withLength
        (1204 - headerLen)).wireLen + payload.length +
        (1184 - headerLen - payload.length) + aeadOverhead ≤ p.maxPacketSize := by
      unfold aeadOverhead
      omega
    obtain ⟨packet, next, hresult, hheader, hwritten, hraw⟩ :=
      sealed_of_room hp.maxSize (hp.longHeader_valid hids space.pns.peek hfieldLe)
        hpayload hspace rfl htotal sealer num
    rw [hresult, SealsFitting, ends_ok]
    dsimp only
    unfold aeadOverhead at hraw
    constructor
    · intro hfits
      have hexact := hfits.initial hclient (by rw [hheader]; rfl)
      unfold minInitialPacketSize at hexact
      refine ⟨?_, hfit⟩
      by_contra hshort
      have hone := varIntSize_of_le (show 1204 - headerLen ≤ 63 by omega)
      omega
    · rintro ⟨hlong, -⟩
      have htwo := varIntSize_of_le_two (show 63 < 1204 - headerLen by omega) (by omega)
      refine ⟨by omega, ⟨_, hwritten⟩, fun _ _ => ?_⟩
      unfold minInitialPacketSize
      omega
  · simp only [hfit, and_false, iff_false]
    by_cases hwrap : headerLen ≤ 1204
    · refine not_seals_of_negative (hp.longHeader_valid hids _ ?_) hpayload ?_
      · unfold maxVarInt8 wrapByteCount
        omega
      · unfold wrapByteCount
        omega
    · obtain ⟨hdest, hsrc⟩ := not_or.mp hids
      obtain ⟨cause, hpanic⟩ := ExtendedHeader.write_of_wrapped
        (h := (p.longHeader .initial space.pns.peek).withLength
          (wrapByteCount (((4 : Nat) : Int) + (1200 : Nat) - headerLen)))
        (Nat.le_of_not_lt hdest) (Nat.le_of_not_lt hsrc) (Nat.zero_le _) rfl
        (nofun) hp.token (by
          change maxVarInt8 < wrapByteCount _
          unfold maxVarInt8 wrapByteCount
          omega)
      exact not_seals_of_panic hpanic _

theorem seals_unpadded (hp : p.Limits) (hids : ¬ p.LongIDs) (hlevel : encLevel ≠ .oneRTT)
    (hother : ¬ (p.perspective = .client ∧ encLevel = .initial)) (hpayload : payload.Sized)
    (hspace : p.pnManager.getPacketNumberSpace encLevel = .ok space)
    (hfit : p.longHeaderLen encLevel + aeadOverhead + payload.length ≤ p.maxPacketSize) :
    p.SealsFitting (p.writeAndSealPacket (p.longHeader encLevel space.pns.peek) payload
      encLevel sealer num) := by
  have hmax := hp.maxSize
  unfold maxPacketSizeIPv4 at hmax
  have htype : ¬ (p.perspective = .client ∧
      (p.longHeader encLevel space.pns.peek).type = some .initial) := by
    rintro ⟨hclient, htype⟩
    apply hother ⟨hclient, ?_⟩
    cases encLevel with
    | initial => rfl
    | handshake => cases htype
    | oneRTT => cases htype
  unfold writeAndSealPacket
  rw [if_pos hlevel, if_neg htype]
  have hpn : (p.longHeader encLevel space.pns.peek).packetNumberLen = 4 := rfl
  rw [hpn]
  have hsize := p.wireLen_longHeader hlevel space.pns.peek
    (4 + aeadOverhead + payload.length)
  have hfield : varIntSize (4 + aeadOverhead + payload.length) ≤ 2 :=
    Nat.le_trans (varIntSize_mono (show _ ≤ 16383 by omega)) (by decide)
  have hlength : 4 + aeadOverhead + payload.length ≤ maxVarInt8 :=
    Nat.le_trans (show _ ≤ 16383 by omega) (by decide)
  rw [hp.varIntSize_maxPacketSize] at hsize
  exact seals_of_room hp.maxSize (hp.longHeader_valid hids space.pns.peek hlength)
    hpayload hspace rfl htype (by omega)

private theorem seals_of_longIDs (hp : p.Limits) (hids : p.LongIDs)
    (hlevel : encLevel ≠ .oneRTT) (pn : PacketNumber) :
    p.SealsFitting (p.writeAndSealPacket (p.longHeader encLevel pn) payload encLevel
      sealer num) := by
  unfold writeAndSealPacket
  rw [if_pos hlevel, hp.getLength_longHeader hlevel]
  split <;> exact seals_of_long (by exact hids) _

/-- A payload of the given length is sealed, or the connection ID is reported. -/
def RoomForPayload (p : PacketPacker) (encLevel : EncryptionLevel)
    (length : Nat) : Prop :=
  ¬ p.LongIDs → p.perspective = .client → encLevel = .initial →
    p.longHeaderLen .initial + 63 < minInitialPacketSize + 4 ∧
    p.longHeaderLen .initial + aeadOverhead + length ≤ minInitialPacketSize

theorem seals_writeAndSealPacket (hp : p.Limits) (hlevel : encLevel ≠ .oneRTT)
    (hpayload : payload.Sized) (hmemory : encLevel = .initial →
      p.token.length + payload.length ≤ maxVarInt8 + maxReceivePacketSize)
    (hspace : p.pnManager.getPacketNumberSpace encLevel = .ok space)
    (hfit : ¬ p.LongIDs → ¬ (p.perspective = .client ∧ encLevel = .initial) →
      p.longHeaderLen encLevel + aeadOverhead + payload.length ≤
        p.maxPacketSize) :
    p.SealsFitting (p.writeAndSealPacket (p.longHeader encLevel space.pns.peek) payload
        encLevel sealer num) ↔ p.RoomForPayload encLevel payload.length := by
  by_cases hids : p.LongIDs
  · exact iff_of_true (seals_of_longIDs hp hids hlevel _) (fun hshort => absurd hids hshort)
  by_cases hclient : p.perspective = .client ∧ encLevel = .initial
  · obtain ⟨hclient, rfl⟩ := hclient
    rw [seals_clientInitial hp hids hclient hpayload (hmemory rfl) hspace]
    exact ⟨fun h _ _ _ => h, fun h => h hids hclient rfl⟩
  · exact iff_of_true
      (seals_unpadded hp hids hlevel hclient hpayload hspace (hfit hids hclient))
      (fun _ h h' => absurd ⟨h, h'⟩ hclient)

/-! ## Initial and Handshake packets -/

def hasRetransmission (p : PacketPacker) : EncryptionLevel → Bool
  | .initial => p.retransmissionQueue.hasInitialData
  | _ => p.retransmissionQueue.hasHandshakeData

/-- The length of the CRYPTO frame with new data that is packed next. -/
def newDataLen (p : PacketPacker) (encLevel : EncryptionLevel)
    (ack : Option AckFrame) : Nat :=
  if p.hasRetransmission encLevel = true then 0
  else if (p.cryptoStream encLevel).hasData = true then
    ((p.cryptoStream encLevel).nextFrame (p.maxPacketSize -
      p.longHeaderLen encLevel - aeadOverhead - ackSize ack)).wireLen
  else 0

/--
The condition on an Initial or Handshake packet.  The length that is left for new
data must not wrap around, even if the connection ID is reported later.
-/
def RoomForCrypto (p : PacketPacker) (encLevel : EncryptionLevel)
    (ack : Option AckFrame) : Prop :=
  (p.hasRetransmission encLevel = false → (p.cryptoStream encLevel).hasData = true →
    p.longHeaderLen encLevel + aeadOverhead + ackSize ack ≤ p.maxPacketSize) ∧
  p.RoomForPayload encLevel (ackSize ack + p.newDataLen encLevel ack)

theorem getLongHeader_of_space
    (hspace : p.pnManager.getPacketNumberSpace encLevel = .ok space) :
    p.getLongHeader encLevel = .ok (p.longHeader encLevel space.pns.peek) := by
  unfold getLongHeader SentPacketHandler.peekPacketNumber
  rw [hspace]
  rfl

theorem Limits.longHeaderLen_short (hp : p.Limits) (hids : ¬ p.LongIDs)
    (hother : ¬ (p.perspective = .client ∧ encLevel = .initial)) :
    p.longHeaderLen encLevel ≤ 54 := by
  obtain ⟨hdest, hsrc⟩ := not_or.mp hids
  unfold maxConnIDLen at hdest hsrc
  have htoken : (if encLevel = .initial then
      varIntSize p.token.length + p.token.length else 0) ≤ 1 := by
    split
    · next hinitial =>
      have hserver : p.perspective = .server := by
        cases hperspective : p.perspective with
        | server => rfl
        | client => exact absurd ⟨hperspective, hinitial⟩ hother
      rw [hp.serverToken hserver]
      decide
    · exact Nat.zero_le 1
  unfold longHeaderLen
  rw [hp.varIntSize_maxPacketSize]
  omega

def retransmissionLimit (p : PacketPacker) : EncryptionLevel → Nat
  | .initial => minInitialPacketSize
  | _ => p.maxPacketSize

def queuedFrames (q : RetransmissionQueue) : EncryptionLevel → List ControlFrame
  | .initial => q.initialFrames
  | _ => q.handshakeFrames

theorem Valid.popRetransmissions (hp : p.Valid) (encLevel : EncryptionLevel)
    (hdrLen : Nat) (hpayload : payload.Sized) (hempty : payload.frames = []) :
    ∃ q payload', p.popRetransmissions encLevel hdrLen payload = .ok (q, payload') ∧
      payload'.Sized ∧ payload.length ≤ payload'.length ∧
      payload'.length ≤ payload.length + framesSize
        ((PacketPacker.queuedFrames p.retransmissionQueue encLevel).map .control) ∧
      (hdrLen + aeadOverhead + payload.length ≤ p.retransmissionLimit encLevel →
        hdrLen + aeadOverhead + payload'.length ≤
          p.retransmissionLimit encLevel) := by
  have hmax := hp.maxSize
  unfold maxPacketSizeIPv4 at hmax
  have hloop : ∃ q payload' taken,
      p.popRetransmissions encLevel hdrLen payload = .ok (q, payload') ∧
      (PacketPacker.queuedFrames p.retransmissionQueue encLevel).Perm
        (taken ++ PacketPacker.queuedFrames q encLevel) ∧ payload'.Sized ∧
      payload'.ack = payload.ack ∧
      payload'.frames = payload.frames ++ taken.map .control ∧
      (payload.length ≤
          ((p.retransmissionLimit encLevel : Int) - hdrLen - aeadOverhead) →
        payload'.length ≤
          ((p.retransmissionLimit encLevel : Int) - hdrLen - aeadOverhead)) := by
    cases encLevel with
    | initial =>
      exact popLoop_sized RetransmissionQueue.takes_getInitialFrame
        (by unfold minInitialPacketSize; omega) _ _ hp.initialFrames hpayload
    | handshake | oneRTT =>
      exact popLoop_sized RetransmissionQueue.takes_getHandshakeFrame
        (by omega) _ _ hp.handshakeFrames hpayload
  obtain ⟨q, payload', taken, hpop, hperm, hsized, hack, hframes, hbound⟩ := hloop
  have hbefore := hpayload.length
  have hafter := hsized.length
  have hqueued : framesSize ((PacketPacker.queuedFrames p.retransmissionQueue
      encLevel).map .control) = framesSize (taken.map .control) +
      framesSize ((PacketPacker.queuedFrames q encLevel).map .control) := by
    rw [framesSize, (hperm.map Frame.control |>.map Frame.wireLen).sum_nat]
    simp only [framesSize, List.map_append, List.sum_append]
  rw [hack, hframes, hempty, List.nil_append] at hafter
  rw [hempty] at hbefore
  change payload.length = ackSize payload.ack + 0 at hbefore
  refine ⟨q, payload', hpop, hsized, by omega, by omega, ?_⟩
  intro hfits
  omega

theorem Valid.cryptoStream (hp : p.Valid) (encLevel : EncryptionLevel) :
    (p.cryptoStream encLevel).Valid := by
  cases encLevel with
  | initial => exact hp.initialStream
  | handshake | oneRTT => exact hp.handshakeStream

private theorem sized_crypto (hack : AckValid ack) {cf : CryptoFrame} (hframe : cf.Valid) :
    Payload.Sized {
      ack
      frames := [.control (.crypto cf)]
      length := ackSize ack + cf.wireLen } := by
  refine ⟨hack, ?_, ?_⟩
  · intro f hf
    rw [List.mem_singleton.mp hf]
    exact ControlFrame.Valid.crypto hframe
  · simp only [framesSize, List.map_cons, List.map_nil, List.sum_cons,
      List.sum_nil, Frame.wireLen, ControlFrame.wireLen_crypto]
    omega

theorem Limits.ack_fits (hp : p.Limits) (hack : AckValid ack) (hids : ¬ p.LongIDs)
    (hother : ¬ (p.perspective = .client ∧ encLevel = .initial)) :
    p.longHeaderLen encLevel + aeadOverhead + ackSize ack + 100 ≤ minInitialPacketSize := by
  have hheader := hp.longHeaderLen_short hids hother
  have hsize := hack.ackSize_le
  unfold AckFrame.maxWireLen maxAckFrameSize at hsize
  unfold aeadOverhead minInitialPacketSize
  omega

section

variable (hp : p.Valid) (hlevel : encLevel ≠ .oneRTT) (hack : AckValid ack)
variable (hspace : p.pnManager.getPacketNumberSpace encLevel = .ok space)
include hp hlevel hack hspace

theorem Valid.seals_retransmissions (hasData : Bool)
    (hretransmission : p.hasRetransmission encLevel = true) :
    p.SealsFitting (p.packCryptoPacket encLevel sealer hasData true ack num) ↔
      p.RoomForCrypto encLevel ack := by
  have hmin := hp.minSize
  have hsizeLe := hack.ackSize_le
  unfold AckFrame.maxWireLen maxAckFrameSize at hsizeLe
  obtain ⟨q, payload, hpop, hsized, hge, hle, hbound⟩ :=
    hp.popRetransmissions encLevel (p.longHeaderLen encLevel)
      (Payload.Sized.ofAck hack) rfl
  unfold packCryptoPacket
  rw [hack.ackPayload, getLongHeader_of_space hspace]
  simp only [ofPanic, ofHandler, ok_bind, hp.getLength_longHeader hlevel, if_true, hpop]
  refine (seals_writeAndSealPacket (hp.toLimits.setQueue q) hlevel hsized ?_
    hspace ?_).trans ?_
  · rintro rfl
    have hmemory := hp.memory
    unfold PacketPacker.queuedFrames at hle
    unfold maxReceivePacketSize
    dsimp only at hle ⊢
    omega
  · intro hids hother
    have hfits := hp.ack_fits hack hids hother
    cases encLevel with
    | initial => exact Nat.le_trans (hbound (Nat.le_of_add_right_le hfits)) hmin
    | handshake =>
      exact hbound (Nat.le_trans (Nat.le_of_add_right_le hfits) hmin)
    | oneRTT => exact absurd rfl hlevel
  · have hnew : p.newDataLen encLevel ack = 0 := if_pos hretransmission
    unfold RoomForCrypto
    rw [hretransmission, hnew]
    constructor
    · intro h
      refine ⟨(absurd · (by decide)), fun hids hclient hinitial => ?_⟩
      obtain ⟨hfield, hfit⟩ := h hids hclient hinitial
      exact ⟨hfield, Nat.le_trans (Nat.add_le_add_left hge _) hfit⟩
    · rintro ⟨-, h⟩ hids hclient rfl
      obtain ⟨hfield, hfit⟩ := h hids hclient rfl
      exact ⟨hfield, hbound hfit⟩

theorem Valid.seals_newData (hnoRetransmission : p.hasRetransmission encLevel = false)
    (hdata : (p.cryptoStream encLevel).hasData = true) :
    p.SealsFitting (p.packCryptoPacket encLevel sealer true false ack num) ↔
      p.RoomForCrypto encLevel ack := by
  have hmin := hp.minSize
  have hmax := hp.maxSize
  have hheaderLen := hp.longHeaderLen_le encLevel
  have htoken := hp.token
  have hsizeLe := hack.ackSize_le
  have hstream := hp.cryptoStream encLevel
  unfold AckFrame.maxWireLen maxAckFrameSize at hsizeLe
  unfold maxPacketSizeIPv4 at hmax
  unfold maxVarInt8 at htoken
  unfold packCryptoPacket RoomForCrypto
  rw [hack.ackPayload, getLongHeader_of_space hspace]
  simp only [ofPanic, ofHandler, ok_bind, hp.getLength_longHeader hlevel,
    if_true, Bool.false_eq_true, if_false, hnoRetransmission, hdata,
    forall_const]
  by_cases hroom : p.longHeaderLen encLevel + aeadOverhead + ackSize ack ≤
      p.maxPacketSize
  · have hlength : wrapByteCount ((p.maxPacketSize : Int) -
        p.longHeaderLen encLevel - aeadOverhead - ackSize ack) =
        p.maxPacketSize - p.longHeaderLen encLevel - aeadOverhead - ackSize ack := by
      unfold wrapByteCount
      omega
    have hshort : p.maxPacketSize - p.longHeaderLen encLevel - aeadOverhead -
        ackSize ack ≤ 16383 := by omega
    have hnew : p.newDataLen encLevel ack =
        ((p.cryptoStream encLevel).nextFrame (p.maxPacketSize -
          p.longHeaderLen encLevel - aeadOverhead - ackSize ack)).wireLen := by
      unfold newDataLen
      rw [hnoRetransmission, hdata, if_neg (by decide), if_pos rfl]
    rw [hlength, hstream.popCryptoFrame hshort, hnew]
    generalize hmaxLen : p.maxPacketSize - p.longHeaderLen encLevel -
      aeadOverhead - ackSize ack = maxLen at *
    have hframe := hstream.nextFrame maxLen
    simp only [hframe.length, ok_bind]
    obtain ⟨initial, handshake, hset⟩ := p.setCryptoStream_eq encLevel
      ((p.cryptoStream encLevel).afterFrame maxLen)
    rw [hset]
    refine (seals_writeAndSealPacket (hp.toLimits.setStreams initial handshake)
      hlevel (sized_crypto hack hframe) ?_ hspace ?_).trans ?_
    · intro _
      have hle := CryptoStream.wireLen_nextFrame_le_add (p.cryptoStream encLevel) hshort
      unfold maxVarInt8 maxReceivePacketSize
      dsimp only
      omega
    · intro hids hother
      have hfits := hp.ack_fits hack hids hother
      have hheader := (p.cryptoStream encLevel).frameHeaderLen_le
      have hle := CryptoStream.wireLen_nextFrame_le
        (show (p.cryptoStream encLevel).frameHeaderLen ≤ maxLen by omega) hshort
      change p.longHeaderLen encLevel + _ + (_ + _) ≤ p.maxPacketSize
      omega
    · simp only [hroom, true_and]
      exact Iff.rfl
  · have hlength : 2 ^ 63 ≤ wrapByteCount ((p.maxPacketSize : Int) -
        p.longHeaderLen encLevel - aeadOverhead - ackSize ack) := by
      unfold aeadOverhead at hroom ⊢
      unfold wrapByteCount
      omega
    obtain ⟨cause, hpanic⟩ := hstream.popCryptoFrame_wrapped hlength
    simp only [hpanic, error_bind, hroom, false_and, iff_false]
    exact id

theorem Valid.seals_ackOnly (hnoRetransmission : p.hasRetransmission encLevel = false)
    (hnoData : (p.cryptoStream encLevel).hasData = false) :
    p.SealsFitting (p.packCryptoPacket encLevel sealer false false ack num) ↔
      p.RoomForCrypto encLevel ack := by
  have hsizeLe := hack.ackSize_le
  have htoken := hp.token
  unfold AckFrame.maxWireLen maxAckFrameSize at hsizeLe
  have hnew : p.newDataLen encLevel ack = 0 := by
    unfold newDataLen
    rw [hnoRetransmission, hnoData, if_neg (by decide), if_neg (by decide)]
  unfold packCryptoPacket RoomForCrypto
  rw [hack.ackPayload, getLongHeader_of_space hspace]
  simp only [ofPanic, ofHandler, ok_bind, hp.getLength_longHeader hlevel,
    Bool.false_eq_true, if_false, hnoData, hnew, false_implies, implies_true,
    true_and, Nat.add_zero]
  refine seals_writeAndSealPacket hp.toLimits hlevel (Payload.Sized.ofAck hack) ?_ hspace ?_
  · intro _
    unfold maxReceivePacketSize
    dsimp only
    omega
  · intro hids hother
    exact Nat.le_trans (Nat.le_of_add_right_le (hp.ack_fits hack hids hother)) hp.minSize

theorem Valid.seals_packCryptoPacket (sealer : Sealer) (num : UInt16) :
    p.SealsFitting (p.packCryptoPacket encLevel sealer (p.cryptoStream encLevel).hasData
        (p.hasRetransmission encLevel) ack num) ↔ p.RoomForCrypto encLevel ack := by
  cases hretransmission : p.hasRetransmission encLevel with
  | true => exact hp.seals_retransmissions hlevel hack hspace _ hretransmission
  | false =>
    cases hdata : (p.cryptoStream encLevel).hasData with
    | true => exact hp.seals_newData hlevel hack hspace hretransmission hdata
    | false => exact hp.seals_ackOnly hlevel hack hspace hretransmission hdata

end

/-! ## 1-RTT packets -/

def shortHeaderLen (p : PacketPacker) : Nat :=
  let space := p.pnManager.oneRTTPackets
  let lowestUnacked :=
    match space.history.firstOutstanding with
    | some packet => packet.packetNumber
    | none => space.largestAcked + 1
  1 + p.destConnID.length + getPacketNumberLengthForHeader space.pns.peek lowestUnacked

theorem getShortHeader_spec (p : PacketPacker) (kp : KeyPhaseBit) :
    ∃ header, p.getShortHeader kp = .ok header ∧ header.type = none ∧
      header.wireLen = p.shortHeaderLen ∧ header.destConnectionID = p.destConnID ∧
      p.pnManager.oneRTTPackets.pns.peek = header.packetNumber ∧
      header.getLength = .ok header.wireLen ∧ header.wireLen ≤ 5 + p.destConnID.length ∧
      (p.destConnID.length ≤ maxConnIDLen → header.Valid) := by
  have hbounds := getPacketNumberLengthForHeader_bounds p.pnManager.oneRTTPackets.pns.peek
  refine ⟨_, rfl, rfl, ?_, rfl, rfl, rfl, ?_, ?_⟩
  · simp only [ExtendedHeader.wireLen, shortHeaderLen]
    rw [if_neg Bool.false_ne_true]
    cases p.pnManager.oneRTTPackets.history.firstOutstanding <;> rfl
  · refine Nat.le_trans (Nat.add_le_add_left (hbounds _).2 _) ?_
    dsimp only
    omega
  · intro hdest
    exact ⟨hdest, Nat.zero_le _, Nat.zero_le _, Nat.zero_le _, Nat.zero_le _,
      ⟨Nat.le_of_succ_le (hbounds _).1, (hbounds _).2⟩, nofun⟩

theorem seals_oneRTT (hmax : p.maxPacketSize ≤ maxPacketSizeIPv4)
    (hheader : header.Valid) (htype : header.type = none)
    (hpeek : p.pnManager.oneRTTPackets.pns.peek = header.packetNumber) (hpayload : payload.Sized)
    (hfit : header.wireLen + aeadOverhead + payload.length ≤ p.maxPacketSize)
    (hmin : header.wireLen + aeadOverhead + 4 ≤ p.maxPacketSize) :
    p.SealsFitting (p.writeAndSealPacket header payload .oneRTT sealer num) := by
  have hpnLen := hheader.packetNumberLen
  -- Both branches seal the packet, with their own padding.
  have hsealed : ∀ padding, header.wireLen + payload.length + padding +
      aeadOverhead ≤ p.maxPacketSize →
      p.SealsFitting (p.writeAndSealPacketWithPadding header payload padding .oneRTT
        sealer num) := fun padding htotal =>
    seals_of_room hmax hheader hpayload rfl hpeek (by simp [htype]) htotal
  unfold writeAndSealPacket
  rw [if_neg (by simp)]
  split
  · next hsmall =>
    apply hsealed
    unfold wrapByteCount at hsmall ⊢
    omega
  · apply hsealed
    omega

private theorem seals_oneRTT_of_long (hlong : maxConnIDLen < header.destConnectionID.length) :
    p.SealsFitting (p.writeAndSealPacket header payload .oneRTT sealer num) := by
  unfold writeAndSealPacket
  rw [if_neg (by simp)]
  split <;> exact seals_of_long (.inl hlong) _

/--
The condition on a 1-RTT packet.  Its connection ID is checked only after the packet was
filled.  A long one may leave less room than the ACK needs, and what is left for the
framer then wraps around, which a stream does not survive.
-/
def RoomForAppData (p : PacketPacker) (input : PackInput) : Prop :=
  p.cryptoSetup.oneRTTSealer.isSome → maxConnIDLen < p.destConnID.length →
    p.shortHeaderLen + aeadOverhead + ackSize p.acks.oneRTTPackets ≤ p.maxPacketSize ∨
      p.framer.ServesNone input.limit

theorem addPing_sized (hpayload : payload.Sized) {maxLen : Nat}
    (hfit : payload.length ≤ maxLen) (hack : ackSize payload.ack < maxLen) :
    (p.addPing payload).1.Sized ∧ (p.addPing payload).1.length ≤ maxLen := by
  unfold addPing
  split
  · next hempty =>
    have hframes : payload.frames = [] := List.isEmpty_iff.mp hempty
    split
    · have hping : ∀ f ∈ [Frame.control .ping], f.Valid := by
        intro f hf
        rw [List.mem_singleton.mp hf]
        exact ⟨List.forall_mem_nil _, trivial⟩
      have hlength := hpayload.length
      rw [hframes] at hlength
      change payload.length = ackSize payload.ack + 0 at hlength
      refine ⟨hpayload.append hping, ?_⟩
      dsimp only
      omega
    · exact ⟨hpayload, hfit⟩
  · exact ⟨hpayload, hfit⟩

/-- What `PackPacket` is expected to return: no packet or one that fits. -/
def Packs (p : PacketPacker)
    (result : Except PackError (Option PackedPacket × PacketPacker)) : Prop :=
  Ends PackError.Accepted result fun r =>
    ∀ packet, r.1 = some packet → packet.Fits p.maxPacketSize p.perspective

theorem packs_some (p : PacketPacker)
    {result : Except PackError (PackedPacket × PacketPacker)} :
    p.Packs (do
        let (packet, next) ← result
        return (some packet, next)) ↔ p.SealsFitting result := by
  cases result with
  | error e => rfl
  | ok r =>
    constructor
    · intro h
      exact h r.1 rfl
    · intro h packet hpacket
      cases hpacket
      exact h

private theorem composeNextPacket_ok {input : PackInput} {maxFrameSize : Nat}
    {q : RetransmissionQueue} {c : Connection}
    (h : fillPacket p.acks.oneRTTPackets p.retransmissionQueue p.framer input
      maxFrameSize = .ok (payload, q, c)) :
    p.composeNextPacket input maxFrameSize = .ok (payload, { p with
      acks := { p.acks with oneRTTPackets := none }
      retransmissionQueue := q
      framer := c }) := by
  exact congrArg (· >>= _) h

private theorem composeNextPacket_error {input : PackInput} {maxFrameSize : Nat} {cause : GoPanic}
    (h : fillPacket p.acks.oneRTTPackets p.retransmissionQueue p.framer input
      maxFrameSize = .error cause) :
    p.composeNextPacket input maxFrameSize = .error cause := by
  exact congrArg (· >>= _) h

theorem addPing_eq (p : PacketPacker) (payload : Payload) :
    ∃ n, (p.addPing payload).2 = { p with numNonAckElicitingAcks := n } := by
  unfold addPing
  split
  · split <;> exact ⟨_, rfl⟩
  · exact ⟨_, rfl⟩

theorem Valid.fillPacket_appData (hp : p.Valid) (input : PackInput)
    (hfits : ackSize p.acks.oneRTTPackets ≤
      p.maxPacketSize - aeadOverhead - p.shortHeaderLen) :
    ∃ payload q c, fillPacket p.acks.oneRTTPackets p.retransmissionQueue p.framer input
        (p.maxPacketSize - aeadOverhead - p.shortHeaderLen) = .ok (payload, q, c) ∧
      payload.Sized ∧ payload.ack = p.acks.oneRTTPackets ∧
      payload.length ≤ p.maxPacketSize - aeadOverhead - p.shortHeaderLen :=
  fillPacket_sized (hp.acks .oneRTT) hp.appData hp.controlFrames hp.framer input
    (Nat.le_trans (Nat.sub_le ..) (Nat.le_trans (Nat.sub_le ..)
      (Nat.le_trans hp.maxSize (by decide)))) hfits

theorem Valid.ackSize_lt_room (hp : p.Valid)
    (hshort : ¬ maxConnIDLen < p.destConnID.length) :
    ackSize p.acks.oneRTTPackets < p.maxPacketSize - aeadOverhead - p.shortHeaderLen := by
  have hmin := hp.minSize
  have hacks : AckValid p.acks.oneRTTPackets := hp.acks .oneRTT
  have hacksLe := hacks.ackSize_le
  obtain ⟨header, -, -, hwireLen, -, -, -, hlengthLe, -⟩ := p.getShortHeader_spec .zero
  rw [hwireLen] at hlengthLe
  unfold AckFrame.maxWireLen maxAckFrameSize at hacksLe
  unfold minInitialPacketSize at hmin
  unfold maxConnIDLen at hshort
  unfold aeadOverhead
  omega

/-- Filling a 1-RTT packet fails only if the ACK does not fit and a stream is served. -/
theorem Valid.fillPacket_ok_iff (hp : p.Valid) (input : PackInput) :
    (∃ filled, fillPacket p.acks.oneRTTPackets p.retransmissionQueue p.framer input
      (p.maxPacketSize - aeadOverhead - p.shortHeaderLen) = .ok filled) ↔
      (maxConnIDLen < p.destConnID.length →
        p.shortHeaderLen + aeadOverhead + ackSize p.acks.oneRTTPackets ≤ p.maxPacketSize ∨
          p.framer.ServesNone input.limit) := by
  have hmin := hp.minSize
  have hdest := hp.destConnID
  obtain ⟨header, -, -, hwireLen, -, -, -, hlengthLe, -⟩ := p.getShortHeader_spec .zero
  unfold minInitialPacketSize at hmin
  by_cases hfits : ackSize p.acks.oneRTTPackets ≤
      p.maxPacketSize - aeadOverhead - p.shortHeaderLen
  · obtain ⟨payload, q, c, hfill, -⟩ := hp.fillPacket_appData input hfits
    refine iff_of_true ⟨_, hfill⟩ fun _ => .inl ?_
    unfold aeadOverhead at hfits ⊢
    omega
  · have hacks : AckValid p.acks.oneRTTPackets := hp.acks .oneRTT
    rw [fillPacket_overlong hacks hp.appData hp.controlFrames hp.appMemory input
      (Nat.lt_of_not_le hfits)]
    constructor
    · exact fun hnone _ => .inr hnone
    · intro hroom
      refine (hroom ?_).resolve_left (by unfold aeadOverhead at hfits ⊢; omega)
      by_contra hnot
      exact hfits (Nat.le_of_lt (hp.ackSize_lt_room hnot))

theorem Valid.packs_appData (hp : p.Valid) (input : PackInput) :
    p.Packs (p.packAppData input) ↔ p.RoomForAppData input := by
  have hmin := hp.minSize
  have hmax := hp.maxSize
  have hdest := hp.destConnID
  unfold minInitialPacketSize at hmin
  obtain ⟨header, hheader, htype, hwireLen, hid, hpeek, hlength, hlengthLe, hvalid⟩ :=
    p.getShortHeader_spec p.cryptoSetup.keyPhase
  rw [hwireLen] at hlength hlengthLe
  have hmaxSize : wrapByteCount ((p.maxPacketSize : Int) - aeadOverhead - p.shortHeaderLen) =
      p.maxPacketSize - aeadOverhead - p.shortHeaderLen := by
    unfold maxPacketSizeIPv4 at hmax
    unfold wrapByteCount aeadOverhead
    omega
  unfold packAppData CryptoSetup.get1RTTSealer RoomForAppData
  cases hsealer : p.cryptoSetup.oneRTTSealer with
  | none =>
    refine iff_of_true ?_ (absurd · (by decide))
    intro packet h
    cases h
  | some sealer =>
    simp only [hheader, ofHandler, ofPanic, ok_bind, hlength, hmaxSize,
      Option.isSome_some, forall_const]
    rw [← hp.fillPacket_ok_iff input]
    cases hfill : fillPacket p.acks.oneRTTPackets p.retransmissionQueue
        p.framer input (p.maxPacketSize - aeadOverhead - p.shortHeaderLen) with
    | error cause =>
      rw [composeNextPacket_error hfill]
      refine iff_of_false id ?_
      rintro ⟨filled, h⟩
      cases h
    | ok filled =>
      obtain ⟨payload, q, c⟩ := filled
      refine iff_of_true ?_ ⟨_, rfl⟩
      rw [composeNextPacket_ok hfill]
      simp only [ok_bind]
      split
      · intro packet h
        cases h
      · refine p.packs_some.mpr ?_
        obtain ⟨n, hping⟩ := addPing_eq { p with
          acks := { p.acks with oneRTTPackets := none }
          retransmissionQueue := q
          framer := c } payload
        rw [hping]
        by_cases hlong : maxConnIDLen < p.destConnID.length
        · exact seals_oneRTT_of_long (by rw [hid]; exact hlong)
        · have hroom := hp.ackSize_lt_room hlong
          obtain ⟨payload', q', c', hfill', hpayload, hack, hle⟩ :=
            hp.fillPacket_appData input (Nat.le_of_lt hroom)
          rw [hfill] at hfill'
          cases hfill'
          obtain ⟨hpinged, hpingedLe⟩ := addPing_sized hpayload hle (hack ▸ hroom)
          refine seals_oneRTT hmax (hvalid (Nat.le_of_not_lt hlong)) htype
            hpeek hpinged ?_ ?_
          · have hfit := Nat.add_le_add_left hpingedLe (header.wireLen + aeadOverhead)
            refine Nat.le_trans hfit ?_
            change _ ≤ p.maxPacketSize
            omega
          · change _ ≤ p.maxPacketSize
            unfold aeadOverhead
            omega

/-! ## Every packet fits -/

def pendingAck (p : PacketPacker) (encLevel : EncryptionLevel) : Option AckFrame :=
  (p.acks.getAckFrame encLevel).1

def hasPending (p : PacketPacker) (encLevel : EncryptionLevel) : Bool :=
  (p.cryptoStream encLevel).hasData || p.hasRetransmission encLevel ||
    (p.pendingAck encLevel).isSome

/-- The condition on the packet of the level that `PackPacket` chooses. -/
def HasRoom (p : PacketPacker) (input : PackInput) : Prop :=
  if p.handshakeConfirmed = false ∧ p.hasPending .initial = true then
    p.cryptoSetup.initialSealer.isSome →
      p.RoomForCrypto .initial (p.pendingAck .initial)
  else if p.handshakeConfirmed = false ∧ p.hasPending .handshake = true then
    p.cryptoSetup.handshakeSealer.isSome →
      p.RoomForCrypto .handshake (p.pendingAck .handshake)
  else p.RoomForAppData input

theorem Valid.setAcks (hp : p.Valid) (confirmed : Bool) {acks : ReceivedPacketHandler}
    (hacks : ∀ encLevel, AckValid (acks.getAckFrame encLevel).1) :
    Valid { p with handshakeConfirmed := confirmed, acks } where
  toLimits := { hp with }
  __ := hp
  acks := hacks

theorem ackValid_taken {acks : ReceivedPacketHandler}
    (hacks : ∀ encLevel, AckValid (acks.getAckFrame encLevel).1)
    (taken encLevel : EncryptionLevel) :
    AckValid ((acks.getAckFrame taken).2.getAckFrame encLevel).1 := by
  have hnone : AckValid none := fun f hf => nomatch hf
  obtain ⟨initial, handshake, oneRTT⟩ := acks
  cases taken with
  | initial =>
    cases encLevel with
    | initial => cases initial <;> exact hnone
    | handshake => exact hacks .handshake
    | oneRTT => exact hacks .oneRTT
  | handshake =>
    cases encLevel with
    | initial => exact hacks .initial
    | handshake => cases handshake <;> exact hnone
    | oneRTT => exact hacks .oneRTT
  | oneRTT =>
    cases encLevel with
    | initial => exact hacks .initial
    | handshake => exact hacks .handshake
    | oneRTT => exact hnone

theorem confirmHandshake_eq (p : PacketPacker) : ∃ confirmed, p.confirmHandshake =
      { p with handshakeConfirmed := confirmed } := by
  unfold confirmHandshake
  split <;> exact ⟨_, rfl⟩

theorem Valid.space_of_sealer (hp : p.Valid) (hlevel : encLevel ≠ .oneRTT)
    (h : p.cryptoSetup.sealer encLevel = some sealer) :
    ∃ space, p.pnManager.getPacketNumberSpace encLevel = .ok space := by
  have hsome : (p.cryptoSetup.sealer encLevel).isSome := by rw [h]; rfl
  cases encLevel with
  | initial =>
    obtain ⟨space, hspace⟩ := Option.isSome_iff_exists.mp (hp.initialSpace hsome)
    exact ⟨space, by simp only [SentPacketHandler.getPacketNumberSpace, hspace]⟩
  | handshake =>
    obtain ⟨space, hspace⟩ := Option.isSome_iff_exists.mp (hp.handshakeSpace hsome)
    exact ⟨space, by simp only [SentPacketHandler.getPacketNumberSpace, hspace]⟩
  | oneRTT => exact absurd rfl hlevel

def orAppData (result : Except PackError (Option PackedPacket × PacketPacker))
    (input : PackInput) :
    Except PackError (Option PackedPacket × PacketPacker) := do
  let (packet, p) ← result
  match packet with
  | some packet => return (some packet, p)
  | none => p.packAppData input

private theorem orAppData_some {result : Except PackError (PackedPacket × PacketPacker)}
    {input : PackInput} :
    orAppData (do
        let (packet, next) ← result
        return (some packet, next)) input =
      (do
        let (packet, next) ← result
        return (some packet, next)) := by
  cases result with
  | error e => rfl
  | ok r => rfl

def noSealer : EncryptionLevel → SealerError → PackError
  | .initial => .noInitialSealer
  | _ => .noHandshakeSealer

def packLevel (p : PacketPacker) (encLevel : EncryptionLevel) (num : UInt16)
    (otherwise : PacketPacker → Except PackError (Option PackedPacket × PacketPacker)) :
    Except PackError (Option PackedPacket × PacketPacker) :=
  let next := (p.takeAck encLevel).2
  if p.hasPending encLevel = true then
    match p.cryptoSetup.getSealer encLevel with
    | .error err => .error (noSealer encLevel err)
    | .ok sealer => do
      let (packet, next) ← next.packCryptoPacket encLevel sealer
        (p.cryptoStream encLevel).hasData (p.hasRetransmission encLevel)
        (p.pendingAck encLevel) num
      return (some packet, next)
  else otherwise next

theorem maybePackHandshakePacket_eq (p : PacketPacker) (num : UInt16) :
    p.maybePackHandshakePacket num =
      p.packLevel .handshake num fun next => .ok (none, next) := rfl

theorem maybePackCryptoPacket_eq (p : PacketPacker) (num : UInt16) :
    p.maybePackCryptoPacket num =
      p.confirmHandshake.packLevel .initial num (·.maybePackHandshakePacket num) := rfl

theorem Valid.takeAck (hp : p.Valid) (encLevel : EncryptionLevel) :
    (p.takeAck encLevel).2.Valid :=
  hp.setAcks p.handshakeConfirmed (ackValid_taken hp.acks encLevel)

theorem Valid.packs_level (hp : p.Valid) (hlevel : encLevel ≠ .oneRTT) (input : PackInput)
    {otherwise : PacketPacker → Except PackError (Option PackedPacket × PacketPacker)}
    {room : Prop} (hrest : p.Packs (orAppData (otherwise (p.takeAck encLevel).2) input) ↔ room) :
    p.Packs (orAppData (p.packLevel encLevel input.num otherwise) input) ↔
      if p.hasPending encLevel = true then (p.cryptoSetup.sealer encLevel).isSome →
          p.RoomForCrypto encLevel (p.pendingAck encLevel) else room := by
  unfold packLevel
  split
  · rcases p.cryptoSetup.getSealer_cases encLevel with
      ⟨hnone, err, herr⟩ | ⟨sealer, hsealer, hget⟩
    · rw [herr, hnone]
      exact iff_of_true (by cases encLevel <;> trivial) nofun
    · obtain ⟨space, hspace⟩ := hp.space_of_sealer hlevel hsealer
      simp only [hget, hsealer, Option.isSome_some, forall_const]
      rw [orAppData_some, packs_some]
      exact (hp.takeAck encLevel).seals_packCryptoPacket hlevel (hp.acks encLevel)
        hspace sealer input.num
  · exact hrest

theorem Valid.packs_crypto (hp : p.Valid) (input : PackInput) :
    p.Packs (orAppData (p.maybePackCryptoPacket input.num) input) ↔
      if p.hasPending .initial = true then p.cryptoSetup.initialSealer.isSome →
          p.RoomForCrypto .initial (p.pendingAck .initial)
      else if p.hasPending .handshake = true then p.cryptoSetup.handshakeSealer.isSome →
          p.RoomForCrypto .handshake (p.pendingAck .handshake) else p.RoomForAppData input := by
  obtain ⟨confirmed, hconfirm⟩ := p.confirmHandshake_eq
  have hconfirmed := hp.setAcks confirmed hp.acks
  have hnext := hconfirmed.takeAck .initial
  rw [maybePackCryptoPacket_eq, hconfirm]
  refine hconfirmed.packs_level (by decide) input ?_
  rw [maybePackHandshakePacket_eq]
  refine hnext.packs_level (by decide) input ?_
  exact (hnext.takeAck .handshake).packs_appData input

/--
Every packet fits if there is room for it, and this is also necessary.  Only the
Initial packets of a client with a long first flight or a long token, and packets
whose connection ID is too long to be written, may lack room.
-/
theorem packPacket_fits_iff (hp : p.Valid) (input : PackInput) :
    p.Packs (p.packPacket input) ↔ p.HasRoom input := by
  unfold HasRoom packPacket
  cases p.handshakeConfirmed with
  | true =>
    exact hp.packs_appData input
  | false =>
    simp only [Bool.false_eq_true, if_false, true_and]
    exact hp.packs_crypto input

def plainSealer : Sealer where
  sealData := fun src _ _ => src ++ List.replicate aeadOverhead 0
  length_sealData := by simp
  headerProtector := ⟨fun _ _ => 0, true⟩

def helloPacker (n : Nat) : PacketPacker :=
  newPacketPacker (List.replicate 8 1) [] ⟨0, List.replicate n 1⟩ .new
    (.new 0 0 0 0) .new .udpIPv4
    ⟨.initial, true, some plainSealer, false, none, none, .zero⟩
    (Connection.new 0) ⟨some none, some none, none⟩ .client 0x51474fff

theorem helloPacker_valid {n : Nat} (hn : n ≤ maxVarInt8) :
    (helloPacker n).Valid where
  minSize := (show 1200 ≤ 1252 by decide)
  maxSize := Nat.le_refl 1252
  destConnID := (show 8 < 256 by decide)
  srcConnID := (show 0 < 256 by decide)
  token := Nat.zero_le _
  serverToken := nofun
  memory := Nat.zero_le _
  appMemory := Nat.zero_le _
  initialStream := by
    change 0 + (List.replicate n (1 : UInt8)).length ≤ maxVarInt8
    simpa using hn
  handshakeStream := Nat.zero_le _
  initialFrames := List.forall_mem_nil _
  handshakeFrames := List.forall_mem_nil _
  appData := List.forall_mem_nil _
  controlFrames := List.forall_mem_nil _
  framer := fun _ _ h => nomatch h
  acks := by
    intro encLevel f hf
    cases encLevel <;> cases hf
  initialSpace := fun _ => rfl
  handshakeSpace := fun _ => rfl

private theorem helloPacker_hasRoom (input : PackInput) : (helloPacker 5).HasRoom input :=
  fun _ => ⟨fun _ _ => by decide, fun _ _ _ => by decide⟩

theorem packPacket_fits_iff_hello : (helloPacker 5).HasRoom ⟨1, fun _ => 0, 0⟩ ∧
    (helloPacker 5).Packs ((helloPacker 5).packPacket ⟨1, fun _ => 0, 0⟩) := by
  have hvalid : (helloPacker 5).Valid := helloPacker_valid (by decide)
  refine ⟨helloPacker_hasRoom _, ?_⟩
  rw [packPacket_fits_iff hvalid]
  exact helloPacker_hasRoom _

theorem packPacket_longHello : (helloPacker 1200).Valid ∧
      ((helloPacker 1200).packPacket ⟨1, fun _ => 0, 0⟩).map (fun r => r.1) =
        .error .negativeRepeatCount :=
  ⟨helloPacker_valid (by decide), by decide +kernel⟩

end PacketPacker

end Qperf.Quic
