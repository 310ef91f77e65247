import Qperf.Quic.PacketFits
import Qperf.Quic.PackingSession

/-!
# What packing does

A packet that `PackPacket` returns holds lost CRYPTO frames from the front of the
retransmission queue, one frame with new data of the crypto stream, only an ACK, or the
data of a 1-RTT packet.  `PackOutcome` says for each of these what becomes of the packer.
-/

namespace Qperf.Quic

open Qperf.Foundation

/-! ## Calls that succeed -/

theorem liftPack_eq_ok {α : Type} {x : Except PackError α} {a : α}
    (h : liftPack x = .ok a) : x = .ok a := by
  match x, h with
  | .ok _, h => exact congrArg _ (Except.ok.inj h)

theorem liftHandler_eq_ok {α : Type} {x : Except HandlerPanic α} {a : α}
    (h : liftHandler x = .ok a) : x = .ok a := by
  match x, h with
  | .ok _, h => exact congrArg _ (Except.ok.inj h)

theorem ofHandler_eq_ok {α : Type} {x : Except HandlerPanic α} {a : α}
    (h : ofHandler x = .ok a) : x = .ok a := by
  match x, h with
  | .ok _, h => exact congrArg _ (Except.ok.inj h)

theorem varIntLen_eq_ok {i n : Nat} (h : varIntLen i = .ok n) :
    i ≤ maxVarInt8 ∧ n = varIntSize i := by
  have hle : i ≤ maxVarInt8 := by
    unfold varIntLen at h
    unfold maxVarInt1 maxVarInt2 maxVarInt4 maxVarInt8 at *
    split_ifs at h <;> omega
  rw [varIntLen_of_le hle] at h
  exact ⟨hle, (Except.ok.inj h).symm⟩

theorem CryptoFrame.length_eq_ok {f : CryptoFrame} {n : Nat} (h : f.length = .ok n) :
    n = f.wireLen := by
  obtain ⟨lengths, hlengths, h⟩ := bind_eq_ok.mp h
  simp only [List.mapM_cons, List.mapM_nil] at hlengths
  obtain ⟨offsetLen, hoffset, hlengths⟩ := bind_eq_ok.mp hlengths
  obtain ⟨rest, hrest, hlengths⟩ := bind_eq_ok.mp hlengths
  obtain ⟨dataLen, hdata, hrest⟩ := bind_eq_ok.mp hrest
  cases hrest
  cases hlengths
  cases h
  rw [(varIntLen_eq_ok hoffset).2, (varIntLen_eq_ok hdata).2]
  simp [CryptoFrame.wireLen, Nat.add_assoc]

theorem ExtendedHeader.getLength_eq_ok {h : ExtendedHeader} {n : Nat}
    (hget : h.getLength = .ok n) : n = h.wireLen := by
  unfold ExtendedHeader.getLength at hget
  unfold ExtendedHeader.wireLen
  split at hget
  · next hlong =>
    obtain ⟨lengthLen, hlengthLen, hget⟩ := bind_eq_ok.mp hget
    rw [if_pos hlong, (varIntLen_eq_ok hlengthLen).2.symm]
    split at hget
    · next hinitial =>
      obtain ⟨tokenLen, htokenLen, hget⟩ := bind_eq_ok.mp hget
      cases hget
      rw [if_pos hinitial, (varIntLen_eq_ok htokenLen).2.symm]
      omega
    · next hinitial =>
      cases hget
      rw [if_neg hinitial]
      omega
  · next hshort =>
    cases hget
    rw [if_neg hshort]

theorem CryptoStream.popCryptoFrame_eq_ok {s s' : CryptoStream} {maxLen : Nat}
    {cf : CryptoFrame} (h : s.popCryptoFrame maxLen = .ok (cf, s')) :
    maxLen < 2 ^ 63 ∧ (maxLen ≤ 16383 → cf.wireLen ≤ maxLen ∨ cf.wireLen ≤ 10) := by
  have hpop := h
  obtain ⟨maxDataLen, hmaxDataLen, -⟩ := bind_eq_ok.mp h
  obtain ⟨offsetLen, hoffset, hmaxDataLen⟩ := bind_eq_ok.mp hmaxDataLen
  obtain ⟨hle, rfl⟩ := varIntLen_eq_ok hoffset
  have hsize := varIntSize_le s.writeOffset
  constructor
  · dsimp only at hmaxDataLen
    split at hmaxDataLen
    · omega
    · obtain ⟨lenLen, hlenLen, -⟩ := bind_eq_ok.mp hmaxDataLen
      have hmax := (varIntLen_eq_ok hlenLen).1
      unfold maxVarInt8 at hmax
      omega
  · intro hmax
    rw [popCryptoFrame_eq hle hmax] at hpop
    cases hpop
    by_cases hroom : s.frameHeaderLen ≤ maxLen
    · exact .inl (wireLen_nextFrame_le hroom hmax)
    · exact .inr (wireLen_nextFrame_le_ten (Nat.lt_of_not_le hroom))

/-! ## CRYPTO frames in the queue -/

namespace RetransmissionQueue

def cryptoData (q : RetransmissionQueue) : EncryptionLevel → List CryptoFrame
  | .initial => q.initialCryptoData
  | .handshake => q.handshakeCryptoData
  | .oneRTT => []

def setCryptoData (q : RetransmissionQueue) (data : List CryptoFrame) :
    EncryptionLevel → RetransmissionQueue
  | .initial => { q with initialCryptoData := data }
  | .handshake => { q with handshakeCryptoData := data }
  | .oneRTT => q

structure CryptoOnly (q : RetransmissionQueue) : Prop where
  initial : q.initial = []
  handshake : q.handshake = []

structure SameCrypto (q q' : RetransmissionQueue) : Prop where
  initial : q'.initial = q.initial
  initialCryptoData : q'.initialCryptoData = q.initialCryptoData
  handshake : q'.handshake = q.handshake
  handshakeCryptoData : q'.handshakeCryptoData = q.handshakeCryptoData

variable {q q' : RetransmissionQueue} {encLevel : EncryptionLevel}

theorem SameCrypto.refl (q : RetransmissionQueue) : SameCrypto q q := ⟨rfl, rfl, rfl, rfl⟩

theorem SameCrypto.trans {q'' : RetransmissionQueue} (first : SameCrypto q q')
    (second : SameCrypto q' q'') : SameCrypto q q'' where
  initial := second.initial.trans first.initial
  initialCryptoData := second.initialCryptoData.trans first.initialCryptoData
  handshake := second.handshake.trans first.handshake
  handshakeCryptoData := second.handshakeCryptoData.trans first.handshakeCryptoData

theorem SameCrypto.cryptoData (h : SameCrypto q q') (encLevel : EncryptionLevel) :
    q'.cryptoData encLevel = q.cryptoData encLevel := by
  cases encLevel with
  | initial => exact h.initialCryptoData
  | handshake => exact h.handshakeCryptoData
  | oneRTT => rfl

theorem SameCrypto.cryptoOnly (h : SameCrypto q q') (hq : q.CryptoOnly) : q'.CryptoOnly :=
  ⟨h.initial.trans hq.initial, h.handshake.trans hq.handshake⟩

theorem cryptoData_setCryptoData (hlevel : encLevel ≠ .oneRTT)
    (q : RetransmissionQueue) (data : List CryptoFrame) :
    (q.setCryptoData data encLevel).cryptoData encLevel = data := by
  cases encLevel <;> first | rfl | exact absurd rfl hlevel

theorem cryptoData_setCryptoData_of_ne {other : EncryptionLevel} (hne : other ≠ encLevel)
    (q : RetransmissionQueue) (data : List CryptoFrame) :
    (q.setCryptoData data encLevel).cryptoData other = q.cryptoData other := by
  cases encLevel <;> cases other <;> first | rfl | exact absurd rfl hne

theorem CryptoOnly.setCryptoData (hq : q.CryptoOnly) (data : List CryptoFrame)
    (encLevel : EncryptionLevel) : (q.setCryptoData data encLevel).CryptoOnly := by
  cases encLevel <;> exact ⟨hq.initial, hq.handshake⟩

end RetransmissionQueue

/--
The getter takes the frames from the front of a list, as long as they are short enough.
`queue data` is the queue with this list.
-/
def TakesFirst (get : RetransmissionQueue → Nat →
      Except GoPanic (Option ControlFrame × RetransmissionQueue))
    (queue : List CryptoFrame → RetransmissionQueue) : Prop :=
  ∀ data maxLen taken q', get (queue data) maxLen = .ok (taken, q') →
    (taken = none ∧ q' = queue data ∧ ∀ cf rest, data = cf :: rest →
      cf.length = .ok cf.wireLen → maxLen < cf.wireLen) ∨
    ∃ cf rest, data = cf :: rest ∧ taken = some (.crypto cf) ∧ q' = queue rest

theorem takeCryptoFirst_nil {data cryptoRest : List CryptoFrame} {maxLen : Nat}
    {taken : Option ControlFrame} {rest : List ControlFrame}
    (h : takeCryptoFirst maxLen data [] = .ok (taken, cryptoRest, rest)) :
    rest = [] ∧ ((taken = none ∧ cryptoRest = data ∧ ∀ cf tail, data = cf :: tail →
        cf.length = .ok cf.wireLen → maxLen < cf.wireLen) ∨
      ∃ cf, data = cf :: cryptoRest ∧ taken = some (.crypto cf)) := by
  cases data with
  | nil =>
    cases h
    exact ⟨rfl, .inl ⟨rfl, rfl, fun _ _ hdata => nomatch hdata⟩⟩
  | cons cf data =>
    obtain ⟨length, hlength, h⟩ := bind_eq_ok.mp h
    split at h
    · cases h
      exact ⟨rfl, .inr ⟨cf, rfl, rfl⟩⟩
    · next hlong =>
      cases h
      refine ⟨rfl, .inl ⟨rfl, rfl, ?_⟩⟩
      intro head tail hdata hwire
      cases hdata
      rw [hlength] at hwire
      rw [← Except.ok.inj hwire]
      exact Nat.lt_of_not_le hlong

namespace RetransmissionQueue

variable {q : RetransmissionQueue}

def getFrame : EncryptionLevel → RetransmissionQueue → Nat →
      Except GoPanic (Option ControlFrame × RetransmissionQueue)
  | .initial => getInitialFrame
  | _ => getHandshakeFrame

theorem CryptoOnly.takesFirst (hq : q.CryptoOnly) {encLevel : EncryptionLevel}
    (hlevel : encLevel ≠ .oneRTT) :
    TakesFirst (getFrame encLevel) (q.setCryptoData · encLevel) := by
  intro data maxLen taken q' h
  obtain ⟨initial, initialData, handshake, handshakeData, appData⟩ := q
  obtain ⟨rfl, rfl⟩ : initial = [] ∧ handshake = [] := ⟨hq.initial, hq.handshake⟩
  cases encLevel with
  | oneRTT => exact absurd rfl hlevel
  | _ =>
    obtain ⟨⟨taken', cryptoRest, rest⟩, htake, h⟩ := bind_eq_ok.mp h
    cases h
    obtain ⟨rfl, ⟨rfl, rfl, hlong⟩ | ⟨cf, rfl, rfl⟩⟩ := takeCryptoFirst_nil htake
    · exact .inl ⟨rfl, rfl, hlong⟩
    · exact .inr ⟨cf, cryptoRest, rfl, rfl, rfl⟩

end RetransmissionQueue

def cryptoFrames (data : List CryptoFrame) : List Frame :=
  data.map fun cf => .control (.crypto cf)

namespace PacketPacker

variable {p p' : PacketPacker} {payload payload' : Payload} {encLevel : EncryptionLevel}
variable {packet : PackedPacket} {header : ExtendedHeader} {sealer : Sealer}
variable {num : UInt16} {ack : Option AckFrame}

variable {input : PackInput} {pn : PacketNumber} {q' : RetransmissionQueue}
variable {result : Option PackedPacket}

theorem popLoop_first {get : RetransmissionQueue → Nat →
      Except GoPanic (Option ControlFrame × RetransmissionQueue)}
    {queue : List CryptoFrame → RetransmissionQueue} (hget : TakesFirst get queue)
    {available : Int} {turns : Nat} {data : List CryptoFrame}
    (h : popLoop get available 0 turns (queue data) payload = .ok (q', payload')) :
    ∃ k, q' = queue (data.drop k) ∧ payload'.ack = payload.ack ∧
      payload'.frames = payload.frames ++ cryptoFrames (data.take k) ∧
      ∀ cf rest, data = cf :: rest → 0 < turns → cf.length = .ok cf.wireLen →
        cf.wireLen ≤ wrapByteCount (available - payload.length) → 0 < k := by
  induction turns generalizing data payload with
  | zero =>
    cases h
    exact ⟨0, rfl, rfl, by simp [cryptoFrames], fun _ _ _ hturns => absurd hturns (by simp)⟩
  | succ turns ih =>
    obtain ⟨⟨taken, next⟩, hnext, h⟩ := bind_eq_ok.mp h
    rcases hget _ _ _ _ hnext with ⟨rfl, rfl, hlong⟩ | ⟨cf, rest, rfl, rfl, rfl⟩
    · cases h
      refine ⟨0, rfl, rfl, by simp [cryptoFrames], ?_⟩
      intro cf rest hdata _ hlength hfits
      exact absurd hfits (Nat.not_le.mpr (hlong cf rest hdata hlength))
    · obtain ⟨length, -, h⟩ := bind_eq_ok.mp h
      obtain ⟨k, hqueue, hack, hframes, -⟩ := ih h
      refine ⟨k + 1, hqueue, hack, ?_, fun _ _ _ _ _ _ => Nat.succ_pos k⟩
      rw [hframes]
      simp [cryptoFrames]

/-! ## Sealed packets -/

structure Seals (p p' : PacketPacker) (header : ExtendedHeader) (payload : Payload)
    (encLevel : EncryptionLevel) (num : UInt16) (packet : PackedPacket) : Prop where
  length : ∃ length, packet.header = header.withLength length
  ack : packet.ack = payload.ack
  frames : packet.frames = payload.frames
  number : ∃ pnManager, p.pnManager.popPacketNumber encLevel num =
    .ok (header.packetNumber, pnManager) ∧ p' = { p with pnManager }

/-- Keys are missed only at a level that has something to send. -/
def Misses (p : PacketPacker) : PackError → Prop
  | .noInitialSealer _ =>
    p.hasPending .initial = true ∧ p.cryptoSetup.initialSealer = none
  | .noHandshakeSealer _ =>
    p.hasPending .handshake = true ∧ p.cryptoSetup.handshakeSealer = none
  | _ => True

section Misses

variable {α : Type} (q : PacketPacker)

theorem ends_ofPanic (x : Except GoPanic α) : Ends q.Misses (ofPanic x) fun _ => True := by
  cases x <;> trivial

theorem ends_ofHandler (x : Except HandlerPanic α) :
    Ends q.Misses (ofHandler x) fun _ => True := by
  cases x <;> trivial

private theorem ends_ofWrite (x : Except Failure α) : Ends q.Misses (ofWrite x) fun _ => True := by
  match x with
  | .ok _ => trivial
  | .error (.error _) => trivial
  | .error (.panic _) => trivial

private theorem ends_padding (paddingLen : Nat) :
    Ends q.Misses (PacketPacker.padding paddingLen) fun _ => True := by
  unfold PacketPacker.padding
  split <;> trivial

theorem ends_padded {paddingLen length : Nat} :
    Ends q.Misses (p.writeAndSealPacketWithPadding (header.withLength length) payload
      paddingLen encLevel sealer num) fun r => Seals p r.2 header payload encLevel num r.1 := by
  refine (ends_ofWrite q _).bind fun hdr _ _ => ?_
  refine (ends_ofWrite q _).bind fun ack _ _ => ?_
  refine (ends_padding q _).bind fun zeros _ _ => ?_
  refine (ends_ofWrite q _).bind fun frames _ _ => ?_
  dsimp only
  split
  · trivial
  split
  · trivial
  split
  · trivial
  refine (ends_ofHandler q _).bind fun popped hpop _ => ?_
  split
  · trivial
  next hpn =>
  refine ⟨⟨length, rfl⟩, rfl, rfl, popped.2, ?_, rfl⟩
  rw [ofHandler_eq_ok hpop]
  exact congrArg (fun pn => Except.ok (pn, popped.2)) (not_not.mp hpn)

theorem ends_writeAndSealPacket :
    Ends q.Misses (p.writeAndSealPacket header payload encLevel sealer num)
      fun r => Seals p r.2 header payload encLevel num r.1 := by
  unfold writeAndSealPacket
  split
  · split
    · exact (ends_ofPanic q _).bind fun _ _ _ => ends_padded q
    · exact ends_padded q
  · split <;> exact ends_padded q

end Misses

theorem seals_of_ok
    (h : p.writeAndSealPacket header payload encLevel sealer num = .ok (packet, p')) :
    Seals p p' header payload encLevel num packet :=
  (ends_writeAndSealPacket p).of_ok h

private theorem encryptionLevel_of_long (hlevel : encLevel ≠ .oneRTT)
    {length : Nat} (h : packet.header = (p.longHeader encLevel pn).withLength length) :
    packet.encryptionLevel = some encLevel := by
  unfold PackedPacket.encryptionLevel
  rw [h]
  cases encLevel <;> first | rfl | exact absurd rfl hlevel

theorem bounds_of_sealed (hlevel : encLevel ≠ .oneRTT)
    (hbuilt : p.getLongHeader encLevel = .ok header)
    (h : p.writeAndSealPacket header payload encLevel sealer num = .ok (packet, p')) :
    payload.length ≤ maxReceivePacketSize ∧ p.longHeaderLen encLevel ≤ maxReceivePacketSize + 8 ∧
      p.destConnID.length ≤ maxConnIDLen ∧ p.srcConnID.length ≤ maxConnIDLen := by
  have hbuilds : p.Builds encLevel header := by
    rw [Builds, if_neg hlevel]
    exact hbuilt
  obtain ⟨pn, rfl⟩ := hbuilds.long hlevel
  obtain ⟨length, paddingLen, hdr, data, hsealed, hv, -, -⟩ := hbuilds.sealed h
  obtain ⟨bytes, hbytes, hwire⟩ := hv.write
  rw [hsealed.header] at hbytes
  cases hbytes
  have hsize := p.wireLen_longHeader hlevel pn length
  have hmax := varIntSize_le p.maxPacketSize
  have hdata := hsealed.payloadLen
  have htotal := hsealed.total
  exact ⟨by omega, by omega, hv.destConnectionID, hv.srcConnectionID⟩

theorem clientInitial_le (hclient : p.perspective = .client)
    (hbuilt : p.getLongHeader .initial = .ok header)
    (h : p.writeAndSealPacket header payload .initial sealer num = .ok (packet, p')) :
    p.longHeaderLen .initial + aeadOverhead + payload.length ≤ minInitialPacketSize := by
  obtain ⟨hpayload, hheader, -, -⟩ := bounds_of_sealed (by decide) hbuilt h
  obtain ⟨⟨pn, len⟩, -, hlong⟩ := bind_eq_ok.mp hbuilt
  cases hlong
  unfold writeAndSealPacket at h
  rw [if_pos (by decide), if_pos ⟨hclient, rfl⟩] at h
  obtain ⟨headerLen, hheaderLen, h⟩ := bind_eq_ok.mp h
  have hlen := ExtendedHeader.getLength_eq_ok (ofPanic_eq_ok hheaderLen)
  have hinitial : EncryptionLevel.initial ≠ .oneRTT := by decide
  have hsize := p.wireLen_longHeader hinitial pn p.maxPacketSize
  change ExtendedHeader.wireLen (p.longHeader .initial pn) + _ = _ at hsize
  obtain ⟨hdr, data, hsealed⟩ := sealed_of_ok h
  have hpadding := hsealed.padding
  unfold wrapByteCount minInitialPacketSize aeadOverhead at *
  unfold maxReceivePacketSize at hpayload hheader
  omega

/-! ## Packed packets -/

/-- The frame fits into an otherwise empty packet of its level. -/
def Resendable (p : PacketPacker) (encLevel : EncryptionLevel) (cf : CryptoFrame) :
    Prop :=
  cf.length = .ok cf.wireLen ∧
    p.longHeaderLen encLevel + aeadOverhead + cf.wireLen ≤ p.retransmissionLimit encLevel

instance (p : PacketPacker) (encLevel : EncryptionLevel) (cf : CryptoFrame) :
    Decidable (p.Resendable encLevel cf) :=
  inferInstanceAs (Decidable (_ ∧ _))

/-- What `getMaxPacketSize` returns, and what transport parameters lower it to. -/
def SizeLimits (p : PacketPacker) : Prop :=
  minInitialPacketSize ≤ p.maxPacketSize ∧ p.maxPacketSize ≤ maxPacketSizeIPv4

def nextCryptoFrame (p : PacketPacker) (encLevel : EncryptionLevel)
    (ack : Option AckFrame) : Except GoPanic (CryptoFrame × CryptoStream) := do
  let payload ← ackPayload ack
  (p.cryptoStream encLevel).popCryptoFrame (wrapByteCount (p.maxPacketSize -
    p.longHeaderLen encLevel - aeadOverhead - payload.length))

/-- What the header of a long packet and the size of the packet depend on. -/
structure SameRoom (p p' : PacketPacker) : Prop where
  destConnID : p'.destConnID = p.destConnID
  srcConnID : p'.srcConnID = p.srcConnID
  perspective : p'.perspective = p.perspective
  token : p'.token = p.token
  maxPacketSize : p'.maxPacketSize = p.maxPacketSize

structure SameSettings (p p' : PacketPacker) : Prop extends SameRoom p p' where
  cryptoSetup : p'.cryptoSetup = p.cryptoSetup
  initialAcks : p'.acks.initialPackets = none ↔ p.acks.initialPackets = none
  handshakeAcks : p'.acks.handshakePackets = none ↔ p.acks.handshakePackets = none

structure NewFrame (p : PacketPacker) (encLevel : EncryptionLevel)
    (ack : Option AckFrame) (cf : CryptoFrame) (s : CryptoStream) : Prop where
  none : p.retransmissionQueue.cryptoData encLevel = []
  data : (p.cryptoStream encLevel).hasData = true
  next : p.nextCryptoFrame encLevel ack = .ok (cf, s)
  length : cf.length = .ok cf.wireLen
  resend : p.SizeLimits → encLevel = .handshake ∨ p.perspective = .client →
    p.Resendable encLevel cf

inductive Filled (p p' : PacketPacker) (packet : PackedPacket) : EncryptionLevel → Prop where
  | retransmissions {encLevel : EncryptionLevel} (k : Nat)
      (hlevel : encLevel ≠ .oneRTT)
      (hqueued : p.retransmissionQueue.cryptoData encLevel ≠ [])
      (hframes : packet.frames =
        cryptoFrames ((p.retransmissionQueue.cryptoData encLevel).take k))
      (hqueue : p'.retransmissionQueue = p.retransmissionQueue.setCryptoData
        ((p.retransmissionQueue.cryptoData encLevel).drop k) encLevel)
      (hinitial : p'.initialStream = p.initialStream)
      (hhandshake : p'.handshakeStream = p.handshakeStream)
      (hfirst : ∀ cf rest, p.retransmissionQueue.cryptoData encLevel = cf :: rest →
        p.SizeLimits → p.Resendable encLevel cf → packet.ack = none → 0 < k) :
      Filled p p' packet encLevel
  | newData {encLevel : EncryptionLevel} (cf : CryptoFrame) (s : CryptoStream)
      (hlevel : encLevel ≠ .oneRTT) (hnew : p.NewFrame encLevel packet.ack cf s)
      (hframes : packet.frames = [.control (.crypto cf)])
      (hqueue : p'.retransmissionQueue = p.retransmissionQueue)
      (hinitial : p'.initialStream = (p.setCryptoStream encLevel s).initialStream)
      (hhandshake : p'.handshakeStream = (p.setCryptoStream encLevel s).handshakeStream) :
      Filled p p' packet encLevel
  | ackOnly {encLevel : EncryptionLevel} (hlevel : encLevel ≠ .oneRTT)
      (hframes : packet.frames = []) (hack : packet.ack ≠ none)
      (hqueue : p'.retransmissionQueue = p.retransmissionQueue)
      (hinitial : p'.initialStream = p.initialStream)
      (hhandshake : p'.handshakeStream = p.handshakeStream) :
      Filled p p' packet encLevel
  | appData (hqueue : p.retransmissionQueue.SameCrypto p'.retransmissionQueue)
      (hinitial : p'.initialStream = p.initialStream)
      (hhandshake : p'.handshakeStream = p.handshakeStream) :
      Filled p p' packet .oneRTT

structure PackedAt (p p' : PacketPacker) (num : UInt16) (packet : PackedPacket)
    (encLevel : EncryptionLevel) : Prop where
  level : packet.encryptionLevel = some encLevel
  number : p.pnManager.popPacketNumber encLevel num =
    .ok (packet.header.packetNumber, p'.pnManager)
  settings : p.SameSettings p'
  filled : p.Filled p' packet encLevel

theorem ackPayload_eq_ok (h : ackPayload ack = .ok payload) :
    payload.ack = ack ∧ payload.frames = [] ∧ (ack = none → payload.length = 0) := by
  cases ack with
  | none =>
    cases h
    exact ⟨rfl, rfl, fun _ => rfl⟩
  | some f =>
    obtain ⟨length, -, h⟩ := bind_eq_ok.mp h
    cases h
    exact ⟨rfl, rfl, fun hnone => nomatch hnone⟩

theorem popRetransmissions_first (hq : p.retransmissionQueue.CryptoOnly)
    (hlevel : encLevel ≠ .oneRTT) {hdrLen : Nat}
    (h : p.popRetransmissions encLevel hdrLen payload = .ok (q', payload')) :
    ∃ k, q' = p.retransmissionQueue.setCryptoData
        ((p.retransmissionQueue.cryptoData encLevel).drop k) encLevel ∧
      payload'.ack = payload.ack ∧
      payload'.frames = payload.frames ++
        cryptoFrames ((p.retransmissionQueue.cryptoData encLevel).take k) ∧
      ∀ cf rest, p.retransmissionQueue.cryptoData encLevel = cf :: rest →
        cf.length = .ok cf.wireLen → cf.wireLen ≤ wrapByteCount
          (p.retransmissionLimit encLevel - hdrLen - aeadOverhead - payload.length) → 0 < k := by
  have hloop : ∃ turns, (p.retransmissionQueue.cryptoData encLevel).length ≤ turns ∧
      p.popRetransmissions encLevel hdrLen payload =
        popLoop (RetransmissionQueue.getFrame encLevel)
          (p.retransmissionLimit encLevel - hdrLen - aeadOverhead) 0 turns
          (p.retransmissionQueue.setCryptoData
            (p.retransmissionQueue.cryptoData encLevel) encLevel) payload := by
    cases encLevel with
    | oneRTT => exact absurd rfl hlevel
    | _ => exact ⟨_, Nat.le_add_right _ _, rfl⟩
  obtain ⟨turns, hturns, hloop⟩ := hloop
  obtain ⟨k, hqueue, hack, hframes, hfirst⟩ :=
    popLoop_first (hq.takesFirst hlevel) (hloop.symm.trans h)
  refine ⟨k, hqueue, hack, hframes, fun cf rest hdata => hfirst cf rest hdata ?_⟩
  rw [hdata, List.length_cons] at hturns
  omega

theorem SameRoom.refl (p : PacketPacker) : p.SameRoom p := ⟨rfl, rfl, rfl, rfl, rfl⟩

theorem SameRoom.trans {p'' : PacketPacker} (first : p.SameRoom p')
    (second : p'.SameRoom p'') : p.SameRoom p'' where
  destConnID := second.destConnID.trans first.destConnID
  srcConnID := second.srcConnID.trans first.srcConnID
  perspective := second.perspective.trans first.perspective
  token := second.token.trans first.token
  maxPacketSize := second.maxPacketSize.trans first.maxPacketSize

theorem SameSettings.refl (p : PacketPacker) : p.SameSettings p := ⟨.refl p, rfl, .rfl, .rfl⟩

theorem SameSettings.trans {p'' : PacketPacker} (first : p.SameSettings p')
    (second : p'.SameSettings p'') : p.SameSettings p'' where
  toSameRoom := first.toSameRoom.trans second.toSameRoom
  cryptoSetup := second.cryptoSetup.trans first.cryptoSetup
  initialAcks := second.initialAcks.trans first.initialAcks
  handshakeAcks := second.handshakeAcks.trans first.handshakeAcks

theorem CryptoOnly.cryptoData_ne_nil (hq : p.retransmissionQueue.CryptoOnly)
    (hlevel : encLevel ≠ .oneRTT) :
    p.hasRetransmission encLevel = true ↔ p.retransmissionQueue.cryptoData encLevel ≠ [] := by
  cases encLevel with
  | initial =>
    simp [hasRetransmission, RetransmissionQueue.hasInitialData, hq.initial,
      RetransmissionQueue.cryptoData, List.length_pos_iff]
  | handshake =>
    simp [hasRetransmission, RetransmissionQueue.hasHandshakeData, hq.handshake,
      RetransmissionQueue.cryptoData, List.length_pos_iff]
  | oneRTT => exact absurd rfl hlevel

theorem Resendable.wireLen_le {cf : CryptoFrame} (hcf : p.Resendable encLevel cf)
    (hlimits : p.SizeLimits) :
    cf.wireLen ≤ wrapByteCount (p.retransmissionLimit encLevel -
      p.longHeaderLen encLevel - aeadOverhead - (0 : Nat)) := by
  have hfits := hcf.2
  have hmax : p.retransmissionLimit encLevel ≤ maxPacketSizeIPv4 := by
    cases encLevel with
    | initial => exact (by decide : minInitialPacketSize ≤ maxPacketSizeIPv4)
    | handshake | oneRTT => exact hlimits.2
  unfold maxPacketSizeIPv4 at hmax
  unfold wrapByteCount
  omega

/-- New data of a Handshake packet or of a client never has to be cut again. -/
theorem resendable_newData {cf : CryptoFrame} {s s' : CryptoStream} {ackLen : Nat}
    (hlimits : p.SizeLimits) (hlevel : encLevel ≠ .oneRTT)
    (hbuilt : p.getLongHeader encLevel = .ok header)
    (hpop : s.popCryptoFrame (wrapByteCount (p.maxPacketSize -
      p.longHeaderLen encLevel - aeadOverhead - ackLen)) = .ok (cf, s'))
    (hlength : cf.length = .ok cf.wireLen) (hpayload : payload.length = ackLen + cf.wireLen)
    (h : p.writeAndSealPacket header payload encLevel sealer num = .ok (packet, p'))
    (hother : encLevel = .handshake ∨ p.perspective = .client) :
    p.Resendable encLevel cf := by
  refine ⟨hlength, ?_⟩
  obtain ⟨hshort, hheader, hdest, hsrc⟩ := bounds_of_sealed hlevel hbuilt h
  obtain ⟨hwrap, hframe⟩ := CryptoStream.popCryptoFrame_eq_ok hpop
  cases encLevel with
  | oneRTT => exact absurd rfl hlevel
  | initial =>
    have hclient : p.perspective = .client := by
      rcases hother with hcontra | hclient
      · cases hcontra
      · exact hclient
    have hle := clientInitial_le hclient hbuilt h
    change _ ≤ minInitialPacketSize
    omega
  | handshake =>
    obtain ⟨hmin, hmax⟩ := hlimits
    have hsmall : p.longHeaderLen .handshake ≤ 11 + 2 * maxConnIDLen + 8 := by
      have hsize := varIntSize_le p.maxPacketSize
      simp only [longHeaderLen, reduceCtorEq, if_false]
      omega
    change _ ≤ p.maxPacketSize
    unfold wrapByteCount at hwrap hframe
    unfold minInitialPacketSize at hmin
    unfold maxReceivePacketSize at hshort
    unfold maxConnIDLen at hsmall
    unfold aeadOverhead at *
    omega

theorem Seals.long {p₁ : PacketPacker} {pn : PacketNumber} (hlevel : encLevel ≠ .oneRTT)
    (hseals : Seals p₁ p' (p.longHeader encLevel pn) payload encLevel num packet) :
    packet.encryptionLevel = some encLevel ∧
      p₁.pnManager.popPacketNumber encLevel num =
        .ok (packet.header.packetNumber, p'.pnManager) := by
  obtain ⟨length, hheader⟩ := hseals.length
  obtain ⟨pnManager, hnumber, rfl⟩ := hseals.number
  refine ⟨encryptionLevel_of_long hlevel hheader, ?_⟩
  rw [hheader]
  exact hnumber

theorem Seals.settings (hseals : Seals p p' header payload encLevel num packet) :
    p.SameSettings p' := by
  obtain ⟨pnManager, -, rfl⟩ := hseals.number
  exact ⟨⟨rfl, rfl, rfl, rfl, rfl⟩, rfl, .rfl, .rfl⟩

theorem packed_retransmissions {q : RetransmissionQueue}
    (hq : p.retransmissionQueue.CryptoOnly) (hlevel : encLevel ≠ .oneRTT)
    (hretransmission : p.hasRetransmission encLevel = true)
    (hpayload : ackPayload ack = .ok payload)
    (hpop : p.popRetransmissions encLevel (p.longHeaderLen encLevel) payload =
      .ok (q, payload'))
    (h : { p with retransmissionQueue := q }.writeAndSealPacket
      (p.longHeader encLevel pn) payload' encLevel sealer num = .ok (packet, p')) :
    p.PackedAt p' num packet encLevel ∧ packet.ack = ack := by
  obtain ⟨hack, hframes, hempty⟩ := ackPayload_eq_ok hpayload
  obtain ⟨k, hqueue, hack', hframes', hfirst⟩ := popRetransmissions_first hq hlevel hpop
  have hseals := seals_of_ok h
  obtain ⟨hpacketLevel, hnumber⟩ := hseals.long hlevel
  obtain ⟨pnManager, -, rfl⟩ := hseals.number
  have hackEq : packet.ack = ack := by rw [hseals.ack, hack', hack]
  refine ⟨⟨hpacketLevel, hnumber, ⟨⟨rfl, rfl, rfl, rfl, rfl⟩, rfl, .rfl, .rfl⟩, ?_⟩, hackEq⟩
  refine .retransmissions k hlevel
    ((CryptoOnly.cryptoData_ne_nil hq hlevel).mp hretransmission) ?_ hqueue rfl rfl ?_
  · rw [hseals.frames, hframes', hframes, List.nil_append]
  · intro cf rest hdata hlimits hcf hnone
    refine hfirst cf rest hdata hcf.1 ?_
    rw [hempty (hackEq.symm.trans hnone)]
    exact hcf.wireLen_le hlimits

theorem packed_newData {cf : CryptoFrame} {s : CryptoStream}
    {length : Nat} (hlevel : encLevel ≠ .oneRTT)
    (hnone : p.retransmissionQueue.cryptoData encLevel = [])
    (hdata : (p.cryptoStream encLevel).hasData = true)
    (hpayload : ackPayload ack = .ok payload)
    (hbuilt : p.getLongHeader encLevel = .ok (p.longHeader encLevel pn))
    (hpop : (p.cryptoStream encLevel).popCryptoFrame (wrapByteCount (p.maxPacketSize -
      p.longHeaderLen encLevel - aeadOverhead - payload.length)) = .ok (cf, s))
    (hlength : cf.length = .ok length)
    (h : (p.setCryptoStream encLevel s).writeAndSealPacket (p.longHeader encLevel pn)
      { payload with
        frames := [.control (.crypto cf)]
        length := payload.length + length } encLevel sealer num = .ok (packet, p')) :
    p.PackedAt p' num packet encLevel ∧ packet.ack = ack := by
  obtain rfl := CryptoFrame.length_eq_ok hlength
  obtain ⟨hack, -, -⟩ := ackPayload_eq_ok hpayload
  obtain ⟨initial, handshake, hstream⟩ := p.setCryptoStream_eq encLevel s
  have hseals := seals_of_ok h
  obtain ⟨hpacketLevel, hnumber⟩ := hseals.long hlevel
  obtain ⟨pnManager, -, rfl⟩ := hseals.number
  have hackEq : packet.ack = ack := hseals.ack.trans hack
  have hnext : p.nextCryptoFrame encLevel packet.ack = .ok (cf, s) := by
    rw [nextCryptoFrame, hackEq, hpayload]
    exact hpop
  have hresend : p.SizeLimits → encLevel = .handshake ∨ p.perspective = .client →
      p.Resendable encLevel cf := by
    rw [hstream] at h
    exact fun hlimits hother => resendable_newData
      (p := { p with initialStream := initial, handshakeStream := handshake }) hlimits
      hlevel hbuilt hpop hlength rfl h hother
  rw [hstream] at hnumber
  refine ⟨⟨hpacketLevel, hnumber, ?_, ?_⟩, hackEq⟩
  · rw [hstream]
    exact ⟨⟨rfl, rfl, rfl, rfl, rfl⟩, rfl, .rfl, .rfl⟩
  · refine .newData cf s hlevel ⟨hnone, hdata, hnext, hlength, hresend⟩ hseals.frames ?_
      rfl rfl
    rw [hstream]

theorem packed_ackOnly (hlevel : encLevel ≠ .oneRTT)
    (hsome : ack.isSome = true) (hpayload : ackPayload ack = .ok payload)
    (h : p.writeAndSealPacket (p.longHeader encLevel pn) payload encLevel sealer num =
      .ok (packet, p')) :
    p.PackedAt p' num packet encLevel ∧ packet.ack = ack := by
  obtain ⟨hack, hframes, -⟩ := ackPayload_eq_ok hpayload
  have hseals := seals_of_ok h
  obtain ⟨hpacketLevel, hnumber⟩ := hseals.long hlevel
  have hsettings := hseals.settings
  obtain ⟨pnManager, -, rfl⟩ := hseals.number
  have hackEq : packet.ack = ack := hseals.ack.trans hack
  refine ⟨⟨hpacketLevel, hnumber, hsettings, ?_⟩, hackEq⟩
  refine .ackOnly hlevel (hseals.frames.trans hframes) ?_ rfl rfl rfl
  rw [hackEq]
  exact Option.isSome_iff_ne_none.mp hsome

theorem ends_packCryptoPacket (q : PacketPacker) (hq : p.retransmissionQueue.CryptoOnly)
    (hlevel : encLevel ≠ .oneRTT)
    (hpending : ((p.cryptoStream encLevel).hasData || p.hasRetransmission encLevel ||
      ack.isSome) = true) :
    Ends q.Misses (p.packCryptoPacket encLevel sealer (p.cryptoStream encLevel).hasData
        (p.hasRetransmission encLevel) ack num)
      fun r => p.PackedAt r.2 num r.1 encLevel ∧ r.1.ack = ack := by
  refine (ends_ofPanic q _).bind fun payload hpayload _ => ?_
  refine (ends_ofHandler q _).bind fun hdr hhdr _ => ?_
  refine (ends_ofPanic q _).bind fun hdrLen hhdrLen _ => ?_
  have hpayload := ofPanic_eq_ok hpayload
  have hbuilt := ofHandler_eq_ok hhdr
  obtain ⟨⟨pn, len⟩, -, hlong⟩ := bind_eq_ok.mp hbuilt
  cases hlong
  have hlen : hdrLen = p.longHeaderLen encLevel := by
    have hsize := p.wireLen_longHeader hlevel pn p.maxPacketSize
    rw [ExtendedHeader.getLength_eq_ok (ofPanic_eq_ok hhdrLen)]
    exact Nat.add_right_cancel hsize
  subst hlen
  split
  · next hretransmission =>
    refine (ends_ofPanic q _).bind fun popped hpop _ => ?_
    exact (ends_writeAndSealPacket q).of_eq fun _ h =>
      packed_retransmissions hq hlevel hretransmission hpayload (ofPanic_eq_ok hpop) h
  next hretransmission =>
  split
  · next hdata =>
    refine (ends_ofPanic q _).bind fun popped hpop _ => ?_
    refine (ends_ofPanic q _).bind fun length hlength _ => ?_
    refine (ends_writeAndSealPacket q).of_eq fun _ h =>
      packed_newData hlevel ?_ hdata hpayload hbuilt (ofPanic_eq_ok hpop)
        (ofPanic_eq_ok hlength) h
    exact not_not.mp (mt (CryptoOnly.cryptoData_ne_nil hq hlevel).mpr hretransmission)
  · next hdata =>
    rw [Bool.eq_false_iff.mpr hretransmission, Bool.eq_false_iff.mpr hdata] at hpending
    exact (ends_writeAndSealPacket q).of_eq fun _ h =>
      packed_ackOnly hlevel hpending hpayload h

/-! ## Calls of `PackPacket` -/

structure Idle (p p' : PacketPacker) : Prop where
  settings : p.SameSettings p'
  manager : p'.pnManager = p.pnManager
  queue : p.retransmissionQueue.SameCrypto p'.retransmissionQueue
  initialStream : p'.initialStream = p.initialStream
  handshakeStream : p'.handshakeStream = p.handshakeStream

inductive PackOutcome (p : PacketPacker) (num : UInt16) :
    Option PackedPacket → PacketPacker → Prop where
  | idle {p' : PacketPacker} (hidle : p.Idle p') : PackOutcome p num none p'
  | packed {p' : PacketPacker} {packet : PackedPacket} {encLevel : EncryptionLevel}
      (hpacked : p.PackedAt p' num packet encLevel)
      (hack : encLevel ≠ .oneRTT → packet.ack = p.pendingAck encLevel) :
      PackOutcome p num (some packet) p'

theorem Idle.trans {p'' : PacketPacker} (first : p.Idle p') (second : p'.Idle p'') :
    p.Idle p'' where
  settings := first.settings.trans second.settings
  manager := second.manager.trans first.manager
  queue := first.queue.trans second.queue
  initialStream := second.initialStream.trans first.initialStream
  handshakeStream := second.handshakeStream.trans first.handshakeStream

theorem Idle.packedAt {p₁ : PacketPacker} (hidle : p.Idle p₁)
    (h : p₁.PackedAt p' num packet .oneRTT) : p.PackedAt p' num packet .oneRTT := by
  obtain ⟨hlevel, hnumber, hsettings, hfilled⟩ := h
  refine ⟨hlevel, ?_, hidle.settings.trans hsettings, ?_⟩
  · rw [← hidle.manager]
    exact hnumber
  · cases hfilled with
    | retransmissions _ hcontra => exact absurd rfl hcontra
    | newData _ _ hcontra => exact absurd rfl hcontra
    | ackOnly hcontra => exact absurd rfl hcontra
    | appData hqueue hinitial hhandshake =>
      exact .appData (hidle.queue.trans hqueue) (hinitial.trans hidle.initialStream)
        (hhandshake.trans hidle.handshakeStream)

theorem idle_setAcks {confirmed : Bool} {acks : ReceivedPacketHandler}
    (hsettings : p.SameSettings { p with handshakeConfirmed := confirmed, acks }) :
    p.Idle { p with handshakeConfirmed := confirmed, acks } :=
  ⟨hsettings, rfl, .refl _, rfl, rfl⟩

theorem PackedAt.of_setAcks {confirmed : Bool} {acks : ReceivedPacketHandler}
    (hsettings : p.SameSettings { p with handshakeConfirmed := confirmed, acks })
    (h : PackedAt { p with handshakeConfirmed := confirmed, acks } p' num packet
      encLevel) : p.PackedAt p' num packet encLevel := by
  obtain ⟨hlevel, hnumber, hsettings', hfilled⟩ := h
  refine ⟨hlevel, hnumber, hsettings.trans hsettings', ?_⟩
  cases hfilled with
  | retransmissions k hne hqueued hframes hqueue hinitial hhandshake hfirst =>
    exact .retransmissions k hne hqueued hframes hqueue hinitial hhandshake hfirst
  | newData cf s hne hnew hframes hqueue hinitial hhandshake =>
    refine .newData cf s hne { hnew with }
      hframes hqueue ?_ ?_
    · rw [hinitial]
      cases encLevel <;> rfl
    · rw [hhandshake]
      cases encLevel <;> rfl
  | ackOnly hne hframes hack hqueue hinitial hhandshake =>
    exact .ackOnly hne hframes hack hqueue hinitial hhandshake
  | appData hqueue hinitial hhandshake => exact .appData hqueue hinitial hhandshake

theorem sameSettings_takeAck (p : PacketPacker) (confirmed : Bool)
    (encLevel : EncryptionLevel) :
    p.SameSettings { p with
      handshakeConfirmed := confirmed
      acks := (p.acks.getAckFrame encLevel).2 } := by
  refine ⟨⟨rfl, rfl, rfl, rfl, rfl⟩, rfl, ?_, ?_⟩ <;>
    cases encLevel <;> simp [ReceivedPacketHandler.getAckFrame]

/-! ### 1-RTT packets -/

theorem popLoop_sameCrypto {available : Int} {least turns : Nat} {q : RetransmissionQueue}
    (h : popLoop RetransmissionQueue.getAppDataFrame available least turns q payload =
      .ok (q', payload')) : q.SameCrypto q' := by
  induction turns generalizing q payload with
  | zero =>
    cases h
    exact .refl _
  | succ turns ih =>
    simp only [popLoop] at h
    split at h
    · cases h
      exact .refl _
    obtain ⟨⟨taken, next⟩, hget, h⟩ := bind_eq_ok.mp h
    obtain ⟨⟨f, appData⟩, -, hnext⟩ := bind_eq_ok.mp hget
    cases hnext
    have hsame : q.SameCrypto { q with appData } := ⟨rfl, rfl, rfl, rfl⟩
    cases taken with
    | none =>
      cases h
      exact hsame
    | some f =>
      obtain ⟨length, -, h⟩ := bind_eq_ok.mp h
      exact hsame.trans (ih h)

theorem fillPacket_sameCrypto {q : RetransmissionQueue} {c c' : Connection} {maxFrameSize : Nat}
    (h : fillPacket ack q c input maxFrameSize = .ok (payload, q', c')) :
    q.SameCrypto q' := by
  obtain ⟨first, -, h⟩ := bind_eq_ok.mp h
  obtain ⟨⟨next, popped⟩, hpop, h⟩ := bind_eq_ok.mp h
  obtain ⟨control, -, h⟩ := bind_eq_ok.mp h
  obtain ⟨streams, -, h⟩ := bind_eq_ok.mp h
  cases h
  exact popLoop_sameCrypto hpop

private theorem composeNextPacket_idle {maxFrameSize : Nat}
    (h : p.composeNextPacket input maxFrameSize = .ok (payload, p')) : p.Idle p' := by
  obtain ⟨⟨filled, q, framer⟩, hfill, h⟩ := bind_eq_ok.mp h
  cases h
  have hsettings := p.sameSettings_takeAck p.handshakeConfirmed .oneRTT
  exact ⟨{ hsettings with }, rfl, fillPacket_sameCrypto hfill, rfl, rfl⟩

theorem packedAt_short {p₁ : PacketPacker} {kp : KeyPhaseBit}
    (hheader : p₁.getShortHeader kp = .ok header)
    (h : p.writeAndSealPacket header payload .oneRTT sealer num = .ok (packet, p')) :
    p.PackedAt p' num packet .oneRTT := by
  have hseals := seals_of_ok h
  have hsettings := hseals.settings
  obtain ⟨length, hlength⟩ := hseals.length
  obtain ⟨pnManager, hnumber, rfl⟩ := hseals.number
  obtain ⟨⟨pn, pnLen⟩, -, hshort⟩ := bind_eq_ok.mp hheader
  cases hshort
  refine ⟨?_, ?_, hsettings, .appData (.refl _) rfl rfl⟩
  · unfold PackedPacket.encryptionLevel
    rw [hlength]
    rfl
  · rw [hlength]
    exact hnumber

theorem ends_packAppData (q p : PacketPacker) (input : PackInput) :
    Ends q.Misses (p.packAppData input) fun r => (r.1 = none ∧ p.Idle r.2) ∨
      ∃ packet, r.1 = some packet ∧ p.PackedAt r.2 input.num packet .oneRTT := by
  unfold packAppData
  split
  · exact .inl ⟨rfl, .refl p, rfl, .refl _, rfl, rfl⟩
  refine (ends_ofHandler q _).bind fun header hheader _ => ?_
  refine (ends_ofPanic q _).bind fun headerLen _ _ => ?_
  refine (ends_ofPanic q _).bind fun ⟨payload, p₁⟩ hcompose _ => ?_
  have hidle := composeNextPacket_idle (ofPanic_eq_ok hcompose)
  dsimp only
  split
  · exact .inl ⟨rfl, hidle⟩
  · obtain ⟨n, hping⟩ := p₁.addPing_eq payload
    refine (ends_writeAndSealPacket q).bind fun ⟨packet, p₂⟩ hwrite _ => ?_
    rw [hping] at hwrite
    have hpinged : p₁.Idle { p₁ with numNonAckElicitingAcks := n } :=
      ⟨⟨⟨rfl, rfl, rfl, rfl, rfl⟩, rfl, .rfl, .rfl⟩, rfl, .refl _, rfl, rfl⟩
    exact .inr ⟨packet, rfl, (hidle.trans hpinged).packedAt
      (packedAt_short (ofHandler_eq_ok hheader) hwrite)⟩

/-! ### Initial and Handshake packets -/

theorem ends_packLevel {q : PacketPacker} (hlevel : encLevel ≠ .oneRTT)
    (hq : p.retransmissionQueue.CryptoOnly)
    (hmisses : p.hasPending encLevel = true → p.cryptoSetup.sealer encLevel = none →
      ∀ cause, q.Misses (noSealer encLevel cause))
    {otherwise : PacketPacker → Except PackError (Option PackedPacket × PacketPacker)}
    {R : Option PackedPacket × PacketPacker → Prop}
    (hpacked : ∀ packet p', p.PackedAt p' num packet encLevel →
      packet.ack = p.pendingAck encLevel → R (some packet, p'))
    (hotherwise : Ends q.Misses (otherwise (p.takeAck encLevel).2) R) :
    Ends q.Misses (p.packLevel encLevel num otherwise) R := by
  unfold packLevel
  dsimp only
  split
  · next hpending =>
    rcases p.cryptoSetup.getSealer_cases encLevel with
      ⟨hnone, cause, hget⟩ | ⟨sealer, -, hget⟩
    · rw [hget]
      exact hmisses hpending hnone cause
    · rw [hget]
      refine (ends_packCryptoPacket (p := (p.takeAck encLevel).2) q hq hlevel
        hpending).bind fun r _ hr => ?_
      exact hpacked r.1 r.2
        (hr.1.of_setAcks (p.sameSettings_takeAck p.handshakeConfirmed encLevel)) hr.2
  · exact hotherwise

private theorem idle_takeAck (p : PacketPacker) (encLevel : EncryptionLevel) :
    p.Idle (p.takeAck encLevel).2 :=
  idle_setAcks (p.sameSettings_takeAck p.handshakeConfirmed encLevel)

theorem ends_maybePackCryptoPacket (hq : p.retransmissionQueue.CryptoOnly) :
    Ends p.Misses (p.maybePackCryptoPacket num) fun r => p.PackOutcome num r.1 r.2 := by
  obtain ⟨confirmed, hconfirm⟩ := p.confirmHandshake_eq
  have hconfirmed : p.SameSettings { p with handshakeConfirmed := confirmed } :=
    ⟨⟨rfl, rfl, rfl, rfl, rfl⟩, rfl, .rfl, .rfl⟩
  have hsettings := p.sameSettings_takeAck confirmed .initial
  rw [maybePackCryptoPacket_eq, hconfirm]
  refine ends_packLevel (by decide) ?_ ?_ ?_ ?_
  · exact hq
  · exact fun hpending hnone _ => ⟨hpending, hnone⟩
  · exact fun packet p' hpacked hack => .packed (hpacked.of_setAcks hconfirmed) fun _ => hack
  rw [maybePackHandshakePacket_eq]
  refine ends_packLevel (by decide) ?_ ?_ ?_ ?_
  · exact hq
  · exact fun hpending hnone _ => ⟨hpending, hnone⟩
  · exact fun packet p' hpacked hack => .packed (hpacked.of_setAcks hsettings) fun _ => hack
  · exact .idle ((idle_setAcks hsettings).trans (idle_takeAck _ .handshake))

theorem ends_packPacket (hq : p.retransmissionQueue.CryptoOnly) (input : PackInput) :
    Ends p.Misses (p.packPacket input) fun r => p.PackOutcome input.num r.1 r.2 := by
  have happData : ∀ p₁, p.Idle p₁ → Ends p.Misses (p₁.packAppData input)
      fun r => p.PackOutcome input.num r.1 r.2 := by
    intro p₁ hidle
    refine (ends_packAppData p p₁ input).mono ?_
    rintro ⟨_, p'⟩ (⟨rfl, hidle'⟩ | ⟨packet, rfl, hpacked⟩)
    · exact .idle (hidle.trans hidle')
    · exact .packed (hidle.packedAt hpacked) fun hcontra => absurd rfl hcontra
  unfold packPacket
  split
  · exact happData p ⟨.refl p, rfl, .refl _, rfl, rfl⟩
  refine (ends_maybePackCryptoPacket hq).bind fun ⟨first, p₁⟩ _ houtcome => ?_
  cases houtcome with
  | idle hidle => exact happData p₁ hidle
  | packed hpacked hack => exact .packed hpacked hack

/-! ### ACK packets -/

theorem takeFirstAck_eq (levels : List EncryptionLevel) (p : PacketPacker) :
    ∃ acks, (p.takeFirstAck levels).2 = { p with acks } ∧
      p.SameSettings { p with acks } := by
  induction levels generalizing p with
  | nil => exact ⟨p.acks, rfl, .refl p⟩
  | cons encLevel levels ih =>
    have hsettings := p.sameSettings_takeAck p.handshakeConfirmed encLevel
    unfold takeFirstAck
    split
    · next htake =>
      obtain rfl := congrArg Prod.snd htake
      exact ⟨_, rfl, hsettings⟩
    · next htake =>
      obtain rfl := congrArg Prod.snd htake
      obtain ⟨acks, heq, hrest⟩ := ih { p with acks := (p.acks.getAckFrame encLevel).2 }
      exact ⟨acks, heq, hsettings.trans hrest⟩

theorem maybePackAckPacket_outcome (h : p.maybePackAckPacket num = .ok (result, p')) :
    (result = none ∧ p.Idle p') ∨ ∃ packet encLevel, result = some packet ∧
      p.PackedAt p' num packet encLevel ∧ packet.frames = [] := by
  obtain ⟨acks, htaken, hsettings⟩ := takeFirstAck_eq
    (if p.handshakeConfirmed then [.oneRTT] else [.initial, .handshake, .oneRTT]) p
  unfold maybePackAckPacket at h
  split at h
  · next p₁ htake =>
    cases h
    rw [htake] at htaken
    cases htaken
    exact .inl ⟨rfl, idle_setAcks hsettings⟩
  · next encLevel ack p₁ htake =>
    rw [htake] at htaken
    cases htaken
    obtain ⟨payload, hpayload, h⟩ := bind_eq_ok.mp h
    obtain ⟨⟨sealer, hdr⟩, hsealer, h⟩ := bind_eq_ok.mp h
    obtain ⟨⟨packet, p₂⟩, hwrite, h⟩ := bind_eq_ok.mp h
    cases h
    obtain ⟨found, -, hsealer⟩ := bind_eq_ok.mp hsealer
    obtain ⟨header, hheader, hsealer⟩ := bind_eq_ok.mp hsealer
    cases hsealer
    have hpayload := ofPanic_eq_ok hpayload
    have hframes : packet.frames = [] :=
      (seals_of_ok hwrite).frames.trans (ackPayload_eq_ok hpayload).2.1
    have hlong : encLevel ≠ .oneRTT →
        PacketPacker.getLongHeader { p with acks } encLevel = .ok hdr →
        PackedAt { p with acks } p' num packet encLevel := by
      intro hlevel hbuilt
      obtain ⟨⟨pn, len⟩, -, hbuilt⟩ := bind_eq_ok.mp hbuilt
      cases hbuilt
      exact (packed_ackOnly hlevel rfl hpayload hwrite).1
    refine .inr ⟨packet, encLevel, rfl, PackedAt.of_setAcks hsettings ?_, hframes⟩
    cases encLevel with
    | initial | handshake => exact hlong (by decide) (ofHandler_eq_ok hheader)
    | oneRTT => exact packedAt_short (ofHandler_eq_ok hheader) hwrite

end PacketPacker

end Qperf.Quic
