import Qperf.Quic.HeaderParser
import Qperf.Quic.KeyUpdate

/-!
# Unpacking of packets

`Unpack` removes header protection, decodes the packet number and opens the payload.
The number is decoded relative to the largest number received so far in any packet
number space.  Of the openers of the TLS library nothing is assumed here.
-/

namespace Qperf.Quic

open Qperf.Foundation

/-! ## Openers -/

structure LongHeaderOpener where
  openData : List UInt8 → PacketNumber → List UInt8 → Except AEADError (List UInt8)
  headerProtector : HeaderProtector

structure ShortHeaderOpener where
  openData : List UInt8 → Time → PacketNumber → KeyPhaseBit → List UInt8 →
    Except AEADError (List UInt8)
  headerProtector : HeaderProtector

structure Openers where
  initialOpener : Option LongHeaderOpener
  handshakeOpener : Option LongHeaderOpener
  oneRTTOpener : Option ShortHeaderOpener

inductive UnpackError where
  | keysDropped
  | openerNotYetAvailable
  | message (text : String)
  | invalidReservedBits
  | aead (err : AEADError)
  | panic (cause : GoPanic)
  deriving DecidableEq, Repr

namespace Openers

def getInitialOpener (cs : Openers) : Except UnpackError LongHeaderOpener :=
  match cs.initialOpener with
  | none => .error .keysDropped
  | some opener => .ok opener

def getHandshakeOpener (cs : Openers) : Except UnpackError LongHeaderOpener :=
  match cs.handshakeOpener with
  | none =>
    if cs.initialOpener.isSome then .error .openerNotYetAvailable
    else .error .keysDropped
  | some opener => .ok opener

def get1RTTOpener (cs : Openers) : Except UnpackError ShortHeaderOpener :=
  match cs.oneRTTOpener with
  | none => .error .openerNotYetAvailable
  | some opener => .ok opener

end Openers

/-! ## Unpacking -/

structure PacketUnpacker where
  largestRcvdPacketNumber : PacketNumber := 0
  deriving DecidableEq, Repr

structure UnpackedPacket where
  packetNumber : PacketNumber
  hdr : ExtendedHeader
  encryptionLevel : EncryptionLevel
  data : List UInt8
  deriving DecidableEq, Repr

def PacketType.text : Option PacketType → String
  | some .initial => "Initial"
  | some .retry => "Retry"
  | some .handshake => "Handshake"
  | some .zeroRTT => "0-RTT Protected"
  | none => "unknown packet type: 0"

def liftPanic {α : Type} : Except GoPanic α → Except UnpackError α
  | .ok a => .ok a
  | .error cause => .error (.panic cause)

def liftParse {α : Type} : Except ParseError α → Except UnpackError α
  | .ok a => .ok a
  | .error err => .error (.message err.text)

def liftAEAD {α : Type} : Except AEADError α → Except UnpackError α
  | .ok a => .ok a
  | .error err => .error (.aead err)

def decryptHeader (hp : HeaderProtector) (data : List UInt8) (hdrLen : Nat) :
    List UInt8 :=
  let sample := (data.drop (hdrLen + 4)).take 16
  let (firstByte, pnBytes) := hp.apply sample (data.headD 0) ((data.drop hdrLen).take 4)
  firstByte :: (data.take hdrLen).drop 1 ++ pnBytes ++ data.drop (hdrLen + 4)

def copySlice (data : List UInt8) (start stop : Nat) (src : List UInt8) :
    Except GoPanic (List UInt8) :=
  if start > stop then .error .sliceBounds
  else
    let src := src.take (stop - start)
    .ok (data.take start ++ src ++ data.drop (start + src.length))

/-- The bytes behind a packet number of less than four bytes are put back. -/
def restoreBytes (extHdr : ExtendedHeader) (hdrLen : Nat)
    (data origPNBytes : List UInt8) : Except GoPanic (List UInt8) :=
  if extHdr.packetNumberLen = 4 then .ok data
  else do
    let extHdrLen ← extHdr.getLength
    copySlice data extHdrLen (hdrLen + 4) (origPNBytes.drop extHdr.packetNumberLen)

namespace PacketUnpacker

def unpackHeader (u : PacketUnpacker) (hp : HeaderProtector) (hdr : Header)
    (data : List UInt8) : Except UnpackError (Bool × ExtendedHeader × List UInt8) :=
  let hdrLen := hdr.parsedLen
  if data.length < hdrLen + 4 + 16 then
    .error (.message
      ("Packet too small. Expected at least 20 bytes after the header, got " ++
        toString ((data.length : Int) - hdrLen)))
  else do
    let origPNBytes := (data.drop hdrLen).take 4
    let data := decryptHeader hp data hdrLen
    let ((valid, extHdr), _) ← liftParse (hdr.parseExtended data)
    let data ← liftPanic (restoreBytes extHdr hdrLen data origPNBytes)
    let packetNumber := decodePacketNumber extHdr.packetNumberLen
      u.largestRcvdPacketNumber extHdr.packetNumber
    return (valid, { extHdr with packetNumber }, data)

/--
If the reserved bits are set incorrectly, the payload is opened nevertheless, in order
to avoid a timing side-channel.
-/
def openPayload
    (openData : List UInt8 → ExtendedHeader → List UInt8 → Except AEADError (List UInt8))
    (valid : Bool) (extHdr : ExtendedHeader) (data : List UInt8) :
    Except UnpackError (ExtendedHeader × List UInt8) := do
  let extHdrLen ← liftPanic extHdr.getLength
  let decrypted ← liftAEAD
    (openData (data.drop extHdrLen) extHdr (data.take extHdrLen))
  if valid then return (extHdr, decrypted) else .error .invalidReservedBits

def unpackLongHeaderPacket (u : PacketUnpacker) (opener : LongHeaderOpener)
    (hdr : Header) (data : List UInt8) :
    Except UnpackError (ExtendedHeader × List UInt8) :=
  match u.unpackHeader opener.headerProtector hdr data with
  | .error (.message text) =>
    .error (.message ("error parsing extended header: " ++ text))
  | .error err => .error err
  | .ok (valid, extHdr, data) =>
    openPayload
      (fun src extHdr ad => opener.openData src extHdr.packetNumber ad) valid extHdr data

def unpackShortHeaderPacket (u : PacketUnpacker) (opener : ShortHeaderOpener)
    (hdr : Header) (rcvTime : Time) (data : List UInt8) :
    Except UnpackError (ExtendedHeader × List UInt8) := do
  let (valid, extHdr, data) ← u.unpackHeader opener.headerProtector hdr data
  openPayload
    (fun src extHdr ad =>
      opener.openData src rcvTime extHdr.packetNumber extHdr.keyPhase ad)
    valid extHdr data

def unpacked (u : PacketUnpacker) (encryptionLevel : EncryptionLevel) :
    ExtendedHeader × List UInt8 → UnpackedPacket × PacketUnpacker
  | (hdr, data) =>
    (⟨hdr.packetNumber, hdr, encryptionLevel, data⟩,
      ⟨max u.largestRcvdPacketNumber hdr.packetNumber⟩)

def unpack (u : PacketUnpacker) (cs : Openers) (hdr : Header) (rcvTime : Time)
    (data : List UInt8) : Except UnpackError (UnpackedPacket × PacketUnpacker) :=
  match hdr.type with
  | some .initial => do
    let opener ← cs.getInitialOpener
    u.unpacked .initial <$> u.unpackLongHeaderPacket opener hdr data
  | some .handshake => do
    let opener ← cs.getHandshakeOpener
    u.unpacked .handshake <$> u.unpackLongHeaderPacket opener hdr data
  | type =>
    if hdr.isLongHeader then
      .error (.message ("unknown packet type: " ++ PacketType.text type))
    else do
      let opener ← cs.get1RTTOpener
      u.unpacked .oneRTT <$> u.unpackShortHeaderPacket opener hdr rcvTime data

end PacketUnpacker

/-! ## Header protection -/

namespace HeaderProtector

variable (p : HeaderProtector) (sample : List UInt8)

private theorem apply_apply (firstByte : UInt8) (hdrBytes : List UInt8) :
    p.apply sample (p.apply sample firstByte hdrBytes).1
      (p.apply sample firstByte hdrBytes).2 = (firstByte, hdrBytes) := by
  refine Prod.ext ?_ (List.ext_getElem ?_ ?_)
  · simp only [apply, UInt8.xor_assoc, UInt8.xor_self, UInt8.xor_zero]
  · simp only [apply, List.length_mapIdx]
  · intro i _ _
    simp only [apply, List.getElem_mapIdx, UInt8.xor_assoc, UInt8.xor_self, UInt8.xor_zero]

theorem length_apply (firstByte : UInt8) (hdrBytes : List UInt8) :
    (p.apply sample firstByte hdrBytes).2.length = hdrBytes.length :=
  List.length_mapIdx

private theorem apply_append (firstByte : UInt8) (hdrBytes surplus : List UInt8) :
    ∃ masked, masked.length = surplus.length ∧
      p.apply sample firstByte (hdrBytes ++ surplus) =
        ((p.apply sample firstByte hdrBytes).1,
          (p.apply sample firstByte hdrBytes).2 ++ masked) :=
  ⟨_, List.length_mapIdx, by rw [apply, List.mapIdx_append]; rfl⟩

end HeaderProtector

theorem encryptHeader_eq (sealer : Sealer) (firstByte : UInt8)
    (middle pnBytes payload : List UInt8) :
    PacketPacker.encryptHeader sealer (firstByte :: middle ++ pnBytes ++ payload)
      (middle.length + 1) (middle.length + 1 + pnBytes.length) =
    (sealer.headerProtector.apply (((pnBytes ++ payload).drop 4).take 16) firstByte
        pnBytes).1 :: middle ++
      (sealer.headerProtector.apply (((pnBytes ++ payload).drop 4).take 16) firstByte
        pnBytes).2 ++ payload := by
  have hdrop : ∀ n, (firstByte :: middle ++ pnBytes ++ payload).drop
      (middle.length + 1 + n) = (pnBytes ++ payload).drop n := by
    intro n
    rw [List.append_assoc, ← List.drop_drop]
    congr 1
    exact List.drop_left
  have htake : (firstByte :: middle ++ pnBytes ++ payload).take (middle.length + 1) =
      firstByte :: middle := by
    rw [List.append_assoc]
    exact List.take_left' rfl
  unfold PacketPacker.encryptHeader
  rw [hdrop, hdrop, htake, ← Nat.add_zero (middle.length + 1), hdrop, Nat.add_zero,
    Nat.add_sub_cancel_left, List.drop_zero, List.take_left, List.drop_left]
  rfl

theorem decryptHeader_eq (hp : HeaderProtector) (firstByte : UInt8) (middle tail : List UInt8) :
    decryptHeader hp (firstByte :: middle ++ tail) (middle.length + 1) =
    (hp.apply ((tail.drop 4).take 16) firstByte (tail.take 4)).1 :: middle ++
      (hp.apply ((tail.drop 4).take 16) firstByte (tail.take 4)).2 ++ tail.drop 4 := by
  have hdrop : (firstByte :: middle ++ tail).drop (middle.length + 1) = tail :=
    List.drop_left
  have htake : (firstByte :: middle ++ tail).take (middle.length + 1) =
      firstByte :: middle := List.take_left' rfl
  unfold decryptHeader
  rw [← List.drop_drop, hdrop, htake]
  rfl

theorem decryptHeader_encryptHeader (sealer : Sealer) (firstByte : UInt8)
    (middle payload : List UInt8) {pnBytes : List UInt8} (hle : pnBytes.length ≤ 4) :
    ∃ masked, masked.length = (payload.take (4 - pnBytes.length)).length ∧
      decryptHeader sealer.headerProtector
        (PacketPacker.encryptHeader sealer (firstByte :: middle ++ pnBytes ++ payload)
          (middle.length + 1) (middle.length + 1 + pnBytes.length)) (middle.length + 1) =
      firstByte :: middle ++ pnBytes ++ (masked ++ payload.drop (4 - pnBytes.length)) := by
  have hdrop : ∀ front : List UInt8, front.length = pnBytes.length →
      (front ++ payload).drop 4 = payload.drop (4 - pnBytes.length) := by
    intro front hlen
    rw [List.drop_append, List.drop_of_length_le (by omega), List.nil_append, hlen]
  rw [encryptHeader_eq, hdrop pnBytes rfl]
  generalize hsample : (payload.drop (4 - pnBytes.length)).take 16 = sample
  have hlen := sealer.headerProtector.length_apply sample firstByte pnBytes
  have hinverse := sealer.headerProtector.apply_apply sample firstByte pnBytes
  generalize sealer.headerProtector.apply sample firstByte pnBytes = hidden at *
  have htake : (hidden.2 ++ payload).take 4 = hidden.2 ++ payload.take (4 - pnBytes.length) := by
    rw [List.take_append, List.take_of_length_le (by omega), hlen]
  obtain ⟨masked, hmasked, happly⟩ := sealer.headerProtector.apply_append sample
    hidden.1 hidden.2 (payload.take (4 - pnBytes.length))
  refine ⟨masked, hmasked, ?_⟩
  rw [List.append_assoc, decryptHeader_eq, hdrop hidden.2 hlen, htake, hsample, happly,
    hinverse]
  simp only [List.append_assoc]

private theorem copySlice_eq {front masked surplus rest : List UInt8} {stop : Nat}
    (hstop : stop = front.length + surplus.length) (hmasked : masked.length = surplus.length) :
    copySlice (front ++ (masked ++ rest)) front.length stop surplus =
      .ok (front ++ (surplus ++ rest)) := by
  have hrest : (front ++ (masked ++ rest)).drop (front.length + surplus.length) = rest := by
    rw [← List.drop_drop, List.drop_left, ← hmasked, List.drop_left]
  unfold copySlice
  rw [if_neg (by omega), List.take_of_length_le (by omega), List.take_left]
  dsimp only
  rw [hrest, List.append_assoc]

theorem restoreBytes_eq {extHdr : ExtendedHeader} {hdrLen : Nat}
    {front hidden masked sealed : List UInt8} (hle : extHdr.packetNumberLen ≤ 4)
    (hfront : front.length = hdrLen + extHdr.packetNumberLen)
    (hlength : extHdr.getLength = .ok (hdrLen + extHdr.packetNumberLen))
    (hhidden : hidden.length = extHdr.packetNumberLen)
    (hsealed : 4 ≤ extHdr.packetNumberLen + sealed.length)
    (hmasked : masked.length = (sealed.take (4 - extHdr.packetNumberLen)).length) :
    restoreBytes extHdr hdrLen (front ++ (masked ++ sealed.drop (4 - extHdr.packetNumberLen)))
      ((hidden ++ sealed).take 4) = .ok (front ++ sealed) := by
  have hsurplus : ((hidden ++ sealed).take 4).drop extHdr.packetNumberLen =
      sealed.take (4 - extHdr.packetNumberLen) := by
    rw [List.take_append, List.take_of_length_le (by omega), ← hhidden, List.drop_left]
  unfold restoreBytes
  split
  · next hfour =>
    have hnil : masked = [] := by
      rw [hfour, Nat.sub_self, List.take_zero] at hmasked
      exact List.eq_nil_of_length_eq_zero hmasked
    rw [hnil, hfour, Nat.sub_self, List.drop_zero, List.nil_append]
  · rw [hlength, ok_bind, hsurplus, ← hfront,
      copySlice_eq (by rw [List.length_take]; omega) hmasked, List.take_append_drop]

theorem unpackHeader_eq (u : PacketUnpacker) {hp : HeaderProtector} {hdr : Header}
    {data rest restored : List UInt8} {extHdr : ExtendedHeader} {valid : Bool}
    (hsize : hdr.parsedLen + 20 ≤ data.length)
    (hparse : hdr.parseExtended (decryptHeader hp data hdr.parsedLen) =
      .ok ((valid, extHdr), rest))
    (hrestore : restoreBytes extHdr hdr.parsedLen (decryptHeader hp data hdr.parsedLen)
      ((data.drop hdr.parsedLen).take 4) = .ok restored) :
    u.unpackHeader hp hdr data =
      .ok (valid,
        { extHdr with
          packetNumber := decodePacketNumber extHdr.packetNumberLen
            u.largestRcvdPacketNumber extHdr.packetNumber }, restored) := by
  unfold PacketUnpacker.unpackHeader
  rw [if_neg (by omega)]
  dsimp only
  rw [hparse, liftParse, ok_bind]
  rw [hrestore, liftPanic, ok_bind]
  rfl

namespace ExtendedHeader

variable {h : ExtendedHeader}

theorem length_packetNumberBytes (h : ExtendedHeader) :
    h.packetNumberBytes.length = h.packetNumberLen := length_bigEndian ..

theorem Valid.wireLen_eq (hv : h.Valid) :
    h.wireLen = h.middle.length + 1 + h.packetNumberLen := by
  obtain ⟨bytes, hbytes, hlen⟩ := hv.write
  rw [hv.write_parts] at hbytes
  cases hbytes
  rw [← hlen, List.length_append, List.length_cons, length_packetNumberBytes]

theorem Valid.getLength_extended (hv : h.Valid) (typeByte : UInt8) (packetNumber : PacketNumber) :
    (h.extended typeByte packetNumber).getLength =
      .ok (h.middle.length + 1 + h.packetNumberLen) := by
  have hwire : (h.extended typeByte packetNumber).wireLen = h.wireLen := by
    unfold wireLen extended parsed Header.withParsedLen
    cases h.isLongHeader with
    | true => by_cases htype : h.type = some .initial <;> simp [htype]
    | false => simp
  rw [getLength_of_le, hwire, hv.wireLen_eq] <;>
    unfold extended parsed Header.withParsedLen <;> split
  · exact hv.length
  · exact Nat.zero_le _
  · split
    · exact hv.token
    · exact Nat.zero_le _
  · exact Nat.zero_le _

def protectedPacket (h : ExtendedHeader) (sealer : Sealer) (sealed : List UInt8) :
    List UInt8 :=
  PacketPacker.encryptHeader sealer
    (h.firstByte :: h.middle ++ h.packetNumberBytes ++ sealed)
    (h.middle.length + 1) (h.middle.length + 1 + h.packetNumberBytes.length)

theorem protectedPacket_eq {sealer : Sealer}
    (hkind : sealer.headerProtector.isLongHeader = h.isLongHeader) (sealed : List UInt8) :
    ∃ mask hidden, h.protectedPacket sealer sealed =
        (h.firstByte ^^^ (mask &&& h.protectedBits)) :: h.middle ++ (hidden ++ sealed) ∧
      hidden.length = h.packetNumberLen := by
  have heq := encryptHeader_eq sealer h.firstByte h.middle h.packetNumberBytes sealed
  generalize ((h.packetNumberBytes ++ sealed).drop 4).take 16 = sample at heq
  refine ⟨sealer.headerProtector.mask sample 0, (sealer.headerProtector.apply sample
    h.firstByte h.packetNumberBytes).2, ?_, ?_⟩
  · rw [protectedPacket, heq, List.append_assoc, protectedBits, ← hkind]
    rfl
  · rw [HeaderProtector.length_apply, length_packetNumberBytes]

theorem Valid.unpacks (hv : h.Valid)
    (hlong : h.isLongHeader = true → isSupportedVersion h.version ∧ h.type ≠ none)
    {connIDLen : Nat} (hshort : h.isLongHeader = false → h.destConnectionID.length = connIDLen)
    {sealer : Sealer} (hkind : sealer.headerProtector.isLongHeader = h.isLongHeader)
    {sealed : List UInt8} (hsize : 20 ≤ h.packetNumberLen + sealed.length)
    (hlength : h.isLongHeader = true → h.length = h.packetNumberLen + sealed.length)
    {u : PacketUnpacker}
    (hdecode : decodePacketNumber h.packetNumberLen u.largestRcvdPacketNumber
      (wrapByteCount h.packetNumber % 2 ^ (8 * h.packetNumberLen) : Nat) = h.packetNumber) :
    ∃ typeByte, parsePacket (h.protectedPacket sealer sealed) connIDLen =
        .ok ⟨(h.parsed typeByte).withParsedLen (h.middle.length + 1),
          h.protectedPacket sealer sealed, []⟩ ∧
      u.unpackHeader sealer.headerProtector
        ((h.parsed typeByte).withParsedLen (h.middle.length + 1))
        (h.protectedPacket sealer sealed) =
      .ok (true, h.extended typeByte h.packetNumber,
        h.firstByte :: h.middle ++ h.packetNumberBytes ++ sealed) := by
  obtain ⟨mask, hidden, hraw, hhidden⟩ := protectedPacket_eq hkind sealed
  have hparse := hv.parses hlong hshort mask (hidden ++ sealed)
    (fun hl => by rw [hlength hl, List.length_append, hhidden])
  rw [← hraw] at hparse
  refine ⟨_, hparse, ?_⟩
  generalize h.firstByte ^^^ (mask &&& h.protectedBits) = typeByte at *
  have hpn := h.length_packetNumberBytes
  have hle := hv.packetNumberLen.2
  obtain ⟨masked, hmasked, hdecrypt⟩ := decryptHeader_encryptHeader sealer h.firstByte
    h.middle sealed (hpn.trans_le hle)
  rw [← protectedPacket] at hdecrypt
  have hsent : (h.protectedPacket sealer sealed).drop (h.middle.length + 1) =
      hidden ++ sealed := by
    rw [hraw]
    exact List.drop_left
  have htotal : (h.protectedPacket sealer sealed).length =
      h.middle.length + 1 + h.packetNumberLen + sealed.length := by
    rw [hraw, List.length_append, List.length_append, List.length_cons, hhidden]
    omega
  have hfront : (h.firstByte :: h.middle ++ h.packetNumberBytes).length =
      h.middle.length + 1 + h.packetNumberLen := by
    rw [List.length_append, List.length_cons, hpn]
  rw [hpn] at hmasked hdecrypt
  generalize hwire : ((wrapByteCount h.packetNumber % 2 ^ (8 * h.packetNumberLen) : Nat) :
    PacketNumber) = wire at hdecode
  have hextended := hv.parsesExtended (fun hl => (hlong hl).2) typeByte
    (masked ++ sealed.drop (4 - h.packetNumberLen))
  rw [← hdecrypt, hwire] at hextended
  have hrestore : restoreBytes (h.extended typeByte wire) (h.middle.length + 1) _ _ = _ :=
    restoreBytes_eq hle hfront (hv.getLength_extended typeByte _) hhidden
      (by change 4 ≤ h.packetNumberLen + sealed.length; omega) hmasked
  change restoreBytes _ _ (_ ++ (masked ++ sealed.drop (4 - h.packetNumberLen))) _ = _
    at hrestore
  rw [← hdecrypt, ← hsent] at hrestore
  have hunpack := unpackHeader_eq u (by rw [htotal]; change _ + 1 + 20 ≤ _; omega)
    hextended hrestore
  rw [hunpack]
  change Except.ok (true, h.extended typeByte (decodePacketNumber h.packetNumberLen _ wire), _)
    = _
  rw [hdecode]

end ExtendedHeader

end Qperf.Quic
