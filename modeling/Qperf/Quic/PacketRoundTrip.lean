import Qperf.Quic.PacketUnpacker

/-!
# Packets are unpacked as they were packed

`ParsePacket` and `Unpack` restore the packet number, the connection IDs, the key phase
and the payload of a packet that `writeAndSealPacket` has produced, if the number is
nearer than half of its window to the one that the receiver expects.
-/

namespace Qperf.Quic

open Qperf.Foundation

namespace PacketPacker

variable {p p' : PacketPacker} {header : ExtendedHeader} {payload : Payload}
  {encLevel : EncryptionLevel} {sealer : Sealer} {num : UInt16} {packet : PackedPacket}

/-! ## What the packer has produced -/

private theorem ofWrite_eq_ok {α : Type} {x : Except Failure α} {a : α} (h : ofWrite x = .ok a) :
    x = .ok a := by
  match x, h with
  | .ok _, h => exact congrArg _ (Except.ok.inj h)

theorem ofPanic_eq_ok {α : Type} {x : Except GoPanic α} {a : α} (h : ofPanic x = .ok a) :
    x = .ok a := by
  match x, h with
  | .ok _, h => exact congrArg _ (Except.ok.inj h)

private theorem padding_eq_ok {paddingLen : Nat} {zeros : List UInt8}
    (h : PacketPacker.padding paddingLen = .ok zeros) :
    paddingLen < 2 ^ 63 ∧ zeros = List.replicate paddingLen 0 := by
  unfold PacketPacker.padding at h
  split at h
  · cases h
  · exact ⟨by omega, (Except.ok.inj h).symm⟩

structure Sealed (h : ExtendedHeader) (payload : Payload) (paddingLen : Nat)
    (sealer : Sealer) (raw hdr data : List UInt8) : Prop where
  header : h.write = .ok hdr
  written : ∃ ack frames, writeAck payload.ack = .ok ack ∧
    payload.frames.mapM Frame.write = .ok frames ∧
    data = plaintext ack paddingLen frames
  packet : raw = sealedBytes sealer h hdr data
  padding : paddingLen < 2 ^ 63
  payloadLen : data.length = payload.length + paddingLen
  total : hdr.length + data.length ≤ maxReceivePacketSize

theorem sealed_of_ok {paddingLen : Nat}
    (h : p.writeAndSealPacketWithPadding header payload paddingLen encLevel sealer num =
      .ok (packet, p')) :
    ∃ hdr data, Sealed header payload paddingLen sealer packet.raw hdr data := by
  obtain ⟨hdr, hhdr, h⟩ := bind_eq_ok.mp h
  obtain ⟨ack, hack, h⟩ := bind_eq_ok.mp h
  obtain ⟨zeros, hzeros, h⟩ := bind_eq_ok.mp h
  obtain ⟨frames, hframes, h⟩ := bind_eq_ok.mp h
  obtain ⟨hpadding, rfl⟩ := padding_eq_ok hzeros
  have hlen := length_plaintext ack paddingLen frames
  dsimp only at h
  rw [← plaintext] at h
  generalize hdata : plaintext ack paddingLen frames = data at h hlen
  split at h
  · cases h
  next hsize =>
  split at h
  · cases h
  split at h
  · cases h
  next hmax =>
  obtain ⟨next, hpop, h⟩ := bind_eq_ok.mp h
  split at h
  · cases h
  cases h
  unfold maxReceivePacketSize at hmax
  unfold wrapByteCount at hsize
  refine ⟨hdr, data, ofWrite_eq_ok hhdr,
    ⟨ack, frames, ofWrite_eq_ok hack, ofWrite_eq_ok hframes, hdata.symm⟩, rfl, hpadding,
    ?_, ?_⟩
  · omega
  · unfold maxReceivePacketSize
    omega

def Builds (p : PacketPacker) (encLevel : EncryptionLevel) (header : ExtendedHeader) :
    Prop :=
  if encLevel = .oneRTT then ∃ kp, p.getShortHeader kp = .ok header
  else p.getLongHeader encLevel = .ok header

theorem Builds.short (h : p.Builds .oneRTT header) :
    2 ≤ header.packetNumberLen ∧ header.packetNumberLen ≤ 4 ∧
      ∃ kp pn len, header =
        { packetNumber := pn, packetNumberLen := len, destConnectionID := p.destConnID,
          keyPhase := kp } := by
  obtain ⟨kp, h⟩ := h
  obtain ⟨⟨pn, len⟩, hpeek, h⟩ := bind_eq_ok.mp h
  obtain ⟨space, -, hspace⟩ := bind_eq_ok.mp hpeek
  cases hspace
  cases h
  exact ⟨(getPacketNumberLengthForHeader_bounds _ _).1,
    (getPacketNumberLengthForHeader_bounds _ _).2, kp, _, _, rfl⟩

theorem Builds.long (h : p.Builds encLevel header) (hlevel : encLevel ≠ .oneRTT) :
    ∃ pn, header = p.longHeader encLevel pn := by
  rw [Builds, if_neg hlevel] at h
  obtain ⟨⟨pn, len⟩, -, h⟩ := bind_eq_ok.mp h
  exact ⟨pn, (Except.ok.inj h).symm⟩

end PacketPacker

private theorem le_of_writeVarInt {i : Nat} {bytes : List UInt8} (h : writeVarInt i = .ok bytes) :
    i ≤ maxVarInt8 := by
  unfold writeVarInt at h
  unfold maxVarInt1 maxVarInt2 maxVarInt4 maxVarInt8 at *
  split_ifs at h <;> omega

theorem ExtendedHeader.valid_of_write {h : ExtendedHeader} {hdr : List UInt8}
    (hwrite : h.write = .ok hdr) (htype : h.type ≠ some .retry)
    (hlength : h.isLongHeader = false → h.length ≤ maxVarInt8)
    (htoken : h.isLongHeader = false ∨ h.type ≠ some .initial → h.token = []) :
    h.Valid := by
  unfold ExtendedHeader.write at hwrite
  split at hwrite
  · cases hwrite
  next hdest =>
  split at hwrite
  · cases hwrite
  next hsrc =>
  split at hwrite
  · cases hwrite
  next horig =>
  have hnumber : ∀ bytes, h.writePacketNumber = .ok bytes →
      1 ≤ h.packetNumberLen ∧ h.packetNumberLen ≤ 4 := by
    intro bytes hbytes
    unfold ExtendedHeader.writePacketNumber at hbytes
    split at hbytes
    · assumption
    · cases hbytes
  split at hwrite
  · next hlong =>
    rw [ExtendedHeader.writeLongHeader, if_neg htype] at hwrite
    obtain ⟨token, htokenBytes, hwrite⟩ := bind_eq_ok.mp hwrite
    obtain ⟨length, hlengthBytes, hwrite⟩ := bind_eq_ok.mp hwrite
    obtain ⟨number, hnumberBytes, -⟩ := bind_eq_ok.mp hwrite
    have htokenLen : h.token.length ≤ maxVarInt8 := by
      by_cases hinitial : h.type = some .initial
      · rw [ExtendedHeader.writeToken, if_pos hinitial] at htokenBytes
        obtain ⟨tokenLen, htokenLen, -⟩ := bind_eq_ok.mp htokenBytes
        exact le_of_writeVarInt htokenLen
      · rw [htoken (.inr hinitial)]
        exact Nat.zero_le _
    exact ⟨not_lt.mp hdest, not_lt.mp hsrc, not_lt.mp horig,
      le_of_writeVarInt hlengthBytes, htokenLen, hnumber _ hnumberBytes, htype⟩
  · next hshort =>
    have hfalse : h.isLongHeader = false := by simpa using hshort
    obtain ⟨number, hnumberBytes, -⟩ := bind_eq_ok.mp hwrite
    refine ⟨not_lt.mp hdest, not_lt.mp hsrc, not_lt.mp horig, hlength hfalse, ?_,
      hnumber _ hnumberBytes, htype⟩
    rw [htoken (.inl hfalse)]
    exact Nat.zero_le _

namespace PacketPacker

variable {p p' : PacketPacker} {header : ExtendedHeader} {payload : Payload}
  {encLevel : EncryptionLevel} {sealer : Sealer} {num : UInt16} {packet : PackedPacket}

private theorem valid_longHeader {pn : PacketNumber} {length : Nat} {hdr : List UInt8}
    (h : ((p.longHeader encLevel pn).withLength length).write = .ok hdr) :
    ((p.longHeader encLevel pn).withLength length).Valid := by
  apply ExtendedHeader.valid_of_write h
  · cases encLevel <;> simp [longHeader, ExtendedHeader.withLength]
  · intro hshort
    cases hshort
  · cases encLevel <;> simp [longHeader, ExtendedHeader.withLength]

theorem Builds.sealed (hbuilt : p.Builds encLevel header)
    (h : p.writeAndSealPacket header payload encLevel sealer num = .ok (packet, p')) :
    ∃ length paddingLen hdr data,
      Sealed (header.withLength length) payload paddingLen sealer packet.raw hdr data ∧
      (header.withLength length).Valid ∧
      (encLevel ≠ .oneRTT → length = header.packetNumberLen + data.length + aeadOverhead) ∧
      4 ≤ header.packetNumberLen + data.length := by
  unfold writeAndSealPacket at h
  split at h
  · next hlevel =>
    obtain ⟨pn, rfl⟩ := hbuilt.long hlevel
    have hpnLen : (p.longHeader encLevel pn).packetNumberLen = 4 := rfl
    split at h
    · obtain ⟨headerLen, hheaderLen, h⟩ := bind_eq_ok.mp h
      obtain ⟨hdr, data, hsealed⟩ := sealed_of_ok h
      have hv := valid_longHeader hsealed.header
      refine ⟨_, _, hdr, data, hsealed, hv, fun _ => ?_, by omega⟩
      -- A length or a padding that wrapped around was refused.
      have hlength := hv.length
      have htotal := hsealed.total
      have hdata := hsealed.payloadLen
      unfold wrapByteCount maxVarInt8 minInitialPacketSize aeadOverhead
        maxReceivePacketSize at *
      omega
    · obtain ⟨hdr, data, hsealed⟩ := sealed_of_ok h
      have hdata := hsealed.payloadLen
      exact ⟨_, _, hdr, data, hsealed, valid_longHeader hsealed.header,
        fun _ => by omega, by omega⟩
  · next hlevel =>
    obtain rfl : encLevel = .oneRTT := by simpa using hlevel
    obtain ⟨hlow, hhigh, kp, pn, len, rfl⟩ := hbuilt.short
    have hvalid : ∀ hdr, ExtendedHeader.write
        { packetNumber := pn, packetNumberLen := len, destConnectionID := p.destConnID,
          keyPhase := kp } = .ok hdr →
        ExtendedHeader.Valid
          { packetNumber := pn, packetNumberLen := len, destConnectionID := p.destConnID,
            keyPhase := kp } := by
      intro hdr hwrite
      exact ExtendedHeader.valid_of_write hwrite (by simp) (fun _ => Nat.zero_le _)
        fun _ => rfl
    split at h
    all_goals
      next hshort =>
      obtain ⟨hdr, data, hsealed⟩ := sealed_of_ok h
      refine ⟨0, _, hdr, data, hsealed, hvalid hdr hsealed.header, by simp, ?_⟩
      have hdata := hsealed.payloadLen
      change 4 ≤ len + data.length
      simp only [wrapByteCount] at hshort hdata
      omega

end PacketPacker

/-! ## What the receiver finds -/

def EncryptionLevel.packetType : EncryptionLevel → Option PacketType
  | .initial => some .initial
  | .handshake => some .handshake
  | .oneRTT => none

/-- The receiver has the keys of the sender: `Open` inverts `Seal`. -/
def Openers.Inverts (cs : Openers) (encLevel : EncryptionLevel) (rcvTime : Time)
    (keyPhase : KeyPhaseBit) (sealer : Sealer) : Prop :=
  match encLevel with
  | .initial => ∃ opener, cs.initialOpener = some opener ∧
      opener.headerProtector = sealer.headerProtector ∧
      sealer.headerProtector.isLongHeader = true ∧
      ∀ src pn ad, opener.openData (sealer.sealData src pn ad) pn ad = .ok src
  | .handshake => ∃ opener, cs.handshakeOpener = some opener ∧
      opener.headerProtector = sealer.headerProtector ∧
      sealer.headerProtector.isLongHeader = true ∧
      ∀ src pn ad, opener.openData (sealer.sealData src pn ad) pn ad = .ok src
  | .oneRTT => ∃ opener, cs.oneRTTOpener = some opener ∧
      opener.headerProtector = sealer.headerProtector ∧
      sealer.headerProtector.isLongHeader = false ∧
      ∀ src pn ad,
        opener.openData (sealer.sealData src pn ad) rcvTime pn keyPhase ad = .ok src

theorem Openers.Inverts.isLongHeader {cs : Openers} {encLevel : EncryptionLevel}
    {rcvTime : Time} {keyPhase : KeyPhaseBit} {sealer : Sealer}
    (h : cs.Inverts encLevel rcvTime keyPhase sealer) :
    sealer.headerProtector.isLongHeader = decide (encLevel ≠ .oneRTT) := by
  cases encLevel <;> obtain ⟨_, -, -, hkind, -⟩ := h <;> exact hkind

namespace PacketUnpacker

variable {u : PacketUnpacker} {hdr : Header} {extHdr : ExtendedHeader}
  {raw front sealed data : List UInt8}

theorem openPayload_eq
    {openData : List UInt8 → ExtendedHeader → List UInt8 → Except AEADError (List UInt8)}
    (hlength : extHdr.getLength = .ok front.length)
    (hopen : openData sealed extHdr front = .ok data) :
    openPayload openData true extHdr (front ++ sealed) = .ok (extHdr, data) := by
  unfold openPayload
  rw [hlength, liftPanic, ok_bind, List.drop_left, List.take_left, hopen, liftAEAD,
    ok_bind, if_pos rfl]
  rfl

private theorem unpackLongHeaderPacket_eq {opener : LongHeaderOpener}
    (hheader : u.unpackHeader opener.headerProtector hdr raw =
      .ok (true, extHdr, front ++ sealed))
    (hlength : extHdr.getLength = .ok front.length)
    (hopen : opener.openData sealed extHdr.packetNumber front = .ok data) :
    u.unpackLongHeaderPacket opener hdr raw = .ok (extHdr, data) := by
  unfold unpackLongHeaderPacket
  rw [hheader]
  exact openPayload_eq hlength hopen

private theorem unpackShortHeaderPacket_eq {opener : ShortHeaderOpener} {rcvTime : Time}
    (hheader : u.unpackHeader opener.headerProtector hdr raw =
      .ok (true, extHdr, front ++ sealed))
    (hlength : extHdr.getLength = .ok front.length)
    (hopen : opener.openData sealed rcvTime extHdr.packetNumber extHdr.keyPhase front =
      .ok data) :
    u.unpackShortHeaderPacket opener hdr rcvTime raw = .ok (extHdr, data) := by
  unfold unpackShortHeaderPacket
  rw [hheader, ok_bind]
  exact openPayload_eq hlength hopen

end PacketUnpacker

namespace PacketPacker

variable {p p' : PacketPacker} {header : ExtendedHeader} {payload : Payload}
  {encLevel : EncryptionLevel} {sealer : Sealer} {num : UInt16} {packet : PackedPacket}

theorem Builds.kind (hbuilt : p.Builds encLevel header) (length : Nat) :
    2 ≤ header.packetNumberLen ∧
      (header.withLength length).isLongHeader = decide (encLevel ≠ .oneRTT) ∧
      header.destConnectionID = p.destConnID ∧
      (encLevel ≠ .oneRTT → header.version = p.version ∧ header.keyPhase = .zero) ∧
      (encLevel = .oneRTT → header.srcConnectionID = []) ∧ header.type = encLevel.packetType := by
  by_cases hlevel : encLevel = .oneRTT
  · subst hlevel
    obtain ⟨hlow, -, kp, pn, len, rfl⟩ := hbuilt.short
    exact ⟨hlow, rfl, rfl, by simp, fun _ => rfl, rfl⟩
  · obtain ⟨pn, rfl⟩ := hbuilt.long hlevel
    refine ⟨?_, ?_, rfl, fun _ => ⟨rfl, rfl⟩, fun heq => absurd heq hlevel, rfl⟩
    · change 2 ≤ 4
      decide
    · rw [decide_eq_true hlevel]
      rfl

theorem Sealed.protectedPacket {h : ExtendedHeader} {raw hdr data : List UInt8}
    {paddingLen : Nat} (hsealed : Sealed h payload paddingLen sealer raw hdr data)
    (hv : h.Valid) :
    hdr = h.firstByte :: h.middle ++ h.packetNumberBytes ∧
      hdr.length = h.middle.length + 1 + h.packetNumberLen ∧
      raw = h.protectedPacket sealer (sealer.sealData data h.packetNumber hdr) := by
  have hparts : hdr = h.firstByte :: h.middle ++ h.packetNumberBytes := by
    have hwrite := hsealed.header
    rw [hv.write_parts] at hwrite
    exact (Except.ok.inj hwrite).symm
  have hlen : hdr.length = h.middle.length + 1 + h.packetNumberLen := by
    rw [hparts, List.length_append, h.length_packetNumberBytes]
    rfl
  refine ⟨hparts, hlen, ?_⟩
  rw [hsealed.packet, sealedBytes, hlen, Nat.add_sub_cancel,
    ExtendedHeader.protectedPacket, ← hparts, h.length_packetNumberBytes]

theorem unpack_eq {cs : Openers} {rcvTime : Time} {u : PacketUnpacker} {hdr : Header}
    {extHdr : ExtendedHeader} {raw front data : List UInt8}
    (hheader : u.unpackHeader sealer.headerProtector hdr raw =
      .ok (true, extHdr, front ++ sealer.sealData data extHdr.packetNumber front))
    (hlength : extHdr.getLength = .ok front.length)
    (hcs : cs.Inverts encLevel rcvTime extHdr.keyPhase sealer)
    (htype : hdr.type = encLevel.packetType)
    (hkind : hdr.isLongHeader = decide (encLevel ≠ .oneRTT)) :
    u.unpack cs hdr rcvTime raw = .ok (u.unpacked encLevel (extHdr, data)) := by
  cases encLevel with
  | initial =>
    obtain ⟨opener, hopener, hprotector, -, hopen⟩ := hcs
    rw [← hprotector] at hheader
    have hunpack := PacketUnpacker.unpackLongHeaderPacket_eq hheader hlength
      (hopen data _ front)
    simp only [PacketUnpacker.unpack, htype, EncryptionLevel.packetType,
      Openers.getInitialOpener, hopener, ok_bind, hunpack]
    rfl
  | handshake =>
    obtain ⟨opener, hopener, hprotector, -, hopen⟩ := hcs
    rw [← hprotector] at hheader
    have hunpack := PacketUnpacker.unpackLongHeaderPacket_eq hheader hlength
      (hopen data _ front)
    simp only [PacketUnpacker.unpack, htype, EncryptionLevel.packetType,
      Openers.getHandshakeOpener, hopener, ok_bind, hunpack]
    rfl
  | oneRTT =>
    obtain ⟨opener, hopener, hprotector, -, hopen⟩ := hcs
    rw [← hprotector] at hheader
    have hunpack := PacketUnpacker.unpackShortHeaderPacket_eq hheader hlength
      (hopen data _ front)
    have hshort : hdr.isLongHeader = false := hkind
    simp only [PacketUnpacker.unpack, htype, EncryptionLevel.packetType, hshort,
      Openers.get1RTTOpener, hopener, ok_bind, hunpack]
    rfl

theorem Builds.unpacks (hbuilt : p.Builds encLevel header)
    (hpacked : p.writeAndSealPacket header payload encLevel sealer num = .ok (packet, p'))
    (hversion : encLevel ≠ .oneRTT → isSupportedVersion p.version) {cs : Openers} {rcvTime : Time}
    (hcs : cs.Inverts encLevel rcvTime header.keyPhase sealer) {u : PacketUnpacker}
    (hdecode : decodePacketNumber header.packetNumberLen u.largestRcvdPacketNumber
      (wrapByteCount header.packetNumber % 2 ^ (8 * header.packetNumberLen) : Nat) =
        header.packetNumber) :
    ∃ hdr unpacked, parsePacket packet.raw p.destConnID.length = .ok ⟨hdr, packet.raw, []⟩ ∧
      u.unpack cs hdr rcvTime packet.raw =
        .ok (unpacked, ⟨max u.largestRcvdPacketNumber header.packetNumber⟩) ∧
      unpacked.packetNumber = header.packetNumber ∧ unpacked.encryptionLevel = encLevel ∧
      unpacked.hdr.keyPhase = header.keyPhase ∧
      unpacked.hdr.destConnectionID = header.destConnectionID ∧
      unpacked.hdr.srcConnectionID = header.srcConnectionID ∧
      ∃ ack frames paddingLen, writeAck payload.ack = .ok ack ∧
        payload.frames.mapM Frame.write = .ok frames ∧
        unpacked.data = plaintext ack paddingLen frames := by
  obtain ⟨length, paddingLen, hdr, data, hsealed, hv, hlength, hsize⟩ :=
    hbuilt.sealed hpacked
  obtain ⟨hlen, hkind, hdest, hlong, hshort, htype⟩ := hbuilt.kind length
  obtain ⟨hparts, hhdrLen, hraw⟩ := hsealed.protectedPacket hv
  have hsealedLen := sealer.length_sealData data header.packetNumber hdr
  have hlevel : (header.withLength length).isLongHeader = true → encLevel ≠ .oneRTT := by
    rw [hkind]
    exact of_decide_eq_true
  have honeRTT : (header.withLength length).isLongHeader = false → encLevel = .oneRTT := by
    rw [hkind]
    exact fun hl => not_not.mp (of_decide_eq_false hl)
  have htypeNone : encLevel ≠ .oneRTT → header.type ≠ none := by
    rw [htype]
    cases encLevel <;> simp [EncryptionLevel.packetType]
  obtain ⟨typeByte, hparse, hunpack⟩ := hv.unpacks
    (fun hl => ⟨(hlong (hlevel hl)).1 ▸ hversion (hlevel hl), htypeNone (hlevel hl)⟩)
    (fun _ => congrArg List.length hdest) (hcs.isLongHeader.trans hkind.symm)
    (by rw [hsealedLen, aeadOverhead]; change 20 ≤ header.packetNumberLen + _; omega)
    (fun hl => by rw [hsealedLen, ← Nat.add_assoc]; exact hlength (hlevel hl)) hdecode
  rw [← hparts] at hunpack
  have hphase : ((header.withLength length).extended typeByte
      header.packetNumber).keyPhase = header.keyPhase := by
    change (if (header.withLength length).isLongHeader then KeyPhaseBit.zero
      else header.keyPhase) = header.keyPhase
    split
    · next hl => exact (hlong (hlevel hl)).2.symm
    · rfl
  have htypeParsed : ((header.withLength length).parsed typeByte).type = encLevel.packetType := by
    refine (ExtendedHeader.type_parsed (fun hl => ?_) typeByte).trans htype
    rw [honeRTT hl] at htype
    exact htype
  have hkindParsed := (ExtendedHeader.isLongHeader_parsed (header.withLength length)
    typeByte).trans hkind
  have hresult := unpack_eq hunpack
    (hhdrLen ▸ hv.getLength_extended typeByte header.packetNumber) (hphase ▸ hcs)
    htypeParsed hkindParsed
  have hsrc : ((header.withLength length).parsed typeByte).srcConnectionID =
      header.srcConnectionID :=
    ExtendedHeader.srcConnectionID_parsed (h := header.withLength length)
      (fun hl => hshort (honeRTT hl)) typeByte
  refine ⟨_, _, hraw ▸ hparse, hraw ▸ hresult, rfl, rfl, hphase,
    ExtendedHeader.destConnectionID_parsed _ typeByte, hsrc, ?_⟩
  obtain ⟨ack, frames, hack, hframes, hdata⟩ := hsealed.written
  exact ⟨ack, frames, paddingLen, hack, hframes, hdata⟩

theorem Builds.decodes (hbuilt : p.Builds encLevel header) {largest : PacketNumber}
    (hlargest : 0 ≤ largest) (hpn : 0 ≤ header.packetNumber) (hmax : header.packetNumber < 2 ^ 62)
    (hnear : Near (2 ^ (8 * header.packetNumberLen) : Nat) (largest + 1)
      header.packetNumber) :
    decodePacketNumber header.packetNumberLen largest
      (wrapByteCount header.packetNumber % 2 ^ (8 * header.packetNumberLen) : Nat) =
        header.packetNumber := by
  obtain ⟨hlow, hhigh⟩ : 2 ≤ header.packetNumberLen ∧ header.packetNumberLen ≤ 4 := by
    by_cases hlevel : encLevel = .oneRTT
    · subst hlevel
      exact ⟨hbuilt.short.1, hbuilt.short.2.1⟩
    · obtain ⟨pn, rfl⟩ := hbuilt.long hlevel
      change 2 ≤ 4 ∧ 4 ≤ 4
      decide
  rw [Int.natCast_emod, natCast_wrapByteCount hpn (by unfold maxVarInt8; lia)]
  exact decodePacketNumber_of_near (epochDelta_eq hlow hhigh) (by omega) (by lia) hpn hmax
    hnear

theorem unpack_writeAndSealPacket (hbuilt : p.Builds encLevel header)
    (hpacked : p.writeAndSealPacket header payload encLevel sealer num = .ok (packet, p'))
    (hversion : encLevel ≠ .oneRTT → isSupportedVersion p.version) {cs : Openers} {rcvTime : Time}
    (hcs : cs.Inverts encLevel rcvTime header.keyPhase sealer)
    (hpn : 0 ≤ header.packetNumber) (hmax : header.packetNumber < 2 ^ 62)
    {u : PacketUnpacker} (hlargest : 0 ≤ u.largestRcvdPacketNumber)
    (hnear : Near (2 ^ (8 * header.packetNumberLen) : Nat)
      (u.largestRcvdPacketNumber + 1) header.packetNumber) :
    ∃ hdr unpacked, parsePacket packet.raw p.destConnID.length = .ok ⟨hdr, packet.raw, []⟩ ∧
      u.unpack cs hdr rcvTime packet.raw =
        .ok (unpacked, ⟨max u.largestRcvdPacketNumber header.packetNumber⟩) ∧
      unpacked.packetNumber = header.packetNumber ∧ unpacked.encryptionLevel = encLevel ∧
      unpacked.hdr.keyPhase = header.keyPhase ∧
      unpacked.hdr.destConnectionID = header.destConnectionID ∧
      unpacked.hdr.srcConnectionID = header.srcConnectionID ∧
      ∃ ack frames paddingLen, writeAck payload.ack = .ok ack ∧
        payload.frames.mapM Frame.write = .ok frames ∧
        unpacked.data = plaintext ack paddingLen frames :=
  hbuilt.unpacks hpacked hversion hcs (hbuilt.decodes hlargest hpn hmax hnear)

end PacketPacker

/-! ## Toy keys -/

def numberSealer (isLongHeader : Bool) : Sealer where
  sealData := fun src pn _ => src ++ bigEndian aeadOverhead (wrapByteCount pn)
  length_sealData := by simp [length_bigEndian]
  headerProtector := ⟨fun sample i => sample.getD i 0, isLongHeader⟩

def numberOpen (src : List UInt8) (pn : PacketNumber) : Except AEADError (List UInt8) :=
  if src.drop (src.length - aeadOverhead) = bigEndian aeadOverhead (wrapByteCount pn) then
    .ok (src.take (src.length - aeadOverhead))
  else .error .decryptionFailed

def numberOpeners : Openers where
  initialOpener := some ⟨fun src pn _ => numberOpen src pn,
    (numberSealer true).headerProtector⟩
  handshakeOpener := some ⟨fun src pn _ => numberOpen src pn,
    (numberSealer true).headerProtector⟩
  oneRTTOpener := some ⟨fun src _ pn _ _ => numberOpen src pn,
    (numberSealer false).headerProtector⟩

private theorem numberOpen_seal (src : List UInt8) (pn : PacketNumber) :
    numberOpen (src ++ bigEndian aeadOverhead (wrapByteCount pn)) pn = .ok src := by
  have hlen : (src ++ bigEndian aeadOverhead (wrapByteCount pn)).length - aeadOverhead =
      src.length := by
    rw [List.length_append, length_bigEndian, Nat.add_sub_cancel]
  rw [numberOpen, hlen, List.drop_left, if_pos rfl, List.take_left]

theorem numberOpeners_inverts (encLevel : EncryptionLevel) (rcvTime : Time)
    (keyPhase : KeyPhaseBit) :
    numberOpeners.Inverts encLevel rcvTime keyPhase
      (numberSealer (decide (encLevel ≠ .oneRTT))) := by
  cases encLevel <;> exact ⟨_, rfl, rfl, rfl, fun src pn _ => numberOpen_seal src pn⟩

def numberPacker (initialPacketNumber : PacketNumber) : PacketPacker :=
  newPacketPacker [1, 2, 3, 4] [5] .new .new (.new initialPacketNumber 0 0 0) .new
    .udpIPv4 ⟨.oneRTT, false, none, false, none, none, .zero⟩ (Connection.new 0)
    ⟨some none, some none, none⟩ .server versionTLS

def numberHeader : ExtendedHeader :=
  { packetNumberLen := 2, destConnectionID := [1, 2, 3, 4] }

namespace PacketPacker

theorem unpack_writeAndSealPacket_ping : ∃ packet p' hdr unpacked,
    (numberPacker 0).writeAndSealPacket numberHeader
      { frames := [.control .ping], length := 1 } .oneRTT (numberSealer false) 0 =
        .ok (packet, p') ∧
    parsePacket packet.raw 4 = .ok ⟨hdr, packet.raw, []⟩ ∧
    (⟨7⟩ : PacketUnpacker).unpack numberOpeners hdr 0 packet.raw = .ok (unpacked, ⟨7⟩) ∧
    unpacked.packetNumber = 0 := by
  have hbuilt : (numberPacker 0).Builds .oneRTT numberHeader := ⟨.zero, rfl⟩
  have hlength : ((numberPacker 0).writeAndSealPacket numberHeader
      { frames := [.control .ping], length := 1 } .oneRTT (numberSealer false) 0).map
        (fun r => r.1.raw.length) = .ok 25 := by
    decide +kernel
  obtain ⟨⟨packet, p'⟩, hpacked, -⟩ := map_eq_ok hlength
  obtain ⟨hdr, unpacked, hparse, hunpack, hnumber, -⟩ :=
    unpack_writeAndSealPacket hbuilt hpacked (by simp)
      (numberOpeners_inverts .oneRTT 0 .zero) (by decide) (by decide)
      (u := ⟨7⟩) (by decide) (by unfold Near; decide)
  exact ⟨packet, p', hdr, unpacked, hpacked, hparse, hunpack, hnumber⟩

end PacketPacker

end Qperf.Quic
