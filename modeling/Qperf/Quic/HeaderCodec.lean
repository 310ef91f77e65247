import Qperf.Quic.HeaderParser

/-!
# Headers of every kind

Initial, Handshake, 0-RTT and short headers are parsed in two phases as they were written.
A Retry header ends with its token and has no packet number: it is parsed by `ParsePacket`
alone, and `ParseExtended` finds the end of the packet behind it.
-/

namespace Qperf.Quic

open Qperf.Foundation Qperf.Foundation.Reader

namespace ExtendedHeader

variable {h : ExtendedHeader} {payload : List UInt8}

def IsRetry (h : ExtendedHeader) : Prop :=
  h.isLongHeader = true ∧ h.type = some .retry

instance (h : ExtendedHeader) : Decidable h.IsRetry := inferInstanceAs (Decidable (_ ∧ _))

/--
The header may stand before the payload.  Fields that its kind does not have are arbitrary,
and `memory` bounds the slices.
-/
structure Announces (h : ExtendedHeader) (payload : List UInt8) : Prop where
  destConnectionID : h.destConnectionID.length ≤ maxConnIDLen
  srcConnectionID : h.srcConnectionID.length ≤ maxConnIDLen
  origDestConnectionID : h.origDestConnectionID.length ≤ maxConnIDLen
  long : h.isLongHeader = true → isSupportedVersion h.version = true ∧ h.type ≠ none
  packetNumberLen : ¬ h.IsRetry → 1 ≤ h.packetNumberLen ∧ h.packetNumberLen ≤ 4
  length : h.isLongHeader = true → ¬ h.IsRetry →
    h.length = h.packetNumberLen + payload.length
  retry : h.IsRetry → payload = []
  memory : h.token.length ≤ maxVarInt8 ∧ h.packetNumberLen + payload.length ≤ maxVarInt8

/-- The parsed header has the fields of `h` that a header of its kind has. -/
structure Restores (h extHdr : ExtendedHeader) : Prop where
  isLongHeader : extHdr.isLongHeader = h.isLongHeader
  destConnectionID : extHdr.destConnectionID = h.destConnectionID
  long : h.isLongHeader = true → extHdr.type = h.type ∧ extHdr.version = h.version ∧
    extHdr.srcConnectionID = h.srcConnectionID ∧ extHdr.length = h.length ∧
    (h.type = some .initial → extHdr.token = h.token)
  short : h.isLongHeader = false → extHdr.keyPhase = h.keyPhase
  packetNumberLen : extHdr.packetNumberLen = h.packetNumberLen
  packetNumber : extHdr.packetNumber =
    h.packetNumber % (2 ^ (8 * h.packetNumberLen) : Nat)

structure RestoresRetry (h : ExtendedHeader) (hdr : Header) : Prop where
  isLongHeader : hdr.isLongHeader = true
  type : hdr.type = some .retry
  version : hdr.version = h.version
  destConnectionID : hdr.destConnectionID = h.destConnectionID
  srcConnectionID : hdr.srcConnectionID = h.srcConnectionID
  origDestConnectionID : hdr.origDestConnectionID = h.origDestConnectionID
  token : hdr.token = h.token

/-! ## Headers with a packet number -/

def core (h : ExtendedHeader) : ExtendedHeader :=
  if h.isLongHeader then h else { h with length := 0, type := none }

private theorem isLongHeader_core (h : ExtendedHeader) : h.core.isLongHeader = h.isLongHeader := by
  unfold core
  split <;> rfl

private theorem write_core (h : ExtendedHeader) : h.core.write = h.write := by
  unfold core
  cases hlong : h.isLongHeader with
  | true => rfl
  | false =>
    simp only [write, hlong, Bool.false_eq_true, if_false]
    rfl

private theorem getLength_core (h : ExtendedHeader) : h.core.getLength = h.getLength := by
  unfold core
  cases hlong : h.isLongHeader with
  | true => rfl
  | false => simp only [getLength, hlong, Bool.false_eq_true, if_false]

theorem Announces.valid_core (ha : h.Announces payload) (hretry : ¬ h.IsRetry) :
    h.core.Valid := by
  have hnumber := ha.packetNumberLen hretry
  obtain ⟨htoken, hpayload⟩ := ha.memory
  unfold core
  split
  · next hlong =>
    refine ⟨ha.destConnectionID, ha.srcConnectionID, ha.origDestConnectionID, ?_, htoken,
      hnumber, fun htype => hretry ⟨hlong, htype⟩⟩
    rw [ha.length hlong hretry]
    exact hpayload
  · exact ⟨ha.destConnectionID, ha.srcConnectionID, ha.origDestConnectionID,
      Nat.zero_le _, htoken, hnumber, nofun⟩

private theorem core_of_long (hlong : h.isLongHeader = true) : h.core = h := if_pos hlong

private theorem natCast_wrapByteCount_mod (n : Int) {len : Nat} (hlen : len ≤ 4) :
    ((wrapByteCount n % 2 ^ (8 * len) : Nat) : Int) = n % (2 ^ (8 * len) : Nat) := by
  have hdvd : ((2 ^ (8 * len) : Nat) : Int) ∣ 2 ^ 64 :=
    Int.natCast_dvd_natCast.mpr (Nat.pow_dvd_pow 2 (by omega : 8 * len ≤ 64))
  rw [wrapByteCount, Int.natCast_emod,
    Int.toNat_of_nonneg (Int.emod_nonneg _ (by decide)), Int.emod_emod_of_dvd _ hdvd]

theorem restores_core (hlen : h.packetNumberLen ≤ 4) (typeByte : UInt8) :
    h.Restores (h.core.extended typeByte
      (wrapByteCount h.core.packetNumber % 2 ^ (8 * h.core.packetNumberLen) : Nat)) := by
  have hnumber := natCast_wrapByteCount_mod h.packetNumber hlen
  unfold core
  cases hlong : h.isLongHeader with
  | true =>
    refine ⟨?_, ?_, fun _ => ?_, fun hshort => ?_, rfl, hnumber⟩
    · exact isLongHeader_parsed h typeByte
    · exact destConnectionID_parsed h typeByte
    · simp +contextual [extended, parsed, Header.withParsedLen, hlong]
    · rw [hlong] at hshort
      cases hshort
  | false =>
    refine ⟨?_, ?_, fun hcontra => ?_, fun _ => ?_, rfl, hnumber⟩
    · exact (isLongHeader_parsed _ typeByte).trans hlong.symm
    · exact destConnectionID_parsed _ typeByte
    · rw [hlong] at hcontra
      cases hcontra
    · simp [extended]

theorem Announces.parses (ha : h.Announces payload) (hretry : ¬ h.IsRetry) :
    ∃ bytes packet extHdr, h.write = .ok bytes ∧ h.getLength = .ok bytes.length ∧
      parsePacket (bytes ++ payload) h.destConnectionID.length = .ok packet ∧
      packet.data = bytes ++ payload ∧ packet.rest = [] ∧
      packet.hdr.parseExtended packet.data = .ok ((true, extHdr), payload) ∧
      h.Restores extHdr := by
  have hv := ha.valid_core hretry
  have hlong : h.core.isLongHeader = true →
      isSupportedVersion h.core.version ∧ h.core.type ≠ none := by
    intro hlong
    rw [isLongHeader_core] at hlong
    rw [core_of_long hlong]
    exact ha.long hlong
  have hshort : h.core.isLongHeader = false →
      h.core.destConnectionID.length = h.destConnectionID.length := by
    intro _
    unfold core
    split <;> rfl
  have hlength : h.core.isLongHeader = true →
      h.core.length = (h.core.packetNumberBytes ++ payload).length := by
    intro hlong
    rw [isLongHeader_core] at hlong
    rw [core_of_long hlong, List.length_append, packetNumberBytes, length_bigEndian]
    exact ha.length hlong hretry
  obtain ⟨bytes, hbytes, hwire⟩ := hv.write
  have hparts := hv.write_parts
  rw [hbytes] at hparts
  cases hparts
  have hparse := hv.parses hlong hshort 0 (h.core.packetNumberBytes ++ payload) hlength
  rw [UInt8.zero_and, UInt8.xor_zero, ← List.append_assoc] at hparse
  have hextended := hv.parsesExtended (fun hl => (hlong hl).2) h.core.firstByte payload
  refine ⟨_, _, _, h.write_core ▸ hbytes, ?_, hparse, rfl, rfl, hextended, ?_⟩
  · rw [← getLength_core, getLength_of_le hv.length hv.token, hwire]
  · exact restores_core (ha.packetNumberLen hretry).2 _

/-! ## Retry -/

def retryTail (h : ExtendedHeader) : List UInt8 :=
  writeUint32 h.version ++
    UInt8.ofNat h.destConnectionID.length :: h.destConnectionID ++
    UInt8.ofNat h.srcConnectionID.length :: h.srcConnectionID ++
    (UInt8.ofNat h.origDestConnectionID.length :: h.origDestConnectionID ++ h.token)

theorem Announces.write_retry (ha : h.Announces payload) (hretry : h.IsRetry) :
    h.write = .ok (0xf0 :: h.retryTail) := by
  obtain ⟨hlong, htype⟩ := hretry
  unfold write writeLongHeader
  rw [if_neg (Nat.not_lt.mpr ha.destConnectionID),
    if_neg (Nat.not_lt.mpr ha.srcConnectionID),
    if_neg (Nat.not_lt.mpr ha.origDestConnectionID), if_pos hlong, if_pos htype]
  have hbyte : h.longFirstByte = 0xf0 := by
    rw [longFirstByte, if_pos htype, htype]
    rfl
  simp [invariantPart, hbyte, retryTail]

theorem parseRetry_eq (hdr : Header) {origDestConnID : ConnectionID}
    (horig : origDestConnID.length ≤ maxConnIDLen) (token : List UInt8) :
    hdr.parseRetry (UInt8.ofNat origDestConnID.length :: origDestConnID ++ token) =
      .ok ({ hdr with origDestConnectionID := origDestConnID, token }, []) := by
  unfold Header.parseRetry
  rw [List.cons_append, readByte_bind,
    (reads_readConnectionID_length horig).bind_eq, remaining_bind]
  have htoken := reads_readFull ParseError.eof .unexpectedEOF token
  have hread := htoken.bind_eq (fun token => (pure
    { hdr with origDestConnectionID := origDestConnID, token } : FrameReader Header)) []
  rw [List.append_nil] at hread
  exact hread

def parsedRetry (h : ExtendedHeader) (parsedLen : Nat) : Header where
  isLongHeader := true
  typeByte := 0xf0
  type := some .retry
  version := h.version
  srcConnectionID := h.srcConnectionID
  destConnectionID := h.destConnectionID
  token := h.token
  origDestConnectionID := h.origDestConnectionID
  parsedLen := parsedLen

theorem Announces.parseLongHeader_retry (ha : h.Announces payload) (hretry : h.IsRetry) :
    Header.parseLongHeader { typeByte := 0xf0, isLongHeader := true } h.retryTail =
      .ok ((true, h.parsedRetry 0), []) := by
  have hversion := (ha.long hretry.1).1
  have htls : h.version = versionTLS := by
    simpa [isSupportedVersion, supportedVersions] using hversion
  have hread : Reads readUint32 (writeUint32 h.version) h.version := by
    have hread := reads_readUint32 h.version
    rwa [Nat.mod_eq_of_lt (by rw [htls]; decide)] at hread
  have hparse : Header.parseTypeDependent
      { isLongHeader := true
        typeByte := 0xf0
        type := some (.ofTypeByte 0xf0)
        version := h.version
        srcConnectionID := h.srcConnectionID
        destConnectionID := h.destConnectionID }
      (UInt8.ofNat h.origDestConnectionID.length :: h.origDestConnectionID ++ h.token) =
        .ok (h.parsedRetry 0, []) := by
    exact parseRetry_eq _ ha.origDestConnectionID h.token
  unfold Header.parseLongHeader retryTail
  rw [List.append_assoc, List.append_assoc, hread.bind_eq,
    if_neg (by rintro ⟨-, hbad⟩; exact absurd hbad (by decide)), List.cons_append,
    readByte_bind, (reads_readConnectionID_length ha.destConnectionID).bind_eq,
    List.cons_append, readByte_bind,
    (reads_readConnectionID_length ha.srcConnectionID).bind_eq,
    if_neg (by rw [htls]; decide), if_neg (by simp [hversion])]
  exact bind_of_ok hparse _

private theorem parseHeaderImpl_long {typeByte : UInt8} (hlong : typeByte &&& 0x80 > 0)
    (connIDLen : Nat) (bytes : List UInt8) :
    Header.parseHeaderImpl connIDLen (typeByte :: bytes) =
      Header.parseLongHeader { typeByte, isLongHeader := true } bytes := by
  unfold Header.parseHeaderImpl
  rw [readByte_bind, decide_eq_true hlong, if_pos rfl]

theorem Announces.parses_retry (ha : h.Announces payload) (hretry : h.IsRetry) :
    ∃ bytes packet, h.write = .ok bytes ∧
      parsePacket bytes h.destConnectionID.length = .ok packet ∧
      packet.data = bytes ∧ packet.rest = [] ∧ h.RestoresRetry packet.hdr ∧
      packet.hdr.parseExtended packet.data = .error .eof := by
  have hparse : Header.parseHeader h.destConnectionID.length (0xf0 :: h.retryTail) =
      .ok ((true, h.parsedRetry (h.retryTail.length + 1)), []) := by
    unfold Header.parseHeader
    rw [remaining_bind, bind_of_ok ((parseHeaderImpl_long (by decide) _ _).trans
      (ha.parseLongHeader_retry hretry))]
    rfl
  refine ⟨_, _, ha.write_retry hretry, parsePacket_eq hparse fun _ => rfl, rfl, rfl,
    ⟨rfl, rfl, rfl, rfl, rfl, rfl, rfl⟩, ?_⟩
  unfold Header.parseExtended
  rw [readByte_bind, skip_bind, parsedRetry, Nat.add_sub_cancel, List.drop_length]
  rfl

/--
A header is parsed as it was written; of a Retry only what `ParsePacket` parses, since it
has no packet number.
-/
theorem parses_written (ha : h.Announces payload) :
    (¬ h.IsRetry → ∃ bytes packet extHdr, h.write = .ok bytes ∧ h.getLength = .ok bytes.length ∧
      parsePacket (bytes ++ payload) h.destConnectionID.length = .ok packet ∧
      packet.data = bytes ++ payload ∧ packet.rest = [] ∧
      packet.hdr.parseExtended packet.data = .ok ((true, extHdr), payload) ∧
      h.Restores extHdr) ∧
    (h.IsRetry → ∃ bytes packet, h.write = .ok bytes ∧
      parsePacket bytes h.destConnectionID.length = .ok packet ∧
      packet.data = bytes ∧ packet.rest = [] ∧ h.RestoresRetry packet.hdr ∧
      packet.hdr.parseExtended packet.data = .error .eof) :=
  ⟨ha.parses, ha.parses_retry⟩

def sampleInitial : ExtendedHeader where
  isLongHeader := true
  type := some .initial
  version := versionTLS
  destConnectionID := [1, 2, 3, 4]
  srcConnectionID := [5]
  token := [6, 7]
  length := 3
  packetNumberLen := 1
  packetNumber := 1000

theorem parses_written_initial :
    sampleInitial.Announces [8, 9] ∧ ∃ bytes packet extHdr, sampleInitial.write = .ok bytes ∧
      parsePacket (bytes ++ [8, 9]) 4 = .ok packet ∧
      packet.hdr.parseExtended packet.data = .ok ((true, extHdr), [8, 9]) ∧
      extHdr.token = [6, 7] ∧ extHdr.packetNumber = 232 := by
  have ha : sampleInitial.Announces [8, 9] :=
    ⟨by decide, by decide, by decide, by decide, by decide, by decide, by decide,
      by decide⟩
  obtain ⟨bytes, packet, extHdr, hwrite, -, hparse, -, -, hextended, hrestores⟩ :=
    (parses_written ha).1 (by decide)
  exact ⟨ha, bytes, packet, extHdr, hwrite, hparse, hextended,
    (hrestores.long rfl).2.2.2.2 rfl, hrestores.packetNumber⟩

def sampleRetry : ExtendedHeader where
  isLongHeader := true
  type := some .retry
  version := versionTLS
  destConnectionID := [1, 2, 3, 4]
  srcConnectionID := [5]
  origDestConnectionID := [6]
  token := [7]
  packetNumberLen := 1

theorem parseExtended_retry : sampleRetry.Announces [] ∧
      (sampleRetry.write.toOption.map fun bytes =>
        (parsePacket bytes 4).map fun packet =>
          packet.hdr.parseExtended packet.data) = some (.ok (.error .eof)) :=
  ⟨⟨by decide, by decide, by decide, by decide, by decide, by decide, by decide,
    by decide⟩, by decide +kernel⟩

end ExtendedHeader

end Qperf.Quic
