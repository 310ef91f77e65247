import Qperf.Quic.HeaderParser

/-!
# What a parsed header takes of its packet

`ParsePacket` accepts bytes from anyone.  The bytes of a header that it accepted are those
of its fields, one after the other; a number may be encoded in more bytes than it needs.
-/

namespace Qperf.Quic

open Qperf.Foundation Qperf.Foundation.Reader

variable {bytes rest : List UInt8} {n : Nat}

/-! ## Fields -/

theorem readConnectionID_eq_ok {connID : List UInt8}
    (h : readConnectionID n bytes = .ok (connID, rest)) :
    bytes = connID ++ rest ∧ connID.length = n := by
  unfold readConnectionID at h
  split at h
  · cases h
  · exact readFull_eq_ok h

private theorem readCounted_eq_ok {read : List UInt8} (h : readCounted n bytes = .ok (read, rest)) :
    bytes = read ++ rest ∧ read.length = n := by
  unfold readCounted at h
  rw [remaining_bind] at h
  split at h
  · cases h
  · exact readFull_eq_ok h

theorem readUint32_eq_ok {value : Nat} (h : readUint32 bytes = .ok (value, rest)) :
    ∃ front, bytes = front ++ rest ∧ front.length = 4 := by
  obtain ⟨b4, mid, h4, h⟩ := bind_run_eq_ok.mp h
  obtain ⟨b3, mid, h3, h⟩ := bind_run_eq_ok.mp h
  obtain ⟨b2, mid, h2, h⟩ := bind_run_eq_ok.mp h
  obtain ⟨b1, mid, h1, h⟩ := bind_run_eq_ok.mp h
  obtain ⟨-, rfl⟩ := pure_run_eq_ok h
  rw [readByte_eq_ok h4, readByte_eq_ok h3, readByte_eq_ok h2, readByte_eq_ok h1]
  exact ⟨[b4, b3, b2, b1], rfl, rfl⟩

private theorem readVersions_eq_ok {versions : List Nat}
    (h : Header.readVersions n bytes = .ok (versions, rest)) :
    bytes.length = 4 * n + rest.length := by
  induction n generalizing bytes versions with
  | zero =>
    cases h
    omega
  | succ n ih =>
    obtain ⟨v, mid, hv, h⟩ := bind_run_eq_ok.mp h
    obtain ⟨versions, mid', hversions, h⟩ := bind_run_eq_ok.mp h
    cases h
    obtain ⟨front, rfl, hfront⟩ := readUint32_eq_ok hv
    have hrest := ih hversions
    rw [List.length_append]
    omega

/-- A number and the bytes that encode it, which may be more than it needs. -/
structure EncodesVarInt (bytes : List UInt8) (value : Nat) : Prop where
  reads : Reads readVarInt bytes value
  size : varIntSize value ≤ bytes.length
  value_le : value ≤ maxVarInt8

theorem firstByte_cases (firstByte : UInt8) :
    (1 <<< ((firstByte &&& 0xc0) >>> 6).toNat = 1 ∨ 1 <<< ((firstByte &&& 0xc0) >>> 6).toNat = 2 ∨
      1 <<< ((firstByte &&& 0xc0) >>> 6).toNat = 4 ∨
      1 <<< ((firstByte &&& 0xc0) >>> 6).toNat = 8) ∧
    (firstByte &&& (0xff - 0xc0)).toNat < 64 := by
  have hlow : (firstByte &&& (0xff - 0xc0)).toNat ≤ 63 := by
    exact Nat.and_le_right
  have hhigh : ((firstByte &&& 0xc0) >>> 6).toNat ≤ 3 := by
    rw [UInt8.toNat_shiftRight, UInt8.toNat_and, Nat.shiftRight_eq_div_pow]
    exact (Nat.div_le_div_right Nat.and_le_right).trans (by decide)
  refine ⟨?_, by omega⟩
  generalize ((firstByte &&& 0xc0) >>> 6).toNat = k at *
  rcases (by omega : k = 0 ∨ k = 1 ∨ k = 2 ∨ k = 3) with rfl | rfl | rfl | rfl <;> decide

theorem readVarInt_eq_ok {value : Nat} (h : readVarInt bytes = .ok (value, rest)) :
    ∃ front, bytes = front ++ rest ∧ EncodesVarInt front value := by
  obtain ⟨firstByte, mid, hfirst, h⟩ := bind_run_eq_ok.mp h
  obtain rfl := readByte_eq_ok hfirst
  obtain ⟨hlen, hlow⟩ := firstByte_cases firstByte
  generalize hb : (firstByte &&& (0xff - 0xc0)).toNat = b1 at *
  have hbyte : ∀ b : UInt8, b.toNat < 256 := fun b => b.toNat_lt
  rcases hlen with hlen | hlen | hlen | hlen
  · simp only [hlen, if_true] at h
    obtain ⟨rfl, rfl⟩ := pure_run_eq_ok h
    refine ⟨[firstByte], rfl, ?_, ?_, ?_⟩
    · apply Reads.cons
      simp only [hlen, hb, if_true]
      exact reads_pure b1
    · exact (varIntSize_of_le (by omega)).le
    · unfold maxVarInt8
      omega
  · simp only [hlen] at h
    obtain ⟨b2, mid, h2, h⟩ := bind_run_eq_ok.mp h
    obtain rfl := readByte_eq_ok h2
    obtain ⟨rfl, rfl⟩ := pure_run_eq_ok h
    have hvalue : b2.toNat + b1 <<< 8 ≤ maxVarInt2 := by
      have h2 := hbyte b2
      unfold maxVarInt2
      omega
    refine ⟨[firstByte, b2], rfl, ?_, varIntSize_mono hvalue, hvalue.trans (by decide)⟩
    apply Reads.cons
    simp only [hlen, hb]
    apply Reads.cons
    exact reads_pure _
  · simp only [hlen] at h
    obtain ⟨b2, mid, h2, h⟩ := bind_run_eq_ok.mp h
    obtain ⟨b3, mid, h3, h⟩ := bind_run_eq_ok.mp h
    obtain ⟨b4, mid, h4, h⟩ := bind_run_eq_ok.mp h
    rw [readByte_eq_ok h2, readByte_eq_ok h3, readByte_eq_ok h4]
    obtain ⟨rfl, rfl⟩ := pure_run_eq_ok h
    have hvalue : b4.toNat + b3.toNat <<< 8 + b2.toNat <<< 16 + b1 <<< 24 ≤ maxVarInt4 := by
      have h2 := hbyte b2
      have h3 := hbyte b3
      have h4 := hbyte b4
      unfold maxVarInt4
      omega
    refine ⟨[firstByte, b2, b3, b4], rfl, ?_, varIntSize_mono hvalue,
      hvalue.trans (by decide)⟩
    apply Reads.cons
    simp only [hlen, hb]
    iterate 3 apply Reads.cons
    exact reads_pure _
  · simp only [hlen] at h
    obtain ⟨b2, mid, h2, h⟩ := bind_run_eq_ok.mp h
    obtain ⟨b3, mid, h3, h⟩ := bind_run_eq_ok.mp h
    obtain ⟨b4, mid, h4, h⟩ := bind_run_eq_ok.mp h
    obtain ⟨b5, mid, h5, h⟩ := bind_run_eq_ok.mp h
    obtain ⟨b6, mid, h6, h⟩ := bind_run_eq_ok.mp h
    obtain ⟨b7, mid, h7, h⟩ := bind_run_eq_ok.mp h
    obtain ⟨b8, mid, h8, h⟩ := bind_run_eq_ok.mp h
    rw [readByte_eq_ok h2, readByte_eq_ok h3, readByte_eq_ok h4, readByte_eq_ok h5,
      readByte_eq_ok h6, readByte_eq_ok h7, readByte_eq_ok h8]
    obtain ⟨rfl, rfl⟩ := pure_run_eq_ok h
    refine ⟨[firstByte, b2, b3, b4, b5, b6, b7, b8], rfl, ?_, varIntSize_le _, ?_⟩
    · apply Reads.cons
      simp only [hlen, hb]
      iterate 7 apply Reads.cons
      exact reads_pure _
    · have h2 := hbyte b2
      have h3 := hbyte b3
      have h4 := hbyte b4
      have h5 := hbyte b5
      have h6 := hbyte b6
      have h7 := hbyte b7
      have h8 := hbyte b8
      unfold maxVarInt8
      omega

/--
A number is read as it was written, whatever follows.  Every number that is read can be
written again, in at most as many bytes.
-/
theorem varInt_codec : (∀ (i : Nat) (suffix : List UInt8), i < 2 ^ 62 →
      ∃ written, writeVarInt i = .ok written ∧ varIntLen i = .ok written.length ∧
        readVarInt (written ++ suffix) = .ok (i, suffix)) ∧
    ∀ (bytes suffix : List UInt8) (i : Nat), readVarInt bytes = .ok (i, suffix) →
      i < 2 ^ 62 ∧ ∃ consumed written, bytes = consumed ++ suffix ∧
        writeVarInt i = .ok written ∧ varIntLen i = .ok written.length ∧
        written.length ≤ consumed.length := by
  have hmax : maxVarInt8 + 1 = 2 ^ 62 := by decide
  have hwrite : ∀ i ≤ maxVarInt8, ∃ written, writeVarInt i = .ok written ∧
      varIntLen i = .ok written.length ∧ written.length = varIntSize i := by
    intro i hi
    obtain ⟨written, hwritten, hlen⟩ := writeVarInt_of_le hi
    exact ⟨written, hwritten, hlen ▸ varIntLen_of_le hi, hlen⟩
  constructor
  · intro i suffix hi
    obtain ⟨written, hwritten, hlen, -⟩ := hwrite i (by omega)
    exact ⟨written, hwritten, hlen, reads_readVarInt hwritten suffix⟩
  · intro bytes suffix i hread
    obtain ⟨consumed, hbytes, hencodes⟩ := readVarInt_eq_ok hread
    obtain ⟨written, hwritten, hlen, hsize⟩ := hwrite i hencodes.value_le
    have hle := hencodes.value_le
    exact ⟨by omega, consumed, written, hbytes, hwritten, hlen, hsize ▸ hencodes.size⟩

theorem varInt_codec_padded : readVarInt [0x40, 0x25, 0x99] = .ok (37, [0x99]) ∧
      ∃ consumed written : List UInt8, [0x40, 0x25, 0x99] = consumed ++ [0x99] ∧
        writeVarInt 37 = .ok written ∧ varIntLen 37 = .ok written.length ∧
        written.length ≤ consumed.length := by
  have hread : readVarInt [0x40, 0x25, 0x99] = .ok (37, [0x99]) := by
    decide
  exact ⟨hread, (varInt_codec.2 _ _ _ hread).2⟩

/-! ## Headers -/

/--
What stands behind the connection IDs of a long header, and what is left behind the header.
The flag says whether we understand the version.
-/
inductive LongTail (hdr : Header) : Bool → List UInt8 → List UInt8 → Prop where
  | unsupported {rest : List UInt8} (hversion : hdr.version ≠ 0)
      (hsupported : isSupportedVersion hdr.version = false) (htype : hdr.type = none) :
      LongTail hdr false [] rest
  | versionNegotiation {tail : List UInt8} (hversion : hdr.version = 0)
      (htype : hdr.type = none) (hlength : hdr.length = 0) (hsize : 4 ≤ tail.length) :
      LongTail hdr true tail []
  | retry {origLen : UInt8} (hsupported : isSupportedVersion hdr.version = true)
      (htype : hdr.type = some .retry) (hlength : hdr.length = 0) :
      LongTail hdr true (origLen :: hdr.origDestConnectionID ++ hdr.token) []
  | initial {tokenLen length rest : List UInt8}
      (hsupported : isSupportedVersion hdr.version = true)
      (htype : hdr.type = some .initial)
      (htoken : EncodesVarInt tokenLen hdr.token.length)
      (hlength : EncodesVarInt length hdr.length) :
      LongTail hdr true (tokenLen ++ hdr.token ++ length) rest
  | numbered {length rest : List UInt8}
      (hsupported : isSupportedVersion hdr.version = true)
      (htype : hdr.type = some .handshake ∨ hdr.type = some .zeroRTT)
      (hlength : EncodesVarInt length hdr.length) : LongTail hdr true length rest

inductive ParsedAs (connIDLen : Nat) (hdr : Header) :
    Bool → List UInt8 → List UInt8 → Prop where
  | short {typeByte : UInt8} {rest : List UInt8} (hlong : hdr.isLongHeader = false)
      (htype : hdr.type = none) (hbit : ¬ typeByte &&& 0x80 > 0)
      (hdest : hdr.destConnectionID.length = connIDLen) :
      ParsedAs connIDLen hdr true (typeByte :: hdr.destConnectionID ++ rest) rest
  | long {understood : Bool} {typeByte destLen srcLen : UInt8}
      {version tail rest : List UInt8} (hlong : hdr.isLongHeader = true)
      (hbit : typeByte &&& 0x80 > 0) (hversion : version.length = 4)
      (hdest : hdr.destConnectionID.length = destLen.toNat)
      (htail : LongTail hdr understood tail rest) :
      ParsedAs connIDLen hdr understood
        (typeByte :: version ++ destLen :: hdr.destConnectionID ++
          srcLen :: hdr.srcConnectionID ++ tail ++ rest) rest

variable {connIDLen : Nat} {hdr : Header} {understood : Bool}

theorem parseVersionNegotiationPacket_eq_ok {h : Header}
    (hparse : h.parseVersionNegotiationPacket bytes = .ok (hdr, rest)) :
    (∃ supportedVersions, hdr = { h with supportedVersions }) ∧ rest = [] ∧
      4 ≤ bytes.length := by
  unfold Header.parseVersionNegotiationPacket at hparse
  rw [remaining_bind] at hparse
  split at hparse
  · cases hparse
  next hne =>
  split at hparse
  · cases hparse
  next hdvd =>
  obtain ⟨versions, mid, hversions, hparse⟩ := bind_run_eq_ok.mp hparse
  obtain ⟨rfl, rfl⟩ := pure_run_eq_ok hparse
  have hlen := readVersions_eq_ok hversions
  exact ⟨⟨versions, rfl⟩, List.eq_nil_of_length_eq_zero (by omega), by omega⟩

theorem parseRetry_eq_ok {h : Header} (hparse : h.parseRetry bytes = .ok (hdr, rest)) :
    ∃ origLen : UInt8, bytes = origLen :: hdr.origDestConnectionID ++ hdr.token ∧
      rest = [] ∧ ∃ origDestConnectionID token,
        hdr = { h with origDestConnectionID, token } := by
  obtain ⟨origLen, mid, hbyte, hbody⟩ := bind_run_eq_ok.mp hparse
  obtain ⟨origDestConnectionID, mid', horig, hbody⟩ := bind_run_eq_ok.mp hbody
  rw [remaining_bind] at hbody
  obtain ⟨token, rest', htoken, hbody⟩ := bind_run_eq_ok.mp hbody
  obtain ⟨rfl, rfl⟩ := pure_run_eq_ok hbody
  obtain ⟨rfl, hlen⟩ := readFull_eq_ok htoken
  obtain ⟨rfl, -⟩ := readConnectionID_eq_ok horig
  obtain rfl := readByte_eq_ok hbyte
  have hrest : rest' = [] := by
    rw [List.length_append] at hlen
    exact List.eq_nil_of_length_eq_zero (by omega)
  rw [hrest, List.append_nil]
  exact ⟨origLen, rfl, rfl, origDestConnectionID, token, rfl⟩

theorem parseTypeDependent_eq_ok {h : Header} {type : PacketType}
    (hparse : h.parseTypeDependent bytes = .ok (hdr, rest)) (htype : h.type = some type)
    (hsupported : isSupportedVersion h.version = true) (hlength : h.length = 0) :
    (∃ token length origDestConnectionID,
      hdr = { h with token, length, origDestConnectionID }) ∧
    ∃ tail, bytes = tail ++ rest ∧ LongTail hdr true tail rest := by
  unfold Header.parseTypeDependent at hparse
  split at hparse
  · next hretry =>
    obtain ⟨origLen, rfl, rfl, origDestConnectionID, token, rfl⟩ := parseRetry_eq_ok hparse
    exact ⟨⟨token, h.length, origDestConnectionID, rfl⟩, _, (List.append_nil _).symm,
      .retry hsupported hretry hlength⟩
  · next hretry =>
    obtain ⟨token, mid, htoken, hparse⟩ := bind_run_eq_ok.mp hparse
    obtain ⟨length, mid', hlen, hparse⟩ := bind_run_eq_ok.mp hparse
    obtain ⟨rfl, rfl⟩ := pure_run_eq_ok hparse
    refine ⟨⟨token, length, h.origDestConnectionID, rfl⟩, ?_⟩
    obtain ⟨lengthBytes, rfl, hlengthBytes⟩ := readVarInt_eq_ok hlen
    unfold Header.readToken at htoken
    split at htoken
    · next hinitial =>
      obtain ⟨tokenLen, mid, hcount, htoken⟩ := bind_run_eq_ok.mp htoken
      obtain ⟨rfl, htokenLen⟩ := readCounted_eq_ok htoken
      obtain ⟨tokenBytes, rfl, htokenBytes⟩ := readVarInt_eq_ok hcount
      rw [← htokenLen] at htokenBytes
      refine ⟨tokenBytes ++ token ++ lengthBytes, ?_,
        .initial hsupported hinitial htokenBytes hlengthBytes⟩
      simp only [List.append_assoc]
    · next hinitial =>
      obtain ⟨rfl, rfl⟩ := pure_run_eq_ok htoken
      refine ⟨lengthBytes, rfl, .numbered hsupported ?_ hlengthBytes⟩
      rw [htype] at hretry hinitial ⊢
      cases type with
      | initial => exact absurd rfl hinitial
      | retry => exact absurd rfl hretry
      | handshake => exact .inl rfl
      | zeroRTT => exact .inr rfl

theorem parseLongHeader_eq_ok {h : Header} (htype : h.type = none) (hlength : h.length = 0)
    (hparse : h.parseLongHeader bytes = .ok ((understood, hdr), rest)) :
    hdr.isLongHeader = h.isLongHeader ∧
    ∃ (version tail : List UInt8) (destLen srcLen : UInt8),
      bytes = version ++ destLen :: hdr.destConnectionID ++
        srcLen :: hdr.srcConnectionID ++ tail ++ rest ∧
      version.length = 4 ∧ hdr.destConnectionID.length = destLen.toNat ∧
      LongTail hdr understood tail rest := by
  obtain ⟨version, mid, hversion, hbody⟩ := bind_run_eq_ok.mp hparse
  obtain ⟨versionBytes, rfl, hsize⟩ := readUint32_eq_ok hversion
  split at hbody
  · cases hbody
  obtain ⟨destLen, mid, hdestLen, hbody⟩ := bind_run_eq_ok.mp hbody
  obtain ⟨dest, mid', hdest, hbody⟩ := bind_run_eq_ok.mp hbody
  obtain ⟨srcLen, mid'', hsrcLen, hbody⟩ := bind_run_eq_ok.mp hbody
  obtain ⟨src, tail, hsrc, hlast⟩ := bind_run_eq_ok.mp hbody
  obtain rfl := readByte_eq_ok hdestLen
  obtain ⟨rfl, hdestSize⟩ := readConnectionID_eq_ok hdest
  obtain rfl := readByte_eq_ok hsrcLen
  obtain ⟨rfl, -⟩ := readConnectionID_eq_ok hsrc
  split at hlast
  · next hzero =>
    obtain ⟨hdr', mid, hvn, hend⟩ := bind_run_eq_ok.mp hlast
    obtain ⟨hok, rfl⟩ := pure_run_eq_ok hend
    cases hok
    obtain ⟨⟨versions, rfl⟩, rfl, hfour⟩ := parseVersionNegotiationPacket_eq_ok hvn
    refine ⟨rfl, versionBytes, tail, destLen, srcLen, ?_, hsize, hdestSize,
      .versionNegotiation hzero htype hlength hfour⟩
    simp
  next hzero =>
  split at hlast
  · next hsupported =>
    obtain ⟨hok, rfl⟩ := pure_run_eq_ok hlast
    cases hok
    refine ⟨rfl, versionBytes, [], destLen, srcLen, ?_, hsize, hdestSize,
      .unsupported hzero (Bool.eq_false_iff.mpr hsupported) htype⟩
    simp
  · next hsupported =>
    obtain ⟨hdr', mid, hdependent, hend⟩ := bind_run_eq_ok.mp hlast
    obtain ⟨hok, rfl⟩ := pure_run_eq_ok hend
    cases hok
    obtain ⟨⟨token, length, orig, rfl⟩, parsed, rfl, htail⟩ :=
      parseTypeDependent_eq_ok hdependent rfl (not_not.mp hsupported) hlength
    refine ⟨rfl, versionBytes, parsed, destLen, srcLen, ?_, hsize, hdestSize, htail⟩
    simp

theorem parseHeaderImpl_eq_ok
    (hparse : Header.parseHeaderImpl connIDLen bytes = .ok ((understood, hdr), rest)) :
    ParsedAs connIDLen hdr understood bytes rest := by
  obtain ⟨typeByte, mid, htypeByte, hbody⟩ := bind_run_eq_ok.mp hparse
  obtain rfl := readByte_eq_ok htypeByte
  split at hbody
  · next hlong =>
    obtain ⟨hkind, version, tail, destLen, srcLen, rfl, hversion, hdest, htail⟩ :=
      parseLongHeader_eq_ok rfl rfl hbody
    exact .long (hkind.trans hlong) (of_decide_eq_true hlong) hversion hdest htail
  next hlong =>
  split at hbody
  · cases hbody
  obtain ⟨hdr', mid', hshort, hbody⟩ := bind_run_eq_ok.mp hbody
  obtain ⟨hok, rfl⟩ := pure_run_eq_ok hbody
  cases hok
  obtain ⟨dest, mid'', hdest, hshort⟩ := bind_run_eq_ok.mp hshort
  obtain ⟨rfl, rfl⟩ := pure_run_eq_ok hshort
  obtain ⟨rfl, hsize⟩ := readConnectionID_eq_ok hdest
  exact .short (Bool.eq_false_iff.mpr hlong) rfl
    (fun hbit => hlong (decide_eq_true hbit)) hsize

/-! ## Packets -/

structure CutPacket (packet : ParsedPacket) (data rest : List UInt8) : Prop where
  parsedLen : packet.hdr.parsedLen = data.length - rest.length
  long : packet.hdr.isLongHeader = true →
    packet.hdr.parsedLen + packet.hdr.length ≤ data.length ∧
    packet.data = data.take (packet.hdr.parsedLen + packet.hdr.length) ∧
    packet.rest = data.drop (packet.hdr.parsedLen + packet.hdr.length)
  short : packet.hdr.isLongHeader = false → packet.data = data ∧ packet.rest = []

theorem ParsedAs.withParsedLen
    (h : ParsedAs connIDLen hdr understood bytes rest) (parsedLen : Nat) :
    ParsedAs connIDLen (hdr.withParsedLen parsedLen) understood bytes rest := by
  cases h with
  | short hlong htype hbit hdest => exact .short hlong htype hbit hdest
  | long hlong hbit hversion hdest htail =>
    refine .long hlong hbit hversion hdest ?_
    cases htail with
    | unsupported hversion hsupported htype =>
      exact .unsupported hversion hsupported htype
    | versionNegotiation hversion htype hlength hsize =>
      exact .versionNegotiation hversion htype hlength hsize
    | retry hsupported htype hlength => exact .retry hsupported htype hlength
    | initial hsupported htype htoken hlength =>
      exact .initial hsupported htype htoken hlength
    | numbered hsupported htype hlength => exact .numbered hsupported htype hlength

theorem parsePacket_eq_ok {data : List UInt8} {packet : ParsedPacket}
    (h : parsePacket data connIDLen = .ok packet) :
    ∃ understood rest, ParsedAs connIDLen packet.hdr understood data rest ∧
      (understood = false → packet.data = [] ∧ packet.rest = []) ∧
      (understood = true → CutPacket packet data rest) := by
  obtain ⟨⟨⟨understood, hdr⟩, rest⟩, hheader, h⟩ := bind_eq_ok.mp h
  unfold Header.parseHeader at hheader
  rw [remaining_bind] at hheader
  obtain ⟨⟨flag, hdr'⟩, mid, himpl, hend⟩ := bind_run_eq_ok.mp hheader
  obtain ⟨hresult, rfl⟩ := pure_run_eq_ok hend
  obtain ⟨rfl, rfl⟩ := Prod.mk.inj hresult
  have hparsed := parseHeaderImpl_eq_ok himpl
  cases flag with
  | false =>
    cases h
    exact ⟨false, mid, hparsed, fun _ => ⟨rfl, rfl⟩, nofun⟩
  | true =>
    simp only [not_true_eq_false, if_false, if_true] at h
    split at h
    · next hlong =>
      split at h
      · cases h
      · next hfits =>
        cases h
        refine ⟨true, mid, hparsed.withParsedLen _, nofun, fun _ => ⟨rfl, fun _ => ?_, ?_⟩⟩
        · exact ⟨Nat.le_of_not_lt hfits, rfl, rfl⟩
        · intro hshort
          rw [hlong] at hshort
          cases hshort
    · next hlong =>
      cases h
      refine ⟨true, mid, hparsed.withParsedLen _, nofun, fun _ => ⟨rfl, ?_, fun _ =>
        ⟨rfl, rfl⟩⟩⟩
      exact fun hcontra => absurd hcontra hlong

theorem ParsedAs.length_long
    (h : ParsedAs connIDLen hdr understood bytes rest) (hlong : hdr.isLongHeader = true) :
    ∃ tail, LongTail hdr understood tail rest ∧
      bytes.length - rest.length =
        7 + hdr.destConnectionID.length + hdr.srcConnectionID.length + tail.length := by
  cases h with
  | short hshort =>
    rw [hlong] at hshort
    cases hshort
  | @long _ _ _ _ version tail _ _ _ hversion _ htail =>
    refine ⟨tail, htail, ?_⟩
    simp only [List.length_append, List.length_cons, hversion]
    omega

end Qperf.Quic
