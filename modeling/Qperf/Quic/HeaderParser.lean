import Qperf.Quic.PacketNumbers

/-!
# Parsing of headers

`ParsePacket` parses a header up to the packet number, which is still protected.  The
rest of it is parsed by `ParseExtended` when header protection is removed.
-/

namespace Qperf.Quic

open Qperf.Foundation Qperf.Foundation.Reader

def versionTLS : Nat := 0x51474fff

def supportedVersions : List Nat := [versionTLS]

def isSupportedVersion (v : Nat) : Bool := supportedVersions.contains v

def PacketType.ofTypeByte (typeByte : UInt8) : PacketType :=
  match (typeByte &&& 0x30) >>> 4 with
  | 0x0 => .initial
  | 0x1 => .zeroRTT
  | 0x2 => .handshake
  | _ => .retry

/-! ## Up to the packet number -/

namespace Header

def parseShortHeader (h : Header) (shortHeaderConnIDLen : Nat) : FrameReader Header := do
  let destConnectionID ← readConnectionID shortHeaderConnIDLen
  return { h with destConnectionID }

def readVersions : Nat → FrameReader (List Nat)
  | 0 => pure []
  | n + 1 => do
    let v ← readUint32
    let versions ← readVersions n
    return v :: versions

def parseVersionNegotiationPacket (h : Header) : FrameReader Header := do
  let left ← remaining
  if left = 0 then
    throw (.message "Version Negotiation packet has empty version list")
  else if left % 4 ≠ 0 then
    throw (.message
      "Version Negotiation packet has a version list with an invalid length")
  else
    let supportedVersions ← readVersions (left / 4)
    return { h with supportedVersions }

def parseRetry (h : Header) : FrameReader Header := do
  let origDestConnIDLen ← readByte .eof
  let origDestConnectionID ← readConnectionID origDestConnIDLen.toNat
  let left ← remaining
  let token ← readSlice left
  return { h with origDestConnectionID, token }

def readToken (h : Header) : FrameReader (List UInt8) :=
  if h.type = some .initial then do
    let tokenLen ← readVarInt
    readCounted tokenLen
  else pure []

def parseTypeDependent (h : Header) : FrameReader Header :=
  if h.type = some .retry then h.parseRetry
  else do
    let token ← h.readToken
    let length ← readVarInt
    return { h with token, length }

/-- The flag says whether we understand the version. -/
def parseLongHeader (h : Header) : FrameReader (Bool × Header) := do
  let version ← readUint32
  if version ≠ 0 ∧ h.typeByte &&& 0x40 = 0 then
    throw (.message "not a QUIC packet")
  else
    let destConnIDLen ← readByte .eof
    let destConnectionID ← readConnectionID destConnIDLen.toNat
    let srcConnIDLen ← readByte .eof
    let srcConnectionID ← readConnectionID srcConnIDLen.toNat
    let h := { h with version, destConnectionID, srcConnectionID }
    if version = 0 then
      let h ← h.parseVersionNegotiationPacket
      return (true, h)
    else if ¬ isSupportedVersion version then
      return (false, h)
    else
      let h ← parseTypeDependent { h with type := some (.ofTypeByte h.typeByte) }
      return (true, h)

def parseHeaderImpl (shortHeaderConnIDLen : Nat) : FrameReader (Bool × Header) := do
  let typeByte ← readByte .eof
  let h : Header := { typeByte, isLongHeader := typeByte &&& 0x80 > 0 }
  if h.isLongHeader then
    h.parseLongHeader
  else if typeByte &&& 0x40 = 0 then
    throw (.message "not a QUIC packet")
  else
    let h ← h.parseShortHeader shortHeaderConnIDLen
    return (true, h)

def withParsedLen (h : Header) (parsedLen : Nat) : Header := { h with parsedLen }

def parseHeader (shortHeaderConnIDLen : Nat) : FrameReader (Bool × Header) := do
  let startLen ← remaining
  let (understood, h) ← parseHeaderImpl shortHeaderConnIDLen
  let left ← remaining
  return (understood, if understood then h.withParsedLen (startLen - left) else h)

end Header

structure ParsedPacket where
  hdr : Header
  data : List UInt8
  rest : List UInt8
  deriving DecidableEq, Repr

def packetLengthError (got expected : Nat) : ParseError :=
  .message ("packet length (" ++ toString got ++
    " bytes) is smaller than the expected length (" ++ toString expected ++ " bytes)")

def parsePacket (data : List UInt8) (shortHeaderConnIDLen : Nat) :
    Except ParseError ParsedPacket := do
  let ((understood, hdr), _) ← Header.parseHeader shortHeaderConnIDLen data
  if ¬ understood then
    return ⟨hdr, [], []⟩
  else if hdr.isLongHeader then
    if data.length < hdr.parsedLen + hdr.length then
      .error (packetLengthError (data.length - hdr.parsedLen) hdr.length)
    else
      let packetLen := hdr.parsedLen + hdr.length
      return ⟨hdr, data.take packetLen, data.drop packetLen⟩
  else
    return ⟨hdr, data, []⟩

/-! ## The packet number -/

def skip (n : Nat) : FrameReader Unit := fun bytes => .ok ((), bytes.drop n)

def Header.parseExtended (h : Header) : FrameReader (Bool × ExtendedHeader) := do
  let typeByte ← readByte .eof
  skip (h.parsedLen - 1)
  let (packetNumberLen, packetNumber) ← readPacketNumber typeByte
  let extHdr : ExtendedHeader :=
    { toHeader := h, unprotectedTypeByte := typeByte, packetNumberLen, packetNumber }
  if h.isLongHeader then
    return (typeByte &&& 0xc = 0, extHdr)
  else
    let keyPhase := if typeByte &&& 0x4 > 0 then .one else .zero
    return (typeByte &&& 0x18 = 0, { extHdr with keyPhase })

/-! ## Headers are parsed as they were written -/

namespace ExtendedHeader

def middle (h : ExtendedHeader) : List UInt8 :=
  if h.isLongHeader then
    writeUint32 h.version ++
      UInt8.ofNat h.destConnectionID.length :: h.destConnectionID ++
      UInt8.ofNat h.srcConnectionID.length :: h.srcConnectionID ++
      ((if h.type = some .initial then varIntBytes h.token.length ++ h.token else []) ++
        varIntBytes h.length)
  else h.destConnectionID

def firstByte (h : ExtendedHeader) : UInt8 :=
  if h.isLongHeader then h.longFirstByte else h.shortFirstByte

def packetNumberBytes (h : ExtendedHeader) : List UInt8 :=
  bigEndian h.packetNumberLen (wrapByteCount h.packetNumber)

variable {h : ExtendedHeader}

theorem Valid.writeToken_eq (hv : h.Valid) : h.writeToken = .ok
      (if h.type = some .initial then varIntBytes h.token.length ++ h.token else []) := by
  unfold ExtendedHeader.writeToken
  split
  · rw [writeVarInt_eq_varIntBytes hv.token]
    rfl
  · rfl

theorem Valid.write_parts (hv : h.Valid) :
    h.write = .ok (h.firstByte :: h.middle ++ h.packetNumberBytes) := by
  rw [hv.write_eq]
  unfold firstByte middle
  split
  · unfold writeLongHeader
    rw [if_neg hv.type, hv.writeToken_eq, ok_bind, writeVarInt_eq_varIntBytes hv.length,
      ok_bind, hv.writePacketNumber, ok_bind]
    simp [pure, Except.pure, invariantPart, packetNumberBytes]
  · unfold writeShortHeader
    rw [hv.writePacketNumber, ok_bind]
    rfl

def parsed (h : ExtendedHeader) (typeByte : UInt8) : Header :=
  if h.isLongHeader then
    { isLongHeader := true
      typeByte
      type := h.type
      version := h.version
      srcConnectionID := h.srcConnectionID
      destConnectionID := h.destConnectionID
      length := h.length
      token := if h.type = some .initial then h.token else [] }
  else { typeByte, destConnectionID := h.destConnectionID }

theorem isLongHeader_parsed (h : ExtendedHeader) (typeByte : UInt8) :
    (h.parsed typeByte).isLongHeader = h.isLongHeader := by
  unfold parsed
  cases hlong : h.isLongHeader <;> rfl

theorem destConnectionID_parsed (h : ExtendedHeader) (typeByte : UInt8) :
    (h.parsed typeByte).destConnectionID = h.destConnectionID := by
  unfold parsed
  split <;> rfl

theorem srcConnectionID_parsed (hshort : h.isLongHeader = false → h.srcConnectionID = [])
    (typeByte : UInt8) : (h.parsed typeByte).srcConnectionID = h.srcConnectionID := by
  unfold parsed
  cases hlong : h.isLongHeader with
  | true => rfl
  | false => exact (hshort hlong).symm

theorem type_parsed (hshort : h.isLongHeader = false → h.type = none)
    (typeByte : UInt8) : (h.parsed typeByte).type = h.type := by
  unfold parsed
  cases hlong : h.isLongHeader with
  | true => rfl
  | false => exact (hshort hlong).symm

/-- Header protection leaves the bits alone that are parsed before it is removed. -/
def protectedBits (h : ExtendedHeader) : UInt8 := if h.isLongHeader then 0xf else 0x1f

theorem firstByte_long (hv : h.Valid) (hlong : h.isLongHeader = true) (htype : h.type ≠ none) :
    h.firstByte &&& 0x80 > 0 ∧ h.firstByte &&& 0x40 ≠ 0 ∧
      h.type = some (.ofTypeByte h.firstByte) ∧ h.firstByte &&& 0xc = 0 ∧
      (h.firstByte &&& 0x3).toNat + 1 = h.packetNumberLen := by
  obtain ⟨hpos, hle⟩ := hv.packetNumberLen
  have hretry := hv.type
  rw [firstByte, if_pos hlong, longFirstByte, if_neg hretry]
  generalize h.packetNumberLen = len at *
  generalize h.type = type at *
  rcases (by omega : len = 1 ∨ len = 2 ∨ len = 3 ∨ len = 4) with rfl | rfl | rfl | rfl <;>
    rcases type with _ | (_ | _ | _ | _) <;> first | contradiction | decide

theorem firstByte_short (hv : h.Valid) (hshort : h.isLongHeader = false) :
    ¬ h.firstByte &&& 0x80 > 0 ∧ h.firstByte &&& 0x40 ≠ 0 ∧
      h.keyPhase = (if h.firstByte &&& 0x4 > 0 then .one else .zero) ∧
      h.firstByte &&& 0x18 = 0 ∧ (h.firstByte &&& 0x3).toNat + 1 = h.packetNumberLen := by
  obtain ⟨hpos, hle⟩ := hv.packetNumberLen
  rw [firstByte, if_neg (by simp [hshort]), shortFirstByte]
  generalize h.packetNumberLen = len at *
  generalize h.keyPhase = keyPhase at *
  rcases (by omega : len = 1 ∨ len = 2 ∨ len = 3 ∨ len = 4) with rfl | rfl | rfl | rfl <;>
    cases keyPhase <;> decide

private theorem protect_and {bits other : UInt8} (firstByte mask : UInt8) (h : bits &&& other = 0) :
    (firstByte ^^^ (mask &&& bits)) &&& other = firstByte &&& other := by
  apply UInt8.eq_of_toBitVec_eq
  have hbits := congrArg UInt8.toBitVec h
  simp only [UInt8.toBitVec_and, UInt8.toBitVec_xor, UInt8.toBitVec_zero] at hbits ⊢
  ext i hi
  have hbit := congrArg (fun x => x[i]) hbits
  grind

theorem reads_readConnectionID_length {connID : ConnectionID} (h : connID.length ≤ maxConnIDLen) :
    Reads (readConnectionID (UInt8.ofNat connID.length).toNat) connID connID := by
  have hlen : (UInt8.ofNat connID.length).toNat = connID.length := by
    rw [UInt8.toNat_ofNat']
    unfold maxConnIDLen at h
    omega
  rw [hlen]
  exact reads_readConnectionID connID

private theorem reads_parseShortHeader (hdr : Header) (connID : ConnectionID) :
    Reads (hdr.parseShortHeader connID.length) connID
      { hdr with destConnectionID := connID } :=
  (reads_readConnectionID connID).bind_pure rfl

theorem Valid.reads_parseTypeDependent (hv : h.Valid) {hdr : Header}
    (htype : hdr.type = h.type) :
    Reads hdr.parseTypeDependent
      ((if h.type = some .initial then varIntBytes h.token.length ++ h.token else []) ++
        varIntBytes h.length)
      { hdr with
        token := if h.type = some .initial then h.token else [], length := h.length } := by
  have htoken : Reads hdr.readToken
      (if h.type = some .initial then varIntBytes h.token.length ++ h.token else [])
      (if h.type = some .initial then h.token else []) := by
    unfold Header.readToken
    rw [htype]
    split
    · exact (reads_readVarInt (writeVarInt_eq_varIntBytes hv.token)).bind
        (reads_readCounted h.token)
    · exact reads_pure []
  unfold Header.parseTypeDependent
  rw [htype, if_neg hv.type]
  apply htoken.bind
  exact (reads_readVarInt (writeVarInt_eq_varIntBytes hv.length)).bind_pure rfl

theorem Valid.reads_parseLongHeader (hv : h.Valid) (hlong : h.isLongHeader = true)
    (hversion : isSupportedVersion h.version) {hdr : Header}
    (hbit : hdr.typeByte &&& 0x40 ≠ 0) (htype : h.type = some (.ofTypeByte hdr.typeByte)) :
    Reads hdr.parseLongHeader h.middle (true,
      { hdr with
        type := h.type
        version := h.version
        destConnectionID := h.destConnectionID
        srcConnectionID := h.srcConnectionID
        token := if h.type = some .initial then h.token else []
        length := h.length }) := by
  have htls : h.version = versionTLS := by
    simpa [isSupportedVersion, supportedVersions] using hversion
  have hread := reads_readUint32 h.version
  rw [Nat.mod_eq_of_lt (by rw [htls]; decide)] at hread
  unfold Header.parseLongHeader middle
  rw [if_pos hlong, List.append_assoc, List.append_assoc]
  apply hread.bind
  rw [if_neg fun hbad => hbit hbad.2]
  apply Reads.cons
  apply (reads_readConnectionID_length hv.destConnectionID).bind
  apply Reads.cons
  apply (reads_readConnectionID_length hv.srcConnectionID).bind
  rw [if_neg (by rw [htls]; decide), if_neg (by simp [hversion])]
  exact (hv.reads_parseTypeDependent htype.symm).bind_pure (by rw [htype])

theorem Valid.reads_parseHeaderImpl (hv : h.Valid)
    (hlong : h.isLongHeader = true → isSupportedVersion h.version ∧ h.type ≠ none)
    (mask : UInt8) {connIDLen : Nat}
    (hshort : h.isLongHeader = false → h.destConnectionID.length = connIDLen) :
    Reads (Header.parseHeaderImpl connIDLen)
      ((h.firstByte ^^^ (mask &&& h.protectedBits)) :: h.middle)
      (true, h.parsed (h.firstByte ^^^ (mask &&& h.protectedBits))) := by
  apply Reads.cons
  unfold parsed protectedBits
  cases hkind : h.isLongHeader with
  | true =>
    obtain ⟨hversion, htype⟩ := hlong hkind
    obtain ⟨hfixed, hbit, htypeByte, -⟩ := firstByte_long hv hkind htype
    rw [if_pos rfl, if_pos rfl, protect_and _ _ (by decide), decide_eq_true hfixed,
      if_pos rfl]
    refine hv.reads_parseLongHeader hkind hversion ?_ ?_
    · rw [protect_and _ _ (by decide)]
      exact hbit
    · rw [htypeByte, PacketType.ofTypeByte, PacketType.ofTypeByte,
        protect_and _ _ (by decide)]
  | false =>
    obtain ⟨hfixed, hbit, -⟩ := firstByte_short hv hkind
    simp only [Bool.false_eq_true, if_false]
    rw [protect_and _ _ (by decide), decide_eq_false hfixed, if_neg (by decide),
      protect_and _ _ (by decide), if_neg hbit, middle, if_neg (by simp [hkind]),
      ← hshort hkind]
    exact (reads_parseShortHeader _ h.destConnectionID).bind_pure rfl

theorem parsePacket_eq {data left : List UInt8} {connIDLen : Nat} {hdr : Header}
    (hparse : Header.parseHeader connIDLen data = .ok ((true, hdr), left))
    (hlength : hdr.isLongHeader = true → hdr.parsedLen + hdr.length = data.length) :
    parsePacket data connIDLen = .ok ⟨hdr, data, []⟩ := by
  unfold parsePacket
  rw [hparse, ok_bind]
  dsimp only
  rw [if_neg (by decide)]
  split
  · next hlong =>
    rw [hlength hlong, if_neg (lt_irrefl _), List.take_length, List.drop_length]
    rfl
  · rfl

theorem Valid.parses (hv : h.Valid)
    (hlong : h.isLongHeader = true → isSupportedVersion h.version ∧ h.type ≠ none)
    {connIDLen : Nat} (hshort : h.isLongHeader = false → h.destConnectionID.length = connIDLen)
    (mask : UInt8) (tail : List UInt8)
    (hlength : h.isLongHeader = true → h.length = tail.length) :
    parsePacket ((h.firstByte ^^^ (mask &&& h.protectedBits)) :: h.middle ++ tail) connIDLen =
      .ok ⟨(h.parsed (h.firstByte ^^^ (mask &&& h.protectedBits))).withParsedLen
          (h.middle.length + 1),
        (h.firstByte ^^^ (mask &&& h.protectedBits)) :: h.middle ++ tail, []⟩ := by
  have himpl := hv.reads_parseHeaderImpl hlong mask hshort
  generalize h.firstByte ^^^ (mask &&& h.protectedBits) = first at *
  have htotal : (first :: h.middle ++ tail).length = h.middle.length + 1 + tail.length := by
    simp only [List.cons_append, List.length_cons, List.length_append]
    omega
  have hparse : Header.parseHeader connIDLen (first :: h.middle ++ tail) =
      .ok ((true, (h.parsed first).withParsedLen (h.middle.length + 1)), tail) := by
    unfold Header.parseHeader
    rw [remaining_bind, himpl.bind_eq, htotal]
    dsimp only
    rw [remaining_bind, if_pos rfl, Nat.add_sub_cancel]
    rfl
  apply parsePacket_eq hparse
  intro hkind
  unfold Header.withParsedLen parsed at hkind ⊢
  split at hkind
  · next hl => rw [if_pos hl, hlength hl, htotal]
  · cases hkind

def extended (h : ExtendedHeader) (typeByte : UInt8) (packetNumber : PacketNumber) :
    ExtendedHeader where
  toHeader := (h.parsed typeByte).withParsedLen (h.middle.length + 1)
  unprotectedTypeByte := h.firstByte
  keyPhase := if h.isLongHeader then .zero else h.keyPhase
  packetNumberLen := h.packetNumberLen
  packetNumber := packetNumber

theorem skip_bind {α : Type} (n : Nat) (f : Unit → FrameReader α) (bytes : List UInt8) :
    (skip n >>= f) bytes = f () (bytes.drop n) := rfl

theorem Valid.parsesExtended (hv : h.Valid)
    (htype : h.isLongHeader = true → h.type ≠ none) (typeByte : UInt8) (rest : List UInt8) :
    ((h.parsed typeByte).withParsedLen (h.middle.length + 1)).parseExtended
      (h.firstByte :: h.middle ++ h.packetNumberBytes ++ rest) =
      .ok ((true,
        h.extended typeByte
          (wrapByteCount h.packetNumber % 2 ^ (8 * h.packetNumberLen) : Nat)), rest) := by
  have hread := reads_readPacketNumberOfLen hv.packetNumberLen.1 hv.packetNumberLen.2
    (wrapByteCount h.packetNumber)
  have hbits : (h.firstByte &&& 0x3).toNat + 1 = h.packetNumberLen := by
    cases hkind : h.isLongHeader with
    | true => exact (firstByte_long hv hkind (htype hkind)).2.2.2.2
    | false => exact (firstByte_short hv hkind).2.2.2.2
  have hnumber : Reads (readPacketNumber h.firstByte) h.packetNumberBytes
      (h.packetNumberLen,
        (wrapByteCount h.packetNumber % 2 ^ (8 * h.packetNumberLen) : Nat)) := by
    rw [readPacketNumber, hbits]
    exact hread.bind_pure rfl
  unfold Header.parseExtended
  rw [List.append_assoc, List.cons_append, readByte_bind, skip_bind,
    Header.withParsedLen, Nat.add_sub_cancel, List.drop_left, hnumber.bind_eq]
  cases hkind : h.isLongHeader with
  | true =>
    have hreserved := (firstByte_long hv hkind (htype hkind)).2.2.2.1
    unfold extended parsed
    simp only [hkind, if_true]
    rw [decide_eq_true hreserved]
    rfl
  | false =>
    obtain ⟨-, -, hphase, hreserved, -⟩ := firstByte_short hv hkind
    unfold extended parsed
    simp only [hkind, Bool.false_eq_true, if_false]
    rw [decide_eq_true hreserved, ← hphase]
    rfl

end ExtendedHeader

end Qperf.Quic
