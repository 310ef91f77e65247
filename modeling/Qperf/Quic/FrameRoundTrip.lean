import Qperf.Quic.FrameParser
import Qperf.Quic.PacketSizes

/-!
# Frames are parsed as they were written

A frame that `Write` accepts is returned by `ParseNext`, with the bytes behind it left.
The error code of STOP_SENDING is the exception: it is a number of 62 bits elsewhere,
but two bytes are written here, so that a larger code comes back reduced.
-/

namespace Qperf.Quic

open Qperf.Foundation Qperf.Foundation.Reader

/-! ## Numbers -/

private theorem firstByte_tag : ∀ tag ∈ [((0 : UInt8), 1), (0x40, 2), (0x80, 4), (0xc0, 8)],
    ∀ high : Fin 64,
      1 <<< (((UInt8.ofNat high ||| tag.1) &&& 0xc0) >>> 6).toNat = tag.2 ∧
      ((UInt8.ofNat high ||| tag.1) &&& (0xff - 0xc0)).toNat = high.val := by
  decide

theorem toNat_shiftLeft (i m n : Nat) :
    (UInt8.ofNat (i >>> m)).toNat <<< n = i / 2 ^ m % 256 * 2 ^ n := by
  rw [UInt8.toNat_ofNat', Nat.shiftRight_eq_div_pow, Nat.shiftLeft_eq]

theorem shiftRight_lt {i m : Nat} (h : i < 64 * 2 ^ m) : i >>> m < 64 := by
  rw [Nat.shiftRight_eq_div_pow]
  exact Nat.div_lt_of_lt_mul (Nat.mul_comm .. ▸ h)

theorem reads_readVarInt {i : Nat} {bytes : List UInt8} (h : writeVarInt i = .ok bytes) :
    Reads readVarInt bytes i := by
  -- The cases are those of `WriteVarInt`; the tag of the first byte tells them apart.
  unfold writeVarInt maxVarInt1 maxVarInt2 maxVarInt4 maxVarInt8 at h
  split at h
  · next hle =>
    cases h
    obtain ⟨hlen, hvalue⟩ := firstByte_tag (0, 1) (by decide) ⟨i, by omega⟩
    simp only [UInt8.or_zero] at hlen hvalue
    apply Reads.cons
    simp only [hlen, hvalue, if_true]
    exact reads_pure i
  split at h
  · next hle =>
    cases h
    obtain ⟨hlen, hvalue⟩ :=
      firstByte_tag (0x40, 2) (by decide) ⟨i >>> 8, shiftRight_lt (by omega)⟩
    have hsum : (UInt8.ofNat i).toNat + i >>> 8 <<< 8 = i := by
      rw [UInt8.toNat_ofNat', Nat.shiftLeft_eq, Nat.shiftRight_eq_div_pow]
      omega
    apply Reads.cons
    simp only [hlen, hvalue]
    apply Reads.cons
    rw [if_pos trivial, hsum]
    exact reads_pure i
  split at h
  · next hle =>
    cases h
    obtain ⟨hlen, hvalue⟩ :=
      firstByte_tag (0x80, 4) (by decide) ⟨i >>> 24, shiftRight_lt (by omega)⟩
    have hsum : (UInt8.ofNat i).toNat + (UInt8.ofNat (i >>> 8)).toNat <<< 8 +
        (UInt8.ofNat (i >>> 16)).toNat <<< 16 + i >>> 24 <<< 24 = i := by
      rw [toNat_shiftLeft, toNat_shiftLeft, UInt8.toNat_ofNat', Nat.shiftLeft_eq,
        Nat.shiftRight_eq_div_pow]
      omega
    apply Reads.cons
    simp only [hlen, hvalue]
    iterate 3 apply Reads.cons
    rw [if_pos trivial, hsum]
    exact reads_pure i
  split at h
  · next hle =>
    cases h
    obtain ⟨hlen, hvalue⟩ :=
      firstByte_tag (0xc0, 8) (by decide) ⟨i >>> 56, shiftRight_lt (by omega)⟩
    have hsum : (UInt8.ofNat i).toNat + (UInt8.ofNat (i >>> 8)).toNat <<< 8 +
        (UInt8.ofNat (i >>> 16)).toNat <<< 16 + (UInt8.ofNat (i >>> 24)).toNat <<< 24 +
        (UInt8.ofNat (i >>> 32)).toNat <<< 32 + (UInt8.ofNat (i >>> 40)).toNat <<< 40 +
        (UInt8.ofNat (i >>> 48)).toNat <<< 48 + i >>> 56 <<< 56 = i := by
      simp only [toNat_shiftLeft]
      rw [UInt8.toNat_ofNat', Nat.shiftLeft_eq, Nat.shiftRight_eq_div_pow]
      omega
    apply Reads.cons
    simp only [hlen, hvalue]
    iterate 7 apply Reads.cons
    rw [hsum]
    exact reads_pure i
  · cases h

private theorem uint16_bytes (i : Nat) :
    (UInt8.ofNat i).toNat + (UInt8.ofNat (i >>> 8)).toNat <<< 8 = i % 65536 := by
  rw [toNat_shiftLeft, UInt8.toNat_ofNat']
  omega

theorem reads_readUint16 (i : Nat) :
    Reads readUint16 (writeUint16 i) (i % 65536) := by
  iterate 2 apply Reads.cons
  exact reads_pure_of_eq (uint16_bytes i)

theorem reads_readCounted (bytes : List UInt8) :
    Reads (readCounted bytes.length) bytes bytes := by
  apply reads_remaining
  intro left hleft
  rw [if_neg (Nat.not_lt.mpr hleft)]
  exact reads_readFull _ _ bytes

theorem reads_readArray {n : Nat} (v : Vector UInt8 n) :
    Reads (readArray n) v.toList v := by
  intro rest
  have hlen : v.toList.length = n := v.length_toList
  have htake : (v.toList ++ rest).take n = v.toList := List.take_left' hlen
  have hdrop : (v.toList ++ rest).drop n = rest := List.drop_left' hlen
  rw [readArray, dif_pos (by rw [List.length_append]; omega)]
  simp only [htake, hdrop]
  rfl

theorem reads_readConnectionID (connID : List UInt8) :
    Reads (readConnectionID connID.length) connID connID := by
  intro rest
  have h := reads_readFull ParseError.eof .unexpectedEOF connID rest
  rw [readConnectionID, readSlice, h]

/-! ## Fields -/

def varIntBytes (i : Nat) : List UInt8 := (writeVarInt i).toOption.getD []

theorem writeVarInt_eq_varIntBytes {i : Nat} (h : i ≤ maxVarInt8) :
    writeVarInt i = .ok (varIntBytes i) := by
  obtain ⟨bytes, hbytes, -⟩ := writeVarInt_of_le h
  rw [varIntBytes, hbytes]
  rfl

theorem Encodable.reads {varInts : List Nat} (h : Encodable varInts) :
    varInts.Forall fun i => Reads readVarInt (varIntBytes i) i :=
  List.forall_iff_forall_mem.mpr fun i hi =>
    reads_readVarInt (writeVarInt_eq_varIntBytes (h i hi))

theorem Encodable.writeFrame {varInts : List Nat} (h : Encodable varInts)
    (typeByte : UInt8) (rest : List UInt8) :
    writeFrame typeByte varInts rest =
      .ok (typeByte :: (varInts.map varIntBytes).foldr (· ++ ·) rest) := by
  have hfields : varInts.mapM writeVarInt = .ok (varInts.map varIntBytes) :=
    mapM_eq_ok_map fun i hi => writeVarInt_eq_varIntBytes (h i hi)
  have hflat (fields : List (List UInt8)) :
      fields.flatten ++ rest = fields.foldr (· ++ ·) rest := by
    induction fields with
    | nil => rfl
    | cons bytes fields ih => rw [List.flatten_cons, List.append_assoc, ih]; rfl
  rw [Quic.writeFrame, hfields, ok_bind, ← hflat]
  rfl

/-! ## Control frames -/

namespace ControlFrame

/-- The ranges of the fields that are not variable-length integers. -/
def FieldsInRange : ControlFrame → Prop
  | .connectionClose isApplicationError _ frameType _ =>
    isApplicationError = true → frameType = 0
  | .newConnectionID sequenceNumber retirePriorTo _ _ =>
    retirePriorTo ≤ sequenceNumber
  | .newToken token => token ≠ []
  | .stopSending _ errorCode => errorCode < 2 ^ 64
  | _ => True

/-- The frame as it is on the wire: two bytes of an error code of STOP_SENDING. -/
def onWire : ControlFrame → ControlFrame
  | .stopSending streamID errorCode => .stopSending streamID (errorCode % 65536)
  | f => f

variable {f : ControlFrame}

def ParsedBy (p : FrameParser) (f : ControlFrame) (typeByte : UInt8)
    (rest : List UInt8) : Prop :=
  typeByte ≠ 0 ∧ Reads (p.parseFrameOfType typeByte .oneRTT) (typeByte :: rest)
      (.frame (.control f))

theorem ParsedBy.of_reads {p : FrameParser} {typeByte : UInt8} {rest : List UInt8}
    {parse : FrameReader ControlFrame} (hne : typeByte ≠ 0)
    (hparser : p.parseFrameOfType typeByte .oneRTT =
      (parse >>= fun f => pure (.frame (.control f))))
    (h : Reads parse (typeByte :: rest) f) : f.ParsedBy p typeByte rest :=
  ⟨hne, hparser ▸ h.bind_pure rfl⟩

/-- `Write` begins with the type byte that leads `ParseNext` back to the frame. -/
def ComesBack (p : FrameParser) (f : ControlFrame) : Prop :=
  ∃ typeByte rest, f.write = .ok (typeByte :: rest) ∧ f.onWire.ParsedBy p typeByte rest

section

variable {p : FrameParser} (typeByte : UInt8) {i j : Nat} (hne : typeByte ≠ 0)

include hne

theorem ComesBack.one (make : UInt8 → Nat → ControlFrame) (h : Encodable [i])
    (hwrite : (make typeByte i).write = writeFrame typeByte [i] [])
    (honWire : (make typeByte i).onWire = make typeByte i)
    (hparser : p.parseFrameOfType typeByte .oneRTT =
      ((readByte .eof >>= fun b => readVarInt >>= fun i => pure (make b i)) >>=
        fun f => pure (.frame (.control f)))) : (make typeByte i).ComesBack p := by
  have hi : Reads readVarInt (varIntBytes i) i := h.reads
  refine ⟨_, _, hwrite.trans (h.writeFrame typeByte []), ?_⟩
  rw [honWire]
  apply ParsedBy.of_reads hne hparser
  apply Reads.cons
  apply hi.bind
  exact reads_pure _

theorem ComesBack.two (make : Nat → Nat → ControlFrame) (h : Encodable [i, j])
    (hwrite : (make i j).write = writeFrame typeByte [i, j] [])
    (honWire : (make i j).onWire = make i j)
    (hparser : p.parseFrameOfType typeByte .oneRTT =
      ((readByte .eof >>= fun _ => readVarInt >>= fun i => readVarInt >>= fun j =>
        pure (make i j)) >>= fun f => pure (.frame (.control f)))) :
    (make i j).ComesBack p := by
  obtain ⟨hi, hj⟩ := h.reads
  refine ⟨_, _, hwrite.trans (h.writeFrame typeByte []), ?_⟩
  rw [honWire]
  apply ParsedBy.of_reads hne hparser
  apply Reads.cons
  apply hi.bind
  apply hj.bind
  exact reads_pure _

end

section

variable (p : FrameParser)

theorem connectionClose_comesBack {isApplicationError : Bool} {errorCode frameType : Nat}
    {reasonPhrase : List UInt8}
    (h : Valid (.connectionClose isApplicationError errorCode frameType reasonPhrase))
    (hfields : isApplicationError = true → frameType = 0) :
    ComesBack p (.connectionClose isApplicationError errorCode frameType reasonPhrase) := by
  have hencodable := h.encodable
  cases isApplicationError with
  | true =>
    obtain ⟨hcode, hlen⟩ := hencodable.reads
    obtain rfl : frameType = 0 := hfields rfl
    refine ⟨_, _, hencodable.writeFrame 0x1d reasonPhrase, .of_reads (by decide) rfl ?_⟩
    apply Reads.cons
    apply hcode.bind
    apply (reads_pure 0).bind
    apply hlen.bind
    exact (reads_readCounted reasonPhrase).bind_pure rfl
  | false =>
    have hperm : Encodable [errorCode, frameType, reasonPhrase.length] :=
      fun i hi => hencodable i (by simp [varInts] at hi ⊢; tauto)
    obtain ⟨hcode, htype, hlen⟩ := hperm.reads
    refine ⟨_, _, hperm.writeFrame 0x1c reasonPhrase, .of_reads (by decide) rfl ?_⟩
    apply Reads.cons
    apply hcode.bind
    apply htype.bind
    apply hlen.bind
    exact (reads_readCounted reasonPhrase).bind_pure rfl

private theorem crypto_comesBack {frame : CryptoFrame} (h : Valid (.crypto frame)) :
    ComesBack p (.crypto frame) := by
  obtain ⟨hoffset, hlen⟩ := h.encodable.reads
  refine ⟨_, _, h.encodable.writeFrame 0x6 frame.data, .of_reads (by decide) rfl ?_⟩
  apply Reads.cons
  apply hoffset.bind
  apply hlen.bind
  exact (reads_readCounted frame.data).bind_pure rfl

private theorem maxStreams_comesBack {type : StreamType} {maxStreamNum : Nat}
    (h : Valid (.maxStreams type maxStreamNum)) :
    ComesBack p (.maxStreams type maxStreamNum) := by
  cases type with
  | bidi =>
    exact .one 0x12 (by decide) (fun b => .maxStreams (if b = 0x12 then .bidi else .uni))
      h.encodable rfl rfl rfl
  | uni =>
    exact .one 0x13 (by decide) (fun b => .maxStreams (if b = 0x12 then .bidi else .uni))
      h.encodable rfl rfl rfl

private theorem streamsBlocked_comesBack {type : StreamType} {streamLimit : Nat}
    (h : Valid (.streamsBlocked type streamLimit)) :
    ComesBack p (.streamsBlocked type streamLimit) := by
  cases type with
  | bidi =>
    exact .one 0x16 (by decide)
      (fun b => .streamsBlocked (if b = 0x16 then .bidi else .uni)) h.encodable rfl rfl rfl
  | uni =>
    exact .one 0x17 (by decide)
      (fun b => .streamsBlocked (if b = 0x16 then .bidi else .uni)) h.encodable rfl rfl rfl

theorem newConnectionID_comesBack {sequenceNumber retirePriorTo : Nat}
    {connectionID : List UInt8} {token : Vector UInt8 16}
    (h : Valid (.newConnectionID sequenceNumber retirePriorTo connectionID token))
    (hfields : retirePriorTo ≤ sequenceNumber) :
    ComesBack p (.newConnectionID sequenceNumber retirePriorTo connectionID token) := by
  obtain ⟨hseq, hret⟩ := h.encodable.reads
  have hconnID : connectionID.length ≤ maxConnIDLen := h.connID
  have hlen : (UInt8.ofNat connectionID.length).toNat = connectionID.length := by
    unfold maxConnIDLen at hconnID
    rw [UInt8.toNat_ofNat']
    omega
  have hwrite : ControlFrame.write
      (.newConnectionID sequenceNumber retirePriorTo connectionID token) =
      .ok (0x18 :: (varIntBytes sequenceNumber ++ (varIntBytes retirePriorTo ++
        (UInt8.ofNat connectionID.length :: (connectionID ++ token.toList))))) := by
    have hstart := h.encodable.writeFrame 0x18 []
    simp only [varInts] at hstart
    simp only [ControlFrame.write, hstart, ok_bind]
    rw [if_neg (Nat.not_lt.mpr hconnID)]
    simp [pure, Except.pure]
  refine ⟨_, _, hwrite, .of_reads (by decide) rfl ?_⟩
  apply Reads.cons
  apply hseq.bind
  apply hret.bind
  rw [if_neg (Nat.not_lt.mpr hfields)]
  apply Reads.cons
  rw [hlen, if_neg (Nat.not_lt.mpr hconnID)]
  apply (reads_readConnectionID connectionID).bind
  exact (reads_readArray token).bind_pure rfl

private theorem newToken_comesBack {token : List UInt8} (h : Valid (.newToken token))
    (hfields : token ≠ []) : ComesBack p (.newToken token) := by
  have hlen := h.encodable.reads
  refine ⟨_, _, h.encodable.writeFrame 0x7 token, .of_reads (by decide) rfl ?_⟩
  apply Reads.cons
  apply hlen.bind
  apply reads_remaining
  intro left hleft
  have hfits : ¬ left < token.length := Nat.not_lt.mpr hleft
  have hne : token.length ≠ 0 := mt List.length_eq_zero_iff.mp hfields
  rw [if_neg hfits, if_neg hne]
  exact (reads_readFull _ _ token).bind_pure rfl

private theorem path_comesBack (data : Vector UInt8 8) :
    ComesBack p (.pathChallenge data) ∧ ComesBack p (.pathResponse data) := by
  constructor <;>
  · refine ⟨_, _, rfl, .of_reads (by decide) rfl ?_⟩
    apply Reads.cons
    exact (reads_readArray data).bind_pure rfl

private theorem ping_comesBack : ComesBack p .ping := by
  refine ⟨_, _, rfl, .of_reads (by decide) rfl ?_⟩
  apply Reads.cons
  exact reads_pure _

private theorem resetStream_comesBack {streamID byteOffset errorCode : Nat}
    (h : Valid (.resetStream streamID byteOffset errorCode)) :
    ComesBack p (.resetStream streamID byteOffset errorCode) := by
  obtain ⟨hid, hcode, hoffset⟩ := h.encodable.reads
  refine ⟨_, _, h.encodable.writeFrame 0x4 [], .of_reads (by decide) rfl ?_⟩
  apply Reads.cons
  apply hid.bind
  apply hcode.bind
  apply hoffset.bind
  exact reads_pure _

private theorem stopSending_comesBack {streamID errorCode : Nat}
    (h : Valid (.stopSending streamID errorCode)) :
    ComesBack p (.stopSending streamID errorCode) := by
  have hid := h.encodable.reads
  refine ⟨_, _, h.encodable.writeFrame 0x5 (writeUint16 errorCode),
    .of_reads (by decide) rfl ?_⟩
  apply Reads.cons
  apply hid.bind
  exact (reads_readUint16 errorCode).bind_pure rfl

theorem Valid.comesBack (h : f.Valid) (hfields : f.FieldsInRange) : f.ComesBack p := by
  have hencodable := h.encodable
  cases f with
  | connectionClose => exact connectionClose_comesBack p h hfields
  | crypto => exact crypto_comesBack p h
  | dataBlocked => exact .one 0x14 (by decide) (fun _ => .dataBlocked) hencodable rfl rfl rfl
  | maxData => exact .one 0x10 (by decide) (fun _ => .maxData) hencodable rfl rfl rfl
  | maxStreamData => exact .two 0x11 (by decide) .maxStreamData hencodable rfl rfl rfl
  | maxStreams => exact maxStreams_comesBack p h
  | newConnectionID => exact newConnectionID_comesBack p h hfields
  | newToken => exact newToken_comesBack p h hfields
  | pathChallenge data => exact (path_comesBack p data).1
  | pathResponse data => exact (path_comesBack p data).2
  | ping => exact ping_comesBack p
  | resetStream => exact resetStream_comesBack p h
  | retireConnectionID =>
    exact .one 0x19 (by decide) (fun _ => .retireConnectionID) hencodable rfl rfl rfl
  | stopSending => exact stopSending_comesBack p h
  | streamDataBlocked =>
    exact .two 0x15 (by decide) .streamDataBlocked hencodable rfl rfl rfl
  | streamsBlocked => exact streamsBlocked_comesBack p h

end

end ControlFrame

/-! ## STREAM frames -/

namespace StreamFrame

variable {f : StreamFrame}

theorem typeByte_flags (f : StreamFrame) :
    f.typeByte ≠ 0 ∧ f.typeByte &&& 0xf8 = 0x8 ∧
      decide (f.typeByte &&& 0x4 > 0) = decide (f.offset ≠ 0) ∧
      decide (f.typeByte &&& 0x1 > 0) = f.finBit ∧
      decide (f.typeByte &&& 0x2 > 0) = f.dataLenPresent := by
  unfold typeByte
  by_cases hoffset : f.offset = 0
  · simp only [hoffset, ne_eq, not_true, if_false]
    cases f.finBit <;> cases f.dataLenPresent <;> decide
  · simp only [hoffset, ne_eq, not_false_eq_true, if_true]
    cases f.finBit <;> cases f.dataLenPresent <;> decide

theorem Valid.reads_data (h : f.Valid) :
    Reads (readStreamData f.offset f.dataLen) f.data f.data := by
  have hsmall : ¬ (minStreamFrameBufferSize ≤ f.dataLen ∧
      maxReceivePacketSize < f.dataLen) :=
    fun hlarge => Nat.not_lt.mpr h.dataLen hlarge.2
  have hmax : ¬ f.offset + f.dataLen > maxByteCount := Nat.not_lt.mpr h.offset
  rw [readStreamData, if_neg hsmall]
  apply (reads_readFull _ _ f.data).bind_pure
  exact if_neg hmax

private theorem write_optional (present : Bool) {i : Nat} (h : i ≤ maxVarInt8) :
    writeOptionalVarInt present i = .ok (if present then varIntBytes i else []) := by
  cases present with
  | false => rfl
  | true => exact writeVarInt_eq_varIntBytes h

private theorem reads_offset {i : Nat} (h : i ≤ maxVarInt8) :
    Reads (readOptionalVarInt (decide (i ≠ 0)))
      (if decide (i ≠ 0) then varIntBytes i else []) i := by
  by_cases hi : i = 0
  · subst hi
    exact reads_pure 0
  · rw [decide_eq_true hi]
    exact reads_readVarInt (writeVarInt_eq_varIntBytes h)

theorem Valid.parseStreamFrame (h : f.Valid) (hwritten : f.data ≠ [] ∨ f.finBit = true) :
    ∃ rest, f.write = .ok (f.typeByte :: rest) ∧
      ∀ suffix, (f.dataLenPresent = false → suffix = []) →
        Quic.parseStreamFrame (f.typeByte :: rest ++ suffix) = .ok (f, suffix) := by
  have hoffset : f.offset ≤ maxVarInt8 := Nat.le_trans (Nat.le_add_right ..) h.offset
  have hlen : f.dataLen ≤ maxVarInt8 := Nat.le_trans (Nat.le_add_left ..) h.offset
  have hguard : (f.data.isEmpty && !f.finBit) = false := by
    rcases hwritten with hdata | hfin
    · simp [hdata]
    · simp [hfin]
  have hid := reads_readVarInt (writeVarInt_eq_varIntBytes h.streamID)
  obtain ⟨-, -, hhasOffset, hfin, hhasDataLen⟩ := f.typeByte_flags
  refine ⟨varIntBytes f.streamID ++
    ((if decide (f.offset ≠ 0) then varIntBytes f.offset else []) ++
      ((if f.dataLenPresent then varIntBytes f.dataLen else []) ++ f.data)), ?_, ?_⟩
  · rw [StreamFrame.write, hguard, writeVarInt_eq_varIntBytes h.streamID,
      write_optional _ hoffset, write_optional _ hlen]
    simp [pure, Except.pure]
  · intro suffix hsuffix
    rw [Quic.parseStreamFrame, List.cons_append, readByte_bind]
    simp only [hhasOffset, hfin, hhasDataLen]
    apply hid.bind_at
    apply (reads_offset hoffset).bind_at
    cases hpresent : f.dataLenPresent with
    | true =>
      have hread := reads_readVarInt (writeVarInt_eq_varIntBytes hlen)
      apply hread.bind_at
      exact h.reads_data.bind_pure (by rw [← hpresent]) suffix
    | false =>
      obtain rfl := hsuffix hpresent
      rw [List.append_nil]
      change (remaining >>= _) f.data = _
      rw [remaining_bind, ← StreamFrame.dataLen]
      simpa only [List.append_nil] using h.reads_data.bind_pure (by rw [← hpresent]) []

end StreamFrame

/-! ## Round trip -/

theorem FrameParser.parseNext_padding (p : FrameParser) (encLevel : EncryptionLevel)
    (padding : Nat) (bytes : List UInt8) :
    p.parseNext encLevel (List.replicate padding 0x0 ++ bytes) = p.parseNext encLevel bytes := by
  induction padding with
  | zero => rfl
  | succ padding ih =>
    rw [List.replicate_succ, List.cons_append, parseNext, if_pos rfl, ih]

theorem FrameParser.parseNext_cons {p : FrameParser} {typeByte : UInt8}
    {rest suffix : List UInt8} {f : ParsedFrame} (hne : typeByte ≠ 0)
    (h : p.parseFrameOfType typeByte .oneRTT (typeByte :: rest) = .ok (f, suffix)) :
    p.parseNext .oneRTT (typeByte :: rest) = .ok (some f, suffix) := by
  have hparse : p.parseFrame typeByte .oneRTT (typeByte :: rest) = .ok (f, suffix) := by
    change (p.parseFrameOfType typeByte .oneRTT (typeByte :: rest) >>= _) = _
    rw [h]
    rfl
  rw [parseNext, if_neg hne, hparse]

namespace Frame

def FieldsInRange : Frame → Prop
  | .stream _ => True
  | .control f => f.FieldsInRange

/-- The frame can be written and its fields are in the range of their types. -/
structure InRange (f : Frame) : Prop where
  valid : f.Valid
  fields : f.FieldsInRange

def onWire : Frame → Frame
  | .stream f => .stream f
  | .control f => .control f.onWire

/-- Nothing follows a STREAM frame without a length field. -/
def AllowsSuffix (suffix : List UInt8) : Frame → Prop
  | .stream f => f.dataLenPresent = false → suffix = []
  | .control _ => True

/-- A STOP_SENDING frame whose error code does not fit into two bytes. -/
def CodeTooLarge : Frame → Prop
  | .control (.stopSending _ errorCode) => 65536 ≤ errorCode
  | _ => False

variable {f : Frame}

private theorem onWire_eq_iff (f : Frame) : f.onWire = f ↔ ¬ f.CodeTooLarge := by
  cases f with
  | stream f => simp [onWire, CodeTooLarge]
  | control f =>
    cases f with
    | stopSending streamID errorCode =>
      simp only [onWire, ControlFrame.onWire, CodeTooLarge, control.injEq,
        ControlFrame.stopSending.injEq, true_and]
      omega
    | _ => simp [onWire, ControlFrame.onWire, CodeTooLarge]

theorem InRange.parsed (h : f.InRange) (p : FrameParser) :
    ∃ typeByte rest, f.write = .ok (typeByte :: rest) ∧ typeByte ≠ 0 ∧
      ∀ suffix, f.AllowsSuffix suffix →
        p.parseFrameOfType typeByte .oneRTT (typeByte :: rest ++ suffix) =
          .ok (.frame f.onWire, suffix) := by
  cases f with
  | stream f =>
    obtain ⟨hvalid, hwritten⟩ := h.valid
    obtain ⟨rest, hwrite, hparse⟩ := hvalid.parseStreamFrame hwritten
    obtain ⟨hne, hstream, -⟩ := f.typeByte_flags
    refine ⟨f.typeByte, rest, hwrite, hne, ?_⟩
    intro suffix hsuffix
    unfold FrameParser.parseFrameOfType
    rw [if_pos hstream]
    change (parseStreamFrame (f.typeByte :: rest ++ suffix) >>= _) = _
    rw [hparse suffix hsuffix]
    rfl
  | control f =>
    have hvalid : f.Valid := h.valid
    obtain ⟨typeByte, rest, hwrite, hne, hparse⟩ := hvalid.comesBack p h.fields
    exact ⟨typeByte, rest, hwrite, hne, fun suffix _ => hparse suffix⟩

theorem InRange.parseNext (h : f.InRange) (p : FrameParser) :
    ∃ bytes, f.write = .ok bytes ∧ f.length = .ok bytes.length ∧
      ∀ padding suffix, f.AllowsSuffix suffix →
        p.parseNext .oneRTT (List.replicate padding 0x0 ++ (bytes ++ suffix)) =
          .ok (some (.frame f.onWire), suffix) := by
  obtain ⟨typeByte, rest, hwrite, hne, hparse⟩ := h.parsed p
  obtain ⟨bytes, hbytes, hlen⟩ := h.valid.write
  obtain rfl : bytes = typeByte :: rest := by
    rw [hwrite] at hbytes
    cases hbytes
    rfl
  refine ⟨_, hwrite, hlen ▸ h.valid.length, ?_⟩
  intro padding suffix hsuffix
  rw [p.parseNext_padding]
  exact FrameParser.parseNext_cons hne (hparse suffix hsuffix)

/-- The frame comes back unless it is a STOP_SENDING frame with a large error code. -/
theorem parseNext_write_iff (p : FrameParser) (f : Frame) (h : f.InRange) :
    (∃ bytes, f.write = .ok bytes ∧ f.length = .ok bytes.length ∧
      ∀ padding suffix, f.AllowsSuffix suffix →
        p.parseNext .oneRTT (List.replicate padding 0x0 ++ (bytes ++ suffix)) =
          .ok (some (.frame f), suffix)) ↔ ¬ f.CodeTooLarge := by
  obtain ⟨bytes, hwrite, hlen, hparse⟩ := h.parseNext p
  rw [← onWire_eq_iff]
  constructor
  · rintro ⟨bytes', hwrite', -, hparse'⟩
    obtain rfl : bytes' = bytes := by
      rw [hwrite] at hwrite'
      cases hwrite'
      rfl
    have hnil : f.AllowsSuffix [] := by
      cases f with
      | stream f => exact fun _ => rfl
      | control f => trivial
    have hsame := (hparse 0 [] hnil).symm.trans (hparse' 0 [] hnil)
    simpa using hsame
  · intro hwire
    rw [hwire] at hparse
    exact ⟨bytes, hwrite, hlen, hparse⟩

def lastFrame : Frame := .stream ⟨4, 10, [1, 2, 3], true, true⟩

theorem parseNext_write_iff_lastFrame : lastFrame.InRange ∧ ¬ lastFrame.CodeTooLarge ∧
      lastFrame.write = .ok [0xf, 4, 10, 3, 1, 2, 3] ∧ ∀ padding suffix,
        FrameParser.parseNext ⟨3⟩ .oneRTT
            (List.replicate padding 0x0 ++ ([0xf, 4, 10, 3, 1, 2, 3] ++ suffix)) =
          .ok (some (.frame lastFrame), suffix) := by
  have hrange : lastFrame.InRange :=
    ⟨⟨⟨by decide, by decide, by decide⟩, .inr rfl⟩, trivial⟩
  have hwrite : lastFrame.write = .ok [0xf, 4, 10, 3, 1, 2, 3] := rfl
  obtain ⟨bytes, hbytes, -, hparse⟩ := (parseNext_write_iff ⟨3⟩ lastFrame hrange).mpr id
  cases hwrite.symm.trans hbytes
  exact ⟨hrange, id, hwrite, fun padding suffix =>
    hparse padding suffix fun habsent => absurd habsent (by decide)⟩

theorem parseNext_write_stopSending : (Frame.control (.stopSending 4 65536)).InRange ∧
      (Frame.control (.stopSending 4 65536)).write = .ok [0x5, 4, 0, 0] ∧
      FrameParser.parseNext ⟨3⟩ .oneRTT [0x5, 4, 0, 0] =
        .ok (some (.frame (.control (.stopSending 4 0))), []) := by
  refine ⟨⟨⟨?_, trivial⟩, ?_⟩, rfl, rfl⟩
  · intro i hi
    simp only [ControlFrame.varInts, List.mem_singleton] at hi
    subst hi
    decide
  · change 65536 < 2 ^ 64
    decide

end Frame

end Qperf.Quic
