import Qperf.Quic.PacketUnpacker
import Qperf.Quic.ParsedHeaders

/-!
# The length of a parsed header

`GetLength` computes the length of a header from its fields, as if every number had been
encoded in as few bytes as possible.  The parser accepts longer encodings.  The unpacker
takes the packet number from where the parser stopped, and the payload from `GetLength`.
-/

namespace Qperf.Quic

open Qperf.Foundation

/-! ## Minimal encodings -/

/-- The number at the front is encoded in as few bytes as possible. -/
def MinimalVarInt (bytes : List UInt8) : Prop :=
  match readVarInt bytes with
  | .ok (value, rest) => bytes.length = varIntSize value + rest.length
  | .error _ => False

instance (bytes : List UInt8) : Decidable (MinimalVarInt bytes) :=
  match h : readVarInt bytes with
  | .ok (value, rest) =>
    decidable_of_iff (bytes.length = varIntSize value + rest.length)
      (by rw [MinimalVarInt, h])
  | .error _ => .isFalse (by rw [MinimalVarInt, h]; exact id)

def skipVarInt (bytes : List UInt8) : List UInt8 :=
  match readVarInt bytes with
  | .ok (_, rest) => rest
  | .error _ => []

def Header.invariantLen (hdr : Header) : Nat :=
  7 + hdr.destConnectionID.length + hdr.srcConnectionID.length

/-- The length of the token, if there is one, and the length of the packet. -/
def MinimalVarInts (hdr : Header) (data : List UInt8) : Prop :=
  if hdr.type = some .initial then
    MinimalVarInt (data.drop hdr.invariantLen) ∧
      MinimalVarInt ((skipVarInt (data.drop hdr.invariantLen)).drop hdr.token.length)
  else MinimalVarInt (data.drop hdr.invariantLen)

instance (hdr : Header) (data : List UInt8) : Decidable (MinimalVarInts hdr data) :=
  inferInstanceAs (Decidable (if hdr.type = some .initial then
      MinimalVarInt (data.drop hdr.invariantLen) ∧
        MinimalVarInt ((skipVarInt (data.drop hdr.invariantLen)).drop hdr.token.length)
    else MinimalVarInt (data.drop hdr.invariantLen)))

variable {bytes rest data : List UInt8} {value : Nat}

theorem EncodesVarInt.minimal_iff (h : EncodesVarInt bytes value) (rest : List UInt8) :
    MinimalVarInt (bytes ++ rest) ↔ bytes.length = varIntSize value := by
  unfold MinimalVarInt
  rw [h.reads rest, List.length_append]
  exact Nat.add_right_cancel_iff

theorem EncodesVarInt.skipVarInt (h : EncodesVarInt bytes value) (rest : List UInt8) :
    Quic.skipVarInt (bytes ++ rest) = rest := by
  unfold Quic.skipVarInt
  rw [h.reads rest]

/-! ## Long headers with a packet number -/

variable {connIDLen : Nat} {packet : ParsedPacket} {hdr : Header}

def Header.Numbered (hdr : Header) : Prop :=
  hdr.type = some .initial ∨ hdr.type = some .handshake ∨ hdr.type = some .zeroRTT

instance (hdr : Header) : Decidable hdr.Numbered := inferInstanceAs (Decidable (_ ∨ _ ∨ _))

/-- The length that `GetLength` computes, without the packet number. -/
def Header.minimalLen (hdr : Header) : Nat :=
  hdr.invariantLen + varIntSize hdr.length +
    if hdr.type = some .initial then varIntSize hdr.token.length + hdr.token.length else 0

theorem ParsedAs.minimalLen {understood : Bool}
    (h : ParsedAs connIDLen hdr understood data rest) (hnumbered : hdr.Numbered) :
    understood = true ∧ hdr.isLongHeader = true ∧ hdr.length ≤ maxVarInt8 ∧
      (hdr.type = some .initial → hdr.token.length ≤ maxVarInt8) ∧
      hdr.minimalLen ≤ data.length - rest.length ∧
      (hdr.minimalLen = data.length - rest.length ↔ MinimalVarInts hdr data) := by
  cases h with
  | short _ htype =>
    rw [Header.Numbered, htype] at hnumbered
    simp at hnumbered
  | @long _ typeByte destLen srcLen version tail _ hlong hbit hversion hdest htail =>
    have hdrop : (typeByte :: version ++ destLen :: hdr.destConnectionID ++
        srcLen :: hdr.srcConnectionID ++ tail ++ rest).drop hdr.invariantLen = tail ++ rest := by
      rw [List.append_assoc]
      refine List.drop_left' ?_
      simp only [List.length_append, List.length_cons, hversion, Header.invariantLen]
      omega
    have hsize : (typeByte :: version ++ destLen :: hdr.destConnectionID ++
        srcLen :: hdr.srcConnectionID ++ tail ++ rest).length - rest.length =
          hdr.invariantLen + tail.length := by
      simp only [List.length_append, List.length_cons, hversion, Header.invariantLen]
      omega
    rw [hsize, MinimalVarInts, hdrop]
    cases htail with
    | unsupported _ _ htype =>
      rw [Header.Numbered, htype] at hnumbered
      simp at hnumbered
    | versionNegotiation _ htype | retry _ htype =>
      rw [Header.Numbered, htype] at hnumbered
      simp at hnumbered
    | @initial tokenLen length _ _ htype htoken hlength =>
      have htokenSize := htoken.size
      have hlengthSize := hlength.size
      have hskip := htoken.skipVarInt (hdr.token ++ (length ++ rest))
      simp only [if_pos htype, List.append_assoc, hskip, List.drop_left' rfl,
        htoken.minimal_iff, hlength.minimal_iff]
      refine ⟨trivial, hlong, hlength.value_le, fun _ => htoken.value_le, ?_, ?_⟩
      · rw [Header.minimalLen, if_pos htype]
        simp only [List.length_append]
        omega
      · rw [Header.minimalLen, if_pos htype]
        simp only [List.length_append]
        omega
    | numbered _ htype hlength =>
      have hne : hdr.type ≠ some .initial := by
        rcases htype with htype | htype <;> rw [htype] <;> decide
      have hlengthSize := hlength.size
      rw [if_neg hne, hlength.minimal_iff]
      refine ⟨rfl, hlong, hlength.value_le, fun hcontra => absurd hcontra hne, ?_, ?_⟩
      · rw [Header.minimalLen, if_neg hne]
        omega
      · rw [Header.minimalLen, if_neg hne]
        omega

variable {extHdr : ExtendedHeader}

theorem parseExtended_eq_ok {valid : Bool}
    (h : hdr.parseExtended bytes = .ok ((valid, extHdr), rest)) :
    extHdr.toHeader = hdr ∧ 1 ≤ extHdr.packetNumberLen ∧ extHdr.packetNumberLen ≤ 4 := by
  obtain ⟨typeByte, mid, -, hskip⟩ := Reader.bind_run_eq_ok.mp h
  obtain ⟨-, mid', -, hread⟩ := Reader.bind_run_eq_ok.mp hskip
  obtain ⟨⟨len, n⟩, mid'', hnumber, hend⟩ := Reader.bind_run_eq_ok.mp hread
  obtain ⟨value, _, -, hlen⟩ := Reader.bind_run_eq_ok.mp hnumber
  obtain ⟨heq, rfl⟩ := Reader.pure_run_eq_ok hlen
  obtain ⟨rfl, -⟩ := Prod.mk.inj heq
  have hbits : (typeByte &&& 0x3).toNat ≤ 3 := by
    exact Nat.and_le_right
  dsimp only at hend
  split at hend
  · obtain ⟨hok, rfl⟩ := Reader.pure_run_eq_ok hend
    obtain ⟨-, rfl⟩ := Prod.mk.inj hok
    exact ⟨rfl, Nat.succ_pos _, Nat.succ_le_succ hbits⟩
  · obtain ⟨hok, rfl⟩ := Reader.pure_run_eq_ok hend
    obtain ⟨-, rfl⟩ := Prod.mk.inj hok
    exact ⟨rfl, Nat.succ_pos _, Nat.succ_le_succ hbits⟩

private theorem getLength_minimalLen (hlong : extHdr.isLongHeader = true)
    (hlength : extHdr.length ≤ maxVarInt8)
    (htoken : extHdr.type = some .initial → extHdr.token.length ≤ maxVarInt8) :
    extHdr.getLength = .ok (extHdr.minimalLen + extHdr.packetNumberLen) := by
  unfold ExtendedHeader.getLength Header.minimalLen Header.invariantLen
  rw [if_pos hlong, varIntLen_of_le hlength, ok_bind]
  by_cases htype : extHdr.type = some .initial
  · rw [if_pos htype, if_pos htype, varIntLen_of_le (htoken htype), ok_bind]
    congr 1
    omega
  · rw [if_neg htype, if_neg htype]
    congr 1
    omega

theorem parsePacket_getLength (h : parsePacket data connIDLen = .ok packet)
    (hnumbered : packet.hdr.Numbered) (hext : extHdr.toHeader = packet.hdr) :
    extHdr.getLength = .ok (packet.hdr.minimalLen + extHdr.packetNumberLen) ∧
      packet.hdr.minimalLen ≤ packet.hdr.parsedLen ∧
      (packet.hdr.minimalLen = packet.hdr.parsedLen ↔ MinimalVarInts packet.hdr data) := by
  obtain ⟨understood, rest, hparsed, -, hcut⟩ := parsePacket_eq_ok h
  obtain ⟨hunderstood, hlong, hlength, htoken, hle, hiff⟩ := hparsed.minimalLen hnumbered
  rw [← (hcut hunderstood).parsedLen] at hle hiff
  rw [← hext] at hlong hlength htoken
  refine ⟨?_, hle, hiff⟩
  rw [getLength_minimalLen hlong hlength htoken, hext]

private theorem length_decryptHeader (hp : HeaderProtector) {hdrLen : Nat}
    (hsize : hdrLen + 20 ≤ data.length) (hpos : 1 ≤ hdrLen) :
    (decryptHeader hp data hdrLen).length = data.length := by
  unfold decryptHeader
  simp only [List.length_append, List.length_cons, List.length_drop, List.length_take,
    HeaderProtector.length_apply]
  omega

theorem restoreBytes_drop {hdrLen n : Nat}
    {decrypted : List UInt8} (hlen : decrypted.length = data.length)
    (hsize : hdrLen + 20 ≤ data.length) (hbehind : decrypted.drop (hdrLen + 4) =
      data.drop (hdrLen + 4))
    (hgetLength : extHdr.getLength = .ok n) (hle : n ≤ hdrLen + extHdr.packetNumberLen)
    (hnumber : extHdr.packetNumberLen ≤ 4) :
    ∃ restored, restoreBytes extHdr hdrLen decrypted ((data.drop hdrLen).take 4) =
        .ok restored ∧ restored.length = data.length ∧
      (n = hdrLen + extHdr.packetNumberLen → restored.drop n = data.drop n) := by
  unfold restoreBytes
  split
  · next hfour =>
    refine ⟨decrypted, rfl, hlen, fun hn => ?_⟩
    rw [hn, hfour, hbehind]
  · next hfour =>
    rw [hgetLength, ok_bind, copySlice, if_neg (by omega)]
    refine ⟨_, rfl, ?_, fun hn => ?_⟩
    · simp only [List.length_append, List.length_take, List.length_drop]
      omega
    · have horig : ((data.drop hdrLen).take 4).drop extHdr.packetNumberLen =
          (data.drop n).take (4 - extHdr.packetNumberLen) := by
        rw [List.drop_take, List.drop_drop, hn]
      have hshort : (((data.drop hdrLen).take 4).drop extHdr.packetNumberLen).take
          (hdrLen + 4 - n) = (data.drop n).take (4 - extHdr.packetNumberLen) := by
        rw [horig, List.take_take]
        congr 1
        omega
      have hcount : ((data.drop n).take (4 - extHdr.packetNumberLen)).length =
          4 - extHdr.packetNumberLen := by
        rw [List.length_take, List.length_drop]
        omega
      rw [hshort, hcount, List.append_assoc, List.drop_left' (by rw [List.length_take]; omega)]
      have hend : n + (4 - extHdr.packetNumberLen) = hdrLen + 4 := by omega
      rw [hend, hbehind, ← hend, ← List.drop_drop, List.take_append_drop]

theorem unpackHeader_offset (h : parsePacket data connIDLen = .ok packet)
    (hnumbered : packet.hdr.Numbered) (u : PacketUnpacker) (hp : HeaderProtector) :
    (∀ cause, u.unpackHeader hp packet.hdr packet.data ≠ .error (.panic cause)) ∧
    ∀ valid extHdr restored,
      u.unpackHeader hp packet.hdr packet.data = .ok (valid, extHdr, restored) →
      extHdr.toHeader = packet.hdr ∧ ∃ n, extHdr.getLength = .ok n ∧
        n ≤ restored.length ∧ (n = packet.hdr.parsedLen + extHdr.packetNumberLen →
          restored.drop n = packet.data.drop n) := by
  unfold PacketUnpacker.unpackHeader
  dsimp only
  split
  · simp
  next hsmall =>
  have hsize : packet.hdr.parsedLen + 20 ≤ packet.data.length := by omega
  cases hparse : packet.hdr.parseExtended
      (decryptHeader hp packet.data packet.hdr.parsedLen) with
  | error err => simp [liftParse]
  | ok result =>
    obtain ⟨hext, -, hnumber⟩ := parseExtended_eq_ok hparse
    obtain ⟨hgetLength, hle, -⟩ := parsePacket_getLength h hnumbered hext
    have hpos : 1 ≤ packet.hdr.parsedLen := by
      unfold Header.minimalLen Header.invariantLen at hle
      omega
    have hbehind : (decryptHeader hp packet.data packet.hdr.parsedLen).drop
        (packet.hdr.parsedLen + 4) = packet.data.drop (packet.hdr.parsedLen + 4) := by
      refine List.drop_left' ?_
      simp only [List.length_append, List.length_cons, List.length_drop,
        List.length_take, List.length_mapIdx]
      omega
    obtain ⟨restored, hrestored, hlen, hdrop⟩ := restoreBytes_drop
      (length_decryptHeader hp hsize hpos) hsize hbehind hgetLength (by omega) hnumber
    rw [liftParse, ok_bind]
    rw [hrestored, liftPanic, ok_bind]
    refine ⟨fun _ herr => ?_, fun valid' extHdr' restored' hok => ?_⟩
    · cases herr
    cases hok
    exact ⟨hext, _, hgetLength, by omega, hdrop⟩

/--
`GetLength` returns the length of a parsed header exactly if its numbers are encoded in as
few bytes as possible.  The payload is then taken from behind the header; in any case no
slice is out of range.
-/
theorem getLength_eq_iff (h : parsePacket data connIDLen = .ok packet)
    (hnumbered : packet.hdr.Numbered) :
    (∀ decrypted valid extHdr rest,
      packet.hdr.parseExtended decrypted = .ok ((valid, extHdr), rest) →
      (extHdr.getLength = .ok (packet.hdr.parsedLen + extHdr.packetNumberLen) ↔
        MinimalVarInts packet.hdr data)) ∧
    ∀ u hp, (∀ cause, PacketUnpacker.unpackHeader u hp packet.hdr packet.data ≠
        .error (.panic cause)) ∧
      ∀ valid extHdr restored,
        u.unpackHeader hp packet.hdr packet.data = .ok (valid, extHdr, restored) →
        ∃ n, extHdr.getLength = .ok n ∧ n ≤ restored.length ∧
          (n = packet.hdr.parsedLen + extHdr.packetNumberLen ↔
            MinimalVarInts packet.hdr data) ∧
          (MinimalVarInts packet.hdr data → restored.drop n =
            packet.data.drop (packet.hdr.parsedLen + extHdr.packetNumberLen)) := by
  constructor
  · intro decrypted valid extHdr rest hparse
    obtain ⟨hext, -, -⟩ := parseExtended_eq_ok hparse
    obtain ⟨hgetLength, -, hiff⟩ := parsePacket_getLength h hnumbered hext
    rw [hgetLength, ← hiff, Except.ok.injEq]
    exact Nat.add_right_cancel_iff
  · intro u hp
    obtain ⟨hpanic, hunpacked⟩ := unpackHeader_offset h hnumbered u hp
    refine ⟨hpanic, fun valid extHdr restored hok => ?_⟩
    obtain ⟨hext, n, hn, hrange, hdrop⟩ := hunpacked valid extHdr restored hok
    obtain ⟨hgetLength, -, hiff⟩ := parsePacket_getLength h hnumbered hext
    have heq : n = packet.hdr.minimalLen + extHdr.packetNumberLen :=
      Except.ok.inj (hn.symm.trans hgetLength)
    have hoffset : n = packet.hdr.parsedLen + extHdr.packetNumberLen ↔
        MinimalVarInts packet.hdr data := by
      rw [← hiff, heq]
      exact Nat.add_right_cancel_iff
    refine ⟨n, hn, hrange, hoffset, fun hminimal => ?_⟩
    have hright := hoffset.mpr hminimal
    rw [← hright]
    exact hdrop hright

def sampleHandshakePacket (length : List UInt8) : List UInt8 :=
  [0xe0, 0x51, 0x47, 0x4f, 0xff, 0, 0] ++ length ++ [7, 8]

theorem getLength_eq_iff_minimal :
    ∃ packet extHdr, parsePacket (sampleHandshakePacket [2]) 0 = .ok packet ∧
      packet.hdr.parseExtended packet.data = .ok ((true, extHdr), [8]) ∧
      extHdr.getLength = .ok (packet.hdr.parsedLen + extHdr.packetNumberLen) := by
  have hobs : ((parsePacket (sampleHandshakePacket [2]) 0).map fun packet =>
      decide (packet.hdr.Numbered ∧
        MinimalVarInts packet.hdr (sampleHandshakePacket [2]) ∧
        (packet.hdr.parseExtended packet.data).map (fun r => (r.1.1, r.2)) =
          .ok (true, [8]))) = .ok true := by
    decide +kernel
  obtain ⟨packet, hpacket, hobs⟩ := map_eq_ok hobs
  obtain ⟨hnumbered, hminimal, hparse⟩ := of_decide_eq_true hobs
  obtain ⟨⟨⟨valid, extHdr⟩, rest⟩, hext, heq⟩ := map_eq_ok hparse
  cases heq
  exact ⟨packet, extHdr, hpacket, hext,
    ((getLength_eq_iff hpacket hnumbered).1 _ _ _ _ hext).mpr hminimal⟩

theorem getLength_longEncoding :
    ((parsePacket (sampleHandshakePacket [0x40, 2]) 0).map fun packet =>
      (packet.hdr.type, packet.hdr.parsedLen,
        (packet.hdr.parseExtended packet.data).map fun r =>
          (r.1.2.packetNumberLen, r.1.2.getLength))) =
      .ok (some .handshake, 9, .ok (1, .ok 9)) := by
  decide +kernel

end Qperf.Quic
