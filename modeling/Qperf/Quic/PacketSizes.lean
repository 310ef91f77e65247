import Qperf.Quic.Budget
import Qperf.Quic.PacketPacker
import Qperf.Quic.SentHistory

/-!
# Sizes of packets

A payload is `Sized` if its frames can be written and its length is that of their
encoding.  All ways to fill a packet keep payloads sized, and a sized payload that
leaves room for the header, the padding and the overhead is sealed.
-/

namespace Qperf.Quic

open Qperf.Foundation

/-! ## Frames and payloads -/

namespace Frame

def length : Frame → Except GoPanic Nat
  | .stream f => f.length
  | .control f => f.length

def wireLen : Frame → Nat
  | .stream f => f.wireLen
  | .control f => f.wireLen

def Valid : Frame → Prop
  | .stream f => f.Valid ∧ (f.data ≠ [] ∨ f.finBit = true)
  | .control f => f.Valid

variable {f : Frame}

theorem Valid.length (h : f.Valid) : f.length = .ok f.wireLen := by
  cases f with
  | stream f => exact h.1.length
  | control f => exact ControlFrame.Valid.length h

theorem Valid.write (h : f.Valid) :
    ∃ bytes, f.write = .ok bytes ∧ bytes.length = f.wireLen := by
  cases f with
  | stream f => exact h.1.write h.2
  | control f => exact ControlFrame.Valid.write h

end Frame

def framesSize (frames : List Frame) : Nat := (frames.map Frame.wireLen).sum

def ackSize : Option AckFrame → Nat
  | none => 0
  | some ack =>
    match ack.length with
    | .ok n => n
    | .error _ => 0

def AckValid (ack : Option AckFrame) : Prop := ∀ f, ack = some f → f.Valid

variable {ack : Option AckFrame}

theorem AckValid.ackPayload (h : AckValid ack) :
    PacketPacker.ackPayload ack = .ok { ack, length := ackSize ack } := by
  cases ack with
  | none => rfl
  | some f =>
    obtain ⟨n, bytes, hn, -⟩ := (h f rfl).sizes
    simp only [PacketPacker.ackPayload, ackSize, hn, ok_bind]
    rfl

theorem AckValid.writeAck (h : AckValid ack) :
    ∃ bytes, PacketPacker.writeAck ack = .ok bytes ∧ bytes.length = ackSize ack := by
  cases ack with
  | none => exact ⟨[], rfl, rfl⟩
  | some f =>
    obtain ⟨n, bytes, hn, hbytes, hlength, -⟩ := (h f rfl).sizes
    exact ⟨bytes, hbytes, by simp only [ackSize, hn, hlength]⟩

theorem AckValid.ackSize_le (h : AckValid ack) :
    ackSize ack ≤ AckFrame.maxWireLen := by
  cases ack with
  | none => exact Nat.zero_le _
  | some f =>
    obtain ⟨n, bytes, hn, -, -, -, hle⟩ := (h f rfl).sizes
    simpa only [ackSize, hn] using hle

structure Payload.Sized (payload : Payload) : Prop where
  ack : AckValid payload.ack
  frames : ∀ f ∈ payload.frames, f.Valid
  length : payload.length = ackSize payload.ack + framesSize payload.frames

theorem Payload.Sized.ofAck (h : AckValid ack) :
    Payload.Sized { ack, length := ackSize ack } :=
  ⟨h, (fun _ hf => nomatch hf), rfl⟩

theorem Payload.Sized.append {payload : Payload} (h : payload.Sized)
    {frames : List Frame} (hframes : ∀ f ∈ frames, f.Valid) :
    Payload.Sized { payload with
      frames := payload.frames ++ frames
      length := payload.length + framesSize frames } := by
  refine ⟨h.ack, ?_, ?_⟩
  · intro f hf
    rcases List.mem_append.mp hf with hf | hf
    · exact h.frames f hf
    · exact hframes f hf
  · simp only [h.length, framesSize, List.map_append, List.sum_append]
    omega

/-! ## Sealing -/

/-- `Length`, summed over the ACK and the frames of a packet. -/
def PackedPacket.payloadLength (packet : PackedPacket) : Except GoPanic Nat := do
  let payload ← PacketPacker.ackPayload packet.ack
  let lengths ← packet.frames.mapM Frame.length
  return payload.length + lengths.sum

/-- The bytes of a packet: its payload bytes are as many as `Length` says. -/
def PackedPacket.Written (packet : PackedPacket) (padding : Nat) : Prop :=
  ∃ hdr ack frames, packet.header.write = .ok hdr ∧
    PacketPacker.writeAck packet.ack = .ok ack ∧
    packet.frames.mapM Frame.write = .ok frames ∧
    packet.raw.length = hdr.length +
      (ack.length + padding + frames.flatten.length) + aeadOverhead ∧
    packet.payloadLength = .ok (ack.length + frames.flatten.length)

namespace PacketPacker

variable {p : PacketPacker} {header : ExtendedHeader} {payload : Payload}
variable {encLevel : EncryptionLevel} {sealer : Sealer} {num : UInt16}

private theorem length_encryptHeader (sealer : Sealer) {raw : List UInt8}
    {pnOffset payloadOffset : Nat} (hpos : 0 < pnOffset)
    (hle : pnOffset ≤ payloadOffset) (hraw : payloadOffset ≤ raw.length) :
    (encryptHeader sealer raw pnOffset payloadOffset).length = raw.length := by
  simp only [encryptHeader, HeaderProtector.apply, List.length_append,
    List.length_cons, List.length_drop, List.length_take, List.length_mapIdx]
  omega

private theorem popPacketNumber_of_space {space : PacketNumberSpace TrackedFrame}
    (h : p.pnManager.getPacketNumberSpace encLevel = .ok space) (num : UInt16) :
    ∃ next, p.pnManager.popPacketNumber encLevel num = .ok (space.pns.peek, next) := by
  unfold SentPacketHandler.popPacketNumber PacketNumberGenerator.peek
  rw [h, ok_bind, ← SentPacketHandler.pop_fst space.pns num]
  exact ⟨_, rfl⟩

def plaintext (ack : List UInt8) (padding : Nat) (frames : List (List UInt8)) :
    List UInt8 :=
  ack ++ List.replicate padding 0 ++ frames.flatten

def sealedBytes (sealer : Sealer) (header : ExtendedHeader)
    (hdr data : List UInt8) : List UInt8 :=
  encryptHeader sealer (hdr ++ sealer.sealData data header.packetNumber hdr)
    (hdr.length - header.packetNumberLen) hdr.length

@[simp] theorem length_plaintext (ack : List UInt8) (padding : Nat)
    (frames : List (List UInt8)) :
    (plaintext ack padding frames).length =
      ack.length + padding + frames.flatten.length := by
  simp only [plaintext, List.length_append, List.length_replicate]

private theorem length_sealedBytes (sealer : Sealer) {hdr : List UInt8}
    (data : List UInt8) (hhdr : header.packetNumberLen < hdr.length) :
    (sealedBytes sealer header hdr data).length = hdr.length + data.length + aeadOverhead := by
  unfold sealedBytes
  rw [length_encryptHeader sealer (Nat.sub_pos_of_lt hhdr) (Nat.sub_le ..)
    (by simp), List.length_append, sealer.length_sealData, Nat.add_assoc]

theorem writeAndSealPacketWithPadding_eq {hdr ack : List UInt8}
    {frames : List (List UInt8)} {padding : Nat}
    {next : SentPacketHandler TrackedFrame}
    (hmax : p.maxPacketSize ≤ maxPacketSizeIPv4)
    (hhdr : header.write = .ok hdr) (hack : writeAck payload.ack = .ok ack)
    (hframes : payload.frames.mapM Frame.write = .ok frames)
    (hpop : p.pnManager.popPacketNumber encLevel num = .ok (header.packetNumber, next))
    (hlength : payload.length = ack.length + frames.flatten.length)
    (htotal : hdr.length + (plaintext ack padding frames).length ≤ p.maxPacketSize) :
    p.writeAndSealPacketWithPadding header payload padding encLevel sealer num =
      .ok (⟨header,
        sealedBytes sealer header hdr (plaintext ack padding frames),
        payload.ack, payload.frames⟩, { p with pnManager := next }) := by
  unfold maxPacketSizeIPv4 at hmax
  have hdata := length_plaintext ack padding frames
  have hsize : wrapByteCount
      ((plaintext ack padding frames).length - padding) = payload.length := by
    unfold wrapByteCount
    omega
  unfold plaintext at hdata hsize htotal
  unfold writeAndSealPacketWithPadding PacketPacker.padding
  simp only [hhdr, hack, hframes, ofWrite, ok_bind]
  rw [if_neg (by omega), ok_bind]
  simp only [hsize, hpop, ofHandler, ok_bind]
  rw [if_neg (by simp), if_neg (Nat.not_lt.mpr htotal),
    if_neg (by unfold maxReceivePacketSize aeadOverhead; omega),
    if_neg (by simp)]
  rfl

theorem sealed_of_room {padding : Nat} {space : PacketNumberSpace TrackedFrame}
    (hmax : p.maxPacketSize ≤ maxPacketSizeIPv4) (hheader : header.Valid)
    (hpayload : payload.Sized) (hspace : p.pnManager.getPacketNumberSpace encLevel = .ok space)
    (hpeek : space.pns.peek = header.packetNumber)
    (htotal : header.wireLen + payload.length + padding + aeadOverhead ≤
      p.maxPacketSize) (sealer : Sealer) (num : UInt16) :
    ∃ packet next,
      p.writeAndSealPacketWithPadding header payload padding encLevel sealer
        num = .ok (packet, next) ∧ packet.header = header ∧ packet.Written padding ∧
      packet.raw.length = header.wireLen + payload.length + padding + aeadOverhead := by
  obtain ⟨hdr, hhdr, hhdrLen⟩ := hheader.write
  obtain ⟨ack, hack, hackLen⟩ := hpayload.ack.writeAck
  obtain ⟨frames, hframes, hframesLen⟩ :=
    mapM_ok_flatten fun f hf => (hpayload.frames f hf).write
  obtain ⟨next, hpop⟩ := popPacketNumber_of_space hspace num
  rw [hpeek] at hpop
  change _ = framesSize payload.frames at hframesLen
  have hlength := hpayload.length
  have hhdrPos : header.packetNumberLen < hdr.length := by
    rw [hhdrLen]
    unfold ExtendedHeader.wireLen
    split <;> omega
  have hraw := length_sealedBytes sealer (plaintext ack padding frames) hhdrPos
  rw [length_plaintext] at hraw
  refine ⟨_, _, writeAndSealPacketWithPadding_eq hmax hhdr hack hframes hpop
    (by omega) (by rw [length_plaintext]; omega), rfl, ?_,
    hraw.trans (by omega)⟩
  refine ⟨hdr, ack, frames, hhdr, hack, hframes, hraw, ?_⟩
  simp only [PackedPacket.payloadLength, hpayload.ack.ackPayload, ok_bind,
    mapM_eq_ok_map fun f hf => (hpayload.frames f hf).length]
  rw [hackLen, hframesLen]
  rfl

/-! ## Filling a packet -/

private theorem wrapByteCount_of_le {n : Int} (h : 0 ≤ n) (hlt : n < 2 ^ 63) :
    (wrapByteCount n : Int) = n := by
  unfold wrapByteCount
  omega

/--
The loop never panics, and it keeps to the available bytes if the payload did so
before it.  If the difference wraps, nothing is too long any more.
-/
theorem popLoop_sized {get : RetransmissionQueue → Nat →
      Except GoPanic (Option ControlFrame × RetransmissionQueue)}
    {frames : RetransmissionQueue → List ControlFrame} (hget : Takes get frames)
    {available : Int} (havailable : available < 2 ^ 63) (least turns : Nat)
    {q : RetransmissionQueue} (hq : ∀ f ∈ frames q, f.Valid) (hpayload : payload.Sized) :
    ∃ q' payload' taken, popLoop get available least turns q payload = .ok (q', payload') ∧
      (frames q).Perm (taken ++ frames q') ∧ payload'.Sized ∧ payload'.ack = payload.ack ∧
      payload'.frames = payload.frames ++ taken.map .control ∧
      (payload.length ≤ available → payload'.length ≤ available) := by
  induction turns generalizing q payload with
  | zero =>
    exact ⟨q, payload, [], rfl, .refl _, hpayload, rfl, by simp, id⟩
  | succ turns ih =>
    simp only [popLoop]
    split
    · exact ⟨q, payload, [], rfl, .refl _, hpayload, rfl, by simp, id⟩
    obtain ⟨taken, q', htake, hperm, hle⟩ :=
      hget q (wrapByteCount (available - payload.length)) hq
    rw [htake, ok_bind]
    cases taken with
    | none => exact ⟨q', payload, [], rfl, hperm, hpayload, rfl, by simp, id⟩
    | some f =>
      have hf : f.Valid := hq f (hperm.mem_iff.mpr (by simp))
      have hq' : ∀ g ∈ frames q', g.Valid := fun g hg =>
        hq g (hperm.mem_iff.mpr (by simp [hg]))
      have hsingle : ∀ g ∈ [Frame.control f], g.Valid := by
        intro g hg
        rw [List.mem_singleton.mp hg]
        exact hf
      have hsized := hpayload.append hsingle
      simp only [hf.length, ok_bind]
      obtain ⟨q'', payload', rest, hloop, hperm', hsized', hack, hframes,
        hbound⟩ := ih hq' hsized
      refine ⟨q'', payload', f :: rest, hloop,
        hperm.trans (hperm'.cons f), hsized', hack, ?_, ?_⟩
      · rw [hframes]
        simp
      · intro hfits
        apply hbound
        have hshort := hle f rfl
        have hwrap : (wrapByteCount (available - payload.length) : Int) =
            available - payload.length :=
          wrapByteCount_of_le (by omega) (by omega)
        simp only [framesSize, List.map_cons, List.map_nil, List.sum_cons,
          List.sum_nil, Frame.wireLen]
        omega

theorem controlFrameLoop_sized (maxLen : Nat) {stack frames : List ControlFrame}
    {length : Nat} (hstack : ∀ f ∈ stack, f.Valid) (hframes : ∀ f ∈ frames, f.Valid)
    (hlength : length = (frames.map ControlFrame.wireLen).sum) (hle : length ≤ maxLen) :
    ∃ stack' frames' length', controlFrameLoop maxLen stack frames length =
        .ok (stack', frames', length') ∧ (∀ f ∈ frames', f.Valid) ∧
      length' = (frames'.map ControlFrame.wireLen).sum ∧ length' ≤ maxLen ∧
      length' ≤ length + (stack.map ControlFrame.wireLen).sum := by
  induction stack generalizing frames length with
  | nil => exact ⟨_, _, _, rfl, hframes, hlength, hle, Nat.le_add_right ..⟩
  | cons f stack ih =>
    obtain ⟨hf, hstack⟩ := List.forall_mem_cons.mp hstack
    simp only [controlFrameLoop, hf.length, ok_bind, List.map_cons, List.sum_cons]
    split
    · exact ⟨_, _, _, rfl, hframes, hlength, hle, Nat.le_add_right ..⟩
    · next hfits =>
      rw [← Nat.add_assoc]
      apply ih hstack
      · intro g hg
        rcases List.mem_append.mp hg with hg | hg
        · exact hframes g hg
        · rw [List.mem_singleton.mp hg]
          exact hf
      · simp [hlength]
      · exact Nat.le_of_not_lt hfits

theorem framesSize_control (frames : List ControlFrame) :
    framesSize (frames.map .control) = (frames.map ControlFrame.wireLen).sum := by
  rw [framesSize, List.map_map]
  rfl

private theorem framesSize_stream (frames : List StreamFrame) :
    framesSize (frames.map .stream) = (frames.map StreamFrame.wireLen).sum := by
  rw [framesSize, List.map_map]
  rfl

theorem fillPacket_sized {ack : Option AckFrame} {q : RetransmissionQueue}
    {c : Connection} (hack : AckValid ack) (hq : ∀ f ∈ q.appData, f.Valid)
    (hcontrol : ∀ f ∈ c.framer.controlFrames, f.Valid) (hc : c.Valid)
    (input : PackInput) {maxFrameSize : Nat} (hmax : maxFrameSize ≤ maxReceivePacketSize)
    (hfits : ackSize ack ≤ maxFrameSize) :
    ∃ payload q' c', fillPacket ack q c input maxFrameSize = .ok (payload, q', c') ∧
      payload.Sized ∧ payload.ack = ack ∧ payload.length ≤ maxFrameSize := by
  have hmax' := hmax
  unfold maxReceivePacketSize at hmax'
  obtain ⟨q', payload, taken, hloop, -, hsized, hpayloadAck, -, hbound⟩ :=
    popLoop_sized RetransmissionQueue.takes_getAppDataFrame
      (show ((maxFrameSize : Int) < 2 ^ 63) by omega) minStreamFrameSize
      q.appData.length hq (Payload.Sized.ofAck hack)
  have hpayloadLe : payload.length ≤ maxFrameSize := by
    have := hbound (by exact_mod_cast hfits)
    omega
  have hrest : wrapByteCount (maxFrameSize - payload.length) = maxFrameSize - payload.length := by
    unfold wrapByteCount
    omega
  have hnone : 0 = (([] : List ControlFrame).map ControlFrame.wireLen).sum := rfl
  obtain ⟨stack, control, controlLen, hcontrolLoop, hcontrolValid,
    hcontrolLen, hcontrolLe, -⟩ := controlFrameLoop_sized (maxFrameSize - payload.length)
      (fun f hf => hcontrol f (List.mem_reverse.mp hf))
      (List.forall_mem_nil _) hnone (Nat.zero_le _)
  have hrest' : wrapByteCount (maxFrameSize - (payload.length + controlLen : Nat)) =
      maxFrameSize - (payload.length + controlLen) := by
    unfold wrapByteCount
    omega
  have hleft : maxFrameSize - (payload.length + controlLen) ≤
      maxReceivePacketSize := by omega
  obtain ⟨c', streams, streamLen, happend, hwritable, hstreamLen, hstreamLe, -⟩ :=
    Connection.Valid.appendStreamFrames
      (c := { c with framer :=
        { c.framer with controlFrames := stack.reverse } })
      hc input.convert hleft input.limit
  have hcontrolFrames : ∀ f ∈ control.map Frame.control, f.Valid := by
    simpa [Frame.Valid] using hcontrolValid
  have hstreamFrames : ∀ f ∈ streams.map Frame.stream, f.Valid := by
    simpa [Frame.Valid] using hwritable
  have hall := (hsized.append hcontrolFrames).append hstreamFrames
  rw [framesSize_control, ← hcontrolLen, framesSize_stream, ← hstreamLen] at hall
  refine ⟨_, q', c', ?_, hall, hpayloadAck, ?_⟩
  · unfold fillPacket appendControlFrames
    simp only [hack.ackPayload, ok_bind, hloop, hrest, hcontrolLoop]
    simp only [pure_bind, ok_bind, hrest', happend]
    rfl
  · dsimp only
    omega

theorem fillPacket_overlong {ack : Option AckFrame} {q : RetransmissionQueue}
    {c : Connection} (hack : AckValid ack) (hq : ∀ f ∈ q.appData, f.Valid)
    (hcontrol : ∀ f ∈ c.framer.controlFrames, f.Valid)
    (hmemory : framesSize (q.appData.map .control) +
      framesSize (c.framer.controlFrames.map .control) ≤ 2 ^ 30)
    (input : PackInput) {maxFrameSize : Nat} (hlong : maxFrameSize < ackSize ack) :
    (∃ filled, fillPacket ack q c input maxFrameSize = .ok filled) ↔
      c.ServesNone input.limit := by
  have hackLe := hack.ackSize_le
  unfold AckFrame.maxWireLen maxAckFrameSize at hackLe
  obtain ⟨q', payload, taken, hloop, hperm, hsized, hpayloadAck, hframes, -⟩ :=
    popLoop_sized RetransmissionQueue.takes_getAppDataFrame
      (show ((maxFrameSize : Int) < 2 ^ 63) by omega) minStreamFrameSize
      q.appData.length hq (Payload.Sized.ofAck hack)
  have hqueued : framesSize (q.appData.map .control) =
      framesSize (taken.map .control) + framesSize (q'.appData.map .control) := by
    rw [framesSize, (hperm.map Frame.control |>.map Frame.wireLen).sum_nat]
    simp only [framesSize, List.map_append, List.sum_append]
  have hpayload := hsized.length
  rw [hpayloadAck, hframes] at hpayload
  change payload.length = ackSize ack + framesSize (taken.map .control) at hpayload
  have hnone : 0 = (([] : List ControlFrame).map ControlFrame.wireLen).sum := rfl
  obtain ⟨stack, control, controlLen, hcontrolLoop, -, -, -, hcontrolLe⟩ :=
    controlFrameLoop_sized (wrapByteCount (maxFrameSize - payload.length))
      (fun f hf => hcontrol f (List.mem_reverse.mp hf)) (List.forall_mem_nil _) hnone
      (Nat.zero_le _)
  rw [List.map_reverse, List.sum_reverse, ← framesSize_control] at hcontrolLe
  -- The difference wraps around, to a number that is too large for a variable-length one.
  have hge : 2 ^ 64 - 2 ^ 31 ≤
      wrapByteCount (maxFrameSize - (payload.length + controlLen : Nat)) := by
    unfold wrapByteCount
    omega
  have hlt : wrapByteCount (maxFrameSize - (payload.length + controlLen : Nat)) < 2 ^ 64 := by
    unfold wrapByteCount
    omega
  have hserves : Connection.ServesNone
      { c with framer := { c.framer with controlFrames := stack.reverse } } input.limit ↔
      c.ServesNone input.limit := Iff.rfl
  unfold fillPacket appendControlFrames
  simp only [hack.ackPayload, ok_bind, hloop, hcontrolLoop]
  by_cases hserved : c.ServesNone input.limit
  · obtain ⟨c', happend⟩ := Connection.appendStreamFrames_of_none (hserves.mpr hserved)
      input.convert (wrapByteCount (maxFrameSize - (payload.length + controlLen : Nat)))
    simp only [pure_bind, happend]
    exact iff_of_true ⟨_, rfl⟩ hserved
  · obtain ⟨cause, happend⟩ := Connection.appendStreamFrames_overlong hge hlt
      (hserves.not.mpr hserved) input.convert
    simp only [pure_bind, happend]
    refine iff_of_false ?_ hserved
    rintro ⟨filled, h⟩
    cases h

end PacketPacker

end Qperf.Quic
