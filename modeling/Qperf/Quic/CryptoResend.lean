import Qperf.Quic.CryptoTracking

/-!
# Sending handshake data again

A CRYPTO frame that was lost is sent again as it is.  It has to fit into an otherwise empty
packet of its level, but the header of that packet may have become larger: after a Retry by
the token, and after the first packet of the server by its connection ID.  A server also
cuts new Initial data for the maximum packet size, and lost data for 1200 bytes.
-/

namespace Qperf.Quic

open Qperf.Foundation

namespace PacketPacker

variable {p p' p'' : PacketPacker} {encLevel : EncryptionLevel} {num : UInt16}
variable {packet : PackedPacket} {A : EncryptionLevel → CryptoFrame → Prop}

/-! ## Room for a frame -/

variable {cf : CryptoFrame}

theorem Resendable.of_le (hcf : p.Resendable encLevel cf)
    (hheader : p'.longHeaderLen encLevel ≤ p.longHeaderLen encLevel)
    (hlimit : p.retransmissionLimit encLevel ≤ p'.retransmissionLimit encLevel) :
    p'.Resendable encLevel cf := by
  refine ⟨hcf.1, ?_⟩
  have := hcf.2
  omega

theorem SameRoom.longHeaderLen (h : p.SameRoom p') (encLevel : EncryptionLevel) :
    p'.longHeaderLen encLevel = p.longHeaderLen encLevel := by
  unfold PacketPacker.longHeaderLen
  rw [h.destConnID, h.srcConnID, h.token, h.maxPacketSize]

theorem SameRoom.retransmissionLimit (h : p.SameRoom p') (encLevel : EncryptionLevel) :
    p'.retransmissionLimit encLevel = p.retransmissionLimit encLevel := by
  cases encLevel with
  | initial => rfl
  | handshake | oneRTT => exact h.maxPacketSize

theorem longHeaderLen_mono (hdest : p'.destConnID.length ≤ p.destConnID.length)
    (hsrc : p'.srcConnID = p.srcConnID) (hmax : p'.maxPacketSize ≤ p.maxPacketSize)
    (htoken : encLevel = .initial → p'.token.length ≤ p.token.length) :
    p'.longHeaderLen encLevel ≤ p.longHeaderLen encLevel := by
  have hsize := varIntSize_mono hmax
  unfold PacketPacker.longHeaderLen
  rw [hsrc]
  split
  · next hinitial =>
    have hlen := htoken hinitial
    have hlenSize := varIntSize_mono hlen
    omega
  · omega

theorem SameRoom.sizeLimits (h : p.SameRoom p') (hlimits : p.SizeLimits) :
    p'.SizeLimits := by
  unfold SizeLimits
  rw [h.maxPacketSize]
  exact hlimits

/-- The length that is offered to the first lost frame of a packet without an ACK. -/
def offeredLen (p : PacketPacker) (encLevel : EncryptionLevel) : Nat :=
  wrapByteCount
    (p.retransmissionLimit encLevel - p.longHeaderLen encLevel - aeadOverhead)

def cryptoFrame? : TrackedFrame → Option CryptoFrame
  | ⟨.control (.crypto cf), _⟩ => some cf
  | _ => none

/-- The CRYPTO frames of a level that were sent and may be sent again. -/
def trackedCryptoFrames (p : PacketPacker) (encLevel : EncryptionLevel) :
    List CryptoFrame :=
  (p.pnManager.framesAt encLevel).filterMap cryptoFrame? ++
    p.retransmissionQueue.cryptoData encLevel

theorem Tracks.trackedCryptoFrames (ht : p.Tracks A) :
    p.Tracks fun encLevel cf => A encLevel cf ∧ encLevel ∈ [EncryptionLevel.initial, .handshake] ∧
      p.trackedCryptoFrames encLevel ≠ [] := by
  have hmem : ∀ {encLevel cf onLost}, ⟨.control (.crypto cf), onLost⟩ ∈
      p.pnManager.framesAt encLevel → p.trackedCryptoFrames encLevel ≠ [] := by
    intro encLevel cf onLost hf
    exact List.ne_nil_of_mem (List.mem_append_left _ (List.mem_filterMap.mpr ⟨_, hf, rfl⟩))
  refine ⟨ht.handler, ?_, ht.queue.cryptoOnly, ?_⟩
  · intro encLevel f hf
    have hrouted := ht.outstanding encLevel f hf
    cases encLevel with
    | initial | handshake =>
      obtain ⟨cf, rfl, hcf⟩ := hrouted
      exact ⟨cf, rfl, hcf, by decide, hmem hf⟩
    | oneRTT => exact hrouted
  · intro encLevel cf hcf
    refine ⟨ht.queue.queued encLevel cf hcf, ?_,
      List.ne_nil_of_mem (List.mem_append_right _ hcf)⟩
    cases encLevel with
    | initial => decide
    | handshake => decide
    | oneRTT => cases hcf

/-! ## Keys -/

theorem Tracks.setLargest1RTTAcked (ht : p.Tracks A)
    (h : p.setLargest1RTTAcked = .ok p') : p'.Tracks A ∧ p.SameRoom p' := by
  have hdrop : ∀ {p p' : PacketPacker} {encLevel : EncryptionLevel} {c : CryptoSetup},
      p.Tracks A →
      PacketPacker.dropEncryptionLevel { p with cryptoSetup := c } encLevel = .ok p' →
      p'.Tracks A ∧ p.SameRoom p' := by
    intro p p' encLevel c ht h
    obtain ⟨htracks, pnManager, acks, -, rfl⟩ := ht.dropEncryptionLevel h
    refine ⟨htracks.mono ?_, ⟨rfl, rfl, rfl, rfl, rfl⟩⟩
    intro level cf hcf
    exact hcf.elim And.right (ht.queue.queued level cf)
  obtain ⟨p₁, hinitial, hhandshake⟩ := bind_eq_ok.mp h
  have hfirst : p₁.Tracks A ∧ p.SameRoom p₁ := by
    unfold dropInitialKeys at hinitial
    split at hinitial
    · exact hdrop ht hinitial
    · cases hinitial
      exact ⟨ht, .refl p⟩
  obtain ⟨ht₁, hroom⟩ := hfirst
  unfold dropHandshakeKeys at hhandshake
  split at hhandshake
  · obtain ⟨ht', hroom'⟩ := hdrop ht₁ hhandshake
    exact ⟨ht', hroom.trans hroom'⟩
  · cases hhandshake
    exact ⟨ht₁, hroom⟩

theorem Tracks.sameRoom_handle (ht : p.Tracks A) {taken : List (SentPacket TrackedFrame)}
    {handled : Handled TrackedFrame}
    (htakes : SentPacketHandler.TakesOut encLevel taken p.pnManager handled) :
    (p.handle handled).Tracks A ∧ p.SameRoom (p.handle handled) := by
  obtain ⟨htracks, q, heq, -⟩ := ht.handle htakes
  refine ⟨htracks, ?_⟩
  rw [heq]
  exact ⟨rfl, rfl, rfl, rfl, rfl⟩

/-! ## Taking lost frames -/

theorem takeCryptoFirst_cons {data : List CryptoFrame} {maxLen : Nat}
    {rest : List ControlFrame} (hlength : cf.length = .ok cf.wireLen)
    (hfits : cf.wireLen ≤ maxLen) :
    takeCryptoFirst maxLen (cf :: data) rest = .ok (some (.crypto cf), data, rest) := by
  simp only [takeCryptoFirst, hlength, ok_bind, if_pos hfits]
  rfl

theorem Resendable.le_offeredLen (hcf : p.Resendable encLevel cf)
    (hlimits : p.SizeLimits) : cf.wireLen ≤ p.offeredLen encLevel := by
  have hle := hcf.wireLen_le hlimits
  rw [Nat.cast_zero, sub_zero] at hle
  exact hle

theorem Resendable.getInitialFrame {rest : List CryptoFrame}
    (hcf : p.Resendable .initial cf) (hlimits : p.SizeLimits)
    (hqueue : p.retransmissionQueue.initialCryptoData = cf :: rest) :
    p.retransmissionQueue.getInitialFrame (p.offeredLen .initial) =
      .ok (some (.crypto cf),
        { p.retransmissionQueue with initialCryptoData := rest }) := by
  unfold RetransmissionQueue.getInitialFrame
  rw [hqueue, takeCryptoFirst_cons hcf.1 (hcf.le_offeredLen hlimits)]
  rfl

theorem Resendable.getHandshakeFrame {rest : List CryptoFrame}
    (hcf : p.Resendable .handshake cf) (hlimits : p.SizeLimits)
    (hqueue : p.retransmissionQueue.handshakeCryptoData = cf :: rest) :
    p.retransmissionQueue.getHandshakeFrame (p.offeredLen .handshake) =
      .ok (some (.crypto cf),
        { p.retransmissionQueue with handshakeCryptoData := rest }) := by
  unfold RetransmissionQueue.getHandshakeFrame
  rw [hqueue, takeCryptoFirst_cons hcf.1 (hcf.le_offeredLen hlimits)]
  rfl

/-- A packet without an ACK holds the first lost frames, and at least one of them. -/
theorem PackedAt.resends (hpacked : p.PackedAt p' num packet encLevel)
    (hlevel : encLevel ≠ .oneRTT) (ht : p.Tracks p.Resendable) (hlimits : p.SizeLimits) :
    (packet.frames ≠ [] ∨ packet.ack ≠ none) ∧
      (packet.ack = none → p.retransmissionQueue.cryptoData encLevel ≠ [] →
        ∃ k, packet.frames =
            cryptoFrames ((p.retransmissionQueue.cryptoData encLevel).take (k + 1)) ∧
          p'.retransmissionQueue.cryptoData encLevel =
            (p.retransmissionQueue.cryptoData encLevel).drop (k + 1)) := by
  cases hpacked.filled with
  | retransmissions k _ hqueued hframes hqueue _ _ hfirst =>
    obtain ⟨cf, rest, hdata⟩ := List.exists_cons_of_ne_nil hqueued
    have hpos : packet.ack = none → 0 < k := by
      refine hfirst cf rest hdata hlimits (ht.queue.queued encLevel cf ?_)
      rw [hdata]
      exact List.mem_cons_self
    refine ⟨?_, fun hack _ => ⟨k - 1, ?_⟩⟩
    · by_cases hack : packet.ack = none
      · refine .inl ?_
        obtain ⟨n, rfl⟩ := Nat.exists_eq_add_of_lt (hpos hack)
        rw [hframes, hdata]
        exact List.cons_ne_nil _ _
      · exact .inr hack
    · rw [Nat.sub_add_cancel (hpos hack), hqueue,
        RetransmissionQueue.cryptoData_setCryptoData hlevel]
      exact ⟨hframes, rfl⟩
  | newData cf t _ hnew hframes =>
    refine ⟨.inl ?_, fun _ hqueued => absurd hnew.none hqueued⟩
    rw [hframes]
    exact List.cons_ne_nil _ _
  | ackOnly _ _ hack => exact ⟨.inr hack, fun hnone => absurd hnone hack⟩
  | appData => exact absurd rfl hlevel

/-- A server that takes new Initial data has no more of it than fits into 1200 bytes. -/
def ShortInitialData (p : PacketPacker) : Prop :=
  p.perspective = .server → p.retransmissionQueue.cryptoData .initial = [] →
    p.initialStream.hasData = true →
    p.longHeaderLen .initial + aeadOverhead + (1 + varIntSize p.initialStream.writeOffset +
      varIntSize p.initialStream.writeBuf.length + p.initialStream.writeBuf.length) ≤
      minInitialPacketSize

instance (p : PacketPacker) : Decidable p.ShortInitialData :=
  inferInstanceAs (Decidable (_ → _ → _ → _))

private theorem wireLen_le_of_popCryptoFrame {t t' : CryptoStream} {maxLen : Nat}
    (h : t.popCryptoFrame maxLen = .ok (cf, t')) :
    cf.wireLen ≤ 1 + varIntSize t.writeOffset + varIntSize t.writeBuf.length +
      t.writeBuf.length := by
  obtain ⟨maxDataLen, -, h⟩ := bind_eq_ok.mp h
  cases h
  have hle := List.length_take_le' (min maxDataLen t.writeBuf.length) t.writeBuf
  have hsize := varIntSize_mono hle
  unfold CryptoFrame.wireLen
  dsimp only
  omega

theorem ShortInitialData.resendable (hshort : p.ShortInitialData) (hlimits : p.SizeLimits)
    (hlevel : encLevel ≠ .oneRTT) {t : CryptoStream}
    (hnew : p.NewFrame encLevel (p.pendingAck encLevel) cf t) :
    p.Resendable encLevel cf := by
  cases encLevel with
  | oneRTT => exact absurd rfl hlevel
  | handshake => exact hnew.resend hlimits (.inl rfl)
  | initial =>
    cases hperspective : p.perspective with
    | client => exact hnew.resend hlimits (.inr hperspective)
    | server =>
      have hroom := hshort hperspective hnew.none hnew.data
      obtain ⟨payload, -, hpop⟩ := bind_eq_ok.mp hnew.next
      have hle := wireLen_le_of_popCryptoFrame hpop
      refine ⟨hnew.length, Nat.le_trans ?_ hroom⟩
      exact Nat.add_le_add_left hle _

/-- The header does not get longer while CRYPTO frames may have to be sent again. -/
def KeepsHeader (p : PacketPacker) (token : List UInt8) (destConnID : ConnectionID) : Prop :=
  ∀ encLevel ∈ [EncryptionLevel.initial, .handshake], p.trackedCryptoFrames encLevel ≠ [] →
    destConnID.length ≤ p.destConnID.length ∧
      (encLevel = .initial → token.length ≤ p.token.length)

instance (p : PacketPacker) (token : List UInt8) (destConnID : ConnectionID) :
    Decidable (p.KeepsHeader token destConnID) :=
  inferInstanceAs (Decidable (∀ encLevel ∈ _, _ → _ ∧ _))

end PacketPacker

/-! ## One step -/

namespace PackingSession

variable {s s' : PackingSession} {A : EncryptionLevel → CryptoFrame → Prop}

theorem StepOutcome.tracks {p p' : PacketPacker} {event : SessionEvent}
    (h : StepOutcome p event p') (ht : p.Tracks A)
    (hnew : sendsNewData event = true → ∀ encLevel cf t, encLevel ≠ .oneRTT →
      p.NewFrame encLevel (p.pendingAck encLevel) cf t → A encLevel cf) :
    p'.Tracks A ∧ (changesRoom event = false → p.SameRoom p') ∧
      (p.SizeLimits → p'.SizeLimits) := by
  have hkeeps : p'.Tracks A ∧ p.SameRoom p' → p'.Tracks A ∧
      (changesRoom event = false → p.SameRoom p') ∧ (p.SizeLimits → p'.SizeLimits) :=
    fun ⟨htracks, hroom⟩ => ⟨htracks, fun _ => hroom, hroom.sizeLimits⟩
  cases h with
  | kept hsame hroom hlimits => exact ⟨ht.same hsame, hroom, hlimits⟩
  | sent hpacked hframes hsent =>
    obtain ⟨htracks, pnManager, rfl⟩ := ht.sentPacket hpacked (fun cf t hlevel hf hframe =>
      have hnewData := hframes cf t hlevel hf hframe
      hnew hnewData.1 _ cf t hlevel hnewData.2) hsent
    have hroom := hpacked.settings.toSameRoom
    exact hkeeps ⟨htracks, hroom.destConnID, hroom.srcConnID, hroom.perspective,
      hroom.token, hroom.maxPacketSize⟩
  | handled htakes => exact hkeeps (ht.sameRoom_handle htakes)
  | acked htakes hdrop =>
    obtain ⟨htracks, hroom⟩ := ht.sameRoom_handle htakes
    obtain ⟨htracks', hroom'⟩ := htracks.setLargest1RTTAcked hdrop
    exact hkeeps ⟨htracks', hroom.trans hroom'⟩
  | retried htakes =>
    -- The header changes; the size of packets does not.
    obtain ⟨htracks, hroom⟩ := ht.sameRoom_handle htakes
    exact ⟨⟨htracks.handler, htracks.outstanding, htracks.queue⟩, nofun, hroom.sizeLimits⟩
  | written hwrite =>
    unfold writeRecord at hwrite
    split at hwrite <;> cases hwrite <;>
      exact hkeeps ⟨⟨ht.handler, ht.outstanding, ht.queue⟩, rfl, rfl, rfl, rfl, rfl⟩

/-! ## Every run -/

/--
A server takes no more new Initial data than fits into 1200 bytes.  While CRYPTO frames may
have to be sent again, neither the token nor the destination connection ID gets longer, and
while those of Handshake packets may, the maximum packet size is not lowered.
-/
def KeepsRoom (s : PackingSession) : SessionEvent → Prop
  | .sendPacket .. => s.packer.ShortInitialData
  | .retryPacket hdr .. => s.packer.KeepsHeader hdr.token hdr.srcConnectionID
  | .unpackedPacket hdr => s.packer.perspective = .client → s.receivedFirstPacket = false →
      hdr.isLongHeader = true → s.packer.KeepsHeader s.packer.token hdr.srcConnectionID
  | .transportParameters maxPacketSize =>
    s.packer.trackedCryptoFrames .handshake ≠ [] →
      maxPacketSize = 0 ∨ s.packer.maxPacketSize ≤ maxPacketSize
  | _ => True

instance (s : PackingSession) (event : SessionEvent) : Decidable (s.KeepsRoom event) :=
  match event with
  | .sendPacket .. => inferInstanceAs (Decidable s.packer.ShortInitialData)
  | .retryPacket .. => inferInstanceAs (Decidable (s.packer.KeepsHeader _ _))
  | .unpackedPacket _ => inferInstanceAs (Decidable (_ → _ → _ → _))
  | .transportParameters _ => inferInstanceAs (Decidable (_ → _))
  | .sendAckOnlyPacket .. | .ackFrame .. | .lossDetectionTimeout .. | .queueProbePacket
  | .writeRecord _ | .setReadKey _ | .setWriteKey .. | .rollKeys .. | .nextAck ..
  | .framer _ => .isTrue trivial

section KeepsRoom

variable {encLevel : EncryptionLevel} (hlevel : encLevel ∈ [EncryptionLevel.initial, .handshake])
variable (htracked : s.packer.trackedCryptoFrames encLevel ≠ [])
include hlevel htracked

theorem room_retryPacket {hdr : Header} {num₁ num₂ : UInt16} {rtt : RoundTrip}
    {sealer : Sealer} (hkeeps : s.packer.KeepsHeader hdr.token hdr.srcConnectionID)
    (ht : s.packer.Tracks A) (h : s.handleRetryPacket hdr num₁ num₂ rtt sealer = .ok s') :
    s'.packer.longHeaderLen encLevel ≤ s.packer.longHeaderLen encLevel ∧
      s.packer.retransmissionLimit encLevel ≤ s'.packer.retransmissionLimit encLevel := by
  unfold handleRetryPacket at h
  split_ifs at h
  on_goal 6 =>
    obtain ⟨handled, hreset, h⟩ := bind_eq_ok.mp h
    obtain ⟨p, hhandled, h⟩ := bind_eq_ok.mp h
    cases h
    obtain rfl := PacketPacker.handleChecked_eq_ok hhandled
    have hsame := (ht.sameRoom_handle (SentPacketHandler.resetForRetry_spec ht.handler
      (liftHandler_eq_ok hreset))).2
    obtain ⟨hdest, htoken⟩ := hkeeps encLevel hlevel htracked
    exact ⟨PacketPacker.longHeaderLen_mono hdest hsame.srcConnID hsame.maxPacketSize.le
      htoken, (hsame.retransmissionLimit encLevel).ge⟩
  all_goals
    cases h
    exact ⟨le_rfl, le_rfl⟩

theorem KeepsRoom.room {event : SessionEvent} (hkeeps : s.KeepsRoom event)
    (ht : s.packer.Tracks A) (h : s.step event = .ok s') :
    s'.packer.longHeaderLen encLevel ≤ s.packer.longHeaderLen encLevel ∧
      s.packer.retransmissionLimit encLevel ≤ s'.packer.retransmissionLimit encLevel := by
  cases hchanges : changesRoom event with
  | false =>
    have hsame := ((step_outcome ht h).tracks (A := fun _ _ => True)
      (ht.mono fun _ _ _ => trivial) (fun _ _ _ _ _ _ => trivial)).2.1 hchanges
    exact ⟨(hsame.longHeaderLen encLevel).le, (hsame.retransmissionLimit encLevel).ge⟩
  | true =>
    cases event with
    | retryPacket hdr num₁ num₂ rtt sealer =>
      exact room_retryPacket hlevel htracked hkeeps ht h
    | unpackedPacket hdr =>
      cases h
      simp only [handleUnpackedPacket]
      split
      · next hfirst =>
        obtain ⟨hclient, hreceived, hlong, -⟩ := hfirst
        obtain ⟨hdest, -⟩ := hkeeps hclient hreceived hlong encLevel hlevel htracked
        exact ⟨PacketPacker.longHeaderLen_mono hdest rfl le_rfl fun _ => le_rfl,
          by cases encLevel <;> exact le_rfl⟩
      · exact ⟨le_rfl, le_rfl⟩
    | transportParameters maxPacketSize =>
      have hparams := onPacker_eq_ok h
      unfold handleTransportParameters at hparams
      split_ifs at hparams with hzero hsmall
      · rw [← Except.ok.inj hparams]
        exact ⟨le_rfl, le_rfl⟩
      · rw [← Except.ok.inj hparams]
        refine ⟨PacketPacker.longHeaderLen_mono le_rfl rfl (min_le_left _ _)
          fun _ => le_rfl, ?_⟩
        cases encLevel with
        | initial => exact le_rfl
        | handshake => exact le_min le_rfl ((hkeeps htracked).resolve_left hzero)
        | oneRTT => simp at hlevel
    | _ => cases hchanges

end KeepsRoom

/-- Every CRYPTO frame that was sent can be sent again. -/
structure Resends (s : PackingSession) : Prop where
  tracks : s.packer.Tracks s.packer.Resendable
  limits : s.packer.SizeLimits

theorem Resends.step (hs : s.Resends) {event : SessionEvent} (hkeeps : s.KeepsRoom event)
    (h : s.step event = .ok s') : s'.Resends := by
  have houtcome := step_outcome hs.tracks h
  obtain ⟨-, hroom, hlimits⟩ := houtcome.tracks (A := fun _ _ => True)
    (hs.tracks.mono fun _ _ _ => trivial) (fun _ _ _ _ _ _ => trivial)
  -- The frames sent so far fit into the packets after the step.
  have hbefore : s.packer.Tracks s'.packer.Resendable := by
    refine hs.tracks.trackedCryptoFrames.mono ?_
    rintro encLevel cf ⟨hcf, hlevel, htracked⟩
    obtain ⟨hheader, hlimit⟩ := hkeeps.room hlevel htracked hs.tracks h
    exact hcf.of_le hheader hlimit
  have hnew : sendsNewData event = true → ∀ encLevel cf t, encLevel ≠ .oneRTT →
      s.packer.NewFrame encLevel (s.packer.pendingAck encLevel) cf t →
      s'.packer.Resendable encLevel cf := by
    intro hsends encLevel cf t hlevel hframe
    cases event with
    | sendPacket input sendTime rtt =>
      have hcf := hkeeps.resendable hs.limits hlevel hframe
      have hsame := hroom rfl
      exact hcf.of_le (hsame.longHeaderLen encLevel).le (hsame.retransmissionLimit encLevel).ge
    | _ => cases hsends
  exact ⟨(houtcome.tracks hbefore hnew).1, hlimits hs.limits⟩

variable {destConnID srcConnID : ConnectionID} {initialPN : PacketNumber}
variable {num₁ num₂ num₃ : UInt16} {remoteAddr : RemoteAddr} {sealer : Sealer}
variable {framer : Connection} {perspective : Perspective} {version : Nat}
variable {token : List UInt8} {events : List SessionEvent}

theorem Resends.new :
    (new destConnID srcConnID initialPN num₁ num₂ num₃ remoteAddr sealer framer
      perspective version token).Resends where
  tracks := .new _ ⟨initialPN, num₁, num₂, num₃, rfl⟩ rfl
  limits := by
    change minInitialPacketSize ≤ getMaxPacketSize remoteAddr ∧
      getMaxPacketSize remoteAddr ≤ maxPacketSizeIPv4
    cases remoteAddr <;> decide

/--
In a run that keeps room for the CRYPTO frames, each lost one fits into an otherwise empty
packet of its level, the getters return it, and no packet is empty in its place.
-/
theorem resends_cryptoFrames
    (hrun : Trace (fun s event s' => s.step event = .ok s' ∧ s.KeepsRoom event)
      (PackingSession.new destConnID srcConnID initialPN num₁ num₂ num₃ remoteAddr sealer
        framer perspective version token) events s) :
    (∀ encLevel, ∀ cf ∈ s.packer.retransmissionQueue.cryptoData encLevel,
      s.packer.Resendable encLevel cf) ∧
    (∀ cf rest, s.packer.retransmissionQueue.initialCryptoData = cf :: rest →
      s.packer.retransmissionQueue.getInitialFrame (s.packer.offeredLen .initial) =
        .ok (some (.crypto cf),
          { s.packer.retransmissionQueue with initialCryptoData := rest })) ∧
    (∀ cf rest, s.packer.retransmissionQueue.handshakeCryptoData = cf :: rest →
      s.packer.retransmissionQueue.getHandshakeFrame (s.packer.offeredLen .handshake) =
        .ok (some (.crypto cf),
          { s.packer.retransmissionQueue with handshakeCryptoData := rest })) ∧
    ∀ input packet p' encLevel, encLevel ≠ .oneRTT →
      s.packer.packPacket input = .ok (some packet, p') →
      packet.encryptionLevel = some encLevel →
      (packet.frames ≠ [] ∨ packet.ack ≠ none) ∧
        (packet.ack = none → s.packer.retransmissionQueue.cryptoData encLevel ≠ [] →
          ∃ k, packet.frames = cryptoFrames
              ((s.packer.retransmissionQueue.cryptoData encLevel).take (k + 1)) ∧
            p'.retransmissionQueue.cryptoData encLevel =
              (s.packer.retransmissionQueue.cryptoData encLevel).drop (k + 1)) := by
  have hs : s.Resends :=
    hrun.invariant Resends .new fun t event t' ht hstep => ht.step hstep.2 hstep.1
  have hqueued := hs.tracks.queue.queued
  refine ⟨hqueued, ?_, ?_, ?_⟩
  · intro cf rest hdata
    have hcf : cf ∈ s.packer.retransmissionQueue.cryptoData .initial :=
      List.mem_of_mem_head? (congrArg List.head? hdata)
    exact (hqueued .initial cf hcf).getInitialFrame hs.limits hdata
  · intro cf rest hdata
    have hcf : cf ∈ s.packer.retransmissionQueue.cryptoData .handshake :=
      List.mem_of_mem_head? (congrArg List.head? hdata)
    exact (hqueued .handshake cf hcf).getHandshakeFrame hs.limits hdata
  · intro input packet p' encLevel hlevel hpack hpacket
    cases (PacketPacker.ends_packPacket hs.tracks.queue.cryptoOnly input).of_ok hpack with
    | packed hpacked hack =>
      obtain rfl := Option.some.inj (hpacked.level.symm.trans hpacket)
      exact hpacked.resends hlevel hs.tracks hs.limits

def retriedHello (n tokenLen : Nat) : List SessionEvent :=
  [.writeRecord (List.replicate n 1), .sendPacket ⟨1, fun _ => 0, 1⟩ 0 ⟨10, 10⟩,
    .retryPacket
      { isLongHeader := true
        type := some .retry
        version := 0x51474fff
        srcConnectionID := List.replicate 8 2
        origDestConnectionID := List.replicate 8 1
        token := List.replicate tokenLen 3 }
      0 0 ⟨10, 10⟩ PacketPacker.plainSealer]

theorem resends_cryptoFrames_retried :
    ∃ s, Trace (fun s event s' => s.step event = .ok s' ∧ s.KeepsRoom event)
        (sampleClient (List.replicate 20 4)) (retriedHello 300 20) s ∧
      s.packer.retransmissionQueue.initialCryptoData = [⟨0, List.replicate 300 1⟩] ∧
      s.packer.retransmissionQueue.getInitialFrame (s.packer.offeredLen .initial) =
        .ok (some (.crypto ⟨0, List.replicate 300 1⟩),
          { s.packer.retransmissionQueue with initialCryptoData := [] }) := by
  have hobs : ((retriedHello 300 20).foldlM (fun (s : PackingSession) event =>
        if s.KeepsRoom event then s.step event else .error .unexpectedLevel)
      (sampleClient (List.replicate 20 4))).map
        (fun s => s.packer.retransmissionQueue.initialCryptoData) =
        .ok [⟨0, List.replicate 300 1⟩] := by
    decide +kernel
  obtain ⟨s, hs, hqueue⟩ := map_eq_ok hobs
  have hrun := Trace.of_foldlM_checked hs
  exact ⟨s, hrun, hqueue, (resends_cryptoFrames hrun).2.1 _ _ hqueue⟩

theorem resends_cryptoFrames_longToken :
    ∃ s packet p', (retriedHello 1100 100).foldlM step (sampleClient []) = .ok s ∧
      s.packer.retransmissionQueue.initialCryptoData ≠ [] ∧
      s.packer.packPacket ⟨1, fun _ => 0, 1⟩ = .ok (some packet, p') ∧
      packet.encryptionLevel = some .initial ∧ packet.frames = [] ∧ packet.ack = none ∧
      p'.retransmissionQueue.initialCryptoData =
        s.packer.retransmissionQueue.initialCryptoData := by
  have hobs : ((retriedHello 1100 100).foldlM step (sampleClient [])).map (fun s => decide
      (s.packer.retransmissionQueue.initialCryptoData ≠ [] ∧
        (s.packer.packPacket ⟨1, fun _ => 0, 1⟩).map (fun r =>
          (r.1.map fun packet => decide (packet.encryptionLevel = some .initial ∧
              packet.frames = [] ∧ packet.ack = none),
            r.2.retransmissionQueue.initialCryptoData)) =
          .ok (some true, s.packer.retransmissionQueue.initialCryptoData))) =
      .ok true := by
    decide +kernel
  obtain ⟨s, hs, hpack⟩ := map_eq_ok hobs
  obtain ⟨hqueued, hpack⟩ := of_decide_eq_true hpack
  obtain ⟨⟨result, p'⟩, hresult, hpacket⟩ := map_eq_ok hpack
  obtain ⟨hpacket, hkept⟩ := Prod.mk.inj hpacket
  obtain ⟨packet, hsome, hempty⟩ := Option.map_eq_some_iff.mp hpacket
  obtain rfl : result = some packet := hsome
  obtain ⟨hlevel, hframes, hack⟩ := of_decide_eq_true hempty
  exact ⟨s, packet, p', hs, hqueued, hresult, hlevel, hframes, hack, hkept⟩

end PackingSession

end Qperf.Quic
