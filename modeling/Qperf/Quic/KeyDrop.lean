import Qperf.Quic.CryptoTracking

/-!
# Dropping the Initial and Handshake keys

The first ACK of a 1-RTT packet drops the keys of the handshake, together with the packets
that were sent and received with them.  The retransmission queue is not told: a frame that
was lost and not yet sent again makes the next call of `PackPacket` fail.  Nothing else
does.
-/

namespace Qperf.Quic

open Qperf.Foundation

namespace PacketPacker

variable {p p' p'' : PacketPacker} {encLevel : EncryptionLevel} {num : UInt16}
variable {packet : PackedPacket}

/-- `dropEncryptionLevel` was called for the level. -/
def Dropped (p : PacketPacker) : EncryptionLevel → Prop
  | .initial => p.acks.initialPackets = none
  | .handshake => p.acks.handshakePackets = none
  | .oneRTT => False

instance (p : PacketPacker) (encLevel : EncryptionLevel) :
    Decidable (p.Dropped encLevel) :=
  match encLevel with
  | .initial => inferInstanceAs (Decidable (_ = none))
  | .handshake => inferInstanceAs (Decidable (_ = none))
  | .oneRTT => .isFalse id

/-- No crypto data of the level waits to be sent or to be sent again. -/
def NothingUnsent (p : PacketPacker) (encLevel : EncryptionLevel) : Prop :=
  (p.cryptoStream encLevel).hasData = false ∧ p.hasRetransmission encLevel = false

instance (p : PacketPacker) (encLevel : EncryptionLevel) :
    Decidable (p.NothingUnsent encLevel) :=
  inferInstanceAs (Decidable (_ ∧ _))

structure Guarded (p : PacketPacker) : Prop where
  tracks : p.Tracks fun encLevel _ => ¬ p.Dropped encLevel
  initialStream : p.Dropped .initial → p.initialStream.hasData = false
  handshakeStream : p.Dropped .handshake → p.handshakeStream.hasData = false
  initialKeys : p.cryptoSetup.initialSealer = none → p.Dropped .initial

theorem SameSettings.dropped (h : p.SameSettings p') (encLevel : EncryptionLevel) :
    p'.Dropped encLevel ↔ p.Dropped encLevel := by
  cases encLevel with
  | initial => exact h.initialAcks
  | handshake => exact h.handshakeAcks
  | oneRTT => exact .rfl

theorem Guarded.hasPending (hg : p.Guarded) (hdropped : p.Dropped encLevel) :
    p.hasPending encLevel = false := by
  have hstream : (p.cryptoStream encLevel).hasData = false := by
    cases encLevel with
    | initial => exact hg.initialStream hdropped
    | handshake => exact hg.handshakeStream hdropped
    | oneRTT => exact hdropped.elim
  have hack : p.pendingAck encLevel = none := by
    cases encLevel with
    | initial => simp [pendingAck, ReceivedPacketHandler.getAckFrame,
        show p.acks.initialPackets = none from hdropped]
    | handshake => simp [pendingAck, ReceivedPacketHandler.getAckFrame,
        show p.acks.handshakePackets = none from hdropped]
    | oneRTT => exact hdropped.elim
  have hqueue : p.hasRetransmission encLevel = false := by
    have hlevel : encLevel ≠ .oneRTT := by
      rintro rfl
      exact hdropped
    rw [Bool.eq_false_iff, ne_eq, CryptoOnly.cryptoData_ne_nil hg.tracks.queue.cryptoOnly
      hlevel, not_not]
    exact List.eq_nil_iff_forall_not_mem.mpr fun cf hcf =>
      hg.tracks.queue.queued encLevel cf hcf hdropped
  unfold PacketPacker.hasPending
  rw [hstream, hqueue, hack]
  rfl

theorem Guarded.packPacket_ne_error (hg : p.Guarded) (input : PackInput) :
    (∀ cause, p.packPacket input ≠ .error (.noInitialSealer cause)) ∧
      (p.Dropped .handshake →
        ∀ cause, p.packPacket input ≠ .error (.noHandshakeSealer cause)) := by
  have hends := ends_packPacket hg.tracks.queue.cryptoOnly input
  constructor
  · intro cause herror
    obtain ⟨hpending, hsealer⟩ := hends.of_error herror
    rw [hg.hasPending (hg.initialKeys hsealer)] at hpending
    cases hpending
  · intro hdropped cause herror
    obtain ⟨hpending, -⟩ := hends.of_error herror
    rw [hg.hasPending hdropped] at hpending
    cases hpending

/-! ## One step -/

theorem SameHandshake.dropped (h : p.SameHandshake p') (encLevel : EncryptionLevel) :
    p'.Dropped encLevel ↔ p.Dropped encLevel := by
  cases encLevel with
  | initial => exact h.initialAcks
  | handshake => exact h.handshakeAcks
  | oneRTT => exact .rfl

theorem Guarded.same (hg : p.Guarded) (hsame : p.SameHandshake p') : p'.Guarded := by
  have hdropped := hsame.dropped
  refine ⟨(hg.tracks.same hsame).mono fun encLevel _ => mt (hdropped encLevel).mp,
    ?_, ?_, ?_⟩
  · rw [hsame.initialStream]
    exact fun h => hg.initialStream ((hdropped .initial).mp h)
  · rw [hsame.handshakeStream]
    exact fun h => hg.handshakeStream ((hdropped .handshake).mp h)
  · rw [hsame.initialSealer]
    exact fun h => (hdropped .initial).mpr (hg.initialKeys h)

theorem PackedAt.streams (hpacked : p.PackedAt p' num packet encLevel) :
    (p.initialStream.hasData = false → p'.initialStream = p.initialStream) ∧
      (p.handshakeStream.hasData = false → p'.handshakeStream = p.handshakeStream) := by
  cases hpacked.filled with
  | retransmissions k hlevel hqueued hframes hqueue hinitial hhandshake =>
    exact ⟨fun _ => hinitial, fun _ => hhandshake⟩
  | newData cf s hlevel hnew hframes hqueue hinitial hhandshake =>
    have hdata := hnew.data
    rw [hinitial, hhandshake]
    cases encLevel with
    | initial =>
      refine ⟨fun hempty => ?_, fun _ => rfl⟩
      rw [cryptoStream, hempty] at hdata
      cases hdata
    | handshake =>
      refine ⟨fun _ => rfl, fun hempty => ?_⟩
      change p.handshakeStream.hasData = true at hdata
      rw [hempty] at hdata
      cases hdata
    | oneRTT => exact absurd rfl hlevel
  | ackOnly hlevel hframes hack hqueue hinitial hhandshake =>
    exact ⟨fun _ => hinitial, fun _ => hhandshake⟩
  | appData hqueue hinitial hhandshake =>
    exact ⟨fun _ => hinitial, fun _ => hhandshake⟩

theorem Guarded.sentPacket (hg : p.Guarded) (hpacked : p.PackedAt p' num packet encLevel)
    {sendTime : Time} {rtt : RoundTrip}
    (h : PackingSession.sentPacket p' (some packet) sendTime rtt = .ok p'') :
    p''.Guarded := by
  have hdropped := hpacked.settings.dropped
  -- New data shows that the level is still there.
  have hnew : ∀ cf s, encLevel ≠ .oneRTT → packet.frames = [.control (.crypto cf)] →
      p.NewFrame encLevel packet.ack cf s → ¬ p.Dropped encLevel := by
    intro cf s _ _ hnew hgone
    have hdata := hnew.data
    cases encLevel with
    | initial =>
      rw [cryptoStream, hg.initialStream hgone] at hdata
      cases hdata
    | handshake =>
      change p.handshakeStream.hasData = true at hdata
      rw [hg.handshakeStream hgone] at hdata
      cases hdata
    | oneRTT => exact hgone
  obtain ⟨htracks, pnManager, rfl⟩ := hg.tracks.sentPacket hpacked hnew h
  obtain ⟨hinitial, hhandshake⟩ := hpacked.streams
  refine ⟨htracks.mono fun encLevel _ => mt (hdropped encLevel).mp, ?_, ?_, ?_⟩
  · intro hgone
    have hempty := hg.initialStream ((hdropped .initial).mp hgone)
    exact (congrArg CryptoStream.hasData (hinitial hempty)).trans hempty
  · intro hgone
    have hempty := hg.handshakeStream ((hdropped .handshake).mp hgone)
    exact (congrArg CryptoStream.hasData (hhandshake hempty)).trans hempty
  · intro hsealer
    refine (hdropped .initial).mpr (hg.initialKeys ?_)
    rw [← hpacked.settings.cryptoSetup]
    exact hsealer

theorem Guarded.handle (hg : p.Guarded) {taken : List (SentPacket TrackedFrame)}
    {handled : Handled TrackedFrame}
    (htakes : SentPacketHandler.TakesOut encLevel taken p.pnManager handled) :
    (p.handle handled).Guarded := by
  obtain ⟨htracks, q, heq, -⟩ := hg.tracks.handle htakes
  rw [heq] at htracks ⊢
  exact { hg with tracks := htracks }

/-! ### Dropping keys -/

private theorem dropPackets_dropped {acks : ReceivedPacketHandler}
    (h : p.acks.dropPackets encLevel = .ok acks) (level : EncryptionLevel) :
    Dropped { p with acks } level ↔ level = encLevel ∨ p.Dropped level := by
  cases encLevel with
  | initial | handshake =>
    cases h
    cases level <;> simp [Dropped]
  | oneRTT => cases h

theorem Guarded.dropEncryptionLevel (hg : p.Guarded) (hlevel : encLevel ≠ .oneRTT)
    (hunsent : p.NothingUnsent encLevel) {c : CryptoSetup}
    (hkeys : c.initialSealer = none →
      encLevel = .initial ∨ p.cryptoSetup.initialSealer = none)
    (h : PacketPacker.dropEncryptionLevel { p with cryptoSetup := c } encLevel = .ok p') :
    p'.Guarded ∧ ∃ pnManager acks, p' = { p with cryptoSetup := c, pnManager, acks } := by
  obtain ⟨htracks, pnManager, acks, hacks, rfl⟩ := hg.tracks.dropEncryptionLevel h
  have hdropped := dropPackets_dropped (p := p) hacks
  have hqueue : p.retransmissionQueue.cryptoData encLevel = [] :=
    not_not.mp (mt (CryptoOnly.cryptoData_ne_nil hg.tracks.queue.cryptoOnly hlevel).mpr
      (Bool.eq_false_iff.mp hunsent.2))
  refine ⟨⟨htracks.mono ?_, ?_, ?_, ?_⟩, pnManager, acks, rfl⟩
  · intro level cf hcf hcontra
    have hne : level ≠ encLevel ∧ ¬ p.Dropped level := by
      rcases hcf with hcf | hcf
      · exact hcf
      · refine ⟨?_, hg.tracks.queue.queued level cf hcf⟩
        rintro rfl
        rw [hqueue] at hcf
        cases hcf
    exact ((hdropped level).mp hcontra).elim hne.1 hne.2
  · intro hinitial
    rcases (hdropped .initial).mp hinitial with heq | hinitial
    · subst heq
      exact hunsent.1
    · exact hg.initialStream hinitial
  · intro hhandshake
    rcases (hdropped .handshake).mp hhandshake with heq | hhandshake
    · subst heq
      exact hunsent.1
    · exact hg.handshakeStream hhandshake
  · intro hsealer
    refine (hdropped .initial).mpr ?_
    rcases hkeys hsealer with heq | hsealer
    · exact .inl heq.symm
    · exact .inr (hg.initialKeys hsealer)

private theorem hasRetransmission_congr
    (h : p.retransmissionQueue.SameCrypto p'.retransmissionQueue) (encLevel : EncryptionLevel) :
    p'.hasRetransmission encLevel = p.hasRetransmission encLevel := by
  cases encLevel <;> simp only [hasRetransmission, RetransmissionQueue.hasInitialData,
    RetransmissionQueue.hasHandshakeData, h.initial, h.initialCryptoData, h.handshake,
    h.handshakeCryptoData]

def DropsClean (p : PacketPacker) : Prop :=
  (p.cryptoSetup.initialOpener = true → p.NothingUnsent .initial) ∧
    (p.cryptoSetup.handshakeOpener = true → p.NothingUnsent .handshake)

instance (p : PacketPacker) : Decidable p.DropsClean :=
  inferInstanceAs (Decidable ((_ → _) ∧ (_ → _)))

theorem Guarded.setLargest1RTTAcked (hg : p.Guarded) (hclean : p.DropsClean)
    (h : p.setLargest1RTTAcked = .ok p') : p'.Guarded := by
  obtain ⟨p₁, hinitial, hhandshake⟩ := bind_eq_ok.mp h
  have hfirst : p₁.Guarded ∧ p₁.cryptoSetup.handshakeOpener = p.cryptoSetup.handshakeOpener ∧
      (p.NothingUnsent .handshake → p₁.NothingUnsent .handshake) := by
    unfold dropInitialKeys at hinitial
    split at hinitial
    · next hopener =>
      obtain ⟨hguarded, pnManager, acks, rfl⟩ := hg.dropEncryptionLevel (by decide)
        (hclean.1 hopener) (fun _ => .inl rfl) hinitial
      exact ⟨hguarded, rfl, id⟩
    · cases hinitial
      exact ⟨hg, rfl, id⟩
  obtain ⟨hguarded, hopener, hunsent⟩ := hfirst
  unfold dropHandshakeKeys at hhandshake
  split at hhandshake
  · next hset =>
    rw [hopener] at hset
    refine (hguarded.dropEncryptionLevel (by decide) (hunsent (hclean.2 hset)) ?_
      hhandshake).1
    exact .inr
  · cases hhandshake
    exact hguarded

end PacketPacker

/-! ## Every run -/

namespace PackingSession

variable {s s' : PackingSession}

/--
A 1-RTT ACK that drops keys finds nothing of their levels unsent, and TLS writes no record
of a level that was dropped.
-/
def DropsClean (s : PackingSession) : SessionEvent → Prop
  | .ackFrame _ encLevel _ _ => encLevel = .oneRTT → s.packer.DropsClean
  | .writeRecord _ => ¬ s.packer.Dropped s.packer.cryptoSetup.writeEncLevel
  | _ => True

instance (s : PackingSession) (event : SessionEvent) : Decidable (s.DropsClean event) :=
  match event with
  | .ackFrame .. => inferInstanceAs (Decidable (_ → _))
  | .writeRecord _ => inferInstanceAs (Decidable (¬ _))
  | .sendPacket .. | .sendAckOnlyPacket .. | .lossDetectionTimeout .. | .queueProbePacket
  | .retryPacket .. | .unpackedPacket _ | .transportParameters _ | .setReadKey _
  | .setWriteKey .. | .rollKeys .. | .nextAck .. | .framer _ => .isTrue trivial

theorem guarded_writeRecord {p p' : PacketPacker} (hg : p.Guarded) {data : List UInt8}
    (hpresent : ¬ p.Dropped p.cryptoSetup.writeEncLevel)
    (h : writeRecord p data = .ok p') : p'.Guarded := by
  unfold writeRecord at h
  split at h
  · next hlevel =>
    cases h
    rw [hlevel] at hpresent
    exact ⟨⟨hg.tracks.handler, hg.tracks.outstanding, hg.tracks.queue⟩,
      fun hdropped => absurd hdropped hpresent, hg.handshakeStream, hg.initialKeys⟩
  · next hlevel =>
    cases h
    rw [hlevel] at hpresent
    exact ⟨⟨hg.tracks.handler, hg.tracks.outstanding, hg.tracks.queue⟩,
      hg.initialStream, fun hdropped => absurd hdropped hpresent, hg.initialKeys⟩
  · cases h

theorem guarded_acked {p p' : PacketPacker} (hg : p.Guarded) (hclean : p.DropsClean)
    {taken : List (SentPacket TrackedFrame)} {handled : Handled TrackedFrame}
    (htakes : SentPacketHandler.TakesOut .oneRTT taken p.pnManager handled)
    (hdrop : (p.handle handled).setLargest1RTTAcked = .ok p') : p'.Guarded := by
  obtain ⟨-, q, heq, hsame⟩ := hg.tracks.handle htakes
  have hunsent : ∀ level, p.NothingUnsent level → (p.handle handled).NothingUnsent level := by
    intro level hunsent
    rw [heq]
    refine ⟨hunsent.1, ?_⟩
    rw [PacketPacker.hasRetransmission_congr (p := p) (hsame rfl)]
    exact hunsent.2
  obtain ⟨hinitial, hhandshake⟩ := hclean
  refine (hg.handle htakes).setLargest1RTTAcked ?_ hdrop
  rw [heq] at hunsent ⊢
  exact ⟨fun hopener => hunsent .initial (hinitial hopener),
    fun hopener => hunsent .handshake (hhandshake hopener)⟩

theorem StepOutcome.guarded {p' : PacketPacker} {event : SessionEvent}
    (h : StepOutcome s.packer event p') (hg : s.packer.Guarded)
    (hclean : s.DropsClean event) : p'.Guarded := by
  cases h with
  | kept hsame => exact hg.same hsame
  | sent hpacked _ hsent => exact hg.sentPacket hpacked hsent
  | handled htakes => exact hg.handle htakes
  | acked htakes hdrop => exact guarded_acked hg (hclean rfl) htakes hdrop
  | retried htakes =>
    have hguarded := hg.handle htakes
    exact ⟨⟨hguarded.tracks.handler, hguarded.tracks.outstanding, hguarded.tracks.queue⟩,
      hguarded.initialStream, hguarded.handshakeStream, nofun⟩
  | written hwrite => exact guarded_writeRecord hg hclean hwrite

variable {destConnID srcConnID : ConnectionID} {initialPN : PacketNumber}
variable {num₁ num₂ num₃ : UInt16} {remoteAddr : RemoteAddr} {sealer : Sealer}
variable {framer : Connection} {perspective : Perspective} {version : Nat}
variable {token : List UInt8} {events : List SessionEvent}

/--
In a run in which the keys are dropped only when nothing is left to be sent with them,
`PackPacket` never misses the keys that were dropped.
-/
theorem packs_without_keys
    (hrun : Trace (fun s event s' => s.step event = .ok s' ∧ s.DropsClean event)
      (new destConnID srcConnID initialPN num₁ num₂ num₃ remoteAddr sealer framer
        perspective version token) events s) (input : PackInput) :
    (∀ cause, s.packer.packPacket input ≠ .error (.noInitialSealer cause)) ∧
      (s.packer.Dropped .handshake →
        ∀ cause, s.packer.packPacket input ≠ .error (.noHandshakeSealer cause)) := by
  have hguarded : s.packer.Guarded := by
    refine hrun.invariant (fun s => s.packer.Guarded) ?_ ?_
    · refine ⟨.new _ ⟨initialPN, num₁, num₂, num₃, rfl⟩ rfl, fun _ => rfl, fun _ => rfl, ?_⟩
      intro hsealer
      cases hsealer
    · intro t event t' hg hstep
      exact (step_outcome hg.tracks hstep.1).guarded hg hstep.2
  exact hguarded.packPacket_ne_error input

def sampleInput : PackInput := ⟨1, fun _ => 0, 1⟩

def pingFramer : Connection :=
  { Connection.new 0 with framer := { Framer.new with controlFrames := [.ping] } }

def sampleHandshake : List SessionEvent :=
  [.writeRecord [1], .sendPacket sampleInput 0 ⟨10, 10⟩,
    .setReadKey .handshake, .setWriteKey .handshake PacketPacker.plainSealer,
    .writeRecord [2], .sendPacket sampleInput 1 ⟨10, 10⟩,
    .writeRecord [3], .sendPacket sampleInput 2 ⟨10, 10⟩,
    .setWriteKey .oneRTT PacketPacker.plainSealer, .framer pingFramer,
    .sendPacket sampleInput 3 ⟨10, 10⟩]

def droppedClean : List SessionEvent :=
  sampleHandshake ++
    [.ackFrame ⟨[⟨0, 1⟩], 0⟩ .handshake 4 ⟨10, 10⟩, .ackFrame ⟨[⟨0, 0⟩], 0⟩ .oneRTT 4 ⟨10, 10⟩]

def droppedUnsent : List SessionEvent :=
  sampleHandshake ++ [.ackFrame ⟨[⟨1, 1⟩], 0⟩ .handshake 100 ⟨10, 10⟩,
      .ackFrame ⟨[⟨0, 0⟩], 0⟩ .oneRTT 100 ⟨10, 10⟩]

theorem packs_without_keys_droppedClean :
    ∃ s, Trace (fun s event s' => s.step event = .ok s' ∧ s.DropsClean event)
        (sampleClient []) droppedClean s ∧ s.packer.Dropped .handshake ∧
      ∀ cause, s.packer.packPacket sampleInput ≠ .error (.noHandshakeSealer cause) := by
  have hobs : (droppedClean.foldlM (fun (s : PackingSession) event =>
        if s.DropsClean event then s.step event else .error .unexpectedLevel)
      (sampleClient [])).map (fun s => decide (s.packer.Dropped .handshake)) = .ok true := by
    decide +kernel
  obtain ⟨s, hs, hdropped⟩ := map_eq_ok hobs
  have hrun := Trace.of_foldlM_checked hs
  have hgone := of_decide_eq_true hdropped
  exact ⟨s, hrun, hgone, (packs_without_keys hrun sampleInput).2 hgone⟩

theorem packs_after_keys_droppedUnsent :
    ∃ s, droppedUnsent.foldlM step (sampleClient []) = .ok s ∧
      s.packer.Dropped .initial ∧ s.packer.Dropped .handshake ∧
      (s.packer.packPacket sampleInput).map (fun r => r.1) =
        .error (.noHandshakeSealer .keysDropped) := by
  have hobs : (droppedUnsent.foldlM step (sampleClient [])).map (fun s => decide
      (s.packer.Dropped .initial ∧ s.packer.Dropped .handshake ∧
        (s.packer.packPacket sampleInput).map (fun r => r.1) =
          .error (.noHandshakeSealer .keysDropped))) = .ok true := by
    decide +kernel
  obtain ⟨s, hs, hfails⟩ := map_eq_ok hobs
  exact ⟨s, hs, of_decide_eq_true hfails⟩

end PackingSession

end Qperf.Quic
