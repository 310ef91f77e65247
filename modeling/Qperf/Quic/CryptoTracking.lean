import Qperf.Quic.PackSteps

/-!
# CRYPTO frames between packets and the queue

A CRYPTO frame of an Initial or Handshake packet is in the history of sent packets until
the packet is acknowledged or lost; then it is in the retransmission queue until it is
sent again.  What holds of every such frame holds for all calls that move them.
-/

namespace Qperf.Quic

open Qperf.Foundation

variable {A B : EncryptionLevel → CryptoFrame → Prop}

def Routed (A : EncryptionLevel → CryptoFrame → Prop) :
    EncryptionLevel → TrackedFrame → Prop
  | .initial, f => ∃ cf, f = ⟨.control (.crypto cf), .addInitial⟩ ∧ A .initial cf
  | .handshake, f => ∃ cf, f = ⟨.control (.crypto cf), .addHandshake⟩ ∧ A .handshake cf
  | .oneRTT, f => f.onLost = .queueRetransmission ∨ f.onLost = .addAppData

theorem Routed.mono {encLevel : EncryptionLevel} {f : TrackedFrame}
    (hAB : ∀ cf, A encLevel cf → B encLevel cf) (h : Routed A encLevel f) :
    Routed B encLevel f := by
  cases encLevel with
  | initial | handshake =>
    obtain ⟨cf, hf, hcf⟩ := h
    exact ⟨cf, hf, hAB cf hcf⟩
  | oneRTT => exact h

private theorem routed_crypto {encLevel : EncryptionLevel} (hlevel : encLevel ≠ .oneRTT)
    {cf : CryptoFrame} (hcf : A encLevel cf) :
    Routed A encLevel ⟨.control (.crypto cf), Frame.onLost encLevel (.control (.crypto cf))⟩ := by
  cases encLevel with
  | initial | handshake => exact ⟨cf, rfl, hcf⟩
  | oneRTT => exact absurd rfl hlevel

private theorem routed_oneRTT (A : EncryptionLevel → CryptoFrame → Prop) (f : Frame) :
    Routed A .oneRTT ⟨f, f.onLost .oneRTT⟩ := by
  cases f with
  | stream f => exact .inl rfl
  | control f => exact .inr rfl

structure RetransmissionQueue.Queues (A : EncryptionLevel → CryptoFrame → Prop)
    (q : RetransmissionQueue) : Prop where
  cryptoOnly : q.CryptoOnly
  queued : ∀ encLevel, ∀ cf ∈ q.cryptoData encLevel, A encLevel cf

theorem RetransmissionQueue.SameCrypto.queues {q q' : RetransmissionQueue}
    (h : q.SameCrypto q') (hq : q.Queues A) : q'.Queues A :=
  ⟨h.cryptoOnly hq.cryptoOnly, fun encLevel cf hcf =>
    hq.queued encLevel cf (h.cryptoData encLevel ▸ hcf)⟩

theorem RetransmissionQueue.Queues.addInitial {q : RetransmissionQueue} (hq : q.Queues A)
    {cf : CryptoFrame} (hcf : A .initial cf) : (q.addInitial (.crypto cf)).Queues A where
  cryptoOnly := ⟨hq.cryptoOnly.initial, hq.cryptoOnly.handshake⟩
  queued := by
    intro encLevel f hf
    cases encLevel with
    | initial =>
      rcases List.mem_append.mp hf with hf | hf
      · exact hq.queued .initial f hf
      · rw [List.mem_singleton.mp hf]
        exact hcf
    | handshake => exact hq.queued .handshake f hf
    | oneRTT => cases hf

theorem RetransmissionQueue.Queues.addHandshake {q : RetransmissionQueue}
    (hq : q.Queues A) {cf : CryptoFrame} (hcf : A .handshake cf) :
    (q.addHandshake (.crypto cf)).Queues A where
  cryptoOnly := ⟨hq.cryptoOnly.initial, hq.cryptoOnly.handshake⟩
  queued := by
    intro encLevel f hf
    cases encLevel with
    | initial => exact hq.queued .initial f hf
    | handshake =>
      rcases List.mem_append.mp hf with hf | hf
      · exact hq.queued .handshake f hf
      · rw [List.mem_singleton.mp hf]
        exact hcf
    | oneRTT => cases hf

namespace PacketPacker

variable {p p' p'' : PacketPacker} {encLevel : EncryptionLevel} {num : UInt16}
variable {packet : PackedPacket}

/-- `A` holds of every CRYPTO frame that was sent and may be sent again. -/
structure Tracks (A : EncryptionLevel → CryptoFrame → Prop) (p : PacketPacker) :
    Prop where
  handler : p.pnManager.Consistent
  outstanding : ∀ encLevel, ∀ f ∈ p.pnManager.framesAt encLevel, Routed A encLevel f
  queue : p.retransmissionQueue.Queues A

theorem Tracks.mono (ht : p.Tracks A) (hAB : ∀ encLevel cf, A encLevel cf → B encLevel cf) :
    p.Tracks B where
  handler := ht.handler
  outstanding := fun encLevel f hf => (ht.outstanding encLevel f hf).mono (hAB encLevel)
  queue := ⟨ht.queue.cryptoOnly, fun encLevel cf hcf =>
    hAB encLevel cf (ht.queue.queued encLevel cf hcf)⟩

theorem Tracks.new (A : EncryptionLevel → CryptoFrame → Prop)
    (hmanager : ∃ initialPN num₁ num₂ num₃, p.pnManager = .new initialPN num₁ num₂ num₃)
    (hqueue : p.retransmissionQueue = .new) : p.Tracks A := by
  obtain ⟨initialPN, num₁, num₂, num₃, hmanager⟩ := hmanager
  refine ⟨?_, ?_, ?_⟩
  · rw [hmanager]
    exact .new initialPN num₁ num₂ num₃
  · intro encLevel f hf
    rw [hmanager] at hf
    cases encLevel <;> cases hf
  · rw [hqueue]
    refine ⟨⟨rfl, rfl⟩, ?_⟩
    intro encLevel cf hcf
    cases encLevel <;> cases hcf

/-! ## Calls of the handler -/

theorem callback_routed (hq : p.retransmissionQueue.Queues A)
    {c : FrameCallback TrackedFrame} (hc : Routed A encLevel c.frame) :
    ∃ q, p.callback c = { p with retransmissionQueue := q } ∧ q.Queues A ∧
      (encLevel = .oneRTT → p.retransmissionQueue.SameCrypto q) := by
  cases c with
  | onAcked f => exact ⟨_, rfl, hq, fun _ => .refl _⟩
  | onLost f =>
    cases encLevel with
    | initial =>
      obtain ⟨cf, hf, hcf⟩ := hc
      cases hf
      exact ⟨_, rfl, hq.addInitial hcf, fun hcontra => nomatch hcontra⟩
    | handshake =>
      obtain ⟨cf, hf, hcf⟩ := hc
      cases hf
      exact ⟨_, rfl, hq.addHandshake hcf, fun hcontra => nomatch hcontra⟩
    | oneRTT =>
      have hsame : ∃ q, p.callback (.onLost f) = { p with retransmissionQueue := q } ∧
          p.retransmissionQueue.SameCrypto q := by
        obtain ⟨frame, onLost⟩ := f
        rcases hc with hc | hc <;> cases hc
        · cases frame <;> exact ⟨_, rfl, .refl _⟩
        · cases frame with
          | stream f => exact ⟨_, rfl, .refl _⟩
          | control f => exact ⟨_, rfl, rfl, rfl, rfl, rfl⟩
      obtain ⟨q, heq, hsame⟩ := hsame
      exact ⟨q, heq, hsame.queues hq, fun _ => hsame⟩

theorem callbacks_routed {callbacks : List (FrameCallback TrackedFrame)}
    (hq : p.retransmissionQueue.Queues A)
    (hc : ∀ c ∈ callbacks, Routed A encLevel c.frame) :
    ∃ q, callbacks.foldl callback p = { p with retransmissionQueue := q } ∧
      q.Queues A ∧ (encLevel = .oneRTT → p.retransmissionQueue.SameCrypto q) := by
  induction callbacks generalizing p with
  | nil => exact ⟨_, rfl, hq, fun _ => .refl _⟩
  | cons c callbacks ih =>
    obtain ⟨hfirst, hrest⟩ := List.forall_mem_cons.mp hc
    obtain ⟨q, heq, hq', hsame⟩ := callback_routed hq hfirst
    obtain ⟨q', heq', hq'', hsame'⟩ :=
      ih (p := { p with retransmissionQueue := q }) hq' hrest
    rw [List.foldl_cons, heq]
    exact ⟨q', heq', hq'', fun hlevel => (hsame hlevel).trans (hsame' hlevel)⟩

theorem Tracks.handle (ht : p.Tracks A) {taken : List (SentPacket TrackedFrame)}
    {handled : Handled TrackedFrame}
    (htakes : SentPacketHandler.TakesOut encLevel taken p.pnManager handled) :
    (p.handle handled).Tracks A ∧ ∃ q, p.handle handled =
        { p with pnManager := handled.handler, retransmissionQueue := q } ∧
      (encLevel = .oneRTT → p.retransmissionQueue.SameCrypto q) := by
  have hcallbacks : ∀ c ∈ handled.callbacks, Routed A encLevel c.frame := by
    intro c hc
    exact ht.outstanding encLevel c.frame (htakes.framesAt.mem_iff.mpr
      (List.mem_append_left _ (List.mem_map_of_mem hc)))
  obtain ⟨q, heq, hq, hsame⟩ := callbacks_routed
    (p := { p with pnManager := handled.handler }) ht.queue hcallbacks
  refine ⟨?_, q, heq, hsame⟩
  rw [PacketPacker.handle, heq]
  refine ⟨htakes.without.consistent, ?_, hq⟩
  intro level f hf
  by_cases heqLevel : level = encLevel
  · subst heqLevel
    exact ht.outstanding level f (htakes.framesAt.mem_iff.mpr (List.mem_append_right _ hf))
  · exact ht.outstanding level f (htakes.framesAt_of_ne heqLevel ▸ hf)

theorem handleChecked_eq_ok {handled : Handled TrackedFrame}
    (h : p.handleChecked handled = .ok p') : p' = p.handle handled := by
  unfold handleChecked at h
  split at h
  · cases h
  · exact (Except.ok.inj h).symm

/-! ## Packing -/

structure SameHandshake (p p' : PacketPacker) : Prop where
  manager : p'.pnManager = p.pnManager
  queue : p.retransmissionQueue.SameCrypto p'.retransmissionQueue
  initialStream : p'.initialStream = p.initialStream
  handshakeStream : p'.handshakeStream = p.handshakeStream
  initialAcks : p'.acks.initialPackets = none ↔ p.acks.initialPackets = none
  handshakeAcks : p'.acks.handshakePackets = none ↔ p.acks.handshakePackets = none
  initialSealer : p'.cryptoSetup.initialSealer = p.cryptoSetup.initialSealer

theorem SameHandshake.refl (p : PacketPacker) : p.SameHandshake p :=
  ⟨rfl, .refl _, rfl, rfl, .rfl, .rfl, rfl⟩

theorem Idle.sameHandshake (h : p.Idle p') : p.SameHandshake p' :=
  ⟨h.manager, h.queue, h.initialStream, h.handshakeStream, h.settings.initialAcks,
    h.settings.handshakeAcks, congrArg CryptoSetup.initialSealer h.settings.cryptoSetup⟩

theorem Tracks.same (ht : p.Tracks A) (hsame : p.SameHandshake p') : p'.Tracks A := by
  refine ⟨?_, ?_, hsame.queue.queues ht.queue⟩ <;> rw [hsame.manager]
  · exact ht.handler
  · exact ht.outstanding

theorem PackedAt.routed (hpacked : p.PackedAt p' num packet encLevel) (ht : p.Tracks A)
    (hnew : ∀ cf s, encLevel ≠ .oneRTT → packet.frames = [.control (.crypto cf)] →
      p.NewFrame encLevel packet.ack cf s → A encLevel cf) :
    (∀ f ∈ packet.frames, Routed A encLevel ⟨f, f.onLost encLevel⟩) ∧
      p'.retransmissionQueue.Queues A := by
  cases hpacked.filled with
  | retransmissions k hlevel hqueued hframes hqueue =>
    constructor
    · intro f hf
      rw [hframes] at hf
      obtain ⟨cf, hcf, rfl⟩ := List.mem_map.mp hf
      exact routed_crypto hlevel (ht.queue.queued encLevel cf (List.mem_of_mem_take hcf))
    · rw [hqueue]
      refine ⟨ht.queue.cryptoOnly.setCryptoData _ encLevel, ?_⟩
      intro level cf hcf
      by_cases hsame : level = encLevel
      · subst hsame
        rw [RetransmissionQueue.cryptoData_setCryptoData hlevel] at hcf
        exact ht.queue.queued level cf (List.mem_of_mem_drop hcf)
      · rw [RetransmissionQueue.cryptoData_setCryptoData_of_ne hsame] at hcf
        exact ht.queue.queued level cf hcf
  | newData cf s hlevel hnewFrame hframes hqueue =>
    have hcf := hnew cf s hlevel hframes hnewFrame
    rw [hqueue, hframes]
    refine ⟨fun f hf => ?_, ht.queue⟩
    rw [List.mem_singleton.mp hf]
    exact routed_crypto hlevel hcf
  | ackOnly hlevel hframes hack hqueue =>
    rw [hqueue, hframes]
    exact ⟨List.forall_mem_nil _, ht.queue⟩
  | appData hqueue => exact ⟨fun f _ => routed_oneRTT A f, hqueue.queues ht.queue⟩

theorem Tracks.sentPacket (ht : p.Tracks A) (hpacked : p.PackedAt p' num packet encLevel)
    (hnew : ∀ cf s, encLevel ≠ .oneRTT → packet.frames = [.control (.crypto cf)] →
      p.NewFrame encLevel packet.ack cf s → A encLevel cf)
    {sendTime : Time} {rtt : RoundTrip}
    (h : PackingSession.sentPacket p' (some packet) sendTime rtt = .ok p'') :
    p''.Tracks A ∧ ∃ pnManager, p'' = { p' with pnManager } := by
  obtain ⟨hframes, hqueue⟩ := hpacked.routed ht hnew
  obtain ⟨sent, hsent, h⟩ := bind_eq_ok.mp h
  obtain ⟨pnManager, hmanager, h⟩ := bind_eq_ok.mp h
  cases h
  unfold PackedPacket.toAckHandlerPacket at hsent
  rw [hpacked.level] at hsent
  obtain ⟨largestAcked, -, hsent⟩ := bind_eq_ok.mp hsent
  cases hsent
  have hwith := SentPacketHandler.sentPacket_spec ht.handler hpacked.number rfl
    (liftHandler_eq_ok hmanager)
  refine ⟨⟨hwith.consistent, ?_, hqueue⟩, pnManager, rfl⟩
  intro level f hf
  by_cases hsame : level = encLevel
  · subst hsame
    rw [hwith.frames] at hf
    rcases List.mem_append.mp hf with hf | hf
    · exact ht.outstanding level f hf
    · obtain ⟨frame, hframe, rfl⟩ := List.mem_map.mp hf
      exact hframes frame hframe
  · rw [hwith.others level hsame] at hf
    exact ht.outstanding level f hf

/-! ## Dropping a level -/

theorem Tracks.dropEncryptionLevel (ht : p.Tracks A) {c : CryptoSetup}
    (h : PacketPacker.dropEncryptionLevel { p with cryptoSetup := c } encLevel = .ok p') :
    p'.Tracks (fun level cf => level ≠ encLevel ∧ A level cf ∨
        cf ∈ p.retransmissionQueue.cryptoData level) ∧
      ∃ pnManager acks, p.acks.dropPackets encLevel = .ok acks ∧
        p' = { p with cryptoSetup := c, pnManager, acks } := by
  obtain ⟨pnManager, hmanager, h⟩ := bind_eq_ok.mp h
  obtain ⟨acks, hacks, h⟩ := bind_eq_ok.mp h
  cases h
  obtain ⟨hconsistent, -, hgone, hothers⟩ := SentPacketHandler.dropPackets_spec
    ht.handler (liftHandler_eq_ok hmanager)
  refine ⟨⟨hconsistent, ?_, ht.queue.cryptoOnly, fun _ _ => .inr⟩,
    pnManager, acks, liftHandler_eq_ok hacks, rfl⟩
  intro level f hf
  unfold SentPacketHandler.framesAt at hf
  by_cases hsame : level = encLevel
  · subst hsame
    rw [hgone] at hf
    cases hf
  · rw [hothers level hsame] at hf
    exact (ht.outstanding level f hf).mono fun _ hcf => .inl ⟨hsame, hcf⟩

end PacketPacker

/-! ## Steps of the session -/

namespace PackingSession

theorem onPacker_eq_ok {s s' : PackingSession} {result : Except SessionError PacketPacker}
    (h : s.onPacker result = .ok s') : result = .ok s'.packer := by
  obtain ⟨packer, hresult, h⟩ := bind_eq_ok.mp h
  cases h
  exact hresult

/-- The events after which a header may be larger, or a packet smaller. -/
def changesRoom : SessionEvent → Bool
  | .retryPacket .. => true
  | .unpackedPacket _ => true
  | .transportParameters _ => true
  | _ => false

def sendsNewData : SessionEvent → Bool
  | .sendPacket .. => true
  | _ => false

inductive StepOutcome (p : PacketPacker) : SessionEvent → PacketPacker → Prop where
  | kept {event : SessionEvent} {p' : PacketPacker} (hsame : p.SameHandshake p')
      (hroom : changesRoom event = false → p.SameRoom p')
      (hlimits : p.SizeLimits → p'.SizeLimits) : StepOutcome p event p'
  | sent {event : SessionEvent} {p₁ p' : PacketPacker} {num : UInt16}
      {packet : PackedPacket} {encLevel : EncryptionLevel} {sendTime : Time}
      {rtt : RoundTrip} (hpacked : p.PackedAt p₁ num packet encLevel)
      (hnew : ∀ cf t, encLevel ≠ .oneRTT → packet.frames = [.control (.crypto cf)] →
        p.NewFrame encLevel packet.ack cf t →
        sendsNewData event = true ∧ p.NewFrame encLevel (p.pendingAck encLevel) cf t)
      (hsent : sentPacket p₁ (some packet) sendTime rtt = .ok p') : StepOutcome p event p'
  | handled {event : SessionEvent} {encLevel : EncryptionLevel}
      {taken : List (SentPacket TrackedFrame)} {handled : Handled TrackedFrame}
      (htakes : SentPacketHandler.TakesOut encLevel taken p.pnManager handled) :
      StepOutcome p event (p.handle handled)
  | acked {frame : AckFrame} {rcvTime : Time} {rtt : RoundTrip} {p' : PacketPacker}
      {taken : List (SentPacket TrackedFrame)} {handled : Handled TrackedFrame}
      (htakes : SentPacketHandler.TakesOut .oneRTT taken p.pnManager handled)
      (hdrop : (p.handle handled).setLargest1RTTAcked = .ok p') :
      StepOutcome p (.ackFrame frame .oneRTT rcvTime rtt) p'
  | retried {hdr : Header} {num₁ num₂ : UInt16} {rtt : RoundTrip} {sealer : Sealer}
      {taken : List (SentPacket TrackedFrame)} {handled : Handled TrackedFrame}
      (htakes : SentPacketHandler.TakesOut .initial taken p.pnManager handled) :
      StepOutcome p (.retryPacket hdr num₁ num₂ rtt sealer)
        { p.handle handled with
          cryptoSetup := (p.handle handled).cryptoSetup.changeConnectionID sealer
          token := hdr.token
          destConnID := hdr.srcConnectionID }
  | written {data : List UInt8} {p' : PacketPacker} (hwrite : writeRecord p data = .ok p') :
      StepOutcome p (.writeRecord data) p'

section Outcomes

variable {s s' : PackingSession} {p p' : PacketPacker} {event : SessionEvent}
variable {sendTime rcvTime : Time} {rtt : RoundTrip}

theorem StepOutcome.refl (p : PacketPacker) (event : SessionEvent) :
    StepOutcome p event p :=
  .kept (.refl p) (fun _ => .refl p) id

theorem StepOutcome.idle (hidle : p.Idle p') : StepOutcome p event p' :=
  .kept hidle.sameHandshake (fun _ => hidle.settings.toSameRoom) fun hlimits => by
    unfold PacketPacker.SizeLimits
    rw [hidle.settings.maxPacketSize]
    exact hlimits

private theorem sendPacket_outcome (ht : p.Tracks A) {input : PackInput}
    (h : sendPacket p input sendTime rtt = .ok p') :
    StepOutcome p (.sendPacket input sendTime rtt) p' := by
  obtain ⟨⟨packet, p₁⟩, hpack, hsent⟩ := bind_eq_ok.mp h
  cases (PacketPacker.ends_packPacket ht.queue.cryptoOnly input).of_ok
    (liftPack_eq_ok hpack) with
  | idle hidle =>
    cases hsent
    exact .idle hidle
  | packed hpacked hack =>
    refine .sent hpacked (fun cf t hlevel _ hframe => ?_) hsent
    rw [hack hlevel] at hframe
    exact ⟨rfl, hframe⟩

private theorem maybeSendAckOnlyPacket_outcome {num : UInt16}
    (h : maybeSendAckOnlyPacket p num sendTime rtt = .ok p') :
    StepOutcome p (.sendAckOnlyPacket num sendTime rtt) p' := by
  obtain ⟨⟨packet, p₁⟩, hpack, hsent⟩ := bind_eq_ok.mp h
  rcases PacketPacker.maybePackAckPacket_outcome (liftPack_eq_ok hpack) with
    ⟨rfl, hidle⟩ | ⟨packet, encLevel, rfl, hpacked, hframes⟩
  · cases hsent
    exact .idle hidle
  · refine .sent hpacked (fun cf t _ hframe => ?_) hsent
    rw [hframes] at hframe
    cases hframe

theorem handleAckFrame_outcome (ht : p.Tracks A) {frame : AckFrame} {encLevel : EncryptionLevel}
    (h : handleAckFrame p frame encLevel rcvTime rtt = .ok p') :
    StepOutcome p (.ackFrame frame encLevel rcvTime rtt) p' := by
  obtain ⟨handled, hack, h⟩ := bind_eq_ok.mp h
  obtain ⟨p₁, hhandled, hdrop⟩ := bind_eq_ok.mp h
  obtain ⟨taken, htakes⟩ := SentPacketHandler.receivedAck_spec ht.handler
    (liftHandler_eq_ok hack)
  obtain rfl := PacketPacker.handleChecked_eq_ok hhandled
  split at hdrop
  · next hlevel =>
    subst hlevel
    exact .acked htakes hdrop
  · cases hdrop
    exact .handled htakes

theorem handleRetryPacket_outcome (ht : s.packer.Tracks A) {hdr : Header}
    {num₁ num₂ : UInt16} {sealer : Sealer}
    (h : s.handleRetryPacket hdr num₁ num₂ rtt sealer = .ok s') :
    StepOutcome s.packer (.retryPacket hdr num₁ num₂ rtt sealer) s'.packer := by
  unfold handleRetryPacket at h
  split_ifs at h
  on_goal 6 =>
    obtain ⟨handled, hreset, h⟩ := bind_eq_ok.mp h
    obtain ⟨p, hhandled, h⟩ := bind_eq_ok.mp h
    cases h
    obtain rfl := PacketPacker.handleChecked_eq_ok hhandled
    exact .retried
      (SentPacketHandler.resetForRetry_spec ht.handler (liftHandler_eq_ok hreset))
  all_goals
    cases h
    exact .refl _ _

private theorem handleUnpackedPacket_outcome (s : PackingSession) (hdr : Header) :
    StepOutcome s.packer (.unpackedPacket hdr) (s.handleUnpackedPacket hdr).packer := by
  unfold handleUnpackedPacket
  split
  · exact .kept ⟨rfl, .refl _, rfl, rfl, .rfl, .rfl, rfl⟩ nofun id
  · exact .refl _ _

private theorem handleTransportParameters_outcome {maxPacketSize : Nat}
    (h : handleTransportParameters p maxPacketSize = .ok p') :
    StepOutcome p (.transportParameters maxPacketSize) p' := by
  unfold handleTransportParameters at h
  split_ifs at h with hzero hsmall
  · cases h
    exact .refl _ _
  · cases h
    refine .kept ⟨rfl, .refl _, rfl, rfl, .rfl, .rfl, rfl⟩ nofun fun hlimits => ?_
    exact ⟨le_min hlimits.1 (Nat.le_of_not_lt hsmall), (min_le_left _ _).trans hlimits.2⟩

private theorem setCryptoSetup_outcome {result : Except SessionError CryptoSetup}
    (hkeys : ∀ c, result = .ok c → c.initialSealer = p.cryptoSetup.initialSealer)
    (h : setCryptoSetup p result = .ok p') : StepOutcome p event p' := by
  obtain ⟨c, hc, h⟩ := bind_eq_ok.mp h
  cases h
  exact .kept ⟨rfl, .refl _, rfl, rfl, .rfl, .rfl, hkeys c hc⟩
    (fun _ => ⟨rfl, rfl, rfl, rfl, rfl⟩) id

theorem step_outcome (ht : s.packer.Tracks A) (h : s.step event = .ok s') :
    StepOutcome s.packer event s'.packer := by
  cases event with
  | sendPacket input sendTime rtt => exact sendPacket_outcome ht (onPacker_eq_ok h)
  | sendAckOnlyPacket num sendTime rtt =>
    exact maybeSendAckOnlyPacket_outcome (onPacker_eq_ok h)
  | ackFrame frame encLevel rcvTime rtt =>
    exact handleAckFrame_outcome ht (onPacker_eq_ok h)
  | lossDetectionTimeout now rtt =>
    obtain ⟨handled, htimeout, hhandled⟩ := bind_eq_ok.mp (onPacker_eq_ok h)
    obtain ⟨encLevel, taken, htakes⟩ := SentPacketHandler.onLossDetectionTimeout_spec
      ht.handler (liftHandler_eq_ok htimeout)
    exact PacketPacker.handleChecked_eq_ok hhandled ▸ .handled htakes
  | queueProbePacket =>
    obtain ⟨⟨handled, queued⟩, hprobe, hhandled⟩ := bind_eq_ok.mp (onPacker_eq_ok h)
    obtain ⟨handled', queued', hqueue, encLevel, taken, htakes⟩ :=
      SentPacketHandler.queueProbePacket_spec ht.handler
    rw [liftHandler_eq_ok hprobe] at hqueue
    cases hqueue
    exact PacketPacker.handleChecked_eq_ok hhandled ▸ .handled htakes
  | retryPacket hdr num₁ num₂ rtt sealer => exact handleRetryPacket_outcome ht h
  | unpackedPacket hdr =>
    cases h
    exact handleUnpackedPacket_outcome s hdr
  | transportParameters maxPacketSize =>
    exact handleTransportParameters_outcome (onPacker_eq_ok h)
  | writeRecord data => exact .written (onPacker_eq_ok h)
  | setReadKey encLevel =>
    refine setCryptoSetup_outcome ?_ (onPacker_eq_ok h)
    intro c hc
    cases encLevel <;> cases hc <;> rfl
  | setWriteKey encLevel sealer =>
    refine setCryptoSetup_outcome ?_ (onPacker_eq_ok h)
    intro c hc
    cases encLevel <;> cases hc <;> rfl
  | rollKeys sealer keyPhase =>
    refine setCryptoSetup_outcome ?_ (onPacker_eq_ok h)
    intro c hc
    cases hc
    rfl
  | nextAck encLevel ack =>
    rw [← Except.ok.inj (onPacker_eq_ok h)]
    refine .kept ⟨rfl, .refl _, rfl, rfl, ?_, ?_, rfl⟩
      (fun _ => ⟨rfl, rfl, rfl, rfl, rfl⟩) id
    · cases encLevel <;> simp [ReceivedPacketHandler.setAck]
    · cases encLevel <;> simp [ReceivedPacketHandler.setAck]
  | framer c =>
    rw [← Except.ok.inj (onPacker_eq_ok h)]
    exact .kept ⟨rfl, .refl _, rfl, rfl, .rfl, .rfl, rfl⟩
      (fun _ => ⟨rfl, rfl, rfl, rfl, rfl⟩) id

end Outcomes

/-- A client over IPv4 that may have a token from an earlier connection. -/
def sampleClient (token : List UInt8) : PackingSession :=
  .new (List.replicate 8 1) [] 0 0 0 0 .udpIPv4 PacketPacker.plainSealer (.new 0) .client
    0x51474fff token

end PackingSession

end Qperf.Quic
