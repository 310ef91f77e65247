import Qperf.Foundation.Traces
import Qperf.Quic.SentHistory

/-!
# The steps of the sent packet handler

Whatever takes packets out of the handler (an ACK, a loss, a probe) removes them from one
history and subtracts their lengths.  `Removed` says what that leaves as it was.  Each
call of the handler is then described by the packets that it removes.
-/

namespace Qperf.Quic

open Qperf.Foundation

variable {φ : Type}

/-! ## Calls -/

/-- A call of the handler, with the values of its clock, `RTTStats` and random source. -/
inductive HandlerEvent (φ : Type) where
  | sentPacket (packet : SentPacket φ) (rtt : RoundTrip)
  | receivedAck (ackFrame : AckFrame) (encLevel : EncryptionLevel) (rcvTime : Time)
      (rtt : RoundTrip)
  | onLossDetectionTimeout (now : Time) (rtt : RoundTrip)
  | queueProbePacket
  | dropPackets (encLevel : EncryptionLevel)
  | resetForRetry (num₁ num₂ : UInt16) (rtt : RoundTrip)

namespace SentPacketHandler

variable {h h' h'' : SentPacketHandler φ} {encLevel : EncryptionLevel}
variable {space space' : PacketNumberSpace φ} {p : SentPacket φ}

def perform (h : SentPacketHandler φ) :
    HandlerEvent φ → Except HandlerPanic (SentPacketHandler φ)
  | .sentPacket packet rtt => h.sentPacket packet rtt
  | .receivedAck ackFrame encLevel rcvTime rtt =>
    (h.receivedAck ackFrame encLevel rcvTime rtt).map Handled.handler
  | .onLossDetectionTimeout now rtt =>
    (h.onLossDetectionTimeout now rtt).map Handled.handler
  | .queueProbePacket => h.queueProbePacket.map fun result => result.1.handler
  | .dropPackets encLevel => h.dropPackets encLevel
  | .resetForRetry num₁ num₂ rtt => (h.resetForRetry num₁ num₂ rtt).map Handled.handler

/--
Packet numbers increase in each space, and a Retry is handled only while no packets of
the other spaces are outstanding.
-/
def Admits (h : SentPacketHandler φ) : HandlerEvent φ → Prop
  | .sentPacket packet _ => ∀ space,
      h.getPacketNumberSpace packet.encryptionLevel = .ok space →
        space.largestSent < packet.packetNumber
  | .resetForRetry .. => h.packetsAt .handshake = [] ∧ h.packetsAt .oneRTT = []
  | _ => True

instance (h : SentPacketHandler φ) (event : HandlerEvent φ) :
    Decidable (h.Admits event) :=
  match event with
  | .sentPacket packet _ =>
    match hspace : h.getPacketNumberSpace packet.encryptionLevel with
    | .error _ => .isTrue fun space hok => by rw [hspace] at hok; cases hok
    | .ok space =>
      if hlt : space.largestSent < packet.packetNumber then
        .isTrue fun t hok => by rw [hspace] at hok; cases hok; exact hlt
      else .isFalse fun hall => hlt (hall space hspace)
  | .resetForRetry .. => inferInstanceAs (Decidable (_ = [] ∧ _ = []))
  | .receivedAck .. | .onLossDetectionTimeout .. | .queueProbePacket
  | .dropPackets _ => .isTrue trivial

/-! ## Removed packets -/

theorem sum_levels_eq {α : Type} (size : α → Nat) {f g : EncryptionLevel → α} {n : Nat}
    (hself : size (f encLevel) = n + size (g encLevel))
    (hothers : ∀ other ≠ encLevel, g other = f other) :
    size (f .initial) + size (f .handshake) + size (f .oneRTT) =
      n + (size (g .initial) + size (g .handshake) + size (g .oneRTT)) := by
  cases encLevel with
  | initial =>
    rw [hothers .handshake (by decide), hothers .oneRTT (by decide)]
    omega
  | handshake =>
    rw [hothers .initial (by decide), hothers .oneRTT (by decide)]
    omega
  | oneRTT =>
    rw [hothers .initial (by decide), hothers .handshake (by decide)]
    omega

def bytesAfter (bytes : Nat) (taken : List (SentPacket φ)) : Nat :=
  taken.foldl (fun bytes p =>
    if p.includedInBytesInFlight then wrapByteCount (bytes - p.length) else bytes) bytes

/-- `h'` is `h` after the packets `taken` of one encryption level were removed. -/
structure Removed (encLevel : EncryptionLevel) (taken : List (SentPacket φ))
    (h h' : SentPacketHandler φ) : Prop where
  packets : (h.packetsAt encLevel).Perm (taken ++ h'.packetsAt encLevel)
  space : ∀ space, h.getPacketNumberSpace encLevel = .ok space → ∃ history,
    h'.getPacketNumberSpace encLevel = .ok { space with history } ∧
      ∀ next, space.history.Consistent encLevel next →
        history.Consistent encLevel next
  dropped : ∀ cause, h.getPacketNumberSpace encLevel = .error cause →
    h'.getPacketNumberSpace encLevel = .error cause
  others : ∀ other, other ≠ encLevel →
    h'.getPacketNumberSpace other = h.getPacketNumberSpace other
  bytes : h'.bytesInFlight = bytesAfter h.bytesInFlight taken
  lowest : h.lowestNotConfirmedAcked ≤ h'.lowestNotConfirmedAcked
  lastSent : h'.lastSentAckElicitingPacketTime = h.lastSentAckElicitingPacketTime
  ptoCount : h'.ptoCount = h.ptoCount

theorem Removed.refl (encLevel : EncryptionLevel) (h : SentPacketHandler φ) :
    Removed encLevel [] h h where
  packets := .refl _
  space := fun space hspace => ⟨space.history, hspace, fun _ hc => hc⟩
  dropped := fun _ hdropped => hdropped
  others := fun _ _ => rfl
  bytes := rfl
  lowest := le_rfl
  lastSent := rfl
  ptoCount := rfl

theorem Removed.trans {taken taken' : List (SentPacket φ)}
    (first : Removed encLevel taken h h') (second : Removed encLevel taken' h' h'') :
    Removed encLevel (taken ++ taken') h h'' where
  packets := by
    rw [List.append_assoc]
    exact first.packets.trans (second.packets.append_left taken)
  space := by
    intro space hspace
    obtain ⟨history, hhistory, hfirst⟩ := first.space space hspace
    obtain ⟨history', hhistory', hsecond⟩ := second.space _ hhistory
    exact ⟨history', hhistory', fun next hc => hsecond next (hfirst next hc)⟩
  dropped := fun cause hdropped => second.dropped cause (first.dropped cause hdropped)
  others := fun other hne => (second.others other hne).trans (first.others other hne)
  bytes := by
    rw [second.bytes, first.bytes]
    exact List.foldl_append.symm
  lowest := first.lowest.trans second.lowest
  lastSent := second.lastSent.trans first.lastSent
  ptoCount := second.ptoCount.trans first.ptoCount

private theorem removed_confirmAck (h : SentPacketHandler φ) (encLevel : EncryptionLevel)
    (p : SentPacket φ) : Removed encLevel [] h (h.confirmAck encLevel p) := by
  unfold confirmAck
  split
  · exact { Removed.refl encLevel h with lowest := le_max_left .. }
  · exact .refl encLevel h

theorem removed_releaseBytes (h : SentPacketHandler φ) (p : SentPacket φ) :
    (h.releaseBytes p).bytesInFlight = bytesAfter h.bytesInFlight [p] ∧
      (h.releaseBytes p).lowestNotConfirmedAcked = h.lowestNotConfirmedAcked ∧
      (h.releaseBytes p).lastSentAckElicitingPacketTime = h.lastSentAckElicitingPacketTime ∧
      (h.releaseBytes p).ptoCount = h.ptoCount := by
  unfold releaseBytes bytesAfter
  rw [List.foldl_cons, List.foldl_nil]
  split <;> exact ⟨rfl, rfl, rfl, rfl⟩

theorem setPacketNumberSpace_same (h : SentPacketHandler φ)
    (encLevel : EncryptionLevel) (space : PacketNumberSpace φ) :
    (h.setPacketNumberSpace encLevel space).bytesInFlight = h.bytesInFlight ∧
      (h.setPacketNumberSpace encLevel space).lowestNotConfirmedAcked =
        h.lowestNotConfirmedAcked ∧
      (h.setPacketNumberSpace encLevel space).lastSentAckElicitingPacketTime =
        h.lastSentAckElicitingPacketTime ∧
      (h.setPacketNumberSpace encLevel space).ptoCount = h.ptoCount := by
  cases encLevel <;> exact ⟨rfl, rfl, rfl, rfl⟩

def Ordered (h : SentPacketHandler φ) : Prop :=
  ∀ encLevel space, h.getPacketNumberSpace encLevel = .ok space →
    ∃ next, space.history.Consistent encLevel next

theorem Removed.exists_space {taken : List (SentPacket φ)}
    (hremoved : Removed encLevel taken h h') {level : EncryptionLevel}
    (hspace' : h'.getPacketNumberSpace level = .ok space') :
    ∃ space history, h.getPacketNumberSpace level = .ok space ∧
      space' = { space with history } ∧
      ∀ next, space.history.Consistent level next → history.Consistent level next := by
  by_cases heq : level = encLevel
  · subst heq
    cases hspace : h.getPacketNumberSpace level with
    | error cause =>
      rw [hremoved.dropped cause hspace] at hspace'
      cases hspace'
    | ok space =>
      obtain ⟨history, hhistory, hconsistent⟩ := hremoved.space space hspace
      rw [hhistory] at hspace'
      cases hspace'
      exact ⟨space, history, rfl, rfl, hconsistent⟩
  · rw [hremoved.others level heq] at hspace'
    exact ⟨space', space'.history, hspace', rfl, fun _ => id⟩

theorem Removed.ordered {taken : List (SentPacket φ)}
    (hremoved : Removed encLevel taken h h') (ho : h.Ordered) : h'.Ordered := by
  intro level space' hspace'
  obtain ⟨space, history, hspace, rfl, hconsistent⟩ := hremoved.exists_space hspace'
  obtain ⟨next, hnext⟩ := ho level space hspace
  exact ⟨next, hconsistent next hnext⟩

theorem Removed.one (ho : h.Ordered)
    (hspace : h.getPacketNumberSpace encLevel = .ok space)
    (hp : p ∈ space.history.packets) :
    ∃ history, space.history.remove p.packetNumber = some history ∧
      Removed encLevel [p] h ((h.releaseBytes p).setPacketNumberSpace encLevel
        { space with history }) := by
  obtain ⟨next, hnext⟩ := ho encLevel space hspace
  obtain ⟨history, hremove, -, hperm⟩ := hnext.remove hp
  obtain ⟨hbytes, hlowest, hlast, hpto⟩ := removed_releaseBytes h p
  obtain ⟨hbytes', hlowest', hlast', hpto'⟩ := setPacketNumberSpace_same
    (h.releaseBytes p) encLevel { space with history }
  have hself := getPacketNumberSpace_setPacketNumberSpace (h.releaseBytes p) encLevel
    { space with history }
  refine ⟨history, hremove, ?_, ?_, ?_, ?_, hbytes'.trans hbytes, ?_,
    hlast'.trans hlast, hpto'.trans hpto⟩
  · rw [packetsAt_of_getPacketNumberSpace hspace, packetsAt_of_getPacketNumberSpace hself]
    exact hperm
  · intro t ht
    rw [hspace] at ht
    cases ht
    refine ⟨history, hself, ?_⟩
    intro next' hnext'
    obtain ⟨removed, hremoved, hconsistent, -⟩ := hnext'.remove hp
    rw [hremove] at hremoved
    cases hremoved
    exact hconsistent
  · intro cause hdropped
    rw [hspace] at hdropped
    cases hdropped
  · intro other hne
    rw [getPacketNumberSpace_setPacketNumberSpace_of_ne _ hne,
      getPacketNumberSpace_releaseBytes]
  · rw [hlowest', hlowest]

variable {handled : Handled φ} {packets : List (SentPacket φ)} {rtt : RoundTrip}

theorem Ordered.holds (ho : h.Ordered) (hspace : h.getPacketNumberSpace encLevel = .ok space)
    (hsub : packets.Sublist space.history.packets) : h.Holds encLevel packets := by
  obtain ⟨next, hnext⟩ := ho encLevel space hspace
  constructor
  · have hpackets : space.history.packets.Pairwise fun p q =>
        p.packetNumber ≠ q.packetNumber :=
      List.pairwise_map.mpr (hnext.sorted.imp fun hlt => hlt.ne)
    exact hpackets.sublist hsub
  · intro p hp
    rw [packetsAt_of_getPacketNumberSpace hspace]
    exact hsub.subset hp

theorem Removed.holds
    (hremoved : Removed encLevel [p] h h') (hheld : h.Holds encLevel (p :: packets)) :
    h'.Holds encLevel packets := by
  obtain ⟨hhead, htail⟩ := List.pairwise_cons.mp hheld.distinct
  refine ⟨htail, ?_⟩
  intro q hq
  have hmem := hremoved.packets.mem_iff.mp (hheld.held q (List.mem_cons_of_mem p hq))
  rcases List.mem_cons.mp hmem with rfl | hmem
  · exact absurd rfl (hhead q hq)
  · exact hmem

theorem Ordered.level (ho : h.Ordered) (hspace : h.getPacketNumberSpace encLevel = .ok space)
    (hp : p ∈ space.history.packets) : p.encryptionLevel = encLevel := by
  obtain ⟨next, hnext⟩ := ho encLevel space hspace
  obtain ⟨e, he, rfl⟩ := List.mem_map.mp hp
  exact hnext.level e he

private theorem onPacketAcked_removed (ho : h.Ordered) (hheld : h.Holds encLevel [p]) :
    ∃ h', h.onPacketAcked p = .ok ⟨h', p.frames.map .onAcked, none⟩ ∧
      Removed encLevel [p] h h' := by
  obtain ⟨space, hspace, hp⟩ := hheld.exists_space
  obtain ⟨next, hnext⟩ := ho encLevel space hspace
  obtain ⟨history, hremove, hremoved⟩ := Removed.one ho hspace hp
  refine ⟨_, ?_, hremoved⟩
  unfold onPacketAcked
  rw [ho.level hspace hp, hspace, ok_bind, hnext.getPacket hp]
  rw [hremove]
  rfl

theorem ackPackets_removed (ho : h.Ordered) (hheld : h.Holds encLevel packets) :
    ∃ h', ackPackets encLevel packets h =
        .ok ⟨h', packets.flatMap fun p => p.frames.map .onAcked, none⟩ ∧
      Removed encLevel packets h h' := by
  induction packets generalizing h with
  | nil => exact ⟨h, rfl, .refl encLevel h⟩
  | cons p packets ih =>
    have hconfirmed := removed_confirmAck h encLevel p
    have hspaces := getPacketNumberSpace_confirmAck h encLevel p
    obtain ⟨first, hfirst, hremoved⟩ := onPacketAcked_removed
      (hconfirmed.ordered ho) (hheld.head.congr hspaces)
    obtain ⟨rest, hrest, hremovedRest⟩ := ih
      (hremoved.ordered (hconfirmed.ordered ho))
      (hremoved.holds (hheld.congr hspaces))
    refine ⟨rest, ?_, hconfirmed.trans (hremoved.trans hremovedRest)⟩
    unfold ackPackets
    rw [hfirst, ok_bind, if_neg (by simp), hrest]
    rfl

theorem losePackets_removed (ho : h.Ordered) (hheld : h.Holds encLevel packets) :
    ∃ h', losePackets encLevel packets h =
        .ok ⟨h', packets.flatMap queueFramesForRetransmission, none⟩ ∧
      Removed encLevel packets h h' := by
  induction packets generalizing h with
  | nil => exact ⟨h, rfl, .refl encLevel h⟩
  | cons p packets ih =>
    obtain ⟨space, hspace, hp⟩ := hheld.exists_space
    obtain ⟨history, hremove, hremoved⟩ := Removed.one ho hspace hp
    obtain ⟨rest, hrest, hremovedRest⟩ := ih (hremoved.ordered ho) (hremoved.holds hheld)
    refine ⟨rest, ?_, hremoved.trans hremovedRest⟩
    unfold losePackets
    dsimp only
    rw [getPacketNumberSpace_releaseBytes, hspace, ok_bind, hremove,
      Option.getD_some, hrest]
    rfl

/-! ## Losses and acknowledgements -/

def lostPackets (space : PacketNumberSpace φ) (now : Time) (rtt : RoundTrip) :
    List (SentPacket φ) × Time :=
  lostPacketsLoop space.largestAcked (now - rtt.lossDelay) rtt.lossDelay 0
    space.history.packets

theorem ordered_setPacketNumberSpace (ho : h.Ordered)
    (hspace : h.getPacketNumberSpace encLevel = .ok space)
    (hhistory : space'.history = space.history) :
    (h.setPacketNumberSpace encLevel space').Ordered := by
  intro level t ht
  by_cases heq : level = encLevel
  · subst heq
    rw [getPacketNumberSpace_setPacketNumberSpace] at ht
    cases ht
    rw [hhistory]
    exact ho level space hspace
  · rw [getPacketNumberSpace_setPacketNumberSpace_of_ne h heq] at ht
    exact ho level t ht

theorem detectLostPackets_removed (ho : h.Ordered) {now : Time}
    (hspace : h.getPacketNumberSpace encLevel = .ok space) :
    ∃ h', h.detectLostPackets now encLevel rtt = .ok ⟨h',
        (lostPackets space now rtt).1.flatMap queueFramesForRetransmission, none⟩ ∧
      Removed encLevel (lostPackets space now rtt).1
        (h.setPacketNumberSpace encLevel
          { space with lossTime := (lostPackets space now rtt).2 }) h' := by
  have hsub : (lostPackets space now rtt).1.Sublist space.history.packets :=
    lostPacketsLoop_sublist ..
  have hordered : (h.setPacketNumberSpace encLevel
      { space with lossTime := (lostPackets space now rtt).2 }).Ordered :=
    ordered_setPacketNumberSpace ho hspace rfl
  have hheld := hordered.holds (getPacketNumberSpace_setPacketNumberSpace ..) hsub
  obtain ⟨h', hlose, hremoved⟩ := losePackets_removed hordered hheld
  refine ⟨h', ?_, hremoved⟩
  unfold detectLostPackets
  rw [hspace, ok_bind]
  exact hlose

def ackedSpace (space : PacketNumberSpace φ) (largest : PacketNumber) :
    PacketNumberSpace φ :=
  { space with largestAcked := max space.largestAcked largest }

/-- The packets that an ACK frame acknowledges for the first time, if it is accepted. -/
def newlyAcked (h : SentPacketHandler φ) (ackFrame : AckFrame)
    (encLevel : EncryptionLevel) : List (SentPacket φ) :=
  match h.getPacketNumberSpace encLevel, ackFrame.lowestAcked, ackFrame.largestAcked with
  | .ok space, .ok lowest, .ok largest =>
    if largest > space.largestSent then []
    else
      match space.pns.validate ackFrame,
          determineNewlyAckedPackets ackFrame lowest largest space with
      | .ok true, .ok acked => acked
      | _, _ => []
  | _, _, _ => []

inductive AckOutcome (h : SentPacketHandler φ) (ackFrame : AckFrame)
    (encLevel : EncryptionLevel) (rcvTime : Time) (rtt : RoundTrip) :
    Handled φ → Prop where
  | unsent (hnone : h.newlyAcked ackFrame encLevel = []) :
      AckOutcome h ackFrame encLevel rcvTime rtt ⟨h, [], some .unsentPacket⟩
  /-- The frame is rejected after all, or acknowledges no packet that is held. -/
  | nothing {space : PacketNumberSpace φ} {largest : PacketNumber}
      {error : Option AckError}
      (hspace : h.getPacketNumberSpace encLevel = .ok space)
      (hnone : h.newlyAcked ackFrame encLevel = []) :
      AckOutcome h ackFrame encLevel rcvTime rtt
        ⟨h.setPacketNumberSpace encLevel (ackedSpace space largest), [], error⟩
  | newlyAcked {space spaceAfter : PacketNumberSpace φ} {largest : PacketNumber}
      {acked : List (SentPacket φ)} {ackedHandler lostHandler : SentPacketHandler φ}
      (hspace : h.getPacketNumberSpace encLevel = .ok space)
      (hlargest : ackFrame.largestAcked = .ok largest)
      (hsent : largest ≤ space.largestSent)
      (hacked : h.newlyAcked ackFrame encLevel = acked)
      (hne : acked ≠ [])
      (hackPackets : ackPackets encLevel acked
        (h.setPacketNumberSpace encLevel (ackedSpace space largest)) =
          .ok ⟨ackedHandler, acked.flatMap fun p => p.frames.map .onAcked, none⟩)
      (hremoved : Removed encLevel acked
        (h.setPacketNumberSpace encLevel (ackedSpace space largest)) ackedHandler)
      (hafter : ackedHandler.getPacketNumberSpace encLevel = .ok spaceAfter)
      (hlost : Removed encLevel (lostPackets spaceAfter rcvTime rtt).1
        (ackedHandler.setPacketNumberSpace encLevel
          { spaceAfter with lossTime := (lostPackets spaceAfter rcvTime rtt).2 })
        lostHandler) :
      AckOutcome h ackFrame encLevel rcvTime rtt {
        handler := setLossDetectionTimer
          { lostHandler with ptoCount := 0, numProbesToSend := 0 } rtt
        callbacks := (acked.flatMap fun p => p.frames.map .onAcked) ++
          (lostPackets spaceAfter rcvTime rtt).1.flatMap queueFramesForRetransmission }

theorem receivedAck_outcome (ho : h.Ordered) {ackFrame : AckFrame} {rcvTime : Time}
    (hack : h.receivedAck ackFrame encLevel rcvTime rtt = .ok handled) :
    AckOutcome h ackFrame encLevel rcvTime rtt handled := by
  obtain ⟨space, hspace, hack⟩ := bind_eq_ok.mp hack
  obtain ⟨largest, hlargest, hack⟩ := bind_eq_ok.mp hack
  split at hack
  · next hunsent =>
    cases hack
    apply AckOutcome.unsent
    unfold newlyAcked
    rw [hspace, hlargest]
    cases ackFrame.lowestAcked with
    | error cause => rfl
    | ok lowest => exact if_pos hunsent
  next hsent =>
  have hordered : (h.setPacketNumberSpace encLevel (ackedSpace space largest)).Ordered :=
    ordered_setPacketNumberSpace ho hspace rfl
  obtain ⟨valid, hvalid, hack⟩ := bind_eq_ok.mp hack
  split at hack
  · next haccepted =>
    obtain ⟨lowest, hlowest, hack⟩ := bind_eq_ok.mp hack
    have hnewly : ∀ acked, determineNewlyAckedPackets ackFrame lowest largest
        (ackedSpace space largest) = acked →
        h.newlyAcked ackFrame encLevel = acked.toOption.getD [] := by
      rintro acked rfl
      change _ = (determineNewlyAckedPackets ackFrame lowest largest
        space).toOption.getD []
      unfold newlyAcked
      rw [hspace, hlowest, hlargest]
      dsimp only
      rw [if_neg hsent, hvalid, haccepted]
      cases determineNewlyAckedPackets ackFrame lowest largest space <;> rfl
    split at hack
    · next hacked =>
      cases hack
      exact .nothing hspace (hnewly _ hacked)
    · next hacked =>
      cases hack
      exact .nothing hspace (hnewly _ hacked)
    · next acked hnone hacked =>
      have hheld := hordered.holds (getPacketNumberSpace_setPacketNumberSpace ..)
        (newlyAckedLoop_sublist hacked)
      obtain ⟨ackedHandler, hackPackets, hremoved⟩ := ackPackets_removed hordered hheld
      change (ackPackets encLevel acked
        (h.setPacketNumberSpace encLevel (ackedSpace space largest)) >>= _) = _ at hack
      rw [hackPackets, ok_bind, if_neg (by simp)] at hack
      obtain ⟨history, hafter, -⟩ := hremoved.space _
        (getPacketNumberSpace_setPacketNumberSpace ..)
      obtain ⟨lostHandler, hdetect, hlost⟩ :=
        detectLostPackets_removed (hremoved.ordered hordered) hafter
      rw [hdetect, ok_bind] at hack
      cases hack
      exact .newlyAcked hspace hlargest (not_lt.mp hsent) (hnewly _ hacked)
        (fun hnil => hnone hnil) hackPackets hremoved hafter hlost
  · next hrejected =>
    cases hack
    apply AckOutcome.nothing hspace
    unfold newlyAcked
    rw [hspace, hlargest]
    cases ackFrame.lowestAcked with
    | error cause => rfl
    | ok lowest =>
      dsimp only
      rw [if_neg hsent, hvalid, Bool.eq_false_iff.mpr hrejected]

inductive TimeoutOutcome (h : SentPacketHandler φ) (now : Time) (rtt : RoundTrip) :
    Handled φ → Prop where
  | idle (hnone : h.hasOutstandingPackets = false) :
      TimeoutOutcome h now rtt { handler := h.setLossDetectionTimer rtt }
  | lost {space : PacketNumberSpace φ} {lostHandler : SentPacketHandler φ}
      (houtstanding : h.hasOutstandingPackets = true)
      (hlossTime : h.getEarliestLossTime.1 ≠ 0)
      (hspace : h.getPacketNumberSpace h.getEarliestLossTime.2 = .ok space)
      (hlost : Removed h.getEarliestLossTime.2 (lostPackets space now rtt).1
        (h.setPacketNumberSpace h.getEarliestLossTime.2
          { space with lossTime := (lostPackets space now rtt).2 }) lostHandler) :
      TimeoutOutcome h now rtt {
        handler := lostHandler.setLossDetectionTimer rtt
        callbacks := (lostPackets space now rtt).1.flatMap queueFramesForRetransmission }
  | probe (houtstanding : h.hasOutstandingPackets = true)
      (hlossTime : h.getEarliestLossTime.1 = 0) :
      TimeoutOutcome h now rtt { handler := setLossDetectionTimer { h with
        ptoCount := h.ptoCount + 1
        numProbesToSend := h.numProbesToSend + 2 } rtt }

theorem onLossDetectionTimeout_outcome (ho : h.Ordered) {now : Time}
    (htimeout : h.onLossDetectionTimeout now rtt = .ok handled) :
    TimeoutOutcome h now rtt handled := by
  unfold onLossDetectionTimeout at htimeout
  split at htimeout
  · next houtstanding =>
    obtain ⟨result, hresult, htimeout⟩ := bind_eq_ok.mp htimeout
    cases htimeout
    unfold onVerifiedLossDetectionTimeout at hresult
    dsimp only at hresult
    split at hresult
    · next hlossTime =>
      have hspace : ∃ space, h.getPacketNumberSpace h.getEarliestLossTime.2 = .ok space := by
        obtain ⟨space, hspace, -⟩ := bind_eq_ok.mp hresult
        exact ⟨space, hspace⟩
      obtain ⟨space, hspace⟩ := hspace
      obtain ⟨lostHandler, hdetect, hlost⟩ := detectLostPackets_removed ho hspace
      rw [hdetect] at hresult
      cases hresult
      exact .lost houtstanding hlossTime hspace hlost
    · next hlossTime =>
      cases hresult
      exact .probe houtstanding (not_not.mp hlossTime)
  · next hnone =>
    cases htimeout
    exact .idle (Bool.eq_false_iff.mpr hnone)

theorem probePacket_holds (ho : h.Ordered) (hprobe : h.probePacket = some p) :
    h.Holds p.encryptionLevel [p] := by
  have hfirst : ∀ encLevel space, h.getPacketNumberSpace encLevel = .ok space →
      space.history.firstOutstanding = some p → h.Holds p.encryptionLevel [p] := by
    intro encLevel space hspace hfirst
    obtain ⟨e, he, rfl⟩ := Option.map_eq_some_iff.mp hfirst
    have hmem : e.value ∈ space.history.packets :=
      List.mem_map_of_mem (List.mem_of_head? he)
    rw [ho.level hspace hmem]
    exact ho.holds hspace (List.singleton_sublist.mpr hmem)
  rcases (Option.orElse_eq_some _ _ _).mp hprobe with hprobe | ⟨_, hprobe⟩
  · obtain ⟨space, hspace, hp⟩ := Option.bind_eq_some_iff.mp hprobe
    exact hfirst .initial space (by rw [getPacketNumberSpace, hspace]) hp
  rcases (Option.orElse_eq_some _ _ _).mp hprobe with hprobe | ⟨_, hprobe⟩
  · obtain ⟨space, hspace, hp⟩ := Option.bind_eq_some_iff.mp hprobe
    exact hfirst .handshake space (by rw [getPacketNumberSpace, hspace]) hp
  · exact hfirst .oneRTT h.oneRTTPackets rfl hprobe

theorem queueProbePacket_removed (ho : h.Ordered) :
    ∃ handled queued, h.queueProbePacket = .ok (handled, queued) ∧
      ∃ encLevel taken, Removed encLevel taken h handled.handler ∧
        handled.callbacks = taken.flatMap queueFramesForRetransmission := by
  unfold queueProbePacket
  split
  · exact ⟨_, _, rfl, .oneRTT, [], .refl _ h, rfl⟩
  · next p hp =>
    obtain ⟨space, hspace, hmem⟩ := (probePacket_holds ho hp).exists_space
    obtain ⟨history, hremove, hremoved⟩ := Removed.one ho hspace hmem
    dsimp only
    rw [getPacketNumberSpace_releaseBytes, hspace, ok_bind, hremove]
    exact ⟨_, _, rfl, p.encryptionLevel, [p], hremoved, (List.flatMap_singleton ..).symm⟩

/-! ## Sending -/

inductive SentOutcome (h : SentPacketHandler φ) (packet : SentPacket φ)
    (rtt : RoundTrip) : SentPacketHandler φ → Prop where
  | empty {space : PacketNumberSpace φ}
      (hspace : h.getPacketNumberSpace packet.encryptionLevel = .ok space)
      (hempty : packet.frames = []) :
      SentOutcome h packet rtt (h.setPacketNumberSpace packet.encryptionLevel
        { space with largestSent := packet.packetNumber })
  | ackEliciting {space : PacketNumberSpace φ}
      (hspace : h.getPacketNumberSpace packet.encryptionLevel = .ok space)
      (hframes : packet.frames ≠ []) :
      SentOutcome h packet rtt (setLossDetectionTimer
        ((h.sentAckEliciting packet).setPacketNumberSpace packet.encryptionLevel
          { space with
            largestSent := packet.packetNumber
            history := space.history.sentPacket
              { packet with includedInBytesInFlight := true } }) rtt)

private theorem setPacketNumberSpace_twice (h : SentPacketHandler φ) (packet : SentPacket φ)
    (space space' : PacketNumberSpace φ) :
    ((h.setPacketNumberSpace encLevel space).sentAckEliciting
        packet).setPacketNumberSpace encLevel space' =
      (h.sentAckEliciting packet).setPacketNumberSpace encLevel space' := by
  cases encLevel <;> rfl

theorem sentPacket_outcome {packet : SentPacket φ}
    (hsent : h.sentPacket packet rtt = .ok h') : SentOutcome h packet rtt h' := by
  obtain ⟨⟨impl, sent, isAckEliciting⟩, himpl, hsent⟩ := bind_eq_ok.mp hsent
  obtain ⟨space, hspace, himpl⟩ := bind_eq_ok.mp himpl
  split at himpl
  · next hempty =>
    cases himpl
    cases hsent
    exact .empty hspace (List.isEmpty_iff.mp hempty)
  · next hframes =>
    cases himpl
    obtain ⟨space', hspace', hsent⟩ := bind_eq_ok.mp hsent
    cases hsent
    rw [getPacketNumberSpace_sentAckEliciting,
      getPacketNumberSpace_setPacketNumberSpace] at hspace'
    cases hspace'
    rw [setPacketNumberSpace_twice]
    have houtcome : SentOutcome h packet rtt _ :=
      .ackEliciting hspace fun hnil => hframes (List.isEmpty_iff.mpr hnil)
    exact houtcome

/-! ## Dropping keys and Retry -/

structure Dropped (encLevel : EncryptionLevel) (h h' : SentPacketHandler φ) : Prop where
  dropped : h'.getPacketNumberSpace encLevel = .error .nilPointer
  others : ∀ other, other ≠ encLevel →
    h'.getPacketNumberSpace other = h.getPacketNumberSpace other
  bytes : h'.bytesInFlight = bytesAfter h.bytesInFlight (h.packetsAt encLevel)
  lowest : h'.lowestNotConfirmedAcked = h.lowestNotConfirmedAcked

private theorem foldl_releaseBytes_bytes (packets : List (SentPacket φ)) (h : SentPacketHandler φ) :
    (packets.foldl releaseBytes h).bytesInFlight = bytesAfter h.bytesInFlight packets ∧
      (packets.foldl releaseBytes h).lowestNotConfirmedAcked = h.lowestNotConfirmedAcked := by
  induction packets generalizing h with
  | nil => exact ⟨rfl, rfl⟩
  | cons p packets ih =>
    obtain ⟨hbytes, hlowest, -⟩ := removed_releaseBytes h p
    obtain ⟨hrest, hlowestRest⟩ := ih (h.releaseBytes p)
    rw [List.foldl_cons, hrest, hlowestRest, hbytes]
    exact ⟨rfl, hlowest⟩

theorem dropPackets_dropped (hdrop : h.dropPackets encLevel = .ok h') :
    Dropped encLevel h h' := by
  obtain ⟨space, hspace, hdrop⟩ := bind_eq_ok.mp hdrop
  obtain ⟨hbytes, hlowest⟩ := foldl_releaseBytes_bytes space.history.packets h
  have hspaces := getPacketNumberSpace_foldl_releaseBytes space.history.packets h
  have hpackets := packetsAt_of_getPacketNumberSpace hspace
  cases encLevel with
  | oneRTT => cases hdrop
  | initial | handshake =>
    cases hdrop
    refine ⟨rfl, fun other hne => (hspaces other).symm ▸ ?_, ?_, hlowest⟩
    · cases other <;> first | rfl | exact absurd rfl hne
    · rw [hpackets]
      exact hbytes

theorem resetForRetry_eq {num₁ num₂ : UInt16}
    (hreset : h.resetForRetry num₁ num₂ rtt = .ok handled) :
    ∃ space, h.getPacketNumberSpace .initial = .ok space ∧
      handled = {
        handler := setLossDetectionTimer (setPacketNumberSpace
          { h with bytesInFlight := 0 } .initial (.new (space.pns.pop num₁).1 num₂)) rtt
        callbacks := space.history.packets.flatMap queueFramesForRetransmission } := by
  obtain ⟨space, hspace, hreset⟩ := bind_eq_ok.mp hreset
  cases hreset
  exact ⟨space, hspace, rfl⟩

end SentPacketHandler

end Qperf.Quic
