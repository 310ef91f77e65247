import Qperf.Quic.BytesInFlight

/-!
# The loss detection timer

`setLossDetectionTimer` first sets the alarm to the earliest loss time of the three
spaces and then overwrites it with the time of the next probe.  A packet that is to be
declared lost after a delay is thus found only when the probe timer fires, unless that
comes first.
-/

namespace Qperf.Quic

open Qperf.Foundation

variable {φ : Type}

namespace SentPacketHandler

variable {h h' : SentPacketHandler φ} {encLevel : EncryptionLevel}
variable {space space' : PacketNumberSpace φ} {p : SentPacket φ} {rtt : RoundTrip}

def ptoTime (h : SentPacketHandler φ) (rtt : RoundTrip) : Time :=
  h.lastSentAckElicitingPacketTime + rtt.backoff h.ptoCount

/-- The timer fires for the first loss time, or else for the next probe. -/
structure Armed (h : SentPacketHandler φ) (rtt : RoundTrip) : Prop where
  lossTime : h.hasOutstandingPackets = true → ∀ encLevel space,
    h.getPacketNumberSpace encLevel = .ok space → space.lossTime ≠ 0 →
      h.alarm ≤ space.lossTime
  pto : h.hasOutstandingPackets = true → (∀ encLevel space,
    h.getPacketNumberSpace encLevel = .ok space → space.lossTime = 0) →
      h.alarm = h.ptoTime rtt
  idle : h.hasOutstandingPackets = false → h.alarm = 0

def ArmedAfter (h : SentPacketHandler φ) (event : HandlerEvent φ)
    (h' : SentPacketHandler φ) : Prop :=
  match event with
  | .sentPacket packet rtt => packet.frames ≠ [] → h'.Armed rtt
  | .receivedAck ackFrame encLevel _ rtt =>
    h.newlyAcked ackFrame encLevel ≠ [] → h'.Armed rtt
  | .onLossDetectionTimeout _ rtt => h'.Armed rtt
  | _ => True

def IsLost (largestAcked : PacketNumber) (lostSendTime : Time) (p : SentPacket φ) :
    Prop :=
  p.sendTime < lostSendTime ∨ largestAcked ≥ p.packetNumber + packetThreshold

/-- The spaces at other levels have no loss time before `alarm`. -/
def OthersAfter (h : SentPacketHandler φ) (encLevel : EncryptionLevel) (alarm : Time) :
    Prop :=
  ∀ other space, other ≠ encLevel → h.getPacketNumberSpace other = .ok space →
    space.lossTime ≠ 0 → alarm ≤ space.lossTime

/-- No packet that stays in the space gets a loss time before `alarm`. -/
def PacketsAfter (space : PacketNumberSpace φ) (acked : List (SentPacket φ))
    (largestAcked : PacketNumber) (now : Time) (rtt : RoundTrip) (alarm : Time) : Prop :=
  ∀ p ∈ space.history.packets, p ∉ acked → p.packetNumber ≤ largestAcked →
    ¬ IsLost largestAcked (now - rtt.lossDelay) p → alarm ≤ p.sendTime + rtt.lossDelay

/-- The next probe comes before every loss time. -/
def ProbesFirst (h : SentPacketHandler φ) : HandlerEvent φ → Prop
  | .sentPacket packet rtt => ∀ encLevel space,
      h.getPacketNumberSpace encLevel = .ok space → space.lossTime ≠ 0 →
        packet.sendTime + rtt.backoff h.ptoCount ≤ space.lossTime
  | .receivedAck ackFrame encLevel rcvTime rtt =>
    h.OthersAfter encLevel (h.lastSentAckElicitingPacketTime + rtt.backoff 0) ∧
    ∀ space largest, h.getPacketNumberSpace encLevel = .ok space →
      ackFrame.largestAcked = .ok largest →
      PacketsAfter space (h.newlyAcked ackFrame encLevel)
        (max space.largestAcked largest) rcvTime rtt
        (h.lastSentAckElicitingPacketTime + rtt.backoff 0)
  | .onLossDetectionTimeout now rtt => h.getEarliestLossTime.1 ≠ 0 →
      h.OthersAfter h.getEarliestLossTime.2 (h.ptoTime rtt) ∧
      ∀ space, h.getPacketNumberSpace h.getEarliestLossTime.2 = .ok space →
        PacketsAfter space [] space.largestAcked now rtt (h.ptoTime rtt)
  | _ => True

/-! ## Setting the timer -/

theorem hasOutstandingPackets_congr (hinitial : h'.initialPackets = h.initialPackets)
    (hhandshake : h'.handshakePackets = h.handshakePackets)
    (honeRTT : h'.oneRTTPackets = h.oneRTTPackets) :
    h'.hasOutstandingPackets = h.hasOutstandingPackets := by
  unfold hasOutstandingPackets hasOutstandingCryptoPackets
  rw [hinitial, hhandshake, honeRTT]

private theorem setLossDetectionTimer_eq (h : SentPacketHandler φ) (rtt : RoundTrip) :
    h.setLossDetectionTimer rtt = { h with
      alarm := if h.hasOutstandingPackets then h.ptoTime rtt else 0 } := by
  unfold setLossDetectionTimer ptoTime
  dsimp only
  by_cases hlossTime : h.getEarliestLossTime.1 ≠ 0
  · rw [if_pos hlossTime]
    have hsame : hasOutstandingPackets { h with alarm := h.getEarliestLossTime.1 } =
      h.hasOutstandingPackets := hasOutstandingPackets_congr rfl rfl rfl
    rw [hsame]
    split <;> rfl
  · rw [if_neg hlossTime]
    split <;> rfl

theorem armed_setLossDetectionTimer
    (hfirst : h.hasOutstandingPackets = true → ∀ encLevel space,
      h.getPacketNumberSpace encLevel = .ok space → space.lossTime ≠ 0 →
        h.ptoTime rtt ≤ space.lossTime) :
    (h.setLossDetectionTimer rtt).Armed rtt := by
  rw [setLossDetectionTimer_eq]
  have houtstanding : hasOutstandingPackets { h with
      alarm := if h.hasOutstandingPackets then h.ptoTime rtt else 0 } =
      h.hasOutstandingPackets := hasOutstandingPackets_congr rfl rfl rfl
  refine ⟨?_, ?_, ?_⟩
  · intro hsome level t hlevel hlossTime
    rw [houtstanding] at hsome
    rw [if_pos hsome]
    exact hfirst hsome level t hlevel hlossTime
  · intro hsome _
    exact if_pos hsome
  · intro hnone
    rw [houtstanding] at hnone
    rw [hnone]
    rfl

/-! ## Loss times -/

theorem lostPacketsLoop_lossTime (largestAcked : PacketNumber) (lostSendTime : Time)
    (lossDelay : Int) (lossTime : Time) (packets : List (SentPacket φ)) :
    (lostPacketsLoop largestAcked lostSendTime lossDelay lossTime packets).2 = lossTime ∨
      ∃ p ∈ packets, p.packetNumber ≤ largestAcked ∧ ¬ IsLost largestAcked lostSendTime p ∧
        (lostPacketsLoop largestAcked lostSendTime lossDelay lossTime packets).2 =
          p.sendTime + lossDelay := by
  induction packets generalizing lossTime with
  | nil => exact .inl rfl
  | cons p packets ih =>
    rw [lostPacketsLoop]
    split
    · exact .inl rfl
    next hacked =>
    split
    · rcases ih lossTime with hsame | ⟨q, hq, hrest⟩
      · exact .inl hsame
      · exact .inr ⟨q, List.mem_cons_of_mem p hq, hrest⟩
    · next hkept =>
      rcases ih (if lossTime = 0 then p.sendTime + lossDelay else lossTime) with
        hsame | ⟨q, hq, hrest⟩
      · by_cases hzero : lossTime = 0
        · rw [if_pos hzero] at hsame ⊢
          exact .inr ⟨p, List.mem_cons_self, not_lt.mp hacked, hkept, hsame⟩
        · rw [if_neg hzero] at hsame ⊢
          exact .inl hsame
      · exact .inr ⟨q, List.mem_cons_of_mem p hq, hrest⟩

theorem lostPackets_lossTime {now alarm : Time} {acked : List (SentPacket φ)}
    (hsub : ∀ q ∈ space'.history.packets, q ∈ space.history.packets ∧ q ∉ acked)
    (hpackets : PacketsAfter space acked space'.largestAcked now rtt alarm)
    (hlossTime : (lostPackets space' now rtt).2 ≠ 0) :
    alarm ≤ (lostPackets space' now rtt).2 := by
  rcases lostPacketsLoop_lossTime space'.largestAcked (now - rtt.lossDelay)
    rtt.lossDelay 0 space'.history.packets with hzero | ⟨q, hq, hacked, hkept, heq⟩
  · exact absurd hzero hlossTime
  · obtain ⟨hmem, hnew⟩ := hsub q hq
    have hafter := hpackets q hmem hnew hacked hkept
    unfold lostPackets
    rw [heq]
    exact hafter

theorem Removed.lossTime {taken : List (SentPacket φ)} {alarm : Time}
    (hremoved : Removed encLevel taken (h.setPacketNumberSpace encLevel space') h')
    (hself : space'.lossTime ≠ 0 → alarm ≤ space'.lossTime)
    (hothers : h.OthersAfter encLevel alarm) :
    ∀ level t, h'.getPacketNumberSpace level = .ok t → t.lossTime ≠ 0 → alarm ≤ t.lossTime := by
  intro level t hlevel hlossTime
  by_cases heq : level = encLevel
  · subst heq
    obtain ⟨history, hspace, -⟩ := hremoved.space space'
      (getPacketNumberSpace_setPacketNumberSpace ..)
    rw [hspace] at hlevel
    cases hlevel
    exact hself hlossTime
  · rw [hremoved.others level heq,
      getPacketNumberSpace_setPacketNumberSpace_of_ne h heq] at hlevel
    exact hothers level t heq hlevel hlossTime

theorem Removed.disjoint (ho : h.Ordered) {taken : List (SentPacket φ)}
    (hremoved : Removed encLevel taken h h') :
    ∀ q ∈ h'.packetsAt encLevel, q ∈ h.packetsAt encLevel ∧ q ∉ taken := by
  intro q hq
  refine ⟨hremoved.packets.mem_iff.mpr (List.mem_append_right _ hq), fun htaken => ?_⟩
  have hdistinct : (h.packetsAt encLevel).Pairwise fun p q =>
      p.packetNumber ≠ q.packetNumber := by
    cases hspace : h.getPacketNumberSpace encLevel with
    | error cause =>
      unfold packetsAt
      rw [hspace]
      exact .nil
    | ok space =>
      rw [packetsAt_of_getPacketNumberSpace hspace]
      exact (ho.holds hspace (.refl _)).distinct
  have hperm := (hremoved.packets.pairwise_iff fun hne => hne.symm).mp hdistinct
  exact (List.pairwise_append.mp hperm).2.2 q htaken q hq rfl

theorem Armed.receivedAck (ho : h.Ordered) {ackFrame : AckFrame} {rcvTime : Time}
    {handled : Handled φ} (houtcome : AckOutcome h ackFrame encLevel rcvTime rtt handled)
    (hne : h.newlyAcked ackFrame encLevel ≠ [])
    (hfirst : h.ProbesFirst (.receivedAck ackFrame encLevel rcvTime rtt)) :
    handled.handler.Armed rtt := by
  cases houtcome with
  | unsent hnone => exact absurd hnone hne
  | nothing _ hnone => exact absurd hnone hne
  | @newlyAcked space spaceAfter largest acked ackedHandler lostHandler hspace hlargest _
      hacked _ _ hremoved hafter hlost =>
      obtain ⟨hothers, hpackets⟩ := hfirst
      have hordered : (h.setPacketNumberSpace encLevel
          (ackedSpace space largest)).Ordered :=
        ordered_setPacketNumberSpace ho hspace rfl
      have hself := getPacketNumberSpace_setPacketNumberSpace h encLevel
        (ackedSpace space largest)
      -- The space after the acknowledged packets were removed.
      have hlargestAfter : spaceAfter.largestAcked = max space.largestAcked largest := by
        obtain ⟨history, hspaceAfter, -⟩ := hremoved.space _ hself
        rw [hafter] at hspaceAfter
        cases hspaceAfter
        rfl
      have hsub : ∀ q ∈ spaceAfter.history.packets, q ∈ space.history.packets ∧ q ∉ acked := by
        have hdisjoint := hremoved.disjoint hordered
        rw [packetsAt_of_getPacketNumberSpace hafter,
          packetsAt_of_getPacketNumberSpace hself] at hdisjoint
        exact hdisjoint
      have hlastSent : lostHandler.lastSentAckElicitingPacketTime =
          h.lastSentAckElicitingPacketTime := by
        rw [hlost.lastSent, (setPacketNumberSpace_same ..).2.2.1, hremoved.lastSent,
          (setPacketNumberSpace_same ..).2.2.1]
      have hothersAfter : ackedHandler.OthersAfter encLevel
          (h.lastSentAckElicitingPacketTime + rtt.backoff 0) := by
        intro other t hother hlevel
        rw [hremoved.others other hother,
          getPacketNumberSpace_setPacketNumberSpace_of_ne h hother] at hlevel
        exact hothers other t hother hlevel
      apply armed_setLossDetectionTimer
      intro _ level t hlevel
      have hpto : ptoTime { lostHandler with ptoCount := 0, numProbesToSend := 0 } rtt =
          h.lastSentAckElicitingPacketTime + rtt.backoff 0 := by
        unfold ptoTime
        rw [hlastSent]
      rw [hpto]
      refine hlost.lossTime ?_ hothersAfter level t
        ((getPacketNumberSpace_congr rfl rfl rfl level).trans hlevel)
      have hspacePackets := hpackets space largest hspace hlargest
      rw [hacked, ← hlargestAfter] at hspacePackets
      exact lostPackets_lossTime hsub hspacePackets

private theorem earlierLossTime_eq_zero {earliest : Time × EncryptionLevel}
    {candidate : Option (PacketNumberSpace φ)}
    (hzero : (earlierLossTime earliest candidate encLevel).1 = 0) :
    earliest.1 = 0 ∧ ∀ space, candidate = some space → space.lossTime = 0 := by
  cases candidate with
  | none => exact ⟨hzero, fun space hspace => by cases hspace⟩
  | some space =>
    unfold earlierLossTime at hzero
    dsimp only at hzero
    split at hzero
    · next hearlier =>
      refine ⟨hearlier.resolve_right fun hlt => hlt.1 hzero, ?_⟩
      intro t ht
      cases ht
      exact hzero
    · next hlater => exact absurd (.inl hzero) hlater

theorem lossTime_of_getEarliestLossTime (hnone : h.getEarliestLossTime.1 = 0)
    (hspace : h.getPacketNumberSpace encLevel = .ok space) : space.lossTime = 0 := by
  have honeRTT := (earlierLossTime_eq_zero hnone).2 h.oneRTTPackets rfl
  have hhandshake := earlierLossTime_eq_zero (earlierLossTime_eq_zero hnone).1
  cases encLevel with
  | initial =>
    have hinitial : h.initialPackets = some space := by
      cases hpackets : h.initialPackets with
      | none =>
        rw [getPacketNumberSpace, hpackets] at hspace
        cases hspace
      | some t =>
        rw [getPacketNumberSpace, hpackets] at hspace
        cases hspace
        rfl
    rw [hinitial] at hhandshake
    exact hhandshake.1
  | handshake =>
    apply hhandshake.2 space
    cases hpackets : h.handshakePackets with
    | none =>
      rw [getPacketNumberSpace, hpackets] at hspace
      cases hspace
    | some t =>
      rw [getPacketNumberSpace, hpackets] at hspace
      cases hspace
      rfl
  | oneRTT =>
    cases hspace
    exact honeRTT

theorem Armed.onLossDetectionTimeout {now : Time} {handled : Handled φ}
    (houtcome : TimeoutOutcome h now rtt handled)
    (hfirst : h.ProbesFirst (.onLossDetectionTimeout now rtt)) :
    handled.handler.Armed rtt := by
  cases houtcome with
  | idle hnone =>
    apply armed_setLossDetectionTimer
    intro hsome
    rw [hnone] at hsome
    cases hsome
  | @lost space lostHandler houtstanding hlossTime hspace hlost =>
    obtain ⟨hothers, hpackets⟩ := hfirst hlossTime
    apply armed_setLossDetectionTimer
    have hpto : lostHandler.ptoTime rtt = h.ptoTime rtt := by
      unfold ptoTime
      rw [hlost.lastSent, hlost.ptoCount, (setPacketNumberSpace_same ..).2.2.1,
        (setPacketNumberSpace_same ..).2.2.2]
    rw [hpto]
    intro _
    refine hlost.lossTime ?_ hothers
    exact lostPackets_lossTime (fun q hq => ⟨hq, List.not_mem_nil⟩) (hpackets space hspace)
  | probe houtstanding hlossTime =>
    apply armed_setLossDetectionTimer
    intro _ level t hlevel hne
    have hspace : h.getPacketNumberSpace level = .ok t :=
      (getPacketNumberSpace_congr rfl rfl rfl level).trans hlevel
    exact absurd (lossTime_of_getEarliestLossTime hlossTime hspace) hne

theorem Armed.sentPacket {packet : SentPacket φ}
    (houtcome : SentOutcome h packet rtt h') (hframes : packet.frames ≠ [])
    (hfirst : h.ProbesFirst (.sentPacket packet rtt)) : h'.Armed rtt := by
  cases houtcome with
  | empty _ hempty => exact absurd hempty hframes
  | @ackEliciting space hspace _ =>
    apply armed_setLossDetectionTimer
    have hpto : ptoTime ((h.sentAckEliciting packet).setPacketNumberSpace
        packet.encryptionLevel { space with
          largestSent := packet.packetNumber
          history := space.history.sentPacket
            { packet with includedInBytesInFlight := true } }) rtt =
        packet.sendTime + rtt.backoff h.ptoCount := by
      unfold ptoTime
      rw [(setPacketNumberSpace_same ..).2.2.1, (setPacketNumberSpace_same ..).2.2.2]
      rfl
    rw [hpto]
    intro _ level t hlevel
    by_cases heq : level = packet.encryptionLevel
    · subst heq
      rw [getPacketNumberSpace_setPacketNumberSpace] at hlevel
      cases hlevel
      exact hfirst _ space hspace
    · rw [getPacketNumberSpace_setPacketNumberSpace_of_ne _ heq,
        getPacketNumberSpace_sentAckEliciting] at hlevel
      exact hfirst level t hlevel

/-- After every call that sets the timer, it is right if the next probe comes first. -/
theorem lossDetectionTimer_armed {initialPN : PacketNumber} {num₁ num₂ num₃ : UInt16}
    {events : List (HandlerEvent φ)} {event : HandlerEvent φ}
    (hrun : Trace (fun h event h' => perform h event = .ok h' ∧ Admits h event)
      (new initialPN num₁ num₂ num₃) events h)
    (hstep : h.perform event = .ok h') (hfirst : h.ProbesFirst event) :
    h.ArmedAfter event h' := by
  have ho := (tracked_of_trace hrun).ordered
  cases event with
  | sentPacket packet rtt =>
    intro hframes
    exact .sentPacket (sentPacket_outcome hstep) hframes hfirst
  | receivedAck ackFrame encLevel rcvTime rtt =>
    obtain ⟨handled, hack, rfl⟩ := map_eq_ok hstep
    intro hne
    exact .receivedAck ho (receivedAck_outcome ho hack) hne hfirst
  | onLossDetectionTimeout now rtt =>
    obtain ⟨handled, htimeout, rfl⟩ := map_eq_ok hstep
    exact .onLossDetectionTimeout (onLossDetectionTimeout_outcome ho htimeout) hfirst
  | queueProbePacket => trivial
  | dropPackets encLevel => trivial
  | resetForRetry num₁ num₂ rtt => trivial

section Samples

def twoPackets (rtt : RoundTrip) : List (HandlerEvent Unit) :=
  [.sentPacket (samplePacket .oneRTT 0) rtt, .sentPacket (samplePacket .oneRTT 1) rtt]

def ackSecond (rtt : RoundTrip) : HandlerEvent Unit :=
  .receivedAck ⟨[⟨1, 1⟩], 0⟩ .oneRTT 2 rtt

theorem lossDetectionTimer_armed_ackSecond : ∃ h h' : SentPacketHandler Unit,
      Trace (fun h event h' => perform h event = .ok h' ∧ Admits h event) (new 0 0 0 0)
        (twoPackets ⟨5000, 1000⟩) h ∧
      h.perform (ackSecond ⟨5000, 1000⟩) = .ok h' ∧
      h'.alarm = 1001 ∧ h'.oneRTTPackets.lossTime = 5001 ∧ h'.Armed ⟨5000, 1000⟩ := by
  have hrun : ∃ h h' : SentPacketHandler Unit,
      Trace (fun h event h' => perform h event = .ok h' ∧ Admits h event) (new 0 0 0 0)
        (twoPackets ⟨5000, 1000⟩) h ∧
      h.perform (ackSecond ⟨5000, 1000⟩) = .ok h' ∧
      h'.alarm = 1001 ∧ h'.oneRTTPackets.lossTime = 5001 ∧
      h.newlyAcked ⟨[⟨1, 1⟩], 0⟩ .oneRTT ≠ [] ∧
      h.ProbesFirst (ackSecond ⟨5000, 1000⟩) := by
    refine ⟨_, _, .cons ⟨rfl, ?_⟩ (.cons ⟨rfl, ?_⟩ .nil), rfl, rfl, rfl, ?_, ?_, ?_⟩
    · intro space hspace
      cases hspace
      decide
    · intro space hspace
      cases hspace
      decide
    · exact List.cons_ne_nil _ _
    · intro other space hne hspace hlossTime
      cases other <;> cases hspace <;> exact absurd rfl hlossTime
    · intro space largest hspace _ p hp _ _ _
      cases hspace
      have htimes : ∀ q ∈ [samplePacket .oneRTT 0, samplePacket .oneRTT 1].map
          (fun p => { p with includedInBytesInFlight := true }),
          (1001 : Int) ≤ q.sendTime + 5000 := by decide
      exact htimes p hp
  obtain ⟨h, h', htrace, hstep, halarm, hlossTime, hne, hfirst⟩ := hrun
  exact ⟨h, h', htrace, hstep, halarm, hlossTime,
    lossDetectionTimer_armed htrace hstep hfirst hne⟩

/-- The alarm is set for the probe although a packet is lost before. -/
theorem lossDetectionTimer_overwritten : ∃ h h' : SentPacketHandler Unit,
      Trace (fun h event h' => perform h event = .ok h' ∧ Admits h event) (new 0 0 0 0)
        (twoPackets ⟨1000, 5000⟩) h ∧
      h.perform (ackSecond ⟨1000, 5000⟩) = .ok h' ∧
      h'.alarm = 5001 ∧ h'.oneRTTPackets.lossTime = 1001 ∧
      ¬ h.ArmedAfter (ackSecond ⟨1000, 5000⟩) h' := by
  have hrun : ∃ h h' : SentPacketHandler Unit,
      Trace (fun h event h' => perform h event = .ok h' ∧ Admits h event) (new 0 0 0 0)
        (twoPackets ⟨1000, 5000⟩) h ∧
      h.perform (ackSecond ⟨1000, 5000⟩) = .ok h' ∧
      h'.alarm = 5001 ∧ h'.oneRTTPackets.lossTime = 1001 ∧
      h.newlyAcked ⟨[⟨1, 1⟩], 0⟩ .oneRTT ≠ [] ∧ h'.hasOutstandingPackets = true := by
    refine ⟨_, _, .cons ⟨rfl, ?_⟩ (.cons ⟨rfl, ?_⟩ .nil), rfl, rfl, rfl, ?_, rfl⟩
    · intro space hspace
      cases hspace
      decide
    · intro space hspace
      cases hspace
      decide
    · exact List.cons_ne_nil _ _
  obtain ⟨h, h', htrace, hstep, halarm, hlossTime, hne, houtstanding⟩ := hrun
  refine ⟨h, h', htrace, hstep, halarm, hlossTime, ?_⟩
  intro harmed
  have hle := (harmed hne).lossTime houtstanding .oneRTT h'.oneRTTPackets rfl
    (by rw [hlossTime]; decide)
  rw [halarm, hlossTime] at hle
  exact absurd hle (by decide)

end Samples

end SentPacketHandler

end Qperf.Quic
