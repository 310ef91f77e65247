import Qperf.Quic.HandlerSteps

/-!
# Bytes in flight

`bytesInFlight` is kept by adding and subtracting the lengths of packets, in unsigned
arithmetic and in five places.  It is the sum of the lengths of the packets that the
handler holds in its three histories.
-/

namespace Qperf.Quic

open Qperf.Foundation

variable {φ : Type}

namespace SentPacketHandler

variable {h h' : SentPacketHandler φ} {encLevel : EncryptionLevel}
variable {space space' : PacketNumberSpace φ} {p : SentPacket φ}

def totalLength (packets : List (SentPacket φ)) : Nat :=
  (packets.map SentPacket.length).sum

def heldLength (h : SentPacketHandler φ) : Nat :=
  totalLength (h.packetsAt .initial) + totalLength (h.packetsAt .handshake) +
    totalLength (h.packetsAt .oneRTT)

structure InFlight (h : SentPacketHandler φ) : Prop where
  bytes : h.bytesInFlight = wrapByteCount h.heldLength
  noWrap : h.heldLength < 2 ^ 64 → h.bytesInFlight = h.heldLength
  sorted : ∀ encLevel space, h.getPacketNumberSpace encLevel = .ok space →
    space.history.packetList.Pairwise fun e e' =>
      e.value.packetNumber < e'.value.packetNumber
  lookup : ∀ encLevel space, h.getPacketNumberSpace encLevel = .ok space →
    ∀ pn e, space.history.packetMap.lookup pn = some e ↔
      e ∈ space.history.packetList ∧ e.value.packetNumber = pn

/-! ## Sums of lengths -/

private theorem wrapByteCount_sub (n m : Int) :
    wrapByteCount ((wrapByteCount n : Int) - m) = wrapByteCount (n - m) := by
  unfold wrapByteCount
  omega

theorem wrapByteCount_add (n m : Int) :
    wrapByteCount ((wrapByteCount n : Int) + m) = wrapByteCount (n + m) := by
  unfold wrapByteCount
  omega

variable {handled : Handled φ} {rtt : RoundTrip} {taken : List (SentPacket φ)}

theorem bytesAfter_wrap
    (hincluded : ∀ p ∈ taken, p.includedInBytesInFlight = true) (n : Int) :
    bytesAfter (wrapByteCount n) taken = wrapByteCount (n - totalLength taken) := by
  induction taken generalizing n with
  | nil => simp [bytesAfter, totalLength]
  | cons p taken ih =>
    obtain ⟨hp, htaken⟩ := List.forall_mem_cons.mp hincluded
    have hcons : bytesAfter (wrapByteCount n) (p :: taken) =
        bytesAfter (wrapByteCount (n - p.length)) taken := by
      unfold bytesAfter
      rw [List.foldl_cons, if_pos hp, wrapByteCount_sub]
    have htotal : totalLength (p :: taken) = p.length + totalLength taken := List.sum_cons
    rw [hcons, ih htaken, htotal]
    congr 1
    push_cast
    ring

theorem totalLength_append (packets packets' : List (SentPacket φ)) :
    totalLength (packets ++ packets') = totalLength packets + totalLength packets' := by
  simp [totalLength]

private theorem totalLength_perm {packets packets' : List (SentPacket φ)}
    (hperm : packets.Perm packets') : totalLength packets = totalLength packets' :=
  (hperm.map _).sum_nat

theorem heldLength_eq {n : Nat} (hself : totalLength (h.packetsAt encLevel) =
      n + totalLength (h'.packetsAt encLevel))
    (hothers : ∀ other, other ≠ encLevel → h'.packetsAt other = h.packetsAt other) :
    h.heldLength = n + h'.heldLength :=
  sum_levels_eq totalLength hself hothers

/-! ## The invariant -/

structure Tracked (h : SentPacketHandler φ) : Prop where
  histories : ∀ encLevel space, h.getPacketNumberSpace encLevel = .ok space →
    space.history.Consistent encLevel (space.largestSent + 1)
  included : ∀ encLevel, ∀ p ∈ h.packetsAt encLevel, p.includedInBytesInFlight = true
  bytes : h.bytesInFlight = wrapByteCount h.heldLength

theorem Tracked.ordered (ht : h.Tracked) : h.Ordered :=
  fun encLevel space hspace => ⟨_, ht.histories encLevel space hspace⟩

theorem Tracked.inFlight (ht : h.Tracked) : h.InFlight where
  bytes := ht.bytes
  noWrap := by
    intro hlt
    rw [ht.bytes]
    unfold wrapByteCount
    omega
  sorted := fun encLevel space hspace => (ht.histories encLevel space hspace).sorted
  lookup := fun encLevel space hspace => (ht.histories encLevel space hspace).lookup

private theorem packetsAt_new (initialPN : PacketNumber) (num₁ num₂ num₃ : UInt16)
    (encLevel : EncryptionLevel) :
    (new initialPN num₁ num₂ num₃ : SentPacketHandler φ).packetsAt encLevel = [] := by
  cases encLevel <;> rfl

theorem Tracked.new (initialPN : PacketNumber) (num₁ num₂ num₃ : UInt16) :
    (new initialPN num₁ num₂ num₃ : SentPacketHandler φ).Tracked where
  histories := by
    intro encLevel space hspace
    cases encLevel <;> cases hspace <;> exact .new
  included := by
    intro encLevel p hp
    rw [packetsAt_new] at hp
    cases hp
  bytes := rfl

theorem Tracked.congr (ht : h.Tracked)
    (hspaces : ∀ encLevel, h'.getPacketNumberSpace encLevel =
      h.getPacketNumberSpace encLevel) (hbytes : h'.bytesInFlight = h.bytesInFlight) :
    h'.Tracked where
  histories := by
    intro encLevel space hspace
    rw [hspaces] at hspace
    exact ht.histories encLevel space hspace
  included := by
    rw [packetsAt_congr hspaces]
    exact ht.included
  bytes := by
    unfold heldLength
    rw [packetsAt_congr hspaces, hbytes]
    exact ht.bytes

theorem bytesInFlight_setLossDetectionTimer (h : SentPacketHandler φ) (rtt : RoundTrip) :
    (h.setLossDetectionTimer rtt).bytesInFlight = h.bytesInFlight ∧
      (h.setLossDetectionTimer rtt).lowestNotConfirmedAcked = h.lowestNotConfirmedAcked := by
  unfold setLossDetectionTimer
  dsimp only
  split <;> split <;> exact ⟨rfl, rfl⟩

theorem Tracked.setLossDetectionTimer (ht : h.Tracked) (rtt : RoundTrip) :
    (h.setLossDetectionTimer rtt).Tracked :=
  ht.congr (getPacketNumberSpace_setLossDetectionTimer h rtt)
    (bytesInFlight_setLossDetectionTimer h rtt).1

theorem Tracked.addPackets (ht : h.Tracked) {added : List (SentPacket φ)}
    (hspace : h.getPacketNumberSpace encLevel = .ok space)
    (hself : h'.getPacketNumberSpace encLevel = .ok space')
    (hothers : ∀ other, other ≠ encLevel →
      h'.getPacketNumberSpace other = h.getPacketNumberSpace other)
    (hhistory : space'.history.Consistent encLevel (space'.largestSent + 1))
    (hpackets : space'.history.packets = space.history.packets ++ added)
    (hincluded : ∀ p ∈ added, p.includedInBytesInFlight = true)
    (hbytes : h'.bytesInFlight = wrapByteCount (h.bytesInFlight + totalLength added)) :
    h'.Tracked := by
  rw [← packetsAt_of_getPacketNumberSpace hself,
    ← packetsAt_of_getPacketNumberSpace hspace] at hpackets
  have hothersAt : ∀ other, other ≠ encLevel → h'.packetsAt other = h.packetsAt other := by
    intro other hne
    unfold packetsAt
    rw [hothers other hne]
  refine ⟨?_, ?_, ?_⟩
  · intro level t hlevel
    by_cases heq : level = encLevel
    · subst heq
      rw [hself] at hlevel
      cases hlevel
      exact hhistory
    · rw [hothers level heq] at hlevel
      exact ht.histories level t hlevel
  · intro level p hp
    by_cases heq : level = encLevel
    · subst heq
      rw [hpackets] at hp
      rcases List.mem_append.mp hp with hp | hp
      · exact ht.included level p hp
      · exact hincluded p hp
    · rw [hothersAt level heq] at hp
      exact ht.included level p hp
  · have hheld : h'.heldLength = totalLength added + h.heldLength := by
      refine heldLength_eq ?_ fun other hne => (hothersAt other hne).symm
      rw [hpackets, totalLength_append, Nat.add_comm]
    rw [hbytes, ht.bytes, wrapByteCount_add, hheld]
    congr 1
    push_cast
    ring

theorem Tracked.setSpace (ht : h.Tracked) (hspace : h.getPacketNumberSpace encLevel = .ok space)
    (hhistory : space'.history = space.history)
    (hlargest : space.largestSent ≤ space'.largestSent) :
    (h.setPacketNumberSpace encLevel space').Tracked := by
  have hpackets : space'.history.packets = space.history.packets ++ [] := by
    rw [hhistory, List.append_nil]
  refine ht.addPackets hspace (getPacketNumberSpace_setPacketNumberSpace ..)
    (fun other hne => getPacketNumberSpace_setPacketNumberSpace_of_ne h hne space')
    ?_ hpackets (List.forall_mem_nil _) ?_
  · rw [hhistory]
    exact (ht.histories encLevel space hspace).mono (Int.add_le_add_right hlargest 1)
  · rw [(setPacketNumberSpace_same h encLevel space').1, ht.bytes, wrapByteCount_add]
    rfl

theorem Removed.packetsAt_others
    (hremoved : Removed encLevel taken h h') {other : EncryptionLevel}
    (hne : other ≠ encLevel) : h'.packetsAt other = h.packetsAt other := by
  unfold packetsAt
  rw [hremoved.others other hne]

theorem Removed.subset
    (hremoved : Removed encLevel taken h h') (level : EncryptionLevel) :
    h'.packetsAt level ⊆ h.packetsAt level := by
  intro p hp
  by_cases heq : level = encLevel
  · subst heq
    exact hremoved.packets.mem_iff.mpr (List.mem_append_right taken hp)
  · rwa [hremoved.packetsAt_others heq] at hp

theorem Tracked.removed (ht : h.Tracked)
    (hremoved : Removed encLevel taken h h') : h'.Tracked where
  histories := by
    intro level space' hspace'
    obtain ⟨space, history, hspace, rfl, hconsistent⟩ := hremoved.exists_space hspace'
    exact hconsistent _ (ht.histories level space hspace)
  included := fun level p hp => ht.included level p (hremoved.subset level hp)
  bytes := by
    have htaken : ∀ p ∈ taken, p.includedInBytesInFlight = true := fun p hp =>
      ht.included encLevel p (hremoved.packets.mem_iff.mpr (List.mem_append_left _ hp))
    have hheld : h.heldLength = totalLength taken + h'.heldLength := by
      refine heldLength_eq ?_ fun other hne => hremoved.packetsAt_others hne
      rw [totalLength_perm hremoved.packets, totalLength_append]
    rw [hremoved.bytes, ht.bytes, bytesAfter_wrap htaken, hheld]
    congr 1
    push_cast
    ring

/-! ## Steps -/

structure Advances (h h' : SentPacketHandler φ) : Prop where
  tracked : h'.Tracked
  lowest : h.lowestNotConfirmedAcked ≤ h'.lowestNotConfirmedAcked

theorem Tracked.removedFrom (ht : h.Tracked)
    (hspace : h.getPacketNumberSpace encLevel = .ok space)
    (hremoved : Removed encLevel taken (h.setPacketNumberSpace encLevel space') h')
    (hhistory : space'.history = space.history)
    (hlargest : space.largestSent ≤ space'.largestSent) : h'.Tracked :=
  (ht.setSpace hspace hhistory hlargest).removed hremoved

private theorem packets_sentPacket (history : SentPacketHistory φ) (p : SentPacket φ) :
    (history.sentPacket p).packets = history.packets ++ [p] := by
  simp [SentPacketHistory.sentPacket, SentPacketHistory.packets]

theorem Tracked.sentPacket (ht : h.Tracked) {packet : SentPacket φ}
    (hadmits : h.Admits (.sentPacket packet rtt))
    (houtcome : SentOutcome h packet rtt h') : h.Advances h' := by
  cases houtcome with
  | @empty space hspace hempty =>
    exact ⟨ht.setSpace hspace rfl (hadmits space hspace).le,
      (setPacketNumberSpace_same ..).2.1.ge⟩
  | @ackEliciting space hspace hframes =>
    have hsent : SentPacketHandler.Tracked
        ((h.sentAckEliciting packet).setPacketNumberSpace packet.encryptionLevel
          { space with
            largestSent := packet.packetNumber
            history := space.history.sentPacket
              { packet with includedInBytesInFlight := true } }) := by
      refine ht.addPackets hspace (getPacketNumberSpace_setPacketNumberSpace ..) ?_ ?_
        (packets_sentPacket ..) ?_ (setPacketNumberSpace_same ..).1
      · intro other hne
        rw [getPacketNumberSpace_setPacketNumberSpace_of_ne _ hne,
          getPacketNumberSpace_sentAckEliciting]
      · exact (ht.histories _ space hspace).sentPacket rfl
          (Int.add_one_le_iff.mpr (hadmits space hspace)) (Int.lt_succ _)
      · intro p hp
        rw [List.mem_singleton.mp hp]
    refine ⟨hsent.setLossDetectionTimer rtt, ?_⟩
    rw [(bytesInFlight_setLossDetectionTimer _ rtt).2]
    exact (setPacketNumberSpace_same ..).2.1.ge

theorem Tracked.receivedAck (ht : h.Tracked) {ackFrame : AckFrame} {rcvTime : Time}
    (houtcome : AckOutcome h ackFrame encLevel rcvTime rtt handled) :
    h.Advances handled.handler := by
  cases houtcome with
  | unsent _ => exact ⟨ht, le_rfl⟩
  | nothing hspace _ =>
    exact ⟨ht.setSpace hspace rfl le_rfl, (setPacketNumberSpace_same ..).2.1.ge⟩
  | @newlyAcked space spaceAfter largest acked ackedHandler lostHandler hspace _ _ _ _ _
      hremoved hafter hlost =>
      have hacked : ackedHandler.Tracked := ht.removedFrom hspace hremoved rfl le_rfl
      have hlostTracked : lostHandler.Tracked := hacked.removedFrom hafter hlost rfl le_rfl
      have hreset : ({ lostHandler with ptoCount := 0, numProbesToSend := 0 } :
          SentPacketHandler φ).Tracked :=
        hlostTracked.congr (getPacketNumberSpace_congr rfl rfl rfl) rfl
      refine ⟨hreset.setLossDetectionTimer rtt, ?_⟩
      rw [(bytesInFlight_setLossDetectionTimer _ rtt).2]
      calc h.lowestNotConfirmedAcked
          = (h.setPacketNumberSpace encLevel
              (ackedSpace space largest)).lowestNotConfirmedAcked :=
            (setPacketNumberSpace_same ..).2.1.symm
        _ ≤ ackedHandler.lowestNotConfirmedAcked := hremoved.lowest
        _ = (ackedHandler.setPacketNumberSpace encLevel _).lowestNotConfirmedAcked :=
            (setPacketNumberSpace_same ..).2.1.symm
        _ ≤ lostHandler.lowestNotConfirmedAcked := hlost.lowest

theorem Tracked.onLossDetectionTimeout (ht : h.Tracked) {now : Time}
    (houtcome : TimeoutOutcome h now rtt handled) :
    h.Advances handled.handler := by
  cases houtcome with
  | idle _ =>
    exact ⟨ht.setLossDetectionTimer rtt, (bytesInFlight_setLossDetectionTimer h rtt).2.ge⟩
  | @lost space lostHandler _ _ hspace hlost =>
    have hlostTracked : lostHandler.Tracked := ht.removedFrom hspace hlost rfl le_rfl
    refine ⟨hlostTracked.setLossDetectionTimer rtt, ?_⟩
    rw [(bytesInFlight_setLossDetectionTimer lostHandler rtt).2]
    exact (setPacketNumberSpace_same ..).2.1.ge.trans hlost.lowest
  | probe _ _ =>
    have hcounted : ({ h with
        ptoCount := h.ptoCount + 1
        numProbesToSend := h.numProbesToSend + 2 } : SentPacketHandler φ).Tracked :=
      ht.congr (getPacketNumberSpace_congr rfl rfl rfl) rfl
    exact ⟨hcounted.setLossDetectionTimer rtt,
      (bytesInFlight_setLossDetectionTimer _ rtt).2.ge⟩

theorem Tracked.dropPackets (ht : h.Tracked) (hdropped : Dropped encLevel h h') :
    h.Advances h' := by
  have hothers : ∀ other, other ≠ encLevel → h'.packetsAt other = h.packetsAt other := by
    intro other hne
    unfold packetsAt
    rw [hdropped.others other hne]
  have hself : h'.packetsAt encLevel = [] := by
    unfold packetsAt
    rw [hdropped.dropped]
  refine ⟨⟨?_, ?_, ?_⟩, hdropped.lowest.ge⟩
  · intro level space hspace
    by_cases heq : level = encLevel
    · rw [heq, hdropped.dropped] at hspace
      cases hspace
    · rw [hdropped.others level heq] at hspace
      exact ht.histories level space hspace
  · intro level p hp
    by_cases heq : level = encLevel
    · rw [heq, hself] at hp
      cases hp
    · rw [hothers level heq] at hp
      exact ht.included level p hp
  · have hheld : h.heldLength = totalLength (h.packetsAt encLevel) + h'.heldLength := by
      refine heldLength_eq ?_ hothers
      rw [hself]
      rfl
    rw [hdropped.bytes, ht.bytes, bytesAfter_wrap (ht.included encLevel), hheld]
    congr 1
    push_cast
    ring

theorem Tracked.resetForRetry (ht : h.Tracked) {num₁ num₂ : UInt16}
    (hadmits : h.Admits (.resetForRetry num₁ num₂ rtt))
    (hreset : h.resetForRetry num₁ num₂ rtt = .ok handled) :
    h.Advances handled.handler := by
  obtain ⟨space, hspace, rfl⟩ := resetForRetry_eq hreset
  obtain ⟨hhandshake, honeRTT⟩ := hadmits
  have hreset : SentPacketHandler.Tracked (setPacketNumberSpace
      { h with bytesInFlight := 0 } .initial (.new (space.pns.pop num₁).1 num₂)) := by
    refine ⟨?_, ?_, ?_⟩
    · intro level t hlevel
      cases level with
      | initial =>
        cases hlevel
        exact .new
      | handshake => exact ht.histories .handshake t hlevel
      | oneRTT => exact ht.histories .oneRTT t hlevel
    · intro level p hp
      cases level with
      | initial => cases hp
      | handshake => exact ht.included .handshake p hp
      | oneRTT => exact ht.included .oneRTT p hp
    · have hheld : heldLength (setPacketNumberSpace { h with bytesInFlight := 0 }
          .initial (.new (space.pns.pop num₁).1 num₂)) =
          0 + totalLength (h.packetsAt .handshake) + totalLength (h.packetsAt .oneRTT) :=
        rfl
      rw [hheld, hhandshake, honeRTT]
      rfl
  exact ⟨hreset.setLossDetectionTimer rtt, (bytesInFlight_setLossDetectionTimer _ rtt).2.ge⟩

theorem Tracked.perform (ht : h.Tracked) {event : HandlerEvent φ}
    (hadmits : h.Admits event) (hstep : h.perform event = .ok h') : h.Advances h' := by
  cases event with
  | sentPacket packet rtt => exact ht.sentPacket hadmits (sentPacket_outcome hstep)
  | receivedAck ackFrame encLevel rcvTime rtt =>
    obtain ⟨handled, hack, rfl⟩ := map_eq_ok hstep
    exact ht.receivedAck (receivedAck_outcome ht.ordered hack)
  | onLossDetectionTimeout now rtt =>
    obtain ⟨handled, htimeout, rfl⟩ := map_eq_ok hstep
    exact ht.onLossDetectionTimeout (onLossDetectionTimeout_outcome ht.ordered htimeout)
  | queueProbePacket =>
    obtain ⟨result, hprobe, rfl⟩ := map_eq_ok hstep
    obtain ⟨handled, queued, hqueue, encLevel, taken, hremoved, -⟩ :=
      queueProbePacket_removed ht.ordered
    rw [hqueue] at hprobe
    cases hprobe
    exact ⟨ht.removed hremoved, hremoved.lowest⟩
  | dropPackets encLevel => exact ht.dropPackets (dropPackets_dropped hstep)
  | resetForRetry num₁ num₂ rtt =>
    obtain ⟨handled, hreset, rfl⟩ := map_eq_ok hstep
    exact ht.resetForRetry hadmits hreset

theorem tracked_of_trace {initialPN : PacketNumber} {num₁ num₂ num₃ : UInt16}
    {events : List (HandlerEvent φ)}
    (hrun : Trace (fun h event h' => perform h event = .ok h' ∧ Admits h event)
      (new initialPN num₁ num₂ num₃) events h) : h.Tracked :=
  hrun.invariant Tracked (Tracked.new ..)
    fun _ _ _ ht hstep => (ht.perform hstep.2 hstep.1).tracked

/-- The bytes in flight are always those of the packets held. -/
theorem bytesInFlight_eq_heldLength {initialPN : PacketNumber}
    {num₁ num₂ num₃ : UInt16} {events : List (HandlerEvent φ)}
    (hrun : Trace (fun h event h' => perform h event = .ok h' ∧ Admits h event)
      (new initialPN num₁ num₂ num₃) events h) :
    h.InFlight ∧ ∀ event h', h.Admits event → h.perform event = .ok h' →
      h.lowestNotConfirmedAcked ≤ h'.lowestNotConfirmedAcked := by
  have ht := tracked_of_trace hrun
  exact ⟨ht.inFlight, fun event h' hadmits hstep => (ht.perform hadmits hstep).lowest⟩

def samplePacket (encLevel : EncryptionLevel) (pn : PacketNumber) : SentPacket Unit where
  packetNumber := pn
  frames := [()]
  largestAcked := invalidPacketNumber
  length := 1200
  encryptionLevel := encLevel
  sendTime := 1
  includedInBytesInFlight := false

def mixedSpaces : List (HandlerEvent Unit) :=
  [.sentPacket (samplePacket .initial 0) ⟨1000, 1000⟩,
    .sentPacket (samplePacket .initial 3) ⟨1000, 1000⟩,
    .sentPacket (samplePacket .handshake 0) ⟨1000, 1000⟩,
    .sentPacket (samplePacket .handshake 1) ⟨1000, 1000⟩,
    .receivedAck ⟨[⟨3, 3⟩], 0⟩ .initial 2 ⟨1000, 1000⟩,
    .onLossDetectionTimeout 3000 ⟨1000, 1000⟩,
    .queueProbePacket,
    .dropPackets .initial]

theorem bytesInFlight_eq_heldLength_mixedSpaces : ∃ h : SentPacketHandler Unit,
      Trace (fun h event h' => perform h event = .ok h' ∧ Admits h event)
        (new 0 0 0 0) mixedSpaces h ∧ h.bytesInFlight = 1200 ∧ h.InFlight := by
  have hrun : ∃ h : SentPacketHandler Unit,
      Trace (fun h event h' => perform h event = .ok h' ∧ Admits h event)
        (new 0 0 0 0) mixedSpaces h ∧ h.bytesInFlight = 1200 :=
    ⟨_, .cons ⟨rfl, by intro space hs; cases hs; decide⟩
      (.cons ⟨rfl, by intro space hs; cases hs; decide⟩
      (.cons ⟨rfl, by intro space hs; cases hs; decide⟩
      (.cons ⟨rfl, by intro space hs; cases hs; decide⟩
      (.cons ⟨rfl, trivial⟩ (.cons ⟨rfl, trivial⟩ (.cons ⟨rfl, trivial⟩
      (.cons ⟨rfl, trivial⟩ .nil))))))), rfl⟩
  obtain ⟨h, htrace, hbytes⟩ := hrun
  exact ⟨h, htrace, hbytes, (bytesInFlight_eq_heldLength htrace).1⟩

end SentPacketHandler

end Qperf.Quic
