import Qperf.Quic.HandlerSteps

/-!
# The frames of the packets that leave the handler

Every packet that the handler takes out of a history is reported by one callback for each
of its frames.  Which packets a call takes out is said in `HandlerSteps`.
-/

namespace Qperf.Quic

open Qperf.Foundation

variable {φ : Type}

namespace SentPacketHandler

variable {h h' : SentPacketHandler φ} {encLevel : EncryptionLevel}
variable {space space' : PacketNumberSpace φ} {p : SentPacket φ}

theorem Consistent.ordered (hc : h.Consistent) : h.Ordered :=
  fun encLevel space hspace => ⟨space.pns.next, hc.spaces encLevel space hspace⟩

/-! ## Taking packets out -/

/-- `h'` is `h` without the packets `taken` of one encryption level. -/
structure Without (encLevel : EncryptionLevel) (taken : List (SentPacket φ))
    (h h' : SentPacketHandler φ) : Prop where
  consistent : h'.Consistent
  packets : (h.packetsAt encLevel).Perm (taken ++ h'.packetsAt encLevel)
  others : ∀ other, other ≠ encLevel → h'.packetsAt other = h.packetsAt other

theorem Without.of_spaces (hc : h.Consistent) (encLevel : EncryptionLevel)
    (hspaces : ∀ encLevel, h'.getPacketNumberSpace encLevel =
      h.getPacketNumberSpace encLevel) : Without encLevel [] h h' where
  consistent := ⟨fun level space hspace => hc.spaces level space
    ((hspaces level).symm.trans hspace)⟩
  packets := by
    rw [packetsAt_congr hspaces, List.nil_append]
  others := fun other _ => by rw [packetsAt_congr hspaces]

variable {handled : Handled φ} {rtt : RoundTrip} {taken : List (SentPacket φ)}

theorem Without.trans {taken' : List (SentPacket φ)}
    {h'' : SentPacketHandler φ} (first : Without encLevel taken h h')
    (second : Without encLevel taken' h' h'') :
    Without encLevel (taken ++ taken') h h'' where
  consistent := second.consistent
  packets := by
    rw [List.append_assoc]
    exact first.packets.trans (second.packets.append_left taken)
  others := fun other hne =>
    (second.others other hne).trans (first.others other hne)

theorem Without.of_space (hc : h.Consistent)
    (hspace : h.getPacketNumberSpace encLevel = .ok space)
    (hspace' : space'.history.Consistent encLevel space'.pns.next)
    (hperm : space.history.packets.Perm (taken ++ space'.history.packets)) :
    Without encLevel taken h (h.setPacketNumberSpace encLevel space') where
  consistent := by
    constructor
    intro level t ht
    by_cases hne : level = encLevel
    · subst hne
      rw [getPacketNumberSpace_setPacketNumberSpace] at ht
      cases ht
      exact hspace'
    · rw [getPacketNumberSpace_setPacketNumberSpace_of_ne h hne] at ht
      exact hc.spaces level t ht
  packets := by
    rw [packetsAt_of_getPacketNumberSpace hspace, packetsAt_of_getPacketNumberSpace
        (getPacketNumberSpace_setPacketNumberSpace ..)]
    exact hperm
  others := fun other hne => by
    unfold packetsAt
    rw [getPacketNumberSpace_setPacketNumberSpace_of_ne h hne]

theorem Without.of_history (hc : h.Consistent)
    (hspace : h.getPacketNumberSpace encLevel = .ok space)
    (hhistory : space'.history = space.history) (hpns : space'.pns = space.pns) :
    Without encLevel [] h (h.setPacketNumberSpace encLevel space') := by
  refine Without.of_space hc hspace ?_ ?_
  · rw [hhistory, hpns]
    exact hc.spaces encLevel space hspace
  · rw [hhistory, List.nil_append]

theorem Removed.without (hremoved : Removed encLevel taken h h') (hc : h.Consistent) :
    Without encLevel taken h h' where
  consistent := by
    constructor
    intro level space' hspace'
    obtain ⟨space, history, hspace, rfl, hconsistent⟩ := hremoved.exists_space hspace'
    exact hconsistent _ (hc.spaces level space hspace)
  packets := hremoved.packets
  others := fun other hne => by
    unfold packetsAt
    rw [hremoved.others other hne]

/-- The packets are gone, and every one of their frames is reported. -/
structure TakesOut (encLevel : EncryptionLevel) (taken : List (SentPacket φ))
    (h : SentPacketHandler φ) (handled : Handled φ) : Prop where
  without : Without encLevel taken h handled.handler
  reported : handled.callbacks.map FrameCallback.frame =
    taken.flatMap SentPacket.frames

theorem TakesOut.framesAt (htakes : TakesOut encLevel taken h handled) :
    (h.framesAt encLevel).Perm (handled.callbacks.map FrameCallback.frame ++
      handled.handler.framesAt encLevel) := by
  rw [htakes.reported]
  unfold SentPacketHandler.framesAt
  rw [← List.flatMap_append]
  exact htakes.without.packets.flatMap_right _

theorem TakesOut.framesAt_of_ne
    {other : EncryptionLevel} (htakes : TakesOut encLevel taken h handled)
    (hne : other ≠ encLevel) : handled.handler.framesAt other = h.framesAt other := by
  unfold SentPacketHandler.framesAt
  rw [htakes.without.others other hne]

theorem TakesOut.setLossDetectionTimer (htakes : TakesOut encLevel taken h handled)
    (rtt : RoundTrip) (hspaces : ∀ encLevel, h'.getPacketNumberSpace encLevel =
      handled.handler.getPacketNumberSpace encLevel)
    (error : Option AckError) :
    TakesOut encLevel taken h
      ⟨h'.setLossDetectionTimer rtt, handled.callbacks, error⟩ where
  without := by
    have hafter := Without.of_spaces htakes.without.consistent encLevel
      fun level => (getPacketNumberSpace_setLossDetectionTimer h' rtt level).trans
        (hspaces level)
    have htrans := htakes.without.trans hafter
    rw [List.append_nil] at htrans
    exact htrans
  reported := htakes.reported

private theorem map_frame_onAcked (packets : List (SentPacket φ)) :
    (packets.flatMap fun p => p.frames.map FrameCallback.onAcked).map
      FrameCallback.frame = packets.flatMap SentPacket.frames := by
  simp [List.map_flatMap, FrameCallback.frame, Function.comp_def]

theorem map_frame_onLost (packets : List (SentPacket φ)) :
    (packets.flatMap queueFramesForRetransmission).map FrameCallback.frame =
      packets.flatMap SentPacket.frames := by
  simp [List.map_flatMap, queueFramesForRetransmission, FrameCallback.frame,
    Function.comp_def]

theorem Without.lost (hc : h.Consistent)
    (hspace : h.getPacketNumberSpace encLevel = .ok space) {lossTime : Time}
    {lost : List (SentPacket φ)} (hlost : Removed encLevel lost
      (h.setPacketNumberSpace encLevel { space with lossTime }) h') :
    Without encLevel lost h h' := by
  have hstored : Without encLevel [] h
      (h.setPacketNumberSpace encLevel { space with lossTime }) :=
    .of_history hc hspace rfl rfl
  exact hstored.trans (hlost.without hstored.consistent)

theorem receivedAck_spec (hc : h.Consistent) {ackFrame : AckFrame} {rcvTime : Time}
    (hack : h.receivedAck ackFrame encLevel rcvTime rtt = .ok handled) :
    ∃ taken, TakesOut encLevel taken h handled := by
  cases receivedAck_outcome hc.ordered hack with
  | unsent => exact ⟨[], .of_spaces hc encLevel (fun _ => rfl), rfl⟩
  | nothing hspace => exact ⟨[], .of_history hc hspace rfl rfl, rfl⟩
  | @newlyAcked _ spaceAfter largest acked ackedHandler lostHandler hspace _ _ _ _ _
      hremoved hafter hlost =>
      have hstored : Without encLevel [] h
          (h.setPacketNumberSpace encLevel (ackedSpace _ largest)) :=
        .of_history hc hspace rfl rfl
      have hacked := hstored.trans (hremoved.without hstored.consistent)
      have htakes : TakesOut encLevel
          (acked ++ (lostPackets spaceAfter rcvTime rtt).1) h
          { handler := lostHandler
            callbacks := (acked.flatMap fun p => p.frames.map .onAcked) ++
              (lostPackets spaceAfter rcvTime rtt).1.flatMap
                queueFramesForRetransmission } := by
        refine ⟨hacked.trans (.lost hacked.consistent hafter hlost), ?_⟩
        rw [List.map_append, map_frame_onAcked, map_frame_onLost, List.flatMap_append]
      exact ⟨_, htakes.setLossDetectionTimer rtt (fun level => by cases level <;> rfl) none⟩

theorem onLossDetectionTimeout_spec (hc : h.Consistent) {now : Time}
    (htimeout : h.onLossDetectionTimeout now rtt = .ok handled) :
    ∃ encLevel taken, TakesOut encLevel taken h handled := by
  have hsame : TakesOut .oneRTT [] h { handler := h } :=
    ⟨.of_spaces hc _ (fun _ => rfl), rfl⟩
  cases onLossDetectionTimeout_outcome hc.ordered htimeout with
  | idle => exact ⟨.oneRTT, [], hsame.setLossDetectionTimer rtt (fun _ => rfl) none⟩
  | @lost space lostHandler _ _ hspace hlost =>
    have htakes : TakesOut _ (lostPackets space now rtt).1 h
        { handler := lostHandler
          callbacks := (lostPackets space now rtt).1.flatMap
            queueFramesForRetransmission } :=
      ⟨.lost hc hspace hlost, map_frame_onLost _⟩
    exact ⟨_, _, htakes.setLossDetectionTimer rtt (fun _ => rfl) none⟩
  | probe =>
    exact ⟨.oneRTT, [], hsame.setLossDetectionTimer rtt
      (fun level => by cases level <;> rfl) none⟩

theorem queueProbePacket_spec (hc : h.Consistent) :
    ∃ handled queued, h.queueProbePacket = .ok (handled, queued) ∧
      ∃ encLevel taken, TakesOut encLevel taken h handled := by
  obtain ⟨handled, queued, hprobe, encLevel, taken, hremoved, hcallbacks⟩ :=
    queueProbePacket_removed hc.ordered
  refine ⟨handled, queued, hprobe, encLevel, taken, hremoved.without hc, ?_⟩
  rw [hcallbacks, map_frame_onLost]

/-! ## Adding packets -/

structure With (p : SentPacket φ) (h h' : SentPacketHandler φ) : Prop where
  consistent : h'.Consistent
  frames : h'.framesAt p.encryptionLevel = h.framesAt p.encryptionLevel ++ p.frames
  others : ∀ other, other ≠ p.encryptionLevel → h'.framesAt other = h.framesAt other

theorem With.of_space (hc : h.Consistent)
    (hspace : h.getPacketNumberSpace p.encryptionLevel = .ok space)
    (hspace' : space'.history.Consistent p.encryptionLevel space'.pns.next)
    (hframes : space'.history.packets.flatMap SentPacket.frames =
      space.history.packets.flatMap SentPacket.frames ++ p.frames)
    (hself : h'.getPacketNumberSpace p.encryptionLevel = .ok space')
    (hothers : ∀ other, other ≠ p.encryptionLevel →
      h'.getPacketNumberSpace other = h.getPacketNumberSpace other) :
    With p h h' where
  consistent := by
    constructor
    intro level t ht
    by_cases hne : level = p.encryptionLevel
    · subst hne
      rw [hself] at ht
      cases ht
      exact hspace'
    · rw [hothers level hne] at ht
      exact hc.spaces level t ht
  frames := by
    unfold framesAt
    rw [packetsAt_of_getPacketNumberSpace hspace, packetsAt_of_getPacketNumberSpace hself]
    exact hframes
  others := fun other hne => by
    unfold framesAt packetsAt
    rw [hothers other hne]

theorem sentPacket_spec (hc : h.Consistent) {num : UInt16} {pn : PacketNumber}
    (hpop : h.popPacketNumber p.encryptionLevel num = .ok (pn, h'))
    (hpn : p.packetNumber = pn) {h'' : SentPacketHandler φ}
    (hsent : h'.sentPacket p rtt = .ok h'') : With p h h'' := by
  obtain ⟨space, hspace, hpop⟩ := bind_eq_ok.mp hpop
  change Except.ok ((space.pns.pop num).1, h.setPacketNumberSpace _
    { space with pns := (space.pns.pop num).2 }) = _ at hpop
  rw [pop_fst] at hpop
  obtain ⟨hnext, rfl⟩ := Prod.mk.inj (Except.ok.inj hpop)
  have hlt := next_lt_pop space.pns num
  have hconsistent := hc.spaces _ space hspace
  cases sentPacket_outcome hsent with
  | empty hspace' hempty =>
    rw [getPacketNumberSpace_setPacketNumberSpace] at hspace'
    cases hspace'
    refine With.of_space hc hspace ?_ ?_ (getPacketNumberSpace_setPacketNumberSpace ..) ?_
    · exact hconsistent.mono hlt.le
    · rw [hempty, List.append_nil]
    · intro other hne
      rw [getPacketNumberSpace_setPacketNumberSpace_of_ne _ hne,
        getPacketNumberSpace_setPacketNumberSpace_of_ne _ hne]
  | ackEliciting hspace' _ =>
    rw [getPacketNumberSpace_setPacketNumberSpace] at hspace'
    cases hspace'
    refine With.of_space hc hspace ?_ ?_ ((
      getPacketNumberSpace_setLossDetectionTimer ..).trans
        (getPacketNumberSpace_setPacketNumberSpace ..)) ?_
    · refine hconsistent.sentPacket rfl ?_ ?_
      · rw [← hnext] at hpn
        exact hpn.ge
      · rw [hpn, ← hnext]
        exact hlt
    · simp [SentPacketHistory.sentPacket, SentPacketHistory.packets]
    · intro other hne
      rw [getPacketNumberSpace_setLossDetectionTimer,
        getPacketNumberSpace_setPacketNumberSpace_of_ne _ hne,
        getPacketNumberSpace_sentAckEliciting,
        getPacketNumberSpace_setPacketNumberSpace_of_ne _ hne]

/-! ## Dropping a space -/

theorem dropPackets_spec (hc : h.Consistent) (hdrop : h.dropPackets encLevel = .ok h') :
    h'.Consistent ∧ encLevel ≠ .oneRTT ∧ h'.packetsAt encLevel = [] ∧
      ∀ other, other ≠ encLevel → h'.packetsAt other = h.packetsAt other := by
  have hdropped := dropPackets_dropped hdrop
  refine ⟨⟨fun level space hspace => ?_⟩, ?_, ?_, fun other hne => ?_⟩
  · by_cases heq : level = encLevel
    · rw [heq, hdropped.dropped] at hspace
      cases hspace
    · rw [hdropped.others level heq] at hspace
      exact hc.spaces level space hspace
  · rintro rfl
    cases hdropped.dropped
  · unfold packetsAt
    rw [hdropped.dropped]
  · unfold packetsAt
    rw [hdropped.others other hne]

theorem resetForRetry_spec (hc : h.Consistent) {num₁ num₂ : UInt16}
    (hreset : h.resetForRetry num₁ num₂ rtt = .ok handled) :
    TakesOut .initial (h.packetsAt .initial) h handled := by
  obtain ⟨space, hspace, rfl⟩ := resetForRetry_eq hreset
  rw [packetsAt_of_getPacketNumberSpace hspace]
  have hwithout : Without .initial space.history.packets h
      (h.setPacketNumberSpace .initial (.new (space.pns.pop num₁).1 num₂)) := by
    refine Without.of_space hc hspace SentPacketHistory.Consistent.new ?_
    change space.history.packets.Perm (space.history.packets ++ [])
    rw [List.append_nil]
  have htakes : TakesOut .initial space.history.packets h
      ⟨_, space.history.packets.flatMap queueFramesForRetransmission, none⟩ :=
    ⟨hwithout, map_frame_onLost _⟩
  exact htakes.setLossDetectionTimer rtt (fun level => by cases level <;> rfl) none

end SentPacketHandler

end Qperf.Quic
