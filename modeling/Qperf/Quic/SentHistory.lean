import Qperf.Foundation.Loops
import Qperf.Quic.SentPackets

/-!
# Packets and frames in the sent history

The list of a history is sorted by packet number, and its map holds the packets of
the list.
-/

namespace Qperf.Quic

open Qperf.Foundation

variable {φ : Type}

/-! ## One history -/

namespace SentPacketHistory

structure Consistent (encLevel : EncryptionLevel) (next : PacketNumber)
    (h : SentPacketHistory φ) : Prop where
  sorted : h.packetList.Pairwise fun e e' =>
    e.value.packetNumber < e'.value.packetNumber
  addresses : h.packetList.Pairwise fun e e' => e.address < e'.address
  allocated : ∀ e ∈ h.packetList, e.address < h.nextAddress
  lookup : ∀ pn e, h.packetMap.lookup pn = some e ↔
    e ∈ h.packetList ∧ e.value.packetNumber = pn
  level : ∀ e ∈ h.packetList, e.value.encryptionLevel = encLevel
  below : ∀ e ∈ h.packetList, e.value.packetNumber < next

variable {h : SentPacketHistory φ} {encLevel : EncryptionLevel}
variable {next next' : PacketNumber} {p : SentPacket φ}

theorem Consistent.new :
    (SentPacketHistory.new : SentPacketHistory φ).Consistent encLevel next where
  sorted := .nil
  addresses := .nil
  allocated := fun e he => by cases he
  lookup := fun pn e => by
    simp [SentPacketHistory.new]
  level := fun e he => by cases he
  below := fun e he => by cases he

theorem Consistent.mono (hc : h.Consistent encLevel next)
    (hle : next ≤ next') : h.Consistent encLevel next' :=
  { hc with below := fun e he => (hc.below e he).trans_le hle }

theorem Consistent.sentPacket (hc : h.Consistent encLevel next)
    (hlevel : p.encryptionLevel = encLevel) (hnext : next ≤ p.packetNumber)
    (hbelow : p.packetNumber < next') :
    (h.sentPacket p).Consistent encLevel next' where
  sorted := by
    refine List.pairwise_append.mpr ⟨hc.sorted, List.pairwise_singleton .., ?_⟩
    intro e he e' he'
    rw [List.mem_singleton.mp he']
    exact (hc.below e he).trans_le hnext
  addresses := by
    refine List.pairwise_append.mpr ⟨hc.addresses, List.pairwise_singleton .., ?_⟩
    intro e he e' he'
    rw [List.mem_singleton.mp he']
    exact hc.allocated e he
  allocated := by
    intro e he
    rcases List.mem_append.mp he with he | he
    · exact Nat.lt_succ_of_lt (hc.allocated e he)
    · rw [List.mem_singleton.mp he]
      exact Nat.lt_succ_self _
  lookup := by
    intro pn e
    change (h.packetMap.insert _ _).lookup pn = some e ↔
      e ∈ h.packetList ++ [⟨h.nextAddress, p⟩] ∧ _
    rw [List.mem_append, List.mem_singleton]
    by_cases hpn : pn = p.packetNumber
    · subst hpn
      rw [AList.lookup_insert, Option.some.injEq]
      constructor
      · rintro rfl
        exact ⟨Or.inr rfl, rfl⟩
      · rintro ⟨he | rfl, hnumber⟩
        · have hlt := (hc.below e he).trans_le hnext
          rw [hnumber] at hlt
          exact absurd hlt (lt_irrefl _)
        · rfl
    · rw [AList.lookup_insert_ne hpn, hc.lookup]
      constructor
      · rintro ⟨he, hnumber⟩
        exact ⟨Or.inl he, hnumber⟩
      · rintro ⟨he | rfl, hnumber⟩
        · exact ⟨he, hnumber⟩
        · exact absurd hnumber.symm hpn
  level := by
    intro e he
    rcases List.mem_append.mp he with he | he
    · exact hc.level e he
    · rw [List.mem_singleton.mp he]
      exact hlevel
  below := by
    intro e he
    rcases List.mem_append.mp he with he | he
    · exact ((hc.below e he).trans_le hnext).trans hbelow
    · rw [List.mem_singleton.mp he]
      exact hbelow

private theorem exists_element (hp : p ∈ h.packets) :
    ∃ before e after, h.packetList = before ++ e :: after ∧ e.value = p := by
  obtain ⟨e, he, hvalue⟩ := List.mem_map.mp hp
  obtain ⟨before, after, hlist⟩ := List.append_of_mem he
  exact ⟨before, e, after, hlist, hvalue⟩

theorem Consistent.getPacket (hc : h.Consistent encLevel next)
    (hp : p ∈ h.packets) : h.getPacket p.packetNumber = some p := by
  obtain ⟨e, he, rfl⟩ := List.mem_map.mp hp
  unfold SentPacketHistory.getPacket
  rw [(hc.lookup _ e).mpr ⟨he, rfl⟩]
  rfl

variable {after before : List (PacketElement φ)}

private theorem filter_address {e : PacketElement φ}
    (h : (before ++ e :: after).Pairwise fun e e' => e.address < e'.address) :
    (before ++ e :: after).filter (fun e' => e'.address ≠ e.address) = before ++ after := by
  have hparts := List.pairwise_append.mp h
  have hafter := List.pairwise_cons.mp hparts.2.1
  rw [List.filter_append, List.filter_cons_of_neg (by simp)]
  congr 1
  · refine List.filter_eq_self.mpr fun e' he' => decide_eq_true ?_
    exact (hparts.2.2 e' he' e List.mem_cons_self).ne
  · refine List.filter_eq_self.mpr fun e' he' => decide_eq_true ?_
    exact (hafter.1 e' he').ne'

theorem Consistent.remove_eq (hc : h.Consistent encLevel next) {e : PacketElement φ}
    (hlist : h.packetList = before ++ e :: after) :
    h.remove e.value.packetNumber = some { h with
      packetList := before ++ after
      packetMap := h.packetMap.erase e.value.packetNumber } := by
  have hlookup := (hc.lookup e.value.packetNumber e).mpr ⟨by rw [hlist]; simp, rfl⟩
  have haddresses := hc.addresses
  rw [hlist] at haddresses
  unfold SentPacketHistory.remove
  rw [hlookup]
  dsimp only
  rw [hlist, filter_address haddresses]

theorem Consistent.removed (hc : h.Consistent encLevel next) {e : PacketElement φ}
    (hlist : h.packetList = before ++ e :: after) :
    SentPacketHistory.Consistent encLevel next { h with
      packetList := before ++ after
      packetMap := h.packetMap.erase e.value.packetNumber } := by
  have hsub : (before ++ after).Sublist h.packetList := by
    rw [hlist]
    exact (List.Sublist.refl before).append (List.sublist_cons_self e after)
  have hsorted := hc.sorted
  rw [hlist] at hsorted
  have hparts := List.pairwise_append.mp hsorted
  have hne : ∀ e' ∈ before ++ after, e'.value.packetNumber ≠ e.value.packetNumber := by
    intro e' he'
    rcases List.mem_append.mp he' with he' | he'
    · exact (hparts.2.2 e' he' e List.mem_cons_self).ne
    · exact ((List.pairwise_cons.mp hparts.2.1).1 e' he').ne'
  refine ⟨hc.sorted.sublist hsub, hc.addresses.sublist hsub,
    fun e' he' => hc.allocated e' (hsub.subset he'), ?_,
    fun e' he' => hc.level e' (hsub.subset he'),
    fun e' he' => hc.below e' (hsub.subset he')⟩
  intro pn e'
  by_cases hpn : pn = e.value.packetNumber
  · subst hpn
    rw [AList.lookup_erase]
    refine ⟨(fun hnone => nomatch hnone), ?_⟩
    rintro ⟨he', hnumber⟩
    exact absurd hnumber (hne e' he')
  · rw [AList.lookup_erase_ne hpn, hc.lookup, hlist]
    refine and_congr_left fun hnumber => ?_
    have hother : e' ≠ e := by
      rintro rfl
      exact hpn hnumber.symm
    simp [hother]

theorem Consistent.remove (hc : h.Consistent encLevel next) (hp : p ∈ h.packets) :
    ∃ h', h.remove p.packetNumber = some h' ∧ h'.Consistent encLevel next ∧
      h.packets.Perm (p :: h'.packets) := by
  obtain ⟨before, e, after, hlist, rfl⟩ := exists_element hp
  refine ⟨_, hc.remove_eq hlist, hc.removed hlist, ?_⟩
  unfold packets
  rw [hlist, List.map_append, List.map_append, List.map_cons]
  exact List.perm_middle

end SentPacketHistory

/-! ## The handler -/

namespace FrameCallback

def frame : FrameCallback φ → φ
  | .onAcked f => f
  | .onLost f => f

end FrameCallback

namespace SentPacketHandler

variable {h h' : SentPacketHandler φ} {encLevel : EncryptionLevel}
variable {space space' : PacketNumberSpace φ} {p : SentPacket φ}

structure Consistent (h : SentPacketHandler φ) : Prop where
  spaces : ∀ encLevel space, h.getPacketNumberSpace encLevel = .ok space →
    space.history.Consistent encLevel space.pns.next

/-- The packets of one encryption level; there are none if it was dropped. -/
def packetsAt (h : SentPacketHandler φ) (encLevel : EncryptionLevel) :
    List (SentPacket φ) :=
  match h.getPacketNumberSpace encLevel with
  | .ok space => space.history.packets
  | .error _ => []

def framesAt (h : SentPacketHandler φ) (encLevel : EncryptionLevel) : List φ :=
  (h.packetsAt encLevel).flatMap SentPacket.frames

@[simp]
theorem getPacketNumberSpace_setPacketNumberSpace (h : SentPacketHandler φ)
    (encLevel : EncryptionLevel) (space : PacketNumberSpace φ) :
    (h.setPacketNumberSpace encLevel space).getPacketNumberSpace encLevel = .ok space := by
  cases encLevel <;> rfl

theorem getPacketNumberSpace_setPacketNumberSpace_of_ne
    (h : SentPacketHandler φ) {other : EncryptionLevel} (hne : other ≠ encLevel)
    (space : PacketNumberSpace φ) :
    (h.setPacketNumberSpace encLevel space).getPacketNumberSpace other =
      h.getPacketNumberSpace other := by
  cases encLevel <;> cases other <;> first | rfl | exact absurd rfl hne

theorem packetsAt_of_getPacketNumberSpace
    (hspace : h.getPacketNumberSpace encLevel = .ok space) :
    h.packetsAt encLevel = space.history.packets := by
  unfold packetsAt
  rw [hspace]

theorem getPacketNumberSpace_congr (hinitial : h'.initialPackets = h.initialPackets)
    (hhandshake : h'.handshakePackets = h.handshakePackets)
    (honeRTT : h'.oneRTTPackets = h.oneRTTPackets) (encLevel : EncryptionLevel) :
    h'.getPacketNumberSpace encLevel = h.getPacketNumberSpace encLevel := by
  cases encLevel with
  | initial =>
    unfold getPacketNumberSpace
    rw [hinitial]
  | handshake =>
    unfold getPacketNumberSpace
    rw [hhandshake]
  | oneRTT =>
    unfold getPacketNumberSpace
    rw [honeRTT]

theorem packetsAt_congr (hspaces : ∀ encLevel, h'.getPacketNumberSpace encLevel =
      h.getPacketNumberSpace encLevel) : h'.packetsAt = h.packetsAt := by
  funext encLevel
  unfold packetsAt
  rw [hspaces]

@[simp]
theorem getPacketNumberSpace_releaseBytes (h : SentPacketHandler φ)
    (p : SentPacket φ) (encLevel : EncryptionLevel) :
    (h.releaseBytes p).getPacketNumberSpace encLevel = h.getPacketNumberSpace encLevel := by
  unfold releaseBytes
  split
  · exact getPacketNumberSpace_congr rfl rfl rfl encLevel
  · rfl

theorem getPacketNumberSpace_sentAckEliciting (h : SentPacketHandler φ)
    (p : SentPacket φ) (encLevel : EncryptionLevel) :
    (h.sentAckEliciting p).getPacketNumberSpace encLevel = h.getPacketNumberSpace encLevel :=
  getPacketNumberSpace_congr rfl rfl rfl encLevel

theorem getPacketNumberSpace_confirmAck (h : SentPacketHandler φ)
    (encLevel : EncryptionLevel) (p : SentPacket φ) (level : EncryptionLevel) :
    (h.confirmAck encLevel p).getPacketNumberSpace level = h.getPacketNumberSpace level := by
  unfold confirmAck
  split
  · exact getPacketNumberSpace_congr rfl rfl rfl level
  · rfl

@[simp]
theorem getPacketNumberSpace_setLossDetectionTimer (h : SentPacketHandler φ)
    (rtt : RoundTrip) (encLevel : EncryptionLevel) :
    (h.setLossDetectionTimer rtt).getPacketNumberSpace encLevel =
      h.getPacketNumberSpace encLevel := by
  unfold setLossDetectionTimer
  dsimp only
  split <;> split <;> exact getPacketNumberSpace_congr rfl rfl rfl encLevel

/-! ### Packets of a level -/

structure Holds (h : SentPacketHandler φ) (encLevel : EncryptionLevel)
    (packets : List (SentPacket φ)) : Prop where
  distinct : packets.Pairwise fun p q => p.packetNumber ≠ q.packetNumber
  held : ∀ p ∈ packets, p ∈ h.packetsAt encLevel

variable {packets : List (SentPacket φ)}

theorem Holds.exists_space (hheld : h.Holds encLevel (p :: packets)) :
    ∃ space, h.getPacketNumberSpace encLevel = .ok space ∧ p ∈ space.history.packets := by
  have hmem := hheld.held p List.mem_cons_self
  unfold packetsAt at hmem
  cases hspace : h.getPacketNumberSpace encLevel with
  | error e =>
    rw [hspace] at hmem
    cases hmem
  | ok space =>
    rw [hspace] at hmem
    exact ⟨space, rfl, hmem⟩

theorem Holds.head
    (hheld : h.Holds encLevel (p :: packets)) : h.Holds encLevel [p] where
  distinct := List.pairwise_singleton ..
  held := fun q hq => hheld.held q (by rw [List.mem_singleton.mp hq]; simp)

theorem Holds.congr (hheld : h.Holds encLevel packets) (hspaces : ∀ encLevel,
      h'.getPacketNumberSpace encLevel = h.getPacketNumberSpace encLevel) :
    h'.Holds encLevel packets where
  distinct := hheld.distinct
  held := by
    rw [packetsAt_congr hspaces]
    exact hheld.held

theorem lostPacketsLoop_sublist (largestAcked : PacketNumber)
    (lostSendTime lossTime : Time) (lossDelay : Int) (packets : List (SentPacket φ)) :
    (lostPacketsLoop largestAcked lostSendTime lossDelay lossTime
      packets).1.Sublist packets := by
  induction packets generalizing lossTime with
  | nil => exact .slnil
  | cons p packets ih =>
    unfold lostPacketsLoop
    split
    · exact List.nil_sublist _
    · split
      · exact (ih lossTime).cons_cons p
      · exact (ih _).cons p

theorem newlyAckedLoop_sublist {hasMissingRanges : Bool}
    {lowest largest : PacketNumber} {ranges : List AckRange} {acked : List (SentPacket φ)}
    (h : newlyAckedLoop hasMissingRanges lowest largest ranges packets =
      .ok acked) : acked.Sublist packets := by
  induction packets generalizing ranges acked with
  | nil =>
    cases h
    exact .slnil
  | cons p packets ih =>
    unfold newlyAckedLoop at h
    split at h
    · exact (ih h).cons p
    split at h
    · cases h
      exact List.nil_sublist _
    split at h
    · split at h
      · exact (ih h).cons p
      · split at h
        · split at h
          · cases h
          · obtain ⟨rest, hrest, h⟩ := bind_eq_ok.mp h
            cases h
            exact (ih hrest).cons_cons p
        · exact (ih h).cons p
    · obtain ⟨rest, hrest, h⟩ := bind_eq_ok.mp h
      cases h
      exact (ih hrest).cons_cons p

/-! ### Packet numbers -/

theorem pop_fst (g : PacketNumberGenerator) (num : UInt16) :
    (g.pop num).1 = g.next := by
  unfold PacketNumberGenerator.pop
  dsimp only
  split <;> rfl

theorem next_lt_pop (g : PacketNumberGenerator) (num : UInt16) :
    g.next < (g.pop num).2.next := by
  unfold PacketNumberGenerator.pop
  dsimp only
  split
  · exact (Int.lt_succ _).trans (Int.lt_succ _)
  · exact Int.lt_succ _

theorem getPacketNumberSpace_foldl_releaseBytes (packets : List (SentPacket φ))
    (h : SentPacketHandler φ) (encLevel : EncryptionLevel) :
    (packets.foldl releaseBytes h).getPacketNumberSpace encLevel =
      h.getPacketNumberSpace encLevel := by
  induction packets generalizing h with
  | nil => rfl
  | cons p packets ih =>
    rw [List.foldl_cons, ih, getPacketNumberSpace_releaseBytes]

theorem Consistent.new (initialPN : PacketNumber) (num₁ num₂ num₃ : UInt16) :
    (new initialPN num₁ num₂ num₃ : SentPacketHandler φ).Consistent := by
  constructor
  intro encLevel space hspace
  cases encLevel <;> cases hspace <;> exact .new

end SentPacketHandler

end Qperf.Quic
