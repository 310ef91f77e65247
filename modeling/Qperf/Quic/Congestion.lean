import Qperf.Foundation.Rounding
import Qperf.Quic.BytesInFlight

/-!
# The congestion controller

`cubicSender` in Reno mode, as the sent packet handler uses it.  A loss reduces the
congestion window unless the packet was already sent when the window was last reduced.
That is decided by comparing packet numbers, but the packets of all three spaces report
to one controller, and each space numbers its packets for itself.
-/

namespace Qperf.Quic

open Qperf.Foundation

variable {φ : Type}

def defaultTCPMSS : Nat := 1460

def maxBurstBytes : Nat := 3 * defaultTCPMSS

def initialCongestionWindow : Nat := 32 * defaultTCPMSS

def defaultMaxCongestionWindow : Nat := 1000 * defaultTCPMSS

def defaultMinimumCongestionWindow : Nat := 2 * defaultTCPMSS

def numConnections : Nat := 1

/-- The mantissa of `RenoBeta`, which is 0.7 as a `float32`; its unit is 2⁻²⁴. -/
def renoBeta : Nat := 11744051

/-! ## Slow start -/

structure HybridSlowStart where
  endPacketNumber : PacketNumber := 0
  lastSentPacketNumber : PacketNumber := 0
  started : Bool := false
  currentMinRTT : Int := 0
  rttSampleCount : Nat := 0
  hystartFound : Bool := false
  deriving DecidableEq, Repr

namespace HybridSlowStart

def startReceiveRound (s : HybridSlowStart) (lastSent : PacketNumber) :
    HybridSlowStart :=
  { s with
    endPacketNumber := lastSent
    currentMinRTT := 0
    rttSampleCount := 0
    started := true }

def increaseThreshold (minRTT : Int) : Int :=
  max (min (minRTT.tdiv 1000 / 8) 16000) 4000 * 1000

def sample (s : HybridSlowStart) (latestRTT minRTT : Int) : HybridSlowStart :=
  let count := (s.rttSampleCount + 1) % 2 ^ 32
  let currentMinRTT :=
    if count ≤ 8 ∧ (s.currentMinRTT = 0 ∨ s.currentMinRTT > latestRTT) then latestRTT
    else s.currentMinRTT
  { s with
    rttSampleCount := count
    currentMinRTT
    hystartFound := s.hystartFound ||
      decide (count = 8 ∧ currentMinRTT > minRTT + increaseThreshold minRTT) }

def shouldExitSlowStart (s : HybridSlowStart) (latestRTT minRTT : Int)
    (congestionWindow : Nat) : Bool × HybridSlowStart :=
  let s := if s.started then s else s.startReceiveRound s.lastSentPacketNumber
  if s.hystartFound then (true, s)
  else
    let s := s.sample latestRTT minRTT
    (decide (congestionWindow ≥ 16) && s.hystartFound, s)

def onPacketSent (s : HybridSlowStart) (packetNumber : PacketNumber) :
    HybridSlowStart :=
  { s with lastSentPacketNumber := packetNumber }

def onPacketAcked (s : HybridSlowStart) (ackedPacketNumber : PacketNumber) :
    HybridSlowStart :=
  if s.endPacketNumber < ackedPacketNumber then { s with started := false } else s

end HybridSlowStart

/-! ## Proportional rate reduction -/

structure PrrSender where
  bytesSentSinceLoss : Nat := 0
  bytesDeliveredSinceLoss : Nat := 0
  ackCountSinceLoss : Nat := 0
  bytesInFlightBeforeLoss : Nat := 0
  deriving DecidableEq, Repr

namespace PrrSender

def onPacketSent (p : PrrSender) (sentBytes : Nat) : PrrSender :=
  { p with bytesSentSinceLoss := wrapByteCount (p.bytesSentSinceLoss + sentBytes) }

def onPacketLost (_ : PrrSender) (priorInFlight : Nat) : PrrSender :=
  { bytesInFlightBeforeLoss := priorInFlight }

def onPacketAcked (p : PrrSender) (ackedBytes : Nat) : PrrSender :=
  { p with
    bytesDeliveredSinceLoss := wrapByteCount (p.bytesDeliveredSinceLoss + ackedBytes)
    ackCountSinceLoss := wrapByteCount (p.ackCountSinceLoss + 1) }

end PrrSender

/-! ## The sender -/

structure CubicSender where
  hybridSlowStart : HybridSlowStart := {}
  prr : PrrSender := {}
  largestSentPacketNumber : PacketNumber := invalidPacketNumber
  largestAckedPacketNumber : PacketNumber := invalidPacketNumber
  largestSentAtLastCutback : PacketNumber := invalidPacketNumber
  lastCutbackExitedSlowstart : Bool := false
  congestionWindow : Nat := initialCongestionWindow
  slowstartThreshold : Nat := defaultMaxCongestionWindow
  numAckedPackets : Nat := 0
  deriving DecidableEq, Repr

namespace CubicSender

def inRecovery (c : CubicSender) : Bool :=
  c.largestAckedPacketNumber ≠ invalidPacketNumber ∧
    c.largestAckedPacketNumber ≤ c.largestSentAtLastCutback

def inSlowStart (c : CubicSender) : Bool := c.congestionWindow < c.slowstartThreshold

def onPacketSent (c : CubicSender) (packetNumber : PacketNumber) (bytes : Nat)
    (isRetransmittable : Bool) : CubicSender :=
  if isRetransmittable then
    { c with
      prr := if c.inRecovery then c.prr.onPacketSent bytes else c.prr
      largestSentPacketNumber := packetNumber
      hybridSlowStart := c.hybridSlowStart.onPacketSent packetNumber }
  else c

def maybeExitSlowStart (c : CubicSender) (latestRTT minRTT : Int) : CubicSender :=
  if c.inSlowStart then
    let (exit, hybridSlowStart) := c.hybridSlowStart.shouldExitSlowStart latestRTT minRTT
      (c.congestionWindow / defaultTCPMSS)
    { c with
      hybridSlowStart
      slowstartThreshold := if exit then c.congestionWindow else c.slowstartThreshold }
  else c

def isCwndLimited (c : CubicSender) (bytesInFlight : Nat) : Bool :=
  bytesInFlight ≥ c.congestionWindow ||
    (c.inSlowStart && bytesInFlight > c.congestionWindow / 2) ||
    c.congestionWindow - bytesInFlight ≤ maxBurstBytes

def maybeIncreaseCwnd (c : CubicSender) (priorInFlight : Nat) : CubicSender :=
  if !c.isCwndLimited priorInFlight ||
      c.congestionWindow ≥ defaultMaxCongestionWindow then c
  else if c.inSlowStart then
    { c with congestionWindow := wrapByteCount (c.congestionWindow + defaultTCPMSS) }
  else
    let numAckedPackets := c.numAckedPackets + 1
    if numAckedPackets * numConnections ≥ c.congestionWindow / defaultTCPMSS then
      { c with
        congestionWindow := wrapByteCount (c.congestionWindow + defaultTCPMSS)
        numAckedPackets := 0 }
    else { c with numAckedPackets }

def onPacketAcked (c : CubicSender) (ackedPacketNumber : PacketNumber)
    (ackedBytes priorInFlight : Nat) : CubicSender :=
  let c := { c with
    largestAckedPacketNumber := max ackedPacketNumber c.largestAckedPacketNumber }
  if c.inRecovery then { c with prr := c.prr.onPacketAcked ackedBytes }
  else
    let c := c.maybeIncreaseCwnd priorInFlight
    if c.inSlowStart then
      { c with hybridSlowStart := c.hybridSlowStart.onPacketAcked ackedPacketNumber }
    else c

/-- `float32(c.congestionWindow) * c.RenoBeta()`, cut off, but not below the minimum. -/
def reducedWindow (congestionWindow : Nat) : Nat :=
  max (roundTo 24 (roundTo 24 congestionWindow * renoBeta) / 2 ^ 24)
    defaultMinimumCongestionWindow

def onPacketLost (c : CubicSender) (packetNumber : PacketNumber)
    (priorInFlight : Nat) : CubicSender :=
  -- A packet that was sent before the last cutback belongs to the same loss event.
  if packetNumber ≤ c.largestSentAtLastCutback then c
  else { c with
    lastCutbackExitedSlowstart := c.inSlowStart
    prr := c.prr.onPacketLost priorInFlight
    congestionWindow := reducedWindow c.congestionWindow
    slowstartThreshold := reducedWindow c.congestionWindow
    largestSentAtLastCutback := c.largestSentPacketNumber
    numAckedPackets := 0 }

end CubicSender

/-! ## What the handler reports -/

namespace SentPacketHandler

def ackLosses (h : SentPacketHandler φ) (ackFrame : AckFrame)
    (encLevel : EncryptionLevel) (rcvTime : Time) (rtt : RoundTrip) :
    List (SentPacket φ) :=
  match h.getPacketNumberSpace encLevel, ackFrame.largestAcked,
      h.newlyAcked ackFrame encLevel with
  | .ok space, .ok largest, p :: acked =>
    match ackPackets encLevel (p :: acked)
        (h.setPacketNumberSpace encLevel (ackedSpace space largest)) with
    | .error _ => []
    | .ok handled =>
      match handled.handler.getPacketNumberSpace encLevel with
      | .error _ => []
      | .ok space => (lostPackets space rcvTime rtt).1
  | _, _, _ => []

def timeoutLosses (h : SentPacketHandler φ) (now : Time) (rtt : RoundTrip) :
    List (SentPacket φ) :=
  if h.hasOutstandingPackets = true ∧ h.getEarliestLossTime.1 ≠ 0 then
    match h.getPacketNumberSpace h.getEarliestLossTime.2 with
    | .error _ => []
    | .ok space => (lostPackets space now rtt).1
  else []

def measuresRTT (h : SentPacketHandler φ) (ackFrame : AckFrame)
    (encLevel : EncryptionLevel) : Bool :=
  match h.getPacketNumberSpace encLevel, ackFrame.largestAcked with
  | .ok space, .ok largest =>
    decide (largest ≤ space.largestSent) &&
      (match space.pns.validate ackFrame with
      | .ok valid => valid
      | .error _ => false) &&
      (space.history.getPacket largest).isSome
  | _, _ => false

def numbersAt (h : SentPacketHandler φ) (encLevel : EncryptionLevel) :
    List (EncryptionLevel × PacketNumber) :=
  (h.packetsAt encLevel).map fun p => (encLevel, p.packetNumber)

def heldNumbers (h : SentPacketHandler φ) : List (EncryptionLevel × PacketNumber) :=
  h.numbersAt .initial ++ h.numbersAt .handshake ++ h.numbersAt .oneRTT

end SentPacketHandler

/-- A call of the handler, with the round-trip times that `RTTStats` has then. -/
structure CongestionEvent (φ : Type) where
  call : HandlerEvent φ
  latestRTT : Int := 0
  minRTT : Int := 0

structure CongestionState (φ : Type) where
  handler : SentPacketHandler φ
  congestion : CubicSender := {}
  /-- The packets held that were sent before the window was last reduced. -/
  old : List (EncryptionLevel × PacketNumber) := []
  /-- The packets of `old` whose loss reduced the window again. -/
  cutAgain : List (EncryptionLevel × PacketNumber) := []

namespace CongestionState

variable {s s' : CongestionState φ} {event : CongestionEvent φ}

def lose (held : List (EncryptionLevel × PacketNumber)) (priorInFlight : Nat)
    (s : CongestionState φ) (p : SentPacket φ) : CongestionState φ :=
  if p.includedInBytesInFlight then
    let congestion := s.congestion.onPacketLost p.packetNumber priorInFlight
    let number := (p.encryptionLevel, p.packetNumber)
    if congestion.congestionWindow < s.congestion.congestionWindow then
      { s with
        congestion
        old := held
        cutAgain := if number ∈ s.old then s.cutAgain ++ [number] else s.cutAgain }
    else { s with congestion }
  else s

def acked (congestion : CubicSender) (priorInFlight : Nat) (p : SentPacket φ) :
    CubicSender :=
  if p.includedInBytesInFlight then
    congestion.onPacketAcked p.packetNumber p.length priorInFlight
  else congestion

def lossesOf (h : SentPacketHandler φ) : HandlerEvent φ → List (SentPacket φ)
  | .receivedAck ackFrame encLevel rcvTime rtt =>
    h.ackLosses ackFrame encLevel rcvTime rtt
  | .onLossDetectionTimeout now rtt => h.timeoutLosses now rtt
  | _ => []

def beforeLosses (s : CongestionState φ) (event : CongestionEvent φ) : CubicSender :=
  match event.call with
  | .sentPacket packet _ =>
    s.congestion.onPacketSent packet.packetNumber packet.length !packet.frames.isEmpty
  | .receivedAck ackFrame encLevel _ _ =>
    let congestion :=
      if s.handler.measuresRTT ackFrame encLevel then
        s.congestion.maybeExitSlowStart event.latestRTT event.minRTT
      else s.congestion
    (s.handler.newlyAcked ackFrame encLevel).foldl
      (fun c p => acked c s.handler.bytesInFlight p) congestion
  | _ => s.congestion

def react (s : CongestionState φ) (event : CongestionEvent φ) : CongestionState φ :=
  (lossesOf s.handler event.call).foldl
    (lose s.handler.heldNumbers s.handler.bytesInFlight)
    { s with congestion := s.beforeLosses event }

def step (s : CongestionState φ) (event : CongestionEvent φ) :
    Except HandlerPanic (CongestionState φ) :=
  match s.handler.perform event.call with
  | .error cause => .error cause
  | .ok handler => .ok { s.react event with
      handler
      old := (s.react event).old.filter fun number =>
        decide (number ∈ handler.heldNumbers) }

/-- When packets are lost, no packet held has a number above that of the last one sent. -/
def InSequence (s : CongestionState φ) (event : CongestionEvent φ) : Prop :=
  lossesOf s.handler event.call ≠ [] →
    ∀ number ∈ s.handler.heldNumbers, number.2 ≤ s.congestion.largestSentPacketNumber

instance (s : CongestionState Unit) (event : CongestionEvent Unit) :
    Decidable (s.InSequence event) :=
  inferInstanceAs (Decidable (_ ≠ [] → _))

/-! ## Epochs -/

/-- Old packets have numbers that the controller takes for old. -/
structure Epoch (s : CongestionState φ) : Prop where
  held : ∀ number ∈ s.old, number ∈ s.handler.heldNumbers
  old : ∀ number ∈ s.old, number.2 ≤ s.congestion.largestSentAtLastCutback
  once : s.cutAgain = []

private theorem maybeIncreaseCwnd_same (c : CubicSender) (priorInFlight : Nat) :
    (c.maybeIncreaseCwnd priorInFlight).largestSentPacketNumber = c.largestSentPacketNumber ∧
      (c.maybeIncreaseCwnd priorInFlight).largestSentAtLastCutback =
        c.largestSentAtLastCutback := by
  unfold CubicSender.maybeIncreaseCwnd
  dsimp only
  split_ifs <;> exact ⟨rfl, rfl⟩

private theorem acked_same (c : CubicSender) (priorInFlight : Nat) (p : SentPacket φ) :
    (acked c priorInFlight p).largestSentPacketNumber = c.largestSentPacketNumber ∧
      (acked c priorInFlight p).largestSentAtLastCutback = c.largestSentAtLastCutback := by
  unfold acked CubicSender.onPacketAcked
  dsimp only
  split_ifs
  · exact ⟨rfl, rfl⟩
  · exact maybeIncreaseCwnd_same ..
  · exact maybeIncreaseCwnd_same ..
  · exact ⟨rfl, rfl⟩

theorem maybeExitSlowStart_same (c : CubicSender) (latestRTT minRTT : Int) :
    (c.maybeExitSlowStart latestRTT minRTT).largestSentPacketNumber = c.largestSentPacketNumber ∧
      (c.maybeExitSlowStart latestRTT minRTT).largestSentAtLastCutback =
        c.largestSentAtLastCutback := by
  unfold CubicSender.maybeExitSlowStart
  split <;> exact ⟨rfl, rfl⟩

theorem foldl_acked_same (c : CubicSender) (priorInFlight : Nat) (packets : List (SentPacket φ)) :
    (packets.foldl (fun c p => acked c priorInFlight p) c).largestSentPacketNumber =
        c.largestSentPacketNumber ∧
      (packets.foldl (fun c p => acked c priorInFlight p) c).largestSentAtLastCutback =
        c.largestSentAtLastCutback := by
  induction packets generalizing c with
  | nil => exact ⟨rfl, rfl⟩
  | cons p packets ih =>
    obtain ⟨hsent, hcutback⟩ := acked_same c priorInFlight p
    obtain ⟨hrest, hrestCutback⟩ := ih (acked c priorInFlight p)
    exact ⟨hrest.trans hsent, hrestCutback.trans hcutback⟩

private theorem beforeLosses_cutback (s : CongestionState φ) (event : CongestionEvent φ) :
    (s.beforeLosses event).largestSentAtLastCutback = s.congestion.largestSentAtLastCutback := by
  unfold beforeLosses
  split
  · unfold CubicSender.onPacketSent
    split <;> rfl
  · rw [(foldl_acked_same ..).2]
    split
    · exact (maybeExitSlowStart_same ..).2
    · rfl
  · rfl

private theorem beforeLosses_largestSent (s : CongestionState φ) (event : CongestionEvent φ)
    (hlosses : lossesOf s.handler event.call ≠ []) :
    (s.beforeLosses event).largestSentPacketNumber = s.congestion.largestSentPacketNumber := by
  unfold beforeLosses
  split
  · next hcall =>
    rw [hcall] at hlosses
    exact absurd rfl hlosses
  · rw [(foldl_acked_same ..).1]
    split
    · exact (maybeExitSlowStart_same ..).1
    · rfl
  · rfl

theorem onPacketLost_cases (c : CubicSender) (packetNumber : PacketNumber) (priorInFlight : Nat) :
    packetNumber ≤ c.largestSentAtLastCutback ∧ c.onPacketLost packetNumber priorInFlight = c ∨
      c.largestSentAtLastCutback < packetNumber ∧
        (c.onPacketLost packetNumber priorInFlight).largestSentPacketNumber =
          c.largestSentPacketNumber ∧
        (c.onPacketLost packetNumber priorInFlight).largestSentAtLastCutback =
          c.largestSentPacketNumber := by
  unfold CubicSender.onPacketLost
  split
  · next hle => exact .inl ⟨hle, rfl⟩
  · next hlt => exact .inr ⟨not_le.mp hlt, rfl, rfl⟩

theorem Epoch.lose (he : s.Epoch) (priorInFlight : Nat) (p : SentPacket φ)
    (hsent : ∀ number ∈ s.handler.heldNumbers,
      number.2 ≤ s.congestion.largestSentPacketNumber) :
    (s.lose s.handler.heldNumbers priorInFlight p).Epoch ∧
      (s.lose s.handler.heldNumbers priorInFlight p).handler = s.handler ∧
      (s.lose s.handler.heldNumbers priorInFlight p).congestion.largestSentPacketNumber =
        s.congestion.largestSentPacketNumber := by
  unfold CongestionState.lose
  split
  swap
  · exact ⟨he, rfl, rfl⟩
  dsimp only
  rcases onPacketLost_cases s.congestion p.packetNumber priorInFlight with
    ⟨-, hsame⟩ | ⟨hnew, hlargest, hcutback⟩
  · rw [hsame, if_neg (lt_irrefl _)]
    exact ⟨he, rfl, rfl⟩
  · have hnumber : (p.encryptionLevel, p.packetNumber) ∉ s.old :=
      fun hmem => absurd (he.old _ hmem) (not_le.mpr hnew)
    split
    · refine ⟨⟨fun number hmem => hmem, ?_, he.once⟩, rfl, hlargest⟩
      rw [hcutback]
      exact hsent
    · refine ⟨⟨he.held, ?_, he.once⟩, rfl, hlargest⟩
      intro number hmem
      rw [hcutback]
      exact hsent number (he.held number hmem)

theorem Epoch.losses (he : s.Epoch) (priorInFlight : Nat) (lost : List (SentPacket φ))
    (hsent : lost ≠ [] → ∀ number ∈ s.handler.heldNumbers,
      number.2 ≤ s.congestion.largestSentPacketNumber) :
    (lost.foldl (CongestionState.lose s.handler.heldNumbers priorInFlight) s).Epoch ∧
      (lost.foldl (CongestionState.lose s.handler.heldNumbers priorInFlight)
        s).handler = s.handler := by
  induction lost generalizing s with
  | nil => exact ⟨he, rfl⟩
  | cons p lost ih =>
    have hall := hsent (List.cons_ne_nil p lost)
    obtain ⟨hfirst, hhandler, hlargest⟩ := he.lose priorInFlight p hall
    have hrest := ih hfirst fun _ => by
      rw [hhandler, hlargest]
      exact hall
    rw [hhandler] at hrest
    exact hrest

theorem Epoch.step (he : s.Epoch) (hsequence : s.InSequence event)
    (hstep : s.step event = .ok s') : s'.Epoch := by
  unfold CongestionState.step at hstep
  split at hstep
  · cases hstep
  · next handler hperform =>
    cases hstep
    have hbefore : ({ s with congestion := s.beforeLosses event } :
        CongestionState φ).Epoch :=
      ⟨he.held, by rw [beforeLosses_cutback]; exact he.old, he.once⟩
    have hreact : (s.react event).Epoch := by
      refine (hbefore.losses s.handler.bytesInFlight (lossesOf s.handler event.call)
        fun hlosses => ?_).1
      rw [beforeLosses_largestSent s event hlosses]
      exact hsequence hlosses
    refine ⟨?_, ?_, hreact.once⟩
    · intro number hmem
      exact of_decide_eq_true (List.mem_filter.mp hmem).2
    · intro number hmem
      exact hreact.old number (List.mem_filter.mp hmem).1

/--
If packets are lost only while no packet held has a number above that of the last packet
sent, the loss of a packet sent before the window was reduced does not reduce it again.
-/
theorem congestionWindow_cutOnce {initialPN : PacketNumber} {num₁ num₂ num₃ : UInt16}
    {events : List (CongestionEvent φ)}
    (hrun : Trace (fun s event s' => step s event = .ok s' ∧ InSequence s event)
      { handler := .new initialPN num₁ num₂ num₃ } events s) : s.cutAgain = [] := by
  have he : s.Epoch := by
    refine Trace.invariant Epoch ⟨?_, ?_, rfl⟩
      (fun _ _ _ ht hstep => ht.step hstep.2 hstep.1) hrun
    · intro number hmem
      cases hmem
    · intro number hmem
      cases hmem
  exact he.once

section Samples

def sendSample (encLevel : EncryptionLevel) (pn : PacketNumber) :
    CongestionEvent Unit where
  call := .sentPacket (SentPacketHandler.samplePacket encLevel pn) ⟨1000, 1000⟩

def ackSample (encLevel : EncryptionLevel) (pn : PacketNumber) :
    CongestionEvent Unit where
  call := .receivedAck ⟨[⟨pn, pn⟩], 0⟩ encLevel 2 ⟨1000, 1000⟩

def oneSpace : List (CongestionEvent Unit) :=
  [sendSample .oneRTT 0, sendSample .oneRTT 1, sendSample .oneRTT 2,
    sendSample .oneRTT 3, sendSample .oneRTT 4, ackSample .oneRTT 3, ackSample .oneRTT 4]

def twoSpaces : List (CongestionEvent Unit) :=
  [sendSample .initial 0, sendSample .initial 1, sendSample .initial 2,
    sendSample .initial 3, sendSample .initial 4, sendSample .handshake 0,
    ackSample .initial 3, ackSample .initial 4]

theorem congestionWindow_cutOnce_oneSpace : ∃ s : CongestionState Unit,
      Trace (fun s event s' => step s event = .ok s' ∧ InSequence s event)
        { handler := .new 0 0 0 0 } oneSpace s ∧
      s.congestion.congestionWindow = 32704 ∧ s.cutAgain = [] := by
  have hrun : (oneSpace.foldlM (fun (s : CongestionState Unit) event =>
      if InSequence s event then step s event else .error .nilPointer)
        { handler := .new 0 0 0 0 }).map (fun s => s.congestion.congestionWindow) = .ok 32704 := by
    decide +kernel
  obtain ⟨s, hfold, hwindow⟩ := map_eq_ok hrun
  have htrace := Trace.of_foldlM_checked hfold
  exact ⟨s, htrace, hwindow, congestionWindow_cutOnce htrace⟩

theorem congestionWindow_cutAgain : ∃ s : CongestionState Unit,
      Trace (fun s event s' => step s event = .ok s' ∧ s.handler.Admits event.call)
        { handler := .new 0 0 0 0 } twoSpaces s ∧
      s.congestion.congestionWindow = 22892 ∧ s.cutAgain = [(.initial, 1)] := by
  have hrun : (twoSpaces.foldlM (fun (s : CongestionState Unit) event =>
      if s.handler.Admits event.call then step s event else .error .nilPointer)
        { handler := .new 0 0 0 0 }).map
        (fun s => (s.congestion.congestionWindow, s.cutAgain)) =
      .ok (22892, [(.initial, 1)]) := by
    decide +kernel
  obtain ⟨s, hfold, hobserved⟩ := map_eq_ok hrun
  obtain ⟨hwindow, hcut⟩ := Prod.mk.inj hobserved
  exact ⟨s, .of_foldlM_checked hfold, hwindow, hcut⟩

end Samples

end CongestionState

end Qperf.Quic
