import Qperf.Foundation.Components
import Qperf.Foundation.Traces
import Qperf.Quic.AckFrames

/-!
# The received packet tracker

`receivedPacketTracker` keeps the ranges of packet numbers received and decides when an
ACK frame is sent.  An ACK is queued, or its alarm set, when a packet is received;
packets that the peer knows to be acknowledged are forgotten by `IgnoreBelow`.  The two
are not connected: if the ranges are all forgotten while an ACK is queued, the next
frame has no range.
-/

namespace Qperf.Quic

open Qperf.Foundation

/-! ## Ranges -/

structure PacketInterval where
  start : PacketNumber
  /-- The number that the source calls `End`. -/
  last : PacketNumber
  deriving DecidableEq, Repr

def maxNumAckRanges : Nat := 500

structure ReceivedPacketHistory where
  /-- From the front to the back. -/
  ranges : List PacketInterval := []
  deletedBelow : PacketNumber := 0
  deriving DecidableEq, Repr

namespace ReceivedPacketHistory

def mergeDown (el : PacketInterval) : List PacketInterval → List PacketInterval
  | [] => [el]
  | prev :: before =>
    if prev.last + 1 = el.start then { prev with last := el.last } :: before
    else el :: prev :: before

/-- The loop of `addToRanges`, over the ranges from the back to the front. -/
def addLoop (p : PacketNumber) : List PacketInterval → List PacketInterval
  | [] => [⟨p, p⟩]
  | el :: before =>
    if el.start ≤ p ∧ p ≤ el.last then el :: before
    else if el.last = p - 1 then mergeDown { el with last := p } before
    else if el.start = p + 1 then mergeDown { el with start := p } before
    else if p > el.last then ⟨p, p⟩ :: el :: before
    else el :: addLoop p before

def addToRanges (h : ReceivedPacketHistory) (p : PacketNumber) :
    ReceivedPacketHistory :=
  { h with ranges := (addLoop p h.ranges.reverse).reverse }

def maybeDeleteOldRanges (h : ReceivedPacketHistory) : ReceivedPacketHistory :=
  { h with ranges := h.ranges.drop (h.ranges.length - maxNumAckRanges) }

def receivedPacket (h : ReceivedPacketHistory) (p : PacketNumber) :
    ReceivedPacketHistory :=
  if p < h.deletedBelow then h else (h.addToRanges p).maybeDeleteOldRanges

def deleteLoop (p : PacketNumber) : List PacketInterval → List PacketInterval
  | [] => []
  | el :: after =>
    if el.last < p then deleteLoop p after
    else if p > el.start ∧ p ≤ el.last then { el with start := p } :: after
    else el :: after

def deleteBelow (h : ReceivedPacketHistory) (p : PacketNumber) :
    ReceivedPacketHistory :=
  if p < h.deletedBelow then h
  else { ranges := deleteLoop p h.ranges, deletedBelow := p }

def getAckRanges (h : ReceivedPacketHistory) : List AckRange :=
  h.ranges.reverse.map fun r => ⟨r.start, r.last⟩

def getHighestAckRange (h : ReceivedPacketHistory) : AckRange :=
  match h.ranges.getLast? with
  | none => ⟨0, 0⟩
  | some r => ⟨r.start, r.last⟩

end ReceivedPacketHistory

/-! ## The tracker -/

def initialAckElicitingPacketsBeforeAck : Nat := 2

def ackElicitingPacketsBeforeAck : Nat := 10

def minReceivedBeforeAckDecimation : PacketNumber := 100

def maxPacketsAfterNewMissing : Int := 4

def maxAckDelay : Int := 25000000

/-- A quarter and an eighth of the smallest round-trip time when a packet arrives. -/
structure AckDelays where
  decimation : Int
  shortDecimation : Int
  deriving DecidableEq, Repr

structure ReceivedPacketTracker where
  largestObserved : PacketNumber := 0
  ignoreBelow : PacketNumber := 0
  largestObservedReceivedTime : Time := 0
  packetHistory : ReceivedPacketHistory := {}
  packetsReceivedSinceLastAck : Nat := 0
  ackElicitingPacketsReceivedSinceLastAck : Nat := 0
  ackQueued : Bool := false
  ackAlarm : Time := 0
  lastAck : Option AckFrame := none
  deriving DecidableEq, Repr

namespace ReceivedPacketTracker

def isMissing (h : ReceivedPacketTracker) (p : PacketNumber) :
    Except HandlerPanic Bool :=
  match h.lastAck with
  | none => .ok false
  | some lastAck =>
    if p < h.ignoreBelow then .ok false
    else do
      let largest ← lastAck.largestAcked
      if p < largest then
        return !(← lastAck.acksPacket p)
      else
        return false

def hasNewMissingPackets (h : ReceivedPacketTracker) : Except HandlerPanic Bool :=
  match h.lastAck with
  | none => .ok false
  | some lastAck => do
    let highestRange := h.packetHistory.getHighestAckRange
    let largest ← lastAck.largestAcked
    return highestRange.smallest ≥ largest &&
      highestRange.largest - highestRange.smallest + 1 ≤ maxPacketsAfterNewMissing

def queueAfter (h : ReceivedPacketTracker) (threshold : Nat) (alarm : Time) :
    ReceivedPacketTracker :=
  if h.ackElicitingPacketsReceivedSinceLastAck ≥ threshold then
    { h with ackQueued := true }
  else if h.ackAlarm = 0 then { h with ackAlarm := alarm }
  else h

def decimate (h : ReceivedPacketTracker) (packetNumber : PacketNumber)
    (rcvTime : Time) (delays : AckDelays) : ReceivedPacketTracker :=
  let counted := { h with ackElicitingPacketsReceivedSinceLastAck :=
    h.ackElicitingPacketsReceivedSinceLastAck + 1 }
  if packetNumber > minReceivedBeforeAckDecimation then
    counted.queueAfter ackElicitingPacketsBeforeAck
      (rcvTime + min maxAckDelay delays.decimation)
  else
    counted.queueAfter initialAckElicitingPacketsBeforeAck (rcvTime + maxAckDelay)

def shortenAlarm (h : ReceivedPacketTracker) (ackTime : Time) : ReceivedPacketTracker :=
  if h.ackAlarm = 0 ∨ h.ackAlarm > ackTime then { h with ackAlarm := ackTime } else h

def ackElicitingPacket (h : ReceivedPacketTracker) (packetNumber : PacketNumber)
    (rcvTime : Time) (delays : AckDelays) :
    Except HandlerPanic ReceivedPacketTracker :=
  let decimated := h.decimate packetNumber rcvTime delays
  match decimated.hasNewMissingPackets with
  | .error cause => .error cause
  | .ok missing =>
    .ok (if missing then decimated.shortenAlarm (rcvTime + delays.shortDecimation)
      else decimated)

def queueEliciting (h : ReceivedPacketTracker) (packetNumber : PacketNumber)
    (rcvTime : Time) (shouldInstigateAck : Bool) (delays : AckDelays) :
    Except HandlerPanic ReceivedPacketTracker :=
  if !h.ackQueued && shouldInstigateAck then
    h.ackElicitingPacket packetNumber rcvTime delays
  else .ok h

def cancelAlarm (h : ReceivedPacketTracker) : ReceivedPacketTracker :=
  if h.ackQueued then { h with ackAlarm := 0 } else h

def countPacket (h : ReceivedPacketTracker) : ReceivedPacketTracker :=
  { h with packetsReceivedSinceLastAck := h.packetsReceivedSinceLastAck + 1 }

def queueIfMissing (h : ReceivedPacketTracker) (wasMissing : Bool) :
    ReceivedPacketTracker :=
  if wasMissing then { h with ackQueued := true } else h

def maybeQueueAck (h : ReceivedPacketTracker) (packetNumber : PacketNumber)
    (rcvTime : Time) (shouldInstigateAck wasMissing : Bool) (delays : AckDelays) :
    Except HandlerPanic ReceivedPacketTracker :=
  -- The first packet is always acknowledged, and leaves the alarm alone.
  if h.lastAck.isNone then .ok { h.countPacket with ackQueued := true }
  else
    match (h.countPacket.queueIfMissing wasMissing).queueEliciting packetNumber rcvTime
        shouldInstigateAck delays with
    | .error cause => .error cause
    | .ok queued => .ok queued.cancelAlarm

def observe (h : ReceivedPacketTracker) (packetNumber : PacketNumber)
    (rcvTime : Time) : ReceivedPacketTracker :=
  let observed :=
    if packetNumber ≥ h.largestObserved then
      { h with
        largestObserved := packetNumber
        largestObservedReceivedTime := rcvTime }
    else h
  { observed with packetHistory := h.packetHistory.receivedPacket packetNumber }

def receivedPacket (h : ReceivedPacketTracker) (packetNumber : PacketNumber)
    (rcvTime : Time) (shouldInstigateAck : Bool) (delays : AckDelays) :
    Except HandlerPanic ReceivedPacketTracker :=
  if packetNumber < h.ignoreBelow then .ok h
  else
    match h.isMissing packetNumber with
    | .error cause => .error cause
    | .ok isMissing =>
      (h.observe packetNumber rcvTime).maybeQueueAck packetNumber rcvTime
        shouldInstigateAck isMissing delays

def ignorePacketsBelow (h : ReceivedPacketTracker) (p : PacketNumber) :
    ReceivedPacketTracker :=
  if p ≤ h.ignoreBelow then h
  else { h with
    ignoreBelow := p
    packetHistory := h.packetHistory.deleteBelow p }

def getAckFrame (h : ReceivedPacketTracker) (now : Time) :
    Option AckFrame × ReceivedPacketTracker :=
  if !h.ackQueued && (h.ackAlarm = 0 || h.ackAlarm > now) then (none, h)
  else
    let ack : AckFrame := {
      ackRanges := h.packetHistory.getAckRanges
      delayTime := max 0 (now - h.largestObservedReceivedTime) }
    (some ack, { h with
      lastAck := some ack
      ackAlarm := 0
      ackQueued := false
      packetsReceivedSinceLastAck := 0
      ackElicitingPacketsReceivedSinceLastAck := 0 })

end ReceivedPacketTracker

/-! ## What the session calls -/

inductive TrackerEvent where
  /-- A packet, with the numbers that `IgnoreBelow` gets for its ACK frames. -/
  | packet (acks : List PacketNumber) (packetNumber : PacketNumber) (rcvTime : Time)
      (ackEliciting : Bool) (delays : AckDelays)
  | getAckFrame (now : Time)
  deriving DecidableEq, Repr

structure TrackerState where
  tracker : ReceivedPacketTracker := {}
  /-- The frames that `GetAckFrame` returned. -/
  frames : List AckFrame := []
  deriving DecidableEq, Repr

namespace TrackerState

def step (s : TrackerState) : TrackerEvent → Except HandlerPanic TrackerState
  | .packet acks packetNumber rcvTime ackEliciting delays =>
    match (acks.foldl ReceivedPacketTracker.ignorePacketsBelow s.tracker).receivedPacket
        packetNumber rcvTime ackEliciting delays with
    | .error cause => .error cause
    | .ok tracker => .ok { s with tracker }
  | .getAckFrame now =>
    match s.tracker.getAckFrame now with
    | (none, _) => .ok s
    | (some ack, tracker) => .ok { tracker, frames := s.frames ++ [ack] }

/-- The peer acknowledges only packets that carried an ACK frame sent before. -/
def Answered (s : TrackerState) : TrackerEvent → Prop
  | .packet acks _ _ _ _ => ∀ p ∈ acks, ∃ f ∈ s.frames, ∃ r ∈ f.ackRanges,
      p ≤ r.largest + 1
  | .getAckFrame _ => True

def boundAfter (s : TrackerState) (acks : List PacketNumber) : PacketNumber :=
  acks.foldl max s.tracker.ignoreBelow

/--
A packet whose ACK frames make the tracker forget everything is itself not ignored, or
else no ACK is queued.
-/
def KeepsRange (s : TrackerState) : TrackerEvent → Prop
  | .packet acks packetNumber _ _ _ =>
    s.boundAfter acks ≤ packetNumber ∨
    (∃ r ∈ s.tracker.packetHistory.ranges, s.boundAfter acks ≤ r.last) ∨
    s.tracker.ackQueued = false ∧ s.tracker.ackAlarm = 0
  | .getAckFrame _ => True

instance (s : TrackerState) (event : TrackerEvent) : Decidable (s.Answered event) :=
  match event with
  | .packet acks .. => inferInstanceAs (Decidable (∀ p ∈ acks, _))
  | .getAckFrame _ => .isTrue trivial

instance (s : TrackerState) (event : TrackerEvent) : Decidable (s.KeepsRange event) :=
  match event with
  | .packet .. => inferInstanceAs (Decidable (_ ∨ _ ∨ _))
  | .getAckFrame _ => .isTrue trivial

end TrackerState

/-! ## Nonempty ranges -/

namespace ReceivedPacketHistory

variable {h : ReceivedPacketHistory} {p bound : PacketNumber}

private theorem mergeDown_ne_nil (el : PacketInterval) (before : List PacketInterval) :
    mergeDown el before ≠ [] := by
  cases before with
  | nil => exact List.cons_ne_nil _ _
  | cons prev before =>
    rw [mergeDown]
    split <;> exact List.cons_ne_nil _ _

private theorem addLoop_ne_nil (p : PacketNumber) (ranges : List PacketInterval) :
    addLoop p ranges ≠ [] := by
  cases ranges with
  | nil => exact List.cons_ne_nil _ _
  | cons el before =>
    rw [addLoop]
    split_ifs
    · exact List.cons_ne_nil _ _
    · exact mergeDown_ne_nil _ _
    · exact mergeDown_ne_nil _ _
    · exact List.cons_ne_nil _ _
    · exact List.cons_ne_nil _ _

private theorem receivedPacket_ne_nil (hp : h.deletedBelow ≤ p) :
    (h.receivedPacket p).ranges ≠ [] := by
  unfold receivedPacket maybeDeleteOldRanges addToRanges
  rw [if_neg (not_lt.mpr hp)]
  have hlength := List.length_pos_of_ne_nil (addLoop_ne_nil p h.ranges.reverse)
  rw [← List.length_pos_iff]
  simp only [List.length_drop, List.length_reverse, maxNumAckRanges]
  omega

@[simp]
theorem receivedPacket_deletedBelow :
    (h.receivedPacket p).deletedBelow = h.deletedBelow := by
  unfold receivedPacket
  split
  · rfl
  · simp only [maybeDeleteOldRanges, addToRanges]

theorem deleteLoop_keeps {ranges : List PacketInterval} (hp : p ≤ bound)
    (hkeep : ∃ r ∈ ranges, bound ≤ r.last) :
    ∃ r ∈ deleteLoop p ranges, bound ≤ r.last := by
  induction ranges with
  | nil =>
    obtain ⟨r, hr, -⟩ := hkeep
    exact absurd hr List.not_mem_nil
  | cons el after ih =>
    obtain ⟨r, hr, hlast⟩ := hkeep
    rw [deleteLoop]
    split
    · next hbelow =>
      rcases List.mem_cons.mp hr with rfl | hr
      · exact absurd (hp.trans hlast) (not_le.mpr hbelow)
      · exact ih ⟨r, hr, hlast⟩
    · split
      · rcases List.mem_cons.mp hr with rfl | hr
        · exact ⟨_, List.mem_cons_self, hlast⟩
        · exact ⟨r, List.mem_cons_of_mem _ hr, hlast⟩
      · exact ⟨r, hr, hlast⟩

end ReceivedPacketHistory

/-! ## Frames with a range -/

private theorem sortSearchLoop_le {f : Nat → Bool} {turns i j : Nat} (hle : i ≤ j) :
    sortSearchLoop f turns i j ≤ j := by
  induction turns generalizing i j with
  | zero => exact hle
  | succ turns ih =>
    rw [sortSearchLoop]
    dsimp only
    split
    · split
      · have hhalf : i ≤ (i + j) / 2 := by omega
        have hfound := ih hhalf
        omega
      · apply ih
        omega
    · exact hle

theorem sortSearchLoop_lt {f : Nat → Bool} {turns i j : Nat} (hlt : i < j)
    (hlast : f (j - 1) = true) (hturns : j - i ≤ turns) :
    sortSearchLoop f turns i j < j := by
  induction turns generalizing i with
  | zero => omega
  | succ turns ih =>
    rw [sortSearchLoop]
    dsimp only
    rw [if_pos hlt]
    split
    · have hhalf : i ≤ (i + j) / 2 := by omega
      have hfound : sortSearchLoop f turns i ((i + j) / 2) ≤ (i + j) / 2 :=
        sortSearchLoop_le hhalf
      omega
    · next hmiddle =>
      have hne : (i + j) / 2 ≠ j - 1 := by
        intro heq
        rw [heq] at hmiddle
        exact hmiddle hlast
      apply ih
      · omega
      · omega

theorem varIntLen_inRange (i : Nat) : varIntLen i ≠ .error .indexOutOfRange := by
  unfold varIntLen
  split_ifs <;> intro hcontra <;> cases hcontra

private theorem writeVarInt_inRange (i : Nat) :
    writeVarInt i ≠ .error (.panic .indexOutOfRange) := by
  unfold writeVarInt
  split_ifs <;> intro hcontra <;> cases hcontra

namespace AckFrame

variable {f : AckFrame}

theorem largestAcked_ok (h : f.ackRanges ≠ []) : ∃ pn, f.largestAcked = .ok pn := by
  unfold largestAcked
  rw [List.head?_eq_some_head h]
  exact ⟨_, rfl⟩

theorem acksPacket_ok (h : f.ackRanges ≠ []) (p : PacketNumber) :
    ∃ acked, f.acksPacket p = .ok acked := by
  obtain ⟨largest, hlargest⟩ := largestAcked_ok h
  have hlowest : f.lowestAcked = .ok (f.ackRanges.getLast h).smallest := by
    unfold lowestAcked
    rw [List.getLast?_eq_some_getLast h]
  unfold acksPacket
  rw [hlowest, hlargest]
  simp only [bind, Except.bind, pure, Except.pure]
  split
  · exact ⟨false, rfl⟩
  · next hwithin =>
    have hlength := List.length_pos_of_ne_nil h
    have hinside : sortSearch f.ackRanges.length
        (fun i => f.ackRanges[i]?.any fun r => p ≥ r.smallest) <
        f.ackRanges.length := by
      apply sortSearchLoop_lt hlength
      · rw [← List.getLast?_eq_getElem?, List.getLast?_eq_some_getLast h]
        simp only [Option.any_some, decide_eq_true_eq]
        exact not_lt.mp (fun hbelow => hwithin (.inl hbelow))
      · omega
    rw [List.getElem?_eq_getElem hinside]
    exact ⟨_, rfl⟩

theorem encodableLoop_inRange (length i : Nat) (previous : AckRange) (ranges : List AckRange) :
    encodableLoop length i previous ranges ≠ .error .indexOutOfRange := by
  induction ranges generalizing length i previous with
  | nil =>
    intro hcontra
    cases hcontra
  | cons r ranges ih =>
    refine bind_ne_error (varIntLen_inRange _) fun gapLen _ =>
      bind_ne_error (varIntLen_inRange _) fun lenLen _ => ?_
    split
    · intro hcontra
      cases hcontra
    · exact ih _ _ _

theorem numEncodableAckRanges_inRange (h : f.ackRanges ≠ []) :
    f.numEncodableAckRanges ≠ .error .indexOutOfRange := by
  unfold numEncodableAckRanges
  split
  · next hnone => exact absurd hnone h
  · exact bind_ne_error (varIntLen_inRange _) fun largestLen _ =>
      bind_ne_error (varIntLen_inRange _) fun delayLen _ =>
        encodableLoop_inRange _ _ _ _

private theorem length_inRange (h : f.ackRanges ≠ []) : f.length ≠ .error .indexOutOfRange := by
  unfold length
  split
  · next hnone => exact absurd hnone h
  · refine bind_ne_error (numEncodableAckRanges_inRange h) fun numRanges _ =>
      bind_ne_error (mapM_ne_error varIntLen_inRange) fun lengths _ => ?_
    intro hcontra
    cases hcontra

private theorem write_inRange (h : f.ackRanges ≠ []) :
    f.write ≠ .error (.panic .indexOutOfRange) := by
  unfold write
  split
  · next hnone => exact absurd hnone h
  · split
    · next hcause =>
      intro hcontra
      cases hcontra
      exact numEncodableAckRanges_inRange h hcause
    · refine bind_ne_error (mapM_ne_error writeVarInt_inRange) fun fields _ => ?_
      intro hcontra
      cases hcontra

structure HasRange (f : AckFrame) : Prop where
  ranges : f.ackRanges ≠ []
  largestAcked : ∃ pn, f.largestAcked = .ok pn
  length : f.length ≠ .error .indexOutOfRange
  write : f.write ≠ .error (.panic .indexOutOfRange)

private theorem hasRange (h : f.ackRanges ≠ []) : f.HasRange :=
  ⟨h, largestAcked_ok h, length_inRange h, write_inRange h⟩

end AckFrame

/-! ## The tracker keeps a range for its ACK -/

namespace ReceivedPacketTracker

variable {h h' : ReceivedPacketTracker} {p bound : PacketNumber}

structure Reportable (h : ReceivedPacketTracker) : Prop where
  deletedBelow : h.packetHistory.deletedBelow = h.ignoreBelow
  ranges : h.ackQueued = true ∨ h.ackAlarm ≠ 0 → h.packetHistory.ranges ≠ []
  lastAck : ∀ f ∈ h.lastAck, f.ackRanges ≠ []

private theorem ignorePacketsBelow_ignoreBelow (h : ReceivedPacketTracker) (p : PacketNumber) :
    (h.ignorePacketsBelow p).ignoreBelow = max h.ignoreBelow p := by
  unfold ignorePacketsBelow
  split
  · next hle => exact (max_eq_left hle).symm
  · next hlt => exact (max_eq_right (not_le.mp hlt).le).symm

structure Forgets (h h' : ReceivedPacketTracker) : Prop where
  ackQueued : h'.ackQueued = h.ackQueued
  ackAlarm : h'.ackAlarm = h.ackAlarm
  lastAck : h'.lastAck = h.lastAck
  deletedBelow : h.packetHistory.deletedBelow = h.ignoreBelow →
    h'.packetHistory.deletedBelow = h'.ignoreBelow
  keeps : ∀ bound, h'.ignoreBelow ≤ bound →
    (∃ r ∈ h.packetHistory.ranges, bound ≤ r.last) →
    ∃ r ∈ h'.packetHistory.ranges, bound ≤ r.last

theorem Forgets.refl (h : ReceivedPacketTracker) : h.Forgets h :=
  ⟨rfl, rfl, rfl, id, fun _ _ hkeep => hkeep⟩

private theorem ignorePacketsBelow_forgets (h : ReceivedPacketTracker) (p : PacketNumber) :
    h.Forgets (h.ignorePacketsBelow p) := by
  unfold ignorePacketsBelow
  split
  · exact .refl h
  · refine ⟨rfl, rfl, rfl, ?_, ?_⟩
    · intro hbelow
      unfold ReceivedPacketHistory.deleteBelow
      rw [if_neg (by rw [hbelow]; lia)]
    · intro bound hbound hkeep
      unfold ReceivedPacketHistory.deleteBelow
      split
      · exact hkeep
      · exact ReceivedPacketHistory.deleteLoop_keeps hbound hkeep

theorem foldl_ignoreBelow (h : ReceivedPacketTracker) (acks : List PacketNumber) :
    (acks.foldl ignorePacketsBelow h).ignoreBelow = acks.foldl max h.ignoreBelow := by
  induction acks generalizing h with
  | nil => rfl
  | cons p acks ih =>
    rw [List.foldl_cons, List.foldl_cons, ih, ignorePacketsBelow_ignoreBelow]

private theorem le_foldl_max (a : PacketNumber) (acks : List PacketNumber) :
    a ≤ acks.foldl max a := by
  induction acks generalizing a with
  | nil => exact le_rfl
  | cons p acks ih => exact (le_max_left a p).trans (ih (max a p))

theorem foldl_forgets (h : ReceivedPacketTracker) (acks : List PacketNumber) :
    h.Forgets (acks.foldl ignorePacketsBelow h) := by
  induction acks generalizing h with
  | nil => exact .refl h
  | cons p acks ih =>
    have hfirst := ignorePacketsBelow_forgets h p
    have hrest := ih (h.ignorePacketsBelow p)
    rw [List.foldl_cons]
    refine ⟨hrest.ackQueued.trans hfirst.ackQueued,
      hrest.ackAlarm.trans hfirst.ackAlarm, hrest.lastAck.trans hfirst.lastAck,
      fun hbelow => hrest.deletedBelow (hfirst.deletedBelow hbelow), ?_⟩
    intro bound hbound hkeep
    apply hrest.keeps bound hbound
    apply hfirst.keeps bound _ hkeep
    rw [foldl_ignoreBelow] at hbound
    exact (le_foldl_max _ acks).trans hbound

structure SameRanges (h h' : ReceivedPacketTracker) : Prop where
  packetHistory : h'.packetHistory = h.packetHistory
  ignoreBelow : h'.ignoreBelow = h.ignoreBelow
  lastAck : h'.lastAck = h.lastAck

theorem SameRanges.refl (h : ReceivedPacketTracker) : h.SameRanges h :=
  ⟨rfl, rfl, rfl⟩

theorem SameRanges.trans {h'' : ReceivedPacketTracker} (hfirst : h.SameRanges h')
    (hsecond : h'.SameRanges h'') : h.SameRanges h'' :=
  ⟨hsecond.packetHistory.trans hfirst.packetHistory,
    hsecond.ignoreBelow.trans hfirst.ignoreBelow,
    hsecond.lastAck.trans hfirst.lastAck⟩

private theorem queueAfter_same (h : ReceivedPacketTracker) (threshold : Nat) (alarm : Time) :
    h.SameRanges (h.queueAfter threshold alarm) := by
  unfold queueAfter
  split_ifs <;> exact ⟨rfl, rfl, rfl⟩

private theorem isMissing_ok (hlast : ∀ f ∈ h.lastAck, f.ackRanges ≠ []) (p : PacketNumber) :
    ∃ missing, h.isMissing p = .ok missing := by
  unfold isMissing
  cases hack : h.lastAck with
  | none => exact ⟨false, rfl⟩
  | some lastAck =>
    have hranges := hlast lastAck hack
    obtain ⟨largest, hlargest⟩ := AckFrame.largestAcked_ok hranges
    obtain ⟨acked, hacked⟩ := AckFrame.acksPacket_ok hranges p
    simp only [hlargest, hacked, bind, Except.bind, pure, Except.pure]
    split_ifs <;> exact ⟨_, rfl⟩

private theorem hasNewMissingPackets_ok (hlast : ∀ f ∈ h.lastAck, f.ackRanges ≠ []) :
    ∃ missing, h.hasNewMissingPackets = .ok missing := by
  unfold hasNewMissingPackets
  cases hack : h.lastAck with
  | none => exact ⟨false, rfl⟩
  | some lastAck =>
    obtain ⟨largest, hlargest⟩ := AckFrame.largestAcked_ok (hlast lastAck hack)
    simp only [hlargest, bind, Except.bind, pure, Except.pure]
    exact ⟨_, rfl⟩

private theorem decimate_same (h : ReceivedPacketTracker) (packetNumber : PacketNumber)
    (rcvTime : Time) (delays : AckDelays) :
    h.SameRanges (h.decimate packetNumber rcvTime delays) := by
  have hcounted : h.SameRanges { h with ackElicitingPacketsReceivedSinceLastAck :=
    h.ackElicitingPacketsReceivedSinceLastAck + 1 } := ⟨rfl, rfl, rfl⟩
  unfold decimate
  split
  · exact hcounted.trans (queueAfter_same _ _ _)
  · exact hcounted.trans (queueAfter_same _ _ _)

private theorem shortenAlarm_same (h : ReceivedPacketTracker) (ackTime : Time) :
    h.SameRanges (h.shortenAlarm ackTime) := by
  unfold shortenAlarm
  split <;> exact ⟨rfl, rfl, rfl⟩

private theorem queueIfMissing_same (h : ReceivedPacketTracker) (wasMissing : Bool) :
    h.SameRanges (h.queueIfMissing wasMissing) := by
  unfold queueIfMissing
  split <;> exact ⟨rfl, rfl, rfl⟩

private theorem cancelAlarm_same (h : ReceivedPacketTracker) : h.SameRanges h.cancelAlarm := by
  unfold cancelAlarm
  split <;> exact ⟨rfl, rfl, rfl⟩

section

variable (hlast : ∀ f ∈ h.lastAck, f.ackRanges ≠ []) (packetNumber : PacketNumber)
variable (rcvTime : Time)
include hlast packetNumber rcvTime

private theorem ackElicitingPacket_ok (delays : AckDelays) :
    ∃ h', h.ackElicitingPacket packetNumber rcvTime delays = .ok h' ∧ h.SameRanges h' := by
  have hsame := h.decimate_same packetNumber rcvTime delays
  obtain ⟨missing, hmissing⟩ := hasNewMissingPackets_ok (hsame.lastAck ▸ hlast)
  unfold ackElicitingPacket
  dsimp only
  rw [hmissing]
  refine ⟨_, rfl, hsame.trans ?_⟩
  cases missing with
  | false => exact .refl _
  | true => exact shortenAlarm_same _ _

private theorem queueEliciting_ok (shouldInstigateAck : Bool) (delays : AckDelays) :
    ∃ h', h.queueEliciting packetNumber rcvTime shouldInstigateAck delays = .ok h' ∧
      h.SameRanges h' := by
  unfold queueEliciting
  split
  · exact ackElicitingPacket_ok hlast packetNumber rcvTime delays
  · exact ⟨h, rfl, .refl h⟩

private theorem maybeQueueAck_ok (shouldInstigateAck wasMissing : Bool) (delays : AckDelays) :
    ∃ h', h.maybeQueueAck packetNumber rcvTime shouldInstigateAck wasMissing delays =
      .ok h' ∧ h.SameRanges h' := by
  have hcounted : h.SameRanges h.countPacket := ⟨rfl, rfl, rfl⟩
  have hmarked := hcounted.trans (queueIfMissing_same _ wasMissing)
  obtain ⟨queued, hqueued, hsame⟩ := queueEliciting_ok (hmarked.lastAck ▸ hlast)
    packetNumber rcvTime shouldInstigateAck delays
  unfold maybeQueueAck
  split
  · exact ⟨_, rfl, rfl, rfl, rfl⟩
  · rw [hqueued]
    exact ⟨_, rfl, hmarked.trans (hsame.trans queued.cancelAlarm_same)⟩

end

theorem observe_spec (h : ReceivedPacketTracker) (packetNumber : PacketNumber) (rcvTime : Time) :
    (h.observe packetNumber rcvTime).packetHistory = h.packetHistory.receivedPacket packetNumber ∧
      (h.observe packetNumber rcvTime).ignoreBelow = h.ignoreBelow ∧
      (h.observe packetNumber rcvTime).lastAck = h.lastAck := by
  unfold observe
  split <;> exact ⟨rfl, rfl, rfl⟩

theorem receivedPacket_ok (hdeleted : h.packetHistory.deletedBelow = h.ignoreBelow)
    (hlastAck : ∀ f ∈ h.lastAck, f.ackRanges ≠ []) {packetNumber : PacketNumber}
    (hranges : h.ignoreBelow ≤ packetNumber ∨
      (h.ackQueued = true ∨ h.ackAlarm ≠ 0 → h.packetHistory.ranges ≠ []))
    (rcvTime : Time) (shouldInstigateAck : Bool) (delays : AckDelays) :
    ∃ h', h.receivedPacket packetNumber rcvTime shouldInstigateAck delays = .ok h' ∧
      h'.Reportable := by
  unfold receivedPacket
  split
  · next hignored =>
    exact ⟨h, rfl, hdeleted, hranges.resolve_left (not_le.mpr hignored), hlastAck⟩
  · next hnew =>
    obtain ⟨missing, hmissing⟩ := isMissing_ok hlastAck packetNumber
    rw [hmissing]
    obtain ⟨hhistory, hbelow, hlast⟩ := h.observe_spec packetNumber rcvTime
    rw [← hlast] at hlastAck
    obtain ⟨h', hqueue, hsame⟩ := maybeQueueAck_ok hlastAck packetNumber rcvTime
      shouldInstigateAck missing delays
    refine ⟨h', hqueue, ?_, ?_, ?_⟩
    · rw [hsame.packetHistory, hsame.ignoreBelow, hhistory, hbelow,
        ReceivedPacketHistory.receivedPacket_deletedBelow]
      exact hdeleted
    · intro _
      rw [hsame.packetHistory, hhistory]
      apply ReceivedPacketHistory.receivedPacket_ne_nil
      rw [hdeleted]
      exact not_lt.mp hnew
    · rw [hsame.lastAck]
      exact hlastAck

theorem Reportable.getAckFrame (hreport : h.Reportable) {now : Time} {f : AckFrame}
    (hget : h.getAckFrame now = (some f, h')) : f.ackRanges ≠ [] ∧ h'.Reportable := by
  unfold ReceivedPacketTracker.getAckFrame at hget
  split at hget
  · cases hget
  · next hdue =>
    have hranges : h.packetHistory.ranges ≠ [] := by
      apply hreport.ranges
      by_contra hnone
      simp only [not_or, Bool.not_eq_true, not_not] at hnone
      exact hdue (by simp [hnone.1, hnone.2])
    have hframe : h.packetHistory.getAckRanges ≠ [] := by
      simpa [ReceivedPacketHistory.getAckRanges] using hranges
    cases hget
    refine ⟨hframe, hreport.deletedBelow, ?_, ?_⟩
    · rintro (hcontra | hcontra)
      · cases hcontra
      · exact absurd rfl hcontra
    · intro f hf
      cases hf
      exact hframe

end ReceivedPacketTracker

/-! ## Runs -/

namespace TrackerState

variable {s s' : TrackerState} {event : TrackerEvent}

structure Reportable (s : TrackerState) : Prop where
  tracker : s.tracker.Reportable
  frames : ∀ f ∈ s.frames, f.ackRanges ≠ []

theorem Reportable.new : ({} : TrackerState).Reportable := by
  refine ⟨⟨rfl, ?_, ?_⟩, fun f hf => absurd hf List.not_mem_nil⟩
  · rintro (hcontra | hcontra)
    · cases hcontra
    · exact absurd rfl hcontra
  · intro f hf
    cases hf

theorem Reportable.packet (h : s.Reportable) {acks : List PacketNumber}
    {packetNumber : PacketNumber} {rcvTime : Time} {ackEliciting : Bool} {delays : AckDelays}
    (hkeeps : s.KeepsRange (.packet acks packetNumber rcvTime ackEliciting delays)) :
    ∃ tracker,
      (acks.foldl ReceivedPacketTracker.ignorePacketsBelow s.tracker).receivedPacket
        packetNumber rcvTime ackEliciting delays = .ok tracker ∧ tracker.Reportable := by
  have hforgets := s.tracker.foldl_forgets acks
  have hbound : (acks.foldl ReceivedPacketTracker.ignorePacketsBelow
      s.tracker).ignoreBelow = s.boundAfter acks := s.tracker.foldl_ignoreBelow acks
  apply ReceivedPacketTracker.receivedPacket_ok
  · exact hforgets.deletedBelow h.tracker.deletedBelow
  · rw [hforgets.lastAck]
    exact h.tracker.lastAck
  · rw [hbound, hforgets.ackQueued, hforgets.ackAlarm]
    rcases hkeeps with hnew | hrange | ⟨hqueued, halarm⟩
    · exact .inl hnew
    · obtain ⟨r, hr, -⟩ := hforgets.keeps _ hbound.le hrange
      exact .inr fun _ => List.ne_nil_of_mem hr
    · refine .inr ?_
      rintro (hcontra | hcontra)
      · rw [hqueued] at hcontra
        cases hcontra
      · exact absurd halarm hcontra

theorem Reportable.step (h : s.Reportable) (hkeeps : s.KeepsRange event) :
    ∃ s', s.step event = .ok s' ∧ s'.Reportable := by
  cases event with
  | packet acks packetNumber rcvTime ackEliciting delays =>
    obtain ⟨tracker, hpacket, htracker⟩ := h.packet hkeeps
    refine ⟨{ s with tracker }, ?_, htracker, h.frames⟩
    simp only [TrackerState.step, hpacket]
  | getAckFrame now =>
    simp only [TrackerState.step]
    rcases hget : s.tracker.getAckFrame now with ⟨frame, tracker⟩
    cases frame with
    | none => exact ⟨s, rfl, h⟩
    | some ack =>
      obtain ⟨hack, htracker⟩ := h.tracker.getAckFrame hget
      refine ⟨_, rfl, htracker, ?_⟩
      intro f hf
      rcases List.mem_append.mp hf with hf | hf
      · exact h.frames f hf
      · rw [List.mem_singleton.mp hf]
        exact hack

/--
If no packet makes the tracker forget all ranges while an ACK is queued, every frame
has a range.
-/
theorem getAckFrame_hasRange {events : List TrackerEvent}
    (h : Trace (fun s event s' => step s event = .ok s' ∧ Answered s event ∧
      KeepsRange s event) {} events s) : ∀ f ∈ s.frames, f.HasRange := by
  have hreport : s.Reportable := by
    refine Trace.invariant Reportable Reportable.new ?_ h
    intro t event t' ht hstep
    obtain ⟨u, hu, hreport⟩ := ht.step hstep.2.2
    rw [hstep.1] at hu
    cases hu
    exact hreport
  intro f hf
  exact AckFrame.hasRange (hreport.frames f hf)

def acknowledgedLate : List TrackerEvent :=
  [.packet [] 10 1 true ⟨0, 0⟩, .getAckFrame 1, .packet [] 5 2 true ⟨0, 0⟩,
    .packet [11] 12 3 true ⟨0, 0⟩, .getAckFrame 3]

def forgottenWhileQueued : List TrackerEvent :=
  [.packet [] 10 1 true ⟨0, 0⟩, .getAckFrame 1, .packet [] 5 2 true ⟨0, 0⟩,
    .packet [11] 7 3 true ⟨0, 0⟩, .getAckFrame 3]

theorem getAckFrame_hasRange_acknowledgedLate :
    ∃ s, Trace (fun s event s' => step s event = .ok s' ∧ Answered s event ∧
        KeepsRange s event) {} acknowledgedLate s ∧
      s.frames = [⟨[⟨10, 10⟩], 0⟩, ⟨[⟨12, 12⟩], 0⟩] ∧ ∀ f ∈ s.frames, f.HasRange := by
  have hrun : ∃ s, Trace (fun s event s' => step s event = .ok s' ∧ Answered s event ∧
        KeepsRange s event) {} acknowledgedLate s ∧
      s.frames = [⟨[⟨10, 10⟩], 0⟩, ⟨[⟨12, 12⟩], 0⟩] :=
    ⟨_, .cons ⟨rfl, by decide, by decide⟩ (.cons ⟨rfl, by decide, by decide⟩
      (.cons ⟨rfl, by decide, by decide⟩ (.cons ⟨rfl, by decide, by decide⟩
      (.cons ⟨rfl, by decide, by decide⟩ .nil)))), rfl⟩
  obtain ⟨s, htrace, hframes⟩ := hrun
  exact ⟨s, htrace, hframes, getAckFrame_hasRange htrace⟩

theorem getAckFrame_forgottenWhileQueued :
    ∃ s, Trace (fun s event s' => step s event = .ok s' ∧ Answered s event) {}
        forgottenWhileQueued s ∧
      s.frames = [⟨[⟨10, 10⟩], 0⟩, ⟨[], 2⟩] ∧ ¬ ∀ f ∈ s.frames, f.HasRange := by
  have hrun : ∃ s, Trace (fun s event s' => step s event = .ok s' ∧ Answered s event)
      {} forgottenWhileQueued s ∧ s.frames = [⟨[⟨10, 10⟩], 0⟩, ⟨[], 2⟩] :=
    ⟨_, .cons ⟨rfl, by decide⟩ (.cons ⟨rfl, by decide⟩ (.cons ⟨rfl, by decide⟩
      (.cons ⟨rfl, by decide⟩ (.cons ⟨rfl, by decide⟩ .nil)))), rfl⟩
  obtain ⟨s, htrace, hframes⟩ := hrun
  refine ⟨s, htrace, hframes, ?_⟩
  intro hall
  rw [hframes] at hall
  exact (hall ⟨[], 2⟩ (by decide)).ranges rfl

end TrackerState

end Qperf.Quic
