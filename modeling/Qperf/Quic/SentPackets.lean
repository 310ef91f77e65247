import Mathlib.Data.List.AList
import Mathlib.Tactic.Ring

/-!
# The sent packet handler

`sentPacketHandler` keeps the packets of each packet number space until they are
acknowledged, declared lost or sent again as a probe.  The callbacks of the frames
are returned in the order in which the handler calls them; no callback calls the
handler.  Round-trip times come from `RTTStats`, and the congestion controller is
only told what happens, so that neither is part of the state.
-/

namespace Qperf.Quic

abbrev PacketNumber := Int

def invalidPacketNumber : PacketNumber := -1

/-- A point in time in nanoseconds; 0 is the zero value of `time.Time`. -/
abbrev Time := Int

inductive EncryptionLevel where
  | initial
  | handshake
  | oneRTT
  deriving DecidableEq, Repr

inductive HandlerPanic where
  | nilPointer
  | indexOutOfRange
  | cannotDropKeys (encLevel : EncryptionLevel)
  | packetNotFound (pn : PacketNumber)
  deriving DecidableEq, Repr

/-! ## ACK frames -/

structure AckRange where
  smallest : PacketNumber
  largest : PacketNumber
  deriving DecidableEq, Repr

structure AckFrame where
  ackRanges : List AckRange
  delayTime : Int
  deriving DecidableEq, Repr

def sortSearchLoop (f : Nat → Bool) : Nat → Nat → Nat → Nat
  | 0, i, _ => i
  | turns + 1, i, j =>
    if i < j then
      let h := (i + j) / 2
      if f h then sortSearchLoop f turns i h
      else sortSearchLoop f turns (h + 1) j
    else i

def sortSearch (n : Nat) (f : Nat → Bool) : Nat := sortSearchLoop f n 0 n

namespace AckFrame

def largestAcked (f : AckFrame) : Except HandlerPanic PacketNumber :=
  match f.ackRanges.head? with
  | none => .error .indexOutOfRange
  | some r => .ok r.largest

def lowestAcked (f : AckFrame) : Except HandlerPanic PacketNumber :=
  match f.ackRanges.getLast? with
  | none => .error .indexOutOfRange
  | some r => .ok r.smallest

def hasMissingRanges (f : AckFrame) : Bool := f.ackRanges.length > 1

def acksPacket (f : AckFrame) (p : PacketNumber) : Except HandlerPanic Bool := do
  let lowest ← f.lowestAcked
  let largest ← f.largestAcked
  if p < lowest ∨ p > largest then
    return false
  else
    let i := sortSearch f.ackRanges.length fun i =>
      f.ackRanges[i]?.any fun r => p ≥ r.smallest
    match f.ackRanges[i]? with
    | none => .error .indexOutOfRange
    | some r => return p ≤ r.largest

end AckFrame

/-! ## Packet numbers -/

def skipPacketAveragePeriodLength : PacketNumber := 500

def maxTrackedSkippedPackets : Nat := 10

structure PacketNumberGenerator where
  averagePeriod : PacketNumber
  next : PacketNumber
  nextToSkip : PacketNumber
  history : List PacketNumber
  deriving DecidableEq, Repr

namespace PacketNumberGenerator

/-- `num` is the random number.  The product wraps around if the period is long. -/
def generateNewSkip (p : PacketNumberGenerator) (num : UInt16) :
    PacketNumberGenerator :=
  let product := Int.bmod (num.toNat * (p.averagePeriod - 1)) (2 ^ 64)
  let skip := product.tdiv (65535 / 2)
  { p with nextToSkip := p.next + 2 + skip }

def new (initial averagePeriod : PacketNumber) (num : UInt16) :
    PacketNumberGenerator :=
  generateNewSkip ⟨averagePeriod, initial, 0, []⟩ num

def peek (p : PacketNumberGenerator) : PacketNumber := p.next

def pop (p : PacketNumberGenerator) (num : UInt16) :
    PacketNumber × PacketNumberGenerator :=
  let next := p.next
  let p := { p with next := p.next + 1 }
  if p.next = p.nextToSkip then
    let history :=
      if p.history.length + 1 > maxTrackedSkippedPackets then p.history.tail
      else p.history
    let p := { p with history := history ++ [p.next], next := p.next + 1 }
    (next, p.generateNewSkip num)
  else (next, p)

def validateLoop (ack : AckFrame) : List PacketNumber → Except HandlerPanic Bool
  | [] => .ok true
  | pn :: history => do
    if ← ack.acksPacket pn then return false
    else validateLoop ack history

def validate (p : PacketNumberGenerator) (ack : AckFrame) :
    Except HandlerPanic Bool :=
  validateLoop ack p.history

end PacketNumberGenerator

/-- The length of a packet number in bytes, which is never 1. -/
def getPacketNumberLengthForHeader (packetNumber leastUnacked : PacketNumber) : Nat :=
  let diff := (packetNumber - leastUnacked) % 2 ^ 64
  if diff < 2 ^ 15 then 2 else if diff < 2 ^ 23 then 3 else 4

theorem getPacketNumberLengthForHeader_bounds (pn leastUnacked : PacketNumber) :
    2 ≤ getPacketNumberLengthForHeader pn leastUnacked ∧
      getPacketNumberLengthForHeader pn leastUnacked ≤ 4 := by
  unfold getPacketNumberLengthForHeader
  dsimp only
  split
  · decide
  · split <;> decide

/-! ## The history of a packet number space -/

/-- A sent packet; `φ` is the type of its frames with their callbacks. -/
structure SentPacket (φ : Type) where
  packetNumber : PacketNumber
  frames : List φ
  largestAcked : PacketNumber
  length : Nat
  encryptionLevel : EncryptionLevel
  sendTime : Time
  includedInBytesInFlight : Bool
  deriving DecidableEq

/-- An element of the list of packets, with its address. -/
structure PacketElement (φ : Type) where
  address : Nat
  value : SentPacket φ
  deriving DecidableEq

structure SentPacketHistory (φ : Type) where
  packetList : List (PacketElement φ)
  packetMap : AList fun _ : PacketNumber => PacketElement φ
  nextAddress : Nat

namespace SentPacketHistory

variable {φ : Type}

def new : SentPacketHistory φ := ⟨[], ∅, 0⟩

def sentPacket (h : SentPacketHistory φ) (p : SentPacket φ) :
    SentPacketHistory φ where
  packetList := h.packetList ++ [⟨h.nextAddress, p⟩]
  packetMap := h.packetMap.insert p.packetNumber ⟨h.nextAddress, p⟩
  nextAddress := h.nextAddress + 1

def getPacket (h : SentPacketHistory φ) (p : PacketNumber) : Option (SentPacket φ) :=
  (h.packetMap.lookup p).map PacketElement.value

def packets (h : SentPacketHistory φ) : List (SentPacket φ) :=
  h.packetList.map PacketElement.value

def hasOutstandingPackets (h : SentPacketHistory φ) : Bool :=
  h.packetList.length > 0

def firstOutstanding (h : SentPacketHistory φ) : Option (SentPacket φ) :=
  h.packetList.head?.map PacketElement.value

def remove (h : SentPacketHistory φ) (p : PacketNumber) :
    Option (SentPacketHistory φ) :=
  match h.packetMap.lookup p with
  | none => none
  | some el => some { h with
      packetList := h.packetList.filter fun e => e.address ≠ el.address
      packetMap := h.packetMap.erase p }

end SentPacketHistory

structure PacketNumberSpace (φ : Type) where
  history : SentPacketHistory φ
  pns : PacketNumberGenerator
  lossTime : Time
  largestAcked : PacketNumber
  largestSent : PacketNumber

def PacketNumberSpace.new {φ : Type} (initialPN : PacketNumber) (num : UInt16) :
    PacketNumberSpace φ where
  history := .new
  pns := .new initialPN skipPacketAveragePeriodLength num
  lossTime := 0
  largestAcked := invalidPacketNumber
  largestSent := invalidPacketNumber

/-! ## The handler -/

structure SentPacketHandler (φ : Type) where
  lastSentAckElicitingPacketTime : Time
  lastSentCryptoPacketTime : Time
  initialPackets : Option (PacketNumberSpace φ)
  handshakePackets : Option (PacketNumberSpace φ)
  oneRTTPackets : PacketNumberSpace φ
  lowestNotConfirmedAcked : PacketNumber
  bytesInFlight : Nat
  ptoCount : Nat
  numProbesToSend : Nat
  alarm : Time

inductive FrameCallback (φ : Type) where
  | onAcked (f : φ)
  | onLost (f : φ)
  deriving DecidableEq

inductive AckError where
  | unsentPacket
  | skippedPacketNumber
  | wrongPacket (pn smallest largest : PacketNumber)
  | packetNotFound (pn : PacketNumber)
  deriving DecidableEq, Repr

structure Handled (φ : Type) where
  handler : SentPacketHandler φ
  callbacks : List (FrameCallback φ) := []
  error : Option AckError := none

/-- What `RTTStats` yields at the time of a call. -/
structure RoundTrip where
  lossDelay : Int
  pto : Int
  deriving DecidableEq, Repr

/-- `PTO() << ptoCount`, a shift of an `int64`. -/
def RoundTrip.backoff (rtt : RoundTrip) (ptoCount : Nat) : Int :=
  Int.bmod (rtt.pto * 2 ^ ptoCount) (2 ^ 64)

/-- The arithmetic of `ByteCount`, which is a `uint64`. -/
def wrapByteCount (n : Int) : Nat := (n % 2 ^ 64).toNat

def packetThreshold : PacketNumber := 3

namespace SentPacketHandler

variable {φ : Type}

def new (initialPN : PacketNumber) (num₁ num₂ num₃ : UInt16) :
    SentPacketHandler φ where
  lastSentAckElicitingPacketTime := 0
  lastSentCryptoPacketTime := 0
  initialPackets := some (.new initialPN num₁)
  handshakePackets := some (.new 0 num₂)
  oneRTTPackets := .new 0 num₃
  lowestNotConfirmedAcked := 0
  bytesInFlight := 0
  ptoCount := 0
  numProbesToSend := 0
  alarm := 0

/-- The caller dereferences the result, so that a dropped space is a panic. -/
def getPacketNumberSpace (h : SentPacketHandler φ) :
    EncryptionLevel → Except HandlerPanic (PacketNumberSpace φ)
  | .initial =>
    match h.initialPackets with
    | none => .error .nilPointer
    | some space => .ok space
  | .handshake =>
    match h.handshakePackets with
    | none => .error .nilPointer
    | some space => .ok space
  | .oneRTT => .ok h.oneRTTPackets

def setPacketNumberSpace (h : SentPacketHandler φ)
    (encLevel : EncryptionLevel) (space : PacketNumberSpace φ) :
    SentPacketHandler φ :=
  match encLevel with
  | .initial => { h with initialPackets := some space }
  | .handshake => { h with handshakePackets := some space }
  | .oneRTT => { h with oneRTTPackets := space }

/-! ### The timer -/

def hasOutstandingCryptoPackets (h : SentPacketHandler φ) : Bool :=
  h.initialPackets.any (fun s => s.history.hasOutstandingPackets) ||
    h.handshakePackets.any fun s => s.history.hasOutstandingPackets

def hasOutstandingPackets (h : SentPacketHandler φ) : Bool :=
  h.oneRTTPackets.history.hasOutstandingPackets ||
    h.hasOutstandingCryptoPackets

def earlierLossTime (earliest : Time × EncryptionLevel)
    (space : Option (PacketNumberSpace φ)) (encLevel : EncryptionLevel) :
    Time × EncryptionLevel :=
  match space with
  | none => earliest
  | some space =>
    if earliest.1 = 0 ∨ (space.lossTime ≠ 0 ∧ space.lossTime < earliest.1) then
      (space.lossTime, encLevel)
    else earliest

def getEarliestLossTime (h : SentPacketHandler φ) : Time × EncryptionLevel :=
  let earliest : Time × EncryptionLevel :=
    match h.initialPackets with
    | none => (0, .oneRTT)
    | some space => (space.lossTime, .initial)
  let earliest := earlierLossTime earliest h.handshakePackets .handshake
  earlierLossTime earliest (some h.oneRTTPackets) .oneRTT

def setLossDetectionTimer (h : SentPacketHandler φ) (rtt : RoundTrip) :
    SentPacketHandler φ :=
  let lossTime := h.getEarliestLossTime.1
  let h := if lossTime ≠ 0 then { h with alarm := lossTime } else h
  if h.hasOutstandingPackets then
    { h with
      alarm := h.lastSentAckElicitingPacketTime + rtt.backoff h.ptoCount }
  else { h with alarm := 0 }

/-! ### Sending -/

def sentAckEliciting (h : SentPacketHandler φ) (packet : SentPacket φ) :
    SentPacketHandler φ :=
  { h with
    lastSentCryptoPacketTime :=
      if packet.encryptionLevel ≠ .oneRTT then packet.sendTime
      else h.lastSentCryptoPacketTime
    lastSentAckElicitingPacketTime := packet.sendTime
    bytesInFlight := wrapByteCount (h.bytesInFlight + packet.length)
    numProbesToSend := h.numProbesToSend - 1 }

def sentPacketImpl (h : SentPacketHandler φ) (packet : SentPacket φ) :
    Except HandlerPanic (SentPacketHandler φ × SentPacket φ × Bool) := do
  let space ← h.getPacketNumberSpace packet.encryptionLevel
  let h := h.setPacketNumberSpace packet.encryptionLevel
    { space with largestSent := packet.packetNumber }
  if packet.frames.isEmpty then
    return (h, packet, false)
  else
    return (h.sentAckEliciting packet,
      { packet with includedInBytesInFlight := true }, true)

def sentPacket (h : SentPacketHandler φ) (packet : SentPacket φ)
    (rtt : RoundTrip) : Except HandlerPanic (SentPacketHandler φ) := do
  let (h, packet, isAckEliciting) ← h.sentPacketImpl packet
  if isAckEliciting then
    let space ← h.getPacketNumberSpace packet.encryptionLevel
    let h := h.setPacketNumberSpace packet.encryptionLevel
      { space with history := space.history.sentPacket packet }
    return h.setLossDetectionTimer rtt
  else
    return h

def peekPacketNumber (h : SentPacketHandler φ) (encLevel : EncryptionLevel) :
    Except HandlerPanic (PacketNumber × Nat) := do
  let space ← h.getPacketNumberSpace encLevel
  let lowestUnacked :=
    match space.history.firstOutstanding with
    | some p => p.packetNumber
    | none => space.largestAcked + 1
  let pn := space.pns.peek
  return (pn, getPacketNumberLengthForHeader pn lowestUnacked)

def popPacketNumber (h : SentPacketHandler φ) (encLevel : EncryptionLevel)
    (num : UInt16) : Except HandlerPanic (PacketNumber × SentPacketHandler φ) := do
  let space ← h.getPacketNumberSpace encLevel
  let (pn, pns) := space.pns.pop num
  return (pn, h.setPacketNumberSpace encLevel { space with pns })

/-! ### Acknowledgements -/

/-- The ranges in ascending order from the first one that may hold `pn`. -/
def skipRanges (pn : PacketNumber) : List AckRange → List AckRange
  | r :: next :: ranges =>
    if pn > r.largest then skipRanges pn (next :: ranges)
    else r :: next :: ranges
  | ranges => ranges

def newlyAckedLoop (hasMissingRanges : Bool) (lowest largest : PacketNumber) :
    List AckRange → List (SentPacket φ) → Except AckError (List (SentPacket φ))
  | _, [] => .ok []
  | ranges, p :: packets =>
    if p.packetNumber < lowest then
      newlyAckedLoop hasMissingRanges lowest largest ranges packets
    else if p.packetNumber > largest then .ok []
    else if hasMissingRanges then
      match skipRanges p.packetNumber ranges with
      | [] => newlyAckedLoop hasMissingRanges lowest largest [] packets
      | r :: ranges =>
        if p.packetNumber ≥ r.smallest then
          if p.packetNumber > r.largest then
            .error (.wrongPacket p.packetNumber r.smallest r.largest)
          else do
            let acked ← newlyAckedLoop hasMissingRanges lowest largest
              (r :: ranges) packets
            return p :: acked
        else
          newlyAckedLoop hasMissingRanges lowest largest (r :: ranges) packets
    else do
      let acked ←
        newlyAckedLoop hasMissingRanges lowest largest ranges packets
      return p :: acked

def determineNewlyAckedPackets (ackFrame : AckFrame)
    (lowest largest : PacketNumber) (space : PacketNumberSpace φ) :
    Except AckError (List (SentPacket φ)) :=
  newlyAckedLoop ackFrame.hasMissingRanges lowest largest
    ackFrame.ackRanges.reverse space.history.packets

def releaseBytes (h : SentPacketHandler φ) (p : SentPacket φ) : SentPacketHandler φ :=
  if p.includedInBytesInFlight then
    { h with bytesInFlight := wrapByteCount (h.bytesInFlight - p.length) }
  else h

def onPacketAcked (h : SentPacketHandler φ) (p : SentPacket φ) :
    Except HandlerPanic (Handled φ) := do
  let space ← h.getPacketNumberSpace p.encryptionLevel
  match space.history.getPacket p.packetNumber with
  | none => return { handler := h }
  | some _ =>
    let h := h.releaseBytes p
    match space.history.remove p.packetNumber with
    | none => return {
        handler := h
        callbacks := p.frames.map .onAcked
        error := some (.packetNotFound p.packetNumber) }
    | some history => return {
        handler := h.setPacketNumberSpace p.encryptionLevel { space with history }
        callbacks := p.frames.map .onAcked }

def confirmAck (h : SentPacketHandler φ) (encLevel : EncryptionLevel)
    (p : SentPacket φ) : SentPacketHandler φ :=
  if p.largestAcked ≠ invalidPacketNumber ∧ encLevel = .oneRTT then
    { h with
      lowestNotConfirmedAcked := max h.lowestNotConfirmedAcked (p.largestAcked + 1) }
  else h

def ackPackets (encLevel : EncryptionLevel) :
    List (SentPacket φ) → SentPacketHandler φ → Except HandlerPanic (Handled φ)
  | [], h => .ok { handler := h }
  | p :: packets, h => do
    let first ← (h.confirmAck encLevel p).onPacketAcked p
    if first.error.isSome then
      return first
    else
      let rest ← ackPackets encLevel packets first.handler
      return { rest with callbacks := first.callbacks ++ rest.callbacks }

/-! ### Losses -/

def lostPacketsLoop (largestAcked : PacketNumber) (lostSendTime : Time)
    (lossDelay : Int) :
    Time → List (SentPacket φ) → List (SentPacket φ) × Time
  | lossTime, [] => ([], lossTime)
  | lossTime, p :: packets =>
    if p.packetNumber > largestAcked then ([], lossTime)
    else if p.sendTime < lostSendTime ∨
        largestAcked ≥ p.packetNumber + packetThreshold then
      let (lost, lossTime) := lostPacketsLoop largestAcked lostSendTime
        lossDelay lossTime packets
      (p :: lost, lossTime)
    else
      lostPacketsLoop largestAcked lostSendTime lossDelay
        (if lossTime = 0 then p.sendTime + lossDelay else lossTime) packets

def queueFramesForRetransmission (p : SentPacket φ) : List (FrameCallback φ) :=
  p.frames.map .onLost

/-- The error of `Remove` is ignored. -/
def losePackets (encLevel : EncryptionLevel) :
    List (SentPacket φ) → SentPacketHandler φ → Except HandlerPanic (Handled φ)
  | [], h => .ok { handler := h }
  | p :: packets, h => do
    let h := h.releaseBytes p
    let space ← h.getPacketNumberSpace encLevel
    let history := (space.history.remove p.packetNumber).getD space.history
    let rest ← losePackets encLevel packets
      (h.setPacketNumberSpace encLevel { space with history })
    return { rest with
      callbacks := queueFramesForRetransmission p ++ rest.callbacks }

def detectLostPackets (h : SentPacketHandler φ) (now : Time)
    (encLevel : EncryptionLevel) (rtt : RoundTrip) :
    Except HandlerPanic (Handled φ) := do
  let space ← h.getPacketNumberSpace encLevel
  let (lostPackets, lossTime) := lostPacketsLoop space.largestAcked
    (now - rtt.lossDelay) rtt.lossDelay 0 space.history.packets
  losePackets encLevel lostPackets
    (h.setPacketNumberSpace encLevel { space with lossTime })

def receivedAck (h : SentPacketHandler φ) (ackFrame : AckFrame)
    (encLevel : EncryptionLevel) (rcvTime : Time) (rtt : RoundTrip) :
    Except HandlerPanic (Handled φ) := do
  let space ← h.getPacketNumberSpace encLevel
  let largestAcked ← ackFrame.largestAcked
  if largestAcked > space.largestSent then
    return { handler := h, error := some .unsentPacket }
  else
    let space :=
      { space with largestAcked := max space.largestAcked largestAcked }
    let h := h.setPacketNumberSpace encLevel space
    if ← space.pns.validate ackFrame then
      let lowestAcked ← ackFrame.lowestAcked
      match determineNewlyAckedPackets ackFrame lowestAcked largestAcked space with
      | .error e => return { handler := h, error := some e }
      | .ok [] => return { handler := h }
      | .ok ackedPackets =>
        let acked ← ackPackets encLevel ackedPackets h
        if acked.error.isSome then
          return acked
        else
          let lost ← acked.handler.detectLostPackets rcvTime encLevel rtt
          let h := { lost.handler with ptoCount := 0, numProbesToSend := 0 }
          return {
            handler := h.setLossDetectionTimer rtt
            callbacks := acked.callbacks ++ lost.callbacks }
    else
      return { handler := h, error := some .skippedPacketNumber }

def onVerifiedLossDetectionTimeout (h : SentPacketHandler φ) (now : Time)
    (rtt : RoundTrip) : Except HandlerPanic (Handled φ) :=
  let (lossTime, encLevel) := h.getEarliestLossTime
  if lossTime ≠ 0 then h.detectLostPackets now encLevel rtt
  else .ok { handler := { h with
    ptoCount := h.ptoCount + 1
    numProbesToSend := h.numProbesToSend + 2 } }

def onLossDetectionTimeout (h : SentPacketHandler φ) (now : Time)
    (rtt : RoundTrip) : Except HandlerPanic (Handled φ) := do
  if h.hasOutstandingPackets then
    let handled ← h.onVerifiedLossDetectionTimeout now rtt
    return { handled with handler := handled.handler.setLossDetectionTimer rtt }
  else
    return { handler := h.setLossDetectionTimer rtt }

def probePacket (h : SentPacketHandler φ) : Option (SentPacket φ) :=
  (h.initialPackets.bind fun s => s.history.firstOutstanding) <|>
    (h.handshakePackets.bind fun s => s.history.firstOutstanding) <|>
    h.oneRTTPackets.history.firstOutstanding

def queueProbePacket (h : SentPacketHandler φ) :
    Except HandlerPanic (Handled φ × Bool) := do
  match h.probePacket with
  | none => return ({ handler := h }, false)
  | some p =>
    let h := h.releaseBytes p
    let space ← h.getPacketNumberSpace p.encryptionLevel
    match space.history.remove p.packetNumber with
    | none => .error (.packetNotFound p.packetNumber)
    | some history => return ({
        handler := h.setPacketNumberSpace p.encryptionLevel { space with history }
        callbacks := queueFramesForRetransmission p }, true)

/-! ### Dropping keys and Retry -/

def dropPackets (h : SentPacketHandler φ) (encLevel : EncryptionLevel) :
    Except HandlerPanic (SentPacketHandler φ) := do
  let space ← h.getPacketNumberSpace encLevel
  let h := space.history.packets.foldl releaseBytes h
  match encLevel with
  | .initial => return { h with initialPackets := none }
  | .handshake => return { h with handshakePackets := none }
  | .oneRTT => .error (.cannotDropKeys encLevel)

def resetForRetry (h : SentPacketHandler φ) (num₁ num₂ : UInt16)
    (rtt : RoundTrip) : Except HandlerPanic (Handled φ) := do
  let space ← h.getPacketNumberSpace .initial
  let initialPackets := some (.new (space.pns.pop num₁).1 num₂)
  let h := { h with bytesInFlight := 0, initialPackets }
  return {
    handler := h.setLossDetectionTimer rtt
    callbacks := space.history.packets.flatMap queueFramesForRetransmission }

end SentPacketHandler

end Qperf.Quic
