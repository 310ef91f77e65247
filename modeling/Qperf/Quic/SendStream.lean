import Qperf.Quic.ControlFrames
import Qperf.Quic.FlowControl

/-!
# Send streams

The sending half of a stream.  `Write` blocks until the framer has taken its
data, so only its start is an operation here; `dataForWriting` is what is left
of the data of the blocked call.
-/

namespace Qperf.Quic

open Qperf.Foundation

inductive StreamError where
  | writeOnClosedStream (streamID : StreamID)
  | closeCalledForCanceledStream (streamID : StreamID)
  | writeCanceled (streamID : StreamID) (errorCode : Nat)
  | resetByPeer (streamID : StreamID) (errorCode : Nat)
  | sessionClosed (message : String)
  deriving DecidableEq, Repr

/-- Data that is waiting to be sent; the empty slice is `nil` in the source. -/
abbrev Unsent := { bytes : List UInt8 // bytes ≠ [] }

structure SendStream where
  streamID : StreamID
  numOutstandingFrames : Int
  retransmissionQueue : List StreamFrame
  writeOffset : Nat
  cancelWriteErr : Option StreamError
  closeForShutdownErr : Option StreamError
  closedForShutdown : Bool
  finishedWriting : Bool
  canceledWrite : Bool
  finSent : Bool
  completed : Bool
  dataForWriting : Option Unsent
  flowController : SendController
  deriving DecidableEq

/-- An operation's new state, the calls of the sender it makes and its error. -/
structure Outcome where
  stream : SendStream
  onHasStreamData : Bool := false
  controlFrames : List ControlFrame := []
  error : Option StreamError := none

namespace SendStream

def new (streamID : StreamID) (initialSendWindow : Nat) : SendStream where
  streamID := streamID
  numOutstandingFrames := 0
  retransmissionQueue := []
  writeOffset := 0
  cancelWriteErr := none
  closeForShutdownErr := none
  closedForShutdown := false
  finishedWriting := false
  canceledWrite := false
  finSent := false
  completed := false
  dataForWriting := none
  flowController := .new initialSendWindow

/-! ## Operations of the application and the session -/

/-- The start of `Write`, up to the point where it waits for the framer. -/
def write (s : SendStream) (p : List UInt8) : Outcome :=
  if s.finishedWriting then
    { stream := s, error := some (.writeOnClosedStream s.streamID) }
  else if s.canceledWrite then
    { stream := s, error := s.cancelWriteErr }
  else if s.closeForShutdownErr.isSome then
    { stream := s, error := s.closeForShutdownErr }
  else if h : p = [] then
    { stream := s }
  else
    { stream := { s with dataForWriting := some ⟨p, h⟩ }
      onHasStreamData := !s.closedForShutdown }

def writeDeadlineExceeded (s : SendStream) : Outcome :=
  { stream := { s with dataForWriting := none } }

def close (s : SendStream) : Outcome :=
  if s.canceledWrite then
    { stream := s, error := some (.closeCalledForCanceledStream s.streamID) }
  else
    { stream := { s with finishedWriting := true }, onHasStreamData := true }

/-- `isNewlyCompleted`; the stream is reported to the session only once. -/
def markCompleted (s : SendStream) : SendStream :=
  if (s.finSent || s.canceledWrite) && s.numOutstandingFrames == 0 &&
      s.retransmissionQueue.isEmpty then
    { s with completed := true }
  else s

def cancelWriteImpl (s : SendStream) (errorCode : Nat) (writeErr : StreamError) :
    Outcome :=
  if s.canceledWrite then { stream := s }
  else
    { stream := markCompleted
        { s with canceledWrite := true, cancelWriteErr := some writeErr }
      controlFrames := [.resetStream s.streamID s.writeOffset errorCode] }

def cancelWrite (s : SendStream) (errorCode : Nat) : Outcome :=
  s.cancelWriteImpl errorCode (.writeCanceled s.streamID errorCode)

def handleStopSendingFrame (s : SendStream) (errorCode : Nat) : Outcome :=
  s.cancelWriteImpl errorCode (.resetByPeer s.streamID errorCode)

def closeForShutdown (s : SendStream) (err : Option StreamError) : Outcome :=
  { stream := { s with closedForShutdown := true, closeForShutdownErr := err } }

def handleMaxStreamDataFrame (s : SendStream) (byteOffset : Nat) : Outcome :=
  { stream := { s with
      flowController := s.flowController.updateSendWindow byteOffset }
    onHasStreamData := s.dataForWriting.isSome }

def dropOutstanding (s : SendStream) : Except GoPanic SendStream :=
  if s.numOutstandingFrames - 1 < 0 then .error .negativeOutstandingFrames
  else .ok { s with numOutstandingFrames := s.numOutstandingFrames - 1 }

def frameAcked (s : SendStream) : Except GoPanic Outcome := do
  let s ← s.dropOutstanding
  return { stream := s.markCompleted }

def queueRetransmission (s : SendStream) (f : StreamFrame) :
    Except GoPanic Outcome := do
  let s ← s.dropOutstanding
  return {
    stream := { s with
      retransmissionQueue := s.retransmissionQueue ++ [{ f with dataLenPresent := true }] }
    onHasStreamData := true }

/-! ## Popping frames -/

structure Popped where
  frame : Option StreamFrame
  hasMoreData : Bool
  stream : SendStream
  connection : SendController
  controlFrames : List ControlFrame := []

def newFrame (s : SendStream) : StreamFrame where
  streamID := s.streamID
  offset := s.writeOffset
  data := []
  finBit := false
  dataLenPresent := true

def sendWindowSize (s : SendStream) (connection : SendController) : Nat :=
  min s.flowController.sendWindowSize connection.sendWindowSize

def remainder (data : Unsent) (n : Nat) : Option Unsent :=
  if h : data.1.length > n then
    some ⟨data.1.drop n, by simpa [List.drop_eq_nil_iff] using h⟩
  else none

def getDataForWriting (s : SendStream) (connection : SendController)
    (f : StreamFrame) (maxBytes : Nat) :
    Except GoPanic (StreamFrame × SendStream × SendController) :=
  match s.dataForWriting with
  | none => .ok ({ f with finBit := s.finishedWriting && !s.finSent }, s, connection)
  | some data =>
    let maxBytes := min maxBytes (s.sendWindowSize connection)
    if maxBytes = 0 then .ok (f, s, connection)
    else
      let bytes := data.1.take maxBytes
      -- The frame's buffer comes from the pool.
      if bytes.length > maxReceivePacketSize then .error .sliceBounds
      else
        let rest := remainder data maxBytes
        .ok ({ f with
            data := bytes
            finBit := s.finishedWriting && rest.isNone && !s.finSent },
          { s with
            dataForWriting := rest
            writeOffset := s.writeOffset + bytes.length
            flowController := s.flowController.addBytesSent bytes.length },
          connection.addBytesSent bytes.length)

def popNewStreamFrame (s : SendStream) (connection : SendController)
    (maxBytes : Nat) : Except GoPanic Popped := do
  if s.canceledWrite || s.closeForShutdownErr.isSome then
    return ⟨none, false, s, connection, []⟩
  else
    let maxDataLen ← s.newFrame.maxDataLen maxBytes
    if maxDataLen = 0 then
      return ⟨none, s.dataForWriting.isSome, s, connection, []⟩
    else
      let (f, s, connection) ←
        s.getDataForWriting connection s.newFrame maxDataLen
      if f.data.isEmpty && !f.finBit then
        if s.dataForWriting.isNone then
          return ⟨none, false, s, connection, []⟩
        else
          match s.flowController.isNewlyBlocked with
          | some (offset, flowController) =>
            return ⟨none, false, { s with flowController }, connection,
              [.streamDataBlocked s.streamID offset]⟩
          | none => return ⟨none, true, s, connection, []⟩
      else
        return ⟨some f, s.dataForWriting.isSome,
          { s with finSent := s.finSent || f.finBit }, connection, []⟩

/--
The first frame of the retransmission queue, or as much of it as fits, and
whether there are more retransmissions.
-/
def maybeGetRetransmission (s : SendStream) (f : StreamFrame)
    (rest : List StreamFrame) (maxBytes : Nat) :
    Except GoPanic (Option StreamFrame × Bool × SendStream) := do
  match ← f.maybeSplitOffFrame maxBytes with
  | .tooSmall => return (none, true, s)
  | .split first last =>
    return (some first, true, { s with retransmissionQueue := last :: rest })
  | .fits =>
    return (some f, !rest.isEmpty, { s with retransmissionQueue := rest })

/-- A retransmission always claims that there is more data to send. -/
def popNewOrRetransmittedStreamFrame (s : SendStream)
    (connection : SendController) (maxBytes : Nat) : Except GoPanic Popped :=
  match s.retransmissionQueue with
  | f :: rest => do
    let (frame, hasMoreRetransmissions, s) ←
      s.maybeGetRetransmission f rest maxBytes
    if frame.isSome || hasMoreRetransmissions then
      return ⟨frame, true, s, connection, []⟩
    else
      s.popNewStreamFrame connection maxBytes
  | [] => s.popNewStreamFrame connection maxBytes

def addOutstanding (s : SendStream) : SendStream :=
  { s with numOutstandingFrames := s.numOutstandingFrames + 1 }

def Popped.count (popped : Popped) : Popped :=
  match popped.frame with
  | none => popped
  | some _ => { popped with stream := popped.stream.addOutstanding }

def popStreamFrame (s : SendStream) (connection : SendController)
    (maxBytes : Nat) : Except GoPanic Popped := do
  let popped ← s.popNewOrRetransmittedStreamFrame connection maxBytes
  return popped.count

/-! ## What popping a frame can do -/

def Writable (s : SendStream) : Prop :=
  s.canceledWrite = false ∧ s.closeForShutdownErr = none

def FinPending (s : SendStream) : Prop :=
  s.finishedWriting = true ∧ s.finSent = false

instance (s : SendStream) : Decidable s.FinPending :=
  inferInstanceAs (Decidable (_ ∧ _))

def dataFrame (s : SendStream) (data : Unsent) (n : Nat) : StreamFrame :=
  { s.newFrame with
    data := data.1.take n
    finBit := s.finishedWriting && (remainder data n).isNone && !s.finSent }

def afterData (s : SendStream) (data : Unsent) (n : Nat) : SendStream :=
  { s with
    dataForWriting := remainder data n
    writeOffset := s.writeOffset + (data.1.take n).length
    flowController := s.flowController.addBytesSent (data.1.take n).length
    finSent := s.finSent || (s.dataFrame data n).finBit }

theorem finSent_afterData {s : SendStream} {data : Unsent} {n : Nat}
    (h : (s.afterData data n).finSent = true) : s.finSent = true ∨
      (s.finishedWriting = true ∧ remainder data n = none) := by
  rcases Bool.or_eq_true_iff.mp h with h | h
  · exact Or.inl h
  · simp only [dataFrame, Bool.and_eq_true, Option.isNone_iff_eq_none] at h
    exact Or.inr h.1

inductive PopRetransmission (s : SendStream) (connection : SendController)
    (maxBytes : Nat) (f : StreamFrame) (rest : List StreamFrame) :
    Popped → Prop where
  | tooSmall (hsplit : f.maybeSplitOffFrame maxBytes = .ok .tooSmall) :
      PopRetransmission s connection maxBytes f rest
        ⟨none, true, s, connection, []⟩
  | split {first last : StreamFrame}
      (hsplit : f.maybeSplitOffFrame maxBytes = .ok (.split first last)) :
      PopRetransmission s connection maxBytes f rest
        ⟨some first, true,
          addOutstanding { s with retransmissionQueue := last :: rest },
          connection, []⟩
  | fits (hsplit : f.maybeSplitOffFrame maxBytes = .ok .fits) :
      PopRetransmission s connection maxBytes f rest
        ⟨some f, true, addOutstanding { s with retransmissionQueue := rest },
          connection, []⟩

inductive PopNew (s : SendStream) (connection : SendController) (room : Nat) :
    Popped → Prop where
  | noRoom (hroom : room = 0) :
      PopNew s connection room ⟨none, s.dataForWriting.isSome, s, connection, []⟩
  | idle (hroom : room ≠ 0) (hdata : s.dataForWriting = none)
      (hfin : ¬ s.FinPending) :
      PopNew s connection room ⟨none, false, s, connection, []⟩
  | fin (hroom : room ≠ 0) (hdata : s.dataForWriting = none)
      (hfin : s.FinPending) :
      PopNew s connection room
        ⟨some { s.newFrame with finBit := true }, false,
          addOutstanding { s with finSent := true }, connection, []⟩
  | newlyBlocked {data : Unsent} (hroom : room ≠ 0)
      (hdata : s.dataForWriting = some data)
      (hblocked : s.flowController.Blocked) :
      PopNew s connection room
        ⟨none, false, { s with flowController := { s.flowController with
              lastBlockedAt := s.flowController.sendWindow } },
          connection,
          [.streamDataBlocked s.streamID s.flowController.sendWindow]⟩
  | blocked {data : Unsent} (hroom : room ≠ 0)
      (hdata : s.dataForWriting = some data)
      (hwindow : s.sendWindowSize connection = 0)
      (hblocked : ¬ s.flowController.Blocked) :
      PopNew s connection room ⟨none, true, s, connection, []⟩
  | data {data : Unsent} {n : Nat} (hdata : s.dataForWriting = some data)
      (hn : n = min room (s.sendWindowSize connection)) (hpos : n ≠ 0)
      (hbuffer : (data.1.take n).length ≤ maxReceivePacketSize) :
      PopNew s connection room
        ⟨some (s.dataFrame data n), (remainder data n).isSome,
          addOutstanding (s.afterData data n),
          connection.addBytesSent (data.1.take n).length, []⟩

inductive PopCase (s : SendStream) (connection : SendController)
    (maxBytes : Nat) (popped : Popped) : Prop where
  | retransmission {f : StreamFrame} {rest : List StreamFrame}
      (hqueue : s.retransmissionQueue = f :: rest)
      (h : PopRetransmission s connection maxBytes f rest popped)
  | stopped (hqueue : s.retransmissionQueue = []) (hwritable : ¬ s.Writable)
      (h : popped = ⟨none, false, s, connection, []⟩)
  | new {room : Nat} (hqueue : s.retransmissionQueue = [])
      (hwritable : s.Writable)
      (hroom : s.newFrame.maxDataLen maxBytes = .ok room)
      (h : PopNew s connection room popped)

variable {s : SendStream} {connection : SendController} {maxBytes room : Nat}
variable {popped : Popped}

theorem popRetransmission {f : StreamFrame} {rest : List StreamFrame}
    (hqueue : s.retransmissionQueue = f :: rest)
    (h : s.popNewOrRetransmittedStreamFrame connection maxBytes = .ok popped) :
    PopRetransmission s connection maxBytes f rest popped.count := by
  simp only [popNewOrRetransmittedStreamFrame, hqueue, maybeGetRetransmission] at h
  obtain ⟨result, hresult, h⟩ := bind_eq_ok.mp h
  obtain ⟨split, hsplit, hresult⟩ := bind_eq_ok.mp hresult
  cases split with
  | tooSmall =>
    cases hresult
    cases h
    exact .tooSmall hsplit
  | split first last =>
    cases hresult
    cases h
    exact .split hsplit
  | fits =>
    cases hresult
    cases h
    exact .fits hsplit

theorem take_ne_nil (data : Unsent) {n : Nat} (h : n ≠ 0) : data.1.take n ≠ [] := by
  simpa [List.take_eq_nil_iff, h] using data.2

theorem popNew (hwritable : s.Writable) (hroom : s.newFrame.maxDataLen maxBytes = .ok room)
    (h : s.popNewStreamFrame connection maxBytes = .ok popped) :
    PopNew s connection room popped.count := by
  simp only [popNewStreamFrame, hwritable.1, hwritable.2, Bool.false_or,
    Option.isSome_none, Bool.false_eq_true, if_false, hroom, ok_bind] at h
  by_cases hzero : room = 0
  · rw [if_pos hzero] at h
    cases h
    exact .noRoom hzero
  rw [if_neg hzero] at h
  obtain ⟨⟨f, next, connection'⟩, hget, h⟩ := bind_eq_ok.mp h
  cases hdata : s.dataForWriting with
  | none =>
    simp only [getDataForWriting, hdata, Except.ok.injEq, Prod.mk.injEq] at hget
    obtain ⟨rfl, rfl, rfl⟩ := hget
    have hsome : s.dataForWriting.isSome = false := by simp [hdata]
    have hnone : s.dataForWriting.isNone = true := by simp [hdata]
    by_cases hfin : s.FinPending
    · have hbit : (s.finishedWriting && !s.finSent) = true := by
        simp [hfin.1, hfin.2]
      simp only [hbit, hsome, Bool.not_true, Bool.and_false,
        Bool.false_eq_true, if_false, Bool.or_true] at h
      cases h
      exact .fin hzero hdata hfin
    · have hbit : (s.finishedWriting && !s.finSent) = false := by
        simpa [FinPending] using hfin
      simp only [hbit, hnone, newFrame, List.isEmpty_nil, Bool.not_false,
        Bool.and_self, if_true] at h
      cases h
      exact .idle hzero hdata hfin
  | some data =>
    simp only [getDataForWriting, hdata] at hget
    split at hget
    · next hmin =>
      cases hget
      have hwindow : s.sendWindowSize connection = 0 := by omega
      have hnone : s.dataForWriting.isNone = false := by simp [hdata]
      simp only [newFrame, hnone, List.isEmpty_nil, Bool.not_false,
        Bool.and_self, Bool.false_eq_true, if_true, if_false] at h
      by_cases hblocked : s.flowController.Blocked
      · rw [SendController.isNewlyBlocked_of_blocked hblocked] at h
        cases h
        exact .newlyBlocked hzero hdata hblocked
      · rw [SendController.isNewlyBlocked_of_not_blocked hblocked] at h
        cases h
        exact .blocked hzero hdata hwindow hblocked
    · next hmin =>
      split at hget
      · cases hget
      · next hbuffer =>
        cases hget
        have hempty : (data.1.take (min room
            (s.sendWindowSize connection))).isEmpty = false := by
          simpa using take_ne_nil data hmin
        simp only [hempty, Bool.false_and, Bool.false_eq_true, if_false] at h
        cases h
        exact .data hdata rfl hmin (Nat.le_of_not_lt hbuffer)

theorem popStreamFrame_cases (h : s.popStreamFrame connection maxBytes = .ok popped) :
    PopCase s connection maxBytes popped := by
  obtain ⟨inner, hinner, h⟩ := bind_eq_ok.mp h
  cases h
  cases hqueue : s.retransmissionQueue with
  | cons f rest => exact .retransmission hqueue (popRetransmission hqueue hinner)
  | nil =>
    rw [popNewOrRetransmittedStreamFrame, hqueue] at hinner
    by_cases hwritable : s.Writable
    · cases hroom : s.newFrame.maxDataLen maxBytes with
      | ok room =>
        exact .new hqueue hwritable hroom (popNew hwritable hroom hinner)
      | error e =>
        simp [popNewStreamFrame, hwritable.1, hwritable.2, hroom] at hinner
    · refine .stopped hqueue hwritable ?_
      have hstop :
          (s.canceledWrite || s.closeForShutdownErr.isSome) = true := by
        by_contra hgo
        exact hwritable (by simpa [Writable] using hgo)
      rw [popNewStreamFrame, if_pos hstop] at hinner
      cases hinner
      rfl

end SendStream

end Qperf.Quic
