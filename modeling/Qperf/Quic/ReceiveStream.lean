import Qperf.Quic.ReceiveControl
import Qperf.Quic.SendStream
import Qperf.Quic.SorterEntries

/-!
# Receive streams

The receiving half of a stream.  `Read` releases the mutex while it waits for data and
while it copies, and `streamCompleted` runs after the mutex was released, so each part
between a lock and the next unlock is a step of its own.  A `Read` that waits may wake
up at any time, by the channel or by the timer of its deadline.
-/

namespace Qperf.Quic

open Qperf.Foundation

inductive ReadError where
  | eof
  | readCanceled (streamID : StreamID) (errorCode : Nat)
  | streamReset (streamID : StreamID) (errorCode : Nat)
  | shutdown (err : StreamError)
  | deadline
  | bytesReadTooLarge (bytesRead len : Nat)
  | readPosTooLarge (readPosInFrame dataLen : Nat)
  deriving DecidableEq, Repr

inductive ReceiveError where
  | flowControl (err : FlowError)
  | sorter (err : SorterError)
  deriving DecidableEq, Repr

/-- `released` are the callbacks for buffers that have been invoked. -/
structure ReceiveStream where
  streamID : StreamID
  frameQueue : FrameSorter
  readOffset : Nat
  finalOffset : Nat
  currentFrame : Option Slice
  currentFrameDone : Option Callback
  currentFrameIsLast : Bool
  readPosInFrame : Nat
  closeForShutdownErr : Option StreamError
  cancelReadErr : Option ReadError
  resetRemotelyErr : Option ReadError
  closedForShutdown : Bool
  finRead : Bool
  canceledRead : Bool
  resetRemotely : Bool
  flowController : StreamController
  released : List Callback

inductive ReadAction where
  | finish (completed : Bool) (err : Option ReadError)
  | wait
  | copy
  deriving DecidableEq, Repr

namespace ReceiveStream

def new (streamID : StreamID) (flowController : StreamController) : ReceiveStream where
  streamID := streamID
  frameQueue := .new
  readOffset := 0
  finalOffset := maxByteCount
  currentFrame := none
  currentFrameDone := none
  currentFrameIsLast := false
  readPosInFrame := 0
  closeForShutdownErr := none
  cancelReadErr := none
  resetRemotelyErr := none
  closedForShutdown := false
  finRead := false
  canceledRead := false
  resetRemotely := false
  flowController := flowController
  released := []

def frameBytes (t : ReceiveStream) : List UInt8 :=
  match t.currentFrame with
  | none => []
  | some data => data.bytes

def shutdownErr (t : ReceiveStream) : Option ReadError :=
  t.closeForShutdownErr.map .shutdown

/-! ## Reading -/

def dequeueNextFrame (t : ReceiveStream) : ReceiveStream :=
  let popped := t.frameQueue.pop
  let t := { t with
    frameQueue := popped.sorter
    currentFrame := popped.data
    currentFrameDone := popped.doneCb
    readPosInFrame := 0
    released := t.released ++ t.currentFrameDone.toList }
  { t with currentFrameIsLast :=
      decide (popped.offset + t.frameBytes.length ≥ t.finalOffset) }

/-- One turn of the loop that waits for a frame. -/
def awaitFrame (t : ReceiveStream) (len bytesRead : Nat) (expired : Bool) :
    ReadAction :=
  if t.closedForShutdown then .finish false t.shutdownErr
  else if t.canceledRead then .finish false t.cancelReadErr
  else if t.resetRemotely then .finish false t.resetRemotelyErr
  else if expired then .finish false (some .deadline)
  else if t.currentFrame.isSome || t.currentFrameIsLast then
    if bytesRead > len then
      .finish false (some (.bytesReadTooLarge bytesRead len))
    else if t.readPosInFrame > t.frameBytes.length then
      .finish false (some (.readPosTooLarge t.readPosInFrame t.frameBytes.length))
    else .copy
  else .wait

def continueRead (t : ReceiveStream) (len bytesRead : Nat) (expired : Bool) :
    ReceiveStream × ReadAction :=
  if bytesRead < len then
    let t := if t.currentFrame.isNone ∨ t.readPosInFrame ≥ t.frameBytes.length then
        t.dequeueNextFrame
      else t
    if t.currentFrame.isNone ∧ bytesRead > 0 then (t, .finish false t.shutdownErr)
    else (t, t.awaitFrame len bytesRead expired)
  else (t, .finish false none)

def startRead (t : ReceiveStream) (len : Nat) (expired : Bool) :
    ReceiveStream × ReadAction :=
  if t.finRead then (t, .finish false (some .eof))
  else if t.canceledRead then (t, .finish false t.cancelReadErr)
  else if t.resetRemotely then (t, .finish false t.resetRemotelyErr)
  else if t.closedForShutdown then (t, .finish false t.shutdownErr)
  else t.continueRead len 0 expired

def wakeRead (t : ReceiveStream) (len bytesRead : Nat) (expired : Bool) :
    ReceiveStream × ReadAction :=
  let t := if t.currentFrame.isNone then t.dequeueNextFrame else t
  (t, t.awaitFrame len bytesRead expired)

def copyBytes (t : ReceiveStream) (room : Nat) : List UInt8 :=
  (t.frameBytes.drop t.readPosInFrame).take room

def advance (t : ReceiveStream) (m : Nat) : ReceiveStream :=
  { t with readPosInFrame := t.readPosInFrame + m, readOffset := t.readOffset + m }

def addBytesRead (t : ReceiveStream) (connection : ReceiveController) (m : Nat) :
    ReceiveStream × ReceiveController :=
  if t.resetRemotely then (t, connection)
  else
    let credited := t.flowController.addBytesRead connection m
    ({ t with flowController := credited.1 }, credited.2)

/-- `Read` takes the mutex again after it has copied `m` bytes. -/
def finishCopy (t : ReceiveStream) (len bytesRead : Nat) (expired : Bool) :
    ReceiveStream × ReadAction :=
  if t.readPosInFrame ≥ t.frameBytes.length ∧ t.currentFrameIsLast then
    ({ t with finRead := true }, .finish true (some .eof))
  else t.continueRead len bytesRead expired

/-! ## Frames and cancelation -/

def cancelRead (t : ReceiveStream) (errorCode : Nat) :
    ReceiveStream × Bool × List ControlFrame :=
  if t.finRead || t.canceledRead || t.resetRemotely then (t, false, [])
  else
    ({ t with
        canceledRead := true
        cancelReadErr := some (.readCanceled t.streamID errorCode) },
      t.finalOffset != maxByteCount, [.stopSending t.streamID errorCode])

def updateHighestReceived (t : ReceiveStream) (connection : ReceiveController)
    (offset : Nat) (final : Bool) :
    Except ReceiveError (ReceiveStream × ReceiveController) :=
  match t.flowController.updateHighestReceived connection offset final with
  | .error err => .error (.flowControl err)
  | .ok (flowController, connection) => .ok ({ t with flowController }, connection)

/--
The sum of the offset and the length does not wrap around: the parser refuses frames
that end above the largest offset.
-/
def handleStreamFrame (t : ReceiveStream) (connection : ReceiveController)
    (frame : StreamFrame) (putBack : Callback) :
    Except ReceiveError ((ReceiveStream × ReceiveController) × Bool) := do
  let maxOffset := frame.offset + frame.data.length
  let (t, connection) ← t.updateHighestReceived connection maxOffset frame.finBit
  let t := if frame.finBit then { t with finalOffset := maxOffset } else t
  if t.canceledRead then return ((t, connection), frame.finBit)
  else
    let pushed :=
      t.frameQueue.push ⟨frame.data, some putBack⟩ frame.offset (some putBack)
    match pushed.error with
    | some err => .error (.sorter err)
    | none =>
      return (({ t with
        frameQueue := pushed.sorter
        released := t.released ++ pushed.calls }, connection), false)

def handleResetStreamFrame (t : ReceiveStream) (connection : ReceiveController)
    (byteOffset errorCode : Nat) :
    Except ReceiveError ((ReceiveStream × ReceiveController) × Bool) := do
  if t.closedForShutdown then return ((t, connection), false)
  else
    let (t, connection) ← t.updateHighestReceived connection byteOffset true
    let t := { t with finalOffset := byteOffset }
    -- Duplicate frames are ignored after the check of their final offset.
    if t.resetRemotely then return ((t, connection), false)
    else
      return (({ t with
        resetRemotely := true
        resetRemotelyErr := some (.streamReset t.streamID errorCode) }, connection), true)

def closeForShutdown (t : ReceiveStream) (err : Option StreamError) : ReceiveStream :=
  { t with closedForShutdown := true, closeForShutdownErr := err }

/-! ## What the operations do -/

structure Positioned (t : ReceiveStream) : Prop where
  separated : Separated t.frameQueue.gaps
  below : t.frameQueue.EndsBy (maxByteCount - 1)
  received : t.frameQueue.EndsBy t.flowController.highestReceived
  inFrame : t.readPosInFrame ≤ t.frameBytes.length
  offset : t.readOffset + (t.frameBytes.length - t.readPosInFrame) =
    t.frameQueue.readPos
  credited : t.flowController.bytesRead ≤ t.readOffset
  final : t.finalOffset ≠ maxByteCount → t.flowController.receivedFinalOffset = true
  last : t.currentFrameIsLast = true → t.flowController.receivedFinalOffset = true
  reset : t.resetRemotely = true → t.flowController.receivedFinalOffset = true
  read : t.finRead = true → t.flowController.receivedFinalOffset = true

variable {t t' : ReceiveStream} {connection connection' : ReceiveController}

theorem positioned_new (id : StreamID) (receiveWindow maxReceiveWindow : Nat) :
    (new id (.new id receiveWindow maxReceiveWindow)).Positioned where
  separated := FrameSorter.separated_new
  below := FrameSorter.endsBy_new _
  received := FrameSorter.endsBy_new _
  inFrame := Nat.le_refl _
  offset := rfl
  credited := Nat.le_refl _
  final := fun h => absurd rfl h
  last := fun h => by cases h
  reset := fun h => by cases h
  read := fun h => by cases h

inductive Dequeued (t : ReceiveStream) : ReceiveStream → Prop where
  | same : Dequeued t t
  | next (hread : t.readPosInFrame = t.frameBytes.length) :
      Dequeued t t.dequeueNextFrame

inductive ReadsOn (t : ReceiveStream) : ReceiveStream × ReadAction → Prop where
  | finish {next : ReceiveStream} {err : Option ReadError}
      (hdequeued : Dequeued t next)
      (herr : err = some .eof → t.cancelReadErr = err ∨ t.resetRemotelyErr = err) :
      ReadsOn t (next, .finish false err)
  | wait {next : ReceiveStream} (hdequeued : Dequeued t next) :
      ReadsOn t (next, .wait)
  | copy {next : ReceiveStream} (hdequeued : Dequeued t next)
      (hcanceled : t.canceledRead = false) (hreset : t.resetRemotely = false) :
      ReadsOn t (next, .copy)

theorem ReadsOn.finish_of_ne {err : Option ReadError} (h : Dequeued t t')
    (hne : err ≠ some .eof) : ReadsOn t (t', .finish false err) :=
  .finish h fun heof => absurd heof hne

theorem shutdownErr_ne_eof (t : ReceiveStream) : t.shutdownErr ≠ some .eof := by
  rw [shutdownErr]
  cases t.closeForShutdownErr <;> simp

theorem Dequeued.same_fields (h : Dequeued t t') :
    t'.canceledRead = t.canceledRead ∧ t'.resetRemotely = t.resetRemotely ∧
      t'.finRead = t.finRead ∧ t'.flowController = t.flowController ∧
      t'.cancelReadErr = t.cancelReadErr ∧ t'.resetRemotelyErr = t.resetRemotelyErr ∧
      t'.finalOffset = t.finalOffset ∧ t'.readOffset = t.readOffset := by
  cases h with
  | same | next => exact ⟨rfl, rfl, rfl, rfl, rfl, rfl, rfl, rfl⟩

theorem readsOn_awaitFrame (h : Dequeued t t') (len bytesRead : Nat)
    (expired : Bool) : ReadsOn t (t', t'.awaitFrame len bytesRead expired) := by
  obtain ⟨hcanceled, hreset, -, -, hcancelErr, hresetErr, -, -⟩ := h.same_fields
  rw [awaitFrame]
  split
  · exact .finish_of_ne h (shutdownErr_ne_eof t')
  split
  · exact .finish h fun _ => .inl hcancelErr.symm
  split
  · exact .finish h fun _ => .inr hresetErr.symm
  next hnotCanceled hnotReset =>
  split
  · exact .finish_of_ne h (by simp)
  split
  · split
    · exact .finish_of_ne h (by simp)
    split
    · exact .finish_of_ne h (by simp)
    · refine .copy h ?_ ?_
      · rw [← hcanceled]
        exact Bool.eq_false_iff.mpr hnotCanceled
      · rw [← hreset]
        exact Bool.eq_false_iff.mpr hnotReset
  · exact .wait h

theorem frameBytes_of_isNone (h : t.currentFrame.isNone = true) :
    t.frameBytes = [] := by
  rw [frameBytes, Option.isNone_iff_eq_none.mp h]

section

variable (hin : t.readPosInFrame ≤ t.frameBytes.length)
include hin

theorem readsOn_continueRead (len bytesRead : Nat) (expired : Bool) :
    ReadsOn t (t.continueRead len bytesRead expired) := by
  rw [continueRead]
  split
  · have hdequeued : Dequeued t
        (if t.currentFrame.isNone ∨ t.readPosInFrame ≥ t.frameBytes.length then
          t.dequeueNextFrame else t) := by
      split
      · next hdone =>
        refine .next ?_
        rcases hdone with hnone | hge
        · rw [frameBytes_of_isNone hnone] at hin ⊢
          exact Nat.le_antisymm hin (Nat.zero_le _)
        · exact Nat.le_antisymm hin hge
      · exact .same
    generalize (if t.currentFrame.isNone ∨ t.readPosInFrame ≥ t.frameBytes.length then
      t.dequeueNextFrame else t) = next at hdequeued
    dsimp only
    split
    · exact .finish_of_ne hdequeued (shutdownErr_ne_eof next)
    · exact readsOn_awaitFrame hdequeued len bytesRead expired
  · exact .finish_of_ne .same (by simp)

theorem readsOn_wakeRead (len bytesRead : Nat) (expired : Bool) :
    ReadsOn t (t.wakeRead len bytesRead expired) := by
  rw [wakeRead]
  split
  · next hnone =>
    refine readsOn_awaitFrame (.next ?_) len bytesRead expired
    rw [frameBytes_of_isNone hnone] at hin ⊢
    exact Nat.le_antisymm hin (Nat.zero_le _)
  · exact readsOn_awaitFrame .same len bytesRead expired

theorem startRead_cases (len : Nat) (expired : Bool) :
    t.finRead = true ∧ t.startRead len expired = (t, .finish false (some .eof)) ∨
      t.finRead = false ∧ ReadsOn t (t.startRead len expired) := by
  rw [startRead]
  split
  · next hread => exact .inl ⟨hread, rfl⟩
  next hread =>
  refine .inr ⟨Bool.eq_false_iff.mpr hread, ?_⟩
  split
  · exact .finish .same fun _ => .inl rfl
  split
  · exact .finish .same fun _ => .inr rfl
  split
  · exact .finish_of_ne .same (shutdownErr_ne_eof t)
  · exact readsOn_continueRead hin len 0 expired

theorem finishCopy_cases (len bytesRead : Nat) (expired : Bool) :
    t.readPosInFrame = t.frameBytes.length ∧ t.currentFrameIsLast = true ∧
        t.finishCopy len bytesRead expired =
          ({ t with finRead := true }, .finish true (some .eof)) ∨
      ReadsOn t (t.finishCopy len bytesRead expired) := by
  rw [finishCopy]
  split
  · next hend => exact .inl ⟨Nat.le_antisymm hin hend.1, hend.2, rfl⟩
  · exact .inr (readsOn_continueRead hin len bytesRead expired)

end

theorem dequeueNextFrame_of_none (h : t.frameQueue.pop.data = none) :
    t.dequeueNextFrame.frameQueue = t.frameQueue ∧ t.dequeueNextFrame.frameBytes = [] ∧
      t.dequeueNextFrame.currentFrameIsLast = decide (t.frameQueue.readPos ≥ t.finalOffset) := by
  obtain ⟨hnone, hsorter⟩ := FrameSorter.lookup_eq_none_of_pop h
  have hoffset : t.frameQueue.pop.offset = t.frameQueue.readPos := by
    rw [FrameSorter.pop, hnone]
  refine ⟨hsorter, ?_, ?_⟩
  · simp only [dequeueNextFrame, frameBytes, h]
  · simp only [dequeueNextFrame, frameBytes, h, hoffset, List.length_nil, Nat.add_zero]

theorem dequeueNextFrame_of_some {data : Slice} (h : t.frameQueue.pop.data = some data) :
    ∃ entry, t.frameQueue.queue.lookup t.frameQueue.readPos = some entry ∧
      entry.data = data ∧ t.dequeueNextFrame.frameBytes = data.bytes ∧
      t.dequeueNextFrame.frameQueue =
        { t.frameQueue with
          queue := t.frameQueue.queue.erase t.frameQueue.readPos
          readPos := t.frameQueue.readPos + data.length } ∧
      t.dequeueNextFrame.currentFrameIsLast =
        decide (t.frameQueue.readPos + data.length ≥ t.finalOffset) := by
  obtain ⟨entry, hentry, hdata, hsorter⟩ := FrameSorter.lookup_of_pop h
  have hoffset : t.frameQueue.pop.offset = t.frameQueue.readPos := by
    rw [FrameSorter.pop, hentry]
  refine ⟨entry, hentry, hdata, ?_, hsorter, ?_⟩
  · simp only [dequeueNextFrame, frameBytes, h]
  · simp only [dequeueNextFrame, frameBytes, h, hoffset]
    rfl

theorem Positioned.dequeueNextFrame (h : t.Positioned)
    (hread : t.readPosInFrame = t.frameBytes.length) :
    t.dequeueNextFrame.Positioned := by
  have hoffset : t.readOffset = t.frameQueue.readPos := by
    have hpos := h.offset
    omega
  have hlast : ∀ n, n ≤ maxByteCount - 1 → n ≥ t.finalOffset →
      t.flowController.receivedFinalOffset = true := by
    intro n hn hge
    refine h.final fun hmax => ?_
    simp only [maxByteCount] at *
    omega
  cases hpop : t.frameQueue.pop.data with
  | none =>
    obtain ⟨hqueue, hbytes, hisLast⟩ := dequeueNextFrame_of_none hpop
    refine ⟨?_, ?_, ?_, ?_, ?_, h.credited, h.final, ?_, h.reset, h.read⟩
    · rw [hqueue]
      exact h.separated
    · rw [hqueue]
      exact h.below
    · rw [hqueue]
      exact h.received
    · exact Nat.zero_le _
    · rw [hqueue, hbytes]
      exact hoffset
    · intro hflag
      rw [hisLast, decide_eq_true_eq] at hflag
      exact hlast _ h.below.readPos hflag
  | some data =>
    obtain ⟨entry, hentry, rfl, hbytes, hqueue, hisLast⟩ := dequeueNextFrame_of_some hpop
    have hbelow := h.below.entries _ entry hentry
    refine ⟨?_, ?_, ?_, ?_, ?_, h.credited, h.final, ?_, h.reset, h.read⟩
    · rw [hqueue]
      exact h.separated
    · rw [hqueue]
      exact ⟨hbelow, h.below.entries.erase _⟩
    · rw [hqueue]
      exact ⟨h.received.entries _ entry hentry, h.received.entries.erase _⟩
    · exact Nat.zero_le _
    · rw [hqueue, hbytes]
      change t.readOffset + (entry.data.bytes.length - 0) = _
      rw [hoffset]
      rfl
    · intro hflag
      rw [hisLast, decide_eq_true_eq] at hflag
      exact hlast _ hbelow hflag

theorem Dequeued.positioned (hd : Dequeued t t') (h : t.Positioned) :
    t'.Positioned := by
  cases hd with
  | same => exact h
  | next hread => exact h.dequeueNextFrame hread

/-! ## What the handlers do -/

theorem updateHighestReceived_eq_ok {offset : Nat} {final : Bool}
    {result : ReceiveStream × ReceiveController}
    (h : t.updateHighestReceived connection offset final = .ok result) :
    ∃ flowController, t.flowController.Received connection offset final
        (flowController, result.2) ∧ result.1 = { t with flowController } := by
  rw [updateHighestReceived] at h
  split at h
  · cases h
  · next flowController connection' heq =>
    cases h
    exact ⟨flowController, StreamController.updateHighestReceived_received heq, rfl⟩

def received (t : ReceiveStream) (flowController : StreamController) (maxOffset : Nat)
    (final : Bool) : ReceiveStream :=
  { t with
    flowController
    finalOffset := if final then maxOffset else t.finalOffset }

inductive StreamHandled (t : ReceiveStream) (connection : ReceiveController)
    (frame : StreamFrame) (putBack : Callback) :
    (ReceiveStream × ReceiveController) × Bool → Prop where
  | canceled {flowController : StreamController} {connection' : ReceiveController}
      (hreceived : t.flowController.Received connection
        (frame.offset + frame.data.length) frame.finBit (flowController, connection'))
      (hcanceled : t.canceledRead = true) :
      StreamHandled t connection frame putBack
        ((t.received flowController (frame.offset + frame.data.length) frame.finBit,
          connection'), frame.finBit)
  | pushed {flowController : StreamController} {connection' : ReceiveController}
      (hreceived : t.flowController.Received connection
        (frame.offset + frame.data.length) frame.finBit (flowController, connection'))
      (hcanceled : t.canceledRead = false)
      (herror : (t.frameQueue.push ⟨frame.data, some putBack⟩ frame.offset
        (some putBack)).error = none) (released : List Callback) :
      StreamHandled t connection frame putBack
        (({ t.received flowController (frame.offset + frame.data.length)
              frame.finBit with
            frameQueue := (t.frameQueue.push ⟨frame.data, some putBack⟩ frame.offset
              (some putBack)).sorter
            released }, connection'), false)

theorem handleStreamFrame_handled {frame : StreamFrame} {putBack : Callback}
    {result : (ReceiveStream × ReceiveController) × Bool}
    (h : t.handleStreamFrame connection frame putBack = .ok result) :
    StreamHandled t connection frame putBack result := by
  obtain ⟨⟨updated, connection'⟩, hupdate, h⟩ := bind_eq_ok.mp h
  obtain ⟨flowController, hreceived, hupdated⟩ := updateHighestReceived_eq_ok hupdate
  subst hupdated
  have hfinal : (if frame.finBit then
        { t with flowController, finalOffset := frame.offset + frame.data.length }
      else { t with flowController }) =
      t.received flowController (frame.offset + frame.data.length) frame.finBit := by
    cases hfin : frame.finBit <;> simp [received]
  simp only [hfinal] at h
  split at h
  · next hcanceled =>
    cases h
    exact .canceled hreceived hcanceled
  · next hcanceled =>
    split at h
    · cases h
    · next herror =>
      cases h
      exact .pushed hreceived (Bool.eq_false_iff.mpr hcanceled) herror _

inductive ResetHandled (t : ReceiveStream) (connection : ReceiveController)
    (byteOffset : Nat) : (ReceiveStream × ReceiveController) × Bool → Prop where
  | ignored (hclosed : t.closedForShutdown = true) :
      ResetHandled t connection byteOffset ((t, connection), false)
  | duplicate {flowController : StreamController} {connection' : ReceiveController}
      (hreceived : t.flowController.Received connection byteOffset true
        (flowController, connection')) (hreset : t.resetRemotely = true) :
      ResetHandled t connection byteOffset
        ((t.received flowController byteOffset true, connection'), false)
  | reset {flowController : StreamController} {connection' : ReceiveController}
      (hreceived : t.flowController.Received connection byteOffset true
        (flowController, connection')) (hclosed : t.closedForShutdown = false)
      (hreset : t.resetRemotely = false) (err : Option ReadError) :
      ResetHandled t connection byteOffset
        (({ t.received flowController byteOffset true with
            resetRemotely := true, resetRemotelyErr := err }, connection'), true)

theorem handleResetStreamFrame_handled {byteOffset errorCode : Nat}
    {result : (ReceiveStream × ReceiveController) × Bool}
    (h : t.handleResetStreamFrame connection byteOffset errorCode = .ok result) :
    ResetHandled t connection byteOffset result := by
  rw [handleResetStreamFrame] at h
  split at h
  · next hclosed =>
    cases h
    exact .ignored hclosed
  next hclosed =>
  obtain ⟨⟨updated, connection'⟩, hupdate, h⟩ := bind_eq_ok.mp h
  obtain ⟨flowController, hreceived, hupdated⟩ := updateHighestReceived_eq_ok hupdate
  subst hupdated
  dsimp only at h
  split at h
  · next hreset =>
    cases h
    exact .duplicate hreceived hreset
  · next hreset =>
    cases h
    exact .reset hreceived (Bool.eq_false_iff.mpr hclosed) (Bool.eq_false_iff.mpr hreset) _

theorem Positioned.received_frame (h : t.Positioned) {flowController : StreamController}
    {offset : Nat} {final : Bool} (hreceived : t.flowController.Received connection offset
      final (flowController, connection')) :
    (t.received flowController offset final).Positioned := by
  have hflag := hreceived.receivedFinalOffset_eq
  have hmono : t.flowController.receivedFinalOffset = true →
      flowController.receivedFinalOffset = true := by
    intro hknown
    rw [hflag, hknown, Bool.true_or]
  refine ⟨h.separated, h.below, h.received.mono hreceived.le_highestReceived.1, h.inFrame,
    h.offset, hreceived.bytesRead_eq.1 ▸ h.credited, ?_, fun hl => hmono (h.last hl),
    fun hr => hmono (h.reset hr), fun hr => hmono (h.read hr)⟩
  intro hne
  cases final with
  | true =>
    change flowController.receivedFinalOffset = true
    rw [hflag, Bool.or_true]
  | false => exact hmono (h.final hne)

theorem StreamHandled.positioned {frame : StreamFrame} {putBack : Callback} {completed : Bool}
    (hhandled : StreamHandled t connection frame putBack ((t', connection'), completed))
    (h : t.Positioned) : t'.Positioned := by
  cases hhandled with
  | canceled hreceived => exact h.received_frame hreceived
  | pushed hreceived hcanceled herror =>
    have hnext := h.received_frame hreceived
    have hpush := FrameSorter.push_entries h.separated herror
    have hreadPos : (t.frameQueue.push ⟨frame.data, some putBack⟩ frame.offset
        (some putBack)).sorter.readPos = t.frameQueue.readPos := by
      rcases hpush with hsame | ⟨-, heq, -⟩
      · rw [hsame]
      · exact heq
    exact { hnext with
      separated := FrameSorter.separated_push h.separated ..
      below := h.below.push_below h.separated herror
      received := hnext.received.push h.separated hreceived.le_highestReceived.2 herror
      offset := hnext.offset.trans hreadPos.symm }

theorem ResetHandled.positioned {byteOffset : Nat} {completed : Bool}
    (hhandled : ResetHandled t connection byteOffset ((t', connection'), completed))
    (h : t.Positioned) : t'.Positioned := by
  cases hhandled with
  | ignored => exact h
  | duplicate hreceived => exact h.received_frame hreceived
  | reset hreceived =>
    obtain ⟨h₁, h₂, h₃, h₄, h₅, h₆, h₇, h₈, -, h₁₀⟩ := h.received_frame hreceived
    refine ⟨h₁, h₂, h₃, h₄, h₅, h₆, h₇, h₈, fun _ => ?_, h₁₀⟩
    exact hreceived.receivedFinalOffset_eq.trans (Bool.or_true _)

theorem length_copyBytes_le (t : ReceiveStream) (room : Nat) :
    (t.copyBytes room).length ≤ t.frameBytes.length - t.readPosInFrame := by
  rw [copyBytes, List.length_take, List.length_drop]
  exact Nat.min_le_right ..

theorem Positioned.le_highestReceived (h : t.Positioned) {m : Nat}
    (hm : m ≤ t.frameBytes.length - t.readPosInFrame) :
    t.flowController.bytesRead + m ≤ t.flowController.highestReceived := by
  have hcredited := h.credited
  have hoffset := h.offset
  have hreceived := h.received.readPos
  omega

theorem Positioned.advance (h : t.Positioned) {m : Nat}
    (hm : m ≤ t.frameBytes.length - t.readPosInFrame) : (t.advance m).Positioned := by
  have hin := h.inFrame
  have hoffset := h.offset
  refine { h with inFrame := ?_, offset := ?_, credited := ?_ }
  · change t.readPosInFrame + m ≤ t.frameBytes.length
    omega
  · change t.readOffset + m + (t.frameBytes.length - (t.readPosInFrame + m)) =
      t.frameQueue.readPos
    omega
  · exact Nat.le_trans h.credited (Nat.le_add_right ..)

end ReceiveStream

/-! ## The receiving half and its callers -/

structure ReadCall where
  len : Nat
  copied : List UInt8
  copying : Bool
  deriving DecidableEq, Repr

/--
The stream with the calls that are in progress: the `Read` of the application, and the
calls of `streamCompleted`, which know `finRead` once they have looked it up.
`completed` counts the calls of `onStreamCompleted`, `abandoned` are the credits of
`Abandon`, and `results` are what `Read` has returned.
-/
structure ReceiveHalf where
  stream : ReceiveStream
  call : Option ReadCall
  completing : List (Option Bool)
  completed : Nat
  abandoned : List Nat
  results : List (List UInt8 × Option ReadError)

inductive HalfEvent where
  | handleStreamFrame (frame : StreamFrame) (putBack : Callback)
  | handleResetStreamFrame (byteOffset errorCode : Nat)
  | cancelRead (errorCode : Nat)
  | closeForShutdown (err : Option StreamError)
  | startRead (len : Nat) (expired : Bool)
  | wakeRead (expired : Bool)
  | finishCopy (expired : Bool)
  | streamCompleted (index : Nat)
  | onStreamCompleted (index : Nat)
  | getWindowUpdate (timing : Timing)

namespace ReceiveHalf

def new (streamID : StreamID) (receiveWindow maxReceiveWindow : Nat) :
    ReceiveHalf where
  stream := .new streamID (.new streamID receiveWindow maxReceiveWindow)
  call := none
  completing := []
  completed := 0
  abandoned := []
  results := []

def update (h : ReceiveHalf) (t : ReceiveStream) (completed : Bool) : ReceiveHalf :=
  { h with
    stream := t
    completing := if completed then h.completing ++ [none] else h.completing }

def act (h : ReceiveHalf) (t : ReceiveStream) (len : Nat) (copied : List UInt8) :
    ReadAction → ReceiveHalf
  | .finish completed err =>
    { h.update t completed with
      call := none
      results := h.results ++ [(copied, err)] }
  | .wait => { h with stream := t, call := some ⟨len, copied, false⟩ }
  | .copy => { h with stream := t, call := some ⟨len, copied, true⟩ }

def complete (h : ReceiveHalf) (connection : ReceiveController) (index : Nat)
    (finRead : Bool) : ReceiveHalf × ReceiveController :=
  let h := { h with
    completing := h.completing.eraseIdx index
    completed := h.completed + 1 }
  if finRead then (h, connection)
  else
    let c := h.stream.flowController
    ({ h with abandoned := h.abandoned ++ [sub64 c.highestReceived c.bytesRead] },
      c.abandon connection)

/-- One step of the half.  A step of a call that is not in progress does nothing. -/
def step (convert : Nat → Nat) (h : ReceiveHalf) (connection : ReceiveController) :
    HalfEvent → Except ReceiveError (ReceiveHalf × ReceiveController)
  | .handleStreamFrame frame putBack => do
    let ((t, connection), completed) ←
      h.stream.handleStreamFrame connection frame putBack
    return (h.update t completed, connection)
  | .handleResetStreamFrame byteOffset errorCode => do
    let ((t, connection), completed) ←
      h.stream.handleResetStreamFrame connection byteOffset errorCode
    return (h.update t completed, connection)
  | .cancelRead errorCode =>
    let (t, completed, _) := h.stream.cancelRead errorCode
    .ok (h.update t completed, connection)
  | .closeForShutdown err =>
    .ok ({ h with stream := h.stream.closeForShutdown err }, connection)
  | .startRead len expired =>
    match h.call with
    | some _ => .ok (h, connection)
    | none =>
      let (t, action) := h.stream.startRead len expired
      .ok (h.act t len [] action, connection)
  | .wakeRead expired =>
    match h.call with
    | some ⟨len, copied, false⟩ =>
      let (t, action) := h.stream.wakeRead len copied.length expired
      .ok (h.act t len copied action, connection)
    | _ => .ok (h, connection)
  | .finishCopy expired =>
    match h.call with
    | some ⟨len, copied, true⟩ =>
      let bytes := h.stream.copyBytes (len - copied.length)
      let copied := copied ++ bytes
      let (t, connection) :=
        (h.stream.advance bytes.length).addBytesRead connection bytes.length
      let (t, action) := t.finishCopy len copied.length expired
      .ok (h.act t len copied action, connection)
    | _ => .ok (h, connection)
  | .streamCompleted index =>
    match h.completing[index]? with
    | some none => .ok ({ h with
        completing := h.completing.set index (some h.stream.finRead) }, connection)
    | _ => .ok (h, connection)
  | .onStreamCompleted index =>
    match h.completing[index]? with
    | some (some finRead) => .ok (h.complete connection index finRead)
    | _ => .ok (h, connection)
  | .getWindowUpdate timing =>
    let update :=
      h.stream.flowController.getWindowUpdate convert connection timing
    .ok ({ h with stream := { h.stream with flowController := update.1.1 } },
      update.1.2)

end ReceiveHalf

end Qperf.Quic
