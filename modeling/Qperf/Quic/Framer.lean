import Qperf.Foundation.Rounding
import Qperf.Quic.SendStream
import Mathlib.Data.Finset.Basic

/-!
# The framer and its send streams

`AppendStreamFrames` fills a packet.  Every stream it serves gets an equal share
of the packet, at most `StreamMultiplexLimit` streams are served, and a stream
that reports more data goes to the end of the queue.
-/

namespace Qperf.Quic

open Qperf.Foundation

structure Framer where
  activeStreams : Finset StreamID
  streamQueue : List StreamID
  controlFrames : List ControlFrame

namespace Framer

def new : Framer := ⟨∅, [], []⟩

def queueControlFrames (f : Framer) (frames : List ControlFrame) : Framer :=
  { f with controlFrames := f.controlFrames ++ frames }

def addActiveStream (f : Framer) (id : StreamID) : Framer :=
  if id ∈ f.activeStreams then f
  else
    { f with
      streamQueue := f.streamQueue ++ [id]
      activeStreams := insert id f.activeStreams }

def putBack (f : Framer) (id : StreamID) (hasMoreData : Bool) : Framer :=
  if hasMoreData then { f with streamQueue := f.streamQueue ++ [id] }
  else { f with activeStreams := f.activeStreams.erase id }

end Framer

/--
The framer, the send streams of the connection and its flow controller.  Streams
that the session has deleted are kept, but the stream getter does not return them.
-/
structure Connection where
  framer : Framer
  streams : StreamID → Option SendStream
  deleted : Finset StreamID
  flowController : SendController

namespace Connection

def new (initialSendWindow : Nat) : Connection where
  framer := .new
  streams := fun _ => none
  deleted := ∅
  flowController := .new initialSendWindow

def getOrOpenSendStream (c : Connection) (id : StreamID) : Option SendStream :=
  if id ∈ c.deleted then none else c.streams id

def setStream (c : Connection) (id : StreamID) (s : SendStream) : Connection :=
  { c with streams := Function.update c.streams id (some s) }

variable {c : Connection} {id : StreamID} {s : SendStream}

@[simp]
theorem streams_setStream_self (c : Connection) (id : StreamID)
    (s : SendStream) : (c.setStream id s).streams id = some s :=
  Function.update_self ..

theorem streams_setStream_of_ne {other : StreamID} (h : other ≠ id) :
    (c.setStream id s).streams other = c.streams other :=
  Function.update_of_ne h ..

theorem streams_of_getOrOpenSendStream
    (h : c.getOrOpenSendStream id = some s) : c.streams id = some s := by
  rw [getOrOpenSendStream] at h
  split at h
  · cases h
  · exact h

/-! ## Filling a packet -/

/--
The bytes of the packet for one stream.  The quotient is a `float32`; Go leaves
open what the conversion to `int32` yields for a value that is out of range.
-/
def maxLengthPerRound (convert : Nat → Int32) (maxLen numActiveStreams : Nat)
    (limit : Int) : Int32 :=
  let streams :=
    if (numActiveStreams : Int) > limit then limit.toNat else numActiveStreams
  let quotient := truncQuotient 24 128 (roundTo 24 maxLen) (roundTo 24 streams)
  if quotient < 2 ^ 31 then Int32.ofNat quotient else convert quotient

def byteCount (n : Int32) : Nat := n.toInt64.toUInt64.toNat

def remainingLen (share : Int32) (available : Nat) : Nat :=
  if Int32.ofNat available > share then byteCount share else available

structure Packet where
  frames : List StreamFrame
  length : Nat
  multiplexedStreams : Nat

def afterPop (c : Connection) (id : StreamID) (popped : SendStream.Popped) :
    Connection :=
  { c.setStream id popped.stream with
    flowController := popped.connection
    framer := (c.framer.putBack id popped.hasMoreData).queueControlFrames
      popped.controlFrames }

def serve (c : Connection) (packet : Packet) (id : StreamID) (s : SendStream)
    (share : Int32) (maxLen : Nat) : Except GoPanic (Connection × Packet) := do
  let remaining := remainingLen share (maxLen - packet.length)
  let lenLen ← varIntLen remaining
  let popped ← s.popStreamFrame c.flowController (remaining + lenLen)
  match popped.frame with
  | none => return (c.afterPop id popped, { packet with
      multiplexedStreams := packet.multiplexedStreams + 1 })
  | some frame =>
    let length ← frame.length
    return (c.afterPop id popped, {
      frames := packet.frames ++ [frame]
      length := packet.length + length
      multiplexedStreams := packet.multiplexedStreams + 1 })

def appendLoop (share : Int32) (maxLen : Nat) (limit : Int) :
    Nat → Connection → Packet → Except GoPanic (Connection × Packet)
  | 0, c, packet => .ok (c, packet)
  | turns + 1, c, packet =>
    if limit ≤ packet.multiplexedStreams then .ok (c, packet)
    else if minStreamFrameSize + packet.length > maxLen then .ok (c, packet)
    else
      match c.framer.streamQueue with
      | [] => .error .indexOutOfRange
      | id :: queue => do
        let c := { c with framer := { c.framer with streamQueue := queue } }
        match c.getOrOpenSendStream id with
        | none =>
          -- The stream completed after it said it had data.
          let c := { c with framer := c.framer.putBack id false }
          appendLoop share maxLen limit turns c packet
        | some s =>
          let (c, packet) ← c.serve packet id s share maxLen
          appendLoop share maxLen limit turns c packet

/-- The last frame does not need its length field. -/
def finishPacket (packet : Packet) : Except GoPanic (List StreamFrame × Nat) :=
  match packet.frames.getLast? with
  | none => .ok (packet.frames, packet.length)
  | some lastFrame => do
    let lastFrameLen ← lastFrame.length
    let shortened := { lastFrame with dataLenPresent := false }
    let shortenedLen ← shortened.length
    return (packet.frames.dropLast ++ [shortened],
      packet.length + shortenedLen - lastFrameLen)

def appendStreamFrames (c : Connection) (convert : Nat → Int32) (maxLen : Nat)
    (limit : Int) : Except GoPanic (Connection × List StreamFrame × Nat) := do
  let numActiveStreams := c.framer.streamQueue.length
  let share := maxLengthPerRound convert maxLen numActiveStreams limit
  let (c, packet) ←
    appendLoop share maxLen limit numActiveStreams c ⟨[], 0, 0⟩
  let (frames, length) ← finishPacket packet
  return (c, frames, length)

/-! ## Operations -/

def settle (c : Connection) (id : StreamID) (outcome : Outcome) : Connection :=
  let framer := c.framer.queueControlFrames outcome.controlFrames
  { c.setStream id outcome.stream with
    framer := if outcome.onHasStreamData then framer.addActiveStream id
      else framer }

end Connection

inductive StreamOperation where
  | write (p : List UInt8)
  | writeDeadlineExceeded
  | close
  | cancelWrite (errorCode : Nat)
  | handleStopSendingFrame (errorCode : Nat)
  | closeForShutdown (err : Option StreamError)
  | handleMaxStreamDataFrame (byteOffset : Nat)
  | frameAcked
  | frameLost (f : StreamFrame)

def SendStream.perform (s : SendStream) : StreamOperation → Except GoPanic Outcome
  | .write p => .ok (s.write p)
  | .writeDeadlineExceeded => .ok s.writeDeadlineExceeded
  | .close => .ok s.close
  | .cancelWrite errorCode => .ok (s.cancelWrite errorCode)
  | .handleStopSendingFrame errorCode => .ok (s.handleStopSendingFrame errorCode)
  | .closeForShutdown err => .ok (s.closeForShutdown err)
  | .handleMaxStreamDataFrame byteOffset =>
    .ok (s.handleMaxStreamDataFrame byteOffset)
  | .frameAcked => s.frameAcked
  | .frameLost f => s.queueRetransmission f

inductive Operation where
  | openStream (id : StreamID) (initialSendWindow : Nat)
  | onStream (id : StreamID) (operation : StreamOperation)
  | addActiveStream (id : StreamID)
  | handleMaxDataFrame (byteOffset : Nat)
  | deleteStream (id : StreamID)
  | appendStreamFrames (maxLen : Nat) (limit : Int)

/--
One operation.  An operation on a stream that does not exist does nothing, and
the session deletes only streams whose sending half has completed.
-/
def Connection.run (convert : Nat → Int32) (c : Connection) :
    Operation → Except GoPanic Connection
  | .openStream id initialSendWindow =>
    match c.streams id with
    | none => .ok (c.setStream id (.new id initialSendWindow))
    | some _ => .ok c
  | .onStream id operation =>
    match c.streams id with
    | none => .ok c
    | some s => do
      let outcome ← s.perform operation
      return c.settle id outcome
  | .addActiveStream id =>
    .ok { c with framer := c.framer.addActiveStream id }
  | .handleMaxDataFrame byteOffset =>
    .ok { c with
      flowController := c.flowController.updateSendWindow byteOffset }
  | .deleteStream id =>
    match c.streams id with
    | none => .ok c
    | some s =>
      if s.completed then .ok { c with deleted := insert id c.deleted }
      else .ok c
  | .appendStreamFrames maxLen limit => do
    let (c, _) ← c.appendStreamFrames convert maxLen limit
    return c

end Qperf.Quic
