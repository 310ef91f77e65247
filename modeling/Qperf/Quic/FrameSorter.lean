import Mathlib.Data.List.AList
import Mathlib.Tactic.Ring

/-!
# The frame sorter

`frameSorter` puts the data of received frames into order.  Its queue maps offsets
to data, and its gaps are the intervals that have not been received yet.  Every
entry has a callback that releases the buffer of its data.  `calls` are the
callbacks that the sorter has invoked, in their order.
-/

namespace Qperf.Quic

def maxByteCount : Nat := 2 ^ 62 - 1
def maxStreamFrameSorterGaps : Nat := 1000
def minStreamFrameBufferSize : Nat := 128

/-- The positions from `start` to `stop`, which is `End` in the source. -/
structure ByteInterval where
  start : Nat
  stop : Nat
  deriving DecidableEq, Repr

abbrev Callback := Nat

/-- Bytes, and the buffer they are a slice of unless the sorter copied them. -/
structure Slice where
  bytes : List UInt8
  buffer : Option Callback
  deriving DecidableEq, Repr

namespace Slice

def length (data : Slice) : Nat := data.bytes.length

def drop (data : Slice) (n : Nat) : Slice :=
  { data with bytes := data.bytes.drop n }

def take (data : Slice) (n : Nat) : Slice :=
  { data with bytes := data.bytes.take n }

def copy (data : Slice) : Slice := { data with buffer := none }

end Slice

structure FrameSorterEntry where
  data : Slice
  doneCb : Option Callback
  deriving DecidableEq, Repr

abbrev SorterQueue := AList (fun _ : Nat => FrameSorterEntry)

structure FrameSorter where
  queue : SorterQueue
  readPos : Nat
  gaps : List ByteInterval

inductive SorterError where
  | duplicateStreamData
  | noGapFound
  | noEndGapFound
  | tooManyGaps
  deriving DecidableEq, Repr

structure Pushed where
  sorter : FrameSorter
  calls : List Callback
  error : Option SorterError

namespace FrameSorter

def new : FrameSorter where
  queue := ∅
  readPos := 0
  gaps := [⟨0, maxByteCount⟩]

@[simp]
theorem lookup_new (offset : Nat) : FrameSorter.new.queue.lookup offset = none :=
  AList.lookup_empty ..

/-! ## Push -/

/--
The queue after the check for an entry at the same offset.  A shorter entry is
replaced, and the result is empty if the entry is not shorter.
-/
def replaceShorter (queue : SorterQueue) (data : Slice) (offset : Nat)
    (doneCb : Option Callback) : Option (SorterQueue × List Callback) :=
  match queue.lookup offset with
  | none => some (queue, [])
  | some old =>
    if data.length ≤ old.data.length then none
    else some (queue.insert offset ⟨data, doneCb⟩, old.doneCb.toList)

inductive Search where
  | duplicate
  | noGap
  | found (before : List ByteInterval) (gap : ByteInterval)
      (after : List ByteInterval)

def skipGaps (start stop : Nat) : List ByteInterval → Search
  | [] => .noGap
  | gap :: after =>
    if stop ≤ gap.start then .duplicate
    else if start ≤ gap.stop then .found [] gap after
    else
      match skipGaps start stop after with
      | .found before found rest => .found (gap :: before) found rest
      | .duplicate => .duplicate
      | .noGap => .noGap

/--
Where the loop over the end gaps stands: the current gap, whether it is the gap
that was found first, whether it is in the list of gaps, and the gaps behind it.
-/
structure EndGap where
  endGap : ByteInterval
  isGap : Bool
  inList : Bool
  rest : List ByteInterval
  queue : SorterQueue
  calls : List Callback

def deleteCovered (offset : Nat) (queue : SorterQueue) (calls : List Callback)
    (position : Nat) : SorterQueue × List Callback :=
  if position ≠ offset then
    (queue.erase position, calls ++ ((queue.lookup position).bind (·.doneCb)).toList)
  else (queue, calls)

/--
Finds the highest gap whose start lies before the end of the frame.  The gaps on
the way are removed from the list, except for the first one.
-/
def seekEndGap (offset stop : Nat) (endGap : ByteInterval) (isGap : Bool)
    (queue : SorterQueue) (calls : List Callback) :
    List ByteInterval → Except EndGap EndGap
  | [] =>
    if stop < endGap.stop then .ok ⟨endGap, isGap, true, [], queue, calls⟩
    else .error ⟨endGap, isGap, true, [], queue, calls⟩
  | next :: rest =>
    if stop < endGap.stop then
      .ok ⟨endGap, isGap, true, next :: rest, queue, calls⟩
    else if stop < next.start then
      .ok ⟨endGap, isGap, isGap, next :: rest, queue, calls⟩
    else
      let (queue, calls) := deleteCovered offset queue calls endGap.stop
      seekEndGap offset stop next false queue calls rest

def EndGap.list (e : EndGap) (gap : ByteInterval) : List ByteInterval :=
  if e.isGap then gap :: e.rest
  else if e.inList then gap :: e.endGap :: e.rest
  else gap :: e.rest

def adjustGaps (start stop : Nat) (gap : ByteInterval) (e : EndGap) :
    List ByteInterval :=
  if start = gap.start then
    let shrunk := if stop < e.endGap.stop then { e.endGap with start := stop }
      else e.endGap
    if e.isGap then
      if stop ≥ gap.stop then e.rest else shrunk :: e.rest
    else
      (if stop ≥ gap.stop then [] else [gap]) ++
        if e.inList then shrunk :: e.rest else e.rest
  else if stop = e.endGap.stop then
    EndGap.list e { gap with stop := start }
  else if e.isGap then
    { gap with stop := start } :: ⟨stop, gap.stop⟩ :: e.rest
  else
    EndGap.list { e with endGap := { e.endGap with start := stop } }
      { gap with stop := start }

def insertFrame (s : FrameSorter) (data : Slice) (offset : Nat)
    (doneCb : Option Callback) (wasCut : Bool) (calls : List Callback) :
    Pushed :=
  if s.gaps.length > maxStreamFrameSorterGaps then ⟨s, calls, some .tooManyGaps⟩
  else if wasCut && decide (data.length < minStreamFrameBufferSize) then
    ⟨{ s with queue := s.queue.insert offset ⟨data.copy, none⟩ },
      calls ++ doneCb.toList, none⟩
  else ⟨{ s with queue := s.queue.insert offset ⟨data, doneCb⟩ }, calls, none⟩

/-- The part of `push` after a gap was found. -/
def fillGap (s : FrameSorter) (data : Slice) (offset : Nat)
    (doneCb : Option Callback) (calls : List Callback)
    (before : List ByteInterval) (gap : ByteInterval)
    (after : List ByteInterval) : Pushed :=
  let stop := offset + data.length
  let cutFront := decide (offset < gap.start)
  let (start, data) :=
    if offset < gap.start then (gap.start, data.drop (gap.start - offset))
    else (offset, data)
  match seekEndGap start stop gap true s.queue calls after with
  | .error e =>
    ⟨{ s with queue := e.queue, gaps := before ++ e.list gap }, e.calls,
      some .noEndGapFound⟩
  | .ok e =>
    let cutBack := decide (stop > e.endGap.stop)
    let (stop, data) :=
      if stop > e.endGap.stop then
        (e.endGap.stop, data.take (data.length - (stop - e.endGap.stop)))
      else (stop, data)
    insertFrame
      { s with queue := e.queue, gaps := before ++ adjustGaps start stop gap e }
      data start doneCb (cutFront || cutBack) e.calls

/-- The unexported `push` of the source. -/
def push' (s : FrameSorter) (data : Slice) (offset : Nat)
    (doneCb : Option Callback) : Pushed :=
  if data.length = 0 then ⟨s, [], some .duplicateStreamData⟩
  else
    match replaceShorter s.queue data offset doneCb with
    | none => ⟨s, [], some .duplicateStreamData⟩
    | some (queue, calls) =>
      match skipGaps offset (offset + data.length) s.gaps with
      | .duplicate => ⟨{ s with queue }, calls, some .duplicateStreamData⟩
      | .noGap => ⟨{ s with queue }, calls, some .noGapFound⟩
      | .found before gap after =>
        fillGap { s with queue } data offset doneCb calls before gap after

def push (s : FrameSorter) (data : Slice) (offset : Nat)
    (doneCb : Option Callback) : Pushed :=
  let pushed := s.push' data offset doneCb
  if pushed.error = some .duplicateStreamData then
    ⟨pushed.sorter, pushed.calls ++ doneCb.toList, none⟩
  else pushed

/-! ## Pop -/

structure PopResult where
  offset : Nat
  data : Option Slice
  doneCb : Option Callback
  sorter : FrameSorter

def pop (s : FrameSorter) : PopResult :=
  match s.queue.lookup s.readPos with
  | none => ⟨s.readPos, none, none, s⟩
  | some entry =>
    ⟨s.readPos, some entry.data, entry.doneCb, { s with
        queue := s.queue.erase s.readPos
        readPos := s.readPos + entry.data.length }⟩

theorem gaps_pop (s : FrameSorter) : s.pop.sorter.gaps = s.gaps := by
  unfold pop
  split <;> rfl

def hasMoreData (s : FrameSorter) : Bool := !s.queue.entries.isEmpty

end FrameSorter

end Qperf.Quic
