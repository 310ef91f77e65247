import Qperf.Foundation.Loops
import Qperf.Client.Blocks
import Mathlib.Data.List.FinRange
import Mathlib.Logic.Function.Basic

/-!
# The dynamic FCFS scheduler of the Go client

The scheduler keeps pointers to the control blocks in five queues.  A block is
referred to by its position in the block slice.  `OnStreamFinished` walks over
the slice and enqueues every block whose dependencies are finished.
-/

namespace Qperf.Client

open Qperf.Foundation

variable {n : Nat}

inductive GoPanic where
  | indexOutOfRange
  deriving DecidableEq, Repr

/-! ## The queues -/

abbrev SyncFifoQueue (n : Nat) := List (Fin n)

def SyncFifoQueue.put (queue : SyncFifoQueue n) (block : Fin n) : SyncFifoQueue n :=
  queue ++ [block]

def SyncFifoQueue.get : SyncFifoQueue n → Option (Fin n) × SyncFifoQueue n
  | [] => (none, [])
  | object :: queue => (some object, queue)

structure DomainQueueBlock (n : Nat) where
  highestPriorityQueue : SyncFifoQueue n := []
  highPriorityQueue : SyncFifoQueue n := []
  normalPriorityQueue : SyncFifoQueue n := []
  lowPriorityQueue : SyncFifoQueue n := []
  lowestPriorityQueue : SyncFifoQueue n := []
  deriving DecidableEq

/--
The scheduler and the blocks it points to.  `enqueueLog` is a history variable:
the blocks passed to `enqueue`, each with the statuses of all blocks at the time
of the call.
-/
structure DynamicFcfsScheduler (n : Nat) where
  locked : Bool
  firstImageResourceId : UInt16
  controlBlockSlice : Fin n → StreamControlBlock
  queues : DomainQueueBlock n
  enqueueLog : List (Fin n × (Fin n → StreamStatus))

def DynamicFcfsScheduler.status (s : DynamicFcfsScheduler n) (i : Fin n) :
    StreamStatus :=
  (s.controlBlockSlice i).status

def DynamicFcfsScheduler.setBlock (s : DynamicFcfsScheduler n) (i : Fin n)
    (block : StreamControlBlock) : DynamicFcfsScheduler n :=
  { s with
    controlBlockSlice := Function.update s.controlBlockSlice i block }

@[simp] theorem controlBlockSlice_setBlock_self (s : DynamicFcfsScheduler n)
    (i : Fin n) (block : StreamControlBlock) :
    (s.setBlock i block).controlBlockSlice i = block :=
  Function.update_self ..

@[simp] theorem controlBlockSlice_setBlock_of_ne
    (s : DynamicFcfsScheduler n) {i j : Fin n} (block : StreamControlBlock)
    (h : j ≠ i) :
    (s.setBlock i block).controlBlockSlice j = s.controlBlockSlice j :=
  Function.update_of_ne h ..

@[simp] theorem enqueueLog_setBlock (s : DynamicFcfsScheduler n) (i : Fin n)
    (block : StreamControlBlock) :
    (s.setBlock i block).enqueueLog = s.enqueueLog := rfl

theorem status_setBlock (s : DynamicFcfsScheduler n) (i : Fin n)
    (block : StreamControlBlock) (j : Fin n) :
    (s.setBlock i block).status j = if j = i then block.status else s.status j := by
  rw [DynamicFcfsScheduler.status]
  split
  · rename_i h
    rw [h, controlBlockSlice_setBlock_self]
  · rename_i h
    rw [controlBlockSlice_setBlock_of_ne _ _ h]
    rfl

def newDynamicFcfsScheduler (firstImageResourceId : UInt16)
    (controlBlockSlice : Fin n → StreamControlBlock) :
    DynamicFcfsScheduler n where
  locked := false
  firstImageResourceId := firstImageResourceId
  controlBlockSlice := controlBlockSlice
  queues := {}
  enqueueLog := []

/-! ## Enqueueing -/

def scriptAfterFirstImage (resourceId firstImageResourceId : UInt16) : Bool :=
  resourceId < firstImageResourceId

def selectQueue (firstImageResourceId : UInt16) (block : StreamControlBlock)
    (queues : DomainQueueBlock n) (i : Fin n) : DomainQueueBlock n :=
  if block.resourceType = "document" then
    { queues with highestPriorityQueue := queues.highestPriorityQueue.put i }
  else if block.resourceType = "stylesheet" then
    { queues with highestPriorityQueue := queues.highestPriorityQueue.put i }
  else if block.resourceType = "xhr" then
    { queues with highPriorityQueue := queues.highPriorityQueue.put i }
  else if block.resourceType = "script" then
    if scriptAfterFirstImage block.resourceId firstImageResourceId then
      { queues with normalPriorityQueue := queues.normalPriorityQueue.put i }
    else
      { queues with highPriorityQueue := queues.highPriorityQueue.put i }
  else if block.resourceType = "image" then
    { queues with lowPriorityQueue := queues.lowPriorityQueue.put i }
  else if block.resourceType = "other" then
    { queues with lowPriorityQueue := queues.lowPriorityQueue.put i }
  else
    { queues with lowestPriorityQueue := queues.lowestPriorityQueue.put i }

def enqueue (s : DynamicFcfsScheduler n) (i : Fin n) : DynamicFcfsScheduler n :=
  { s with
    queues := selectQueue s.firstImageResourceId (s.controlBlockSlice i) s.queues i
    enqueueLog := s.enqueueLog ++ [(i, s.status)] }

def readStatus (slice : Fin n → StreamControlBlock) (dep : Int) :
    Except GoPanic StreamStatus :=
  if h : 0 ≤ dep ∧ dep < n then
    .ok (slice ⟨dep.toNat, by omega⟩).status
  else .error .indexOutOfRange

def dependenciesMet (slice : Fin n → StreamControlBlock) :
    List Int → Except GoPanic Bool
  | [] => .ok true
  | dep :: dependencies => do
    let status ← readStatus slice dep
    if status ≠ .finished then .ok false
    else dependenciesMet slice dependencies

def StreamControlBlock.markEnqueued (block : StreamControlBlock)
    (now : Int64) : StreamControlBlock :=
  { block with status := .enqueued, enqueuedAt := now }

section OnStreamFinished

variable (now : Fin n → Int64)

/-- One turn of the loop of `OnStreamFinished`. -/
def releaseBlock (s : DynamicFcfsScheduler n) (i : Fin n) :
    Except GoPanic (DynamicFcfsScheduler n) :=
  if s.status i = .unavailable then do
    let met ← dependenciesMet s.controlBlockSlice
      (s.controlBlockSlice i).dependencies
    if met then
      let block := (s.controlBlockSlice i).markEnqueued (now i)
      .ok (enqueue (s.setBlock i block) i)
    else .ok s
  else .ok s

def onStreamFinished (s : DynamicFcfsScheduler n) :
    Except GoPanic (DynamicFcfsScheduler n) :=
  (List.finRange n).foldlM (releaseBlock now) s

end OnStreamFinished

end Qperf.Client
