import Qperf.HarConverter.Model
import Mathlib.Data.List.Sort
import Mathlib.Data.List.FinRange
import Mathlib.Logic.Function.Basic

/-!
# The packet schedulers

An object of `filtered_entries` is referred to by its position, and the active
queue is a list of such references, so that a scheduler that changes a stream
it took from the queue changes the entry itself.
-/

namespace Qperf.HarConverter

open Qperf.Foundation

variable {n : Nat}

abbrev Entries (n : Nat) := Fin n → Entry

structure Composition (n : Nat) where
  recipe : List Frame
  filteredEntries : Entries n
  activeStreamQueue : List (Fin n)

/--
The `while` loop that both implemented schedulers run over the active queue.
A stream that does not fit is put back at the tail; `bytes_added` has then
reached `DATA_BLOCK_SIZE` and the loop test fails.
-/
def fillPacket (packetNumber : Nat) (entries : Entries n) :
    List (Fin n) → Int → Except PyError (Composition n)
  | [], _ => .ok ⟨[], entries, []⟩
  | i :: queue, bytesAdded =>
    if bytesAdded < dataBlockSize then
      let maxDataLen := dataBlockSize - bytesAdded
      let stream := entries i
      let remainingDataLen := stream.remainingSize
      if remainingDataLen > maxDataLen then do
        let remainingSize ← floatSub stream.remainingSize maxDataLen
        let served := { stream with remainingSize := remainingSize }
        .ok ⟨[⟨stream.resourceId, maxDataLen, false⟩],
          Function.update entries i (served.markStarted packetNumber),
          queue ++ [i]⟩
      else do
        let served := { stream with
          remainingSize := stream.remainingSize - remainingDataLen }
        let rest ← fillPacket packetNumber
          (Function.update entries i (served.markStarted packetNumber))
          queue (bytesAdded + remainingDataLen)
        .ok { rest with
          recipe := ⟨stream.resourceId, remainingDataLen, true⟩ :: rest.recipe }
    else .ok ⟨[], entries, i :: queue⟩

def naiveRoundRobinScheduler (packetNumber : Nat) (entries : Entries n)
    (activeStreamQueue : List (Fin n)) : Except PyError (Composition n) :=
  fillPacket packetNumber entries activeStreamQueue 0

def weightedRoundRobinScheduler (entries : Entries n)
    (activeStreamQueue : List (Fin n)) : Except PyError (Composition n) :=
  .ok ⟨[], entries, activeStreamQueue⟩

/-! ## The dynamic queue -/

/-- Comparing `None` with a number raises; one element is never compared. -/
def sortByStartTime (entries : Entries n) (tmpList : List (Fin n)) :
    Except PyError (List (Fin n)) :=
  if 2 ≤ tmpList.length ∧ tmpList.any (fun i => (entries i).enqueuedAt.isNone) then
    .error .typeError
  else .ok (tmpList.insertionSort fun i j =>
    (entries i).enqueuedAt.getD 0 ≤ (entries j).enqueuedAt.getD 0)

structure PriorityLists (n : Nat) where
  highestPriorityList : List (Fin n) := []
  highPriorityList : List (Fin n) := []
  normalPriorityList : List (Fin n) := []
  lowPriorityList : List (Fin n) := []
  lowestPriorityList : List (Fin n) := []
  firstImage : Int := -1

def classifyStream (entries : Entries n) (lists : PriorityLists n)
    (i : Fin n) : PriorityLists n :=
  let resourceType := (entries i).resourceType
  if resourceType = "document" ∨ resourceType = "stylesheet" ∨
      resourceType = "font" then
    { lists with highestPriorityList := lists.highestPriorityList ++ [i] }
  else if resourceType = "script" then
    if lists.firstImage = -1 then
      { lists with
        highPriorityList := lists.highPriorityList ++ [i]
        firstImage := (entries i).resourceId }
    else
      { lists with normalPriorityList := lists.normalPriorityList ++ [i] }
  else if resourceType = "xhr" then
    { lists with highPriorityList := lists.highPriorityList ++ [i] }
  else if resourceType = "image" then
    { lists with lowPriorityList := lists.lowPriorityList ++ [i] }
  else
    { lists with lowestPriorityList := lists.lowestPriorityList ++ [i] }

def classifyStreams (entries : Entries n) (queueCopy : List (Fin n)) :
    PriorityLists n :=
  queueCopy.foldl (classifyStream entries) {}

def replaceWithDynamicQueue (entries : Entries n)
    (activeStreamQueue : List (Fin n)) : Except PyError (List (Fin n)) := do
  let lists := classifyStreams entries activeStreamQueue
  let highestPriorityList ← sortByStartTime entries lists.highestPriorityList
  let highPriorityList ← sortByStartTime entries lists.highPriorityList
  let normalPriorityList ← sortByStartTime entries lists.normalPriorityList
  let lowPriorityList ← sortByStartTime entries lists.lowPriorityList
  let lowestPriorityList ← sortByStartTime entries lists.lowestPriorityList
  .ok (highestPriorityList ++ highPriorityList ++ normalPriorityList ++
    lowPriorityList ++ lowestPriorityList)

def dynamicFirstComeFirstServeScheduler (packetNumber : Nat)
    (entries : Entries n) (activeStreamQueue : List (Fin n)) :
    Except PyError (Composition n) := do
  let dynamicQueue ← replaceWithDynamicQueue entries activeStreamQueue
  fillPacket packetNumber entries dynamicQueue 0

def classifiedWeightedRoundRobinScheduler (entries : Entries n)
    (activeStreamQueue : List (Fin n)) : Except PyError (Composition n) :=
  .ok ⟨[], entries, activeStreamQueue⟩

def composeNextPacket (activeScheduler : SchedulerType) (packetNumber : Nat)
    (entries : Entries n) (activeStreamQueue : List (Fin n)) :
    Except PyError (Composition n) :=
  match activeScheduler with
  | .naiveRoundRobinScheduler =>
    naiveRoundRobinScheduler packetNumber entries activeStreamQueue
  | .weightedRoundRobinScheduler =>
    weightedRoundRobinScheduler entries activeStreamQueue
  | .dynamicFirstComeFirstServeScheduler =>
    dynamicFirstComeFirstServeScheduler packetNumber entries
      activeStreamQueue
  | .classifiedWeightedRoundRobinScheduler =>
    classifiedWeightedRoundRobinScheduler entries activeStreamQueue

end Qperf.HarConverter
