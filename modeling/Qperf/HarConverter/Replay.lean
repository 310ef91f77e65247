import Qperf.HarConverter.Schedulers

/-!
# The replay loop

`replay` puts the root request into the active queue and then alternates
between enqueueing every entry whose dependencies are finished and composing
one packet.  `replayPrefix` is the state at the head of its `while` loop after a
number of iterations.
-/

namespace Qperf.HarConverter

open Qperf.Foundation

structure Dataset where
  rootRequestUrl : String
  filteredEntries : List Entry

def Dataset.size (D : Dataset) : Nat := D.filteredEntries.length

def Dataset.entry (D : Dataset) : Entries D.size := D.filteredEntries.get

/--
The variables of `replay`.  `requestStatus` is indexed by resource id and
`activeStreamQueue` holds references into `filteredEntries`.  `putLog` is a
history variable: the entries that `replay` itself has put into the queue, in
this order.
-/
structure ReplayState (n : Nat) where
  filteredEntries : Entries n
  requestStatus : Fin n → StreamStatus
  activeStreamQueue : List (Fin n)
  replayLog : List (List Frame)
  packetNumber : Nat
  putLog : List (Fin n)

variable {n : Nat}

def readStatus (requestStatus : Fin n → StreamStatus) (id : Nat) :
    Except PyError StreamStatus :=
  if h : id < n then .ok (requestStatus ⟨id, h⟩) else .error .indexError

def writeStatus (requestStatus : Fin n → StreamStatus) (id : Nat)
    (status : StreamStatus) : Except PyError (Fin n → StreamStatus) :=
  if h : id < n then .ok (Function.update requestStatus ⟨id, h⟩ status)
  else .error .indexError

def getRequestById (resourceId : Nat) (entries : Entries n) : Option (Fin n) :=
  (List.finRange n).find? fun i => (entries i).resourceId = resourceId

def getRequestByUrl (entries : Entries n) (targetRequest : String) : Option (Fin n) :=
  (List.finRange n).find? fun i => (entries i).requestUrl = targetRequest

def isDependenciesMet (requestStatus : Fin n → StreamStatus) :
    List Nat → Except PyError Bool
  | [] => .ok true
  | d :: dependencies => do
    let status ← readStatus requestStatus d
    if status ≠ .finished then .ok false
    else isDependenciesMet requestStatus dependencies

def isReplayFinished (requestStatus : Fin n → StreamStatus) : Bool :=
  (List.finRange n).all fun id => requestStatus id = .finished

def putStream (s : ReplayState n) (i : Fin n) : Except PyError (ReplayState n) := do
  let entry := s.filteredEntries i
  let requestStatus ← writeStatus s.requestStatus entry.resourceId .enqueued
  .ok { s with
    filteredEntries := Function.update s.filteredEntries i
      { entry with enqueuedAt := some s.packetNumber }
    requestStatus := requestStatus
    activeStreamQueue := s.activeStreamQueue ++ [i]
    putLog := s.putLog ++ [i] }

/-- One turn of the `for` loop that looks for entries that can be sent. -/
def enqueueIfReady (s : ReplayState n) (i : Fin n) :
    Except PyError (ReplayState n) := do
  let entry := s.filteredEntries i
  let status ← readStatus s.requestStatus entry.resourceId
  if status = .unavailable then
    let met ← isDependenciesMet s.requestStatus entry.dependencies
    if met then putStream s i else .ok s
  else .ok s

def enqueueReady (s : ReplayState n) : Except PyError (ReplayState n) :=
  (List.finRange n).foldlM enqueueIfReady s

def composePacket (activeScheduler : SchedulerType) (s : ReplayState n) :
    Except PyError (Composition n) :=
  composeNextPacket activeScheduler s.packetNumber s.filteredEntries
    s.activeStreamQueue

/-- One turn of the `for` loop that marks finished streams. -/
def markFinished (s : ReplayState n) (frame : Frame) :
    Except PyError (ReplayState n) :=
  if frame.isFinished then do
    let requestStatus ← writeStatus s.requestStatus frame.resourceId .finished
    match getRequestById frame.resourceId s.filteredEntries with
    | none => .error .typeError
    | some i =>
      .ok { s with
        requestStatus := requestStatus
        filteredEntries := Function.update s.filteredEntries i
          { s.filteredEntries i with finishedAt := some s.packetNumber } }
  else .ok s

def recordPacket (s : ReplayState n) (packet : Composition n) :
    Except PyError (ReplayState n) := do
  let s' := { s with
    filteredEntries := packet.filteredEntries
    activeStreamQueue := packet.activeStreamQueue }
  let marked ← packet.recipe.foldlM markFinished s'
  .ok { marked with
    replayLog := marked.replayLog ++ [packet.recipe]
    packetNumber := marked.packetNumber + 1 }

def replayIteration (activeScheduler : SchedulerType) (s : ReplayState n) :
    Except PyError (ReplayState n) := do
  let ready ← enqueueReady s
  let packet ← composePacket activeScheduler ready
  recordPacket ready packet

def Dataset.idle (D : Dataset) (packetNumber : Nat) : ReplayState D.size where
  filteredEntries := D.entry
  requestStatus := fun _ => .unavailable
  activeStreamQueue := []
  replayLog := []
  packetNumber := packetNumber
  putLog := []

def startReplay (D : Dataset) (packetNumber : Nat) :
    Except PyError (ReplayState D.size) :=
  match getRequestByUrl D.entry D.rootRequestUrl with
  | none => .error .typeError
  | some root => putStream (D.idle packetNumber) root

/-- The state at the head of the `while` loop after at most `k` iterations. -/
def replayPrefix (activeScheduler : SchedulerType) (D : Dataset)
    (packetNumber : Nat) (k : Nat) : Except PyError (ReplayState D.size) := do
  let s ← startReplay D packetNumber
  whilePrefix (fun s => isReplayFinished s.requestStatus)
    (replayIteration activeScheduler) k s

/-- The log that `replay` returns, if it does so within `k` packets. -/
def replay (activeScheduler : SchedulerType) (D : Dataset)
    (packetNumber : Nat) (k : Nat) :
    Except PyError (Option (List (List Frame))) := do
  let s ← replayPrefix activeScheduler D packetNumber k
  .ok (if isReplayFinished s.requestStatus then some s.replayLog else none)

theorem replay_eq_some_iff {activeScheduler : SchedulerType} {D : Dataset}
    {packetNumber k : Nat} {replayLog : List (List Frame)} :
    replay activeScheduler D packetNumber k = .ok (some replayLog) ↔
      ∃ s, replayPrefix activeScheduler D packetNumber k = .ok s ∧
        isReplayFinished s.requestStatus = true ∧ s.replayLog = replayLog := by
  simp only [replay, bind_eq_ok, Except.ok.injEq, Option.ite_none_right_eq_some,
    Option.some.injEq]

/-- The resource ids of a dataset are `0 .. n - 1`, each used once. -/
structure Numbered (entries : Entries n) : Prop where
  lt : ∀ i, (entries i).resourceId < n
  injective : Function.Injective fun i => (entries i).resourceId

instance (entries : Entries n) : Decidable (Numbered entries) :=
  decidable_of_iff
    ((∀ i, (entries i).resourceId < n) ∧
      ∀ i j, (entries i).resourceId = (entries j).resourceId → i = j)
    ⟨fun h => ⟨h.1, fun i j hij => h.2 i j hij⟩,
      fun h => ⟨h.lt, fun _ _ hij => h.injective hij⟩⟩

def samplePage : Dataset where
  rootRequestUrl := "https://a/"
  filteredEntries :=
    [.fresh 0 "https://a/" 1500 "document" [] "a" "GET",
      .fresh 1 "https://a/s.css" 0 "stylesheet" [0] "a" "GET",
      .fresh 2 "https://a/1.png" 5000 "image" [0, 1] "a" "GET",
      .fresh 3 "https://a/2.png" 3000 "image" [0, 1] "a" "GET"]

def singlePage (size : Int) : Dataset where
  rootRequestUrl := "https://a/"
  filteredEntries := [.fresh 0 "https://a/" size "document" [] "a" "GET"]

end Qperf.HarConverter
