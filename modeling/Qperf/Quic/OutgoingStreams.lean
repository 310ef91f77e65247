import Qperf.Quic.IncomingStreams

/-!
# Opening streams

`outgoingItemsMap` numbers the streams that this side opens.  `OpenStreamSync` queues
callers while the peer's limit is reached: each gets a channel at its own position of
`openQueue`, and is unblocked by closing that channel.  Positions grow, so that they
tell in which order the callers entered the queue.

The mutex is not held while a caller waits, and an unblocked caller has to take it
again.  Here each critical section is one step, and the steps of different callers come
in any order.
-/

namespace Qperf.Quic

open Qperf.Foundation

/-- The value of `maxStream` before the peer set any limit. -/
def invalidStreamNum : StreamNum := -1

inductive OpenError where
  | closed (err : String)
  | tooManyOpenStreams
  | canceled
  deriving DecidableEq, Repr

inductive ChannelPanic where
  | closeOfNil
  | closeOfClosed
  deriving DecidableEq, Repr

structure OutgoingItemsMap where
  streams : Finset StreamNum := ∅
  /-- The entries of `openQueue` that hold a channel. -/
  openQueue : Finset Nat := ∅
  /-- The entries of `openQueue` that were set to `nil` when they were unblocked. -/
  unblocked : Finset Nat := ∅
  lowestInQueue : Nat := 0
  highestInQueue : Nat := 0
  nextStream : StreamNum := 1
  maxStream : StreamNum := invalidStreamNum
  blockedSent : Bool := false
  queuedStreamsBlocked : List StreamNum := []
  closeErr : Option String := none
  deriving DecidableEq

namespace OutgoingItemsMap

def QueueEmpty (m : OutgoingItemsMap) : Prop := m.openQueue = ∅ ∧ m.unblocked = ∅

instance (m : OutgoingItemsMap) : Decidable m.QueueEmpty :=
  inferInstanceAs (Decidable (_ ∧ _))

def maybeSendBlockedFrame (m : OutgoingItemsMap) : OutgoingItemsMap :=
  if m.blockedSent then m
  else
    let streamNum := if m.maxStream ≠ invalidStreamNum then m.maxStream else 0
    { m with
      queuedStreamsBlocked := m.queuedStreamsBlocked ++ [streamNum]
      blockedSent := true }

/-- The unexported `openStream`, which opens stream `nextStream`. -/
def openItem (m : OutgoingItemsMap) : OutgoingItemsMap :=
  { m with
    streams := insert m.nextStream m.streams
    nextStream := m.nextStream + 1 }

def openStream (m : OutgoingItemsMap) :
    Except OpenError StreamNum × OutgoingItemsMap :=
  match m.closeErr with
  | some err => (.error (.closed err), m)
  | none =>
    if ¬ m.QueueEmpty ∨ m.nextStream > m.maxStream then
      (.error .tooManyOpenStreams, m.maybeSendBlockedFrame)
    else (.ok m.nextStream, m.openItem)

def enqueue (m : OutgoingItemsMap) : OutgoingItemsMap :=
  let queuePos := m.highestInQueue
  maybeSendBlockedFrame { m with
    highestInQueue := m.highestInQueue + 1
    lowestInQueue := if m.QueueEmpty then queuePos else m.lowestInQueue
    openQueue := insert queuePos m.openQueue }

def dequeue (m : OutgoingItemsMap) (queuePos : Nat) : OutgoingItemsMap :=
  { m with
    openQueue := m.openQueue.erase queuePos
    unblocked := m.unblocked.erase queuePos }

def unblock (m : OutgoingItemsMap) (qp : Nat) : OutgoingItemsMap :=
  { m with
    openQueue := m.openQueue.erase qp
    unblocked := insert qp m.unblocked
    lowestInQueue := qp + 1 }

/-- The loop of `unblockOpenSync` over `n` positions from `qp` on. -/
def unblockLoop (m : OutgoingItemsMap) (qp : Nat) :
    Nat → Except ChannelPanic OutgoingItemsMap
  | 0 => .ok m
  | n + 1 =>
    if qp ∈ m.unblocked then .error .closeOfNil
    else if qp ∈ m.openQueue then
      -- CloseWithError has closed every channel.
      if m.closeErr.isSome then .error .closeOfClosed
      else .ok (m.unblock qp)
    else m.unblockLoop (qp + 1) n

def unblockOpenSync (m : OutgoingItemsMap) : Except ChannelPanic OutgoingItemsMap :=
  if m.QueueEmpty then .ok m
  else m.unblockLoop m.lowestInQueue (m.highestInQueue + 1 - m.lowestInQueue)

def setMaxStream (m : OutgoingItemsMap) (num : StreamNum) :
    Except ChannelPanic OutgoingItemsMap :=
  if num ≤ m.maxStream then .ok m
  else unblockOpenSync { m with maxStream := num, blockedSent := false }

def deleteStream (m : OutgoingItemsMap) (num : StreamNum) :
    Except StreamMapError OutgoingItemsMap :=
  if num ∈ m.streams then .ok { m with streams := m.streams.erase num }
  else .error (.streamError "Tried to delete unknown stream %d" [num])

def closeWithError (m : OutgoingItemsMap) (err : String) :
    Except ChannelPanic OutgoingItemsMap :=
  if m.closeErr.isSome ∧ m.openQueue ≠ ∅ then .error .closeOfClosed
  else .ok { m with closeErr := some err }

end OutgoingItemsMap

/-! ## Callers -/

inductive OpenEvent where
  | openStream
  /-- The first critical section of `OpenStreamSync`. -/
  | openStreamSync (ctxErr : Bool)
  /-- The caller at this position sees its channel closed and takes the mutex. -/
  | resume (queuePos : Nat)
  /-- The caller at this position sees its context canceled and takes the mutex. -/
  | cancel (queuePos : Nat)
  | setMaxStream (num : StreamNum)
  | deleteStream (num : StreamNum)
  | closeWithError (err : String)
  deriving DecidableEq, Repr

inductive OpenFailure where
  | panic (cause : ChannelPanic)
  | notEnabled
  deriving DecidableEq, Repr

structure OpenState where
  map : OutgoingItemsMap := {}
  waiters : Finset Nat := ∅
  opened : List StreamNum := []
  /-- The callers that waited for their stream, with it, in the same order. -/
  granted : List (Nat × StreamNum) := []
  limits : List StreamNum := []
  deriving DecidableEq

namespace OpenState

def leave (s : OpenState) (queuePos : Nat) : OpenState :=
  { s with waiters := s.waiters.erase queuePos }

def openItem (s : OpenState) : OpenState :=
  { s with map := s.map.openItem, opened := s.opened ++ [s.map.nextStream] }

def grant (s : OpenState) (queuePos : Nat) : OpenState :=
  { s.openItem with
    map := s.map.openItem.dequeue queuePos
    waiters := s.waiters.erase queuePos
    granted := s.granted ++ [(queuePos, s.map.nextStream)] }

def openStream (s : OpenState) : OpenState :=
  match s.map.openStream with
  | (.ok _, _) => s.openItem
  | (.error _, m) => { s with map := m }

def openStreamSync (s : OpenState) (ctxErr : Bool) : OpenState :=
  if s.map.closeErr.isSome ∨ ctxErr then s
  else if s.map.QueueEmpty ∧ s.map.nextStream ≤ s.map.maxStream then s.openItem
  else { s with
    map := s.map.enqueue
    waiters := insert s.map.highestInQueue s.waiters }

/-- The channel at `queuePos` is closed: it was unblocked, or the map was closed. -/
def ChannelClosed (s : OpenState) (queuePos : Nat) : Prop :=
  queuePos ∈ s.map.unblocked ∨ s.map.closeErr.isSome

instance (s : OpenState) (queuePos : Nat) : Decidable (s.ChannelClosed queuePos) :=
  inferInstanceAs (Decidable (_ ∨ _))

def setMap (s : OpenState) :
    Except ChannelPanic OutgoingItemsMap → Except OpenFailure OpenState
  | .ok m => .ok { s with map := m }
  | .error cause => .error (.panic cause)

/-- One turn of the loop of `OpenStreamSync` after the channel was closed. -/
def resume (s : OpenState) (queuePos : Nat) : Except OpenFailure OpenState :=
  if s.map.closeErr.isSome then .ok (s.leave queuePos)
  else if s.map.nextStream > s.map.maxStream then .ok s
  else (s.grant queuePos).setMap (s.grant queuePos).map.unblockOpenSync

def step (s : OpenState) : OpenEvent → Except OpenFailure OpenState
  | .openStream => .ok s.openStream
  | .openStreamSync ctxErr => .ok (s.openStreamSync ctxErr)
  | .resume queuePos =>
    if queuePos ∈ s.waiters ∧ s.ChannelClosed queuePos then s.resume queuePos
    else .error .notEnabled
  | .cancel queuePos =>
    if queuePos ∈ s.waiters then
      .ok { s.leave queuePos with map := s.map.dequeue queuePos }
    else .error .notEnabled
  | .setMaxStream num =>
    setMap { s with limits := s.limits ++ [num] } (s.map.setMaxStream num)
  | .deleteStream num =>
    match s.map.deleteStream num with
    | .ok m => .ok { s with map := m }
    | .error _ => .ok s
  | .closeWithError err => s.setMap (s.map.closeWithError err)

def firstStreams (n : Nat) : List StreamNum :=
  (List.range n).map fun i : Nat => (i : Int) + 1

/-- Streams are numbered from 1, below a limit, and in the order of the queue. -/
structure InOrder (s : OpenState) : Prop where
  opened : s.opened = firstStreams s.opened.length
  limit : ∀ num ∈ s.opened, ∃ limit ∈ s.limits, num ≤ limit
  granted : s.granted.Pairwise fun a b => a.1 < b.1 ∧ a.2 < b.2

/--
The limit is raised only while no caller that was unblocked still has to take the
mutex, or else no other caller waits.
-/
def Calm (s : OpenState) : OpenEvent → Prop
  | .setMaxStream num => s.map.maxStream < num →
      s.map.unblocked = ∅ ∨ s.map.openQueue = ∅
  | _ => True

end OpenState

/-! ## What the operations change -/

namespace OutgoingItemsMap

variable {m m' : OutgoingItemsMap} {qp : Nat}

structure SameStreams (m m' : OutgoingItemsMap) : Prop where
  nextStream : m'.nextStream = m.nextStream
  maxStream : m'.maxStream = m.maxStream

theorem maybeSendBlockedFrame_eq (m : OutgoingItemsMap) :
    ∃ frames sent, m.maybeSendBlockedFrame =
      { m with queuedStreamsBlocked := frames, blockedSent := sent } := by
  unfold maybeSendBlockedFrame
  split
  · exact ⟨m.queuedStreamsBlocked, m.blockedSent, rfl⟩
  · exact ⟨_, _, rfl⟩

theorem enqueue_eq (m : OutgoingItemsMap) : ∃ frames sent, m.enqueue = { m with
      highestInQueue := m.highestInQueue + 1
      lowestInQueue := if m.QueueEmpty then m.highestInQueue else m.lowestInQueue
      openQueue := insert m.highestInQueue m.openQueue
      queuedStreamsBlocked := frames
      blockedSent := sent } :=
  maybeSendBlockedFrame_eq _

theorem unblockLoop_ok {n : Nat} (h : m.unblockLoop qp n = .ok m') :
    m' = m ∧ (∀ p ∈ m.openQueue, qp ≤ p → qp + n ≤ p) ∨
      ∃ p ∈ m.openQueue, qp ≤ p ∧ (∀ q ∈ m.openQueue, qp ≤ q → p ≤ q) ∧ m' = m.unblock p := by
  induction n generalizing qp with
  | zero =>
    cases h
    exact .inl ⟨rfl, fun _ _ hle => hle⟩
  | succ n ih =>
    rw [unblockLoop] at h
    split at h
    · cases h
    split at h
    · next hmem =>
      split at h
      · cases h
      · cases h
        exact .inr ⟨qp, hmem, le_rfl, fun _ _ hle => hle, rfl⟩
    · next hmem =>
      -- The entry at this position was deleted.
      have hnext : ∀ p ∈ m.openQueue, qp ≤ p → qp + 1 ≤ p := by
        intro p hp hle
        have hne : qp ≠ p := by
          rintro rfl
          exact hmem hp
        omega
      rcases ih h with ⟨rfl, hnone⟩ | ⟨p, hp, hle, hleast, rfl⟩
      · refine .inl ⟨rfl, ?_⟩
        intro p hp hle
        have hlast := hnone p hp (hnext p hp hle)
        omega
      · refine .inr ⟨p, hp, by omega, ?_, rfl⟩
        intro q hq hqle
        exact hleast q hq (hnext q hq hqle)

theorem unblockOpenSync_ok (h : m.unblockOpenSync = .ok m')
    (hlowest : ∀ p ∈ m.openQueue, m.lowestInQueue ≤ p)
    (hhighest : ∀ p ∈ m.openQueue, p < m.highestInQueue) :
    m' = m ∧ m.openQueue = ∅ ∨
      ∃ p ∈ m.openQueue, (∀ q ∈ m.openQueue, p ≤ q) ∧ m' = m.unblock p := by
  unfold unblockOpenSync at h
  split at h
  · next hempty =>
    cases h
    exact .inl ⟨rfl, hempty.1⟩
  · rcases unblockLoop_ok h with ⟨rfl, hnone⟩ | ⟨p, hp, -, hleast, rfl⟩
    · refine .inl ⟨rfl, Finset.eq_empty_of_forall_notMem ?_⟩
      intro p hp
      have hlt := hhighest p hp
      have hle := hlowest p hp
      have hpast := hnone p hp hle
      omega
    · exact .inr ⟨p, hp, fun q hq => hleast q hq (hlowest q hq), rfl⟩

theorem unblockOpenSync_sameStreams (h : m.unblockOpenSync = .ok m') :
    m.SameStreams m' := by
  unfold unblockOpenSync at h
  split at h
  · cases h
    exact ⟨rfl, rfl⟩
  · rcases unblockLoop_ok h with ⟨rfl, -⟩ | ⟨p, -, -, -, rfl⟩ <;> exact ⟨rfl, rfl⟩

end OutgoingItemsMap

/-! ## Numbers and limits -/

namespace OpenState

variable {s s' : OpenState} {event : OpenEvent}

structure Numbered (s : OpenState) : Prop where
  next : s.map.nextStream = s.opened.length + 1
  opened : s.opened = firstStreams s.opened.length
  limit : ∀ num ∈ s.opened, ∃ limit ∈ s.limits, num ≤ limit
  maxStream : s.map.maxStream = invalidStreamNum ∨ s.map.maxStream ∈ s.limits
  granted : ∀ g ∈ s.granted, g.2 < s.map.nextStream
  grantedNumbers : s.granted.Pairwise fun a b => a.2 < b.2

theorem Numbered.new : ({} : OpenState).Numbered where
  next := rfl
  opened := rfl
  limit := fun _ h => absurd h List.not_mem_nil
  maxStream := .inl rfl
  granted := fun _ h => absurd h List.not_mem_nil
  grantedNumbers := .nil

theorem Numbered.setMap {m : OutgoingItemsMap} (h : s.Numbered)
    (hsame : s.map.SameStreams m) : { s with map := m }.Numbered where
  next := hsame.nextStream.trans h.next
  __ := h
  maxStream := hsame.maxStream ▸ h.maxStream
  granted := hsame.nextStream ▸ h.granted

theorem Numbered.openItem (h : s.Numbered)
    (hlimit : s.map.nextStream ≤ s.map.maxStream) : s.openItem.Numbered where
  next := by
    simp [OpenState.openItem, OutgoingItemsMap.openItem, h.next]
  opened := by
    simp only [OpenState.openItem, List.length_append, List.length_singleton,
      firstStreams, List.range_succ, List.map_append, List.map_cons, List.map_nil]
    rw [← firstStreams, ← h.opened, h.next]
  limit := by
    intro num hnum
    rcases List.mem_append.mp hnum with hnum | hnum
    · exact h.limit num hnum
    · rw [List.mem_singleton.mp hnum]
      -- A limit of -1 allows no stream, since they are numbered from 1.
      have hset : s.map.maxStream ∈ s.limits := by
        rcases h.maxStream with hmax | hmax
        · have hnext := h.next
          rw [hmax, hnext] at hlimit
          unfold invalidStreamNum at hlimit
          simp only [StreamNum] at hlimit
          omega
        · exact hmax
      exact ⟨s.map.maxStream, hset, hlimit⟩
  __ := h
  granted := fun g hg => (h.granted g hg).trans (Int.lt_succ _)

theorem Numbered.grant (h : s.Numbered) (hlimit : s.map.nextStream ≤ s.map.maxStream)
    (queuePos : Nat) : (s.grant queuePos).Numbered where
  next := (h.openItem hlimit).next
  opened := (h.openItem hlimit).opened
  limit := (h.openItem hlimit).limit
  maxStream := h.maxStream
  granted := by
    intro g hg
    rcases List.mem_append.mp hg with hg | hg
    · exact (h.openItem hlimit).granted g hg
    · rw [List.mem_singleton.mp hg]
      exact Int.lt_succ _
  grantedNumbers := by
    refine List.pairwise_append.mpr ⟨h.grantedNumbers, List.pairwise_singleton .., ?_⟩
    intro g hg last hlast
    rw [List.mem_singleton.mp hlast]
    exact h.granted g hg

theorem setMap_ok {r : Except ChannelPanic OutgoingItemsMap}
    (h : s.setMap r = .ok s') : ∃ m, r = .ok m ∧ s' = { s with map := m } := by
  cases r with
  | error cause => cases h
  | ok m =>
    cases h
    exact ⟨m, rfl, rfl⟩

inductive Opens (s : OpenState) : OpenState → Prop where
  | returns : Opens s s
  | blocked : Opens s { s with map := s.map.maybeSendBlockedFrame }
  | opened (hempty : s.map.QueueEmpty) (hlimit : s.map.nextStream ≤ s.map.maxStream) :
      Opens s s.openItem
  | enqueued : Opens s { s with
      map := s.map.enqueue
      waiters := insert s.map.highestInQueue s.waiters }

theorem openStream_opens (s : OpenState) : s.Opens s.openStream := by
  unfold openStream OutgoingItemsMap.openStream
  cases hclosed : s.map.closeErr with
  | some err => exact .returns
  | none =>
    by_cases hblocked : ¬ s.map.QueueEmpty ∨ s.map.nextStream > s.map.maxStream
    · rw [if_pos hblocked]
      exact .blocked
    · rw [if_neg hblocked]
      rw [not_or, not_not, not_lt] at hblocked
      exact .opened hblocked.1 hblocked.2

theorem openStreamSync_opens (s : OpenState) (ctxErr : Bool) :
    s.Opens (s.openStreamSync ctxErr) := by
  unfold openStreamSync
  split
  · exact .returns
  split
  · next h => exact .opened h.1 h.2
  · exact .enqueued

theorem Numbered.opens (h : s.Numbered) (hopens : s.Opens s') : s'.Numbered := by
  cases hopens with
  | returns => exact h
  | blocked =>
    obtain ⟨frames, sent, heq⟩ := s.map.maybeSendBlockedFrame_eq
    apply h.setMap
    rw [heq]
    exact ⟨rfl, rfl⟩
  | opened _ hlimit => exact h.openItem hlimit
  | enqueued =>
    have hmap : s.map.SameStreams s.map.enqueue := by
      obtain ⟨frames, sent, heq⟩ := s.map.enqueue_eq
      rw [heq]
      exact ⟨rfl, rfl⟩
    exact ⟨(h.setMap hmap).next, h.opened, h.limit, (h.setMap hmap).maxStream,
      (h.setMap hmap).granted, h.grantedNumbers⟩

theorem Numbered.resume (h : s.Numbered) {queuePos : Nat}
    (hresume : s.resume queuePos = .ok s') : s'.Numbered := by
  unfold OpenState.resume at hresume
  split at hresume
  · cases hresume
    exact { h with }
  split at hresume
  · cases hresume
    exact h
  · next hlimit =>
    obtain ⟨m, hunblock, rfl⟩ := setMap_ok hresume
    apply (h.grant (not_lt.mp hlimit) queuePos).setMap
    exact OutgoingItemsMap.unblockOpenSync_sameStreams hunblock

theorem Numbered.setMaxStream (h : s.Numbered) {num : StreamNum}
    (hstep : s.step (.setMaxStream num) = .ok s') : s'.Numbered := by
  obtain ⟨m, hset, rfl⟩ := setMap_ok hstep
  have hlimit : ∀ i ∈ s.opened, ∃ limit ∈ s.limits ++ [num], i ≤ limit := by
    intro i hi
    obtain ⟨limit, hmem, hle⟩ := h.limit i hi
    exact ⟨limit, List.mem_append_left _ hmem, hle⟩
  unfold OutgoingItemsMap.setMaxStream at hset
  split at hset
  · cases hset
    exact ⟨h.next, h.opened, hlimit,
      h.maxStream.imp_right (List.mem_append_left _), h.granted, h.grantedNumbers⟩
  · obtain ⟨hnext, hmax⟩ := OutgoingItemsMap.unblockOpenSync_sameStreams hset
    refine ⟨hnext.trans h.next, h.opened, hlimit, .inr ?_, ?_, h.grantedNumbers⟩
    · exact hmax ▸ List.mem_append_right _ (List.mem_singleton_self num)
    · exact hnext ▸ h.granted

theorem Numbered.step (h : s.Numbered) (hstep : s.step event = .ok s') :
    s'.Numbered := by
  cases event with
  | openStream =>
    cases hstep
    exact h.opens s.openStream_opens
  | openStreamSync ctxErr =>
    cases hstep
    exact h.opens (s.openStreamSync_opens ctxErr)
  | resume queuePos =>
    simp only [OpenState.step] at hstep
    split at hstep
    · exact h.resume hstep
    · cases hstep
  | cancel queuePos =>
    simp only [OpenState.step] at hstep
    split at hstep
    · cases hstep
      exact { h with }
    · cases hstep
  | setMaxStream num => exact h.setMaxStream hstep
  | deleteStream num =>
    simp only [OpenState.step, OutgoingItemsMap.deleteStream] at hstep
    split at hstep
    · next hdelete =>
      cases hstep
      split at hdelete <;> cases hdelete
      exact h.setMap ⟨rfl, rfl⟩
    · cases hstep
      exact h
  | closeWithError err =>
    obtain ⟨m, hclose, rfl⟩ := setMap_ok hstep
    unfold OutgoingItemsMap.closeWithError at hclose
    split at hclose <;> cases hclose
    exact h.setMap ⟨rfl, rfl⟩

/-! ## The order of the queue -/

/--
At most one caller is unblocked, it stands before those that still wait, and they all
stand behind the callers that got their stream.
-/
structure Ordered (s : OpenState) : Prop where
  single : ∀ p ∈ s.map.unblocked, ∀ q ∈ s.map.unblocked, p = q
  before : ∀ p ∈ s.map.unblocked, ∀ q ∈ s.map.openQueue, p < q
  lowest : ∀ q ∈ s.map.openQueue, s.map.lowestInQueue ≤ q
  bound : s.map.lowestInQueue ≤ s.map.highestInQueue
  highest : ∀ q ∈ s.map.openQueue ∪ s.map.unblocked, q < s.map.highestInQueue
  past : ∀ g ∈ s.granted, ∀ q ∈ s.map.openQueue ∪ s.map.unblocked, g.1 < q
  pastHighest : ∀ g ∈ s.granted, g.1 < s.map.highestInQueue
  granted : s.granted.Pairwise fun a b => a.1 < b.1

structure SameQueue (s s' : OpenState) : Prop where
  openQueue : s'.map.openQueue = s.map.openQueue
  unblocked : s'.map.unblocked = s.map.unblocked
  lowestInQueue : s'.map.lowestInQueue = s.map.lowestInQueue
  highestInQueue : s'.map.highestInQueue = s.map.highestInQueue
  granted : s'.granted = s.granted

theorem Ordered.new : ({} : OpenState).Ordered where
  single := by simp
  before := by simp
  lowest := by simp
  bound := le_rfl
  highest := by simp
  past := by simp
  pastHighest := by simp
  granted := .nil

theorem Ordered.same (h : s.Ordered) (hsame : s.SameQueue s') : s'.Ordered := by
  obtain ⟨hqueue, hunblocked, hlowest, hhighest, hgranted⟩ := hsame
  constructor
  · rw [hunblocked]
    exact h.single
  · rw [hunblocked, hqueue]
    exact h.before
  · rw [hqueue, hlowest]
    exact h.lowest
  · rw [hlowest, hhighest]
    exact h.bound
  · rw [hqueue, hunblocked, hhighest]
    exact h.highest
  · rw [hqueue, hunblocked, hgranted]
    exact h.past
  · rw [hgranted, hhighest]
    exact h.pastHighest
  · rw [hgranted]
    exact h.granted

theorem mem_queue_of_dequeue {m : OutgoingItemsMap} {queuePos q : Nat}
    (h : q ∈ (m.dequeue queuePos).openQueue ∪ (m.dequeue queuePos).unblocked) :
    q ≠ queuePos ∧ q ∈ m.openQueue ∪ m.unblocked := by
  simp only [OutgoingItemsMap.dequeue, Finset.mem_union, Finset.mem_erase] at h ⊢
  tauto

section

variable (h : s.Ordered)
include h

theorem Ordered.dequeue (queuePos : Nat) :
    { s with map := s.map.dequeue queuePos }.Ordered where
  single := fun p hp q hq =>
    h.single p (Finset.mem_of_mem_erase hp) q (Finset.mem_of_mem_erase hq)
  before := fun p hp q hq =>
    h.before p (Finset.mem_of_mem_erase hp) q (Finset.mem_of_mem_erase hq)
  lowest := fun q hq => h.lowest q (Finset.mem_of_mem_erase hq)
  __ := h
  highest := fun q hq => h.highest q (mem_queue_of_dequeue hq).2
  past := fun g hg q hq => h.past g hg q (mem_queue_of_dequeue hq).2

theorem Ordered.enqueue : { s with map := s.map.enqueue }.Ordered := by
  have hlowest : (if s.map.QueueEmpty then s.map.highestInQueue
      else s.map.lowestInQueue) ≤ s.map.highestInQueue := by
    split
    · exact le_rfl
    · exact h.bound
  obtain ⟨frames, sent, heq⟩ := s.map.enqueue_eq
  rw [heq]
  refine ⟨h.single, ?_, ?_, ?_, ?_, ?_, ?_, h.granted⟩
  · intro p hp q hq
    rcases Finset.mem_insert.mp hq with rfl | hq
    · exact h.highest p (Finset.mem_union_right _ hp)
    · exact h.before p hp q hq
  · intro q hq
    rcases Finset.mem_insert.mp hq with rfl | hq
    · exact hlowest
    · rw [if_neg (fun hempty => by simp [hempty.1] at hq)]
      exact h.lowest q hq
  · exact hlowest.trans (Nat.le_succ _)
  · intro q hq
    rw [Finset.insert_union] at hq
    rcases Finset.mem_insert.mp hq with rfl | hq
    · exact Nat.lt_succ_self _
    · exact (h.highest q hq).trans (Nat.lt_succ_self _)
  · intro g hg q hq
    rw [Finset.insert_union] at hq
    rcases Finset.mem_insert.mp hq with rfl | hq
    · exact h.pastHighest g hg
    · exact h.past g hg q hq
  · intro g hg
    exact (h.pastHighest g hg).trans (Nat.lt_succ_self _)

theorem Ordered.unblock (hnone : s.map.unblocked = ∅) {p : Nat}
    (hp : p ∈ s.map.openQueue) (hleast : ∀ q ∈ s.map.openQueue, p ≤ q) :
    { s with map := s.map.unblock p }.Ordered := by
  have hafter : ∀ q ∈ s.map.openQueue.erase p, p < q := by
    intro q hq
    obtain ⟨hne, hq⟩ := Finset.mem_erase.mp hq
    exact lt_of_le_of_ne (hleast q hq) (Ne.symm hne)
  have hmem : ∀ q ∈ s.map.openQueue.erase p ∪ insert p s.map.unblocked,
      q ∈ s.map.openQueue ∪ s.map.unblocked := by
    intro q hq
    simp only [Finset.mem_union, Finset.mem_erase, Finset.mem_insert] at hq ⊢
    rcases hq with hq | rfl | hq
    · exact .inl hq.2
    · exact .inl hp
    · exact .inr hq
  have honly : ∀ q ∈ insert p s.map.unblocked, q = p := by
    intro q hq
    rw [hnone, insert_empty_eq] at hq
    exact Finset.mem_singleton.mp hq
  refine ⟨?_, ?_, hafter, ?_, ?_, ?_, h.pastHighest, h.granted⟩
  · intro a ha b hb
    rw [honly a ha, honly b hb]
  · intro a ha q hq
    rw [honly a ha]
    exact hafter q hq
  · exact h.highest p (Finset.mem_union_left _ hp)
  · intro q hq
    exact h.highest q (hmem q hq)
  · intro g hg q hq
    exact h.past g hg q (hmem q hq)

theorem Ordered.unblockOpenSync (hcalm : s.map.unblocked = ∅ ∨ s.map.openQueue = ∅)
    {m : OutgoingItemsMap} (hunblock : s.map.unblockOpenSync = .ok m) :
    { s with map := m }.Ordered := by
  have hhighest : ∀ p ∈ s.map.openQueue, p < s.map.highestInQueue :=
    fun p hp => h.highest p (Finset.mem_union_left _ hp)
  rcases OutgoingItemsMap.unblockOpenSync_ok hunblock h.lowest hhighest with
    ⟨rfl, -⟩ | ⟨p, hp, hleast, rfl⟩
  · exact h
  · rcases hcalm with hnone | hempty
    · exact h.unblock hnone hp hleast
    · rw [hempty] at hp
      exact absurd hp (Finset.notMem_empty p)

theorem Ordered.grant {queuePos : Nat} (hpos : queuePos ∈ s.map.unblocked) :
    (s.grant queuePos).Ordered ∧ (s.grant queuePos).map.unblocked = ∅ := by
  have hqueue := h.dequeue queuePos
  have hmem : queuePos ∈ s.map.openQueue ∪ s.map.unblocked := Finset.mem_union_right _ hpos
  refine ⟨{ hqueue with past := ?_, pastHighest := ?_, granted := ?_ }, ?_⟩
  · intro g hg q hq
    rcases List.mem_append.mp hg with hg | hg
    · exact hqueue.past g hg q hq
    · rw [List.mem_singleton.mp hg]
      obtain ⟨hne, hq⟩ := mem_queue_of_dequeue hq
      rcases Finset.mem_union.mp hq with hq | hq
      · exact h.before queuePos hpos q hq
      · exact absurd (h.single q hq queuePos hpos) hne
  · intro g hg
    rcases List.mem_append.mp hg with hg | hg
    · exact h.pastHighest g hg
    · rw [List.mem_singleton.mp hg]
      exact h.highest queuePos hmem
  · refine List.pairwise_append.mpr ⟨h.granted, List.pairwise_singleton .., ?_⟩
    intro g hg last hlast
    rw [List.mem_singleton.mp hlast]
    exact h.past g hg queuePos hmem
  · apply Finset.eq_empty_of_forall_notMem
    intro q hq
    obtain ⟨hne, hq⟩ := Finset.mem_erase.mp hq
    exact hne (h.single q hq queuePos hpos)

theorem Ordered.opens (hopens : s.Opens s') : s'.Ordered := by
  cases hopens with
  | returns => exact h
  | blocked =>
    obtain ⟨frames, sent, heq⟩ := s.map.maybeSendBlockedFrame_eq
    rw [heq]
    exact h.same ⟨rfl, rfl, rfl, rfl, rfl⟩
  | opened => exact h.same ⟨rfl, rfl, rfl, rfl, rfl⟩
  | enqueued => exact h.enqueue.same ⟨rfl, rfl, rfl, rfl, rfl⟩

theorem Ordered.resume {queuePos : Nat} (hclosed : s.ChannelClosed queuePos)
    (hresume : s.resume queuePos = .ok s') : s'.Ordered := by
  unfold OpenState.resume at hresume
  split at hresume
  · cases hresume
    exact h.same ⟨rfl, rfl, rfl, rfl, rfl⟩
  next hopen =>
  split at hresume
  · cases hresume
    exact h
  · obtain ⟨hserved, hnone⟩ := h.grant (hclosed.resolve_right hopen)
    obtain ⟨m, hunblock, rfl⟩ := setMap_ok hresume
    exact hserved.unblockOpenSync (.inl hnone) hunblock

theorem Ordered.setMaxStream {num : StreamNum} (hcalm : s.Calm (.setMaxStream num))
    (hstep : s.step (.setMaxStream num) = .ok s') : s'.Ordered := by
  obtain ⟨m, hset, rfl⟩ := setMap_ok hstep
  unfold OutgoingItemsMap.setMaxStream at hset
  split at hset
  · cases hset
    exact h.same ⟨rfl, rfl, rfl, rfl, rfl⟩
  · next hraise =>
    have hraised : ({ s with
        map := { s.map with maxStream := num, blockedSent := false }
        limits := s.limits ++ [num] } : OpenState).Ordered :=
      h.same ⟨rfl, rfl, rfl, rfl, rfl⟩
    exact hraised.unblockOpenSync (hcalm (not_le.mp hraise)) hset

theorem Ordered.step (hcalm : s.Calm event)
    (hstep : s.step event = .ok s') : s'.Ordered := by
  cases event with
  | openStream =>
    cases hstep
    exact h.opens s.openStream_opens
  | openStreamSync ctxErr =>
    cases hstep
    exact h.opens (s.openStreamSync_opens ctxErr)
  | resume queuePos =>
    simp only [OpenState.step] at hstep
    split at hstep
    · next henabled => exact h.resume henabled.2 hstep
    · cases hstep
  | cancel queuePos =>
    simp only [OpenState.step] at hstep
    split at hstep
    · cases hstep
      exact (h.dequeue queuePos).same ⟨rfl, rfl, rfl, rfl, rfl⟩
    · cases hstep
  | setMaxStream num => exact h.setMaxStream hcalm hstep
  | deleteStream num =>
    simp only [OpenState.step, OutgoingItemsMap.deleteStream] at hstep
    split at hstep
    · next hdelete =>
      cases hstep
      split at hdelete <;> cases hdelete
      exact h.same ⟨rfl, rfl, rfl, rfl, rfl⟩
    · cases hstep
      exact h
  | closeWithError err =>
    obtain ⟨m, hclose, rfl⟩ := setMap_ok hstep
    unfold OutgoingItemsMap.closeWithError at hclose
    split at hclose <;> cases hclose
    exact h.same ⟨rfl, rfl, rfl, rfl, rfl⟩

end

/--
In a run that raises the limit only while the queue is calm, streams are opened in the
order of the queue, one by one and within the limit.
-/
theorem openStreams_inOrder {events : List OpenEvent}
    (h : Trace (fun s event s' => s.step event = .ok s' ∧ s.Calm event) {} events s) :
    s.InOrder := by
  have hnumbered : s.Numbered := Trace.invariant Numbered Numbered.new
    (fun _ _ _ ht hstep => ht.step hstep.1) h
  have hordered : s.Ordered := Trace.invariant Ordered Ordered.new
    (fun _ _ _ ht hstep => ht.step hstep.2 hstep.1) h
  exact ⟨hnumbered.opened, hnumbered.limit, hordered.granted.and hnumbered.grantedNumbers⟩

def servedInTurn : List OpenEvent :=
  [.openStreamSync false, .openStreamSync false, .setMaxStream 1, .resume 0,
    .setMaxStream 2, .resume 1]

def overtaken : List OpenEvent :=
  [.openStreamSync false, .openStreamSync false, .setMaxStream 1, .setMaxStream 2,
    .resume 1, .resume 0]

theorem openStreams_inOrder_servedInTurn :
    ∃ s, Trace (fun s event s' => s.step event = .ok s' ∧ Calm s event) {}
      servedInTurn s ∧ s.granted = [(0, 1), (1, 2)] ∧ s.InOrder := by
  have hrun : ∃ s, Trace (fun s event s' => step s event = .ok s' ∧ Calm s event) {}
      servedInTurn s ∧ s.granted = [(0, 1), (1, 2)] :=
    ⟨_, .cons ⟨rfl, trivial⟩ (.cons ⟨rfl, trivial⟩
      (.cons ⟨rfl, fun _ => .inl rfl⟩ (.cons ⟨rfl, trivial⟩
      (.cons ⟨rfl, fun _ => .inr rfl⟩ (.cons ⟨rfl, trivial⟩ .nil))))), rfl⟩
  obtain ⟨s, htrace, hgranted⟩ := hrun
  exact ⟨s, htrace, hgranted, openStreams_inOrder htrace⟩

theorem openStreams_overtaken :
    ∃ s, Trace (fun s event s' => step s event = .ok s') {} overtaken s ∧
      s.granted = [(1, 1), (0, 2)] ∧ ¬ s.InOrder := by
  obtain ⟨s, hrun, hgranted⟩ : ∃ s, overtaken.foldlM step {} = .ok s ∧
      s.granted = [(1, 1), (0, 2)] := ⟨_, rfl, rfl⟩
  refine ⟨s, .of_foldlM_ok hrun, hgranted, ?_⟩
  intro h
  have horder := h.granted
  rw [hgranted] at horder
  exact absurd horder (by decide)

end OpenState

end Qperf.Quic
