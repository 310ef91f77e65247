import Mathlib.Data.Finset.Card
import Qperf.Foundation.Traces
import Qperf.Quic.ControlFrames
import Qperf.Quic.ReceiveControl

/-!
# The window update queue

A read that uses up enough of a window puts the ID of its stream into the queue, and
`QueueAll` turns the IDs into frames.  An ID whose stream is gone, or needs no more
credit, is passed over, and nothing takes it out of the queue again.  So it is with
every stream whose final offset arrives while its ID is queued.
-/

namespace Qperf.Quic

open Qperf.Foundation

/-! ## The queue and what it looks at -/

structure WindowUpdateQueue where
  queue : Finset StreamID := ∅
  queuedConn : Bool := false

namespace WindowUpdateQueue

def addStream (q : WindowUpdateQueue) (id : StreamID) : WindowUpdateQueue :=
  { q with queue := insert id q.queue }

def addConnection (q : WindowUpdateQueue) : WindowUpdateQueue :=
  { q with queuedConn := true }

end WindowUpdateQueue

/--
What the queue sees of the streams map: the receive streams that exist, and those that
were deleted.  Whether a new stream may be opened is not decided here.
-/
structure StreamTable where
  streams : Finset StreamID := ∅
  deleted : Finset StreamID := ∅

namespace StreamTable

def getOrOpenReceiveStream (t : StreamTable) (id : StreamID) : Bool × StreamTable :=
  if id ∈ t.deleted then (false, t)
  else (true, { t with streams := insert id t.streams })

def deleteStream (t : StreamTable) (id : StreamID) : StreamTable where
  streams := t.streams.erase id
  deleted := insert id t.deleted

end StreamTable

/--
The receiving side of a connection.  A stream that was not opened yet has the flow
controller that it will get.  `frames` are those that were passed to the callback.
-/
structure ReceivingSide where
  map : StreamTable := {}
  controllers : StreamID → StreamController
  connection : ReceiveController
  updates : WindowUpdateQueue := {}
  frames : List ControlFrame := []

inductive ReceivingError where
  | notPossible
  | flowControl (err : FlowError)
  deriving DecidableEq, Repr

inductive ReceivingCall where
  /-- Data up to the offset, or the final offset of the stream. -/
  | receive (id : StreamID) (offset : Nat) (final : Bool)
  | addBytesRead (id : StreamID) (n : Nat)
  | abandon (id : StreamID)
  | completed (id : StreamID)
  /-- By the application, or by a frame of a later stream. -/
  | openStream (id : StreamID)
  /-- The order in which the map is traversed, and the timing of each update. -/
  | queueAll (order : List (StreamID × Timing)) (timing : Timing)

namespace ReceivingSide

def new (connection : ReceiveController) (receiveWindow maxReceiveWindow : Nat) :
    ReceivingSide where
  controllers := fun id => .new id receiveWindow maxReceiveWindow
  connection := connection

def setController (s : ReceivingSide) (id : StreamID)
    (result : StreamController × ReceiveController) : ReceivingSide :=
  { s with
    controllers := Function.update s.controllers id result.1
    connection := result.2 }

def receive (s : ReceivingSide) (id : StreamID) (offset : Nat) (final : Bool) :
    Except ReceivingError ReceivingSide :=
  match s.map.getOrOpenReceiveStream id with
  | (false, map) => .ok { s with map }
  | (true, map) =>
    match (s.controllers id).updateHighestReceived s.connection offset final with
    | .error err => .error (.flowControl err)
    | .ok result => .ok (setController { s with map } id result)

def creditConnection (s : ReceivingSide) (connection : ReceiveController) :
    ReceivingSide :=
  { s with
    connection
    updates :=
      if connection.hasWindowUpdate then s.updates.addConnection else s.updates }

def maybeQueueWindowUpdate (s : ReceivingSide) (id : StreamID) : ReceivingSide :=
  if !(s.controllers id).receivedFinalOffset && (s.controllers id).hasWindowUpdate then
    { s with updates := s.updates.addStream id }
  else s

def addBytesRead (s : ReceivingSide) (id : StreamID) (n : Nat) : ReceivingSide :=
  let result := (s.controllers id).addBytesRead s.connection n
  ((s.setController id (result.1, s.connection)).maybeQueueWindowUpdate id).creditConnection
    result.2

def abandon (s : ReceivingSide) (id : StreamID) : ReceivingSide :=
  let c := s.controllers id
  let unread := sub64 c.highestReceived c.bytesRead
  if unread > 0 then s.creditConnection (s.connection.addBytesRead unread) else s

def sendStreamUpdate (s : ReceivingSide) (id : StreamID)
    (update : (StreamController × ReceiveController) × Nat) : ReceivingSide :=
  let s := s.setController id update.1
  if update.2 = 0 then s
  else { s with
    updates := { s.updates with queue := s.updates.queue.erase id }
    frames := s.frames ++ [.maxStreamData id update.2] }

def queueStream (convert : Nat → Nat) (s : ReceivingSide) (entry : StreamID × Timing) :
    ReceivingSide :=
  match s.map.getOrOpenReceiveStream entry.1 with
  | (true, map) =>
    sendStreamUpdate { s with map } entry.1
      ((s.controllers entry.1).getWindowUpdate convert s.connection entry.2)
  | (false, map) => { s with map }

def sendConnectionUpdate (s : ReceivingSide) (update : ReceiveController × Nat) :
    ReceivingSide :=
  { s with
    connection := update.1
    updates := { s.updates with queuedConn := false }
    frames := s.frames ++ [.maxData update.2] }

def queueConnection (s : ReceivingSide) (timing : Timing) : ReceivingSide :=
  if s.updates.queuedConn then
    s.sendConnectionUpdate (s.connection.getWindowUpdate timing)
  else s

def queueAll (convert : Nat → Nat) (s : ReceivingSide) (order : List (StreamID × Timing))
    (timing : Timing) : ReceivingSide :=
  order.foldl (queueStream convert) (s.queueConnection timing)

/--
Only streams that were opened are read, and a stream completes only when its final
offset is known.
-/
def step (convert : Nat → Nat) (s : ReceivingSide) :
    ReceivingCall → Except ReceivingError ReceivingSide
  | .receive id offset final => s.receive id offset final
  | .addBytesRead id n =>
    if id ∈ s.map.streams ∪ s.map.deleted then .ok (s.addBytesRead id n)
    else .error .notPossible
  | .abandon id => .ok (s.abandon id)
  | .completed id =>
    if id ∈ s.map.streams ∧ (s.controllers id).receivedFinalOffset then
      .ok { s with map := s.map.deleteStream id }
    else .error .notPossible
  | .openStream id => .ok { s with map := (s.map.getOrOpenReceiveStream id).2 }
  | .queueAll order timing =>
    if (order.map Prod.fst).Nodup ∧ (order.map Prod.fst).toFinset = s.updates.queue then
      .ok (s.queueAll convert order timing)
    else .error .notPossible

/-- Every ID in the queue belongs to a stream that exists, and whose end is unknown. -/
def Live (s : ReceivingSide) : Prop :=
  ∀ id ∈ s.updates.queue,
    id ∈ s.map.streams ∧ (s.controllers id).receivedFinalOffset = false

/-- No final offset arrives for a stream whose ID is queued. -/
def Timely (s : ReceivingSide) : ReceivingCall → Prop
  | .receive id _ true => id ∉ s.updates.queue
  | _ => True

instance (s : ReceivingSide) : (call : ReceivingCall) → Decidable (s.Timely call)
  | .receive _ _ true => inferInstanceAs (Decidable (_ ∉ _))
  | .receive _ _ false | .addBytesRead .. | .abandon _ | .completed _ | .openStream _
  | .queueAll .. => inferInstanceAs (Decidable True)

/-! ## What the calls keep -/

section Calls

variable {convert : Nat → Nat} {s s' : ReceivingSide} {call : ReceivingCall}
variable {id : StreamID} {map : StreamTable}

def final (s : ReceivingSide) (id : StreamID) : Bool :=
  (s.controllers id).receivedFinalOffset

structure Sound (s : ReceivingSide) : Prop where
  deleted : ∀ id ∈ s.map.deleted, s.final id = true
  live : s.Live

theorem Sound.of_grows (h : s.Sound) (hstreams : s.map.streams ⊆ s'.map.streams)
    (hdeleted : s'.map.deleted = s.map.deleted)
    (hfinal : ∀ id, s'.final id = s.final id ∨ s'.final id = true ∧ id ∉ s.updates.queue)
    (hqueue : s'.updates.queue ⊆ s.updates.queue) : s'.Sound := by
  refine ⟨fun id hid => ?_, fun id hid => ?_⟩
  · rcases hfinal id with hsame | ⟨hknown, -⟩
    · exact hsame.trans (h.deleted id (hdeleted ▸ hid))
    · exact hknown
  · obtain ⟨hhas, hunknown⟩ := h.live id (hqueue hid)
    have hsame := (hfinal id).resolve_right fun hended => hended.2 (hqueue hid)
    exact ⟨hstreams hhas, hsame.trans hunknown⟩

theorem Sound.of_queue (h : s.Sound) (hmap : s'.map = s.map)
    (hcontrollers : s'.controllers = s.controllers)
    (hqueue : s'.updates.queue ⊆ s.updates.queue) : s'.Sound := by
  refine h.of_grows (by rw [hmap]) (by rw [hmap]) (fun id => .inl ?_) hqueue
  rw [final, hcontrollers]
  rfl

theorem grows_getOrOpenReceiveStream (t : StreamTable) (id : StreamID) :
    t.streams ⊆ (t.getOrOpenReceiveStream id).2.streams ∧
      (t.getOrOpenReceiveStream id).2.deleted = t.deleted := by
  unfold StreamTable.getOrOpenReceiveStream
  split
  · exact ⟨Finset.Subset.refl _, rfl⟩
  · exact ⟨Finset.subset_insert _ _, rfl⟩

private theorem final_setController (s : ReceivingSide) (id : StreamID)
    (result : StreamController × ReceiveController) (id' : StreamID) :
    (s.setController id result).final id' =
      if id' = id then result.1.receivedFinalOffset else s.final id' := by
  unfold final setController
  dsimp only
  rw [Function.update_apply]
  split <;> rfl

theorem Sound.setController (h : s.Sound)
    (hgrows : s.map.streams ⊆ map.streams ∧ map.deleted = s.map.deleted)
    {result : StreamController × ReceiveController}
    (hfinal : result.1.receivedFinalOffset = s.final id ∨
      result.1.receivedFinalOffset = true ∧ id ∉ s.updates.queue) :
    (ReceivingSide.setController { s with map } id result).Sound := by
  refine h.of_grows hgrows.1 hgrows.2 (fun id' => ?_) (Finset.Subset.refl _)
  rw [final_setController]
  split
  · next heq => exact heq ▸ hfinal
  · exact .inl rfl

theorem Sound.receive (h : s.Sound) {offset : Nat} {isFinal : Bool}
    (htimely : isFinal = true → id ∉ s.updates.queue)
    (hreceive : s.receive id offset isFinal = .ok s') : s'.Sound := by
  have hgrows := grows_getOrOpenReceiveStream s.map id
  unfold ReceivingSide.receive at hreceive
  split at hreceive
  · next hmap =>
    cases hreceive
    rw [hmap] at hgrows
    exact h.of_grows hgrows.1 hgrows.2 (fun _ => .inl rfl) (Finset.Subset.refl _)
  · next hmap =>
    split at hreceive
    · cases hreceive
    · next hresult =>
      cases hreceive
      rw [hmap] at hgrows
      apply h.setController hgrows
      rw [(StreamController.updateHighestReceived_received hresult).receivedFinalOffset_eq]
      cases isFinal with
      | true => exact .inr ⟨Bool.or_true _, htimely rfl⟩
      | false => exact .inl (Bool.or_false _)

theorem Sound.creditConnection (h : s.Sound) (connection : ReceiveController) :
    (s.creditConnection connection).Sound := by
  refine h.of_queue rfl rfl ?_
  unfold ReceivingSide.creditConnection
  split <;> exact Finset.Subset.refl _

theorem Sound.maybeQueueWindowUpdate (h : s.Sound)
    (hopened : id ∈ s.map.streams ∪ s.map.deleted) :
    (s.maybeQueueWindowUpdate id).Sound := by
  unfold ReceivingSide.maybeQueueWindowUpdate
  split
  · next hqueues =>
    simp only [Bool.and_eq_true, Bool.not_eq_true'] at hqueues
    have hhas : id ∈ s.map.streams := (Finset.mem_union.mp hopened).resolve_right
      fun hdeleted => Bool.eq_false_iff.mp hqueues.1 (h.deleted id hdeleted)
    refine { h with live := fun id' hid' => ?_ }
    rcases Finset.mem_insert.mp hid' with rfl | hold
    · exact ⟨hhas, hqueues.1⟩
    · exact h.live id' hold
  · exact h

private theorem receivedFinalOffset_getWindowUpdate (convert : Nat → Nat) (c : StreamController)
    (connection : ReceiveController) (timing : Timing) :
    (c.getWindowUpdate convert connection timing).1.1.receivedFinalOffset =
      c.receivedFinalOffset := by
  cases hknown : c.receivedFinalOffset with
  | true => rw [StreamController.getWindowUpdate, if_pos hknown, hknown]
  | false =>
    cases hbase : c.toReceiveController.getWindowUpdate timing with
    | mk base offset =>
      rw [StreamController.getWindowUpdate_eq convert hknown hbase]
      exact hknown

theorem Sound.sendStreamUpdate (h : s.Sound)
    (hgrows : s.map.streams ⊆ map.streams ∧ map.deleted = s.map.deleted)
    {update : (StreamController × ReceiveController) × Nat}
    (hfinal : update.1.1.receivedFinalOffset = s.final id) :
    (ReceivingSide.sendStreamUpdate { s with map } id update).Sound := by
  have hset := h.setController hgrows (.inl hfinal)
  unfold ReceivingSide.sendStreamUpdate
  split
  · exact hset
  · exact hset.of_queue rfl rfl (Finset.erase_subset ..)

theorem Sound.queueStream (convert : Nat → Nat) (h : s.Sound)
    (entry : StreamID × Timing) : (s.queueStream convert entry).Sound := by
  have hgrows := grows_getOrOpenReceiveStream s.map entry.1
  unfold ReceivingSide.queueStream
  split
  · next hmap =>
    rw [hmap] at hgrows
    exact h.sendStreamUpdate hgrows (receivedFinalOffset_getWindowUpdate ..)
  · next hmap =>
    rw [hmap] at hgrows
    exact h.of_grows hgrows.1 hgrows.2 (fun _ => .inl rfl) (Finset.Subset.refl _)

theorem Sound.sendConnectionUpdate (h : s.Sound) (update : ReceiveController × Nat) :
    (s.sendConnectionUpdate update).Sound :=
  h.of_queue rfl rfl (Finset.Subset.refl _)

theorem Sound.queueConnection (h : s.Sound) (timing : Timing) :
    (s.queueConnection timing).Sound := by
  unfold ReceivingSide.queueConnection
  split
  · exact h.sendConnectionUpdate _
  · exact h

theorem Sound.queueStreams (h : s.Sound) (order : List (StreamID × Timing)) :
    (order.foldl (ReceivingSide.queueStream convert) s).Sound := by
  induction order generalizing s with
  | nil => exact h
  | cons entry order ih => exact ih (h.queueStream convert entry)

theorem Sound.completed (h : s.Sound) (hknown : s.final id = true) :
    Sound { s with map := s.map.deleteStream id } := by
  refine ⟨fun id' hid' => ?_, fun id' hid' => ?_⟩
  · rcases Finset.mem_insert.mp hid' with rfl | hold
    · exact hknown
    · exact h.deleted id' hold
  · obtain ⟨hhas, hunknown⟩ := h.live id' hid'
    refine ⟨Finset.mem_erase.mpr ⟨?_, hhas⟩, hunknown⟩
    rintro rfl
    exact absurd (hknown.symm.trans hunknown) (by decide)

theorem Sound.step (h : s.Sound) (htimely : s.Timely call)
    (hstep : s.step convert call = .ok s') : s'.Sound := by
  cases call with
  | receive id offset isFinal => exact h.receive (fun heq => by subst heq; exact htimely) hstep
  | addBytesRead id n =>
    rw [ReceivingSide.step] at hstep
    split at hstep
    · next hopened =>
      cases hstep
      have hread : (s.setController id
          (((s.controllers id).addBytesRead s.connection n).1, s.connection)).Sound :=
        h.setController ⟨Finset.Subset.refl _, rfl⟩ (.inl rfl)
      exact (hread.maybeQueueWindowUpdate hopened).creditConnection _
    · cases hstep
  | abandon id =>
    cases hstep
    unfold ReceivingSide.abandon
    dsimp only
    split
    · exact h.creditConnection _
    · exact h
  | completed id =>
    rw [ReceivingSide.step] at hstep
    split at hstep
    · next hknown =>
      cases hstep
      exact h.completed hknown.2
    · cases hstep
  | openStream id =>
    cases hstep
    have hgrows := grows_getOrOpenReceiveStream s.map id
    exact h.of_grows hgrows.1 hgrows.2 (fun _ => .inl rfl) (Finset.Subset.refl _)
  | queueAll order timing =>
    rw [ReceivingSide.step] at hstep
    split at hstep
    · cases hstep
      exact (h.queueConnection timing).queueStreams order
    · cases hstep

end Calls

/--
If no final offset arrives for a stream whose ID is queued, the IDs in the queue belong to
streams that need credit, and there are not more of them than receive streams.
-/
theorem queue_live (convert : Nat → Nat) (connection : ReceiveController)
    (receiveWindow maxReceiveWindow : Nat) {calls : List ReceivingCall} {s : ReceivingSide}
    (hrun : Trace (fun s call s' => step convert s call = .ok s' ∧ Timely s call)
      (new connection receiveWindow maxReceiveWindow) calls s) :
    s.Live ∧ s.updates.queue.card ≤ s.map.streams.card := by
  have hnew : (new connection receiveWindow maxReceiveWindow).Sound :=
    ⟨fun id hid => absurd hid (Finset.notMem_empty id),
      fun id hid => absurd hid (Finset.notMem_empty id)⟩
  have hsound : s.Sound := Trace.invariant Sound hnew
    (fun _ _ _ h hstep => h.step hstep.2 hstep.1) hrun
  exact ⟨hsound.live, Finset.card_le_card fun id hid => (hsound.live id hid).1⟩

def exampleSide : ReceivingSide := new (.new 1000 1000) 100 100

def exampleRead (id : StreamID) : List ReceivingCall :=
  [.receive id 50 false, .addBytesRead id 50]

def exampleInTime : List ReceivingCall :=
  exampleRead 0 ++ [.queueAll [(0, .noRTT)] .noRTT, .receive 0 50 true, .completed 0] ++
    exampleRead 4

theorem queue_live_inTime : ∃ s : ReceivingSide,
    Trace (fun s call s' => step id s call = .ok s' ∧ Timely s call) exampleSide
        exampleInTime s ∧ s.updates.queue = {4} ∧ s.Live := by
  have hobs : (exampleInTime.foldlM (fun (s : ReceivingSide) call =>
        if s.Timely call then s.step id call else .error .notPossible) exampleSide).map
        (fun s => s.updates.queue) = .ok {4} := by
    decide +kernel
  obtain ⟨s, hs, hqueue⟩ := map_eq_ok hobs
  have hrun := Trace.of_foldlM_checked hs
  exact ⟨s, hrun, hqueue, (queue_live id (.new 1000 1000) 100 100 hrun).1⟩

def exampleTooLate : List ReceivingCall :=
  exampleRead 0 ++ [.receive 0 50 true, .queueAll [(0, .noRTT)] .noRTT, .completed 0,
    .queueAll [(0, .noRTT)] .noRTT]

theorem queue_leaks_tooLate : ∃ s : ReceivingSide,
    Trace (fun s call s' => step id s call = .ok s') exampleSide exampleTooLate s ∧
      s.updates.queue = {0} ∧ s.map.streams = ∅ ∧ ¬ s.Live := by
  have hrun : (exampleTooLate.foldlM (step id) exampleSide).map
      (fun s => (s.updates.queue, s.map.streams, s.final 0)) =
        .ok ({0}, ∅, true) := by
    decide +kernel
  obtain ⟨s, hs, hobserved⟩ := map_eq_ok hrun
  simp only [Prod.mk.injEq] at hobserved
  obtain ⟨hqueue, hnone, hknown⟩ := hobserved
  refine ⟨s, Trace.of_foldlM_ok hs, hqueue, hnone, fun hlive => ?_⟩
  have hunknown := (hlive 0 (hqueue ▸ Finset.mem_singleton_self 0)).2
  exact absurd (hknown.symm.trans hunknown) (by decide)

end ReceivingSide

end Qperf.Quic
