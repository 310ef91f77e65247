import Qperf.Quic.Budget
import Qperf.Quic.Pending

/-!
# The queue of the framer

A call of `AppendStreamFrames` visits streams at the front of the queue, each of them once.
The streams that report more data go to the end, in the order of the visits, and the others
are not active any more.
-/

namespace Qperf.Quic

open Qperf.Foundation

namespace Connection

variable {c next : Connection} {packet packet' : Packet} {share : Int32} {maxLen : Nat}
  {limit : Int}

/-! ## Visits -/

structure Visit where
  id : StreamID
  frame : Option StreamFrame
  hasMoreData : Bool

inductive Visits (limit : Int) :
    Connection → Packet → List Visit → Connection → Packet → Prop where
  | done (c : Connection) (packet : Packet) :
      Visits limit c packet [] c packet
  | skipped {c next : Connection} {packet packet' : Packet} {id : StreamID}
      {queue : List StreamID} {visits : List Visit}
      (hqueue : c.framer.streamQueue = id :: queue)
      (hget : c.getOrOpenSendStream id = none)
      (rest : Visits limit
        { c with framer := Framer.putBack { c.framer with streamQueue := queue } id false }
        packet visits next packet') :
      Visits limit c packet (⟨id, none, false⟩ :: visits) next packet'
  | served {c next : Connection} {packet mid packet' : Packet} {id : StreamID}
      {queue : List StreamID} {visits : List Visit} {s : SendStream} {maxBytes : Nat}
      {popped : SendStream.Popped}
      (hqueue : c.framer.streamQueue = id :: queue)
      (hget : c.getOrOpenSendStream id = some s)
      (hlimit : packet.multiplexedStreams < limit)
      (hpop : s.popStreamFrame c.flowController maxBytes = .ok popped)
      (hframes : mid.frames = packet.frames ++ popped.frame.toList)
      (hmultiplexed : mid.multiplexedStreams = packet.multiplexedStreams + 1)
      (rest : Visits limit
        (afterPop { c with framer := { c.framer with streamQueue := queue } } id popped)
        mid visits next packet') :
      Visits limit c packet (⟨id, popped.frame, popped.hasMoreData⟩ :: visits)
        next packet'

theorem visits_of_appendLoop {turns : Nat}
    (h : appendLoop share maxLen limit turns c packet = .ok (next, packet')) :
    ∃ visits, visits.length ≤ turns ∧ Visits limit c packet visits next packet' := by
  induction turns generalizing c packet with
  | zero =>
    cases h
    exact ⟨[], le_rfl, .done _ _⟩
  | succ turns ih =>
    cases appendLoop_succ_cases h with
    | stops => exact ⟨[], Nat.zero_le _, .done _ _⟩
    | skips hqueue hget hrest =>
      obtain ⟨visits, hlength, hvisits⟩ := ih hrest
      exact ⟨⟨_, none, false⟩ :: visits, Nat.succ_le_succ hlength,
        .skipped hqueue hget hvisits⟩
    | serves hqueue hget hlimit _ hserve hrest =>
      obtain ⟨lenLen, popped, -, hpop, rfl, hframes, hmultiplexed⟩ := serve_eq_ok hserve
      obtain ⟨visits, hlength, hvisits⟩ := ih hrest
      exact ⟨⟨_, popped.frame, popped.hasMoreData⟩ :: visits, Nat.succ_le_succ hlength,
        .served hqueue hget hlimit hpop hframes hmultiplexed hvisits⟩

/-! ## The queue -/

private theorem streamQueue_afterPop (c : Connection) (id : StreamID) (popped : SendStream.Popped) :
    (c.afterPop id popped).framer.streamQueue =
      c.framer.streamQueue ++ if popped.hasMoreData then [id] else [] := by
  cases hmore : popped.hasMoreData <;>
    simp [afterPop, hmore, Framer.putBack, Framer.queueControlFrames]

def requeued (visits : List Visit) : List StreamID :=
  (visits.filter Visit.hasMoreData).map Visit.id

private theorem eq_cons_of_first {old back queue : List StreamID} {id : StreamID}
    (hqueue : id :: queue = old ++ back) (hlength : 0 < old.length) :
    ∃ old', old = id :: old' ∧ queue = old' ++ back := by
  obtain ⟨first, old', rfl⟩ := List.exists_cons_of_length_pos hlength
  obtain ⟨rfl, rfl⟩ := List.cons_eq_cons.mp hqueue
  exact ⟨old', rfl, rfl⟩

variable {visits : List Visit}

section

variable (h : Visits limit c packet visits next packet')
include h

theorem Visits.queue {old back : List StreamID}
    (hqueue : c.framer.streamQueue = old ++ back) (hlength : visits.length ≤ old.length) :
    ∃ rest, old = visits.map Visit.id ++ rest ∧
      next.framer.streamQueue = rest ++ back ++ requeued visits := by
  induction h generalizing old back with
  | done c packet => exact ⟨old, rfl, by simp [hqueue, requeued]⟩
  | @skipped c next packet packet' id queue visits hfirst hget hrest ih =>
    obtain ⟨old, rfl, rfl⟩ := eq_cons_of_first (hfirst.symm.trans hqueue)
      (Nat.lt_of_lt_of_le (Nat.succ_pos _) hlength)
    obtain ⟨rest, rfl, hnext⟩ := ih rfl (Nat.le_of_succ_le_succ hlength)
    exact ⟨rest, rfl, hnext⟩
  | @served c next packet mid packet' id queue visits s maxBytes popped hfirst hget hlimit hpop
      hframes hmultiplexed hrest ih =>
      obtain ⟨old, rfl, rfl⟩ := eq_cons_of_first (hfirst.symm.trans hqueue)
        (Nat.lt_of_lt_of_le (Nat.succ_pos _) hlength)
      obtain ⟨rest, rfl, hnext⟩ := ih
        (by rw [streamQueue_afterPop, List.append_assoc])
        (Nat.le_of_succ_le_succ hlength)
      refine ⟨rest, rfl, ?_⟩
      rw [hnext]
      cases popped.hasMoreData <;> simp [requeued]

theorem Visits.consistent (hc : c.framer.Consistent) : next.framer.Consistent := by
  induction h with
  | done c packet => exact hc
  | skipped hqueue hget hrest ih => exact ih (hc.putBack hqueue false)
  | served hqueue hget hlimit hpop hframes hmultiplexed hrest ih =>
    exact ih ((hc.putBack hqueue _).queueControlFrames _)

/-! ## The frames -/

theorem Visits.frames :
    packet'.frames = packet.frames ++ visits.filterMap Visit.frame := by
  induction h with
  | done c packet => simp
  | skipped hqueue hget hrest ih => simpa using ih
  | @served c next packet mid packet' id queue visits s maxBytes popped hqueue hget hlimit hpop
      hframes hmultiplexed hrest ih =>
      rw [ih, hframes, List.append_assoc]
      cases popped.frame <;> rfl

theorem Visits.length_frames_le :
    (packet.multiplexedStreams + (visits.filterMap Visit.frame).length : Int) ≤
      max limit packet.multiplexedStreams := by
  induction h with
  | done c packet => simp
  | skipped hqueue hget hrest ih => simpa using ih
  | @served c next packet mid packet' id queue visits s maxBytes popped hqueue hget hlimit hpop
      hframes hmultiplexed hrest ih =>
      have hone : (List.filterMap Visit.frame
          (⟨id, popped.frame, popped.hasMoreData⟩ :: visits)).length ≤
            (visits.filterMap Visit.frame).length + 1 := by
        cases popped.frame <;> simp
      omega

end

/-- The frames differ only in whether they have a length field. -/
def SameData (frames frames' : List StreamFrame) : Prop :=
  frames.map (fun f => { f with dataLenPresent := true }) =
    frames'.map fun f => { f with dataLenPresent := true }

private theorem finishPacket_sameData {frames : List StreamFrame} {length : Nat}
    (h : finishPacket packet = .ok (frames, length)) : SameData frames packet.frames := by
  unfold finishPacket at h
  split at h
  · cases h
    rfl
  · next last hlast =>
    obtain ⟨lastFrameLen, -, h⟩ := bind_eq_ok.mp h
    obtain ⟨shortenedLen, -, h⟩ := bind_eq_ok.mp h
    cases h
    obtain ⟨init, hframes⟩ := List.getLast?_eq_some_iff.mp hlast
    rw [SameData, hframes, List.dropLast_concat, List.map_append, List.map_append]
    rfl

/-! ## Calls -/

structure CallVisits (c next : Connection) (limit : Int) (frames : List StreamFrame)
    (visits : List Visit) : Prop where
  turns : ∃ packet, Visits limit c ⟨[], 0, 0⟩ visits next packet
  sameData : SameData frames (visits.filterMap Visit.frame)
  frames_le : frames.length ≤ limit.toNat
  queue : ∃ rest, c.framer.streamQueue = visits.map Visit.id ++ rest ∧
    next.framer.streamQueue = rest ++ requeued visits

theorem callVisits_of_appendStreamFrames {convert : Nat → Int32}
    {frames : List StreamFrame} {length : Nat}
    (h : c.appendStreamFrames convert maxLen limit = .ok (next, frames, length)) :
    ∃ visits, CallVisits c next limit frames visits := by
  obtain ⟨⟨looped, packet⟩, hloop, h⟩ := bind_eq_ok.mp h
  obtain ⟨⟨frames', length'⟩, hfinish, h⟩ := bind_eq_ok.mp h
  cases h
  obtain ⟨visits, hlength, hvisits⟩ := visits_of_appendLoop hloop
  have hframes := finishPacket_sameData hfinish
  rw [hvisits.frames, List.nil_append] at hframes
  refine ⟨visits, ⟨packet, hvisits⟩, hframes, ?_, ?_⟩
  · have hsame : frames.length = (visits.filterMap Visit.frame).length := by
      simpa using congrArg List.length hframes
    have hle := hvisits.length_frames_le
    omega
  · obtain ⟨rest, hold, hnext⟩ := hvisits.queue (List.append_nil _).symm hlength
    exact ⟨rest, hold, by rw [hnext, List.append_nil]⟩

private theorem consistent_settle (hc : c.framer.Consistent) (id : StreamID) (outcome : Outcome) :
    (c.settle id outcome).framer.Consistent := by
  unfold settle
  split
  · exact (hc.queueControlFrames _).addActiveStream id
  · exact hc.queueControlFrames _

theorem consistent_run {convert : Nat → Int32} {operation : Operation}
    (hc : c.framer.Consistent) (h : c.run convert operation = .ok next) :
    next.framer.Consistent := by
  cases operation with
  | openStream id window =>
    simp only [Connection.run] at h
    split at h <;> cases h <;> exact hc
  | onStream id operation =>
    simp only [Connection.run] at h
    split at h
    · cases h
      exact hc
    · obtain ⟨outcome, -, h⟩ := bind_eq_ok.mp h
      cases h
      exact consistent_settle hc id outcome
  | addActiveStream id =>
    cases h
    exact hc.addActiveStream id
  | handleMaxDataFrame byteOffset =>
    cases h
    exact hc
  | deleteStream id =>
    simp only [Connection.run] at h
    split at h
    · cases h
      exact hc
    · split at h <;> cases h <;> exact hc
  | appendStreamFrames maxLen limit =>
    obtain ⟨⟨after, frames, length⟩, happend, h⟩ := bind_eq_ok.mp h
    cases h
    obtain ⟨visits, hcall⟩ := callVisits_of_appendStreamFrames happend
    obtain ⟨packet, hvisits⟩ := hcall.turns
    exact hvisits.consistent hc

/--
The queue and the set of active streams agree after every sequence of calls.  Filling a
packet takes the visited streams from the front of the queue, with at most one frame each,
and does not panic while the numbers of the streams can be encoded.
-/
theorem framer_queue_discipline (convert : Nat → Int32) {initialSendWindow : Nat}
    {operations : List Operation} (hrun : Reaches convert (.new initialSendWindow) operations c) :
    c.framer.streamQueue.Nodup ∧ (∀ id, id ∈ c.framer.streamQueue ↔ id ∈ c.framer.activeStreams) ∧
      (∀ maxLen limit next frames length,
        c.appendStreamFrames convert maxLen limit = .ok (next, frames, length) →
        ∃ visits, (visits.map Visit.id).Nodup ∧ CallVisits c next limit frames visits) ∧
      (c.Valid → ∀ maxLen limit, maxLen ≤ maxReceivePacketSize →
        ∃ next frames length,
          c.appendStreamFrames convert maxLen limit = .ok (next, frames, length)) := by
  have hconsistent : c.framer.Consistent := by
    refine Trace.invariant (fun c => c.framer.Consistent) ?_ ?_ hrun
    · exact ⟨List.nodup_nil, by simp [Connection.new, Framer.new]⟩
    · exact fun t operation t' ht hstep => consistent_run ht hstep
  refine ⟨hconsistent.nodup, fun id => (hconsistent.active id).symm, ?_, ?_⟩
  · intro maxLen limit next frames length happend
    obtain ⟨visits, hcall⟩ := callVisits_of_appendStreamFrames happend
    refine ⟨visits, ?_, hcall⟩
    obtain ⟨rest, hqueue, -⟩ := hcall.queue
    exact (List.nodup_append.mp (hqueue ▸ hconsistent.nodup)).1
  · intro hvalid maxLen limit hmax
    obtain ⟨next, frames, length, happend, -⟩ :=
      hvalid.appendStreamFrames convert hmax limit
    exact ⟨next, frames, length, happend⟩

def twoResponses : List Operation :=
  [.openStream 0 1000, .openStream 4 1000, .onStream 0 (.write (List.replicate 64 7)),
    .onStream 4 (.write [7]), .addActiveStream 4]

theorem framer_queue_discipline_twoResponses : ∃ c next : Connection, ∃ frames length visits,
    Reaches (fun _ => 0) (.new 100000) twoResponses c ∧
      c.framer.streamQueue = [0, 4] ∧
      c.appendStreamFrames (fun _ => 0) 128 3 = .ok (next, frames, length) ∧
      CallVisits c next 3 frames visits := by
  have hobserved : (twoResponses.foldlM (run fun _ => 0) (.new 100000)).map
      (fun c => (c.framer.streamQueue,
        (c.appendStreamFrames (fun _ => 0) 128 3).toOption.isSome)) =
      .ok ([0, 4], true) := by decide +kernel
  obtain ⟨c, hc, hresult⟩ := map_eq_ok hobserved
  obtain ⟨hqueue, hsome⟩ := Prod.mk.inj hresult
  have hrun : Reaches (fun _ => 0) (.new 100000) twoResponses c := Trace.of_foldlM_ok hc
  cases happend : c.appendStreamFrames (fun _ => 0) 128 3 with
  | error e =>
    rw [happend] at hsome
    cases hsome
  | ok result =>
    obtain ⟨next, frames, length⟩ := result
    obtain ⟨visits, -, hcall⟩ :=
      (framer_queue_discipline (fun _ => 0) hrun).2.2.1 128 3 next frames length happend
    exact ⟨c, next, frames, length, visits, hrun, hqueue, happend, hcall⟩

end Connection

end Qperf.Quic
