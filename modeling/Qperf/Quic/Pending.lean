import Qperf.Foundation.Traces
import Qperf.Quic.StreamWork

/-!
# Streams with pending work

The framer only serves streams that are in `activeStreams`.  A stream enters when
it reports data, and leaves when a pop reports that there is nothing more to send.
A stream that leaves too early is never served again.
-/

namespace Qperf.Quic

open Qperf.Foundation

/-! ## The framer -/

structure Framer.Consistent (f : Framer) : Prop where
  nodup : f.streamQueue.Nodup
  active : ∀ id, id ∈ f.activeStreams ↔ id ∈ f.streamQueue

namespace Framer

variable {f : Framer} {id : StreamID} {queue : List StreamID}

theorem Consistent.addActiveStream (h : f.Consistent) (id : StreamID) :
    (f.addActiveStream id).Consistent := by
  rw [Framer.addActiveStream]
  split
  · exact h
  · next hid =>
    rw [h.active] at hid
    refine ⟨List.Nodup.append h.nodup (List.nodup_singleton id) ?_, ?_⟩
    · exact List.disjoint_singleton.mpr hid
    · intro other
      simp [h.active, or_comm]

theorem Consistent.queueControlFrames (h : f.Consistent)
    (frames : List ControlFrame) : (f.queueControlFrames frames).Consistent :=
  ⟨h.nodup, h.active⟩

private theorem mem_addActiveStream (f : Framer) (id : StreamID) :
    id ∈ (f.addActiveStream id).activeStreams := by
  rw [addActiveStream]
  split
  · assumption
  · exact Finset.mem_insert_self ..

theorem activeStreams_subset_addActiveStream (f : Framer) (id : StreamID) :
    f.activeStreams ⊆ (f.addActiveStream id).activeStreams := by
  rw [addActiveStream]
  split
  · exact Finset.Subset.refl _
  · exact Finset.subset_insert ..

theorem Consistent.putBack (h : f.Consistent)
    (hqueue : f.streamQueue = id :: queue) (hasMoreData : Bool) :
    (Framer.putBack { f with streamQueue := queue } id
      hasMoreData).Consistent := by
  obtain ⟨hid, hnodup⟩ := List.nodup_cons.mp (hqueue ▸ h.nodup)
  have hactive : ∀ other, other ∈ f.activeStreams ↔ other = id ∨ other ∈ queue := by
    intro other
    rw [h.active, hqueue, List.mem_cons]
  cases hasMoreData with
  | true =>
    refine ⟨List.Nodup.append hnodup (List.nodup_singleton id)
      (List.disjoint_singleton.mpr hid), fun other => ?_⟩
    simp [Framer.putBack, hactive, or_comm]
  | false =>
    refine ⟨hnodup, fun other => ?_⟩
    simp only [Framer.putBack, Bool.false_eq_true, if_false, Finset.mem_erase, hactive]
    constructor
    · rintro ⟨hne, heq | hmem⟩
      · exact absurd heq hne
      · exact hmem
    · exact fun hmem => ⟨fun heq => hid (heq ▸ hmem), Or.inr hmem⟩

theorem mem_putBack_of_ne {other : StreamID} (hne : other ≠ id)
    (h : other ∈ f.activeStreams) (hasMoreData : Bool) :
    other ∈ (Framer.putBack { f with streamQueue := queue } id
      hasMoreData).activeStreams := by
  cases hasMoreData with
  | true => exact h
  | false => exact Finset.mem_erase.mpr ⟨hne, h⟩

end Framer

namespace Connection

/-- No live stream with work is missing from the active streams. -/
def Remembers (c : Connection) : Prop :=
  ∀ id s, c.streams id = some s → s.Live → s.HasWork → id ∈ c.framer.activeStreams

structure FramerInvariant (c : Connection) : Prop where
  wellFormed : ∀ id s, c.streams id = some s → s.WellFormed
  deleted : ∀ id ∈ c.deleted, ∃ s, c.streams id = some s ∧ s.completed = true
  consistent : c.framer.Consistent
  remembers : c.Remembers

variable {c : Connection} {id : StreamID} {s : SendStream}

theorem FramerInvariant.update (inv : c.FramerInvariant) {framer : Framer}
    (flowController : SendController) (hs : s.WellFormed)
    (hcompleted : ∀ old, c.streams id = some old → old.completed = true →
      s.completed = true)
    (hconsistent : framer.Consistent)
    (hkept : ∀ other ≠ id, other ∈ c.framer.activeStreams → other ∈ framer.activeStreams)
    (hwork : s.Live → s.HasWork → id ∈ framer.activeStreams) :
    FramerInvariant { c.setStream id s with flowController, framer } := by
  refine ⟨?_, ?_, hconsistent, ?_⟩
  · intro other t ht
    by_cases hother : other = id
    · subst hother
      rw [streams_setStream_self] at ht
      cases ht
      exact hs
    · exact inv.wellFormed other t ((streams_setStream_of_ne hother).symm.trans ht)
  · intro other hdeleted
    obtain ⟨t, ht, hdone⟩ := inv.deleted other hdeleted
    by_cases hother : other = id
    · subst hother
      exact ⟨s, streams_setStream_self .., hcompleted t ht hdone⟩
    · exact ⟨t, (streams_setStream_of_ne hother).trans ht, hdone⟩
  · intro other t ht hlive hpending
    by_cases hother : other = id
    · subst hother
      rw [streams_setStream_self] at ht
      cases ht
      exact hwork hlive hpending
    · exact hkept other hother (inv.remembers other t
        ((streams_setStream_of_ne hother).symm.trans ht) hlive hpending)

theorem FramerInvariant.settle (inv : c.FramerInvariant)
    (hs : c.streams id = some s) {outcome : Outcome} (h : SendStream.Reports s outcome) :
    (c.settle id outcome).FramerInvariant := by
  have hdone : ∀ old, c.streams id = some old → old.completed = true →
      outcome.stream.completed = true := by
    intro old hold
    rw [hs] at hold
    cases hold
    exact h.completed
  have hwork := h.reported
  rw [Connection.settle]
  cases hreport : outcome.onHasStreamData with
  | true =>
    refine inv.update _ h.wellFormed hdone
      ((inv.consistent.queueControlFrames _).addActiveStream id) ?_
      fun _ _ => Framer.mem_addActiveStream ..
    exact fun other _ hmem => Framer.activeStreams_subset_addActiveStream
      (c.framer.queueControlFrames _) id hmem
  | false =>
    refine inv.update _ h.wellFormed hdone
      (inv.consistent.queueControlFrames _) (fun _ _ hmem => hmem) ?_
    intro hlive hpending
    obtain ⟨hlive, hpending⟩ | hreported := hwork hlive hpending
    · exact inv.remembers id s hs hlive hpending
    · simp [hreport] at hreported

/-! ## Filling a packet -/

def AllServable (c : Connection) (share : Nat) (ids : List StreamID) : Prop :=
  ∀ id ∈ ids, ∀ s, c.getOrOpenSendStream id = some s → s.Servable share

variable {maxLen turns : Nat} {next : Connection} {packet packet' : Packet}
variable {queue : List StreamID} {share : Int32}

private theorem le_remainingLen {available n : Nat}
    (hshare : n ≤ byteCount share) (havailable : n ≤ available) :
    n ≤ remainingLen share available := by
  rw [remainingLen]
  split
  · exact hshare
  · exact havailable

theorem serve_eq_ok (h : c.serve packet id s share maxLen = .ok (next, packet')) :
    ∃ lenLen popped, varIntLen (remainingLen share (maxLen - packet.length)) = .ok lenLen ∧
      s.popStreamFrame c.flowController
        (remainingLen share (maxLen - packet.length) + lenLen) = .ok popped ∧
      next = c.afterPop id popped ∧ packet'.frames = packet.frames ++ popped.frame.toList ∧
      packet'.multiplexedStreams = packet.multiplexedStreams + 1 := by
  obtain ⟨lenLen, hlen, h⟩ := bind_eq_ok.mp h
  obtain ⟨popped, hpopped, h⟩ := bind_eq_ok.mp h
  refine ⟨lenLen, popped, hlen, hpopped, ?_⟩
  split at h
  · next hnone =>
    cases h
    exact ⟨rfl, by simp [hnone], rfl⟩
  · next frame hsome =>
    obtain ⟨length, -, h⟩ := bind_eq_ok.mp h
    cases h
    exact ⟨rfl, by simp [hsome], rfl⟩

theorem length_newFrame_lt {available lenLen n : Nat}
    (havailable : minStreamFrameSize ≤ available)
    (hlen : varIntLen (remainingLen share available) = .ok lenLen)
    (hlength : s.newFrame.length = .ok n) (hshare : n ≤ byteCount share) :
    n < remainingLen share available + lenLen := by
  obtain ⟨baseLen, hbase, rfl⟩ := (StreamFrame.length_of_data_eq_nil rfl rfl).mp hlength
  have hsmall := (StreamFrame.baseLen_bounds hbase).2
  have hpos := (varIntLen_bounds hlen).1
  have hroom : baseLen + 1 ≤ available := by
    simp only [minStreamFrameSize] at havailable
    omega
  have hfits : baseLen + 1 ≤ remainingLen share available := le_remainingLen hshare hroom
  omega

/--
What a turn leaves behind: the streams still to be served are at the front of
the queue, and only the stream of this turn has changed.
-/
structure Turned (c : Connection) (id : StreamID) (queue : List StreamID)
    (next : Connection) : Prop where
  invariant : next.FramerInvariant
  queue : queue <+: next.framer.streamQueue
  unchanged : ∀ other ≠ id,
    next.getOrOpenSendStream other = c.getOrOpenSendStream other

theorem FramerInvariant.turned_deleted (inv : c.FramerInvariant)
    (hqueue : c.framer.streamQueue = id :: queue)
    (hget : c.getOrOpenSendStream id = none) :
    Turned c id queue { c with
      framer := Framer.putBack { c.framer with streamQueue := queue } id
        false } := by
  refine ⟨⟨inv.wellFormed, inv.deleted, inv.consistent.putBack hqueue false, ?_⟩,
    List.prefix_refl _, fun _ _ => rfl⟩
  intro other s hs hlive hwork
  refine Framer.mem_putBack_of_ne ?_ (inv.remembers other s hs hlive hwork) false
  rintro rfl
  rw [getOrOpenSendStream] at hget
  split at hget
  · next hdeleted =>
    obtain ⟨t, ht, hcompleted⟩ := inv.deleted other hdeleted
    rw [hs] at ht
    cases ht
    exact (inv.wellFormed other s hs).not_hasWork_of_completed hlive hcompleted hwork
  · rw [hs] at hget
    cases hget

theorem FramerInvariant.turned_serve (inv : c.FramerInvariant)
    (hqueue : c.framer.streamQueue = id :: queue)
    (hget : c.getOrOpenSendStream id = some s)
    (hservable : s.Servable (byteCount share))
    (havailable : minStreamFrameSize + packet.length ≤ maxLen)
    (h : serve { c with framer := { c.framer with streamQueue := queue } }
      packet id s share maxLen = .ok (next, packet')) :
    Turned c id queue next := by
  obtain ⟨lenLen, popped, hlen, hpopped, rfl, -⟩ := serve_eq_ok h
  have hs := streams_of_getOrOpenSendStream hget
  have wf := inv.wellFormed id s hs
  refine ⟨?_, ?_, ?_⟩
  · refine inv.update popped.connection (wf.popStreamFrame hpopped) ?_
      ((inv.consistent.putBack hqueue popped.hasMoreData).queueControlFrames
        popped.controlFrames)
      (fun other hne hmem => Framer.mem_putBack_of_ne hne hmem _) ?_
    · intro old hold hcompleted
      rw [hs] at hold
      cases hold
      rwa [(SendStream.popStreamFrame_flags hpopped).1]
    · intro hlive hwork
      cases hmore : popped.hasMoreData with
      | true =>
        change id ∈ c.framer.activeStreams
        rw [inv.consistent.active, hqueue]
        exact List.mem_cons_self
      | false =>
        refine absurd hwork (wf.not_hasWork_of_pop hservable ?_ hpopped hmore hlive)
        exact fun n hlength hshare =>
          length_newFrame_lt (by omega) hlen hlength hshare
  · cases hmore : popped.hasMoreData with
    | true | false => simp [afterPop, hmore, Framer.putBack, Framer.queueControlFrames]
  · intro other hne
    change (if other ∈ c.deleted then none
      else (c.setStream id popped.stream).streams other) = _
    rw [streams_setStream_of_ne hne, getOrOpenSendStream]

theorem Turned.allServable
    {share : Nat} (h : Turned c id queue next) (hid : id ∉ queue) (hturns : turns ≤ queue.length)
    (hservable : c.AllServable share ((id :: queue).take (turns + 1))) :
    next.AllServable share (next.framer.streamQueue.take turns) := by
  obtain ⟨back, hback⟩ := h.queue
  rw [← hback, List.take_append_of_le_length hturns]
  intro other hother s hs
  have hne : other ≠ id := by
    rintro rfl
    exact hid (List.mem_of_mem_take hother)
  rw [h.unchanged other hne] at hs
  exact hservable other (List.mem_cons_of_mem id hother) s hs

inductive LoopTurn (share : Int32) (maxLen : Nat) (limit : Int) (turns : Nat)
    (c : Connection) (packet : Packet) : Connection → Packet → Prop where
  | stops : LoopTurn share maxLen limit turns c packet c packet
  | skips {id : StreamID} {queue : List StreamID} {next : Connection} {packet' : Packet}
      (hqueue : c.framer.streamQueue = id :: queue)
      (hget : c.getOrOpenSendStream id = none)
      (hrest : appendLoop share maxLen limit turns { c with
        framer := Framer.putBack { c.framer with streamQueue := queue } id false }
        packet = .ok (next, packet')) :
      LoopTurn share maxLen limit turns c packet next packet'
  | serves {id : StreamID} {queue : List StreamID} {s : SendStream}
      {mid next : Connection} {middle packet' : Packet}
      (hqueue : c.framer.streamQueue = id :: queue)
      (hget : c.getOrOpenSendStream id = some s)
      (hlimit : packet.multiplexedStreams < limit)
      (hroom : minStreamFrameSize + packet.length ≤ maxLen)
      (hserve : serve { c with framer := { c.framer with streamQueue := queue } }
        packet id s share maxLen = .ok (mid, middle))
      (hrest : appendLoop share maxLen limit turns mid middle = .ok (next, packet')) :
      LoopTurn share maxLen limit turns c packet next packet'

theorem appendLoop_succ_cases {limit : Int}
    (h : appendLoop share maxLen limit (turns + 1) c packet = .ok (next, packet')) :
    LoopTurn share maxLen limit turns c packet next packet' := by
  rw [appendLoop] at h
  split at h
  · cases h
    exact .stops
  next hlimit =>
  split at h
  · cases h
    exact .stops
  next hroom =>
  split at h
  · cases h
  · next id queue hqueue =>
    dsimp only at h
    split at h
    · next hget => exact .skips hqueue hget h
    · next s hget =>
      obtain ⟨⟨mid, middle⟩, hserve, h⟩ := bind_eq_ok.mp h
      exact .serves hqueue hget (Int.not_le.mp hlimit) (Nat.le_of_not_lt hroom) hserve h

theorem FramerInvariant.appendLoop {limit : Int}
    (inv : c.FramerInvariant) (hturns : turns ≤ c.framer.streamQueue.length)
    (hservable : c.AllServable (byteCount share) (c.framer.streamQueue.take turns))
    (h : Connection.appendLoop share maxLen limit turns c packet =
      .ok (next, packet')) : next.FramerInvariant := by
  induction turns generalizing c packet with
  | zero =>
    cases h
    exact inv
  | succ turns ih =>
    -- After a turn the loop goes on from a state that has `Turned`.
    have hrest : ∀ {id : StreamID} {queue : List StreamID} {mid : Connection}
        {packet : Packet}, c.framer.streamQueue = id :: queue → Turned c id queue mid →
        Connection.appendLoop share maxLen limit turns mid packet =
          .ok (next, packet') → next.FramerInvariant := by
      intro id queue mid packet hqueue hmid hloop
      rw [hqueue] at hturns hservable
      have hid := (List.nodup_cons.mp (hqueue ▸ inv.consistent.nodup)).1
      have hturns' : turns ≤ queue.length := Nat.le_of_succ_le_succ hturns
      exact ih hmid.invariant (hturns'.trans hmid.queue.length_le)
        (hmid.allServable hid hturns' hservable) hloop
    cases appendLoop_succ_cases h with
    | stops => exact inv
    | skips hqueue hget hloop => exact hrest hqueue (inv.turned_deleted hqueue hget) hloop
    | @serves id _ s _ _ _ _ hqueue hget _ hroom hserve hloop =>
      refine hrest hqueue (inv.turned_serve hqueue hget ?_ hroom hserve) hloop
      rw [hqueue] at hservable
      exact hservable id List.mem_cons_self s hget

/-! ## Runs of operations -/

/--
The condition under which an operation forgets no work.  Only filling a packet
has one: the streams in the queue are servable with the share of the packet
that each of them gets.
-/
def KeepsFins (convert : Nat → Int32) (c : Connection) : Operation → Prop
  | .appendStreamFrames maxLen limit =>
    c.AllServable (byteCount (maxLengthPerRound convert maxLen
      c.framer.streamQueue.length limit)) c.framer.streamQueue
  | _ => True

theorem FramerInvariant.new (initialSendWindow : Nat) :
    (Connection.new initialSendWindow).FramerInvariant where
  wellFormed := fun _ _ h => nomatch h
  deleted := by simp [Connection.new]
  consistent := ⟨List.nodup_nil, by simp [Connection.new, Framer.new]⟩
  remembers := fun _ _ h => nomatch h

theorem FramerInvariant.openStream (inv : c.FramerInvariant)
    (hnone : c.streams id = none) (initialSendWindow : Nat) :
    (c.setStream id (.new id initialSendWindow)).FramerInvariant := by
  refine inv.update c.flowController (SendStream.wellFormed_new ..) ?_
    inv.consistent (fun _ _ hmem => hmem) fun _ hwork =>
      absurd hwork (SendStream.not_hasWork_new id initialSendWindow)
  intro old hold
  rw [hnone] at hold
  cases hold

theorem FramerInvariant.deleteStream (inv : c.FramerInvariant)
    (hs : c.streams id = some s) (hcompleted : s.completed = true) :
    FramerInvariant { c with deleted := insert id c.deleted } := by
  refine { inv with deleted := ?_ }
  intro other hother
  obtain rfl | hold := Finset.mem_insert.mp hother
  · exact ⟨s, hs, hcompleted⟩
  · exact inv.deleted other hold

theorem FramerInvariant.run {convert : Nat → Int32} {operation : Operation}
    (inv : c.FramerInvariant) (hkeeps : c.KeepsFins convert operation)
    (h : c.run convert operation = .ok next) : next.FramerInvariant := by
  cases operation with
  | openStream id window =>
    simp only [Connection.run] at h
    split at h
    · next hnone =>
      cases h
      exact inv.openStream hnone window
    · cases h
      exact inv
  | onStream id operation =>
    simp only [Connection.run] at h
    split at h
    · cases h
      exact inv
    · next s hs =>
      obtain ⟨outcome, houtcome, h⟩ := bind_eq_ok.mp h
      cases h
      exact inv.settle hs ((inv.wellFormed id s hs).reports_perform houtcome)
  | addActiveStream id =>
    cases h
    refine ⟨inv.wellFormed, inv.deleted, inv.consistent.addActiveStream id, ?_⟩
    intro other s hs hlive hwork
    exact Framer.activeStreams_subset_addActiveStream c.framer id
      (inv.remembers other s hs hlive hwork)
  | handleMaxDataFrame byteOffset =>
    cases h
    exact { inv with }
  | deleteStream id =>
    simp only [Connection.run] at h
    split at h
    · cases h
      exact inv
    · next s hs =>
      split at h
      · next hcompleted =>
        cases h
        exact inv.deleteStream hs hcompleted
      · cases h
        exact inv
  | appendStreamFrames maxLen limit =>
    obtain ⟨⟨after, frames, length⟩, happend, h⟩ := bind_eq_ok.mp h
    cases h
    obtain ⟨⟨looped, packet⟩, hloop, happend⟩ := bind_eq_ok.mp happend
    obtain ⟨_, -, happend⟩ := bind_eq_ok.mp happend
    cases happend
    refine inv.appendLoop (Nat.le_refl _) ?_ hloop
    rw [List.take_length]
    exact hkeeps

def Reaches (convert : Nat → Int32) :
    Connection → List Operation → Connection → Prop :=
  Trace (fun c operation next => c.run convert operation = .ok next)

def ReachesKeepingFins (convert : Nat → Int32) :
    Connection → List Operation → Connection → Prop :=
  Trace (fun c operation next => c.run convert operation = .ok next ∧
    c.KeepsFins convert operation)

theorem framer_remembers_work (convert : Nat → Int32) (initialSendWindow : Nat)
    (operations : List Operation) (c : Connection)
    (h : ReachesKeepingFins convert (.new initialSendWindow) operations c) :
    c.Remembers :=
  (Trace.invariant FramerInvariant (.new initialSendWindow)
    (fun _ _ _ inv hstep => inv.run hstep.2 hstep.1) h).remembers

def sampleResponse : List Operation :=
  [.openStream 0 1000, .onStream 0 (.write (List.replicate 64 7)),
    .appendStreamFrames 1252 5, .onStream 0 .close]

theorem framer_remembers_work_sampleResponse : ∃ c : Connection,
    ReachesKeepingFins (fun _ => 0) (.new 100000)
      (sampleResponse ++ [.appendStreamFrames 1252 5]) c ∧
      (c.streams 0).map SendStream.finSent = some true ∧ c.Remembers := by
  have hrun : ∃ c : Connection, ReachesKeepingFins (fun _ => 0) (.new 100000)
      (sampleResponse ++ [.appendStreamFrames 1252 5]) c ∧
      (c.streams 0).map SendStream.finSent = some true :=
    ⟨_, .cons ⟨rfl, trivial⟩ <| .cons ⟨rfl, trivial⟩ <| .cons ⟨rfl, by
        -- The stream is not closed yet.
        intro id hid s hs _ _ hpending
        cases List.mem_singleton.mp hid
        cases hs
        cases hpending.1⟩ <| .cons ⟨rfl, trivial⟩ <| .cons ⟨rfl, by
        -- The FIN has the whole packet to itself.
        intro id hid s hs _ _ _
        cases List.mem_singleton.mp hid
        cases hs
        refine ⟨fun _ n hn => ?_, fun h => nomatch h⟩
        cases hn
        decide +kernel⟩ .nil, rfl⟩
  obtain ⟨c, hc, hsent⟩ := hrun
  exact ⟨c, hc, hsent, framer_remembers_work _ _ _ c hc⟩

def waitingStream (k : Nat) : List Operation :=
  [.openStream (4 * k) 1000, .onStream (4 * k) (.write [1])]

def sharedPacket : List Operation :=
  sampleResponse ++ (List.range' 1 25).flatMap waitingStream ++
    [.appendStreamFrames 128 26]

/--
Only the FIN of stream 0 is pending.  It does not fit into the four bytes that
each of the 26 streams gets, and the stream is dropped.
-/
theorem framer_forgets_fin : ∃ (c : Connection) (s : SendStream),
    Reaches (fun _ => 0) (.new 100000) sharedPacket c ∧
      c.streams 0 = some s ∧ s.Live ∧ s.FinPending ∧
      0 ∉ c.framer.activeStreams ∧ ¬ c.Remembers := by
  have hrun : (sharedPacket.foldlM (run fun _ => 0) (.new 100000)).map
      (fun c => (c.streams 0).map fun s => (s.canceledWrite,
        s.closedForShutdown, s.finishedWriting, s.finSent,
        decide (0 ∈ c.framer.activeStreams))) =
      .ok (some (false, false, true, false, false)) := by
    decide +kernel
  obtain ⟨c, hc, hobserved⟩ := map_eq_ok hrun
  obtain ⟨s, hs, hflags⟩ := Option.map_eq_some_iff.mp hobserved
  simp only [Prod.mk.injEq, decide_eq_false_iff_not] at hflags
  obtain ⟨hcanceled, hshutdown, hfinished, hsent, hforgotten⟩ := hflags
  refine ⟨c, s, Trace.of_foldlM_ok hc, hs, ⟨hcanceled, hshutdown⟩,
    ⟨hfinished, hsent⟩, hforgotten, fun hremembers => hforgotten ?_⟩
  exact hremembers 0 s hs ⟨hcanceled, hshutdown⟩ (Or.inr (Or.inr ⟨hfinished, hsent⟩))

end Connection

end Qperf.Quic
