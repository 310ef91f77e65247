import Qperf.Foundation.Segments
import Qperf.Foundation.Traces
import Qperf.Quic.SendStream

/-!
# What a send stream transmits

A send stream together with the frames that have left it and the calls of `Write`.
The frames that are acknowledged, outstanding or queued for retransmission are
always segments of the data that `Write` has accepted.
-/

namespace Qperf.Quic

open Qperf.Foundation

inductive WriteError where
  | deadline
  | stream (err : StreamError)
  deriving DecidableEq, Repr

inductive WriteStatus where
  | blocked
  | returned (bytesWritten : Nat) (err : Option WriteError)
  deriving DecidableEq, Repr

namespace SendStream

def unsentLen (s : SendStream) : Nat :=
  match s.dataForWriting with
  | none => 0
  | some data => data.1.length

/-- One turn of the loop of `Write`; `expired` says that its deadline has passed. -/
def writeTurn (s : SendStream) (p : List UInt8) (expired : Bool) :
    WriteStatus × SendStream :=
  let bytesWritten := p.length - s.unsentLen
  if expired then
    (.returned bytesWritten (some .deadline), s.writeDeadlineExceeded.stream)
  else if s.dataForWriting.isNone || s.canceledWrite || s.closedForShutdown then
    (.returned bytesWritten ((s.closeForShutdownErr <|> s.cancelWriteErr).map .stream), s)
  else (.blocked, s)

/--
`Write` until it returns or waits for the framer.  It looks at the clock before
its loop and in it.
-/
def writeCall (s : SendStream) (p : List UInt8) (expired expiredInLoop : Bool) :
    WriteStatus × SendStream :=
  if s.finishedWriting then
    (.returned 0 (some (.stream (.writeOnClosedStream s.streamID))), s)
  else if s.canceledWrite then
    (.returned 0 (s.cancelWriteErr.map .stream), s)
  else if s.closeForShutdownErr.isSome then
    (.returned 0 (s.closeForShutdownErr.map .stream), s)
  else if expired then
    (.returned 0 (some .deadline), s)
  else if h : p = [] then
    (.returned 0 none, s)
  else
    writeTurn { s with dataForWriting := some ⟨p, h⟩ } p expiredInLoop

theorem writeCall_eq_write {s : SendStream} (p : List UInt8)
    (h : s.closedForShutdown = true → s.closeForShutdownErr.isSome = true) :
    s.writeCall p false false =
      (if (s.write p).onHasStreamData then .blocked
        else .returned 0 ((s.write p).error.map .stream), (s.write p).stream) := by
  unfold writeCall write
  cases s.finishedWriting with
  | true => rfl
  | false =>
    cases s.canceledWrite with
    | true => rfl
    | false =>
      by_cases hshutdown : s.closeForShutdownErr.isSome = true
      · simp [hshutdown]
      · have hopen : s.closedForShutdown = false := Bool.eq_false_iff.mpr (mt h hshutdown)
        by_cases hp : p = []
        · simp [hshutdown, hp]
        · simp [hshutdown, hp, writeTurn, hopen]

end SendStream

def StreamFrame.segment (f : StreamFrame) : Segment UInt8 :=
  ⟨f.offset, f.data, f.finBit⟩

/--
A send stream, the argument of the call of `Write` that is blocked, the arguments
and results of the calls that have returned, and the frames that were popped.
-/
structure Transmission where
  stream : SendStream
  current : Option (List UInt8)
  returned : List (List UInt8 × Nat)
  acked : List StreamFrame
  outstanding : List StreamFrame

inductive TransmissionEvent where
  | write (p : List UInt8) (expired expiredInLoop : Bool)
  | wake (expired : Bool)
  | close
  | handleMaxStreamDataFrame (byteOffset : Nat)
  | pop (connection : SendController) (maxBytes : Nat)
  | frameAcked (f : StreamFrame)
  | frameLost (f : StreamFrame)

namespace Transmission

def new (streamID : StreamID) (initialSendWindow : Nat) : Transmission where
  stream := .new streamID initialSendWindow
  current := none
  returned := []
  acked := []
  outstanding := []

def record (t : Transmission) (p : List UInt8)
    (result : WriteStatus × SendStream) : Transmission :=
  match result.1 with
  | .blocked => { t with stream := result.2, current := some p }
  | .returned n _ =>
    { t with
      stream := result.2
      current := none
      returned := t.returned ++ [(p, n)] }

/--
Calls of `Write` do not overlap, and only outstanding frames are acknowledged or
lost: events at other times do nothing.
-/
def step (t : Transmission) : TransmissionEvent → Except GoPanic Transmission
  | .write p expired expiredInLoop =>
    match t.current with
    | some _ => .ok t
    | none => .ok (t.record p (t.stream.writeCall p expired expiredInLoop))
  | .wake expired =>
    match t.current with
    | none => .ok t
    | some p => .ok (t.record p (t.stream.writeTurn p expired))
  | .close => .ok { t with stream := t.stream.close.stream }
  | .handleMaxStreamDataFrame byteOffset =>
    .ok { t with
      stream := (t.stream.handleMaxStreamDataFrame byteOffset).stream }
  | .pop connection maxBytes => do
    let popped ← t.stream.popStreamFrame connection maxBytes
    return { t with
      stream := popped.stream
      outstanding := t.outstanding ++ popped.frame.toList }
  | .frameAcked f =>
    if f ∈ t.outstanding then do
      let outcome ← t.stream.frameAcked
      return { t with
        stream := outcome.stream
        outstanding := t.outstanding.erase f
        acked := t.acked ++ [f] }
    else .ok t
  | .frameLost f =>
    if f ∈ t.outstanding then do
      let outcome ← t.stream.queueRetransmission f
      return { t with
        stream := outcome.stream
        outstanding := t.outstanding.erase f }
    else .ok t

def frames (t : Transmission) : List StreamFrame :=
  t.acked ++ (t.outstanding ++ t.stream.retransmissionQueue)

def poppedLen (t : Transmission) : Nat :=
  match t.current with
  | none => 0
  | some p => p.length - t.stream.unsentLen

/-- The data of all calls of `Write`, without what they have not sent. -/
def written (t : Transmission) : List UInt8 :=
  t.returned.flatMap (fun call => call.1.take call.2) ++
    (t.current.getD []).take t.poppedLen

structure Exact (t : Transmission) : Prop where
  disjoint : t.frames.Pairwise fun f g =>
    Disjoint f.segment.range g.segment.range
  covers : ∀ x, (∃ f ∈ t.frames, x ∈ f.segment.range) ↔ x < t.stream.writeOffset
  data : ∀ f ∈ t.frames, f.data = (t.written.drop f.offset).take f.dataLen
  fin : t.stream.finSent = true → ∃ f, t.frames.filter (fun f => f.finBit) = [f] ∧
      f.offset + f.dataLen = t.stream.writeOffset
  counts : (t.returned.map Prod.snd).sum + t.poppedLen = t.stream.writeOffset

/-! ## What the events preserve -/

structure Kept (t : Transmission) : Prop where
  segments : Segments t.written t.stream.finSent
    (t.frames.map StreamFrame.segment)
  length : t.written.length = t.stream.writeOffset
  counted : ∀ call ∈ t.returned, call.2 ≤ call.1.length
  unsent : ∀ data, t.stream.dataForWriting = some data →
    ∃ p, t.current = some p ∧ data.1 <:+ p
  ended : t.stream.finSent = true →
    t.stream.finishedWriting = true ∧ t.stream.dataForWriting = none
  canceled : t.stream.canceledWrite = false
  shutdown : t.stream.closedForShutdown = false
  outstanding : t.stream.numOutstandingFrames = t.outstanding.length

variable {t t' : Transmission}

theorem Kept.new (streamID : StreamID) (initialSendWindow : Nat) :
    (new streamID initialSendWindow).Kept where
  segments := .empty
  length := rfl
  counted := fun call hcall => by cases hcall
  unsent := fun data hdata => by cases hdata
  ended := fun hfin => by cases hfin
  canceled := rfl
  shutdown := rfl
  outstanding := rfl

private theorem length_flatMap_take {calls : List (List UInt8 × Nat)}
    (h : ∀ call ∈ calls, call.2 ≤ call.1.length) :
    (calls.flatMap fun call => call.1.take call.2).length = (calls.map Prod.snd).sum := by
  induction calls with
  | nil => rfl
  | cons call calls ih =>
    obtain ⟨hcall, hcalls⟩ := List.forall_mem_cons.mp h
    rw [List.flatMap_cons, List.length_append, ih hcalls, List.length_take,
      Nat.min_eq_left hcall, List.map_cons, List.sum_cons]

private theorem poppedLen_le (t : Transmission) :
    t.poppedLen ≤ (t.current.getD []).length := by
  unfold poppedLen
  split
  · exact Nat.zero_le _
  · next p hp =>
    rw [hp, Option.getD_some]
    exact Nat.sub_le ..

theorem Kept.exact (h : t.Kept) : t.Exact where
  disjoint := by
    have hdisjoint := h.segments.pairwise_disjoint
    rw [List.pairwise_map] at hdisjoint
    exact hdisjoint
  covers := fun x => by
    rw [← h.length, ← h.segments.mem_range_iff]
    simp only [List.mem_map, exists_exists_and_eq_and]
  data := fun f hf => h.segments.data f.segment (List.mem_map_of_mem hf)
  fin := fun hfin => by
    have hsegments := h.segments
    rw [hfin] at hsegments
    obtain ⟨s, hs, hstop⟩ := hsegments.filter_final
    rw [List.filter_map] at hs
    obtain ⟨f, hf, rfl⟩ := List.map_eq_singleton_iff.mp hs
    exact ⟨f, hf, hstop.trans h.length⟩
  counts := by
    rw [← h.length, written, List.length_append, length_flatMap_take h.counted,
      List.length_take, Nat.min_eq_left t.poppedLen_le]

/-! ### Writing -/

variable {connection : SendController} {f : StreamFrame} {maxBytes size : Nat}
variable {p : List UInt8} {popped : SendStream.Popped}

theorem Kept.writeReturns (h : t.Kept) (hp : t.current = some p) : Kept { t with
      stream := { t.stream with dataForWriting := none }
      current := none
      returned := t.returned ++ [(p, p.length - t.stream.unsentLen)] } := by
  have hwritten : written { t with
      stream := { t.stream with dataForWriting := none }
      current := none
      returned := t.returned ++ [(p, p.length - t.stream.unsentLen)] } =
      t.written := by
    simp [written, poppedLen, hp]
  refine ⟨?_, ?_, ?_, ?_, ?_, h.canceled, h.shutdown, h.outstanding⟩
  · rw [hwritten]
    exact h.segments
  · rw [hwritten]
    exact h.length
  · intro call hcall
    rcases List.mem_append.mp hcall with hcall | hcall
    · exact h.counted call hcall
    · rw [List.mem_singleton.mp hcall]
      exact Nat.sub_le ..
  · intro data hdata
    cases hdata
  · intro hfin
    exact ⟨(h.ended hfin).1, rfl⟩

theorem Kept.writeTurn (h : t.Kept) (hp : t.current = some p)
    (expired : Bool) : (t.record p (t.stream.writeTurn p expired)).Kept := by
  unfold SendStream.writeTurn
  cases expired with
  | true => exact h.writeReturns hp
  | false =>
    cases hdata : t.stream.dataForWriting with
    | none =>
      have hreturns := h.writeReturns hp
      rw [← hdata] at hreturns
      exact hreturns
    | some data =>
      rw [h.canceled, h.shutdown]
      have hsame : { t with current := some p } = t := by rw [← hp]
      rw [← hsame] at h
      exact h

theorem Kept.writeStarts (h : t.Kept) (hne : p ≠ [])
    (hcurrent : t.current = none) (hopen : t.stream.finishedWriting = false) :
    Kept { t with
      stream := { t.stream with dataForWriting := some ⟨p, hne⟩ }
      current := some p } := by
  have hwritten : written { t with
      stream := { t.stream with dataForWriting := some ⟨p, hne⟩ }
      current := some p } = t.written := by
    simp [written, poppedLen, SendStream.unsentLen, hcurrent]
  refine ⟨?_, ?_, h.counted, ?_, ?_, h.canceled, h.shutdown, h.outstanding⟩
  · rw [hwritten]
    exact h.segments
  · rw [hwritten]
    exact h.length
  · intro data hdata
    cases hdata
    exact ⟨p, rfl, List.suffix_rfl⟩
  · intro hfin
    have hclosed := (h.ended hfin).1
    rw [hopen] at hclosed
    cases hclosed

theorem Kept.writeRefused (h : t.Kept) (p : List UInt8)
    (hcurrent : t.current = none) :
    Kept { t with current := none, returned := t.returned ++ [(p, 0)] } := by
  have hwritten : written { t with
      current := none, returned := t.returned ++ [(p, 0)] } = t.written := by
    simp [written, poppedLen, hcurrent]
  refine ⟨?_, ?_, ?_, hcurrent ▸ h.unsent, h.ended, h.canceled, h.shutdown, h.outstanding⟩
  · rw [hwritten]
    exact h.segments
  · rw [hwritten]
    exact h.length
  · intro call hcall
    rcases List.mem_append.mp hcall with hcall | hcall
    · exact h.counted call hcall
    · rw [List.mem_singleton.mp hcall]
      exact Nat.zero_le _

theorem Kept.writeCall (h : t.Kept) (p : List UInt8)
    (expired expiredInLoop : Bool) (hcurrent : t.current = none) :
    (t.record p (t.stream.writeCall p expired expiredInLoop)).Kept := by
  have hrefused := h.writeRefused p hcurrent
  unfold SendStream.writeCall
  split
  · exact hrefused
  · next hopen =>
    split
    · exact hrefused
    split
    · exact hrefused
    split
    · exact hrefused
    split
    · exact hrefused
    · next hne =>
      exact (h.writeStarts hne hcurrent (by simpa using hopen)).writeTurn rfl expiredInLoop

/-! ### Popping frames -/

theorem perm_queued {α : Type} (acked outstanding queue : List α) (f : α) :
    (acked ++ (outstanding ++ f :: queue)).Perm (f :: (acked ++ (outstanding ++ queue))) := by
  rw [← List.append_assoc, ← List.append_assoc]
  exact List.perm_middle

theorem perm_popped {α : Type} (acked outstanding queue : List α) (f : α) :
    (acked ++ ((outstanding ++ [f]) ++ queue)).Perm (f :: (acked ++ (outstanding ++ queue))) := by
  rw [List.append_assoc outstanding]
  exact perm_queued acked outstanding queue f

private theorem segment_split {first last : StreamFrame}
    (h : f.maybeSplitOffFrame maxBytes = .ok (.split first last)) :
    ∃ n ≤ f.data.length, first.segment = f.segment.first n ∧ last.segment = f.segment.rest n := by
  obtain ⟨length, _, h⟩ := bind_eq_ok.mp h
  split at h
  · cases h
  · obtain ⟨n, _, h⟩ := bind_eq_ok.mp h
    split at h
    · cases h
    · split at h
      · cases h
      · next hbounds =>
        cases h
        exact ⟨n, Nat.le_of_not_lt fun hlt => hbounds (Or.inl hlt), rfl, rfl⟩

theorem Kept.popRetransmission (h : t.Kept) {rest : List StreamFrame}
    (hqueue : t.stream.retransmissionQueue = f :: rest)
    (hpop : SendStream.PopRetransmission t.stream connection maxBytes f rest popped) :
    Kept { t with
      stream := popped.stream
      outstanding := t.outstanding ++ popped.frame.toList } := by
  have hsegments := h.segments
  unfold frames at hsegments
  rw [hqueue] at hsegments
  have hfront := hsegments.perm
    ((perm_queued t.acked t.outstanding rest f).map StreamFrame.segment)
  cases hpop with
  | tooSmall =>
    rw [Option.toList_none, List.append_nil]
    exact h
  | @split first last hsplit =>
    obtain ⟨n, hn, hfirst, hlast⟩ := segment_split hsplit
    refine { h with segments := ?_, outstanding := ?_ }
    · have hcut := hfront.cut hn
      rw [← hfirst, ← hlast] at hcut
      have hperm := (perm_popped t.acked t.outstanding (last :: rest)
        first).trans ((perm_queued t.acked t.outstanding rest last).cons first)
      exact hcut.perm (hperm.map StreamFrame.segment).symm
    · simp [SendStream.addOutstanding, h.outstanding]
  | fits =>
    refine { h with segments := ?_, outstanding := ?_ }
    · exact hfront.perm ((perm_popped t.acked t.outstanding rest f).map
        StreamFrame.segment).symm
    · simp [SendStream.addOutstanding, h.outstanding]

theorem remainder_eq_some {data rest : Unsent} {n : Nat}
    (h : SendStream.remainder data n = some rest) : rest.1 = data.1.drop n := by
  unfold SendStream.remainder at h
  split at h
  · cases h
    rfl
  · cases h

private theorem length_remainder (data : Unsent) (n : Nat) :
    (match SendStream.remainder data n with
      | none => 0
      | some rest => rest.1.length) = data.1.length - n := by
  split
  · next hnone =>
    unfold SendStream.remainder at hnone
    split at hnone
    · cases hnone
    · omega
  · next rest hrest =>
    rw [remainder_eq_some hrest, List.length_drop]

theorem written_afterData {data : Unsent} (n : Nat)
    (hdata : t.stream.dataForWriting = some data) (hp : t.current = some p)
    (hsuffix : data.1 <:+ p) (outstanding : List StreamFrame) :
    written { t with
      stream := (t.stream.afterData data n).addOutstanding
      outstanding } = t.written ++ data.1.take n := by
  obtain ⟨before, rfl⟩ := hsuffix
  have hbefore : t.poppedLen = before.length := by
    simp [poppedLen, hp, SendStream.unsentLen, hdata]
  have hafter : poppedLen { t with
      stream := (t.stream.afterData data n).addOutstanding
      outstanding } = before.length + (data.1.take n).length := by
    have hrest : (t.stream.afterData data n).addOutstanding.unsentLen =
        data.1.length - n := length_remainder data n
    unfold poppedLen
    rw [hp]
    dsimp only
    rw [hrest, List.length_append, List.length_take]
    omega
  unfold written
  rw [hbefore, hafter, hp, Option.getD_some, List.take_left,
    List.take_length_add_append, List.length_take, ← List.take_eq_take_min,
    List.append_assoc]

theorem Kept.popNew (h : t.Kept) {room : Nat}
    (hpop : SendStream.PopNew t.stream connection room popped) :
    Kept { t with
      stream := popped.stream
      outstanding := t.outstanding ++ popped.frame.toList } := by
  cases hpop with
  | noRoom | idle | blocked =>
    rw [Option.toList_none, List.append_nil]
    exact h
  | newlyBlocked =>
    rw [Option.toList_none, List.append_nil]
    exact { h with }
  | fin _ hdata hfin =>
    have hsegments := h.segments
    rw [hfin.2] at hsegments
    have hend := hsegments.extend [] true
    rw [List.append_nil, h.length] at hend
    refine ⟨?_, h.length, h.counted, h.unsent, ?_, h.canceled, h.shutdown, ?_⟩
    · exact hend.perm ((perm_popped t.acked t.outstanding
        t.stream.retransmissionQueue
          { t.stream.newFrame with finBit := true }).map
        StreamFrame.segment).symm
    · exact fun _ => ⟨hfin.1, hdata⟩
    · simp [SendStream.addOutstanding, h.outstanding]
  | @data data n hdata hn hpos hbuffer =>
    obtain ⟨p, hp, hsuffix⟩ := h.unsent data hdata
    have hwritten := written_afterData n hdata hp hsuffix
      (t.outstanding ++ [t.stream.dataFrame data n])
    have hnotSent : t.stream.finSent = false := by
      by_contra hsent
      have hnone := (h.ended (by simpa using hsent)).2
      rw [hdata] at hnone
      cases hnone
    have hsegments := h.segments
    rw [hnotSent] at hsegments
    have hextend := hsegments.extend (data.1.take n) (t.stream.dataFrame data n).finBit
    rw [h.length] at hextend
    refine ⟨?_, ?_, h.counted, ?_, ?_, h.canceled, h.shutdown, ?_⟩
    · have hfin : ((t.stream.afterData data n).addOutstanding).finSent =
          (t.stream.dataFrame data n).finBit := by
        simp [SendStream.addOutstanding, SendStream.afterData, hnotSent]
      refine hfin ▸ hwritten ▸ hextend.perm ((perm_popped t.acked
        t.outstanding t.stream.retransmissionQueue
          (t.stream.dataFrame data n)).map StreamFrame.segment).symm
    · exact (congrArg List.length hwritten).trans (by
        rw [List.length_append, h.length]
        rfl)
    · intro rest hrest
      refine ⟨p, hp, .trans ?_ hsuffix⟩
      rw [remainder_eq_some hrest]
      exact List.drop_suffix n data.1
    · intro hfin
      rcases SendStream.finSent_afterData hfin with hsent | hlast
      · rw [hnotSent] at hsent
        cases hsent
      · exact hlast
    · simp [SendStream.addOutstanding, SendStream.afterData, h.outstanding]

theorem Kept.pop (h : t.Kept)
    (hpop : t.stream.popStreamFrame connection maxBytes = .ok popped) :
    Kept { t with
      stream := popped.stream
      outstanding := t.outstanding ++ popped.frame.toList } := by
  cases SendStream.popStreamFrame_cases hpop with
  | retransmission hqueue hpop => exact h.popRetransmission hqueue hpop
  | stopped _ _ hpop =>
    subst hpop
    rw [Option.toList_none, List.append_nil]
    exact h
  | new _ _ _ hpop => exact h.popNew hpop

/-! ### Frames that are acknowledged or lost -/

theorem Kept.dropOutstanding (h : t.Kept) (hf : f ∈ t.outstanding) :
    t.stream.dropOutstanding = .ok { t.stream with
      numOutstandingFrames := (t.outstanding.erase f).length } := by
  have hpos := List.length_pos_of_mem hf
  have hlength := List.length_erase_of_mem hf
  have hcount : t.stream.numOutstandingFrames - 1 = (t.outstanding.erase f).length := by
    rw [h.outstanding, hlength]
    omega
  unfold SendStream.dropOutstanding
  rw [hcount, if_neg (by omega)]

theorem perm_erase_outstanding (hf : f ∈ t.outstanding) :
    t.frames.Perm (f :: (t.acked ++
      (t.outstanding.erase f ++ t.stream.retransmissionQueue))) := by
  have hperm : t.outstanding.Perm (f :: t.outstanding.erase f) := List.perm_cons_erase hf
  exact ((hperm.append_right _).append_left _).trans List.perm_middle

theorem Kept.markCompleted (h : t.Kept) :
    Kept { t with stream := t.stream.markCompleted } := by
  unfold SendStream.markCompleted
  split
  · exact { h with }
  · exact h

theorem Kept.frameAcked (h : t.Kept) (hf : f ∈ t.outstanding)
    {outcome : Outcome} (hacked : t.stream.frameAcked = .ok outcome) :
    Kept { t with
      stream := outcome.stream
      outstanding := t.outstanding.erase f
      acked := t.acked ++ [f] } := by
  unfold SendStream.frameAcked at hacked
  rw [h.dropOutstanding hf, ok_bind] at hacked
  cases hacked
  have hdropped : Kept { t with
      stream := { t.stream with
        numOutstandingFrames := (t.outstanding.erase f).length }
      outstanding := t.outstanding.erase f
      acked := t.acked ++ [f] } := by
    refine { h with segments := ?_, outstanding := rfl }
    have hperm := perm_erase_outstanding hf
    refine h.segments.perm ((hperm.trans ?_).map StreamFrame.segment)
    unfold frames
    rw [List.append_assoc, List.singleton_append]
    exact List.perm_middle.symm
  exact hdropped.markCompleted

theorem Kept.frameLost (h : t.Kept) (hf : f ∈ t.outstanding)
    {outcome : Outcome} (hlost : t.stream.queueRetransmission f = .ok outcome) :
    Kept { t with
      stream := outcome.stream
      outstanding := t.outstanding.erase f } := by
  unfold SendStream.queueRetransmission at hlost
  rw [h.dropOutstanding hf, ok_bind] at hlost
  cases hlost
  refine { h with segments := ?_, outstanding := rfl }
  have hperm := (perm_erase_outstanding hf).map StreamFrame.segment
  refine h.segments.perm (hperm.trans ?_)
  simp only [frames, List.map_cons, List.map_append, List.map_nil]
  rw [← List.append_assoc, ← List.append_assoc, ← List.append_assoc]
  exact (List.perm_append_singleton _ _).symm

/-! ### Every event -/

theorem Kept.step (h : t.Kept) {event : TransmissionEvent}
    (hstep : t.step event = .ok t') : t'.Kept := by
  cases event with
  | write p expired expiredInLoop =>
    cases hcurrent : t.current with
    | some _ =>
      simp only [Transmission.step, hcurrent] at hstep
      cases hstep
      exact h
    | none =>
      simp only [Transmission.step, hcurrent] at hstep
      cases hstep
      exact h.writeCall p expired expiredInLoop hcurrent
  | wake expired =>
    cases hcurrent : t.current with
    | none =>
      simp only [Transmission.step, hcurrent] at hstep
      cases hstep
      exact h
    | some p =>
      simp only [Transmission.step, hcurrent] at hstep
      cases hstep
      exact h.writeTurn hcurrent expired
  | close =>
    cases hstep
    unfold SendStream.close
    rw [h.canceled]
    refine { h with ended := ?_, canceled := rfl }
    exact fun hfin => ⟨rfl, (h.ended hfin).2⟩
  | handleMaxStreamDataFrame byteOffset =>
    cases hstep
    exact { h with }
  | pop connection maxBytes =>
    obtain ⟨popped, hpop, hstep⟩ := bind_eq_ok.mp hstep
    cases hstep
    exact h.pop hpop
  | frameAcked f =>
    unfold Transmission.step at hstep
    dsimp only at hstep
    split at hstep
    · next hf =>
      obtain ⟨outcome, hacked, hstep⟩ := bind_eq_ok.mp hstep
      cases hstep
      exact h.frameAcked hf hacked
    · cases hstep
      exact h
  | frameLost f =>
    unfold Transmission.step at hstep
    dsimp only at hstep
    split at hstep
    · next hf =>
      obtain ⟨outcome, hlost, hstep⟩ := bind_eq_ok.mp hstep
      cases hstep
      exact h.frameLost hf hlost
    · cases hstep
      exact h

def Finished (size : Nat) (t : Transmission) : Prop :=
  t.stream.finSent = true ∧ t.stream.writeOffset = size

theorem Finished.writeTurn (h : t.Finished size) (p : List UInt8) (expired : Bool) :
    (t.record p (t.stream.writeTurn p expired)).Finished size := by
  unfold SendStream.writeTurn
  split_ifs <;> exact h

theorem Finished.pop (h : t.Finished size) (hkept : t.Kept)
    (hpop : t.stream.popStreamFrame connection maxBytes = .ok popped) :
    popped.stream.finSent = true ∧ popped.stream.writeOffset = size := by
  obtain ⟨hclosed, hnone⟩ := hkept.ended h.1
  cases SendStream.popStreamFrame_cases hpop with
  | retransmission hqueue hpop => cases hpop <;> exact h
  | stopped _ _ hpop =>
    subst hpop
    exact h
  | new _ _ _ hpop =>
    cases hpop with
    | noRoom | idle | newlyBlocked | blocked => exact h
    | fin => exact ⟨rfl, h.2⟩
    | data hdata =>
      rw [hnone] at hdata
      cases hdata

theorem Finished.dropped (h : t.Finished size) {s : SendStream}
    (hdrop : t.stream.dropOutstanding = .ok s) :
    s.finSent = true ∧ s.writeOffset = size := by
  unfold SendStream.dropOutstanding at hdrop
  split at hdrop
  · cases hdrop
  · cases hdrop
    exact h

theorem Finished.step (h : t.Finished size) (hkept : t.Kept)
    {event : TransmissionEvent} (hstep : t.step event = .ok t') :
    t'.Finished size := by
  unfold Transmission.step at hstep
  cases event with
  | write p expired expiredInLoop =>
    dsimp only at hstep
    split at hstep
    · cases hstep
      exact h
    · cases hstep
      -- Close was called before the FIN was sent, so that `Write` is refused.
      unfold SendStream.writeCall
      rw [(hkept.ended h.1).1, if_pos rfl]
      exact h
  | wake expired =>
    dsimp only at hstep
    split at hstep
    · cases hstep
      exact h
    · cases hstep
      exact h.writeTurn _ expired
  | close =>
    cases hstep
    unfold SendStream.close
    split <;> exact h
  | handleMaxStreamDataFrame byteOffset =>
    cases hstep
    exact h
  | pop connection maxBytes =>
    obtain ⟨popped, hpop, hstep⟩ := bind_eq_ok.mp hstep
    cases hstep
    exact h.pop hkept hpop
  | frameAcked f =>
    dsimp only at hstep
    split at hstep
    · obtain ⟨outcome, hacked, hstep⟩ := bind_eq_ok.mp hstep
      obtain ⟨s, hdrop, hacked⟩ := bind_eq_ok.mp hacked
      cases hacked
      cases hstep
      have hdropped := h.dropped hdrop
      unfold Finished SendStream.markCompleted
      split <;> exact hdropped
    · cases hstep
      exact h
  | frameLost f =>
    dsimp only at hstep
    split at hstep
    · obtain ⟨outcome, hlost, hstep⟩ := bind_eq_ok.mp hstep
      obtain ⟨s, hdrop, hlost⟩ := bind_eq_ok.mp hlost
      cases hlost
      cases hstep
      have hdropped := h.dropped hdrop
      exact hdropped
    · cases hstep
      exact h

/-- Only a pop can panic, if its size does not fit into the frame's buffer. -/
theorem Kept.step_ok (h : t.Kept) (event : TransmissionEvent)
    (hpop : ∀ connection maxBytes, event ≠ .pop connection maxBytes) :
    ∃ t', t.step event = .ok t' := by
  unfold Transmission.step
  cases event with
  | pop connection maxBytes => exact absurd rfl (hpop connection maxBytes)
  | close | handleMaxStreamDataFrame => exact ⟨_, rfl⟩
  | write | wake =>
    dsimp only
    split <;> exact ⟨_, rfl⟩
  | frameAcked f | frameLost f =>
    dsimp only
    split
    · next hf =>
      simp only [SendStream.frameAcked, SendStream.queueRetransmission,
        h.dropOutstanding hf, ok_bind]
      exact ⟨_, rfl⟩
    · exact ⟨_, rfl⟩

/-! ## Every run -/

def Reaches : Transmission → List TransmissionEvent → Transmission → Prop :=
  Trace fun t event t' => t.step event = .ok t'

theorem Reaches.kept {events : List TransmissionEvent} (h : t.Kept)
    (hrun : Reaches t events t') : t'.Kept :=
  Trace.invariant Kept h (fun _ _ _ hkept hstep => hkept.step hstep) hrun

theorem Reaches.writeOffset {events : List TransmissionEvent} (h : t.Kept)
    (hfin : t.stream.finSent = true) (hrun : Reaches t events t') :
    t'.stream.writeOffset = t.stream.writeOffset := by
  have hinvariant := Trace.invariant
    (fun u => u.Kept ∧ u.Finished t.stream.writeOffset) ⟨h, hfin, rfl⟩
    (fun u _ _ hu hstep => ⟨hu.1.step hstep, hu.2.step hu.1 hstep⟩) hrun
  exact hinvariant.2.2

/--
At every point of a run the frames that are acknowledged, outstanding or queued
hold every byte once, and the stream does not grow after its FIN.
-/
theorem transmission_exact {streamID : StreamID} {initialSendWindow : Nat}
    {events : List TransmissionEvent} (h : Reaches (.new streamID initialSendWindow) events t) :
    t.Exact ∧ (t.stream.finSent = true → ∀ later t',
      Reaches t later t' → t'.stream.writeOffset = t.stream.writeOffset) := by
  have hkept := h.kept (.new streamID initialSendWindow)
  exact ⟨hkept.exact, fun hfin later t' => Reaches.writeOffset hkept hfin⟩

def lossyTransfer : List TransmissionEvent :=
  [.write [1, 2, 3, 4, 5, 6, 7, 8, 9, 10] false false, .pop (.new 1000) 8,
    .frameLost ⟨4, 0, [1, 2, 3, 4, 5], false, true⟩,
    .pop (.new 1000) 6,
    .close,
    .pop (.new 1000) 20,
    .pop (.new 1000) 100,
    .wake false,
    .frameAcked ⟨4, 0, [1, 2, 3], false, true⟩]

theorem transmission_exact_lossyTransfer : ∃ t,
    Reaches (.new 4 1000) lossyTransfer t ∧ t.stream.finSent = true ∧
      t.Exact ∧ ∀ later t', Reaches t later t' →
        t'.stream.writeOffset = t.stream.writeOffset := by
  have hrun : ∃ t, Reaches (.new 4 1000) lossyTransfer t ∧ t.stream.finSent = true :=
    ⟨_, Trace.of_foldlM_ok rfl, rfl⟩
  obtain ⟨t, hrun, hfin⟩ := hrun
  obtain ⟨hexact, hfinal⟩ := transmission_exact hrun
  exact ⟨t, hrun, hfin, hexact, hfinal hfin⟩

end Transmission

end Qperf.Quic
