import Qperf.Foundation.Traces
import Qperf.Quic.ReceiveSteps

/-!
# Reading a stream

The frames carry slices of one string of bytes, in any order.  The bytes that `Read`
returns are a prefix of it, and its end is reported exactly where it is.  This does not
depend on data that the sorter loses: the queue holds slices of the string at their
positions, and `Read` takes them from its own position only.
-/

namespace Qperf.Quic

open Qperf.Foundation

/-- The bytes are those of the string from the position on. -/
def Slices (stream : List UInt8) (p : Nat) (bytes : List UInt8) : Prop :=
  p + bytes.length ≤ stream.length ∧
    bytes = FrameSorter.segmentAt stream p bytes.length

instance (stream : List UInt8) (p : Nat) (bytes : List UInt8) :
    Decidable (Slices stream p bytes) :=
  inferInstanceAs (Decidable (_ ∧ _))

theorem drop_segmentAt (stream : List UInt8) (p n k : Nat) :
    (FrameSorter.segmentAt stream p n).drop k = FrameSorter.segmentAt stream (p + k) (n - k) := by
  unfold FrameSorter.segmentAt
  rw [List.drop_take, List.drop_drop]

private theorem cuttable_slices (stream : List UInt8) :
    FrameSorter.Cuttable (Slices stream) := by
  intro p bytes k m ⟨hle, hbytes⟩ hk
  have hlen : ((bytes.drop k).take m).length = min m (bytes.length - k) := by
    rw [List.length_take, List.length_drop]
  refine ⟨by omega, ?_⟩
  rw [hlen]
  nth_rewrite 1 [hbytes]
  rw [drop_segmentAt, FrameSorter.segmentAt, List.take_take, ← FrameSorter.segmentAt]

namespace ReceiveStream

variable {stream : List UInt8} {t t' : ReceiveStream}
variable {connection connection' : ReceiveController}

structure Content (stream : List UInt8) (t : ReceiveStream) : Prop where
  entries : FrameSorter.EveryEntry (Slices stream) t.frameQueue.queue
  readPos : t.frameQueue.readPos ≤ stream.length
  current : t.frameBytes.drop t.readPosInFrame =
    FrameSorter.segmentAt stream t.readOffset (t.frameBytes.length - t.readPosInFrame)
  final : t.finalOffset = maxByteCount ∨ t.finalOffset = stream.length
  last : t.currentFrameIsLast = true → stream.length ≤ t.frameQueue.readPos
  read : t.finRead = true → t.readOffset = stream.length
  notCanceled : t.canceledRead = false
  cancelReadErr : t.cancelReadErr = none
  resetRemotelyErr : t.resetRemotelyErr = none

theorem content_new (stream : List UInt8) (id : StreamID) (flowController : StreamController) :
    Content stream (new id flowController) where
  entries := FrameSorter.everyEntry_new _
  readPos := Nat.zero_le _
  current := rfl
  final := .inl rfl
  last := fun h => by cases h
  read := fun h => by cases h
  notCanceled := rfl
  cancelReadErr := rfl
  resetRemotelyErr := rfl

theorem Content.flowController (h : Content stream t) (flowController : StreamController) :
    Content stream { t with flowController } := by
  obtain ⟨h₁, h₂, h₃, h₄, h₅, h₆, h₇, h₈, h₉⟩ := h
  exact ⟨h₁, h₂, h₃, h₄, h₅, h₆, h₇, h₈, h₉⟩

theorem Content.dequeueNextFrame (h : Content stream t) (hpos : t.Positioned)
    (hread : t.readPosInFrame = t.frameBytes.length) :
    Content stream t.dequeueNextFrame := by
  have hoffset : t.readOffset = t.frameQueue.readPos := by
    have := hpos.offset
    omega
  have hlast : ∀ n, n ≤ maxByteCount - 1 → t.finalOffset ≤ n → stream.length ≤ n := by
    intro n hn hle
    rcases h.final with hmax | hend
    · simp only [maxByteCount] at *
      omega
    · rwa [hend] at hle
  cases hpop : t.frameQueue.pop.data with
  | none =>
    obtain ⟨hqueue, hbytes, hisLast⟩ := dequeueNextFrame_of_none hpop
    refine ⟨hqueue ▸ h.entries, hqueue ▸ h.readPos, ?_, h.final, ?_, h.read,
      h.notCanceled, h.cancelReadErr, h.resetRemotelyErr⟩
    · rw [hbytes]
      rfl
    · intro hflag
      rw [hisLast, decide_eq_true_eq] at hflag
      rw [hqueue]
      exact hlast _ hpos.below.readPos hflag
  | some data =>
    obtain ⟨entry, hentry, rfl, hbytes, hqueue, hisLast⟩ := dequeueNextFrame_of_some hpop
    obtain ⟨hle, hslice⟩ := h.entries _ entry hentry
    refine ⟨?_, ?_, ?_, h.final, ?_, h.read, h.notCanceled, h.cancelReadErr,
      h.resetRemotelyErr⟩
    · rw [hqueue]
      exact h.entries.erase _
    · rw [hqueue]
      exact hle
    · rw [hbytes]
      change entry.data.bytes.drop 0 = FrameSorter.segmentAt stream t.readOffset
        (entry.data.bytes.length - 0)
      rw [hoffset]
      exact hslice
    · intro hflag
      rw [hisLast, decide_eq_true_eq] at hflag
      rw [hqueue]
      exact hlast _ (hpos.below.entries _ entry hentry) hflag

theorem Dequeued.content (hd : Dequeued t t') (h : Content stream t)
    (hpos : t.Positioned) : Content stream t' := by
  cases hd with
  | same => exact h
  | next hread => exact h.dequeueNextFrame hpos hread

theorem StreamHandled.content {frame : StreamFrame} {putBack : Callback} {completed : Bool}
    (hhandled : StreamHandled t connection frame putBack ((t', connection'), completed))
    (hslice : Slices stream frame.offset frame.data)
    (hfin : frame.finBit = true → frame.offset + frame.data.length = stream.length)
    (h : Content stream t) (hpos : t.Positioned) : Content stream t' := by
  cases hhandled with
  | canceled _ hcanceled =>
    rw [h.notCanceled] at hcanceled
    cases hcanceled
  | pushed _ _ herror =>
    have hfinal : (if frame.finBit then frame.offset + frame.data.length
        else t.finalOffset) = maxByteCount ∨
        (if frame.finBit then frame.offset + frame.data.length
          else t.finalOffset) = stream.length := by
      split
      · next hbit => exact .inr (hfin hbit)
      · exact h.final
    rcases FrameSorter.push_entries hpos.separated herror with
      hsame | ⟨-, hreadPos, hentries⟩
    · rw [hsame]
      exact { h with final := hfinal }
    · exact { h with
        entries := hentries _ (cuttable_slices stream) h.entries hslice
        readPos := hreadPos ▸ h.readPos
        final := hfinal
        last := hreadPos.symm ▸ h.last }

theorem Content.copyBytes_eq (h : Content stream t) (room : Nat) : t.copyBytes room =
      FrameSorter.segmentAt stream t.readOffset (t.copyBytes room).length := by
  rw [copyBytes, h.current, FrameSorter.segmentAt, List.take_take, FrameSorter.segmentAt,
    List.length_take]
  exact List.take_eq_take_min ..

theorem Content.advance (h : Content stream t) (hread : t.finRead = false) (m : Nat) :
    Content stream (t.advance m) := by
  refine { h with current := ?_, read := ?_ }
  · change t.frameBytes.drop (t.readPosInFrame + m) =
      FrameSorter.segmentAt stream (t.readOffset + m)
        (t.frameBytes.length - (t.readPosInFrame + m))
    rw [← List.drop_drop, h.current, drop_segmentAt, Nat.sub_sub]
  · intro hfin
    change t.finRead = true at hfin
    rw [hread] at hfin
    cases hfin

theorem Content.offset_of_last (h : Content stream t) (hpos : t.Positioned)
    (hread : t.readPosInFrame = t.frameBytes.length)
    (hlast : t.currentFrameIsLast = true) : t.readOffset = stream.length := by
  have hoffset := hpos.offset
  have hle := h.readPos
  have hge := h.last hlast
  omega

end ReceiveStream

namespace ReceiveHalf

variable {stream : List UInt8} {h h' : ReceiveHalf}
variable {connection connection' : ReceiveController}

/-! ## What the application reads -/

def returned (results : List (List UInt8 × Option ReadError)) : List UInt8 :=
  (results.map Prod.fst).flatten

private theorem returned_append (results results' : List (List UInt8 × Option ReadError)) :
    returned (results ++ results') = returned results ++ returned results' := by
  unfold returned
  rw [List.map_append, List.flatten_append]

def inProgress (h : ReceiveHalf) : List UInt8 :=
  match h.call with
  | none => []
  | some call => call.copied

/-- The end is reported with the last bytes, and from then on without any. -/
def EndsExactly (stream : List UInt8) (results : List (List UInt8 × Option ReadError)) :
    Prop :=
  ∀ before bytes after, results = before ++ (bytes, some .eof) :: after →
    returned before ++ bytes = stream ∧ ∀ r ∈ after, r = ([], some .eof)

theorem EndsExactly.append {results : List (List UInt8 × Option ReadError)}
    (h : EndsExactly stream results) {bytes : List UInt8} {err : Option ReadError}
    (hend : err = some .eof → returned results ++ bytes = stream)
    (hafter : ∀ r ∈ results, r.2 = some .eof → bytes = [] ∧ err = some .eof) :
    EndsExactly stream (results ++ [(bytes, err)]) := by
  intro before bytes' after heq
  rcases List.eq_nil_or_concat after with rfl | ⟨after, last, rfl⟩
  · obtain ⟨rfl, hlast⟩ := List.append_inj' heq rfl
    cases hlast
    exact ⟨hend rfl, fun r hr => by cases hr⟩
  · rw [List.concat_eq_append, ← List.cons_append, ← List.append_assoc] at heq
    obtain ⟨rfl, hlast⟩ := List.append_inj' heq rfl
    cases hlast
    obtain ⟨hbytes, hrest⟩ := h before bytes' after rfl
    refine ⟨hbytes, fun r hr => ?_⟩
    rw [List.concat_eq_append] at hr
    rcases List.mem_append.mp hr with hr | hr
    · exact hrest r hr
    · obtain ⟨rfl, rfl⟩ := hafter _ (List.mem_append_right _ (List.mem_cons_self ..)) rfl
      exact List.mem_singleton.mp hr

structure Reads (stream : List UInt8) (h : ReceiveHalf) : Prop where
  positioned : h.stream.Positioned
  content : h.stream.Content stream
  bytes : returned h.results ++ h.inProgress = stream.take h.stream.readOffset
  ended : h.stream.finRead = true → h.call = none
  exact : EndsExactly stream h.results
  reported : ∀ r ∈ h.results, r.2 = some .eof → h.stream.finRead = true

private theorem reads_new (stream : List UInt8) (id : StreamID)
    (receiveWindow maxReceiveWindow : Nat) :
    Reads stream (new id receiveWindow maxReceiveWindow) where
  positioned := ReceiveStream.positioned_new ..
  content := ReceiveStream.content_new ..
  bytes := rfl
  ended := fun _ => rfl
  exact := by
    intro before bytes after heq
    exact absurd heq (by simp [new])
  reported := fun r hr => by cases hr

theorem Reads.of_stream (hr : Reads stream h) {t : ReceiveStream} (hpos : t.Positioned)
    (hcontent : t.Content stream) (hoffset : t.readOffset = h.stream.readOffset)
    (hfin : t.finRead = h.stream.finRead) (hcall : h'.call = h.call)
    (hresults : h'.results = h.results) (hstream : h'.stream = t) : Reads stream h' := by
  subst hstream
  refine ⟨hpos, hcontent, ?_, ?_, hresults ▸ hr.exact, ?_⟩
  · rw [hoffset, hresults, inProgress, hcall]
    exact hr.bytes
  · rw [hfin, hcall]
    exact hr.ended
  · rw [hfin, hresults]
    exact hr.reported

theorem Reads.finish (hr : Reads stream h) {t : ReceiveStream} (hpos : t.Positioned)
    (hcontent : t.Content stream) {bytes : List UInt8}
    (hbytes : returned h.results ++ bytes = stream.take t.readOffset)
    (hfin : h.stream.finRead = true → t.finRead = true) {err : Option ReadError}
    (hend : err = some .eof → t.finRead = true)
    (hafter : h.stream.finRead = true → bytes = [] ∧ err = some .eof) (len : Nat)
    (completed : Bool) : Reads stream (h.act t len bytes (.finish completed err)) where
  positioned := hpos
  content := hcontent
  bytes := by
    change returned (h.results ++ [(bytes, err)]) ++ [] = stream.take t.readOffset
    rw [returned_append, List.append_nil, ← hbytes]
    simp [returned]
  ended := fun _ => rfl
  exact := by
    refine hr.exact.append ?_ fun r hmem heof => hafter (hr.reported r hmem heof)
    intro heof
    rw [hbytes, hcontent.read (hend heof), List.take_length]
  reported := by
    intro r hmem heof
    rcases List.mem_append.mp hmem with hmem | hmem
    · exact hfin (hr.reported r hmem heof)
    · rw [List.mem_singleton.mp hmem] at heof
      exact hend heof

theorem Reads.readsOn (hr : Reads stream h) {t t' : ReceiveStream} (hpos : t.Positioned)
    (hcontent : t.Content stream) {copied : List UInt8}
    (hbytes : returned h.results ++ copied = stream.take t.readOffset)
    (hopen : h.stream.finRead = false) (hfin : t.finRead = false) (len : Nat)
    {action : ReadAction} (hreads : t.ReadsOn (t', action)) :
    Reads stream (h.act t' len copied action) := by
  have hdequeued := hreads.dequeued
  obtain ⟨-, -, hfin', -, -, -, -, hoffset⟩ := hdequeued.same_fields
  have hpos' := hdequeued.positioned hpos
  have hcontent' := hdequeued.content hcontent hpos
  rw [← hoffset] at hbytes
  rw [hfin] at hfin'
  have hnone : ∀ {P : Prop}, h.stream.finRead = true → P := by
    intro P htrue
    rw [hopen] at htrue
    cases htrue
  cases hreads with
  | finish _ herr =>
    refine hr.finish hpos' hcontent' hbytes hnone (fun heof => ?_) hnone len false
    rcases herr heof with hcancel | hreset
    · rw [← hcancel, hcontent.cancelReadErr] at heof
      cases heof
    · rw [← hreset, hcontent.resetRemotelyErr] at heof
      cases heof
  | wait | copy =>
    refine ⟨hpos', hcontent', hbytes, fun htrue => ?_, hr.exact, fun r hmem heof =>
      hnone (hr.reported r hmem heof)⟩
    change t'.finRead = true at htrue
    rw [hfin'] at htrue
    cases htrue

/-! ## Steps and runs -/

/-- Frames carry slices of the string, and only its end is final. -/
def Consistent (stream : List UInt8) : HalfEvent → Prop
  | .handleStreamFrame frame _ =>
    Slices stream frame.offset frame.data ∧
      (frame.finBit = true → frame.offset + frame.data.length = stream.length)
  | .handleResetStreamFrame .. | .cancelRead _ | .closeForShutdown _ => False
  | .startRead .. | .wakeRead _ | .finishCopy _ | .streamCompleted _
  | .onStreamCompleted _ | .getWindowUpdate _ => True

instance (stream : List UInt8) : DecidablePred (Consistent stream)
  | .handleStreamFrame frame _ =>
    inferInstanceAs (Decidable (Slices stream frame.offset frame.data ∧
      (frame.finBit = true → frame.offset + frame.data.length = stream.length)))
  | .handleResetStreamFrame .. | .cancelRead _ | .closeForShutdown _ =>
    inferInstanceAs (Decidable False)
  | .startRead .. | .wakeRead _ | .finishCopy _ | .streamCompleted _
  | .onStreamCompleted _ | .getWindowUpdate _ => inferInstanceAs (Decidable True)

/-- Other streams may change the controller of the connection between the steps. -/
def ConsistentStep (stream : List UInt8) (h : ReceiveHalf) (event : HalfEvent)
    (h' : ReceiveHalf) : Prop :=
  Consistent stream event ∧ ∃ convert connection connection',
    h.step convert connection event = .ok (h', connection')

theorem Reads.copyCurrent (hr : Reads stream h) {len : Nat} {copied copied' : List UInt8}
    {copying : Bool} (hcall : h.call = some ⟨len, copied, copying⟩) {t : ReceiveStream}
    (hcopied : h.copyCurrent connection len copied = ((t, connection'), copied')) :
    h.stream.finRead = false ∧ t.finRead = false ∧ t.Content stream ∧
      returned h.results ++ copied' = stream.take t.readOffset := by
  have hopen : h.stream.finRead = false := by
    refine Bool.eq_false_iff.mpr fun htrue => ?_
    rw [hr.ended htrue] at hcall
    cases hcall
  rw [ReceiveHalf.copyCurrent, Prod.mk.injEq] at hcopied
  obtain ⟨hstream, rfl⟩ := hcopied
  have hbytes := hr.content.copyBytes_eq (len - copied.length)
  generalize h.stream.copyBytes (len - copied.length) = bytes at hstream hbytes ⊢
  obtain ⟨flowController, heq, -⟩ :=
    (h.stream.advance bytes.length).addBytesRead_fields connection bytes.length
  rw [hstream] at heq
  cases heq
  refine ⟨hopen, hopen, (hr.content.advance hopen _).flowController _, ?_⟩
  have hall := hr.bytes
  rw [inProgress, hcall] at hall
  rw [← List.append_assoc, hall]
  exact Delivery.take_append_segmentAt hbytes

theorem Reads.step (hr : Reads stream h) {event : HalfEvent}
    (hstep : ConsistentStep stream h event h') : Reads stream h' := by
  obtain ⟨hconsistent, convert, connection, connection', hok⟩ := hstep
  have hcases := step_cases hr.positioned hok
  have hpos := hcases.positioned hr.positioned
  cases hcases with
  | idle => exact hr
  | streamFrame hhandled =>
    have hcontent := hhandled.content hconsistent.1 hconsistent.2 hr.content hr.positioned
    refine hr.of_stream hpos hcontent ?_ ?_ rfl rfl rfl <;> cases hhandled <;> rfl
  | resetFrame | cancel | shutdown => exact hconsistent.elim
  | atEnd hcall hread =>
    have hbytes := hr.bytes
    rw [inProgress, hcall] at hbytes
    exact hr.finish hr.positioned hr.content hbytes id (fun _ => hread)
      (fun _ => ⟨rfl, rfl⟩) _ _
  | readsOn hcalls hreads =>
    have hbytes := hr.bytes
    rw [inProgress] at hbytes
    rcases hcalls with ⟨hcall, hread, rfl⟩ | hcall
    · rw [hcall] at hbytes
      exact hr.readsOn hr.positioned hr.content hbytes hread hread _ hreads
    · have hread : h.stream.finRead = false := by
        refine Bool.eq_false_iff.mpr fun htrue => ?_
        rw [hr.ended htrue] at hcall
        cases hcall
      rw [hcall] at hbytes
      exact hr.readsOn hr.positioned hr.content hbytes hread hread _ hreads
  | copies hcall hcopied hreads =>
    obtain ⟨hopen, hfin, hcontent, hbytes⟩ := hr.copyCurrent hcall hcopied
    exact hr.readsOn (Positioned.copyCurrent hr.positioned hcopied) hcontent hbytes
      hopen hfin _ hreads
  | ends hcall hcopied hread hlast =>
    obtain ⟨hopen, -, hcontent, hbytes⟩ := hr.copyCurrent hcall hcopied
    have hoffset := hcontent.offset_of_last (Positioned.copyCurrent hr.positioned hcopied)
      hread hlast
    refine hr.finish hpos ?_ hbytes (fun _ => rfl) (fun _ => rfl) (fun htrue => ?_) _ _
    · obtain ⟨h₁, h₂, h₃, h₄, h₅, -, h₇, h₈, h₉⟩ := hcontent
      exact ⟨h₁, h₂, h₃, h₄, h₅, fun _ => hoffset, h₇, h₈, h₉⟩
    · rw [hopen] at htrue
      cases htrue
  | looksUp => exact hr.of_stream hpos hr.content rfl rfl rfl rfl rfl
  | completes _ hcomplete =>
    obtain ⟨hstream, hcall, hresults⟩ := complete_fields hcomplete
    exact hr.of_stream hr.positioned hr.content rfl rfl hcall hresults hstream
  | windowUpdate =>
    exact hr.of_stream hpos (hr.content.flowController _) rfl rfl rfl rfl rfl

theorem Reads.of_trace {id : StreamID} {receiveWindow maxReceiveWindow : Nat}
    {events : List HalfEvent}
    (hrun : Trace (ConsistentStep stream) (new id receiveWindow maxReceiveWindow) events
      h) : Reads stream h :=
  hrun.invariant (Reads stream) (reads_new ..) fun _ _ _ hr hstep => hr.step hstep

/--
`Read` returns a prefix of the string.  With `io.EOF` it has returned all of it, and from
then on every `Read` returns no bytes and `io.EOF`.
-/
theorem reads_stream {id : StreamID} {receiveWindow maxReceiveWindow : Nat}
    {events : List HalfEvent}
    (hrun : Trace (ConsistentStep stream) (new id receiveWindow maxReceiveWindow) events
      h) :
    (h.results.map Prod.fst).flatten <+: stream ∧
      ∀ before bytes after, h.results = before ++ (bytes, some .eof) :: after →
        (before.map Prod.fst).flatten ++ bytes = stream ∧ ∀ r ∈ after, r = ([], some .eof) := by
  have hr := Reads.of_trace hrun
  refine ⟨?_, hr.exact⟩
  have hbytes : returned h.results ++ h.inProgress <+: stream := by
    rw [hr.bytes]
    exact List.take_prefix ..
  exact (List.prefix_append ..).trans hbytes

def shortReads : List HalfEvent :=
  [.handleStreamFrame ⟨0, 3, [], true, true⟩ 0, .startRead 2 false,
    .handleStreamFrame ⟨0, 1, [2, 3], false, true⟩ 1, .wakeRead false,
    .handleStreamFrame ⟨0, 0, [1], false, true⟩ 2, .wakeRead false, .finishCopy false,
    .finishCopy false, .startRead 2 false, .finishCopy false, .startRead 2 false]

theorem reads_stream_shortReads :
    ∃ h, Trace (ConsistentStep [1, 2, 3]) (new 0 10 10) shortReads h ∧
      h.results = [([1, 2], none), ([3], some .eof), ([], some .eof)] ∧
      (h.results.map Prod.fst).flatten <+: [1, 2, 3] := by
  have hobs : (shortReads.foldlM
      (fun h event => if Consistent [1, 2, 3] event then
        (step id h (.new 10 10) event).map Prod.fst else .error (.sorter .noGapFound))
      (new 0 10 10)).map ReceiveHalf.results =
        .ok [([1, 2], none), ([3], some .eof), ([], some .eof)] := by
    decide +kernel
  obtain ⟨h, hrun, hresults⟩ := map_eq_ok hobs
  have htrace : Trace (ConsistentStep [1, 2, 3]) (new 0 10 10) shortReads h := by
    refine (Trace.of_foldlM_checked hrun).imp fun h event h' ⟨hstep, hconsistent⟩ => ?_
    obtain ⟨result, hok, rfl⟩ := map_eq_ok hstep
    exact ⟨hconsistent, _, _, _, hok⟩
  exact ⟨h, htrace, hresults, (reads_stream htrace).1⟩

end ReceiveHalf

end Qperf.Quic
