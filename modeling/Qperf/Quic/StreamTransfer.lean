import Qperf.Quic.Reading
import Qperf.Quic.Transmission

/-!
# What one application writes and the other reads

Every frame that has left a send stream may reach the receiver, in any order, more than
once or not at all, also if its sender has declared it lost and has cut it in two.
-/

namespace Qperf.Quic

open Qperf.Foundation

theorem Slices.mono {stream stream' : List UInt8} {p : Nat} {bytes : List UInt8}
    (h : Slices stream p bytes) (hgrows : stream <+: stream') :
    Slices stream' p bytes := by
  obtain ⟨more, rfl⟩ := hgrows
  obtain ⟨hle, hbytes⟩ := h
  rw [FrameSorter.segmentAt] at hbytes
  refine ⟨by rw [List.length_append]; omega, ?_⟩
  rw [FrameSorter.segmentAt, List.drop_append, List.take_append_of_le_length
    (by rw [List.length_drop]; omega)]
  exact hbytes

namespace Transmission

variable {t t' : Transmission} {f : StreamFrame}

theorem Kept.written_grows (h : t.Kept) {event : TransmissionEvent}
    (hstep : t.step event = .ok t') : t.written <+: t'.written := by
  unfold Transmission.step at hstep
  cases event with
  | write p expired expiredInLoop =>
    dsimp only at hstep
    split at hstep <;> cases hstep
    · exact List.prefix_rfl
    · next hcurrent =>
      unfold SendStream.writeCall SendStream.writeTurn
      split_ifs <;> simp [record, written, poppedLen, SendStream.unsentLen, hcurrent]
  | wake expired =>
    dsimp only at hstep
    split at hstep <;> cases hstep
    · exact List.prefix_rfl
    · next hcurrent =>
      unfold SendStream.writeTurn
      split_ifs <;> simp [record, written, poppedLen, SendStream.unsentLen, hcurrent]
  | close =>
    cases hstep
    unfold SendStream.close
    split_ifs <;> exact List.prefix_rfl
  | handleMaxStreamDataFrame byteOffset =>
    cases hstep
    exact List.prefix_rfl
  | pop connection maxBytes =>
    obtain ⟨popped, hpop, hstep⟩ := bind_eq_ok.mp hstep
    cases hstep
    cases SendStream.popStreamFrame_cases hpop with
    | stopped _ _ hpop =>
      subst hpop
      exact List.prefix_rfl
    | retransmission _ hpop => cases hpop <;> exact List.prefix_rfl
    | new _ _ _ hpop =>
      cases hpop with
      | noRoom | idle | blocked | newlyBlocked | fin => exact List.prefix_rfl
      | @data data n hdata =>
        obtain ⟨p, hp, hsuffix⟩ := h.unsent data hdata
        rw [written_afterData n hdata hp hsuffix]
        exact List.prefix_append ..
  | frameAcked f | frameLost f =>
    dsimp only at hstep
    split at hstep
    · next hf =>
      obtain ⟨outcome, houtcome, hstep⟩ := bind_eq_ok.mp hstep
      cases hstep
      simp only [SendStream.frameAcked, SendStream.queueRetransmission,
        h.dropOutstanding hf, ok_bind] at houtcome
      cases houtcome
      first
      | exact List.prefix_rfl
      | unfold SendStream.markCompleted
        split_ifs <;> exact List.prefix_rfl
    · cases hstep
      exact List.prefix_rfl

structure Carries (t : Transmission) (f : StreamFrame) : Prop where
  slices : Slices t.written f.offset f.data
  final : f.finBit = true → t.Finished (f.offset + f.data.length)

theorem Kept.carries (h : t.Kept) (hf : f ∈ t.outstanding)
    (hne : f.data ≠ [] ∨ f.finBit = true) : t.Carries f := by
  have hsegments := h.segments
  have hsegment : f.segment ∈ t.frames.map StreamFrame.segment :=
    List.mem_map_of_mem (List.mem_append_right _ (List.mem_append_left _ hf))
  have hdata : f.data = (t.written.drop f.offset).take f.data.length :=
    hsegments.data f.segment hsegment
  have hstop : f.finBit = true → f.offset + f.data.length = t.written.length :=
    hsegments.final f.segment hsegment
  refine ⟨⟨?_, hdata⟩, fun hfin => ⟨?_, h.length.symm.trans (hstop hfin).symm⟩⟩
  · rcases hne with hne | hfin
    · have hlength := congrArg List.length hdata
      have hpos := List.length_pos_iff.mpr hne
      rw [List.length_take, List.length_drop] at hlength
      omega
    · exact (hstop hfin).le
  · have hpos : 0 < (t.frames.map StreamFrame.segment).countP (·.final) :=
      List.countP_pos_iff.mpr ⟨_, hsegment, hfin⟩
    by_contra hopen
    rw [hsegments.ends, Bool.eq_false_iff.mpr hopen] at hpos
    cases hpos

theorem Carries.step (h : t.Carries f) (hkept : t.Kept) {event : TransmissionEvent}
    (hstep : t.step event = .ok t') : t'.Carries f where
  slices := h.slices.mono (hkept.written_grows hstep)
  final := fun hfin => (h.final hfin).step hkept hstep

/--
The frame was popped on the way to `t`, and outstanding then.  `Write` refuses a frame
without data and FIN.
-/
def Sent (streamID : StreamID) (initialSendWindow : Nat) (t : Transmission)
    (f : StreamFrame) : Prop :=
  ∃ u before after, Reaches (new streamID initialSendWindow) before u ∧
    f ∈ u.outstanding ∧ (f.data ≠ [] ∨ f.finBit = true) ∧ Reaches u after t

variable {streamID : StreamID} {initialSendWindow : Nat}

theorem Sent.carries (h : Sent streamID initialSendWindow t f) : t.Carries f := by
  obtain ⟨u, before, after, hbefore, hf, hne, hafter⟩ := h
  have hu := hbefore.kept (Kept.new ..)
  exact (Trace.invariant (fun t => t.Kept ∧ t.Carries f) ⟨hu, hu.carries hf hne⟩
    (fun _ _ _ h hstep => ⟨h.1.step hstep, h.2.step h.1 hstep⟩) hafter).2

/-- Data reaches the receiver only in frames that were sent, and nothing is aborted. -/
def Delivers (sent : StreamFrame → Prop) : HalfEvent → Prop
  | .handleStreamFrame f _ => sent f
  | event => ReceiveHalf.Consistent [] event

instance (sent : StreamFrame → Prop) [DecidablePred sent] :
    DecidablePred (Delivers sent) := fun event => by
  unfold Delivers
  split <;> infer_instance

def DeliveredStep (sent : StreamFrame → Prop) (h : ReceiveHalf) (event : HalfEvent)
    (h' : ReceiveHalf) : Prop :=
  Delivers sent event ∧ ∃ convert connection connection',
    h.step convert connection event = .ok (h', connection')

theorem Kept.consistent (h : t.Kept) {stream : List UInt8} {event : HalfEvent}
    (hstream : t.written <+: stream) (hend : t.stream.finSent = true → stream = t.written)
    (hdelivers : Delivers (Sent streamID initialSendWindow t) event) :
    ReceiveHalf.Consistent stream event := by
  cases event with
  | handleStreamFrame f putBack =>
    have hcarries := Sent.carries hdelivers
    refine ⟨hcarries.slices.mono hstream, fun hfin => ?_⟩
    obtain ⟨hsent, hoffset⟩ := hcarries.final hfin
    rw [hend hsent, h.length, hoffset]
  | _ => exact hdelivers

/--
The application reads the beginning of what the other one has written, and the end of
the stream only if its last byte was read and its FIN was sent.
-/
theorem reads_written {events : List TransmissionEvent}
    (hsend : Reaches (new streamID initialSendWindow) events t)
    {receiveWindow maxReceiveWindow : Nat} {received : List HalfEvent} {h : ReceiveHalf}
    (hreceive : Trace (DeliveredStep (Sent streamID initialSendWindow t))
      (.new streamID receiveWindow maxReceiveWindow) received h) :
    (h.results.map Prod.fst).flatten <+: t.written ∧
      ∀ before bytes after, h.results = before ++ (bytes, some .eof) :: after →
        (before.map Prod.fst).flatten ++ bytes = t.written ∧ t.stream.finSent = true := by
  have ht := hsend.kept (Kept.new ..)
  have hreads : ∀ stream, t.written <+: stream →
      (t.stream.finSent = true → stream = t.written) → h.Reads stream :=
    fun stream hstream hend => .of_trace (hreceive.imp fun _ _ _ hstep =>
      ⟨ht.consistent hstream hend hstep.1, hstep.2⟩)
  have hr := hreads _ List.prefix_rfl fun _ => rfl
  refine ⟨(List.prefix_append ..).trans (hr.bytes ▸ List.take_prefix ..), ?_⟩
  intro before bytes after hresults
  have hall := (hr.exact before bytes after hresults).1
  refine ⟨hall, ?_⟩
  by_contra hopen
  -- A stream that goes on would look the same, but does not end here.
  have hlonger := hreads _ (List.prefix_append _ [0]) fun hsent => absurd hsent hopen
  have hlonger := (hlonger.exact before bytes after hresults).1
  simpa using hall.symm.trans hlonger

theorem reads_written_once : ∃ (t : Transmission) (h : ReceiveHalf),
    h.results = [([1, 2], some .eof)] ∧
      (h.results.map Prod.fst).flatten <+: t.written ∧ t.stream.finSent = true := by
  let f : StreamFrame := ⟨0, 0, [1, 2], true, true⟩
  have hsend : ([.write [1, 2] false false, .close, .pop (.new 9) 99].foldlM step
      (new 0 9)).map (·.outstanding) = .ok [f] := by
    decide +kernel
  obtain ⟨t, hrun, houtstanding⟩ := map_eq_ok hsend
  have ht : Reaches (new 0 9) _ t := Trace.of_foldlM_ok hrun
  have hsent : Sent 0 9 t f :=
    ⟨t, _, [], ht, houtstanding ▸ List.mem_singleton_self f, .inr rfl, .nil⟩
  have hreceive : ([.handleStreamFrame f 0, .startRead 2 false, .finishCopy false].foldlM
      (fun h event => if Delivers (· = f) event then
        (ReceiveHalf.step id h (.new 9 9) event).map Prod.fst
        else .error (.sorter .noGapFound)) (ReceiveHalf.new 0 9 9)).map (·.results) =
      .ok [([1, 2], some .eof)] := by
    decide +kernel
  obtain ⟨h, hh, hresults⟩ := map_eq_ok hreceive
  obtain ⟨hbytes, hend⟩ := reads_written ht
    ((Trace.of_foldlM_checked hh).imp fun h event h' ⟨hstep, hdelivers⟩ => by
      obtain ⟨result, hok, rfl⟩ := map_eq_ok hstep
      refine ⟨?_, _, _, _, hok⟩
      cases event with
      | handleStreamFrame g putBack => exact Eq.symm hdelivers ▸ hsent
      | _ => exact hdelivers)
  exact ⟨t, h, hresults, hbytes, (hend [] _ [] hresults).2⟩

end Transmission

end Qperf.Quic
