import Qperf.Quic.Framer

/-!
# Work of a send stream

Every operation on a stream reports the work it creates to the sender.  A pop
that reports no more data leaves no work behind, unless only a FIN is pending
and the frame has no room for it.
-/

namespace Qperf.Quic

open Qperf.Foundation

namespace SendStream

def Live (s : SendStream) : Prop :=
  s.canceledWrite = false ∧ s.closedForShutdown = false

/--
A retransmission is queued, a byte can be sent within the window of the stream,
or the stream was closed and its FIN has not been sent.
-/
def HasWork (s : SendStream) : Prop :=
  s.retransmissionQueue ≠ [] ∨
    (s.dataForWriting.isSome ∧ 0 < s.flowController.sendWindowSize) ∨
    s.FinPending

structure WellFormed (s : SendStream) : Prop where
  shutdown : s.closeForShutdownErr.isSome → s.closedForShutdown = true
  fin : s.finSent = true → s.finishedWriting = true ∧ s.dataForWriting = none
  completed : s.completed = true → s.canceledWrite = false →
    s.finSent = true ∧ s.numOutstandingFrames = 0 ∧ s.retransmissionQueue = []

/--
The state before a packet is filled in which a stream whose FIN is pending is
not dropped: its FIN alone fits into the share of the packet, and if there is
data before the FIN then the stream does not run into its window here.
-/
def Servable (s : SendStream) (share : Nat) : Prop :=
  s.Live → s.retransmissionQueue = [] → s.FinPending →
    (s.dataForWriting = none → ∀ n, s.newFrame.length = .ok n → n ≤ share) ∧
    (s.dataForWriting.isSome → ¬ s.flowController.Blocked)

variable {s : SendStream}

theorem WellFormed.writable (wf : s.WellFormed) (hlive : s.Live) : s.Writable := by
  refine ⟨hlive.1, ?_⟩
  cases herr : s.closeForShutdownErr with
  | none => rfl
  | some err =>
    have := wf.shutdown (by simp [herr])
    simp [hlive.2] at this

theorem WellFormed.not_hasWork_of_completed (wf : s.WellFormed)
    (hlive : s.Live) (hcompleted : s.completed = true) : ¬ s.HasWork := by
  obtain ⟨hfin, -, hqueue⟩ := wf.completed hcompleted hlive.1
  have hdata := (wf.fin hfin).2
  simp [HasWork, hqueue, hdata, FinPending, hfin]

theorem wellFormed_new (id : StreamID) (window : Nat) :
    (SendStream.new id window).WellFormed where
  shutdown := by simp [SendStream.new]
  fin := by simp [SendStream.new]
  completed := by simp [SendStream.new]

theorem not_hasWork_new (id : StreamID) (window : Nat) :
    ¬ (SendStream.new id window).HasWork := by
  simp [HasWork, SendStream.new, FinPending]

/-! ## Operations on a stream -/

structure Reports (s : SendStream) (outcome : Outcome) : Prop where
  wellFormed : outcome.stream.WellFormed
  completed : s.completed = true → outcome.stream.completed = true
  reported : outcome.stream.Live → outcome.stream.HasWork →
    (s.Live ∧ s.HasWork) ∨ outcome.onHasStreamData = true

variable {outcome : Outcome}

theorem WellFormed.reports_unchanged (wf : s.WellFormed)
    (h : outcome.stream = s) : Reports s outcome where
  wellFormed := by rwa [h]
  completed := by simp [h]
  reported := fun hlive hwork => by
    rw [h] at hlive hwork
    exact Or.inl ⟨hlive, hwork⟩

theorem WellFormed.reports_write (wf : s.WellFormed) (p : List UInt8) :
    Reports s (s.write p) := by
  rw [write]
  split
  · exact wf.reports_unchanged rfl
  split
  · exact wf.reports_unchanged rfl
  split
  · exact wf.reports_unchanged rfl
  split
  · exact wf.reports_unchanged rfl
  · next hopen _ _ _ =>
    -- A stream whose FIN was sent is closed, so it is not written to.
    have hfin : s.finSent = false :=
      Bool.eq_false_iff.mpr fun hsent => hopen (wf.fin hsent).1
    refine ⟨⟨wf.shutdown, ?_, wf.completed⟩, id, ?_⟩
    · intro hsent
      simp [hfin] at hsent
    · intro hlive _
      have := hlive.2
      simp_all

theorem WellFormed.reports_writeDeadlineExceeded (wf : s.WellFormed) :
    Reports s s.writeDeadlineExceeded where
  wellFormed := ⟨wf.shutdown, fun h => ⟨(wf.fin h).1, rfl⟩, wf.completed⟩
  completed := id
  reported := by
    intro hlive hwork
    refine Or.inl ⟨hlive, ?_⟩
    obtain hqueue | hdata | hfin := hwork
    · exact Or.inl hqueue
    · cases hdata.1
    · exact Or.inr (Or.inr hfin)

theorem WellFormed.reports_close (wf : s.WellFormed) : Reports s s.close := by
  rw [close]
  split
  · exact wf.reports_unchanged rfl
  · refine ⟨⟨wf.shutdown, ?_, wf.completed⟩, id, fun _ _ => Or.inr rfl⟩
    exact fun hfin => ⟨rfl, (wf.fin hfin).2⟩

theorem markCompleted_eq (s : SendStream) :
    s.markCompleted = { s with completed := s.markCompleted.completed } := by
  rw [markCompleted]
  split <;> rfl

theorem WellFormed.markCompleted (wf : s.WellFormed) :
    s.markCompleted.WellFormed := by
  rw [SendStream.markCompleted]
  split
  · next h =>
    refine ⟨wf.shutdown, wf.fin, fun _ hcanceled => ?_⟩
    change s.canceledWrite = false at hcanceled
    simpa [hcanceled, and_assoc] using h
  · exact wf

theorem completed_markCompleted (h : s.completed = true) :
    s.markCompleted.completed = true := by
  rw [markCompleted]
  split
  · rfl
  · exact h

theorem WellFormed.reports_cancelWriteImpl (wf : s.WellFormed) (errorCode : Nat)
    (writeErr : StreamError) :
    Reports s (s.cancelWriteImpl errorCode writeErr) := by
  rw [cancelWriteImpl]
  split
  · exact wf.reports_unchanged rfl
  · refine ⟨WellFormed.markCompleted ⟨wf.shutdown, wf.fin, ?_⟩,
      fun h => completed_markCompleted h, ?_⟩
    · intro _ hcanceled
      cases hcanceled
    · intro hlive
      have hcanceled := hlive.1
      rw [markCompleted_eq] at hcanceled
      cases hcanceled

theorem WellFormed.reports_closeForShutdown (wf : s.WellFormed)
    (err : Option StreamError) : Reports s (s.closeForShutdown err) where
  wellFormed := ⟨fun _ => rfl, wf.fin, wf.completed⟩
  completed := id
  reported := fun hlive => nomatch hlive.2

theorem WellFormed.reports_handleMaxStreamDataFrame (wf : s.WellFormed)
    (byteOffset : Nat) :
    Reports s (s.handleMaxStreamDataFrame byteOffset) where
  wellFormed := ⟨wf.shutdown, wf.fin, wf.completed⟩
  completed := id
  reported := by
    intro hlive hwork
    obtain hqueue | hdata | hfin := hwork
    · exact Or.inl ⟨hlive, Or.inl hqueue⟩
    · exact Or.inr hdata.1
    · exact Or.inl ⟨hlive, Or.inr (Or.inr hfin)⟩

theorem dropOutstanding_eq_ok {next : SendStream}
    (h : s.dropOutstanding = .ok next) : s.numOutstandingFrames ≠ 0 ∧
      next = { s with numOutstandingFrames := s.numOutstandingFrames - 1 } := by
  rw [dropOutstanding] at h
  split at h
  · cases h
  · cases h
    exact ⟨by omega, rfl⟩

theorem WellFormed.reports_frameAcked (wf : s.WellFormed)
    (h : s.frameAcked = .ok outcome) : Reports s outcome := by
  obtain ⟨next, hnext, h⟩ := bind_eq_ok.mp h
  obtain ⟨houtstanding, rfl⟩ := dropOutstanding_eq_ok hnext
  cases h
  refine ⟨WellFormed.markCompleted ⟨wf.shutdown, wf.fin, ?_⟩,
    fun h => completed_markCompleted h, ?_⟩
  · intro hcompleted hcanceled
    exact absurd (wf.completed hcompleted hcanceled).2.1 houtstanding
  · intro hlive hwork
    rw [markCompleted_eq] at hlive hwork
    exact Or.inl ⟨hlive, hwork⟩

theorem WellFormed.reports_queueRetransmission (wf : s.WellFormed) {f : StreamFrame}
    (h : s.queueRetransmission f = .ok outcome) : Reports s outcome := by
  obtain ⟨next, hnext, h⟩ := bind_eq_ok.mp h
  obtain ⟨houtstanding, rfl⟩ := dropOutstanding_eq_ok hnext
  cases h
  refine ⟨⟨wf.shutdown, wf.fin, ?_⟩, id, fun _ _ => Or.inr rfl⟩
  intro hcompleted hcanceled
  exact absurd (wf.completed hcompleted hcanceled).2.1 houtstanding

theorem WellFormed.reports_perform (wf : s.WellFormed) {operation : StreamOperation}
    (h : s.perform operation = .ok outcome) : Reports s outcome := by
  cases operation with
  | write p =>
    cases h
    exact wf.reports_write p
  | writeDeadlineExceeded =>
    cases h
    exact wf.reports_writeDeadlineExceeded
  | close =>
    cases h
    exact wf.reports_close
  | cancelWrite errorCode | handleStopSendingFrame errorCode =>
    cases h
    exact wf.reports_cancelWriteImpl ..
  | closeForShutdown err =>
    cases h
    exact wf.reports_closeForShutdown err
  | handleMaxStreamDataFrame byteOffset =>
    cases h
    exact wf.reports_handleMaxStreamDataFrame byteOffset
  | frameAcked => exact wf.reports_frameAcked h
  | frameLost f => exact wf.reports_queueRetransmission h

/-! ## Popping a frame -/

variable {connection : SendController} {maxBytes : Nat} {popped : Popped}

theorem popStreamFrame_flags (h : s.popStreamFrame connection maxBytes = .ok popped) :
    popped.stream.completed = s.completed ∧ (popped.stream.Live ↔ s.Live) := by
  cases popStreamFrame_cases h with
  | retransmission _ h => cases h <;> exact ⟨rfl, Iff.rfl⟩
  | stopped _ _ h =>
    subst h
    exact ⟨rfl, Iff.rfl⟩
  | new _ _ _ h => cases h <;> exact ⟨rfl, Iff.rfl⟩

theorem finBit_dataFrame {data : Unsent} {n : Nat} (h : (s.dataFrame data n).finBit = true) :
    s.finishedWriting = true ∧ remainder data n = none := by
  simp only [dataFrame, Bool.and_eq_true] at h
  exact ⟨h.1.1, by simpa using h.1.2⟩

theorem WellFormed.popStreamFrame (wf : s.WellFormed)
    (h : s.popStreamFrame connection maxBytes = .ok popped) :
    popped.stream.WellFormed := by
  cases popStreamFrame_cases h with
  | retransmission hqueue h =>
    -- A completed stream has nothing to retransmit.
    have hbusy : s.completed = true → s.canceledWrite = false → False := by
      intro hcompleted hcanceled
      have := (wf.completed hcompleted hcanceled).2.2
      simp [hqueue] at this
    cases h with
    | tooSmall => exact wf
    | split | fits =>
      exact ⟨wf.shutdown, wf.fin, fun h h' => (hbusy h h').elim⟩
  | stopped _ _ h =>
    subst h
    exact wf
  | new _ _ _ h =>
    cases h with
    | noRoom | idle | blocked => exact wf
    | newlyBlocked => exact ⟨wf.shutdown, wf.fin, wf.completed⟩
    | fin _ hdata hfin =>
      refine ⟨wf.shutdown, fun _ => ⟨hfin.1, hdata⟩, ?_⟩
      intro hcompleted hcanceled
      have := (wf.completed hcompleted hcanceled).1
      simp [hfin.2] at this
    | @data data n hdata =>
      have hopen : s.finSent = false := by
        refine Bool.eq_false_iff.mpr fun hsent => ?_
        have := (wf.fin hsent).2
        simp [hdata] at this
      refine ⟨wf.shutdown, ?_, ?_⟩
      · intro hsent
        simp only [addOutstanding, afterData, hopen, Bool.false_or] at hsent
        obtain ⟨hfinished, hrest⟩ := finBit_dataFrame hsent
        exact ⟨hfinished, hrest⟩
      · intro hcompleted hcanceled
        have := (wf.completed hcompleted hcanceled).1
        simp [hopen] at this

private theorem length_newFrame {room : Nat} (h : s.newFrame.maxDataLen maxBytes = .ok room) :
    ∃ n, s.newFrame.length = .ok n := by
  obtain ⟨baseLen, hbase, -⟩ := bind_eq_ok.mp h
  exact ⟨_, (StreamFrame.length_of_data_eq_nil rfl rfl).mpr ⟨_, hbase, rfl⟩⟩

theorem WellFormed.not_hasWork_of_pop (wf : s.WellFormed) {share : Nat}
    (hservable : s.Servable share)
    (hroom : ∀ n, s.newFrame.length = .ok n → n ≤ share → n < maxBytes)
    (h : s.popStreamFrame connection maxBytes = .ok popped)
    (hmore : popped.hasMoreData = false) (hlive : popped.stream.Live) :
    ¬ popped.stream.HasWork := by
  rw [(popStreamFrame_flags h).2] at hlive
  cases popStreamFrame_cases h with
  | retransmission _ h => cases h <;> cases hmore
  | stopped _ hwritable => exact absurd (wf.writable hlive) hwritable
  | new hqueue _ hmax h =>
    cases h with
    | noRoom hzero =>
      have hdata : s.dataForWriting = none := by simpa using hmore
      rintro (hretransmit | hunsent | hpending)
      · exact hretransmit hqueue
      · simp [hdata] at hunsent
      · obtain ⟨length, hlength⟩ := length_newFrame hmax
        have hle := (hservable hlive hqueue hpending).1 hdata _ hlength
        have := (StreamFrame.maxDataLen_eq_zero_iff rfl rfl hlength hmax).mp hzero
        have := hroom _ hlength hle
        omega
    | idle _ hdata hfin =>
      rintro (hretransmit | hunsent | hpending)
      · exact hretransmit hqueue
      · simp [hdata] at hunsent
      · exact hfin hpending
    | fin _ hdata _ =>
      rintro (hretransmit | hunsent | hpending)
      · exact hretransmit hqueue
      · simp [addOutstanding, hdata] at hunsent
      · cases hpending.2
    | newlyBlocked _ hdata hblocked =>
      rintro (hretransmit | hunsent | hpending)
      · exact hretransmit hqueue
      · simp [hblocked.1] at hunsent
      · exact (hservable hlive hqueue hpending).2 (by simp [hdata]) hblocked
    | blocked => cases hmore
    | @data data n hdata =>
      have hrest : remainder data n = none := by simpa using hmore
      rintro (hretransmit | hunsent | hpending)
      · exact hretransmit hqueue
      · simp [addOutstanding, afterData, hrest] at hunsent
      · obtain ⟨hfinished, hsent⟩ := hpending
        simp only [addOutstanding, afterData, dataFrame, hrest] at hfinished hsent
        simp [hfinished] at hsent

end SendStream

end Qperf.Quic
