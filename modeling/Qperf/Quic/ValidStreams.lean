import Qperf.Quic.Framer
import Qperf.Quic.FrameSizes

/-!
# Valid send streams

The numbers of a valid stream can be encoded, so that no pop of a frame panics.
A popped frame is within its budget, and the stream stays valid.
-/

namespace Qperf.Quic

open Qperf.Foundation

/-! ## Frames of a send stream -/

/-- A frame as a stream sends it: it can be written, and has its length field. -/
structure StreamFrame.Complete (f : StreamFrame) : Prop extends f.Valid where
  present : f.dataLenPresent = true
  written : f.data ≠ [] ∨ f.finBit = true

theorem StreamFrame.wireLen_shortened {f : StreamFrame}
    (h : f.dataLenPresent = true) :
    { f with dataLenPresent := false }.wireLen + varIntSize f.dataLen =
      f.wireLen := by
  have hpre : { f with dataLenPresent := false }.prefixLen = f.prefixLen :=
    rfl
  have hlen : { f with dataLenPresent := false }.dataLen = f.dataLen := rfl
  unfold wireLen
  rw [hpre, hlen, h, if_pos rfl, if_neg Bool.false_ne_true]
  omega

theorem StreamFrame.mapM_write {frames : List StreamFrame}
    (h : ∀ f ∈ frames, f.Valid ∧ (f.data ≠ [] ∨ f.finBit = true)) :
    ∃ encoded, frames.mapM StreamFrame.write = .ok encoded ∧
      (encoded.map List.length).sum = (frames.map wireLen).sum := by
  obtain ⟨encoded, hencoded, hsum⟩ :=
    mapM_ok_flatten fun f hf => (h f hf).1.write (h f hf).2
  exact ⟨encoded, hencoded, List.length_flatten.symm.trans hsum⟩

namespace SendStream

structure Valid (s : SendStream) : Prop where
  streamID : s.streamID ≤ maxVarInt8
  queue : ∀ f ∈ s.retransmissionQueue, f.Complete
  bytesSent : s.writeOffset = s.flowController.bytesSent
  offset : s.writeOffset ≤ maxVarInt8
  window : s.flowController.sendWindow ≤ maxVarInt8

variable {s : SendStream} {connection : SendController} {maxBytes : Nat}
variable {popped : Popped}

theorem Valid.baseLen_newFrame (h : s.Valid) :
    s.newFrame.baseLen = .ok s.newFrame.prefixLen :=
  StreamFrame.baseLen_of_le h.streamID h.offset

private theorem getDataForWriting_ok (s : SendStream) (connection : SendController)
    (f : StreamFrame) {room : Nat} (hroom : room ≤ maxReceivePacketSize) :
    ∃ result, s.getDataForWriting connection f room = .ok result := by
  unfold getDataForWriting
  split
  · exact ⟨_, rfl⟩
  · next data _ =>
    dsimp only
    split
    · exact ⟨_, rfl⟩
    · rw [if_neg]
      · exact ⟨_, rfl⟩
      · rw [List.length_take]
        omega

theorem Valid.popNewStreamFrame_ok (h : s.Valid)
    (connection : SendController) (hmax : maxBytes ≤ 1454) :
    ∃ popped, s.popNewStreamFrame connection maxBytes = .ok popped := by
  unfold popNewStreamFrame
  split
  · exact ⟨_, rfl⟩
  · rw [StreamFrame.maxDataLen_of_baseLen h.baseLen_newFrame (by omega), ok_bind]
    split
    · exact ⟨_, rfl⟩
    · have hroom : s.newFrame.room maxBytes ≤ maxReceivePacketSize := by
        have hle := s.newFrame.room_le maxBytes
        unfold maxReceivePacketSize
        omega
      obtain ⟨⟨f, s', connection'⟩, hget⟩ :=
        getDataForWriting_ok s connection s.newFrame hroom
      rw [hget, ok_bind]
      dsimp only
      split
      · split
        · exact ⟨_, rfl⟩
        · split <;> exact ⟨_, rfl⟩
      · exact ⟨_, rfl⟩

theorem Valid.popStreamFrame_ok (h : s.Valid) (connection : SendController)
    (hmax : maxBytes ≤ 1454) :
    ∃ popped, s.popStreamFrame connection maxBytes = .ok popped := by
  have hinner : ∃ popped,
      s.popNewOrRetransmittedStreamFrame connection maxBytes = .ok popped := by
    unfold popNewOrRetransmittedStreamFrame
    split
    · next f rest hqueue =>
      have hf := (h.queue f (by simp [hqueue])).toValid
      unfold maybeGetRetransmission
      rw [hf.maybeSplitOffFrame (by omega), ok_bind]
      split_ifs <;> exact ⟨_, rfl⟩
    · exact h.popNewStreamFrame_ok connection hmax
  obtain ⟨popped, hpopped⟩ := hinner
  exact ⟨popped.count, by rw [SendStream.popStreamFrame, hpopped]; rfl⟩

structure WithinBudget (maxBytes : Nat) (popped : Popped) : Prop where
  stream : popped.stream.Valid
  frame : ∀ f, popped.frame = some f → f.Complete ∧ f.wireLen ≤ maxBytes

theorem Valid.withinBudget_retransmission (h : s.Valid) (hmax : maxBytes ≤ 1454)
    {f : StreamFrame} {rest : List StreamFrame} (hqueue : s.retransmissionQueue = f :: rest)
    (hpop : PopRetransmission s connection maxBytes f rest popped) :
    WithinBudget maxBytes popped := by
  have hf : f.Complete := h.queue f (by simp [hqueue])
  have hrest : ∀ g ∈ rest, g.Complete := by
    intro g hg
    exact h.queue g (by simp [hqueue, hg])
  cases hpop with
  | tooSmall => exact ⟨h, fun g hg => nomatch hg⟩
  | @split first last hsplit =>
    rw [hf.toValid.maybeSplitOffFrame (by omega), Except.ok.injEq] at hsplit
    split_ifs at hsplit with hfits hroom
    injection hsplit with hfirst hlast
    subst hfirst hlast
    have hlt : f.room maxBytes < f.dataLen :=
      StreamFrame.room_lt_dataLen (by omega) hroom (Nat.lt_of_not_le hfits)
    constructor
    · refine { h with queue := ?_ }
      intro g hg
      rcases List.mem_cons.mp hg with rfl | hg
      · refine ⟨hf.toValid.splitRest (Nat.le_of_lt hlt), hf.present, ?_⟩
        apply Or.inl
        change f.data.drop _ ≠ []
        rw [Ne, List.drop_eq_nil_iff]
        exact Nat.not_le.mpr hlt
      · exact hrest g hg
    · intro g hg
      cases hg
      refine ⟨⟨hf.toValid.splitFirst _, hf.present, ?_⟩,
        StreamFrame.wireLen_splitFirst_le (by omega) hroom⟩
      apply Or.inl
      change f.data.take _ ≠ []
      rw [Ne, List.take_eq_nil_iff]
      rintro (hzero | hnil)
      · exact hroom hzero
      · rw [StreamFrame.dataLen, hnil] at hlt
        exact Nat.not_lt_zero _ hlt
  | fits hsplit =>
    rw [hf.toValid.maybeSplitOffFrame (by omega), Except.ok.injEq] at hsplit
    split_ifs at hsplit with hfits
    constructor
    · exact { h with queue := hrest }
    · intro g hg
      cases hg
      exact ⟨hf, hfits⟩

theorem Valid.offset_dataFrame (h : s.Valid) (data : Unsent) {n : Nat}
    (hn : n ≤ s.flowController.sendWindowSize) (hpos : n ≠ 0) :
    s.writeOffset + (data.1.take n).length ≤ maxVarInt8 := by
  have htake : (data.1.take n).length ≤ n := List.length_take_le ..
  have hwindow := h.window
  have hsent := h.bytesSent
  unfold SendController.sendWindowSize at hn
  split at hn <;> omega

theorem Valid.withinBudget_new (h : s.Valid) (hmax : maxBytes ≤ 1454)
    {room : Nat} (hroom : s.newFrame.maxDataLen maxBytes = .ok room)
    (hpop : PopNew s connection room popped) :
    WithinBudget maxBytes popped := by
  rw [StreamFrame.maxDataLen_of_baseLen h.baseLen_newFrame (by omega),
    Except.ok.injEq] at hroom
  subst hroom
  cases hpop with
  | noRoom | idle | blocked => exact ⟨h, fun g hg => nomatch hg⟩
  | newlyBlocked =>
    refine ⟨{ h with }, ?_⟩
    exact fun g hg => nomatch hg
  | fin hroom =>
    refine ⟨{ h with }, ?_⟩
    intro g hg
    cases hg
    refine ⟨⟨⟨h.streamID, h.offset, Nat.zero_le _⟩, rfl, Or.inr rfl⟩, ?_⟩
    change s.newFrame.lenWithData 0 ≤ maxBytes
    rw [Ne, StreamFrame.room_eq_zero_iff] at hroom
    omega
  | @data data n hdata hn hpos hbuffer =>
    have hwindow : n ≤ s.flowController.sendWindowSize := by
      rw [hn]
      exact Nat.le_trans (Nat.min_le_right ..) (Nat.min_le_left ..)
    have hoffset := h.offset_dataFrame data hwindow hpos
    have hle : n ≤ s.newFrame.room maxBytes := hn ▸ Nat.min_le_left ..
    constructor
    · refine ⟨h.streamID, h.queue, ?_, hoffset, h.window⟩
      change s.writeOffset + _ = s.flowController.bytesSent + _
      rw [h.bytesSent]
    · intro g hg
      cases hg
      refine ⟨⟨⟨h.streamID, hoffset, hbuffer⟩, rfl, Or.inl (take_ne_nil data hpos)⟩, ?_⟩
      change s.newFrame.lenWithData (data.1.take n).length ≤ maxBytes
      rw [StreamFrame.lenWithData_le_iff (by omega) (by omega)]
      exact Nat.le_trans (List.length_take_le ..) hle

theorem Valid.popStreamFrame (h : s.Valid) (hmax : maxBytes ≤ 1454)
    (hpop : s.popStreamFrame connection maxBytes = .ok popped) :
    WithinBudget maxBytes popped := by
  cases popStreamFrame_cases hpop with
  | retransmission hqueue hpop =>
    exact h.withinBudget_retransmission hmax hqueue hpop
  | stopped _ _ hpop =>
    subst hpop
    exact ⟨h, fun g hg => nomatch hg⟩
  | new _ _ hroom hpop => exact h.withinBudget_new hmax hroom hpop

/-! ## Operations -/

theorem Valid.congr {t : SendStream} (h : s.Valid) (hid : t.streamID = s.streamID)
    (hqueue : t.retransmissionQueue = s.retransmissionQueue)
    (hoffset : t.writeOffset = s.writeOffset)
    (hflow : t.flowController = s.flowController) : t.Valid := by
  refine ⟨hid ▸ h.streamID, ?_, ?_, hoffset ▸ h.offset, hflow ▸ h.window⟩
  · rw [hqueue]
    exact h.queue
  · rw [hoffset, hflow]
    exact h.bytesSent

theorem Valid.markCompleted (h : s.Valid) : s.markCompleted.Valid := by
  unfold SendStream.markCompleted
  split
  · exact h.congr rfl rfl rfl rfl
  · exact h

theorem Valid.cancelWriteImpl (h : s.Valid) (errorCode : Nat) (writeErr : StreamError) :
    (s.cancelWriteImpl errorCode writeErr).stream.Valid := by
  unfold SendStream.cancelWriteImpl
  split
  · exact h
  · apply Valid.markCompleted
    exact h.congr rfl rfl rfl rfl

theorem Valid.dropOutstanding (h : s.Valid) {t : SendStream}
    (hdrop : s.dropOutstanding = .ok t) : t.Valid := by
  unfold SendStream.dropOutstanding at hdrop
  split at hdrop
  · cases hdrop
  · cases hdrop
    exact h.congr rfl rfl rfl rfl

end SendStream

/--
The numbers of an operation fit into their encoding: they were read from frames
of the peer, and a lost frame was sent before.
-/
def StreamOperation.Encodable : StreamOperation → Prop
  | .handleMaxStreamDataFrame byteOffset => byteOffset ≤ maxVarInt8
  | .frameLost f => StreamFrame.Complete { f with dataLenPresent := true }
  | _ => True

def Operation.Encodable : Operation → Prop
  | .openStream id initialSendWindow =>
    id ≤ maxVarInt8 ∧ initialSendWindow ≤ maxVarInt8
  | .onStream _ operation => operation.Encodable
  | .appendStreamFrames maxLen _ => maxLen ≤ maxReceivePacketSize
  | _ => True

namespace SendStream

variable {s : SendStream}

theorem Valid.new {id window : Nat} (hid : id ≤ maxVarInt8)
    (hwindow : window ≤ maxVarInt8) : (SendStream.new id window).Valid :=
  ⟨hid, (fun _ hf => nomatch hf), rfl, Nat.zero_le _, hwindow⟩

theorem Valid.perform (h : s.Valid) {operation : StreamOperation}
    (hencodable : operation.Encodable) {outcome : Outcome}
    (hperform : s.perform operation = .ok outcome) : outcome.stream.Valid := by
  cases operation with
  | write p =>
    cases hperform
    unfold SendStream.write
    split_ifs
    · exact h
    · exact h
    · exact h
    · exact h
    · exact h.congr rfl rfl rfl rfl
  | writeDeadlineExceeded =>
    cases hperform
    exact h.congr rfl rfl rfl rfl
  | close =>
    cases hperform
    unfold SendStream.close
    split
    · exact h
    · exact h.congr rfl rfl rfl rfl
  | cancelWrite errorCode | handleStopSendingFrame errorCode =>
    cases hperform
    exact h.cancelWriteImpl ..
  | closeForShutdown err =>
    cases hperform
    exact h.congr rfl rfl rfl rfl
  | handleMaxStreamDataFrame byteOffset =>
    cases hperform
    have hsent := h.bytesSent
    have hwindow := h.window
    refine ⟨h.streamID, h.queue, ?_, h.offset, ?_⟩
    · change s.writeOffset = (s.flowController.updateSendWindow _).bytesSent
      unfold SendController.updateSendWindow
      split <;> exact hsent
    · change (s.flowController.updateSendWindow _).sendWindow ≤ maxVarInt8
      unfold SendController.updateSendWindow
      split
      · exact hencodable
      · exact hwindow
  | frameAcked =>
    obtain ⟨t, ht, hperform⟩ := bind_eq_ok.mp hperform
    cases hperform
    exact (h.dropOutstanding ht).markCompleted
  | frameLost f =>
    obtain ⟨t, ht, hperform⟩ := bind_eq_ok.mp hperform
    cases hperform
    have hdropped := h.dropOutstanding ht
    refine { hdropped with queue := ?_ }
    intro g hg
    rcases List.mem_append.mp hg with hg | hg
    · exact hdropped.queue g hg
    · rw [List.mem_singleton.mp hg]
      exact hencodable

end SendStream

end Qperf.Quic
