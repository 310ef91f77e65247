import Qperf.Foundation.Traces
import Qperf.Quic.Framer
import Qperf.Quic.FrameReports

/-!
# Outstanding frames

Send streams together with the sent packet handler.  A STREAM frame is sent with
callbacks of its stream, and the handler calls one of them when it takes the packet
of the frame out of its history.
-/

namespace Qperf.Quic

open Qperf.Foundation

/-- A frame of a sent packet.  The callbacks of a STREAM frame are its owner's. -/
inductive SentFrame (ψ : Type) where
  | stream (owner : StreamID) (f : StreamFrame)
  | other (f : ψ)
  deriving DecidableEq

inductive SendPanic where
  | stream (panic : GoPanic)
  | handler (panic : HandlerPanic)
  deriving DecidableEq, Repr

/--
The send streams, the handler, the STREAM frames of the packet that is being packed,
and the calls of `onStreamCompleted`.  Completed streams are kept: the callbacks of
their frames still belong to them.
-/
structure SendSide (ψ : Type) where
  streams : StreamID → Option SendStream
  handler : SentPacketHandler (SentFrame ψ)
  packing : List (StreamID × StreamFrame)
  completed : List StreamID

def StreamOperation.isCallback : StreamOperation → Bool
  | .frameAcked => true
  | .frameLost _ => true
  | _ => false

inductive SendEvent (ψ : Type) where
  | openStream (id : StreamID) (initialSendWindow : Nat)
  | onStream (id : StreamID) (operation : StreamOperation)
  | popStreamFrame (id : StreamID) (connection : SendController) (maxBytes : Nat)
  | sendPacket (encLevel : EncryptionLevel) (others : List ψ)
      (largestAcked : PacketNumber) (length : Nat) (sendTime : Time)
      (num : UInt16) (rtt : RoundTrip)
  | receivedAck (ackFrame : AckFrame) (encLevel : EncryptionLevel)
      (rcvTime : Time) (rtt : RoundTrip)
  | onLossDetectionTimeout (now : Time) (rtt : RoundTrip)
  | queueProbePacket
  | dropPackets (encLevel : EncryptionLevel)
  | resetForRetry (num₁ num₂ : UInt16) (rtt : RoundTrip)

namespace SendSide

variable {ψ : Type}

def new (handler : SentPacketHandler (SentFrame ψ)) : SendSide ψ where
  streams := fun _ => none
  handler := handler
  packing := []
  completed := []

/-- `isNewlyCompleted` returns true exactly when it sets `completed`. -/
def setStream (s : SendSide ψ) (id : StreamID) (before after : SendStream) :
    SendSide ψ :=
  { s with
    streams := Function.update s.streams id (some after)
    completed :=
      if after.completed && !before.completed then s.completed ++ [id]
      else s.completed }

def onOwner (s : SendSide ψ) (id : StreamID)
    (call : SendStream → Except GoPanic Outcome) :
    Except SendPanic (SendSide ψ) :=
  match s.streams id with
  | none => .ok s
  | some stream =>
    match call stream with
    | .error panic => .error (.stream panic)
    | .ok outcome => .ok (s.setStream id stream outcome.stream)

/-- The other frames have no callback or one of the retransmission queue. -/
def callback (s : SendSide ψ) :
    FrameCallback (SentFrame ψ) → Except SendPanic (SendSide ψ)
  | .onAcked (.stream owner _) => s.onOwner owner SendStream.frameAcked
  | .onLost (.stream owner f) =>
    s.onOwner owner fun stream => stream.queueRetransmission f
  | .onAcked (.other _) => .ok s
  | .onLost (.other _) => .ok s

def handle (s : SendSide ψ) (handled : Except HandlerPanic
    (Handled (SentFrame ψ))) : Except SendPanic (SendSide ψ) :=
  match handled with
  | .error panic => .error (.handler panic)
  | .ok handled =>
    handled.callbacks.foldlM callback { s with handler := handled.handler }

def packedFrames : List (StreamID × StreamFrame) → List (SentFrame ψ)
  | [] => []
  | [(id, f)] => [.stream id { f with dataLenPresent := false }]
  | (id, f) :: frames => .stream id f :: packedFrames frames

def sendPacket (s : SendSide ψ) (encLevel : EncryptionLevel) (others : List ψ)
    (largestAcked : PacketNumber) (length : Nat) (sendTime : Time)
    (num : UInt16) (rtt : RoundTrip) : Except HandlerPanic (SendSide ψ) := do
  let frames := if encLevel = .oneRTT then packedFrames s.packing else []
  let (packetNumber, handler) ← s.handler.popPacketNumber encLevel num
  let handler ← handler.sentPacket {
    packetNumber
    frames := others.map .other ++ frames
    largestAcked
    length
    encryptionLevel := encLevel
    sendTime
    includedInBytesInFlight := false } rtt
  return { s with
    handler
    packing := if encLevel = .oneRTT then [] else s.packing }

def step (s : SendSide ψ) : SendEvent ψ → Except SendPanic (SendSide ψ)
  | .openStream id initialSendWindow =>
    match s.streams id with
    | none => .ok { s with
        streams := Function.update s.streams id (some (.new id initialSendWindow)) }
    | some _ => .ok s
  | .onStream id operation =>
    if operation.isCallback then .ok s
    else s.onOwner id fun stream => stream.perform operation
  | .popStreamFrame id connection maxBytes =>
    match s.streams id with
    | none => .ok s
    | some stream =>
      match stream.popStreamFrame connection maxBytes with
      | .error panic => .error (.stream panic)
      | .ok popped => .ok { s with
          streams := Function.update s.streams id (some popped.stream)
          packing := s.packing ++ popped.frame.toList.map fun f => (id, f) }
  | .sendPacket encLevel others largestAcked length sendTime num rtt =>
    match s.sendPacket encLevel others largestAcked length sendTime num rtt with
    | .error panic => .error (.handler panic)
    | .ok s => .ok s
  | .receivedAck ackFrame encLevel rcvTime rtt =>
    s.handle (s.handler.receivedAck ackFrame encLevel rcvTime rtt)
  | .onLossDetectionTimeout now rtt =>
    s.handle (s.handler.onLossDetectionTimeout now rtt)
  | .queueProbePacket => s.handle (s.handler.queueProbePacket.map Prod.fst)
  | .dropPackets encLevel =>
    s.handle ((s.handler.dropPackets encLevel).map fun handler => { handler })
  | .resetForRetry num₁ num₂ rtt =>
    s.handle (s.handler.resetForRetry num₁ num₂ rtt)

end SendSide

def SentFrame.ownedBy {ψ : Type} (id : StreamID) : SentFrame ψ → Bool
  | .stream owner _ => owner = id
  | .other _ => false

def SentPacketHandler.held {ψ : Type} (h : SentPacketHandler (SentFrame ψ))
    (id : StreamID) : Nat :=
  (h.framesAt .initial).countP (SentFrame.ownedBy id) +
    (h.framesAt .handshake).countP (SentFrame.ownedBy id) +
    (h.framesAt .oneRTT).countP (SentFrame.ownedBy id)

/-! ## Panics of a pop -/

def Unchecked {α : Type} (x : Except GoPanic α) : Prop :=
  x ≠ .error .negativeOutstandingFrames

theorem unchecked_ok {α : Type} (a : α) : Unchecked (.ok a : Except GoPanic α) := by
  intro h
  cases h

theorem unchecked_varIntLen (i : Nat) : Unchecked (varIntLen i) := by
  unfold Unchecked varIntLen
  split_ifs <;> (intro h; cases h)

namespace StreamFrame

theorem unchecked_baseLen (f : StreamFrame) : Unchecked f.baseLen := by
  refine bind_ne_error (unchecked_varIntLen _) fun idLen _ => ?_
  split
  · exact bind_ne_error (unchecked_varIntLen _) fun _ _ => unchecked_ok _
  · exact unchecked_ok _

private theorem unchecked_length (f : StreamFrame) : Unchecked f.length := by
  refine bind_ne_error f.unchecked_baseLen fun baseLen _ => ?_
  split
  · exact bind_ne_error (unchecked_varIntLen _) fun _ _ => unchecked_ok _
  · exact unchecked_ok _

theorem unchecked_maxDataLen (f : StreamFrame) (maxSize : Nat) :
    Unchecked (f.maxDataLen maxSize) := by
  refine bind_ne_error f.unchecked_baseLen fun baseLen _ => ?_
  dsimp only
  split_ifs
  · exact unchecked_ok _
  · exact bind_ne_error (unchecked_varIntLen _) fun _ _ => unchecked_ok _
  · exact unchecked_ok _
  · exact unchecked_ok _

private theorem unchecked_maybeSplitOffFrame (f : StreamFrame) (maxSize : Nat) :
    Unchecked (f.maybeSplitOffFrame maxSize) := by
  refine bind_ne_error f.unchecked_length fun length _ => ?_
  split
  · exact unchecked_ok _
  · refine bind_ne_error (f.unchecked_maxDataLen _) fun n _ => ?_
    split
    · exact unchecked_ok _
    split
    · intro h
      cases h
    · exact unchecked_ok _

end StreamFrame

namespace SendStream

private theorem unchecked_getDataForWriting (s : SendStream)
    (connection : SendController) (f : StreamFrame) (maxBytes : Nat) :
    Unchecked (s.getDataForWriting connection f maxBytes) := by
  unfold getDataForWriting
  split
  · exact unchecked_ok _
  · dsimp only
    split
    · exact unchecked_ok _
    split
    · intro h
      cases h
    · exact unchecked_ok _

private theorem unchecked_popNewStreamFrame (s : SendStream)
    (connection : SendController) (maxBytes : Nat) :
    Unchecked (s.popNewStreamFrame connection maxBytes) := by
  unfold popNewStreamFrame
  split
  · exact unchecked_ok _
  · refine bind_ne_error (StreamFrame.unchecked_maxDataLen _ _) fun n _ => ?_
    split
    · exact unchecked_ok _
    · refine bind_ne_error (unchecked_getDataForWriting _ _ _ _) fun result _ => ?_
      dsimp only
      split
      · split
        · exact unchecked_ok _
        · split <;> exact unchecked_ok _
      · exact unchecked_ok _

theorem unchecked_popStreamFrame (s : SendStream) (connection : SendController) (maxBytes : Nat) :
    Unchecked (s.popStreamFrame connection maxBytes) := by
  refine bind_ne_error ?_ fun popped _ => unchecked_ok _
  unfold popNewOrRetransmittedStreamFrame
  split
  · refine bind_ne_error ?_ fun result _ => ?_
    · refine bind_ne_error (StreamFrame.unchecked_maybeSplitOffFrame _ _) fun split _ => ?_
      cases split <;> exact unchecked_ok _
    · dsimp only
      split
      · exact unchecked_ok _
      · exact unchecked_popNewStreamFrame _ _ _
  · exact unchecked_popNewStreamFrame _ _ _

end SendStream

/-! ## One stream -/

namespace SendStream

structure Sound (s : SendStream) : Prop where
  ended : s.finSent = true → s.finishedWriting = true ∧ s.dataForWriting = none
  completed : s.completed = true → s.numOutstandingFrames = 0 ∧
    s.retransmissionQueue = [] ∧ (s.finSent = true ∨ s.canceledWrite = true)

variable {s t : SendStream}

theorem Sound.new (id : StreamID) (initialSendWindow : Nat) :
    (SendStream.new id initialSendWindow).Sound :=
  ⟨(fun hfin => nomatch hfin), (fun hcompleted => nomatch hcompleted)⟩

theorem numOutstandingFrames_markCompleted (s : SendStream) :
    s.markCompleted.numOutstandingFrames = s.numOutstandingFrames := by
  unfold markCompleted
  split <;> rfl

theorem Sound.markCompleted (hended : s.finSent = true →
      s.finishedWriting = true ∧ s.dataForWriting = none)
    (hcompleted : s.completed = true → s.numOutstandingFrames = 0 ∧
      s.retransmissionQueue = [] ∧ (s.finSent = true ∨ s.canceledWrite = true)) :
    s.markCompleted.Sound := by
  unfold SendStream.markCompleted
  split
  · next h =>
    refine ⟨hended, fun _ => ?_⟩
    simp only [Bool.and_eq_true, Bool.or_eq_true, beq_iff_eq, List.isEmpty_iff] at h
    exact ⟨h.1.2, h.2, h.1.1⟩
  · exact ⟨hended, hcompleted⟩

structure CountKept (s t : SendStream) : Prop where
  sound : t.Sound
  count : t.numOutstandingFrames = s.numOutstandingFrames
  completed : s.completed = true → t.completed = true

theorem Sound.cancelWriteImpl (h : s.Sound) (errorCode : Nat) (writeErr : StreamError) :
    CountKept s (s.cancelWriteImpl errorCode writeErr).stream := by
  unfold SendStream.cancelWriteImpl
  split
  · exact ⟨h, rfl, id⟩
  · refine ⟨Sound.markCompleted h.ended ?_, numOutstandingFrames_markCompleted _, ?_⟩
    · intro hcompleted
      obtain ⟨hcount, hqueue, _⟩ := h.completed hcompleted
      exact ⟨hcount, hqueue, Or.inr rfl⟩
    · intro hcompleted
      unfold SendStream.markCompleted
      split
      · rfl
      · exact hcompleted

private theorem perform_ok (s : SendStream) {operation : StreamOperation}
    (hcall : operation.isCallback = false) :
    ∃ outcome, s.perform operation = .ok outcome := by
  cases operation with
  | frameAcked => cases hcall
  | frameLost f => cases hcall
  | _ => exact ⟨_, rfl⟩

theorem Sound.perform (h : s.Sound) {operation : StreamOperation}
    (hcall : operation.isCallback = false) {outcome : Outcome}
    (hperform : s.perform operation = .ok outcome) :
    CountKept s outcome.stream := by
  cases operation with
  | write p =>
    cases hperform
    unfold SendStream.write
    split
    · exact ⟨h, rfl, id⟩
    · next hopen =>
      split_ifs
      · exact ⟨h, rfl, id⟩
      · exact ⟨h, rfl, id⟩
      · exact ⟨h, rfl, id⟩
      · refine ⟨⟨fun hfin => ?_, h.completed⟩, rfl, id⟩
        exact absurd (h.ended hfin).1 hopen
  | writeDeadlineExceeded =>
    cases hperform
    exact ⟨⟨fun hfin => ⟨(h.ended hfin).1, rfl⟩, h.completed⟩, rfl, id⟩
  | close =>
    cases hperform
    unfold SendStream.close
    split
    · exact ⟨h, rfl, id⟩
    · exact ⟨⟨fun hfin => ⟨rfl, (h.ended hfin).2⟩, h.completed⟩, rfl, id⟩
  | cancelWrite errorCode | handleStopSendingFrame errorCode =>
    cases hperform
    exact h.cancelWriteImpl ..
  | closeForShutdown err =>
    cases hperform
    exact ⟨⟨h.ended, h.completed⟩, rfl, id⟩
  | handleMaxStreamDataFrame byteOffset =>
    cases hperform
    exact ⟨⟨h.ended, h.completed⟩, rfl, id⟩
  | frameAcked => cases hcall
  | frameLost f => cases hcall

theorem Sound.popStreamFrame (h : s.Sound) {connection : SendController}
    {maxBytes : Nat} {popped : Popped}
    (hpop : s.popStreamFrame connection maxBytes = .ok popped) :
    popped.stream.Sound ∧ popped.stream.numOutstandingFrames =
      s.numOutstandingFrames + popped.frame.toList.length ∧
      popped.stream.completed = s.completed := by
  cases popStreamFrame_cases hpop with
  | @retransmission f rest hqueue hpop =>
    have hopen : s.completed = true → False := by
      intro hcompleted
      rw [(h.completed hcompleted).2.1] at hqueue
      cases hqueue
    cases hpop with
    | tooSmall => exact ⟨h, by simp, rfl⟩
    | split | fits =>
      exact ⟨⟨h.ended, fun hcompleted => (hopen hcompleted).elim⟩, rfl, rfl⟩
  | stopped _ _ hpop =>
    subst hpop
    exact ⟨h, by simp, rfl⟩
  | new _ hwritable _ hpop =>
    -- A completed stream that is writable has sent its FIN.
    have hopen : s.finSent = false → s.completed = true → False := by
      intro hfin hcompleted
      rcases (h.completed hcompleted).2.2 with hsent | hcanceled
      · rw [hfin] at hsent
        cases hsent
      · rw [hwritable.1] at hcanceled
        cases hcanceled
    cases hpop with
    | noRoom | idle | blocked => exact ⟨h, by simp, rfl⟩
    | newlyBlocked => exact ⟨⟨h.ended, h.completed⟩, by simp, rfl⟩
    | fin _ hdata hfin =>
      refine ⟨⟨fun _ => ⟨hfin.1, hdata⟩, fun hcompleted => ?_⟩, rfl, rfl⟩
      exact (hopen hfin.2 hcompleted).elim
    | @data data n hdata =>
      have hnotSent : s.finSent = false := by
        by_contra hsent
        have hnone := (h.ended (by simpa using hsent)).2
        rw [hdata] at hnone
        cases hnone
      refine ⟨⟨fun hfin => ?_, fun hcompleted => ?_⟩, rfl, rfl⟩
      · rcases finSent_afterData hfin with hsent | hlast
        · rw [hnotSent] at hsent
          cases hsent
        · exact hlast
      · exact (hopen hnotSent hcompleted).elim

theorem dropOutstanding_of_pos (h : 0 < s.numOutstandingFrames) :
    s.dropOutstanding = .ok
      { s with numOutstandingFrames := s.numOutstandingFrames - 1 } := by
  unfold dropOutstanding
  rw [if_neg (by omega)]

theorem Sound.not_completed (h : s.Sound) (hpos : 0 < s.numOutstandingFrames) :
    s.completed = false := by
  by_contra hcompleted
  have hzero := (h.completed (by simpa using hcompleted)).1
  omega

theorem Sound.frameAcked (h : s.Sound) (hpos : 0 < s.numOutstandingFrames) :
    ∃ outcome, s.frameAcked = .ok outcome ∧ outcome.stream.Sound ∧
      outcome.stream.numOutstandingFrames = s.numOutstandingFrames - 1 := by
  unfold SendStream.frameAcked
  rw [dropOutstanding_of_pos hpos]
  refine ⟨_, rfl, Sound.markCompleted h.ended ?_, numOutstandingFrames_markCompleted _⟩
  intro hcompleted
  rw [h.not_completed hpos] at hcompleted
  cases hcompleted

theorem Sound.queueRetransmission (h : s.Sound)
    (hpos : 0 < s.numOutstandingFrames) (f : StreamFrame) :
    ∃ outcome, s.queueRetransmission f = .ok outcome ∧ outcome.stream.Sound ∧
      outcome.stream.numOutstandingFrames = s.numOutstandingFrames - 1 := by
  unfold SendStream.queueRetransmission
  rw [dropOutstanding_of_pos hpos]
  refine ⟨_, rfl, ⟨h.ended, ?_⟩, rfl⟩
  intro hcompleted
  rw [h.not_completed hpos] at hcompleted
  cases hcompleted

end SendStream

/-! ## All streams -/

namespace SendSide

variable {ψ : Type} {s : SendSide ψ} {id : StreamID}
variable {pending pending' : List (SentFrame ψ)} {before after : SendStream}

def outstanding (s : SendSide ψ) (pending : List (SentFrame ψ))
    (id : StreamID) : Nat :=
  pending.countP (SentFrame.ownedBy id) + s.handler.held id +
    s.packing.countP fun packed => packed.1 = id

structure Accounted (pending : List (SentFrame ψ)) (s : SendSide ψ) : Prop where
  handler : s.handler.Consistent
  crypto : ∀ encLevel, encLevel ≠ .oneRTT → ∀ f ∈ s.handler.framesAt encLevel,
    ∀ id, f.ownedBy id = false
  sound : ∀ id stream, s.streams id = some stream → stream.Sound
  count : ∀ id stream, s.streams id = some stream →
    stream.numOutstandingFrames = s.outstanding pending id
  unopened : ∀ id, s.streams id = none → s.outstanding pending id = 0
  once : s.completed.Nodup
  completed : ∀ id, id ∈ s.completed ↔
    ∃ stream, s.streams id = some stream ∧ stream.completed = true

theorem Accounted.mem_completed (h : s.Accounted pending) (hid : s.streams id = some before) :
    id ∈ s.completed ↔ before.completed = true := by
  rw [h.completed id]
  constructor
  · rintro ⟨stream, hstream, hcompleted⟩
    rw [hid] at hstream
    cases hstream
    exact hcompleted
  · exact fun hcompleted => ⟨before, hid, hcompleted⟩

variable {encLevel : EncryptionLevel} {handled : Handled (SentFrame ψ)}
variable {handler : SentPacketHandler (SentFrame ψ)} {other : StreamID}
variable {taken : List (SentPacket (SentFrame ψ))}

private theorem mem_completed_setStream :
    other ∈ (s.setStream id before after).completed ↔ other ∈ s.completed ∨
      (other = id ∧ after.completed = true ∧ before.completed = false) := by
  unfold SendSide.setStream
  split
  · next hnew =>
    simp only [Bool.and_eq_true, Bool.not_eq_eq_eq_not, Bool.not_true] at hnew
    rw [List.mem_append, List.mem_singleton, and_iff_left hnew]
  · next hold =>
    simp only [Bool.and_eq_true, Bool.not_eq_eq_eq_not, Bool.not_true] at hold
    simp [hold]

theorem update_eq_some {streams : StreamID → Option SendStream} {stream : SendStream}
    (h : Function.update streams id (some after) other = some stream) :
    (other = id ∧ stream = after) ∨ (other ≠ id ∧ streams other = some stream) := by
  by_cases hne : other = id
  · subst hne
    rw [Function.update_self] at h
    cases h
    exact Or.inl ⟨rfl, rfl⟩
  · rw [Function.update_of_ne hne] at h
    exact Or.inr ⟨hne, h⟩

theorem update_eq_none {streams : StreamID → Option SendStream}
    (h : Function.update streams id (some after) other = none) :
    other ≠ id ∧ streams other = none := by
  by_cases hne : other = id
  · subst hne
    rw [Function.update_self] at h
    cases h
  · rw [Function.update_of_ne hne] at h
    exact ⟨hne, h⟩

theorem Accounted.setStream (h : s.Accounted pending)
    {packing : List (StreamID × StreamFrame)}
    (hid : s.streams id = some before) (hsound : after.Sound)
    (hkept : before.completed = true → after.completed = true)
    (hcount : after.numOutstandingFrames = outstanding { s with packing } pending' id)
    (hothers : ∀ other, other ≠ id →
      outstanding { s with packing } pending' other =
        s.outstanding pending other) :
    (SendSide.setStream { s with packing } id before after).Accounted
      pending' where
  __ := h
  sound := by
    intro other stream hother
    rcases update_eq_some hother with ⟨rfl, rfl⟩ | ⟨_, hother⟩
    · exact hsound
    · exact h.sound other stream hother
  count := by
    intro other stream hother
    rcases update_eq_some hother with ⟨rfl, rfl⟩ | ⟨hne, hother⟩
    · exact hcount
    · exact (h.count other stream hother).trans (congrArg Nat.cast (hothers other hne).symm)
  unopened := by
    intro other hother
    obtain ⟨hne, hother⟩ := update_eq_none hother
    exact (hothers other hne).trans (h.unopened other hother)
  once := by
    unfold SendSide.setStream
    split
    · next hnew =>
      have hnot : id ∉ s.completed := by
        rw [h.mem_completed hid]
        simp_all
      exact h.once.append (List.nodup_singleton id) (List.disjoint_singleton.mpr hnot)
    · exact h.once
  completed := by
    intro other
    rw [mem_completed_setStream]
    change _ ↔ ∃ stream, Function.update s.streams id (some after) other = _ ∧ _
    by_cases hne : other = id
    · subst hne
      rw [Function.update_self, h.mem_completed hid]
      cases hbefore : before.completed with
      | true => simp [hkept hbefore]
      | false => simp
    · rw [Function.update_of_ne hne, h.completed other]
      simp [hne]

/-! ### Callbacks -/

theorem Accounted.of_outstanding (h : s.Accounted pending)
    {packing : List (StreamID × StreamFrame)} (hhandler : handler.Consistent)
    (hcrypto : ∀ encLevel, encLevel ≠ .oneRTT →
      ∀ f ∈ handler.framesAt encLevel, ∀ id, f.ownedBy id = false)
    (heq : ∀ id, outstanding { s with handler, packing } pending' id =
      s.outstanding pending id) :
    Accounted pending' { s with handler, packing } where
  handler := hhandler
  crypto := hcrypto
  __ := h
  count := fun id stream hid => by
    rw [heq]
    exact h.count id stream hid
  unopened := fun id hid => (heq id).trans (h.unopened id hid)

private theorem outstanding_cons_stream (s : SendSide ψ) (owner : StreamID)
    (f : StreamFrame) (id : StreamID) :
    s.outstanding (.stream owner f :: pending) id =
      s.outstanding pending id + if owner = id then 1 else 0 := by
  unfold outstanding
  rw [List.countP_cons]
  simp only [SentFrame.ownedBy, decide_eq_true_eq]
  omega

private theorem outstanding_cons_other (s : SendSide ψ) (f : ψ) (id : StreamID) :
    s.outstanding (.other f :: pending) id = s.outstanding pending id := by
  rfl

theorem Accounted.onOwner {owner : StreamID} {f : StreamFrame}
    (h : s.Accounted (.stream owner f :: pending)) {call : SendStream → Except GoPanic Outcome}
    (hcall : ∀ stream : SendStream, stream.Sound →
      0 < stream.numOutstandingFrames →
      ∃ outcome, call stream = .ok outcome ∧ outcome.stream.Sound ∧
        outcome.stream.numOutstandingFrames = stream.numOutstandingFrames - 1) :
    ∃ s', s.onOwner owner call = .ok s' ∧ s'.Accounted pending := by
  have hself : s.outstanding (.stream owner f :: pending) owner = _ :=
    outstanding_cons_stream s owner f owner
  rw [if_pos rfl] at hself
  unfold SendSide.onOwner
  cases howner : s.streams owner with
  | none =>
    have hzero := h.unopened owner howner
    omega
  | some stream =>
    have hsound := h.sound owner stream howner
    have hcount := h.count owner stream howner
    have hpos : 0 < stream.numOutstandingFrames := by omega
    obtain ⟨outcome, hok, hsound', hcount'⟩ := hcall stream hsound hpos
    dsimp only
    rw [hok]
    refine ⟨_, rfl, h.setStream howner hsound' ?_ ?_ ?_⟩
    · intro hcompleted
      rw [hsound.not_completed hpos] at hcompleted
      cases hcompleted
    · change _ = (s.outstanding pending owner : Int)
      omega
    · intro other hne
      rw [outstanding_cons_stream, if_neg (Ne.symm hne), Nat.add_zero]

theorem Accounted.callback {c : FrameCallback (SentFrame ψ)}
    (h : s.Accounted (c.frame :: pending)) :
    ∃ s', s.callback c = .ok s' ∧ s'.Accounted pending := by
  cases c with
  | onAcked f =>
    cases f with
    | stream owner f =>
      exact Accounted.onOwner h fun stream hsound hpos =>
        hsound.frameAcked hpos
    | other f =>
      exact ⟨s, rfl, h.of_outstanding h.handler h.crypto fun id =>
        (outstanding_cons_other s f id).symm⟩
  | onLost f =>
    cases f with
    | stream owner f =>
      exact Accounted.onOwner h fun stream hsound hpos =>
        hsound.queueRetransmission hpos f
    | other f =>
      exact ⟨s, rfl, h.of_outstanding h.handler h.crypto fun id =>
        (outstanding_cons_other s f id).symm⟩

theorem Accounted.callbacks {callbacks : List (FrameCallback (SentFrame ψ))}
    (h : s.Accounted (callbacks.map FrameCallback.frame)) :
    ∃ s', callbacks.foldlM SendSide.callback s = .ok s' ∧ s'.Accounted [] := by
  induction callbacks generalizing s with
  | nil => exact ⟨s, rfl, h⟩
  | cons c callbacks ih =>
    obtain ⟨next, hnext, haccounted⟩ := Accounted.callback h
    obtain ⟨s', hs', hfinal⟩ := ih haccounted
    refine ⟨s', ?_, hfinal⟩
    rw [List.foldlM_cons, hnext]
    exact hs'

theorem held_eq_add {handler' : SentPacketHandler (SentFrame ψ)} {n : Nat}
    (hlevel : (handler.framesAt encLevel).countP (SentFrame.ownedBy id) =
      n + (handler'.framesAt encLevel).countP (SentFrame.ownedBy id))
    (hothers : ∀ level ≠ encLevel, handler'.framesAt level = handler.framesAt level) :
    handler.held id = n + handler'.held id :=
  SentPacketHandler.sum_levels_eq (List.countP (SentFrame.ownedBy id)) hlevel hothers

private theorem held_takesOut (h : SentPacketHandler.TakesOut encLevel taken handler handled)
    (id : StreamID) : handler.held id =
      (handled.callbacks.map FrameCallback.frame).countP (SentFrame.ownedBy id) +
        handled.handler.held id := by
  have hcount := h.framesAt.countP_eq (SentFrame.ownedBy id)
  rw [List.countP_append] at hcount
  exact held_eq_add hcount fun level hne => h.framesAt_of_ne hne

theorem Accounted.takesOut (h : s.Accounted [])
    (htakes : SentPacketHandler.TakesOut encLevel taken s.handler handled) :
    Accounted (handled.callbacks.map FrameCallback.frame)
      { s with handler := handled.handler } := by
  refine h.of_outstanding htakes.without.consistent ?_ ?_
  · intro level hlevel f hf
    by_cases hsame : level = encLevel
    · subst hsame
      exact h.crypto level hlevel f (htakes.framesAt.mem_iff.mpr
        (List.mem_append_right _ hf))
    · exact h.crypto level hlevel f (htakes.framesAt_of_ne hsame ▸ hf)
  · intro id
    have hheld := held_takesOut htakes id
    unfold outstanding
    rw [List.countP_nil]
    dsimp only
    omega

theorem Accounted.handle (h : s.Accounted [])
    (htakes : SentPacketHandler.TakesOut encLevel taken s.handler handled) :
    ∃ s', s.handle (.ok handled) = .ok s' ∧ s'.Accounted [] :=
  (h.takesOut htakes).callbacks

/-! ### Sending packets -/

private theorem countP_packedFrames (packing : List (StreamID × StreamFrame)) (id : StreamID) :
    (packedFrames packing : List (SentFrame ψ)).countP (SentFrame.ownedBy id) =
      packing.countP fun packed => packed.1 = id := by
  induction packing with
  | nil => rfl
  | cons packed packing ih =>
    cases packing with
    | nil => simp [packedFrames, SentFrame.ownedBy, List.countP_cons]
    | cons next packing =>
      rw [List.countP_cons, ← ih]
      simp [packedFrames, SentFrame.ownedBy, List.countP_cons]

private theorem countP_others (others : List ψ) (id : StreamID) :
    (others.map SentFrame.other).countP (SentFrame.ownedBy id) = 0 := by
  simp [SentFrame.ownedBy, List.countP_map, Function.comp_def]

theorem held_with {p : SentPacket (SentFrame ψ)} {handler' : SentPacketHandler (SentFrame ψ)}
    (h : SentPacketHandler.With p handler handler') (id : StreamID) :
    handler'.held id = handler.held id + p.frames.countP (SentFrame.ownedBy id) := by
  have hcount := congrArg (List.countP (SentFrame.ownedBy id)) h.frames
  rw [List.countP_append, Nat.add_comm] at hcount
  rw [Nat.add_comm]
  exact held_eq_add hcount fun level hne => (h.others level hne).symm

theorem Accounted.sendPacket (h : s.Accounted [])
    {others : List ψ} {largestAcked : PacketNumber} {length : Nat}
    {sendTime : Time} {num : UInt16} {rtt : RoundTrip} {s' : SendSide ψ}
    (hsend : s.sendPacket encLevel others largestAcked length sendTime num rtt =
      .ok s') : s'.Accounted [] := by
  obtain ⟨⟨pn, popped⟩, hpop, hsend⟩ := bind_eq_ok.mp hsend
  obtain ⟨handler, hsent, hsend⟩ := bind_eq_ok.mp hsend
  cases hsend
  have hwith := SentPacketHandler.sentPacket_spec h.handler hpop rfl hsent
  refine h.of_outstanding hwith.consistent ?_ ?_
  · intro level hlevel f hf id
    by_cases hsame : level = encLevel
    · subst hsame
      rw [hwith.frames, if_neg hlevel, List.append_nil] at hf
      rcases List.mem_append.mp hf with hf | hf
      · exact h.crypto level hlevel f hf id
      · obtain ⟨other, _, rfl⟩ := List.mem_map.mp hf
        rfl
    · rw [hwith.others level hsame] at hf
      exact h.crypto level hlevel f hf id
  · intro id
    have hheld := held_with hwith id
    rw [List.countP_append, countP_others] at hheld
    unfold outstanding
    rw [hheld]
    split
    · rw [countP_packedFrames]
      simp
    · simp

theorem Accounted.dropPackets (h : s.Accounted [])
    (hdrop : s.handler.dropPackets encLevel = .ok handler) :
    Accounted [] { s with handler } := by
  obtain ⟨hconsistent, hlevel, hempty, hothers⟩ :=
    SentPacketHandler.dropPackets_spec h.handler hdrop
  have hdropped : handler.framesAt encLevel = [] := by
    unfold SentPacketHandler.framesAt
    rw [hempty]
    rfl
  have hframes : ∀ other, other ≠ encLevel →
      handler.framesAt other = s.handler.framesAt other := by
    intro other hne
    unfold SentPacketHandler.framesAt
    rw [hothers other hne]
  refine h.of_outstanding hconsistent ?_ ?_
  · intro level hne f hf
    by_cases hsame : level = encLevel
    · rw [hsame, hdropped] at hf
      cases hf
    · rw [hframes level hsame] at hf
      exact h.crypto level hne f hf
  · intro id
    have hnone : (s.handler.framesAt encLevel).countP (SentFrame.ownedBy id) = 0 := by
      rw [List.countP_eq_zero]
      intro f hf
      rw [h.crypto encLevel hlevel f hf id]
      exact Bool.false_ne_true
    have hheld : s.handler.held id = 0 + handler.held id := by
      refine held_eq_add ?_ hframes
      rw [hnone, hdropped]
      rfl
    unfold outstanding
    rw [hheld, Nat.zero_add]

/-! ### Every event -/

theorem Accounted.openStream (h : s.Accounted []) (hid : s.streams id = none)
    (initialSendWindow : Nat) :
    Accounted [] { s with
      streams := Function.update s.streams id
        (some (.new id initialSendWindow)) } := by
  refine ⟨h.handler, h.crypto, ?_, ?_, ?_, h.once, ?_⟩
  · intro other stream hother
    rcases update_eq_some hother with ⟨rfl, rfl⟩ | ⟨_, hother⟩
    · exact .new other initialSendWindow
    · exact h.sound other stream hother
  · intro other stream hother
    rcases update_eq_some hother with ⟨rfl, rfl⟩ | ⟨_, hother⟩
    · exact (congrArg Nat.cast (h.unopened other hid)).symm
    · exact h.count other stream hother
  · intro other hother
    exact h.unopened other (update_eq_none hother).2
  · intro other
    rw [h.completed other]
    dsimp only
    by_cases hne : other = id
    · subst hne
      rw [hid, Function.update_self]
      simp [SendStream.new]
    · rw [Function.update_of_ne hne]

theorem Accounted.pop (h : s.Accounted []) {stream : SendStream}
    (hid : s.streams id = some stream) {connection : SendController}
    {maxBytes : Nat} {popped : SendStream.Popped}
    (hpop : stream.popStreamFrame connection maxBytes = .ok popped) :
    Accounted [] { s with
      streams := Function.update s.streams id (some popped.stream)
      packing := s.packing ++ popped.frame.toList.map fun f => (id, f) } := by
  obtain ⟨hsound, hcount, hcompleted⟩ := (h.sound id stream hid).popStreamFrame hpop
  rw [h.count id stream hid] at hcount
  have hset : SendSide.setStream { s with
      packing := s.packing ++ popped.frame.toList.map fun f => (id, f) } id
      stream popped.stream = { s with
        streams := Function.update s.streams id (some popped.stream)
        packing := s.packing ++ popped.frame.toList.map fun f => (id, f) } := by
    unfold SendSide.setStream
    rw [hcompleted, Bool.and_not_self, if_neg Bool.false_ne_true]
  rw [← hset]
  refine h.setStream hid hsound (fun hbefore => hcompleted.trans hbefore) ?_ ?_
  · rw [hcount]
    simp [outstanding, List.countP_map, Function.comp_def, List.countP_true, Int.add_assoc]
  · intro other hne
    simp [outstanding, List.countP_map, Function.comp_def, Ne.symm hne]

def Safe (result : Except SendPanic (SendSide ψ)) : Prop :=
  Ends (· ≠ .stream .negativeOutstandingFrames) result (Accounted [])

theorem Accounted.safe_handle (h : s.Accounted [])
    {result : Except HandlerPanic (Handled (SentFrame ψ))}
    (hresult : ∀ handled, result = .ok handled → ∃ encLevel taken,
      SentPacketHandler.TakesOut encLevel taken s.handler handled) :
    Safe (s.handle result) := by
  cases result with
  | error panic => exact fun herror => nomatch herror
  | ok handled =>
    obtain ⟨encLevel, taken, htakes⟩ := hresult handled rfl
    obtain ⟨s', hs', haccounted⟩ := h.handle htakes
    rw [hs']
    exact haccounted

theorem Accounted.step (h : s.Accounted []) (event : SendEvent ψ) :
    Safe (s.step event) := by
  cases event with
  | openStream id initialSendWindow =>
    unfold SendSide.step
    dsimp only
    cases hid : s.streams id with
    | none => exact h.openStream hid initialSendWindow
    | some stream => exact h
  | onStream id operation =>
    unfold SendSide.step
    dsimp only
    split
    · exact h
    · next hcall =>
      unfold SendSide.onOwner
      cases hid : s.streams id with
      | none => exact h
      | some stream =>
        obtain ⟨outcome, hperform⟩ := stream.perform_ok (by simpa using hcall)
        have hkept := (h.sound id stream hid).perform (by simpa using hcall) hperform
        dsimp only
        rw [hperform]
        refine h.setStream hid hkept.sound hkept.completed ?_ fun _ _ => rfl
        exact hkept.count.trans (h.count id stream hid)
  | popStreamFrame id connection maxBytes =>
    unfold SendSide.step
    dsimp only
    cases hid : s.streams id with
    | none => exact h
    | some stream =>
      dsimp only
      cases hpop : stream.popStreamFrame connection maxBytes with
      | error panic =>
        rintro ⟨⟩
        exact stream.unchecked_popStreamFrame connection maxBytes hpop
      | ok popped => exact h.pop hid hpop
  | sendPacket encLevel others largestAcked length sendTime num rtt =>
    unfold SendSide.step
    dsimp only
    cases hsend : s.sendPacket encLevel others largestAcked length sendTime num rtt with
    | error panic => exact fun herror => nomatch herror
    | ok s' => exact h.sendPacket hsend
  | receivedAck ackFrame encLevel rcvTime rtt =>
    refine h.safe_handle fun handled hhandled => ?_
    exact ⟨encLevel, SentPacketHandler.receivedAck_spec h.handler hhandled⟩
  | onLossDetectionTimeout now rtt =>
    exact h.safe_handle fun handled hhandled =>
      SentPacketHandler.onLossDetectionTimeout_spec h.handler hhandled
  | queueProbePacket =>
    refine h.safe_handle fun handled hhandled => ?_
    obtain ⟨result, queued, hresult, htakes⟩ :=
      SentPacketHandler.queueProbePacket_spec h.handler
    rw [hresult] at hhandled
    cases hhandled
    exact htakes
  | dropPackets encLevel =>
    unfold SendSide.step
    dsimp only
    cases hdrop : s.handler.dropPackets encLevel with
    | error panic => exact fun herror => nomatch herror
    | ok handler => exact h.dropPackets hdrop
  | resetForRetry num₁ num₂ rtt =>
    refine h.safe_handle fun handled hhandled => ?_
    exact ⟨.initial, _, SentPacketHandler.resetForRetry_spec h.handler hhandled⟩

/-! ## Every run -/

def Reaches : SendSide ψ → List (SendEvent ψ) → SendSide ψ → Prop :=
  Trace fun s event s' => s.step event = .ok s'

theorem Accounted.new (initialPN : PacketNumber) (num₁ num₂ num₃ : UInt16) :
    (new (.new initialPN num₁ num₂ num₃) : SendSide ψ).Accounted [] where
  handler := .new initialPN num₁ num₂ num₃
  crypto := by
    intro encLevel hne f hf
    cases encLevel with
    | initial => cases hf
    | handshake => cases hf
    | oneRTT => exact absurd rfl hne
  sound := fun id stream hid => by cases hid
  count := fun id stream hid => by cases hid
  unopened := fun id _ => rfl
  once := List.nodup_nil
  completed := fun id => by simp [SendSide.new]

/--
The counter of every stream is the number of its frames in the history and in the
packet that is being packed.  A stream is reported as completed once, and has
nothing left to send from then on.
-/
structure Counted (s : SendSide ψ) : Prop where
  outstanding : ∀ id stream, s.streams id = some stream →
    stream.numOutstandingFrames = s.handler.held id +
      s.packing.countP fun packed => packed.1 = id
  once : s.completed.Nodup
  completed : ∀ id ∈ s.completed, ∃ stream, s.streams id = some stream ∧
    stream.numOutstandingFrames = 0 ∧ stream.retransmissionQueue = [] ∧
    (stream.finSent = true ∨ stream.canceledWrite = true)
  panics : ∀ event, s.step event ≠ .error (.stream .negativeOutstandingFrames)

theorem Accounted.counted (h : s.Accounted []) : s.Counted where
  outstanding := by
    intro id stream hid
    rw [h.count id stream hid]
    simp [SendSide.outstanding]
  once := h.once
  completed := by
    intro id hid
    obtain ⟨stream, hstream, hcompleted⟩ := (h.completed id).mp hid
    exact ⟨stream, hstream, (h.sound id stream hstream).completed hcompleted⟩
  panics := fun event herror => (h.step event).of_error herror rfl

theorem sendSide_counted {initialPN : PacketNumber} {num₁ num₂ num₃ : UInt16}
    {events : List (SendEvent ψ)}
    (h : Reaches (.new (.new initialPN num₁ num₂ num₃)) events s) : s.Counted := by
  have haccounted : s.Accounted [] :=
    Trace.invariant (Accounted []) (.new initialPN num₁ num₂ num₃)
      (fun _ event _ ht hstep => (ht.step event).of_ok hstep) h
  exact haccounted.counted

def roundTrip : RoundTrip := ⟨1000, 1000⟩

def probedTransfer : List (SendEvent Unit) :=
  [.openStream 4 1000, .onStream 4 (.write [1, 2, 3, 4, 5, 6]),
    .popStreamFrame 4 (.new 1000) 8,
    .sendPacket .oneRTT [] (-1) 30 10 0 roundTrip,
    .onStream 4 .close,
    .popStreamFrame 4 (.new 1000) 100,
    .sendPacket .oneRTT [()] (-1) 30 20 0 roundTrip,
    .queueProbePacket,
    .popStreamFrame 4 (.new 1000) 6,
    .popStreamFrame 4 (.new 1000) 20,
    .sendPacket .oneRTT [] (-1) 30 30 0 roundTrip,
    .receivedAck ⟨[⟨1, 2⟩], 0⟩ .oneRTT 40 roundTrip]

theorem sendSide_counted_probedTransfer : ∃ s : SendSide Unit,
    Reaches (.new (.new 0 0 0 65535)) probedTransfer s ∧
      s.completed = [4] ∧ s.Counted := by
  have hrun : ∃ s : SendSide Unit,
      Reaches (.new (.new 0 0 0 65535)) probedTransfer s ∧ s.completed = [4] :=
    ⟨_, Trace.of_foldlM_ok rfl, by decide +kernel⟩
  obtain ⟨s, hs, hcompleted⟩ := hrun
  exact ⟨s, hs, hcompleted, sendSide_counted hs⟩

end SendSide

end Qperf.Quic
