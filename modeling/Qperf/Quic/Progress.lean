import Qperf.Quic.Budget
import Qperf.Quic.Pending

/-!
# Progress of the framer

Every turn counts against `StreamMultiplexLimit`, whether its stream yields a
frame or not, and every stream gets the same share of the packet.  A call makes
progress exactly if one of the first streams that it serves can send a frame
with that share.
-/

namespace Qperf.Quic

open Qperf.Foundation

namespace SendStream

/-- The stream has something that it is allowed to send. -/
def Sendable (s : SendStream) (connection : SendController) : Prop :=
  s.Live ∧ (s.retransmissionQueue ≠ [] ∨
    (s.dataForWriting.isSome ∧ 0 < s.sendWindowSize connection) ∨ s.FinPending)

instance (s : SendStream) : Decidable s.Live :=
  inferInstanceAs (Decidable (_ ∧ _))

instance (s : SendStream) (connection : SendController) :
    Decidable (s.Sendable connection) :=
  inferInstanceAs (Decidable (_ ∧ (_ ∨ _ ∨ _)))

def HasContent (s : SendStream) (connection : SendController) : Prop :=
  match s.dataForWriting with
  | some _ => s.sendWindowSize connection ≠ 0
  | none => s.FinPending

/-- The next frame of the stream, or a part of it, fits into `maxBytes`. -/
def CanSend (s : SendStream) (connection : SendController) (maxBytes : Nat) : Prop :=
  match s.retransmissionQueue with
  | f :: _ => f.wireLen ≤ maxBytes ∨ f.room maxBytes ≠ 0
  | [] => s.Writable ∧ s.newFrame.room maxBytes ≠ 0 ∧ s.HasContent connection

variable {s : SendStream} {connection : SendController} {maxBytes : Nat}
variable {popped : Popped}

theorem isSome_frame_popRetransmission {f : StreamFrame}
    {rest : List StreamFrame} (hf : f.Valid) (hmax : maxBytes ≤ 1454)
    (h : PopRetransmission s connection maxBytes f rest popped) :
    popped.frame.isSome ↔ f.wireLen ≤ maxBytes ∨ f.room maxBytes ≠ 0 := by
  have hsplit : f.maybeSplitOffFrame maxBytes = _ := hf.maybeSplitOffFrame (by omega)
  cases h with
  | tooSmall h =>
    rw [h, Except.ok.injEq] at hsplit
    split_ifs at hsplit with hfits hroom
    simp [hfits, hroom]
  | split h =>
    rw [h, Except.ok.injEq] at hsplit
    split_ifs at hsplit with hfits hroom
    simp [hroom]
  | fits h =>
    rw [h, Except.ok.injEq] at hsplit
    split_ifs at hsplit with hfits
    simp [hfits]

theorem isSome_frame_popNew {room : Nat} (h : PopNew s connection room popped) :
    popped.frame.isSome ↔ room ≠ 0 ∧ s.HasContent connection := by
  unfold HasContent
  cases h with
  | noRoom hroom => simp [hroom]
  | idle hroom hdata hfin => simp [hdata, hfin]
  | fin hroom hdata hfin => simp [hroom, hdata, hfin]
  | newlyBlocked hroom hdata hblocked =>
    have hwindow : s.sendWindowSize connection = 0 := by
      have hzero := hblocked.1
      unfold sendWindowSize
      omega
    simp [hdata, hwindow]
  | blocked hroom hdata hwindow => simp [hdata, hwindow]
  | data hdata hn hpos =>
    have hroom : room ≠ 0 := by omega
    have hwindow : s.sendWindowSize connection ≠ 0 := by omega
    simp [hdata, hroom, hwindow]

theorem Valid.isSome_frame_iff (h : s.Valid) (hmax : maxBytes ≤ 1454)
    (hpop : s.popStreamFrame connection maxBytes = .ok popped) :
    popped.frame.isSome ↔ s.CanSend connection maxBytes := by
  unfold CanSend
  cases popStreamFrame_cases hpop with
  | retransmission hqueue hpop =>
    rw [hqueue]
    exact isSome_frame_popRetransmission (h.queue _ (by simp [hqueue])).toValid hmax hpop
  | stopped hqueue hwritable hpop =>
    rw [hqueue, hpop]
    simp [hwritable]
  | new hqueue hwritable hroom hpop =>
    rw [StreamFrame.maxDataLen_of_baseLen h.baseLen_newFrame (by omega),
      Except.ok.injEq] at hroom
    rw [hqueue, isSome_frame_popNew hpop, ← hroom]
    simp [hwritable]

theorem popStreamFrame_of_frame_eq_none
    (hpop : s.popStreamFrame connection maxBytes = .ok popped)
    (hnone : popped.frame = none) :
    popped.connection = connection ∧ ∃ lastBlockedAt,
      popped.stream = { s with
        flowController := { s.flowController with lastBlockedAt } } := by
  cases popStreamFrame_cases hpop with
  | retransmission hqueue hpop =>
    cases hpop with
    | tooSmall => exact ⟨rfl, _, rfl⟩
    | split => cases hnone
    | fits => cases hnone
  | stopped hqueue hwritable hpop =>
    subst hpop
    exact ⟨rfl, _, rfl⟩
  | new hqueue hwritable hroom hpop =>
    cases hpop with
    | noRoom | idle | blocked => exact ⟨rfl, _, rfl⟩
    | newlyBlocked => exact ⟨rfl, _, rfl⟩
    | fin => cases hnone
    | data => cases hnone

end SendStream

namespace Connection

/-! ## The first streams of the queue -/

def IsOpen (c : Connection) (id : StreamID) : Bool :=
  (c.getOrOpenSendStream id).isSome

def CanSend (c : Connection) (maxBytes : Nat) (id : StreamID) : Prop :=
  ∃ s, c.getOrOpenSendStream id = some s ∧ s.CanSend c.flowController maxBytes

variable {c mid next : Connection} {packet packet' : Packet}
variable {share maxLen k turns : Nat} {limit : Int}

def SameStreams (c mid : Connection) : Prop :=
  ∀ id, mid.IsOpen id = c.IsOpen id ∧
    ∀ maxBytes, mid.CanSend maxBytes id ↔ c.CanSend maxBytes id

theorem SameStreams.of_framer (c : Connection) (framer : Framer) :
    SameStreams c { c with framer } :=
  fun _ => ⟨rfl, fun _ => Iff.rfl⟩

@[simp]
theorem flowController_afterPop (c : Connection) (id : StreamID)
    (popped : SendStream.Popped) :
    (c.afterPop id popped).flowController = popped.connection := rfl

private theorem getOrOpenSendStream_afterPop_self {id : StreamID} {s : SendStream}
    (hget : c.getOrOpenSendStream id = some s) (popped : SendStream.Popped) :
    (c.afterPop id popped).getOrOpenSendStream id = some popped.stream := by
  have hopen : id ∉ c.deleted := by
    intro hdeleted
    simp [getOrOpenSendStream, hdeleted] at hget
  exact (if_neg hopen).trans (streams_setStream_self ..)

private theorem getOrOpenSendStream_afterPop_of_ne {id other : StreamID}
    (hne : other ≠ id) (popped : SendStream.Popped) :
    (c.afterPop id popped).getOrOpenSendStream other = c.getOrOpenSendStream other := by
  change (if other ∈ c.deleted then none
    else (c.setStream id popped.stream).streams other) = _
  rw [streams_setStream_of_ne hne]
  rfl

theorem SameStreams.afterPop {id : StreamID} {s : SendStream}
    {popped : SendStream.Popped} {maxBytes : Nat} (hget : c.getOrOpenSendStream id = some s)
    (hpop : s.popStreamFrame c.flowController maxBytes = .ok popped)
    (hnone : popped.frame = none) : SameStreams c (c.afterPop id popped) := by
  obtain ⟨hflow, offset, hstream⟩ := SendStream.popStreamFrame_of_frame_eq_none hpop hnone
  intro other
  by_cases hother : other = id
  · subst hother
    have hget' := getOrOpenSendStream_afterPop_self hget popped
    refine ⟨?_, fun maxBytes => ?_⟩
    · rw [IsOpen, IsOpen, hget, hget']
      rfl
    · have hsame : popped.stream.CanSend c.flowController maxBytes ↔
          s.CanSend c.flowController maxBytes := by
        rw [hstream]
        rfl
      unfold CanSend
      rw [hget, hget', flowController_afterPop, hflow]
      simpa using hsame
  · have hget' := getOrOpenSendStream_afterPop_of_ne (c := c) hother popped
    refine ⟨?_, fun maxBytes => ?_⟩
    · rw [IsOpen, IsOpen, hget']
    · unfold CanSend
      rw [hget', flowController_afterPop, hflow]

theorem Turn.frames_prefix (h : Turn share maxLen c packet mid packet') :
    packet.frames <+: packet'.frames := by
  cases h with
  | skipped => exact List.prefix_refl _
  | @served _ _ _ popped _ _ _ =>
    cases hframe : popped.frame with
    | none => exact List.prefix_refl _
    | some f => exact List.prefix_append ..

theorem Valid.frames_prefix (hc : c.Valid)
    (hmax : maxLen ≤ maxReceivePacketSize) (hshare : share ≤ 2 ^ 11)
    (hturns : turns ≤ c.framer.streamQueue.length)
    (h : Connection.appendLoop (Int32.ofNat share) maxLen limit turns c packet =
      .ok (next, packet')) : packet.frames <+: packet'.frames := by
  induction turns generalizing c packet with
  | zero =>
    cases h
    exact List.prefix_refl _
  | succ turns ih =>
    by_cases hlimit : packet.multiplexedStreams < limit
    · by_cases hroom : minStreamFrameSize + packet.length ≤ maxLen
      · obtain ⟨mid, packet₁, hturn, hloop⟩ :=
          appendLoop_turn packet hc hmax hshare hturns hlimit hroom
        rw [hloop] at h
        exact hturn.frames_prefix.trans (ih (hturn.valid hc hmax) (hturn.turns_le hturns) h)
      · rw [Connection.appendLoop, if_neg (Int.not_le.mpr hlimit),
          if_pos (Nat.lt_of_not_le hroom)] at h
        cases h
        exact List.prefix_refl _
    · rw [Connection.appendLoop, if_pos (Int.not_lt.mp hlimit)] at h
      cases h
      exact List.prefix_refl _

/-- The open streams that the next turns serve, as long as none yields a frame. -/
def servedFirst (c : Connection) (turns limit : Nat) : List StreamID :=
  ((c.framer.streamQueue.take turns).filter c.IsOpen).take limit

theorem SameStreams.servedFirst (h : SameStreams c mid)
    (hqueue : c.framer.streamQueue.tail <+: mid.framer.streamQueue)
    (hturns : turns < c.framer.streamQueue.length) (limit : Nat) :
    mid.servedFirst turns limit =
      ((c.framer.streamQueue.tail.take turns).filter c.IsOpen).take limit := by
  have hopen : mid.IsOpen = c.IsOpen := funext fun id => (h id).1
  obtain ⟨back, hback⟩ := hqueue
  have hle : turns ≤ c.framer.streamQueue.tail.length := by
    rw [List.length_tail]
    omega
  rw [Connection.servedFirst, hopen, ← hback, List.take_append_of_le_length hle]

private theorem servedFirst_of_isOpen {id : StreamID} {queue : List StreamID}
    (hqueue : c.framer.streamQueue = id :: queue) (hopen : c.IsOpen id = true)
    (turns limit : Nat) : c.servedFirst (turns + 1) (limit + 1) =
      id :: ((c.framer.streamQueue.tail.take turns).filter c.IsOpen).take
        limit := by
  rw [servedFirst, hqueue, List.take_succ_cons, List.filter_cons_of_pos hopen,
    List.take_succ_cons, List.tail_cons]

private theorem servedFirst_of_not_isOpen {id : StreamID} {queue : List StreamID}
    (hqueue : c.framer.streamQueue = id :: queue) (hopen : ¬ c.IsOpen id = true)
    (turns limit : Nat) : c.servedFirst (turns + 1) limit =
      ((c.framer.streamQueue.tail.take turns).filter c.IsOpen).take limit := by
  rw [servedFirst, hqueue, List.take_succ_cons, List.filter_cons_of_neg hopen,
    List.tail_cons]

theorem Turn.frame_or_silent {limit : Nat}
    (h : Turn share maxLen c ⟨[], 0, k⟩ mid packet') (hc : c.Valid)
    (hmax : maxLen ≤ maxReceivePacketSize)
    (hturns : turns < c.framer.streamQueue.length) (hlimit : k < limit) :
    (packet'.frames ≠ [] ∧ ∃ id ∈ c.servedFirst (turns + 1) (limit - k),
      c.CanSend (turnBudget share maxLen) id) ∨
    ∃ k', packet' = ⟨[], 0, k'⟩ ∧
      ((∃ id ∈ c.servedFirst (turns + 1) (limit - k),
        c.CanSend (turnBudget share maxLen) id) ↔
      ∃ id ∈ mid.servedFirst turns (limit - k'),
        mid.CanSend (turnBudget share maxLen) id) := by
  have htail := h.tail_prefix
  cases h with
  | @skipped id queue hqueue hget =>
    have hclosed : ¬ c.IsOpen id = true := by simp [IsOpen, hget]
    refine Or.inr ⟨k, rfl, ?_⟩
    rw [servedFirst_of_not_isOpen hqueue hclosed,
      (SameStreams.of_framer c _).servedFirst htail hturns]
    rfl
  | @served id queue s popped hqueue hget hpop =>
    have hopen : c.IsOpen id = true := by simp [IsOpen, hget]
    have hs := hc id s (streams_of_getOrOpenSendStream hget)
    have hiff := hs.isSome_frame_iff (turnBudget_le share hmax) hpop
    obtain ⟨left, hleft⟩ : ∃ left, limit - k = left + 1 := ⟨limit - k - 1, by omega⟩
    rw [hleft, servedFirst_of_isOpen hqueue hopen]
    cases hframe : popped.frame with
    | some f =>
      refine Or.inl ⟨by simp [Packet.add], id, List.mem_cons_self, s, hget,
        hiff.mp (by simp [hframe])⟩
    | none =>
      have hsame := SameStreams.afterPop (c := { c with framer :=
        { c.framer with streamQueue := queue } }) hget hpop hframe
      have hcannot : ¬ c.CanSend (turnBudget share maxLen) id := by
        rintro ⟨t, ht, hsend⟩
        rw [hget] at ht
        cases ht
        simpa [hframe] using hiff.mpr hsend
      refine Or.inr ⟨k + 1, rfl, ?_⟩
      have hleft' : limit - (k + 1) = left := by omega
      rw [hleft', SameStreams.servedFirst (c := c) hsame htail hturns]
      simp only [List.exists_mem_cons_iff, hcannot, false_or]
      exact exists_congr fun other =>
        and_congr_right fun _ => ((hsame other).2 _).symm

theorem Valid.frames_ne_nil_iff (hc : c.Valid)
    (hmin : minStreamFrameSize ≤ maxLen) (hmax : maxLen ≤ maxReceivePacketSize)
    (hshare : share ≤ 2 ^ 11) (hturns : turns ≤ c.framer.streamQueue.length)
    (h : Connection.appendLoop (Int32.ofNat share) maxLen limit turns c
      ⟨[], 0, k⟩ = .ok (next, packet')) :
    packet'.frames ≠ [] ↔ ∃ id ∈ c.servedFirst turns (limit.toNat - k),
      c.CanSend (turnBudget share maxLen) id := by
  induction turns generalizing c k with
  | zero =>
    cases h
    simp [servedFirst]
  | succ turns ih =>
    by_cases hlimit : (k : Int) < limit
    · obtain ⟨mid, packet₁, hturn, hloop⟩ :=
        appendLoop_turn ⟨[], 0, k⟩ hc hmax hshare hturns hlimit hmin
      rw [hloop] at h
      have hmid := hturn.valid hc hmax
      have hmidTurns := hturn.turns_le hturns
      rcases hturn.frame_or_silent hc hmax hturns (Int.lt_toNat.mpr hlimit)
        with ⟨hframes, hsend⟩ | ⟨k', rfl, hsame⟩
      · refine iff_of_true ?_ hsend
        intro hempty
        have hpre := hmid.frames_prefix hmax hshare hmidTurns h
        rw [hempty, List.prefix_nil] at hpre
        exact hframes hpre
      · rw [hsame]
        exact ih hmid hmidTurns h
    · rw [Connection.appendLoop, if_pos (Int.not_lt.mp hlimit)] at h
      cases h
      have hzero : limit.toNat - k = 0 := by omega
      simp [servedFirst, hzero]

/-! ## Progress of a call -/

def HasSendable (c : Connection) : Prop :=
  ∃ id ∈ c.framer.streamQueue, ∃ s ∈ c.getOrOpenSendStream id,
    s.Sendable c.flowController

instance (c : Connection) : Decidable c.HasSendable :=
  inferInstanceAs (Decidable (∃ _ ∈ _, _))

/-- If some stream of the queue has something to send, a frame is appended. -/
def MakesProgress (convert : Nat → Int32) (c : Connection) (maxLen : Nat)
    (limit : Int) : Prop :=
  c.HasSendable → ∃ next frames length,
    c.appendStreamFrames convert maxLen limit = .ok (next, frames, length) ∧
      frames ≠ []

/--
One of the first `limit` open streams of the queue can send a frame with the
share of the packet that it gets.
-/
def FirstCanSend (c : Connection) (maxLen : Nat) (limit : Int) : Prop :=
  ∃ id ∈ c.servedFirst c.framer.streamQueue.length limit.toNat,
    c.CanSend (turnBudget (sharePerStream maxLen c.framer.streamQueue.length
      limit) maxLen) id

private theorem finishPacket_ne_nil_iff {frames : List StreamFrame} {length : Nat}
    (h : finishPacket packet = .ok (frames, length)) :
    frames ≠ [] ↔ packet.frames ≠ [] := by
  unfold finishPacket at h
  split at h
  · cases h
    exact Iff.rfl
  · next last hlast =>
    obtain ⟨lastLen, -, h⟩ := bind_eq_ok.mp h
    obtain ⟨shortenedLen, -, h⟩ := bind_eq_ok.mp h
    cases h
    refine iff_of_true (by simp) ?_
    rintro hempty
    simp [hempty] at hlast

theorem makesProgress_iff (convert : Nat → Int32) (c : Connection)
    (hc : c.Valid) (maxLen : Nat) (hmin : minStreamFrameSize ≤ maxLen)
    (hmax : maxLen ≤ maxReceivePacketSize) (limit : Int) :
    c.MakesProgress convert maxLen limit ↔ (c.HasSendable → c.FirstCanSend maxLen limit) := by
  have hshare := sharePerStream_le hmax c.framer.streamQueue.length limit
  obtain ⟨next, packet, hloop, -, hpacket⟩ :=
    hc.appendLoop limit hmax hshare (Nat.le_refl _) (.empty maxLen)
  obtain ⟨frames, length, hfinish, -⟩ := hpacket.finishPacket
  have happend := appendStreamFrames_of_appendLoop convert hmax hloop hfinish
  have hiff : frames ≠ [] ↔ c.FirstCanSend maxLen limit :=
    (finishPacket_ne_nil_iff hfinish).trans
      (hc.frames_ne_nil_iff hmin hmax hshare (Nat.le_refl _) hloop)
  unfold MakesProgress
  rw [happend, ← hiff]
  simp

theorem makesProgress_mixedQueue :
    mixedQueue.HasSendable ∧ mixedQueue.MakesProgress (fun _ => 0) 128 3 := by
  have hsendable : mixedQueue.HasSendable := by decide +kernel
  have hfirst : mixedQueue.FirstCanSend 128 3 := by
    refine ⟨0, by decide, _, rfl, Or.inl ?_⟩
    decide +kernel
  exact ⟨hsendable, (makesProgress_iff _ mixedQueue mixedQueue_valid 128
    (by decide) (by decide) 3).mpr fun _ => hfirst⟩

def staleFront : List Operation :=
  [.openStream 0 1000, .onStream 0 (.write [1]), .appendStreamFrames 1252 1,
    .onStream 0 (.frameLost ⟨0, 0, [1], false, false⟩),
    .appendStreamFrames 1252 1] ++ waitingStream 1

def manyStreams : List Operation := (List.range 43).flatMap waitingStream

def observeCall (maxLen : Nat) (limit : Int) (c : Connection) :
    Bool × Option (List StreamFrame) :=
  (decide c.HasSendable,
    (c.appendStreamFrames (fun _ => 0) maxLen limit).toOption.map fun r => r.2.1)

private theorem not_makesProgress_of_observeCall
    (h : observeCall maxLen limit c = (true, some [])) :
    ¬ c.MakesProgress (fun _ => 0) maxLen limit := by
  simp only [observeCall, Prod.mk.injEq, decide_eq_true_eq] at h
  intro hprogress
  obtain ⟨next, frames, length, happend, hframes⟩ := hprogress h.1
  rw [happend] at h
  exact hframes (Option.some.inj h.2)

/--
With a limit of one, the turn goes to a stream that has nothing to send.  With 43
streams in a packet of 128 bytes, the share is shorter than every header.
-/
theorem framer_makes_no_progress :
    (∃ c, Reaches (fun _ => 0) (.new 100000) staleFront c ∧
      ¬ c.MakesProgress (fun _ => 0) 1252 1) ∧
    ∃ c, Reaches (fun _ => 0) (.new 100000) manyStreams c ∧
      ¬ c.MakesProgress (fun _ => 0) 128 43 := by
  have hstale : (staleFront.foldlM (run fun _ => 0) (.new 100000)).map
      (observeCall 1252 1) = .ok (true, some []) := by
    decide +kernel
  have hmany : (manyStreams.foldlM (run fun _ => 0) (.new 100000)).map
      (observeCall 128 43) = .ok (true, some []) := by
    decide +kernel
  obtain ⟨c, hc, hcall⟩ := map_eq_ok hstale
  obtain ⟨d, hd, hcall'⟩ := map_eq_ok hmany
  exact ⟨⟨c, Trace.of_foldlM_ok hc, not_makesProgress_of_observeCall hcall⟩,
    d, Trace.of_foldlM_ok hd, not_makesProgress_of_observeCall hcall'⟩

end Connection

end Qperf.Quic
