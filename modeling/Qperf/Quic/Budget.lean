import Qperf.Foundation.Traces
import Qperf.Quic.ValidStreams

/-!
# The budget of a packet

Every frame is popped with a budget that includes the bytes of its length field,
because the last frame of a packet is written without one.  The frames still fit:
either a stream gets less than what is left of the packet, or at least
`MinStreamFrameSize` bytes are left and a short frame is far below that.
-/

namespace Qperf.Quic

open Qperf.Foundation

namespace Connection

/-! ## The share of a stream -/

def sharePerStream (maxLen numActiveStreams : Nat) (limit : Int) : Nat :=
  truncQuotient 24 128 (roundTo 24 maxLen) (roundTo 24
    (if (numActiveStreams : Int) > limit then limit.toNat else numActiveStreams))

theorem sharePerStream_le {maxLen : Nat} (h : maxLen ≤ maxReceivePacketSize)
    (numActiveStreams : Nat) (limit : Int) :
    sharePerStream maxLen numActiveStreams limit ≤ 2 ^ 11 := by
  unfold maxReceivePacketSize at h
  unfold sharePerStream
  rw [roundTo_of_le (by decide) (by omega)]
  exact truncQuotient_le (by decide) (by omega) (by decide) _

theorem maxLengthPerRound_eq (convert : Nat → Int32) {maxLen : Nat}
    (h : maxLen ≤ maxReceivePacketSize) (numActiveStreams : Nat) (limit : Int) :
    maxLengthPerRound convert maxLen numActiveStreams limit =
      Int32.ofNat (sharePerStream maxLen numActiveStreams limit) := by
  have hle := sharePerStream_le h numActiveStreams limit
  unfold sharePerStream at *
  exact if_pos (by omega)

private theorem byteCount_ofNat {n : Nat} (h : n < 2 ^ 31) :
    byteCount (Int32.ofNat n) = n := by
  have hwiden : (Int32.ofNat n).toInt64 = Int64.ofNat n := by
    rw [← Int64.toInt_inj, Int32.toInt_toInt64, Int32.toInt_ofNat_of_lt h,
      Int64.toInt_ofNat_of_lt (by omega)]
  unfold byteCount
  rw [hwiden, Int64.toUInt64_ofNat',
    UInt64.toNat_ofNat_of_lt' (Nat.lt_of_lt_of_le h (by decide))]

private theorem byteCount_of_neg {n : Int32} (h : n.toInt < 0) : 2 ^ 63 ≤ byteCount n := by
  have hwiden : n.toInt64.toBitVec.toInt < 0 := by
    change n.toInt64.toInt < 0
    rwa [Int32.toInt_toInt64]
  change 2 ^ 63 ≤ n.toInt64.toBitVec.toNat
  rw [BitVec.toInt_eq_toNat_cond] at hwiden
  split at hwiden <;> omega

private theorem remainingLen_overlong (share : Int32) {available : Nat}
    (hge : 2 ^ 64 - 2 ^ 31 ≤ available) (hlt : available < 2 ^ 64) :
    2 ^ 63 ≤ remainingLen share available := by
  unfold remainingLen
  split
  · next hless =>
    apply byteCount_of_neg
    rw [gt_iff_lt, Int32.lt_iff_toInt_lt, Int32.toInt_ofNat'] at hless
    simp only [Int.bmod, Int32.size] at hless
    split at hless <;> omega
  · omega

variable {available turns : Nat}

private theorem remainingLen_ofNat {share : Nat} (hshare : share ≤ 2 ^ 11)
    (havailable : available ≤ maxReceivePacketSize) :
    remainingLen (Int32.ofNat share) available = min share available := by
  unfold maxReceivePacketSize at havailable
  have hlt : Int32.ofNat share < Int32.ofNat available ↔ share < available := by
    rw [Int32.lt_iff_toInt_lt, Int32.toInt_ofNat_of_lt (by omega),
      Int32.toInt_ofNat_of_lt (by omega)]
    exact Int.ofNat_lt
  unfold remainingLen
  rw [byteCount_ofNat (by omega)]
  simp only [gt_iff_lt, hlt]
  split <;> omega

def turnBudget (share available : Nat) : Nat :=
  min share available + varIntSize (min share available)

theorem turnBudget_le (share : Nat) (havailable : available ≤ maxReceivePacketSize) :
    turnBudget share available ≤ 1454 := by
  have hmin : min share available ≤ 1452 := Nat.le_trans (Nat.min_le_right ..) havailable
  have hsize : varIntSize (min share available) ≤ 2 := varIntSize_mono hmin
  unfold turnBudget
  omega

theorem wireLen_le_of_turnBudget {share : Nat} {f : StreamFrame}
    (havailable : available ≤ maxReceivePacketSize)
    (hmin : minStreamFrameSize ≤ available) (hpresent : f.dataLenPresent = true)
    (h : f.wireLen ≤ turnBudget share available) :
    f.wireLen ≤ available + varIntSize f.dataLen := by
  have htotal := Nat.le_trans h (turnBudget_le share havailable)
  have hsize : varIntSize (min share available) ≤ 2 := varIntSize_mono
    (Nat.le_trans (Nat.min_le_right ..) havailable)
  have hpos := varIntSize_pos f.dataLen
  unfold turnBudget at h
  unfold minStreamFrameSize at hmin
  by_cases hshare : share < available
  · -- The stream gets less than what is left.
    omega
  · by_cases hshort : f.dataLen ≤ 63
    · have hpre := f.prefixLen_bounds.2
      unfold StreamFrame.wireLen
      rw [hpresent, if_pos rfl]
      omega
    · have hlong : f.dataLen ≤ f.wireLen := Nat.le_add_left ..
      have htwo := varIntSize_of_le_two (Nat.lt_of_not_le hshort) (by omega)
      omega

/-! ## One turn of the loop -/

def Valid (c : Connection) : Prop :=
  ∀ id s, c.streams id = some s → s.Valid

def Packet.add (packet : Packet) : Option StreamFrame → Packet
  | none => { packet with multiplexedStreams := packet.multiplexedStreams + 1 }
  | some f => ⟨packet.frames ++ [f], packet.length + f.wireLen,
      packet.multiplexedStreams + 1⟩

variable {c : Connection} {id : StreamID} {s : SendStream} {packet : Packet}
variable {share maxLen : Nat}

theorem serve_of_valid (c : Connection) (packet : Packet) (id : StreamID)
    (hs : s.Valid) (hmax : maxLen ≤ maxReceivePacketSize) (hshare : share ≤ 2 ^ 11) :
    ∃ popped,
      s.popStreamFrame c.flowController (turnBudget share (maxLen - packet.length)) = .ok popped ∧
      c.serve packet id s (Int32.ofNat share) maxLen =
        .ok (c.afterPop id popped, packet.add popped.frame) := by
  have havailable : maxLen - packet.length ≤ maxReceivePacketSize :=
    Nat.le_trans (Nat.sub_le ..) hmax
  have hbudget := turnBudget_le share havailable
  have hremaining : min share (maxLen - packet.length) ≤ maxVarInt8 :=
    Nat.le_trans (Nat.min_le_left ..) (Nat.le_trans hshare (by decide))
  obtain ⟨popped, hpopped⟩ := hs.popStreamFrame_ok c.flowController hbudget
  refine ⟨popped, hpopped, ?_⟩
  unfold serve
  rw [remainingLen_ofNat hshare havailable]
  dsimp only
  rw [varIntLen_of_le hremaining, ok_bind]
  unfold turnBudget at hpopped
  rw [hpopped, ok_bind]
  cases hframe : popped.frame with
  | none => rfl
  | some f =>
    have hf := ((hs.popStreamFrame hbudget hpopped).frame f hframe).1
    dsimp only
    rw [hf.toValid.length]
    rfl

inductive Turn (share maxLen : Nat) (c : Connection) (packet : Packet) :
    Connection → Packet → Prop where
  | skipped {id : StreamID} {queue : List StreamID}
      (hqueue : c.framer.streamQueue = id :: queue)
      (hget : c.getOrOpenSendStream id = none) :
      Turn share maxLen c packet
        { c with
          framer := Framer.putBack { c.framer with streamQueue := queue } id
            false }
        packet
  | served {id : StreamID} {queue : List StreamID} {s : SendStream}
      {popped : SendStream.Popped}
      (hqueue : c.framer.streamQueue = id :: queue)
      (hget : c.getOrOpenSendStream id = some s)
      (hpop : s.popStreamFrame c.flowController
        (turnBudget share (maxLen - packet.length)) = .ok popped) :
      Turn share maxLen c packet
        (afterPop { c with framer := { c.framer with streamQueue := queue } }
          id popped)
        (packet.add popped.frame)

theorem appendLoop_turn {limit : Int} (packet : Packet)
    (hc : c.Valid) (hmax : maxLen ≤ maxReceivePacketSize) (hshare : share ≤ 2 ^ 11)
    (hturns : turns < c.framer.streamQueue.length) (hlimit : packet.multiplexedStreams < limit)
    (hroom : minStreamFrameSize + packet.length ≤ maxLen) :
    ∃ mid packet', Turn share maxLen c packet mid packet' ∧
      appendLoop (Int32.ofNat share) maxLen limit (turns + 1) c packet =
        appendLoop (Int32.ofNat share) maxLen limit turns mid packet' := by
  cases hqueue : c.framer.streamQueue with
  | nil =>
    rw [hqueue] at hturns
    exact absurd hturns (Nat.not_lt_zero _)
  | cons id queue =>
    rw [appendLoop, if_neg (Int.not_le.mpr hlimit), if_neg (Nat.not_lt.mpr hroom), hqueue]
    cases hget : c.getOrOpenSendStream id with
    | none =>
      have hget' : getOrOpenSendStream { c with framer :=
          { c.framer with streamQueue := queue } } id = none := hget
      refine ⟨_, _, .skipped hqueue hget, ?_⟩
      simp only [hget']
    | some s =>
      have hget' : getOrOpenSendStream { c with framer :=
          { c.framer with streamQueue := queue } } id = some s := hget
      obtain ⟨popped, hpop, hserve⟩ := serve_of_valid
        { c with framer := { c.framer with streamQueue := queue } } packet
        id (hc id s (streams_of_getOrOpenSendStream hget)) hmax hshare
      refine ⟨_, _, .served hqueue hget hpop, ?_⟩
      simp only [hget', hserve, ok_bind]

/-! ## The whole packet -/

structure Packet.Fits (maxLen : Nat) (packet : Packet) : Prop where
  complete : ∀ f ∈ packet.frames, f.Complete
  length : packet.length = (packet.frames.map StreamFrame.wireLen).sum
  last : ∀ f ∈ packet.frames.getLast?, packet.length ≤ maxLen + varIntSize f.dataLen

theorem Packet.Fits.add (h : packet.Fits maxLen) (hmax : maxLen ≤ maxReceivePacketSize)
    (hroom : minStreamFrameSize + packet.length ≤ maxLen) {frame : Option StreamFrame}
    (hframe : ∀ f, frame = some f → f.Complete ∧
      f.wireLen ≤ turnBudget share (maxLen - packet.length)) :
    (packet.add frame).Fits maxLen := by
  cases frame with
  | none => exact ⟨h.complete, h.length, h.last⟩
  | some f =>
    obtain ⟨hcomplete, hbudget⟩ := hframe f rfl
    have hfits := wireLen_le_of_turnBudget
      (Nat.le_trans (Nat.sub_le ..) hmax) (Nat.le_sub_of_add_le hroom)
      hcomplete.present hbudget
    refine ⟨?_, ?_, ?_⟩
    · intro g hg
      rcases List.mem_append.mp hg with hg | hg
      · exact h.complete g hg
      · rw [List.mem_singleton.mp hg]
        exact hcomplete
    · simp [Packet.add, h.length]
    · intro g hg
      obtain rfl : f = g := by simpa [Packet.add] using hg
      change packet.length + f.wireLen ≤ _
      omega

variable {mid next : Connection} {packet' : Packet}

theorem Valid.update (hc : c.Valid) (hs : s.Valid) (framer : Framer)
    (flowController : SendController) :
    Valid { c.setStream id s with framer, flowController } := by
  intro other t ht
  by_cases hother : other = id
  · subst hother
    rw [streams_setStream_self] at ht
    cases ht
    exact hs
  · exact hc other t ((streams_setStream_of_ne hother).symm.trans ht)

section

variable (h : Turn share maxLen c packet mid packet')
include h

theorem Turn.valid (hc : c.Valid)
    (hmax : maxLen ≤ maxReceivePacketSize) : mid.Valid := by
  cases h with
  | skipped => exact hc
  | @served _ _ s popped _ hget hpop =>
    have hs := hc _ s (streams_of_getOrOpenSendStream hget)
    have hbudget := turnBudget_le share
      (Nat.le_trans (Nat.sub_le maxLen packet.length) hmax)
    exact Valid.update hc (hs.popStreamFrame hbudget hpop).stream _ _

theorem Turn.fits (hc : c.Valid) (hmax : maxLen ≤ maxReceivePacketSize)
    (hroom : minStreamFrameSize + packet.length ≤ maxLen)
    (hpacket : packet.Fits maxLen) : packet'.Fits maxLen := by
  cases h with
  | skipped => exact hpacket
  | @served _ _ s popped _ hget hpop =>
    have hs := hc _ s (streams_of_getOrOpenSendStream hget)
    have hbudget := turnBudget_le share
      (Nat.le_trans (Nat.sub_le maxLen packet.length) hmax)
    exact hpacket.add hmax hroom (hs.popStreamFrame hbudget hpop).frame

theorem Turn.tail_prefix : c.framer.streamQueue.tail <+: mid.framer.streamQueue := by
  cases h with
  | skipped hqueue =>
    rw [hqueue]
    exact List.prefix_refl _
  | @served id queue s popped hqueue _ _ =>
    rw [hqueue]
    cases hmore : popped.hasMoreData with
    | true => simp [afterPop, hmore, Framer.putBack, Framer.queueControlFrames]
    | false =>
      simp [afterPop, hmore, Framer.putBack, Framer.queueControlFrames]

theorem Turn.turns_le (hturns : turns < c.framer.streamQueue.length) :
    turns ≤ mid.framer.streamQueue.length := by
  have hle := h.tail_prefix.length_le
  rw [List.length_tail] at hle
  omega

end

theorem Valid.appendLoop (hc : c.Valid) (limit : Int)
    (hmax : maxLen ≤ maxReceivePacketSize) (hshare : share ≤ 2 ^ 11)
    (hturns : turns ≤ c.framer.streamQueue.length) (hpacket : packet.Fits maxLen) :
    ∃ next packet', appendLoop (Int32.ofNat share) maxLen limit turns c packet =
        .ok (next, packet') ∧ next.Valid ∧ packet'.Fits maxLen := by
  induction turns generalizing c packet with
  | zero => exact ⟨c, packet, rfl, hc, hpacket⟩
  | succ turns ih =>
    by_cases hlimit : packet.multiplexedStreams < limit
    · by_cases hroom : minStreamFrameSize + packet.length ≤ maxLen
      · obtain ⟨mid, packet', hturn, hloop⟩ :=
          appendLoop_turn packet hc hmax hshare hturns hlimit hroom
        rw [hloop]
        exact ih (hturn.valid hc hmax) (hturn.turns_le hturns)
          (hturn.fits hc hmax hroom hpacket)
      · refine ⟨c, packet, ?_, hc, hpacket⟩
        rw [Connection.appendLoop, if_neg (Int.not_le.mpr hlimit),
          if_pos (Nat.lt_of_not_le hroom)]
    · refine ⟨c, packet, ?_, hc, hpacket⟩
      rw [Connection.appendLoop, if_pos (Int.not_lt.mp hlimit)]

theorem Packet.Fits.finishPacket (h : packet.Fits maxLen) :
    ∃ frames length, finishPacket packet = .ok (frames, length) ∧
      (∀ f ∈ frames, f.Valid ∧ (f.data ≠ [] ∨ f.finBit = true)) ∧
      length = (frames.map StreamFrame.wireLen).sum ∧ length ≤ maxLen ∧
      ∀ init last, frames = init ++ [last] → last.dataLenPresent = false ∧
        ∀ f ∈ init, f.dataLenPresent = true := by
  rcases List.eq_nil_or_concat packet.frames with hnil | ⟨init, last, hframes⟩
  · have hlength : packet.length = 0 := by rw [h.length, hnil]; rfl
    refine ⟨[], 0, ?_, (fun f hf => nomatch hf), rfl, Nat.zero_le _, ?_⟩
    · simp only [Connection.finishPacket, hnil, List.getLast?_nil, hlength]
    · intro init last hempty
      simp at hempty
  · rw [List.concat_eq_append] at hframes
    have hmem : ∀ f ∈ init, f.Complete := by
      intro f hf
      exact h.complete f (by simp [hframes, hf])
    have hlast : last.Complete := h.complete last (by simp [hframes])
    have hshort := StreamFrame.wireLen_shortened hlast.present
    have hfits := h.last last (by simp [hframes])
    have hvalid : StreamFrame.Valid { last with dataLenPresent := false } :=
      ⟨hlast.streamID, hlast.offset, hlast.dataLen⟩
    have hsum : packet.length = (init.map StreamFrame.wireLen).sum + last.wireLen := by
      simp [h.length, hframes]
    refine ⟨init ++ [{ last with dataLenPresent := false }], _, ?_, ?_, rfl, ?_, ?_⟩
    · unfold Connection.finishPacket
      simp only [hframes, List.getLast?_append, List.getLast?_singleton,
        Option.some_or, List.dropLast_concat, hlast.toValid.length,
        hvalid.length, ok_bind, List.map_append, List.sum_append,
        List.map_singleton, List.sum_singleton]
      congr 2
      omega
    · intro f hf
      rcases List.mem_append.mp hf with hf | hf
      · exact ⟨(hmem f hf).toValid, (hmem f hf).written⟩
      · rw [List.mem_singleton.mp hf]
        exact ⟨hvalid, hlast.written⟩
    · rw [List.map_append, List.sum_append, List.map_singleton, List.sum_singleton]
      omega
    · intro init' last' heq
      obtain ⟨rfl, hsingle⟩ := List.append_inj' heq rfl
      cases hsingle
      exact ⟨rfl, fun f hf => (hmem f hf).present⟩

theorem appendStreamFrames_of_appendLoop (convert : Nat → Int32) {limit : Int}
    {frames : List StreamFrame} {length : Nat} (hmax : maxLen ≤ maxReceivePacketSize)
    (hloop : appendLoop (Int32.ofNat (sharePerStream maxLen
      c.framer.streamQueue.length limit)) maxLen limit
      c.framer.streamQueue.length c ⟨[], 0, 0⟩ = .ok (next, packet))
    (hfinish : finishPacket packet = .ok (frames, length)) :
    c.appendStreamFrames convert maxLen limit = .ok (next, frames, length) := by
  unfold appendStreamFrames
  dsimp only
  rw [maxLengthPerRound_eq convert hmax, hloop, ok_bind]
  rw [hfinish]
  rfl

theorem Packet.Fits.empty (maxLen : Nat) : Packet.Fits maxLen ⟨[], 0, 0⟩ :=
  ⟨by simp, rfl, by simp⟩

theorem Valid.appendStreamFrames (hc : c.Valid) (convert : Nat → Int32)
    (hmax : maxLen ≤ maxReceivePacketSize) (limit : Int) :
    ∃ next frames length, c.appendStreamFrames convert maxLen limit = .ok (next, frames, length) ∧
      (∀ f ∈ frames, f.Valid ∧ (f.data ≠ [] ∨ f.finBit = true)) ∧
      length = (frames.map StreamFrame.wireLen).sum ∧ length ≤ maxLen ∧
      ∀ init last, frames = init ++ [last] → last.dataLenPresent = false ∧
        ∀ f ∈ init, f.dataLenPresent = true := by
  obtain ⟨next, packet, hloop, -, hpacket⟩ := hc.appendLoop limit hmax
    (sharePerStream_le hmax c.framer.streamQueue.length limit) (Nat.le_refl _)
    (.empty maxLen)
  obtain ⟨frames, length, hfinish, hresult⟩ := hpacket.finishPacket
  exact ⟨next, frames, length,
    appendStreamFrames_of_appendLoop convert hmax hloop hfinish, hresult⟩

/--
The framer respects the budget of the packet: the length that it returns is that
of the encoded frames, and only the last of them has no length field.
-/
theorem appendStreamFrames_withinPacket (convert : Nat → Int32)
    (c : Connection) (hc : c.Valid) (maxLen : Nat)
    (hmax : maxLen ≤ maxReceivePacketSize) (limit : Int) :
    ∃ next frames length encoded,
      c.appendStreamFrames convert maxLen limit = .ok (next, frames, length) ∧
      frames.mapM StreamFrame.write = .ok encoded ∧
      length = (encoded.map List.length).sum ∧ length ≤ maxLen ∧
      ∀ init last, frames = init ++ [last] → last.dataLenPresent = false ∧
        ∀ f ∈ init, f.dataLenPresent = true := by
  obtain ⟨next, frames, length, happend, hwritable, hlength, hle, hlast⟩ :=
    hc.appendStreamFrames convert hmax limit
  obtain ⟨encoded, hencoded, hencodedLen⟩ := StreamFrame.mapM_write hwritable
  exact ⟨next, frames, length, encoded, happend, hencoded,
    hlength.trans hencodedLen.symm, hle, hlast⟩

/-! ## A packet that is too full already -/

/-- No turn of the framer comes to a stream that is there. -/
def ServesNone (c : Connection) (limit : Int) : Prop :=
  limit ≤ 0 ∨ ∀ id ∈ c.framer.streamQueue, c.getOrOpenSendStream id = none

theorem appendLoop_of_none (share : Int32) (maxLen : Nat) {limit : Int} {turns : Nat}
    {c : Connection} (hturns : turns ≤ c.framer.streamQueue.length) (h : c.ServesNone limit) :
    ∃ c', appendLoop share maxLen limit turns c ⟨[], 0, 0⟩ = .ok (c', ⟨[], 0, 0⟩) := by
  induction turns generalizing c with
  | zero => exact ⟨c, rfl⟩
  | succ turns ih =>
    simp only [appendLoop]
    split_ifs with hlimit hroom
    · exact ⟨c, rfl⟩
    · exact ⟨c, rfl⟩
    · have hnone := h.resolve_left (by exact_mod_cast hlimit)
      obtain ⟨id, queue, hqueue⟩ : ∃ id queue, c.framer.streamQueue = id :: queue :=
        List.exists_cons_of_ne_nil (List.length_pos_iff.mp (by omega))
      rw [hqueue] at hnone hturns
      obtain ⟨hid, hrest⟩ := List.forall_mem_cons.mp hnone
      simp only [hqueue]
      split
      · exact ih (Nat.le_of_succ_le_succ hturns) (.inr hrest)
      · next s hs =>
        change c.getOrOpenSendStream id = some s at hs
        rw [hid] at hs
        cases hs

theorem appendLoop_overlong (share : Int32) {maxLen : Nat} {limit : Int}
    (hge : 2 ^ 64 - 2 ^ 31 ≤ maxLen) (hlt : maxLen < 2 ^ 64) {turns : Nat} {c : Connection}
    (hturns : c.framer.streamQueue.length ≤ turns) (h : ¬ c.ServesNone limit) :
    ∃ cause, appendLoop share maxLen limit turns c ⟨[], 0, 0⟩ = .error cause := by
  obtain ⟨hlimit, hsome⟩ := not_or.mp h
  induction turns generalizing c with
  | zero =>
    rw [List.length_eq_zero_iff.mp (Nat.le_zero.mp hturns)] at hsome
    exact absurd (List.forall_mem_nil _) hsome
  | succ turns ih =>
    have hroom : ¬ minStreamFrameSize + 0 > maxLen := by
      unfold minStreamFrameSize
      omega
    simp only [appendLoop]
    rw [if_neg (by exact_mod_cast hlimit), if_neg hroom]
    cases hqueue : c.framer.streamQueue with
    | nil => exact ⟨_, rfl⟩
    | cons id queue =>
      rw [hqueue] at hturns hsome
      dsimp only
      split
      · next hnone =>
        have hrest : ¬ ∀ id ∈ queue, c.getOrOpenSendStream id = none := fun hall =>
          hsome (List.forall_mem_cons.mpr ⟨hnone, hall⟩)
        exact ih (Nat.le_of_succ_le_succ hturns) (not_or.mpr ⟨hlimit, hrest⟩) hrest
      · have hwide := remainingLen_overlong share hge hlt
        simp only [serve, Nat.sub_zero, varIntLen_of_lt (i := remainingLen share maxLen)
          (by unfold maxVarInt8; omega), error_bind]
        exact ⟨_, rfl⟩

theorem appendStreamFrames_of_none {c : Connection} {limit : Int} (h : c.ServesNone limit)
    (convert : Nat → Int32) (maxLen : Nat) :
    ∃ c', c.appendStreamFrames convert maxLen limit = .ok (c', [], 0) := by
  obtain ⟨c', hloop⟩ := appendLoop_of_none
    (maxLengthPerRound convert maxLen c.framer.streamQueue.length limit) maxLen le_rfl h
  refine ⟨c', ?_⟩
  simp only [appendStreamFrames, hloop, ok_bind]
  rfl

theorem appendStreamFrames_overlong {c : Connection} {limit : Int} {maxLen : Nat}
    (hge : 2 ^ 64 - 2 ^ 31 ≤ maxLen) (hlt : maxLen < 2 ^ 64) (h : ¬ c.ServesNone limit)
    (convert : Nat → Int32) :
    ∃ cause, c.appendStreamFrames convert maxLen limit = .error cause := by
  obtain ⟨cause, hloop⟩ := appendLoop_overlong
    (maxLengthPerRound convert maxLen c.framer.streamQueue.length limit) hge hlt le_rfl h
  refine ⟨cause, ?_⟩
  simp only [appendStreamFrames, hloop, error_bind]
theorem Valid.run {convert : Nat → Int32} {operation : Operation}
    (hc : c.Valid) (hencodable : operation.Encodable)
    (h : c.run convert operation = .ok next) : next.Valid := by
  cases operation with
  | openStream id window =>
    simp only [Connection.run] at h
    split at h
    · cases h
      exact Valid.update hc (.new hencodable.1 hencodable.2) _ _
    · cases h
      exact hc
  | onStream id operation =>
    simp only [Connection.run] at h
    split at h
    · cases h
      exact hc
    · next s hs =>
      obtain ⟨outcome, houtcome, h⟩ := bind_eq_ok.mp h
      cases h
      exact Valid.update hc ((hc id s hs).perform hencodable houtcome) _ _
  | addActiveStream id =>
    cases h
    exact hc
  | handleMaxDataFrame byteOffset =>
    cases h
    exact hc
  | deleteStream id =>
    simp only [Connection.run] at h
    split at h
    · cases h
      exact hc
    · split at h
      · cases h
        exact hc
      · cases h
        exact hc
  | appendStreamFrames maxLen limit =>
    obtain ⟨⟨after, frames, length⟩, happend, h⟩ := bind_eq_ok.mp h
    cases h
    obtain ⟨⟨looped, packet⟩, hloop, happend⟩ := bind_eq_ok.mp happend
    obtain ⟨_, -, happend⟩ := bind_eq_ok.mp happend
    cases happend
    rw [maxLengthPerRound_eq convert hencodable] at hloop
    obtain ⟨next, packet', hloop', hvalid, -⟩ := hc.appendLoop limit hencodable
      (sharePerStream_le hencodable c.framer.streamQueue.length limit)
      (Nat.le_refl _) (.empty maxLen)
    rw [hloop] at hloop'
    cases hloop'
    exact hvalid

theorem valid_of_trace {convert : Nat → Int32} {initialSendWindow : Nat}
    {operations : List Operation}
    (h : Trace (fun c operation next => c.run convert operation = .ok next ∧
      operation.Encodable) (Connection.new initialSendWindow) operations c) :
    c.Valid := by
  have hnew : (Connection.new initialSendWindow).Valid := by
    intro id s hs
    cases hs
  exact Trace.invariant Valid hnew (fun _ _ _ hc hstep => hc.run hstep.2 hstep.1) h

theorem valid_of_trace_written :
    ∃ c : Connection, c.framer.streamQueue = [4] ∧ c.Valid := by
  have htrace : Trace (fun c operation next => Connection.run (fun _ => 0) c operation =
      .ok next ∧ operation.Encodable) (Connection.new 9)
      [.openStream 4 9, .onStream 4 (.write [1]), .addActiveStream 4] _ :=
    .cons ⟨rfl, by decide, by decide⟩ (.cons ⟨rfl, trivial⟩ (.cons ⟨rfl, trivial⟩ .nil))
  exact ⟨_, rfl, valid_of_trace htrace⟩

def mixedQueue : Connection where
  framer := ⟨{0, 4, 8}, [8, 0, 4], []⟩
  streams := fun id =>
    if id = 0 then some { SendStream.new 0 1000 with
      writeOffset := 2
      retransmissionQueue := [⟨0, 0, [1, 2], false, true⟩]
      dataForWriting := some ⟨[3], by decide⟩
      flowController := ⟨2, 1000, 0⟩ }
    else if id = 4 then some { SendStream.new 4 1000 with
      finishedWriting := true }
    else none
  deleted := ∅
  flowController := .new 1000

theorem mixedQueue_valid : mixedQueue.Valid := by
  intro id s hs
  simp only [mixedQueue] at hs
  split at hs
  · cases hs
    refine ⟨by decide, ?_, rfl, by decide, by decide⟩
    intro f hf
    rw [List.mem_singleton.mp hf]
    exact ⟨⟨by decide, by decide, by decide⟩, rfl, Or.inl (by decide)⟩
  · split at hs
    · cases hs
      exact ⟨by decide, (fun f hf => nomatch hf), rfl, by decide, by decide⟩
    · cases hs

theorem appendStreamFrames_withinPacket_mixedQueue : ∃ next frames length encoded,
      mixedQueue.appendStreamFrames (fun _ => 0) 128 3 =
        .ok (next, frames, length) ∧
      frames.mapM StreamFrame.write = .ok encoded ∧
      length = (encoded.map List.length).sum ∧ length ≤ 128 ∧
      ∀ init last, frames = init ++ [last] → last.dataLenPresent = false ∧
        ∀ f ∈ init, f.dataLenPresent = true :=
  appendStreamFrames_withinPacket _ mixedQueue mixedQueue_valid 128 (by decide)
    3

end Connection

end Qperf.Quic
