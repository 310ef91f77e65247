import Qperf.Quic.ControlFrames

/-!
# Crypto streams and the retransmission queue

The sending half of a crypto stream, and the queue of frames that were lost.
CRYPTO frames are not split again when they are sent a second time.
-/

namespace Qperf.Quic

open Qperf.Foundation

/-! ## Crypto streams -/

structure CryptoStream where
  writeOffset : Nat
  writeBuf : List UInt8
  deriving DecidableEq, Repr

namespace CryptoStream

def new : CryptoStream := ⟨0, []⟩

def write (s : CryptoStream) (p : List UInt8) : CryptoStream :=
  { s with writeBuf := s.writeBuf ++ p }

def hasData (s : CryptoStream) : Bool := s.writeBuf.length > 0

def popCryptoFrame (s : CryptoStream) (maxLen : Nat) :
    Except GoPanic (CryptoFrame × CryptoStream) := do
  let maxDataLen ← CryptoFrame.maxDataLen ⟨s.writeOffset, []⟩ maxLen
  let n := min maxDataLen s.writeBuf.length
  return (⟨s.writeOffset, s.writeBuf.take n⟩, ⟨s.writeOffset + n, s.writeBuf.drop n⟩)

def Valid (s : CryptoStream) : Prop :=
  s.writeOffset + s.writeBuf.length ≤ maxVarInt8

def frameHeaderLen (s : CryptoStream) : Nat := 1 + varIntSize s.writeOffset + 1

def room (s : CryptoStream) (maxLen : Nat) : Nat :=
  if maxLen < s.frameHeaderLen then 0
  else if 63 < maxLen - s.frameHeaderLen then maxLen - s.frameHeaderLen - 1
  else maxLen - s.frameHeaderLen

def nextFrame (s : CryptoStream) (maxLen : Nat) : CryptoFrame :=
  ⟨s.writeOffset, s.writeBuf.take (min (s.room maxLen) s.writeBuf.length)⟩

def afterFrame (s : CryptoStream) (maxLen : Nat) : CryptoStream :=
  ⟨s.writeOffset + min (s.room maxLen) s.writeBuf.length,
    s.writeBuf.drop (min (s.room maxLen) s.writeBuf.length)⟩

variable {s : CryptoStream} {maxLen : Nat}

theorem Valid.writeOffset_le (h : s.Valid) : s.writeOffset ≤ maxVarInt8 :=
  Nat.le_trans (Nat.le_add_right ..) h

theorem popCryptoFrame_eq (hoffset : s.writeOffset ≤ maxVarInt8) (hmax : maxLen ≤ 16383) :
    s.popCryptoFrame maxLen = .ok (s.nextFrame maxLen, s.afterFrame maxLen) := by
  have hroom : CryptoFrame.maxDataLen ⟨s.writeOffset, []⟩ maxLen = .ok (s.room maxLen) := by
    unfold CryptoFrame.maxDataLen room
    rw [varIntLen_of_le hoffset, ok_bind]
    change (if s.frameHeaderLen > maxLen then _ else _) = _
    split
    · rfl
    · rw [varIntLen_of_le (by unfold maxVarInt8; omega), ok_bind]
      by_cases hlong : 63 < maxLen - s.frameHeaderLen
      · rw [if_pos hlong, ← frameHeaderLen, varIntSize_of_le_two hlong (by omega)]
        rfl
      · rw [if_neg hlong, ← frameHeaderLen, varIntSize_of_le (by omega)]
        rfl
  unfold CryptoStream.popCryptoFrame
  rw [hroom]
  rfl

theorem Valid.popCryptoFrame (h : s.Valid) (hmax : maxLen ≤ 16383) :
    s.popCryptoFrame maxLen = .ok (s.nextFrame maxLen, s.afterFrame maxLen) :=
  popCryptoFrame_eq h.writeOffset_le hmax

theorem Valid.popCryptoFrame_wrapped (h : s.Valid) (hmax : 2 ^ 63 ≤ maxLen) :
    ∃ cause, s.popCryptoFrame maxLen = .error cause := by
  have hoffset := varIntSize_le s.writeOffset
  unfold CryptoStream.popCryptoFrame CryptoFrame.maxDataLen
  rw [varIntLen_of_le h.writeOffset_le, ok_bind]
  rw [if_neg (by omega)]
  have hpanic : varIntLen (maxLen - (1 + varIntSize s.writeOffset + 1)) =
      .error (.varIntTooLarge (maxLen - (1 + varIntSize s.writeOffset + 1))) := by
    unfold varIntLen maxVarInt1 maxVarInt2 maxVarInt4 maxVarInt8
    rw [if_neg (by omega), if_neg (by omega), if_neg (by omega), if_neg (by omega)]
  rw [hpanic]
  exact ⟨_, rfl⟩

theorem length_nextFrame (s : CryptoStream) (maxLen : Nat) :
    (s.nextFrame maxLen).data.length = min (s.room maxLen) s.writeBuf.length := by
  rw [nextFrame, List.length_take, Nat.min_eq_left (Nat.min_le_right ..)]

theorem Valid.nextFrame (h : s.Valid) (maxLen : Nat) :
    (s.nextFrame maxLen).Valid := by
  have hlength := s.length_nextFrame maxLen
  unfold Valid at h
  change s.writeOffset + (s.nextFrame maxLen).data.length ≤ maxVarInt8
  omega

theorem wireLen_nextFrame_le (hroom : s.frameHeaderLen ≤ maxLen)
    (hmax : maxLen ≤ 16383) : (s.nextFrame maxLen).wireLen ≤ maxLen := by
  have hlength := s.length_nextFrame maxLen
  have hle : (s.nextFrame maxLen).data.length ≤ s.room maxLen := by omega
  change 1 + varIntSize s.writeOffset + _ + _ ≤ maxLen
  unfold room frameHeaderLen at *
  rw [if_neg (by omega)] at hle
  split at hle
  · have hsize : varIntSize (s.nextFrame maxLen).data.length ≤ 2 :=
      Nat.le_trans (varIntSize_mono (show _ ≤ 16383 by omega)) (by decide)
    omega
  · have hsize : varIntSize (s.nextFrame maxLen).data.length = 1 :=
      varIntSize_of_le (by omega)
    omega

theorem frameHeaderLen_le (s : CryptoStream) : s.frameHeaderLen ≤ 10 := by
  have hoffset := varIntSize_le s.writeOffset
  unfold frameHeaderLen
  omega

theorem wireLen_nextFrame_le_ten (hroom : maxLen < s.frameHeaderLen) :
    (s.nextFrame maxLen).wireLen ≤ 10 := by
  have hlength := s.length_nextFrame maxLen
  rw [room, if_pos hroom, Nat.zero_min] at hlength
  unfold CryptoFrame.wireLen
  rw [hlength]
  exact s.frameHeaderLen_le

theorem wireLen_nextFrame_le_add (s : CryptoStream) (hmax : maxLen ≤ 16383) :
    (s.nextFrame maxLen).wireLen ≤ maxLen + 10 := by
  by_cases hroom : s.frameHeaderLen ≤ maxLen
  · exact Nat.le_trans (wireLen_nextFrame_le hroom hmax) (Nat.le_add_right ..)
  · exact Nat.le_trans (wireLen_nextFrame_le_ten (Nat.lt_of_not_le hroom))
      (Nat.le_add_left ..)

end CryptoStream

/-! ## The retransmission queue -/

structure RetransmissionQueue where
  initial : List ControlFrame
  initialCryptoData : List CryptoFrame
  handshake : List ControlFrame
  handshakeCryptoData : List CryptoFrame
  appData : List ControlFrame
  deriving DecidableEq, Repr

def takeFirst (maxLen : Nat) :
    List ControlFrame → Except GoPanic (Option ControlFrame × List ControlFrame)
  | [] => .ok (none, [])
  | f :: frames => do
    let length ← f.length
    if length > maxLen then
      return (none, f :: frames)
    else
      return (some f, frames)

/-- CRYPTO frames go first; another frame is taken if the first one is too long. -/
def takeCryptoFirst (maxLen : Nat) (cryptoData : List CryptoFrame)
    (frames : List ControlFrame) : Except GoPanic
      (Option ControlFrame × List CryptoFrame × List ControlFrame) :=
  match cryptoData with
  | [] => do
    let (f, frames) ← takeFirst maxLen frames
    return (f, [], frames)
  | cf :: rest => do
    let length ← cf.length
    if length ≤ maxLen then
      return (some (.crypto cf), rest, frames)
    else
      let (f, frames) ← takeFirst maxLen frames
      return (f, cf :: rest, frames)

namespace RetransmissionQueue

def new : RetransmissionQueue := ⟨[], [], [], [], []⟩

def addInitial (q : RetransmissionQueue) : ControlFrame → RetransmissionQueue
  | .crypto cf => { q with initialCryptoData := q.initialCryptoData ++ [cf] }
  | f => { q with initial := q.initial ++ [f] }

def addHandshake (q : RetransmissionQueue) : ControlFrame → RetransmissionQueue
  | .crypto cf =>
    { q with handshakeCryptoData := q.handshakeCryptoData ++ [cf] }
  | f => { q with handshake := q.handshake ++ [f] }

def addAppData (q : RetransmissionQueue) (f : ControlFrame) : RetransmissionQueue :=
  { q with appData := q.appData ++ [f] }

def hasInitialData (q : RetransmissionQueue) : Bool :=
  q.initialCryptoData.length > 0 || q.initial.length > 0

def hasHandshakeData (q : RetransmissionQueue) : Bool :=
  q.handshakeCryptoData.length > 0 || q.handshake.length > 0

def getInitialFrame (q : RetransmissionQueue) (maxLen : Nat) :
    Except GoPanic (Option ControlFrame × RetransmissionQueue) := do
  let (f, initialCryptoData, initial) ←
    takeCryptoFirst maxLen q.initialCryptoData q.initial
  return (f, { q with initialCryptoData, initial })

def getHandshakeFrame (q : RetransmissionQueue) (maxLen : Nat) :
    Except GoPanic (Option ControlFrame × RetransmissionQueue) := do
  let (f, handshakeCryptoData, handshake) ←
    takeCryptoFirst maxLen q.handshakeCryptoData q.handshake
  return (f, { q with handshakeCryptoData, handshake })

def getAppDataFrame (q : RetransmissionQueue) (maxLen : Nat) :
    Except GoPanic (Option ControlFrame × RetransmissionQueue) := do
  let (f, appData) ← takeFirst maxLen q.appData
  return (f, { q with appData })

/-! ### Taking frames -/

def initialFrames (q : RetransmissionQueue) : List ControlFrame :=
  q.initialCryptoData.map .crypto ++ q.initial

def handshakeFrames (q : RetransmissionQueue) : List ControlFrame :=
  q.handshakeCryptoData.map .crypto ++ q.handshake

end RetransmissionQueue

def Taken (maxLen : Nat) (frames : List ControlFrame)
    (taken : Option ControlFrame) (rest : List ControlFrame) : Prop :=
  frames.Perm (taken.toList ++ rest) ∧ ∀ f, taken = some f → f.wireLen ≤ maxLen

theorem takeFirst_taken {frames : List ControlFrame} (h : ∀ f ∈ frames, f.Valid) (maxLen : Nat) :
    ∃ taken rest, takeFirst maxLen frames = .ok (taken, rest) ∧
      Taken maxLen frames taken rest := by
  cases frames with
  | nil => exact ⟨none, [], rfl, .refl _, fun _ hf => nomatch hf⟩
  | cons f frames =>
    simp only [takeFirst, (h f (by simp)).length, ok_bind]
    split
    · exact ⟨none, _, rfl, .refl _, fun _ hf => nomatch hf⟩
    · next hfits =>
      refine ⟨some f, frames, rfl, .refl _, ?_⟩
      intro g hg
      cases hg
      exact Nat.le_of_not_lt hfits

theorem takeCryptoFirst_taken {cryptoData : List CryptoFrame} {frames : List ControlFrame}
    (h : ∀ f ∈ cryptoData.map .crypto ++ frames, f.Valid) (maxLen : Nat) :
    ∃ taken cryptoRest rest, takeCryptoFirst maxLen cryptoData frames =
        .ok (taken, cryptoRest, rest) ∧
      Taken maxLen (cryptoData.map .crypto ++ frames) taken (cryptoRest.map .crypto ++ rest) := by
  obtain ⟨taken, rest, htake, hperm, hle⟩ := takeFirst_taken
    (fun f hf => h f (List.mem_append_right _ hf)) maxLen
  cases cryptoData with
  | nil =>
    simp only [takeCryptoFirst, htake, ok_bind]
    exact ⟨taken, [], rest, rfl, hperm, hle⟩
  | cons cf cryptoData =>
    have hlength : cf.length = .ok cf.wireLen :=
      (h (.crypto cf) (by simp)).length.trans
        (congrArg Except.ok (ControlFrame.wireLen_crypto cf))
    simp only [takeCryptoFirst, hlength, ok_bind]
    split
    · next hfits =>
      refine ⟨_, _, _, rfl, .refl _, ?_⟩
      intro g hg
      cases hg
      rw [ControlFrame.wireLen_crypto]
      exact hfits
    · rw [htake, ok_bind]
      refine ⟨taken, cf :: cryptoData, rest, rfl, ?_, hle⟩
      exact (hperm.append_left _).trans (List.perm_append_comm_assoc ..)

def Takes (get : RetransmissionQueue → Nat →
      Except GoPanic (Option ControlFrame × RetransmissionQueue))
    (frames : RetransmissionQueue → List ControlFrame) : Prop :=
  ∀ q maxLen, (∀ f ∈ frames q, f.Valid) → ∃ taken q', get q maxLen = .ok (taken, q') ∧
      Taken maxLen (frames q) taken (frames q')

namespace RetransmissionQueue

theorem takes_getInitialFrame : Takes getInitialFrame initialFrames := by
  intro q maxLen h
  obtain ⟨taken, cryptoRest, rest, htake, htaken⟩ := takeCryptoFirst_taken h maxLen
  refine ⟨taken, { q with initialCryptoData := cryptoRest, initial := rest },
    ?_, htaken⟩
  rw [getInitialFrame, htake]
  rfl

theorem takes_getHandshakeFrame : Takes getHandshakeFrame handshakeFrames := by
  intro q maxLen h
  obtain ⟨taken, cryptoRest, rest, htake, htaken⟩ := takeCryptoFirst_taken h maxLen
  refine ⟨taken,
    { q with handshakeCryptoData := cryptoRest, handshake := rest }, ?_, htaken⟩
  rw [getHandshakeFrame, htake]
  rfl

theorem takes_getAppDataFrame : Takes getAppDataFrame appData := by
  intro q maxLen h
  obtain ⟨taken, rest, htake, htaken⟩ := takeFirst_taken h maxLen
  refine ⟨taken, { q with appData := rest }, ?_, htaken⟩
  rw [getAppDataFrame, htake]
  rfl

end RetransmissionQueue

end Qperf.Quic
