import Qperf.Foundation.Loops
import Qperf.Foundation.Rounding
import Qperf.Quic.FlowControl
import Qperf.Quic.FrameSorter
import Qperf.Quic.StreamFrame

/-!
# Receive side of the flow controllers

The fields of `baseFlowController` for receiving, the controllers of the streams and
of the connection.  A `ByteCount` is a `uint64`, so sums and differences wrap around.
The clock and the round-trip time enter only through the decision to enlarge a window.
-/

namespace Qperf.Quic

open Qperf.Foundation

@[irreducible]
def add64 (a b : Nat) : Nat := (a + b) % 2 ^ 64

@[irreducible]
def sub64 (a b : Nat) : Nat := (a + 2 ^ 64 - b) % 2 ^ 64

theorem add64_eq {a b : Nat} (h : a + b < 2 ^ 64) : add64 a b = a + b := by
  rw [add64]
  exact Nat.mod_eq_of_lt h

theorem add64_eq_of_le {a b : Nat} (ha : a ≤ maxByteCount) (hb : b ≤ maxByteCount) :
    add64 a b = a + b := by
  refine add64_eq ?_
  simp only [maxByteCount] at ha hb
  omega

theorem sub64_eq {a b : Nat} (hle : b ≤ a) (h : a < 2 ^ 64) : sub64 a b = a - b := by
  rw [sub64, show a + 2 ^ 64 - b = a - b + 2 ^ 64 by omega, Nat.add_mod_right]
  exact Nat.mod_eq_of_lt (by omega)

/-- `size * 0.75` in `float64`, cut to a `ByteCount`. -/
def updateThreshold (size : Nat) : Nat := roundTo 53 (3 * roundTo 53 size) / 4

/--
`size * 1.5` in `float64`, cut to a `ByteCount`.  Go leaves open what the conversion
yields for a value that is out of range.
-/
def minimumConnectionWindow (convert : Nat → Nat) (size : Nat) : Nat :=
  let product := roundTo 53 (3 * roundTo 53 size) / 2
  if product < 2 ^ 64 then product else convert product

/-- What `maybeAdjustWindowSize` learns from the clock and the round-trip time. -/
inductive Timing where
  | noRTT
  | slow
  | tooFast
  deriving DecidableEq, Repr

structure ReceiveController where
  bytesRead : Nat
  highestReceived : Nat
  receiveWindow : Nat
  receiveWindowSize : Nat
  maxReceiveWindowSize : Nat
  epochStartOffset : Nat
  deriving DecidableEq, Repr

inductive FlowError where
  | inconsistentFinalOffset (streamID : StreamID) (old new : Nat)
  | aboveFinalOffset (offset : Nat) (streamID : StreamID) (final : Nat)
  | finalOffsetTooLow (offset : Nat) (streamID : StreamID) (received : Nat)
  | streamViolation (offset : Nat) (streamID : StreamID) (allowed : Nat)
  | connectionViolation (received allowed : Nat)
  deriving DecidableEq, Repr

namespace ReceiveController

def new (receiveWindow maxReceiveWindow : Nat) : ReceiveController where
  bytesRead := 0
  highestReceived := 0
  receiveWindow := receiveWindow
  receiveWindowSize := receiveWindow
  maxReceiveWindowSize := maxReceiveWindow
  epochStartOffset := 0

def startNewAutoTuningEpoch (c : ReceiveController) : ReceiveController :=
  { c with epochStartOffset := c.bytesRead }

def addBytesRead (c : ReceiveController) (n : Nat) : ReceiveController :=
  let c := if c.bytesRead = 0 then c.startNewAutoTuningEpoch else c
  { c with bytesRead := add64 c.bytesRead n }

def hasWindowUpdate (c : ReceiveController) : Bool :=
  decide (sub64 c.receiveWindow c.bytesRead ≤ updateThreshold c.receiveWindowSize)

def maybeAdjustWindowSize (c : ReceiveController) (timing : Timing) :
    ReceiveController :=
  if sub64 c.bytesRead c.epochStartOffset ≤ c.receiveWindowSize / 2 then c
  else
    match timing with
    | .noRTT => c
    | .slow => c.startNewAutoTuningEpoch
    | .tooFast => startNewAutoTuningEpoch { c with
        receiveWindowSize := min (2 * c.receiveWindowSize % 2 ^ 64) c.maxReceiveWindowSize }

def moveWindow (c : ReceiveController) : ReceiveController :=
  { c with receiveWindow := add64 c.bytesRead c.receiveWindowSize }

def getWindowUpdate (c : ReceiveController) (timing : Timing) :
    ReceiveController × Nat :=
  if c.hasWindowUpdate then
    let c := (c.maybeAdjustWindowSize timing).moveWindow
    (c, c.receiveWindow)
  else (c, 0)

def checkFlowControlViolation (c : ReceiveController) : Bool :=
  decide (c.highestReceived > c.receiveWindow)

/-! ## The controller of the connection -/

def incrementHighestReceived (c : ReceiveController) (increment : Nat) :
    Except FlowError ReceiveController :=
  let c := { c with highestReceived := add64 c.highestReceived increment }
  if c.checkFlowControlViolation then
    .error (.connectionViolation c.highestReceived c.receiveWindow)
  else .ok c

def ensureMinimumWindowSize (c : ReceiveController) (inc : Nat) : ReceiveController :=
  if inc > c.receiveWindowSize then
    startNewAutoTuningEpoch
      { c with receiveWindowSize := min inc c.maxReceiveWindowSize }
  else c

end ReceiveController

/-! ## The controllers of the streams -/

structure StreamController extends ReceiveController where
  streamID : StreamID
  receivedFinalOffset : Bool
  deriving DecidableEq, Repr

namespace StreamController

def new (streamID : StreamID) (receiveWindow maxReceiveWindow : Nat) :
    StreamController where
  toReceiveController := .new receiveWindow maxReceiveWindow
  streamID := streamID
  receivedFinalOffset := false

def updateHighestReceived (c : StreamController) (connection : ReceiveController)
    (offset : Nat) (final : Bool) :
    Except FlowError (StreamController × ReceiveController) :=
  if c.receivedFinalOffset ∧ final ∧ offset ≠ c.highestReceived then
    .error (.inconsistentFinalOffset c.streamID c.highestReceived offset)
  else if c.receivedFinalOffset ∧ offset > c.highestReceived then
    .error (.aboveFinalOffset offset c.streamID c.highestReceived)
  else
    let c := if final then { c with receivedFinalOffset := true } else c
    if offset = c.highestReceived then .ok (c, connection)
    else if offset ≤ c.highestReceived then
      -- A higher offset was received before, due to reordering.
      if final then
        .error (.finalOffsetTooLow offset c.streamID c.highestReceived)
      else .ok (c, connection)
    else
      let increment := offset - c.highestReceived
      let c := { c with highestReceived := offset }
      if c.checkFlowControlViolation then
        .error (.streamViolation offset c.streamID c.receiveWindow)
      else do
        let connection ← connection.incrementHighestReceived increment
        return (c, connection)

def addBytesRead (c : StreamController) (connection : ReceiveController) (n : Nat) :
    StreamController × ReceiveController :=
  ({ c with toReceiveController := c.toReceiveController.addBytesRead n },
    connection.addBytesRead n)

def abandon (c : StreamController) (connection : ReceiveController) :
    ReceiveController :=
  let unread := sub64 c.highestReceived c.bytesRead
  if unread > 0 then connection.addBytesRead unread else connection

/-- The new offset, or 0.  A larger window enlarges that of the connection. -/
def getWindowUpdate (convert : Nat → Nat) (c : StreamController)
    (connection : ReceiveController) (timing : Timing) :
    (StreamController × ReceiveController) × Nat :=
  if c.receivedFinalOffset then ((c, connection), 0)
  else
    let update := c.toReceiveController.getWindowUpdate timing
    let connection :=
      if update.1.receiveWindowSize > c.receiveWindowSize then
        connection.ensureMinimumWindowSize
          (minimumConnectionWindow convert update.1.receiveWindowSize)
      else connection
    (({ c with toReceiveController := update.1 }, connection), update.2)

end StreamController

/-! ## What the operations do to a controller -/

namespace ReceiveController

variable {c c' : ReceiveController}

structure Within (c : ReceiveController) : Prop where
  read : c.bytesRead ≤ c.highestReceived
  received : c.highestReceived ≤ c.receiveWindow
  window : c.receiveWindow ≤ c.bytesRead + c.receiveWindowSize
  size : c.receiveWindowSize ≤ c.maxReceiveWindowSize
  max : c.maxReceiveWindowSize ≤ maxByteCount

theorem within_new {receiveWindow maxReceiveWindow : Nat}
    (hle : receiveWindow ≤ maxReceiveWindow) (hmax : maxReceiveWindow ≤ maxByteCount) :
    (new receiveWindow maxReceiveWindow).Within where
  read := Nat.le_refl _
  received := Nat.zero_le _
  window := Nat.le_add_left ..
  size := hle
  max := hmax

structure Resized (c c' : ReceiveController) : Prop where
  bytesRead : c'.bytesRead = c.bytesRead
  highestReceived : c'.highestReceived = c.highestReceived
  receiveWindow : c'.receiveWindow = c.receiveWindow
  maxReceiveWindowSize : c'.maxReceiveWindowSize = c.maxReceiveWindowSize
  grows : c.receiveWindowSize ≤ c'.receiveWindowSize
  size : c'.receiveWindowSize ≤ c.maxReceiveWindowSize

theorem Resized.within (hr : Resized c c') (h : c.Within) : c'.Within := by
  obtain ⟨hread, hreceived, hwindow, hsize, hmax⟩ := h
  constructor
  · rw [hr.bytesRead, hr.highestReceived]
    exact hread
  · rw [hr.highestReceived, hr.receiveWindow]
    exact hreceived
  · rw [hr.receiveWindow, hr.bytesRead]
    exact Nat.le_trans hwindow (Nat.add_le_add_left hr.grows _)
  · rw [hr.maxReceiveWindowSize]
    exact hr.size
  · rw [hr.maxReceiveWindowSize]
    exact hmax

theorem Within.resized_self (h : c.Within) : Resized c c :=
  ⟨rfl, rfl, rfl, rfl, Nat.le_refl _, h.size⟩

theorem Within.maybeAdjustWindowSize (h : c.Within) (timing : Timing) :
    Resized c (c.maybeAdjustWindowSize timing) := by
  simp only [ReceiveController.maybeAdjustWindowSize]
  split
  · exact h.resized_self
  · cases timing with
    | noRTT => exact h.resized_self
    | slow => exact ⟨rfl, rfl, rfl, rfl, Nat.le_refl _, h.size⟩
    | tooFast =>
      refine ⟨rfl, rfl, rfl, rfl, ?_, Nat.min_le_right ..⟩
      have hsize := h.size
      have hmax := h.max
      have hwrap : 2 * c.receiveWindowSize % 2 ^ 64 = 2 * c.receiveWindowSize := by
        refine Nat.mod_eq_of_lt ?_
        simp only [maxByteCount] at hmax
        omega
      change c.receiveWindowSize ≤
        min (2 * c.receiveWindowSize % 2 ^ 64) c.maxReceiveWindowSize
      omega

theorem Within.ensureMinimumWindowSize (h : c.Within) (inc : Nat) :
    Resized c (c.ensureMinimumWindowSize inc) := by
  rw [ReceiveController.ensureMinimumWindowSize]
  split
  · next hlt =>
    exact ⟨rfl, rfl, rfl, rfl, Nat.le_min.mpr ⟨Nat.le_of_lt hlt, h.size⟩,
      Nat.min_le_right ..⟩
  · exact h.resized_self

structure SameCounts (c c' : ReceiveController) : Prop where
  bytesRead : c'.bytesRead = c.bytesRead
  highestReceived : c'.highestReceived = c.highestReceived

private theorem sameCounts_maybeAdjustWindowSize (c : ReceiveController) (timing : Timing) :
    SameCounts c (c.maybeAdjustWindowSize timing) := by
  simp only [ReceiveController.maybeAdjustWindowSize]
  split
  · exact ⟨rfl, rfl⟩
  · cases timing <;> exact ⟨rfl, rfl⟩

private theorem sameCounts_moveWindow (c : ReceiveController) : SameCounts c c.moveWindow :=
  ⟨rfl, rfl⟩

theorem SameCounts.trans {c'' : ReceiveController} (h : SameCounts c c')
    (h' : SameCounts c' c'') : SameCounts c c'' :=
  ⟨h'.bytesRead.trans h.bytesRead, h'.highestReceived.trans h.highestReceived⟩

theorem sameCounts_getWindowUpdate (c : ReceiveController) (timing : Timing) :
    SameCounts c (c.getWindowUpdate timing).1 := by
  have hadjusted := c.sameCounts_maybeAdjustWindowSize timing
  rw [ReceiveController.getWindowUpdate]
  split
  · exact hadjusted.trans (sameCounts_moveWindow _)
  · exact ⟨rfl, rfl⟩

private theorem sameCounts_ensureMinimumWindowSize (c : ReceiveController) (inc : Nat) :
    SameCounts c (c.ensureMinimumWindowSize inc) := by
  rw [ReceiveController.ensureMinimumWindowSize]
  split <;> exact ⟨rfl, rfl⟩

structure Updated (c c' : ReceiveController) : Prop where
  within : c'.Within
  bytesRead : c'.bytesRead = c.bytesRead
  highestReceived : c'.highestReceived = c.highestReceived
  receiveWindow : c.receiveWindow ≤ c'.receiveWindow

theorem Resized.updated (hr : Resized c c') (h : c.Within) : Updated c c' :=
  ⟨hr.within h, hr.bytesRead, hr.highestReceived, Nat.le_of_eq hr.receiveWindow.symm⟩

theorem Updated.trans {c'' : ReceiveController} (h : Updated c c')
    (h' : Updated c' c'') : Updated c c'' where
  within := h'.within
  bytesRead := h'.bytesRead.trans h.bytesRead
  highestReceived := h'.highestReceived.trans h.highestReceived
  receiveWindow := Nat.le_trans h.receiveWindow h'.receiveWindow

theorem Within.moveWindow (h : c.Within) (hread : c.bytesRead ≤ maxByteCount) :
    Updated c c.moveWindow := by
  have hsum : c.moveWindow.receiveWindow = c.bytesRead + c.receiveWindowSize :=
    add64_eq_of_le hread (Nat.le_trans h.size h.max)
  have hle : c.receiveWindow ≤ c.moveWindow.receiveWindow := hsum ▸ h.window
  exact ⟨⟨h.read, Nat.le_trans h.received hle, Nat.le_of_eq hsum, h.size, h.max⟩,
    rfl, rfl, hle⟩

theorem Within.getWindowUpdate (h : c.Within) (hread : c.bytesRead ≤ maxByteCount)
    (timing : Timing) : Updated c (c.getWindowUpdate timing).1 ∧
      ((c.getWindowUpdate timing).2 = 0 ∨
        (c.getWindowUpdate timing).2 = (c.getWindowUpdate timing).1.receiveWindow) := by
  rw [ReceiveController.getWindowUpdate]
  split
  · have hresized := h.maybeAdjustWindowSize timing
    have hmoved := (hresized.within h).moveWindow (hresized.bytesRead ▸ hread)
    exact ⟨(hresized.updated h).trans hmoved, .inr rfl⟩
  · exact ⟨h.resized_self.updated h, .inl rfl⟩

@[simp]
theorem highestReceived_addBytesRead (c : ReceiveController) (n : Nat) :
    (c.addBytesRead n).highestReceived = c.highestReceived := by
  rw [ReceiveController.addBytesRead]
  split <;> rfl

@[simp]
theorem receiveWindow_addBytesRead (c : ReceiveController) (n : Nat) :
    (c.addBytesRead n).receiveWindow = c.receiveWindow := by
  rw [ReceiveController.addBytesRead]
  split <;> rfl

@[simp]
theorem bytesRead_addBytesRead (c : ReceiveController) (n : Nat) :
    (c.addBytesRead n).bytesRead = add64 c.bytesRead n := by
  rw [ReceiveController.addBytesRead]
  split <;> rfl

theorem Within.addBytesRead (h : c.Within) {n : Nat}
    (hn : c.bytesRead + n ≤ c.highestReceived) (hread : c.bytesRead + n ≤ maxByteCount) :
    (c.addBytesRead n).Within ∧ (c.addBytesRead n).bytesRead = c.bytesRead + n := by
  have hsum : add64 c.bytesRead n = c.bytesRead + n :=
    add64_eq_of_le (Nat.le_trans (Nat.le_add_right ..) hread)
      (Nat.le_trans (Nat.le_add_left ..) hread)
  have hwindow := h.window
  rw [ReceiveController.addBytesRead]
  split
  · refine ⟨⟨?_, h.received, ?_, h.size, h.max⟩, hsum⟩
    · simpa only [startNewAutoTuningEpoch, hsum] using hn
    · simp only [startNewAutoTuningEpoch, hsum]
      omega
  · refine ⟨⟨?_, h.received, ?_, h.size, h.max⟩, hsum⟩
    · simpa only [hsum] using hn
    · simp only [hsum]
      omega

end ReceiveController

namespace StreamController

variable {c c' : StreamController} {connection connection' : ReceiveController}

inductive Received (c : StreamController) (connection : ReceiveController)
    (offset : Nat) (final : Bool) : StreamController × ReceiveController → Prop where
  | known (hle : offset ≤ c.highestReceived)
      (hfinal : final = true → offset = c.highestReceived) :
      Received c connection offset final
        ({ c with receivedFinalOffset := c.receivedFinalOffset || final }, connection)
  | higher (hlt : c.highestReceived < offset) (hopen : c.receivedFinalOffset = false)
      (hstream : offset ≤ c.receiveWindow)
      (hconnection : add64 connection.highestReceived (offset - c.highestReceived) ≤
        connection.receiveWindow) :
      Received c connection offset final
        ({ c with highestReceived := offset, receivedFinalOffset := final },
          { connection with
            highestReceived :=
              add64 connection.highestReceived (offset - c.highestReceived) })

private theorem incrementHighestReceived_eq_ok {increment : Nat}
    (h : connection.incrementHighestReceived increment = .ok connection') :
    add64 connection.highestReceived increment ≤ connection.receiveWindow ∧
      connection' = { connection with
        highestReceived := add64 connection.highestReceived increment } := by
  rw [ReceiveController.incrementHighestReceived] at h
  split at h
  · cases h
  · next hviolation =>
    cases h
    simp only [ReceiveController.checkFlowControlViolation, decide_eq_true_eq,
      gt_iff_lt, Nat.not_lt] at hviolation
    exact ⟨hviolation, rfl⟩

variable {final : Bool} {offset : Nat} {timing : Timing}

theorem updateHighestReceived_received {result : StreamController × ReceiveController}
    (h : c.updateHighestReceived connection offset final = .ok result) :
    Received c connection offset final result := by
  rw [updateHighestReceived] at h
  split at h
  · cases h
  split at h
  · cases h
  next hconsistent hbelow =>
  have hmark : (if final then { c with receivedFinalOffset := true } else c) =
      { c with receivedFinalOffset := c.receivedFinalOffset || final } := by
    cases final <;> simp
  simp only [hmark] at h
  split at h
  · next heq =>
    cases h
    exact .known (Nat.le_of_eq heq) fun _ => heq
  split at h
  · next hne hle =>
    split at h
    · cases h
    · next hfinal =>
      cases h
      exact .known hle fun h => absurd h hfinal
  · next hne hgt =>
    have hlt : c.highestReceived < offset := Nat.lt_of_not_le hgt
    have hopen : c.receivedFinalOffset = false := by
      by_contra hknown
      exact hbelow ⟨by simpa using hknown, hlt⟩
    split at h
    · cases h
    · next hviolation =>
      obtain ⟨connection', hincrement, h⟩ := bind_eq_ok.mp h
      cases h
      obtain ⟨hwithin, rfl⟩ := incrementHighestReceived_eq_ok hincrement
      have hstream : offset ≤ c.receiveWindow := by
        simpa [ReceiveController.checkFlowControlViolation] using hviolation
      simpa only [hopen, Bool.false_or] using .higher hlt hopen hstream hwithin

theorem getWindowUpdate_eq (convert : Nat → Nat)
    {base : ReceiveController} (hopen : c.receivedFinalOffset = false)
    (hbase : c.toReceiveController.getWindowUpdate timing = (base, offset)) :
    c.getWindowUpdate convert connection timing =
      (({ c with toReceiveController := base },
        if base.receiveWindowSize > c.receiveWindowSize then
          connection.ensureMinimumWindowSize
            (minimumConnectionWindow convert base.receiveWindowSize)
        else connection), offset) := by
  have hne : ¬ c.receivedFinalOffset = true := by simp [hopen]
  rw [getWindowUpdate, if_neg hne, hbase]

theorem sameCounts_getWindowUpdate {convert : Nat → Nat}
    {result : StreamController × ReceiveController}
    (h : c.getWindowUpdate convert connection timing = (result, offset)) :
    c.toReceiveController.SameCounts result.1.toReceiveController ∧
      result.1.receivedFinalOffset = c.receivedFinalOffset ∧ connection.SameCounts result.2 := by
  cases hopen : c.receivedFinalOffset with
  | true =>
    rw [getWindowUpdate, if_pos hopen] at h
    cases h
    exact ⟨⟨rfl, rfl⟩, hopen, ⟨rfl, rfl⟩⟩
  | false =>
    have hcounts := c.toReceiveController.sameCounts_getWindowUpdate timing
    cases hbase : c.toReceiveController.getWindowUpdate timing with
    | mk base updated =>
    rw [hbase] at hcounts
    rw [getWindowUpdate_eq convert hopen hbase] at h
    cases h
    refine ⟨hcounts, hopen, ?_⟩
    split
    · exact connection.sameCounts_ensureMinimumWindowSize _
    · exact ⟨rfl, rfl⟩

def Settled (c c' : StreamController) : Prop :=
  c.receivedFinalOffset = true →
    c'.receivedFinalOffset = true ∧ c'.highestReceived = c.highestReceived

theorem Settled.refl (c : StreamController) : Settled c c := fun h => ⟨h, rfl⟩

theorem Settled.trans {c'' : StreamController} (h : Settled c c')
    (h' : Settled c' c'') : Settled c c'' := by
  intro hknown
  obtain ⟨hknown', heq⟩ := h hknown
  obtain ⟨hknown'', heq'⟩ := h' hknown'
  exact ⟨hknown'', heq'.trans heq⟩

section

variable (h : Received c connection offset final (c', connection'))
include h

theorem Received.settled : Settled c c' := by
  intro hknown
  cases h with
  | known => exact ⟨by simp [hknown], rfl⟩
  | higher _ hopen =>
    rw [hknown] at hopen
    cases hopen

theorem Received.le_highestReceived :
    c.highestReceived ≤ c'.highestReceived ∧ offset ≤ c'.highestReceived := by
  cases h with
  | known hle => exact ⟨Nat.le_refl _, hle⟩
  | higher hlt => exact ⟨Nat.le_of_lt hlt, Nat.le_refl _⟩

theorem Received.bytesRead_eq :
    c'.bytesRead = c.bytesRead ∧ connection'.bytesRead = connection.bytesRead := by
  cases h <;> exact ⟨rfl, rfl⟩

theorem Received.receivedFinalOffset_eq :
    c'.receivedFinalOffset = (c.receivedFinalOffset || final) := by
  cases h with
  | known => rfl
  | higher _ hopen => rw [hopen, Bool.false_or]

theorem Received.increment (hlt : connection.highestReceived + offset < 2 ^ 64) :
    connection'.highestReceived = connection.highestReceived +
      (c'.highestReceived - c.highestReceived) := by
  cases h with
  | known => simp
  | higher hhigher =>
    refine add64_eq ?_
    omega

end

theorem settled_addBytesRead (c : StreamController) (connection : ReceiveController)
    (n : Nat) : Settled c (c.addBytesRead connection n).1 :=
  fun hknown => ⟨hknown, c.highestReceived_addBytesRead n⟩

theorem settled_getWindowUpdate {convert : Nat → Nat}
    (h : c.getWindowUpdate convert connection timing = ((c', connection'), offset)) :
    Settled c c' := by
  intro hknown
  rw [getWindowUpdate, if_pos hknown] at h
  cases h
  exact ⟨hknown, rfl⟩

theorem updateHighestReceived_error (hknown : c.receivedFinalOffset = true)
    (hlt : c.highestReceived < offset) (final : Bool) :
    ∃ e, c.updateHighestReceived connection offset final = .error e := by
  cases h : c.updateHighestReceived connection offset final with
  | error e => exact ⟨e, rfl⟩
  | ok result =>
    cases updateHighestReceived_received h with
    | known hle => exact absurd hlt (Nat.not_lt.mpr hle)
    | higher _ hopen =>
      rw [hknown] at hopen
      cases hopen

end StreamController

end Qperf.Quic
