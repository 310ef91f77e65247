import Mathlib.Order.Basic

/-!
# Send side of the flow controllers

`baseFlowController` is embedded in the controllers of the streams and of the
connection.  Only its fields for sending are modelled here.
-/

namespace Qperf.Quic

inductive ControllerID where
  | connection
  | stream (index : Nat)
  deriving DecidableEq, Repr

structure SendController where
  bytesSent : Nat
  sendWindow : Nat
  lastBlockedAt : Nat
  deriving DecidableEq, Repr

namespace SendController

def new (initialSendWindow : Nat) : SendController where
  bytesSent := 0
  sendWindow := initialSendWindow
  lastBlockedAt := 0

def sendWindowSize (c : SendController) : Nat :=
  if c.bytesSent > c.sendWindow then 0 else c.sendWindow - c.bytesSent

/-- The blocked offset, reported once, and the controller that remembers it. -/
def isNewlyBlocked (c : SendController) : Option (Nat × SendController) :=
  if c.sendWindowSize ≠ 0 ∨ c.sendWindow = c.lastBlockedAt then none
  else some (c.sendWindow, { c with lastBlockedAt := c.sendWindow })

def addBytesSent (c : SendController) (n : Nat) : SendController :=
  { c with bytesSent := c.bytesSent + n }

def updateSendWindow (c : SendController) (offset : Nat) : SendController :=
  if offset > c.sendWindow then { c with sendWindow := offset } else c

def Blocked (c : SendController) : Prop :=
  c.sendWindowSize = 0 ∧ c.sendWindow ≠ c.lastBlockedAt

instance (c : SendController) : Decidable c.Blocked :=
  inferInstanceAs (Decidable (_ ∧ _))

theorem isNewlyBlocked_of_blocked {c : SendController} (h : c.Blocked) :
    c.isNewlyBlocked =
      some (c.sendWindow, { c with lastBlockedAt := c.sendWindow }) := by
  rw [isNewlyBlocked, if_neg (by simp [h.1, h.2])]

theorem isNewlyBlocked_of_not_blocked {c : SendController}
    (h : ¬ c.Blocked) : c.isNewlyBlocked = none := by
  rw [isNewlyBlocked, if_pos]
  simpa only [Blocked, not_and_or, not_not] using h

@[simp]
theorem sendWindowSize_lastBlockedAt (c : SendController) (offset : Nat) :
    { c with lastBlockedAt := offset }.sendWindowSize = c.sendWindowSize :=
  rfl

end SendController

end Qperf.Quic
