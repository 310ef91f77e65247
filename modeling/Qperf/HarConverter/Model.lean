import Qperf.Foundation.Loops
import Qperf.Foundation.Rounding

/-!
# Data of the HAR converter

The dictionaries and constants of `har_converter.py`.  The converter's numbers
are Python integers until they meet `DATA_BLOCK_SIZE`, which is a float; from
then on they are binary64 numbers.  All of them are integral, so both kinds are
kept as integers here, and the conversion that Python performs before a mixed
subtraction is explicit in `floatSub`.
-/

namespace Qperf.HarConverter

open Qperf.Foundation

inductive PyError where
  | indexError
  | keyError
  | typeError
  | overflowError
  | valueError
  deriving DecidableEq, Repr

inductive SchedulerType where
  | naiveRoundRobinScheduler
  | weightedRoundRobinScheduler
  | dynamicFirstComeFirstServeScheduler
  | classifiedWeightedRoundRobinScheduler
  deriving DecidableEq, Repr

/-- The other two schedulers return an empty recipe. -/
def SchedulerType.Implemented : SchedulerType → Prop
  | .naiveRoundRobinScheduler | .dynamicFirstComeFirstServeScheduler => True
  | .weightedRoundRobinScheduler | .classifiedWeightedRoundRobinScheduler =>
    False

inductive StreamStatus where
  | unavailable
  | enqueued
  | finished
  deriving DecidableEq, Repr

/-! ## Numbers -/

/-- `DATA_BLOCK_SIZE = 1.2 * 1e3`, which is the float `1200.0`. -/
def dataBlockSize : Int := 1200

def maxExponent : Nat := 1024

def floatLimit : Nat := 2 ^ maxExponent

theorem two_pow_lt_floatLimit {k : Nat} (h : k < maxExponent) : 2 ^ k < floatLimit :=
  Nat.pow_lt_pow_right (Nat.lt_succ_self 1) h

def toFloat (n : Int) : Except PyError Int :=
  if roundTo 53 n.natAbs < floatLimit then
    .ok (n.sign * roundTo 53 n.natAbs)
  else .error .overflowError

/-- `a - b` for a float `b` and a number `a` that may still be an integer. -/
def floatSub (a b : Int) : Except PyError Int := do
  let x ← toFloat a
  toFloat (x - b)

/-! ## Entries and frames -/

/-- An entry of `filtered_entries`; the active queue shares these objects. -/
structure Entry where
  resourceId : Nat
  requestUrl : String
  responseSize : Int
  remainingSize : Int
  resourceType : String
  dependencies : List Nat
  domain : String
  method : String
  enqueuedAt : Option Nat
  startedAt : Option Nat
  finishedAt : Option Nat
  isStarted : Bool
  queuedFor : Option Int
  transmissionTime : Option Int
  deriving DecidableEq, Repr

def Entry.fresh (resourceId : Nat) (requestUrl : String) (transferSize : Int)
    (resourceType : String) (dependencies : List Nat)
    (domain method : String) : Entry :=
  { resourceId := resourceId
    requestUrl := requestUrl
    responseSize := transferSize
    remainingSize := transferSize
    resourceType := resourceType
    dependencies := dependencies
    domain := domain
    method := method
    enqueuedAt := none
    startedAt := none
    finishedAt := none
    isStarted := false
    queuedFor := none
    transmissionTime := none }

structure Frame where
  resourceId : Nat
  length : Int
  isFinished : Bool
  deriving DecidableEq, Repr

/-- The statements under `标注开始时间` at the end of a scheduling round. -/
def Entry.markStarted (packetNumber : Nat) (stream : Entry) : Entry :=
  if stream.isStarted then stream
  else { stream with isStarted := true, startedAt := some packetNumber }

section MarkStarted

variable (packetNumber : Nat) (stream : Entry)

@[simp] theorem markStarted_resourceId :
    (stream.markStarted packetNumber).resourceId = stream.resourceId := by
  simp only [Entry.markStarted]
  split <;> rfl

@[simp] theorem markStarted_remainingSize :
    (stream.markStarted packetNumber).remainingSize = stream.remainingSize := by
  simp only [Entry.markStarted]
  split <;> rfl

@[simp] theorem markStarted_enqueuedAt :
    (stream.markStarted packetNumber).enqueuedAt = stream.enqueuedAt := by
  simp only [Entry.markStarted]
  split <;> rfl

end MarkStarted

/-! ## Arithmetic of the float conversion -/

private theorem toFloat_of_le {n : Int} (hn : 0 ≤ n) (hle : n ≤ 2 ^ 53) :
    toFloat n = .ok n := by
  have hround : roundTo 53 n.natAbs = n.natAbs := roundTo_of_le (by decide) (by omega)
  have hbig : 2 ^ 53 < floatLimit := two_pow_lt_floatLimit (by decide)
  rw [toFloat, hround, if_pos (by omega)]
  congr 1
  rcases Int.lt_or_eq_of_le hn with hpos | rfl
  · rw [Int.sign_eq_one_of_pos hpos]
    omega
  · rfl

theorem floatSub_of_le {a b : Int} (hb : 0 ≤ b) (hba : b ≤ a)
    (hle : a ≤ 2 ^ 53) : floatSub a b = .ok (a - b) := by
  rw [floatSub, toFloat_of_le (by omega) hle, ok_bind]
  exact toFloat_of_le (by omega) (by omega)

end Qperf.HarConverter
