import Mathlib.Data.List.Basic
import Mathlib.Tactic.Ring

/-!
# Control blocks and response bodies

The data shared by client and server: the control blocks built from the
configured entries, the response bodies that the server fills by doubling
copies, and the check that the client applies to a response.
-/

namespace Qperf.Client

/-! ## Data -/

inductive StreamStatus where
  | unavailable
  | available
  | enqueued
  | pending
  | finished
  deriving DecidableEq, Repr

structure FilteredEntry where
  resourceId : Int
  requestUrl : String
  responseSize : Int
  remainingSize : Int
  resourceType : String
  dependencies : List Int
  domain : String
  method : String
  isStarted : Bool

structure StreamControlBlock where
  status : StreamStatus
  resourceId : UInt16
  requestUrl : String
  responseSize : UInt32
  remainingSize : UInt32
  resourceType : String
  dependencies : List Int
  domain : String
  method : String
  isStarted : Bool
  responseBody : List UInt8
  enqueuedAt : Int64
  queuedFor : Int64
  startedAt : Int64
  finishedAt : Int64
  transmissionTime : Int64
  deriving DecidableEq

def buildStreamControlBlock (entry : FilteredEntry) : StreamControlBlock where
  status := .unavailable
  resourceId := UInt16.ofInt entry.resourceId
  requestUrl := entry.requestUrl
  responseSize := UInt32.ofInt entry.responseSize
  remainingSize := UInt32.ofInt entry.remainingSize
  resourceType := entry.resourceType
  dependencies := entry.dependencies
  domain := entry.domain
  method := entry.method
  isStarted := entry.isStarted
  responseBody := []
  enqueuedAt := 0
  queuedFor := 0
  startedAt := 0
  finishedAt := 0
  transmissionTime := 0

def buildStreamControlBlockSlice (filteredEntries : List FilteredEntry) :
    List StreamControlBlock :=
  filteredEntries.map buildStreamControlBlock

def getStreamControlBlockByResourceId (slice : List StreamControlBlock)
    (id : UInt16) : Option StreamControlBlock :=
  slice.find? fun block => block.resourceId = id

/-! ## Recording times -/

def StreamControlBlock.markStarted (block : StreamControlBlock)
    (now : Int64) : StreamControlBlock :=
  { block with startedAt := now }

@[simp] theorem markStarted_responseSize (block : StreamControlBlock)
    (now : Int64) : (block.markStarted now).responseSize = block.responseSize := rfl

@[simp] theorem markStarted_resourceId (block : StreamControlBlock)
    (now : Int64) : (block.markStarted now).resourceId = block.resourceId := rfl

def StreamControlBlock.markFinished (block : StreamControlBlock)
    (now : Int64) : StreamControlBlock :=
  { block with
    status := .finished
    finishedAt := now
    queuedFor := block.startedAt - block.enqueuedAt
    transmissionTime := now - block.startedAt }

/-! ## Filling a buffer -/

/-- `copy(a[bp:], a[:bp])`. -/
def copyPrefix (a : List UInt8) (bp : Nat) : List UInt8 :=
  a.take bp ++ (a.take bp).take (a.length - bp) ++ a.drop (bp + bp)

theorem length_copyPrefix (a : List UInt8) (bp : Nat) :
    (copyPrefix a bp).length = a.length := by
  simp only [copyPrefix, List.length_append, List.length_take, List.length_drop]
  omega

/-- The `for` loop of `Memset`, in which `bp` starts at 1. -/
def memsetLoop (a : List UInt8) (bp : Nat) : List UInt8 :=
  if 0 < bp ∧ bp < a.length then memsetLoop (copyPrefix a bp) (bp * 2) else a
termination_by a.length - bp
decreasing_by
  rw [length_copyPrefix]
  omega

def memset (a : List UInt8) (value : UInt8) : List UInt8 :=
  match a with
  | [] => []
  | _ :: rest => memsetLoop (value :: rest) 1

def Filled (a : List UInt8) (value : UInt8) (bp : Nat) : Prop :=
  ∀ i, i < bp → i < a.length → a[i]? = some value

theorem filled_copyPrefix {a : List UInt8} {value : UInt8} {bp : Nat}
    (h : Filled a value bp) (hbp : bp < a.length) :
    Filled (copyPrefix a bp) value (bp * 2) := by
  intro i hi hlt
  rw [length_copyPrefix] at hlt
  by_cases hfirst : i < bp
  · rw [copyPrefix, List.append_assoc, List.getElem?_append_left,
      List.getElem?_take_of_lt hfirst]
    · exact h i hfirst hlt
    · simp only [List.length_take]
      omega
  · have hcopied : i - bp < bp := by omega
    rw [copyPrefix, List.getElem?_append_left, List.getElem?_append_right]
    · simp only [List.length_take]
      rw [Nat.min_eq_left (Nat.le_of_lt hbp),
        List.getElem?_take_of_lt (by omega), List.getElem?_take_of_lt hcopied]
      exact h (i - bp) hcopied (by omega)
    · simp only [List.length_take]
      omega
    · simp only [List.length_append, List.length_take]
      omega

private theorem eq_replicate_of_filled {a : List UInt8} {value : UInt8} {bp : Nat}
    (h : Filled a value bp) (hbp : a.length ≤ bp) :
    a = List.replicate a.length value := by
  refine List.ext_getElem? fun i => ?_
  by_cases hi : i < a.length
  · rw [h i (by omega) hi, List.getElem?_replicate_of_lt hi]
  · rw [List.getElem?_eq_none (by omega), List.getElem?_eq_none (by simp; omega)]

private theorem memsetLoop_eq (a : List UInt8) (value : UInt8) (bp : Nat)
    (hbp : 0 < bp) (h : Filled a value bp) :
    memsetLoop a bp = List.replicate a.length value := by
  induction a, bp using memsetLoop.induct with
  | case1 a bp hlt ih =>
    rw [memsetLoop, if_pos hlt,
      ih (by omega) (filled_copyPrefix h hlt.2), length_copyPrefix]
  | case2 a bp hge =>
    rw [memsetLoop, if_neg hge]
    exact eq_replicate_of_filled h (by omega)

theorem memset_eq (a : List UInt8) (value : UInt8) :
    memset a value = List.replicate a.length value := by
  cases a with
  | nil => rfl
  | cons first rest =>
    rw [memset, memsetLoop_eq _ value 1 Nat.zero_lt_one]
    · rfl
    · intro i hi _
      obtain rfl : i = 0 := by omega
      rfl

/-! ## Response bodies -/

def makeResponseBody (block : StreamControlBlock) : StreamControlBlock :=
  { block with
    responseBody := memset (List.replicate block.responseSize.toNat 0)
      block.resourceId.toUInt8 }

theorem responseBody_makeResponseBody (block : StreamControlBlock) :
    (makeResponseBody block).responseBody =
      List.replicate block.responseSize.toNat block.resourceId.toUInt8 := by
  simp [makeResponseBody, memset_eq]

def validateResponse (response : List UInt8) (responseSize : UInt32)
    (value : UInt16) : Bool :=
  if response.length ≤ 0 then false
  else if UInt32.ofNat response.length ≠ responseSize then false
  else response.all fun b => b = value.toUInt8

variable {response : List UInt8} {responseSize : UInt32} {value : UInt16}

theorem validateResponse_eq_true :
    validateResponse response responseSize value = true ↔
      0 < response.length ∧ response.length % 2 ^ 32 = responseSize.toNat ∧
        ∀ b ∈ response, b = value.toUInt8 := by
  have hsize : UInt32.ofNat response.length = responseSize ↔
      response.length % 2 ^ 32 = responseSize.toNat := by
    rw [← UInt32.toNat_inj, UInt32.toNat_ofNat']
  unfold validateResponse
  split_ifs with hempty hequal
  · simp only [false_iff]
    omega
  · simp only [false_iff]
    exact fun h => hequal (hsize.mpr h.2.1)
  · simp only [List.all_eq_true, decide_eq_true_eq]
    have hlen := hsize.mp (not_not.mp hequal)
    exact ⟨fun hall => ⟨by omega, hlen, hall⟩, fun h => h.2.2⟩

theorem validateResponse_iff (hlength : response.length < 2 ^ 32) :
    validateResponse response responseSize value = true ↔
      0 < responseSize.toNat ∧ response = List.replicate responseSize.toNat value.toUInt8 := by
  rw [validateResponse_eq_true, Nat.mod_eq_of_lt hlength, List.eq_replicate_iff]
  constructor
  · rintro ⟨hpos, hlen, hall⟩
    exact ⟨by omega, hlen, hall⟩
  · rintro ⟨hpos, hlen, hall⟩
    exact ⟨by omega, hlen, hall⟩

theorem validateResponse_iff_exists (hpos : 1 ≤ responseSize.toNat) :
    validateResponse response responseSize value = true ↔
      ∃ k, response = List.replicate (responseSize.toNat + k * 2 ^ 32) value.toUInt8 := by
  have hlt := responseSize.toNat_lt
  rw [validateResponse_eq_true]
  constructor
  · rintro ⟨-, hlen, hall⟩
    refine ⟨response.length / 2 ^ 32, List.eq_replicate_iff.mpr ⟨?_, hall⟩⟩
    omega
  · rintro ⟨k, hresponse⟩
    obtain ⟨hlen, hall⟩ := List.eq_replicate_iff.mp hresponse
    exact ⟨by omega, by omega, hall⟩

/--
A buffer is filled completely.  The check accepts the response body and nothing else,
except for responses that are too long by a multiple of 4 GiB.
-/
theorem responseBody_checked_iff (a : List UInt8) (value : UInt8)
    (block : StreamControlBlock) (response : List UInt8) (hpos : 1 ≤ block.responseSize.toNat) :
    memset a value = List.replicate a.length value ∧
      ((validateResponse response block.responseSize block.resourceId = true ↔
          response = (makeResponseBody block).responseBody) ↔
        ¬ ∃ k ≥ 1, response = List.replicate
          (block.responseSize.toNat + k * 2 ^ 32) block.resourceId.toUInt8) := by
  refine ⟨memset_eq a value, ?_⟩
  rw [validateResponse_iff_exists hpos, responseBody_makeResponseBody]
  constructor
  · rintro hagree ⟨k, hk, hlong⟩
    have hlen := congrArg List.length (hlong.symm.trans (hagree.mp ⟨k, hlong⟩))
    rw [List.length_replicate, List.length_replicate] at hlen
    omega
  · intro hshort
    constructor
    · rintro ⟨k, hresponse⟩
      obtain rfl : k = 0 := by
        by_contra hk
        exact hshort ⟨k, by omega, hresponse⟩
      exact hresponse
    · intro hresponse
      exact ⟨0, hresponse⟩

def smallBlock : StreamControlBlock :=
  buildStreamControlBlock ⟨263, "/image", 3, 3, "image", [], "", "GET", false⟩

theorem responseBody_checked_iff_small :
    validateResponse [7, 7, 7] smallBlock.responseSize smallBlock.resourceId = true ↔
      [7, 7, 7] = (makeResponseBody smallBlock).responseBody := by
  refine (responseBody_checked_iff [] 0 smallBlock [7, 7, 7] (by decide)).2.mpr ?_
  rintro ⟨k, hk, hlong⟩
  have hlen := congrArg List.length hlong
  rw [List.length_replicate] at hlen
  change 3 = 3 + k * 2 ^ 32 at hlen
  omega

theorem longResponse_accepted :
    validateResponse (List.replicate (3 + 1 * 2 ^ 32) 7) smallBlock.responseSize
        smallBlock.resourceId = true ∧
      List.replicate (3 + 1 * 2 ^ 32) 7 ≠ (makeResponseBody smallBlock).responseBody := by
  refine ⟨(validateResponse_iff_exists (by decide)).mpr ⟨1, rfl⟩, fun heq => ?_⟩
  rw [responseBody_makeResponseBody] at heq
  have hlen := congrArg List.length heq
  rw [List.length_replicate, List.length_replicate] at hlen
  exact absurd hlen (by decide)

end Qperf.Client
