import Qperf.Foundation.Traces
import Mathlib.Data.Finset.Card
import Mathlib.Logic.Function.Basic

/-!
# Accepting streams

`incomingItemsMap` hands the streams that the peer opens to `AcceptStream`.  A call
that finds no stream releases the mutex and then waits on an unbuffered channel.
`GetOrOpenStream` sends on this channel only if a call is waiting at that moment.
-/

namespace Qperf.Quic

open Qperf.Foundation

/-! ## The map -/

abbrev StreamNum := Int

inductive StreamMapError where
  | streamError (message : String) (nums : List StreamNum)
  | closed (err : String)
  deriving DecidableEq, Repr

/--
A stream is represented by its number.  `queuedMaxStreams` are the limits that were
passed to `queueMaxStreamID`.
-/
structure IncomingItemsMap where
  streams : Finset StreamNum
  streamsToDelete : Finset StreamNum
  nextStreamToAccept : StreamNum
  nextStreamToOpen : StreamNum
  maxStream : StreamNum
  maxNumStreams : Nat
  queuedMaxStreams : List StreamNum
  closeErr : Option String

namespace IncomingItemsMap

def new (maxStreams : Nat) : IncomingItemsMap where
  streams := ∅
  streamsToDelete := ∅
  nextStreamToAccept := 1
  nextStreamToOpen := 1
  maxStream := maxStreams
  maxNumStreams := maxStreams
  queuedMaxStreams := []
  closeErr := none

def raiseLimit (m : IncomingItemsMap) : IncomingItemsMap :=
  if m.maxNumStreams > m.streams.card then
    let maxStream :=
      m.nextStreamToOpen + (m.maxNumStreams - m.streams.card : Nat) - 1
    { m with
      maxStream
      queuedMaxStreams := m.queuedMaxStreams ++ [maxStream] }
  else m

/-- A stream that was not accepted yet is only marked. -/
def deleteStream (m : IncomingItemsMap) (num : StreamNum) :
    Except StreamMapError IncomingItemsMap :=
  if num ∉ m.streams then
    .error (.streamError "Tried to delete unknown stream %d" [num])
  else if num ≥ m.nextStreamToAccept then
    if num ∈ m.streamsToDelete then
      .error (.streamError "Tried to delete stream %d multiple times" [num])
    else .ok { m with streamsToDelete := insert num m.streamsToDelete }
  else .ok { m with streams := m.streams.erase num }.raiseLimit

inductive Accepting where
  | wait
  | returned (result : Except StreamMapError StreamNum) (m : IncomingItemsMap)

def acceptStream (m : IncomingItemsMap) : Accepting :=
  let num := m.nextStreamToAccept
  match m.closeErr with
  | some err => .returned (.error (.closed err)) m
  | none =>
    if num ∈ m.streams then
      let m := { m with nextStreamToAccept := num + 1 }
      if num ∈ m.streamsToDelete then
        let m := { m with streamsToDelete := m.streamsToDelete.erase num }
        match m.deleteStream num with
        | .error err => .returned (.error err) m
        | .ok m => .returned (.ok num) m
      else .returned (.ok num) m
    else .wait

/-- The first critical section of `GetOrOpenStream`. -/
inductive Lookup where
  | error (err : StreamMapError)
  | found (stream : Option StreamNum)
  | mustOpen

def lookupStream (m : IncomingItemsMap) (num : StreamNum) : Lookup :=
  if num > m.maxStream then
    .error (.streamError "peer tried to open stream %d (current limit: %d)"
      [num, m.maxStream])
  else if num < m.nextStreamToOpen then
    if num ∉ m.streamsToDelete ∧ num ∈ m.streams then .found (some num)
    else .found none
  else .mustOpen

def numOpened (m : IncomingItemsMap) (num : StreamNum) : Nat :=
  (num + 1 - m.nextStreamToOpen).toNat

def openLoop : Nat → StreamNum → Finset StreamNum → Finset StreamNum
  | 0, _, streams => streams
  | k + 1, newNum, streams => openLoop k (newNum + 1) (insert newNum streams)

def openStreams (m : IncomingItemsMap) (num : StreamNum) : IncomingItemsMap :=
  { m with
    streams := openLoop (m.numOpened num) m.nextStreamToOpen m.streams
    nextStreamToOpen := num + 1 }

end IncomingItemsMap

/-! ## Concurrent calls -/

inductive AcceptPhase where
  | outside
  | unlocked
  | waiting
  | signaled
  deriving DecidableEq, Repr

/-- `opening` are the calls of `GetOrOpenStream` between their two sections. -/
structure AcceptState (ι κ : Type) where
  map : IncomingItemsMap
  accepting : ι → AcceptPhase
  opening : κ → Option StreamNum

inductive AcceptEvent (ι κ : Type) where
  | lock (caller : ι)
  | select (caller : ι)
  | cancel (caller : ι)
  | lookup (opener : κ) (num : StreamNum)
  | openStreams (opener : κ)
  | deleteStream (num : StreamNum)

section Steps

variable {ι κ : Type} [DecidableEq ι] [DecidableEq κ]

/--
The sends of the loop that opens streams.  A send succeeds exactly if a call is
waiting, and any of the waiting calls may receive it.
-/
inductive Signals : Nat → (ι → AcceptPhase) → (ι → AcceptPhase) → Prop where
  | done {accepting : ι → AcceptPhase} : Signals 0 accepting accepting
  | received {k : Nat} {accepting accepting' : ι → AcceptPhase} {caller : ι}
      (hwaiting : accepting caller = .waiting)
      (rest : Signals k (Function.update accepting caller .signaled) accepting') :
      Signals (k + 1) accepting accepting'
  | missed {k : Nat} {accepting accepting' : ι → AcceptPhase}
      (hnone : ∀ caller, accepting caller ≠ .waiting)
      (rest : Signals k accepting accepting') :
      Signals (k + 1) accepting accepting'

namespace AcceptState

def new (ι κ : Type) (maxStreams : Nat) : AcceptState ι κ where
  map := .new maxStreams
  accepting := fun _ => .outside
  opening := fun _ => none

def setPhase (s : AcceptState ι κ) (caller : ι) (phase : AcceptPhase) :
    AcceptState ι κ :=
  { s with accepting := Function.update s.accepting caller phase }

inductive Step (s : AcceptState ι κ) : AcceptEvent ι κ → AcceptState ι κ → Prop where
  | wait {caller : ι}
      (hphase : s.accepting caller = .outside ∨ s.accepting caller = .signaled)
      (haccept : s.map.acceptStream = .wait) :
      Step s (.lock caller) (s.setPhase caller .unlocked)
  | returned {caller : ι} {result : Except StreamMapError StreamNum}
      {m : IncomingItemsMap}
      (hphase : s.accepting caller = .outside ∨ s.accepting caller = .signaled)
      (haccept : s.map.acceptStream = .returned result m) :
      Step s (.lock caller) { s.setPhase caller .outside with map := m }
  | select {caller : ι} (hphase : s.accepting caller = .unlocked) :
      Step s (.select caller) (s.setPhase caller .waiting)
  -- The context may be done before the call waits, or while it does.
  | cancel {caller : ι}
      (hphase : s.accepting caller = .unlocked ∨ s.accepting caller = .waiting) :
      Step s (.cancel caller) (s.setPhase caller .outside)
  | lookup {opener : κ} {num : StreamNum} (hfree : s.opening opener = none)
      (hlookup : s.map.lookupStream num ≠ .mustOpen) :
      Step s (.lookup opener num) s
  | mustOpen {opener : κ} {num : StreamNum} (hfree : s.opening opener = none)
      (hlookup : s.map.lookupStream num = .mustOpen) :
      Step s (.lookup opener num)
        { s with opening := Function.update s.opening opener (some num) }
  | openStreams {opener : κ} {num : StreamNum} {accepting : ι → AcceptPhase}
      (hopening : s.opening opener = some num)
      (hsignals : Signals (s.map.numOpened num) s.accepting accepting) :
      Step s (.openStreams opener) {
        map := s.map.openStreams num
        accepting
        opening := Function.update s.opening opener none }
  | deleteFails {num : StreamNum} {err : StreamMapError}
      (hdelete : s.map.deleteStream num = .error err) :
      Step s (.deleteStream num) s
  | deleted {num : StreamNum} {m : IncomingItemsMap}
      (hdelete : s.map.deleteStream num = .ok m) :
      Step s (.deleteStream num) { s with map := m }

/-- A call waits for a stream that is there, and nothing is about to wake it. -/
def LostWakeup (s : AcceptState ι κ) : Prop :=
  (∃ caller, s.accepting caller = .waiting) ∧
    s.map.nextStreamToAccept ∈ s.map.streams ∧ ∀ opener, s.opening opener = none

/--
Streams are opened only while no call stands between the mutex and the channel, and
while at most as many calls are waiting as streams are opened.
-/
def Timely (s : AcceptState ι κ) : AcceptEvent ι κ → Prop
  | .openStreams opener => ∀ num, s.opening opener = some num →
      s.map.numOpened num ≠ 0 →
        (∀ caller, s.accepting caller ≠ .unlocked) ∧
        ∃ callers : List ι, callers.length ≤ s.map.numOpened num ∧
          ∀ caller, s.accepting caller = .waiting → caller ∈ callers
  | _ => True

end AcceptState

/-! ## Signals -/

variable {k : Nat} {accepting accepting' : ι → AcceptPhase}

theorem Signals.all_received (h : Signals k accepting accepting')
    {callers : List ι} (hlength : callers.length ≤ k)
    (hcallers : ∀ caller, accepting caller = .waiting → caller ∈ callers)
    (caller : ι) : accepting' caller ≠ .waiting := by
  induction h generalizing callers with
  | done =>
    intro hwaiting
    rw [List.length_eq_zero_iff.mp (Nat.le_zero.mp hlength)] at hcallers
    exact absurd (hcallers caller hwaiting) List.not_mem_nil
  | @received k accepting accepting' receiver hwaiting _ ih =>
    have hmem := hcallers receiver hwaiting
    have hshorter : (callers.erase receiver).length ≤ k := by
      rw [List.length_erase_of_mem hmem]
      omega
    apply ih hshorter
    · intro other hother
      by_cases heq : other = receiver
      · rw [heq, Function.update_self] at hother
        cases hother
      · rw [Function.update_of_ne heq] at hother
        exact (List.mem_erase_of_ne heq).mpr (hcallers other hother)
  | @missed k _ _ hnone _ ih =>
    have hempty : ([] : List ι).length ≤ k := Nat.zero_le k
    apply ih hempty
    intro other hother
    exact absurd hother (hnone other)

theorem Signals.unlocked (h : Signals k accepting accepting') {caller : ι}
    (hunlocked : accepting' caller = .unlocked) :
    accepting caller = .unlocked := by
  induction h with
  | done => exact hunlocked
  | received _ _ ih =>
    have hbefore := ih hunlocked
    rw [Function.update_apply] at hbefore
    split at hbefore
    · cases hbefore
    · exact hbefore
  | missed _ _ ih => exact ih hunlocked

theorem Signals.zero (h : Signals 0 accepting accepting') :
    accepting' = accepting := by
  cases h
  rfl

namespace IncomingItemsMap

variable {m m' : IncomingItemsMap} {num : StreamNum}

private theorem acceptStream_wait (h : m.acceptStream = .wait) :
    m.nextStreamToAccept ∉ m.streams := by
  intro hmem
  unfold acceptStream at h
  dsimp only at h
  split at h
  · cases h
  · rw [if_pos hmem] at h
    split at h
    · split at h <;> cases h
    · cases h

private theorem acceptStream_returned {result : Except StreamMapError StreamNum}
    (hopen : m.closeErr = none) (h : m.acceptStream = .returned result m') :
    m.nextStreamToAccept ∈ m.streams := by
  by_contra hnone
  simp only [acceptStream, hopen, if_neg hnone] at h
  cases h

private theorem raiseLimit_streams (m : IncomingItemsMap) : m.raiseLimit.streams = m.streams ∧
      m.raiseLimit.nextStreamToAccept = m.nextStreamToAccept ∧
      m.raiseLimit.closeErr = m.closeErr := by
  unfold raiseLimit
  split <;> exact ⟨rfl, rfl, rfl⟩

theorem deleteStream_ok (h : m.deleteStream num = .ok m') :
    m'.streams ⊆ m.streams ∧ m'.nextStreamToAccept = m.nextStreamToAccept ∧
      m'.closeErr = m.closeErr := by
  unfold deleteStream at h
  split at h
  · cases h
  split at h
  · split at h <;> cases h
    exact ⟨Finset.Subset.refl _, rfl, rfl⟩
  · cases h
    obtain ⟨hstreams, hnext, herr⟩ :=
      raiseLimit_streams { m with streams := m.streams.erase num }
    rw [hstreams]
    exact ⟨Finset.erase_subset .., hnext, herr⟩

private theorem acceptStream_closeErr {result : Except StreamMapError StreamNum}
    (h : m.acceptStream = .returned result m') : m'.closeErr = m.closeErr := by
  unfold acceptStream at h
  dsimp only at h
  split at h
  · cases h
    rfl
  split at h
  · split at h
    · split at h
      · cases h
        rfl
      · next hdelete =>
        cases h
        exact (deleteStream_ok hdelete).2.2
    · cases h
      rfl
  · cases h

private theorem openStreams_zero (h : m.numOpened num = 0) :
    (m.openStreams num).streams = m.streams := by
  unfold openStreams
  rw [h]
  rfl

end IncomingItemsMap

/-! ## Timely runs -/

namespace AcceptState

structure Awake (s : AcceptState ι κ) : Prop where
  closeErr : s.map.closeErr = none
  waits : ∀ caller, s.accepting caller = .unlocked ∨
    s.accepting caller = .waiting → s.map.nextStreamToAccept ∉ s.map.streams

omit [DecidableEq ι] [DecidableEq κ] in
theorem Awake.new (maxStreams : Nat) : (new ι κ maxStreams).Awake where
  closeErr := rfl
  waits := by
    rintro caller (h | h) <;> cases h

variable {s s' : AcceptState ι κ} {event : AcceptEvent ι κ}

omit [DecidableEq κ] in
theorem Awake.setPhase (h : s.Awake) (caller : ι) {phase : AcceptPhase}
    (hphase : phase = .unlocked ∨ phase = .waiting →
      s.map.nextStreamToAccept ∉ s.map.streams) :
    (s.setPhase caller phase).Awake := by
  refine ⟨h.closeErr, ?_⟩
  intro other hother
  unfold AcceptState.setPhase at hother
  dsimp only at hother
  by_cases heq : other = caller
  · rw [heq, Function.update_self] at hother
    exact hphase hother
  · rw [Function.update_of_ne heq] at hother
    exact h.waits other hother

theorem Awake.step (h : s.Awake) (htimely : s.Timely event)
    (hstep : s.Step event s') : s'.Awake := by
  cases hstep with
  | wait hphase haccept =>
    apply h.setPhase
    intro _
    exact IncomingItemsMap.acceptStream_wait haccept
  | @returned caller result m hphase haccept =>
    have hmem := IncomingItemsMap.acceptStream_returned h.closeErr haccept
    have herr := IncomingItemsMap.acceptStream_closeErr haccept
    refine ⟨herr.trans h.closeErr, ?_⟩
    -- Since the next stream was there, no other call was waiting for it.
    intro other hother
    unfold AcceptState.setPhase at hother
    dsimp only at hother
    by_cases heq : other = caller
    · rw [heq, Function.update_self] at hother
      rcases hother with hother | hother <;> cases hother
    · rw [Function.update_of_ne heq] at hother
      exact absurd hmem (h.waits other hother)
  | @select caller hphase =>
    apply h.setPhase
    intro _
    exact h.waits caller (.inl hphase)
  | cancel hphase =>
    apply h.setPhase
    rintro (hcontra | hcontra) <;> cases hcontra
  | lookup _ _ => exact h
  | mustOpen _ _ => exact ⟨h.closeErr, h.waits⟩
  | @openStreams opener num accepting hopening hsignals =>
    refine ⟨h.closeErr, ?_⟩
    intro caller hcaller
    by_cases hzero : s.map.numOpened num = 0
    · rw [hzero] at hsignals
      rw [hsignals.zero] at hcaller
      rw [IncomingItemsMap.openStreams_zero hzero]
      exact h.waits caller hcaller
    · obtain ⟨hgap, callers, hlength, hcallers⟩ := htimely num hopening hzero
      rcases hcaller with hcaller | hcaller
      · exact absurd (hsignals.unlocked hcaller) (hgap caller)
      · exact absurd hcaller (hsignals.all_received hlength hcallers caller)
  | deleteFails _ => exact h
  | deleted hdelete =>
    obtain ⟨hsubset, hnext, herr⟩ := IncomingItemsMap.deleteStream_ok hdelete
    refine ⟨herr.trans h.closeErr, ?_⟩
    intro caller hcaller hmem
    rw [hnext] at hmem
    exact h.waits caller hcaller (hsubset hmem)

/-- No wake-up is lost in a run that opens streams only at the right moments. -/
theorem acceptStream_noLostWakeup {maxStreams : Nat} {events : List (AcceptEvent ι κ)}
    (h : Trace (fun s event s' => Step s event s' ∧ s.Timely event)
      (new ι κ maxStreams) events s) : ¬ s.LostWakeup := by
  have hawake : s.Awake := Trace.invariant Awake (Awake.new maxStreams)
    (fun _ _ _ ht hstep => ht.step hstep.2 hstep.1) h
  rintro ⟨⟨caller, hwaiting⟩, hmem, -⟩
  exact hawake.waits caller (.inr hwaiting) hmem

section Samples

def soleCaller (phase : AcceptPhase) (opening : Option StreamNum) :
    AcceptState Unit Unit where
  map := .new 10
  accepting := fun _ => phase
  opening := fun _ => opening

def soleStream (phase : AcceptPhase) : AcceptState Unit Unit where
  map := (IncomingItemsMap.new 10).openStreams 1
  accepting := fun _ => phase
  opening := fun _ => none

theorem update_unit {α : Type} (f : Unit → α) (a : α) :
    Function.update f () a = fun _ => a := by
  funext u
  exact Function.update_self ..

theorem lock_soleCaller :
    Step (new Unit Unit 10) (.lock ()) (soleCaller .unlocked none) := by
  have h : Step (new Unit Unit 10) (.lock ())
      ((new Unit Unit 10).setPhase () .unlocked) := .wait (.inl rfl) rfl
  rwa [AcceptState.setPhase, update_unit] at h

private theorem select_soleCaller :
    Step (soleCaller .unlocked none) (.select ()) (soleCaller .waiting none) := by
  have h : Step (soleCaller .unlocked none) (.select ())
      ((soleCaller .unlocked none).setPhase () .waiting) := .select rfl
  rwa [AcceptState.setPhase, update_unit] at h

theorem lookup_soleCaller (phase : AcceptPhase) :
    Step (soleCaller phase none) (.lookup () 1) (soleCaller phase (some 1)) := by
  have h : Step (soleCaller phase none) (.lookup () 1)
      { soleCaller phase none with
        opening := Function.update (soleCaller phase none).opening () (some 1) } :=
    .mustOpen rfl rfl
  rwa [update_unit] at h

theorem openStreams_soleCaller {phase phase' : AcceptPhase}
    (hsignals : Signals 1 (fun _ : Unit => phase) (fun _ => phase')) :
    Step (soleCaller phase (some 1)) (.openStreams ()) (soleStream phase') := by
  have h : Step (soleCaller phase (some 1)) (.openStreams ()) {
      map := (soleCaller phase (some 1)).map.openStreams 1
      accepting := fun _ => phase'
      opening := Function.update (soleCaller phase (some 1)).opening () none } :=
    .openStreams rfl hsignals
  rwa [update_unit] at h

theorem acceptStream_noLostWakeup_soleStream :
    Trace (fun s event s' => Step s event s' ∧ s.Timely event) (new Unit Unit 10)
      [.lock (), .select (), .lookup () 1, .openStreams ()]
      (soleStream .signaled) ∧ ¬ (soleStream .signaled).LostWakeup := by
  have hreceived : Signals 0
      (Function.update (fun _ : Unit => AcceptPhase.waiting) () .signaled)
      (fun _ => .signaled) := by
    exact .done
  have hsignals : Signals 1 (fun _ : Unit => .waiting) (fun _ => .signaled) :=
    .received rfl hreceived
  have hrun : Trace (fun s event s' => Step s event s' ∧ s.Timely event)
      (new Unit Unit 10)
      [.lock (), .select (), .lookup () 1, .openStreams ()]
      (soleStream .signaled) :=
    .snoc (.snoc (.snoc (.snoc .nil ⟨lock_soleCaller, trivial⟩)
      ⟨select_soleCaller, trivial⟩) ⟨lookup_soleCaller .waiting, trivial⟩)
      ⟨openStreams_soleCaller hsignals, fun _ hnum _ =>
        ⟨fun _ => by simp [soleCaller], [()], by cases hnum; decide, by simp⟩⟩
  exact ⟨hrun, acceptStream_noLostWakeup hrun⟩

theorem acceptStream_losesWakeup : Trace Step (new Unit Unit 10)
      [.lock (), .lookup () 1, .openStreams (), .select ()]
      (soleStream .waiting) ∧ (soleStream .waiting).LostWakeup := by
  have hsignals : Signals 1 (fun _ : Unit => .unlocked) (fun _ => .unlocked) :=
    .missed (fun _ => by decide) .done
  have hselect : Step (soleStream .unlocked) (.select ()) (soleStream .waiting) := by
    have h : Step (soleStream .unlocked) (.select ())
        ((soleStream .unlocked).setPhase () .waiting) := .select rfl
    rwa [AcceptState.setPhase, update_unit] at h
  refine ⟨?_, ⟨(), rfl⟩, by decide, fun _ => rfl⟩
  exact .snoc (.snoc (.snoc (.snoc .nil lock_soleCaller)
    (lookup_soleCaller .unlocked)) (openStreams_soleCaller hsignals)) hselect

end Samples

end AcceptState

end Steps

end Qperf.Quic
