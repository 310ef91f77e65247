import Qperf.Quic.OutgoingStreams

/-!
# Wake-ups of the callers of OpenStreamSync

A channel that is closed is a token: its caller may take a stream, and closes the next
channel when it did.  The token is passed on without regard to the streams that are
left, and is lost if its caller is canceled.  The wake-ups match the streams in runs in
which neither happens.
-/

namespace Qperf.Quic

open Qperf.Foundation

namespace OutgoingItemsMap

variable {m m' : OutgoingItemsMap}

def available (m : OutgoingItemsMap) : Int := m.maxStream - m.nextStream + 1

/--
Some caller is woken if there is a stream, and not more callers are woken than there
are streams.
-/
structure Matched (m : OutgoingItemsMap) : Prop where
  woken : m.openQueue ∪ m.unblocked ≠ ∅ → m.nextStream ≤ m.maxStream → m.unblocked ≠ ∅
  count : m.unblocked ≠ ∅ → (m.unblocked.card : Int) ≤ m.available

structure Woken (m : OutgoingItemsMap) : Prop where
  closeErr : m.closeErr = none
  lowest : ∀ q ∈ m.openQueue, m.lowestInQueue ≤ q
  bound : m.lowestInQueue ≤ m.highestInQueue
  highest : ∀ q ∈ m.openQueue, q < m.highestInQueue
  matched : m.Matched

theorem Woken.new : ({} : OutgoingItemsMap).Woken where
  closeErr := rfl
  lowest := fun _ hq => (Finset.notMem_empty _ hq).elim
  bound := Nat.le_refl 0
  highest := fun _ hq => (Finset.notMem_empty _ hq).elim
  matched := ⟨fun h => absurd rfl h, fun h => absurd rfl h⟩

private theorem matched_of_queueEmpty (h : m.QueueEmpty) : m.Matched := by
  obtain ⟨hqueue, hunblocked⟩ := h
  constructor
  · intro hne
    simp [hqueue, hunblocked] at hne
  · intro hne
    exact absurd hunblocked hne

theorem woken_unblockOpenSync (h : m.unblockOpenSync = .ok m') (hclose : m.closeErr = none)
    (hlowest : ∀ q ∈ m.openQueue, m.lowestInQueue ≤ q)
    (hbound : m.lowestInQueue ≤ m.highestInQueue)
    (hhighest : ∀ q ∈ m.openQueue, q < m.highestInQueue)
    (hcount : m.unblocked ≠ ∅ → (m.unblocked.card : Int) ≤ m.available)
    (hroom : m.openQueue = ∅ ∨ (m.unblocked.card : Int) < m.available) : m'.Woken := by
  rcases unblockOpenSync_ok h hlowest hhighest with ⟨rfl, hempty⟩ | ⟨p, hp, hleast, rfl⟩
  · refine ⟨hclose, hlowest, hbound, hhighest, ?_, hcount⟩
    intro hne _
    rwa [hempty, Finset.empty_union] at hne
  · have hroom := hroom.resolve_left (Finset.ne_empty_of_mem hp)
    have hlt := hhighest p hp
    refine ⟨hclose, ?_, ?_, ?_, ?_, ?_⟩
    · intro q hq
      obtain ⟨hne, hq⟩ := Finset.mem_erase.mp hq
      have := hleast q hq
      simp only [unblock]
      omega
    · exact hlt
    · exact fun q hq => hhighest q (Finset.mem_of_mem_erase hq)
    · exact fun _ _ => Finset.insert_ne_empty p _
    · intro _
      have hcard := Finset.card_insert_le p m.unblocked
      have havailable : (m.unblock p).available = m.available := rfl
      rw [havailable]
      simp only [unblock]
      omega

end OutgoingItemsMap

/-! ## Steps -/

namespace OpenState

/--
A caller that is canceled does not hold the only token while others wait for a stream
that is there, and a channel is closed only if there is a stream for its caller too.
-/
def Passes (s : OpenState) : OpenEvent → Prop
  | .cancel queuePos => s.map.unblocked = {queuePos} →
      s.map.openQueue = ∅ ∨ s.map.maxStream < s.map.nextStream
  | .resume _ => s.map.nextStream ≤ s.map.maxStream →
      s.map.openQueue = ∅ ∨ (s.map.unblocked.card : Int) < s.map.available
  | .setMaxStream num => s.map.maxStream < num →
      s.map.openQueue = ∅ ∨
        (s.map.unblocked.card : Int) < num - s.map.nextStream + 1
  | _ => True

instance (s : OpenState) (event : OpenEvent) : Decidable (s.Passes event) :=
  match event with
  | .cancel _ | .resume _ | .setMaxStream _ => inferInstanceAs (Decidable (_ → _))
  | .openStream | .openStreamSync _ | .deleteStream _ | .closeWithError _ =>
    .isTrue trivial

variable {s s' : OpenState} {event : OpenEvent}

theorem Passes.cancel {queuePos : Nat} (h : s.map.Woken)
    (hpasses : s.Passes (.cancel queuePos)) : (s.map.dequeue queuePos).Woken := by
  refine ⟨h.closeErr, fun q hq => h.lowest q (Finset.mem_of_mem_erase hq), h.bound,
    fun q hq => h.highest q (Finset.mem_of_mem_erase hq), ?_, ?_⟩
  · intro hne hfree hnone
    -- The only token was that of the canceled caller.
    change s.map.unblocked.erase queuePos = ∅ at hnone
    have hqueue : s.map.openQueue ≠ ∅ := by
      rintro hempty
      simp [OutgoingItemsMap.dequeue, hnone, hempty] at hne
    have hunblocked : s.map.unblocked ≠ ∅ := by
      apply h.matched.woken _ hfree
      exact fun hunion => hqueue (Finset.union_eq_empty.mp hunion).1
    have hsingle : s.map.unblocked = {queuePos} :=
      ((Finset.erase_eq_empty_iff ..).mp hnone).resolve_left hunblocked
    rcases hpasses hsingle with hempty | hlimit
    · exact hqueue hempty
    · exact absurd hfree (not_le.mpr hlimit)
  · intro hne
    have hunblocked : s.map.unblocked ≠ ∅ := by
      rintro hempty
      simp [OutgoingItemsMap.dequeue, hempty] at hne
    have hcount := h.matched.count hunblocked
    have hcard := Finset.card_erase_le (s := s.map.unblocked) (a := queuePos)
    change ((s.map.unblocked.erase queuePos).card : Int) ≤ s.map.available
    omega

theorem Passes.setMaxStream {num : StreamNum} {m : OutgoingItemsMap}
    (h : s.map.Woken) (hpasses : s.Passes (.setMaxStream num))
    (hset : s.map.setMaxStream num = .ok m) : m.Woken := by
  unfold OutgoingItemsMap.setMaxStream at hset
  split at hset
  · cases hset
    exact h
  · next hraised =>
    have hraised := not_le.mp hraised
    refine OutgoingItemsMap.woken_unblockOpenSync hset h.closeErr h.lowest h.bound
      h.highest ?_ (hpasses hraised)
    intro hunblocked
    have hcount := h.matched.count hunblocked
    simp only [OutgoingItemsMap.available] at hcount ⊢
    lia

theorem Passes.resume {queuePos : Nat} (h : s.map.Woken)
    (hpasses : s.Passes (.resume queuePos)) (htoken : queuePos ∈ s.map.unblocked)
    (hresume : s.resume queuePos = .ok s') : s'.map.Woken := by
  have hcount := h.matched.count (Finset.ne_empty_of_mem htoken)
  have hcard := Finset.card_erase_add_one htoken
  unfold OpenState.resume at hresume
  rw [h.closeErr] at hresume
  simp only [Option.isSome_none, Bool.false_eq_true, if_false] at hresume
  split at hresume
  · cases hresume
    exact h
  · next hlimit =>
    obtain ⟨m, hunblock, rfl⟩ := setMap_ok hresume
    have hfree := not_lt.mp hlimit
    have hroom := hpasses hfree
    refine OutgoingItemsMap.woken_unblockOpenSync hunblock h.closeErr
      (fun q hq => h.lowest q (Finset.mem_of_mem_erase hq)) h.bound
      (fun q hq => h.highest q (Finset.mem_of_mem_erase hq)) ?_ ?_
    · intro _
      simp only [OpenState.grant, OutgoingItemsMap.dequeue, OutgoingItemsMap.openItem,
        OutgoingItemsMap.available] at hcount ⊢
      lia
    · rcases hroom with hempty | hroom
      · left
        simp only [OpenState.grant, OutgoingItemsMap.dequeue, OutgoingItemsMap.openItem,
          hempty, Finset.erase_empty]
      · right
        simp only [OpenState.grant, OutgoingItemsMap.dequeue, OutgoingItemsMap.openItem,
          OutgoingItemsMap.available] at hroom ⊢
        lia

theorem woken_maybeSendBlockedFrame {m : OutgoingItemsMap} (h : m.Woken) :
    m.maybeSendBlockedFrame.Woken := by
  obtain ⟨frames, sent, heq⟩ := m.maybeSendBlockedFrame_eq
  rw [heq]
  exact ⟨h.closeErr, h.lowest, h.bound, h.highest, h.matched.woken, h.matched.count⟩

theorem woken_enqueue {m : OutgoingItemsMap} (h : m.Woken)
    (hwaits : ¬ (m.QueueEmpty ∧ m.nextStream ≤ m.maxStream)) : m.enqueue.Woken := by
  apply woken_maybeSendBlockedFrame
  have hbound := h.bound
  refine ⟨h.closeErr, ?_, ?_, ?_, ?_, h.matched.count⟩
  · intro q hq
    dsimp only at hq ⊢
    rcases Finset.mem_insert.mp hq with rfl | hq
    · split <;> omega
    · have hne : ¬ m.QueueEmpty := fun hempty => by simp [hempty.1] at hq
      rw [if_neg hne]
      exact h.lowest q hq
  · dsimp only
    split <;> omega
  · intro q hq
    dsimp only at hq ⊢
    rcases Finset.mem_insert.mp hq with rfl | hq
    · omega
    · have := h.highest q hq
      omega
  · intro _ hfree
    apply h.matched.woken _ hfree
    intro hunion
    exact hwaits ⟨Finset.union_eq_empty.mp hunion, hfree⟩

private theorem woken_openItem {m : OutgoingItemsMap} (h : m.Woken) (hempty : m.QueueEmpty) :
    m.openItem.Woken :=
  { h with matched := OutgoingItemsMap.matched_of_queueEmpty (m := m.openItem) hempty }

theorem woken_step (h : s.map.Woken) (hopen : ∀ err, event ≠ .closeWithError err)
    (hpasses : s.Passes event) (hstep : s.step event = .ok s') : s'.map.Woken := by
  cases event with
  | openStream =>
    cases hstep
    unfold openStream OutgoingItemsMap.openStream
    rw [h.closeErr]
    by_cases hblocked : ¬ s.map.QueueEmpty ∨ s.map.nextStream > s.map.maxStream
    · simp only [if_pos hblocked]
      exact woken_maybeSendBlockedFrame h
    · simp only [if_neg hblocked]
      rw [not_or, not_not] at hblocked
      exact woken_openItem h hblocked.1
  | openStreamSync ctxErr =>
    cases hstep
    unfold openStreamSync
    split
    · exact h
    split
    · next hopened => exact woken_openItem h hopened.1
    · next hwaits => exact woken_enqueue h hwaits
  | resume queuePos =>
    simp only [OpenState.step] at hstep
    split at hstep
    · next henabled =>
      have htoken : queuePos ∈ s.map.unblocked := by
        simpa [ChannelClosed, h.closeErr] using henabled.2
      exact hpasses.resume h htoken hstep
    · cases hstep
  | cancel queuePos =>
    simp only [OpenState.step] at hstep
    split at hstep
    · cases hstep
      exact hpasses.cancel h
    · cases hstep
  | setMaxStream num =>
    obtain ⟨m, hset, rfl⟩ := setMap_ok hstep
    exact hpasses.setMaxStream h hset
  | deleteStream num =>
    simp only [OpenState.step, OutgoingItemsMap.deleteStream] at hstep
    split at hstep
    · next hdelete =>
      cases hstep
      split at hdelete <;> cases hdelete
      exact ⟨h.closeErr, h.lowest, h.bound, h.highest, h.matched.woken, h.matched.count⟩
    · cases hstep
      exact h
  | closeWithError err => exact absurd rfl (hopen err)

def OpenStep (s : OpenState) (event : OpenEvent) (s' : OpenState) : Prop :=
  s.step event = .ok s' ∧ ∀ err, event ≠ .closeWithError err

/--
In a run in which tokens are passed on only to callers with a stream and are not lost,
the channels that are closed match the streams that are left.
-/
theorem wakeups_matched {events : List OpenEvent}
    (h : Trace (fun s event s' => OpenStep s event s' ∧ s.Passes event) {} events s) :
    (s.map.openQueue ∪ s.map.unblocked ≠ ∅ → s.map.nextStream ≤ s.map.maxStream →
      s.map.unblocked ≠ ∅) ∧
      (s.map.unblocked.card : Int) ≤ max 0 (s.map.maxStream - s.map.nextStream + 1) := by
  have hwoken : s.map.Woken := Trace.invariant (fun s => s.map.Woken)
    OutgoingItemsMap.Woken.new
    (fun _ _ _ ht hstep => woken_step ht hstep.1.2 hstep.2 hstep.1.1) h
  refine ⟨hwoken.matched.woken, ?_⟩
  by_cases hnone : s.map.unblocked = ∅
  · rw [hnone]
    exact le_max_left ..
  · exact le_max_of_le_right (hwoken.matched.count hnone)

theorem wakeups_matched_inTurn :
    ∃ s, Trace (fun s event s' => OpenStep s event s' ∧ Passes s event) {}
        [.openStreamSync false, .openStreamSync false, .setMaxStream 2, .resume 0] s ∧
      s.map.unblocked = {1} ∧
      (s.map.unblocked.card : Int) ≤ max 0 (s.map.maxStream - s.map.nextStream + 1) := by
  have hrun : ∃ s, Trace (fun s event s' => OpenStep s event s' ∧ Passes s event) {}
      [.openStreamSync false, .openStreamSync false, .setMaxStream 2, .resume 0] s ∧
      s.map.unblocked = {1} := by
    refine ⟨_, .cons ⟨⟨rfl, ?_⟩, trivial⟩ (.cons ⟨⟨rfl, ?_⟩, trivial⟩
      (.cons ⟨⟨rfl, ?_⟩, fun _ => .inr (by decide)⟩
      (.cons ⟨⟨rfl, ?_⟩, fun _ => .inr (by decide)⟩ .nil))), rfl⟩
    all_goals intro err h; cases h
  obtain ⟨s, htrace, hunblocked⟩ := hrun
  exact ⟨s, htrace, hunblocked, (wakeups_matched htrace).2⟩

/--
The caller that was woken is canceled, and the other one waits for a stream that is
there; or it takes the only stream, and the other one is woken without one.
-/
theorem wakeups_lost_and_spurious :
    (∃ s, Trace OpenStep {} [.openStreamSync false, .openStreamSync false,
        .setMaxStream 1, .cancel 0] s ∧
      s.map.openQueue = {1} ∧ s.map.nextStream ≤ s.map.maxStream ∧
      s.map.unblocked = ∅) ∧
    ∃ s, Trace OpenStep {} [.openStreamSync false, .openStreamSync false,
        .setMaxStream 1, .resume 0] s ∧
      s.map.unblocked = {1} ∧ s.map.maxStream - s.map.nextStream + 1 = 0 := by
  constructor
  · refine ⟨_, .cons ⟨rfl, ?_⟩ (.cons ⟨rfl, ?_⟩ (.cons ⟨rfl, ?_⟩
      (.cons ⟨rfl, ?_⟩ .nil))), rfl, by decide, rfl⟩
    all_goals intro err h; cases h
  · refine ⟨_, .cons ⟨rfl, ?_⟩ (.cons ⟨rfl, ?_⟩ (.cons ⟨rfl, ?_⟩
      (.cons ⟨rfl, ?_⟩ .nil))), rfl, rfl⟩
    all_goals intro err h; cases h

end OpenState

end Qperf.Quic
