import Qperf.Quic.ReceivedPackets

/-!
# Acknowledgements are sent in time

Between two ACK frames the tracker counts the packets that ask for one.  Each of them
queues an ACK or leaves an alarm, and an alarm is only moved to an earlier time, so that
the first packet decides how long the ACK may be delayed.  An alarm at the zero time is
no alarm; packets that are received after it never set the alarm there.
-/

namespace Qperf.Quic

open Qperf.Foundation

/-- None of the times to which the alarm may be set is the zero time. -/
structure AckDelays.AlarmTimes (delays : AckDelays) (rcvTime : Time) : Prop where
  maxDelay : rcvTime + maxAckDelay ≠ 0
  decimation : rcvTime + min maxAckDelay delays.decimation ≠ 0
  shortDecimation : rcvTime + delays.shortDecimation ≠ 0

theorem AckDelays.alarmTimes_of_pos {delays : AckDelays} {rcvTime : Time}
    (hrcv : 0 < rcvTime) (hdecimation : 0 ≤ delays.decimation)
    (hshort : 0 ≤ delays.shortDecimation) : delays.AlarmTimes rcvTime := by
  have hmax : 0 < maxAckDelay := by decide
  constructor <;> lia

structure ElicitingPacket where
  packetNumber : PacketNumber
  rcvTime : Time
  deriving DecidableEq, Repr

/-! ## One packet -/

namespace ReceivedPacketTracker

structure Waiting (since : List ElicitingPacket) (h : ReceivedPacketTracker) : Prop where
  counted : h.ackElicitingPacketsReceivedSinceLastAck = since.length
  few : since.length < ackElicitingPacketsBeforeAck
  initial : ∀ latest ∈ since.getLast?,
    latest.packetNumber ≤ minReceivedBeforeAckDecimation →
      since.length < initialAckElicitingPacketsBeforeAck
  alarm : ∀ first ∈ since.head?,
    h.ackAlarm ≠ 0 ∧ h.ackAlarm ≤ first.rcvTime + maxAckDelay
  idle : since = [] → h.ackAlarm = 0

def Due (since : List ElicitingPacket) (h : ReceivedPacketTracker) : Prop :=
  h.ackQueued = true ∨ Waiting since h

variable {h h' : ReceivedPacketTracker} {since : List ElicitingPacket}
variable {p : ElicitingPacket} {shouldInstigateAck : Bool} {delays : AckDelays}

theorem waiting_nil (hcount : h.ackElicitingPacketsReceivedSinceLastAck = 0)
    (halarm : h.ackAlarm = 0) : Waiting [] h where
  counted := hcount
  few := by decide
  initial := by
    intro latest hlatest
    cases hlatest
  alarm := by
    intro first hfirst
    cases hfirst
  idle := fun _ => halarm

theorem Waiting.concat (hwaiting : Waiting since h) {threshold : Nat}
    (hcount : h'.ackElicitingPacketsReceivedSinceLastAck =
      h.ackElicitingPacketsReceivedSinceLastAck + 1)
    (hlt : h'.ackElicitingPacketsReceivedSinceLastAck < threshold)
    (hfew : threshold ≤ ackElicitingPacketsBeforeAck)
    (hinitial : p.packetNumber ≤ minReceivedBeforeAckDecimation →
      threshold ≤ initialAckElicitingPacketsBeforeAck)
    (hset : h'.ackAlarm ≠ 0)
    (halarm : h'.ackAlarm ≤
      if h.ackAlarm = 0 then p.rcvTime + maxAckDelay else h.ackAlarm) :
    Waiting (since ++ [p]) h' := by
  rw [hcount, hwaiting.counted] at hlt
  have hlength : (since ++ [p]).length = since.length + 1 := List.length_append
  constructor
  case counted => rw [hcount, hwaiting.counted, hlength]
  case few => exact hlength ▸ hlt.trans_le hfew
  case initial =>
    intro latest hlatest hsmall
    rw [List.getLast?_concat, Option.mem_some_iff] at hlatest
    subst hlatest
    exact hlength ▸ hlt.trans_le (hinitial hsmall)
  case alarm =>
    intro first hfirst
    refine ⟨hset, halarm.trans ?_⟩
    cases since with
    | nil =>
      cases hfirst
      rw [if_pos (hwaiting.idle rfl)]
    | cons =>
      cases hfirst
      obtain ⟨hset, hlate⟩ := hwaiting.alarm first rfl
      rw [if_neg hset]
      exact hlate
  case idle => exact fun hnil => absurd hnil (List.concat_ne_nil _ _)

theorem Waiting.queueAfter (hwaiting : Waiting since h) {threshold : Nat} {alarm : Time}
    (halarm : alarm ≠ 0) (hlate : alarm ≤ p.rcvTime + maxAckDelay)
    (hfew : threshold ≤ ackElicitingPacketsBeforeAck)
    (hinitial : p.packetNumber ≤ minReceivedBeforeAckDecimation →
      threshold ≤ initialAckElicitingPacketsBeforeAck) :
    Due (since ++ [p]) (ReceivedPacketTracker.queueAfter
      { h with ackElicitingPacketsReceivedSinceLastAck :=
        h.ackElicitingPacketsReceivedSinceLastAck + 1 } threshold alarm) := by
  unfold ReceivedPacketTracker.queueAfter
  split
  · exact .inl rfl
  next hcount =>
  have hlt := not_le.mp hcount
  split
  · next hzero =>
    exact .inr (hwaiting.concat rfl hlt hfew hinitial halarm (by rwa [if_pos hzero]))
  · next hset =>
    exact .inr (hwaiting.concat rfl hlt hfew hinitial hset (by rw [if_neg hset]))

theorem Waiting.decimate (hwaiting : Waiting since h) (htimes : delays.AlarmTimes p.rcvTime) :
    Due (since ++ [p]) (h.decimate p.packetNumber p.rcvTime delays) := by
  unfold ReceivedPacketTracker.decimate
  split
  · next hlarge =>
    refine hwaiting.queueAfter htimes.decimation ?_ le_rfl fun hsmall => ?_
    · exact Int.add_le_add_left (min_le_left _ _) p.rcvTime
    · exact absurd hlarge (not_lt.mpr hsmall)
  · exact hwaiting.queueAfter htimes.maxDelay le_rfl (by decide) fun _ => le_rfl

theorem Due.shortenAlarm (hdue : Due (since ++ [p]) h) {ackTime : Time}
    (htime : ackTime ≠ 0) : Due (since ++ [p]) (h.shortenAlarm ackTime) := by
  unfold ReceivedPacketTracker.shortenAlarm
  split
  · next hearlier =>
    refine hdue.imp id fun hwaiting => { hwaiting with alarm := ?_, idle := ?_ }
    · intro first hfirst
      obtain ⟨hset, hlate⟩ := hwaiting.alarm first hfirst
      exact ⟨htime, (hearlier.resolve_left hset).le.trans hlate⟩
    · exact fun hnil => absurd hnil (List.concat_ne_nil _ _)
  · exact hdue

theorem Waiting.ackElicitingPacket (hwaiting : Waiting since h)
    (htimes : delays.AlarmTimes p.rcvTime)
    (hpacket : h.ackElicitingPacket p.packetNumber p.rcvTime delays = .ok h') :
    Due (since ++ [p]) h' := by
  unfold ReceivedPacketTracker.ackElicitingPacket at hpacket
  dsimp only at hpacket
  split at hpacket
  · cases hpacket
  next missing hmissing =>
  cases hpacket
  have hdue := hwaiting.decimate htimes
  split
  · exact hdue.shortenAlarm htimes.shortDecimation
  · exact hdue

def asking (since : List ElicitingPacket) (p : ElicitingPacket)
    (shouldInstigateAck : Bool) : List ElicitingPacket :=
  if shouldInstigateAck then since ++ [p] else since

theorem Due.queueEliciting (hdue : Due since h) (htimes : delays.AlarmTimes p.rcvTime)
    (hqueue : h.queueEliciting p.packetNumber p.rcvTime shouldInstigateAck delays =
      .ok h') : Due (asking since p shouldInstigateAck) h' := by
  unfold ReceivedPacketTracker.queueEliciting at hqueue
  rcases hdue with hqueued | hwaiting
  · rw [hqueued] at hqueue
    cases hqueue
    exact .inl hqueued
  · cases shouldInstigateAck with
    | true =>
      split at hqueue
      · exact hwaiting.ackElicitingPacket htimes hqueue
      · next hskip =>
        cases hqueue
        exact .inl (by simpa using hskip)
    | false =>
      rw [Bool.and_false] at hqueue
      cases hqueue
      exact .inr hwaiting

theorem Due.cancelAlarm (hdue : Due since h) : Due since h.cancelAlarm := by
  unfold ReceivedPacketTracker.cancelAlarm
  split
  · next hqueued => exact .inl hqueued
  · exact hdue

theorem Due.countPacket (hdue : Due since h) (wasMissing : Bool) :
    Due since (h.countPacket.queueIfMissing wasMissing) := by
  cases wasMissing with
  | true => exact .inl rfl
  | false => exact hdue.imp id fun hwaiting => { hwaiting with }

theorem Due.maybeQueueAck (hdue : Due since h) (htimes : delays.AlarmTimes p.rcvTime)
    {wasMissing : Bool} (hmaybe : h.maybeQueueAck p.packetNumber p.rcvTime
      shouldInstigateAck wasMissing delays = .ok h') :
    Due (asking since p shouldInstigateAck) h' := by
  unfold ReceivedPacketTracker.maybeQueueAck at hmaybe
  split at hmaybe
  · cases hmaybe
    exact .inl rfl
  split at hmaybe
  · cases hmaybe
  next queued hqueue =>
  cases hmaybe
  exact ((hdue.countPacket wasMissing).queueEliciting htimes hqueue).cancelAlarm

theorem Due.observe (hdue : Due since h) (packetNumber : PacketNumber) (rcvTime : Time) :
    Due since (h.observe packetNumber rcvTime) := by
  unfold ReceivedPacketTracker.observe
  split <;> exact hdue.imp id fun hwaiting => { hwaiting with }

theorem Due.ignorePacketsBelow (hdue : Due since h) (bound : PacketNumber) :
    Due since (h.ignorePacketsBelow bound) := by
  unfold ReceivedPacketTracker.ignorePacketsBelow
  split
  · exact hdue
  · exact hdue.imp id fun hwaiting => { hwaiting with }

theorem Due.receivedPacket (hdue : Due since h) (htimes : delays.AlarmTimes p.rcvTime)
    (hpacket : h.receivedPacket p.packetNumber p.rcvTime shouldInstigateAck delays =
      .ok h') :
    Due (asking since p
      (shouldInstigateAck && decide (h.ignoreBelow ≤ p.packetNumber))) h' := by
  unfold ReceivedPacketTracker.receivedPacket at hpacket
  split at hpacket
  · next hbelow =>
    cases hpacket
    rw [decide_eq_false (not_le.mpr hbelow), Bool.and_false]
    exact hdue
  · next hnew =>
    rw [decide_eq_true (not_lt.mp hnew), Bool.and_true]
    split at hpacket
    · cases hpacket
    · exact (hdue.observe p.packetNumber p.rcvTime).maybeQueueAck htimes hpacket

end ReceivedPacketTracker

/-! ## Runs -/

inductive TrackerCall where
  | receivedPacket (packetNumber : PacketNumber) (rcvTime : Time)
      (shouldInstigateAck : Bool) (delays : AckDelays)
  | ignoreBelow (p : PacketNumber)
  | getAckFrame (now : Time)
  deriving DecidableEq, Repr

structure AckHistory where
  tracker : ReceivedPacketTracker := {}
  /-- The packets since the last ACK frame that ask for one and were not ignored. -/
  since : List ElicitingPacket := []
  deriving DecidableEq, Repr

namespace AckHistory

open ReceivedPacketTracker (Due waiting_nil)

def step (s : AckHistory) : TrackerCall → Except HandlerPanic AckHistory
  | .receivedPacket packetNumber rcvTime shouldInstigateAck delays => do
    let tracker ←
      s.tracker.receivedPacket packetNumber rcvTime shouldInstigateAck delays
    let asks := shouldInstigateAck && decide (s.tracker.ignoreBelow ≤ packetNumber)
    return ⟨tracker, if asks then s.since ++ [⟨packetNumber, rcvTime⟩] else s.since⟩
  | .ignoreBelow p => .ok { s with tracker := s.tracker.ignorePacketsBelow p }
  | .getAckFrame now =>
    match s.tracker.getAckFrame now with
    | (none, tracker) => .ok { s with tracker }
    | (some _, tracker) => .ok ⟨tracker, []⟩

def run (calls : List TrackerCall) : Except HandlerPanic AckHistory :=
  calls.foldlM step {}

/-- No packet sets the alarm to the zero time. -/
def Timed : TrackerCall → Prop
  | .receivedPacket _ rcvTime _ delays => delays.AlarmTimes rcvTime
  | _ => True

/-- No packet is forgotten, and none waits longer than the first one may. -/
structure Prompt (s : AckHistory) : Prop where
  alarm : ∀ first ∈ s.since.head?, s.tracker.ackQueued = true ∨
    (s.tracker.ackAlarm ≠ 0 ∧ s.tracker.ackAlarm ≤ first.rcvTime + maxAckDelay)
  few : s.tracker.ackQueued = false → s.since.length < 10
  initial : s.tracker.ackQueued = false →
    ∀ latest ∈ s.since.getLast?, latest.packetNumber ≤ 100 → s.since.length < 2

variable {s s' : AckHistory}

private theorem prompt_of_due (h : Due s.since s.tracker) : s.Prompt := by
  rcases h with hqueued | hwaiting
  · have hne : s.tracker.ackQueued ≠ false := by rw [hqueued]; decide
    exact ⟨fun _ _ => .inl hqueued, fun hnot => absurd hnot hne,
      fun hnot => absurd hnot hne⟩
  · exact ⟨fun first hfirst => .inr (hwaiting.alarm first hfirst),
      fun _ => hwaiting.few, fun _ => hwaiting.initial⟩

private theorem due_getAckFrame (h : Due s.since s.tracker) {now : Time}
    (hstep : s.step (.getAckFrame now) = .ok s') : Due s'.since s'.tracker := by
  simp only [AckHistory.step, ReceivedPacketTracker.getAckFrame] at hstep
  by_cases hnone : (!s.tracker.ackQueued &&
      (decide (s.tracker.ackAlarm = 0) || decide (s.tracker.ackAlarm > now))) = true
  · rw [if_pos hnone] at hstep
    cases hstep
    exact h
  · rw [if_neg hnone] at hstep
    cases hstep
    exact .inr (waiting_nil rfl rfl)

private theorem due_step (h : Due s.since s.tracker) {call : TrackerCall} (htimed : Timed call)
    (hstep : s.step call = .ok s') : Due s'.since s'.tracker := by
  cases call with
  | receivedPacket packetNumber rcvTime =>
    obtain ⟨tracker, hpacket, hpure⟩ := bind_eq_ok.mp hstep
    cases hpure
    exact h.receivedPacket (p := ⟨packetNumber, rcvTime⟩) htimed hpacket
  | ignoreBelow p =>
    cases hstep
    exact h.ignorePacketsBelow p
  | getAckFrame => exact due_getAckFrame h hstep

/--
In every run that never sets the alarm to the zero time, an ACK is queued or its alarm
set as soon as a packet asks for it, and not many packets share one ACK.
-/
theorem ack_prompt {calls : List TrackerCall} (htimed : ∀ call ∈ calls, Timed call)
    (hrun : run calls = .ok s) : s.Prompt := by
  refine prompt_of_due (foldlM_ok_induct (fun _ s => Due s.since s.tracker) ?_
    (.inr (waiting_nil rfl rfl)) hrun)
  intro before call after s s' hcalls h hstep
  exact due_step h (htimed call (by simp [hcalls])) hstep

theorem ack_prompt_twoPackets :
    ∃ s, run [.receivedPacket 0 1 true ⟨0, 0⟩, .getAckFrame 2,
        .receivedPacket 1 3 true ⟨0, 0⟩, .receivedPacket 101 4 true ⟨0, 0⟩] = .ok s ∧
      s.since = [⟨1, 3⟩, ⟨101, 4⟩] ∧ s.tracker.ackQueued = false ∧ s.Prompt := by
  have htimes : ∀ rcvTime : Time, 0 < rcvTime → AckDelays.AlarmTimes ⟨0, 0⟩ rcvTime :=
    fun _ hrcv => AckDelays.alarmTimes_of_pos hrcv le_rfl le_rfl
  have hresult : (run [.receivedPacket 0 1 true ⟨0, 0⟩, .getAckFrame 2,
      .receivedPacket 1 3 true ⟨0, 0⟩, .receivedPacket 101 4 true ⟨0, 0⟩]).map
        (fun s => (s.since, s.tracker.ackQueued)) = .ok ([⟨1, 3⟩, ⟨101, 4⟩], false) := by
    decide +kernel
  obtain ⟨s, hrun, hs⟩ := map_eq_ok hresult
  obtain ⟨hsince, hqueued⟩ := Prod.mk.inj hs
  refine ⟨s, hrun, hsince, hqueued, ack_prompt ?_ hrun⟩
  exact List.forall_iff_forall_mem.mp ⟨htimes 1 (by decide), trivial,
    htimes 3 (by decide), htimes 4 (by decide)⟩

/--
Before there is a round-trip time, the alarm is set to the time when the packet was
received.  The zero time is none, so that packet 101 is not acknowledged at any time.
-/
theorem ack_forgotten_atZeroTime :
    ∃ s, run [.receivedPacket 0 0 true ⟨0, 0⟩, .getAckFrame 0,
        .receivedPacket 101 0 true ⟨0, 0⟩] = .ok s ∧
      s.since = [⟨101, 0⟩] ∧ s.tracker.ackQueued = false ∧ s.tracker.ackAlarm = 0 ∧
      (∀ now, (s.tracker.getAckFrame now).1 = none) ∧ ¬ s.Prompt := by
  refine ⟨_, rfl, by decide +kernel, by decide +kernel, by decide +kernel, fun now => rfl, ?_⟩
  intro hprompt
  rcases hprompt.alarm ⟨101, 0⟩ rfl with hqueued | halarm
  · cases hqueued
  · exact halarm.1 rfl

end AckHistory

end Qperf.Quic
