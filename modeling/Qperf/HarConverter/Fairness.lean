import Qperf.Foundation.RoundRobin
import Qperf.HarConverter.Accounting
import Qperf.HarConverter.Serial

/-!
# Fairness of the naive scheduler

The naive scheduler serves the active queue in turn: a run of `replay` is a history of a
round robin queue, whose services are the frames of the log.
-/

namespace Qperf.HarConverter

open Qperf.Foundation

variable {n : Nat} {packetNumber : Nat} {entries : Entries n} {queue : List (Fin n)}
  {bytesAdded : Int} {packet : Composition n}

/-! ## The queue at a frame -/

/-- The queues that the calls of `active_stream_queue.get()` in `fillPacket` leave. -/
def queuesAtFrames (packetNumber : Nat) (entries : Entries n) :
    List (Fin n) → Int → List (List (Fin n))
  | [], _ => []
  | i :: queue, bytesAdded =>
    if bytesAdded < dataBlockSize then
      let stream := entries i
      let remainingDataLen := stream.remainingSize
      if remainingDataLen > dataBlockSize - bytesAdded then [queue]
      else
        let served := { stream with
          remainingSize := stream.remainingSize - remainingDataLen }
        queue :: queuesAtFrames packetNumber
          (Function.update entries i (served.markStarted packetNumber))
          queue (bytesAdded + remainingDataLen)
    else []

/-- For each frame of the first `k` packets, the active queue when it was produced. -/
def frameQueues (D : Dataset) (packetNumber : Nat) :
    Nat → Except PyError (List (List (Fin D.size)))
  | 0 => .ok []
  | k + 1 => do
    let queues ← frameQueues D packetNumber k
    let s ← replayPrefix .naiveRoundRobinScheduler D packetNumber k
    if isReplayFinished s.requestStatus then .ok queues
    else do
      let ready ← enqueueReady s
      .ok (queues ++ queuesAtFrames ready.packetNumber ready.filteredEntries
        ready.activeStreamQueue 0)

def queuesBehind : Nat → List (Fin n) → List (List (Fin n))
  | 0, _ => []
  | _, [] => []
  | m + 1, _ :: queue => queue :: queuesBehind m queue

theorem queuesAtFrames_eq
    (h : fillPacket packetNumber entries queue bytesAdded = .ok packet) :
    queuesAtFrames packetNumber entries queue bytesAdded =
      queuesBehind packet.recipe.length queue := by
  induction queue generalizing entries bytesAdded packet with
  | nil =>
    cases h
    rfl
  | cons i queue ih =>
    rw [fillPacket] at h
    rw [queuesAtFrames]
    split at h
    · rename_i hroom
      rw [if_pos hroom]
      dsimp only at h ⊢
      split at h
      · rename_i hlarge
        obtain ⟨remainingSize, -, hpacket⟩ := bind_eq_ok.mp h
        cases hpacket
        rw [if_pos hlarge]
        rfl
      · rename_i hsmall
        obtain ⟨rest, hrest, hpacket⟩ := bind_eq_ok.mp h
        cases hpacket
        rw [if_neg hsmall, ih hrest]
        rfl
    · rename_i hfull
      cases h
      rw [if_neg hfull]
      rfl

/-! ## Packets are turns -/

theorem roundRobin_serveAll {history : List (Service (Fin n))}
    {served rest : List (Fin n)} (h : RoundRobin history (served ++ rest)) :
    ∃ turns, RoundRobin (history ++ turns) rest ∧ turns.map Service.client = served ∧
      turns.map Service.waiting = queuesBehind served.length (served ++ rest) := by
  induction served generalizing history with
  | nil => exact ⟨[], by simpa using h, rfl, rfl⟩
  | cons i served ih =>
    have hfirst : RoundRobin (history ++ [⟨i, served ++ rest, true⟩]) (served ++ rest) :=
      .serve h true
    obtain ⟨turns, hturns, hclients, hwaiting⟩ := ih hfirst
    refine ⟨⟨i, served ++ rest, true⟩ :: turns, by simpa using hturns, ?_, ?_⟩
    · rw [List.map_cons, hclients]
    · rw [List.map_cons, hwaiting]
      rfl

private theorem queuesBehind_append (served : List (Fin n)) (i : Fin n) (rest : List (Fin n)) :
    queuesBehind (served.length + 1) (served ++ i :: rest) =
      queuesBehind served.length (served ++ i :: rest) ++ [rest] := by
  induction served with
  | nil => rfl
  | cons j served ih =>
    simp only [List.length_cons, List.cons_append, queuesBehind, ih]

theorem Packing.roundRobin {history : List (Service (Fin n))}
    (hpacking : Packing packetNumber entries queue bytesAdded packet)
    (h : RoundRobin history queue) :
    ∃ turns, RoundRobin (history ++ turns) packet.activeStreamQueue ∧
      turns.map (fun turn => (entries turn.client).resourceId) =
        packet.recipe.map Frame.resourceId ∧
      turns.map Service.waiting = queuesBehind packet.recipe.length queue := by
  cases hpacking with
  | whole served rest hqueue hfits hstop =>
    subst hqueue
    obtain ⟨turns, hturns, hclients, hwaiting⟩ := roundRobin_serveAll h
    refine ⟨turns, hturns, ?_, by simpa using hwaiting⟩
    simp [← hclients, lastFrame]
  | cut served i rest remainingSize hqueue hfits hroom hlarge hsub =>
    subst hqueue
    obtain ⟨turns, hturns, hclients, hwaiting⟩ := roundRobin_serveAll h
    refine ⟨turns ++ [⟨i, rest, false⟩], ?_, ?_, ?_⟩
    · have hlast : RoundRobin (history ++ turns ++ [⟨i, rest, false⟩]) (rest ++ [i]) :=
        .serve hturns false
      rwa [← List.append_assoc]
    · simp [← hclients, lastFrame]
    · rw [List.map_append, hwaiting, List.length_append, List.length_map]
      exact (queuesBehind_append served i rest).symm

/-! ## Runs -/

variable {D : Dataset}

structure Rotation (D : Dataset) (s : ReplayState D.size)
    (queues : List (List (Fin D.size))) (history : List (Service (Fin D.size))) :
    Prop where
  roundRobin : RoundRobin history s.activeStreamQueue
  frames : history.map (fun turn => (D.entry turn.client).resourceId) =
    s.replayLog.flatten.map Frame.resourceId
  queues : queues = history.map Service.waiting

variable {s : ReplayState D.size}

theorem Rotation.start (hstart : startReplay D packetNumber = .ok s) :
    Rotation D s [] [] := by
  obtain ⟨root, -, rfl⟩ := startReplay_cases hstart
  exact ⟨.arrive .start (by simp [Dataset.idle]) (by simp), rfl, rfl⟩

theorem Rotation.released {queues : List (List (Fin D.size))}
    {history : List (Service (Fin D.size))} (h : Rotation D s queues history)
    (hinv : QueueInvariant s) (hlog : LogInvariant s)
    (hrequest : ∀ i, (s.filteredEntries i).request = (D.entry i).request) :
    RoundRobin history (released s).activeStreamQueue := by
  refine .arrive h.roundRobin hinv.released.nodup fun turn hturn hready => ?_
  -- a stream that was served is not unavailable any more
  have hid : (D.entry turn.client).resourceId ∈ s.replayLog.flatten.map Frame.resourceId := by
    rw [← h.frames]
    exact List.mem_map_of_mem hturn
  obtain ⟨frame, hframe, hframeId⟩ := List.mem_map.mp hid
  rw [← resourceId_of_request (hrequest turn.client)] at hframeId
  exact hlog.touched turn.client ⟨frame, hframe, hframeId⟩ (statusOf_of_mem_newlyReady hready)

theorem Rotation.after_packet {queues : List (List (Fin D.size))}
    {history : List (Service (Fin D.size))} {packet : Composition D.size}
    (h : Rotation D s queues history) (hinv : QueueInvariant s) (hlog : LogInvariant s)
    (hrequest : ∀ i, (s.filteredEntries i).request = (D.entry i).request)
    (hpacket : fillPacket s.packetNumber (HarConverter.released s).filteredEntries
      (HarConverter.released s).activeStreamQueue 0 = .ok packet) :
    ∃ turns, Rotation D (recorded (HarConverter.released s) packet)
      (queues ++ queuesAtFrames s.packetNumber (HarConverter.released s).filteredEntries
        (HarConverter.released s).activeStreamQueue 0) (history ++ turns) := by
  have hpacking := fillPacket_packing hinv.released.nodup hpacket
  obtain ⟨turns, hturns, hframes, hwaiting⟩ :=
    hpacking.roundRobin (h.released hinv hlog hrequest)
  have hids : ∀ i, ((HarConverter.released s).filteredEntries i).resourceId =
      (D.entry i).resourceId := fun i =>
    resourceId_of_request ((released_request s i).trans (hrequest i))
  simp only [hids] at hframes
  refine ⟨turns, hturns, ?_, ?_⟩
  · rw [List.map_append, h.frames, hframes, recorded_replayLog, released_replayLog,
      List.flatten_append, List.map_append, List.flatten_singleton]
  · rw [List.map_append, h.queues, hwaiting, queuesAtFrames_eq hpacket]

theorem naive_implemented : SchedulerType.Implemented .naiveRoundRobinScheduler := trivial

theorem replayPrefix_rotation (hnum : Numbered D.entry) {k : Nat}
    (hrun : replayPrefix .naiveRoundRobinScheduler D packetNumber k = .ok s) :
    ∃ queues history, frameQueues D packetNumber k = .ok queues ∧
      Rotation D s queues history := by
  induction k generalizing s with
  | zero =>
    obtain ⟨start, hstart, hloop⟩ := bind_eq_ok.mp hrun
    cases hloop
    exact ⟨[], [], rfl, .start hstart⟩
  | succ k ih =>
    obtain ⟨t, ht, hlast⟩ := replayPrefix_succ_cases hrun
    obtain ⟨queues, history, hqueues, hrotation⟩ := ih ht
    rw [frameQueues, hqueues, ok_bind, ht, ok_bind]
    rcases hlast with ⟨hdone, rfl⟩ | ⟨hdone, hstep⟩
    · rw [if_pos hdone]
      exact ⟨queues, history, rfl, hrotation⟩
    · have hinv := replayPrefix_queueInvariant naive_implemented hnum ht
      have hlog := replayPrefix_logInvariant naive_implemented hnum ht
      have hrequest := replayPrefix_request naive_implemented hnum ht
      obtain ⟨ready, hready, hstep⟩ := bind_eq_ok.mp hstep
      obtain ⟨packet, hpacket, hrecord⟩ := bind_eq_ok.mp hstep
      rw [hdone, hready, ok_bind]
      obtain rfl := enqueueReady_eq hinv.numbered hready
      have hpacking := fillPacket_packing hinv.released.nodup hpacket
      obtain rfl := recordPacket_eq (hinv.released.numbered.congr hpacking.request) hrecord
      obtain ⟨turns, hturns⟩ := hrotation.after_packet hinv hlog hrequest hpacket
      exact ⟨_, history ++ turns, rfl, hturns⟩

/--
Between two frames of a stream, everybody who waited when the first one was produced has a
frame, and nobody has two.
-/
theorem naive_fair (hnum : Numbered D.entry) {k : Nat} {s : ReplayState D.size}
    (hrun : replayPrefix .naiveRoundRobinScheduler D packetNumber k = .ok s)
    {before between after : List Frame} {first next : Frame}
    (hlog : s.replayLog.flatten = before ++ first :: between ++ next :: after)
    (hnext : next.resourceId = first.resourceId)
    (hbetween : ∀ frame ∈ between, frame.resourceId ≠ first.resourceId) :
    ∃ queues queue, frameQueues D packetNumber k = .ok queues ∧
      queues[before.length]? = some queue ∧
      (∀ i ∈ queue, (D.entry i).resourceId ≠ first.resourceId →
        ∃ frame ∈ between, frame.resourceId = (D.entry i).resourceId) ∧
      ∀ id, between.countP (·.resourceId = id) ≤ 1 := by
  obtain ⟨queues, history, hqueues, hrotation⟩ := replayPrefix_rotation hnum hrun
  have hsplit := hrotation.frames
  rw [hlog, List.map_append, List.map_append, List.map_cons, List.map_cons,
    List.map_eq_append_iff] at hsplit
  obtain ⟨upto, later, rfl, hupto, hlater⟩ := hsplit
  obtain ⟨service', later, rfl, hservice', hlater⟩ := List.map_eq_cons_iff.mp hlater
  obtain ⟨earlier, rest, rfl, hearlier, hrest⟩ := List.map_eq_append_iff.mp hupto
  obtain ⟨service, since, rfl, hservice, hsince⟩ := List.map_eq_cons_iff.mp hrest
  have hwaiting : since.map Service.client = service.waiting := by
    refine hrotation.roundRobin.between rfl ?_ ?_
    · exact hnum.injective (hservice'.trans (hnext.trans hservice.symm))
    · intro turn hturn hclient
      have hid : (D.entry turn.client).resourceId ∈ between.map Frame.resourceId := by
        rw [← hsince]
        exact List.mem_map_of_mem hturn
      obtain ⟨frame, hframe, hframeId⟩ := List.mem_map.mp hid
      refine hbetween frame hframe ?_
      rw [hframeId, hclient, hservice]
  have hids : between.map Frame.resourceId =
      service.waiting.map fun i => (D.entry i).resourceId := by
    rw [← hsince, ← hwaiting, List.map_map]
    rfl
  have hlength : earlier.length = before.length := by
    simpa using congrArg List.length hearlier
  refine ⟨queues, service.waiting, hqueues, ?_, ?_, ?_⟩
  · rw [hrotation.queues, ← hlength]
    simp
  · intro i hi _
    have hmem : (D.entry i).resourceId ∈ between.map Frame.resourceId := by
      rw [hids]
      exact List.mem_map_of_mem hi
    obtain ⟨frame, hframe, hid⟩ := List.mem_map.mp hmem
    exact ⟨frame, hframe, hid⟩
  · intro id
    have hnodup : (between.map Frame.resourceId).Nodup := by
      rw [hids]
      exact (hrotation.roundRobin.waiting_nodup (by simp)).map hnum.injective
    have honce := List.nodup_iff_count_le_one.mp hnodup id
    rw [List.count_eq_countP, List.countP_map] at honce
    exact honce

theorem naive_fair_samplePage : ∃ s queues queue,
    replayPrefix .naiveRoundRobinScheduler samplePage 0 6 = .ok s ∧
      frameQueues samplePage 0 6 = .ok queues ∧ queues[3]? = some queue ∧
      ∀ i ∈ queue, (samplePage.entry i).resourceId ≠ 2 →
        ∃ frame ∈ [(⟨3, 1200, false⟩ : Frame)],
          frame.resourceId = (samplePage.entry i).resourceId := by
  obtain ⟨s, hrun, hlog⟩ := map_eq_ok
    (x := replayPrefix .naiveRoundRobinScheduler samplePage 0 6)
    (f := fun s => s.replayLog.flatten)
    (b := [⟨0, 1200, false⟩, ⟨0, 300, true⟩, ⟨1, 0, true⟩] ++ ⟨2, 1200, false⟩ ::
      [⟨3, 1200, false⟩] ++ ⟨2, 1200, false⟩ :: []) (by decide +kernel)
  obtain ⟨queues, queue, hqueues, hqueue, hserved, -⟩ :=
    naive_fair (by decide) hrun hlog rfl (by simp)
  exact ⟨s, queues, queue, hrun, hqueues, hqueue, hserved⟩

end Qperf.HarConverter
