import Qperf.Foundation.Components
import Qperf.Foundation.Traces
import Qperf.Quic.Framer

/-!
# Send streams that share the window of the connection

The streams are numbered in the order in which they are opened, and any stream may be
asked for a frame at any time.  `reports` are the offsets for which `IsNewlyBlocked`
said that a controller is blocked.
-/

namespace Qperf.Quic

open Qperf.Foundation

structure SendSystem where
  streams : List SendStream
  connection : SendController
  reports : List (ControllerID × Nat)

inductive WindowEvent where
  | openStream (id : StreamID) (initialSendWindow : Nat)
  | onStream (index : Nat) (operation : StreamOperation)
  | popStreamFrame (index : Nat) (maxBytes : Nat)
  | handleMaxDataFrame (byteOffset : Nat)
  | isNewlyBlocked

def ControlFrame.blockedOffset? : ControlFrame → Option Nat
  | .streamDataBlocked _ offset => some offset
  | _ => none

namespace SendSystem

def new (initialSendWindow : Nat) : SendSystem where
  streams := []
  connection := .new initialSendWindow
  reports := []

def setStream (s : SendSystem) (index : Nat) (t : SendStream) : SendSystem :=
  { s with streams := s.streams.set index t }

def afterPop (s : SendSystem) (index : Nat) (popped : SendStream.Popped) :
    SendSystem where
  streams := s.streams.set index popped.stream
  connection := popped.connection
  reports := s.reports ++ popped.controlFrames.filterMap fun frame =>
      frame.blockedOffset?.map fun offset => (.stream index, offset)

def step (s : SendSystem) : WindowEvent → Except GoPanic SendSystem
  | .openStream id initialSendWindow =>
    .ok { s with streams := s.streams ++ [.new id initialSendWindow] }
  | .onStream index operation =>
    match s.streams[index]? with
    | none => .ok s
    | some t => do
      let outcome ← t.perform operation
      return s.setStream index outcome.stream
  | .popStreamFrame index maxBytes =>
    match s.streams[index]? with
    | none => .ok s
    | some t => do
      let popped ← t.popStreamFrame s.connection maxBytes
      return s.afterPop index popped
  | .handleMaxDataFrame byteOffset =>
    .ok { s with connection := s.connection.updateSendWindow byteOffset }
  | .isNewlyBlocked =>
    match s.connection.isNewlyBlocked with
    | none => .ok s
    | some (offset, connection) =>
      .ok { s with
        connection
        reports := s.reports ++ [(.connection, offset)] }

def controller (s : SendSystem) : ControllerID → Option SendController
  | .connection => some s.connection
  | .stream index => s.streams[index]?.map (·.flowController)

end SendSystem

/-! ## What the operations do to the windows -/

namespace SendController

variable {c : SendController}

structure Within (c : SendController) : Prop where
  sent : c.bytesSent ≤ c.sendWindow
  blocked : c.lastBlockedAt ≤ c.sendWindow

theorem within_new (initialSendWindow : Nat) : (new initialSendWindow).Within :=
  ⟨Nat.zero_le _, Nat.zero_le _⟩

theorem bytesSent_updateSendWindow (c : SendController) (offset : Nat) :
    (c.updateSendWindow offset).bytesSent = c.bytesSent := by
  rw [updateSendWindow]
  split <;> rfl

theorem lastBlockedAt_updateSendWindow (c : SendController) (offset : Nat) :
    (c.updateSendWindow offset).lastBlockedAt = c.lastBlockedAt := by
  rw [updateSendWindow]
  split <;> rfl

private theorem sendWindow_updateSendWindow (c : SendController) (offset : Nat) :
    (c.updateSendWindow offset).sendWindow = max c.sendWindow offset := by
  rw [updateSendWindow]
  split
  · next h => exact (max_eq_right (Nat.le_of_lt h)).symm
  · next h => exact (max_eq_left (Nat.le_of_not_lt h)).symm

theorem Within.updateSendWindow (h : c.Within) (offset : Nat) :
    (c.updateSendWindow offset).Within := by
  constructor
  · rw [bytesSent_updateSendWindow, sendWindow_updateSendWindow]
    exact Nat.le_trans h.sent (Nat.le_max_left ..)
  · rw [lastBlockedAt_updateSendWindow, sendWindow_updateSendWindow]
    exact Nat.le_trans h.blocked (Nat.le_max_left ..)

theorem Within.addBytesSent (h : c.Within) {n : Nat} (hn : n ≤ c.sendWindowSize) :
    (c.addBytesSent n).Within := by
  have hle := h.sent
  rw [sendWindowSize, if_neg (by omega)] at hn
  refine ⟨?_, h.blocked⟩
  change c.bytesSent + n ≤ c.sendWindow
  omega

theorem Within.reported (h : c.Within) :
    { c with lastBlockedAt := c.sendWindow }.Within :=
  ⟨h.sent, Nat.le_refl _⟩

theorem Within.lt_of_blocked (h : c.Within) (hblocked : c.Blocked) :
    c.lastBlockedAt < c.sendWindow :=
  Nat.lt_of_le_of_ne h.blocked (Ne.symm hblocked.2)

end SendController

namespace SendStream

variable {t : SendStream} {connection : SendController}

structure Counted (t : SendStream) : Prop where
  offset : t.writeOffset = t.flowController.bytesSent
  within : t.flowController.Within

private theorem counted_new (id : StreamID) (initialSendWindow : Nat) :
    (new id initialSendWindow).Counted :=
  ⟨rfl, SendController.within_new initialSendWindow⟩

structure SameFlow (t t' : SendStream) : Prop where
  writeOffset : t'.writeOffset = t.writeOffset
  flowController : t'.flowController = t.flowController

theorem SameFlow.refl (t : SendStream) : SameFlow t t := ⟨rfl, rfl⟩

theorem SameFlow.trans {t₁ t₂ t₃ : SendStream} (h : SameFlow t₁ t₂)
    (h' : SameFlow t₂ t₃) : SameFlow t₁ t₃ :=
  ⟨h'.writeOffset.trans h.writeOffset, h'.flowController.trans h.flowController⟩

theorem sameFlow_markCompleted (t : SendStream) : SameFlow t t.markCompleted := by
  rw [markCompleted]
  split <;> exact ⟨rfl, rfl⟩

private theorem sameFlow_write (t : SendStream) (p : List UInt8) :
    SameFlow t (t.write p).stream := by
  rw [write]
  split
  · exact .refl t
  · split
    · exact .refl t
    · split
      · exact .refl t
      · split <;> exact ⟨rfl, rfl⟩

theorem sameFlow_cancelWriteImpl (t : SendStream) (errorCode : Nat) (writeErr : StreamError) :
    SameFlow t (t.cancelWriteImpl errorCode writeErr).stream := by
  rw [cancelWriteImpl]
  split
  · exact .refl t
  · have h := sameFlow_markCompleted
      { t with canceledWrite := true, cancelWriteErr := some writeErr }
    exact ⟨h.writeOffset, h.flowController⟩

private theorem sameFlow_dropOutstanding {t' : SendStream}
    (h : t.dropOutstanding = .ok t') : SameFlow t t' := by
  rw [dropOutstanding] at h
  split at h
  · cases h
  · cases h
    exact ⟨rfl, rfl⟩

theorem perform_flow {operation : StreamOperation} {outcome : Outcome}
    (h : t.perform operation = .ok outcome) :
    SameFlow t outcome.stream ∨
      ∃ offset, operation = .handleMaxStreamDataFrame offset ∧
        outcome = t.handleMaxStreamDataFrame offset := by
  cases operation with
  | write p =>
    cases h
    exact .inl (sameFlow_write t p)
  | writeDeadlineExceeded =>
    cases h
    exact .inl ⟨rfl, rfl⟩
  | close =>
    cases h
    rw [close]
    split <;> exact .inl ⟨rfl, rfl⟩
  | cancelWrite errorCode | handleStopSendingFrame errorCode =>
    cases h
    exact .inl (sameFlow_cancelWriteImpl ..)
  | closeForShutdown err =>
    cases h
    exact .inl ⟨rfl, rfl⟩
  | handleMaxStreamDataFrame offset =>
    cases h
    exact .inr ⟨offset, rfl, rfl⟩
  | frameAcked =>
    obtain ⟨dropped, hdropped, h⟩ := bind_eq_ok.mp h
    cases h
    exact .inl ((sameFlow_dropOutstanding hdropped).trans (sameFlow_markCompleted dropped))
  | frameLost f =>
    obtain ⟨dropped, hdropped, h⟩ := bind_eq_ok.mp h
    cases h
    exact .inl ((sameFlow_dropOutstanding hdropped).trans ⟨rfl, rfl⟩)

inductive PopFlow (t : SendStream) (connection : SendController) : Popped → Prop where
  | taken {popped : Popped} {n : Nat} (hn : n ≤ t.sendWindowSize connection)
      (hoffset : popped.stream.writeOffset = t.writeOffset + n)
      (hstream :
        popped.stream.flowController = t.flowController.addBytesSent n)
      (hconnection : popped.connection = connection.addBytesSent n)
      (hframes : popped.controlFrames = []) : PopFlow t connection popped
  | reported {popped : Popped} (hblocked : t.flowController.Blocked)
      (hoffset : popped.stream.writeOffset = t.writeOffset)
      (hstream : popped.stream.flowController =
        { t.flowController with lastBlockedAt := t.flowController.sendWindow })
      (hconnection : popped.connection = connection)
      (hframes : popped.controlFrames =
        [.streamDataBlocked t.streamID t.flowController.sendWindow]) :
      PopFlow t connection popped

variable {popped : Popped}

theorem PopFlow.unchanged (hsame : SameFlow t popped.stream)
    (hconnection : popped.connection = connection)
    (hframes : popped.controlFrames = []) : PopFlow t connection popped :=
  .taken (n := 0) (Nat.zero_le _) hsame.writeOffset hsame.flowController
    hconnection hframes

theorem sameFlow_popRetransmission {maxBytes : Nat} {f : StreamFrame} {rest : List StreamFrame}
    (h : PopRetransmission t connection maxBytes f rest popped) :
    SameFlow t popped.stream ∧ popped.connection = connection ∧ popped.controlFrames = [] := by
  cases h with
  | tooSmall => exact ⟨.refl t, rfl, rfl⟩
  | split | fits => exact ⟨⟨rfl, rfl⟩, rfl, rfl⟩

private theorem popNew_flow {room : Nat}
    (h : PopNew t connection room popped) : PopFlow t connection popped := by
  cases h with
  | noRoom | idle => exact .unchanged (.refl t) rfl rfl
  | fin => exact .unchanged ⟨rfl, rfl⟩ rfl rfl
  | newlyBlocked hroom hdata hblocked => exact .reported hblocked rfl rfl rfl rfl
  | blocked => exact .unchanged (.refl t) rfl rfl
  | @data data n hdata hn =>
    -- The frame has at most `n` bytes, and `n` is at most either window.
    have hlength : (data.1.take n).length ≤ t.sendWindowSize connection := by
      rw [List.length_take]
      omega
    exact .taken hlength rfl rfl rfl rfl

private theorem popStreamFrame_flow {maxBytes : Nat}
    (h : t.popStreamFrame connection maxBytes = .ok popped) :
    PopFlow t connection popped := by
  cases popStreamFrame_cases h with
  | retransmission hqueue hpop =>
    obtain ⟨hsame, hconnection, hframes⟩ := sameFlow_popRetransmission hpop
    exact .unchanged hsame hconnection hframes
  | stopped hqueue hwritable hpop =>
    subst hpop
    exact .unchanged (.refl t) rfl rfl
  | new hqueue hwritable hroom hpop => exact popNew_flow hpop

end SendStream

/-! ## The invariant -/

namespace SendSystem

variable {s s' : SendSystem}

structure Sound (s : SendSystem) : Prop where
  streams : ∀ (i : Nat) (t : SendStream), s.streams[i]? = some t → t.Counted
  connection : s.connection.Within
  total : s.connection.bytesSent = (s.streams.map (·.flowController.bytesSent)).sum
  reported : ∀ r offset, (r, offset) ∈ s.reports →
    ∃ c, s.controller r = some c ∧ offset ≤ c.lastBlockedAt
  once : s.reports.Nodup

private theorem sound_new (initialSendWindow : Nat) : (new initialSendWindow).Sound where
  streams := by
    intro i t ht
    cases ht
  connection := SendController.within_new initialSendWindow
  total := rfl
  reported := by
    intro r offset hmem
    cases hmem
  once := .nil

section

variable (h : s.Sound)
include h

theorem Sound.notMem_reports {r : ControllerID} {c : SendController}
    {offset : Nat} (hc : s.controller r = some c) (hlt : c.lastBlockedAt < offset) :
    (r, offset) ∉ s.reports := by
  intro hmem
  obtain ⟨c', hc', hle⟩ := h.reported r offset hmem
  rw [hc] at hc'
  cases hc'
  exact Nat.not_lt.mpr hle hlt

theorem Sound.reported_mono {s' : SendSystem}
    (hreports : s'.reports = s.reports) (hmono : ∀ r c, s.controller r = some c →
      ∃ c', s'.controller r = some c' ∧ c.lastBlockedAt ≤ c'.lastBlockedAt) :
    ∀ r offset, (r, offset) ∈ s'.reports →
      ∃ c, s'.controller r = some c ∧ offset ≤ c.lastBlockedAt := by
  intro r offset hmem
  rw [hreports] at hmem
  obtain ⟨c, hc, hle⟩ := h.reported r offset hmem
  obtain ⟨c', hc', hmono⟩ := hmono r c hc
  exact ⟨c', hc', Nat.le_trans hle hmono⟩

theorem Sound.report {r : ControllerID} {c : SendController}
    {offset : Nat} (hc : s.controller r = some c) (hle : offset ≤ c.lastBlockedAt)
    (hnew : (r, offset) ∉ s.reports) :
    { s with reports := s.reports ++ [(r, offset)] }.Sound where
  __ := h
  reported := by
    intro r' offset' hmem
    rcases List.mem_append.mp hmem with hmem | hmem
    · exact h.reported r' offset' hmem
    · cases List.mem_singleton.mp hmem
      exact ⟨c, hc, hle⟩
  once := by
    refine List.nodup_append.mpr ⟨h.once, List.nodup_singleton _, ?_⟩
    intro a ha b hb
    cases List.mem_singleton.mp hb
    rintro rfl
    exact hnew ha

theorem Sound.replace {i n : Nat} {t t' : SendStream}
    {connection : SendController} (ht : s.streams[i]? = some t)
    (hcounted : t'.Counted)
    (hsent : t'.flowController.bytesSent = t.flowController.bytesSent + n)
    (hlast : t.flowController.lastBlockedAt ≤ t'.flowController.lastBlockedAt)
    (hn : n ≤ s.connection.sendWindowSize)
    (hconnection : connection = s.connection.addBytesSent n) :
    { s with streams := s.streams.set i t', connection }.Sound where
  streams := forall_getElem?_set h.streams hcounted
  connection := hconnection ▸ h.connection.addBytesSent hn
  total := by
    have hsum := sum_map_set (b := t') (fun t : SendStream => t.flowController.bytesSent) ht
    have htotal := h.total
    subst hconnection
    simp only [SendController.addBytesSent]
    omega
  reported := by
    refine h.reported_mono rfl ?_
    intro r c hc
    cases r with
    | connection =>
      cases hc
      exact ⟨connection, rfl, hconnection ▸ Nat.le_refl _⟩
    | stream j =>
      obtain ⟨u, hu, rfl⟩ := Option.map_eq_some_iff.mp hc
      obtain ⟨u', hu', hle⟩ := exists_getElem?_set
        (R := fun u u' : SendStream =>
          u.flowController.lastBlockedAt ≤ u'.flowController.lastBlockedAt)
        (fun _ => Nat.le_refl _) ht hlast hu
      exact ⟨u'.flowController, by simp only [controller, hu', Option.map_some], hle⟩
  once := h.once

theorem Sound.openStream (id : StreamID) (initialSendWindow : Nat) :
    { s with streams := s.streams ++ [SendStream.new id initialSendWindow] }.Sound where
  streams := forall_getElem?_append h.streams (SendStream.counted_new ..)
  __ := h
  total := by
    rw [List.map_append, List.sum_append]
    exact h.total
  reported := by
    refine h.reported_mono rfl ?_
    intro r c hc
    cases r with
    | connection => exact ⟨c, hc, Nat.le_refl _⟩
    | stream j =>
      obtain ⟨u, hu, rfl⟩ := Option.map_eq_some_iff.mp hc
      have hlt := (List.getElem?_eq_some_iff.mp hu).1
      refine ⟨u.flowController, ?_, Nat.le_refl _⟩
      simp only [controller, List.getElem?_append_left hlt, hu, Option.map_some]

theorem Sound.setConnection {connection : SendController}
    (hwithin : connection.Within)
    (hsent : connection.bytesSent = s.connection.bytesSent)
    (hlast : s.connection.lastBlockedAt ≤ connection.lastBlockedAt) :
    { s with connection }.Sound where
  __ := h
  connection := hwithin
  total := hsent.trans h.total
  reported := by
    refine h.reported_mono rfl ?_
    intro r c hc
    cases r with
    | connection =>
      cases hc
      exact ⟨connection, rfl, hlast⟩
    | stream j => exact ⟨c, hc, Nat.le_refl _⟩

theorem Sound.perform {i : Nat} {t : SendStream}
    {operation : StreamOperation} {outcome : Outcome} (ht : s.streams[i]? = some t)
    (hperform : t.perform operation = .ok outcome) :
    (s.setStream i outcome.stream).Sound := by
  have hcounted := h.streams i t ht
  rcases SendStream.perform_flow hperform with hsame | ⟨offset, rfl, rfl⟩
  · refine h.replace (n := 0) ht ⟨?_, ?_⟩ ?_ ?_ (Nat.zero_le _) rfl
    · rw [hsame.writeOffset, hsame.flowController]
      exact hcounted.offset
    · rw [hsame.flowController]
      exact hcounted.within
    · rw [hsame.flowController, Nat.add_zero]
    · rw [hsame.flowController]
  · have hsent := t.flowController.bytesSent_updateSendWindow offset
    have hlast := t.flowController.lastBlockedAt_updateSendWindow offset
    exact h.replace (n := 0) ht
      ⟨hcounted.offset.trans hsent.symm, hcounted.within.updateSendWindow offset⟩
      hsent (Nat.le_of_eq hlast.symm) (Nat.zero_le _) rfl

theorem Sound.pop {i maxBytes : Nat} {t : SendStream}
    {popped : SendStream.Popped} (ht : s.streams[i]? = some t)
    (hpop : t.popStreamFrame s.connection maxBytes = .ok popped) :
    (s.afterPop i popped).Sound := by
  have hcounted := h.streams i t ht
  cases SendStream.popStreamFrame_flow hpop with
  | @taken n hn hoffset hstream hconnection hframes =>
    have hown : n ≤ t.flowController.sendWindowSize := Nat.le_trans hn (Nat.min_le_left ..)
    have hshared : n ≤ s.connection.sendWindowSize := Nat.le_trans hn (Nat.min_le_right ..)
    have hnext : popped.stream.Counted := by
      constructor
      · rw [hoffset, hstream, hcounted.offset]
        rfl
      · rw [hstream]
        exact hcounted.within.addBytesSent hown
    have hsound := h.replace ht hnext (by rw [hstream]; rfl)
      (by rw [hstream]; exact Nat.le_refl _) hshared hconnection
    simpa only [afterPop, hframes, List.filterMap_nil, List.append_nil] using hsound
  | reported hblocked hoffset hstream hconnection hframes =>
    have hfresh : (ControllerID.stream i, t.flowController.sendWindow) ∉ s.reports := by
      refine h.notMem_reports ?_ (hcounted.within.lt_of_blocked hblocked)
      simp only [controller, ht, Option.map_some]
    have hnext : popped.stream.Counted := by
      constructor
      · rw [hoffset, hstream]
        exact hcounted.offset
      · rw [hstream]
        exact hcounted.within.reported
    have hsound := h.replace (n := 0) ht hnext (by rw [hstream, Nat.add_zero])
      (by rw [hstream]; exact hcounted.within.blocked) (Nat.zero_le _) hconnection
    have hget : (s.streams.set i popped.stream)[i]? = some popped.stream :=
      List.getElem?_set_self (List.getElem?_eq_some_iff.mp ht).1
    have hreport := hsound.report (r := .stream i)
      (c := popped.stream.flowController)
      (by simp only [controller, hget, Option.map_some])
      (by rw [hstream]) hfresh
    simpa only [afterPop, hframes, ControlFrame.blockedOffset?,
      List.filterMap_cons, Option.map_some, List.filterMap_nil] using hreport

theorem Sound.isNewlyBlocked (hstep : s.step .isNewlyBlocked = .ok s') :
    s'.Sound := by
  rw [step] at hstep
  by_cases hblocked : s.connection.Blocked
  · rw [SendController.isNewlyBlocked_of_blocked hblocked] at hstep
    cases hstep
    have hfresh := h.notMem_reports (r := .connection) rfl
      (h.connection.lt_of_blocked hblocked)
    have hnext := h.setConnection h.connection.reported rfl h.connection.blocked
    exact hnext.report (r := .connection) rfl (Nat.le_refl _) hfresh
  · rw [SendController.isNewlyBlocked_of_not_blocked hblocked] at hstep
    cases hstep
    exact h

theorem Sound.step {event : WindowEvent}
    (hstep : s.step event = .ok s') : s'.Sound := by
  cases event with
  | openStream id initialSendWindow =>
    cases hstep
    exact h.openStream id initialSendWindow
  | onStream i operation =>
    rw [SendSystem.step] at hstep
    cases ht : s.streams[i]? with
    | none =>
      rw [ht] at hstep
      cases hstep
      exact h
    | some t =>
      rw [ht] at hstep
      obtain ⟨outcome, hperform, hstep⟩ := bind_eq_ok.mp hstep
      cases hstep
      exact h.perform ht hperform
  | popStreamFrame i maxBytes =>
    rw [SendSystem.step] at hstep
    cases ht : s.streams[i]? with
    | none =>
      rw [ht] at hstep
      cases hstep
      exact h
    | some t =>
      rw [ht] at hstep
      obtain ⟨popped, hpop, hstep⟩ := bind_eq_ok.mp hstep
      cases hstep
      exact h.pop ht hpop
  | handleMaxDataFrame byteOffset =>
    cases hstep
    exact h.setConnection (h.connection.updateSendWindow byteOffset)
      (SendController.bytesSent_updateSendWindow ..)
      (Nat.le_of_eq (SendController.lastBlockedAt_updateSendWindow ..).symm)
  | isNewlyBlocked => exact h.isNewlyBlocked hstep

end

/-! ## Retransmissions -/

def Retransmits (s : SendSystem) : WindowEvent → Prop
  | .onStream _ (.frameLost _) => True
  | .popStreamFrame i _ =>
    ∃ t, s.streams[i]? = some t ∧ t.retransmissionQueue ≠ []
  | _ => False

def flow (s : SendSystem) : List (Nat × SendController) × SendController :=
  (s.streams.map fun t => (t.writeOffset, t.flowController), s.connection)

private theorem flow_setStream {i : Nat} {t t' : SendStream} (ht : s.streams[i]? = some t)
    (hsame : t.SameFlow t') : (s.setStream i t').flow = s.flow := by
  have hmap : (s.streams.set i t').map (fun t => (t.writeOffset, t.flowController)) =
      s.streams.map fun t => (t.writeOffset, t.flowController) := by
    obtain ⟨hlt, hget⟩ := List.getElem?_eq_some_iff.mp ht
    rw [List.map_set, hsame.writeOffset, hsame.flowController, ← hget]
    rw [← List.getElem_map (fun t : SendStream => (t.writeOffset, t.flowController)),
      List.set_getElem_self]
    simpa using hlt
  simp only [flow, setStream, hmap]

theorem flow_retransmits {event : WindowEvent} (h : s.Retransmits event)
    (hstep : s.step event = .ok s') : s'.flow = s.flow := by
  cases event with
  | onStream i operation =>
    rw [step] at hstep
    cases ht : s.streams[i]? with
    | none =>
      rw [ht] at hstep
      cases hstep
      rfl
    | some t =>
      rw [ht] at hstep
      obtain ⟨outcome, hperform, hstep⟩ := bind_eq_ok.mp hstep
      cases hstep
      rcases SendStream.perform_flow hperform with hsame | ⟨offset, rfl, -⟩
      · exact flow_setStream ht hsame
      · cases h
  | popStreamFrame i maxBytes =>
    obtain ⟨t, ht, hqueue⟩ := h
    simp only [step, ht] at hstep
    obtain ⟨popped, hpop, hstep⟩ := bind_eq_ok.mp hstep
    cases hstep
    cases SendStream.popStreamFrame_cases hpop with
    | retransmission hcons hpop =>
      obtain ⟨hsame, hconnection, -⟩ := SendStream.sameFlow_popRetransmission hpop
      have hflow := flow_setStream ht hsame
      simp only [flow, setStream, afterPop, hconnection] at hflow ⊢
      exact hflow
    | stopped hnil | new hnil => exact absurd hnil hqueue
  | openStream | handleMaxDataFrame | isNewlyBlocked => cases h

/-! ## Runs -/

theorem sendWindows_respected {initialSendWindow : Nat} {events : List WindowEvent}
    (h : Trace (fun s event s' => step s event = .ok s') (new initialSendWindow) events s) :
    (∀ t ∈ s.streams, t.writeOffset = t.flowController.bytesSent ∧
      t.writeOffset ≤ t.flowController.sendWindow) ∧
    s.connection.bytesSent = (s.streams.map (·.flowController.bytesSent)).sum ∧
    s.connection.bytesSent ≤ s.connection.sendWindow ∧ s.reports.Nodup ∧
    ∀ event s', s.Retransmits event → s.step event = .ok s' → s'.flow = s.flow := by
  have hsound : s.Sound :=
    h.invariant Sound (sound_new initialSendWindow) fun _ _ _ hs hstep => hs.step hstep
  refine ⟨?_, hsound.total, hsound.connection.sent, hsound.once,
    fun event s' => flow_retransmits⟩
  intro t ht
  obtain ⟨i, hi⟩ := List.mem_iff_getElem?.mp ht
  have hcounted := hsound.streams i t hi
  exact ⟨hcounted.offset, hcounted.offset ▸ hcounted.within.sent⟩

def contendingStreams : List WindowEvent :=
  [.openStream 0 4, .openStream 4 10, .onStream 0 (.write [1, 2, 3, 4, 5]),
    .onStream 1 (.write [6, 7, 8, 9]), .popStreamFrame 0 100, .popStreamFrame 0 100,
    .popStreamFrame 1 100, .isNewlyBlocked, .isNewlyBlocked, .handleMaxDataFrame 3,
    .onStream 0 (.frameLost ⟨0, 0, [1, 2, 3, 4], false, true⟩)]

theorem sendWindows_respected_contending : ∃ s : SendSystem,
    s.streams.map (·.writeOffset) = [4, 2] ∧ s.connection.bytesSent = 6 ∧
    s.reports = [(.stream 0, 4), (.connection, 6)] ∧
    (∀ t ∈ s.streams, t.writeOffset ≤ t.flowController.sendWindow) ∧
    ∀ s', s.step (.popStreamFrame 0 100) = .ok s' → s'.flow = s.flow := by
  have hrun : (contendingStreams.foldlM step (new 6)).map (fun s : SendSystem =>
      (s.streams.map (·.writeOffset), s.connection.bytesSent, s.reports,
        s.streams[0]?.map (·.retransmissionQueue.length))) =
      .ok ([4, 2], 6, [(.stream 0, 4), (.connection, 6)], some 1) := by
    decide +kernel
  obtain ⟨s, hs, hobserved⟩ := map_eq_ok hrun
  simp only [Prod.mk.injEq, Option.map_eq_some_iff] at hobserved
  obtain ⟨hoffsets, hsent, hreports, t, ht, hlength⟩ := hobserved
  have hqueue : t.retransmissionQueue ≠ [] := by
    intro hnil
    rw [hnil] at hlength
    cases hlength
  obtain ⟨hstreams, -, -, -, hretransmits⟩ := sendWindows_respected (Trace.of_foldlM_ok hs)
  exact ⟨s, hoffsets, hsent, hreports, fun t ht => (hstreams t ht).2,
    fun s' => hretransmits (.popStreamFrame 0 100) s' ⟨t, ht, hqueue⟩⟩

end SendSystem

end Qperf.Quic
