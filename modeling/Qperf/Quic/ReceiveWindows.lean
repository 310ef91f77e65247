import Qperf.Foundation.Components
import Qperf.Foundation.Traces
import Qperf.Quic.ReceiveControl

/-!
# The receive windows of a connection

The controller of the connection and those of its streams, which are numbered in the
order in which they are created, under any sequence of calls that return no error.
-/

namespace Qperf.Quic

open Qperf.Foundation

/-- `advertised` are the initial windows and the offsets of the window updates. -/
structure ReceiveSystem where
  streams : List StreamController
  connection : ReceiveController
  advertised : List (ControllerID × Nat)

inductive ReceiveEvent where
  | openStream (id : StreamID) (receiveWindow maxReceiveWindow : Nat)
  | updateHighestReceived (index offset : Nat) (final : Bool)
  | addBytesRead (controller : ControllerID) (n : Nat)
  | getWindowUpdate (controller : ControllerID) (timing : Timing)

namespace ReceiveSystem

def new (receiveWindow maxReceiveWindow : Nat) : ReceiveSystem where
  streams := []
  connection := .new receiveWindow maxReceiveWindow
  advertised := [(.connection, receiveWindow)]

def advertise (s : ReceiveSystem) (id : ControllerID) (offset : Nat) :
    ReceiveSystem :=
  if offset = 0 then s else { s with advertised := s.advertised ++ [(id, offset)] }

def setStream (s : ReceiveSystem) (index : Nat)
    (result : StreamController × ReceiveController) : ReceiveSystem :=
  { s with streams := s.streams.set index result.1, connection := result.2 }

def step (convert : Nat → Nat) (s : ReceiveSystem) :
    ReceiveEvent → Except FlowError ReceiveSystem
  | .openStream id receiveWindow maxReceiveWindow =>
    .ok { s with
      streams := s.streams ++ [.new id receiveWindow maxReceiveWindow]
      advertised := s.advertised ++ [(.stream s.streams.length, receiveWindow)] }
  | .updateHighestReceived index offset final =>
    match s.streams[index]? with
    | none => .ok s
    | some c => do
      let result ← c.updateHighestReceived s.connection offset final
      return s.setStream index result
  | .addBytesRead .connection n =>
    .ok { s with connection := s.connection.addBytesRead n }
  | .addBytesRead (.stream index) n =>
    match s.streams[index]? with
    | none => .ok s
    | some c => .ok (s.setStream index (c.addBytesRead s.connection n))
  | .getWindowUpdate .connection timing =>
    let update := s.connection.getWindowUpdate timing
    .ok (advertise { s with connection := update.1 } .connection update.2)
  | .getWindowUpdate (.stream index) timing =>
    match s.streams[index]? with
    | none => .ok s
    | some c =>
      let update := c.getWindowUpdate convert s.connection timing
      .ok ((s.setStream index update.1).advertise (.stream index) update.2)

/-- Windows are created as they should be, and no more is read than was received. -/
def Admits (s : ReceiveSystem) : ReceiveEvent → Prop
  | .openStream _ receiveWindow maxReceiveWindow => receiveWindow ≤ maxReceiveWindow
  | .addBytesRead .connection n =>
    s.connection.bytesRead + n ≤ s.connection.highestReceived
  | .addBytesRead (.stream index) n =>
    s.connection.bytesRead + n ≤ s.connection.highestReceived ∧
      ∀ c ∈ s.streams[index]?, c.bytesRead + n ≤ c.highestReceived
  | _ => True

/-- No number exceeds what the wire format can carry. -/
def Bounded (s : ReceiveSystem) : ReceiveEvent → Prop
  | .openStream _ _ maxReceiveWindow => maxReceiveWindow ≤ maxByteCount
  | .updateHighestReceived _ offset _ => offset ≤ maxByteCount
  | .addBytesRead _ n => s.connection.bytesRead + n ≤ maxByteCount
  | .getWindowUpdate .. => True

instance (s : ReceiveSystem) : (event : ReceiveEvent) → Decidable (s.Admits event)
  | .openStream .. => inferInstanceAs (Decidable (_ ≤ _))
  | .updateHighestReceived .. => inferInstanceAs (Decidable True)
  | .addBytesRead .connection _ => inferInstanceAs (Decidable (_ ≤ _))
  | .addBytesRead (.stream index) n => inferInstanceAs (Decidable (_ ≤ _ ∧
      ∀ c ∈ s.streams[index]?, c.bytesRead + n ≤ c.highestReceived))
  | .getWindowUpdate .. => inferInstanceAs (Decidable True)

instance (s : ReceiveSystem) : (event : ReceiveEvent) → Decidable (s.Bounded event)
  | .openStream .. => inferInstanceAs (Decidable (_ ≤ _))
  | .updateHighestReceived .. => inferInstanceAs (Decidable (_ ≤ _))
  | .addBytesRead .. => inferInstanceAs (Decidable (_ ≤ _))
  | .getWindowUpdate .. => inferInstanceAs (Decidable True)

def controller (s : ReceiveSystem) : ControllerID → Option ReceiveController
  | .connection => some s.connection
  | .stream index => s.streams[index]?.map (·.toReceiveController)

/-! ## The invariant -/

variable {s s' : ReceiveSystem}

structure Sound (s : ReceiveSystem) : Prop where
  streams : ∀ (i : Nat) (c : StreamController), s.streams[i]? = some c →
    c.toReceiveController.Within ∧ c.highestReceived ≤ maxByteCount
  connection : s.connection.Within
  read : s.connection.bytesRead ≤ maxByteCount
  total : s.connection.highestReceived = (s.streams.map (·.highestReceived)).sum
  reached : ∀ id offset, (id, offset) ∈ s.advertised →
    ∃ c, s.controller id = some c ∧ offset ≤ c.receiveWindow
  ordered : s.advertised.Pairwise fun a b => a.1 = b.1 → a.2 ≤ b.2

def Widens (s s' : ReceiveSystem) : Prop :=
  ∀ id c, s.controller id = some c →
    ∃ c', s'.controller id = some c' ∧ c.receiveWindow ≤ c'.receiveWindow

theorem Sound.reached_widens (h : s.Sound) (hwidens : s.Widens s')
    (hadvertised : s'.advertised = s.advertised) :
    ∀ id offset, (id, offset) ∈ s'.advertised →
      ∃ c, s'.controller id = some c ∧ offset ≤ c.receiveWindow := by
  intro id offset hmem
  rw [hadvertised] at hmem
  obtain ⟨c, hc, hle⟩ := h.reached id offset hmem
  obtain ⟨c', hc', hwider⟩ := hwidens id c hc
  exact ⟨c', hc', Nat.le_trans hle hwider⟩

private theorem widens_connection {connection : ReceiveController}
    (hle : s.connection.receiveWindow ≤ connection.receiveWindow) :
    s.Widens { s with connection } := by
  intro id c hc
  cases id with
  | connection =>
    cases hc
    exact ⟨connection, rfl, hle⟩
  | stream j => exact ⟨c, hc, Nat.le_refl _⟩

variable {c : StreamController} {convert : Nat → Nat} {event : ReceiveEvent}
variable {i offset : Nat} {result : StreamController × ReceiveController}

theorem widens_setStream (hc : s.streams[i]? = some c)
    (hstream : c.receiveWindow ≤ result.1.receiveWindow)
    (hconnection : s.connection.receiveWindow ≤ result.2.receiveWindow) :
    s.Widens (s.setStream i result) := by
  intro id old hold
  cases id with
  | connection =>
    cases hold
    exact ⟨result.2, rfl, hconnection⟩
  | stream j =>
    obtain ⟨u, hu, rfl⟩ := Option.map_eq_some_iff.mp hold
    obtain ⟨u', hu', hle⟩ := exists_getElem?_set
      (R := fun u u' : StreamController => u.receiveWindow ≤ u'.receiveWindow)
      (fun _ => Nat.le_refl _) hc hstream hu
    exact ⟨u'.toReceiveController,
      by simp only [controller, setStream, hu', Option.map_some], hle⟩

theorem Sound.advertise (h : s.Sound) {id : ControllerID} {c : ReceiveController}
    (hc : s.controller id = some c) (hoffset : offset = 0 ∨ offset = c.receiveWindow) :
    (s.advertise id offset).Sound := by
  rw [ReceiveSystem.advertise]
  split
  · exact h
  · next hpos =>
    have heq : offset = c.receiveWindow := hoffset.resolve_left hpos
    refine ⟨h.streams, h.connection, h.read, h.total, ?_, ?_⟩
    · intro id' offset' hmem
      rcases List.mem_append.mp hmem with hmem | hmem
      · exact h.reached id' offset' hmem
      · cases List.mem_singleton.mp hmem
        exact ⟨c, hc, Nat.le_of_eq heq⟩
    · refine List.pairwise_append.mpr ⟨h.ordered, List.pairwise_singleton .., ?_⟩
      rintro ⟨id', offset'⟩ hmem b hb hid
      cases List.mem_singleton.mp hb
      obtain ⟨c', hc', hle⟩ := h.reached id' offset' hmem
      cases hid
      rw [hc] at hc'
      cases hc'
      exact Nat.le_trans hle (Nat.le_of_eq heq.symm)

private theorem sound_new {receiveWindow maxReceiveWindow : Nat}
    (hle : receiveWindow ≤ maxReceiveWindow) (hmax : maxReceiveWindow ≤ maxByteCount) :
    (new receiveWindow maxReceiveWindow).Sound where
  streams := by
    intro i c hc
    cases hc
  connection := ReceiveController.within_new hle hmax
  read := Nat.zero_le _
  total := rfl
  reached := by
    intro id offset hmem
    cases List.mem_singleton.mp hmem
    exact ⟨_, rfl, Nat.le_refl _⟩
  ordered := List.pairwise_singleton ..

theorem Sound.openStream (h : s.Sound) (id : StreamID)
    {receiveWindow maxReceiveWindow : Nat} (hle : receiveWindow ≤ maxReceiveWindow)
    (hmax : maxReceiveWindow ≤ maxByteCount) :
    { s with
      streams := s.streams ++ [StreamController.new id receiveWindow maxReceiveWindow]
      advertised := s.advertised ++
        [(ControllerID.stream s.streams.length, receiveWindow)] }.Sound where
  streams := by
    refine forall_getElem?_append h.streams ⟨?_, Nat.zero_le _⟩
    exact ReceiveController.within_new hle hmax
  __ := h
  total := by
    rw [List.map_append, List.sum_append]
    exact h.total
  reached := by
    intro id' offset hmem
    rcases List.mem_append.mp hmem with hmem | hmem
    · obtain ⟨c, hc, hle⟩ := h.reached id' offset hmem
      refine ⟨c, ?_, hle⟩
      cases id' with
      | connection => exact hc
      | stream j =>
        obtain ⟨u, hu, rfl⟩ := Option.map_eq_some_iff.mp hc
        have hlt := (List.getElem?_eq_some_iff.mp hu).1
        simp only [controller, List.getElem?_append_left hlt, hu, Option.map_some]
    · cases List.mem_singleton.mp hmem
      refine ⟨.new receiveWindow maxReceiveWindow, ?_, Nat.le_refl _⟩
      simp only [controller, List.getElem?_concat_length, Option.map_some]
      rfl
  ordered := by
    refine List.pairwise_append.mpr ⟨h.ordered, List.pairwise_singleton .., ?_⟩
    rintro ⟨id', offset⟩ hmem b hb hid
    cases List.mem_singleton.mp hb
    -- No stream had this number before.
    obtain ⟨c, hc, -⟩ := h.reached id' offset hmem
    cases hid
    obtain ⟨u, hu, -⟩ := Option.map_eq_some_iff.mp hc
    exact absurd (List.getElem?_eq_some_iff.mp hu).1 (Nat.lt_irrefl _)

theorem Sound.setConnection (h : s.Sound) {connection : ReceiveController}
    (hwithin : connection.Within) (hread : connection.bytesRead ≤ maxByteCount)
    (hhighest : connection.highestReceived = s.connection.highestReceived)
    (hwindow : s.connection.receiveWindow ≤ connection.receiveWindow) :
    { s with connection }.Sound where
  __ := h
  connection := hwithin
  read := hread
  total := hhighest.trans h.total
  reached := h.reached_widens (widens_connection hwindow) rfl

theorem Sound.setStream (h : s.Sound) {i n : Nat} {c : StreamController}
    {result : StreamController × ReceiveController} (hc : s.streams[i]? = some c)
    (hstream : result.1.toReceiveController.Within)
    (hbounded : result.1.highestReceived ≤ maxByteCount)
    (hconnection : result.2.Within) (hread : result.2.bytesRead ≤ maxByteCount)
    (hreceived : result.1.highestReceived = c.highestReceived + n)
    (hincrement : result.2.highestReceived = s.connection.highestReceived + n)
    (hwindow : c.receiveWindow ≤ result.1.receiveWindow)
    (hwindow' : s.connection.receiveWindow ≤ result.2.receiveWindow) :
    (s.setStream i result).Sound where
  streams := forall_getElem?_set h.streams ⟨hstream, hbounded⟩
  connection := hconnection
  read := hread
  total := by
    have hsum := sum_map_set (b := result.1)
      (fun c : StreamController => c.highestReceived) hc
    have htotal := h.total
    simp only [ReceiveSystem.setStream]
    omega
  reached := h.reached_widens (widens_setStream hc hwindow hwindow') rfl
  ordered := h.ordered

theorem Sound.updateHighestReceived (h : s.Sound) {final : Bool}
    (hc : s.streams[i]? = some c) (hoffset : offset ≤ maxByteCount)
    (hreceived : c.Received s.connection offset final result) :
    (s.setStream i result).Sound := by
  obtain ⟨hwithin, hbounded⟩ := h.streams i c hc
  have hconnection := h.connection
  cases hreceived with
  | known hle hfinal =>
    exact h.setStream (n := 0) hc hwithin hbounded hconnection h.read rfl rfl
      (Nat.le_refl _) (Nat.le_refl _)
  | higher hlt hopen hstream hincrement =>
    have hsum : add64 s.connection.highestReceived (offset - c.highestReceived) =
        s.connection.highestReceived + (offset - c.highestReceived) := by
      have hread := h.read
      obtain ⟨-, hreceived, hwindow, hsize, hmax⟩ := hconnection
      refine add64_eq ?_
      simp only [maxByteCount] at *
      omega
    refine h.setStream (n := offset - c.highestReceived) hc ?_ hoffset ?_ h.read ?_
      hsum (Nat.le_refl _) (Nat.le_refl _)
    · exact ⟨Nat.le_trans hwithin.read (Nat.le_of_lt hlt), hstream, hwithin.window,
        hwithin.size, hwithin.max⟩
    · refine ⟨?_, hincrement, hconnection.window, hconnection.size, hconnection.max⟩
      rw [hsum]
      exact Nat.le_trans hconnection.read (Nat.le_add_right ..)
    · exact (Nat.add_sub_cancel' (Nat.le_of_lt hlt)).symm

theorem Sound.addBytesRead (h : s.Sound) {i n : Nat} {c : StreamController}
    (hc : s.streams[i]? = some c) (hn : s.connection.bytesRead + n ≤ s.connection.highestReceived)
    (hstream : c.bytesRead + n ≤ c.highestReceived)
    (hread : s.connection.bytesRead + n ≤ maxByteCount) :
    (s.setStream i (c.addBytesRead s.connection n)).Sound := by
  obtain ⟨hwithin, hbounded⟩ := h.streams i c hc
  obtain ⟨hconnection, hsum⟩ := h.connection.addBytesRead hn hread
  have hnext := hwithin.addBytesRead hstream (Nat.le_trans hstream hbounded)
  refine h.setStream (n := 0) hc hnext.1 ?_ hconnection (hsum ▸ hread) ?_ ?_ ?_ ?_
  · exact (c.highestReceived_addBytesRead n).symm ▸ hbounded
  · exact c.highestReceived_addBytesRead n
  · exact s.connection.highestReceived_addBytesRead n
  · exact Nat.le_of_eq (c.receiveWindow_addBytesRead n).symm
  · exact Nat.le_of_eq (s.connection.receiveWindow_addBytesRead n).symm

private theorem controller_setStream
    (hc : s.streams[i]? = some c) (result : StreamController × ReceiveController) :
    (s.setStream i result).controller (.stream i) = some result.1.toReceiveController := by
  have hlt := (List.getElem?_eq_some_iff.mp hc).1
  simp only [controller, ReceiveSystem.setStream, List.getElem?_set_self hlt,
    Option.map_some]

theorem Sound.getWindowUpdate (h : s.Sound) (convert : Nat → Nat) {timing : Timing}
    (hc : s.streams[i]? = some c)
    (hresult : c.getWindowUpdate convert s.connection timing = (result, offset)) :
    ((s.setStream i result).advertise (.stream i) offset).Sound := by
  obtain ⟨hwithin, hbounded⟩ := h.streams i c hc
  cases hopen : c.receivedFinalOffset with
  | true =>
    rw [StreamController.getWindowUpdate, if_pos hopen] at hresult
    cases hresult
    have hnext : (s.setStream i (c, s.connection)).Sound := h.setStream (n := 0) hc
      hwithin hbounded h.connection h.read rfl rfl (Nat.le_refl _) (Nat.le_refl _)
    exact hnext.advertise (controller_setStream hc _) (.inl rfl)
  | false =>
    obtain ⟨hupdated, hoffset⟩ :=
      hwithin.getWindowUpdate (Nat.le_trans hwithin.read hbounded) timing
    cases hbase : c.toReceiveController.getWindowUpdate timing with
    | mk base updated =>
    rw [hbase] at hupdated hoffset
    rw [StreamController.getWindowUpdate_eq convert hopen hbase] at hresult
    cases hresult
    generalize hconnection : (if base.receiveWindowSize > c.receiveWindowSize then
      s.connection.ensureMinimumWindowSize
        (minimumConnectionWindow convert base.receiveWindowSize)
      else s.connection) = connection
    have hresized : ReceiveController.Resized s.connection connection := by
      rw [← hconnection]
      split
      · exact h.connection.ensureMinimumWindowSize _
      · exact h.connection.resized_self
    have hnext : (s.setStream i
        ({ c with toReceiveController := base }, connection)).Sound :=
      h.setStream (n := 0) hc hupdated.within (hupdated.highestReceived ▸ hbounded)
      (hresized.within h.connection) (hresized.bytesRead ▸ h.read)
      hupdated.highestReceived hresized.highestReceived hupdated.receiveWindow
      (Nat.le_of_eq hresized.receiveWindow.symm)
    exact hnext.advertise (controller_setStream hc _) hoffset

inductive Step (convert : Nat → Nat) (s : ReceiveSystem) :
    ReceiveEvent → ReceiveSystem → Prop where
  | missing {event : ReceiveEvent} : Step convert s event s
  | openStream {id : StreamID} {receiveWindow maxReceiveWindow : Nat} :
      Step convert s (.openStream id receiveWindow maxReceiveWindow) { s with
        streams := s.streams ++ [StreamController.new id receiveWindow maxReceiveWindow]
        advertised :=
          s.advertised ++ [(ControllerID.stream s.streams.length, receiveWindow)] }
  | received {i offset : Nat} {final : Bool} {c : StreamController}
      {result : StreamController × ReceiveController} (hc : s.streams[i]? = some c)
      (hreceived : c.Received s.connection offset final result) :
      Step convert s (.updateHighestReceived i offset final) (s.setStream i result)
  | readConnection {n : Nat} :
      Step convert s (.addBytesRead .connection n)
        { s with connection := s.connection.addBytesRead n }
  | readStream {i n : Nat} {c : StreamController} (hc : s.streams[i]? = some c) :
      Step convert s (.addBytesRead (.stream i) n)
        (s.setStream i (c.addBytesRead s.connection n))
  | updateConnection {timing : Timing} {connection : ReceiveController} {offset : Nat}
      (hupdate : s.connection.getWindowUpdate timing = (connection, offset)) :
      Step convert s (.getWindowUpdate .connection timing)
        (advertise { s with connection } .connection offset)
  | updateStream {i offset : Nat} {timing : Timing} {c : StreamController}
      {result : StreamController × ReceiveController} (hc : s.streams[i]? = some c)
      (hupdate : c.getWindowUpdate convert s.connection timing = (result, offset)) :
      Step convert s (.getWindowUpdate (.stream i) timing)
        ((s.setStream i result).advertise (.stream i) offset)

theorem step_cases
    (hstep : s.step convert event = .ok s') : Step convert s event s' := by
  unfold step at hstep
  split at hstep
  · cases hstep
    exact .openStream
  · split at hstep
    · cases hstep
      exact .missing
    · next c hc =>
      obtain ⟨result, hresult, hstep⟩ := bind_eq_ok.mp hstep
      cases hstep
      exact .received hc (StreamController.updateHighestReceived_received hresult)
  · cases hstep
    exact .readConnection
  · split at hstep
    · cases hstep
      exact .missing
    · next c hc =>
      cases hstep
      exact .readStream hc
  · cases hstep
    refine .updateConnection ?_
    exact Prod.mk.eta.symm
  · split at hstep
    · cases hstep
      exact .missing
    · next c hc =>
      cases hstep
      refine .updateStream hc ?_
      exact Prod.mk.eta.symm

theorem Step.sound
    (hstep : Step convert s event s') (h : s.Sound) (hadmits : s.Admits event)
    (hbounded : s.Bounded event) : s'.Sound := by
  cases hstep with
  | missing => exact h
  | openStream => exact h.openStream _ hadmits hbounded
  | received hc hreceived => exact h.updateHighestReceived hc hbounded hreceived
  | @readConnection n =>
    obtain ⟨hwithin, hsum⟩ := h.connection.addBytesRead hadmits hbounded
    exact h.setConnection hwithin (hsum ▸ hbounded)
      (s.connection.highestReceived_addBytesRead n)
      (Nat.le_of_eq (s.connection.receiveWindow_addBytesRead n).symm)
  | readStream hc => exact h.addBytesRead hc hadmits.1 (hadmits.2 _ hc) hbounded
  | @updateConnection timing connection offset hupdate =>
    obtain ⟨hupdated, hoffset⟩ := h.connection.getWindowUpdate h.read timing
    rw [hupdate] at hupdated hoffset
    have hnext := h.setConnection hupdated.within (hupdated.bytesRead ▸ h.read)
      hupdated.highestReceived hupdated.receiveWindow
    exact hnext.advertise rfl hoffset
  | updateStream hc hupdate => exact h.getWindowUpdate convert hc hupdate

/-! ## Final offsets -/

private theorem settled_setStream (hc : s.streams[i]? = some c)
    (hsettled : c.Settled result.1) {j : Nat} {u : StreamController}
    (hu : s.streams[j]? = some u) :
    ∃ u', (s.setStream i result).streams[j]? = some u' ∧ u.Settled u' :=
  exists_getElem?_set StreamController.Settled.refl hc hsettled hu

@[simp]
theorem streams_advertise (s : ReceiveSystem) (id : ControllerID) (offset : Nat) :
    (s.advertise id offset).streams = s.streams := by
  rw [advertise]
  split <;> rfl

theorem Step.settled
    (hstep : Step convert s event s') {j : Nat} {u : StreamController}
    (hu : s.streams[j]? = some u) :
    ∃ u', s'.streams[j]? = some u' ∧ u.Settled u' := by
  cases hstep with
  | missing => exact ⟨u, hu, .refl u⟩
  | openStream =>
    have hlt := (List.getElem?_eq_some_iff.mp hu).1
    exact ⟨u, by rw [List.getElem?_append_left hlt, hu], .refl u⟩
  | received hc hreceived => exact settled_setStream hc hreceived.settled hu
  | readConnection => exact ⟨u, hu, .refl u⟩
  | @readStream i n c hc =>
    exact settled_setStream hc (c.settled_addBytesRead s.connection n) hu
  | updateConnection => exact ⟨u, by rw [streams_advertise, hu], .refl u⟩
  | updateStream hc hupdate =>
    rw [streams_advertise]
    exact settled_setStream hc (StreamController.settled_getWindowUpdate hupdate) hu

private theorem trace_settled {events : List ReceiveEvent}
    (h : Trace (fun s event s' => step convert s event = .ok s') s events s') {j : Nat}
    {u : StreamController} (hu : s.streams[j]? = some u) :
    ∃ u', s'.streams[j]? = some u' ∧ u.Settled u' := by
  refine h.invariant (fun t => ∃ u', t.streams[j]? = some u' ∧ u.Settled u')
    ⟨u, hu, .refl u⟩ ?_
  rintro t event t' ⟨v, hv, hsettled⟩ hstep
  obtain ⟨v', hv', hsettled'⟩ := (step_cases hstep).settled hv
  exact ⟨v', hv', hsettled.trans hsettled'⟩

/-! ## Runs -/

/--
Receive flow control, for windows, offsets and a number of bytes read that the wire
format can carry.
-/
theorem receiveWindows_sound (convert : Nat → Nat)
    {receiveWindow maxReceiveWindow : Nat} (hle : receiveWindow ≤ maxReceiveWindow)
    (hmax : maxReceiveWindow ≤ maxByteCount) {events : List ReceiveEvent}
    (h : Trace (fun s event s' => step convert s event = .ok s' ∧
        Admits s event ∧ Bounded s event)
      (new receiveWindow maxReceiveWindow) events s) :
    s.connection.highestReceived = (s.streams.map (·.highestReceived)).sum ∧
    s.connection.highestReceived ≤ s.connection.receiveWindow ∧
    (∀ c ∈ s.streams, c.highestReceived ≤ c.receiveWindow) ∧
    s.advertised.Pairwise (fun a b => a.1 = b.1 → a.2 ≤ b.2) ∧
    ∀ (i : Nat) (c : StreamController), s.streams[i]? = some c →
      c.receivedFinalOffset = true → ∀ later s',
        Trace (fun s event s' => step convert s event = .ok s') s later s' →
        ∃ c', s'.streams[i]? = some c' ∧ c'.highestReceived = c.highestReceived ∧
          ∀ offset final, c.highestReceived < offset →
            ∃ e, c'.updateHighestReceived s'.connection offset final = .error e := by
  have hsound : s.Sound := h.invariant Sound (sound_new hle hmax)
    fun _ _ _ hs hstep => (step_cases hstep.1).sound hs hstep.2.1 hstep.2.2
  refine ⟨hsound.total, hsound.connection.received, ?_, hsound.ordered, ?_⟩
  · intro c hc
    obtain ⟨i, hi⟩ := List.mem_iff_getElem?.mp hc
    exact (hsound.streams i c hi).1.received
  · intro i c hc hknown later s' hlater
    obtain ⟨c', hc', hsettled⟩ := trace_settled hlater hc
    obtain ⟨hknown', heq⟩ := hsettled hknown
    refine ⟨c', hc', heq, ?_⟩
    intro offset final hlt
    exact StreamController.updateHighestReceived_error hknown' (heq ▸ hlt) final

def enlargedWindow : List ReceiveEvent :=
  [.openStream 0 100 400, .openStream 4 100 100, .updateHighestReceived 0 80 false,
    .addBytesRead (.stream 0) 80, .getWindowUpdate (.stream 0) .tooFast,
    .updateHighestReceived 1 30 true, .updateHighestReceived 0 250 false,
    .addBytesRead (.stream 1) 30, .getWindowUpdate .connection .slow]

theorem receiveWindows_sound_enlarged : ∃ s : ReceiveSystem,
    s.advertised = [(.connection, 300), (.stream 0, 100), (.stream 1, 100),
      (.stream 0, 280), (.connection, 410)] ∧
    s.connection.highestReceived = 280 ∧
    s.connection.highestReceived = (s.streams.map (·.highestReceived)).sum ∧
    s.advertised.Pairwise fun a b => a.1 = b.1 → a.2 ≤ b.2 := by
  have hrun : (enlargedWindow.foldlM (fun (s : ReceiveSystem) event =>
        if s.Admits event ∧ s.Bounded event then s.step id event
        else .error (.connectionViolation 0 0)) (new 300 600)).map
        (fun s : ReceiveSystem => (s.advertised, s.connection.highestReceived)) =
      .ok ([(.connection, 300), (.stream 0, 100), (.stream 1, 100),
        (.stream 0, 280), (.connection, 410)], 280) := by
    decide +kernel
  obtain ⟨s, hs, hobserved⟩ := map_eq_ok hrun
  obtain ⟨hadvertised, hhighest⟩ := Prod.mk.inj hobserved
  obtain ⟨htotal, -, -, hordered, -⟩ := receiveWindows_sound id (by decide)
    (by decide) (Trace.of_foldlM_checked hs)
  exact ⟨s, hadvertised, hhighest, htotal, hordered⟩

theorem receiveWindows_wrapAround : ∃ s : ReceiveSystem,
    Trace (fun s event s' => step id s event = .ok s' ∧ Admits s event)
      (new (2 ^ 64 - 1) (2 ^ 64 - 1))
      [.openStream 0 (2 ^ 63) (2 ^ 63), .openStream 4 (2 ^ 63) (2 ^ 63),
        .updateHighestReceived 0 (2 ^ 63) false,
        .updateHighestReceived 1 (2 ^ 63) false] s ∧
    s.connection.highestReceived ≠ (s.streams.map (·.highestReceived)).sum := by
  have hrun : ([.openStream 0 (2 ^ 63) (2 ^ 63), .openStream 4 (2 ^ 63) (2 ^ 63),
        .updateHighestReceived 0 (2 ^ 63) false,
        .updateHighestReceived 1 (2 ^ 63) false].foldlM
        (fun (s : ReceiveSystem) event => if s.Admits event then s.step id event
          else .error (.connectionViolation 0 0)) (new (2 ^ 64 - 1) (2 ^ 64 - 1))).map
        (fun s : ReceiveSystem => (s.connection.highestReceived,
          (s.streams.map (·.highestReceived)).sum)) = .ok (0, 2 ^ 64) := by
    decide +kernel
  obtain ⟨s, hs, hobserved⟩ := map_eq_ok hrun
  obtain ⟨hhighest, hsum⟩ := Prod.mk.inj hobserved
  refine ⟨s, Trace.of_foldlM_checked hs, ?_⟩
  rw [hhighest, hsum]
  decide

end ReceiveSystem

end Qperf.Quic
