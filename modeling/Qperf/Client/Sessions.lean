import Qperf.Foundation.Traces
import Mathlib.Logic.Function.Basic
import Mathlib.Data.List.Nodup

/-!
# Sessions of concurrent requests

Every request runs `sendRequest` in its own goroutine.  It looks up the session
of its domain, dials if there is none, stores the new session and opens a stream
on it.  The map is not locked between the lookup and the store.
-/

namespace Qperf.Client

open Qperf.Foundation

/-! ## The steps of a request -/

abbrev SessionId := Nat

inductive Phase where
  | start
  | connecting
  | connected (session : SessionId)
  | holding (session : SessionId)
  | opened (session : SessionId)
  | returned
  deriving DecidableEq

/--
The session map and the requests.  `dialed` and `opened` are history variables:
the sessions that were dialed, each with its domain, and the streams that were
opened, each with the session stored for its domain at that time.
-/
structure SessionState (ι : Type) where
  sessionMap : String → Option SessionId
  nextSession : SessionId
  phase : ι → Phase
  dialed : List (String × SessionId)
  opened : List (ι × SessionId × Option SessionId)

inductive Action (ι : Type) where
  | lookup (request : ι)
  | dial (request : ι)
  | dialFails (request : ι)
  | store (request : ι)
  | openStream (request : ι)
  | openStreamFails (request : ι)

section Steps

variable {ι : Type} [DecidableEq ι] (domain : ι → String)

def SessionState.setPhase (s : SessionState ι) (request : ι) (phase : Phase) :
    SessionState ι :=
  { s with phase := Function.update s.phase request phase }

def sendRequestStep (s : SessionState ι) : Action ι → Option (SessionState ι)
  | .lookup request =>
    match s.phase request with
    | .start =>
      match s.sessionMap (domain request) with
      | some session => some (s.setPhase request (.holding session))
      | none => some (s.setPhase request .connecting)
    | _ => none
  | .dial request =>
    match s.phase request with
    | .connecting =>
      some { s.setPhase request (.connected s.nextSession) with
        nextSession := s.nextSession + 1
        dialed := s.dialed ++ [(domain request, s.nextSession)] }
    | _ => none
  | .dialFails request =>
    match s.phase request with
    | .connecting => some (s.setPhase request .returned)
    | _ => none
  -- The second nil check of the source never fires: a dial that succeeds
  -- returns a session.
  | .store request =>
    match s.phase request with
    | .connected session =>
      some { s.setPhase request (.holding session) with
        sessionMap := Function.update s.sessionMap (domain request) (some session) }
    | _ => none
  | .openStream request =>
    match s.phase request with
    | .holding session =>
      some { s.setPhase request (.opened session) with
        opened := s.opened ++ [(request, session, s.sessionMap (domain request))] }
    | _ => none
  | .openStreamFails request =>
    match s.phase request with
    | .holding _ => some (s.setPhase request .returned)
    | _ => none

/-- What each step can do, with the guard under which it does it. -/
inductive Transition (s : SessionState ι) : Action ι → SessionState ι → Prop where
  | found {request : ι} {session : SessionId}
      (hphase : s.phase request = .start)
      (hmap : s.sessionMap (domain request) = some session) :
      Transition s (.lookup request) (s.setPhase request (.holding session))
  | missing {request : ι} (hphase : s.phase request = .start)
      (hmap : s.sessionMap (domain request) = none) :
      Transition s (.lookup request) (s.setPhase request .connecting)
  | dialed {request : ι} (hphase : s.phase request = .connecting) :
      Transition s (.dial request)
        { s.setPhase request (.connected s.nextSession) with
          nextSession := s.nextSession + 1
          dialed := s.dialed ++ [(domain request, s.nextSession)] }
  | dialFailed {request : ι} (hphase : s.phase request = .connecting) :
      Transition s (.dialFails request) (s.setPhase request .returned)
  | stored {request : ι} {session : SessionId}
      (hphase : s.phase request = .connected session) :
      Transition s (.store request)
        { s.setPhase request (.holding session) with
          sessionMap := Function.update s.sessionMap (domain request) (some session) }
  | opened {request : ι} {session : SessionId}
      (hphase : s.phase request = .holding session) :
      Transition s (.openStream request)
        { s.setPhase request (.opened session) with
          opened := s.opened ++ [(request, session, s.sessionMap (domain request))] }
  | openFailed {request : ι} {session : SessionId}
      (hphase : s.phase request = .holding session) :
      Transition s (.openStreamFails request) (s.setPhase request .returned)

theorem transition_of_sendRequestStep {s t : SessionState ι} {a : Action ι}
    (h : sendRequestStep domain s a = some t) : Transition domain s a t := by
  cases a with
  | lookup request =>
    simp only [sendRequestStep] at h
    split at h
    · split at h <;> cases h
      · exact .found ‹_› ‹_›
      · exact .missing ‹_› ‹_›
    · cases h
  | dial request =>
    simp only [sendRequestStep] at h
    split at h <;> cases h
    exact .dialed ‹_›
  | dialFails request =>
    simp only [sendRequestStep] at h
    split at h <;> cases h
    exact .dialFailed ‹_›
  | store request =>
    simp only [sendRequestStep] at h
    split at h <;> cases h
    exact .stored ‹_›
  | openStream request =>
    simp only [sendRequestStep] at h
    split at h <;> cases h
    exact .opened ‹_›
  | openStreamFails request =>
    simp only [sendRequestStep] at h
    split at h <;> cases h
    exact .openFailed ‹_›

def initialSessions (ι : Type) : SessionState ι where
  sessionMap := fun _ => none
  nextSession := 0
  phase := fun _ => .start
  dialed := []
  opened := []

/-- At most one session per domain, and every stream is on the stored one. -/
structure OneConnection (s : SessionState ι) : Prop where
  dialed : (s.dialed.map Prod.fst).Nodup
  opened : ∀ stream ∈ s.opened, stream.2.2 = some stream.2.1

def Phase.Busy : Phase → Prop
  | .connecting | .connected _ => True
  | _ => False

/--
A request that finds no session does so while no other request of its domain is
between its own lookup and its store.
-/
def Undisturbed (s : SessionState ι) : Action ι → Prop
  | .lookup request => s.sessionMap (domain request) = none →
      ∀ other, domain other = domain request → ¬ (s.phase other).Busy
  | _ => True

/-! ## The invariant of undisturbed runs -/

/--
One request of a domain is dialing at a time, and only while nothing is stored;
every session that was dialed is stored or held by the request that dialed it.
-/
structure SessionInvariant (s : SessionState ι) : Prop extends OneConnection s where
  alone : ∀ r r', (s.phase r).Busy → (s.phase r').Busy → domain r = domain r' → r = r'
  unstored : ∀ r, (s.phase r).Busy → s.sessionMap (domain r) = none
  placed : ∀ entry ∈ s.dialed, s.sessionMap entry.1 = some entry.2 ∨
    ∃ r, domain r = entry.1 ∧ s.phase r = .connected entry.2
  held : ∀ r session, s.phase r = .holding session →
    s.sessionMap (domain r) = some session

omit [DecidableEq ι] in
theorem SessionInvariant.initial : SessionInvariant domain (initialSessions ι) where
  dialed := List.nodup_nil
  opened := by simp [initialSessions]
  alone := fun _ _ busy => busy.elim
  unstored := fun _ busy => busy.elim
  placed := by simp [initialSessions]
  held := fun _ _ h => nomatch h

variable {domain} {s t : SessionState ι} {request : ι}

@[simp]
theorem setPhase_self (phase : Phase) :
    (s.setPhase request phase).phase request = phase :=
  Function.update_self ..

theorem setPhase_of_ne {other : ι} (phase : Phase) (h : other ≠ request) :
    (s.setPhase request phase).phase other = s.phase other :=
  Function.update_of_ne h ..

theorem SessionInvariant.settle (inv : SessionInvariant domain s) {phase : Phase}
    (hidle : ¬ phase.Busy) (hheld : ∀ session, phase = .holding session →
      s.sessionMap (domain request) = some session)
    (hfree : ∀ session, s.phase request ≠ .connected session) :
    SessionInvariant domain (s.setPhase request phase) := by
  have hbusy : ∀ r, ((s.setPhase request phase).phase r).Busy → (s.phase r).Busy := by
    intro r h
    by_cases hr : r = request
    · subst hr
      rw [setPhase_self] at h
      exact absurd h hidle
    · rwa [setPhase_of_ne _ hr] at h
  refine { inv with alone := ?_, unstored := ?_, placed := ?_, held := ?_ }
  · exact fun r r' h h' => inv.alone r r' (hbusy r h) (hbusy r' h')
  · exact fun r h => inv.unstored r (hbusy r h)
  · intro entry hentry
    refine (inv.placed entry hentry).imp_right ?_
    rintro ⟨r, hr, hphase⟩
    have hne : r ≠ request := fun h => hfree entry.2 (h ▸ hphase)
    exact ⟨r, hr, by rw [setPhase_of_ne _ hne, hphase]⟩
  · intro r session h
    by_cases hr : r = request
    · subst hr
      exact hheld session (by rwa [setPhase_self] at h)
    · exact inv.held r session (by rwa [setPhase_of_ne _ hr] at h)

theorem SessionInvariant.connecting (inv : SessionInvariant domain s)
    (hphase : s.phase request = .start) (hmap : s.sessionMap (domain request) = none)
    (hfree : ∀ other, domain other = domain request → ¬ (s.phase other).Busy) :
    SessionInvariant domain (s.setPhase request .connecting) := by
  refine { inv with alone := ?_, unstored := ?_, placed := ?_, held := ?_ }
  · intro r r' h h' hdomain
    by_cases hr : r = request <;> by_cases hr' : r' = request
    · rw [hr, hr']
    · rw [setPhase_of_ne _ hr'] at h'
      exact absurd h' (hfree r' (by rw [← hdomain, hr]))
    · rw [setPhase_of_ne _ hr] at h
      exact absurd h (hfree r (by rw [hdomain, hr']))
    · rw [setPhase_of_ne _ hr] at h
      rw [setPhase_of_ne _ hr'] at h'
      exact inv.alone r r' h h' hdomain
  · intro r h
    by_cases hr : r = request
    · rw [hr]
      exact hmap
    · exact inv.unstored r (by rwa [setPhase_of_ne _ hr] at h)
  · intro entry hentry
    refine (inv.placed entry hentry).imp_right ?_
    rintro ⟨r, hr, hconnected⟩
    have hne : r ≠ request := by
      rintro rfl
      simp [hphase] at hconnected
    exact ⟨r, hr, by rw [setPhase_of_ne _ hne, hconnected]⟩
  · intro r session h
    by_cases hr : r = request
    · subst hr
      simp at h
    · exact inv.held r session (by rwa [setPhase_of_ne _ hr] at h)

omit [DecidableEq ι] in
theorem SessionInvariant.not_dialed (inv : SessionInvariant domain s)
    (hphase : s.phase request = .connecting) :
    domain request ∉ s.dialed.map Prod.fst := by
  have hbusy : (s.phase request).Busy := by simp [hphase, Phase.Busy]
  intro h
  obtain ⟨entry, hentry, hdomain⟩ := List.mem_map.mp h
  obtain hstored | ⟨r, hr, hconnected⟩ := inv.placed entry hentry
  · rw [hdomain, inv.unstored request hbusy] at hstored
    cases hstored
  · have hrequest : r = request :=
      inv.alone r request (by simp [hconnected, Phase.Busy]) hbusy
        (hr.trans hdomain)
    rw [hrequest, hphase] at hconnected
    cases hconnected

theorem SessionInvariant.dialing (inv : SessionInvariant domain s)
    (hphase : s.phase request = .connecting) :
    SessionInvariant domain
      { s.setPhase request (.connected s.nextSession) with
        nextSession := s.nextSession + 1
        dialed := s.dialed ++ [(domain request, s.nextSession)] } := by
  have hbusy : ∀ r, ((s.setPhase request (.connected s.nextSession)).phase
      r).Busy → (s.phase r).Busy := by
    intro r h
    by_cases hr : r = request
    · simp [hr, hphase, Phase.Busy]
    · rwa [setPhase_of_ne _ hr] at h
  constructor
  · refine ⟨?_, inv.opened⟩
    rw [List.map_append, List.map_singleton]
    exact List.Nodup.append inv.dialed (List.nodup_singleton _)
      (List.disjoint_singleton.mpr (inv.not_dialed hphase))
  · exact fun r r' h h' => inv.alone r r' (hbusy r h) (hbusy r' h')
  · exact fun r h => inv.unstored r (hbusy r h)
  · intro entry hentry
    obtain hold | hnew := List.mem_append.mp hentry
    · refine (inv.placed entry hold).imp_right ?_
      rintro ⟨r, hr, hconnected⟩
      have hne : r ≠ request := by
        rintro rfl
        simp [hphase] at hconnected
      exact ⟨r, hr, (setPhase_of_ne _ hne).trans hconnected⟩
    · rw [List.mem_singleton.mp hnew]
      exact Or.inr ⟨request, rfl, setPhase_self _⟩
  · intro r session h
    by_cases hr : r = request
    · subst hr
      simp at h
    · exact inv.held r session ((setPhase_of_ne _ hr).symm.trans h)

theorem SessionInvariant.storing (inv : SessionInvariant domain s)
    {session : SessionId} (hphase : s.phase request = .connected session) :
    SessionInvariant domain
      { s.setPhase request (.holding session) with
        sessionMap := Function.update s.sessionMap (domain request)
          (some session) } := by
  have hrequest : (s.phase request).Busy := by simp [hphase, Phase.Busy]
  have hmap := inv.unstored request hrequest
  -- Every other busy request has another domain, whose entry is not touched.
  have hbusy : ∀ r, ((s.setPhase request (.holding session)).phase r).Busy →
      (s.phase r).Busy ∧ domain r ≠ domain request := by
    intro r h
    by_cases hr : r = request
    · subst hr
      rw [setPhase_self] at h
      exact h.elim
    · rw [setPhase_of_ne _ hr] at h
      exact ⟨h, fun hdomain => hr (inv.alone r request h hrequest hdomain)⟩
  refine ⟨⟨inv.dialed, inv.opened⟩, ?_, ?_, ?_, ?_⟩
  · exact fun r r' h h' => inv.alone r r' (hbusy r h).1 (hbusy r' h').1
  · intro r h
    obtain ⟨hold, hne⟩ := hbusy r h
    exact (Function.update_of_ne hne ..).trans (inv.unstored r hold)
  · intro entry hentry
    by_cases hdomain : entry.1 = domain request
    · obtain hstored | ⟨r, hr, hconnected⟩ := inv.placed entry hentry
      · rw [hdomain, hmap] at hstored
        cases hstored
      · have heq : r = request :=
          inv.alone r request (by simp [hconnected, Phase.Busy]) hrequest
            (hr.trans hdomain)
        rw [heq, hphase] at hconnected
        cases hconnected
        exact Or.inl (by rw [hdomain]; exact Function.update_self ..)
    · refine (inv.placed entry hentry).imp (Function.update_of_ne hdomain ..).trans ?_
      rintro ⟨r, hr, hconnected⟩
      have hne : r ≠ request := fun h => hdomain (by rw [← hr, h])
      exact ⟨r, hr, (setPhase_of_ne _ hne).trans hconnected⟩
  · intro r session' h
    by_cases hr : r = request
    · subst hr
      cases (setPhase_self _).symm.trans h
      exact Function.update_self ..
    · have hheld := inv.held r session' ((setPhase_of_ne _ hr).symm.trans h)
      have hne : domain r ≠ domain request := by
        intro hdomain
        rw [hdomain, hmap] at hheld
        cases hheld
      exact (Function.update_of_ne hne ..).trans hheld

theorem SessionInvariant.transition (inv : SessionInvariant domain s)
    {a : Action ι} (h : Transition domain s a t)
    (hundisturbed : Undisturbed domain s a) : SessionInvariant domain t := by
  cases h with
  | found hphase hmap =>
    refine inv.settle (by simp [Phase.Busy]) ?_ (by simp [hphase])
    rintro _ ⟨⟩
    exact hmap
  | missing hphase hmap => exact inv.connecting hphase hmap (hundisturbed hmap)
  | dialed hphase => exact inv.dialing hphase
  | dialFailed hphase =>
    exact inv.settle (by simp [Phase.Busy]) (by simp) (by simp [hphase])
  | stored hphase => exact inv.storing hphase
  | @opened request session hphase =>
    have next : SessionInvariant domain (s.setPhase request (.opened session)) :=
      inv.settle (by simp [Phase.Busy]) (by simp) (by simp [hphase])
    refine { next with opened := ?_ }
    intro stream hstream
    obtain hold | hnew := List.mem_append.mp hstream
    · exact inv.opened stream hold
    · rw [List.mem_singleton.mp hnew]
      exact inv.held request session hphase
  | openFailed hphase =>
    exact inv.settle (by simp [Phase.Busy]) (by simp) (by simp [hphase])

/-! ## Runs -/

variable (domain) in
def Interleaving : List (Action ι) → SessionState ι → Prop :=
  Trace (fun s a t => sendRequestStep domain s a = some t) (initialSessions ι)

variable (domain) in
def UndisturbedRun : List (Action ι) → SessionState ι → Prop :=
  Trace (fun s a t => sendRequestStep domain s a = some t ∧
    Undisturbed domain s a) (initialSessions ι)

private theorem undisturbedRun_invariant {actions : List (Action ι)}
    (h : UndisturbedRun domain actions s) : SessionInvariant domain s :=
  Trace.invariant (SessionInvariant domain) (.initial domain)
    (fun _ _ _ inv hstep =>
      inv.transition (transition_of_sendRequestStep domain hstep.1) hstep.2) h

theorem undisturbedRun_oneConnection (domain : ι → String)
    (actions : List (Action ι)) (s : SessionState ι)
    (h : UndisturbedRun domain actions s) : OneConnection s :=
  (undisturbedRun_invariant h).toOneConnection

theorem interleaving_dials_twice {r r' : ι} (hne : r ≠ r') (hdomain : domain r = domain r') :
    ∃ s, Interleaving domain [.lookup r, .lookup r', .dial r, .dial r'] s ∧
      s.dialed = [(domain r, 0), (domain r, 1)] := by
  have hrun : (List.foldlM (sendRequestStep domain) (initialSessions ι)
      [.lookup r, .lookup r', .dial r, .dial r']).map SessionState.dialed =
      some [(domain r, 0), (domain r, 1)] := by
    simp [sendRequestStep, initialSessions, SessionState.setPhase,
      Function.update_of_ne, hne, hne.symm, hdomain]
  obtain ⟨s, hs, hdialed⟩ := Option.map_eq_some_iff.mp hrun
  exact ⟨s, Trace.of_foldlM hs, hdialed⟩

theorem interleaving_oneConnection_iff :
    (∀ actions s, Interleaving domain actions s → OneConnection s) ↔
      Function.Injective domain := by
  constructor
  · intro h r r' hdomain
    by_contra hne
    obtain ⟨s, hrun, hdialed⟩ := interleaving_dials_twice hne hdomain
    have := (h _ s hrun).dialed
    simp [hdialed] at this
  · intro hinjective actions s hrun
    refine (Trace.invariant (SessionInvariant domain) (.initial domain) ?_
      hrun).toOneConnection
    intro s a t inv hstep
    have htransition := transition_of_sendRequestStep domain hstep
    refine inv.transition htransition ?_
    -- The only request of the domain is the one at its lookup.
    cases htransition with
    | found hphase _ | missing hphase _ =>
      intro _ other hdomain
      simp [hinjective hdomain, hphase, Phase.Busy]
    | _ => trivial

end Steps

def samplePair : Fin 2 → String := fun _ => "example.com"

theorem undisturbedRun_oneConnection_samplePair : ∃ s,
    UndisturbedRun samplePair [.lookup 0, .dial 0, .store 0, .openStream 0,
      .lookup 1, .openStream 1] s ∧ OneConnection s ∧
      s.opened = [(0, 0, some 0), (1, 0, some 0)] := by
  have hrun : UndisturbedRun samplePair [.lookup 0, .dial 0, .store 0,
      .openStream 0, .lookup 1, .openStream 1] _ :=
    .cons ⟨rfl, fun _ _ _ busy => busy⟩ <| .cons ⟨rfl, trivial⟩ <|
      .cons ⟨rfl, trivial⟩ <| .cons ⟨rfl, trivial⟩ <|
      .cons ⟨rfl, fun h => nomatch h⟩ <| .cons ⟨rfl, trivial⟩ .nil
  exact ⟨_, hrun, undisturbedRun_oneConnection _ _ _ hrun, rfl⟩

/--
Both requests find no session and dial.  The first one opens its stream on the
session it dialed, which the second one has replaced in the map.
-/
theorem concurrent_requests_dial_twice : ∃ s,
    Interleaving samplePair [.lookup 0, .lookup 1, .dial 0, .dial 1, .store 0,
      .store 1, .openStream 0, .openStream 1] s ∧
      s.dialed = [("example.com", 0), ("example.com", 1)] ∧
      s.opened = [(0, 0, some 1), (1, 1, some 1)] ∧ ¬ OneConnection s := by
  refine ⟨_, Trace.of_foldlM rfl, rfl, rfl, ?_⟩
  intro h
  exact absurd h.dialed (by decide)

end Qperf.Client
