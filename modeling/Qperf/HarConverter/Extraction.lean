import Qperf.HarConverter.Termination

/-!
# Extracting the requests of a HAR file

`get_filtered_entries` numbers the requests in the order of the log and turns
the initiator of each request into a list of resource ids.  It looks the ids up
in a map from URLs to the last request of that URL, and it has already entered
the current request into that map.  A request therefore depends on earlier
requests only, unless its initiator names its own URL.
-/

namespace Qperf.HarConverter

open Qperf.Foundation

/-! ## The log -/

structure CallFrame where
  url : Option String

structure ParentStack where
  callFrames : Option (List CallFrame)

structure CallStack where
  callFrames : Option (List CallFrame)
  parent : Option ParentStack

structure Initiator where
  url : Option String
  type : Option String
  stack : Option CallStack

structure HarEntry where
  requestUrl : Option String
  method : Option String
  transferSize : Option Int
  resourceType : Option String
  initiator : Option Initiator

def member {α : Type} : Option α → Except PyError α
  | some a => .ok a
  | none => .error .keyError

/-- The order in which `list(set(urls))` returns the distinct URLs. -/
structure SetOrder where
  toList : List String → List String
  nodup : ∀ urls, (toList urls).Nodup
  mem_toList : ∀ urls url, url ∈ toList urls ↔ url ∈ urls

abbrev ResourceIds := String → Option Nat

section Model

variable (order : SetOrder)

def getDependenciesFromCallFrames (callFrames : List CallFrame) :
    Except PyError (List String) := do
  let dependencyUrls ← callFrames.mapM fun frame => member frame.url
  .ok (order.toList dependencyUrls)

def getDependenciesUrl (type : String) (rawInitiator : Initiator) :
    Except PyError (Option (List String)) :=
  if type = "script" then do
    let stack ← member rawInitiator.stack
    let callFrames ← member stack.callFrames
    if 0 < callFrames.length then
      some <$> getDependenciesFromCallFrames order callFrames
    else
      let parent ← member stack.parent
      let parentFrames ← member parent.callFrames
      if 0 < parentFrames.length then
        some <$> getDependenciesFromCallFrames order parentFrames
      else .ok none
  else .ok none

def getRequestDependencies (rawInitiator : Initiator) (rootRequest : String)
    (resourceIds : ResourceIds) : Except PyError (List Nat) :=
  match rawInitiator.url with
  | some url => do
    let id ← member (resourceIds url)
    .ok [id]
  | none => do
    let type ← member rawInitiator.type
    if type = "other" then
      let id ← member (resourceIds rootRequest)
      .ok [id]
    else
      let dependenciesUrl ← getDependenciesUrl order type rawInitiator
      match dependenciesUrl with
      | none => .error .typeError
      | some urls => urls.mapM fun url => member (resourceIds url)

structure Extraction where
  filteredEntries : List Entry
  resourceIds : ResourceIds
  resourceId : Nat

variable (netloc : String → Except PyError String)

def extractEntry (rootRequest : String) (s : Extraction) (entry : HarEntry) :
    Except PyError Extraction := do
  let requestUrl ← member entry.requestUrl
  let resourceIds := Function.update s.resourceIds requestUrl
    (some s.resourceId)
  let transferSize ← member entry.transferSize
  let resourceType ← member entry.resourceType
  let initiator ← member entry.initiator
  let dependencies ← getRequestDependencies order initiator rootRequest
    resourceIds
  let domain ← netloc requestUrl
  let method ← member entry.method
  .ok
    { filteredEntries := s.filteredEntries ++
        [.fresh s.resourceId requestUrl transferSize resourceType dependencies
          domain method]
      resourceIds := resourceIds
      resourceId := s.resourceId + 1 }

def getFilteredEntries (originalEntries : List HarEntry)
    (rootRequest : String) : Except PyError (List Entry) := do
  let s ← originalEntries.foldlM (extractEntry order netloc rootRequest)
    ⟨[], fun _ => none, 0⟩
  .ok s.filteredEntries

def extractHarJsonObject (title : String) (originalEntries : List HarEntry) :
    Except PyError Dataset := do
  let filteredEntries ← getFilteredEntries order netloc originalEntries title
  .ok ⟨title, filteredEntries⟩

end Model

/-! ## The URLs an initiator names -/

def CallStack.usedFrames (stack : CallStack) : List CallFrame :=
  match stack.callFrames.getD [] with
  | [] => (stack.parent.bind ParentStack.callFrames).getD []
  | frames => frames

/-- The dependencies of a request are resolved through these URLs. -/
def Initiator.Names (rawInitiator : Initiator) (rootRequest url : String) : Prop :=
  rawInitiator.url = some url ∨ rawInitiator.url = none ∧
      (rawInitiator.type = some "other" ∧ url = rootRequest ∨
        rawInitiator.type = some "script" ∧ ∃ stack, rawInitiator.stack = some stack ∧
            ∃ frame ∈ stack.usedFrames, frame.url = some url)

def HarEntry.SelfInitiated (entry : HarEntry) (rootRequest : String) : Prop :=
  ∃ url initiator, entry.requestUrl = some url ∧
    entry.initiator = some initiator ∧ initiator.Names rootRequest url

theorem member_eq_ok {α : Type} {x : Option α} {a : α} :
    member x = .ok a ↔ x = some a := by
  cases x <;> simp [member]

section Dependencies

variable {order : SetOrder} {rawInitiator : Initiator} {rootRequest : String}

private theorem getDependenciesFromCallFrames_mem {callFrames : List CallFrame} {urls : List String}
    (h : getDependenciesFromCallFrames order callFrames = .ok urls) (url : String) :
    url ∈ urls ↔ ∃ frame ∈ callFrames, frame.url = some url := by
  obtain ⟨found, hfound, h⟩ := bind_eq_ok.mp h
  cases h
  simp only [order.mem_toList, mem_mapM_ok hfound, member_eq_ok]

theorem getDependenciesUrl_mem {type : String} {urls : List String}
    (h : getDependenciesUrl order type rawInitiator = .ok (some urls))
    (url : String) :
    url ∈ urls ↔ type = "script" ∧
      ∃ stack, rawInitiator.stack = some stack ∧
        ∃ frame ∈ stack.usedFrames, frame.url = some url := by
  rw [getDependenciesUrl] at h
  by_cases hscript : type = "script"
  swap
  · rw [if_neg hscript] at h
    cases h
  rw [if_pos hscript] at h
  obtain ⟨stack, hstack, h⟩ := bind_eq_ok.mp h
  obtain ⟨callFrames, hframes, h⟩ := bind_eq_ok.mp h
  rw [member_eq_ok] at hstack hframes
  suffices hused : url ∈ urls ↔ ∃ frame ∈ stack.usedFrames, frame.url = some url by
    simpa [hscript, hstack] using hused
  cases callFrames with
  | cons frame frames =>
    obtain ⟨found, hfound, hurls⟩ := map_eq_ok h
    cases hurls
    rw [getDependenciesFromCallFrames_mem hfound]
    simp [CallStack.usedFrames, hframes]
  | nil =>
    obtain ⟨parent, hparent, h⟩ := bind_eq_ok.mp h
    obtain ⟨parentFrames, hparentFrames, h⟩ := bind_eq_ok.mp h
    rw [member_eq_ok] at hparent hparentFrames
    split at h
    · obtain ⟨found, hfound, hurls⟩ := map_eq_ok h
      cases hurls
      rw [getDependenciesFromCallFrames_mem hfound]
      simp [CallStack.usedFrames, hframes, hparent, hparentFrames]
    · cases h

theorem getRequestDependencies_mem {resourceIds : ResourceIds} {dependencies : List Nat}
    (h : getRequestDependencies order rawInitiator rootRequest resourceIds =
      .ok dependencies) (d : Nat) :
    d ∈ dependencies ↔ ∃ url, rawInitiator.Names rootRequest url ∧ resourceIds url = some d := by
  rw [getRequestDependencies] at h
  cases hurl : rawInitiator.url with
  | some url =>
    simp only [hurl] at h
    obtain ⟨id, hid, h⟩ := bind_eq_ok.mp h
    cases h
    rw [member_eq_ok] at hid
    simp [Initiator.Names, hurl, hid, eq_comm]
  | none =>
    simp only [hurl] at h
    obtain ⟨type, htype, h⟩ := bind_eq_ok.mp h
    rw [member_eq_ok] at htype
    split at h
    · rename_i hother
      obtain ⟨id, hid, h⟩ := bind_eq_ok.mp h
      cases h
      rw [member_eq_ok] at hid
      simp [Initiator.Names, hurl, htype, hother, hid, eq_comm]
    · rename_i hother
      obtain ⟨urls, hurls, h⟩ := bind_eq_ok.mp h
      cases urls with
      | none => cases h
      | some urls =>
        rw [mem_mapM_ok h]
        simp only [getDependenciesUrl_mem hurls, member_eq_ok]
        simp [Initiator.Names, hurl, htype, hother]

end Dependencies

/-! ## The loop over the log -/

structure Emitted (rootRequest : String) (entry : HarEntry) (i : Nat)
    (emitted : Entry) : Prop where
  resourceId : emitted.resourceId = i
  requestUrl : entry.requestUrl = some emitted.requestUrl
  transferSize : entry.transferSize = some emitted.remainingSize
  self : entry.SelfInitiated rootRequest → i ∈ emitted.dependencies
  earlier : ∀ d ∈ emitted.dependencies,
    d < i ∨ d = i ∧ entry.SelfInitiated rootRequest

structure Extracted (rootRequest : String) (processed : List HarEntry)
    (s : Extraction) : Prop where
  resourceId : s.resourceId = processed.length
  length : s.filteredEntries.length = processed.length
  emitted : ∀ i entry emitted, processed[i]? = some entry →
    s.filteredEntries[i]? = some emitted →
    Emitted rootRequest entry i emitted
  lookup_lt : ∀ url id, s.resourceIds url = some id → id < processed.length

section Extraction

variable {order : SetOrder} {netloc : String → Except PyError String}
  {rootRequest : String}

theorem Extracted.step {processed : List HarEntry} {entry : HarEntry}
    {s t : Extraction} (hs : Extracted rootRequest processed s)
    (h : extractEntry order netloc rootRequest s entry = .ok t) :
    Extracted rootRequest (processed ++ [entry]) t := by
  obtain ⟨requestUrl, hurl, h⟩ := bind_eq_ok.mp h
  obtain ⟨transferSize, hsize, h⟩ := bind_eq_ok.mp h
  obtain ⟨resourceType, -, h⟩ := bind_eq_ok.mp h
  obtain ⟨initiator, hinitiator, h⟩ := bind_eq_ok.mp h
  obtain ⟨dependencies, hdeps, h⟩ := bind_eq_ok.mp h
  obtain ⟨domain, -, h⟩ := bind_eq_ok.mp h
  obtain ⟨method, -, h⟩ := bind_eq_ok.mp h
  cases h
  rw [member_eq_ok] at hurl hsize hinitiator
  have hmem := getRequestDependencies_mem hdeps
  have hid := hs.resourceId
  have hself : entry.SelfInitiated rootRequest ↔ initiator.Names rootRequest requestUrl := by
    simp [HarEntry.SelfInitiated, hurl, hinitiator]
  constructor
  · simp [hid]
  · simp [hs.length]
  · intro i raw emitted hraw hemitted
    by_cases hi : i < processed.length
    · rw [List.getElem?_append_left hi] at hraw
      rw [List.getElem?_append_left (by rw [hs.length]; exact hi)] at hemitted
      exact hs.emitted i raw emitted hraw hemitted
    · -- The entry of this turn.
      have hlast : i = processed.length := by
        have hlt := (List.getElem?_eq_some_iff.mp hraw).1
        simp only [List.length_append, List.length_singleton] at hlt
        omega
      subst hlast
      simp only [List.getElem?_concat_length, Option.some.injEq] at hraw
      rw [← hs.length] at hemitted
      simp only [List.getElem?_concat_length, Option.some.injEq] at hemitted
      subst hraw
      subst hemitted
      refine ⟨hid, hurl, hsize, fun hinit => ?_, fun d hd => ?_⟩
      · refine (hmem _).mpr ⟨requestUrl, hself.mp hinit, ?_⟩
        rw [Function.update_self, hid]
      · obtain ⟨url, hnames, hlookup⟩ := (hmem d).mp hd
        by_cases heq : url = requestUrl
        · subst heq
          rw [Function.update_self, hid] at hlookup
          exact Or.inr ⟨(Option.some.inj hlookup).symm, hself.mpr hnames⟩
        · rw [Function.update_of_ne heq] at hlookup
          exact Or.inl (hs.lookup_lt url d hlookup)
  · intro url id hlookup
    rw [List.length_append, List.length_singleton]
    dsimp only at hlookup
    by_cases heq : url = requestUrl
    · subst heq
      rw [Function.update_self] at hlookup
      cases hlookup
      omega
    · rw [Function.update_of_ne heq] at hlookup
      exact Nat.lt_succ_of_lt (hs.lookup_lt url id hlookup)

theorem getFilteredEntries_extracted {originalEntries : List HarEntry} {entries : List Entry}
    (h : getFilteredEntries order netloc originalEntries rootRequest = .ok entries) :
    entries.length = originalEntries.length ∧
      ∀ i entry emitted, originalEntries[i]? = some entry →
        entries[i]? = some emitted → Emitted rootRequest entry i emitted := by
  obtain ⟨s, hs, h⟩ := bind_eq_ok.mp h
  cases h
  have hinv := foldlM_ok_induct (Extracted rootRequest)
    (fun before entry after s t _ hbefore hstep => hbefore.step hstep)
    ⟨rfl, rfl, by simp, by simp⟩ hs
  exact ⟨hinv.length, hinv.emitted⟩

end Extraction

/-! ## The dependency graph -/

/-- What `replay` and the Go client need of the dependencies of a page. -/
structure OrderedDependencies (D : Dataset) (root : Fin D.size) : Prop where
  ordered : ∀ i, i ≠ root → ∀ d ∈ (D.entry i).dependencies,
    d < (D.entry i).resourceId ∨ d = (D.entry root).resourceId
  irreflexive : ∀ i, i ≠ root → (D.entry i).resourceId ∉ (D.entry i).dependencies
  wellFounded : WellFounded (DependsOn D root)

theorem Numbered.of_eq {n : Nat} {entries : Entries n}
    (h : ∀ i, (entries i).resourceId = i) : Numbered entries where
  lt i := by
    rw [h]
    exact i.isLt
  injective i j hij := by
    simp only [h] at hij
    exact Fin.ext hij

theorem OrderedDependencies.of_ordered {D : Dataset} {root : Fin D.size}
    (hid : ∀ i, (D.entry i).resourceId = i)
    (h : ∀ i, i ≠ root → ∀ d ∈ (D.entry i).dependencies,
      d < (D.entry i).resourceId ∨ d = (D.entry root).resourceId) :
    OrderedDependencies D root where
  ordered := h
  irreflexive i hi hmem := by
    rcases h i hi _ hmem with hlt | heq
    · exact Nat.lt_irrefl _ hlt
    · exact hi ((Numbered.of_eq hid).injective heq)
  wellFounded := by
    refine Subrelation.wf (r := fun j i => j < i) ?_ wellFounded_lt
    rintro j i ⟨hj, hi, hmem⟩
    rcases h i hi _ hmem with hlt | heq
    · rw [hid, hid] at hlt
      exact hlt
    · exact absurd ((Numbered.of_eq hid).injective heq) hj

section Graph

variable {order : SetOrder} {netloc : String → Except PyError String}
  {originalEntries : List HarEntry} {rootRequest : String}
  {entries : List Entry}

section

variable (h : getFilteredEntries order netloc originalEntries rootRequest = .ok entries)
variable (i : Fin (Dataset.mk rootRequest entries).size)
include h i

theorem getFilteredEntries_emitted : ∃ entry, originalEntries[i.val]? = some entry ∧
      Emitted rootRequest entry i ((Dataset.mk rootRequest entries).entry i) := by
  obtain ⟨hlength, hemitted⟩ := getFilteredEntries_extracted h
  have hi : i.val < originalEntries.length := hlength ▸ i.isLt
  exact ⟨originalEntries.get ⟨i, hi⟩, by simp,
    hemitted i _ _ (by simp) (List.getElem?_eq_getElem i.isLt)⟩

theorem getFilteredEntries_resourceId :
    ((Dataset.mk rootRequest entries).entry i).resourceId = i := by
  obtain ⟨entry, -, hentry⟩ := getFilteredEntries_emitted h i
  exact hentry.resourceId

end

theorem getRequestByUrl_first {n : Nat} {entries : Entries n} {url : String}
    {i j : Fin n} (h : getRequestByUrl entries url = some i) (hji : j < i) :
    (entries j).requestUrl ≠ url := by
  obtain ⟨-, before, after, hsplit, hbefore⟩ := List.find?_eq_some_iff_append.mp h
  have hsorted := List.pairwise_lt_finRange n
  rw [hsplit, List.pairwise_append, List.pairwise_cons] at hsorted
  have hmem : j ∈ before ++ i :: after := hsplit ▸ List.mem_finRange j
  have hj : j ∈ before := by
    rcases List.mem_append.mp hmem with hj | hj
    · exact hj
    · rcases List.mem_cons.mp hj with rfl | hj
      · exact absurd hji (lt_irrefl _)
      · exact absurd hji (lt_asymm (hsorted.2.1.1 j hj))
  simpa using hbefore j hj

section

variable (h : getFilteredEntries order netloc originalEntries rootRequest = .ok entries)
variable {root : Fin (Dataset.mk rootRequest entries).size}
variable (hroot : getRequestByUrl (Dataset.mk rootRequest entries).entry rootRequest =
  some root)
include h hroot

theorem findIdx_of_getRequestByUrl :
    originalEntries.findIdx? (fun entry =>
      entry.requestUrl = some rootRequest) = some root.val := by
  have hemitted := getFilteredEntries_emitted h
  obtain ⟨entry, hentry, hfacts⟩ := hemitted root
  obtain ⟨hlt, hget⟩ := List.getElem?_eq_some_iff.mp hentry
  rw [List.findIdx?_eq_some_iff_getElem]
  refine ⟨hlt, ?_, fun j hj => ?_⟩
  · rw [hget, hfacts.requestUrl, getRequestByUrl_eq_some hroot]
    simp
  · obtain ⟨entry', hentry', hfacts'⟩ := hemitted ⟨j, Nat.lt_trans hj root.isLt⟩
    have hne := getRequestByUrl_first hroot (j := ⟨j, Nat.lt_trans hj root.isLt⟩) hj
    rw [(List.getElem?_eq_some_iff.mp hentry').2, hfacts'.requestUrl]
    simpa using hne

/--
The emitted dependencies can be replayed exactly when no request but the root
request is initiated by its own URL.
-/
theorem getFilteredEntries_ordered_iff :
    OrderedDependencies (Dataset.mk rootRequest entries) root ↔
      ∀ (i : Nat) (entry : HarEntry), originalEntries[i]? = some entry →
        originalEntries.findIdx? (fun entry => entry.requestUrl = some rootRequest) ≠ some i →
        ¬ entry.SelfInitiated rootRequest := by
  rw [findIdx_of_getRequestByUrl h hroot]
  have hemitted := getFilteredEntries_emitted h
  have hid := getFilteredEntries_resourceId h
  constructor
  · intro hordered i raw hraw hi hself
    obtain ⟨hlength, -⟩ := getFilteredEntries_extracted h
    have hlt : i < (Dataset.mk rootRequest entries).size := by
      have := (List.getElem?_eq_some_iff.mp hraw).1
      rwa [Dataset.size, hlength]
    obtain ⟨entry, hentry, hfacts⟩ := hemitted ⟨i, hlt⟩
    rw [hraw] at hentry
    cases hentry
    refine hordered.irreflexive ⟨i, hlt⟩ (fun heq => hi ?_) ?_
    · rw [← heq]
    · rw [hid]
      exact hfacts.self hself
  · intro hnot
    refine .of_ordered hid fun i hi d hd => Or.inl ?_
    obtain ⟨entry, hentry, hfacts⟩ := hemitted i
    rw [hid]
    rcases hfacts.earlier d hd with hlt | ⟨-, hself⟩
    · exact hlt
    · exact absurd hself
        (hnot i entry hentry fun heq =>
          hi (Fin.ext (Option.some.inj heq).symm))

theorem OrderedDependencies.replayable
    (hordered : OrderedDependencies (Dataset.mk rootRequest entries) root)
    (hsize : ∀ entry ∈ originalEntries, ∀ size, entry.transferSize = some size → 0 ≤ size) :
    Replayable (Dataset.mk rootRequest entries) root := by
  have hemitted := getFilteredEntries_emitted h
  have hid := getFilteredEntries_resourceId h
  have hnum := Numbered.of_eq hid
  refine ⟨hroot, hnum, fun i => ?_, fun i hi d hd => ?_, hordered.wellFounded⟩
  · obtain ⟨entry, hentry, hfacts⟩ := hemitted i
    exact hsize entry (List.mem_of_getElem? hentry) _ hfacts.transferSize
  · rcases hordered.ordered i hi d hd with hlt | rfl
    · exact Nat.lt_trans hlt (hnum.lt i)
    · exact hnum.lt root

/-- A converted page without self-initiated requests is replayed to its end. -/
theorem OrderedDependencies.terminates {activeScheduler : SchedulerType}
    (hsched : activeScheduler.Implemented)
    (hordered : OrderedDependencies (Dataset.mk rootRequest entries) root)
    (hsize : ∀ entry ∈ originalEntries, ∀ size, entry.transferSize = some size →
      0 ≤ size ∧ size ≤ 2 ^ 64 + 2 ^ 11) (packetNumber : Nat) :
    ∃ k s, replayPrefix activeScheduler (Dataset.mk rootRequest entries) packetNumber k = .ok s ∧
      isReplayFinished s.requestStatus = true ∧ ∀ i, s.statusOf i = .finished := by
  have hreplayable := hordered.replayable h hroot fun entry hentry size hs =>
    (hsize entry hentry size hs).1
  refine hreplayable.terminates hsched (fun i => ?_) packetNumber
  obtain ⟨entry, hentry, hfacts⟩ := getFilteredEntries_emitted h i
  exact (hsize entry (List.mem_of_getElem? hentry) _ hfacts.transferSize).2

end

theorem OrderedDependencies.replay_returns {activeScheduler : SchedulerType}
    (hsched : activeScheduler.Implemented) {D : Dataset}
    (h : extractHarJsonObject order netloc rootRequest originalEntries = .ok D)
    {root : Fin D.size} (hroot : getRequestByUrl D.entry rootRequest = some root)
    (hordered : OrderedDependencies D root)
    (hsize : ∀ entry ∈ originalEntries, ∀ size, entry.transferSize = some size →
      0 ≤ size ∧ size ≤ 2 ^ 64 + 2 ^ 11) (packetNumber : Nat) :
    ∃ k replayLog, replay activeScheduler D packetNumber k = .ok (some replayLog) := by
  obtain ⟨entries, hentries, hD⟩ := bind_eq_ok.mp h
  cases hD
  obtain ⟨k, s, hrun, hdone, -⟩ :=
    hordered.terminates hentries hroot hsched hsize packetNumber
  exact ⟨k, s.replayLog, replay_eq_some_iff.mpr ⟨s, hrun, hdone, rfl⟩⟩

end Graph

/-! ## A page that fetches itself -/

theorem replayPrefix_self_dependent {activeScheduler : SchedulerType}
    (hsched : activeScheduler.Implemented) {D : Dataset}
    (hnum : Numbered D.entry) {root i : Fin D.size}
    (hroot : getRequestByUrl D.entry D.rootRequestUrl = some root) (hi : i ≠ root)
    (hself : (D.entry i).resourceId ∈ (D.entry i).dependencies)
    {packetNumber k : Nat} {s : ReplayState D.size}
    (hrun : replayPrefix activeScheduler D packetNumber k = .ok s) :
    s.statusOf i = .unavailable := by
  refine (replayPrefix_induct hsched hnum packetNumber
    (fun s => (s.filteredEntries i).request = (D.entry i).request ∧
      s.statusOf i = .unavailable) ?_ ?_ hrun).2.2
  · intro s hs
    obtain ⟨root', hroot', rfl⟩ := startReplay_cases hs
    rw [hroot] at hroot'
    cases hroot'
    rw [statusOf_start hnum, if_neg hi]
    exact ⟨releaseAll_request _ _ _, rfl⟩
  · rintro s ordered packet hinv ⟨hrequest, hstatus⟩ - - hperm hpacking
    have hready : i ∉ newlyReady s := by
      intro hmem
      have hfinished := (isReady_iff.mp (mem_newlyReady.mp hmem)).2
        (s.filteredEntries i).resourceId (by
          rw [resourceId_of_request hrequest, dependencies_of_request hrequest]
          exact hself)
      rw [ReplayState.statusOf] at hstatus
      rw [hstatus] at hfinished
      cases hfinished
    have hreleased : (released s).statusOf i = .unavailable := by
      rw [statusOf_released hinv.numbered, if_neg hready, hstatus]
    refine ⟨((recorded_request _ packet i).trans (hpacking.request i)).trans
      ((released_request s i).trans hrequest), ?_⟩
    rw [statusOf_recorded hpacking.request hinv.released.numbered, if_neg, hreleased]
    intro hfinishes
    have hqueued := hpacking.mem_of_finishes hinv.released.numbered hfinishes
    rw [hperm.mem_iff, hinv.released.mem_queue, hreleased] at hqueued
    cases hqueued

def dedupOrder : SetOrder where
  toList urls := urls.dedup
  nodup := List.nodup_dedup
  mem_toList _ _ := List.mem_dedup

def scriptedLog : List HarEntry :=
  [⟨some "https://a/", some "GET", some 1500, some "document",
      some ⟨none, some "other", none⟩⟩,
    ⟨some "https://a/app.js", some "GET", some 900, some "script",
      some ⟨some "https://a/", some "parser", none⟩⟩,
    ⟨some "https://a/data", some "GET", some 20, some "xhr",
      some ⟨none, some "script", some
        ⟨some [⟨some "https://a/app.js"⟩, ⟨some "https://a/app.js"⟩], none⟩⟩⟩]

def scriptedPage : Dataset where
  rootRequestUrl := "https://a/"
  filteredEntries :=
    [.fresh 0 "https://a/" 1500 "document" [0] "a" "GET",
      .fresh 1 "https://a/app.js" 900 "script" [0] "a" "GET",
      .fresh 2 "https://a/data" 20 "xhr" [1] "a" "GET"]

theorem getFilteredEntries_ordered_scriptedPage :
    getFilteredEntries dedupOrder (fun _ => .ok "a") scriptedLog
        "https://a/" = .ok scriptedPage.filteredEntries ∧
      OrderedDependencies scriptedPage ⟨0, by decide⟩ := by
  have h : getFilteredEntries dedupOrder (fun _ => .ok "a") scriptedLog
      "https://a/" = .ok scriptedPage.filteredEntries := by
    decide +kernel
  refine ⟨h, (getFilteredEntries_ordered_iff h (by decide)).mpr ?_⟩
  rintro i entry hentry hroot ⟨url, initiator, hurl, hinitiator, hnames⟩
  match i with
  | 0 => exact hroot (by decide)
  | 1 =>
    cases hentry
    cases hurl
    cases hinitiator
    simp [Initiator.Names] at hnames
  | 2 =>
    cases hentry
    cases hurl
    cases hinitiator
    simp [Initiator.Names, CallStack.usedFrames] at hnames
  | i + 3 => cases hentry

def reloadedLog : List HarEntry :=
  scriptedLog ++ [⟨some "https://a/", some "GET", some 1500, some "document",
      some ⟨none, some "other", none⟩⟩]

def reloadedPage : Dataset where
  rootRequestUrl := "https://a/"
  filteredEntries := scriptedPage.filteredEntries ++
    [.fresh 3 "https://a/" 1500 "document" [3] "a" "GET"]

theorem reloaded_page_waits_forever :
    getFilteredEntries dedupOrder (fun _ => .ok "a") reloadedLog
        "https://a/" = .ok reloadedPage.filteredEntries ∧
      getRequestByUrl reloadedPage.entry "https://a/" =
        some ⟨0, by decide⟩ ∧
      (reloadedPage.entry ⟨3, by decide⟩).resourceId ∈
        (reloadedPage.entry ⟨3, by decide⟩).dependencies ∧
      ∀ activeScheduler : SchedulerType, activeScheduler.Implemented →
        ∀ (packetNumber k : Nat) (s : ReplayState reloadedPage.size),
          replayPrefix activeScheduler reloadedPage packetNumber k = .ok s →
          isReplayFinished s.requestStatus = false := by
  refine ⟨by decide +kernel, by decide, by decide, ?_⟩
  intro activeScheduler hsched packetNumber k s hrun
  have hnum : Numbered reloadedPage.entry := by decide
  have hroot : getRequestByUrl reloadedPage.entry
      reloadedPage.rootRequestUrl = some ⟨0, by decide⟩ := by
    decide
  have hwait := replayPrefix_self_dependent hsched hnum hroot
    (i := ⟨3, by decide⟩) (by decide) (by decide) hrun
  have hqueue := replayPrefix_queueInvariant hsched hnum hrun
  rw [Bool.eq_false_iff, ne_eq, isReplayFinished_iff hqueue.numbered]
  intro hfinished
  rw [hfinished] at hwait
  cases hwait

end Qperf.HarConverter
