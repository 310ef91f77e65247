import Qperf.Client.Domains
import Qperf.Client.Pop

/-!
# Scripts and the first image

Scripts behind the first image of a page are meant to wait until the other scripts are
sent.  `scriptAfterFirstImage` compares the resource ids the other way round, so that it is
the scripts in front of the first image that wait.
-/

namespace Qperf.Client

open Qperf.Foundation

/-! ## The configuration -/

def getFirstImageResourceId : List StreamControlBlock → UInt16
  | [] => 0
  | block :: slice =>
    if block.resourceType = "image" then block.resourceId
    else getFirstImageResourceId slice

structure ProgramConfig where
  controlBlockSlice : List StreamControlBlock
  scheduler : DynamicFcfsScheduler controlBlockSlice.length
  serverControlBlockMap : ServerControlBlockMap

def buildProgramConfig (filteredEntries : List FilteredEntry) : ProgramConfig :=
  let controlBlockSlice := buildStreamControlBlockSlice filteredEntries
  { controlBlockSlice := controlBlockSlice
    scheduler := newDynamicFcfsScheduler (getFirstImageResourceId controlBlockSlice)
      controlBlockSlice.get
    serverControlBlockMap := buildServerControlBlockSlice filteredEntries }

/-! ## Runs -/

variable {n : Nat}

inductive SchedulerCall (n : Nat) where
  | enqueue (block : Fin n)
  | finish (event : Completion n)
  | pop

def schedulerStep (s : DynamicFcfsScheduler n) :
    SchedulerCall n → Except GoPanic (DynamicFcfsScheduler n)
  | .enqueue block => .ok (enqueue s block)
  | .finish event => finishStream s event
  | .pop =>
    match popAvailableRequests s with
    | .returned _ t => .ok t
    | .blocked t => .ok t

structure SameBlocks (s t : DynamicFcfsScheduler n) : Prop where
  firstImageResourceId : t.firstImageResourceId = s.firstImageResourceId
  resourceId : ∀ i, (t.controlBlockSlice i).resourceId = (s.controlBlockSlice i).resourceId
  resourceType : ∀ i,
    (t.controlBlockSlice i).resourceType = (s.controlBlockSlice i).resourceType

theorem SameBlocks.refl (s : DynamicFcfsScheduler n) : SameBlocks s s :=
  ⟨rfl, fun _ => rfl, fun _ => rfl⟩

variable {s t : DynamicFcfsScheduler n}

theorem SameBlocks.trans {u : DynamicFcfsScheduler n} (h : SameBlocks s t)
    (h' : SameBlocks t u) : SameBlocks s u :=
  ⟨h'.firstImageResourceId.trans h.firstImageResourceId,
    fun i => (h'.resourceId i).trans (h.resourceId i),
    fun i => (h'.resourceType i).trans (h.resourceType i)⟩

theorem sameBlocks_setBlock (s : DynamicFcfsScheduler n) (i : Fin n) {block : StreamControlBlock}
    (hid : block.resourceId = (s.controlBlockSlice i).resourceId)
    (htype : block.resourceType = (s.controlBlockSlice i).resourceType) :
    SameBlocks s (s.setBlock i block) := by
  refine ⟨rfl, fun j => ?_, fun j => ?_⟩ <;> by_cases hj : j = i
  · subst hj
    rwa [controlBlockSlice_setBlock_self]
  · rw [controlBlockSlice_setBlock_of_ne _ _ hj]
  · subst hj
    rwa [controlBlockSlice_setBlock_self]
  · rw [controlBlockSlice_setBlock_of_ne _ _ hj]

theorem sameBlocks_enqueue (s : DynamicFcfsScheduler n) (i : Fin n) :
    SameBlocks s (enqueue s i) :=
  ⟨rfl, fun _ => rfl, fun _ => rfl⟩

private theorem sameBlocks_releaseBlock {now : Fin n → Int64}
    {i : Fin n} (h : releaseBlock now s i = .ok t) : SameBlocks s t := by
  unfold releaseBlock at h
  split at h
  · obtain ⟨met, -, h⟩ := bind_eq_ok.mp h
    split at h
    · cases h
      have hmarked : SameBlocks s (s.setBlock i ((s.controlBlockSlice i).markEnqueued (now i))) :=
        sameBlocks_setBlock s i rfl rfl
      exact hmarked.trans (sameBlocks_enqueue _ i)
    · cases h
      exact .refl s
  · cases h
    exact .refl s

private theorem sameBlocks_finishStream {event : Completion n}
    (h : finishStream s event = .ok t) : SameBlocks s t := by
  have hmarked : SameBlocks s (s.setBlock event.block
      ((s.controlBlockSlice event.block).markFinished event.finishedAt)) :=
    sameBlocks_setBlock s event.block rfl rfl
  refine hmarked.trans (foldlM_ok_induct (fun _ u => SameBlocks _ u) ?_ (.refl _) h)
  intro _ i _ u v _ hu hv
  exact hu.trans (sameBlocks_releaseBlock hv)

private theorem sameBlocks_pop (h : schedulerStep s .pop = .ok t) : SameBlocks s t := by
  have hsame : ∀ locked queues,
      SameBlocks s { s with locked := locked, queues := queues } := fun _ _ =>
    ⟨rfl, fun _ => rfl, fun _ => rfl⟩
  unfold schedulerStep at h
  cases hlock : s.locked with
  | true =>
    rw [popAvailableRequests_of_locked hlock] at h
    cases h
    exact .refl s
  | false =>
    rw [popAvailableRequests_of_unlocked hlock] at h
    rcases hselect : selectRequest s.queues with ⟨_ | request, queues⟩ <;>
      rw [hselect] at h <;> cases h
    · exact hsame s.locked queues
    · exact hsame true queues

def SchedulerRun (c : ProgramConfig)
    (calls : List (SchedulerCall c.controlBlockSlice.length))
    (s : DynamicFcfsScheduler c.controlBlockSlice.length) : Prop :=
  Trace (fun s call t => schedulerStep s call = .ok t) c.scheduler calls s

theorem SchedulerRun.sameBlocks {c : ProgramConfig}
    {calls : List (SchedulerCall c.controlBlockSlice.length)}
    {s : DynamicFcfsScheduler c.controlBlockSlice.length} (h : SchedulerRun c calls s) :
    SameBlocks c.scheduler s := by
  refine Trace.invariant (SameBlocks c.scheduler) (.refl _) ?_ h
  intro t call u ht hstep
  cases call with
  | enqueue block =>
    cases hstep
    exact ht.trans (sameBlocks_enqueue t block)
  | finish event => exact ht.trans (sameBlocks_finishStream hstep)
  | pop => exact ht.trans (sameBlocks_pop hstep)

/-! ## The first image -/

def firstImage (slice : List StreamControlBlock) : Option StreamControlBlock :=
  slice.find? fun block => block.resourceType = "image"

def AfterFirstImage (slice : List StreamControlBlock) (block : StreamControlBlock) :
    Prop :=
  ∃ image ∈ firstImage slice, image.resourceId < block.resourceId

def BeforeFirstImage (slice : List StreamControlBlock) (block : StreamControlBlock) :
    Prop :=
  ∃ image ∈ firstImage slice, block.resourceId < image.resourceId

instance (slice : List StreamControlBlock) (block : StreamControlBlock) :
    Decidable (AfterFirstImage slice block) :=
  inferInstanceAs (Decidable (∃ image ∈ firstImage slice, _))

instance (slice : List StreamControlBlock) (block : StreamControlBlock) :
    Decidable (BeforeFirstImage slice block) :=
  inferInstanceAs (Decidable (∃ image ∈ firstImage slice, _))

private theorem getFirstImageResourceId_eq (slice : List StreamControlBlock) :
    getFirstImageResourceId slice =
      ((firstImage slice).map StreamControlBlock.resourceId).getD 0 := by
  induction slice with
  | nil => rfl
  | cons block slice ih =>
    rw [getFirstImageResourceId, firstImage, List.find?_cons]
    by_cases himage : block.resourceType = "image"
    · simp [himage]
    · simpa [himage, firstImage] using ih

/-- Without an image, no id is smaller than the 0 that stands for it. -/
theorem scriptAfterFirstImage_iff (slice : List StreamControlBlock) (block : StreamControlBlock) :
    scriptAfterFirstImage block.resourceId (getFirstImageResourceId slice) = true ↔
      BeforeFirstImage slice block := by
  rw [getFirstImageResourceId_eq, scriptAfterFirstImage, BeforeFirstImage]
  cases firstImage slice with
  | none => simp
  | some image => simp

/-- What the scheduler promises about scripts, for every sequence of its calls. -/
structure ScriptsInOrder (c : ProgramConfig) : Prop where
  placed : ∀ calls s, SchedulerRun c calls s →
    ∀ i, (c.controlBlockSlice.get i).resourceType = "script" → (enqueue s i).queues =
        if AfterFirstImage c.controlBlockSlice (c.controlBlockSlice.get i) then
          { s.queues with normalPriorityQueue := s.queues.normalPriorityQueue.put i }
        else { s.queues with highPriorityQueue := s.queues.highPriorityQueue.put i }
  popped : ∀ calls s, SchedulerRun c calls s →
    ∀ i queues, selectRequest s.queues = (some i, queues) →
      (c.controlBlockSlice.get i).resourceType = "script" →
      AfterFirstImage c.controlBlockSlice (c.controlBlockSlice.get i) →
      ∀ j ∈ s.queues.toList.flatten, (c.controlBlockSlice.get j).resourceType = "script" →
        ¬ BeforeFirstImage c.controlBlockSlice (c.controlBlockSlice.get j)

section Promise

variable {c : ProgramConfig}
  (hc : c.scheduler = newDynamicFcfsScheduler
    (getFirstImageResourceId c.controlBlockSlice) c.controlBlockSlice.get)
include hc

theorem SchedulerRun.enqueue_script {calls : List (SchedulerCall c.controlBlockSlice.length)}
    {s : DynamicFcfsScheduler c.controlBlockSlice.length} (hrun : SchedulerRun c calls s)
    {i : Fin c.controlBlockSlice.length}
    (hscript : (c.controlBlockSlice.get i).resourceType = "script") :
    (enqueue s i).queues =
      if BeforeFirstImage c.controlBlockSlice (c.controlBlockSlice.get i) then
        { s.queues with normalPriorityQueue := s.queues.normalPriorityQueue.put i }
      else { s.queues with highPriorityQueue := s.queues.highPriorityQueue.put i } := by
  have hsame := hrun.sameBlocks
  rw [hc] at hsame
  have htype : (s.controlBlockSlice i).resourceType = "script" :=
    (hsame.resourceType i).trans hscript
  have hid : (s.controlBlockSlice i).resourceId = (c.controlBlockSlice.get i).resourceId :=
    hsame.resourceId i
  have hfirst : s.firstImageResourceId = getFirstImageResourceId c.controlBlockSlice :=
    hsame.firstImageResourceId
  simp only [enqueue, selectQueue, htype, hid, hfirst, scriptAfterFirstImage_iff]
  simp

theorem ScriptsInOrder.resourceId_eq (h : ScriptsInOrder c)
    {i : Fin c.controlBlockSlice.length}
    (hscript : (c.controlBlockSlice.get i).resourceType = "script")
    {image : StreamControlBlock} (himage : image ∈ firstImage c.controlBlockSlice) :
    (c.controlBlockSlice.get i).resourceId = image.resourceId := by
  have hplaced := h.placed [] c.scheduler Trace.nil i hscript
  rw [SchedulerRun.enqueue_script hc Trace.nil hscript] at hplaced
  have hput : ∀ queue : SyncFifoQueue c.controlBlockSlice.length, queue.put i ≠ queue :=
    fun queue => by simp [SyncFifoQueue.put]
  simp only [AfterFirstImage, BeforeFirstImage, Option.mem_def.mp himage, Option.mem_some_iff,
    exists_eq_left'] at hplaced
  by_contra hne
  rcases UInt16.lt_or_lt_of_ne hne with hlt | hgt
  · rw [if_pos hlt, if_neg (UInt16.lt_asymm hlt)] at hplaced
    exact hput _ (congrArg DomainQueueBlock.normalPriorityQueue hplaced)
  · rw [if_neg (UInt16.lt_asymm hgt), if_pos hgt] at hplaced
    exact hput _ (congrArg DomainQueueBlock.highPriorityQueue hplaced)

theorem scriptsInOrder_of_resourceId
    (hids : ∀ block ∈ c.controlBlockSlice, block.resourceType = "script" →
      ∀ image ∈ firstImage c.controlBlockSlice, block.resourceId = image.resourceId) :
    ScriptsInOrder c := by
  have hsame : ∀ i, (c.controlBlockSlice.get i).resourceType = "script" →
      ¬ AfterFirstImage c.controlBlockSlice (c.controlBlockSlice.get i) ∧
        ¬ BeforeFirstImage c.controlBlockSlice (c.controlBlockSlice.get i) := by
    intro i hscript
    have hid := hids _ (List.get_mem _ i) hscript
    constructor
    · rintro ⟨image, himage, hlt⟩
      exact UInt16.lt_irrefl _ (hid image himage ▸ hlt)
    · rintro ⟨image, himage, hlt⟩
      exact UInt16.lt_irrefl _ (hid image himage ▸ hlt)
  constructor
  · intro calls s hrun i hscript
    obtain ⟨hafter, hbefore⟩ := hsame i hscript
    rw [hrun.enqueue_script hc hscript, if_neg hbefore, if_neg hafter]
  · intro calls s hrun i queues hselect hscript hlater
    exact absurd hlater (hsame i hscript).1

end Promise

/--
Scripts are placed and popped as promised just if no script has another id than the first
image.
-/
theorem scriptsInOrder_iff (filteredEntries : List FilteredEntry) :
    ScriptsInOrder (buildProgramConfig filteredEntries) ↔
      ∀ block ∈ (buildProgramConfig filteredEntries).controlBlockSlice,
        block.resourceType = "script" →
        ∀ image ∈ firstImage (buildProgramConfig filteredEntries).controlBlockSlice,
          block.resourceId = image.resourceId := by
  constructor
  · intro hpromise block hblock hscript image himage
    obtain ⟨i, rfl⟩ := List.get_of_mem hblock
    exact hpromise.resourceId_eq rfl hscript himage
  · exact scriptsInOrder_of_resourceId rfl

def page (types : List String) : List FilteredEntry :=
  types.mapIdx fun i resourceType =>
    { resourceId := i
      requestUrl := ""
      responseSize := 0
      remainingSize := 0
      resourceType := resourceType
      dependencies := []
      domain := ""
      method := "GET"
      isStarted := false }

theorem scriptsInOrder_noImage :
    ScriptsInOrder (buildProgramConfig (page ["document", "script", "script"])) :=
  (scriptsInOrder_iff _).mpr (by decide +kernel)

def scriptImageScript : ProgramConfig :=
  buildProgramConfig (page ["script", "image", "script"])

/-- The script behind the image is popped before the one in front of it. -/
theorem scripts_reversed : ¬ ScriptsInOrder scriptImageScript ∧
      ((selectRequest (enqueue (enqueue scriptImageScript.scheduler ⟨0, by decide⟩)
        ⟨2, by decide⟩).queues).1).map Fin.val = some 2 := by
  refine ⟨fun hpromise => ?_, by decide +kernel⟩
  have hplaced := hpromise.placed [] _ Trace.nil ⟨0, by decide⟩ (by decide +kernel)
  exact absurd hplaced (by decide +kernel)

end Qperf.Client
