import Mathlib.Data.Finset.Basic
import Mathlib.Data.Rat.Defs
import Mathlib.Algebra.Group.Nat.Defs
import Mathlib.Data.Finset.Lattice.Lemmas
import Mathlib.Data.List.Chain

/-!
# The schedule of the game events

`CheckOneGameEvent`, `NextCheck`, `StartEvent`, `StopEvent` and `Update`
(`GameEventMgr.cpp:44-190`, `937-1062`, `1573-1590`), at a given
`GameTime::GetGameTime()`. Times are whole seconds; products of `uint32` wrap, and
a remainder by zero, which ends the process, is `none`. Spawns, quests, scripts
and rows are left out: of `ApplyNewEvent` and `UnApplyEvent` the calls are kept.
-/
namespace LegionServer.Source.GameEvents
open List Option

inductive GameEventState where
  | normal | worldInactive | worldConditions | worldNextphase | worldFinished | internal
  deriving DecidableEq, Repr

structure GameEventFinishCondition where
  reqNum : ℚ
  done : ℚ
  deriving DecidableEq

structure GameEventData where
  start : Int := 1
  «end» : Int := 0
  nextstart : Int := 0
  /-- Minutes between two starts. -/
  occurence : UInt32 := 0
  /-- Minutes. -/
  length : UInt32 := 0
  state : GameEventState := .normal
  conditions : List GameEventFinishCondition := []
  prerequisiteEvents : List Nat := []
  deriving DecidableEq

namespace GameEventData

variable (event : GameEventData) (currenttime : Int)

/-- `occurence * MINUTE`. -/
def period : Int := (event.occurence * 60).toNat

/-- `length * MINUTE`. -/
def duration : Int := (event.length * 60).toNat

/-- `(currenttime - start) % (occurence * MINUTE)`, at times from `start` on. -/
def phase : Option Int :=
  if event.period = 0 then none else some ((currenttime - event.start) % event.period)

/-- `CheckOneGameEvent` of a normal event. -/
def inWindow : Option Bool :=
  if event.start < currenttime ∧ currenttime < event.end then
    (event.phase currenttime).map fun phase => decide (phase < event.duration)
  else some false

/-- The part of `NextCheck` about an event that has started and is not outdated. -/
def nextChange : Option Nat :=
  (event.phase currenttime).map fun phase =>
    let delay := if phase < event.duration then event.duration - phase else event.period - phase
    if event.end < currenttime + delay then (event.end - currenttime).toNat % 2 ^ 32
    else delay.toNat

end GameEventData

inductive Applied where
  | applyNewEvent (eventId : Nat)
  | unApplyEvent (eventId : Nat)
  deriving DecidableEq, Repr

/-- `mGameEvent` has a slot for each id, the slot 0 unused; ids are of `uint8`. -/
structure GameEventMgr where
  gameEvent : List GameEventData
  activeEvents : Finset Nat := ∅
  applied : List Applied := []

def maxGeCheckDelay : Nat := 86400

namespace GameEventMgr

variable (mgr : GameEventMgr) (currenttime : Int)

def event (entry : Nat) : GameEventData := mgr.gameEvent.getD entry {}

def setEvent (entry : Nat) (event : GameEventData) : GameEventMgr :=
  { mgr with gameEvent := mgr.gameEvent.set entry event }

variable (eventId : Nat)

def isActiveEvent : Bool := decide (eventId ∈ mgr.activeEvents)

/-- A prerequisite is completed, and has been for long enough. -/
def prerequisiteMet (entry : Nat) : Bool :=
  let event := mgr.event entry
  (event.state = .worldNextphase || event.state = .worldFinished) &&
    decide (event.nextstart ≤ currenttime)

def checkOneGameEvent (entry : Nat) : Option Bool :=
  let event := mgr.event entry
  match event.state with
  | .normal => event.inWindow currenttime
  | .worldConditions | .worldNextphase => some true
  | .worldFinished | .internal => some false
  | .worldInactive =>
    some (event.prerequisiteEvents.all (mgr.prerequisiteMet currenttime) &&
      !event.prerequisiteEvents.isEmpty)

def nextCheck (entry : Nat) : Option Nat :=
  let event := mgr.event entry
  if (event.state = .worldNextphase ∨ event.state = .worldFinished) ∧
      currenttime ≤ event.nextstart then
    some ((event.nextstart - currenttime).toNat % 2 ^ 32)
  else if event.state = .worldConditions then
    some (if event.length ≠ 0 then (event.length * 60).toNat else maxGeCheckDelay)
  else if event.end < currenttime then some maxGeCheckDelay
  else if currenttime < event.start then some ((event.start - currenttime).toNat % 2 ^ 32)
  else event.nextChange currenttime

/-- It also takes an event that has all its conditions to the next phase. -/
def checkOneGameEventConditions : GameEventMgr × Bool :=
  let event := mgr.event eventId
  if event.conditions.any fun condition => condition.done < condition.reqNum then (mgr, false)
  else
    let nextstart :=
      if event.nextstart = 0 then currenttime + event.duration else event.nextstart
    (mgr.setEvent eventId { event with state := .worldNextphase, nextstart }, true)

def addActiveEvent : GameEventMgr :=
  { mgr with activeEvents := insert eventId mgr.activeEvents }

def removeActiveEvent : GameEventMgr :=
  { mgr with activeEvents := mgr.activeEvents.erase eventId }

def applyNewEvent (eventId : Nat) : GameEventMgr :=
  { mgr with applied := mgr.applied ++ [.applyNewEvent eventId] }

def unApplyEvent (eventId : Nat) : GameEventMgr :=
  { mgr with applied := mgr.applied ++ [.unApplyEvent eventId] }

/-- As `Update` calls it, with `overwrite` false. -/
def startEvent : GameEventMgr × Bool :=
  let event := mgr.event eventId
  if event.state = .normal ∨ event.state = .internal then
    ((mgr.addActiveEvent eventId).applyNewEvent eventId, false)
  else
    let started :=
      if event.state = .worldInactive then
        mgr.setEvent eventId { event with state := .worldConditions }
      else mgr
    ((started.addActiveEvent eventId).applyNewEvent eventId).checkOneGameEventConditions
      currenttime eventId

/-- As `Update` calls it, with `overwrite` false. -/
def stopEvent : GameEventMgr :=
  let event := mgr.event eventId
  let stopped := (mgr.removeActiveEvent eventId).unApplyEvent eventId
  if event.state ≠ .normal ∧ event.state ≠ .internal ∧ event.state ≠ .worldFinished then
    stopped.setEvent eventId
      { event with
        nextstart := 0
        state := .worldInactive
        conditions := event.conditions.map fun condition => { condition with done := 0 } }
  else stopped

/-- The variables of the loop of `Update`. -/
structure Checking where
  mgr : GameEventMgr
  nextEventDelay : Nat := maxGeCheckDelay
  activate : List Nat := []
  deactivate : List Nat := []

namespace Checking

variable (checking : Checking)

def queueActivation (itr : Nat) : Checking :=
  if checking.mgr.isActiveEvent itr then checking
  else { checking with activate := checking.activate ++ [itr] }

def queueDeactivation (itr : Nat) : Checking :=
  if checking.mgr.isActiveEvent itr then
    { checking with deactivate := checking.deactivate ++ [itr] }
  else checking

/-- The end of the loop's body. -/
def schedule (itr : Nat) : Option Checking :=
  (checking.mgr.nextCheck currenttime itr).map fun calcDelay =>
    { checking with nextEventDelay := min calcDelay checking.nextEventDelay }

def checkEvent (itr : Nat) : Option Checking := do
  if ← checking.mgr.checkOneGameEvent currenttime itr then
    let event := checking.mgr.event itr
    if event.state = .worldNextphase ∧ event.nextstart ≤ currenttime then
      let finished := { event with state := .worldFinished, nextstart := 0 }
      -- this event no longer needs an update timer
      some ({ checking with mgr := checking.mgr.setEvent itr finished }.queueDeactivation itr)
    else
      let mgr :=
        if event.state = .worldConditions then
          (checking.mgr.checkOneGameEventConditions currenttime itr).1
        else checking.mgr
      ({ checking with mgr }.queueActivation itr).schedule currenttime itr
  else (checking.queueDeactivation itr).schedule currenttime itr

end Checking

/-- `StartEvent` of a queued event; its answer sets the delay to 0. -/
def startQueued (state : GameEventMgr × Nat) (itr : Nat) : GameEventMgr × Nat :=
  let (mgr, completed) := state.1.startEvent currenttime itr
  (mgr, if completed then 0 else state.2)

/-- The second result is the delay to the next call, in milliseconds. -/
def update : Option (GameEventMgr × Nat) := do
  let itrs := List.range' 1 (mgr.gameEvent.length - 1)
  let checking ← itrs.foldlM (fun checking itr => checking.checkEvent currenttime itr)
    { mgr := mgr : Checking }
  let (mgr, nextEventDelay) :=
    checking.activate.foldl (startQueued currenttime) (checking.mgr, checking.nextEventDelay)
  some (checking.deactivate.foldl stopEvent mgr, (nextEventDelay + 1) * 1000)

def startSystem : Option (GameEventMgr × Nat) :=
  { mgr with activeEvents := ∅ }.update currenttime

end GameEventMgr

/-!
# What an update does when every event is a normal one

`GameEventMgr.update_eq_some` is the only description of `Update` that the results about schedules
use.
-/

namespace GameEventData

variable (event : GameEventData) (currenttime : Int)

/-- No remainder by zero at a time that the event's window has come to. -/
def Divides : Prop := event.start ≤ currenttime → currenttime ≤ event.end → event.period ≠ 0

instance : Decidable (event.Divides currenttime) := by
  unfold Divides
  infer_instance

/-- `NextCheck` of a normal event. -/
def nextDelay : Option Nat :=
  if event.end < currenttime then some maxGeCheckDelay
  else if currenttime < event.start then some ((event.start - currenttime).toNat % 2 ^ 32)
  else event.nextChange currenttime

variable {event currenttime}

theorem Divides.inWindow_isSome (h : event.Divides currenttime) :
    (event.inWindow currenttime).isSome := by
  unfold inWindow
  split
  · rename_i hwindow
    have hperiod := h (by omega) (by omega)
    simp [phase, hperiod]
  · rfl

theorem divides_iff_nextDelay :
    event.Divides currenttime ↔ (event.nextDelay currenttime).isSome := by
  unfold nextDelay Divides
  split
  · rename_i hend
    simp [maxGeCheckDelay]
    omega
  split
  · rename_i hend hstart
    simp
    omega
  · rename_i hend hstart
    by_cases hperiod : event.period = 0 <;> simp [nextChange, phase, hperiod, hend, hstart]

/-- The slot of an id without an event. -/
@[simp] theorem inWindow_default : inWindow {} currenttime = some false := by
  have h : ¬(1 < currenttime ∧ currenttime < 0) := by omega
  simp [inWindow, h]

end GameEventData

namespace GameEventMgr

variable {mgr : GameEventMgr} {currenttime : Int} {i : Nat}

def AllNormal (mgr : GameEventMgr) : Prop := ∀ i, (mgr.event i).state = .normal

theorem checkOneGameEvent_normal (h : mgr.AllNormal) (i : Nat) :
    mgr.checkOneGameEvent currenttime i = (mgr.event i).inWindow currenttime := by
  simp [checkOneGameEvent, h i]

theorem nextCheck_normal (h : mgr.AllNormal) (i : Nat) :
    mgr.nextCheck currenttime i = (mgr.event i).nextDelay currenttime := by
  simp [nextCheck, h i, GameEventData.nextDelay]

def starts (mgr : GameEventMgr) (currenttime : Int) (i : Nat) : Bool :=
  (mgr.event i).inWindow currenttime = some true && !mgr.isActiveEvent i

def stops (mgr : GameEventMgr) (currenttime : Int) (i : Nat) : Bool :=
  (mgr.event i).inWindow currenttime = some false && mgr.isActiveEvent i

namespace Checking

theorem checkEvent_normal {checking : Checking} (hnormal : checking.mgr.AllNormal) (i : Nat)
    {delay : Nat} (hdelay : (checking.mgr.event i).nextDelay currenttime = some delay) :
    checking.checkEvent currenttime i = some
      { checking with
        nextEventDelay := min delay checking.nextEventDelay
        activate := checking.activate ++ [i].filter (checking.mgr.starts currenttime)
        deactivate := checking.deactivate ++ [i].filter (checking.mgr.stops currenttime) } := by
  have hdivides : (checking.mgr.event i).Divides currenttime :=
    GameEventData.divides_iff_nextDelay.mpr (by simp [hdelay])
  obtain ⟨isOpen, hopen⟩ := isSome_iff_exists.mp hdivides.inWindow_isSome
  have hnext : checking.mgr.nextCheck currenttime i = some delay := by
    rw [nextCheck_normal hnormal, hdelay]
  cases isOpen <;> cases hactive : checking.mgr.isActiveEvent i <;>
    simp [checkEvent, checkOneGameEvent_normal hnormal, hopen, hnormal i, queueActivation,
      queueDeactivation, schedule, hnext, hactive, starts, stops]

theorem checkEvent_none {checking : Checking} (hnormal : checking.mgr.AllNormal)
    (hdelay : (checking.mgr.event i).nextDelay currenttime = none) :
    checking.checkEvent currenttime i = none := by
  have hnext : checking.mgr.nextCheck currenttime i = none := by
    rw [nextCheck_normal hnormal, hdelay]
  cases hopen : (checking.mgr.event i).inWindow currenttime with
  | none => simp [checkEvent, checkOneGameEvent_normal hnormal, hopen]
  | some isOpen =>
    cases isOpen <;> cases hactive : checking.mgr.isActiveEvent i <;>
      simp [checkEvent, checkOneGameEvent_normal hnormal, hopen, hnormal i, queueActivation,
        queueDeactivation, schedule, hnext, hactive]

/-- What the loop has gathered after the ids `itrs`. -/
structure Gathered (checking : Checking) (currenttime : Int) (itrs : List Nat)
    (checked : Checking) : Prop where
  mgr : checked.mgr = checking.mgr
  activate : checked.activate = checking.activate ++ itrs.filter (checking.mgr.starts currenttime)
  deactivate :
    checked.deactivate = checking.deactivate ++ itrs.filter (checking.mgr.stops currenttime)
  le : checked.nextEventDelay ≤ checking.nextEventDelay
  delays : ∀ i ∈ itrs, ∃ delay,
    (checking.mgr.event i).nextDelay currenttime = some delay ∧ checked.nextEventDelay ≤ delay

theorem foldlM_checkEvent {itrs : List Nat} :
    ∀ checking : Checking, checking.mgr.AllNormal →
      (∀ i ∈ itrs, ((checking.mgr.event i).nextDelay currenttime).isSome) →
      ∃ checked, itrs.foldlM (fun checking i => checking.checkEvent currenttime i) checking
        = some checked ∧ checking.Gathered currenttime itrs checked := by
  induction itrs with
  | nil => exact fun checking _ _ => ⟨checking, rfl, by constructor <;> simp⟩
  | cons i itrs ih =>
    intro checking hnormal hdelays
    rw [forall_mem_cons] at hdelays
    obtain ⟨delay, hdelay⟩ := isSome_iff_exists.mp hdelays.1
    rw [foldlM_cons, checkEvent_normal hnormal i hdelay]
    obtain ⟨checked, hchecked, hgathered⟩ := ih
      { checking with
        nextEventDelay := min delay checking.nextEventDelay
        activate := checking.activate ++ [i].filter (checking.mgr.starts currenttime)
        deactivate := checking.deactivate ++ [i].filter (checking.mgr.stops currenttime) }
      hnormal hdelays.2
    have hle := hgathered.le
    simp only [le_inf_iff] at hle
    refine ⟨checked, hchecked, hgathered.mgr, ?_, ?_, hle.2, ?_⟩
    · rw [hgathered.activate, append_assoc, ← filter_append, singleton_append]
    · rw [hgathered.deactivate, append_assoc, ← filter_append, singleton_append]
    · exact forall_mem_cons.mpr ⟨⟨delay, hdelay, hle.1⟩, hgathered.delays⟩

theorem foldlM_checkEvent_none {itrs : List Nat} (hi : i ∈ itrs) :
    ∀ checking : Checking, checking.mgr.AllNormal →
      (checking.mgr.event i).nextDelay currenttime = none →
      itrs.foldlM (fun checking i => checking.checkEvent currenttime i) checking = none := by
  induction itrs with
  | nil => cases hi
  | cons j itrs ih =>
    intro checking hnormal hnone
    cases hdelay : (checking.mgr.event j).nextDelay currenttime with
    | none => simp [foldlM_cons, checkEvent_none hnormal hdelay]
    | some delay =>
      have hne : i ≠ j := by
        rintro rfl
        simp [hnone] at hdelay
      rw [foldlM_cons, checkEvent_normal hnormal j hdelay]
      exact ih (mem_of_ne_of_mem hne hi) _ hnormal hnone

end Checking

theorem foldl_startQueued {itrs : List Nat} :
    ∀ (mgr : GameEventMgr) (delay : Nat), mgr.AllNormal →
      itrs.foldl (startQueued currenttime) (mgr, delay) = ({ mgr with
            activeEvents := mgr.activeEvents ∪ itrs.toFinset
            applied := mgr.applied ++ itrs.map .applyNewEvent }, delay) := by
  induction itrs with
  | nil => exact fun _ _ _ => by simp only [foldl_nil, toFinset_nil, Finset.union_empty,
      map_nil, append_nil]
  | cons i itrs ih =>
    intro mgr delay hnormal
    have hstart : startQueued currenttime (mgr, delay) i =
        ((mgr.addActiveEvent i).applyNewEvent i, delay) := by
      simp [startQueued, startEvent, hnormal i]
    rw [foldl_cons, hstart, ih ((mgr.addActiveEvent i).applyNewEvent i) delay hnormal]
    simp [applyNewEvent, addActiveEvent, Finset.insert_union, Finset.union_insert]

theorem foldl_stopEvent {itrs : List Nat} :
    ∀ mgr : GameEventMgr, mgr.AllNormal → itrs.foldl stopEvent mgr =
        { mgr with
          activeEvents := mgr.activeEvents \ itrs.toFinset
          applied := mgr.applied ++ itrs.map .unApplyEvent } := by
  induction itrs with
  | nil => simp only [foldl_nil, toFinset_nil, Finset.sdiff_empty, map_nil,
      append_nil, implies_true]
  | cons i itrs ih =>
    intro mgr hnormal
    have hstop : mgr.stopEvent i = (mgr.removeActiveEvent i).unApplyEvent i := by
      simp [stopEvent, hnormal i]
    rw [foldl_cons, hstop, ih ((mgr.removeActiveEvent i).unApplyEvent i) hnormal]
    have hsdiff : mgr.activeEvents.erase i \ itrs.toFinset =
        mgr.activeEvents \ insert i itrs.toFinset := by
      ext j
      simp
      tauto
    simp [unApplyEvent, removeActiveEvent, hsdiff]

/-- The ids that the loop of `Update` visits. -/
def ids (mgr : GameEventMgr) : List Nat := List.range' 1 (mgr.gameEvent.length - 1)

structure Updated (mgr : GameEventMgr) (currenttime : Int) (mgr' : GameEventMgr) (delay : Nat) :
    Prop where
  gameEvent : mgr'.gameEvent = mgr.gameEvent
  activeEvents : ∀ i, i ∈ mgr'.activeEvents ↔
    (i ∈ mgr.activeEvents ∨ i ∈ mgr.ids ∧ mgr.starts currenttime i) ∧
      ¬(i ∈ mgr.ids ∧ mgr.stops currenttime i)
  applied : mgr'.applied = mgr.applied ++
    ((mgr.ids.filter (mgr.starts currenttime)).map .applyNewEvent ++
      (mgr.ids.filter (mgr.stops currenttime)).map .unApplyEvent)
  delays : ∀ i ∈ mgr.ids, ∃ nextDelay,
    (mgr.event i).nextDelay currenttime = some nextDelay ∧ delay / 1000 ≤ nextDelay + 1

theorem update_eq_some (hnormal : mgr.AllNormal)
    (hdivides : ∀ i ∈ mgr.ids, (mgr.event i).Divides currenttime) :
    ∃ mgr' delay, mgr.update currenttime = some (mgr', delay) ∧
      mgr.Updated currenttime mgr' delay := by
  obtain ⟨checked, hchecked, hgathered⟩ :=
    Checking.foldlM_checkEvent { mgr := mgr } hnormal
      fun i hi => GameEventData.divides_iff_nextDelay.mp (hdivides i hi)
  obtain ⟨hmgr, hactivate, hdeactivate, -, hdelays⟩ := hgathered
  have hchecked' : checked.mgr.AllNormal := hmgr ▸ hnormal
  let started := mgr.ids.filter (mgr.starts currenttime)
  let stopped := mgr.ids.filter (mgr.stops currenttime)
  have hupdate : mgr.update currenttime = some ({ mgr with
          activeEvents := (mgr.activeEvents ∪ started.toFinset) \ stopped.toFinset
          applied := mgr.applied ++ started.map .applyNewEvent ++ stopped.map .unApplyEvent },
        (checked.nextEventDelay + 1) * 1000) := by
    rw [update, ← ids, hchecked]
    simp only [bind_eq_bind, bind_some]
    rw [foldl_startQueued _ _ hchecked', hactivate, hdeactivate, hmgr]
    exact congrArg (fun stopped => some (stopped, _)) (foldl_stopEvent _ hnormal)
  refine ⟨_, _, hupdate, rfl, ?_, ?_, ?_⟩
  · intro i
    simp only [Finset.mem_sdiff, Finset.mem_union, List.mem_toFinset, mem_filter, started, stopped]
  · simp only [append_assoc, started, stopped]
  · intro i hi
    obtain ⟨nextDelay, hnext, hle⟩ := hdelays i hi
    refine ⟨nextDelay, hnext, ?_⟩
    rw [Nat.mul_div_cancel _ (by decide : 0 < 1000)]
    exact Nat.succ_le_succ hle

theorem update_eq_none (hnormal : mgr.AllNormal) (hi : i ∈ mgr.ids)
    (hdivides : ¬(mgr.event i).Divides currenttime) : mgr.update currenttime = none := by
  have hnone : (mgr.event i).nextDelay currenttime = none := by
    rwa [GameEventData.divides_iff_nextDelay, not_isSome_iff_eq_none] at hdivides
  rw [update, ← ids, Checking.foldlM_checkEvent_none hi { mgr := mgr } hnormal hnone]
  rfl

end GameEventMgr

end LegionServer.Source.GameEvents
