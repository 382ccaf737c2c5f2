import LegionServer.Library.Queues
import Mathlib.Algebra.Ring.Int.Defs

/-!
# Event maps

Times are 64-bit counts of nanoseconds, from `TimePoint::min()` on; what is beyond them wraps
around. Delays are milliseconds.
-/
namespace LegionServer.Source.Common
open Library

abbrev EventId := UInt16

namespace EventMap

/-- `TimePoint::min()` -/
def minTime : Int := -2 ^ 63

def later (time delay : Int) : Int := (time + 1000000 * delay + 2 ^ 63) % 2 ^ 64 - 2 ^ 63

/-- `1u << (index - 1u)`, and nothing for the index 0. -/
def maskOf (index : Nat) : BitVec 8 := if index = 0 then 0 else 1 <<< (index - 1)

structure Event where
  id : EventId := 0
  groupMask : BitVec 8 := 0
  phaseMask : BitVec 8 := 0
  deriving DecidableEq

/-- The constructor, which takes indices. -/
def Event.of (id : EventId) (group phase : Nat) : Event := ⟨id, maskOf group, maskOf phase⟩

end EventMap

open EventMap

structure EventMap where
  eventMap : List (Int × Event) := []
  time : Int := minTime
  phaseMask : BitVec 8 := 0
  lastEvent : Event := {}
  /-- `_timerSeries`: what a `std::map` has at each key. -/
  timerSeries : Event → Option (List Int) := fun _ => none

namespace EventMap

variable (s : EventMap)

def empty : Bool := s.eventMap.isEmpty

def emplace (time : Int) (event : Event) : EventMap :=
  { s with eventMap := StableQueue.push Prod.fst (time, event) s.eventMap }

def reset : EventMap := { s with eventMap := [], time := minTime, phaseMask := 0 }

def update (time : Int) : EventMap := { s with time := later s.time time }

def setPhase (phase : Nat) : EventMap :=
  if phase = 0 then { s with phaseMask := 0 }
  else if phase ≤ 8 then { s with phaseMask := maskOf phase }
  else s

def addPhase (phase : Nat) : EventMap :=
  if phase ≠ 0 ∧ phase ≤ 8 then { s with phaseMask := s.phaseMask ||| maskOf phase } else s

def removePhase (phase : Nat) : EventMap :=
  if phase ≠ 0 ∧ phase ≤ 8 then { s with phaseMask := s.phaseMask &&& ~~~maskOf phase } else s

variable (eventId : EventId)

def scheduleEvent (time : Int) (group phase : Nat) : EventMap :=
  if 8 < group then s
  else if 8 < phase then s
  else s.emplace (later s.time time) (.of eventId group phase)

/-- The loop of `CancelEvent` and of `CancelEventGroup` over both containers. -/
def cancelIf (cancelled : Event → Bool) : EventMap :=
  if s.empty then s
  else
    { s with
      eventMap := s.eventMap.filter fun entry => !cancelled entry.2
      timerSeries := fun event => if cancelled event then none else s.timerSeries event }

def cancelEvent : EventMap := s.cancelIf fun event => eventId == event.id

def cancelEventGroup (group : Nat) : EventMap :=
  if group = 0 ∨ 8 < group then s
  else s.cancelIf fun event => event.groupMask &&& maskOf group ≠ 0

def rescheduleEvent (time : Int) (group phase : Nat) : EventMap :=
  (s.cancelEvent eventId).scheduleEvent eventId time group phase

def repeatEvent (time : Int) : EventMap := s.emplace (later s.time time) s.lastEvent

def scheduleNextFromSeries (event : Event) : EventMap :=
  match s.timerSeries event with
  | none => s
  -- no entry of the map is empty
  | some [] => s
  | some (time :: times) =>
    { s.emplace (later s.time time) event with
      timerSeries := Function.update s.timerSeries event (if times = [] then none else some times) }

def scheduleEventSeries (group phase : Nat) (timeSeries : List Int) : EventMap :=
  if 8 < group then s
  else if 8 < phase then s
  else if timeSeries = [] then s
  else
    let event := Event.of eventId group phase
    let series := (s.timerSeries event).getD [] ++ timeSeries
    scheduleNextFromSeries
      { s with timerSeries := Function.update s.timerSeries event (some series) } event

/-- The loop of `ExecuteEvent`, which takes entries off the front. -/
def executeFrom : List (Int × Event) → EventMap × EventId
  | [] => ({ s with eventMap := [] }, 0)
  | (time, event) :: entries =>
    if s.time < time then ({ s with eventMap := (time, event) :: entries }, 0)
    else if s.phaseMask ≠ 0 ∧ event.phaseMask ≠ 0 ∧ event.phaseMask &&& s.phaseMask = 0 then
      executeFrom entries
    else
      (scheduleNextFromSeries { s with eventMap := entries, lastEvent := event } event, event.id)

def executeEvent : EventMap × EventId := s.executeFrom s.eventMap

/-- The entries of a container, one after the other, in a new one. -/
def delayed (delay : Int) (entries : List (Int × Event)) : List (Int × Event) :=
  StableQueue.merge Prod.fst (entries.map fun entry => (later entry.1 delay, entry.2)) []

def delayEvents (delay : Int) : EventMap := { s with eventMap := delayed delay s.eventMap }

def delayEventsOf (delay : Int) (group : Nat) : EventMap :=
  if group = 0 ∨ 8 < group ∨ s.empty then s
  else
    let inGroup := fun entry : Int × Event => entry.2.groupMask &&& maskOf group ≠ 0
    { s with
      eventMap := StableQueue.merge Prod.fst (delayed delay (s.eventMap.filter inGroup))
        (s.eventMap.filter fun entry => !inGroup entry) }

/-- Entries that are due too early go to the minimal time, in their order. -/
def setMinimalDelay (delay : Int) : EventMap :=
  let early := fun entry : Int × Event => eventId = entry.2.id ∧ entry.1 < later s.time delay
  let moved := (s.eventMap.filter early).map fun entry => (later s.time delay, entry.2)
  { s with
    eventMap := StableQueue.merge Prod.fst moved (s.eventMap.filter fun entry => !early entry) }

end EventMap

/-- The operations of an event map, random times drawn. -/
inductive EventMapCall where
  | reset
  | update (time : Int)
  | setPhase (phase : Nat)
  | addPhase (phase : Nat)
  | removePhase (phase : Nat)
  | scheduleEvent (eventId : EventId) (time : Int) (group phase : Nat)
  | scheduleEventSeries (eventId : EventId) (group phase : Nat) (timeSeries : List Int)
  | rescheduleEvent (eventId : EventId) (time : Int) (group phase : Nat)
  | repeatEvent (time : Int)
  | executeEvent
  | delayEvents (delay : Int)
  | delayEventsOf (delay : Int) (group : Nat)
  | setMinimalDelay (eventId : EventId) (delay : Int)
  | cancelEvent (eventId : EventId)
  | cancelEventGroup (group : Nat)

namespace EventMap

/-- The state after a call; `ExecuteEvent` also returns an event id, at a time. -/
def call (s : EventMap) : EventMapCall → EventMap × List (Int × EventId)
  | .reset => (s.reset, [])
  | .update time => (s.update time, [])
  | .setPhase phase => (s.setPhase phase, [])
  | .addPhase phase => (s.addPhase phase, [])
  | .removePhase phase => (s.removePhase phase, [])
  | .scheduleEvent eventId time group phase => (s.scheduleEvent eventId time group phase, [])
  | .scheduleEventSeries eventId group phase timeSeries =>
    (s.scheduleEventSeries eventId group phase timeSeries, [])
  | .rescheduleEvent eventId time group phase => (s.rescheduleEvent eventId time group phase, [])
  | .repeatEvent time => (s.repeatEvent time, [])
  | .executeEvent => (s.executeEvent.1, [(s.time, s.executeEvent.2)])
  | .delayEvents delay => (s.delayEvents delay, [])
  | .delayEventsOf delay group => (s.delayEventsOf delay group, [])
  | .setMinimalDelay eventId delay => (s.setMinimalDelay eventId delay, [])
  | .cancelEvent eventId => (s.cancelEvent eventId, [])
  | .cancelEventGroup group => (s.cancelEventGroup group, [])

def calls : List EventMapCall → EventMap → EventMap × List (Int × EventId)
  | [], s => (s, [])
  | c :: cs, s =>
    let rest := calls cs (s.call c).1
    (rest.1, (s.call c).2 ++ rest.2)

end EventMap
end LegionServer.Source.Common
