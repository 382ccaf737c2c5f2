import LegionServer.Library.Outcome
import LegionServer.Library.Queues

/-!
# Event processors

What the virtual functions of an event answer may depend on everything that was done to
the events before. Times are milliseconds.
-/
namespace LegionServer.Source.Common
open Library

variable {E : Type*} [DecidableEq E]

inductive AbortState where
  | running | abortScheduled | aborted
  deriving DecidableEq

/-- What is done to an event, in the order in which it is done. -/
inductive EventNote (E : Type*) where
  /-- Taken out of the queue by `Update`, with the time it was due. -/
  | processed (due : Nat) (event : E)
  | executed (event : E)
  | abortScheduled (event : E)
  | aborted (event : E)
  | setAborted (event : E)
  | deleted (event : E)
  deriving DecidableEq

/-- The virtual functions. `Execute` may add its event again, at a time. -/
structure EventCallbacks (E : Type*) where
  execute : List (EventNote E) → E → Bool × Option Nat
  isDeletable : List (EventNote E) → E → Bool

inductive ProcessorFault where
  /-- "Tried to scheduled the abortion of an event twice!" -/
  | scheduledTwice
  /-- "Tried to abort an already aborted event!" -/
  | abortedTwice
  | unfinished

structure EventProcessor (E : Type*) where
  time : Nat := 0
  events : List (Nat × E) := []
  abortState : E → AbortState := fun _ => .running
  addTime : E → Nat := fun _ => 0
  execTime : E → Nat := fun _ => 0
  journal : List (EventNote E) := []

namespace EventProcessor

variable (s : EventProcessor E)

def note (x : EventNote E) : EventProcessor E :=
  { s with journal := s.journal ++ [x] }

def addEvent (event : E) (time : Nat) (setAddTime : Bool := true) : EventProcessor E :=
  { s with
    addTime := if setAddTime then Function.update s.addTime event s.time else s.addTime
    execTime := Function.update s.execTime event time
    events := StableQueue.push Prod.fst (time, event) s.events }

def scheduleAbort (event : E) : Except ProcessorFault (EventProcessor E) :=
  if s.abortState event = .running then
    .ok ({ s with abortState := Function.update s.abortState event .abortScheduled }.note
      (.abortScheduled event))
  else .error .scheduledTwice

def setAborted (s : EventProcessor E) (event : E) : Except ProcessorFault (EventProcessor E) :=
  if s.abortState event = .aborted then .error .abortedTwice
  else
    .ok ({ s with abortState := Function.update s.abortState event .aborted }.note
      (.setAborted event))

def calculateTime (offset : Nat) : Nat := s.time + offset

def nextDue : Option (Nat × E) :=
  match s.events with
  | [] => none
  | first :: _ => if first.1 ≤ s.time then some first else none

variable (callbacks : EventCallbacks E)

/-- A turn of `Update` for an event that is running. -/
def runEvent (s : EventProcessor E) (event : E) : EventProcessor E :=
  let answer := callbacks.execute s.journal event
  let s := s.note (.executed event)
  let s := match answer.2 with
    | some time => s.addEvent event time
    | none => s
  if answer.1 then s.note (.deleted event) else s

/-- The end of a turn of `Update` for an event that is not running. -/
def disposeEvent (s : EventProcessor E) (event : E) : EventProcessor E :=
  if callbacks.isDeletable s.journal event then s.note (.deleted event)
  else s.addEvent event (s.calculateTime 1) false

/-- One turn of the main event loop. -/
def processEvent (s : EventProcessor E) (first : Nat × E) :
    Except ProcessorFault (EventProcessor E) :=
  let event := first.2
  let s := { s with events := s.events.tail }.note (.processed first.1 event)
  match s.abortState event with
  | .running => .ok (s.runEvent callbacks event)
  | .abortScheduled => do
    let s ← (s.note (.aborted event)).setAborted event
    .ok (s.disposeEvent callbacks event)
  | .aborted => .ok (s.disposeEvent callbacks event)

def update (fuel : Nat) (s : EventProcessor E) (time : Nat) :
    Except ProcessorFault (EventProcessor E) :=
  whileSome .unfinished nextDue (processEvent callbacks) fuel { s with time := s.time + time }

/-- "Abort events which weren't aborted already". -/
def abortEvent (event : E) : Except ProcessorFault (EventProcessor E) :=
  if s.abortState event ≠ .aborted then do
    let s ← s.setAborted event
    .ok (s.note (.aborted event))
  else .ok s

/-- One turn of the loop of `KillAllEvents`, with the events that stay. -/
def killEvent (force : Bool) (turn : EventProcessor E × List (Nat × E)) (entry : Nat × E) :
    Except ProcessorFault (EventProcessor E × List (Nat × E)) := do
  let s ← turn.1.abortEvent entry.2
  .ok (if !force && !callbacks.isDeletable s.journal entry.2 then (s, turn.2 ++ [entry])
    else (s.note (.deleted entry.2), turn.2))

def killAllEvents (s : EventProcessor E) (force : Bool) :
    Except ProcessorFault (EventProcessor E) := do
  let (s, events) ← s.events.foldlM (killEvent callbacks force) (s, [])
  .ok { s with events }

def modifyEventTime (event : E) (newTime : Nat) : EventProcessor E :=
  if event ∈ s.events.map Prod.snd then
    { s with
      execTime := Function.update s.execTime event newTime
      events := StableQueue.push Prod.fst (newTime, event)
        (s.events.eraseP fun entry => entry.2 = event) }
  else s

end EventProcessor

inductive ProcessorCall (E : Type*) where
  | addEvent (event : E) (time : Nat) (setAddTime : Bool)
  | scheduleAbort (event : E)
  | modifyEventTime (event : E) (newTime : Nat)
  | update (time : Nat)
  | killAllEvents (force : Bool)

namespace EventProcessor

def call (callbacks : EventCallbacks E) (fuel : Nat) (s : EventProcessor E) :
    ProcessorCall E → Except ProcessorFault (EventProcessor E)
  | .addEvent event time setAddTime => .ok (s.addEvent event time setAddTime)
  | .scheduleAbort event => s.scheduleAbort event
  | .modifyEventTime event newTime => .ok (s.modifyEventTime event newTime)
  | .update time => s.update callbacks fuel time
  | .killAllEvents force => s.killAllEvents callbacks force

end EventProcessor
end LegionServer.Source.Common
