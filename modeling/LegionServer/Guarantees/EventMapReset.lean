import LegionServer.Source.Common.EventMap

/-!
# Resetting an event map

`Reset` clears the queue, the time and the phases. The timer series and the event that was
executed last stay, and a later event or a repeat finds them.
-/
namespace LegionServer.Guarantees.EventMapReset
open Library Source.Common EventMap List StableQueue

variable {s : EventMap} {event : Event} {group phase : Nat}

def Reachable (s : EventMap) : Prop := ∃ cs, (calls cs {}).1 = s

/-- Sequences in which something is scheduled before anything is repeated. -/
def SchedulesFirst : List EventMapCall → Prop
  | [] => True
  | .scheduleEvent .. :: _ | .scheduleEventSeries .. :: _ | .rescheduleEvent .. :: _ => True
  | .repeatEvent _ :: _ => False
  | _ :: cs => SchedulesFirst cs

/-- After `Reset` the map returns what a new one returns. -/
def FullReset (s : EventMap) : Prop :=
  ∀ cs, SchedulesFirst cs → (calls cs s.reset).2 = (calls cs {}).2

/-- The events that the constructor makes from valid indices. -/
def Built (event : Event) : Prop :=
  ∃ id group phase, group ≤ 8 ∧ phase ≤ 8 ∧ event = .of id group phase

structure Kept (s : EventMap) : Prop where
  entries : ∀ entry ∈ s.eventMap, Built entry.2
  lastEvent : Built s.lastEvent
  series : ∀ event times, s.timerSeries event = some times → Built event ∧ times ≠ []

def Adds (s : EventMap) (event : Event) : EventMapCall → Prop
  | .scheduleEvent eventId _ group phase | .rescheduleEvent eventId _ group phase
  | .scheduleEventSeries eventId group phase _ =>
    group ≤ 8 ∧ phase ≤ 8 ∧ event = .of eventId group phase
  | .repeatEvent _ => event = s.lastEvent
  | _ => False

def Pending (P : Event → Prop) (s : EventMap) : Prop := ∀ entry ∈ s.eventMap, P entry.2

def InSeries (P : Event → Prop) (s : EventMap) : Prop :=
  ∀ event times, s.timerSeries event = some times → P event ∧ times ≠ []

/-- A property of queues that nothing a call does with one breaks, for events that meet `may`. -/
structure Held (Q : List (Int × Event) → Prop) (may : Event → Prop) : Prop where
  mem : ∀ {l entry}, Q l → entry ∈ l → may entry.2
  sublist : ∀ {l l'}, Q l → l'.Sublist l → Q l'
  push : ∀ {l time event}, Q l → may event → Q (push Prod.fst (time, event) l)
  merged : ∀ {l m} cache, Q l → (∀ entry ∈ cache, ∃ old ∈ l, old.2 = entry.2) →
    m.Sublist l → Q (merge Prod.fst cache m)

section
variable {Q : List (Int × Event) → Prop} {may : Event → Prop} (hQ : Held Q may)
  (h : Q s.eventMap)
include hQ h

theorem Held.scheduleNextFromSeries (hevent : may event) :
    Q (s.scheduleNextFromSeries event).eventMap := by
  rw [EventMap.scheduleNextFromSeries]
  split
  · exact h
  · exact h
  · exact hQ.push h hevent

theorem Held.cancelIf (cancelled : Event → Bool) : Q (s.cancelIf cancelled).eventMap := by
  rw [EventMap.cancelIf]
  split
  · exact h
  · exact hQ.sublist h filter_sublist

theorem Held.scheduleEvent {eventId : EventId} {time : Int}
    (hadds : ∀ event, Adds s event (.scheduleEvent eventId time group phase) → may event) :
    Q (s.scheduleEvent eventId time group phase).eventMap := by
  rw [EventMap.scheduleEvent]
  split
  · exact h
  split
  · exact h
  · exact hQ.push h (hadds _ ⟨by omega, by omega, rfl⟩)

theorem Held.executeFrom {entries : List (Int × Event)} (hentries : entries.Sublist s.eventMap) :
    Q (s.executeFrom entries).1.eventMap := by
  induction entries with
  | nil => exact hQ.sublist h (nil_sublist _)
  | cons entry entries ih =>
    obtain ⟨time, event⟩ := entry
    have hrest := (sublist_cons_self _ _).trans hentries
    rw [EventMap.executeFrom]
    split
    · exact hQ.sublist h hentries
    split
    · exact ih hrest
    · exact Held.scheduleNextFromSeries (s := { s with eventMap := entries, lastEvent := event }) hQ
        (hQ.sublist h hrest) (hQ.mem h (hentries.subset mem_cons_self))

/-- A call keeps the property. -/
theorem Held.call (c : EventMapCall) (hadds : ∀ event, Adds s event c → may event) :
    Q (s.call c).1.eventMap := by
  have hmoved : ∀ {keep : Int × Event → Bool} {moved : Int × Event → Int},
      ∀ entry ∈ (s.eventMap.filter keep).map fun entry => (moved entry, entry.2),
        ∃ old ∈ s.eventMap, old.2 = entry.2 := by
    intro keep moved entry hentry
    obtain ⟨old, hold, rfl⟩ := mem_map.mp hentry
    exact ⟨old, (mem_filter.mp hold).1, rfl⟩
  cases c with
  | reset => exact hQ.sublist h (nil_sublist _)
  | update time => exact h
  | setPhase phase =>
    rw [EventMap.call, EventMap.setPhase]
    split
    · exact h
    · split <;> exact h
  | addPhase phase =>
    rw [EventMap.call, EventMap.addPhase]
    split <;> exact h
  | removePhase phase =>
    rw [EventMap.call, EventMap.removePhase]
    split <;> exact h
  | scheduleEvent eventId time group phase => exact hQ.scheduleEvent h hadds
  | scheduleEventSeries eventId group phase timeSeries =>
    rw [EventMap.call, EventMap.scheduleEventSeries]
    split
    · exact h
    split
    · exact h
    split
    · exact h
    · exact hQ.scheduleNextFromSeries h (hadds _ ⟨by omega, by omega, rfl⟩)
  | rescheduleEvent eventId time group phase => exact hQ.scheduleEvent (hQ.cancelIf h _) hadds
  | repeatEvent time => exact hQ.push h (hadds _ rfl)
  | executeEvent => exact hQ.executeFrom h (Sublist.refl _)
  | delayEvents delay =>
    refine hQ.merged (m := []) _ h (fun entry hentry => ?_) (nil_sublist _)
    obtain ⟨old, hold, rfl⟩ := mem_map.mp hentry
    exact ⟨old, hold, rfl⟩
  | delayEventsOf delay group =>
    rw [EventMap.call, EventMap.delayEventsOf]
    split
    · exact h
    · refine hQ.merged _ h (fun entry hentry => ?_) filter_sublist
      exact hmoved entry ((mem_merge.mp hentry).resolve_right not_mem_nil)
  | setMinimalDelay eventId delay => exact hQ.merged _ h hmoved filter_sublist
  | cancelEvent eventId => exact hQ.cancelIf h fun event => eventId == event.id
  | cancelEventGroup group =>
    rw [EventMap.call, EventMap.cancelEventGroup]
    split
    · exact h
    · exact hQ.cancelIf h fun event => event.groupMask &&& maskOf group ≠ 0

end

section
variable {P : Event → Prop}

theorem held_pending : Held (fun l => ∀ entry ∈ l, P entry.2) P where
  mem h hentry := h _ hentry
  sublist h hsub entry hentry := h entry (hsub.subset hentry)
  push h hevent entry hentry := by
    rcases mem_push.mp hentry with rfl | hentry
    · exact hevent
    · exact h entry hentry
  merged cache h hcache hsub entry hentry := by
    rcases mem_merge.mp hentry with hentry | hentry
    · obtain ⟨old, hold, heq⟩ := hcache entry hentry
      exact heq ▸ h old hold
    · exact h entry (hsub.subset hentry)

theorem Pending.call (h : Pending P s) (c : EventMapCall)
    (hadds : ∀ event, Adds s event c → P event) : Pending P (s.call c).1 :=
  held_pending.call h c hadds

theorem InSeries.withSeries (h : InSeries P s) {times : Option (List Int)}
    (htimes : times ≠ some []) (hevent : times ≠ none → P event) :
    InSeries P { s with timerSeries := Function.update s.timerSeries event times } := by
  intro other times' htimes'
  change Function.update s.timerSeries event times other = some times' at htimes'
  by_cases hother : other = event
  · subst hother
    rw [Function.update_self] at htimes'
    exact ⟨hevent (by simp [htimes']), fun hnil => htimes (hnil ▸ htimes')⟩
  · rw [Function.update_of_ne hother] at htimes'
    exact h other times' htimes'

theorem InSeries.scheduleNextFromSeries (h : InSeries P s) :
    InSeries P (s.scheduleNextFromSeries event) := by
  rw [EventMap.scheduleNextFromSeries]
  split
  · exact h
  · exact h
  · rename_i hseries
    refine InSeries.withSeries (s := s) h ?_ fun _ => (h _ _ hseries).1
    split
    · exact nofun
    · simpa using ‹¬_›

theorem InSeries.executeFrom (h : InSeries P s) (entries : List (Int × Event)) :
    InSeries P (s.executeFrom entries).1 := by
  induction entries with
  | nil => exact h
  | cons entry entries ih =>
    obtain ⟨time, event⟩ := entry
    rw [EventMap.executeFrom]
    split
    · exact h
    split
    · exact ih
    · exact InSeries.scheduleNextFromSeries h

theorem InSeries.cancelIf (h : InSeries P s) (cancelled : Event → Bool) :
    InSeries P (s.cancelIf cancelled) := by
  rw [EventMap.cancelIf]
  split
  · exact h
  · intro event times htimes
    simp only at htimes
    split at htimes
    · exact nomatch htimes
    · exact h event times htimes

theorem InSeries.call (h : InSeries P s) (c : EventMapCall)
    (hadds : ∀ event, Adds s event c → P event) : InSeries P (s.call c).1 := by
  cases c with
  | scheduleEventSeries eventId group phase timeSeries =>
    rw [EventMap.call, EventMap.scheduleEventSeries]
    split
    · exact h
    split
    · exact h
    split
    · exact h
    · refine InSeries.scheduleNextFromSeries (h.withSeries ?_ fun _ => ?_)
      · simp [*]
      · exact hadds _ ⟨by omega, by omega, rfl⟩
  | rescheduleEvent eventId time group phase =>
    rw [EventMap.call, EventMap.rescheduleEvent, EventMap.scheduleEvent]
    have hcancelled := h.cancelIf fun event => eventId == event.id
    split
    · exact hcancelled
    · split <;> exact hcancelled
  | executeEvent => exact h.executeFrom _
  | cancelEvent eventId => exact h.cancelIf fun event => eventId == event.id
  | cancelEventGroup group =>
    rw [EventMap.call, EventMap.cancelEventGroup]
    split
    · exact h
    · exact h.cancelIf fun event => event.groupMask &&& maskOf group ≠ 0
  | _ =>
    dsimp only [EventMap.call, EventMap.scheduleEvent, EventMap.setPhase, EventMap.addPhase,
      EventMap.removePhase, EventMap.delayEventsOf]
    repeat' split
    all_goals exact h

theorem lastEvent_scheduleNextFromSeries :
    (s.scheduleNextFromSeries event).lastEvent = s.lastEvent := by
  rw [scheduleNextFromSeries]
  split <;> rfl

theorem Pending.lastEvent {entries : List (Int × Event)} (h : P s.lastEvent)
    (hentries : ∀ entry ∈ entries, P entry.2) : P (s.executeFrom entries).1.lastEvent := by
  induction entries with
  | nil => exact h
  | cons entry entries ih =>
    obtain ⟨hentry, hrest⟩ := forall_mem_cons.mp hentries
    rw [executeFrom]
    split
    · exact h
    split
    · exact ih hrest
    · rw [lastEvent_scheduleNextFromSeries]
      exact hentry

end

theorem Kept.call (h : Kept s) (c : EventMapCall) : Kept (s.call c).1 := by
  have hadds : ∀ event, Adds s event c → Built event := by
    intro event hadd
    cases c with
    | repeatEvent time => exact hadd ▸ h.lastEvent
    | scheduleEvent | rescheduleEvent | scheduleEventSeries => exact ⟨_, _, _, hadd⟩
    | _ => exact hadd.elim
  refine ⟨Pending.call h.entries c hadds, ?_, InSeries.call h.series c hadds⟩
  cases c with
  | executeEvent => exact Pending.lastEvent h.lastEvent h.entries
  | scheduleEventSeries eventId group phase timeSeries =>
    dsimp only [EventMap.call, EventMap.scheduleEventSeries]
    repeat' split
    all_goals simpa only [lastEvent_scheduleNextFromSeries] using h.lastEvent
  | _ =>
    dsimp only [EventMap.call, EventMap.scheduleEvent, EventMap.setPhase, EventMap.addPhase,
      EventMap.removePhase, EventMap.delayEventsOf, EventMap.rescheduleEvent, EventMap.cancelEvent,
      EventMap.cancelEventGroup, EventMap.cancelIf]
    repeat' split
    all_goals exact h.lastEvent

theorem Kept.calls (h : Kept s) (cs : List EventMapCall) : Kept (calls cs s).1 := by
  induction cs generalizing s with
  | nil => exact h
  | cons c cs ih => exact ih (h.call c)

theorem built_default : Built {} := ⟨0, 0, 0, by decide, by decide, rfl⟩

theorem kept_new : Kept {} := ⟨nofun, built_default, nofun⟩

theorem Reachable.kept (h : Reachable s) : Kept s := by
  obtain ⟨cs, rfl⟩ := h
  exact kept_new.calls cs

theorem reset_eq_new (hseries : ∀ event, s.timerSeries event = none) (hlast : s.lastEvent = {}) :
    s.reset = {} := by
  have hseries' : s.timerSeries = fun _ => none := funext hseries
  rw [reset, hlast, hseries']

@[simp] theorem later_zero : later minTime 0 = minTime := by decide

@[simp] theorem minTime_lt : minTime < later minTime 1 := by decide

@[simp] theorem not_later_lt : ¬later minTime 1 < minTime := by decide

/-- An event that is scheduled and executed calls up what is left of its series. -/
theorem fullReset_series (hkept : Kept s) (h : FullReset s) (event : Event) :
    s.timerSeries event = none := by
  by_contra hsome
  obtain ⟨times, htimes⟩ := Option.ne_none_iff_exists'.mp hsome
  obtain ⟨⟨id, group, phase, hgroup, hphase, rfl⟩, hne⟩ := hkept.series _ _ htimes
  obtain ⟨time, times, rfl⟩ := exists_cons_of_ne_nil hne
  have hcs := h [.scheduleEvent id 0 group phase, .executeEvent,
    .scheduleEvent (id + 1) time 0 0, .update time, .executeEvent] trivial
  simp [calls, call, scheduleEvent, emplace, executeEvent, executeFrom,
    scheduleNextFromSeries, reset, update, htimes, push_cons,
    Nat.not_lt.mpr hgroup, Nat.not_lt.mpr hphase] at hcs
  exact absurd hcs (by simp [Event.of])

/-- The event that was executed last comes back by its id. -/
theorem fullReset_lastId (h : FullReset s) : s.lastEvent.id = 0 := by
  have hcs := h [.scheduleEvent 1 1 0 0, .repeatEvent 0, .executeEvent] trivial
  simpa [calls, call, scheduleEvent, emplace, repeatEvent, executeEvent,
    executeFrom, reset, push_cons] using hcs

@[simp] theorem maskOf_zero : maskOf 0 = 0 := rfl

/-- It is cancelled with a group that the default event is not in. -/
theorem fullReset_lastGroup (hkept : Kept s) (h : FullReset s) : s.lastEvent.groupMask = 0 := by
  by_contra hne
  obtain ⟨id, group, phase, hgroup, -, hlast⟩ := hkept.lastEvent
  have hmask : s.lastEvent.groupMask = maskOf group := by rw [hlast, Event.of]
  rw [hmask] at hne
  have hpos : group ≠ 0 := fun h => hne (h ▸ maskOf_zero)
  have hcs := h [.scheduleEvent 1 1 0 0, .repeatEvent 0, .cancelEventGroup group, .update 1,
    .executeEvent] trivial
  simp only [BitVec.ofNat_eq_ofNat] at hne
  simp [calls, call, scheduleEvent, emplace, repeatEvent, executeEvent,
    executeFrom, reset, update, cancelEventGroup, cancelIf,
    empty, push_cons, Nat.not_lt.mpr hgroup, hpos, hmask, hne, Event.of] at hcs

/-- A phase in which an event of another phase is not executed. -/
theorem exists_otherPhase : ∀ phase ≤ 8, maskOf phase ≠ 0 →
    ∃ other ∈ [1, 2], maskOf other ≠ 0 ∧ maskOf phase &&& maskOf other = 0 := by
  decide

/-- It is passed over in a phase that it does not belong to. -/
theorem fullReset_lastPhase (hkept : Kept s) (h : FullReset s) : s.lastEvent.phaseMask = 0 := by
  by_contra hne
  obtain ⟨id, group, phase, -, hphase, hlast⟩ := hkept.lastEvent
  have hmask : s.lastEvent.phaseMask = maskOf phase := by rw [hlast, Event.of]
  rw [hmask] at hne
  obtain ⟨other, hother, hother0, hand⟩ := exists_otherPhase phase hphase hne
  have hpos : other ≠ 0 ∧ other ≤ 8 := by
    simp only [mem_cons, not_mem_nil, or_false] at hother
    omega
  have hcs := h [.scheduleEvent 1 1 0 0, .repeatEvent 0, .setPhase other, .update 1,
    .executeEvent] trivial
  simp only [BitVec.ofNat_eq_ofNat] at hne hother0 hand
  simp [calls, call, scheduleEvent, emplace, repeatEvent, executeEvent,
    executeFrom, reset, update, setPhase, push_cons, hpos,
    hmask, hne, hother0, hand, Event.of] at hcs

/-- `Reset` is a full reset just where no series is left and nothing was executed but the default
event. -/
theorem fullReset_iff (h : Reachable s) :
    FullReset s ↔ (∀ event, s.timerSeries event = none) ∧ s.lastEvent = {} := by
  have hkept := h.kept
  constructor
  · intro hfull
    refine ⟨fullReset_series hkept hfull, ?_⟩
    have hid := fullReset_lastId hfull
    have hgroup := fullReset_lastGroup hkept hfull
    have hphase := fullReset_lastPhase hkept hfull
    cases hlast : s.lastEvent
    rw [hlast] at hid hgroup hphase
    simp only at hid hgroup hphase
    rw [hid, hgroup, hphase]
  · rintro ⟨hseries, hlast⟩ cs -
    rw [reset_eq_new hseries hlast]

/-- A series of two, of which one time is left when the map is reset. -/
def interrupted : EventMap := (calls [.scheduleEventSeries 1 0 0 [1000, 2000]] {}).1

/-- A series of two that is cancelled before the map is reset, with another event pending. -/
def cancelled : EventMap :=
  (calls [.scheduleEventSeries 1 0 0 [1000, 2000], .update 400, .cancelEvent 1,
    .scheduleEvent 2 300 0 0, .setPhase 3] {}).1

/-- Only the cancelled series leaves nothing behind. -/
theorem fullReset_iff_cancelled : FullReset cancelled ∧ ¬FullReset interrupted := by
  refine ⟨(fullReset_iff ⟨_, rfl⟩).mpr ⟨fun event => ?_, rfl⟩, fun hfull => ?_⟩
  · change (if (1 == event.id) = true then none else
      Function.update (Function.update (fun _ => none) (Event.of 1 0 0) _) (Event.of 1 0 0) _ event) =
        none
    split
    · rfl
    · rename_i hid
      have hne : event ≠ Event.of 1 0 0 := by
        rintro rfl
        exact hid rfl
      rw [Function.update_of_ne hne, Function.update_of_ne hne]
  · exact absurd (((fullReset_iff ⟨_, rfl⟩).mp hfull).1 (.of 1 0 0)) (by decide)

def askedTwice : List EventMapCall :=
  [.scheduleEvent 1 1000 0 0, .update 1000, .executeEvent, .update 2000, .executeEvent]

/-- Event 1 comes a second time, though it was scheduled once after the reset. -/
theorem interrupted_not_reset :
    Reachable interrupted ∧ SchedulesFirst askedTwice ∧
      (calls askedTwice interrupted.reset).2.map Prod.snd = [1, 1] ∧
      (calls askedTwice {}).2.map Prod.snd = [1, 0] ∧ ¬FullReset interrupted := by
  have hreached : Reachable interrupted := ⟨_, rfl⟩
  have hold : (calls askedTwice interrupted.reset).2.map Prod.snd = [1, 1] := by
    decide +kernel
  have hnew : (calls askedTwice {}).2.map Prod.snd = [1, 0] := by decide +kernel
  refine ⟨hreached, trivial, hold, hnew, fun hfull => ?_⟩
  have hcs := hfull askedTwice trivial
  exact absurd hcs (by decide)

end LegionServer.Guarantees.EventMapReset
