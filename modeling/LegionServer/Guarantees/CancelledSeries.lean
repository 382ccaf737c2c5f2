import LegionServer.Guarantees.EventOrder

/-!
# Cancelled events

`CancelEvent` and `CancelEventGroup` leave nothing pending of what they cancel. They
return at once where nothing at all is pending, and then a series stays behind whose
event was passed over in another phase: the next series of the event goes on with it.
-/
namespace LegionServer.Guarantees.CancelledSeries
open Library Source.Common EventMap EventMapReset EventOrder List

def AddsNone (cancelled : Event → Bool) : EventMap → List EventMapCall → Prop
  | _, [] => True
  | s, c :: cs => (∀ event, Adds s event c → cancelled event = false) ∧
      AddsNone cancelled (s.call c).1 cs

/-- `ExecuteEvent` returns the event. -/
def Returns (s : EventMap) (event : Event) : Prop :=
  (∃ entry ∈ s.eventMap, entry.1 ≤ s.time ∧ entry.2 = event) ∧ ¬Excluded s event ∧
    s.executeEvent.2 = event.id ∧ s.executeEvent.1.lastEvent = event

open Classical in
/-- The times at which the event is returned. -/
noncomputable def firings (event : Event) : List EventMapCall → EventMap → List Int
  | [], _ => []
  | c :: cs, s =>
    (if c = .executeEvent ∧ Returns s event then [s.time] else []) ++ firings event cs (s.call c).1

/-- Firings of a series so far: each has a timer, which runs from the firing before. -/
def Timed (start : Int) : List Int → List Int → Prop
  | [], _ => True
  | _ :: _, [] => False
  | time :: fired, timer :: timers => later start timer ≤ time ∧ Timed time fired timers

def dueAfter (start : Int) : List Int → List Int → List Int
  | [], timers => timers.head?.toList.map (later start)
  | time :: fired, timers => dueAfter time fired timers.tail

def Leaves (s : EventMap) (event : Event) (c : EventMapCall) : Prop :=
  ¬Adds s event c ∧ match c with
    | .reset | .delayEvents _ => False
    | .delayEventsOf _ group | .cancelEventGroup group => event.groupMask &&& maskOf group = 0
    | .setMinimalDelay eventId _ | .cancelEvent eventId | .rescheduleEvent eventId .. =>
      eventId ≠ event.id
    | _ => True

def LeftAlone (event : Event) : EventMap → List EventMapCall → Prop
  | _, [] => True
  | s, c :: cs => Leaves s event c ∧ LeftAlone event (s.call c).1 cs

/-- Whenever the map is asked, the event is not excluded. -/
def InPhase (event : Event) : EventMap → List EventMapCall → Prop
  | _, [] => True
  | s, c :: cs => (c = .executeEvent → ¬Excluded s event) ∧ InPhase event (s.call c).1 cs

def pendingOf (event : Event) (s : EventMap) : List (Int × Event) :=
  s.eventMap.filter (·.2 = event)

/-- A series that was scheduled at a time fires at its own timers. It never fires before one
has run out; while it is in phase, what is pending is the next one; and it is returned when it
is due and first in the queue. -/
structure FiresOwn (event : Event) (start : Int) (timers : List Int) (s : EventMap) : Prop where
  timed : ∀ cs, LeftAlone event s cs → Timed start (firings event cs s) timers
  pending : ∀ cs, LeftAlone event s cs → InPhase event s cs →
    (pendingOf event (calls cs s).1).map Prod.fst = dueAfter start (firings event cs s) timers
  returned : ∀ cs time rest, (calls cs s).1.eventMap = (time, event) :: rest →
    time ≤ (calls cs s).1.time → ¬Excluded (calls cs s).1 event → Returns (calls cs s).1 event

/-- However the map is used after, short of adding one of the events, none of them is
pending, and a series of one of them that is scheduled then fires at its own timers. -/
structure Cancelled (cancelled : Event → Bool) (s : EventMap) : Prop where
  never : ∀ cs, AddsNone cancelled s cs → ∀ entry ∈ (calls cs s).1.eventMap,
    cancelled entry.2 = false
  firesOwn : ∀ cs, AddsNone cancelled s cs → ∀ eventId group phase timeSeries, group ≤ 8 →
    phase ≤ 8 → cancelled (.of eventId group phase) = true →
    FiresOwn (.of eventId group phase) (calls cs s).1.time timeSeries
      ((calls cs s).1.scheduleEventSeries eventId group phase timeSeries)

variable {cancelled : Event → Bool} {s : EventMap} {cs : List EventMapCall} {c : EventMapCall}
  {event other : Event} {start : Int} {timers : List Int} {cache l : List (Int × Event)}

theorem AddsNone.calls {P : EventMap → Prop} (hcs : AddsNone cancelled s cs) (h : P s)
    (hcall : ∀ s c, P s → (∀ event, Adds s event c → cancelled event = false) → P (s.call c).1) :
    P (EventMap.calls cs s).1 := by
  induction cs generalizing s with
  | nil => exact h
  | cons c cs ih => exact ih hcs.2 (hcall s c h hcs.1)

/-!
What the calls do to the entries of one event.
-/

theorem filter_push {time : Int} (hne : other ≠ event) :
    (StableQueue.push Prod.fst (time, other) l).filter (·.2 = event) =
      l.filter (·.2 = event) := by
  induction l with
  | nil => simp [hne]
  | cons entry l ih =>
    rw [StableQueue.push_cons]
    split
    · rw [filter_cons_of_neg (by simpa using hne)]
    · rw [filter_cons, filter_cons, ih]

theorem filter_merge (hcache : ∀ entry ∈ cache, entry.2 ≠ event) :
    (StableQueue.merge Prod.fst cache l).filter (·.2 = event) = l.filter (·.2 = event) := by
  induction cache generalizing l with
  | nil => rfl
  | cons entry cache ih =>
    obtain ⟨hentry, hrest⟩ := forall_mem_cons.mp hcache
    exact (ih hrest).trans (filter_push hentry)

theorem filter_kept {p : Int × Event → Bool} (hp : ∀ entry, entry.2 = event → p entry = true) :
    (l.filter p).filter (·.2 = event) = l.filter (·.2 = event) := by
  rw [filter_filter]
  refine filter_congr fun entry _ => ?_
  by_cases hentry : entry.2 = event
  · simp [hentry, hp entry hentry]
  · simp [hentry]

structure Same (event : Event) (s s' : EventMap) : Prop where
  pending : pendingOf event s' = pendingOf event s
  series : s'.timerSeries event = s.timerSeries event

theorem same_scheduleNextFromSeries (hne : other ≠ event) :
    Same event s (s.scheduleNextFromSeries other) := by
  rw [scheduleNextFromSeries]
  split
  · exact ⟨rfl, rfl⟩
  · exact ⟨rfl, rfl⟩
  · exact ⟨filter_push hne, Function.update_of_ne hne.symm ..⟩

theorem same_scheduleEvent {eventId : EventId} {t : Int} {group phase : Nat}
    (hadds : ¬Adds s event (.scheduleEvent eventId t group phase)) :
    Same event s (s.scheduleEvent eventId t group phase) := by
  rw [scheduleEvent]
  split
  · exact ⟨rfl, rfl⟩
  split
  · exact ⟨rfl, rfl⟩
  · exact ⟨filter_push fun heq => hadds ⟨by omega, by omega, heq.symm⟩, rfl⟩

theorem same_cancelIf {p : Event → Bool} (hevent : p event = false) :
    Same event s (s.cancelIf p) := by
  rw [cancelIf]
  split
  · exact ⟨rfl, rfl⟩
  · refine ⟨filter_kept fun entry hentry => ?_, if_neg ?_⟩
    · rw [hentry, hevent]
      rfl
    · rw [hevent]
      exact Bool.false_ne_true

theorem same_merged {early : Int × Event → Bool} (hcache : ∀ entry ∈ cache, entry.2 ≠ event)
    (hearly : ∀ entry, entry.2 = event → early entry = false) :
    (StableQueue.merge Prod.fst cache (l.filter fun entry => !early entry)).filter (·.2 = event) =
      l.filter (·.2 = event) := by
  rw [filter_merge hcache, filter_kept fun entry hentry => by rw [hearly entry hentry]; rfl]

/-- Such a call leaves the timers of the event. -/
theorem Leaves.same (h : Leaves s event c) (hc : c ≠ .executeEvent) :
    Same event s (s.call c).1 := by
  obtain ⟨hadds, hleaves⟩ := h
  have hmoved : ∀ {early : Int × Event → Bool} {moved : Int × Event → Int},
      (∀ entry, entry.2 = event → early entry = false) →
        ∀ entry ∈ (s.eventMap.filter early).map fun entry => (moved entry, entry.2),
          entry.2 ≠ event := by
    intro early moved hearly entry hentry heq
    obtain ⟨old, hold, rfl⟩ := mem_map.mp hentry
    exact absurd (mem_filter.mp hold).2 (by rw [hearly old heq]; exact Bool.false_ne_true)
  cases c with
  | reset => exact hleaves.elim
  | delayEvents delay => exact hleaves.elim
  | executeEvent => exact absurd rfl hc
  | update time => exact ⟨rfl, rfl⟩
  | scheduleEvent eventId time group phase => exact same_scheduleEvent hadds
  | scheduleEventSeries eventId group phase timeSeries =>
    rw [call, scheduleEventSeries]
    split
    · exact ⟨rfl, rfl⟩
    split
    · exact ⟨rfl, rfl⟩
    split
    · exact ⟨rfl, rfl⟩
    · have hne : Event.of eventId group phase ≠ event := fun heq =>
        hadds ⟨by omega, by omega, heq.symm⟩
      obtain ⟨hpending, hseries⟩ := same_scheduleNextFromSeries hne
      exact ⟨hpending, hseries.trans (Function.update_of_ne hne.symm ..)⟩
  | rescheduleEvent eventId time group phase =>
    have hcancelled := same_cancelIf (s := s) (p := fun event => eventId == event.id)
      (beq_false_of_ne hleaves)
    have hscheduled := same_scheduleEvent (s := s.cancelEvent eventId) (t := time) hadds
    exact ⟨hscheduled.pending.trans hcancelled.pending,
      hscheduled.series.trans hcancelled.series⟩
  | repeatEvent time => exact ⟨filter_push fun heq => hadds heq.symm, rfl⟩
  | delayEventsOf delay group =>
    rw [call, delayEventsOf]
    split
    · exact ⟨rfl, rfl⟩
    · have hgroup : ∀ entry : Int × Event, entry.2 = event →
          decide (entry.2.groupMask &&& maskOf group ≠ 0) = false := by
        rintro entry rfl
        simpa using hleaves
      refine ⟨same_merged (fun entry hentry => ?_) hgroup, rfl⟩
      exact hmoved hgroup entry ((StableQueue.mem_merge.mp hentry).resolve_right not_mem_nil)
  | setMinimalDelay eventId delay =>
    have hearly : ∀ entry : Int × Event, entry.2 = event →
        decide (eventId = entry.2.id ∧ entry.1 < later s.time delay) = false := by
      rintro entry rfl
      simpa using fun heq => absurd heq hleaves
    exact ⟨same_merged (hmoved hearly) hearly, rfl⟩
  | cancelEvent eventId =>
    exact same_cancelIf (p := fun event => eventId == event.id) (beq_false_of_ne hleaves)
  | cancelEventGroup group =>
    rw [call, cancelEventGroup]
    split
    · exact ⟨rfl, rfl⟩
    · exact same_cancelIf (p := fun event => event.groupMask &&& maskOf group ≠ 0)
        (by simpa using hleaves)
  | _ =>
    dsimp only [call, setPhase, EventMap.addPhase, removePhase]
    repeat' split
    all_goals exact ⟨rfl, rfl⟩

/-- What is pending of an event is the first timer of a series, and the others are left. -/
structure Owns (event : Event) (start : Int) (timers : List Int) (s : EventMap) : Prop where
  pending : pendingOf event s = timers.head?.toList.map fun timer => (later start timer, event)
  series : (s.timerSeries event).getD [] = timers.tail

theorem owns_scheduleNextFromSeries (hpending : pendingOf event s = [])
    (hseries : (s.timerSeries event).getD [] = timers) :
    Owns event s.time timers (s.scheduleNextFromSeries event) := by
  rw [scheduleNextFromSeries]
  split <;> rename_i hfound <;> rw [hfound, Option.getD] at hseries <;> subst hseries
  · exact ⟨hpending, by rw [hfound]; rfl⟩
  · exact ⟨hpending, by rw [hfound]; rfl⟩
  · rename_i timer times
    refine ⟨?_, ?_⟩
    · have hperm := (StableQueue.push_perm Prod.fst (later s.time timer, event)
        s.eventMap).filter (·.2 = event)
      rw [filter_cons_of_pos (by simp), show s.eventMap.filter _ = [] from hpending] at hperm
      exact perm_singleton.mp hperm
    · by_cases htimes : times = [] <;> simp [htimes]

/-- Another event, or none, is returned: an entry that is dropped is excluded. -/
theorem execute_other (hnot : ¬Returns s event) :
    s.executeEvent.1.timerSeries event = s.timerSeries event ∧
      ∃ before, pendingOf event s = before ++ pendingOf event s.executeEvent.1 ∧
        (before ≠ [] → Excluded s event) := by
  obtain ⟨excluded, left, hentries, hall, hresult⟩ := executeFrom_spec (s := s) s.eventMap
  have hbefore : excluded.filter (·.2 = event) ≠ [] → Excluded s event := by
    intro hne
    obtain ⟨entry, hentry⟩ := exists_mem_of_ne_nil _ hne
    obtain ⟨hmem, heq⟩ := mem_filter.mp hentry
    exact of_decide_eq_true heq ▸ (hall entry hmem).2
  have hsplit : pendingOf event s = excluded.filter (·.2 = event) ++ left.filter (·.2 = event) := by
    rw [pendingOf, hentries, filter_append]
  rcases hresult with ⟨-, hreturned⟩ | ⟨time, other, rest, rfl, hdue, hmet, hreturned⟩
  · rw [executeEvent, hreturned]
    exact ⟨rfl, _, hsplit, hbefore⟩
  · have hne : other ≠ event := by
      rintro rfl
      refine hnot ⟨⟨(time, other), ?_, hdue, rfl⟩, hmet, ?_, ?_⟩
      · rw [hentries]
        exact mem_append_right _ mem_cons_self
      · rw [executeEvent, hreturned]
      · rw [executeEvent, hreturned, lastEvent_scheduleNextFromSeries]
    obtain ⟨hpending, hseries⟩ := same_scheduleNextFromSeries
      (s := { s with eventMap := rest, lastEvent := other }) hne
    rw [executeEvent, hreturned]
    refine ⟨hseries, _, ?_, hbefore⟩
    rw [hpending, hsplit, filter_cons_of_neg (by simpa using hne)]
    rfl

/-- The event is returned, and its series goes on. -/
theorem execute_own (hordered : StableQueue.Ordered Prod.fst s.eventMap) (h : Returns s event) :
    ∃ time rest, time ≤ s.time ∧ pendingOf event s = (time, event) :: rest.filter (·.2 = event) ∧
      s.executeEvent.1 =
        EventMap.scheduleNextFromSeries { s with eventMap := rest, lastEvent := event } event := by
  obtain ⟨⟨entry, hentry, hdue, rfl⟩, hphase, -, hlast⟩ := h
  obtain ⟨excluded, left, hentries, hall, hresult⟩ := executeFrom_spec (s := s) s.eventMap
  have hleft : entry ∈ left := by
    rw [hentries] at hentry
    exact (mem_append.mp hentry).resolve_left fun hmem => hphase (hall entry hmem).2
  rcases hresult with ⟨hnone, -⟩ | ⟨time, other, rest, rfl, hdue', hmet, hreturned⟩
  · cases left with
    | nil => cases hleft
    | cons first left =>
      have hfirst := hnone first rfl
      have hle : first.1 ≤ entry.1 := by
        rcases mem_cons.mp hleft with rfl | hmem
        · exact le_rfl
        · exact (StableQueue.Ordered.sublist hordered
            (hentries ▸ sublist_append_right _ _)).head_le hmem
      omega
  · rw [executeEvent, hreturned, lastEvent_scheduleNextFromSeries] at hlast
    obtain rfl : other = entry.2 := hlast
    refine ⟨time, rest, hdue', ?_, by rw [executeEvent, hreturned]⟩
    rw [pendingOf, hentries, filter_append, filter_cons_of_pos (by simp),
      filter_eq_nil_iff.mpr, nil_append]
    intro dropped hdropped heq
    exact hphase (of_decide_eq_true heq ▸ (hall dropped hdropped).2)

theorem firings_of_not (h : ¬(c = .executeEvent ∧ Returns s event)) :
    firings event (c :: cs) s = firings event cs (s.call c).1 := by
  rw [firings, if_neg h, nil_append]

/-- An event that was passed over does not fire. -/
theorem firings_of_none (hpending : pendingOf event s = [])
    (hordered : StableQueue.Ordered Prod.fst s.eventMap) (hcs : LeftAlone event s cs) :
    firings event cs s = [] := by
  induction cs generalizing s with
  | nil => rfl
  | cons c cs ih =>
    have hnot : ¬Returns s event := by
      rintro ⟨⟨entry, hentry, -, rfl⟩, -⟩
      exact absurd (mem_filter.mpr ⟨hentry, by simp⟩) (hpending ▸ not_mem_nil)
    rw [firings_of_not fun hreturns => hnot hreturns.2]
    refine ih ?_ (held_ordered.call hordered c fun _ _ => trivial) hcs.2
    by_cases hc : c = .executeEvent
    · subst hc
      obtain ⟨-, before, hbefore, -⟩ := execute_other hnot
      exact (append_eq_nil_iff.mp (hbefore.symm.trans hpending)).2
    · rw [(hcs.1.same hc).pending, hpending]

/-- The event fires at its own timers, whatever else is called. -/
theorem Owns.calls (h : Owns event start timers s)
    (hordered : StableQueue.Ordered Prod.fst s.eventMap) (hcs : LeftAlone event s cs) :
    Timed start (firings event cs s) timers ∧ (InPhase event s cs →
      (pendingOf event (calls cs s).1).map Prod.fst =
        dueAfter start (firings event cs s) timers) := by
  induction cs generalizing s start timers with
  | nil =>
    refine ⟨trivial, fun _ => ?_⟩
    rw [calls, h.pending, map_map]
    rfl
  | cons c cs ih =>
    have hordered' := held_ordered.call hordered c fun _ _ => trivial
    by_cases hfires : c = .executeEvent ∧ Returns s event
    · obtain ⟨rfl, hreturns⟩ := hfires
      obtain ⟨time, rest, hdue, hpending, hexecuted⟩ := execute_own hordered hreturns
      rw [h.pending] at hpending
      cases timers with
      | nil => cases hpending
      | cons timer timers =>
        obtain ⟨hentry, hrest⟩ := cons.inj hpending
        obtain rfl := congrArg Prod.fst hentry
        have howns : Owns event s.time timers (s.call .executeEvent).1 := by
          rw [call, hexecuted]
          exact owns_scheduleNextFromSeries
            (s := { s with eventMap := rest, lastEvent := event }) hrest.symm h.series
        obtain ⟨htimed, hnext⟩ := ih howns hordered' hcs.2
        rw [firings, if_pos ⟨rfl, hreturns⟩]
        exact ⟨⟨hdue, htimed⟩, fun hphase => hnext hphase.2⟩
    · rw [firings_of_not hfires]
      by_cases hc : c = .executeEvent
      · subst hc
        obtain ⟨hseries, before, hbefore, hexcluded⟩ :=
          execute_other fun hreturns => hfires ⟨rfl, hreturns⟩
        cases before with
        | nil =>
          have howns : Owns event start timers (s.call .executeEvent).1 :=
            ⟨hbefore.symm.trans h.pending, (congrArg (·.getD []) hseries).trans h.series⟩
          obtain ⟨htimed, hnext⟩ := ih howns hordered' hcs.2
          exact ⟨htimed, fun hphase => hnext hphase.2⟩
        | cons entry before =>
          -- The only entry was passed over.
          refine ⟨?_, fun hphase => absurd (hexcluded (by simp)) (hphase.1 rfl)⟩
          have hlength := congrArg length (hbefore.symm.trans h.pending)
          rw [firings_of_none ?_ hordered' hcs.2]
          · trivial
          · refine length_eq_zero_iff.mp ?_
            rw [length_append, length_cons, length_map] at hlength
            have hle : timers.head?.toList.length ≤ 1 := by cases timers <;> simp
            change (pendingOf event s.executeEvent.1).length = 0
            omega
      · have hsame := hcs.1.same hc
        obtain ⟨htimed, hnext⟩ := ih ⟨hsame.pending.trans h.pending,
          (congrArg (·.getD []) hsame.series).trans h.series⟩ hordered' hcs.2
        exact ⟨htimed, fun hphase => hnext hphase.2⟩

theorem returns_of_first {time : Int} {rest : List (Int × Event)}
    (hfirst : s.eventMap = (time, event) :: rest) (hdue : time ≤ s.time)
    (hphase : ¬Excluded s event) : Returns s event := by
  have hexecuted : s.executeEvent = (scheduleNextFromSeries
      { s with eventMap := rest, lastEvent := event } event, event.id) := by
    rw [executeEvent, hfirst, executeFrom, if_neg (not_lt.mpr hdue)]
    exact if_neg hphase
  refine ⟨⟨_, hfirst ▸ mem_cons_self, hdue, rfl⟩, hphase, ?_, ?_⟩
  · rw [hexecuted]
  · rw [hexecuted, lastEvent_scheduleNextFromSeries]

/-- A series that is scheduled where none was, of an event that is not pending. -/
theorem firesOwn {eventId : EventId} {group phase : Nat} (timeSeries : List Int) (hgroup : group ≤ 8)
    (hphase : phase ≤ 8) (hordered : StableQueue.Ordered Prod.fst s.eventMap)
    (hpending : pendingOf (.of eventId group phase) s = [])
    (hseries : s.timerSeries (.of eventId group phase) = none) :
    FiresOwn (.of eventId group phase) s.time timeSeries
      (s.scheduleEventSeries eventId group phase timeSeries) := by
  have hordered' := held_ordered.call hordered
    (.scheduleEventSeries eventId group phase timeSeries) fun _ _ => trivial
  have howns : Owns (.of eventId group phase) s.time timeSeries
      (s.scheduleEventSeries eventId group phase timeSeries) := by
    rw [scheduleEventSeries, if_neg (by omega), if_neg (by omega)]
    split
    · rename_i hnil
      subst hnil
      exact ⟨hpending, by rw [hseries]; rfl⟩
    · have hupdated := congrArg (·.getD []) (Function.update_self (Event.of eventId group phase)
        (some ((s.timerSeries (.of eventId group phase)).getD [] ++ timeSeries)) s.timerSeries)
      rw [hseries] at hupdated
      dsimp only
      rw [hseries]
      exact owns_scheduleNextFromSeries (s := { s with timerSeries := Function.update _ _ _ })
        hpending hupdated
  exact ⟨fun cs hcs => (howns.calls hordered' hcs).1,
    fun cs hcs => (howns.calls hordered' hcs).2, fun _ _ _ => returns_of_first⟩

/-- Cancelling does what it promises unless nothing is pending and a series is left. -/
theorem cancelIf_iff (h : Kept s) (hordered : StableQueue.Ordered Prod.fst s.eventMap) :
    Cancelled cancelled (s.cancelIf cancelled) ↔
    (s.empty = true → ∀ event, cancelled event = true → s.timerSeries event = none) := by
  constructor
  · intro hcancelled hempty event hevent
    by_contra hsome
    obtain ⟨times, htimes⟩ := Option.ne_none_iff_exists'.mp hsome
    obtain ⟨⟨id, group, phase, hgroup, hphase, rfl⟩, hne⟩ := h.series _ _ htimes
    obtain ⟨time, times, rfl⟩ := exists_cons_of_ne_nil hne
    -- A series whose only timer is another than the first that is left.
    have hown := (hcancelled.firesOwn [] trivial id group phase [time + 1] hgroup hphase
      hevent).pending [] trivial trivial
    have hnil : s.eventMap = [] := isEmpty_iff.mp hempty
    simp [calls, cancelIf, hempty, scheduleEventSeries, htimes, scheduleNextFromSeries,
      Nat.not_lt.mpr hgroup, Nat.not_lt.mpr hphase, pendingOf, dueAfter, firings, emplace, hnil,
      later] at hown
    omega
  · intro hcond
    have hpending : Pending (fun event => cancelled event = false) (s.cancelIf cancelled) := by
      rw [EventMap.cancelIf]
      split
      · rename_i hempty
        rw [EventMap.empty, List.isEmpty_iff] at hempty
        simp [Pending, hempty]
      · intro entry hentry
        simpa using (List.mem_filter.mp hentry).2
    have hseries : InSeries (fun event => cancelled event = false) (s.cancelIf cancelled) := by
      intro event times htimes
      rw [cancelIf] at htimes
      split at htimes
      · rename_i hempty
        refine ⟨?_, (h.series event times htimes).2⟩
        by_contra hevent
        rw [hcond hempty event (by simpa using hevent)] at htimes
        cases htimes
      · simp only [ite_eq_iff, reduceCtorEq, and_false, false_or] at htimes
        exact ⟨by simpa using htimes.1, (h.series event times htimes.2).2⟩
    refine ⟨fun cs hcs => hcs.calls hpending fun s c h => h.call c, ?_⟩
    intro cs hcs id group phase timeSeries hgroup hphase hevent
    have hpending := hcs.calls hpending fun s c h => h.call c
    have hseries := hcs.calls hseries fun s c h => h.call c
    have hordered' : StableQueue.Ordered Prod.fst (calls cs (s.cancelIf cancelled)).1.eventMap :=
      ordered_calls (held_ordered.cancelIf hordered cancelled) cs
    refine firesOwn timeSeries hgroup hphase hordered' ?_ ?_
    · refine filter_eq_nil_iff.mpr fun entry hentry heq => ?_
      have hfalse := hpending entry hentry
      rw [of_decide_eq_true heq, hevent] at hfalse
      exact absurd hfalse (by simp)
    · by_contra hsome
      obtain ⟨times, htimes⟩ := Option.ne_none_iff_exists'.mp hsome
      have hfalse : cancelled _ = false := (hseries _ times htimes).1
      rw [hevent] at hfalse
      exact absurd hfalse (by simp)

/-- A series of two in phase 1: its first event is passed over in phase 2, and the
cancelled second timer is that of the next series. -/
def passedOver : EventMap :=
  (calls [.scheduleEventSeries 1 0 1 [1000, 2000], .setPhase 2, .update 1000, .executeEvent] {}).1

end LegionServer.Guarantees.CancelledSeries
