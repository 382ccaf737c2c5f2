import LegionServer.Source.GameEvents.GameEventMgr
import LegionServer.Library.Transition

/-!
# Game events follow their schedule

The clock is the second of `GameTime::GetGameTime()`; a state is the one at the end of a
second.
-/
namespace LegionServer.Guarantees.GameEventSchedule
open Library Source.GameEvents List Option GameEventMgr

/-- Slot 0 is not used, and the others have a normal event or none, with any start,
end, occurence and length. -/
structure Scheduled (events : List GameEventData) : Prop where
  zero : events.getD 0 {} = {}
  normal : ∀ event ∈ events, event.state = .normal

section windows

variable {event : GameEventData} {t u : Int} {delay : Nat}

theorem emod_add_of_lt {a k n : Int} (hk : 0 ≤ k) (hn : 0 < n) (hlt : a % n + k < n) :
    (a + k) % n = a % n + k := by
  rw [← Int.emod_add_emod]
  have hnonneg := Int.emod_nonneg a hn.ne'
  exact Int.emod_eq_of_lt (by omega) hlt

theorem period_nonneg : 0 ≤ event.period := Int.natCast_nonneg _

theorem inWindow_of_ge (h : event.end ≤ u) : event.inWindow u = some false := by
  have hclosed : ¬(event.start < u ∧ u < event.end) := by omega
  simp [GameEventData.inWindow, hclosed]

theorem inWindow_of_le (h : u ≤ event.start) : event.inWindow u = some false := by
  have hclosed : ¬(event.start < u ∧ u < event.end) := by omega
  simp [GameEventData.inWindow, hclosed]

theorem inWindow_of_lt (hstart : event.start < u) (hend : u < event.end)
    (hperiod : event.period ≠ 0) :
    event.inWindow u = some (decide ((u - event.start) % event.period < event.duration)) := by
  simp [GameEventData.inWindow, hstart, hend, GameEventData.phase, hperiod]

/-- What `NextCheck` returns within the window. -/
theorem nextDelay_of_started (hstart : event.start ≤ t) (hend : t ≤ event.end)
    (hdelay : event.nextDelay t = some delay) :
    event.period ≠ 0 ∧ t + delay ≤ event.end ∧ ((t - event.start) % event.period < event.duration ∧
          delay ≤ event.duration - (t - event.start) % event.period ∨
        event.duration ≤ (t - event.start) % event.period ∧
          delay ≤ event.period - (t - event.start) % event.period) := by
  have hend' : ¬event.end < t := by omega
  have hstart' : ¬t < event.start := by omega
  simp only [GameEventData.nextDelay, if_neg hend', if_neg hstart', GameEventData.nextChange,
    GameEventData.phase] at hdelay
  by_cases hperiod : event.period = 0
  · simp [hperiod] at hdelay
  refine ⟨hperiod, ?_⟩
  simp only [if_neg hperiod, map_some, Option.some.injEq] at hdelay
  have hpos : 0 < event.period := period_nonneg.lt_of_ne' hperiod
  have hmod := Int.emod_lt_of_pos (t - event.start) hpos
  split at hdelay <;> split at hdelay <;> subst hdelay <;> omega

/-- The answer of `CheckOneGameEvent` does not change before the delay is over. -/
theorem inWindow_steady (hdelay : event.nextDelay t = some delay) (hne : t ≠ event.start)
    (htu : t ≤ u) (hu : u < t + delay) : event.inWindow u = event.inWindow t := by
  rcases lt_trichotomy t event.start with hbefore | heq | hafter
  · have hend : ¬event.end < t ∨ event.end < t := by omega
    rcases hend with hend | hend
    · simp only [GameEventData.nextDelay, if_neg hend, if_pos hbefore, Option.some.injEq] at hdelay
      have hle := Nat.mod_le (event.start - t).toNat (2 ^ 32)
      rw [inWindow_of_le (by omega), inWindow_of_le (by omega)]
    · rw [inWindow_of_ge (by omega), inWindow_of_ge (by omega)]
  · exact absurd heq hne
  by_cases hend : event.end ≤ t
  · rw [inWindow_of_ge (by omega), inWindow_of_ge hend]
  obtain ⟨hperiod, hle, hphase⟩ := nextDelay_of_started (by omega) (by omega) hdelay
  have hpos : 0 < event.period := period_nonneg.lt_of_ne' hperiod
  rw [inWindow_of_lt (by omega) (by omega) hperiod, inWindow_of_lt hafter (by omega) hperiod,
    Option.some.injEq, decide_eq_decide]
  have hu' := Int.emod_lt_of_pos (u - event.start) hpos
  by_cases hwrap : event.period ≤ event.duration
  · omega
  have hshift := emod_add_of_lt (a := t - event.start) (k := u - t) (n := event.period)
    (by omega) hpos (by omega)
  rw [show t - event.start + (u - t) = u - event.start by omega] at hshift
  omega

/-- An event that is checked at its start goes unnoticed while it is open. -/
def Open (event : GameEventData) : Prop := event.start + 2 < event.end ∧ event.duration ≠ 0

theorem duration_emod_four : event.duration % 4 = 0 := by
  have h : (event.length * 60).toNat % 4 = 0 := by
    rw [UInt32.toNat_mul, show (60 : UInt32).toNat = 60 from rfl]
    omega
  unfold GameEventData.duration
  omega

theorem period_emod_four : event.period % 4 = 0 := by
  have h : (event.occurence * 60).toNat % 4 = 0 := by
    rw [UInt32.toNat_mul, show (60 : UInt32).toNat = 60 from rfl]
    omega
  unfold GameEventData.period
  omega

theorem inWindow_of_open (h : Open event) (hperiod : event.period ≠ 0)
    (hu : u = event.start + 1 ∨ u = event.start + 2) : event.inWindow u = some true := by
  obtain ⟨hend, hduration⟩ := h
  have hd : event.duration % 4 = 0 := duration_emod_four
  have hp : event.period % 4 = 0 := period_emod_four
  have hp0 : 0 ≤ event.period := period_nonneg
  have hd0 : 0 ≤ event.duration := Int.natCast_nonneg _
  rw [inWindow_of_lt (by omega) (by omega) hperiod, Option.some.injEq, decide_eq_true_eq,
    Int.emod_eq_of_lt (by omega) (by omega)]
  omega

theorem inWindow_of_not_open (h : ¬Open event) (hu : event.start + 2 ≤ u) :
    event.inWindow u ≠ some true := by
  by_cases hend : event.end ≤ u
  · simp [inWindow_of_ge hend]
  have hduration : event.duration = 0 := by
    simp only [Open, not_and, not_not] at h
    exact h (by omega)
  by_cases hperiod : event.period = 0
  · simp [GameEventData.inWindow, GameEventData.phase, hperiod, show event.start < u by omega,
      show u < event.end by omega]
  · rw [inWindow_of_lt (by omega) (by omega) hperiod]
    simp [hduration, Int.emod_nonneg _ hperiod]

end windows

/-- A running server: `delay` is what the last Update has returned. -/
structure World where
  mgr : GameEventMgr
  clock : Int
  updatedAt : Int
  delay : Nat

/-- `none` when the process has ended. -/
def updateAt (mgr : GameEventMgr) (currenttime : Int) : Option World :=
  (mgr.update currenttime).map fun (mgr, delay) => ⟨mgr, currenttime, currenttime, delay⟩

/-- The first Update, of `StartSystem`. -/
def first (events : List GameEventData) (currenttime : Int) : Option World :=
  (GameEventMgr.startSystem { gameEvent := events } currenttime).map fun (mgr, delay) =>
    ⟨mgr, currenttime, currenttime, delay⟩

/-- A second goes by without an Update or with one, or an Update is forced. -/
inductive Passing where
  | idle | updated | forced
  deriving DecidableEq, Repr

/-- An Update comes when the delay has elapsed, or earlier. -/
def server : System (Option World) Passing where
  init s := ∃ events currenttime, Scheduled events ∧ s = first events currenttime
  step
    | .idle, some w, s' =>
      w.clock + 1 < w.updatedAt + (w.delay / 1000 : Nat) ∧ s' = some { w with clock := w.clock + 1 }
    | .updated, some w, s' => s' = updateAt w.mgr (w.clock + 1)
    | .forced, some w, s' => s' = updateAt w.mgr w.clock
    | _, none, _ => False

def callsOf (i : Nat) (applied : List Applied) : List Bool :=
  applied.filterMap fun
    | .applyNewEvent eventId => if eventId = i then some true else none
    | .unApplyEvent eventId => if eventId = i then some false else none

/-- Each call is unlike the one before, the first is a start. -/
def Alternates (i : Nat) (applied : List Applied) : Prop :=
  (false :: callsOf i applied).IsChain (· ≠ ·)

/-- The set of active events is right, but for a second in which an answer changed. -/
def Follows : Option World → Prop
  | none => False
  | some w =>
    (∀ i, (i ∈ w.mgr.activeEvents ↔ w.mgr.checkOneGameEvent w.clock i = some true) ∨
      w.mgr.checkOneGameEvent w.clock i ≠ w.mgr.checkOneGameEvent (w.clock - 1) i) ∧
    ∀ i, Alternates i w.mgr.applied

/-- No Update at a time that makes it divide by zero; and after an Update at the
second an event starts, not three seconds on which it is open without another. -/
def Proper : Passing → Option World → Prop
  | .idle, some w => ∀ i, w.updatedAt = (w.mgr.event i).start →
      w.clock = (w.mgr.event i).start + 1 → ¬Open (w.mgr.event i)
  | .updated, some w => ∀ i, (w.mgr.event i).Divides (w.clock + 1)
  | .forced, some w => ∀ i, (w.mgr.event i).Divides w.clock
  | _, none => True

section calls

variable {i : Nat} {applied : List Applied} {itrs : List Nat}

theorem callsOf_append (applied' : List Applied) :
    callsOf i (applied ++ applied') = callsOf i applied ++ callsOf i applied' :=
  filterMap_append

theorem callsOf_map {call : Nat → Applied} {on : Bool}
    (hcall : ∀ j, callsOf i [call j] = if j = i then [on] else []) (h : itrs.Nodup) :
    callsOf i (itrs.map call) = if i ∈ itrs then [on] else [] := by
  induction itrs with
  | nil => rfl
  | cons j itrs ih =>
    obtain ⟨hj, hnodup⟩ := List.nodup_cons.mp h
    rw [map_cons, ← singleton_append, callsOf_append, hcall, ih hnodup]
    by_cases hji : j = i
    · subst hji
      simp [hj]
    · simp [hji, Ne.symm hji]

theorem callsOf_starts (h : itrs.Nodup) :
    callsOf i (itrs.map .applyNewEvent) = if i ∈ itrs then [true] else [] :=
  callsOf_map (fun j => by by_cases hji : j = i <;> simp [callsOf, hji]) h

theorem callsOf_stops (h : itrs.Nodup) :
    callsOf i (itrs.map .unApplyEvent) = if i ∈ itrs then [false] else [] :=
  callsOf_map (fun j => by by_cases hji : j = i <;> simp [callsOf, hji]) h

structure Logged (i : Nat) (mgr : GameEventMgr) : Prop where
  alternates : Alternates i mgr.applied
  last : (false :: callsOf i mgr.applied).getLast? = some (decide (i ∈ mgr.activeEvents))

theorem logged_new (events : List GameEventData) : Logged i { gameEvent := events } := by
  constructor <;> simp [Alternates, callsOf]

theorem Logged.quiet {mgr mgr' : GameEventMgr} (h : Logged i mgr)
    (hcalls : callsOf i mgr'.applied = callsOf i mgr.applied)
    (hactive : i ∈ mgr'.activeEvents ↔ i ∈ mgr.activeEvents) : Logged i mgr' := by
  obtain ⟨halternates, hlast⟩ := h
  constructor
  · rwa [Alternates, hcalls]
  · simp only [hcalls, hlast, hactive]

theorem Logged.called {mgr mgr' : GameEventMgr} (h : Logged i mgr)
    (hcalls : callsOf i mgr'.applied = callsOf i mgr.applied ++ [decide (i ∈ mgr'.activeEvents)])
    (hactive : ¬(i ∈ mgr'.activeEvents ↔ i ∈ mgr.activeEvents)) : Logged i mgr' := by
  obtain ⟨halternates, hlast⟩ := h
  constructor
  · rw [Alternates, hcalls, ← cons_append, isChain_append]
    refine ⟨halternates, isChain_singleton _, ?_⟩
    intro x hx y hy
    rw [hlast, mem_some_iff] at hx
    rw [head?_cons, mem_some_iff] at hy
    subst hx hy
    simpa [iff_comm] using hactive
  · rw [hcalls, ← cons_append, getLast?_concat]

theorem Logged.updated {mgr mgr' : GameEventMgr} {currenttime : Int} {delay : Nat}
    (h : Logged i mgr) (hupdated : mgr.Updated currenttime mgr' delay) : Logged i mgr' := by
  have hnodup : mgr.ids.Nodup := nodup_range'
  have hcalls : callsOf i mgr'.applied = callsOf i mgr.applied ++
      ((if i ∈ mgr.ids ∧ mgr.starts currenttime i then [true] else []) ++
        if i ∈ mgr.ids ∧ mgr.stops currenttime i then [false] else []) := by
    rw [hupdated.applied, callsOf_append, callsOf_append, callsOf_starts (hnodup.filter _),
      callsOf_stops (hnodup.filter _)]
    simp only [mem_filter]
  have hactive := hupdated.activeEvents i
  by_cases hmem : i ∈ mgr.activeEvents
  · have hstarts : mgr.starts currenttime i = false := by
      simp [starts, isActiveEvent, hmem]
    by_cases hstops : i ∈ mgr.ids ∧ mgr.stops currenttime i
    · simp only [hmem, hstarts, hstops, and_self, not_true_eq_false, and_false, iff_false] at hactive
      refine h.called ?_ (by simp [hactive, hmem])
      simp [hcalls, hstarts, hstops, hactive]
    · refine h.quiet ?_ (by simp [hactive, hmem, hstops])
      simp [hcalls, hstarts, if_neg hstops]
  · have hstops : mgr.stops currenttime i = false := by
      simp [stops, isActiveEvent, hmem]
    by_cases hstarts : i ∈ mgr.ids ∧ mgr.starts currenttime i
    · simp only [hmem, hstops, hstarts, and_self, or_true, Bool.false_eq_true, and_false,
        not_false_eq_true, iff_true] at hactive
      refine h.called ?_ (by simp [hactive, hmem])
      simp [hcalls, hstarts, hstops, hactive]
    · refine h.quiet ?_ (by simp [hactive, hmem, hstarts])
      simp [hcalls, hstops, if_neg hstarts]

end calls

section steps

structure Kept (w : World) : Prop where
  scheduled : Scheduled w.mgr.gameEvent
  clock : w.updatedAt ≤ w.clock
  active : ∀ i, i ∈ w.mgr.activeEvents ↔ (w.mgr.event i).inWindow w.updatedAt = some true
  delays : ∀ i, ∃ delay, (w.mgr.event i).nextDelay w.updatedAt = some delay ∧
    (i ∈ w.mgr.ids → w.delay / 1000 ≤ delay + 1)
  unopened : ∀ i, w.updatedAt = (w.mgr.event i).start → Open (w.mgr.event i) →
    w.clock ≤ (w.mgr.event i).start + 1
  logged : ∀ i, Logged i w.mgr

variable {mgr : GameEventMgr}

theorem Scheduled.allNormal (h : Scheduled mgr.gameEvent) : mgr.AllNormal := by
  intro i
  rw [event, getD_eq_getElem?_getD]
  cases hi : mgr.gameEvent[i]? with
  | none => rfl
  | some event => exact h.normal event (mem_of_getElem? hi)

/-- Only the ids of the loop have events. -/
theorem Scheduled.event_eq (h : Scheduled mgr.gameEvent) {i : Nat} (hi : i ∉ mgr.ids) :
    mgr.event i = {} := by
  rw [ids, mem_range'_1] at hi
  by_cases hzero : i = 0
  · rw [hzero]
    exact h.zero
  · rw [event, getD_eq_getElem?_getD, getElem?_eq_none (by omega), getD_none]

variable {currenttime : Int}

/-- An Update at a proper time, from a state where only ids of the loop are active. -/
theorem updateAt_kept (hscheduled : Scheduled mgr.gameEvent)
    (hids : ∀ i ∈ mgr.activeEvents, i ∈ mgr.ids) (hlogged : ∀ i, Logged i mgr)
    (hdivides : ∀ i, (mgr.event i).Divides currenttime) :
    ∃ w, updateAt mgr currenttime = some w ∧ Kept w ∧ w.clock = currenttime ∧
      w.updatedAt = currenttime := by
  obtain ⟨mgr', delay, hupdate, hupdated⟩ :=
    update_eq_some hscheduled.allNormal fun i _ => hdivides i
  have hevent : mgr'.event = mgr.event := by
    funext i
    rw [event, event, hupdated.gameEvent]
  have hids' : mgr'.ids = mgr.ids := by
    rw [ids, ids, hupdated.gameEvent]
  refine ⟨_, by rw [updateAt, hupdate, map_some], ?_, rfl, rfl⟩
  refine ⟨hupdated.gameEvent ▸ hscheduled, le_rfl, ?_, ?_, ?_, fun i => (hlogged i).updated hupdated⟩
  · intro i
    rw [hupdated.activeEvents i]
    simp only [hevent]
    by_cases hi : i ∈ mgr.ids
    · obtain ⟨isOpen, hopen⟩ := Option.isSome_iff_exists.mp (hdivides i).inWindow_isSome
      cases isOpen <;> by_cases hmem : i ∈ mgr.activeEvents <;>
        simp [hi, hopen, hmem, starts, stops, isActiveEvent]
    · have hmem : i ∉ mgr.activeEvents := fun hmem => hi (hids i hmem)
      simp [hi, hmem, hscheduled.event_eq hi]
  · intro i
    simp only [hevent, hids']
    by_cases hi : i ∈ mgr.ids
    · obtain ⟨nextDelay, hnext, hle⟩ := hupdated.delays i hi
      exact ⟨nextDelay, hnext, fun _ => hle⟩
    · obtain ⟨nextDelay, hnext⟩ :=
        Option.isSome_iff_exists.mp (GameEventData.divides_iff_nextDelay.mp (hdivides i))
      exact ⟨nextDelay, hnext, fun h => absurd h hi⟩
  · intro i hstart _
    simp only [hevent] at hstart ⊢
    omega

theorem updateAt_none (hscheduled : Scheduled mgr.gameEvent)
    (hdivides : ¬∀ i, (mgr.event i).Divides currenttime) : updateAt mgr currenttime = none := by
  obtain ⟨i, hi⟩ := not_forall.mp hdivides
  have hid : i ∈ mgr.ids := by
    by_contra hid
    rw [hscheduled.event_eq hid] at hi
    refine hi fun hstart hend => ?_
    simp only at hstart hend
    omega
  rw [updateAt, update_eq_none hscheduled.allNormal hid hi, map_none]

variable {w : World} {i : Nat}

section
variable (h : Kept w)
include h

theorem Kept.check (currenttime : Int) (i : Nat) :
    w.mgr.checkOneGameEvent currenttime i = (w.mgr.event i).inWindow currenttime :=
  checkOneGameEvent_normal h.scheduled.allNormal i

theorem Kept.mem_ids (hi : i ∈ w.mgr.activeEvents) : i ∈ w.mgr.ids := by
  by_contra hid
  simp [h.active i, h.scheduled.event_eq hid] at hi

theorem Kept.follows_updated (hclock : w.clock = w.updatedAt) : Follows (some w) := by
  refine ⟨fun i => .inl ?_, fun i => (h.logged i).alternates⟩
  rw [h.check, hclock, h.active i]

/-- Since the last Update the answer for an event is the same, unless it was asked for
at the second the event starts. -/
theorem Kept.steady (hdue : w.clock + 1 < w.updatedAt + (w.delay / 1000 : Nat))
    (hne : w.updatedAt ≠ (w.mgr.event i).start) :
    (w.mgr.event i).inWindow w.clock = (w.mgr.event i).inWindow w.updatedAt := by
  by_cases hi : i ∈ w.mgr.ids
  · obtain ⟨delay, hdelay, hle⟩ := h.delays i
    have hle' := hle hi
    exact inWindow_steady hdelay hne h.clock (by omega)
  · simp [h.scheduled.event_eq hi]

theorem Kept.period_ne_zero (hstart : w.updatedAt = (w.mgr.event i).start)
    (hopen : Open (w.mgr.event i)) : (w.mgr.event i).period ≠ 0 := by
  obtain ⟨delay, hdelay, -⟩ := h.delays i
  have hdivides : (w.mgr.event i).Divides w.updatedAt :=
    GameEventData.divides_iff_nextDelay.mpr (by simp [hdelay])
  have hend := hopen.1
  exact hdivides (by omega) (by omega)

/-- A second without an Update, for one event. -/
theorem Kept.idle_event (hdue : w.clock + 1 < w.updatedAt + (w.delay / 1000 : Nat)) (i : Nat) :
    ((i ∈ w.mgr.activeEvents ↔ (w.mgr.event i).inWindow (w.clock + 1) = some true) ∨
        (w.mgr.event i).inWindow (w.clock + 1) ≠ (w.mgr.event i).inWindow w.clock) ↔
      (w.updatedAt = (w.mgr.event i).start → w.clock = (w.mgr.event i).start + 1 →
        ¬Open (w.mgr.event i)) := by
  by_cases hstart : w.updatedAt = (w.mgr.event i).start
  · have hclosed : i ∉ w.mgr.activeEvents := by
      rw [h.active i, hstart, inWindow_of_le le_rfl]
      simp
    have hclock := h.clock
    simp only [hclosed, false_iff, hstart, true_implies]
    by_cases hopen : Open (w.mgr.event i)
    · have hle := h.unopened i hstart hopen
      have hperiod := h.period_ne_zero hstart hopen
      rcases (by omega : w.clock = (w.mgr.event i).start ∨ w.clock = (w.mgr.event i).start + 1)
        with hnow | hnow
      · have hopened := inWindow_of_open hopen hperiod (u := w.clock + 1) (by omega)
        have hbefore : (w.mgr.event i).inWindow w.clock = some false := inWindow_of_le (by omega)
        have hearly : w.clock ≠ (w.mgr.event i).start + 1 := by omega
        simp [hopened, hbefore, hearly]
      · have hopened := inWindow_of_open hopen hperiod (u := w.clock + 1) (by omega)
        have hbefore := inWindow_of_open hopen hperiod (u := w.clock) (by omega)
        rw [hopened, hbefore]
        simp [hnow, hopen]
    · simp only [hopen, not_false_eq_true, implies_true, iff_true]
      by_cases hnow : w.clock = (w.mgr.event i).start
      · have hbefore : (w.mgr.event i).inWindow w.clock = some false := inWindow_of_le (by omega)
        rw [hbefore]
        by_cases hopened : (w.mgr.event i).inWindow (w.clock + 1) = some true
        · exact .inr (by simp [hopened])
        · exact .inl hopened
      · exact .inl (inWindow_of_not_open hopen (by omega))
  · have hsteady := h.steady hdue hstart
    simp only [hstart, false_implies, iff_true, h.active i, ← hsteady]
    by_cases hchanged : (w.mgr.event i).inWindow (w.clock + 1) = (w.mgr.event i).inWindow w.clock
    · exact .inl (by rw [hchanged])
    · exact .inr hchanged

theorem Kept.idle_follows (hdue : w.clock + 1 < w.updatedAt + (w.delay / 1000 : Nat)) :
    Follows (some { w with clock := w.clock + 1 }) ↔ Proper .idle (some w) := by
  have halternates : ∀ i, Alternates i w.mgr.applied := fun i => (h.logged i).alternates
  simp only [Follows, Proper, h.check, halternates, implies_true, and_true, Int.add_sub_cancel]
  exact forall_congr' fun i => h.idle_event hdue i

end

theorem Kept.idle (h : Kept w) (hproper : Proper .idle (some w)) :
    Kept { w with clock := w.clock + 1 } := by
  obtain ⟨hscheduled, hclock, hactive, hdelays, hunopened, hlogged⟩ := h
  refine ⟨hscheduled, by simp only; omega, hactive, hdelays, ?_, hlogged⟩
  intro i hstart hopen
  have hle := hunopened i hstart hopen
  have hne : w.clock ≠ (w.mgr.event i).start + 1 := fun hnow => hproper i hstart hnow hopen
  simp only at hle hne ⊢
  omega

def KeptIfRunning : Option World → Prop
  | none => True
  | some w => Kept w

theorem updateAt_iff (hscheduled : Scheduled mgr.gameEvent)
    (hids : ∀ i ∈ mgr.activeEvents, i ∈ mgr.ids) (hlogged : ∀ i, Logged i mgr)
    (currenttime : Int) :
    (Follows (updateAt mgr currenttime) ↔ ∀ i, (mgr.event i).Divides currenttime) ∧
      ((∀ i, (mgr.event i).Divides currenttime) → KeptIfRunning (updateAt mgr currenttime)) := by
  by_cases hdivides : ∀ i, (mgr.event i).Divides currenttime
  · obtain ⟨w, hw, hkept, hclock, hat⟩ := updateAt_kept hscheduled hids hlogged hdivides
    simp only [hw, hdivides, implies_true, iff_true]
    exact ⟨hkept.follows_updated (hclock.trans hat.symm), fun _ => hkept⟩
  · rw [updateAt_none hscheduled hdivides]
    simp [Follows, hdivides]

theorem step_iff (l : Passing) (s s' : Option World) (h : KeptIfRunning s)
    (hstep : server.step l s s') :
    (Follows s' ↔ Proper l s) ∧ (Proper l s → KeptIfRunning s') := by
  cases s with
  | none => cases l <;> exact hstep.elim
  | some w =>
    have hkept : Kept w := h
    have hupdate := fun currenttime =>
      updateAt_iff hkept.scheduled (fun _ => hkept.mem_ids) hkept.logged currenttime
    cases l with
    | idle =>
      obtain ⟨hdue, rfl⟩ := hstep
      exact ⟨hkept.idle_follows hdue, hkept.idle⟩
    | updated =>
      cases hstep
      exact hupdate (w.clock + 1)
    | forced =>
      cases hstep
      exact hupdate w.clock

variable {events : List GameEventData}

theorem forall_event_iff :
    (∀ i, (GameEventMgr.event { gameEvent := events } i).Divides currenttime) ↔
      ∀ event ∈ events, event.Divides currenttime := by
  simp only [event, getD_eq_getElem?_getD]
  constructor
  · intro h event hevent
    obtain ⟨i, hi⟩ := getElem?_of_mem hevent
    simpa [hi] using h i
  · intro h i
    cases hi : events[i]? with
    | none =>
      intro hstart hend
      simp only [getD_none] at hstart hend
      omega
    | some event => exact h event (mem_of_getElem? hi)

theorem first_iff (hevents : Scheduled events) (currenttime : Int) :
    (Follows (first events currenttime) ↔ ∀ event ∈ events, event.Divides currenttime) ∧
      ((∀ event ∈ events, event.Divides currenttime) →
        KeptIfRunning (first events currenttime)) := by
  have hscheduled : Scheduled (GameEventMgr.gameEvent { gameEvent := events }) := hevents
  rw [← forall_event_iff]
  exact updateAt_iff hscheduled (by simp) (fun _ => logged_new events) currenttime

end steps

/-- A run keeps to the schedule exactly when its first Update does not divide by zero
and all its steps are proper. -/
theorem schedule_iff {events : List GameEventData} (hevents : Scheduled events) (t : Int)
    {path : List (Passing × Option World)} (hpath : server.Path (first events t) path) :
    (Follows (first events t) ∧ ∀ visit ∈ path, Follows visit.2) ↔
      (∀ event ∈ events, event.Divides t) ∧ (server.guarded Proper).Path (first events t) path := by
  have hfirst := first_iff hevents t
  rw [hfirst.1]
  refine and_congr_right fun hdivides => ?_
  exact System.forall_mem_path_iff KeptIfRunning (fun l s s' h hstep => (step_iff l s s' h hstep).2)
    (fun l s s' h hstep => (step_iff l s s' h hstep).1) (hfirst.2 hdivides) hpath

def holiday : GameEventData := { start := 1000, «end» := 1000000, occurence := 1440, length := 60 }

/-- A second after an Update that returned `delay`, with the event not active. -/
def waiting (updatedAt clock : Int) (delay : Nat) : Option World :=
  some ⟨{ gameEvent := [{}, holiday] }, clock, updatedAt, delay⟩

theorem scheduled_holiday : Scheduled [{}, holiday] := by
  constructor
  · rfl
  · simp [holiday]

theorem schedule_iff_holiday :
    (Follows (first [{}, holiday] 999) ∧
        ∀ visit ∈ [(Passing.idle, waiting 999 1000 2000)], Follows visit.2) ↔
      (∀ event ∈ [{}, holiday], event.Divides 999) ∧
        (server.guarded Proper).Path (first [{}, holiday] 999)
          [(.idle, waiting 999 1000 2000)] := by
  refine schedule_iff scheduled_holiday 999 ?_
  exact ⟨⟨by decide, rfl⟩, trivial⟩

/-- The first Update comes at the second the holiday starts. -/
theorem holiday_missed :
    Scheduled [{}, holiday] ∧ holiday.state = .normal ∧ 0 < holiday.length ∧
      holiday.length ≤ holiday.occurence ∧ holiday.start < holiday.end ∧
      server.Path (first [{}, holiday] 1000)
        [(.idle, waiting 1000 1001 3601000), (.idle, waiting 1000 1002 3601000)] ∧
      ¬Follows (waiting 1000 1002 3601000) := by
  have hfirst : first [{}, holiday] 1000 = waiting 1000 1000 3601000 := rfl
  refine ⟨scheduled_holiday, rfl, by decide, by decide, by decide, ?_, ?_⟩
  · rw [hfirst]
    exact ⟨⟨by decide, rfl⟩, ⟨by decide, rfl⟩, trivial⟩
  · rintro ⟨hactive, -⟩
    exact absurd (hactive 1) (by decide)

end LegionServer.Guarantees.GameEventSchedule
