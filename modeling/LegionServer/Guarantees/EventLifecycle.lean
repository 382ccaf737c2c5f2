import LegionServer.Source.Common.EventProcessor
import Mathlib.Algebra.BigOperators.Group.List.Basic
import Mathlib.Algebra.Ring.Nat

/-!
# Lives of events

An event is owned by the queue of its processor, by the callback that runs, or by the two
paths that destroy it, and by one of them at a time.
-/
namespace LegionServer.Guarantees.EventLifecycle
open Library Source.Common EventProcessor List Function StableQueue

variable {E : Type*} {callbacks : EventCallbacks E} {s s' : EventProcessor E}
  {event other : E} {due time : Nat} {force : Bool} {l : List (Nat × E)}

/-- An `Execute` that adds its event again does so for later, and does not have it deleted. -/
structure WellBehaved (callbacks : EventCallbacks E) : Prop where
  later : ∀ history due event time,
    (callbacks.execute (history ++ [.processed due event]) event).2 = some time → due < time
  keeps : ∀ history event time, (callbacks.execute history event).2 = some time →
    (callbacks.execute history event).1 = false

def queue (s : EventProcessor E) : List E := s.events.map Prod.snd

def deletions (journal : List (EventNote E)) : List E :=
  journal.filterMap fun x => match x with | .deleted event => some event | _ => none

def abortions (journal : List (EventNote E)) : List E :=
  journal.filterMap fun x => match x with | .aborted event => some event | _ => none

def dues (journal : List (EventNote E)) : List Nat :=
  journal.filterMap fun x => match x with | .processed due _ => some due | _ => none

/-- New events are neither in the queue nor deleted; aborts are scheduled for queued events. -/
def Proper (s : EventProcessor E) : ProcessorCall E → Prop
  | .addEvent event _ _ => event ∉ queue s ∧ event ∉ deletions s.journal
  | .scheduleAbort event => event ∈ queue s
  | _ => True

inductive Reachable [DecidableEq E] (callbacks : EventCallbacks E) : EventProcessor E → Prop
  | new : Reachable callbacks {}
  | call {s s' : EventProcessor E} {fuel : Nat} {c : ProcessorCall E} :
      Reachable callbacks s → Proper s c → s.call callbacks fuel c = .ok s' →
      Reachable callbacks s'

structure Lifecycle (s : EventProcessor E) : Prop where
  queuedOnce : (queue s).Nodup
  abortedOnce : (abortions s.journal).Nodup
  notExecuted : s.journal.Pairwise fun x y =>
    ∀ event, x = .abortScheduled event → y ≠ .executed event
  deletedOnce : (deletions s.journal).Nodup
  gone : ∀ event ∈ deletions s.journal, event ∉ queue s

structure Advance (s s' : EventProcessor E) : Prop where
  journal : ∃ notes, s'.journal = s.journal ++ notes ∧ (dues notes).Pairwise (· ≤ ·) ∧
    ∀ event, .aborted event ∈ notes → s.abortState event ≠ .aborted

section invariant

structure Kept (s : EventProcessor E) (l : List (Nat × E)) : Prop where
  ordered : StableQueue.Ordered Prod.fst l
  queuedOnce : (l.map Prod.snd).Nodup
  abortedOnce : (abortions s.journal).Nodup
  aborted_iff : ∀ event, event ∈ abortions s.journal ↔ s.abortState event = .aborted
  scheduled : ∀ event, .abortScheduled event ∈ s.journal → s.abortState event ≠ .running
  notExecuted : s.journal.Pairwise fun x y =>
    ∀ event, x = .abortScheduled event → y ≠ .executed event
  deletedOnce : (deletions s.journal).Nodup
  gone : ∀ event ∈ deletions s.journal, event ∉ l.map Prod.snd

@[simp] theorem deletions_append (a b : List (EventNote E)) :
    deletions (a ++ b) = deletions a ++ deletions b := filterMap_append

@[simp] theorem abortions_append (a b : List (EventNote E)) :
    abortions (a ++ b) = abortions a ++ abortions b := filterMap_append

@[simp] theorem dues_append (a b : List (EventNote E)) : dues (a ++ b) = dues a ++ dues b :=
  filterMap_append

theorem Kept.lives (h : Kept s s.events) : Lifecycle s :=
  ⟨h.queuedOnce, h.abortedOnce, h.notExecuted, h.deletedOnce, h.gone⟩

structure InHand (s : EventProcessor E) (l : List (Nat × E)) (event : E) : Prop where
  notQueued : event ∉ l.map Prod.snd
  notDeleted : event ∉ deletions s.journal

theorem Kept.sublist (h : Kept s l) {l' : List (Nat × E)} (hsub : l'.Sublist l) : Kept s l' :=
  { h with
    ordered := h.ordered.sublist hsub
    queuedOnce := h.queuedOnce.sublist (hsub.map _)
    gone := fun event hevent hmem => h.gone event hevent ((hsub.map _).subset hmem) }

theorem Kept.withEvents (h : Kept s l) : Kept { s with events := l } l :=
  ⟨h.ordered, h.queuedOnce, h.abortedOnce, h.aborted_iff, h.scheduled, h.notExecuted,
    h.deletedOnce, h.gone⟩

theorem Kept.notePlain (h : Kept s l) {x : EventNote E} (hdeleted : ∀ event, x ≠ .deleted event)
    (haborted : ∀ event, x ≠ .aborted event) (hscheduled : ∀ event, x ≠ .abortScheduled event)
    (hexecuted : ∀ event, x = .executed event → s.abortState event = .running) :
    Kept (s.note x) l := by
  have hdeletions : deletions (s.note x).journal = deletions s.journal := by
    cases x <;> simp_all [note, deletions]
  have habortions : abortions (s.note x).journal = abortions s.journal := by
    cases x <;> simp_all [note, abortions]
  refine ⟨h.ordered, h.queuedOnce, habortions ▸ h.abortedOnce, fun event => ?_,
    fun event hmem => ?_, ?_, hdeletions ▸ h.deletedOnce, fun event => ?_⟩
  · rw [habortions]
    exact h.aborted_iff event
  · rcases mem_append.mp hmem with hmem | hmem
    · exact h.scheduled event hmem
    · exact absurd (mem_singleton.mp hmem).symm (hscheduled event)
  · refine pairwise_append.mpr ⟨h.notExecuted, pairwise_singleton _ _, ?_⟩
    rintro y hy z hz event rfl hz'
    rw [mem_singleton.mp hz] at hz'
    exact h.scheduled event hy (hexecuted event hz')
  · rw [hdeletions]
    exact h.gone event

theorem Kept.delete (h : Kept s l) (hevent : InHand s l event) :
    Kept (s.note (.deleted event)) l := by
  have hdeletions : deletions (s.note (.deleted event)).journal = deletions s.journal ++ [event] :=
    deletions_append _ _
  have habortions : abortions (s.note (.deleted event)).journal = abortions s.journal :=
    (abortions_append _ _).trans (append_nil _)
  refine ⟨h.ordered, h.queuedOnce, habortions ▸ h.abortedOnce, fun other => ?_,
    fun other hmem => ?_, ?_, ?_, fun other hother => ?_⟩
  · rw [habortions]
    exact h.aborted_iff other
  · simp only [note, mem_append, mem_singleton, reduceCtorEq, or_false] at hmem
    exact h.scheduled other hmem
  · exact pairwise_append.mpr ⟨h.notExecuted, pairwise_singleton _ _, by simp⟩
  · rw [hdeletions]
    exact nodup_append.mpr ⟨h.deletedOnce, nodup_singleton _, by
      rintro x hx y hy rfl
      exact hevent.notDeleted (mem_singleton.mp hy ▸ hx)⟩
  · rw [hdeletions, mem_append, mem_singleton] at hother
    rcases hother with hother | rfl
    · exact h.gone other hother
    · exact hevent.notQueued

variable [DecidableEq E]

/-- `Abort` and `SetAborted`, in one order or the other. -/
theorem Kept.abort (h : Kept s l) (hstate : s.abortState event ≠ .aborted)
    (notes : List (EventNote E))
    (hnotes : notes = [.aborted event, .setAborted event] ∨
      notes = [.setAborted event, .aborted event]) :
    Kept { s with
      abortState := Function.update s.abortState event .aborted
      journal := s.journal ++ notes } l := by
  have hdeletions : deletions (s.journal ++ notes) = deletions s.journal := by
    rcases hnotes with rfl | rfl <;> simp [deletions]
  have habortions : abortions (s.journal ++ notes) = abortions s.journal ++ [event] := by
    rcases hnotes with rfl | rfl <;> simp [abortions]
  have hnot : event ∉ abortions s.journal := fun hmem => hstate ((h.aborted_iff event).mp hmem)
  refine ⟨h.ordered, h.queuedOnce, ?_, fun other => ?_, fun other hmem => ?_, ?_,
    hdeletions.symm ▸ h.deletedOnce, hdeletions.symm ▸ h.gone⟩
  · rw [habortions]
    exact nodup_append.mpr ⟨h.abortedOnce, nodup_singleton _, by
      rintro x hx y hy rfl
      exact hnot (mem_singleton.mp hy ▸ hx)⟩
  · rw [habortions, mem_append, mem_singleton]
    by_cases hother : other = event
    · subst hother
      simp
    · simp only [update_of_ne hother, hother, or_false]
      exact h.aborted_iff other
  · have hold : EventNote.abortScheduled other ∈ s.journal := by
      rcases hnotes with rfl | rfl <;> simpa using hmem
    by_cases hother : other = event
    · subst hother
      simp
    · simp only [update_of_ne hother]
      exact h.scheduled other hold
  · refine pairwise_append.mpr ⟨h.notExecuted, ?_, ?_⟩
    · rcases hnotes with rfl | rfl <;> simp
    · rcases hnotes with rfl | rfl <;> simp

theorem Kept.scheduleAbort (h : Kept s l) (hstate : s.abortState event = .running) :
    Kept ({ s with abortState := Function.update s.abortState event .abortScheduled }.note
      (.abortScheduled event)) l := by
  have hdeletions : deletions (s.journal ++ [.abortScheduled event]) = deletions s.journal := by
    simp [deletions]
  have habortions : abortions (s.journal ++ [.abortScheduled event]) = abortions s.journal := by
    simp [abortions]
  refine ⟨h.ordered, h.queuedOnce, habortions.symm ▸ h.abortedOnce, fun other => ?_,
    fun other hmem => ?_, ?_, hdeletions.symm ▸ h.deletedOnce, hdeletions.symm ▸ h.gone⟩
  · simp only [note, habortions]
    by_cases hother : other = event
    · subst hother
      simp [h.aborted_iff, hstate]
    · simp only [update_of_ne hother]
      exact h.aborted_iff other
  · by_cases hother : other = event
    · subst hother
      simp [note]
    · simp only [note, update_of_ne hother]
      refine h.scheduled other ?_
      simpa [note, hother] using hmem
  · exact pairwise_append.mpr ⟨h.notExecuted, pairwise_singleton _ _, by simp⟩

theorem Kept.add (h : Kept s s.events) (hevent : InHand s s.events event) (time : Nat)
    (setAddTime : Bool) :
    Kept (s.addEvent event time setAddTime) (s.addEvent event time setAddTime).events := by
  have hperm := (push_perm Prod.fst (time, event) s.events).map Prod.snd
  refine ⟨h.ordered.push, ?_, h.abortedOnce, h.aborted_iff, h.scheduled, h.notExecuted,
    h.deletedOnce, fun other hother hmem => ?_⟩
  · exact hperm.nodup_iff.mpr (nodup_cons.mpr ⟨hevent.notQueued, h.queuedOnce⟩)
  · rcases mem_cons.mp (hperm.mem_iff.mp hmem) with rfl | hmem
    · exact hevent.notDeleted hother
    · exact h.gone other hother hmem

theorem Kept.modifyEventTime (h : Kept s s.events) (event : E) (newTime : Nat) :
    Kept (s.modifyEventTime event newTime) (s.modifyEventTime event newTime).events := by
  rw [EventProcessor.modifyEventTime]
  split
  case isFalse => exact h
  case isTrue hmem =>
    have hrest := h.sublist (eraseP_sublist (p := fun entry => decide (entry.2 = event)))
    obtain ⟨entry, hentry, rfl⟩ := mem_map.mp hmem
    have hperm : (s.events.map Prod.snd).Perm
        (entry.2 :: (s.events.eraseP fun other => other.2 = entry.2).map Prod.snd) := by
      obtain ⟨found, before, after, -, hfound, hsplit, herase⟩ :=
        exists_of_eraseP hentry (p := fun other => decide (other.2 = entry.2)) (by simp)
      rw [herase, hsplit, ← of_decide_eq_true hfound]
      simp [perm_middle]
    have hnodup := nodup_cons.mp (hperm.nodup_iff.mp h.queuedOnce)
    have hlive : entry.2 ∉ deletions s.journal := fun hdeleted => h.gone _ hdeleted hmem
    exact Kept.add (s := { s with events := s.events.eraseP fun other => other.2 = entry.2 })
      hrest.withEvents ⟨hnodup.1, hlive⟩ newTime false

end invariant

section update

/-- What has been added to the journal of `s`, every event so far due at `low` or before. -/
structure Grown (s : EventProcessor E) (low : Nat) (s' : EventProcessor E) : Prop where
  journal : ∃ notes, s'.journal = s.journal ++ notes ∧
    (dues notes).Pairwise (· ≤ ·) ∧ (∀ due ∈ dues notes, due ≤ low) ∧
    ∀ event, .aborted event ∈ notes → s.abortState event ≠ .aborted
  stays : ∀ event, s.abortState event = .aborted → s'.abortState event = .aborted

theorem Grown.refl (low : Nat) : Grown s low s :=
  ⟨⟨[], (append_nil _).symm, .nil, nofun, nofun⟩, fun _ h => h⟩

/-- Notes that take no event out of the queue. -/
theorem Grown.append {low : Nat} {s'' : EventProcessor E} (h : Grown s low s')
    {notes : List (EventNote E)} (hjournal : s''.journal = s'.journal ++ notes)
    (hdues : dues notes = [])
    (haborted : ∀ event, .aborted event ∈ notes → s'.abortState event ≠ .aborted)
    (hstays : ∀ event, s'.abortState event = .aborted → s''.abortState event = .aborted) :
    Grown s low s'' := by
  obtain ⟨old, hold, hsorted, hle, hnot⟩ := h.journal
  refine ⟨⟨old ++ notes, ?_, ?_, ?_, fun event hevent => ?_⟩, fun event hevent => ?_⟩
  · rw [hjournal, hold, append_assoc]
  · rwa [dues_append, hdues, append_nil]
  · rwa [dues_append, hdues, append_nil]
  · rcases mem_append.mp hevent with hevent | hevent
    · exact hnot event hevent
    · exact fun hbefore => haborted event hevent (h.stays event hbefore)
  · exact hstays event (h.stays event hevent)

/-- The next event is taken out of the queue. -/
theorem Grown.process {low : Nat} (h : Grown s low s') (hle : low ≤ due) (l : List (Nat × E)) :
    Grown s due ({ s' with events := l }.note (.processed due event)) := by
  obtain ⟨old, hold, hsorted, hlow, hnot⟩ := h.journal
  refine ⟨⟨old ++ [.processed due event], ?_, ?_, ?_, fun other hother => ?_⟩, h.stays⟩
  · simp only [note, hold, append_assoc]
  · rw [dues_append]
    refine pairwise_append.mpr ⟨hsorted, pairwise_singleton _ _, fun x hx y hy => ?_⟩
    rw [mem_singleton.mp hy]
    exact (hlow x hx).trans hle
  · intro x hx
    rw [dues_append, mem_append] at hx
    rcases hx with hx | hx
    · exact (hlow x hx).trans hle
    · exact (mem_singleton.mp hx).le
  · rcases mem_append.mp hother with hother | hother
    · exact hnot other hother
    · exact nomatch mem_singleton.mp hother

structure Looping (s : EventProcessor E) (low : Nat) (s' : EventProcessor E) : Prop where
  kept : Kept s' s'.events
  grown : Grown s low s'
  low_le : ∀ entry ∈ s'.events, low ≤ entry.1

/-- How long the events that are due have been so, added up. -/
def overdue (time : Nat) (l : List (Nat × E)) : Nat :=
  (l.map fun entry => time + 1 - entry.1).sum

theorem overdue_perm {l l' : List (Nat × E)} (h : l.Perm l') : overdue time l = overdue time l' :=
  (h.map _).sum_eq

variable {low : Nat}

theorem Looping.delete (h : Looping s low s') (hevent : InHand s' s'.events event) :
    Looping s low (s'.note (.deleted event)) :=
  ⟨h.kept.delete hevent, h.grown.append rfl rfl (by simp) fun _ h => h, h.low_le⟩

variable [DecidableEq E]

theorem Looping.add (h : Looping s low s') (hevent : InHand s' s'.events event)
    (hle : low ≤ time) (setAddTime : Bool) : Looping s low (s'.addEvent event time setAddTime) := by
  refine ⟨h.kept.add hevent time setAddTime, ⟨h.grown.journal, h.grown.stays⟩, ?_⟩
  intro entry hentry
  rcases mem_push.mp hentry with rfl | hentry
  · exact hle
  · exact h.low_le entry hentry

theorem overdue_add (setAddTime : Bool) {time' : Nat} :
    overdue time (s.addEvent event time' setAddTime).events =
      time + 1 - time' + overdue time s.events := by
  rw [EventProcessor.addEvent, overdue_perm (push_perm _ _ _)]
  rfl

/-- An event that is not running, once it is aborted, is deleted or comes back. -/
theorem Looping.dispose (callbacks : EventCallbacks E) (h : Looping s low s')
    (hevent : InHand s' s'.events event) (hle : low ≤ s'.time) :
    Looping s low (s'.disposeEvent callbacks event) ∧
      (s'.disposeEvent callbacks event).time = s'.time ∧
      overdue s'.time (s'.disposeEvent callbacks event).events = overdue s'.time s'.events := by
  rw [disposeEvent]
  split
  · exact ⟨h.delete hevent, rfl, rfl⟩
  · refine ⟨h.add hevent (Nat.le_succ_of_le hle) false, rfl, ?_⟩
    rw [overdue_add, calculateTime, Nat.sub_self, Nat.zero_add]

/-- An event that is running is executed. It may come back later than it was due. -/
theorem Looping.run (hcallbacks : WellBehaved callbacks) (h : Looping s due s')
    (hevent : InHand s' s'.events event) (hstate : s'.abortState event = .running)
    {history : List (EventNote E)} (hjournal : s'.journal = history ++ [.processed due event]) :
    Looping s due (s'.runEvent callbacks event) ∧ (s'.runEvent callbacks event).time = s'.time ∧
      overdue s'.time (s'.runEvent callbacks event).events ≤
        s'.time - due + overdue s'.time s'.events := by
  have hexecuted : Looping s due (s'.note (.executed event)) :=
    ⟨h.kept.notePlain (by simp) (by simp) (by simp) (by simpa using hstate),
      h.grown.append rfl rfl (by simp) fun _ h => h, h.low_le⟩
  have hevent' : InHand (s'.note (.executed event)) s'.events event :=
    ⟨hevent.notQueued, by simpa [note, deletions] using hevent.notDeleted⟩
  rw [runEvent]
  cases hreadded : (callbacks.execute s'.journal event).2 with
  | none =>
    split
    · exact ⟨hexecuted.delete hevent', rfl, Nat.le_add_left _ _⟩
    · exact ⟨hexecuted, rfl, Nat.le_add_left _ _⟩
  | some time =>
    have hlater : due < time := hcallbacks.later history due event time (hjournal ▸ hreadded)
    simp only [hcallbacks.keeps _ _ _ hreadded, Bool.false_eq_true, if_false]
    refine ⟨hexecuted.add hevent' hlater.le true, rfl, ?_⟩
    rw [overdue_add]
    change _ + overdue _ s'.events ≤ _
    omega

/-- Each turn has one overdue event less. -/
theorem processEvent_ends (hcallbacks : WellBehaved callbacks) {first : Nat × E}
    (h : Looping s low s') (hnext : nextDue s' = some first) :
    Ends (fun _ => False) (processEvent callbacks s' first) fun s'' =>
      Looping s first.1 s'' ∧ s''.time = s'.time ∧
        overdue s'.time s''.events < overdue s'.time s'.events := by
  obtain ⟨due, event⟩ := first
  obtain ⟨rest, hevents, hdue⟩ : ∃ rest, s'.events = (due, event) :: rest ∧ due ≤ s'.time := by
    rw [nextDue] at hnext
    split at hnext
    · exact nomatch hnext
    · split at hnext
      · cases hnext
        exact ⟨_, ‹_›, ‹_›⟩
      · exact nomatch hnext
  have hkept := hevents ▸ h.kept
  have hnodup := nodup_cons.mp hkept.queuedOnce
  have hlive : event ∉ deletions s'.journal := fun hdeleted =>
    hkept.gone event hdeleted mem_cons_self
  have hlow : low ≤ due := h.low_le (due, event) (hevents ▸ mem_cons_self)
  let taken := { s' with events := rest }.note (.processed due event)
  have hdeletions : deletions taken.journal = deletions s'.journal :=
    (deletions_append _ _).trans (append_nil _)
  have htaken : Looping s due taken := by
    refine ⟨?_, h.grown.process hlow rest, fun entry hentry => hkept.ordered.head_le hentry⟩
    exact (hkept.sublist (sublist_cons_self _ _)).withEvents.notePlain (by simp) (by simp)
      (by simp) (by simp)
  have hhand : InHand taken taken.events event := ⟨hnodup.1, hdeletions ▸ hlive⟩
  have hoverdue : overdue s'.time s'.events = s'.time + 1 - due + overdue s'.time rest := by
    rw [hevents]
    rfl
  have htail : s'.events.tail = rest := by rw [hevents, tail_cons]
  rw [processEvent]
  simp only [htail]
  cases hstate : taken.abortState event with
  | running =>
    obtain ⟨hloop, htime, hle⟩ := htaken.run hcallbacks hhand hstate rfl
    change overdue s'.time _ ≤ s'.time - due + overdue s'.time rest at hle
    exact ⟨hloop, htime, Nat.lt_of_le_of_lt hle (by omega)⟩
  | abortScheduled =>
    have hnot : taken.abortState event ≠ .aborted := by simp [hstate]
    let aborted : EventProcessor E :=
      { taken with
        abortState := update taken.abortState event .aborted
        journal := taken.journal ++ [.aborted event, .setAborted event] }
    have haborted : Looping s due aborted := by
      refine ⟨htaken.kept.abort hnot _ (.inl rfl), htaken.grown.append rfl rfl ?_ ?_, htaken.low_le⟩
      · rintro other hother
        have heq : other = event := by simpa using hother
        exact heq ▸ hnot
      · intro other hother
        by_cases heq : other = event
        · simp [aborted, heq]
        · simpa [aborted, heq] using hother
    have hhand' : InHand aborted aborted.events event :=
      ⟨hnodup.1, by simpa [aborted, deletions] using hhand.notDeleted⟩
    have hset : (taken.note (.aborted event)).setAborted event = .ok aborted := by
      refine (if_neg hnot).trans ?_
      simp [note, aborted]
    obtain ⟨hloop, htime, hsame⟩ := haborted.dispose callbacks hhand' hdue
    change overdue s'.time _ = overdue s'.time rest at hsame
    exact Ends.bind_ok hset ⟨hloop, htime, lt_of_eq_of_lt hsame (by omega)⟩
  | aborted =>
    obtain ⟨hloop, htime, hsame⟩ := htaken.dispose callbacks hhand hdue
    change overdue s'.time _ = overdue s'.time rest at hsame
    exact ⟨hloop, htime, lt_of_eq_of_lt hsame (by omega)⟩

omit [DecidableEq E] in
theorem nextDue_overdue {first : Nat × E} (h : nextDue s = some first) :
    0 < overdue s.time s.events := by
  rw [nextDue] at h
  split at h
  · exact nomatch h
  split at h
  · cases h
    rename_i hevents hdue
    rw [hevents, overdue, map_cons, sum_cons]
    omega
  · exact nomatch h

omit [DecidableEq E] in
theorem Kept.looping (h : Kept s s.events) (time : Nat) : Looping s 0 { s with time } :=
  ⟨⟨h.ordered, h.queuedOnce, h.abortedOnce, h.aborted_iff, h.scheduled, h.notExecuted,
    h.deletedOnce, h.gone⟩, ⟨(Grown.refl 0).journal, fun _ h => h⟩, fun _ _ => Nat.zero_le _⟩

theorem update_ends (hcallbacks : WellBehaved callbacks) (h : Kept s s.events) (time fuel : Nat)
    (hfuel : overdue (s.time + time) s.events ≤ fuel) :
    Ends (fun _ => False) (s.update callbacks fuel time) fun s' => ∃ low, Looping s low s' := by
  have hstart : ({ s with time := s.time + time } : EventProcessor E).time = s.time + time ∧
      ∃ low, Looping s low { s with time := s.time + time } := ⟨rfl, 0, h.looping _⟩
  refine (Ends.whileSome (fun s' => s'.time = s.time + time ∧ ∃ low, Looping s low s')
    (fun s' => overdue (s.time + time) s'.events) ?_ ?_ fuel _ hstart hfuel).mono
    fun s' hs' => hs'.1.2
  · rintro s' first ⟨htime, -⟩ hnext
    exact htime ▸ nextDue_overdue hnext
  · rintro s' first ⟨htime, low, hloop⟩ hnext
    refine (processEvent_ends hcallbacks hloop hnext).mono fun s'' hs'' => ?_
    rw [← htime]
    exact ⟨⟨hs''.2.1, _, hs''.1⟩, hs''.2.2⟩

theorem update_grown (hcallbacks : WellBehaved callbacks) (h : Kept s s.events) {time fuel : Nat}
    (hs' : s.update callbacks fuel time = .ok s') : ∃ low, Looping s low s' := by
  have hends : Ends (fun _ => True) (s.update callbacks fuel time)
      fun s' => ∃ low, Looping s low s' := by
    refine Ends.whileSome_partial trivial (fun s' => ∃ low, Looping s low s')
      (fun s' first hs' hnext => ?_) fuel _ ⟨0, h.looping (s.time + time)⟩
    obtain ⟨low, hloop⟩ := hs'
    exact ((processEvent_ends hcallbacks hloop hnext).mono fun s'' hs'' => ⟨_, hs''.1⟩).allow
      fun _ => False.elim
  exact hends.post_of_ok hs'

end update

section kill

variable [DecidableEq E]

theorem abortEvent_ends {low : Nat} (h : Kept s' l) (hgrown : Grown s low s') (event : E) :
    Ends (fun _ => False) (s'.abortEvent event) fun s'' => Kept s'' l ∧ Grown s low s'' := by
  rw [abortEvent]
  by_cases hstate : s'.abortState event = .aborted
  · rw [if_neg (not_not_intro hstate)]
    exact ⟨h, hgrown⟩
  have hset : s'.setAborted event = .ok ({ s' with
      abortState := update s'.abortState event .aborted }.note (.setAborted event)) :=
    if_neg hstate
  rw [if_pos hstate]
  refine Ends.bind_ok hset ?_
  have hjournal : s'.journal ++ [.setAborted event] ++ [.aborted event] =
      s'.journal ++ [.setAborted event, .aborted event] := by simp
  refine ⟨?_, hgrown.append hjournal rfl ?_ ?_⟩
  · have hkept := h.abort hstate _ (.inr rfl)
    rw [← hjournal] at hkept
    exact hkept
  · rintro other hother
    have heq : other = event := by simpa using hother
    exact heq ▸ hstate
  · intro other hother
    by_cases heq : other = event
    · simp [note, heq]
    · simpa [note, heq] using hother

/-- One turn of the loop of `KillAllEvents`. -/
theorem killEvent_ends {kept rest : List (Nat × E)} {entry : Nat × E}
    (h : Kept s' (kept ++ entry :: rest)) (hgrown : Grown s 0 s') :
    Ends (fun _ => False) (killEvent callbacks force (s', kept) entry) fun turn =>
      Kept turn.1 (turn.2 ++ rest) ∧ Grown s 0 turn.1 := by
  refine (abortEvent_ends h hgrown entry.2).bind fun s'' ⟨hkept, hgrown⟩ => Ends.ok ?_
  split
  · refine ⟨?_, hgrown⟩
    rwa [append_assoc, singleton_append]
  have hperm : ((kept ++ entry :: rest).map Prod.snd).Perm
      (entry.2 :: (kept ++ rest).map Prod.snd) := perm_middle.map Prod.snd
  have hnot := (nodup_cons.mp (hperm.nodup_iff.mp hkept.queuedOnce)).1
  have hlive : entry.2 ∉ deletions s''.journal := fun hdeleted =>
    hkept.gone _ hdeleted (hperm.mem_iff.mpr mem_cons_self)
  have hsub : (kept ++ rest).Sublist (kept ++ entry :: rest) :=
    (sublist_cons_self _ _).append_left kept
  exact ⟨(hkept.sublist hsub).delete ⟨hnot, hlive⟩, hgrown.append rfl rfl (by simp) fun _ h => h⟩

theorem killAllEvents_ends (h : Kept s s.events) :
    Ends (fun _ => False) (s.killAllEvents callbacks force) fun s' =>
      Kept s' s'.events ∧ Grown s 0 s' := by
  refine Ends.bind (Ends.foldlM (fun rest turn => Kept turn.1 (turn.2 ++ rest) ∧ Grown s 0 turn.1)
    (fun entry rest turn hturn => killEvent_ends hturn.1 hturn.2) s.events (s, [])
    ⟨h, Grown.refl 0⟩) ?_
  rintro ⟨s', events⟩ ⟨hkept, hgrown⟩
  rw [append_nil] at hkept
  exact ⟨hkept.withEvents, hgrown.journal, hgrown.stays⟩

end kill

theorem Grown.advance {low : Nat} (h : Grown s low s') : Advance s s' := by
  obtain ⟨notes, hjournal, hsorted, -, haborted⟩ := h.journal
  exact ⟨notes, hjournal, hsorted, haborted⟩

variable [DecidableEq E]

theorem call_kept (hcallbacks : WellBehaved callbacks) (h : Kept s s.events) {fuel : Nat}
    {c : ProcessorCall E} (hproper : Proper s c) (hs' : s.call callbacks fuel c = .ok s') :
    Kept s' s'.events ∧ Advance s s' := by
  cases c with
  | addEvent event time setAddTime =>
    cases hs'
    exact ⟨h.add ⟨hproper.1, hproper.2⟩ time setAddTime,
      Grown.advance ⟨(Grown.refl 0).journal, fun _ h => h⟩⟩
  | scheduleAbort event =>
    rw [call, scheduleAbort] at hs'
    split at hs'
    · cases hs'
      rename_i hstate
      refine ⟨h.scheduleAbort hstate, Grown.advance
        ((Grown.refl 0).append rfl rfl (by simp) fun other hother => ?_)⟩
      by_cases heq : other = event
      · rw [heq, hstate] at hother
        exact nomatch hother
      · simpa [note, heq] using hother
    · exact nomatch hs'
  | modifyEventTime event newTime =>
    cases hs'
    refine ⟨h.modifyEventTime event newTime, ?_⟩
    have hsame : (s.modifyEventTime event newTime).journal = s.journal := by
      rw [EventProcessor.modifyEventTime]
      split <;> rfl
    exact ⟨[], by rw [hsame, append_nil], .nil, nofun⟩
  | update time =>
    obtain ⟨low, hloop⟩ := update_grown hcallbacks h hs'
    exact ⟨hloop.kept, hloop.grown.advance⟩
  | killAllEvents force =>
    obtain ⟨hkept, hgrown⟩ := (killAllEvents_ends h).post_of_ok hs'
    exact ⟨hkept, hgrown.advance⟩

theorem Reachable.kept (hcallbacks : WellBehaved callbacks) (h : Reachable callbacks s) :
    Kept s s.events := by
  induction h with
  | new => exact ⟨.nil, .nil, .nil, by simp [abortions], nofun, .nil, .nil, nofun⟩
  | call _ hproper hs' ih => exact (call_kept hcallbacks ih hproper hs').1

/-- Between the calls an event is queued, aborted and deleted at most once, none is executed after its
abortion was scheduled, a proper call only goes on, and an `Update` ends. -/
theorem processor_lifecycle (hcallbacks : WellBehaved callbacks) (h : Reachable callbacks s) :
    Lifecycle s ∧ (∀ fuel c s', Proper s c → s.call callbacks fuel c = .ok s' → Advance s s') ∧
      ∀ time, ∃ fuel s', s.update callbacks fuel time = .ok s' := by
  have hkept := h.kept hcallbacks
  refine ⟨hkept.lives, fun fuel c s' hproper hs' => (call_kept hcallbacks hkept hproper hs').2,
    fun time => ⟨overdue (s.time + time) s.events, ?_⟩⟩
  have hends := update_ends hcallbacks hkept time _ (Nat.le_refl _)
  cases hs' : s.update callbacks (overdue (s.time + time) s.events) time with
  | ok s' => exact ⟨s', rfl⟩
  | error fault => exact (hends.may_of_error hs').elim

/-- An event that is due at 5 is executed then and adds itself for 15; others are executed once. -/
def again : EventCallbacks Nat where
  execute history _ :=
    match history.getLast? with
    | some (.processed 5 _) => (false, some 15)
    | _ => (true, none)
  isDeletable _ _ := true

theorem again_wellBehaved : WellBehaved again := by
  constructor
  · intro history due event time h
    simp only [again, List.getLast?_concat] at h
    split at h
    · rename_i hlast
      cases hlast
      cases h
      decide
    · cases h
  · intro history event time h
    simp only [again] at h ⊢
    split at h
    · rfl
    · cases h

/-- Event 0 is executed and comes back, behind event 1. -/
theorem processor_lifecycle_again : ∃ s : EventProcessor Nat,
    (({} : EventProcessor Nat).addEvent 0 5 |>.addEvent 1 9).update again 1 5 = .ok s ∧
      queue s = [1, 0] ∧ Lifecycle s ∧ ∀ time, ∃ fuel s', s.update again fuel time = .ok s' := by
  have hfirst : Reachable again (({} : EventProcessor Nat).addEvent 0 5) :=
    .call (c := .addEvent 0 5 true) .new ⟨nofun, nofun⟩
      (rfl : ({} : EventProcessor Nat).call again 0 _ = .ok _)
  have hsecond : Reachable again (({} : EventProcessor Nat).addEvent 0 5 |>.addEvent 1 9) :=
    .call (c := .addEvent 1 9 true) hfirst ⟨by decide, by decide⟩
      (rfl : call again 0 _ _ = .ok _)
  obtain ⟨hlives, -, hends⟩ := processor_lifecycle again_wellBehaved
    (.call (c := .update 5) hsecond trivial (rfl : call again 1 _ _ = .ok _))
  exact ⟨_, rfl, rfl, hlives, hends⟩

/-- `KillAllEvents` calls `Abort` after `SetAborted`, an event that is executed, adds itself
and wants to be deleted is in the queue when it is, and an event can be added twice. -/
theorem not_processor_lifecycle :
    (((({} : EventProcessor Nat).addEvent 0 5).killAllEvents again true).map journal =
        .ok [.setAborted 0, .aborted 0, .deleted 0]) ∧
      (((({} : EventProcessor Nat).addEvent 0 5).update
          ⟨fun _ _ => (true, some 10), fun _ _ => true⟩ 1 5).map fun s =>
        (deletions s.journal, queue s)) = .ok ([0], [0]) ∧
      queue ((({} : EventProcessor Nat).addEvent 0 5).addEvent 0 5) = [0, 0] :=
  ⟨rfl, rfl, rfl⟩

end LegionServer.Guarantees.EventLifecycle
