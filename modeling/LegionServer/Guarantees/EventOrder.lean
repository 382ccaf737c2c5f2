import LegionServer.Guarantees.EventMapReset

/-!
# Events in order

The multimap behind an event map is ordered by time after any calls, so that
`ExecuteEvent` takes the earliest event that the phases let through.
-/
namespace LegionServer.Guarantees.EventOrder
open Library Source.Common EventMap EventMapReset StableQueue

variable {s : EventMap} {event : Event}

/-- Phases are set on the map and on the event, and they have none in common. -/
def Excluded (s : EventMap) (event : Event) : Prop :=
  s.phaseMask ≠ 0 ∧ event.phaseMask ≠ 0 ∧ event.phaseMask &&& s.phaseMask = 0

/-- `ExecuteEvent` drops the due events that are excluded up to the first other one. That is
the earliest one that is due, and it is returned; else nothing is due any more. -/
def ReturnsEarliest (s : EventMap) : Prop :=
  ∃ excluded left, s.eventMap = excluded ++ left ∧
    (∀ entry ∈ excluded, entry.1 ≤ s.time ∧ Excluded s entry.2) ∧
    ((∀ entry ∈ left, s.time < entry.1) ∧ s.executeEvent = ({ s with eventMap := left }, 0) ∨
      ∃ time event rest, left = (time, event) :: rest ∧ time ≤ s.time ∧ ¬Excluded s event ∧
        (∀ entry ∈ rest, time ≤ entry.1) ∧
        s.executeEvent = (EventMap.scheduleNextFromSeries
          { s with eventMap := rest, lastEvent := event } event, event.id))

theorem held_ordered : Held (Ordered Prod.fst) fun _ => True where
  mem _ _ := trivial
  sublist := Ordered.sublist
  push h _ := h.push
  merged _ h _ hsub := (h.sublist hsub).merge

theorem ordered_calls (h : Ordered Prod.fst s.eventMap) (cs : List EventMapCall) :
    Ordered Prod.fst (calls cs s).1.eventMap := by
  induction cs generalizing s with
  | nil => exact h
  | cons c cs ih => exact ih (held_ordered.call h c fun _ _ => trivial)

/-- The loop of `ExecuteEvent`: excluded events are dropped, and the first other one that is
due is returned. -/
theorem executeFrom_spec (entries : List (Int × Event)) :
    ∃ excluded left, entries = excluded ++ left ∧
      (∀ entry ∈ excluded, entry.1 ≤ s.time ∧ Excluded s entry.2) ∧
      ((∀ entry ∈ left.head?, s.time < entry.1) ∧
          s.executeFrom entries = ({ s with eventMap := left }, 0) ∨
        ∃ time event rest, left = (time, event) :: rest ∧ time ≤ s.time ∧ ¬Excluded s event ∧
          s.executeFrom entries = (EventMap.scheduleNextFromSeries
            { s with eventMap := rest, lastEvent := event } event, event.id)) := by
  induction entries with
  | nil => exact ⟨[], [], rfl, nofun, .inl ⟨nofun, rfl⟩⟩
  | cons entry entries ih =>
    obtain ⟨time, event⟩ := entry
    rw [EventMap.executeFrom]
    split
    case isTrue hlater => exact ⟨[], _, rfl, nofun, .inl ⟨by simpa using hlater, rfl⟩⟩
    case isFalse hdue =>
      split
      case isTrue hexcluded =>
        obtain ⟨excluded, left, rfl, hall, hresult⟩ := ih
        refine ⟨(time, event) :: excluded, left, rfl, ?_, hresult⟩
        exact List.forall_mem_cons.mpr ⟨⟨not_lt.mp hdue, hexcluded⟩, hall⟩
      case isFalse hmet =>
        exact ⟨[], _, rfl, nofun, .inr ⟨time, event, entries, rfl, not_lt.mp hdue, hmet, rfl⟩⟩

/-- In every state that calls lead to, `ExecuteEvent` returns the earliest due event that is
not excluded, and drops the excluded ones before it; 0 tells that nothing is due any more. -/
theorem executeEvent_earliest (h : Reachable s) : ReturnsEarliest s := by
  obtain ⟨cs, rfl⟩ := h
  have horder := ordered_calls (s := {}) List.Pairwise.nil cs
  generalize (EventMap.calls cs {}).1 = s at horder ⊢
  obtain ⟨excluded, left, hentries, hall, hresult⟩ := executeFrom_spec (s := s) s.eventMap
  have hleft : Ordered Prod.fst left := Ordered.sublist horder (hentries ▸ List.sublist_append_right _ _)
  refine ⟨excluded, left, hentries, hall, ?_⟩
  rcases hresult with ⟨hnone, hreturned⟩ | ⟨time, event, rest, rfl, hdue, hmet, hreturned⟩
  · refine .inl ⟨fun entry hentry => ?_, hreturned⟩
    cases left with
    | nil => cases hentry
    | cons first left =>
      have hfirst := hnone first rfl
      rcases List.mem_cons.mp hentry with rfl | hentry
      · exact hfirst
      · exact hfirst.trans_le (hleft.head_le hentry)
  · exact .inr ⟨time, event, rest, rfl, hdue, hmet, fun entry hentry => hleft.head_le hentry,
      hreturned⟩

def phased : EventMap :=
  (EventMap.calls [.setPhase 1, .scheduleEvent 7 5 0 2, .scheduleEvent 8 6 0 1, .update 10] {}).1

theorem executeEvent_earliest_phased : ReturnsEarliest phased := executeEvent_earliest ⟨_, rfl⟩

end LegionServer.Guarantees.EventOrder
