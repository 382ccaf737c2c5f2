import LegionServer.Library.IdPool
import LegionServer.Library.Outcome

/-!
# The calendar

Events and invites of `CalendarMgr` (`CalendarMgr.cpp:38-382`), with the identifiers that the
destructors give back. An object is read through its pointer only where it is still in its store;
the other reads are faults. What packets, mails and statements say is left out.
-/
namespace LegionServer.Source.Calendar
open Library List

def CALENDAR_FLAG_WITHOUT_INVITES : UInt32 := 0x40
def CALENDAR_FLAG_GUILD_EVENT : UInt32 := 0x400

/-- `1 * MONTH` -/
def CALENDAR_OLD_EVENTS_DELETION_TIME : Int := 30 * 24 * 3600

structure CalendarInvite where
  inviteId : UInt64
  eventId : UInt64
  invitee : UInt64
  deriving DecidableEq, Repr

structure CalendarEvent where
  eventId : UInt64
  ownerGUID : UInt64
  eventGuildId : UInt64
  date : Int
  flags : UInt32
  deriving DecidableEq, Repr

namespace CalendarEvent

def isGuildEvent (event : CalendarEvent) : Bool := event.flags &&& CALENDAR_FLAG_GUILD_EVENT ≠ 0

def isGuildAnnouncement (event : CalendarEvent) : Bool :=
  event.flags &&& CALENDAR_FLAG_WITHOUT_INVITES ≠ 0

/-- A guild event or an announcement of the player. -/
def isOwned (guid : UInt64) (event : CalendarEvent) : Bool :=
  event.ownerGUID = guid && (event.isGuildEvent || event.isGuildAnnouncement)

end CalendarEvent

/-- A pointer or an iterator to an object that was erased. -/
inductive CalendarFault where
  | erased
  deriving DecidableEq, Repr

/-- The stores and the identifiers. `_invites` is the vectors of its events one after another. -/
structure CalendarMgr where
  events : List CalendarEvent
  invites : List CalendarInvite
  eventIds : IdPool
  inviteIds : IdPool
  deriving DecidableEq, Repr

namespace CalendarMgr

def getEvent (s : CalendarMgr) (eventId : UInt64) : Option CalendarEvent :=
  s.events.find? (·.eventId = eventId)

def getInvite (s : CalendarMgr) (inviteId : UInt64) : Option CalendarInvite :=
  s.invites.find? (·.inviteId = inviteId)

def getEventInvites (s : CalendarMgr) (eventId : UInt64) : List CalendarInvite :=
  s.invites.filter (·.eventId = eventId)

def getPlayerInvites (s : CalendarMgr) (guid : UInt64) : List CalendarInvite :=
  s.invites.filter (·.invitee = guid)

def freeEventId (s : CalendarMgr) (id : UInt64) : CalendarMgr :=
  { s with eventIds := s.eventIds.release id }

def getFreeEventId (s : CalendarMgr) : UInt64 × CalendarMgr :=
  (s.eventIds.take.1, { s with eventIds := s.eventIds.take.2 })

def freeInviteId (s : CalendarMgr) (id : UInt64) : CalendarMgr :=
  { s with inviteIds := s.inviteIds.release id }

def getFreeInviteId (s : CalendarMgr) : UInt64 × CalendarMgr :=
  (s.inviteIds.take.1, { s with inviteIds := s.inviteIds.take.2 })

def destroyInvite (s : CalendarMgr) (invite : CalendarInvite) : CalendarMgr :=
  if invite.inviteId ≠ 0 ∧ invite.eventId ≠ 0 then s.freeInviteId invite.inviteId else s

def destroyEvent (s : CalendarMgr) (event : CalendarEvent) : CalendarMgr :=
  s.freeEventId event.eventId

def addEvent (s : CalendarMgr) (event : CalendarEvent) : CalendarMgr :=
  { s with events := s.events ++ [event] }

def addInvite (s : CalendarMgr) (event : CalendarEvent) (invite : CalendarInvite) : CalendarMgr :=
  if event.isGuildAnnouncement then s else { s with invites := s.invites ++ [invite] }

/-- `CalendarMgr::RemoveEvent` of an event of the store. -/
def removeEvent (s : CalendarMgr) (event : CalendarEvent) : CalendarMgr :=
  let s := (s.getEventInvites event.eventId).foldl destroyInvite s
  let s := { s with
    invites := s.invites.filter (·.eventId ≠ event.eventId)
    events := s.events.erase event }
  s.destroyEvent event

/-- `CalendarMgr::RemoveEvent` of an identifier. -/
def removeEventOf (s : CalendarMgr) (eventId : UInt64) : CalendarMgr :=
  match s.getEvent eventId with
  | none => s
  | some event => s.removeEvent event

def removeInvite (s : CalendarMgr) (inviteId eventId : UInt64) : CalendarMgr :=
  match s.getEvent eventId with
  | none => s
  | some _ =>
    match (s.getEventInvites eventId).find? (·.inviteId = inviteId) with
    | none => s
    | some invite => { s.destroyInvite invite with invites := s.invites.erase invite }

/-- A loop over the events that goes to the next one before it removes those that meet a
condition. -/
def removeEvents (s : CalendarMgr) (condition : CalendarEvent → Bool) :
    Except CalendarFault CalendarMgr :=
  s.events.foldlM (fun s event =>
    if event ∉ s.events then .error .erased
    else if condition event then .ok (s.removeEvent event)
    else .ok s) s

/-- The loop over invites of a player, which it has read before. -/
def removeInvites (s : CalendarMgr) (condition : CalendarMgr → CalendarInvite → Bool)
    (playerInvites : List CalendarInvite) : Except CalendarFault CalendarMgr :=
  playerInvites.foldlM (fun s invite =>
    if invite ∉ s.invites then .error .erased
    else if condition s invite then .ok (s.removeInvite invite.inviteId invite.eventId)
    else .ok s) s

def removeAllPlayerEventsAndInvites (s : CalendarMgr) (guid : UInt64) :
    Except CalendarFault CalendarMgr := do
  let s ← s.removeEvents (·.ownerGUID = guid)
  s.removeInvites (fun _ _ => true) (s.getPlayerInvites guid)

/-- A round of the loop over the events in `RemovePlayerGuildEventsAndSignups`, which goes to the
next event after the removal. -/
def removeGuildEvent (guid : UInt64) (s : CalendarMgr) (event : CalendarEvent) :
    Except CalendarFault CalendarMgr :=
  if event ∉ s.events then .error .erased
  else if event.isOwned guid then
    if event ∉ (s.removeEventOf event.eventId).events then .error .erased
    else .ok (s.removeEventOf event.eventId)
  else .ok s

def removePlayerGuildEventsAndSignups (s : CalendarMgr) (guid guildId : UInt64) :
    Except CalendarFault CalendarMgr := do
  let s ← s.events.foldlM (removeGuildEvent guid) s
  s.removeInvites (fun s invite => match s.getEvent invite.eventId with
    | none => false
    | some event => event.isGuildEvent && event.eventGuildId = guildId) (s.getPlayerInvites guid)

def deleteOldEvents (s : CalendarMgr) (now : Int) : Except CalendarFault CalendarMgr :=
  s.removeEvents (·.date < now - CALENDAR_OLD_EVENTS_DELETION_TIME)

end CalendarMgr

structure EventRow where
  eventId : UInt64
  owner : UInt64
  date : Int
  flags : UInt32
  deriving DecidableEq, Repr

/-- A row of `calendar_invites`. -/
structure InviteRow where
  inviteId : UInt64
  eventId : UInt64
  invitee : UInt64
  deriving DecidableEq, Repr

structure CalendarTables where
  events : List EventRow
  invites : List InviteRow
  deriving DecidableEq, Repr

def EventRow.toEvent (guildIdByGuid : UInt64 → UInt64) (row : EventRow) : CalendarEvent where
  eventId := row.eventId
  ownerGUID := row.owner
  eventGuildId := if row.flags &&& CALENDAR_FLAG_GUILD_EVENT ≠ 0 ∨
    row.flags &&& CALENDAR_FLAG_WITHOUT_INVITES ≠ 0 then guildIdByGuid row.owner else 0
  date := row.date
  flags := row.flags

def InviteRow.toInvite (row : InviteRow) : CalendarInvite where
  inviteId := row.inviteId
  eventId := row.eventId
  invitee := row.invitee

def CalendarMgr.loadFromDB (guildIdByGuid : UInt64 → UInt64) (tables : CalendarTables) :
    CalendarMgr :=
  let s : CalendarMgr := {
    events := tables.events.map (EventRow.toEvent guildIdByGuid)
    invites := tables.invites.map InviteRow.toInvite
    eventIds := { free := [], max := (tables.events.map EventRow.eventId).foldl Max.max 0 }
    inviteIds := { free := [], max := (tables.invites.map InviteRow.inviteId).foldl Max.max 0 } }
  { s with
    eventIds := { s.eventIds with
      free := IdPool.unused s.eventIds.max fun id => (s.getEvent id).isSome }
    inviteIds := { s.inviteIds with
      free := IdPool.unused s.inviteIds.max fun id => (s.getInvite id).isSome } }

/-!
# What removals do to the calendar

Every removal gives back each identifier once and leaves no invite of an event that is gone.
-/

structure Accounts (created : List CalendarEvent) (s : CalendarMgr) : Prop where
  eventIds : s.eventIds.Valid ((created ++ s.events).map CalendarEvent.eventId)
  inviteIds : s.inviteIds.Valid (s.invites.map CalendarInvite.inviteId)

variable {created : List CalendarEvent} {s s' s'' : CalendarMgr} {event other : CalendarEvent}
  {invite : CalendarInvite} {eventId inviteId guid guildId : UInt64}

namespace Accounts

section
variable (h : Accounts created s)
include h

theorem events_ids : (s.events.map CalendarEvent.eventId).Nodup := by
  have hids := h.eventIds.live_nodup
  rw [map_append] at hids
  exact (nodup_append.mp hids).2.1

theorem events_nodup : s.events.Nodup := h.events_ids.of_map

theorem invites_nodup : s.invites.Nodup := h.inviteIds.live_nodup.of_map

/-- The event that is found for the identifier of an event of the store. -/
theorem getEvent_of_mem (hmem : event ∈ s.events) : s.getEvent event.eventId = some event := by
  rw [CalendarMgr.getEvent]
  cases hfound : s.events.find? (·.eventId = event.eventId) with
  | none =>
    have hnone := find?_eq_none.mp hfound event hmem
    simp at hnone
  | some other =>
    have heq : other.eventId = event.eventId := by simpa using find?_some hfound
    rw [inj_on_of_nodup_map h.events_ids (mem_of_find?_eq_some hfound) hmem heq]

end

end Accounts

/-- The destructors of invites change their identifiers only. -/
theorem foldl_destroyInvite (s : CalendarMgr) (deleted : List CalendarInvite) :
    deleted.foldl CalendarMgr.destroyInvite s =
      { s with inviteIds := (deleted.foldl CalendarMgr.destroyInvite s).inviteIds } := by
  induction deleted generalizing s with
  | nil => rfl
  | cons invite deleted ih =>
    rw [foldl_cons, ih]
    rw [CalendarMgr.destroyInvite]
    split
    · rfl
    · rfl

variable {live : List UInt64}

theorem inviteIds_destroyInvite {invite : CalendarInvite}
    (h : s.inviteIds.Valid (invite.inviteId :: live)) :
    (s.destroyInvite invite).inviteIds.Valid live := by
  rw [CalendarMgr.destroyInvite]
  split
  · exact h.release
  · exact h.sublist (sublist_cons_self _ _)

theorem inviteIds_foldl_destroyInvite {deleted : List CalendarInvite}
    (h : s.inviteIds.Valid (deleted.map CalendarInvite.inviteId ++ live)) :
    (deleted.foldl CalendarMgr.destroyInvite s).inviteIds.Valid live := by
  induction deleted generalizing s with
  | nil => exact h
  | cons invite deleted ih =>
    exact ih (inviteIds_destroyInvite h)

structure Removes (created : List CalendarEvent) (s s' : CalendarMgr) : Prop where
  accounts : Accounts created s'
  events : s'.events.Sublist s.events
  invites : s'.invites.Sublist s.invites
  gone : ∀ event ∈ s.events, event ∉ s'.events → ∀ invite ∈ s'.invites,
    invite.eventId ≠ event.eventId

theorem Removes.refl (h : Accounts created s) : Removes created s s :=
  ⟨h, List.Sublist.refl _, List.Sublist.refl _, fun _ hmem hgone => absurd hmem hgone⟩

theorem Removes.trans (h : Removes created s s') (h' : Removes created s' s'') :
    Removes created s s'' := by
  refine ⟨h'.accounts, h'.events.trans h.events, h'.invites.trans h.invites, ?_⟩
  intro event hmem hgone invite hinvite
  by_cases hmem' : event ∈ s'.events
  · exact h'.gone event hmem' hgone invite hinvite
  · exact h.gone event hmem hmem' invite (h'.invites.subset hinvite)

theorem events_removeEvent : (s.removeEvent event).events = s.events.erase event := by
  rw [CalendarMgr.removeEvent, foldl_destroyInvite]
  rfl

theorem invites_removeEvent :
    (s.removeEvent event).invites = s.invites.filter (·.eventId ≠ event.eventId) := by
  rw [CalendarMgr.removeEvent, foldl_destroyInvite]
  rfl

theorem eventIds_removeEvent :
    (s.removeEvent event).eventIds = s.eventIds.release event.eventId := by
  rw [CalendarMgr.removeEvent, foldl_destroyInvite]
  rfl

theorem inviteIds_removeEvent : (s.removeEvent event).inviteIds =
    ((s.getEventInvites event.eventId).foldl CalendarMgr.destroyInvite s).inviteIds := by
  rfl

theorem removes_removeEvent (h : Accounts created s) (hmem : event ∈ s.events) :
    Removes created s (s.removeEvent event) := by
  refine ⟨⟨?_, ?_⟩, events_removeEvent ▸ erase_sublist, ?_, ?_⟩
  · rw [eventIds_removeEvent, events_removeEvent]
    refine IdPool.Valid.release (h.eventIds.perm ?_)
    rw [← map_cons]
    refine List.Perm.map _ ?_
    exact ((perm_cons_erase hmem).append_left created).trans perm_middle
  · rw [inviteIds_removeEvent, invites_removeEvent]
    refine inviteIds_foldl_destroyInvite (h.inviteIds.perm ?_)
    rw [← map_append]
    refine List.Perm.map _ ?_
    have hperm := (filter_append_perm (fun invite : CalendarInvite =>
      decide (invite.eventId = event.eventId)) s.invites).symm
    simpa [CalendarMgr.getEventInvites] using hperm
  · rw [invites_removeEvent]
    exact filter_sublist
  · intro other hother hgone invite hinvite
    rw [invites_removeEvent, mem_filter, decide_eq_true_iff] at hinvite
    have heq : other = event := by
      by_contra hne
      rw [events_removeEvent] at hgone
      exact hgone ((mem_erase_of_ne hne).mpr hother)
    rw [heq]
    exact hinvite.2

theorem removes_removeEventOf (h : Accounts created s) :
    Removes created s (s.removeEventOf eventId) := by
  rw [CalendarMgr.removeEventOf]
  split
  · exact .refl h
  · rename_i event hevent
    exact removes_removeEvent h (mem_of_find?_eq_some hevent)

theorem removes_removeInvite (h : Accounts created s) :
    Removes created s (s.removeInvite inviteId eventId) := by
  rw [CalendarMgr.removeInvite]
  split
  · exact .refl h
  split
  · exact .refl h
  rename_i invite hinvite
  have hmem : invite ∈ s.invites :=
    (mem_filter.mp (mem_of_find?_eq_some hinvite)).1
  have hdestroy := foldl_destroyInvite s [invite]
  rw [foldl_cons, foldl_nil] at hdestroy
  rw [hdestroy]
  refine ⟨⟨h.eventIds, ?_⟩, List.Sublist.refl _, erase_sublist,
    fun _ hevent hgone => absurd hevent hgone⟩
  refine inviteIds_destroyInvite (h.inviteIds.perm ?_)
  exact (perm_cons_erase hmem).map _

section
variable (h : Accounts created s)
include h

/-- A loop that goes to the next event before it removes one never meets an erased one. -/
theorem removes_removeEvents (condition : CalendarEvent → Bool) :
    Ends (fun _ => False) (s.removeEvents condition) (Removes created s) := by
  refine (Ends.foldlM (fun rest s' => Removes created s s' ∧ rest.Sublist s'.events) ?_ _ _
    ⟨.refl h, List.Sublist.refl _⟩).mono fun s' hs' => hs'.1
  rintro event rest s' ⟨hremoves, hrest⟩
  have hmem : event ∈ s'.events := hrest.subset mem_cons_self
  rw [if_neg (not_not.mpr hmem)]
  split
  · refine ⟨hremoves.trans (removes_removeEvent hremoves.accounts hmem), ?_⟩
    rw [events_removeEvent]
    have herase := hrest.erase event
    rwa [erase_cons_head] at herase
  · exact ⟨hremoves, (sublist_cons_self _ _).trans hrest⟩

/-- The removal of an invite of the store takes it out, or nothing where its event is not in the
store. -/
theorem invites_removeInvite (hmem : invite ∈ s.invites) :
    (s.removeInvite invite.inviteId invite.eventId).invites =
      if (s.getEvent invite.eventId).isSome then s.invites.erase invite else s.invites := by
  have hids := h.inviteIds.live_nodup
  rw [CalendarMgr.removeInvite]
  cases hevent : s.getEvent invite.eventId with
  | none => rfl
  | some event =>
    have hfound : (s.getEventInvites invite.eventId).find? (·.inviteId = invite.inviteId) =
        some invite := by
      have hmem' : invite ∈ s.getEventInvites invite.eventId :=
        mem_filter.mpr ⟨hmem, decide_eq_true rfl⟩
      cases hfind : (s.getEventInvites invite.eventId).find? (·.inviteId = invite.inviteId) with
      | none =>
        have hnone := find?_eq_none.mp hfind invite hmem'
        simp at hnone
      | some other =>
        have heq : other.inviteId = invite.inviteId := by simpa using find?_some hfind
        rw [inj_on_of_nodup_map hids (mem_filter.mp (mem_of_find?_eq_some hfind)).1 hmem heq]
    simp only [hfound]
    rfl

theorem removes_removeInvites (condition : CalendarMgr → CalendarInvite → Bool)
    {playerInvites : List CalendarInvite} (hinvites : playerInvites.Sublist s.invites) :
    Ends (fun _ => False) (s.removeInvites condition playerInvites) (Removes created s) := by
  refine (Ends.foldlM (fun rest s' => Removes created s s' ∧ rest.Sublist s'.invites) ?_ _ _
    ⟨.refl h, hinvites⟩).mono fun s' hs' => hs'.1
  rintro invite rest s' ⟨hremoves, hrest⟩
  have hmem : invite ∈ s'.invites := hrest.subset mem_cons_self
  have hleft : rest.Sublist s'.invites := (sublist_cons_self _ _).trans hrest
  rw [if_neg (not_not.mpr hmem)]
  split
  · refine ⟨hremoves.trans (removes_removeInvite hremoves.accounts), ?_⟩
    rw [invites_removeInvite hremoves.accounts hmem]
    split
    · have herase := hrest.erase invite
      rwa [erase_cons_head] at herase
    · exact hleft
  · exact ⟨hremoves, hleft⟩

theorem removes_removeAll :
    Ends (fun _ => False) (s.removeAllPlayerEventsAndInvites guid) (Removes created s) := by
  refine (removes_removeEvents h _).bind fun s' hs' => ?_
  exact (removes_removeInvites hs'.accounts _ filter_sublist).mono fun _ => hs'.trans

end

/-- The loop goes on from an event that it has removed. -/
theorem removeGuildEvent_eq (h : Accounts created s) (hmem : event ∈ s.events) :
    CalendarMgr.removeGuildEvent guid s event =
      if event.isOwned guid then .error .erased else .ok s := by
  have hgone : event ∉ (s.removeEventOf event.eventId).events := by
    rw [CalendarMgr.removeEventOf, h.getEvent_of_mem hmem]
    rw [events_removeEvent]
    exact h.events_nodup.not_mem_erase
  rw [CalendarMgr.removeGuildEvent, if_neg (not_not.mpr hmem), if_pos hgone]

/-- The loop comes to its end just where there is no event to remove. -/
theorem foldlM_removeGuildEvent (guid : UInt64) (h : Accounts created s) {events : List CalendarEvent}
    (hevents : ∀ event ∈ events, event ∈ s.events) :
    events.foldlM (CalendarMgr.removeGuildEvent guid) s =
      if events.any (·.isOwned guid) then .error .erased else .ok s := by
  induction events with
  | nil => rfl
  | cons event events ih =>
    have ih := ih fun event hevent => hevents event (mem_cons_of_mem _ hevent)
    rw [foldlM_cons, removeGuildEvent_eq h (hevents event mem_cons_self), any_cons]
    cases event.isOwned guid with
    | true => rfl
    | false => exact ih

def OwnsNone (s : CalendarMgr) (guid : UInt64) : Prop := s.events.any (·.isOwned guid) = false

def toGuildEvent (s : CalendarMgr) (guildId : UInt64) (invite : CalendarInvite) : Bool :=
  match s.getEvent invite.eventId with
  | none => false
  | some event => event.isGuildEvent && event.eventGuildId = guildId

structure SignupsRemoved (guid guildId : UInt64) (s s' : CalendarMgr) : Prop where
  events : s'.events = s.events
  invites : s'.invites = s.invites.filter fun invite =>
    !(invite.invitee = guid && toGuildEvent s guildId invite)

theorem toGuildEvent_congr (h : s'.events = s.events) :
    toGuildEvent s' guildId invite = toGuildEvent s guildId invite := by
  rw [toGuildEvent, toGuildEvent, CalendarMgr.getEvent, CalendarMgr.getEvent, h]

theorem events_removeInvite : (s.removeInvite inviteId eventId).events = s.events := by
  rw [CalendarMgr.removeInvite]
  split
  · rfl
  split
  · rfl
  · rename_i invite _
    have hdestroy := foldl_destroyInvite s [invite]
    rw [foldl_cons, foldl_nil] at hdestroy
    rw [hdestroy]

/-- The invites of a loop over signups that has some of them still to look at. -/
def leftInvites (s : CalendarMgr) (guid guildId : UInt64) (rest : List CalendarInvite) :
    List CalendarInvite :=
  s.invites.filter fun invite =>
    !(decide (invite.invitee = guid) && toGuildEvent s guildId invite && decide (invite ∉ rest))

theorem leftInvites_start : leftInvites s guid guildId (s.getPlayerInvites guid) = s.invites := by
  refine filter_eq_self.mpr fun invite hinvite => ?_
  by_cases hguid : invite.invitee = guid
  · have hmem : invite ∈ s.getPlayerInvites guid :=
      mem_filter.mpr ⟨hinvite, decide_eq_true hguid⟩
    rw [decide_eq_false (not_not.mpr hmem), Bool.and_false, Bool.not_false]
  · rw [decide_eq_false hguid, Bool.false_and, Bool.false_and, Bool.not_false]

theorem leftInvites_cons (guildId : UInt64) {rest : List CalendarInvite}
    (hnodup : (invite :: rest).Nodup) (hguid : invite.invitee = guid) (hinvites : s.invites.Nodup) :
    leftInvites s guid guildId rest = if toGuildEvent s guildId invite then
      (leftInvites s guid guildId (invite :: rest)).erase invite
    else leftInvites s guid guildId (invite :: rest) := by
  have hrest := (nodup_cons.mp hnodup).1
  have hother : ∀ other ≠ invite, (other ∉ invite :: rest) = (other ∉ rest) := fun other hne => by
    rw [mem_cons, or_iff_right hne]
  split
  · rename_i hto
    rw [leftInvites, leftInvites, (hinvites.filter _).erase_eq_filter, filter_filter]
    refine filter_congr fun other _ => ?_
    by_cases heq : other = invite
    · subst heq
      rw [decide_eq_true hguid, hto, decide_eq_true hrest, bne_self_eq_false, Bool.false_and]
      rfl
    · rw [decide_eq_decide.mpr (iff_of_eq (hother other heq)), bne_iff_ne.mpr heq, Bool.true_and]
  · rename_i hto
    rw [Bool.not_eq_true] at hto
    refine filter_congr fun other _ => ?_
    by_cases heq : other = invite
    · subst heq
      rw [hto, Bool.and_false, Bool.false_and, Bool.false_and]
    · rw [decide_eq_decide.mpr (iff_of_eq (hother other heq))]

theorem signupsRemoved (h : Accounts created s) :
    Ends (fun _ => False) (s.removeInvites (fun s => toGuildEvent s guildId)
      (s.getPlayerInvites guid)) (SignupsRemoved guid guildId s) := by
  rw [CalendarMgr.removeInvites]
  refine (Ends.foldlM (fun rest s' => Removes created s s' ∧ rest.Sublist s'.invites ∧
    s'.events = s.events ∧ (∀ invite ∈ rest, invite.invitee = guid) ∧
    s'.invites = leftInvites s guid guildId rest) ?_ _ _ ?_).mono ?_
  · rintro invite rest s' ⟨hremoves, hrest, hevents, hguid, hinvites⟩
    have hmem : invite ∈ s'.invites := hrest.subset mem_cons_self
    have hguid' : ∀ invite ∈ rest, invite.invitee = guid := fun invite hinvite =>
      hguid invite (mem_cons_of_mem _ hinvite)
    have hcons := leftInvites_cons guildId
      (hremoves.accounts.invites_nodup.sublist hrest) (hguid invite mem_cons_self)
      h.invites_nodup
    rw [if_neg (not_not.mpr hmem), toGuildEvent_congr hevents]
    split
    · rename_i hto
      rw [if_pos hto, ← hinvites] at hcons
      have hevent : (s'.getEvent invite.eventId).isSome = true := by
        rw [← toGuildEvent_congr hevents, toGuildEvent] at hto
        split at hto
        · cases hto
        · rename_i hevent
          rw [hevent]
          rfl
      have hremoved := invites_removeInvite hremoves.accounts hmem
      rw [if_pos hevent] at hremoved
      refine ⟨hremoves.trans (removes_removeInvite hremoves.accounts), ?_,
        events_removeInvite.trans hevents, hguid', hremoved.trans hcons.symm⟩
      have herase := hrest.erase invite
      rw [erase_cons_head] at herase
      rwa [hremoved]
    · rename_i hto
      rw [if_neg hto, ← hinvites] at hcons
      exact ⟨hremoves, (sublist_cons_self _ _).trans hrest, hevents, hguid', hcons.symm⟩
  · refine ⟨.refl h, filter_sublist, rfl, fun invite hinvite => ?_, leftInvites_start.symm⟩
    simpa using (mem_filter.mp hinvite).2
  · rintro s' ⟨-, -, hevents, -, hinvites⟩
    refine ⟨hevents, hinvites.trans (filter_congr fun invite _ => ?_)⟩
    rw [decide_eq_true not_mem_nil, Bool.and_true]

end LegionServer.Source.Calendar
