import LegionServer.Library.Transition
import LegionServer.Source.Calendar.CalendarMgr

/-!
# The stores of the calendar

Identifiers of events and invites are given out again only after they were given back, once, and no
invite outlives its event, as long as no player leaves a guild with an event of a guild of his own:
the loop that removes such an event goes on from the erased one.
-/
namespace LegionServer.Guarantees.CalendarStores
open Library Source.Calendar List Bool IdPool.Valid

/-- The calendar, the events that were created and not added yet, and the identifiers of removed
events that were not given out again. -/
structure World where
  mgr : CalendarMgr
  created : List CalendarEvent
  removed : List UInt64

inductive Call where
  | createEvent (ownerGUID eventGuildId : UInt64) (date : Int) (flags : UInt32)
  | addEvent (event : CalendarEvent)
  | addInvite (event : CalendarEvent) (invitee : UInt64)
  | announce (event : CalendarEvent)
  | preInvite (invitee : UInt64)
  | removeEvent (eventId : UInt64)
  | removeInvite (inviteId eventId : UInt64)
  | removeAllPlayerEventsAndInvites (guid : UInt64)
  | removePlayerGuildEventsAndSignups (guid guildId : UInt64)
  | deleteOldEvents (now : Int)

variable {w w' : World} {call : Call} {s : CalendarMgr} {event : CalendarEvent}

namespace World

def afterRemoval (w : World) (s : CalendarMgr) : World where
  mgr := s
  created := w.created
  removed := (w.mgr.events.filter (· ∉ s.events)).map CalendarEvent.eventId ++ w.removed

/-- `new CalendarEvent(sCalendarMgr->GetFreeEventId(), ..)` -/
def createEvent (w : World) (ownerGUID eventGuildId : UInt64) (date : Int) (flags : UInt32) :
    World :=
  let (eventId, mgr) := w.mgr.getFreeEventId
  { mgr
    created := ⟨eventId, ownerGUID, eventGuildId, date, flags⟩ :: w.created
    removed := w.removed.filter (· ≠ eventId) }

/-- An invite with a free identifier is added to an event that was created. -/
def addInvite (w : World) (event : CalendarEvent) (invitee : UInt64) : World :=
  if event ∈ w.created ++ w.mgr.events then
    let (inviteId, mgr) := w.mgr.getFreeInviteId
    { w with mgr := mgr.addInvite event ⟨inviteId, event.eventId, invitee⟩ }
  else w

/-- The temporary invite of a guild announcement is added and destroyed. -/
def announce (w : World) (event : CalendarEvent) : World :=
  if event ∈ w.created ∧ event.isGuildAnnouncement = true then
    let invite : CalendarInvite := ⟨0, event.eventId, 0⟩
    { w with mgr := (w.mgr.addInvite event invite).destroyInvite invite }
  else w

/-- The temporary invite of an event that is not created yet is sent and destroyed. -/
def preInvite (w : World) (invitee : UInt64) : World :=
  let (inviteId, mgr) := w.mgr.getFreeInviteId
  { w with mgr := mgr.destroyInvite ⟨inviteId, 0, invitee⟩ }

def run (w : World) : Call → Except CalendarFault World
  | .createEvent ownerGUID eventGuildId date flags =>
    .ok (w.createEvent ownerGUID eventGuildId date flags)
  | .addEvent event =>
    if event ∈ w.created then
      .ok { w with mgr := w.mgr.addEvent event, created := w.created.erase event }
    else .ok w
  | .addInvite event invitee => .ok (w.addInvite event invitee)
  | .announce event => .ok (w.announce event)
  | .preInvite invitee => .ok (w.preInvite invitee)
  | .removeEvent eventId => .ok (w.afterRemoval (w.mgr.removeEventOf eventId))
  | .removeInvite inviteId eventId => .ok (w.afterRemoval (w.mgr.removeInvite inviteId eventId))
  | .removeAllPlayerEventsAndInvites guid =>
    (w.mgr.removeAllPlayerEventsAndInvites guid).map w.afterRemoval
  | .removePlayerGuildEventsAndSignups guid guildId =>
    (w.mgr.removePlayerGuildEventsAndSignups guid guildId).map w.afterRemoval
  | .deleteOldEvents now => (w.mgr.deleteOldEvents now).map w.afterRemoval

end World

def calendar : System World Call where
  init w := ∃ guildIdByGuid tables, (tables.events.map EventRow.eventId).Nodup ∧
    (tables.invites.map InviteRow.inviteId).Nodup ∧
    w = ⟨.loadFromDB guildIdByGuid tables, [], []⟩
  step call w w' := w.run call = .ok w'

/-- Identifiers in use are distinct, in no queue and not above the maximum, queues have none twice,
and no invite is of an event that was removed. -/
structure Consistent (w : World) : Prop where
  accounts : Accounts w.created w.mgr
  removed : ∀ invite ∈ w.mgr.invites, invite.eventId ∉ w.removed

/-- The invite is to an event that is left to other players, and no signup of the player to an event
of the guild. -/
def isKept (s : CalendarMgr) (guid guildId : UInt64) (invite : CalendarInvite) : Bool :=
  match s.getEvent invite.eventId with
  | none => true
  | some event => !event.isOwned guid &&
    !(invite.invitee = guid && (event.isGuildEvent && event.eventGuildId = guildId))

structure Left (guid guildId : UInt64) (s s' : CalendarMgr) : Prop where
  events : s'.events = s.events.filter fun event => !event.isOwned guid
  invites : s'.invites = s.invites.filter (isKept s guid guildId)

def Promised (call : Call) (w w' : World) : Prop :=
  match call with
  | .removePlayerGuildEventsAndSignups guid guildId => Left guid guildId w.mgr w'.mgr
  | _ => True

/-- No counter runs over beside live identifiers, and no player leaves a guild with an event of a
guild of his own. -/
def Proper (call : Call) (w : World) : Prop :=
  match call with
  | .createEvent .. =>
    w.mgr.eventIds.Spare ((w.created ++ w.mgr.events).map CalendarEvent.eventId)
  | .addInvite .. | .preInvite _ =>
    w.mgr.inviteIds.Spare (w.mgr.invites.map CalendarInvite.inviteId)
  | .removePlayerGuildEventsAndSignups guid _ => OwnsNone w.mgr guid
  | _ => True

structure Stored (w : World) : Prop extends Consistent w where
  apart : ∀ event ∈ w.created ++ w.mgr.events, event.eventId ∉ w.removed

theorem le_max_uint64 (a b : UInt64) : a ≤ Max.max a b ∧ b ≤ Max.max a b := by
  change a ≤ (if a ≤ b then b else a) ∧ b ≤ if a ≤ b then b else a
  split
  · rename_i hle
    exact ⟨hle, UInt64.le_refl b⟩
  · rename_i hle
    exact ⟨UInt64.le_refl a, UInt64.le_of_lt (UInt64.not_le.mp hle)⟩

theorem le_foldl_max (ids : List UInt64) (start : UInt64) :
    start ≤ ids.foldl Max.max start ∧ ∀ id ∈ ids, id ≤ ids.foldl Max.max start := by
  induction ids generalizing start with
  | nil => exact ⟨UInt64.le_refl _, nofun⟩
  | cons id ids ih =>
    obtain ⟨hstart, hle⟩ := ih (Max.max start id)
    obtain ⟨hleft, hright⟩ := le_max_uint64 start id
    rw [foldl_cons, forall_mem_cons]
    exact ⟨UInt64.le_trans hleft hstart, UInt64.le_trans hright hstart, hle⟩

theorem stored_loadFromDB {guildIdByGuid : UInt64 → UInt64} {tables : CalendarTables}
    (hevents : (tables.events.map EventRow.eventId).Nodup)
    (hinvites : (tables.invites.map InviteRow.inviteId).Nodup) :
    Stored ⟨.loadFromDB guildIdByGuid tables, [], []⟩ := by
  have heventIds : (tables.events.map (EventRow.toEvent guildIdByGuid)).map
      CalendarEvent.eventId = tables.events.map EventRow.eventId := map_map
  have hinviteIds : (tables.invites.map InviteRow.toInvite).map CalendarInvite.inviteId =
      tables.invites.map InviteRow.inviteId := map_map
  refine ⟨⟨⟨?_, ?_⟩, fun _ _ => not_mem_nil⟩, fun _ _ => not_mem_nil⟩
  · refine of_unused (heventIds ▸ hevents) (heventIds ▸ (le_foldl_max _ 0).2) ?_
    intro id hid
    obtain ⟨event, hevent, heq⟩ := mem_map.mp hid
    rw [CalendarMgr.getEvent, find?_isSome]
    exact ⟨event, hevent, decide_eq_true heq⟩
  · refine of_unused (hinviteIds ▸ hinvites) (hinviteIds ▸ (le_foldl_max _ 0).2) ?_
    intro id hid
    obtain ⟨invite, hinvite, heq⟩ := mem_map.mp hid
    rw [CalendarMgr.getInvite, find?_isSome]
    exact ⟨invite, hinvite, decide_eq_true heq⟩

theorem stored_createEvent (h : Stored w)
    (hspare : w.mgr.eventIds.Spare ((w.created ++ w.mgr.events).map CalendarEvent.eventId))
    (ownerGUID eventGuildId : UInt64) (date : Int) (flags : UInt32) :
    Stored (w.createEvent ownerGUID eventGuildId date flags) := by
  have hids := h.accounts.eventIds.take hspare
  refine ⟨⟨⟨hids, h.accounts.inviteIds⟩, ?_⟩, ?_⟩
  · intro invite hinvite hmem
    exact h.removed invite hinvite (mem_of_mem_filter hmem)
  · intro event hevent hmem
    have hremoved := mem_filter.mp hmem
    rcases mem_cons.mp hevent with rfl | hevent
    · simp at hremoved
    · exact h.apart event hevent hremoved.1

theorem stored_addEvent (h : Stored w) (hmem : event ∈ w.created) :
    Stored { w with mgr := w.mgr.addEvent event, created := w.created.erase event } := by
  have hperm : (w.created ++ w.mgr.events).Perm
      (w.created.erase event ++ (w.mgr.events ++ [event])) := by
    refine ((perm_cons_erase hmem).append_right _).trans ?_
    rw [cons_append, ← append_assoc]
    exact (perm_append_singleton event _).symm
  refine ⟨⟨⟨h.accounts.eventIds.perm (hperm.map _), h.accounts.inviteIds⟩, h.removed⟩, ?_⟩
  intro other hother
  exact h.apart other (hperm.mem_iff.mpr hother)

theorem stored_addInvite (h : Stored w)
    (hspare : w.mgr.inviteIds.Spare (w.mgr.invites.map CalendarInvite.inviteId))
    (event : CalendarEvent) (invitee : UInt64) : Stored (w.addInvite event invitee) := by
  rw [World.addInvite]
  split
  · rename_i hmem
    have hids := h.accounts.inviteIds.take hspare
    simp only [CalendarMgr.getFreeInviteId, CalendarMgr.addInvite]
    split
    · exact ⟨⟨⟨h.accounts.eventIds, hids.sublist (sublist_cons_self _ _)⟩, h.removed⟩, h.apart⟩
    refine ⟨⟨⟨h.accounts.eventIds, hids.perm ?_⟩, ?_⟩, h.apart⟩
    · rw [map_append]
      exact (perm_append_singleton _ _).symm
    · intro invite hinvite
      rcases mem_append.mp hinvite with hinvite | hinvite
      · exact h.removed invite hinvite
      · rw [mem_singleton.mp hinvite]
        exact h.apart event hmem
  · exact h

/-- Neither the invite of an announcement nor one without an event gives its identifier back. -/
theorem destroyInvite_temporary {invite : CalendarInvite}
    (h : invite.inviteId = 0 ∨ invite.eventId = 0) : s.destroyInvite invite = s := by
  rw [CalendarMgr.destroyInvite, if_neg]
  rintro ⟨hinvite, hevent⟩
  rcases h with h | h
  · exact hinvite h
  · exact hevent h

theorem stored_announce (h : Stored w) (event : CalendarEvent) : Stored (w.announce event) := by
  rw [World.announce]
  split
  · rename_i hannounce
    simp only [CalendarMgr.addInvite, if_pos hannounce.2]
    exact h
  · exact h

theorem stored_preInvite (h : Stored w)
    (hspare : w.mgr.inviteIds.Spare (w.mgr.invites.map CalendarInvite.inviteId))
    (invitee : UInt64) : Stored (w.preInvite invitee) := by
  have hids := (h.accounts.inviteIds.take hspare).sublist (sublist_cons_self _ _)
  simp only [World.preInvite]
  rw [destroyInvite_temporary (.inr rfl)]
  exact ⟨⟨⟨h.accounts.eventIds, hids⟩, h.removed⟩, h.apart⟩

theorem stored_afterRemoval (h : Stored w) (hremoves : Removes w.created w.mgr s) :
    Stored (w.afterRemoval s) := by
  have hsub : (w.created ++ s.events).Sublist (w.created ++ w.mgr.events) :=
    (List.Sublist.refl _).append hremoves.events
  have hids := h.accounts.eventIds.live_nodup
  refine ⟨⟨hremoves.accounts, ?_⟩, ?_⟩
  · intro invite hinvite hmem
    rcases mem_append.mp hmem with hmem | hmem
    · obtain ⟨event, hevent, heq⟩ := mem_map.mp hmem
      rw [mem_filter, decide_eq_true_iff] at hevent
      exact hremoves.gone event hevent.1 hevent.2 invite hinvite heq.symm
    · exact h.removed invite (hremoves.invites.subset hinvite) hmem
  · intro event hevent hmem
    rcases mem_append.mp hmem with hmem | hmem
    · obtain ⟨other, hother, heq⟩ := mem_map.mp hmem
      rw [mem_filter, decide_eq_true_iff] at hother
      have hsame := inj_on_of_nodup_map hids (mem_append_right _ hother.1) (hsub.subset hevent) heq
      rcases mem_append.mp hevent with hcreated | hstored
      · rw [map_append] at hids
        exact (nodup_append.mp hids).2.2 _ (mem_map_of_mem hcreated) _
          (mem_map_of_mem hother.1) heq.symm
      · exact hother.2 (hsame ▸ hstored)
    · exact h.apart event (hsub.subset hevent) hmem

variable {guid guildId : UInt64}

/-- Where the player owns no event of a guild, all that goes is his signups. -/
theorem left_of_signupsRemoved {s' : CalendarMgr} (hnone : OwnsNone s guid)
    (h : SignupsRemoved guid guildId s s') : Left guid guildId s s' := by
  have hkept : ∀ event ∈ s.events, event.isOwned guid = false := fun event hevent =>
    Bool.eq_false_iff.mpr fun howned => false_ne_true
      (hnone.symm.trans (any_eq_true.mpr ⟨event, hevent, howned⟩))
  refine ⟨?_, ?_⟩
  · rw [h.events, filter_eq_self.mpr fun event hevent => by rw [hkept event hevent]; rfl]
  · refine h.invites.trans (filter_congr fun invite _ => ?_)
    rw [isKept, toGuildEvent]
    cases hevent : s.getEvent invite.eventId with
    | none => rw [Bool.and_false, Bool.not_false]
    | some event =>
      simp only [hkept event (mem_of_find?_eq_some hevent), Bool.not_false, Bool.true_and]

theorem stored_run (h : Stored w) (hproper : Proper call w) :
    Ends (fun _ => False) (w.run call) fun w' => Stored w' ∧ Promised call w w' := by
  have hremoval := fun s => stored_afterRemoval (s := s) h
  cases call with
  | createEvent ownerGUID eventGuildId date flags =>
    exact ⟨stored_createEvent h hproper ownerGUID eventGuildId date flags, trivial⟩
  | addEvent event =>
    rw [World.run]
    split
    · rename_i hmem
      exact ⟨stored_addEvent h hmem, trivial⟩
    · exact ⟨h, trivial⟩
  | addInvite event invitee => exact ⟨stored_addInvite h hproper event invitee, trivial⟩
  | announce event => exact ⟨stored_announce h event, trivial⟩
  | preInvite invitee => exact ⟨stored_preInvite h hproper invitee, trivial⟩
  | removeEvent eventId => exact ⟨hremoval _ (removes_removeEventOf h.accounts), trivial⟩
  | removeInvite inviteId eventId => exact ⟨hremoval _ (removes_removeInvite h.accounts), trivial⟩
  | removeAllPlayerEventsAndInvites guid =>
    exact ((removes_removeAll h.accounts).mono fun s hs => ⟨hremoval s hs, trivial⟩).map
  | removePlayerGuildEventsAndSignups guid guildId =>
    have hloop := foldlM_removeGuildEvent guid h.accounts fun _ hevent => hevent
    rw [if_neg (Bool.eq_false_iff.mp hproper)] at hloop
    refine Ends.map (Ends.bind_ok hloop ?_)
    refine ((removes_removeInvites h.accounts _ filter_sublist).and
      (signupsRemoved h.accounts)).mono fun s hs => ?_
    exact ⟨hremoval s hs.1, left_of_signupsRemoved hproper hs.2⟩
  | deleteOldEvents now =>
    exact ((removes_removeEvents h.accounts _).mono fun s hs => ⟨hremoval s hs, trivial⟩).map

theorem stored_reachable (h : (calendar.guarded Proper).Reachable w) : Stored w := by
  refine h.invariant Stored ?_ ?_
  · rintro w ⟨guildIdByGuid, tables, hevents, hinvites, rfl⟩
    exact stored_loadFromDB hevents hinvites
  · rintro call w w' hw ⟨hproper, hstep⟩
    exact ((stored_run hw hproper).post_of_ok hstep).1

/-- A player who leaves a guild with an event of a guild of his own stops the loop. -/
theorem ownsNone_of_ends (h : Stored w)
    (hends : Ends (fun _ => False) (w.run (.removePlayerGuildEventsAndSignups guid guildId))
      (Promised (.removePlayerGuildEventsAndSignups guid guildId) w)) :
    OwnsNone w.mgr guid := by
  by_contra howned
  have hloop := foldlM_removeGuildEvent guid h.accounts fun _ hevent => hevent
  rw [if_pos (not_eq_false _ ▸ howned)] at hloop
  rw [World.run, CalendarMgr.removePlayerGuildEventsAndSignups, hloop] at hends
  exact hends

/-- In every state that proper calls lead to the stores are consistent, and a proper call comes to
its end without a read of what was erased and does what it promises; where a player leaves a guild,
only a proper call does. -/
theorem consistent_of_proper (h : (calendar.guarded Proper).Reachable w) : Consistent w ∧
    (∀ call, Proper call w → Ends (fun _ => False) (w.run call) (Promised call w)) ∧
    ∀ guid guildId, Ends (fun _ => False) (w.run (.removePlayerGuildEventsAndSignups guid guildId))
      (Promised (.removePlayerGuildEventsAndSignups guid guildId) w) ↔ OwnsNone w.mgr guid := by
  have hw := stored_reachable h
  refine ⟨hw.toConsistent, fun call hproper => (stored_run hw hproper).mono fun _ h => h.2,
    fun guid guildId => ⟨ownsNone_of_ends hw, fun hnone => ?_⟩⟩
  have hproper : Proper (.removePlayerGuildEventsAndSignups guid guildId) w := hnone
  exact (stored_run hw hproper).mono fun _ h => h.2

def twoEvents : CalendarTables where
  events := [⟨1, 1, 0, CALENDAR_FLAG_GUILD_EVENT⟩, ⟨4, 2, 0, 0⟩]
  invites := [⟨2, 4, 1⟩, ⟨3, 1, 2⟩]

def loaded : World := ⟨.loadFromDB (fun _ => 7) twoEvents, [], []⟩

theorem init_loaded : calendar.init loaded := ⟨_, twoEvents, by decide, by decide, rfl⟩

/-- The second player, who owns no guild event, leaves the guild with his signup. -/
theorem consistent_of_proper_left : ∃ w,
    loaded.run (.removePlayerGuildEventsAndSignups 2 7) = .ok w ∧ Consistent w := by
  have hproper : Proper (.removePlayerGuildEventsAndSignups 2 7) loaded := rfl
  obtain ⟨w, hrun, -⟩ := Ends.exists_ok ((consistent_of_proper (.init init_loaded)).2.1 _ hproper)
  exact ⟨w, hrun, (consistent_of_proper (.step _ (.init init_loaded) ⟨hproper, hrun⟩)).1⟩

def AlwaysConsistent : Prop := ∀ w, calendar.Reachable w → Consistent w ∧
  ∀ call, Ends (fun _ => False) (w.run call) (Promised call w)

/-- The first player leaves his guild. -/
theorem not_alwaysConsistent : ¬AlwaysConsistent := by
  intro halways
  have hleaves := (halways loaded (.init init_loaded)).2 (.removePlayerGuildEventsAndSignups 1 7)
  exact hleaves

end LegionServer.Guarantees.CalendarStores
