import LegionServer.Source.DungeonFinding.LFGMgr

/-!
# What queue operations do to an entry

An entry has its places in the two lists, its data, and its name in cached combinations.
-/
namespace LegionServer.Source.DungeonFinding
open Library Source.Objects List LFGQueue

variable {q : LFGQueue} {guid other : ObjectGuid} {data : LfgQueueData}
  {compatibles : LfgCompatibleContainer} {key : List Char} {roles : LfgRolesMap ObjectGuid}

/-- Where two data differ at most in the best combination and what it still needs. -/
structure LfgQueueData.SameEntry (data data' : LfgQueueData) : Prop where
  joinTime : data'.joinTime = data.joinTime
  dungeons : data'.dungeons = data.dungeons
  roles : data'.roles = data.roles

namespace LfgQueueData

theorem SameEntry.refl (data : LfgQueueData) : SameEntry data data := ⟨rfl, rfl, rfl⟩

theorem SameEntry.trans {a b c : LfgQueueData} (hab : SameEntry a b) (hbc : SameEntry b c) :
    SameEntry a c :=
  ⟨hbc.joinTime.trans hab.joinTime, hbc.dungeons.trans hab.dungeons, hbc.roles.trans hab.roles⟩

section
variable (data : LfgQueueData)

theorem fill_spec (player : ObjectGuid × BitVec 8) :
    SameEntry data (data.fill player) ∧
      (data.fill player).bestCompatible = data.bestCompatible := by
  rw [fill]
  split_ifs
  · exact ⟨⟨rfl, rfl, rfl⟩, rfl⟩
  · exact ⟨⟨rfl, rfl, rfl⟩, rfl⟩
  · exact ⟨⟨rfl, rfl, rfl⟩, rfl⟩

theorem foldl_fill_spec (roles : LfgRolesMap ObjectGuid) :
    SameEntry data (roles.foldl fill data) ∧
      (roles.foldl fill data).bestCompatible = data.bestCompatible := by
  induction roles generalizing data with
  | nil => exact ⟨.refl _, rfl⟩
  | cons player roles ih =>
    obtain ⟨hsame, hbest⟩ := fill_spec data player
    obtain ⟨hsame', hbest'⟩ := ih (data.fill player)
    exact ⟨hsame.trans hsame', hbest'.trans hbest⟩

theorem updateBestCompatible_spec (key : List Char) (roles : LfgRolesMap ObjectGuid) :
    SameEntry data (data.updateBestCompatible key roles) ∧
      ((data.updateBestCompatible key roles).bestCompatible = data.bestCompatible ∨
        (data.updateBestCompatible key roles).bestCompatible = key) := by
  simp only [updateBestCompatible]
  generalize (if data.bestCompatible = [] then 0 else combinationSize data.bestCompatible) = stored
  split
  · exact ⟨.refl _, Or.inl rfl⟩
  obtain ⟨hsame, hbest⟩ := foldl_fill_spec { data with
    bestCompatible := key
    tanks := .ofNat 8 LFG_TANKS_NEEDED
    healers := .ofNat 8 LFG_HEALERS_NEEDED
    dps := .ofNat 8 LFG_DPS_NEEDED } roles
  exact ⟨⟨hsame.joinTime, hsame.dungeons, hsame.roles⟩, Or.inr hbest⟩

theorem findBestCompatible_spec (guid : ObjectGuid) (compatibles : LfgCompatibleContainer) :
    SameEntry data (data.findBestCompatible guid compatibles) ∧
      ((data.findBestCompatible guid compatibles).bestCompatible = data.bestCompatible ∨
        ∃ it ∈ compatibles.items,
          (data.findBestCompatible guid compatibles).bestCompatible = it.1) := by
  rw [findBestCompatible]
  induction compatibles.items generalizing data with
  | nil => exact ⟨.refl _, Or.inl rfl⟩
  | cons itr items ih =>
    rw [foldl_cons]
    split
    · obtain ⟨hsame, hbest⟩ := updateBestCompatible_spec data itr.1 itr.2.roles
      obtain ⟨hsame', hbest'⟩ := ih (data.updateBestCompatible itr.1 itr.2.roles)
      refine ⟨hsame.trans hsame', ?_⟩
      rcases hbest' with hold | ⟨it, hmem, hit⟩
      · rw [hold]
        exact hbest.imp_right fun hkey => ⟨itr, mem_cons_self, hkey⟩
      · exact Or.inr ⟨it, mem_cons_of_mem _ hmem, hit⟩
    · obtain ⟨hsame, hbest⟩ := ih data
      refine ⟨hsame, hbest.imp_right ?_⟩
      rintro ⟨it, hmem, hit⟩
      exact ⟨it, mem_cons_of_mem _ hmem, hit⟩

end

end LfgQueueData

theorem not_names_nil : ¬Names [] guid := by
  simp [Names, ObjectGuid.toHexString]

namespace LFGQueue

structure Unnamed (q : LFGQueue) (guid : ObjectGuid) : Prop where
  compatibles : ∀ it ∈ q.compatibleMapStore.items, ¬Names it.1 guid
  best : ∀ other data, q.dataOf other = some data → ¬Names data.bestCompatible guid

structure Gone (q : LFGQueue) (guid : ObjectGuid) : Prop where
  newToQueue : guid ∉ q.newToQueueStore
  currentQueue : guid ∉ q.currentQueueStore
  data : q.dataOf guid = none
  unnamed : q.Unnamed guid

/-- An entry that is in the same places of the lists, with its data. -/
structure Stays (q q' : LFGQueue) (guid : ObjectGuid) : Prop where
  newToQueue : q'.newToQueueStore.count guid = q.newToQueueStore.count guid
  currentQueue : q'.currentQueueStore.count guid = q.currentQueueStore.count guid
  data : Option.Rel LfgQueueData.SameEntry (q.dataOf guid) (q'.dataOf guid)

theorem Stays.refl (q : LFGQueue) (guid : ObjectGuid) : Stays q q guid :=
  ⟨rfl, rfl, by cases q.dataOf guid <;> constructor; exact .refl _⟩

theorem Stays.trans {q q' q'' : LFGQueue} (h : Stays q q' guid) (h' : Stays q' q'' guid) :
    Stays q q'' guid := by
  refine ⟨h'.newToQueue.trans h.newToQueue, h'.currentQueue.trans h.currentQueue, ?_⟩
  have hdata := h.data
  have hdata' := h'.data
  revert hdata hdata'
  generalize q.dataOf guid = a, q'.dataOf guid = b, q''.dataOf guid = c
  rintro (hab | _) (hbc | _)
  · exact .some (hab.trans hbc)
  · exact .none

theorem dataOf_eq_some : q.dataOf guid = some data ↔ (guid, data) ∈ q.queueDataStore.items := by
  rw [dataOf]
  constructor
  · intro h
    obtain ⟨⟨key, value⟩, hfind, rfl⟩ := Option.map_eq_some_iff.mp h
    obtain ⟨hmem, rfl⟩ := FlatSet.find_eq_some.mp hfind
    exact hmem
  · intro hmem
    rw [FlatSet.find_eq_some.mpr ⟨hmem, rfl⟩]
    rfl

theorem dataOf_mapData (f : ObjectGuid → LfgQueueData → LfgQueueData) :
    (q.mapData f).dataOf guid = (q.dataOf guid).map (f guid) := by
  apply Option.ext
  intro data
  rw [dataOf_eq_some, Option.map_eq_some_iff]
  simp only [mapData, mem_map, Prod.mk.injEq, Prod.exists, dataOf_eq_some]
  constructor
  · rintro ⟨key, old, hmem, rfl, rfl⟩
    exact ⟨old, hmem, rfl⟩
  · rintro ⟨old, hmem, rfl⟩
    exact ⟨guid, old, hmem, rfl, rfl⟩

@[simp] theorem dataOf_removeData : (q.removeData guid).dataOf other =
    if other = guid then none else (q.dataOf other).map (q.forget guid other) := by
  simp only [removeData]
  rw [dataOf, FlatSet.find_erase]
  split
  · rfl
  · exact dataOf_mapData _

theorem forget_spec (q : LFGQueue) (guid other : ObjectGuid) (data : LfgQueueData) :
    LfgQueueData.SameEntry data (q.forget guid other data) ∧
      ((q.forget guid other data).bestCompatible = data.bestCompatible ∧
          (other ≠ guid → ¬Names data.bestCompatible guid) ∨
        (q.forget guid other data).bestCompatible = [] ∨
        ∃ it ∈ q.compatibleMapStore.items, (q.forget guid other data).bestCompatible = it.1) := by
  rw [forget]
  split
  · obtain ⟨hsame, hbest⟩ := LfgQueueData.findBestCompatible_spec
      { data with bestCompatible := [] } other q.compatibleMapStore
    exact ⟨⟨hsame.joinTime, hsame.dungeons, hsame.roles⟩, Or.inr hbest⟩
  · rename_i hnot
    exact ⟨.refl _, Or.inl ⟨rfl, fun hne hnames => hnot ⟨hne, hnames⟩⟩⟩

theorem gone_removeFromQueue (q : LFGQueue) (guid : ObjectGuid) :
    (q.removeFromQueue guid).Gone guid := by
  have hkeys : ∀ it ∈ (((q.removeFromNewQueue guid).removeFromCurrentQueue
      guid).removeFromCompatibles guid).compatibleMapStore.items, ¬Names it.1 guid :=
    fun it hit => of_decide_eq_true (mem_filter.mp hit).2
  refine ⟨?_, ?_, ?_, hkeys, fun other data hdata => ?_⟩
  · simp [removeFromQueue, removeData, mapData, removeFromCompatibles, removeFromCurrentQueue,
      removeFromNewQueue]
  · simp [removeFromQueue, removeData, mapData, removeFromCompatibles, removeFromCurrentQueue]
  · simp [removeFromQueue]
  · rw [removeFromQueue, dataOf_removeData] at hdata
    split at hdata
    · cases hdata
    rename_i hne
    obtain ⟨old, -, rfl⟩ := Option.map_eq_some_iff.mp hdata
    rcases (forget_spec _ guid other old).2 with ⟨hbest, hnot⟩ | hempty | ⟨it, hmem, hit⟩
    · rw [hbest]
      exact hnot hne
    · rw [hempty]
      exact not_names_nil
    · rw [hit]
      exact hkeys it hmem

theorem Unnamed.removeFromQueue (h : q.Unnamed other) (guid : ObjectGuid) :
    (q.removeFromQueue guid).Unnamed other := by
  have hkeys : ∀ it ∈ (((q.removeFromNewQueue guid).removeFromCurrentQueue
      guid).removeFromCompatibles guid).compatibleMapStore.items, ¬Names it.1 other :=
    fun it hit => h.compatibles it (mem_filter.mp hit).1
  refine ⟨hkeys, fun third data hdata => ?_⟩
  rw [LFGQueue.removeFromQueue, dataOf_removeData] at hdata
  split at hdata
  · cases hdata
  obtain ⟨old, hold, rfl⟩ := Option.map_eq_some_iff.mp hdata
  rcases (forget_spec _ guid third old).2 with ⟨hbest, -⟩ | hempty | ⟨it, hmem, hit⟩
  · rw [hbest]
    exact h.best third old hold
  · rw [hempty]
    exact not_names_nil
  · rw [hit]
    exact hkeys it hmem

theorem stays_removeFromQueue (hne : other ≠ guid) : Stays q (q.removeFromQueue guid) other := by
  refine ⟨?_, ?_, ?_⟩
  · exact count_filter (decide_eq_true hne)
  · exact count_filter (decide_eq_true hne)
  · rw [removeFromQueue, dataOf_removeData, if_neg hne]
    have hdata : (((q.removeFromNewQueue guid).removeFromCurrentQueue guid).removeFromCompatibles
      guid).dataOf other = q.dataOf other := rfl
    rw [hdata]
    cases q.dataOf other with
    | none => exact .none
    | some data => exact .some (forget_spec _ guid other data).1

theorem Gone.removeFromQueue (h : q.Gone other) (guid : ObjectGuid) :
    (q.removeFromQueue guid).Gone other := by
  by_cases heq : other = guid
  · rw [heq]
    exact gone_removeFromQueue q guid
  have hstays : Stays q (q.removeFromQueue guid) other := stays_removeFromQueue heq
  have hdata := hstays.data
  rw [h.data] at hdata
  refine ⟨?_, ?_, ?_, h.unnamed.removeFromQueue guid⟩
  · rw [← count_eq_zero, hstays.newToQueue, count_eq_zero]
    exact h.newToQueue
  · rw [← count_eq_zero, hstays.currentQueue, count_eq_zero]
    exact h.currentQueue
  · generalize (q.removeFromQueue guid).dataOf other = after at hdata
    cases hdata
    rfl

theorem readd_spec (q : LFGQueue) (guid : ObjectGuid) :
    (q.addToQueue guid true).queueDataStore = q.queueDataStore ∧
      (q.addToQueue guid true).compatibleMapStore = q.compatibleMapStore ∧
      (q.addToQueue guid true).newToQueueStore = q.newToQueueStore ∧
      (q.addToQueue guid true).currentQueueStore =
        if (q.dataOf guid).isSome then guid :: q.currentQueueStore else q.currentQueueStore := by
  rw [addToQueue]
  cases q.dataOf guid with
  | none => exact ⟨rfl, rfl, rfl, rfl⟩
  | some data => exact ⟨rfl, rfl, rfl, rfl⟩

end LFGQueue
/-!
# What the removal of a proposal does

The loops of `RemoveProposal`, one after the other.
-/

variable {mgr : LFGMgr} {type : LfgUpdateType} {e guid : ObjectGuid}
  {players : List (ObjectGuid × LfgProposalPlayer)} {it : ObjectGuid × LfgProposalPlayer}

/-- A player who denied, or who has not answered when the time is over. -/
def LfgProposalPlayer.Refuses (type : LfgUpdateType) (player : LfgProposalPlayer) : Prop :=
  player.accept = .deny ∨ type = .proposalFailed ∧ player.accept = .pending

def LfgProposal.Dropped (proposal : LfgProposal) (type : LfgUpdateType) (e : ObjectGuid) : Prop :=
  ∃ it ∈ proposal.players, entryOf it = e ∧ it.2.Refuses type

instance (type : LfgUpdateType) : DecidablePred (LfgProposalPlayer.Refuses type) :=
  fun _ => inferInstanceAs (Decidable (_ ∨ _))

instance (proposal : LfgProposal) (type : LfgUpdateType) : DecidablePred (proposal.Dropped type) :=
  fun _ => inferInstanceAs (Decidable (∃ it ∈ proposal.players, _))

/-- Every player stands behind one entry of the proposal, a party or the player alone. -/
structure LfgProposal.Grouped (proposal : LfgProposal) : Prop where
  queues_nodup : proposal.queues.Nodup
  players_nodup : (proposal.players.map Prod.fst).Nodup
  player : ∀ it ∈ proposal.players, it.1.isParty = false
  group : ∀ it ∈ proposal.players, it.2.group.isEmpty = false → it.2.group.isParty = true
  entry : ∀ it ∈ proposal.players, entryOf it ∈ proposal.queues

namespace LfgProposal

instance (proposal : LfgProposal) : Decidable proposal.Grouped :=
  decidable_of_iff (proposal.queues.Nodup ∧ (proposal.players.map Prod.fst).Nodup ∧
    (∀ it ∈ proposal.players, it.1.isParty = false) ∧
    (∀ it ∈ proposal.players, it.2.group.isEmpty = false → it.2.group.isParty = true) ∧
    ∀ it ∈ proposal.players, entryOf it ∈ proposal.queues)
    ⟨fun ⟨hqueues, hplayers, hplayer, hgroup, hentry⟩ =>
      ⟨hqueues, hplayers, hplayer, hgroup, hentry⟩,
    fun h => ⟨h.queues_nodup, h.players_nodup, h.player, h.group, h.entry⟩⟩

theorem mem_put_guid {s : GuidSet} : e ∈ (s.put guid).items ↔ e = guid ∨ e ∈ s.items := by
  rw [FlatSet.mem_put]
  by_cases heq : e = guid
  · simp [heq]
  · simp [heq]

theorem mem_toRemove_foldl (acc : GuidSet) : e ∈ (players.foldl (fun toRemove it =>
      if it.2.accept = .agree then toRemove
      else if it.2.accept = .deny ∨ type = .proposalFailed then toRemove.put (entryOf it)
      else toRemove) acc).items ↔
    e ∈ acc.items ∨ ∃ it ∈ players, entryOf it = e ∧ it.2.Refuses type := by
  induction players generalizing acc with
  | nil => simp
  | cons it players ih =>
    rw [foldl_cons, ih, exists_mem_cons_iff, ← or_assoc]
    apply or_congr_left
    cases haccept : it.2.accept with
    | agree => simp [haccept, LfgProposalPlayer.Refuses]
    | deny => simp [haccept, LfgProposalPlayer.Refuses, mem_put_guid, or_comm, eq_comm]
    | pending =>
      cases type with
      | proposalFailed =>
        simp [haccept, LfgProposalPlayer.Refuses, mem_put_guid, or_comm, eq_comm]
      | proposalDeclined => simp [haccept, LfgProposalPlayer.Refuses]

theorem refuses_markPending : (∃ it ∈ markPending type players, entryOf it = e ∧
      it.2.Refuses type) ↔ ∃ it ∈ players, entryOf it = e ∧ it.2.Refuses type := by
  rw [markPending]
  split
  · rename_i htype
    subst htype
    simp only [mem_map, exists_exists_and_eq_and]
    apply exists_congr
    intro it
    apply and_congr_right
    intro _
    split
    · rename_i hpending
      simp [LfgProposalPlayer.Refuses, hpending, entryOf]
    · rfl
  · rfl

theorem mem_toRemove {proposal : LfgProposal} :
    e ∈ (toRemove type (markPending type proposal.players)).items ↔ proposal.Dropped type e := by
  rw [toRemove, mem_toRemove_foldl, refuses_markPending]
  simp [Dropped, FlatSet.empty]

theorem find_isSome {s : GuidSet} : (s.find e).isSome ↔ e ∈ s.items := by
  rw [Option.isSome_iff_exists]
  constructor
  · rintro ⟨found, hfound⟩
    obtain ⟨hmem, rfl⟩ := FlatSet.find_eq_some.mp hfound
    exact hmem
  · intro hmem
    exact ⟨e, FlatSet.find_eq_some.mpr ⟨hmem, rfl⟩⟩

/-- Marking changes answers only. -/
theorem map_markPending (type : LfgUpdateType)
    (players : List (ObjectGuid × LfgProposalPlayer)) {β : Type*}
    (f : ObjectGuid × LfgProposalPlayer → β)
    (hf : ∀ it accept, f (it.1, { it.2 with accept := accept }) = f it) :
    (markPending type players).map f = players.map f := by
  rw [markPending]
  split
  · rw [map_map]
    apply map_congr_left
    intro it _
    rw [Function.comp_apply]
    split
    · exact hf it _
    · rfl
  · rfl

end LfgProposal

namespace LFGMgr

structure SameQueues (mgr mgr' : LFGMgr) : Prop where
  queues : mgr'.queuesStore = mgr.queuesStore
  proposals : mgr'.proposalsStore = mgr.proposalsStore
  team : ∀ guid, mgr'.getTeam guid = mgr.getTeam guid
  players : ∀ guid, (mgr'.groupsStore guid).players = (mgr.groupsStore guid).players

theorem SameQueues.refl (mgr : LFGMgr) : SameQueues mgr mgr :=
  ⟨rfl, rfl, fun _ => rfl, fun _ => rfl⟩

theorem SameQueues.trans {a b c : LFGMgr} (hab : SameQueues a b) (hbc : SameQueues b c) :
    SameQueues a c :=
  ⟨hbc.queues.trans hab.queues, hbc.proposals.trans hab.proposals,
    fun guid => (hbc.team guid).trans (hab.team guid),
    fun guid => (hbc.players guid).trans (hab.players guid)⟩

theorem SameQueues.queueAt {mgr' : LFGMgr} (h : SameQueues mgr mgr') (queueId : Fin 256) :
    mgr'.queueAt queueId = mgr.queueAt queueId := by
  rw [LFGMgr.queueAt, h.queues, LFGMgr.queueAt]

theorem SameQueues.getQueueId {mgr' : LFGMgr} (h : SameQueues mgr mgr') (guid : ObjectGuid) :
    mgr'.getQueueId guid = mgr.getQueueId guid := by
  rw [LFGMgr.getQueueId, LFGMgr.getQueueId, h.players, h.team]
  cases (mgr.groupsStore guid).players.items with
  | nil => rfl
  | cons pguid rest => simp only [h.team]

theorem sameQueues_modifyPlayer {f : LfgPlayerData → LfgPlayerData}
    (hf : ∀ data, (f data).team = data.team) : SameQueues mgr (mgr.modifyPlayer guid f) := by
  refine ⟨rfl, rfl, fun other => ?_, fun _ => rfl⟩
  simp only [getTeam, modifyPlayer]
  split
  · exact hf _
  · rfl

theorem sameQueues_modifyGroup {f : LfgGroupData → LfgGroupData}
    (hf : ∀ data, (f data).players = data.players) : SameQueues mgr (mgr.modifyGroup guid f) := by
  refine ⟨rfl, rfl, fun _ => rfl, fun other => ?_⟩
  simp only [modifyGroup]
  split
  · exact hf _
  · rfl

theorem sameQueues_setState (state : LfgState) : SameQueues mgr (mgr.setState guid state) := by
  rw [setState]
  split
  · exact sameQueues_modifyGroup fun data => by cases state <;> rfl
  · exact sameQueues_modifyPlayer fun data => by cases state <;> rfl

theorem sameQueues_restoreState : SameQueues mgr (mgr.restoreState guid) := by
  rw [restoreState]
  split
  · exact sameQueues_modifyGroup fun _ => rfl
  · refine sameQueues_modifyPlayer fun data => ?_
    rw [LfgPlayerData.restoreState]
    split <;> rfl

theorem sameQueues_notifyPlayer (toRemove : GuidSet) :
    SameQueues mgr (notifyPlayer toRemove mgr it) := by
  simp only [notifyPlayer]
  split_ifs
  · exact sameQueues_restoreState.trans sameQueues_restoreState
  · exact sameQueues_restoreState
  · exact (sameQueues_setState _).trans (sameQueues_setState _)
  · exact sameQueues_setState _

theorem sameQueues_notify (mgr : LFGMgr) (players : List (ObjectGuid × LfgProposalPlayer))
    (toRemove : GuidSet) :
    SameQueues mgr (players.foldl (notifyPlayer toRemove) mgr) := by
  induction players generalizing mgr with
  | nil => exact .refl _
  | cons it players ih => exact (sameQueues_notifyPlayer toRemove).trans (ih _)

theorem getState_setState (mgr : LFGMgr) (state : LfgState) :
    (mgr.setState guid state).getState guid = state := by
  rw [setState, getState]
  split
  · simp only [modifyGroup, if_true]
    cases state <;> rfl
  · simp only [modifyPlayer, if_true]
    cases state <;> rfl

theorem getState_modifyPlayer_of_ne (f : LfgPlayerData → LfgPlayerData) (hne : e ≠ guid) :
    (mgr.modifyPlayer guid f).getState e = mgr.getState e := by
  simp only [getState, modifyPlayer, if_neg hne]

theorem getState_modifyGroup_of_ne (f : LfgGroupData → LfgGroupData) (hne : e ≠ guid) :
    (mgr.modifyGroup guid f).getState e = mgr.getState e := by
  simp only [getState, modifyGroup, if_neg hne]

theorem getState_setState_of_ne (state : LfgState) (hne : e ≠ guid) :
    (mgr.setState guid state).getState e = mgr.getState e := by
  rw [setState]
  split
  · exact getState_modifyGroup_of_ne _ hne
  · exact getState_modifyPlayer_of_ne _ hne

theorem getState_restoreState_of_ne (hne : e ≠ guid) :
    (mgr.restoreState guid).getState e = mgr.getState e := by
  rw [restoreState]
  split
  · exact getState_modifyGroup_of_ne _ hne
  · exact getState_modifyPlayer_of_ne _ hne

theorem entryOf_eq_group (h : LfgProposal.entryOf it ≠ it.1) :
    LfgProposal.entryOf it = it.2.group := by
  rw [LfgProposal.entryOf] at h ⊢
  split at h
  · rename_i hgroup
    rw [if_pos hgroup]
  · exact absurd rfl h

theorem getState_notifyPlayer_of_ne (toRemove : GuidSet) (hplayer : e ≠ it.1)
    (hentry : e ≠ LfgProposal.entryOf it) :
    (notifyPlayer toRemove mgr it).getState e = mgr.getState e := by
  simp only [notifyPlayer]
  split_ifs with hremove hne hne
  · rw [getState_restoreState_of_ne (entryOf_eq_group hne ▸ hentry),
      getState_restoreState_of_ne hplayer]
  · exact getState_restoreState_of_ne hplayer
  · rw [getState_setState_of_ne _ hentry, getState_setState_of_ne _ hplayer]
  · exact getState_setState_of_ne _ hplayer

theorem getState_notifyPlayer (toRemove : GuidSet)
    (hkept : LfgProposal.entryOf it ∉ toRemove.items) :
    (notifyPlayer toRemove mgr it).getState it.1 = .queued := by
  have hfind : ¬(toRemove.find (LfgProposal.entryOf it)).isSome := fun h =>
    hkept (LfgProposal.find_isSome.mp h)
  simp only [notifyPlayer, if_neg hfind]
  split
  · rename_i hne
    rw [getState_setState_of_ne _ hne.symm, getState_setState]
  · exact getState_setState mgr _

/-- A player is not the entry of another one. -/
theorem ne_entryOf {other : ObjectGuid × LfgProposalPlayer} (hplayer : e.isParty = false)
    (hgroup : other.2.group.isEmpty = false → other.2.group.isParty = true) (hne : e ≠ other.1) :
    e ≠ LfgProposal.entryOf other := by
  rw [LfgProposal.entryOf]
  split
  · rename_i hnonempty
    rintro rfl
    rw [hgroup (by simpa using hnonempty)] at hplayer
    cases hplayer
  · exact hne

/-- Every player whose entry is not removed is queued at the end. -/
theorem getState_notify (mgr : LFGMgr) {it : ObjectGuid × LfgProposalPlayer} (toRemove : GuidSet)
    (hnodup : (players.map Prod.fst).Nodup)
    (hplayer : ∀ it ∈ players, it.1.isParty = false)
    (hgroup : ∀ it ∈ players, it.2.group.isEmpty = false → it.2.group.isParty = true)
    (hit : it ∈ players) (hkept : LfgProposal.entryOf it ∉ toRemove.items) :
    (players.foldl (notifyPlayer toRemove) mgr).getState it.1 = .queued := by
  have hlater : ∀ l : List (ObjectGuid × LfgProposalPlayer),
      (∀ other ∈ l, other.2.group.isEmpty = false → other.2.group.isParty = true) →
      it.1 ∉ l.map Prod.fst → ∀ mgr : LFGMgr,
      (l.foldl (notifyPlayer toRemove) mgr).getState it.1 = mgr.getState it.1 := by
    intro l hl hnot mgr
    induction l generalizing mgr with
    | nil => rfl
    | cons other l ih =>
      rw [map_cons, mem_cons, not_or] at hnot
      rw [foldl_cons, ih (fun x hx => hl x (mem_cons_of_mem _ hx)) hnot.2]
      exact getState_notifyPlayer_of_ne toRemove hnot.1
        (ne_entryOf (hplayer it hit) (hl other mem_cons_self) hnot.1)
  obtain ⟨before, after, rfl⟩ := append_of_mem hit
  rw [map_append, map_cons] at hnodup
  have hnot := (nodup_cons.mp (nodup_append.mp hnodup).2.1).1
  rw [foldl_append, foldl_cons, hlater after (fun x hx => hgroup x (by simp [hx])) hnot]
  exact getState_notifyPlayer toRemove hkept

theorem removeEntries_spec (toRemove : GuidList) (q : LFGQueue) (queues : GuidList) :
    (removeEntries toRemove q queues).2 = queues.filter (· ∉ toRemove) ∧
      (∀ e ∈ toRemove, (removeEntries toRemove q queues).1.Gone e) ∧
      ∀ e ∉ toRemove, LFGQueue.Stays q (removeEntries toRemove q queues).1 e := by
  have hgone : ∀ (toRemove : GuidList) (q : LFGQueue) (queues : GuidList) (e : ObjectGuid),
      q.Gone e → (removeEntries toRemove q queues).1.Gone e := by
    intro toRemove q queues e h
    induction toRemove generalizing q queues with
    | nil => exact h
    | cons guid toRemove ih => exact ih _ _ (h.removeFromQueue guid)
  induction toRemove generalizing q queues with
  | nil => exact ⟨by simp [removeEntries], by simp, fun e _ => .refl q e⟩
  | cons guid toRemove ih =>
    obtain ⟨hleft, hremoved, hstays⟩ := ih (q.removeFromQueue guid) (queues.filter (· ≠ guid))
    refine ⟨?_, ?_, ?_⟩
    · refine hleft.trans ?_
      rw [filter_filter]
      apply filter_congr
      intro e _
      simp [Bool.and_comm]
    · intro e he
      rcases mem_cons.mp he with rfl | hmem
      · exact hgone toRemove _ _ e (gone_removeFromQueue q e)
      · exact hremoved e hmem
    · intro e he
      rw [mem_cons, not_or] at he
      exact (stays_removeFromQueue he.1).trans (hstays e he.2)

theorem readdEntries_spec (queues : GuidList) (q : LFGQueue) :
    (readdEntries queues q).queueDataStore = q.queueDataStore ∧
      (readdEntries queues q).compatibleMapStore = q.compatibleMapStore ∧
      (readdEntries queues q).newToQueueStore = q.newToQueueStore ∧
      ∀ e, (readdEntries queues q).currentQueueStore.count e =
        q.currentQueueStore.count e + if (q.dataOf e).isSome then queues.count e else 0 := by
  induction queues generalizing q with
  | nil => exact ⟨rfl, rfl, rfl, fun e => by simp [readdEntries]⟩
  | cons guid queues ih =>
    obtain ⟨hdata, hkeys, hnew, hcurrent⟩ := readd_spec q guid
    obtain ⟨hdata', hkeys', hnew', hcurrent'⟩ := ih (q.addToQueue guid true)
    refine ⟨hdata'.trans hdata, hkeys'.trans hkeys, hnew'.trans hnew, fun e => ?_⟩
    have hsame : (q.addToQueue guid true).dataOf e = q.dataOf e := by
      rw [dataOf, hdata, dataOf]
    refine (hcurrent' e).trans ?_
    rw [hsame, hcurrent, count_cons]
    by_cases heq : guid = e
    · subst heq
      cases q.dataOf guid with
      | none => simp
      | some data =>
        simp only [Option.isSome_some, if_true, beq_self_eq_true, count_cons_self]
        omega
    · cases q.dataOf guid <;> simp [heq]

theorem dataOf_readdEntries (queues : GuidList) (q : LFGQueue) :
    (readdEntries queues q).dataOf e = q.dataOf e := by
  rw [dataOf, (readdEntries_spec queues q).1, dataOf]

theorem gone_readdEntries {q : LFGQueue} (queues : GuidList) (h : q.Gone e) :
    (readdEntries queues q).Gone e := by
  obtain ⟨-, hkeys, hnew, hcurrent⟩ := readdEntries_spec queues q
  have hcount := hcurrent e
  rw [h.data, count_eq_zero.mpr h.currentQueue] at hcount
  refine ⟨hnew ▸ h.newToQueue, count_eq_zero.mp hcount, ?_, ?_, ?_⟩
  · rw [dataOf_readdEntries, h.data]
  · rw [hkeys]
    exact h.unnamed.compatibles
  · intro other data hdata
    rw [dataOf_readdEntries] at hdata
    exact h.unnamed.best other data hdata

theorem stays_readdEntries {q : LFGQueue} {queues : GuidList} (hnot : e ∉ queues) :
    LFGQueue.Stays q (readdEntries queues q) e := by
  obtain ⟨-, -, hnew, hcurrent⟩ := readdEntries_spec queues q
  refine ⟨congrArg _ hnew, ?_, ?_⟩
  · rw [hcurrent, count_eq_zero.mpr hnot]
    simp
  · rw [dataOf_readdEntries]
    exact (LFGQueue.Stays.refl q e).data

end LFGMgr
end LegionServer.Source.DungeonFinding
