import LegionServer.Library.Count
import LegionServer.Source.Reputation.ReputationMgr

/-!
# The states of the factions of a character

Every state is kept under the reputation index of its faction, and no other call than
`Initialize` and `LoadFromDB` changes which states there are.
-/
namespace LegionServer.Source.Reputation
open Library List FactionStore FactionState

section Store

variable {store : FactionStore} {entry other : FactionEntry} {id : UInt32}

theorem FactionStore.lookupEntry_some (h : store.lookupEntry id = some entry) :
    entry ∈ store.entries ∧ entry.id = id := by
  have hid : decide (entry.id = id) = true :=
    find?_some (p := fun entry : FactionEntry => decide (entry.id = id)) h
  exact ⟨mem_of_find?_eq_some h, of_decide_eq_true hid⟩

theorem FactionStore.lookupEntry_mem (h : entry ∈ store.entries) :
    store.lookupEntry entry.id = some entry := by
  cases hfind : store.lookupEntry entry.id with
  | none =>
    have hnone := find?_eq_none.mp hfind entry h
    simp at hnone
  | some found =>
    obtain ⟨hmem, hid⟩ := lookupEntry_some hfind
    rw [inj_on_of_nodup_map store.ids_nodup hmem h hid]

theorem FactionStore.eq_of_repListId (h : entry ∈ store.entries) (hother : other ∈ store.entries)
    (hrep : entry.canHaveReputation = true) (hsame : other.repListId = entry.repListId) :
    other = entry := by
  have hindex : other.reputationIndex = entry.reputationIndex := by
    have hwide := congrArg (fun index : UInt32 => index.toInt32.toInt) hsame
    simp only [FactionEntry.repListId, Int32.toInt32_toUInt32] at hwide
    rw [Int16.toInt_toInt32, Int16.toInt_toInt32] at hwide
    exact Int16.toInt_inj.mp hwide
  have hother' : other.canHaveReputation = true := by
    rw [FactionEntry.canHaveReputation, hindex]
    exact hrep
  exact inj_on_of_nodup_map store.indexes_nodup (mem_filter.mpr ⟨hother, hother'⟩)
    (mem_filter.mpr ⟨h, hrep⟩) hsame

end Store

namespace ReputationMgr

variable {F : Type*} {data : ReputationData F} {mgr : ReputationMgr} {listId : UInt32}
  {state : FactionState} {entry : FactionEntry} {f : FactionState → FactionState}

structure Matched (data : ReputationData F) (mgr : ReputationMgr) : Prop where
  keys : (mgr.factions.map FactionState.reputationListId).Nodup
  entry : ∀ state ∈ mgr.factions, ∃ entry ∈ data.store.entries,
    entry.canHaveReputation = true ∧ state.id = entry.id ∧ state.reputationListId = entry.repListId

theorem find_some (h : mgr.find listId = some state) :
    state ∈ mgr.factions ∧ state.reputationListId = listId := by
  have hid : decide (state.reputationListId = listId) = true :=
    find?_some (p := fun state : FactionState => decide (state.reputationListId = listId)) h
  exact ⟨mem_of_find?_eq_some h, of_decide_eq_true hid⟩

theorem Matched.find_mem (h : Matched data mgr) (hmem : state ∈ mgr.factions) :
    mgr.find state.reputationListId = some state := by
  cases hfind : mgr.find state.reputationListId with
  | none =>
    have hnone := find?_eq_none.mp hfind state hmem
    simp at hnone
  | some found =>
    obtain ⟨hfound, hid⟩ := find_some hfind
    rw [inj_on_of_nodup_map h.keys hfound hmem hid]

theorem Matched.find_entry (h : Matched data mgr) (hentry : entry ∈ data.store.entries)
    (hfind : mgr.find entry.repListId = some state) :
    entry.canHaveReputation = true ∧ state.id = entry.id := by
  obtain ⟨hmem, hid⟩ := find_some hfind
  obtain ⟨found, hfound, hrep, hsame, hindex⟩ := h.entry state hmem
  obtain rfl := data.store.eq_of_repListId hfound hentry hrep (hid.symm.trans hindex)
  exact ⟨hrep, hsame⟩

theorem mem_change : state ∈ (mgr.change listId f).factions ↔ ∃ old ∈ mgr.factions,
    (if old.reputationListId = listId then f old else old) = state := mem_map

theorem Matched.map (h : Matched data mgr) (hid : ∀ state, (f state).id = state.id)
    (hlist : ∀ state, (f state).reputationListId = state.reputationListId) :
    Matched data { mgr with factions := mgr.factions.map f } where
  keys := by
    have hsame : reputationListId ∘ f = reputationListId := funext hlist
    rw [map_map, hsame]
    exact h.keys
  entry state hmem := by
    obtain ⟨old, hold, rfl⟩ := mem_map.mp hmem
    rw [hid, hlist]
    exact h.entry old hold

theorem Matched.change (h : Matched data mgr) (listId : UInt32)
    (hid : ∀ state, (f state).id = state.id) (hlist : ∀ state, (f state).reputationListId = state.reputationListId) :
    Matched data (mgr.change listId f) := by
  apply h.map <;> intro state <;> split
  · exact hid state
  · rfl
  · exact hlist state
  · rfl

theorem find_change (hlist : ∀ state, (f state).reputationListId = state.reputationListId)
    (other : UInt32) : (mgr.change listId f).find other =
      (mgr.find other).map fun state => if other = listId then f state else state := by
  simp only [ReputationMgr.change, find]
  induction mgr.factions with
  | nil => rfl
  | cons state factions ih =>
    rw [map_cons]
    by_cases hother : state.reputationListId = other
    · have hkept : (if state.reputationListId = listId then f state else state).reputationListId =
          other := by
        split
        · exact (hlist state).trans hother
        · exact hother
      rw [find?_cons_of_pos (by simpa using hkept), find?_cons_of_pos (by simpa using hother),
        Option.map_some, hother]
    · have hkept : (if state.reputationListId = listId then f state else state).reputationListId ≠
          other := by
        split
        · rw [hlist]
          exact hother
        · exact hother
      rw [find?_cons_of_neg (by simpa using hkept), find?_cons_of_neg (by simpa using hother)]
      exact ih

theorem find_change_self (hlist : ∀ state, (f state).reputationListId = state.reputationListId)
    (hfind : mgr.find listId = some state) : (mgr.change listId f).find listId = some (f state) := by
  rw [find_change hlist, hfind, Option.map_some, if_pos rfl]

theorem Matched.countP_change (h : Matched data mgr) (hfind : mgr.find listId = some state)
    (p : FactionState → Bool) :
    (mgr.change listId f).factions.countP p + (p state).toNat =
      mgr.factions.countP p + (p (f state)).toNat := by
  obtain ⟨hmem, rfl⟩ := find_some hfind
  exact countP_map_key_add h.keys hmem

theorem Matched.getReputation_eq (h : Matched data mgr) (hmem : state ∈ mgr.factions)
    (hentry : data.store.lookupEntry state.id = some entry) :
    mgr.getReputation data entry = data.getBaseReputation entry + state.standing := by
  obtain ⟨found, hfound, hrep, hsame, hindex⟩ := h.entry state hmem
  rw [hsame, data.store.lookupEntry_mem hfound] at hentry
  obtain rfl := Option.some.inj hentry
  rw [getReputation, getState, if_pos hrep, ← hindex, h.find_mem hmem]

theorem find_change_ne (hlist : ∀ state, (f state).reputationListId = state.reputationListId)
    {other : UInt32} (h : other ≠ listId) : (mgr.change listId f).find other = mgr.find other := by
  rw [find_change hlist]
  cases mgr.find other with
  | none => rfl
  | some state => rw [Option.map_some, if_neg h]

section Setters

variable {other : UInt32}

theorem change_hasFlag (flags : ReputationFlags) {flag : Nat} (hflag : flag < 16) :
    flags.change flag (flags.hasFlag flag) = flags := by
  apply ReputationFlags.ext
  intro other
  rw [ReputationFlags.hasFlag_change _ hflag]
  split
  · rename_i hother
    rw [hother]
  · rfl

/-- The state under an index, except for whether it is to be saved. -/
def Keeps (mgr : ReputationMgr) (listId id : UInt32) (standing : Int32) (flags : ReputationFlags) :
    Prop :=
  ∃ needSave, mgr.find listId = some ⟨id, listId, standing, flags, needSave⟩

variable {id : UInt32} {standing : Int32} {flags : ReputationFlags}

theorem keeps_of_find (h : mgr.find listId = some state) :
    mgr.Keeps listId state.id state.standing state.flags := by
  obtain rfl := (find_some h).2
  exact ⟨state.needSave, h⟩

theorem Keeps.setFlag (h : mgr.Keeps listId id standing flags) (flag : Nat) (on : Bool) :
    (mgr.change listId (FactionState.setFlag flag on)).Keeps listId id standing
      (flags.change flag on) := by
  obtain ⟨needSave, hfind⟩ := h
  exact ⟨true, find_change_self (reputationListId_setFlag _ _) hfind⟩

/-- A flag that has its value need not be set. -/
theorem Keeps.flag_set (h : mgr.Keeps listId id standing flags) {flag : Nat} (hflag : flag < 16)
    {on : Bool} (hon : flags.hasFlag flag = on) :
    mgr.Keeps listId id standing (flags.change flag on) := by
  rw [← hon, change_hasFlag flags hflag]
  exact h

theorem onState_some (hfind : mgr.find listId = some state)
    (g : ReputationMgr → FactionState → ReputationMgr) : mgr.onState listId g = g mgr state := by
  rw [onState, hfind]

/-- `SetVisible` shows the state, unless it cannot be shown. -/
theorem Keeps.setVisibleState (data : ReputationData F) (h : mgr.Keeps listId id standing flags) :
    (mgr.onState listId fun mgr state => mgr.setVisibleState data state).Keeps listId id standing
      (if cannotShow data id flags then flags
        else flags.change ReputationFlags.visible true) := by
  have hkeeps := h
  obtain ⟨needSave, hfind⟩ := h
  rw [onState_some hfind, ReputationMgr.setVisibleState]
  cases hshow : cannotShow data id flags with
  | true => exact hkeeps
  | false =>
    split
    · rename_i hon
      exact hkeeps.flag_set (by decide) hon
    · exact hkeeps.setFlag ReputationFlags.visible true

theorem find_setVisibleState_ne (h : other ≠ state.reputationListId) :
    (mgr.setVisibleState data state).find other = mgr.find other := by
  rw [setVisibleState]
  split
  · rfl
  · exact find_change_ne (reputationListId_setFlag _ _) h

/-- `SetAtWar` sets the flag, unless that declares war where none can be. -/
theorem Keeps.setAtWarState (data : ReputationData F) (h : mgr.find listId = some state) (atWar : Bool) :
    (mgr.setAtWarState data state atWar).Keeps listId state.id state.standing
      (if atWar && mgr.refusesWar data state then state.flags
        else state.flags.change ReputationFlags.atWar atWar) := by
  have hkeeps := keeps_of_find h
  obtain rfl := (find_some h).2
  rw [ReputationMgr.setAtWarState]
  split
  · exact hkeeps
  · split
    · rename_i hsame
      exact hkeeps.flag_set (by decide) hsame
    · exact hkeeps.setFlag ReputationFlags.atWar atWar

theorem find_setAtWarState_ne (h : other ≠ state.reputationListId) (atWar : Bool) :
    (mgr.setAtWarState data state atWar).find other = mgr.find other := by
  rw [setAtWarState]
  split
  · rfl
  · split
    · rfl
    · exact find_change_ne (reputationListId_setFlag _ _) h

theorem Keeps.setInactiveState (h : mgr.Keeps listId id standing flags) (inactive : Bool) :
    (mgr.onState listId fun mgr state => mgr.setInactiveState state inactive).Keeps listId id
      standing (if cannotRest flags then flags
        else flags.change ReputationFlags.inactive inactive) := by
  have hkeeps := h
  obtain ⟨needSave, hfind⟩ := h
  rw [onState_some hfind, ReputationMgr.setInactiveState]
  split
  · exact hkeeps
  · split
    · rename_i hsame
      exact hkeeps.flag_set (by decide) hsame
    · exact hkeeps.setFlag ReputationFlags.inactive inactive

theorem find_setInactiveState_ne (h : other ≠ state.reputationListId) (inactive : Bool) :
    (mgr.setInactiveState state inactive).find other = mgr.find other := by
  rw [setInactiveState]
  split
  · rfl
  · split
    · rfl
    · exact find_change_ne (reputationListId_setFlag _ _) h

theorem find_onState_ne {g : ReputationMgr → FactionState → ReputationMgr}
    (h : ∀ state, state.reputationListId = listId → (g mgr state).find other = mgr.find other) :
    (mgr.onState listId g).find other = mgr.find other := by
  rw [onState]
  cases hfind : mgr.find listId with
  | none => rfl
  | some state => exact h state (find_some hfind).2

end Setters

section Attempts

variable {quests : QuestView} {incremental : Bool} {call : Attempt}

theorem templateAttempts_mem {standing : Int32} {factions : List (SpilloverFaction F)}
    (h : call ∈ templateAttempts data standing factions) : call.entry ∈ data.store.entries := by
  obtain ⟨spillover, _, hcall⟩ := mem_filterMap.mp h
  split at hcall
  · cases hcall
  · obtain ⟨entry, hentry, rfl⟩ := Option.map_eq_some_iff.mp hcall
    exact (lookupEntry_some hentry).1

theorem teamAttempts_mem {spillOverRepOut : F} {team : List UInt32}
    (h : call ∈ teamAttempts data entry spillOverRepOut incremental team) :
    call.entry ∈ data.store.entries := by
  obtain ⟨id, _, hcall⟩ := mem_filterMap.mp h
  obtain ⟨other, hother, rfl⟩ := Option.map_eq_some_iff.mp hcall
  exact (lookupEntry_some hother).1

theorem spilloverAttempts_mem {standing : Int32} {noSpillover : Bool}
    (h : call ∈ mgr.spilloverAttempts data entry standing incremental noSpillover) :
    call.entry ∈ data.store.entries := by
  rw [spilloverAttempts] at h
  split at h
  · cases h
  split at h
  · exact templateAttempts_mem h
  rw [affiliatedAttempts] at h
  dsimp only at h
  split at h
  · exact teamAttempts_mem h
  split at h
  · split at h
    · cases h
    · rename_i parent hparent
      split at h
      · rw [mem_singleton.mp h]
        exact (lookupEntry_some hparent).1
      · split at h
        · exact teamAttempts_mem h
        · cases h
  · cases h

theorem primaryAttempts_mem (hentry : entry ∈ data.store.entries) {standing : Int32}
    {spillOverOnly : Bool}
    (h : call ∈ mgr.primaryAttempts data quests entry standing incremental spillOverOnly) :
    call.entry ∈ data.store.entries := by
  rw [primaryAttempts] at h
  split at h
  · cases h
  rw [mem_singleton.mp h]
  split
  · cases hparagon : data.store.lookupEntry entry.paragonFactionId.toUInt32 with
    | none => exact hentry
    | some paragon => exact (lookupEntry_some hparagon).1
  · exact hentry

end Attempts

end ReputationMgr

end LegionServer.Source.Reputation
