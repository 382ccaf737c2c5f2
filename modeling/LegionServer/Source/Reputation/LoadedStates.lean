import LegionServer.Source.Reputation.FactionStates

/-!
# The states after `Initialize` and `LoadFromDB`
-/
namespace LegionServer.Source.Reputation.ReputationMgr
open Library List

variable {F : Type*} {data : ReputationData F} {mgr : ReputationMgr} {state : FactionState}
  {entry : FactionEntry}

/-- No state is kept under the index of the faction yet. -/
def Fresh (mgr : ReputationMgr) (entry : FactionEntry) : Prop :=
  entry.canHaveReputation = true → ∀ old ∈ mgr.factions, old.reputationListId ≠ entry.repListId

theorem put_factions (h : ∀ old ∈ mgr.factions, old.reputationListId ≠ state.reputationListId) :
    (mgr.put state).factions = mgr.factions ++ [state] := by
  change mgr.factions.filter _ ++ _ = _
  rw [filter_eq_self.mpr fun old hmem => decide_eq_true (h old hmem)]

theorem initializeFaction_factions (data : ReputationData F) (h : mgr.Fresh entry) :
    (initializeFaction data mgr entry).factions = mgr.factions ++
      ([entry].filter FactionEntry.canHaveReputation).map (initialState data) := by
  rw [initializeFaction, filter_singleton]
  split
  · rename_i hrep
    have hput : ∀ between : ReputationMgr, between.factions = mgr.factions →
        (between.put (initialState data entry)).factions =
          mgr.factions ++ [initialState data entry] := by
      intro between hbetween
      rw [put_factions (by rw [hbetween]; exact h hrep), hbetween]
    rw [hrep, cond_true]
    apply hput
    split <;> split <;> rfl
  · rename_i hrep
    rw [Bool.not_eq_true] at hrep
    rw [hrep, cond_false, map_nil, append_nil]

/-- Induction over the loop of `Initialize`. -/
theorem initialize_induction {P : ReputationMgr → Prop}
    (hstep : ∀ mgr entry, P mgr → entry ∈ data.store.entries → mgr.Fresh entry →
      P (initializeFaction data mgr entry)) (hinit : P {}) :
    P (initializeFactions data) ∧ (initializeFactions data).factions =
      (data.store.entries.filter FactionEntry.canHaveReputation).map (initialState data) := by
  suffices hloop : ∀ (entries : List FactionEntry) (mgr : ReputationMgr),
      entries ⊆ data.store.entries →
      ((entries.filter FactionEntry.canHaveReputation).map FactionEntry.repListId).Nodup →
      (∀ entry ∈ entries, mgr.Fresh entry) → P mgr →
      P (entries.foldl (initializeFaction data) mgr) ∧
        (entries.foldl (initializeFaction data) mgr).factions = mgr.factions ++
          (entries.filter FactionEntry.canHaveReputation).map (initialState data) from
    hloop data.store.entries {} (List.Subset.refl _) data.store.indexes_nodup
      (fun entry _ _ old hold => (not_mem_nil hold).elim) hinit
  intro entries
  induction entries with
  | nil => exact fun mgr _ _ _ hmgr => ⟨hmgr, by simp⟩
  | cons entry entries ih =>
    intro mgr hsub hnodup hfresh hmgr
    have hfactions := initializeFaction_factions data (hfresh entry mem_cons_self)
    rw [← singleton_append, filter_append, map_append, nodup_append] at hnodup
    obtain ⟨-, hrest, hapart⟩ := hnodup
    have hfresh' : ∀ other ∈ entries, (initializeFaction data mgr entry).Fresh other := by
      intro other hother hrep old hold
      rw [hfactions, mem_append] at hold
      rcases hold with hold | hold
      · exact hfresh other (mem_cons_of_mem _ hother) hrep old hold
      · obtain ⟨new, hnew, rfl⟩ := mem_map.mp hold
        exact hapart _ (mem_map_of_mem hnew) _ (mem_map_of_mem (mem_filter.mpr ⟨hother, hrep⟩))
    obtain ⟨hkept, hlist⟩ := ih (initializeFaction data mgr entry)
      (fun other hother => hsub (mem_cons_of_mem _ hother)) hrest hfresh'
      (hstep mgr entry hmgr (hsub mem_cons_self) (hfresh entry mem_cons_self))
    refine ⟨hkept, hlist.trans ?_⟩
    rw [hfactions, append_assoc, ← map_append, ← filter_append, singleton_append]

theorem initializeFactions_factions : (initializeFactions data).factions =
    (data.store.entries.filter FactionEntry.canHaveReputation).map (initialState data) :=
  (initialize_induction (P := fun _ => True) (fun _ _ _ _ _ => trivial) trivial).2

theorem mem_initializeFactions : state ∈ (initializeFactions data).factions ↔
    ∃ entry ∈ data.store.entries, entry.canHaveReputation = true ∧
      initialState data entry = state := by
  rw [initializeFactions_factions, mem_map]
  simp only [mem_filter, and_assoc]

theorem matched_initializeFactions (data : ReputationData F) :
    (initializeFactions data).Matched data where
  keys := by
    rw [initializeFactions_factions, map_map]
    exact data.store.indexes_nodup
  entry state hmem := by
    obtain ⟨entry, hentry, hrep, rfl⟩ := mem_initializeFactions.mp hmem
    exact ⟨entry, hentry, hrep, rfl, rfl⟩

theorem find_initializeFactions (hentry : entry ∈ data.store.entries)
    (hrep : entry.canHaveReputation = true) :
    (initializeFactions data).find entry.repListId = some (initialState data entry) :=
  (matched_initializeFactions data).find_mem (mem_initializeFactions.mpr ⟨entry, hentry, hrep, rfl⟩)

section LoadFromDB

variable {row : Row} {listId other : UInt32} {dbFactionFlags : ReputationFlags} {standing : Int32}

theorem find_loadStanding_ne (h : other ≠ entry.repListId) :
    (mgr.loadStanding data entry standing).find other = mgr.find other := by
  rw [loadStanding]
  split <;> exact find_change_ne (f := fun s => { s with standing }) (fun _ => rfl) h

theorem find_loadVisible_ne (h : other ≠ listId) :
    (mgr.loadVisible data listId dbFactionFlags).find other = mgr.find other := by
  rw [loadVisible]
  split
  · exact find_onState_ne fun state hstate => find_setVisibleState_ne (hstate ▸ h)
  · rfl

theorem find_loadInactive_ne (h : other ≠ listId) :
    (mgr.loadInactive listId dbFactionFlags).find other = mgr.find other := by
  rw [loadInactive]
  split
  · exact find_onState_ne fun state hstate => find_setInactiveState_ne (hstate ▸ h) true
  · rfl

theorem find_loadAtWar_ne (h : other ≠ listId) :
    (mgr.loadAtWar data listId dbFactionFlags).find other = mgr.find other := by
  refine find_onState_ne fun state hstate => ?_
  split
  · exact find_setAtWarState_ne (hstate ▸ h) true
  · split
    · exact find_setAtWarState_ne (hstate ▸ h) false
    · rfl

theorem find_loadHostile_ne (h : other ≠ entry.repListId) :
    (mgr.loadHostile data entry).find other = mgr.find other := by
  rw [loadHostile]
  split
  · exact find_onState_ne fun state hstate => find_setAtWarState_ne (hstate ▸ h) true
  · rfl

theorem find_loadSaved_ne (h : other ≠ listId) :
    (mgr.loadSaved listId dbFactionFlags).find other = mgr.find other :=
  find_change_ne (fun state => by split <;> rfl) h

variable {id : UInt32} {flags : ReputationFlags}

theorem Keeps.loadStanding {old : Int32} (h : mgr.Keeps entry.repListId id old flags) :
    (mgr.loadStanding data entry standing).Keeps entry.repListId id standing flags := by
  obtain ⟨needSave, hfind⟩ := h
  have hchanged := find_change_self (f := fun s => { s with standing }) (fun _ => rfl) hfind
  rw [ReputationMgr.loadStanding]
  split <;> exact ⟨needSave, hchanged⟩

/-- The flags that `LoadFromDB` leaves to a state: those of the row are set one by one, over the
flags of the start. -/
def shownFlags (data : ReputationData F) (id : UInt32) (dbFactionFlags flags : ReputationFlags) :
    ReputationFlags :=
  if dbFactionFlags.hasFlag ReputationFlags.visible && !cannotShow data id flags then
    flags.change ReputationFlags.visible true
  else flags

def restedFlags (dbFactionFlags flags : ReputationFlags) : ReputationFlags :=
  if dbFactionFlags.hasFlag ReputationFlags.inactive && !cannotRest flags then
    flags.change ReputationFlags.inactive true
  else flags

/-- War cannot be declared on a faction of this rank. -/
def isOwn (rank : ReputationRank) (flags : ReputationFlags) : Bool :=
  flags.hasFlag ReputationFlags.peaceful && rank > REP_HATED

def warFlags (rank : ReputationRank) (dbFactionFlags flags : ReputationFlags) : ReputationFlags :=
  if dbFactionFlags.hasFlag ReputationFlags.atWar then
    if isOwn rank flags then flags else flags.change ReputationFlags.atWar true
  else if flags.hasFlag ReputationFlags.visible then flags.change ReputationFlags.atWar false
  else flags

def hostileFlags (rank : ReputationRank) (flags : ReputationFlags) : ReputationFlags :=
  if rank ≤ REP_HOSTILE && !isOwn rank flags then flags.change ReputationFlags.atWar true
  else flags

def loadedFlags (data : ReputationData F) (entry : FactionEntry) (row : Row)
    (flags : ReputationFlags) : ReputationFlags :=
  let rank := data.reputationToRank entry (data.getBaseReputation entry + row.standing)
  hostileFlags rank (warFlags rank row.flags
    (restedFlags row.flags (shownFlags data entry.id row.flags flags)))

theorem Keeps.loadVisible (h : mgr.Keeps listId id standing flags) :
    (mgr.loadVisible data listId dbFactionFlags).Keeps listId id standing
      (shownFlags data id dbFactionFlags flags) := by
  rw [ReputationMgr.loadVisible, shownFlags]
  split
  · rename_i hsaved
    have hset := h.setVisibleState data
    rw [hsaved]
    cases hshow : cannotShow data id flags with
    | true =>
      rw [hshow] at hset
      exact hset
    | false =>
      rw [hshow] at hset
      exact hset
  · rename_i hsaved
    rw [Bool.not_eq_true] at hsaved
    rw [hsaved]
    exact h

theorem Keeps.loadInactive (h : mgr.Keeps listId id standing flags) :
    (mgr.loadInactive listId dbFactionFlags).Keeps listId id standing
      (restedFlags dbFactionFlags flags) := by
  rw [ReputationMgr.loadInactive, restedFlags]
  split
  · rename_i hsaved
    have hset := h.setInactiveState true
    rw [hsaved]
    cases hrest : cannotRest flags with
    | true =>
      rw [hrest] at hset
      exact hset
    | false =>
      rw [hrest] at hset
      exact hset
  · rename_i hsaved
    rw [Bool.not_eq_true] at hsaved
    rw [hsaved]
    exact h

variable (hentry : entry ∈ data.store.entries) (hrep : entry.canHaveReputation = true)
include hrep

theorem Keeps.getRank_eq (h : mgr.Keeps entry.repListId id standing flags) :
    mgr.getRank data entry =
      data.reputationToRank entry (data.getBaseReputation entry + standing) := by
  obtain ⟨needSave, hfind⟩ := h
  rw [getRank, getReputation, getState, if_pos hrep, hfind]

include hentry

theorem Keeps.refusesWar_eq (h : mgr.Keeps entry.repListId entry.id standing flags)
    (needSave : Bool) :
    mgr.refusesWar data ⟨entry.id, entry.repListId, standing, flags, needSave⟩ =
      isOwn (data.reputationToRank entry (data.getBaseReputation entry + standing)) flags := by
  rw [refusesWar, isOwn]
  rw [data.store.lookupEntry_mem hentry]
  dsimp only
  rw [h.getRank_eq hrep]

theorem Keeps.loadAtWar (h : mgr.Keeps entry.repListId entry.id standing flags) :
    (mgr.loadAtWar data entry.repListId dbFactionFlags).Keeps entry.repListId entry.id standing
      (warFlags (data.reputationToRank entry (data.getBaseReputation entry + standing))
        dbFactionFlags flags) := by
  have hkeeps := h
  obtain ⟨needSave, hfind⟩ := h
  rw [ReputationMgr.loadAtWar, onState_some hfind, warFlags]
  split
  · have hset := Keeps.setAtWarState data hfind true
    rw [hkeeps.refusesWar_eq hentry hrep, Bool.true_and] at hset
    exact hset
  · split
    · exact Keeps.setAtWarState data hfind false
    · exact hkeeps

theorem Keeps.loadHostile (h : mgr.Keeps entry.repListId entry.id standing flags) :
    (mgr.loadHostile data entry).Keeps entry.repListId entry.id standing
      (hostileFlags (data.reputationToRank entry (data.getBaseReputation entry + standing))
        flags) := by
  have hkeeps := h
  obtain ⟨needSave, hfind⟩ := h
  rw [ReputationMgr.loadHostile, hkeeps.getRank_eq hrep, hostileFlags]
  split
  · rename_i hrank
    have hset := Keeps.setAtWarState data hfind true
    rw [hkeeps.refusesWar_eq hentry hrep, Bool.true_and] at hset
    rw [onState_some hfind, decide_eq_true hrank, Bool.true_and]
    cases hown : isOwn (data.reputationToRank entry (data.getBaseReputation entry + standing))
        flags with
    | true =>
      rw [hown] at hset
      exact hset
    | false =>
      rw [hown] at hset
      exact hset
  · rename_i hrank
    rw [decide_eq_false hrank]
    exact hkeeps

omit hentry hrep in
theorem Keeps.loadSaved (h : mgr.Keeps listId id standing flags) :
    (mgr.loadSaved listId dbFactionFlags).Keeps listId id standing flags := by
  obtain ⟨needSave, hfind⟩ := h
  rw [ReputationMgr.loadSaved, Keeps, find_change_self (fun state => by split <;> rfl) hfind]
  split
  · exact ⟨_, rfl⟩
  · exact ⟨_, rfl⟩

theorem Keeps.loadRow {old : Int32} (h : mgr.Keeps entry.repListId entry.id old flags)
    (hrow : row.faction.toUInt32 = entry.id) :
    (ReputationMgr.loadRow data mgr row).Keeps entry.repListId entry.id row.standing
      (loadedFlags data entry row flags) := by
  rw [ReputationMgr.loadRow, hrow, data.store.lookupEntry_mem hentry]
  dsimp only
  rw [hrep, Bool.not_true, if_neg Bool.false_ne_true]
  exact (h.loadStanding.loadVisible.loadInactive.loadAtWar hentry hrep |>.loadHostile hentry
    hrep).loadSaved

omit hentry hrep

theorem find_loadRow_ne (h : ∀ entry, data.store.lookupEntry row.faction.toUInt32 = some entry →
      other ≠ entry.repListId) : (loadRow data mgr row).find other = mgr.find other := by
  rw [loadRow]
  cases hlookup : data.store.lookupEntry row.faction.toUInt32 with
  | none => rfl
  | some entry =>
    have hother := h entry hlookup
    dsimp only
    split
    · rfl
    · rw [find_loadSaved_ne hother, find_loadHostile_ne hother, find_loadAtWar_ne hother,
        find_loadInactive_ne hother, find_loadVisible_ne hother, find_loadStanding_ne hother]

theorem find_loadRows_ne {rows : List Row}
    (h : ∀ row ∈ rows, ∀ entry, data.store.lookupEntry row.faction.toUInt32 = some entry →
      other ≠ entry.repListId) : (rows.foldl (loadRow data) mgr).find other = mgr.find other := by
  induction rows generalizing mgr with
  | nil => rfl
  | cons row rows ih =>
    rw [foldl_cons, ih fun row hmem => h row (mem_cons_of_mem _ hmem),
      find_loadRow_ne (h row mem_cons_self)]

theorem Keeps.loadFromDB (hentry : entry ∈ data.store.entries)
    (hrep : entry.canHaveReputation = true) {table : CharacterReputation} (hmem : row ∈ table.rows)
    (hrow : row.faction.toUInt32 = entry.id) :
    (ReputationMgr.loadFromDB data table).Keeps entry.repListId entry.id row.standing
      (loadedFlags data entry row (data.getDefaultStateFlags entry)) := by
  obtain ⟨before, later, hrows⟩ := append_of_mem hmem
  have hnodup := table.factions_nodup
  rw [hrows, map_append, map_cons, nodup_middle, nodup_cons] at hnodup
  have hapart : ∀ other ∈ before ++ later, ∀ found,
      data.store.lookupEntry other.faction.toUInt32 = some found →
        entry.repListId ≠ found.repListId := by
    intro other hother found hfound hsame
    obtain ⟨hfoundmem, hfoundid⟩ := FactionStore.lookupEntry_some hfound
    obtain rfl := data.store.eq_of_repListId hentry hfoundmem hrep hsame.symm
    have hfaction := UInt16.toUInt32_inj.mp (hfoundid.symm.trans hrow.symm)
    refine hnodup.1 ?_
    rw [← map_append, ← hfaction]
    exact mem_map_of_mem hother
  rw [ReputationMgr.loadFromDB, hrows, foldl_append, foldl_cons]
  have hstart : (before.foldl (ReputationMgr.loadRow data) (initializeFactions data)).Keeps
      entry.repListId entry.id 0 (data.getDefaultStateFlags entry) :=
    ⟨true, (find_loadRows_ne fun other hother =>
      hapart other (mem_append_left _ hother)).trans (find_initializeFactions hentry hrep)⟩
  obtain ⟨needSave, hloaded⟩ := hstart.loadRow hentry hrep hrow
  exact ⟨needSave, (find_loadRows_ne fun other hother =>
    hapart other (mem_append_right _ hother)).trans hloaded⟩

end LoadFromDB

section SaveToDB

variable {table : CharacterReputation}

theorem mem_replaceRow {row new : Row} : row ∈ (replaceRow table new).rows ↔
    (row ∈ table.rows ∧ row.faction ≠ new.faction) ∨ row = new := by
  rw [replaceRow, mem_append, mem_filter, mem_singleton, decide_eq_true_iff]

theorem rowOf_mem_savedRows (hmem : state ∈ mgr.factions) (hsave : state.needSave = true)
    (hnodup : (mgr.factions.map fun state => state.id.toUInt16).Nodup) :
    rowOf state ∈ (mgr.savedRows table).rows := by
  rw [savedRows]
  generalize mgr.factions = factions at hmem hnodup ⊢
  have hkept : ∀ (factions : List FactionState) (table : CharacterReputation),
      rowOf state ∈ table.rows → (∀ other ∈ factions, other.id.toUInt16 ≠ state.id.toUInt16) →
      rowOf state ∈ (factions.foldl (fun table state =>
        if state.needSave then replaceRow table (rowOf state) else table) table).rows := by
    intro factions
    induction factions with
    | nil => exact fun table hrow _ => hrow
    | cons other factions ih =>
      intro table hrow hother
      refine ih _ ?_ fun later hlater => hother later (mem_cons_of_mem _ hlater)
      dsimp only
      split
      · exact mem_replaceRow.mpr (Or.inl ⟨hrow, (hother other mem_cons_self).symm⟩)
      · exact hrow
  induction factions generalizing table with
  | nil => exact (not_mem_nil hmem).elim
  | cons other factions ih =>
    rw [map_cons, nodup_cons] at hnodup
    rw [foldl_cons]
    rcases mem_cons.mp hmem with rfl | hmem
    · rw [hsave, if_pos rfl]
      refine hkept factions _ (mem_replaceRow.mpr (Or.inr rfl)) fun later hlater hsame => ?_
      exact hnodup.1 (hsame ▸ mem_map_of_mem hlater)
    · exact ih hmem hnodup.2

theorem toUInt32_toUInt16_id (hentry : entry ∈ data.store.entries) :
    entry.id.toUInt16.toUInt32 = entry.id := by
  have hshort := UInt32.lt_iff_toNat_lt.mp (data.store.ids_short entry hentry)
  apply UInt32.toNat_inj.mp
  exact Nat.mod_eq_of_lt hshort

theorem Matched.rows_nodup (h : mgr.Matched data) :
    (mgr.factions.map fun state => state.id.toUInt16).Nodup := by
  apply h.keys.of_map.map_on
  intro left hleft right hright hsame
  obtain ⟨entry, hentry, _, hid, hindex⟩ := h.entry left hleft
  obtain ⟨other, hother, _, hid', hindex'⟩ := h.entry right hright
  rw [hid, hid'] at hsame
  have hids : entry.id = other.id := by
    rw [← toUInt32_toUInt16_id hentry, hsame, toUInt32_toUInt16_id hother]
  obtain rfl := inj_on_of_nodup_map data.store.ids_nodup hentry hother hids
  exact inj_on_of_nodup_map h.keys hleft hright (hindex.trans hindex'.symm)

end SaveToDB

end LegionServer.Source.Reputation.ReputationMgr
