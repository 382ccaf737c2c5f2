import Mathlib.Data.List.Induction
import LegionServer.Source.Instances.LifetimeSteps

/-!
# What `Load` makes

The manager that `Load` makes of the two tables, in closed form. The release of the data at its
end changes nothing, whether a lock refers to the data or not.
-/
namespace LegionServer.Source.Instances
open Library List Function Option

variable {execute : Statement → Tables → Tables} {t : Tables} {mgr mgr' : InstanceLockMgr}
  {p : Pointer} {id : UInt32} {db2 : Db2Stores} {row : LockRow}

/-- The locks of the row are bound to an instance id. -/
def LockRow.Bound (db2 : Db2Stores) (row : LockRow) : Prop :=
  ∃ entries, db2.getMapDifficultyData row.mapId row.difficulty = some entries ∧
    entries.isInstanceIdBound = true

/-- Each row of `instance` belongs to a row of a bound lock. -/
def Tables.NoOrphans (db2 : Db2Stores) (t : Tables) : Prop :=
  ∀ id ∈ t.instanceIds, ∃ row ∈ t.locks, row.Bound db2 ∧ row.instanceId = id

namespace InstanceLockMgr

structure InstancesLoaded (rows : List InstanceRow)
    (loaded : List (UInt32 × Pointer) × (Pointer → SharedInstanceLockData) × Pointer) : Prop where
  sound : ∀ {id p}, (id, p) ∈ loaded.1 →
    p < loaded.2.2 ∧ ∃ row ∈ rows, row.instanceId = id ∧ loaded.2.1 p = sharedOfRow row
  complete : ∀ {row}, row ∈ rows → ∃ p, (row.instanceId, p) ∈ loaded.1

theorem instancesLoaded (rows : List InstanceRow) : InstancesLoaded rows (loadInstances rows) := by
  induction rows using reverseRecOn with
  | nil => exact ⟨fun hmem => (not_mem_nil hmem).elim, fun hmem => (not_mem_nil hmem).elim⟩
  | append_singleton rows row ih =>
    have hstep : loadInstances (rows ++ [row]) =
        ((loadInstances rows).1 ++ [(row.instanceId, (loadInstances rows).2.2)],
          update (loadInstances rows).2.1 (loadInstances rows).2.2 (sharedOfRow row),
          (loadInstances rows).2.2 + 1) := by
      unfold loadInstances
      rw [foldl_append]
      rfl
    rw [hstep]
    constructor
    · intro id p hmem
      rcases mem_append.mp hmem with hmem | hmem
      · obtain ⟨hlt, old, hold, hid, hshared⟩ := ih.sound hmem
        refine ⟨Nat.lt_succ_of_lt hlt, old, mem_append_left _ hold, hid, ?_⟩
        exact (update_of_ne (Nat.ne_of_lt hlt) ..).trans hshared
      · cases mem_singleton.mp hmem
        exact ⟨Nat.lt_succ_self _, row, by simp, rfl, update_self ..⟩
    · intro other hother
      rcases mem_append.mp hother with hold | hnew
      · obtain ⟨p, hp⟩ := ih.complete hold
        exact ⟨p, mem_append_left _ hp⟩
      · cases mem_singleton.mp hnew
        exact ⟨_, mem_append_right _ (mem_singleton_self _)⟩

variable {l : List (UInt32 × Pointer)}

theorem mem_of_lookup (h : l.lookup id = some p) : (id, p) ∈ l := by
  induction l with
  | nil => cases h
  | cons entry l ih =>
    obtain ⟨key, value⟩ := entry
    rw [lookup_cons] at h
    by_cases hkey : id = key
    · subst hkey
      simp only [beq_self_eq_true] at h
      cases h
      exact mem_cons_self ..
    · rw [beq_eq_false_iff_ne.mpr hkey] at h
      exact mem_cons_of_mem _ (ih h)

theorem lookup_ne_none (h : (id, p) ∈ l) : l.lookup id ≠ none := by
  intro hnone
  rw [lookup_eq_none_iff] at hnone
  simpa using hnone _ h

def loadedLock (db2 : Db2Stores) (byId : List (UInt32 × Pointer)) (row : LockRow) :
    Option PlayerLock :=
  match db2.getMapDifficultyData row.mapId row.difficulty with
  | none => none
  | some entries =>
    if entries.isInstanceIdBound then
      (byId.lookup row.instanceId).map fun p =>
        ⟨row.guid, (row.mapId, row.lockId), lockOfRow row (some p)⟩
    else some ⟨row.guid, (row.mapId, row.lockId), lockOfRow row none⟩

structure LocksLoaded (db2 : Db2Stores) (byId : List (UInt32 × Pointer)) (fresh : InstanceLockMgr)
    (rows : List LockRow) (mgr : InstanceLockMgr) : Prop where
  temporary : mgr.temporaryInstanceLocksByPlayer = []
  permanent : mgr.instanceLocksByPlayer = rows.filterMap (loadedLock db2 byId)
  registered : ∀ id p, mgr.instanceLockDataById id = some p ↔
    byId.lookup id = some p ∧ ∃ row ∈ rows, row.Bound db2 ∧ row.instanceId = id
  shared : mgr.shared = fresh.shared
  next : mgr.next = fresh.next
  issued : ∀ statement ∈ mgr.issued, ∃ row ∈ rows, row.Bound db2 ∧
    byId.lookup row.instanceId = none ∧ statement = .deleteLocksOfInstance row.instanceId

variable {byId : List (UInt32 × Pointer)}

theorem slot_loadedLock {entry : PlayerLock} (h : loadedLock db2 byId row = some entry) :
    entry.slot = (row.guid, (row.mapId, row.lockId)) := by
  unfold loadedLock at h
  split at h
  · cases h
  split at h
  · obtain ⟨p, _, rfl⟩ := map_eq_some_iff.mp h
    rfl
  · cases h
    rfl

variable {rows : List LockRow}

theorem setLock_loaded (hfresh : row.key ∉ rows.map LockRow.key) (lock : InstanceLock) :
    setLock (rows.filterMap (loadedLock db2 byId)) row.guid (row.mapId, row.lockId) lock =
      rows.filterMap (loadedLock db2 byId) ++ [⟨row.guid, (row.mapId, row.lockId), lock⟩] := by
  unfold setLock
  rw [filter_eq_self.mpr]
  intro entry hentry
  obtain ⟨other, hother, hloaded⟩ := mem_filterMap.mp hentry
  rw [decide_eq_true_eq, slot_loadedLock hloaded]
  intro hslot
  exact hfresh (mem_map.mpr ⟨other, hother, hslot⟩)

theorem filterMap_loaded (rows : List LockRow) (row : LockRow) :
    (rows ++ [row]).filterMap (loadedLock db2 byId) =
      rows.filterMap (loadedLock db2 byId) ++ (loadedLock db2 byId row).toList := by
  cases hloaded : loadedLock db2 byId row <;> simp [hloaded]

variable {fresh : InstanceLockMgr}

theorem LocksLoaded.addRow (h : LocksLoaded db2 byId fresh rows mgr)
    (hfresh : row.key ∉ rows.map LockRow.key) (hstep : loadLock db2 byId mgr row = .ok mgr') :
    LocksLoaded db2 byId fresh (rows ++ [row]) mgr' := by
  have hexists : ∀ P : LockRow → Prop, (∃ other ∈ rows ++ [row], P other) ↔
      (∃ other ∈ rows, P other) ∨ P row := by
    intro P
    simp [or_and_right, exists_or]
  have hissued : ∀ statement ∈ mgr.issued, ∃ other ∈ rows ++ [row], other.Bound db2 ∧
      byId.lookup other.instanceId = none ∧
        statement = .deleteLocksOfInstance other.instanceId := by
    intro statement hmem
    obtain ⟨other, hother, hrest⟩ := h.issued statement hmem
    exact ⟨other, mem_append_left _ hother, hrest⟩
  unfold loadLock at hstep
  cases hentries : db2.getMapDifficultyData row.mapId row.difficulty with
  | none =>
    rw [hentries] at hstep
    cases hstep
  | some entries =>
    simp only [hentries] at hstep
    by_cases hbound : entries.isInstanceIdBound = true
    · have hrow : row.Bound db2 := ⟨entries, hentries, hbound⟩
      rw [if_pos hbound] at hstep
      cases hlookup : byId.lookup row.instanceId with
      | none =>
        simp only [hlookup] at hstep
        cases hstep
        have hloaded : loadedLock db2 byId row = none := by
          simp only [loadedLock, hentries, hbound, hlookup, ↓reduceIte, map_none]
        refine ⟨h.temporary, ?_, fun id p => ?_, h.shared, h.next, ?_⟩
        · rw [filterMap_loaded, hloaded]
          exact h.permanent.trans (append_nil _).symm
        · rw [hexists]
          refine (h.registered id p).trans (and_congr_right fun hp => ?_)
          refine (or_iff_left ?_).symm
          rintro ⟨_, rfl⟩
          rw [hlookup] at hp
          cases hp
        · intro statement hmem
          rcases mem_append.mp hmem with hmem | hmem
          · exact hissued statement hmem
          · exact ⟨row, by simp, hrow, hlookup, mem_singleton.mp hmem⟩
      | some q =>
        simp only [hlookup] at hstep
        cases hstep
        have hloaded : loadedLock db2 byId row =
            some ⟨row.guid, (row.mapId, row.lockId), lockOfRow row (some q)⟩ := by
          simp only [loadedLock, hentries, hbound, hlookup, ↓reduceIte, map_some]
        refine ⟨h.temporary, ?_, fun id p => ?_, h.shared, h.next, hissued⟩
        · rw [filterMap_loaded, hloaded]
          refine Eq.trans ?_ (setLock_loaded hfresh _)
          rw [← h.permanent]
          rfl
        · rw [hexists]
          by_cases hid : id = row.instanceId
          · subst hid
            refine (Eq.congr_left (update_self ..)).trans ?_
            rw [hlookup]
            exact (and_iff_left (.inr ⟨hrow, rfl⟩)).symm
          · refine (Eq.congr_left (update_of_ne hid ..)).trans ((h.registered id p).trans ?_)
            refine and_congr_right fun _ => (or_iff_left ?_).symm
            exact fun hsame => hid hsame.2.symm
    · have hrow : ¬ row.Bound db2 := by
        rintro ⟨other, hother, hb⟩
        rw [hentries] at hother
        cases hother
        exact hbound hb
      rw [if_neg hbound] at hstep
      cases hstep
      have hloaded : loadedLock db2 byId row =
          some ⟨row.guid, (row.mapId, row.lockId), lockOfRow row none⟩ := by
        simp only [loadedLock, hentries, if_neg hbound]
      refine ⟨h.temporary, ?_, fun id p => ?_, h.shared, h.next, hissued⟩
      · rw [filterMap_loaded, hloaded]
        refine Eq.trans ?_ (setLock_loaded hfresh _)
        rw [← h.permanent]
        rfl
      · rw [hexists]
        refine (h.registered id p).trans (and_congr_right fun _ => (or_iff_left ?_).symm)
        exact fun hsame => hrow hsame.1

theorem LocksLoaded.run (rest : List LockRow) (h : LocksLoaded db2 byId fresh rows mgr)
    (hnodup : ((rows ++ rest).map LockRow.key).Nodup)
    (hrun : rest.foldlM (loadLock db2 byId) mgr = .ok mgr') :
    LocksLoaded db2 byId fresh (rows ++ rest) mgr' := by
  induction rest generalizing rows mgr with
  | nil =>
    cases hrun
    rwa [append_nil]
  | cons row rest ih =>
    rw [foldlM_cons] at hrun
    cases hone : loadLock db2 byId mgr row with
    | error fault =>
      rw [hone] at hrun
      cases hrun
    | ok next =>
      rw [hone] at hrun
      have hfresh : row.key ∉ rows.map LockRow.key := by
        rw [map_append, map_cons] at hnodup
        intro hmem
        exact (disjoint_of_nodup_append hnodup) hmem (mem_cons_self ..)
      rw [append_cons] at hnodup ⊢
      exact ih (h.addRow hfresh hone) hnodup hrun

theorem release_eq_self (hregistered : ∀ {id p}, mgr.instanceLockDataById id = some p → mgr.Refers p) :
    mgr.release p = mgr := by
  unfold InstanceLockMgr.release
  split
  · rfl
  split
  · rfl
  unfold onSharedInstanceLockDataDelete
  split
  · rfl
  · rename_i q hq
    rw [if_pos (referenced_iff.mpr (hregistered hq))]

theorem slots_loaded (rows : List LockRow) :
    ((rows.filterMap (loadedLock db2 byId)).map PlayerLock.slot).Sublist
      (rows.map LockRow.key) := by
  induction rows with
  | nil => exact List.Sublist.refl _
  | cons row rows ih =>
    cases hloaded : loadedLock db2 byId row with
    | none =>
      rw [filterMap_cons_none hloaded]
      exact ih.cons _
    | some entry =>
      rw [filterMap_cons_some hloaded, map_cons, slot_loadedLock hloaded]
      exact ih.cons_cons _

theorem LocksLoaded.refers_iff (h : LocksLoaded db2 byId fresh rows mgr) :
    mgr.Refers p ↔ ∃ row ∈ rows, row.Bound db2 ∧ byId.lookup row.instanceId = some p := by
  unfold Refers
  rw [h.temporary, h.permanent]
  constructor
  · rintro (⟨entry, hentry, _⟩ | ⟨entry, hentry, hp⟩)
    · cases hentry
    · obtain ⟨row, hrow, hloaded⟩ := mem_filterMap.mp hentry
      unfold loadedLock at hloaded
      split at hloaded
      · cases hloaded
      rename_i entries hentries
      split at hloaded
      · rename_i hbound
        obtain ⟨q, hlookup, rfl⟩ := map_eq_some_iff.mp hloaded
        cases hp
        exact ⟨row, hrow, ⟨entries, hentries, hbound⟩, hlookup⟩
      · cases hloaded
        cases hp
  · rintro ⟨row, hrow, ⟨entries, hentries, hbound⟩, hlookup⟩
    refine .inr ⟨⟨row.guid, (row.mapId, row.lockId), lockOfRow row (some p)⟩, ?_, rfl⟩
    refine mem_filterMap.mpr ⟨row, hrow, ?_⟩
    simp only [loadedLock, hentries, hbound, hlookup, ↓reduceIte, map_some]

/-- `Load`, as a whole. -/
theorem locksLoaded (hload : load db2 t = .ok mgr) :
    LocksLoaded db2 (loadInstances t.instances).1
      { shared := (loadInstances t.instances).2.1, next := (loadInstances t.instances).2.2 }
      t.locks mgr := by
  unfold load at hload
  cases hrun : t.locks.foldlM (loadLock db2 (loadInstances t.instances).1)
      { shared := (loadInstances t.instances).2.1, next := (loadInstances t.instances).2.2 } with
  | error fault =>
    simp only [hrun] at hload
    cases hload
  | ok loaded =>
    simp only [hrun] at hload
    cases hload
    have hfresh : LocksLoaded db2 (loadInstances t.instances).1
        { shared := (loadInstances t.instances).2.1, next := (loadInstances t.instances).2.2 } []
        { shared := (loadInstances t.instances).2.1, next := (loadInstances t.instances).2.2 } := by
      refine ⟨rfl, rfl, fun id p => ?_, rfl, rfl, fun statement hmem => ?_⟩
      · simp
      · exact (not_mem_nil hmem).elim
    have hloaded := LocksLoaded.run t.locks hfresh t.locks_nodup hrun
    have hself : ∀ p, loaded.release p = loaded := by
      refine fun p => release_eq_self fun {id q} hq => ?_
      obtain ⟨hlookup, row, hrow, hbound, rfl⟩ := (hloaded.registered id q).mp hq
      exact hloaded.refers_iff.mpr ⟨row, hrow, hbound, hlookup⟩
    have hend : ∀ l : List (UInt32 × Pointer),
        l.foldl (fun mgr entry => mgr.release entry.2) loaded = loaded := by
      intro l
      induction l with
      | nil => rfl
      | cons entry l ih => rw [foldl_cons, hself, ih]
    rw [hend]
    exact hloaded

theorem loaded_instanceId {rows : List InstanceRow}
    (h : (loadInstances rows).1.lookup id = some p) :
    ((loadInstances rows).2.1 p).instanceId = id := by
  obtain ⟨_, row, _, hid, hshared⟩ := (instancesLoaded rows).sound (mem_of_lookup h)
  rw [hshared]
  exact hid

/-- `Load` leaves the rows of instances alone. -/
theorem instanceIds_load (hexecute : Executes execute) (hload : load db2 t = .ok mgr) :
    (mgr.written execute t).instanceIds = t.instanceIds := by
  refine congrArg (map InstanceRow.instanceId) (instances_executeAll hexecute _ ?_ t)
  intro statement hstatement
  obtain ⟨row, _, _, _, rfl⟩ := (locksLoaded hload).issued statement hstatement
  exact id

theorem exists_refers_load (hload : load db2 t = .ok mgr) :
    (∃ p, mgr.Refers p ∧ (mgr.shared p).instanceId = id) ↔
      id ∈ t.instanceIds ∧ ∃ row ∈ t.locks, row.Bound db2 ∧ row.instanceId = id := by
  have hloaded := locksLoaded hload
  constructor
  · rintro ⟨p, hp, hid⟩
    obtain ⟨row, hrow, hbound, hlookup⟩ := hloaded.refers_iff.mp hp
    rw [hloaded.shared, loaded_instanceId hlookup] at hid
    subst hid
    refine ⟨?_, row, hrow, hbound, rfl⟩
    obtain ⟨_, saved, hsaved, hid, _⟩ := (instancesLoaded t.instances).sound (mem_of_lookup hlookup)
    exact mem_map.mpr ⟨saved, hsaved, hid⟩
  · rintro ⟨hid, row, hrow, hbound, rfl⟩
    obtain ⟨saved, hsaved, hsame⟩ := mem_map.mp hid
    obtain ⟨q, hq⟩ := (instancesLoaded t.instances).complete hsaved
    rw [hsame] at hq
    obtain ⟨p, hp⟩ := Option.ne_none_iff_exists'.mp (lookup_ne_none hq)
    refine ⟨p, hloaded.refers_iff.mpr ⟨row, hrow, hbound, hp⟩, ?_⟩
    rw [hloaded.shared]
    exact loaded_instanceId hp

/-- After a restart rows and references agree if, and only if, there was no row without a lock:
nothing deletes such a row. -/
theorem rows_load_iff (hexecute : Executes execute) (hzero : 0 ∉ t.instanceIds)
    (hload : load db2 t = .ok mgr) :
    (∀ id, id ∈ (mgr.written execute t).instanceIds ↔
      id ≠ 0 ∧ ∃ p, mgr.Refers p ∧ (mgr.shared p).instanceId = id) ↔ t.NoOrphans db2 := by
  rw [instanceIds_load hexecute hload]
  simp only [exists_refers_load hload]
  constructor
  · intro hrows id hid
    exact ((hrows id).mp hid).2.2
  · intro horphans id
    constructor
    · intro hid
      exact ⟨fun hsame => hzero (hsame ▸ hid), hid, horphans id hid⟩
    · exact fun hid => hid.2.1

theorem wellKept_load (hexecute : Executes execute) (hzero : 0 ∉ t.instanceIds)
    (hload : load db2 t = .ok mgr) (horphans : t.NoOrphans db2) : WellKept execute t mgr := by
  have hloaded := locksLoaded hload
  refine ⟨?_, ?_, fun {p} hp _ => ?_, (rows_load_iff hexecute hzero hload).mpr horphans,
    fun {id p} hp => ?_, fun {id p} hp => ?_, fun {p} hp => ?_⟩
  · rw [hloaded.temporary]
    exact nodup_nil
  · rw [hloaded.permanent]
    exact t.locks_nodup.sublist (slots_loaded t.locks)
  · obtain ⟨row, hrow, hbound, hlookup⟩ := hloaded.refers_iff.mp hp
    rw [hloaded.shared, loaded_instanceId hlookup]
    exact (hloaded.registered _ p).mpr ⟨hlookup, row, hrow, hbound, rfl⟩
  · obtain ⟨hlookup, _⟩ := (hloaded.registered id p).mp hp
    obtain ⟨_, saved, hsaved, hid, _⟩ := (instancesLoaded t.instances).sound (mem_of_lookup hlookup)
    exact fun hsame => hzero (mem_map.mpr ⟨saved, hsaved, hid.trans hsame⟩)
  · obtain ⟨hlookup, _⟩ := (hloaded.registered id p).mp hp
    rw [hloaded.next]
    exact ((instancesLoaded t.instances).sound (mem_of_lookup hlookup)).1
  · obtain ⟨row, hrow, hbound, hlookup⟩ := hloaded.refers_iff.mp hp
    rw [hloaded.next]
    exact ((instancesLoaded t.instances).sound (mem_of_lookup hlookup)).1

end InstanceLockMgr

end LegionServer.Source.Instances
