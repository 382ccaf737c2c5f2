import LegionServer.Source.Instances.LockRequests

/-!
# Rows of shared instance data

The row of saved instance data is there exactly while some lock refers to the data, and
what goes with the last lock of an old instance is never the row or the registration of a
newer one.
-/
namespace LegionServer.Guarantees.InstanceRows
open Source.Instances List
open Source.Instances.InstanceLockMgr

variable {execute : Statement → Tables → Tables} {db2 : Db2Stores} {t : Tables}
  {w w' w₀ : InstanceWorld} {event : InstanceEvent}

/-- A row exists for exactly the ids of saved data that a live lock refers to. -/
def RowsAgree (w : InstanceWorld) : Prop :=
  ∀ id, id ∈ w.tables.instanceIds ↔ id ≠ 0 ∧ ∃ entry ∈ w.mgr.locks, ∃ p,
    entry.lock.sharedData = some p ∧ (w.mgr.shared p).instanceId = id

/-- Data that a lock refers to after a request stays registered, unless the request makes a new
instance of its id. -/
def NewerKept (execute : Statement → Tables → Tables) (db2 : Db2Stores) (w : InstanceWorld) : Prop :=
  ∀ {request w' id p}, w.step execute db2 (.request request) = .ok w' → ¬ request.Creates id →
    w.mgr.instanceLockDataById id = some p → w'.mgr.Refers p →
    w'.mgr.instanceLockDataById id = some p

/-- An event of a run: ids are given out as `MapManager` does. -/
def Steps (execute : Statement → Tables → Tables) (db2 : Db2Stores) (w w' : InstanceWorld) : Prop :=
  ∃ event, w.Allowed event ∧ w.step execute db2 event = .ok w'

/-- An event that restarts the server only if each row belongs to a bound lock. -/
def CoveredSteps (execute : Statement → Tables → Tables) (db2 : Db2Stores)
    (w w' : InstanceWorld) : Prop :=
  ∃ event, w.Allowed event ∧ (event = .restart → w.tables.NoOrphans db2) ∧
    w.step execute db2 event = .ok w'

def fresh : InstanceWorld := ⟨{}, .empty⟩

theorem refers_iff_locks {mgr : InstanceLockMgr} {p : Pointer} :
    mgr.Refers p ↔ ∃ entry ∈ mgr.locks, entry.lock.sharedData = some p := by
  simp [Refers, locks, or_and_right, exists_or]

theorem rowsAgree_iff :
    RowsAgree w ↔ ∀ id, id ∈ w.tables.instanceIds ↔
      id ≠ 0 ∧ ∃ p, w.mgr.Refers p ∧ (w.mgr.shared p).instanceId = id := by
  refine forall_congr' fun id => iff_congr Iff.rfl (and_congr_right fun _ => ?_)
  constructor
  · rintro ⟨entry, hentry, p, hp, hid⟩
    exact ⟨p, refers_iff_locks.mpr ⟨entry, hentry, hp⟩, hid⟩
  · rintro ⟨p, hp, hid⟩
    obtain ⟨entry, hentry, hp⟩ := refers_iff_locks.mp hp
    exact ⟨entry, hentry, p, hp, hid⟩

/-- Between two events, with nothing left to execute. -/
def Settled (execute : Statement → Tables → Tables) (w : InstanceWorld) : Prop :=
  w.mgr.issued = [] ∧ WellKept execute w.tables w.mgr

theorem Settled.rowsAgree (h : Settled execute w) : RowsAgree w := by
  rw [rowsAgree_iff]
  intro id
  have hrows := h.2.lifetimes.rows id
  rwa [written, h.1] at hrows

theorem Settled.flush {mgr : InstanceLockMgr} (h : WellKept execute t mgr) :
    Settled execute (InstanceWorld.flush execute ⟨mgr, t⟩) :=
  ⟨rfl, h.flush⟩

theorem settled_fresh : Settled execute fresh := by
  refine ⟨rfl, nodup_nil, nodup_nil, ?_, ?_, ?_, ?_, ?_⟩
  · rintro p (⟨_, hentry, _⟩ | ⟨_, hentry, _⟩)
    all_goals cases hentry
  · intro id
    refine iff_of_false (not_mem_nil) ?_
    rintro ⟨_, p, ⟨_, hentry, _⟩ | ⟨_, hentry, _⟩, _⟩
    all_goals cases hentry
  · exact fun h => by cases h
  · exact fun h => by cases h
  · rintro p (⟨_, hentry, _⟩ | ⟨_, hentry, _⟩)
    all_goals cases hentry

theorem Settled.zero_notMem (h : Settled execute w) : 0 ∉ w.tables.instanceIds := by
  intro hmem
  exact ((h.rowsAgree 0).mp hmem).1 rfl

theorem start_cases (hstart : InstanceWorld.start execute db2 t = .ok w) :
    ∃ mgr, load db2 t = .ok mgr ∧ w = InstanceWorld.flush execute ⟨mgr, t⟩ := by
  unfold InstanceWorld.start at hstart
  cases hload : load db2 t with
  | error fault =>
    rw [hload] at hstart
    cases hstart
  | ok mgr =>
    rw [hload] at hstart
    cases hstart
    exact ⟨mgr, rfl, rfl⟩

theorem request_cases {request : LockRequest}
    (hstep : w.step execute db2 (.request request) = .ok w') :
    ∃ mgr, request.run db2 w.mgr = .ok mgr ∧ w' = InstanceWorld.flush execute ⟨mgr, w.tables⟩ := by
  unfold InstanceWorld.step at hstep
  cases hrun : request.run db2 w.mgr with
  | error fault =>
    simp only [hrun] at hstep
    cases hstep
  | ok mgr =>
    simp only [hrun] at hstep
    cases hstep
    exact ⟨mgr, rfl, rfl⟩

/-- The rows after a restart agree with the locks if, and only if, each row belonged to one. -/
theorem Settled.restart_iff (hexecute : Executes execute) (h : Settled execute w)
    (hstep : w.step execute db2 .restart = .ok w') :
    RowsAgree w' ↔ w.tables.NoOrphans db2 := by
  obtain ⟨mgr, hload, rfl⟩ := start_cases hstep
  rw [← rows_load_iff hexecute h.zero_notMem hload, rowsAgree_iff]
  exact Iff.rfl

theorem Settled.step (hexecute : Executes execute) (h : Settled execute w)
    (hallowed : w.Allowed event) (hcovered : event = .restart → w.tables.NoOrphans db2)
    (hstep : w.step execute db2 event = .ok w') : Settled execute w' := by
  cases event with
  | request request =>
    obtain ⟨mgr, hrun, rfl⟩ := request_cases hstep
    exact Settled.flush (h.2.run hexecute hallowed hrun)
  | restart =>
    obtain ⟨mgr, hload, rfl⟩ := start_cases hstep
    exact Settled.flush (wellKept_load hexecute h.zero_notMem hload (hcovered rfl))

theorem newerKept : NewerKept execute db2 w := by
  intro request w' id p hstep hcreates hid hp
  obtain ⟨mgr, hrun, rfl⟩ := request_cases hstep
  have hkept : mgr.instanceLockDataById id = some p := keepsRegistered_run hcreates hrun hid hp
  exact hkept

/-- In a run whose restarts find a bound lock for each row, the rows always agree with the locks
and newer data is always kept; a restart that finds a row without one leaves them in
disagreement. -/
theorem reachable_rows_agree (hexecute : Executes execute)
    (hrun : Relation.ReflTransGen (CoveredSteps execute db2) fresh w) :
    RowsAgree w ∧ NewerKept execute db2 w ∧
      ∀ w', w.step execute db2 .restart = .ok w' → (RowsAgree w' ↔ w.tables.NoOrphans db2) := by
  have hsettled : Settled execute w := by
    induction hrun with
    | refl => exact settled_fresh
    | tail _ hstep ih =>
      obtain ⟨event, hallowed, hcovered, hstep⟩ := hstep
      exact ih.step hexecute hallowed hcovered hstep
  exact ⟨hsettled.rowsAgree, newerKept, fun w' hstep => hsettled.restart_iff hexecute hstep⟩

def raidEntries : MapDb2Entries where
  mapId := 1
  isFlexLocking := false
  difficultyId := 3
  resetInterval := 2
  lockId := 5
  isUsingEncounterLocks := false

def raidStores : Db2Stores where
  getMapDifficultyData mapId difficulty :=
    if mapId = 1 ∧ difficulty = 3 then some raidEntries else none
  key := by
    intro mapId difficulty entries h
    split at h
    · rename_i hkey
      cases h
      exact ⟨hkey.1.symm, hkey.2.symm⟩
    · cases h

def raidCalendar : Calendar where
  now := 0
  getNextResetTime _ := 604800

def raidEvent : InstanceLockUpdateEvent where
  instanceId := 9
  newData := "1"
  instanceCompletedEncountersMask := 1
  completedEncounter := some 0
  entranceWorldSafeLocId := none

def raidCreated : InstanceEvent := .request (.create raidCalendar 7 raidEntries 9)

def raidSaved : InstanceEvent := .request (.updateShared raidEvent)

def raidLocked : InstanceEvent :=
  .request (.updatePlayer raidCalendar 7 raidEntries raidEvent)

theorem raid_allowed : fresh.Allowed raidCreated :=
  fun _ => ⟨by decide, fun _ hentry => (not_mem_nil hentry).elim⟩

def AlwaysAgree (execute : Statement → Tables → Tables) (db2 : Db2Stores) : Prop :=
  ∀ w, Relation.ReflTransGen (Steps execute db2) fresh w → RowsAgree w

theorem not_alwaysAgree : Executes runStatement ∧ ¬ AlwaysAgree runStatement raidStores := by
  refine ⟨runStatement_executes, fun hagree => ?_⟩
  have hrows := hagree _ (((Relation.ReflTransGen.single ⟨raidCreated, raid_allowed, rfl⟩).tail
    ⟨raidSaved, trivial, rfl⟩).tail ⟨.restart, trivial, rfl⟩) 9
  obtain ⟨_, entry, hentry, _⟩ := hrows.mp (by decide)
  exact not_mem_nil hentry

theorem reachable_rows_agree_raid : ∃ w,
    Relation.ReflTransGen (CoveredSteps runStatement raidStores) fresh w ∧
      w.tables.instanceIds = [9] ∧ RowsAgree w := by
  have hlocked : ∃ w, Relation.ReflTransGen (CoveredSteps runStatement raidStores) fresh w ∧
      w.tables.instanceIds = [9] := by
    refine ⟨_, (((Relation.ReflTransGen.single ⟨raidCreated, raid_allowed, nofun, rfl⟩).tail
      ⟨raidSaved, trivial, nofun, rfl⟩).tail
      ⟨raidLocked, trivial, nofun, rfl⟩).tail
      ⟨.restart, trivial, fun _ => ?_, rfl⟩, rfl⟩
    intro id hid
    cases List.mem_singleton.mp hid
    exact ⟨_, mem_singleton_self _, ⟨raidEntries, rfl, rfl⟩, rfl⟩
  obtain ⟨w, hrun, hids⟩ := hlocked
  exact ⟨w, hrun, hids, (reachable_rows_agree runStatement_executes hrun).1⟩

end LegionServer.Guarantees.InstanceRows
