import LegionServer.Source.Instances.LoadedLocks

/-!
# Requests to the manager of instance locks

The manager with its tables. What a request issues is executed before the next one, and a restart
loads a fresh manager from the tables.
-/
namespace LegionServer.Source.Instances
open Library

inductive LockRequest where
  | create (calendar : Calendar) (player : UInt64) (entries : MapDb2Entries) (instanceId : UInt32)
  | updateShared (event : InstanceLockUpdateEvent)
  | updatePlayer (calendar : Calendar) (player : UInt64) (entries : MapDb2Entries)
    (event : InstanceLockUpdateEvent)
  | extend (calendar : Calendar) (player : UInt64) (entries : MapDb2Entries) (extended : Bool)
  | reset (calendar : Calendar) (player : UInt64) (mapId : Option UInt32) (difficulty : Option UInt8)
  | setInUse (player : UInt64) (key : InstanceLockKey) (inUse : Bool)

namespace LockRequest
open InstanceLockMgr

def run (db2 : Db2Stores) (mgr : InstanceLockMgr) : LockRequest → Except Fault InstanceLockMgr
  | create calendar player entries instanceId =>
    .ok (mgr.createInstanceLockForNewInstance calendar player entries instanceId)
  | updateShared event => mgr.updateSharedInstanceLock event
  | updatePlayer calendar player entries event =>
    mgr.updateInstanceLockForPlayer calendar player entries event
  | extend calendar player entries extended =>
    (mgr.updateInstanceLockExtensionForPlayer db2 calendar player entries extended).map Prod.fst
  | reset calendar player mapId difficulty =>
    (mgr.resetInstanceLocksForPlayer db2 calendar player mapId difficulty).map Prod.fst
  | setInUse player key inUse => .ok (mgr.setInUse player key inUse)

/-- `MapManager` gives out an id, never 0, once no lock uses it. -/
def Allowed (mgr : InstanceLockMgr) : LockRequest → Prop
  | create _ _ entries instanceId =>
    entries.isInstanceIdBound = true → instanceId ≠ 0 ∧ mgr.Unused instanceId
  | _ => True

def Creates (instanceId : UInt32) : LockRequest → Prop
  | create _ _ _ id => id = instanceId
  | _ => False

end LockRequest

structure InstanceWorld where
  mgr : InstanceLockMgr
  tables : Tables

inductive InstanceEvent where
  | request (request : LockRequest)
  | restart

namespace InstanceWorld

variable (execute : Statement → Tables → Tables) (db2 : Db2Stores)

def flush (w : InstanceWorld) : InstanceWorld :=
  ⟨{ w.mgr with issued := [] }, w.mgr.written execute w.tables⟩

def start (t : Tables) : Except Fault InstanceWorld := do
  let mgr ← InstanceLockMgr.load db2 t
  return flush execute ⟨mgr, t⟩

def step (w : InstanceWorld) : InstanceEvent → Except Fault InstanceWorld
  | .request request => do
    let mgr ← request.run db2 w.mgr
    return flush execute ⟨mgr, w.tables⟩
  | .restart => start execute db2 w.tables

def Allowed (w : InstanceWorld) : InstanceEvent → Prop
  | .request request => request.Allowed w.mgr
  | .restart => True

end InstanceWorld

namespace InstanceLockMgr

variable {execute : Statement → Tables → Tables} {t : Tables} {mgr mgr' : InstanceLockMgr}
  {p : Pointer} {id : UInt32} {player : UInt64} {key : InstanceLockKey} {lock : InstanceLock}
  {db2 : Db2Stores} {calendar : Calendar} {entries : MapDb2Entries}
  {event : InstanceLockUpdateEvent} {f : InstanceLock → InstanceLock} {request : LockRequest}

theorem exists_of_map_ok {α β : Type} {g : α → β} {x : Except Fault α} {b : β}
    (h : x.map g = .ok b) : ∃ a, x = .ok a ∧ g a = b := by
  cases x with
  | error fault => cases h
  | ok a =>
    cases h
    exact ⟨a, rfl, rfl⟩

theorem WellKept.run (hexecute : Executes execute) (h : WellKept execute t mgr)
    (hallowed : request.Allowed mgr) (hrun : request.run db2 mgr = .ok mgr') :
    WellKept execute t mgr' := by
  cases request with
  | create calendar player entries id =>
    cases hrun
    exact h.create hexecute hallowed
  | updateShared event => exact h.updateShared hexecute hrun
  | updatePlayer calendar player entries event => exact h.updatePlayer hexecute hrun
  | extend calendar player entries extended =>
    obtain ⟨result, hresult, rfl⟩ := exists_of_map_ok hrun
    exact h.extend hexecute hresult
  | reset calendar player mapId difficulty =>
    obtain ⟨result, hresult, rfl⟩ := exists_of_map_ok hrun
    exact h.reset hexecute hresult
  | setInUse player key inUse =>
    cases hrun
    exact h.setInUse inUse

theorem WellKept.flush (h : WellKept execute t mgr) :
    WellKept execute (mgr.written execute t) { mgr with issued := [] } :=
  ⟨h.temporary, h.permanent, h.lifetimes.saved, h.lifetimes.rows, h.lifetimes.nonzero,
    h.lifetimes.registered, h.lifetimes.bounded⟩

/-- A registration stays, unless no lock refers to its data any more. -/
def KeepsRegistered (mgr mgr' : InstanceLockMgr) : Prop :=
  ∀ {id p}, mgr.instanceLockDataById id = some p → mgr'.Refers p →
    mgr'.instanceLockDataById id = some p

theorem keepsRegistered_release : mgr.KeepsRegistered (mgr.release p) := by
  intro id q hid hq
  have hrefers : mgr.referenced q = true := by
    rw [referenced_iff, ← Refers.congr_locks release_temporary release_permanent]
    exact hq
  unfold InstanceLockMgr.release
  split
  · exact hid
  split
  · exact hid
  unfold onSharedInstanceLockDataDelete
  cases hreg : mgr.instanceLockDataById (mgr.shared p).instanceId with
  | none => exact hid
  | some r =>
    dsimp only
    split
    · exact hid
    rename_i hout
    have hne : id ≠ (mgr.shared p).instanceId := by
      rintro rfl
      rw [hid] at hreg
      cases hreg
      exact hout hrefers
    exact (Function.update_of_ne hne ..).trans hid

theorem keepsRegistered_deleteLock {old : Option InstanceLock} :
    mgr.KeepsRegistered (mgr.deleteLock old) := by
  unfold InstanceLockMgr.deleteLock
  split
  · exact fun hid _ => hid
  · exact keepsRegistered_release

theorem keepsRegistered_resetTemporary : mgr.KeepsRegistered (mgr.resetTemporary player key lock) :=
  fun hid hp => keepsRegistered_deleteLock hid hp

theorem keepsRegistered_resetPermanent : mgr.KeepsRegistered (mgr.resetPermanent player key lock) :=
  fun hid hp => keepsRegistered_deleteLock hid hp

theorem keepsRegistered_create {other : UInt32} (hid : id ≠ other) (hreg : mgr.instanceLockDataById other = some p)
    (hp : (mgr.createInstanceLockForNewInstance calendar player entries id).Refers p) :
    (mgr.createInstanceLockForNewInstance calendar player entries id).instanceLockDataById other =
      some p := by
  unfold createInstanceLockForNewInstance at hp ⊢
  by_cases hreset : entries.hasResetSchedule = false
  · rw [if_pos hreset]
    exact hreg
  rw [if_neg hreset] at hp ⊢
  by_cases hbound : entries.isInstanceIdBound = true
  · rw [if_pos hbound] at hp ⊢
    refine keepsRegistered_resetTemporary ?_ hp
    exact (Function.update_of_ne hid.symm ..).trans hreg
  · rw [if_neg hbound] at hp ⊢
    exact keepsRegistered_resetTemporary hreg hp

theorem locateLock_cases :
    mgr.locateLock calendar player entries = (mgr, none) ∨
      (mgr.KeepsRegistered (mgr.locateLock calendar player entries).1 ∧
        ∃ lock, (mgr.locateLock calendar player entries).2 = some lock) := by
  unfold locateLock
  split
  · rename_i lock _
    exact .inr ⟨fun hid _ => hid, lock, rfl⟩
  unfold promote
  split
  · exact .inl rfl
  · rename_i lock _
    exact .inr ⟨fun hid hp => keepsRegistered_resetPermanent hid hp, lock, rfl⟩

theorem keepsRegistered_bind_none
    (hstep : mgr.bindLock calendar player entries event none = .ok (mgr', lock)) :
    mgr.KeepsRegistered mgr' := by
  unfold bindLock at hstep
  dsimp only at hstep
  split at hstep
  · split at hstep
    · cases hstep
    · split at hstep
      · cases hstep
      · split at hstep
        · cases hstep
        · cases hstep
          exact keepsRegistered_resetPermanent
  · cases hstep
    exact keepsRegistered_resetPermanent

theorem bind_some {old : InstanceLock}
    (hstep : mgr.bindLock calendar player entries event (some old) = .ok (mgr', lock)) :
    mgr' = mgr.modifyPermanent player entries.getKey (·.setInstanceId event.instanceId) := by
  unfold bindLock at hstep
  dsimp only at hstep
  split at hstep
  · split at hstep
    · cases hstep
    · split at hstep
      · cases hstep
      · split at hstep
        · cases hstep
          rfl
        · cases hstep
  · cases hstep
    rfl

theorem keepsRegistered_updatePlayer
    (hstep : mgr.updateInstanceLockForPlayer calendar player entries event = .ok mgr') :
    mgr.KeepsRegistered mgr' := by
  unfold updateInstanceLockForPlayer at hstep
  have hcases : mgr.locateLock calendar player entries = (mgr, none) ∨
      (mgr.KeepsRegistered (mgr.locateLock calendar player entries).1 ∧
        ∃ lock, (mgr.locateLock calendar player entries).2 = some lock) := locateLock_cases
  generalize mgr.locateLock calendar player entries = located at hstep hcases
  obtain ⟨mgr₀, found⟩ := located
  cases hbind : mgr₀.bindLock calendar player entries event found with
  | error fault =>
    simp only [hbind] at hstep
    cases hstep
  | ok bound =>
    obtain ⟨mgr₁, lock⟩ := bound
    simp only [hbind] at hstep
    cases hstep
    have hrefers : (mgr₁.modifyPermanent player entries.getKey
        (updatedLock calendar entries event)).Refers = mgr₁.Refers :=
      refers_modifyPermanent fun _ => sharedData_updatedLock
    intro id p hid hp
    have hp : mgr₁.Refers p := hrefers ▸ hp
    rcases hcases with hsame | ⟨hkeeps, old, hfound⟩
    · cases hsame
      exact keepsRegistered_bind_none hbind hid hp
    subst hfound
    have hbound := bind_some hbind
    subst hbound
    have hset : (mgr₀.modifyPermanent player entries.getKey
        (·.setInstanceId event.instanceId)).Refers = mgr₀.Refers :=
      refers_modifyPermanent fun _ => rfl
    exact hkeeps hid (hset ▸ hp)

theorem registry_extend {extended : Bool} {times : Option (Int64 × Int64)}
    (hstep : mgr.updateInstanceLockExtensionForPlayer db2 calendar player entries extended =
      .ok (mgr', times)) : mgr'.instanceLockDataById = mgr.instanceLockDataById := by
  unfold updateInstanceLockExtensionForPlayer at hstep
  split at hstep
  · cases hstep
    rfl
  rename_i lock _
  cases hold : lock.getEffectiveExpiryTime db2 calendar with
  | error fault =>
    simp only [hold] at hstep
    cases hstep
  | ok oldTime =>
    cases hnew : (lock.setExtended extended).getEffectiveExpiryTime db2 calendar with
    | error fault =>
      simp only [hold, hnew] at hstep
      cases hstep
    | ok newTime =>
      simp only [hold, hnew] at hstep
      cases hstep
      rfl

theorem registry_forceExpire {entry : PlayerLock}
    (hstep : forceExpire db2 calendar player mgr entry = .ok mgr') :
    mgr'.instanceLockDataById = mgr.instanceLockDataById := by
  unfold forceExpire at hstep
  split at hstep
  · cases hstep
  · cases hstep
    rfl

/-- A request that does not create an instance under the id leaves its data alone while some lock
refers to it. -/
theorem keepsRegistered_run (hcreates : ¬ request.Creates id)
    (hrun : request.run db2 mgr = .ok mgr') (hid : mgr.instanceLockDataById id = some p)
    (hp : mgr'.Refers p) : mgr'.instanceLockDataById id = some p := by
  cases request with
  | create calendar player entries other =>
    cases hrun
    exact keepsRegistered_create hcreates hid hp
  | updateShared event =>
    obtain ⟨_, _, _, _, rfl⟩ := updateShared_cases hrun
    exact hid
  | updatePlayer calendar player entries event => exact keepsRegistered_updatePlayer hrun hid hp
  | extend calendar player entries extended =>
    obtain ⟨result, hresult, rfl⟩ := exists_of_map_ok hrun
    rw [registry_extend hresult]
    exact hid
  | reset calendar player mapId difficulty =>
    obtain ⟨result, hresult, rfl⟩ := exists_of_map_ok hrun
    have hsame := reset_induction (P := fun other =>
      other.instanceLockDataById = mgr.instanceLockDataById)
      (fun hp hone => (registry_forceExpire hone).trans hp) rfl hresult
    rw [hsame]
    exact hid
  | setInUse player key inUse =>
    cases hrun
    exact hid

end InstanceLockMgr

end LegionServer.Source.Instances
