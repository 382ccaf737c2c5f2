import LegionServer.Source.Instances.InstanceLockMgr

/-!
# Maps of locks

What is found in a map of locks after a lock is set, erased or changed.
-/
namespace LegionServer.Source.Instances
open Library List KeyedRows Function

variable {locks : List PlayerLock} {player : UInt64} {key : InstanceLockKey} {lock : InstanceLock}
  {entry : PlayerLock} {f : InstanceLock → InstanceLock}

def SlotsNodup (locks : List PlayerLock) : Prop := (locks.map PlayerLock.slot).Nodup

theorem SlotsNodup.erase (h : SlotsNodup locks) (player : UInt64) (key : InstanceLockKey) :
    SlotsNodup (eraseLock locks player key) :=
  List.Nodup.sublist (filter_sublist.map _) h

theorem SlotsNodup.set (h : SlotsNodup locks) (player : UInt64) (key : InstanceLockKey)
    (lock : InstanceLock) : SlotsNodup (setLock locks player key lock) := by
  unfold SlotsNodup setLock
  rw [map_append, map_singleton, nodup_append]
  refine ⟨h.erase player key, nodup_singleton _, ?_⟩
  intro slot hslot other hother
  rw [mem_singleton.mp hother]
  obtain ⟨entry, hentry, rfl⟩ := mem_map.mp hslot
  exact of_decide_eq_true (mem_filter.mp hentry).2

theorem findLock_eq_some (h : SlotsNodup locks) :
    findLock locks player key = some lock ↔ ⟨player, key, lock⟩ ∈ locks := by
  unfold findLock
  rw [Option.map_eq_some_iff]
  constructor
  · rintro ⟨entry, hrow, rfl⟩
    have hkey := key_rowOf hrow
    cases entry
    cases hkey
    exact mem_rowOf hrow
  · exact fun hmem => ⟨_, rowOf_of_mem h hmem, rfl⟩

theorem mem_eraseLock :
    entry ∈ eraseLock locks player key ↔ entry ∈ locks ∧ entry.slot ≠ (player, key) := by
  simp [eraseLock]

theorem mem_setLock : entry ∈ setLock locks player key lock ↔
    (entry ∈ locks ∧ entry.slot ≠ (player, key)) ∨ entry = ⟨player, key, lock⟩ := by
  simp [setLock]

/-- The lock of a slot is in the map, or it is not one of the others. -/
theorem mem_iff_find (h : SlotsNodup locks) : entry ∈ locks ↔
    (entry ∈ locks ∧ entry.slot ≠ (player, key)) ∨
      (findLock locks player key = some entry.lock ∧ entry.slot = (player, key)) := by
  constructor
  · intro hmem
    by_cases hslot : entry.slot = (player, key)
    · right
      cases entry
      cases hslot
      exact ⟨(findLock_eq_some h).mpr hmem, rfl⟩
    · exact .inl ⟨hmem, hslot⟩
  · rintro (hmem | ⟨hfind, hslot⟩)
    · exact hmem.1
    · cases entry
      cases hslot
      exact (findLock_eq_some h).mp hfind

theorem exists_setLock (h : SlotsNodup locks) (P : InstanceLock → Prop) :
    ((∃ entry ∈ setLock locks player key lock, P entry.lock) ∨
        ∃ old, findLock locks player key = some old ∧ P old) ↔
      (∃ entry ∈ locks, P entry.lock) ∨ P lock := by
  constructor
  · rintro (⟨entry, hentry, hp⟩ | ⟨old, hold, hp⟩)
    · rcases mem_setLock.mp hentry with ⟨hmem, _⟩ | rfl
      · exact .inl ⟨entry, hmem, hp⟩
      · exact .inr hp
    · exact .inl ⟨_, (findLock_eq_some h).mp hold, hp⟩
  · rintro (⟨entry, hentry, hp⟩ | hp)
    · rcases (mem_iff_find h).mp hentry with hother | ⟨hfind, _⟩
      · exact .inl ⟨entry, mem_setLock.mpr (.inl hother), hp⟩
      · exact .inr ⟨_, hfind, hp⟩
    · exact .inl ⟨_, mem_setLock.mpr (.inr rfl), hp⟩

theorem exists_eraseLock (h : SlotsNodup locks) (P : InstanceLock → Prop)
    (hfind : findLock locks player key = some lock) :
    ((∃ entry ∈ eraseLock locks player key, P entry.lock) ∨ P lock) ↔
      ∃ entry ∈ locks, P entry.lock := by
  constructor
  · rintro (⟨entry, hentry, hp⟩ | hp)
    · exact ⟨entry, (mem_eraseLock.mp hentry).1, hp⟩
    · exact ⟨_, (findLock_eq_some h).mp hfind, hp⟩
  · rintro ⟨entry, hentry, hp⟩
    by_cases hslot : entry.slot = (player, key)
    · cases entry
      cases hslot
      rw [(findLock_eq_some h).mpr hentry] at hfind
      cases hfind
      exact .inr hp
    · exact .inl ⟨entry, mem_eraseLock.mpr ⟨hentry, hslot⟩, hp⟩

theorem slot_mapLock (entry : PlayerLock) :
    (if entry.slot = (player, key) then { entry with lock := f entry.lock } else entry).slot =
      entry.slot := by
  split <;> rfl

theorem SlotsNodup.map (h : SlotsNodup locks) (player : UInt64) (key : InstanceLockKey)
    (f : InstanceLock → InstanceLock) : SlotsNodup (mapLock locks player key f) := by
  unfold SlotsNodup mapLock
  rw [map_map]
  have hslot : (PlayerLock.slot ∘ fun entry : PlayerLock =>
      if entry.slot = (player, key) then { entry with lock := f entry.lock } else entry) =
      PlayerLock.slot := funext slot_mapLock
  rw [hslot]
  exact h

/-- A property that the change does not touch. -/
theorem exists_mapLock (P : InstanceLock → Prop) (hf : ∀ lock, P (f lock) ↔ P lock) :
    (∃ entry ∈ mapLock locks player key f, P entry.lock) ↔ ∃ entry ∈ locks, P entry.lock := by
  have hlock : ∀ entry : PlayerLock,
      P (if entry.slot = (player, key) then { entry with lock := f entry.lock } else entry).lock ↔
        P entry.lock := by
    intro entry
    split
    · exact hf entry.lock
    · rfl
  simp only [mapLock, mem_map]
  constructor
  · rintro ⟨_, ⟨entry, hentry, rfl⟩, hp⟩
    exact ⟨entry, hentry, (hlock entry).mp hp⟩
  · rintro ⟨entry, hentry, hp⟩
    exact ⟨_, ⟨entry, hentry, rfl⟩, (hlock entry).mpr hp⟩

/-!
# How long shared instance data lives

The row and the registration of saved data go when the last lock goes that refers to it.
-/

def Tables.instanceIds (t : Tables) : List UInt32 := t.instances.map InstanceRow.instanceId

namespace InstanceLockMgr

variable {execute : Statement → Tables → Tables} {t : Tables} {mgr : InstanceLockMgr} {p : Pointer}
  {refs refs' : Pointer → Prop} {id id' : UInt32} {db2 : Db2Stores} {calendar : Calendar}
  {entries : MapDb2Entries} {event : InstanceLockUpdateEvent}

def written (execute : Statement → Tables → Tables) (t : Tables) (mgr : InstanceLockMgr) : Tables :=
  executeAll execute mgr.issued t

def Refers (mgr : InstanceLockMgr) (p : Pointer) : Prop :=
  (∃ entry ∈ mgr.temporaryInstanceLocksByPlayer, entry.lock.sharedData = some p) ∨
    ∃ entry ∈ mgr.instanceLocksByPlayer, entry.lock.sharedData = some p

theorem referenced_iff : mgr.referenced p = true ↔ mgr.Refers p := by
  simp only [referenced, locks, any_append, Bool.or_eq_true, any_eq_true,
    decide_eq_true_eq, Refers]

/-- The data behind these references is registered and has its rows, and no other id has one. -/
structure Lifetimes (execute : Statement → Tables → Tables) (t : Tables) (refs : Pointer → Prop)
    (mgr : InstanceLockMgr) : Prop where
  saved : ∀ {p}, refs p → (mgr.shared p).instanceId ≠ 0 →
    mgr.instanceLockDataById (mgr.shared p).instanceId = some p
  rows : ∀ id, id ∈ (mgr.written execute t).instanceIds ↔
    id ≠ 0 ∧ ∃ p, refs p ∧ (mgr.shared p).instanceId = id
  nonzero : ∀ {id p}, mgr.instanceLockDataById id = some p → id ≠ 0
  registered : ∀ {id p}, mgr.instanceLockDataById id = some p → p < mgr.next
  bounded : ∀ {p}, refs p → p < mgr.next

/-- References to data that was never saved do not count. -/
theorem Lifetimes.congr (h : Lifetimes execute t refs mgr)
    (hiff : ∀ p, (mgr.shared p).instanceId ≠ 0 → (refs' p ↔ refs p))
    (hbounded : ∀ p, refs' p → p < mgr.next) : Lifetimes execute t refs' mgr := by
  refine ⟨fun hp hid => h.saved ((hiff _ hid).mp hp) hid, fun id => ?_, h.nonzero, h.registered,
    fun hp => hbounded _ hp⟩
  rw [h.rows]
  refine and_congr_right fun hid => exists_congr fun p => ?_
  constructor
  · rintro ⟨hp, rfl⟩
    exact ⟨(hiff p hid).mpr hp, rfl⟩
  · rintro ⟨hp, rfl⟩
    exact ⟨(hiff p hid).mp hp, rfl⟩

section Execution

variable (hexecute : Executes execute)

theorem executeAll_append (l l' : List Statement) (t : Tables) :
    executeAll execute (l ++ l') t = executeAll execute l' (executeAll execute l t) :=
  foldl_append ..

include hexecute in
theorem instances_executeAll (l : List Statement) (hl : ∀ statement ∈ l, ¬ statement.OnInstances)
    (t : Tables) : (executeAll execute l t).instances = t.instances := by
  induction l generalizing t with
  | nil => rfl
  | cons statement l ih =>
    change (executeAll execute l (execute statement t)).instances = _
    rw [ih fun other hother => hl other (mem_cons_of_mem _ hother)]
    exact hexecute.instances_of_locks (hl statement (mem_cons_self ..))

include hexecute in
theorem mem_instanceIds_delInstance :
    id ∈ (execute (.delInstance id') t).instanceIds ↔ id ∈ t.instanceIds ∧ id ≠ id' := by
  rw [Tables.instanceIds, hexecute.delInstance]
  simp only [Tables.instanceIds, mem_map, mem_filter, decide_eq_true_eq]
  constructor
  · rintro ⟨row, ⟨hrow, hne⟩, rfl⟩
    exact ⟨⟨row, hrow, rfl⟩, hne⟩
  · rintro ⟨⟨row, hrow, rfl⟩, hne⟩
    exact ⟨row, ⟨hrow, hne⟩, rfl⟩

include hexecute in
theorem mem_instanceIds_replace (row : InstanceRow) :
    id ∈ (executeAll execute [.delInstance row.instanceId, .insInstance row] t).instanceIds ↔
      id ∈ t.instanceIds ∨ id = row.instanceId := by
  have hfree : row.instanceId ∉ (execute (.delInstance row.instanceId) t).instanceIds := by
    rw [mem_instanceIds_delInstance hexecute]
    exact fun hmem => hmem.2 rfl
  have hinsert := hexecute.insInstance hfree
  have hids : (executeAll execute [.delInstance row.instanceId, .insInstance row] t).instanceIds =
      (execute (.delInstance row.instanceId) t).instanceIds ++ [row.instanceId] := by
    change map InstanceRow.instanceId
      (execute (.insInstance row) (execute (.delInstance row.instanceId) t)).instances = _
    rw [hinsert, map_append]
    rfl
  rw [hids, mem_append, mem_instanceIds_delInstance hexecute, mem_singleton]
  by_cases hid : id = row.instanceId <;> simp [hid]

include hexecute in
theorem Lifetimes.release (h : Lifetimes execute t (fun x => mgr.Refers x ∨ x = p) mgr) :
    Lifetimes execute t (mgr.release p).Refers (mgr.release p) := by
  by_cases hrefers : mgr.Refers p
  · have hsame : mgr.release p = mgr := if_pos (referenced_iff.mpr hrefers)
    rw [hsame]
    refine h.congr (fun x _ => ⟨.inl, ?_⟩) fun x hx => h.bounded (.inl hx)
    rintro (hx | rfl)
    · exact hx
    · exact hrefers
  have hout : mgr.referenced p = false := by
    rw [Bool.eq_false_iff, ne_eq, referenced_iff]
    exact hrefers
  by_cases hzero : (mgr.shared p).instanceId = 0
  · have hsame : mgr.release p = mgr := by
      unfold InstanceLockMgr.release
      rw [hout, if_neg Bool.false_ne_true, if_pos hzero]
    rw [hsame]
    refine h.congr (fun x hx => ⟨.inl, ?_⟩) fun x hx => h.bounded (.inl hx)
    rintro (hmem | rfl)
    · exact hmem
    · exact absurd hzero hx
  have hregistered := h.saved (.inr rfl) hzero
  have hgone : mgr.release p = { mgr with
      instanceLockDataById :=
        update mgr.instanceLockDataById (mgr.shared p).instanceId none
      issued := mgr.issued ++ [.delInstance (mgr.shared p).instanceId] } := by
    unfold InstanceLockMgr.release onSharedInstanceLockDataDelete
    rw [hout, if_neg Bool.false_ne_true, if_neg hzero, hregistered]
    simp only [hout, Bool.false_eq_true, ↓reduceIte]
  -- no other data has the id, since only one can be registered under it
  have hother : ∀ {x}, mgr.Refers x → (mgr.shared x).instanceId ≠ (mgr.shared p).instanceId := by
    intro x hx hsame
    have hreg := h.saved (.inl hx) (hsame ▸ hzero)
    rw [hsame, hregistered] at hreg
    cases hreg
    exact hrefers hx
  have hsub : ∀ {id x}, update mgr.instanceLockDataById (mgr.shared p).instanceId none id =
      some x → mgr.instanceLockDataById id = some x := by
    intro id x hx
    by_cases hid : id = (mgr.shared p).instanceId
    · rw [hid, update_self] at hx
      cases hx
    · rwa [update_of_ne hid] at hx
  rw [hgone]
  refine ⟨fun {x} hx hid => ?_, fun id => ?_, fun hx => h.nonzero (hsub hx),
    fun hx => h.registered (hsub hx), fun hx => h.bounded (.inl hx)⟩
  · exact (update_of_ne (hother hx) ..).trans (h.saved (.inl hx) hid)
  · unfold written
    rw [executeAll_append]
    change id ∈ (execute (.delInstance (mgr.shared p).instanceId) (mgr.written execute t)).instanceIds ↔ _
    rw [mem_instanceIds_delInstance hexecute, h.rows]
    constructor
    · rintro ⟨⟨hid, x, hx | rfl, rfl⟩, hne⟩
      · exact ⟨hid, x, hx, rfl⟩
      · exact absurd rfl hne
    · rintro ⟨hid, x, hx, rfl⟩
      exact ⟨⟨hid, x, .inl hx, rfl⟩, hother hx⟩

theorem Refers.congr_locks {mgr' : InstanceLockMgr}
    (htemporary : mgr'.temporaryInstanceLocksByPlayer = mgr.temporaryInstanceLocksByPlayer)
    (hpermanent : mgr'.instanceLocksByPlayer = mgr.instanceLocksByPlayer) :
    mgr'.Refers = mgr.Refers := by
  funext p
  rw [Refers, Refers, htemporary, hpermanent]

@[simp] theorem release_temporary : (mgr.release p).temporaryInstanceLocksByPlayer =
    mgr.temporaryInstanceLocksByPlayer := by
  unfold InstanceLockMgr.release onSharedInstanceLockDataDelete
  repeat' split
  all_goals rfl

@[simp] theorem release_permanent :
    (mgr.release p).instanceLocksByPlayer = mgr.instanceLocksByPlayer := by
  unfold InstanceLockMgr.release onSharedInstanceLockDataDelete
  repeat' split
  all_goals rfl

def lastRefs (mgr : InstanceLockMgr) (old : Option InstanceLock) (x : Pointer) : Prop :=
  mgr.Refers x ∨ ∃ lock, old = some lock ∧ lock.sharedData = some x

include hexecute in
theorem Lifetimes.deleteLock {old : Option InstanceLock}
    (h : Lifetimes execute t (mgr.lastRefs old) mgr) :
    Lifetimes execute t (mgr.deleteLock old).Refers (mgr.deleteLock old) := by
  have hnone : old.bind InstanceLock.sharedData = none → Lifetimes execute t mgr.Refers mgr := by
    intro hold
    refine h.congr (fun x _ => ⟨.inl, ?_⟩) fun x hx => h.bounded (.inl hx)
    rintro (hx | ⟨lock, rfl, hlock⟩)
    · exact hx
    · rw [Option.bind_some, hlock] at hold
      cases hold
  unfold InstanceLockMgr.deleteLock
  cases hold : old.bind InstanceLock.sharedData with
  | none => exact hnone hold
  | some p =>
    obtain ⟨lock, rfl, hlock⟩ := Option.bind_eq_some_iff.mp hold
    have hrefs : ∀ x, mgr.Refers x ∨ x = p ↔ mgr.lastRefs (some lock) x := by
      intro x
      refine or_congr_right ⟨?_, ?_⟩
      · rintro rfl
        exact ⟨lock, rfl, hlock⟩
      · rintro ⟨other, hother, hx⟩
        cases hother
        rw [hlock] at hx
        exact (Option.some.inj hx).symm
    exact (h.congr (fun x _ => hrefs x) fun x hx => h.bounded ((hrefs x).mp hx)).release hexecute

/-- The manager keeps shared data exactly as long as it should. -/
structure WellKept (execute : Statement → Tables → Tables) (t : Tables) (mgr : InstanceLockMgr) :
    Prop where
  temporary : SlotsNodup mgr.temporaryInstanceLocksByPlayer
  permanent : SlotsNodup mgr.instanceLocksByPlayer
  lifetimes : Lifetimes execute t mgr.Refers mgr

def withLock (mgr : InstanceLockMgr) (lock : InstanceLock) (x : Pointer) : Prop :=
  mgr.Refers x ∨ lock.sharedData = some x

include hexecute in
/-- A new lock is in its map, and the one that was there is deleted. -/
theorem Lifetimes.reset {temporary permanent : List PlayerLock} {old : Option InstanceLock}
    (htemporary : SlotsNodup temporary) (hpermanent : SlotsNodup permanent)
    (hrefs : ∀ x, { mgr with
        temporaryInstanceLocksByPlayer := temporary
        instanceLocksByPlayer := permanent }.lastRefs old x ↔ mgr.withLock lock x)
    (h : Lifetimes execute t (mgr.withLock lock) mgr) :
    WellKept execute t ({ mgr with
      temporaryInstanceLocksByPlayer := temporary
      instanceLocksByPlayer := permanent }.deleteLock old) := by
  refine ⟨?_, ?_, Lifetimes.deleteLock hexecute ?_⟩
  · unfold InstanceLockMgr.deleteLock
    split
    · exact htemporary
    · rwa [release_temporary]
  · unfold InstanceLockMgr.deleteLock
    split
    · exact hpermanent
    · rwa [release_permanent]
  · exact Lifetimes.congr ⟨h.saved, h.rows, h.nonzero, h.registered, h.bounded⟩
      (fun x _ => hrefs x) fun x hx => h.bounded ((hrefs x).mp hx)

include hexecute in
theorem Lifetimes.resetTemporary (htemporary : SlotsNodup mgr.temporaryInstanceLocksByPlayer)
    (hpermanent : SlotsNodup mgr.instanceLocksByPlayer)
    (h : Lifetimes execute t (mgr.withLock lock) mgr) :
    WellKept execute t (mgr.resetTemporary player key lock) := by
  refine h.reset hexecute (htemporary.set ..) hpermanent fun x => ?_
  unfold lastRefs withLock Refers
  rw [or_right_comm, exists_setLock htemporary fun lock => lock.sharedData = some x, or_right_comm]

include hexecute in
theorem Lifetimes.resetPermanent (htemporary : SlotsNodup mgr.temporaryInstanceLocksByPlayer)
    (hpermanent : SlotsNodup mgr.instanceLocksByPlayer)
    (h : Lifetimes execute t (mgr.withLock lock) mgr) :
    WellKept execute t (mgr.resetPermanent player key lock) := by
  refine h.reset hexecute htemporary (hpermanent.set ..) fun x => ?_
  unfold lastRefs withLock Refers
  rw [or_assoc, exists_setLock hpermanent fun lock => lock.sharedData = some x, or_assoc]

end Execution

end InstanceLockMgr

end LegionServer.Source.Instances
