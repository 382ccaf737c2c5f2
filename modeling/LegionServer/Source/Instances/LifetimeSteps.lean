import LegionServer.Source.Instances.SharedLifetimes

/-!
# Lifetimes through the operations

Each operation of the manager keeps shared data exactly as long as some lock refers to it; an id
may be given to a new instance once no lock uses it.
-/
namespace LegionServer.Source.Instances
open Library Function

namespace InstanceLockMgr

variable {execute : Statement → Tables → Tables} {t : Tables} {mgr mgr' : InstanceLockMgr}
  {p : Pointer} {id : UInt32} {player : UInt64} {key : InstanceLockKey} {lock : InstanceLock}
  {db2 : Db2Stores} {calendar : Calendar} {entries : MapDb2Entries}
  {event : InstanceLockUpdateEvent} {f : InstanceLock → InstanceLock}

/-- No lock has the id or refers to data that was saved under it. -/
def Unused (mgr : InstanceLockMgr) (id : UInt32) : Prop :=
  ∀ entry ∈ mgr.locks, entry.lock.instanceId ≠ id ∧
    ∀ p, entry.lock.sharedData = some p → (mgr.shared p).instanceId ≠ id

theorem Unused.saved_ne (h : mgr.Unused id) (hp : mgr.Refers p) : (mgr.shared p).instanceId ≠ id := by
  rcases hp with ⟨entry, hentry, hp⟩ | ⟨entry, hentry, hp⟩
  · exact (h entry (List.mem_append_left _ hentry)).2 p hp
  · exact (h entry (List.mem_append_right _ hentry)).2 p hp

theorem refers_modifyPermanent (hf : ∀ lock, (f lock).sharedData = lock.sharedData) :
    (mgr.modifyPermanent player key f).Refers = mgr.Refers := by
  funext p
  unfold Refers modifyPermanent
  rw [exists_mapLock (fun lock => lock.sharedData = some p) fun lock => by rw [hf]]

theorem WellKept.modifyPermanent (h : WellKept execute t mgr)
    (hf : ∀ lock, (f lock).sharedData = lock.sharedData) :
    WellKept execute t (mgr.modifyPermanent player key f) := by
  refine ⟨h.temporary, h.permanent.map .., ?_⟩
  rw [refers_modifyPermanent hf]
  exact ⟨h.lifetimes.saved, h.lifetimes.rows, h.lifetimes.nonzero, h.lifetimes.registered,
    h.lifetimes.bounded⟩

theorem WellKept.setInUse (h : WellKept execute t mgr) (inUse : Bool) :
    WellKept execute t (mgr.setInUse player key inUse) := by
  have hrefers : (mgr.setInUse player key inUse).Refers = mgr.Refers := by
    funext p
    have hset : ∀ lock : InstanceLock, (lock.setInUse inUse).sharedData = some p ↔
        lock.sharedData = some p := fun _ => Iff.rfl
    exact propext (or_congr (exists_mapLock (fun lock => lock.sharedData = some p) hset)
      (exists_mapLock (fun lock => lock.sharedData = some p) hset))
  refine ⟨h.temporary.map player key (·.setInUse inUse),
    h.permanent.map player key (·.setInUse inUse), ?_⟩
  rw [hrefers]
  exact ⟨h.lifetimes.saved, h.lifetimes.rows, h.lifetimes.nonzero, h.lifetimes.registered,
    h.lifetimes.bounded⟩

theorem Lifetimes.withLock (h : Lifetimes execute t mgr.Refers mgr)
    (hlock : ∀ p, lock.sharedData = some p → mgr.Refers p) :
    Lifetimes execute t (mgr.withLock lock) mgr :=
  h.congr (fun x _ => or_iff_left_of_imp (hlock x)) fun x hx => h.bounded (hx.elim id (hlock x))

section Steps

variable (hexecute : Executes execute)

include hexecute

theorem WellKept.issue (h : WellKept execute t mgr) {l : List Statement}
    (hl : ∀ statement ∈ l, ¬ statement.OnInstances) : WellKept execute t (mgr.issue l) := by
  refine ⟨h.temporary, h.permanent, h.lifetimes.saved, fun id => ?_, h.lifetimes.nonzero,
    h.lifetimes.registered, h.lifetimes.bounded⟩
  refine Iff.trans ?_ (h.lifetimes.rows id)
  unfold written InstanceLockMgr.issue Tables.instanceIds
  rw [executeAll_append, instances_executeAll hexecute l hl]

theorem WellKept.resetPermanent (h : WellKept execute t mgr)
    (hlock : ∀ p, lock.sharedData = some p → mgr.Refers p) :
    WellKept execute t (mgr.resetPermanent player key lock) :=
  (h.lifetimes.withLock hlock).resetPermanent hexecute h.temporary h.permanent

theorem WellKept.create (h : WellKept execute t mgr)
    (hfree : entries.isInstanceIdBound = true → id ≠ 0 ∧ mgr.Unused id) :
    WellKept execute t (mgr.createInstanceLockForNewInstance calendar player entries id) := by
  unfold createInstanceLockForNewInstance
  by_cases hreset : entries.hasResetSchedule = false
  · rw [if_pos hreset]
    exact h
  rw [if_neg hreset]
  by_cases hbound : entries.isInstanceIdBound = true
  · rw [if_pos hbound]
    obtain ⟨hid, hunused⟩ := hfree hbound
    have hlife := h.lifetimes
    have hshared : ∀ {x}, mgr.Refers x →
        update mgr.shared mgr.next {} x = mgr.shared x := fun {x} hx =>
      update_of_ne (Nat.ne_of_lt (hlife.bounded hx)) ..
    refine Lifetimes.resetTemporary hexecute h.temporary h.permanent ?_
    refine @Lifetimes.congr execute t _ mgr.Refers _ ⟨?_, ?_, ?_, ?_, ?_⟩ ?_ ?_
    · intro x hx hne
      simp only [hshared hx] at hne ⊢
      rw [update_of_ne (hunused.saved_ne hx)]
      exact hlife.saved hx hne
    · intro other
      refine (hlife.rows other).trans (and_congr_right fun _ => exists_congr fun x => ?_)
      refine and_congr_right fun hx => ?_
      change _ ↔ (update mgr.shared mgr.next {} x).instanceId = other
      rw [hshared hx]
    · intro other x hx
      by_cases hother : other = id
      · exact hother ▸ hid
      · exact hlife.nonzero ((update_of_ne hother ..).symm.trans hx)
    · intro other x hx
      by_cases hother : other = id
      · simp only [hother, update_self] at hx
        cases hx
        exact Nat.lt_succ_self _
      · have hreg := (update_of_ne hother ..).symm.trans hx
        exact Nat.lt_succ_of_lt (hlife.registered hreg)
    · exact fun hx => Nat.lt_succ_of_lt (hlife.bounded hx)
    · intro x hx
      refine or_iff_left_of_imp fun hnew => ?_
      cases hnew
      simp at hx
    · rintro x (hx | hnew)
      · exact Nat.lt_succ_of_lt (hlife.bounded hx)
      · cases hnew
        exact Nat.lt_succ_self _
  · rw [if_neg hbound]
    exact (h.lifetimes.withLock fun p hp => by cases hp).resetTemporary hexecute h.temporary
      h.permanent

theorem WellKept.promote (h : WellKept execute t mgr) :
    WellKept execute t (mgr.promote player entries).1 := by
  unfold InstanceLockMgr.promote
  cases hfind : findInstanceLock mgr.temporaryInstanceLocksByPlayer player entries with
  | none => exact h
  | some lock =>
    have hrefs : ∀ x, { mgr with
        temporaryInstanceLocksByPlayer :=
          eraseLock mgr.temporaryInstanceLocksByPlayer player entries.getKey }.withLock lock x ↔
        mgr.Refers x := by
      intro x
      unfold InstanceLockMgr.withLock Refers
      rw [or_right_comm, exists_eraseLock h.temporary (fun lock => lock.sharedData = some x) hfind]
    refine Lifetimes.resetPermanent hexecute (h.temporary.erase ..) h.permanent ?_
    have hlife := h.lifetimes
    exact Lifetimes.congr ⟨hlife.saved, hlife.rows, hlife.nonzero, hlife.registered, hlife.bounded⟩
      (fun x _ => hrefs x) fun x hx => hlife.bounded ((hrefs x).mp hx)

omit hexecute in
/-- What an update of shared data can do. -/
theorem updateShared_cases (hstep : mgr.updateSharedInstanceLock event = .ok mgr') :
    ∃ p, mgr.instanceLockDataById event.instanceId = some p ∧ mgr.Refers p ∧
      ((mgr.shared p).instanceId = 0 ∨ (mgr.shared p).instanceId = event.instanceId) ∧
      mgr' = { mgr with
        shared := Function.update mgr.shared p (updatedShared event (mgr.shared p)) }.issue
        [.delInstance event.instanceId, .insInstance (instanceRow (updatedShared event (mgr.shared p)))] := by
  unfold updateSharedInstanceLock at hstep
  cases hreg : mgr.instanceLockDataById event.instanceId with
  | none =>
    rw [hreg] at hstep
    cases hstep
  | some p =>
    rw [hreg] at hstep
    by_cases href : mgr.referenced p = false
    · simp only [href, ↓reduceIte] at hstep
      cases hstep
    by_cases hid : (mgr.shared p).instanceId ≠ 0 ∧ (mgr.shared p).instanceId ≠ event.instanceId
    · simp only [if_neg href, if_pos hid] at hstep
      cases hstep
    simp only [if_neg href, if_neg hid] at hstep
    cases hstep
    refine ⟨p, rfl, referenced_iff.mp (by simpa using href), ?_, rfl⟩
    by_contra hcon
    exact hid (not_or.mp hcon)

theorem WellKept.updateShared (h : WellKept execute t mgr)
    (hstep : mgr.updateSharedInstanceLock event = .ok mgr') : WellKept execute t mgr' := by
  obtain ⟨p, hreg, hrefers, hid, rfl⟩ := updateShared_cases hstep
  have hlife := h.lifetimes
  have hne := hlife.nonzero hreg
  refine ⟨h.temporary, h.permanent, ?_, ?_, hlife.nonzero, hlife.registered, hlife.bounded⟩
  · intro x hx hsaved
    change (update mgr.shared p _ x).instanceId ≠ 0 at hsaved
    change mgr.instanceLockDataById (update mgr.shared p _ x).instanceId = some x
    by_cases hxp : x = p
    · subst hxp
      rw [update_self]
      exact hreg
    · rw [update_of_ne hxp] at hsaved ⊢
      exact hlife.saved hx hsaved
  · intro id
    unfold written InstanceLockMgr.issue
    rw [executeAll_append]
    refine (mem_instanceIds_replace hexecute (instanceRow (updatedShared event (mgr.shared p)))).trans ?_
    change id ∈ (mgr.written execute t).instanceIds ∨ id = event.instanceId ↔ id ≠ 0 ∧ ∃ x,
      mgr.Refers x ∧ (update mgr.shared p (updatedShared event (mgr.shared p)) x).instanceId = id
    rw [hlife.rows]
    constructor
    · rintro (⟨hzero, x, hx, hsaved⟩ | rfl)
      · refine ⟨hzero, x, hx, ?_⟩
        by_cases hxp : x = p
        · subst hxp
          rw [update_self]
          exact (hid.resolve_left fun hunsaved => hzero (hsaved.symm.trans hunsaved)).symm.trans hsaved
        · rw [update_of_ne hxp]
          exact hsaved
      · exact ⟨hne, p, hrefers, congrArg _ (update_self ..)⟩
    · rintro ⟨hzero, x, hx, hsaved⟩
      by_cases hxp : x = p
      · subst hxp
        rw [update_self] at hsaved
        exact .inr hsaved.symm
      · rw [update_of_ne hxp] at hsaved
        exact .inl ⟨hzero, x, hx, hsaved⟩

theorem WellKept.locate (h : WellKept execute t mgr) :
    WellKept execute t (mgr.locateLock calendar player entries).1 := by
  unfold locateLock
  split
  · exact h
  · exact h.promote hexecute

/-- A lock for the data under the id of the event, which some lock refers to. -/
theorem WellKept.bind (h : WellKept execute t mgr) {found : Option InstanceLock}
    (hstep : mgr.bindLock calendar player entries event found = .ok (mgr', lock)) :
    WellKept execute t mgr' := by
  unfold bindLock at hstep
  split at hstep
  · split at hstep
    · split at hstep
      · cases hstep
      · rename_i p _
        by_cases href : mgr.referenced p = false
        · rw [if_pos href] at hstep
          cases hstep
        rw [if_neg href] at hstep
        split at hstep
        · cases hstep
        cases hstep
        refine h.resetPermanent hexecute ?_
        intro x hx
        cases hx
        exact referenced_iff.mp (by simpa using href)
    · cases hstep
      exact h.resetPermanent hexecute fun x hx => by cases hx
  · have hmodified : WellKept execute t
        (mgr.modifyPermanent player entries.getKey (·.setInstanceId event.instanceId)) :=
      h.modifyPermanent fun _ => rfl
    split at hstep
    · split at hstep
      · cases hstep
      · split at hstep
        · cases hstep
        · split at hstep
          · cases hstep
            exact hmodified
          · cases hstep
    · cases hstep
      exact hmodified

omit hexecute in
theorem sharedData_updatedLock :
    (updatedLock calendar entries event lock).sharedData = lock.sharedData := by
  unfold updatedLock
  dsimp only
  repeat' split
  all_goals rfl

theorem WellKept.updatePlayer (h : WellKept execute t mgr)
    (hstep : mgr.updateInstanceLockForPlayer calendar player entries event = .ok mgr') :
    WellKept execute t mgr' := by
  unfold updateInstanceLockForPlayer at hstep
  have hlocated : WellKept execute t (mgr.locateLock calendar player entries).1 :=
    h.locate hexecute
  generalize mgr.locateLock calendar player entries = located at hstep hlocated
  obtain ⟨mgr₀, found⟩ := located
  cases hbind : mgr₀.bindLock calendar player entries event found with
  | error fault =>
    simp only [hbind] at hstep
    cases hstep
  | ok bound =>
    obtain ⟨mgr₁, lock⟩ := bound
    simp only [hbind] at hstep
    cases hstep
    have hmodified : WellKept execute t (mgr₁.modifyPermanent player entries.getKey
        (updatedLock calendar entries event)) :=
      (hlocated.bind hexecute hbind).modifyPermanent fun _ => sharedData_updatedLock
    exact hmodified.issue hexecute (by simp [Statement.OnInstances])

theorem WellKept.extend (h : WellKept execute t mgr) {extended : Bool}
    {times : Option (Int64 × Int64)}
    (hstep : mgr.updateInstanceLockExtensionForPlayer db2 calendar player entries extended =
      .ok (mgr', times)) :
    WellKept execute t mgr' := by
  unfold updateInstanceLockExtensionForPlayer at hstep
  cases hactive : mgr.findActiveInstanceLock calendar player entries true false with
  | none =>
    rw [hactive] at hstep
    cases hstep
    exact h
  | some lock =>
    cases hold : lock.getEffectiveExpiryTime db2 calendar with
    | error fault =>
      rw [hactive] at hstep
      simp only [hold] at hstep
      cases hstep
    | ok oldTime =>
      cases hnew : (lock.setExtended extended).getEffectiveExpiryTime db2 calendar with
      | error fault =>
        rw [hactive] at hstep
        simp only [hold, hnew] at hstep
        cases hstep
      | ok newTime =>
        rw [hactive] at hstep
        simp only [hold, hnew] at hstep
        cases hstep
        have hmodified : WellKept execute t
            (mgr.modifyPermanent player entries.getKey (·.setExtended extended)) :=
          h.modifyPermanent fun _ => rfl
        exact hmodified.issue hexecute (by simp [Statement.OnInstances])

theorem WellKept.forceExpire (h : WellKept execute t mgr) {entry : PlayerLock}
    (hstep : forceExpire db2 calendar player mgr entry = .ok mgr') : WellKept execute t mgr' := by
  unfold InstanceLockMgr.forceExpire at hstep
  split at hstep
  · cases hstep
  · cases hstep
    refine WellKept.issue hexecute (h.modifyPermanent ?_) ?_
    · exact fun _ => rfl
    · simp [Statement.OnInstances]

omit hexecute in
/-- What each lock that is reset keeps, the whole reset keeps. -/
theorem reset_induction {P : InstanceLockMgr → Prop} {mapId : Option UInt32}
    {difficulty : Option UInt8} {locksReset locksFailedToReset : List PlayerLock}
    (hone : ∀ {mgr mgr' entry}, P mgr →
      InstanceLockMgr.forceExpire db2 calendar player mgr entry = .ok mgr' → P mgr')
    (h : P mgr)
    (hstep : mgr.resetInstanceLocksForPlayer db2 calendar player mapId difficulty =
      .ok (mgr', locksReset, locksFailedToReset)) : P mgr' := by
  have hfold : ∀ (l : List PlayerLock) (mgr : InstanceLockMgr), P mgr →
      l.foldlM (InstanceLockMgr.forceExpire db2 calendar player) mgr = .ok mgr' → P mgr' := by
    intro l
    induction l with
    | nil =>
      intro mgr hp hrun
      cases hrun
      exact hp
    | cons entry l ih =>
      intro mgr hp hrun
      rw [List.foldlM_cons] at hrun
      cases hnext : InstanceLockMgr.forceExpire db2 calendar player mgr entry with
      | error fault =>
        rw [hnext] at hrun
        cases hrun
      | ok next =>
        rw [hnext] at hrun
        exact ih next (hone hp hnext) hrun
  unfold resetInstanceLocksForPlayer at hstep
  cases hrun : ((mgr.instanceLocksByPlayer.filter (·.player = player)).filter
      (isReset calendar mapId difficulty ·.lock)).foldlM
      (InstanceLockMgr.forceExpire db2 calendar player) mgr with
  | error fault =>
    simp only [hrun] at hstep
    cases hstep
  | ok next =>
    simp only [hrun] at hstep
    cases hstep
    exact hfold _ mgr h hrun

theorem WellKept.reset (h : WellKept execute t mgr) {mapId : Option UInt32}
    {difficulty : Option UInt8} {locksReset locksFailedToReset : List PlayerLock}
    (hstep : mgr.resetInstanceLocksForPlayer db2 calendar player mapId difficulty =
      .ok (mgr', locksReset, locksFailedToReset)) :
    WellKept execute t mgr' :=
  reset_induction (fun hkept hone => hkept.forceExpire hexecute hone) h hstep

end Steps

end InstanceLockMgr

end LegionServer.Source.Instances
