import LegionServer.Source.Combat.ThreatManager

/-!
# Where threat references are stored

The invariant of all threat managers together, kept by the four changes that threat operations are
made of.
-/
namespace LegionServer.Source.Combat
open Library Function AList

namespace ThreatWorld

variable {U H : Type*} [DecidableEq U] {q : PriorityQueue RefId SortKey H}
  {may may' : Bool → SortKey → SortKey → Prop} {w w' w'' : ThreatWorld U H} {a v : U}
  {id : RefId}

/-- A live reference is on the list and in the heap of its owner and on the
threatened-by-me list of its victim, and nothing else is on these; victim and
fixated target of a unit are on its list. -/
structure ThreatOk (q : PriorityQueue RefId SortKey H) (w : ThreatWorld U H) : Prop where
  stored : ∀ {a v id}, (w.entries a).lookup v = some id →
    w.live id = true ∧ (w.ref id).owner = a ∧ (w.ref id).victim = v
  listed : ∀ {id}, w.live id = true → (w.entries (w.ref id).owner).lookup (w.ref id).victim = some id
  heaped : ∀ a, (q.elements (w.heap a)).Perm ((w.entries a).entries.map Sigma.snd)
  threatened : ∀ {a v id}, (w.threatenedByMe v).lookup a = some id ↔
    (w.entries a).lookup v = some id
  current : ∀ {a id}, (w.manager a).currentVictimRef = some id →
    ∃ v, (w.entries a).lookup v = some id
  fixate : ∀ {a id}, (w.manager a).fixateRef = some id → ∃ v, (w.entries a).lookup v = some id
  fresh : ∀ {id}, w.live id = true → id < w.nextRef
  base : ∀ {id}, w.live id = true → 0 ≤ (w.ref id).baseAmount

structure Freed (q : PriorityQueue RefId SortKey H) (w w' : ThreatWorld U H) (a v : U)
    (id : RefId) : Prop where
  entries : ∀ x, w'.entries x = if x = a then (w.entries a).erase v else w.entries x
  threatened : ∀ x, w'.threatenedByMe x =
    if x = v then (w.threatenedByMe v).erase a else w.threatenedByMe x
  heap : ∀ x, w'.heap x = if x = a then q.erase w.sortKeys (w.heap a) id else w.heap x
  current : ∀ x, (w'.manager x).currentVictimRef =
    if x = a ∧ (w.manager a).currentVictimRef = some id then none
    else (w.manager x).currentVictimRef
  fixate : ∀ x, (w'.manager x).fixateRef =
    if x = a ∧ (w.manager a).fixateRef = some id then none else (w.manager x).fixateRef
  ref : w'.ref = w.ref
  live : w'.live = Function.update w.live id false
  nextRef : w'.nextRef = w.nextRef
  seen : w'.seen = w.seen
  notifications : w'.notifications = w.notifications

structure Inserted (q : PriorityQueue RefId SortKey H) (w w' : ThreatWorld U H) (a v : U) :
    Prop where
  isNew : (w.entries a).lookup v = none
  isNewThreatened : (w.threatenedByMe v).lookup a = none
  entries : ∀ x, w'.entries x = if x = a then (w.entries a).insert v w.nextRef else w.entries x
  threatened : ∀ x, w'.threatenedByMe x =
    if x = v then (w.threatenedByMe v).insert a w.nextRef else w.threatenedByMe x
  heap : ∀ x, w'.heap x = if x = a then q.push w'.sortKeys (w.heap a) w.nextRef else w.heap x
  current : ∀ x, (w'.manager x).currentVictimRef = (w.manager x).currentVictimRef
  fixate : ∀ x, (w'.manager x).fixateRef = (w.manager x).fixateRef
  ref : w'.ref = Function.update w.ref w.nextRef { owner := a, victim := v }
  live : w'.live = Function.update w.live w.nextRef true
  nextRef : w'.nextRef = w.nextRef + 1
  seen : w'.seen = Function.update w.seen w.nextRef (w'.sortKeys w.nextRef)
  notifications : w'.notifications = w.notifications

inductive Change (q : PriorityQueue RefId SortKey H) (may : Bool → SortKey → SortKey → Prop) :
    ThreatWorld U H → ThreatWorld U H → Prop
  | notify {w : ThreatWorld U H} {id : RefId} {ref : ThreatReference U} (increased : Bool)
      (live : w.live id = true) (owner : ref.owner = (w.ref id).owner)
      (victim : ref.victim = (w.ref id).victim) (base : 0 ≤ ref.baseAmount)
      (direction : may increased (w.ref id).sortKey ref.sortKey) :
      Change q may w ((w.setRef id ref).heapNotify q increased id)
  | manage {w : ThreatWorld U H} {a : U} {manager : ThreatManager U H}
      (heap : manager.sortedThreatList = w.heap a)
      (entries : manager.myThreatListEntries = w.entries a)
      (threatened : manager.threatenedByMe = w.threatenedByMe a)
      (current : ∀ {id}, manager.currentVictimRef = some id → ∃ v, (w.entries a).lookup v = some id)
      (fixate : ∀ {id}, manager.fixateRef = some id → ∃ v, (w.entries a).lookup v = some id) :
      Change q may w (w.setManager a manager)
  | insert {w w' : ThreatWorld U H} {a v : U} (inserted : Inserted q w w' a v) : Change q may w w'
  | free {w : ThreatWorld U H} {id : RefId} (live : w.live id = true) :
      Change q may w (w.unregisterAndFree q id)

theorem Change.mono (h : Change q may w w')
    (hmay : ∀ increased before after, may increased before after → may' increased before after) :
    Change q may' w w' := by
  cases h with
  | notify increased live owner victim base direction =>
    exact .notify increased live owner victim base (hmay _ _ _ direction)
  | manage heap entries threatened current fixate =>
    exact .manage heap entries threatened current fixate
  | insert inserted => exact .insert inserted
  | free live => exact .free live

@[simp] theorem manager_setManager_self (w : ThreatWorld U H) (a : U) (manager : ThreatManager U H) :
    (w.setManager a manager).manager a = manager := by
  simp [setManager]

theorem manager_setManager (w : ThreatWorld U H) (a x : U) (manager : ThreatManager U H) :
    (w.setManager a manager).manager x = if x = a then manager else w.manager x := by
  simp [setManager, update_apply]

variable {manager : ThreatManager U H}

/-- A field of the managers that a change of one of them does not touch. -/
theorem field_setManager {α : Type*} (field : ThreatManager U H → α)
    (hsame : field manager = field (w.manager a)) (x : U) :
    field ((w.setManager a manager).manager x) = field (w.manager x) := by
  rw [manager_setManager]
  split
  · rename_i heq
    rw [heq, hsame]
  · rfl

theorem ThreatOk.notify (hq : q.Contents) (h : ThreatOk q w) {ref : ThreatReference U}
    (increased : Bool) (owner : ref.owner = (w.ref id).owner)
    (victim : ref.victim = (w.ref id).victim) (base : 0 ≤ ref.baseAmount) :
    ThreatOk q ((w.setRef id ref).heapNotify q increased id) := by
  set w' := (w.setRef id ref).heapNotify q increased id with hw'
  have hentries : ∀ x, w'.entries x = w.entries x :=
    field_setManager (w := w.setRef id ref) ThreatManager.myThreatListEntries rfl
  have hthreatened : ∀ x, w'.threatenedByMe x = w.threatenedByMe x :=
    field_setManager (w := w.setRef id ref) ThreatManager.threatenedByMe rfl
  have hcurrent : ∀ x, (w'.manager x).currentVictimRef = (w.manager x).currentVictimRef :=
    field_setManager (w := w.setRef id ref) ThreatManager.currentVictimRef rfl
  have hfixate : ∀ x, (w'.manager x).fixateRef = (w.manager x).fixateRef :=
    field_setManager (w := w.setRef id ref) ThreatManager.fixateRef rfl
  have hheap : ∀ x, (q.elements (w'.heap x)).Perm (q.elements (w.heap x)) := by
    intro x
    rw [hw', heapNotify]
    simp only [heap, manager_setManager]
    split
    · rename_i heq
      subst heq
      cases increased with
      | true => exact hq.elements_increase _ _ _
      | false => exact hq.elements_decrease _ _ _
    · exact .refl _
  have howner : ∀ x, (w'.ref x).owner = (w.ref x).owner := by
    intro x
    by_cases heq : x = id
    · subst heq
      simpa [hw', heapNotify, setManager, setRef] using owner
    · simp [hw', heapNotify, setManager, setRef, heq]
  have hvictim : ∀ x, (w'.ref x).victim = (w.ref x).victim := by
    intro x
    by_cases heq : x = id
    · subst heq
      simpa [hw', heapNotify, setManager, setRef] using victim
    · simp [hw', heapNotify, setManager, setRef, heq]
  constructor
  · intro x y id' hlookup
    rw [hentries] at hlookup
    rw [howner, hvictim]
    exact h.stored hlookup
  · intro id' hlive
    rw [hentries, howner, hvictim]
    exact h.listed hlive
  · intro x
    rw [hentries]
    exact (hheap x).trans (h.heaped x)
  · intro x y id'
    rw [hentries, hthreatened]
    exact h.threatened
  · intro x id' hid
    rw [hcurrent] at hid
    simpa only [hentries] using h.current hid
  · intro x id' hid
    rw [hfixate] at hid
    simpa only [hentries] using h.fixate hid
  · exact h.fresh
  · intro id' hlive
    by_cases heq : id' = id
    · subst heq
      simpa [hw', heapNotify, setManager, setRef] using base
    · simpa [hw', heapNotify, setManager, setRef, heq] using h.base hlive

theorem ThreatOk.manage (h : ThreatOk q w) (heap : manager.sortedThreatList = w.heap a)
    (entries : manager.myThreatListEntries = w.entries a)
    (threatened : manager.threatenedByMe = w.threatenedByMe a)
    (current : ∀ {id}, manager.currentVictimRef = some id → ∃ v, (w.entries a).lookup v = some id)
    (fixate : ∀ {id}, manager.fixateRef = some id → ∃ v, (w.entries a).lookup v = some id) :
    ThreatOk q (w.setManager a manager) := by
  have hentries : ∀ x, (w.setManager a manager).entries x = w.entries x :=
    field_setManager ThreatManager.myThreatListEntries entries
  have hthreatened : ∀ x, (w.setManager a manager).threatenedByMe x = w.threatenedByMe x :=
    field_setManager ThreatManager.threatenedByMe threatened
  have hheap : ∀ x, (w.setManager a manager).heap x = w.heap x :=
    field_setManager ThreatManager.sortedThreatList heap
  constructor
  · intro x y id' hlookup
    rw [hentries] at hlookup
    exact h.stored hlookup
  · intro id' hlive
    rw [hentries]
    exact h.listed hlive
  · intro x
    rw [hentries, hheap]
    exact h.heaped x
  · intro x y id'
    rw [hentries, hthreatened]
    exact h.threatened
  · intro x id' hid
    rw [hentries]
    rw [manager_setManager] at hid
    split at hid
    · rename_i heq
      subst heq
      exact current hid
    · exact h.current hid
  · intro x id' hid
    rw [hentries]
    rw [manager_setManager] at hid
    split at hid
    · rename_i heq
      subst heq
      exact fixate hid
    · exact h.fixate hid
  · exact h.fresh
  · exact h.base

theorem ThreatOk.freed (h : ThreatOk q w) (hlive : w.live id = true) :
    Freed q w (w.unregisterAndFree q id) (w.ref id).owner (w.ref id).victim id := by
  have hlookup : (w.manager (w.ref id).owner).myThreatListEntries.lookup (w.ref id).victim =
    some id := h.listed hlive
  simp only [unregisterAndFree, purgeThreatListRef, hlookup, purgeThreatenedByMeRef]
  constructor
  · intro x
    simp only [ThreatWorld.entries, manager_setManager]
    split_ifs <;> simp_all
  · intro x
    simp only [ThreatWorld.threatenedByMe, manager_setManager]
    split_ifs <;> simp_all
  · intro x
    simp only [ThreatWorld.heap, manager_setManager]
    split_ifs <;> simp_all
  · intro x
    simp only [manager_setManager]
    split_ifs <;> simp_all
  · intro x
    simp only [manager_setManager]
    split_ifs <;> simp_all
  · rfl
  · rfl
  · rfl
  · rfl
  · rfl

theorem Freed.lookup (h : Freed q w w' a v id) (x y : U) :
    (w'.entries x).lookup y = if x = a ∧ y = v then none else (w.entries x).lookup y := by
  rw [h.entries]
  by_cases hx : x = a
  · subst hx
    by_cases hy : y = v
    · subst hy
      simp
    · simp [hy, lookup_erase_ne]
  · simp [hx]

theorem Freed.lookup_threatened (h : Freed q w w' a v id) (x y : U) :
    (w'.threatenedByMe y).lookup x =
      if x = a ∧ y = v then none else (w.threatenedByMe y).lookup x := by
  rw [h.threatened]
  by_cases hy : y = v
  · subst hy
    by_cases hx : x = a
    · subst hx
      simp
    · simp [hx, lookup_erase_ne]
  · simp [hy]

variable {x y : U}

theorem ThreatOk.left (h : ThreatOk q w) (hfreed : Freed q w w' a v id)
    (howner : (w.ref id).owner = a) (hvictim : (w.ref id).victim = v) {id' : RefId}
    (hlookup : (w'.entries x).lookup y = some id') :
    (w.entries x).lookup y = some id' ∧ id' ≠ id := by
  rw [hfreed.lookup] at hlookup
  split at hlookup
  · cases hlookup
  rename_i hother
  refine ⟨hlookup, ?_⟩
  rintro rfl
  obtain ⟨_, hx, hy⟩ := h.stored hlookup
  exact hother ⟨hx.symm.trans howner, hy.symm.trans hvictim⟩

theorem Freed.stays (hfreed : Freed q w w' a v id) (hid : (w.entries a).lookup v = some id)
    {id' : RefId} (hne : id' ≠ id) (hlookup : (w.entries x).lookup y = some id') :
    (w'.entries x).lookup y = some id' := by
  rw [hfreed.lookup, if_neg]
  · exact hlookup
  · rintro ⟨rfl, rfl⟩
    exact hne (Option.some.inj (hlookup.symm.trans hid))

theorem ThreatOk.free (hq : q.Contents) (h : ThreatOk q w) (hlive : w.live id = true) :
    ThreatOk q (w.unregisterAndFree q id) := by
  have hfreed := h.freed hlive
  have hid := h.listed hlive
  set w' := w.unregisterAndFree q id with hw'
  have hlive_of : ∀ {id'}, w'.live id' = true → w.live id' = true ∧ id' ≠ id := by
    intro id' hlive'
    rw [hfreed.live, update_apply] at hlive'
    split at hlive'
    · cases hlive'
    · rename_i hne
      exact ⟨hlive', hne⟩
  constructor
  · intro x y id' hlookup
    obtain ⟨hold, hne⟩ := h.left hfreed rfl rfl hlookup
    rw [hfreed.ref, hfreed.live, update_of_ne hne]
    exact h.stored hold
  · intro id' hlive'
    obtain ⟨hold, hne⟩ := hlive_of hlive'
    rw [hfreed.ref]
    exact hfreed.stays hid hne (h.listed hold)
  · intro x
    rw [hfreed.heap, hfreed.entries]
    split
    · have hall := (h.heaped (w.ref id).owner).trans ((entries_erase hid).map Sigma.snd)
      exact (hq.elements_erase _ _ _).trans (by simpa using hall.erase id)
    · exact h.heaped x
  · intro x y id'
    rw [hfreed.lookup, hfreed.lookup_threatened]
    split
    · rfl
    · exact h.threatened
  · intro x id' hcurrent
    rw [hfreed.current] at hcurrent
    split at hcurrent
    · cases hcurrent
    rename_i hother
    obtain ⟨y, hlookup⟩ := h.current hcurrent
    refine ⟨y, hfreed.stays hid ?_ hlookup⟩
    rintro rfl
    obtain ⟨_, howner, _⟩ := h.stored hlookup
    subst howner
    exact hother ⟨rfl, hcurrent⟩
  · intro x id' hfixate
    rw [hfreed.fixate] at hfixate
    split at hfixate
    · cases hfixate
    rename_i hother
    obtain ⟨y, hlookup⟩ := h.fixate hfixate
    refine ⟨y, hfreed.stays hid ?_ hlookup⟩
    rintro rfl
    obtain ⟨_, howner, _⟩ := h.stored hlookup
    subst howner
    exact hother ⟨rfl, hfixate⟩
  · intro id' hlive'
    rw [hfreed.nextRef]
    exact h.fresh (hlive_of hlive').1
  · intro id' hlive'
    rw [hfreed.ref]
    exact h.base (hlive_of hlive').1

theorem Inserted.lookup (h : Inserted q w w' a v) (x y : U) :
    (w'.entries x).lookup y = if x = a ∧ y = v then some w.nextRef else (w.entries x).lookup y := by
  rw [h.entries]
  by_cases hx : x = a
  · subst hx
    by_cases hy : y = v
    · subst hy
      simp
    · simp [hy, lookup_insert_ne]
  · simp [hx]

theorem Inserted.lookup_threatened (h : Inserted q w w' a v) (x y : U) :
    (w'.threatenedByMe y).lookup x =
      if x = a ∧ y = v then some w.nextRef else (w.threatenedByMe y).lookup x := by
  rw [h.threatened]
  by_cases hy : y = v
  · subst hy
    by_cases hx : x = a
    · subst hx
      simp
    · simp [hx, lookup_insert_ne]
  · simp [hy]

theorem Inserted.keeps (h : Inserted q w w' a v) (hlookup : (w.entries x).lookup y = some id) :
    (w'.entries x).lookup y = some id := by
  rw [h.lookup, if_neg]
  · exact hlookup
  · rintro ⟨rfl, rfl⟩
    rw [h.isNew] at hlookup
    cases hlookup

/-- A unit that is not on the list yet can be put there. -/
theorem ThreatOk.inserted (h : ThreatOk q w) (hnew : (w.entries a).lookup v = none) :
    ∃ w₁ w', (w.create { owner := a, victim := v }).putThreatListRef q a v w.nextRef = .ok w₁ ∧
      w₁.putThreatenedByMeRef v a w.nextRef = .ok w' ∧ Inserted q w w' a v := by
  have hthreatened : (w.threatenedByMe v).lookup a = none := by
    rw [Option.eq_none_iff_forall_not_mem]
    intro id hid
    have hlisted := h.threatened.mp hid
    rw [hnew] at hlisted
    cases hlisted
  refine ⟨_, _, if_neg ?_, if_neg ?_, ⟨hnew, hthreatened, ?_, ?_, ?_, ?_, ?_, rfl, rfl, rfl, rfl, rfl⟩⟩
  · change ¬((w.entries a).lookup v).isSome = true
    simp [hnew]
  · simp only [manager_setManager, create]
    split_ifs <;> simp_all [ThreatWorld.threatenedByMe]
  · intro x
    simp only [ThreatWorld.entries, manager_setManager, create]
    split_ifs <;> simp_all
  · intro x
    simp only [ThreatWorld.threatenedByMe, manager_setManager, create]
    split_ifs <;> simp_all
  · intro x
    simp only [ThreatWorld.heap, manager_setManager, create]
    split_ifs <;> subst_vars <;> first | rfl | simp_all
  · intro x
    simp only [manager_setManager, create]
    split_ifs <;> simp_all
  · intro x
    simp only [manager_setManager, create]
    split_ifs <;> simp_all

theorem ThreatOk.insert (hq : q.Contents) (h : ThreatOk q w) (hinserted : Inserted q w w' a v) :
    ThreatOk q w' := by
  have hold : ∀ {id'}, w.live id' = true → id' ≠ w.nextRef := fun hlive => (h.fresh hlive).ne
  have hcases : ∀ {x y id'}, (w'.entries x).lookup y = some id' →
      (id' = w.nextRef ∧ x = a ∧ y = v) ∨ (w.entries x).lookup y = some id' := by
    intro x y id' hlookup
    rw [hinserted.lookup] at hlookup
    split at hlookup
    · rename_i heq
      cases hlookup
      exact .inl ⟨rfl, heq⟩
    · exact .inr hlookup
  have hlives : ∀ {id'}, w'.live id' = true → id' = w.nextRef ∨ w.live id' = true := by
    intro id' hlive
    rw [hinserted.live, update_apply] at hlive
    split at hlive
    · rename_i heq
      exact .inl heq
    · exact .inr hlive
  constructor
  · intro x y id' hlookup
    rw [hinserted.ref, hinserted.live]
    obtain ⟨rfl, rfl, rfl⟩ | hlookup := hcases hlookup
    · simp
    · have hne := hold (h.stored hlookup).1
      simpa [hne] using h.stored hlookup
  · intro id' hlive
    rw [hinserted.ref]
    obtain rfl | hlive := hlives hlive
    · simp [hinserted.lookup]
    · rw [update_of_ne (hold hlive)]
      exact hinserted.keeps (h.listed hlive)
  · intro x
    rw [hinserted.heap, hinserted.entries]
    split
    · have hnot : v ∉ w.entries a := AList.lookup_eq_none.mp hinserted.isNew
      rw [entries_insert_of_notMem hnot]
      exact (hq.elements_push _ _ _).trans ((h.heaped a).cons _)
    · exact h.heaped x
  · intro x y id'
    rw [hinserted.lookup, hinserted.lookup_threatened]
    split
    · rfl
    · exact h.threatened
  · intro x id' hcurrent
    rw [hinserted.current] at hcurrent
    obtain ⟨y, hlookup⟩ := h.current hcurrent
    exact ⟨y, hinserted.keeps hlookup⟩
  · intro x id' hfixate
    rw [hinserted.fixate] at hfixate
    obtain ⟨y, hlookup⟩ := h.fixate hfixate
    exact ⟨y, hinserted.keeps hlookup⟩
  · intro id' hlive
    rw [hinserted.nextRef]
    obtain rfl | hlive := hlives hlive
    · exact Nat.lt_succ_self _
    · exact Nat.lt_succ_of_lt (h.fresh hlive)
  · intro id' hlive
    rw [hinserted.ref]
    obtain rfl | hlive := hlives hlive
    · simp
    · simpa [hold hlive] using h.base hlive

theorem ThreatOk.change (hq : q.Contents) (h : ThreatOk q w) (hchange : Change q may w w') :
    ThreatOk q w' := by
  cases hchange with
  | notify increased live owner victim base _ => exact h.notify hq increased owner victim base
  | manage heap entries threatened current fixate =>
    exact h.manage heap entries threatened current fixate
  | insert inserted => exact h.insert hq inserted
  | free live => exact h.free hq live

def Changes (q : PriorityQueue RefId SortKey H) (may : Bool → SortKey → SortKey → Prop) :
    ThreatWorld U H → ThreatWorld U H → Prop := Relation.ReflTransGen (Change q may)

theorem Changes.mono (h : Changes q may w w')
    (hmay : ∀ increased before after, may increased before after → may' increased before after) :
    Changes q may' w w' := by
  induction h with
  | refl => exact .refl
  | tail _ hchange ih => exact ih.tail (hchange.mono hmay)

theorem Changes.ok (hq : q.Contents) (hchanges : Changes q may w w') (h : ThreatOk q w) :
    ThreatOk q w' := by
  induction hchanges with
  | refl => exact h
  | tail _ hchange ih => exact ih.change hq hchange

end ThreatWorld

end LegionServer.Source.Combat
