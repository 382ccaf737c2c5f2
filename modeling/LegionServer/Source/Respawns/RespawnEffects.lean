import Mathlib.Data.Finset.Card
import LegionServer.Source.Respawns.RespawnStores

/-!
# What the operations do to the respawn stores

The heap and the maps by spawn id hold the same entries, and these are all that
live, but for those that `ProcessRespawns` has taken out and still holds.
-/
namespace LegionServer.Source.Respawns
open Library List Function

namespace RespawnStores

variable {H : Type} {q : PriorityQueue Pointer RespawnKey H} {c : MapContext}
  {orders : q.Orders} {held : List Pointer} {s s' : RespawnStores H} {p : Pointer}
  {type : SpawnObjectType} {spawnId : UInt64} {info : RespawnInfo}

def elements (q : PriorityQueue Pointer RespawnKey H) (s : RespawnStores H) : List Pointer :=
  q.elements s.respawnTimes

def entry (s : RespawnStores H) (type : SpawnObjectType) (spawnId : UInt64) : Option RespawnInfo :=
  (s.getRespawnInfo type spawnId).map s.info

/-- The stores agree, apart from the entries that are `held`. -/
structure Agrees (q : PriorityQueue Pointer RespawnKey H) (c : MapContext) (held : List Pointer)
    (s : RespawnStores H) : Prop where
  nodup : (s.elements q).Nodup
  apart : ∀ p ∈ held, p ∉ s.elements q
  live : ∀ p, s.live p = true ↔ p ∈ s.elements q ∨ p ∈ held
  found : ∀ p ∈ s.elements q, s.getRespawnInfo (s.info p).type (s.info p).spawnId = some p
  stored : ∀ {type spawnId p}, s.getRespawnInfo type spawnId = some p →
    p ∈ s.elements q ∧ (s.info p).type = type ∧ (s.info p).spawnId = spawnId
  fresh : ∀ p, s.live p = true → p < s.next
  data : ∀ p ∈ s.elements q, (c.getSpawnData (s.info p).type (s.info p).spawnId).isSome

structure Sorted (orders : q.Orders) (s : RespawnStores H) : Prop where
  wellFormed : orders.WellFormed s.keys s.respawnTimes
  seen : ∀ p ∈ s.elements q, s.seen p = s.keys p
  told : ∀ n ∈ s.notifications, if n.increased then n.before ≤ n.after else n.after ≤ n.before

section Fields

variable {o : Option Pointer} {heap : H}

@[simp] theorem setRespawnInfo_info : (s.setRespawnInfo type spawnId o).info = s.info := by
  cases type <;> rfl

@[simp] theorem setRespawnInfo_live : (s.setRespawnInfo type spawnId o).live = s.live := by
  cases type <;> rfl

@[simp] theorem setRespawnInfo_next : (s.setRespawnInfo type spawnId o).next = s.next := by
  cases type <;> rfl

@[simp] theorem setRespawnInfo_respawnTimes :
    (s.setRespawnInfo type spawnId o).respawnTimes = s.respawnTimes := by
  cases type <;> rfl

@[simp] theorem setRespawnInfo_seen : (s.setRespawnInfo type spawnId o).seen = s.seen := by
  cases type <;> rfl

@[simp] theorem setRespawnInfo_notifications :
    (s.setRespawnInfo type spawnId o).notifications = s.notifications := by
  cases type <;> rfl

@[simp] theorem setRespawnInfo_keys : (s.setRespawnInfo type spawnId o).keys = s.keys := by
  cases type <;> rfl

theorem getRespawnInfo_setRespawnInfo (h : type ≠ .areaTrigger) (type' : SpawnObjectType)
    (spawnId' : UInt64) : (s.setRespawnInfo type spawnId o).getRespawnInfo type' spawnId' =
      if type' = type ∧ spawnId' = spawnId then o else s.getRespawnInfo type' spawnId' := by
  cases type <;> cases type' <;> simp_all [getRespawnInfo, getRespawnMapForType, setRespawnInfo,
    update_apply]

theorem type_ne_areaTrigger (h : s.getRespawnInfo type spawnId = some p) : type ≠ .areaTrigger := by
  rintro rfl
  cases h

theorem getRespawnMapForType_isSome (h : type ≠ .areaTrigger) :
    ∃ map, s.getRespawnMapForType type = some map ∧
      ∀ spawnId, map spawnId = s.getRespawnInfo type spawnId := by
  cases type with
  | creature => exact ⟨_, rfl, fun _ => rfl⟩
  | gameObject => exact ⟨_, rfl, fun _ => rfl⟩
  | areaTrigger => exact absurd rfl h

end Fields

theorem compares_ok {l : List Pointer} (hlive : ∀ p ∈ l, s.live p = true)
    (hapart : ∀ a ∈ l, ∀ b ∈ l, a ≠ b →
      (s.info a).type ≠ (s.info b).type ∨ (s.info a).spawnId ≠ (s.info b).spawnId) :
    s.compares l = .ok () := by
  unfold compares
  rw [if_neg, if_neg]
  · rintro ⟨a, ha, b, hb, hne, hnone⟩
    exact RespawnInfo.compare_ne_none (hapart a ha b hb hne) hnone
  · rintro ⟨p, hp, hdead⟩
    rw [hlive p hp] at hdead
    cases hdead

theorem Agrees.spawn_ne (h : Agrees q c held s) {a b : Pointer} (ha : a ∈ s.elements q)
    (hb : b ∈ s.elements q) (hne : a ≠ b) :
    (s.info a).type ≠ (s.info b).type ∨ (s.info a).spawnId ≠ (s.info b).spawnId := by
  by_contra hcon
  push Not at hcon
  have hfound := h.found a ha
  rw [hcon.1, hcon.2, h.found b hb] at hfound
  exact hne (Option.some.inj hfound).symm

theorem Agrees.compares (h : Agrees q c held s) : s.compares (q.elements s.respawnTimes) = .ok () :=
  compares_ok (fun p hp => (h.live p).mpr (.inl hp)) fun _ ha _ hb => h.spawn_ne ha hb

theorem Agrees.read (h : Agrees q c held s) (hp : p ∈ s.elements q ∨ p ∈ held) :
    s.read p = .ok (s.info p) := if_pos ((h.live p).mpr hp)

theorem Agrees.type_ne (h : Agrees q c held s) (hp : p ∈ s.elements q) :
    (s.info p).type ≠ .areaTrigger := type_ne_areaTrigger (h.found p hp)

theorem Agrees.saveRow (h : Agrees q c held s) (time : Option Int) :
    Agrees q c held (s.saveRow c type spawnId time) := by
  unfold RespawnStores.saveRow
  split
  · exact h
  · exact ⟨h.nodup, h.apart, h.live, h.found, h.stored, h.fresh, h.data⟩

theorem Sorted.saveRow (h : Sorted orders s) (time : Option Int) :
    Sorted orders (s.saveRow c type spawnId time) := by
  unfold RespawnStores.saveRow
  split
  · exact h
  · exact ⟨h.wellFormed, h.seen, h.told⟩

section SaveRow

variable {time : Option Int}

@[simp] theorem saveRow_info : (s.saveRow c type spawnId time).info = s.info := by
  unfold saveRow
  split <;> rfl

@[simp] theorem saveRow_live : (s.saveRow c type spawnId time).live = s.live := by
  unfold saveRow
  split <;> rfl

@[simp] theorem saveRow_elements : (s.saveRow c type spawnId time).elements q = s.elements q := by
  unfold saveRow
  split <;> rfl

@[simp] theorem saveRow_getRespawnInfo :
    (s.saveRow c type spawnId time).getRespawnInfo = s.getRespawnInfo := by
  unfold saveRow
  split <;> rfl

end SaveRow

variable {x : Pointer}

theorem keys_setTime_of_ne (hx : x ≠ p) (t : Int) : (s.setTime p t).keys x = s.keys x := by
  simp only [keys, setTime, update_of_ne hx]

@[simp] theorem setTime_type (x : Pointer) (t : Int) :
    ((s.setTime p t).info x).type = (s.info x).type := by
  by_cases hx : x = p
  · subst hx
    simp only [setTime, update_self]
  · simp only [setTime, update_of_ne hx]

@[simp] theorem setTime_spawnId (x : Pointer) (t : Int) :
    ((s.setTime p t).info x).spawnId = (s.info x).spawnId := by
  by_cases hx : x = p
  · subst hx
    simp only [setTime, update_self]
  · simp only [setTime, update_of_ne hx]

theorem Agrees.setTime (h : Agrees q c held s) (t : Int) : Agrees q c held (s.setTime p t) := by
  refine ⟨h.nodup, h.apart, h.live, ?_, ?_, h.fresh, ?_⟩
  · intro x hx
    rw [setTime_type, setTime_spawnId]
    exact h.found x hx
  · intro type spawnId x hx
    rw [setTime_type, setTime_spawnId]
    exact h.stored hx
  · intro x hx
    rw [setTime_type, setTime_spawnId]
    exact h.data x hx

def detached (q : PriorityQueue Pointer RespawnKey H) (s : RespawnStores H) (p : Pointer) :
    RespawnStores H :=
  (s.setRespawnInfo (s.info p).type (s.info p).spawnId none).setHeap
    (q.erase s.keys s.respawnTimes p)

def freed (s : RespawnStores H) (p : Pointer) : RespawnStores H :=
  { s with live := Function.update s.live p false }

@[simp] theorem detached_info : (s.detached q p).info = s.info := setRespawnInfo_info

@[simp] theorem detached_live : (s.detached q p).live = s.live := setRespawnInfo_live

@[simp] theorem detached_next : (s.detached q p).next = s.next := setRespawnInfo_next

@[simp] theorem detached_seen : (s.detached q p).seen = s.seen := setRespawnInfo_seen

@[simp] theorem detached_notifications : (s.detached q p).notifications = s.notifications :=
  setRespawnInfo_notifications

@[simp] theorem detached_keys : (s.detached q p).keys = s.keys := by
  unfold keys
  rw [detached_info]

theorem mem_elements_detached (hq : q.Contents) (h : Agrees q c held s) :
    x ∈ (s.detached q p).elements q ↔ x ≠ p ∧ x ∈ s.elements q := by
  unfold elements detached setHeap
  rw [(hq.elements_erase _ _ _).mem_iff]
  exact h.nodup.mem_erase_iff

theorem getRespawnInfo_detached (h : Agrees q c held s) (hp : p ∈ s.elements q)
    (type : SpawnObjectType) (spawnId : UInt64) :
    (s.detached q p).getRespawnInfo type spawnId =
      if type = (s.info p).type ∧ spawnId = (s.info p).spawnId then none
      else s.getRespawnInfo type spawnId :=
  getRespawnInfo_setRespawnInfo (h.type_ne hp) type spawnId

theorem Agrees.detached (hq : q.Contents) (h : Agrees q c held s) (hp : p ∈ s.elements q) :
    Agrees q c (p :: held) (s.detached q p) := by
  have hmem := fun {x : Pointer} => mem_elements_detached (p := p) (x := x) hq h
  refine ⟨?_, ?_, ?_, ?_, ?_, ?_, ?_⟩
  · exact ((hq.elements_erase _ _ _).nodup_iff).mpr (h.nodup.erase p)
  · intro x hx
    rw [hmem]
    rcases mem_cons.mp hx with rfl | hx
    · exact fun hmem => hmem.1 rfl
    · exact fun hmem => h.apart x hx hmem.2
  · intro x
    rw [detached_live, h.live, hmem, mem_cons]
    by_cases hx : x = p
    · simp [hx, hp]
    · simp [hx]
  · intro x hx
    obtain ⟨hne, hx⟩ := hmem.mp hx
    rw [getRespawnInfo_detached h hp, detached_info, if_neg, h.found x hx]
    intro hsame
    rcases h.spawn_ne hx hp hne with hdiff | hdiff
    · exact hdiff hsame.1
    · exact hdiff hsame.2
  · intro type spawnId x hx
    rw [getRespawnInfo_detached h hp] at hx
    split at hx
    · cases hx
    rename_i hdiff
    obtain ⟨hx, htype, hid⟩ := h.stored hx
    refine ⟨hmem.mpr ⟨?_, hx⟩, ?_⟩
    · rintro rfl
      exact hdiff ⟨htype.symm, hid.symm⟩
    · rw [detached_info]
      exact ⟨htype, hid⟩
  · intro x hx
    rw [detached_live] at hx
    rw [detached_next]
    exact h.fresh x hx
  · intro x hx
    rw [detached_info]
    exact h.data x (hmem.mp hx).2

theorem Sorted.detached (hq : q.Contents) (hforgets : orders.Forgets) (hagrees : Agrees q c held s)
    (h : Sorted orders s) (t : Int) : Sorted orders ((s.setTime p t).detached q p) := by
  refine ⟨?_, ?_, ?_⟩
  · rw [detached_keys]
    exact hforgets h.wellFormed fun x _ hx => keys_setTime_of_ne hx t
  · intro x hx
    unfold RespawnStores.detached setHeap elements at hx
    rw [(hq.elements_erase _ _ _).mem_iff] at hx
    obtain ⟨hne, hx⟩ := hagrees.nodup.mem_erase_iff.mp hx
    rw [detached_seen, detached_keys, keys_setTime_of_ne hne t]
    exact h.seen x hx
  · rw [detached_notifications]
    exact h.told

theorem free_eq (h : s.live p = true) : s.free p = .ok (s.freed p) := if_pos h

theorem Agrees.freed (h : Agrees q c (p :: held) s) (hp : p ∉ held) :
    Agrees q c held (s.freed p) := by
  have hout := h.apart p (mem_cons_self ..)
  refine ⟨h.nodup, fun x hx => h.apart x (mem_cons_of_mem _ hx), ?_, h.found, h.stored, ?_, h.data⟩
  · intro x
    unfold RespawnStores.freed
    by_cases hx : x = p
    · subst hx
      simp only [update_self, Bool.false_eq_true, false_iff, not_or]
      exact ⟨hout, hp⟩
    · simp only [update_of_ne hx]
      rw [h.live, mem_cons]
      simp only [hx, false_or]
      rfl
  · intro x hx
    unfold RespawnStores.freed at hx
    by_cases hxp : x = p
    · subst hxp
      simp at hx
    · simp only [update_of_ne hxp] at hx
      exact h.fresh x hx

theorem Sorted.freed (h : Sorted orders s) : Sorted orders (s.freed p) :=
  ⟨h.wellFormed, h.seen, h.told⟩

def removed (q : PriorityQueue Pointer RespawnKey H) (c : MapContext) (s : RespawnStores H)
    (p : Pointer) : RespawnStores H :=
  ((s.detached q p).deleteRespawnInfoFromDB c (s.info p).type (s.info p).spawnId).freed p

/-- `DeleteRespawnInfo` takes the entry out of all stores and deletes it. -/
theorem Agrees.deleteRespawnInfo_eq (h : Agrees q c held s) (hp : p ∈ s.elements q) :
    s.deleteRespawnInfo q c p = .ok (s.removed q c p) := by
  obtain ⟨map, hmap, hget⟩ := getRespawnMapForType_isSome (s := s) (h.type_ne hp)
  have hcompares : (s.setRespawnInfo (s.info p).type (s.info p).spawnId none).compares
      (q.elements s.respawnTimes) = .ok () := by
    refine Eq.trans ?_ h.compares
    unfold RespawnStores.compares
    simp only [setRespawnInfo_live, setRespawnInfo_info]
  have herase : (s.setRespawnInfo (s.info p).type (s.info p).spawnId none).heapErase q p =
      .ok (s.detached q p) := by
    unfold heapErase
    rw [setRespawnInfo_respawnTimes, hcompares, setRespawnInfo_keys]
    rfl
  unfold RespawnStores.deleteRespawnInfo
  rw [h.read (.inl hp)]
  dsimp only [bind, Except.bind]
  rw [hmap]
  simp only [hget, h.found p hp, ne_eq, not_true, ↓reduceIte]
  rw [herase]
  refine free_eq ?_
  rw [deleteRespawnInfoFromDB, saveRow_live, detached_live]
  exact (h.live p).mpr (.inl hp)

@[simp] theorem removed_info : (s.removed q c p).info = s.info :=
  saveRow_info.trans detached_info

theorem mem_elements_removed (hq : q.Contents) (h : Agrees q c held s) :
    x ∈ (s.removed q c p).elements q ↔ x ≠ p ∧ x ∈ s.elements q := by
  rw [← mem_elements_detached hq h]
  exact iff_of_eq (congrArg (x ∈ ·) saveRow_elements)

theorem getRespawnInfo_removed (h : Agrees q c held s) (hp : p ∈ s.elements q)
    (type : SpawnObjectType) (spawnId : UInt64) :
    (s.removed q c p).getRespawnInfo type spawnId =
      if type = (s.info p).type ∧ spawnId = (s.info p).spawnId then none
      else s.getRespawnInfo type spawnId := by
  rw [← getRespawnInfo_detached h hp]
  exact congrFun (congrFun saveRow_getRespawnInfo type) spawnId

theorem Agrees.removed (hq : q.Contents) (h : Agrees q c held s) (hp : p ∈ s.elements q) :
    Agrees q c held (s.removed q c p) :=
  ((h.detached hq hp).saveRow none).freed fun hheld => h.apart p hheld hp

theorem setTime_self : s.setTime p (s.info p).respawnTime = s := by
  unfold setTime
  rw [update_eq_self]

theorem Sorted.removed (hq : q.Contents) (hforgets : orders.Forgets) (hagrees : Agrees q c held s)
    (h : Sorted orders s) : Sorted orders (s.removed q c p) := by
  have hdetached := h.detached (p := p) hq hforgets hagrees (s.info p).respawnTime
  rw [setTime_self] at hdetached
  exact (hdetached.saveRow none).freed

def allocated (s : RespawnStores H) (info : RespawnInfo) : RespawnStores H :=
  { s with
    info := Function.update s.info s.next info
    live := Function.update s.live s.next true
    next := s.next + 1 }

def inserted (q : PriorityQueue Pointer RespawnKey H) (s : RespawnStores H) (info : RespawnInfo) :
    RespawnStores H :=
  { (s.allocated info).setHeap (q.push (s.allocated info).keys s.respawnTimes s.next) with
    seen := Function.update s.seen s.next info.key }.setRespawnInfo info.type info.spawnId
      (some s.next)

section Insert

variable (h : Agrees q c held s) (hfree : s.getRespawnInfo info.type info.spawnId = none)
  (htype : info.type ≠ .areaTrigger)

include h in
theorem Agrees.next_not_mem : s.next ∉ s.elements q :=
  fun hmem => Nat.lt_irrefl _ (h.fresh _ ((h.live _).mpr (.inl hmem)))

include h in

theorem Agrees.ne_next (hx : x ∈ s.elements q) : x ≠ s.next :=
  fun heq => h.next_not_mem (heq ▸ hx)

include h hfree in
theorem Agrees.spawn_ne_new (hx : x ∈ s.elements q) :
    (s.info x).type ≠ info.type ∨ (s.info x).spawnId ≠ info.spawnId := by
  by_contra hcon
  push Not at hcon
  have hfound := h.found x hx
  rw [hcon.1, hcon.2, hfree] at hfound
  cases hfound

include h hfree in
theorem Agrees.insertRespawnInfo_eq : s.insertRespawnInfo q info = .ok (s.inserted q info) := by
  have hcompares : (s.allocated info).compares (s.next :: q.elements s.respawnTimes) = .ok () := by
    refine compares_ok ?_ ?_
    · intro p hp
      unfold allocated
      rcases mem_cons.mp hp with rfl | hp
      · exact update_self ..
      · simp only [update_of_ne (h.ne_next hp)]
        exact (h.live p).mpr (.inl hp)
    · intro a ha b hb hne
      unfold allocated
      rcases mem_cons.mp ha with rfl | ha <;> rcases mem_cons.mp hb with rfl | hb
      · exact absurd rfl hne
      · simp only [update_self, update_of_ne (h.ne_next hb)]
        exact (h.spawn_ne_new hfree hb).imp Ne.symm Ne.symm
      · simp only [update_self, update_of_ne (h.ne_next ha)]
        exact h.spawn_ne_new hfree ha
      · simp only [update_of_ne (h.ne_next ha), update_of_ne (h.ne_next hb)]
        exact h.spawn_ne ha hb hne
  have hpush : (s.allocated info).heapPush q s.next =
      .ok { (s.allocated info).setHeap (q.push (s.allocated info).keys s.respawnTimes s.next) with
        seen := Function.update s.seen s.next info.key } := by
    change ((s.allocated info).compares (s.next :: q.elements s.respawnTimes) >>= _) = _
    rw [hcompares]
    have hkey : (s.allocated info).keys s.next = info.key := by
      simp only [keys, allocated, update_self]
    rw [hkey]
    rfl
  obtain ⟨pushed, hpushed, hnone, hinserted⟩ : ∃ pushed, (s.allocated info).heapPush q s.next =
      .ok pushed ∧ pushed.getRespawnInfo info.type info.spawnId = none ∧
      pushed.setRespawnInfo info.type info.spawnId (some s.next) = s.inserted q info :=
    ⟨_, hpush, hfree, rfl⟩
  change ((s.allocated info).heapPush q s.next >>= _) = _
  rw [hpushed]
  dsimp only [bind, Except.bind]
  rw [hnone]
  exact congrArg Except.ok hinserted

theorem inserted_info (x : Pointer) :
    (s.inserted q info).info x = if x = s.next then info else s.info x := by
  unfold inserted
  rw [setRespawnInfo_info]
  exact update_apply ..

theorem inserted_keys : (s.inserted q info).keys = (s.allocated info).keys := by
  unfold inserted
  rw [setRespawnInfo_keys]
  rfl

theorem mem_elements_inserted (hq : q.Contents) :
    x ∈ (s.inserted q info).elements q ↔ x = s.next ∨ x ∈ s.elements q := by
  unfold elements inserted
  rw [setRespawnInfo_respawnTimes]
  exact (hq.elements_push _ _ _).mem_iff.trans mem_cons

include htype in
theorem getRespawnInfo_inserted (type : SpawnObjectType) (spawnId : UInt64) :
    (s.inserted q info).getRespawnInfo type spawnId =
      if type = info.type ∧ spawnId = info.spawnId then some s.next
      else s.getRespawnInfo type spawnId :=
  getRespawnInfo_setRespawnInfo htype type spawnId

include h hfree htype in
theorem Agrees.inserted (hq : q.Contents) (hdata : (c.getSpawnData info.type info.spawnId).isSome) :
    Agrees q c held (s.inserted q info) := by
  have hmem : ∀ {x : Pointer}, x ∈ (s.inserted q info).elements q ↔ x = s.next ∨ x ∈ s.elements q :=
    mem_elements_inserted hq
  have hlive : ∀ x, (s.inserted q info).live x = if x = s.next then true else s.live x := by
    intro x
    unfold RespawnStores.inserted
    rw [setRespawnInfo_live]
    exact update_apply ..
  have hnext : (s.inserted q info).next = s.next + 1 := by
    unfold RespawnStores.inserted
    rw [setRespawnInfo_next]
    rfl
  refine ⟨?_, ?_, ?_, ?_, ?_, ?_, ?_⟩
  · unfold elements RespawnStores.inserted
    rw [setRespawnInfo_respawnTimes]
    exact ((hq.elements_push _ _ _).nodup_iff).mpr (h.nodup.cons h.next_not_mem)
  · intro x hx hx'
    rcases hmem.mp hx' with rfl | hx'
    · exact Nat.lt_irrefl _ (h.fresh _ ((h.live _).mpr (.inr hx)))
    · exact h.apart x hx hx'
  · intro x
    rw [hlive, hmem]
    split
    · simp [*]
    · simp [*, h.live]
  · intro x hx
    rw [getRespawnInfo_inserted htype, inserted_info]
    rcases hmem.mp hx with rfl | hx
    · simp
    rw [if_neg (h.ne_next hx), if_neg, h.found x hx]
    intro hsame
    rcases h.spawn_ne_new hfree hx with hdiff | hdiff
    · exact hdiff hsame.1
    · exact hdiff hsame.2
  · intro type spawnId x hx
    rw [getRespawnInfo_inserted htype] at hx
    split at hx
    · rename_i hsame
      cases hx
      rw [inserted_info, if_pos rfl]
      exact ⟨hmem.mpr (.inl rfl), hsame.1.symm, hsame.2.symm⟩
    · obtain ⟨hx, hspawn⟩ := h.stored hx
      rw [inserted_info, if_neg (h.ne_next hx)]
      exact ⟨hmem.mpr (.inr hx), hspawn⟩
  · intro x hx
    rw [hlive] at hx
    rw [hnext]
    split at hx
    · exact Nat.lt_succ_of_le (Nat.le_of_eq ‹_›)
    · exact Nat.lt_succ_of_lt (h.fresh x hx)
  · intro x hx
    rw [inserted_info]
    rcases hmem.mp hx with rfl | hx
    · rw [if_pos rfl]
      exact hdata
    · rw [if_neg (h.ne_next hx)]
      exact h.data x hx

include h in
theorem Sorted.inserted (hq : q.Contents) (hs : Sorted orders s) :
    Sorted orders (s.inserted q info) := by
  have hkeys : ∀ x ∈ s.elements q, (s.allocated info).keys x = s.keys x := by
    intro x hx
    simp only [keys, allocated, update_of_ne (h.ne_next hx)]
  refine ⟨?_, ?_, ?_⟩
  · rw [inserted_keys]
    unfold RespawnStores.inserted
    rw [setRespawnInfo_respawnTimes]
    exact orders.push (orders.congr hs.wellFormed hkeys)
  · intro x hx
    rw [inserted_keys]
    unfold RespawnStores.inserted
    rw [setRespawnInfo_seen]
    rcases (mem_elements_inserted hq).mp hx with rfl | hx
    · simp only [keys, allocated, update_self]
    · rw [hkeys x hx, ← hs.seen x hx]
      exact update_of_ne (h.ne_next hx) ..
  · unfold RespawnStores.inserted
    rw [setRespawnInfo_notifications]
    exact hs.told

end Insert

end RespawnStores

end LegionServer.Source.Respawns
