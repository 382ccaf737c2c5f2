import LegionServer.Source.Common.Random
import LegionServer.Library.Count

/-!
# Pools: spawning, despawning and updating

`SpawnedPoolData`, `PoolGroup<T>` and the run-time part of `PoolMgr`
(`PoolMgr.cpp:38-125`, `186-413`, `789-931`). The three template instances are
one definition with the kind of the members as a parameter. Creatures and game
objects on the map are left out: `Spawn1Object`, `ReSpawn1Object` and
`Despawn1Object` of these kinds do not touch `SpawnedPoolData`.
-/
namespace LegionServer.Source.Pools
open Source.Common

/-- The template argument: `Creature`, `GameObject` or `Pool`. -/
inductive MemberKind where
  | creature | gameobject | pool
  deriving DecidableEq, Repr

structure PoolObject where
  guid : Nat
  chance : ℚ
  deriving DecidableEq, Repr

structure PoolGroup where
  poolId : Nat := 0
  explicitlyChanced : List PoolObject := []
  equalChanced : List PoolObject := []

def PoolGroup.isEmpty (group : PoolGroup) : Bool :=
  group.explicitlyChanced.isEmpty && group.equalChanced.isEmpty

/-- `AddEntry`: an explicit chance counts only in a pool that spawns one object. -/
def PoolGroup.addEntry (group : PoolGroup) (poolitem : PoolObject) (maxentries : Nat) : PoolGroup :=
  if poolitem.chance ≠ 0 ∧ maxentries = 1 then
    { group with explicitlyChanced := group.explicitlyChanced ++ [poolitem] }
  else { group with equalChanced := group.equalChanced ++ [poolitem] }

/-- `maxLimit` is `mPoolTemplate[..].MaxLimit`; a pool without a group of some
kind has the empty one. -/
structure PoolMgr where
  maxLimit : Nat → Nat
  groups : MemberKind → Nat → PoolGroup
  poolSearchMap : Nat → Option Nat

/-- `IsPartOfAPool<Pool>`: the mother pool, or 0. -/
def PoolMgr.isPartOfAPool (mgr : PoolMgr) (poolId : Nat) : Nat :=
  (mgr.poolSearchMap poolId).getD 0

/-- `spawnedPools` holds both the counter of each pool and, by its keys, which
sub-pools are spawned. -/
structure SpawnedPoolData where
  spawnedCreatures : Nat → Bool := fun _ => false
  spawnedGameobjects : Nat → Bool := fun _ => false
  spawnedPools : Nat → Option Nat := fun _ => none

namespace SpawnedPoolData

variable (spawns : SpawnedPoolData)

def getSpawnedObjects (poolId : Nat) : Nat :=
  (spawns.spawnedPools poolId).getD 0

/-- `IsSpawnedObject<T>`. -/
def isSpawnedObject : MemberKind → Nat → Bool
  | .creature, guid => spawns.spawnedCreatures guid
  | .gameobject, guid => spawns.spawnedGameobjects guid
  | .pool, guid => (spawns.spawnedPools guid).isSome

/-- A write through `mSpawnedPools[pool_id]`, which creates a missing entry. -/
def setCount (poolId count : Nat) : SpawnedPoolData :=
  { spawns with spawnedPools := Function.update spawns.spawnedPools poolId (some count) }

/-- `++mSpawnedPools[pool_id]`. -/
def countUp (poolId : Nat) : SpawnedPoolData :=
  spawns.setCount poolId (spawns.getSpawnedObjects poolId + 1)

/-- `uint32& val = mSpawnedPools[pool_id]; if (val > 0) --val;`. -/
def countDown (poolId : Nat) : SpawnedPoolData :=
  spawns.setCount poolId (spawns.getSpawnedObjects poolId - 1)

/-- `AddSpawn<T>`. -/
def addSpawn : MemberKind → Nat → Nat → SpawnedPoolData
  | .creature, guid, poolId =>
    { spawns with
      spawnedCreatures := Function.update spawns.spawnedCreatures guid true }.countUp poolId
  | .gameobject, guid, poolId =>
    { spawns with
      spawnedGameobjects := Function.update spawns.spawnedGameobjects guid true }.countUp poolId
  | .pool, guid, poolId =>
    { spawns with
      spawnedPools := Function.update spawns.spawnedPools guid (some 0) }.countUp poolId

/-- `RemoveSpawn<T>`. -/
def removeSpawn : MemberKind → Nat → Nat → SpawnedPoolData
  | .creature, guid, poolId =>
    { spawns with
      spawnedCreatures := Function.update spawns.spawnedCreatures guid false }.countDown poolId
  | .gameobject, guid, poolId =>
    { spawns with
      spawnedGameobjects := Function.update spawns.spawnedGameobjects guid false }.countDown poolId
  | .pool, guid, poolId =>
    { spawns with
      spawnedPools := Function.update spawns.spawnedPools guid none }.countDown poolId

end SpawnedPoolData

structure Spawning where
  data : SpawnedPoolData
  rng : Rng

/-- One of the two loops of `DespawnObject`. The `else` branch of the source
only deletes stored respawn times. -/
def despawnLoop (kind : MemberKind) (poolId guid : Nat)
    (despawn1Object : Nat → Spawning → Option Spawning) :
    List PoolObject → Spawning → Option Spawning
  | [], s => some s
  | object :: rest, s =>
    if s.data.isSpawnedObject kind object.guid ∧ (guid = 0 ∨ object.guid = guid) then
      match despawn1Object object.guid s with
      | none => none
      | some s =>
        despawnLoop kind poolId guid despawn1Object rest
          { s with data := s.data.removeSpawn kind object.guid poolId }
    else despawnLoop kind poolId guid despawn1Object rest s

/-- `DespawnObject`: every spawned member, or the one whose guid is passed. -/
def despawnObject (kind : MemberKind) (group : PoolGroup) (guid : Nat)
    (despawn1Object : Nat → Spawning → Option Spawning) (s : Spawning) : Option Spawning :=
  match despawnLoop kind group.poolId guid despawn1Object group.equalChanced s with
  | none => none
  | some s => despawnLoop kind group.poolId guid despawn1Object group.explicitlyChanced s

/-- The roll over the explicit chances: at most one object. -/
def rollExplicit (spawned : Nat → Bool) (triggerFrom : Nat) : ℚ → List PoolObject → List PoolObject
  | _, [] => []
  | roll, object :: rest =>
    if roll - object.chance < 0 ∧ (object.guid = triggerFrom ∨ spawned object.guid = false) then
      [object]
    else rollExplicit spawned triggerFrom (roll - object.chance) rest

/-- "roll objects to be spawned". -/
def rollObjects (kind : MemberKind) (group : PoolGroup) (triggerFrom count : Nat) (s : Spawning) :
    List PoolObject × Spawning :=
  let spawned := s.data.isSpawnedObject kind
  let (rolledObjects, s) :=
    if group.explicitlyChanced.isEmpty then ([], s)
    else
      let (roll, rng) := s.rng.randChance
      (rollExplicit spawned triggerFrom roll group.explicitlyChanced, { s with rng := rng })
  if !group.equalChanced.isEmpty && rolledObjects.isEmpty then
    let candidates := group.equalChanced.filter fun object =>
      object.guid = triggerFrom ∨ spawned object.guid = false
    let (rolledObjects, rng) := randomResize candidates count s.rng
    (rolledObjects, { s with rng := rng })
  else (rolledObjects, s)

/-- "try to spawn rolled objects"; returns what is left of `triggerFrom` too. -/
def spawnRolled (kind : MemberKind) (poolId : Nat)
    (spawn1Object : Nat → Spawning → Option Spawning) :
    List PoolObject → Nat → Spawning → Option (Nat × Spawning)
  | [], triggerFrom, s => some (triggerFrom, s)
  | object :: rest, triggerFrom, s =>
    if object.guid = triggerFrom then spawnRolled kind poolId spawn1Object rest 0 s
    else
      match spawn1Object object.guid
          { s with data := s.data.addSpawn kind object.guid poolId } with
      | none => none
      | some s => spawnRolled kind poolId spawn1Object rest triggerFrom s

/-- `int count = limit - spawns.GetSpawnedObjects(poolId)` is an unsigned
difference converted to `int`; the trigger raises it by one. -/
def spawnCount (limit spawned triggerFrom : Nat) : Int :=
  Int.bmod ((limit : Int) - spawned) (2 ^ 32) + if triggerFrom ≠ 0 then 1 else 0

/-- `PoolGroup<T>::SpawnObject`. -/
def spawnObject (kind : MemberKind) (group : PoolGroup) (limit triggerFrom : Nat)
    (spawn1Object despawn1Object : Nat → Spawning → Option Spawning) (s : Spawning) :
    Option Spawning :=
  let count := spawnCount limit (s.data.getSpawnedObjects group.poolId) triggerFrom
  let spawned :=
    if 0 < count then
      let (rolledObjects, s) := rollObjects kind group triggerFrom count.toNat s
      spawnRolled kind group.poolId spawn1Object rolledObjects triggerFrom s
    else some (triggerFrom, s)
  match spawned with
  | none => none
  | some (triggerFrom, s) =>
    -- "One spawn one despawn no count increase"
    if triggerFrom ≠ 0 then despawnObject kind group triggerFrom despawn1Object s else some s

namespace PoolMgr

variable (mgr : PoolMgr)

def despawnGroup (kind : MemberKind) (despawn1Object : Nat → Spawning → Option Spawning)
    (poolId : Nat) (s : Spawning) : Option Spawning :=
  if (mgr.groups kind poolId).isEmpty then some s
  else despawnObject kind (mgr.groups kind poolId) 0 despawn1Object s

/-- `DespawnPool`; `fuel` bounds the nesting of sub-pools. -/
def despawnPool : Nat → Nat → Spawning → Option Spawning
  | 0, _, _ => none
  | fuel + 1, poolId, s =>
    match mgr.despawnGroup .creature (fun _ s => some s) poolId s with
    | none => none
    | some s =>
      match mgr.despawnGroup .gameobject (fun _ s => some s) poolId s with
      | none => none
      | some s => mgr.despawnGroup .pool (despawnPool fuel) poolId s

/-- `Despawn1Object`: a recursive call for a sub-pool, map objects otherwise. -/
def despawn1Object (fuel : Nat) : MemberKind → Nat → Spawning → Option Spawning
  | .pool, guid, s => mgr.despawnPool fuel guid s
  | _, _, s => some s

/-- `SpawnPool<T>` with the instance's `Spawn1Object`. -/
def spawnGroup (fuel : Nat) (kind : MemberKind) (spawn1Object : Nat → Spawning → Option Spawning)
    (poolId triggerFrom : Nat) (s : Spawning) : Option Spawning :=
  if (mgr.groups kind poolId).isEmpty then some s
  else
    spawnObject kind (mgr.groups kind poolId) (mgr.maxLimit poolId) triggerFrom spawn1Object
      (mgr.despawn1Object fuel kind) s

/-- `SpawnPool`: sub-pools first, then game objects, then creatures. -/
def spawnPool : Nat → Nat → Spawning → Option Spawning
  | 0, _, _ => none
  | fuel + 1, poolId, s =>
    match mgr.spawnGroup fuel .pool (spawnPool fuel) poolId 0 s with
    | none => none
    | some s =>
      match mgr.spawnGroup fuel .gameobject (fun _ s => some s) poolId 0 s with
      | none => none
      | some s => mgr.spawnGroup fuel .creature (fun _ s => some s) poolId 0 s

/-- `Spawn1Object`: a recursive call for a sub-pool, map objects otherwise. -/
def spawn1Object (fuel : Nat) : MemberKind → Nat → Spawning → Option Spawning
  | .pool, guid, s => mgr.spawnPool fuel guid s
  | _, _, s => some s

/-- `SpawnPool<T>(spawnedPoolData, pool_id, db_guid)`. -/
def spawnPoolOf (fuel : Nat) (kind : MemberKind) (poolId triggerFrom : Nat) (s : Spawning) :
    Option Spawning :=
  mgr.spawnGroup fuel kind (mgr.spawn1Object fuel kind) poolId triggerFrom s

/-- `UpdatePool<T>`: a member of a sub-pool triggers a new roll in the mother. -/
def updatePool (fuel : Nat) (kind : MemberKind) (poolId guid : Nat) (s : Spawning) :
    Option Spawning :=
  if mgr.isPartOfAPool poolId ≠ 0 then
    mgr.spawnPoolOf fuel .pool (mgr.isPartOfAPool poolId) poolId s
  else mgr.spawnPoolOf fuel kind poolId guid s

end PoolMgr

/-!
# Counters and marks of the spawned data

Each counter is the number of marked members, and no member of an unmarked sub-pool is marked.
-/
open Library

def PoolMgr.members (mgr : PoolMgr) (kind : MemberKind) (poolId : Nat) : List Nat :=
  ((mgr.groups kind poolId).equalChanced ++ (mgr.groups kind poolId).explicitlyChanced).map
    PoolObject.guid

/-- Loaded pool tables without cycles. `height` bounds the nesting below each
pool; limits are `uint32`. -/
structure PoolForest where
  mgr : PoolMgr
  poolId_eq : ∀ kind p, (mgr.groups kind p).isEmpty = false → (mgr.groups kind p).poolId = p
  members_nodup : ∀ kind p, (mgr.members kind p).Nodup
  one_pool : ∀ kind g p q, g ∈ mgr.members kind p → g ∈ mgr.members kind q → p = q
  search : ∀ c m, mgr.poolSearchMap c = some m ↔ c ∈ mgr.members .pool m
  maxLimit_lt : ∀ p, mgr.maxLimit p < 2 ^ 32
  height : Nat → Nat
  height_lt : ∀ m c, c ∈ mgr.members .pool m → height c < height m

namespace SpawnedPoolData

variable (d : SpawnedPoolData)

theorem isSpawnedObject_setCount (p n : Nat) (kind : MemberKind) (g : Nat) :
    (d.setCount p n).isSpawnedObject kind g =
      if kind = .pool ∧ g = p then true else d.isSpawnedObject kind g := by
  cases kind with
  | creature => rfl
  | gameobject => rfl
  | pool =>
    by_cases hg : g = p
    · subst hg
      simp [isSpawnedObject, setCount]
    · simp [isSpawnedObject, setCount, hg]

theorem getSpawnedObjects_setCount (p n q : Nat) :
    (d.setCount p n).getSpawnedObjects q = if q = p then n else d.getSpawnedObjects q := by
  by_cases hq : q = p
  · subst hq
    simp [getSpawnedObjects, setCount]
  · simp [getSpawnedObjects, setCount, hq]

/-- The mark that `AddSpawn` sets, and the one its counter sets on the way. -/
theorem isSpawnedObject_addSpawn (kind kind' : MemberKind) (g g' p : Nat) :
    (d.addSpawn kind g p).isSpawnedObject kind' g' =
      if kind' = .pool ∧ g' = p then true
      else if kind' = kind ∧ g' = g then true
      else d.isSpawnedObject kind' g' := by
  cases kind <;> rw [addSpawn, countUp, isSpawnedObject_setCount] <;> cases kind' <;>
    by_cases hg : g' = g <;> simp [isSpawnedObject, hg]

theorem isSpawnedObject_removeSpawn (kind kind' : MemberKind) (g g' p : Nat) :
    (d.removeSpawn kind g p).isSpawnedObject kind' g' =
      if kind' = .pool ∧ g' = p then true
      else if kind' = kind ∧ g' = g then false
      else d.isSpawnedObject kind' g' := by
  cases kind <;> rw [removeSpawn, countDown, isSpawnedObject_setCount] <;> cases kind' <;>
    by_cases hg : g' = g <;> simp [isSpawnedObject, hg]

theorem getSpawnedObjects_addSpawn (kind : MemberKind) (g p q : Nat) (hne : kind = .pool → g ≠ p) :
    (d.addSpawn kind g p).getSpawnedObjects q =
      if q = p then d.getSpawnedObjects p + 1
      else if kind = .pool ∧ q = g then 0
      else d.getSpawnedObjects q := by
  cases kind with
  | creature =>
    rw [addSpawn, countUp, getSpawnedObjects_setCount]
    simp [getSpawnedObjects]
  | gameobject =>
    rw [addSpawn, countUp, getSpawnedObjects_setCount]
    simp [getSpawnedObjects]
  | pool =>
    have hgp := (hne rfl).symm
    rw [addSpawn, countUp, getSpawnedObjects_setCount]
    by_cases hq : q = g <;> simp [getSpawnedObjects, hgp, hq]

theorem getSpawnedObjects_removeSpawn (kind : MemberKind) (g p q : Nat)
    (hne : kind = .pool → g ≠ p) :
    (d.removeSpawn kind g p).getSpawnedObjects q =
      if q = p then d.getSpawnedObjects p - 1
      else if kind = .pool ∧ q = g then 0
      else d.getSpawnedObjects q := by
  cases kind with
  | creature =>
    rw [removeSpawn, countDown, getSpawnedObjects_setCount]
    simp [getSpawnedObjects]
  | gameobject =>
    rw [removeSpawn, countDown, getSpawnedObjects_setCount]
    simp [getSpawnedObjects]
  | pool =>
    have hgp := (hne rfl).symm
    rw [removeSpawn, countDown, getSpawnedObjects_setCount]
    by_cases hq : q = g <;> simp [getSpawnedObjects, hgp, hq]

theorem getSpawnedObjects_unmarked {p : Nat} (h : d.isSpawnedObject .pool p = false) :
    d.getSpawnedObjects p = 0 := by
  simp only [isSpawnedObject, Option.isSome_eq_false_iff, Option.isNone_iff_eq_none] at h
  simp [getSpawnedObjects, h]

end SpawnedPoolData

/-- Direct members of a pool, of all kinds, that are marked spawned. -/
def PoolMgr.numSpawned (mgr : PoolMgr) (d : SpawnedPoolData) (p : Nat) : Nat :=
  (mgr.members .creature p).countP (d.isSpawnedObject .creature) +
    (mgr.members .gameobject p).countP (d.isSpawnedObject .gameobject) +
    (mgr.members .pool p).countP (d.isSpawnedObject .pool)

namespace PoolForest

variable (forest : PoolForest)

/-- A root pool, or a sub-pool that is marked spawned in its mother. -/
def Placed (d : SpawnedPoolData) (p : Nat) : Prop :=
  (∃ m, p ∈ forest.mgr.members .pool m) → d.isSpawnedObject .pool p = true

/-- Counters are exact, and marked members lie in placed pools. -/
structure Consistent (d : SpawnedPoolData) : Prop where
  counts : ∀ p, d.getSpawnedObjects p = forest.mgr.numSpawned d p
  placed : ∀ kind p g, g ∈ forest.mgr.members kind p → d.isSpawnedObject kind g = true →
    forest.Placed d p

variable {forest} {d d' : SpawnedPoolData} {kind : MemberKind} {g p q : Nat}

theorem ne_of_member (hg : g ∈ forest.mgr.members .pool p) : g ≠ p := by
  rintro rfl
  exact Nat.lt_irrefl _ (forest.height_lt _ _ hg)

theorem numSpawned_same (hsame : ∀ kind, ∀ g ∈ forest.mgr.members kind q,
      d'.isSpawnedObject kind g = d.isSpawnedObject kind g) :
    forest.mgr.numSpawned d' q = forest.mgr.numSpawned d q := by
  unfold PoolMgr.numSpawned
  rw [countP_same (hsame .creature), countP_same (hsame .gameobject), countP_same (hsame .pool)]

theorem numSpawned_mark (hg : g ∈ forest.mgr.members kind p)
    (hoff : d.isSpawnedObject kind g = false) (hon : d'.isSpawnedObject kind g = true)
    (hsame : ∀ kind', ∀ g' ∈ forest.mgr.members kind' p, ¬ (kind' = kind ∧ g' = g) →
      d'.isSpawnedObject kind' g' = d.isSpawnedObject kind' g') :
    forest.mgr.numSpawned d' p = forest.mgr.numSpawned d p + 1 := by
  have hmark := countP_mark (forest.members_nodup kind p) hg hoff hon
    fun g' hg' hne => hsame kind g' hg' fun h => hne h.2
  have hother : ∀ kind', kind' ≠ kind →
      (forest.mgr.members kind' p).countP (d'.isSpawnedObject kind') =
        (forest.mgr.members kind' p).countP (d.isSpawnedObject kind') := fun kind' hne =>
    countP_same fun g' hg' => hsame kind' g' hg' fun h => hne h.1
  unfold PoolMgr.numSpawned
  cases kind with
  | creature =>
    rw [hmark, hother .gameobject (by decide), hother .pool (by decide)]
    omega
  | gameobject =>
    rw [hmark, hother .creature (by decide), hother .pool (by decide)]
    omega
  | pool =>
    rw [hmark, hother .creature (by decide), hother .gameobject (by decide)]
    omega

/-- Marks of the members of a pool other than the one written to, where the
written pool's own mark does not change. -/
theorem mark_elsewhere (hg : g ∈ forest.mgr.members kind p) (hplaced : forest.Placed d p)
    (hpq : q ≠ p) {on : Bool}
    (hwrite : ∀ kind' g', d'.isSpawnedObject kind' g' =
      if kind' = .pool ∧ g' = p then true
      else if kind' = kind ∧ g' = g then on
      else d.isSpawnedObject kind' g') :
    ∀ kind', ∀ g' ∈ forest.mgr.members kind' q,
      d'.isSpawnedObject kind' g' = d.isSpawnedObject kind' g' := by
  intro kind' g' hg'
  rw [hwrite]
  split
  · rename_i h
    obtain ⟨rfl, rfl⟩ := h
    exact (hplaced ⟨q, hg'⟩).symm
  · split
    · rename_i h
      obtain ⟨rfl, rfl⟩ := h
      exact absurd (forest.one_pool _ _ _ _ hg' hg) hpq
    · rfl

theorem mark_siblings
    {on : Bool}
    (hwrite : ∀ kind' g', d'.isSpawnedObject kind' g' =
      if kind' = .pool ∧ g' = p then true
      else if kind' = kind ∧ g' = g then on
      else d.isSpawnedObject kind' g') :
    ∀ kind', ∀ g' ∈ forest.mgr.members kind' p, ¬ (kind' = kind ∧ g' = g) →
      d'.isSpawnedObject kind' g' = d.isSpawnedObject kind' g' := by
  intro kind' g' hg' hne
  rw [hwrite, if_neg, if_neg hne]
  rintro ⟨rfl, rfl⟩
  exact ne_of_member hg' rfl

theorem Consistent.addSpawn (h : forest.Consistent d) (hg : g ∈ forest.mgr.members kind p)
    (hplaced : forest.Placed d p) (hoff : d.isSpawnedObject kind g = false) :
    forest.Consistent (d.addSpawn kind g p) := by
  have hwrite := fun kind' g' => d.isSpawnedObject_addSpawn kind kind' g g' p
  have hne : kind = .pool → g ≠ p := by
    rintro rfl
    exact ne_of_member hg
  have hmono : ∀ c, d.isSpawnedObject .pool c = true →
      (d.addSpawn kind g p).isSpawnedObject .pool c = true := by
    intro c hc
    rw [hwrite, hc]
    split
    · rfl
    · split <;> rfl
  constructor
  · intro q
    rw [d.getSpawnedObjects_addSpawn kind g p q hne]
    by_cases hqp : q = p
    · subst hqp
      rw [if_pos rfl, h.counts, numSpawned_mark hg hoff (by
        rw [hwrite]
        split <;> simp) (mark_siblings hwrite)]
    · rw [if_neg hqp, numSpawned_same (mark_elsewhere hg hplaced hqp hwrite), ← h.counts]
      split
      · rename_i hsub
        obtain ⟨rfl, rfl⟩ := hsub
        exact (d.getSpawnedObjects_unmarked hoff).symm
      · rfl
  · intro kind' q g' hg' hon hmother
    by_cases hqp : q = p
    · subst hqp
      rw [hwrite, if_pos ⟨rfl, rfl⟩]
    · rw [mark_elsewhere hg hplaced hqp hwrite kind' g' hg'] at hon
      exact hmono q (h.placed kind' q g' hg' hon hmother)

/-- Removing a marked member whose own members, if it is a sub-pool, are all
unmarked already. -/
theorem Consistent.removeSpawn (h : forest.Consistent d) (hg : g ∈ forest.mgr.members kind p)
    (hon : d.isSpawnedObject kind g = true)
    (hempty : kind = .pool → ∀ kind', ∀ g' ∈ forest.mgr.members kind' g,
      d.isSpawnedObject kind' g' = false) :
    forest.Consistent (d.removeSpawn kind g p) := by
  have hwrite := fun kind' g' => d.isSpawnedObject_removeSpawn kind kind' g g' p
  have hplaced := h.placed kind p g hg hon
  have hne : kind = .pool → g ≠ p := by
    rintro rfl
    exact ne_of_member hg
  have hoff : (d.removeSpawn kind g p).isSpawnedObject kind g = false := by
    rw [hwrite, if_neg, if_pos ⟨rfl, rfl⟩]
    rintro ⟨hkind, hgp⟩
    exact hne hkind hgp
  constructor
  · intro q
    rw [d.getSpawnedObjects_removeSpawn kind g p q hne]
    by_cases hqp : q = p
    · subst hqp
      have hless := numSpawned_mark hg hoff hon fun kind' g' hg' hne' =>
        (mark_siblings hwrite kind' g' hg' hne').symm
      rw [if_pos rfl, h.counts, hless]
      rfl
    · rw [if_neg hqp, numSpawned_same (mark_elsewhere hg hplaced hqp hwrite), ← h.counts]
      split
      · rename_i hsub
        obtain ⟨rfl, rfl⟩ := hsub
        rw [h.counts]
        unfold PoolMgr.numSpawned
        have hnone : ∀ kind', (forest.mgr.members kind' q).countP (d.isSpawnedObject kind') = 0 :=
          fun kind' => List.countP_eq_zero.mpr fun g' hg' => by simp [hempty rfl kind' g' hg']
        simp only [hnone]
      · rfl
  · intro kind' q g' hg' hon' hmother
    by_cases hqp : q = p
    · subst hqp
      rw [hwrite, if_pos ⟨rfl, rfl⟩]
    rw [mark_elsewhere hg hplaced hqp hwrite kind' g' hg'] at hon'
    have hold := h.placed kind' q g' hg' hon' hmother
    rw [hwrite, hold]
    split
    · rfl
    split
    · rename_i hsub
      obtain ⟨hkind, rfl⟩ := hsub
      rw [hempty hkind.symm kind' g' hg'] at hon'
      cases hon'
    · rfl

end PoolForest

end LegionServer.Source.Pools
