import LegionServer.Source.Pools.SpawnEffects

/-!
# Loading the pool tables

`PoolMgr::LoadFromDB` (`PoolMgr.cpp:437-744`) with the check for circular
references, `RemoveOneRelation` and `IsEmpty` (`PoolMgr.cpp:144-156`, `266-286`,
`833-852`). Messages, the search maps of creatures and game objects, and the pools
spawned by default are left out.
-/
namespace LegionServer.Source.Pools
open List

structure PoolTemplateRow where
  entry : Nat
  maxLimit : Nat
  deriving DecidableEq, Repr

/-- A row of `pool_members`, whose `type` is 0, 1 or 2; `spawnId` is a `uint64`. -/
structure PoolMemberRow where
  type : MemberKind
  spawnId : Nat
  poolSpawnId : Nat
  chance : ℚ
  deriving DecidableEq, Repr

/-- `uint32 child_pool_id = fields[0].GetUInt64()`. -/
def PoolMemberRow.childPoolId (row : PoolMemberRow) : Nat := row.spawnId % 2 ^ 32

/-- What `ObjectMgr` knows of the spawns: `GetCreatureData(guid)->mapId`, the same of
game objects, and whether a game object is of a type that can be looted. -/
structure SpawnStore where
  creatureMap : Nat → Option Nat
  gameobjectMap : Nat → Option Nat
  lootable : Nat → Bool

def eraseGuid (objects : List PoolObject) (guid : Nat) : List PoolObject :=
  objects.eraseP fun object => object.guid = guid

def PoolGroup.removeOneRelation (group : PoolGroup) (childPoolId : Nat) : PoolGroup :=
  { group with
    explicitlyChanced := eraseGuid group.explicitlyChanced childPoolId
    equalChanced := eraseGuid group.equalChanced childPoolId }

/-- `mapIds` is `mPoolTemplate[..].MapId`, of the pools that have a template. -/
structure LoadedPools where
  mgr : PoolMgr
  mapIds : Nat → Option Int

namespace LoadedPools

variable (pools : LoadedPools)

def empty : LoadedPools where
  mgr := { maxLimit := fun _ => 0, groups := fun _ _ => {}, poolSearchMap := fun _ => none }
  mapIds := fun _ => none

/-- A read of `mPoolTemplate[poolId].MapId`. -/
def mapId (poolId : Nat) : Int := (pools.mapIds poolId).getD 0

def setMapId (poolId : Nat) (mapId : Int) : LoadedPools :=
  { pools with mapIds := Function.update pools.mapIds poolId (some mapId) }

def setGroup (kind : MemberKind) (poolId : Nat) (group : PoolGroup) : LoadedPools :=
  { pools with
    mgr.groups :=
      Function.update pools.mgr.groups kind (Function.update (pools.mgr.groups kind) poolId group) }

def setSearch (search : Nat → Option Nat) : LoadedPools :=
  { pools with mgr.poolSearchMap := search }

/-- `SetPoolId` and `AddEntry`. -/
def addEntry (kind : MemberKind) (poolId : Nat) (object : PoolObject) : LoadedPools :=
  pools.setGroup kind poolId
    ({ pools.mgr.groups kind poolId with poolId }.addEntry object (pools.mgr.maxLimit poolId))

def loadTemplate (row : PoolTemplateRow) : LoadedPools :=
  { pools.setMapId row.entry (-1) with
    mgr.maxLimit := Function.update pools.mgr.maxLimit row.entry row.maxLimit }

/-- A row of a creature or a game object that is on the map `mapId`. -/
def loadSpawn (row : PoolMemberRow) (mapId : Nat) : LoadedPools :=
  match pools.mapIds row.poolSpawnId with
  | none => pools
  | some current =>
    if row.chance < 0 ∨ 100 < row.chance then pools
    else
      let poolMap : Int := if current = -1 then mapId else current
      let pools := pools.setMapId row.poolSpawnId poolMap
      if poolMap ≠ mapId then pools
      else pools.addEntry row.type row.poolSpawnId ⟨row.spawnId, row.chance⟩

def loadSubPool (row : PoolMemberRow) : LoadedPools :=
  let child := row.childPoolId
  let mother := row.poolSpawnId
  if (pools.mapIds mother).isNone then pools
  else if (pools.mapIds child).isNone then pools
  else if mother = child then pools
  else if row.chance < 0 ∨ 100 < row.chance then pools
  else
    let search := pools.mgr.poolSearchMap
    -- `insert` keeps the entry that a child has
    (pools.addEntry .pool mother ⟨child, row.chance⟩).setSearch
      (Function.update search child (some ((search child).getD mother)))

def loadMember (store : SpawnStore) (row : PoolMemberRow) : LoadedPools :=
  match row.type with
  | .creature =>
    match store.creatureMap row.spawnId with
    | none => pools
    | some mapId => pools.loadSpawn row mapId
  | .gameobject =>
    match store.gameobjectMap row.spawnId with
    | none => pools
    | some mapId => if store.lootable row.spawnId then pools.loadSpawn row mapId else pools
  | .pool => pools.loadSubPool row

/-- The rows in the order of the queries, before the check for circular references. -/
def load (store : SpawnStore) (templates : List PoolTemplateRow) (members : List PoolMemberRow) :
    LoadedPools :=
  let rows := [.creature, .gameobject, .pool].flatMap fun type => members.filter (·.type = type)
  rows.foldl (fun pools row => pools.loadMember store row) (templates.foldl loadTemplate empty)

/-- `mPoolPoolGroups[mother].RemoveOneRelation(child)` and the erasure from the search map. -/
def removeLink (child mother : Nat) : LoadedPools :=
  (pools.setGroup .pool mother ((pools.mgr.groups .pool mother).removeOneRelation child)).setSearch
      (Function.update pools.mgr.poolSearchMap child none)

/-- A mother without a map gets the one of the child. -/
def passMapId (child mother : Nat) : LoadedPools :=
  if pools.mapId child ≠ -1 ∧ pools.mapId mother = -1 then
    pools.setMapId mother (pools.mapId child)
  else pools

/-- The body of the inner loop; there are no checked pools after a `break`. -/
def checkLink (checkedPools : List Nat) (child mother : Nat) : LoadedPools × Option (List Nat) :=
  let pools := pools.passMapId child mother
  if pools.mapId child ≠ -1 ∧ pools.mapId mother ≠ pools.mapId child then
    (pools.removeLink child mother, none)
  else
    let checkedPools := child :: checkedPools
    if mother ∈ checkedPools then (pools.removeLink child mother, none)
    else (pools, some checkedPools)

end LoadedPools

/-- The check for circular references: `todo` are the pools of `mPoolTemplate` that the
outer loop has not come to; `walk` is the key that `poolItr` is looked up by next,
with `checkedPools`. -/
structure RelationCheck where
  pools : LoadedPools
  todo : List Nat
  walk : Option (Nat × List Nat) := none

namespace RelationCheck

/-- One turn of the inner loop, its end, or the next turn of the outer one. -/
def step (s : RelationCheck) : Option RelationCheck :=
  match s.walk with
  | none =>
    match s.todo with
    | [] => none
    | poolId :: todo => some { s with todo, walk := some (poolId, []) }
  | some (child, checkedPools) =>
    match s.pools.mgr.poolSearchMap child with
    | none => some { s with walk := none }
    | some mother =>
      let (pools, checkedPools) := s.pools.checkLink checkedPools child mother
      some { s with pools, walk := checkedPools.map fun checkedPools => (mother, checkedPools) }

def after (s : RelationCheck) : Nat → RelationCheck
  | 0 => s
  | turns + 1 => (s.after turns).step.getD (s.after turns)

end RelationCheck

namespace PoolMgr

variable (mgr : PoolMgr)

/-- `PoolGroup<Pool>::isEmptyDeepCheck`, up to the first pool that is not empty. -/
def allEmpty (isEmpty : Nat → Option Bool) : List PoolObject → Option Bool
  | [] => some true
  | object :: rest =>
    match isEmpty object.guid with
    | none => none
    | some false => some false
    | some true => allEmpty isEmpty rest

/-- `IsEmpty`; `fuel` bounds the nesting of sub-pools. -/
def isEmpty : Nat → Nat → Option Bool
  | 0, _ => none
  | fuel + 1, poolId =>
    if !(mgr.groups .gameobject poolId).isEmpty then some false
    else if !(mgr.groups .creature poolId).isEmpty then some false
    else
      let group := mgr.groups .pool poolId
      allEmpty (isEmpty fuel) (group.explicitlyChanced ++ group.equalChanced)

end PoolMgr

/-!
# Nested pools

The calls for sub-pools come back where the nesting below each pool is bounded.
-/
open Source.Common

variable {mgr : PoolMgr} {height : Nat → Nat}

/-- `height` bounds the nesting below each pool. -/
def Nested (mgr : PoolMgr) (height : Nat → Nat) : Prop :=
  ∀ m, ∀ c ∈ mgr.members .pool m, height c < height m

variable {objects : List PoolObject}

theorem allEmpty_isSome {isEmpty : Nat → Option Bool}
    (h : ∀ object ∈ objects, (isEmpty object.guid).isSome) :
    (PoolMgr.allEmpty isEmpty objects).isSome := by
  induction objects with
  | nil => rfl
  | cons object objects ih =>
    rw [forall_mem_cons] at h
    obtain ⟨empty, hempty⟩ := Option.isSome_iff_exists.mp h.1
    cases empty <;> simp [PoolMgr.allEmpty, hempty, ih h.2]

variable {kind : MemberKind} {p : Nat}

theorem mem_members_iff {c : Nat} : c ∈ mgr.members kind p ↔
    ∃ object ∈ (mgr.groups kind p).explicitlyChanced ++ (mgr.groups kind p).equalChanced,
      object.guid = c := by
  simp only [PoolMgr.members, mem_map, mem_append, or_comm]

theorem isEmpty_isSome (hnested : Nested mgr height) :
    ∀ (fuel p : Nat), height p < fuel → (mgr.isEmpty fuel p).isSome
  | 0, _, hfuel => absurd hfuel (Nat.not_lt_zero _)
  | fuel + 1, p, hfuel => by
    rw [PoolMgr.isEmpty]
    split
    · rfl
    split
    · rfl
    refine allEmpty_isSome fun object hobject => ?_
    have hlt := hnested p object.guid (mem_members_iff.mpr ⟨object, hobject, rfl⟩)
    exact isEmpty_isSome hnested fuel object.guid (by omega)

variable {poolId guid : Nat} {despawn1Object : Nat → Spawning → Option Spawning}

theorem despawnLoop_isSome (h : ∀ object ∈ objects, ∀ s, (despawn1Object object.guid s).isSome) :
    ∀ s, (despawnLoop kind poolId guid despawn1Object objects s).isSome := by
  induction objects with
  | nil => exact fun _ => rfl
  | cons object objects ih =>
    intro s
    rw [forall_mem_cons] at h
    rw [despawnLoop]
    split
    · obtain ⟨s', hs'⟩ := Option.isSome_iff_exists.mp (h.1 s)
      rw [hs']
      exact ih h.2 _
    · exact ih h.2 s

variable {group : PoolGroup}

theorem despawnObject_isSome (h : ∀ object ∈ group.explicitlyChanced ++ group.equalChanced,
      ∀ s, (despawn1Object object.guid s).isSome)
    (s : Spawning) : (despawnObject kind group guid despawn1Object s).isSome := by
  rw [forall_mem_append] at h
  have hequal : (despawnLoop kind group.poolId guid despawn1Object group.equalChanced s).isSome :=
    despawnLoop_isSome h.2 s
  obtain ⟨s', hs'⟩ := Option.isSome_iff_exists.mp hequal
  rw [despawnObject, hs']
  exact despawnLoop_isSome h.1 s'

theorem despawnGroup_isSome (h : ∀ c ∈ mgr.members kind p, ∀ s, (despawn1Object c s).isSome)
    (s : Spawning) : (mgr.despawnGroup kind despawn1Object p s).isSome := by
  rw [PoolMgr.despawnGroup]
  split
  · rfl
  · exact despawnObject_isSome (fun object hobject =>
      h object.guid (mem_members_iff.mpr ⟨object, hobject, rfl⟩)) s

theorem despawnPool_isSome (hnested : Nested mgr height) :
    ∀ (fuel p : Nat) (s : Spawning), height p < fuel → (mgr.despawnPool fuel p s).isSome
  | 0, _, _, hfuel => absurd hfuel (Nat.not_lt_zero _)
  | fuel + 1, p, s, hfuel => by
    have hmap : ∀ kind, ∀ c ∈ mgr.members kind p, ∀ s : Spawning,
        ((fun _ s => some s : Nat → Spawning → Option Spawning) c s).isSome :=
      fun _ _ _ _ => rfl
    rw [PoolMgr.despawnPool]
    obtain ⟨s1, hs1⟩ := Option.isSome_iff_exists.mp (despawnGroup_isSome (hmap .creature) s)
    rw [hs1]
    obtain ⟨s2, hs2⟩ := Option.isSome_iff_exists.mp (despawnGroup_isSome (hmap .gameobject) s1)
    simp only [hs2]
    refine despawnGroup_isSome (fun c hc s => ?_) s2
    have hlt := hnested p c hc
    exact despawnPool_isSome hnested fuel c s (by omega)

theorem rollObjects_subset (kind : MemberKind) (group : PoolGroup) (triggerFrom count : Nat)
    (s : Spawning) : (rollObjects kind group triggerFrom count s).1 ⊆
      group.explicitlyChanced ++ group.equalChanced := by
  have hequal : ∀ rng, (randomResize (group.equalChanced.filter fun object =>
      object.guid = triggerFrom ∨ s.data.isSpawnedObject kind object.guid = false) count rng).1 ⊆
        group.explicitlyChanced ++ group.equalChanced := by
    intro rng object hobject
    have hfilter := (randomResize_sublist _ count rng).subset hobject
    exact mem_append_right _ (mem_of_mem_filter hfilter)
  have hexplicit : ∀ roll, rollExplicit (s.data.isSpawnedObject kind) triggerFrom roll
      group.explicitlyChanced ⊆ group.explicitlyChanced ++ group.equalChanced := by
    intro roll object hobject
    exact mem_append_left _
      ((PoolForest.rollExplicit_spec _ triggerFrom group.explicitlyChanced roll).1.subset hobject)
  unfold rollObjects
  dsimp only
  split <;> split <;> simp only [nil_subset, hequal, hexplicit]

variable {spawn1Object : Nat → Spawning → Option Spawning}

theorem spawnRolled_isSome (h : ∀ object ∈ objects, ∀ s, (spawn1Object object.guid s).isSome) :
    ∀ triggerFrom s, (spawnRolled kind poolId spawn1Object objects triggerFrom s).isSome := by
  induction objects with
  | nil => exact fun _ _ => rfl
  | cons object objects ih =>
    intro triggerFrom s
    rw [forall_mem_cons] at h
    rw [spawnRolled]
    split
    · exact ih h.2 _ _
    · obtain ⟨s', hs'⟩ := Option.isSome_iff_exists.mp
        (h.1 { s with data := s.data.addSpawn kind object.guid poolId })
      rw [hs']
      exact ih h.2 _ _

variable {triggerFrom : Nat}

theorem spawnObject_isSome {limit : Nat}
    (hspawn : ∀ object ∈ group.explicitlyChanced ++ group.equalChanced,
      ∀ s, (spawn1Object object.guid s).isSome)
    (hdespawn : ∀ object ∈ group.explicitlyChanced ++ group.equalChanced,
      ∀ s, (despawn1Object object.guid s).isSome)
    (s : Spawning) :
    (spawnObject kind group limit triggerFrom spawn1Object despawn1Object s).isSome := by
  have hrolled : ∀ count (s' : Spawning), (spawnRolled kind group.poolId spawn1Object
      (rollObjects kind group triggerFrom count s).1 triggerFrom s').isSome := fun count =>
    spawnRolled_isSome (fun object hobject =>
      hspawn object (rollObjects_subset kind group triggerFrom count s hobject)) triggerFrom
  unfold spawnObject
  dsimp only
  split
  · rename_i hnone
    split at hnone
    · exact absurd hnone (Option.isSome_iff_ne_none.mp (hrolled _ _))
    · cases hnone
  · split
    · exact despawnObject_isSome hdespawn _
    · rfl

variable {fuel : Nat}

theorem spawnGroup_isSome (hspawn : ∀ c ∈ mgr.members kind p, ∀ s, (spawn1Object c s).isSome)
    (hdespawn : ∀ c ∈ mgr.members kind p, ∀ s, (mgr.despawn1Object fuel kind c s).isSome)
    (s : Spawning) : (mgr.spawnGroup fuel kind spawn1Object p triggerFrom s).isSome := by
  have hmember : ∀ object ∈ (mgr.groups kind p).explicitlyChanced ++
      (mgr.groups kind p).equalChanced, object.guid ∈ mgr.members kind p :=
    fun object hobject => mem_members_iff.mpr ⟨object, hobject, rfl⟩
  rw [PoolMgr.spawnGroup]
  split
  · rfl
  · exact spawnObject_isSome (fun object hobject => hspawn _ (hmember object hobject))
      (fun object hobject => hdespawn _ (hmember object hobject)) s

theorem spawnPool_isSome (hnested : Nested mgr height) :
    ∀ (fuel p : Nat) (s : Spawning), height p < fuel → (mgr.spawnPool fuel p s).isSome
  | 0, _, _, hfuel => absurd hfuel (Nat.not_lt_zero _)
  | fuel + 1, p, s, hfuel => by
    have hmap : ∀ kind, ∀ c ∈ mgr.members kind p, ∀ s : Spawning,
        ((fun _ s => some s : Nat → Spawning → Option Spawning) c s).isSome :=
      fun _ _ _ _ => rfl
    have hbelow : ∀ c ∈ mgr.members .pool p, height c < fuel := by
      intro c hc
      have hlt := hnested p c hc
      omega
    rw [PoolMgr.spawnPool]
    obtain ⟨s1, hs1⟩ := Option.isSome_iff_exists.mp (spawnGroup_isSome
      (fun c hc s => spawnPool_isSome hnested fuel c s (hbelow c hc))
      (fun c hc s => despawnPool_isSome hnested fuel c s (hbelow c hc)) s)
    rw [hs1]
    have hgameobjects : (mgr.spawnGroup fuel .gameobject (fun _ s => some s) p 0 s1).isSome :=
      spawnGroup_isSome (hmap .gameobject) (fun _ _ _ => rfl) s1
    obtain ⟨s2, hs2⟩ := Option.isSome_iff_exists.mp hgameobjects
    simp only [hs2]
    exact spawnGroup_isSome (hmap .creature) (fun _ _ _ => rfl) s2

/-- A pool that is not empty has a creature or a game object, or a pool that is not. -/
theorem isEmpty_eq_false (h : mgr.isEmpty (fuel + 1) p = some false) :
    (∃ kind ≠ .pool, (mgr.groups kind p).isEmpty = false) ∨
      ∃ c ∈ mgr.members .pool p, mgr.isEmpty fuel c = some false := by
  rw [PoolMgr.isEmpty] at h
  split at h
  · rename_i hfull
    exact .inl ⟨.gameobject, by decide, by simpa using hfull⟩
  split at h
  · rename_i hfull
    exact .inl ⟨.creature, by decide, by simpa using hfull⟩
  have hall : ∀ objects : List PoolObject,
      PoolMgr.allEmpty (mgr.isEmpty fuel) objects = some false →
      ∃ object ∈ objects, mgr.isEmpty fuel object.guid = some false := by
    intro objects hobjects
    induction objects with
    | nil => cases hobjects
    | cons object objects ih =>
      rw [PoolMgr.allEmpty] at hobjects
      split at hobjects
      · cases hobjects
      · rename_i hempty
        exact ⟨object, mem_cons_self, hempty⟩
      · obtain ⟨object', hmem, hempty⟩ := ih hobjects
        exact ⟨object', mem_cons_of_mem _ hmem, hempty⟩
  obtain ⟨object, hobject, hempty⟩ := hall _ h
  exact .inr ⟨object.guid, mem_members_iff.mpr ⟨object, hobject, rfl⟩, hempty⟩

end LegionServer.Source.Pools
