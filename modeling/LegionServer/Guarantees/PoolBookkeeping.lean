import LegionServer.Library.Transition
import LegionServer.Source.Pools.SpawnEffects

/-!
# Pool bookkeeping over whole runs

The spawned data of a forest of pools, under spawning and despawning of root
pools and under updates triggered by spawned members, with every random outcome.
-/
namespace LegionServer.Guarantees.PoolBookkeeping
open Library Source.Common Source.Pools PoolForest

/-- What the server asks of `PoolMgr`: game events spawn and despawn root pools,
the respawn of a member updates its pool. -/
inductive PoolRequest where
  | spawnPool (poolId : Nat)
  | updatePool (kind : MemberKind) (poolId guid : Nat)
  | despawnPool (poolId : Nat)

/-- Root pools, and members that are spawned now. -/
def PoolRequest.admissible (forest : PoolForest) (d : SpawnedPoolData) : PoolRequest → Prop
  | .spawnPool p => ∀ m, p ∉ forest.mgr.members .pool m
  | .updatePool kind p g => g ∈ forest.mgr.members kind p ∧ d.isSpawnedObject kind g = true
  | .despawnPool p => ∀ m, p ∉ forest.mgr.members .pool m

/-- The call, with fuel for the nesting of the pools it can reach. -/
def PoolRequest.perform (forest : PoolForest) : PoolRequest → Spawning → Option Spawning
  | .spawnPool p => forest.mgr.spawnPool (forest.height p + 1) p
  | .updatePool kind p g =>
    forest.mgr.updatePool (forest.height p + forest.height (forest.mgr.isPartOfAPool p)) kind p g
  | .despawnPool p => forest.mgr.despawnPool (forest.height p + 1) p

/-- The run-time data from server start; `rng` ranges over all random outcomes. -/
def poolSystem (forest : PoolForest) : System SpawnedPoolData PoolRequest where
  init d := d = {}
  step request d d' := request.admissible forest d ∧
    ∃ rng after, request.perform forest { data := d, rng := rng } = some after ∧ after.data = d'

/-- The invariant: exact counters, placed marks, and every limit kept. -/
structure Bookkeeping (forest : PoolForest) (d : SpawnedPoolData) : Prop where
  consistent : forest.Consistent d
  limits : ∀ p, forest.mgr.numSpawned d p ≤ forest.mgr.maxLimit p

variable {forest : PoolForest} {d d' : SpawnedPoolData}

theorem Bookkeeping.within {h : Nat} (hd : Bookkeeping forest d) : forest.Within h d :=
  fun q _ => hd.limits q

variable {p : Nat}

theorem Bookkeeping.spawned (hd : Bookkeeping forest d) (h : PoolForest.Spawned forest p d d')
    (hown : forest.mgr.numSpawned d' p ≤ forest.mgr.maxLimit p) : Bookkeeping forest d' := by
  refine ⟨h.consistent, fun q => ?_⟩
  by_cases hlow : forest.height q < forest.height p
  · exact h.within q hlow
  by_cases heq : q = p
  · rw [heq]
    exact hown
  · rw [numSpawned_same (h.outside q heq (by omega))]
    exact hd.limits q

theorem Bookkeeping.despawned (hd : Bookkeeping forest d) (h : PoolForest.Emptied forest p d d') :
    Bookkeeping forest d' :=
  ⟨h.1.consistent, fun q => Nat.le_trans (h.1.down.numSpawned_le q) (hd.limits q)⟩

theorem bookkeeping_empty (forest : PoolForest) : Bookkeeping forest {} := by
  have hoff : ∀ kind g, ({} : SpawnedPoolData).isSpawnedObject kind g = false := by
    intro kind g
    cases kind <;> rfl
  have hzero : ∀ p, forest.mgr.numSpawned {} p = 0 := by
    intro p
    have hnone : ∀ kind, (forest.mgr.members kind p).countP
        (({} : SpawnedPoolData).isSpawnedObject kind) = 0 := fun kind =>
      List.countP_eq_zero.mpr fun g _ => by simp [hoff]
    simp only [PoolMgr.numSpawned, hnone]
  refine ⟨⟨fun p => ?_, fun kind p g _ hon => ?_⟩, fun p => ?_⟩
  · rw [hzero]
    rfl
  · rw [hoff] at hon
    cases hon
  · rw [hzero]
    exact Nat.zero_le _

variable {fuel : Nat} {kind : MemberKind}

/-- `SpawnPool<T>` on a placed pool, with or without a trigger. -/
theorem spawnPoolOf_keeps {triggerFrom : Nat} (s : Spawning) (hfuel : forest.height p ≤ fuel)
    (hd : Bookkeeping forest s.data) (hp : forest.Placed s.data p)
    (htrigger : PoolForest.TriggerOk forest kind p triggerFrom s.data) :
    ∃ s', forest.mgr.spawnPoolOf fuel kind p triggerFrom s = some s' ∧
      Bookkeeping forest s'.data := by
  obtain ⟨s', heq, hspawned, hown⟩ := spawnGroup_spec fuel kind
    (spawnsMembers hfuel) hfuel s htrigger hd.consistent hd.within hp (hd.limits p)
  exact ⟨s', heq, hd.spawned hspawned hown⟩

/-- The trigger of an update is the member itself, or its sub-pool in the
mother pool; the sub-pool is marked because one of its members is. -/
theorem updatePool_keeps {g : Nat} (s : Spawning) (hfuel : forest.height p ≤ fuel)
    (hmother : forest.height (forest.mgr.isPartOfAPool p) ≤ fuel) (hd : Bookkeeping forest s.data)
    (hg : g ∈ forest.mgr.members kind p) (hon : s.data.isSpawnedObject kind g = true) :
    ∃ s', forest.mgr.updatePool fuel kind p g s = some s' ∧ Bookkeeping forest s'.data := by
  have hp := hd.consistent.placed kind p g hg hon
  unfold PoolMgr.updatePool
  split
  · rename_i hsub
    have hsearch : forest.mgr.poolSearchMap p = some (forest.mgr.isPartOfAPool p) := by
      unfold PoolMgr.isPartOfAPool at hsub ⊢
      cases h : forest.mgr.poolSearchMap p with
      | none => simp [h] at hsub
      | some m => rfl
    have hmem := (forest.search p _).mp hsearch
    have hmark := hp ⟨_, hmem⟩
    exact spawnPoolOf_keeps s hmother hd (hd.consistent.placed .pool _ p hmem hmark)
      ⟨fun _ => hmem, fun _ => hmark⟩
  · exact spawnPoolOf_keeps s hfuel hd hp ⟨fun _ => hg, fun _ => hon⟩

theorem perform_keeps (request : PoolRequest) (s : Spawning) (hd : Bookkeeping forest s.data)
    (hok : request.admissible forest s.data) :
    ∃ s', request.perform forest s = some s' ∧ Bookkeeping forest s'.data := by
  cases request with
  | spawnPool p =>
    have hp : forest.Placed s.data p := fun h => absurd h.choose_spec (hok _)
    obtain ⟨s', heq, hspawned, hown⟩ := spawnPool_spec _ p s (Nat.lt_succ_self _)
      hd.consistent hd.within hp (hd.limits p)
    exact ⟨s', heq, hd.spawned hspawned hown⟩
  | updatePool kind p g =>
    exact updatePool_keeps s (Nat.le_add_right _ _) (Nat.le_add_left _ _) hd hok.1 hok.2
  | despawnPool p =>
    obtain ⟨s', heq, hempty⟩ := despawnPool_spec _ p s (Nat.lt_succ_self _) hd.consistent
    exact ⟨s', heq, hd.despawned hempty⟩

theorem reachable_bookkeeping (h : (poolSystem forest).Reachable d) : Bookkeeping forest d := by
  refine h.invariant (Bookkeeping forest) ?_ ?_
  · intro d hinit
    rw [hinit]
    exact bookkeeping_empty forest
  · intro request d d' hd hstep
    obtain ⟨hok, rng, after, hrun, rfl⟩ := hstep
    obtain ⟨s', heq, hkeep⟩ := perform_keeps request { data := d, rng := rng } hd hok
    cases Option.some.inj (heq.symm.trans hrun)
    exact hkeep

/-- In every reachable state each counter is the number of marked direct members
and within its limit, the members of an unmarked sub-pool are unmarked, and the
next request returns whatever is drawn. -/
theorem reachable_pools_counted (h : (poolSystem forest).Reachable d) :
    (∀ p, d.getSpawnedObjects p = forest.mgr.numSpawned d p ∧
      d.getSpawnedObjects p ≤ forest.mgr.maxLimit p) ∧
    (∀ m c kind g, c ∈ forest.mgr.members .pool m → g ∈ forest.mgr.members kind c →
      d.isSpawnedObject kind g = true → d.isSpawnedObject .pool c = true) ∧
    ∀ request : PoolRequest, request.admissible forest d → ∀ rng,
      ∃ after, request.perform forest { data := d, rng := rng } = some after := by
  have hd := reachable_bookkeeping h
  refine ⟨fun p => ?_, fun m c kind g hc hg hon => ?_, fun request hok rng => ?_⟩
  · rw [hd.consistent.counts p]
    exact ⟨rfl, hd.limits p⟩
  · exact hd.consistent.placed kind c g hg hon ⟨m, hc⟩
  · obtain ⟨after, heq, _⟩ := perform_keeps request { data := d, rng := rng } hd hok
    exact ⟨after, heq⟩

/-- Root pool 1 spawns one of the sub-pools 10 and 11; sub-pool 10 spawns one of
the creatures 100 and 101. -/
def nestedGroups : MemberKind → Nat → PoolGroup
  | .pool, 1 => (({ poolId := 1 } : PoolGroup).addEntry ⟨10, 0⟩ 1).addEntry ⟨11, 0⟩ 1
  | .creature, 10 => (({ poolId := 10 } : PoolGroup).addEntry ⟨100, 0⟩ 1).addEntry ⟨101, 0⟩ 1
  | _, _ => {}

def nestedPools : PoolMgr where
  maxLimit _ := 1
  groups := nestedGroups
  poolSearchMap c := if c = 10 ∨ c = 11 then some 1 else none

theorem mem_nestedPools (kind : MemberKind) (p g : Nat) : g ∈ nestedPools.members kind p ↔
    (kind = .pool ∧ p = 1 ∧ (g = 10 ∨ g = 11)) ∨
      (kind = .creature ∧ p = 10 ∧ (g = 100 ∨ g = 101)) := by
  unfold PoolMgr.members nestedPools
  dsimp only
  unfold nestedGroups
  split <;> simp_all [PoolGroup.addEntry]

theorem nested_unique (kind : MemberKind) (g p q : Nat) (hp : g ∈ nestedPools.members kind p)
    (hq : g ∈ nestedPools.members kind q) : p = q := by
  rw [mem_nestedPools] at hp hq
  omega

theorem nested_search (c m : Nat) :
    nestedPools.poolSearchMap c = some m ↔ c ∈ nestedPools.members .pool m := by
  rw [mem_nestedPools]
  simp only [nestedPools]
  split
  · simp_all
    omega
  · simp_all

def nestedForest : PoolForest where
  mgr := nestedPools
  poolId_eq kind p h := by
    unfold nestedPools nestedGroups at h ⊢
    dsimp only at h ⊢
    split <;> simp_all [PoolGroup.addEntry, PoolGroup.isEmpty]
  members_nodup kind p := by
    unfold PoolMgr.members nestedPools nestedGroups
    dsimp only
    split <;> simp [PoolGroup.addEntry]
  one_pool := nested_unique
  search := nested_search
  maxLimit_lt _ := Nat.one_lt_two_pow (by decide)
  height p := if p = 1 then 2 else if p = 10 then 1 else 0
  height_lt m c h := by
    rw [mem_nestedPools] at h
    simp at h
    obtain ⟨rfl, rfl | rfl⟩ := h <;> decide

def nestedSpawned : Option Spawning :=
  (PoolRequest.spawnPool 1).perform nestedForest
    { data := {}, rng := { chance := fun _ => 0, int := fun _ => 0 } }

example : nestedSpawned.map (fun s => (s.data.isSpawnedObject .creature 100,
    s.data.getSpawnedObjects 1, s.data.getSpawnedObjects 10)) = some (true, 1, 1) := by
  decide

theorem reachable_pools_counted_nested : ∃ s, nestedSpawned = some s ∧
    s.data.getSpawnedObjects 1 = nestedPools.numSpawned s.data 1 ∧
    s.data.getSpawnedObjects 1 ≤ 1 := by
  obtain ⟨s, hs⟩ := Option.isSome_iff_exists.mp (show nestedSpawned.isSome = true by decide)
  have hroot : ∀ m, 1 ∉ nestedForest.mgr.members .pool m := by
    intro m h
    rcases (mem_nestedPools .pool m 1).mp h with ⟨_, _, h | h⟩ | ⟨h, _⟩ <;> cases h
  have hcounted := (@reachable_pools_counted nestedForest s.data (.step (.spawnPool 1)
    (.init rfl) ⟨hroot, _, s, hs, rfl⟩)).1 1
  exact ⟨s, hs, hcounted⟩

/-- `c` is the pool `p` or in it, however deep. -/
def Inside (forest : PoolForest) (p c : Nat) : Prop :=
  Relation.ReflTransGen (fun m c => c ∈ forest.mgr.members .pool m) p c

/-- `DespawnPool` leaves nothing of the pool and of those in it, and spawns nothing. -/
theorem despawnPool_empties (h : (poolSystem forest).Reachable d) (p : Nat) (rng : Rng) :
    ∃ after, (PoolRequest.despawnPool p).perform forest { data := d, rng } = some after ∧
      (∀ c, Inside forest p c → after.data.getSpawnedObjects c = 0 ∧
        ∀ kind, ∀ g ∈ forest.mgr.members kind c, after.data.isSpawnedObject kind g = false) ∧
      ∀ kind q, ∀ g ∈ forest.mgr.members kind q, after.data.isSpawnedObject kind g = true →
        d.isSpawnedObject kind g = true := by
  have hd := reachable_bookkeeping h
  obtain ⟨s', hrun, hdespawned, hclear⟩ :=
    despawnPool_spec _ p { data := d, rng } (Nat.lt_succ_self _) hd.consistent
  have hconsistent := hdespawned.consistent
  refine ⟨s', hrun, fun c hc => ?_, hdespawned.down⟩
  have hnone : ∀ kind, ∀ g ∈ forest.mgr.members kind c, s'.data.isSpawnedObject kind g = false := by
    -- a sub-pool is marked where one of its members is
    induction hc with
    | refl => exact hclear
    | tail _ hsub ih =>
      intro kind g hg
      rw [Bool.eq_false_iff]
      intro hon
      have hmarked := hconsistent.placed kind _ _ hg hon ⟨_, hsub⟩
      rw [ih .pool _ hsub] at hmarked
      cases hmarked
  refine ⟨?_, hnone⟩
  have hcount : ∀ kind, (forest.mgr.members kind c).countP (s'.data.isSpawnedObject kind) = 0 :=
    fun kind => List.countP_eq_zero.mpr fun g hg => by simp [hnone kind g hg]
  rw [hconsistent.counts c, PoolMgr.numSpawned, hcount, hcount, hcount]

theorem despawnPool_empties_nested : ∃ s, nestedSpawned = some s ∧ ∃ after,
    (PoolRequest.despawnPool 1).perform nestedForest s = some after ∧
      after.data.getSpawnedObjects 10 = 0 := by
  obtain ⟨s, hs⟩ := Option.isSome_iff_exists.mp (show nestedSpawned.isSome = true by decide)
  have hroot : ∀ m, 1 ∉ nestedForest.mgr.members .pool m := by
    intro m hmem
    have hsub := (mem_nestedPools .pool m 1).mp hmem
    simp at hsub
  obtain ⟨after, hrun, hempty, -⟩ := despawnPool_empties
    (.step (.spawnPool 1) (.init rfl) ⟨hroot, _, s, hs, rfl⟩) 1 s.rng
  refine ⟨s, hs, after, hrun, (hempty 10 (.single ?_)).1⟩
  exact (mem_nestedPools .pool 1 10).mpr (by simp)

end LegionServer.Guarantees.PoolBookkeeping
