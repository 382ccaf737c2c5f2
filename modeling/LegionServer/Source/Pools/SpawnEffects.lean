import LegionServer.Source.Pools.SpawnedCounts

/-!
# Effects of despawning and spawning a pool

The recursion goes down in `height`, so an operation on a pool leaves the members of every pool
that is at least as high alone.
-/
namespace LegionServer.Source.Pools
open Library Source.Common List

namespace PoolForest

variable (forest : PoolForest)

/-- The members of a pool, of every kind, have the same marks in both data. -/
def SameMembers (p : Nat) (d d' : SpawnedPoolData) : Prop :=
  ∀ kind, ∀ g ∈ forest.mgr.members kind p, d'.isSpawnedObject kind g = d.isSpawnedObject kind g

/-- Nothing changed in the other pools that are at least as high as `p`. -/
def Outside (p : Nat) (d d' : SpawnedPoolData) : Prop :=
  ∀ q, q ≠ p → forest.height p ≤ forest.height q → forest.SameMembers q d d'

def OnlyDown (d d' : SpawnedPoolData) : Prop :=
  ∀ kind q, ∀ g ∈ forest.mgr.members kind q,
    d'.isSpawnedObject kind g = true → d.isSpawnedObject kind g = true

/-- Every pool below height `h` keeps its limit. -/
def Within (h : Nat) (d : SpawnedPoolData) : Prop :=
  ∀ q, forest.height q < h → forest.mgr.numSpawned d q ≤ forest.mgr.maxLimit q

variable {forest} {d d' d'' : SpawnedPoolData} {kind : MemberKind} {g p q : Nat}

theorem SameMembers.trans (h : forest.SameMembers p d d') (h' : forest.SameMembers p d' d'') :
    forest.SameMembers p d d'' :=
  fun kind g hg => (h' kind g hg).trans (h kind g hg)

theorem Outside.refl : forest.Outside p d d := fun _ _ _ _ _ _ => rfl

theorem Outside.trans (h : forest.Outside p d d') (h' : forest.Outside p d' d'') :
    forest.Outside p d d'' :=
  fun q hne hle => (h q hne hle).trans (h' q hne hle)

theorem Outside.mother_same (h : forest.Outside g d d') (hg : g ∈ forest.mgr.members .pool p) :
    forest.SameMembers p d d' :=
  h p (ne_of_member hg).symm (Nat.le_of_lt (forest.height_lt _ _ hg))

theorem Outside.mother (h : forest.Outside g d d') (hg : g ∈ forest.mgr.members .pool p) :
    forest.Outside p d d' := by
  intro q _ hle
  have hlt := forest.height_lt _ _ hg
  apply h q
  · intro heq
    rw [heq] at hle
    omega
  · omega

theorem Outside.placed (h : forest.Outside p d d') (hp : forest.Placed d p) :
    forest.Placed d' p := by
  intro hmother
  obtain ⟨m, hm⟩ := hmother
  rw [h.mother_same hm .pool p hm]
  exact hp ⟨m, hm⟩

theorem OnlyDown.refl : forest.OnlyDown d d := fun _ _ _ _ h => h

theorem OnlyDown.trans (h : forest.OnlyDown d d') (h' : forest.OnlyDown d' d'') :
    forest.OnlyDown d d'' :=
  fun kind q g hg hon => h kind q g hg (h' kind q g hg hon)

theorem OnlyDown.unmarked (h : forest.OnlyDown d d') (hg : g ∈ forest.mgr.members kind q)
    (hoff : d.isSpawnedObject kind g = false) : d'.isSpawnedObject kind g = false := by
  cases hon : d'.isSpawnedObject kind g with
  | false => rfl
  | true =>
    rw [h kind q g hg hon] at hoff
    cases hoff

theorem OnlyDown.numSpawned_le (h : forest.OnlyDown d d') (q : Nat) :
    forest.mgr.numSpawned d' q ≤ forest.mgr.numSpawned d q := by
  have hle : ∀ kind, (forest.mgr.members kind q).countP (d'.isSpawnedObject kind) ≤
      (forest.mgr.members kind q).countP (d.isSpawnedObject kind) := fun kind =>
    countP_mono_left fun g hg => h kind q g hg
  have hcreature := hle .creature
  have hgameobject := hle .gameobject
  have hpool := hle .pool
  unfold PoolMgr.numSpawned
  omega

variable {h : Nat}

theorem OnlyDown.within (hdown : forest.OnlyDown d d') (hd : forest.Within h d) :
    forest.Within h d' :=
  fun q hq => Nat.le_trans (hdown.numSpawned_le q) (hd q hq)

/-- An operation on a sub-pool that keeps the limits up to its own keeps all
limits below its mother. -/
theorem Within.mother (hd : forest.Within (forest.height p) d)
    (hout : forest.Outside g d d') (hbelow : forest.Within (forest.height g) d')
    (hown : forest.mgr.numSpawned d' g ≤ forest.mgr.maxLimit g) :
    forest.Within (forest.height p) d' := by
  intro q hq
  by_cases hlow : forest.height q < forest.height g
  · exact hbelow q hlow
  by_cases heq : q = g
  · rw [heq]
    exact hown
  · rw [numSpawned_same (hout q heq (by omega))]
    exact hd q hq

theorem addSpawn_outside (hg : g ∈ forest.mgr.members kind p) (hp : forest.Placed d p) :
    forest.Outside p d (d.addSpawn kind g p) :=
  fun _ hne _ => mark_elsewhere hg hp hne fun kind' g' => d.isSpawnedObject_addSpawn kind kind' g g' p

theorem addSpawn_within (hg : g ∈ forest.mgr.members kind p) (hp : forest.Placed d p)
    (hh : h ≤ forest.height p) (hd : forest.Within h d) :
    forest.Within h (d.addSpawn kind g p) := by
  intro q hq
  have hne : q ≠ p := by
    intro heq
    rw [heq] at hq
    omega
  rw [numSpawned_same (mark_elsewhere hg hp hne fun kind' g' =>
    d.isSpawnedObject_addSpawn kind kind' g g' p)]
  exact hd q hq

theorem addSpawn_marked : (d.addSpawn kind g p).isSpawnedObject kind g = true := by
  rw [d.isSpawnedObject_addSpawn]
  split
  · rfl
  · rw [if_pos ⟨rfl, rfl⟩]

section
variable (hg : g ∈ forest.mgr.members kind p)
include hg

theorem addSpawn_numSpawned (hoff : d.isSpawnedObject kind g = false) :
    forest.mgr.numSpawned (d.addSpawn kind g p) p = forest.mgr.numSpawned d p + 1 :=
  numSpawned_mark hg hoff addSpawn_marked
    (mark_siblings fun kind' g' => d.isSpawnedObject_addSpawn kind kind' g g' p)

theorem removeSpawn_unmarked : (d.removeSpawn kind g p).isSpawnedObject kind g = false := by
  rw [d.isSpawnedObject_removeSpawn, if_neg, if_pos ⟨rfl, rfl⟩]
  intro h
  obtain ⟨hkind, heq⟩ := h
  rw [hkind] at hg
  exact ne_of_member hg heq

theorem removeSpawn_outside (hp : forest.Placed d p) :
    forest.Outside p d (d.removeSpawn kind g p) :=
  fun _ hne _ =>
    mark_elsewhere hg hp hne fun kind' g' => d.isSpawnedObject_removeSpawn kind kind' g g' p

theorem removeSpawn_onlyDown (hp : forest.Placed d p) :
    forest.OnlyDown d (d.removeSpawn kind g p) := by
  have hwrite := fun kind' g' => d.isSpawnedObject_removeSpawn kind kind' g g' p
  intro kind' q g' hg' hon
  by_cases hq : q = p
  · subst hq
    by_cases hself : kind' = kind ∧ g' = g
    · obtain ⟨rfl, rfl⟩ := hself
      rw [removeSpawn_unmarked hg] at hon
      cases hon
    · rw [mark_siblings hwrite kind' g' hg' hself] at hon
      exact hon
  · rw [mark_elsewhere hg hp hq hwrite kind' g' hg'] at hon
    exact hon

end

/-- What `Despawn1Object` must do for a marked member of pool `p`: nothing for an
object on the map, empty the sub-pool otherwise. -/
structure MemberDespawned (forest : PoolForest) (kind : MemberKind) (p g : Nat)
    (d d' : SpawnedPoolData) : Prop where
  consistent : forest.Consistent d'
  down : forest.OnlyDown d d'
  same : forest.SameMembers p d d'
  outside : forest.Outside p d d'
  emptied : kind = .pool → ∀ kind', ∀ g' ∈ forest.mgr.members kind' g,
    d'.isSpawnedObject kind' g' = false

def DespawnsMembers (forest : PoolForest) (kind : MemberKind) (p : Nat)
    (despawn1Object : Nat → Spawning → Option Spawning) : Prop :=
  ∀ g ∈ forest.mgr.members kind p, ∀ s, forest.Consistent s.data →
    ∃ s', despawn1Object g s = some s' ∧ MemberDespawned forest kind p g s.data s'.data

/-- The effect of a despawn in pool `p` that selects members by `wanted`. -/
structure Despawned (forest : PoolForest) (p : Nat) (wanted : MemberKind → Nat → Prop)
    (d d' : SpawnedPoolData) : Prop where
  consistent : forest.Consistent d'
  down : forest.OnlyDown d d'
  outside : forest.Outside p d d'
  kept : ∀ kind, ∀ g ∈ forest.mgr.members kind p, ¬ wanted kind g →
    d'.isSpawnedObject kind g = d.isSpawnedObject kind g

theorem Despawned.refl {wanted : MemberKind → Nat → Prop} (h : forest.Consistent d) :
    Despawned forest p wanted d d :=
  ⟨h, .refl, .refl, fun _ _ _ _ => rfl⟩

theorem Despawned.trans {wanted : MemberKind → Nat → Prop} (h : Despawned forest p wanted d d')
    (h' : Despawned forest p wanted d' d'') : Despawned forest p wanted d d'' :=
  ⟨h'.consistent, h.down.trans h'.down, h.outside.trans h'.outside,
    fun kind g hg hno => (h'.kept kind g hg hno).trans (h.kept kind g hg hno)⟩

theorem Despawned.weaken {wanted wanted' : MemberKind → Nat → Prop}
    (h : Despawned forest p wanted d d') (himp : ∀ kind g, wanted kind g → wanted' kind g) :
    Despawned forest p wanted' d d' :=
  ⟨h.consistent, h.down, h.outside, fun kind g hg hno =>
    h.kept kind g hg fun hyes => hno (himp kind g hyes)⟩

/-- The members that `DespawnObject` with this kind and guid selects. -/
def Selected (kind : MemberKind) (guid : Nat) (kind' : MemberKind) (g : Nat) : Prop :=
  kind' = kind ∧ (guid = 0 ∨ g = guid)

/-- One round of the loop: `Despawn1Object`, then `RemoveSpawn`. -/
theorem Despawned.removeSpawn {guid : Nat} (hg : g ∈ forest.mgr.members kind p)
    (hon : d.isSpawnedObject kind g = true) (hd : forest.Consistent d)
    (hguid : guid = 0 ∨ g = guid) (h : MemberDespawned forest kind p g d d') :
    Despawned forest p (Selected kind guid) d (d'.removeSpawn kind g p) := by
  have hon' : d'.isSpawnedObject kind g = true := by rw [h.same kind g hg, hon]
  have hp : forest.Placed d' p := h.outside.placed (hd.placed kind p g hg hon)
  refine ⟨h.consistent.removeSpawn hg hon' h.emptied, h.down.trans (removeSpawn_onlyDown hg hp),
    h.outside.trans (removeSpawn_outside hg hp), ?_⟩
  intro kind' g' hg' hno
  have hother : ¬ (kind' = kind ∧ g' = g) := by
    intro hself
    obtain ⟨hkind, heq⟩ := hself
    exact hno ⟨hkind, heq ▸ hguid⟩
  rw [mark_siblings (fun kind' g' => d'.isSpawnedObject_removeSpawn kind kind' g g' p) kind' g' hg'
    hother]
  exact h.same kind' g' hg'

theorem despawnLoop_spec (guid : Nat) {despawn1Object : Nat → Spawning → Option Spawning}
    (h1 : DespawnsMembers forest kind p despawn1Object) :
    ∀ (l : List PoolObject) (s : Spawning), (∀ o ∈ l, o.guid ∈ forest.mgr.members kind p) →
      forest.Consistent s.data →
      ∃ s', despawnLoop kind p guid despawn1Object l s = some s' ∧
        Despawned forest p (Selected kind guid) s.data s'.data ∧
        ∀ o ∈ l, (guid = 0 ∨ o.guid = guid) → s'.data.isSpawnedObject kind o.guid = false
  | [], s, _, hs => ⟨s, rfl, .refl hs, fun _ ho => absurd ho not_mem_nil⟩
  | o :: rest, s, hl, hs => by
    have ho := hl o mem_cons_self
    have hrest := fun o' ho' => hl o' (mem_cons_of_mem o ho')
    unfold despawnLoop
    split
    · rename_i hsel
      obtain ⟨hon, hguid⟩ := hsel
      obtain ⟨s1, heq, hdone⟩ := h1 o.guid ho s hs
      rw [heq]
      have hround := Despawned.removeSpawn ho hon hs hguid hdone
      obtain ⟨s2, hloop, hend, hclear⟩ := despawnLoop_spec guid h1 rest
        { s1 with data := s1.data.removeSpawn kind o.guid p } hrest hround.consistent
      refine ⟨s2, hloop, hround.trans hend, ?_⟩
      intro o' ho' hguid'
      cases ho' with
      | head => exact hend.down.unmarked ho (removeSpawn_unmarked ho)
      | tail _ ho' => exact hclear o' ho' hguid'
    · rename_i hsel
      obtain ⟨s2, hloop, hend, hclear⟩ := despawnLoop_spec guid h1 rest s hrest hs
      refine ⟨s2, hloop, hend, ?_⟩
      intro o' ho' hguid'
      cases ho' with
      | head =>
        apply hend.down.unmarked ho
        cases hon : s.data.isSpawnedObject kind o.guid with
        | false => rfl
        | true => exact absurd ⟨hon, hguid'⟩ hsel
      | tail _ ho' => exact hclear o' ho' hguid'

theorem mem_members : g ∈ forest.mgr.members kind p ↔
    ∃ o, (o ∈ (forest.mgr.groups kind p).equalChanced ∨
      o ∈ (forest.mgr.groups kind p).explicitlyChanced) ∧ o.guid = g := by
  simp only [PoolMgr.members, mem_map, mem_append]

theorem members_empty (h : (forest.mgr.groups kind p).isEmpty = true) :
    forest.mgr.members kind p = [] := by
  simp only [PoolGroup.isEmpty, Bool.and_eq_true, List.isEmpty_iff] at h
  simp [PoolMgr.members, h.1, h.2]

variable {despawn1Object : Nat → Spawning → Option Spawning}

theorem despawnObject_spec (guid : Nat) (h1 : DespawnsMembers forest kind p despawn1Object)
    (hp : (forest.mgr.groups kind p).poolId = p) (s : Spawning) (hs : forest.Consistent s.data) :
    ∃ s', despawnObject kind (forest.mgr.groups kind p) guid despawn1Object s = some s' ∧
      Despawned forest p (Selected kind guid) s.data s'.data ∧
      ∀ g ∈ forest.mgr.members kind p, (guid = 0 ∨ g = guid) →
        s'.data.isSpawnedObject kind g = false := by
  unfold despawnObject
  rw [hp]
  obtain ⟨s1, heq1, hend1, hclear1⟩ := despawnLoop_spec guid h1
    (forest.mgr.groups kind p).equalChanced s (fun o ho => mem_members.mpr ⟨o, .inl ho, rfl⟩) hs
  obtain ⟨s2, heq2, hend2, hclear2⟩ := despawnLoop_spec guid h1
    (forest.mgr.groups kind p).explicitlyChanced s1 (fun o ho => mem_members.mpr ⟨o, .inr ho, rfl⟩)
    hend1.consistent
  rw [heq1]
  refine ⟨s2, heq2, hend1.trans hend2, ?_⟩
  intro g hg hguid
  obtain ⟨o, ho, rfl⟩ := mem_members.mp hg
  cases ho with
  | inl ho => exact hend2.down.unmarked hg (hclear1 o ho hguid)
  | inr ho => exact hclear2 o ho hguid

theorem despawnGroup_spec (h1 : DespawnsMembers forest kind p despawn1Object) (s : Spawning)
    (hs : forest.Consistent s.data) :
    ∃ s', forest.mgr.despawnGroup kind despawn1Object p s = some s' ∧
      Despawned forest p (Selected kind 0) s.data s'.data ∧
      ∀ g ∈ forest.mgr.members kind p, s'.data.isSpawnedObject kind g = false := by
  unfold PoolMgr.despawnGroup
  split
  · rename_i hempty
    refine ⟨s, rfl, .refl hs, ?_⟩
    intro g hg
    rw [members_empty hempty] at hg
    exact absurd hg not_mem_nil
  · rename_i hfull
    obtain ⟨s', heq, hend, hclear⟩ := despawnObject_spec 0 h1
      (forest.poolId_eq kind p (by simpa using hfull)) s hs
    exact ⟨s', heq, hend, fun g hg => hclear g hg (.inl rfl)⟩

theorem despawnsMembers_map (kind : MemberKind) (hkind : kind ≠ .pool) :
    DespawnsMembers forest kind p fun _ s => some s :=
  fun _ _ s hs => ⟨s, rfl, hs, .refl, fun _ _ _ => rfl, .refl, fun h => absurd h hkind⟩

/-- A pool as `DespawnPool` leaves it. -/
def Emptied (forest : PoolForest) (p : Nat) (d d' : SpawnedPoolData) : Prop :=
  Despawned forest p (fun _ _ => True) d d' ∧
    ∀ kind, ∀ g ∈ forest.mgr.members kind p, d'.isSpawnedObject kind g = false

theorem despawnsMembers_of
    (h : ∀ c ∈ forest.mgr.members .pool p, ∀ s, forest.Consistent s.data →
      ∃ s', despawn1Object c s = some s' ∧ Emptied forest c s.data s'.data) :
    DespawnsMembers forest .pool p despawn1Object := by
  intro c hc s hs
  obtain ⟨s', heq, hend, hclear⟩ := h c hc s hs
  exact ⟨s', heq, hend.consistent, hend.down, hend.outside.mother_same hc,
    hend.outside.mother hc, fun _ => hclear⟩

/-- `DespawnPool` returns and leaves no member of the pool marked. -/
theorem despawnPool_spec : ∀ (fuel p : Nat) (s : Spawning), forest.height p < fuel →
    forest.Consistent s.data →
    ∃ s', forest.mgr.despawnPool fuel p s = some s' ∧ Emptied forest p s.data s'.data
  | 0, _, _, hfuel, _ => absurd hfuel (Nat.not_lt_zero _)
  | fuel + 1, p, s, hfuel, hs => by
    have hpool := despawnsMembers_of (p := p) fun c hc s hs =>
      despawnPool_spec fuel c s (Nat.lt_of_lt_of_le (forest.height_lt p c hc)
        (Nat.le_of_lt_succ hfuel)) hs
    obtain ⟨s1, heq1, hend1, hclear1⟩ := despawnGroup_spec (p := p)
      (despawnsMembers_map .creature (by decide)) s hs
    obtain ⟨s2, heq2, hend2, hclear2⟩ := despawnGroup_spec (p := p)
      (despawnsMembers_map .gameobject (by decide)) s1 hend1.consistent
    obtain ⟨s3, heq3, hend3, hclear3⟩ := despawnGroup_spec hpool s2 hend2.consistent
    unfold PoolMgr.despawnPool
    rw [heq1]
    simp only [heq2]
    refine ⟨s3, heq3, ?_, ?_⟩
    · exact (hend1.weaken fun _ _ _ => trivial).trans ((hend2.weaken fun _ _ _ => trivial).trans
        (hend3.weaken fun _ _ _ => trivial))
    · intro kind g hg
      cases kind with
      | creature => exact hend3.down.unmarked hg (hend2.down.unmarked hg (hclear1 g hg))
      | gameobject => exact hend3.down.unmarked hg (hclear2 g hg)
      | pool => exact hclear3 g hg

/-- What `Spawn1Object` must do for a freshly marked member of pool `p`. -/
structure MemberSpawned (forest : PoolForest) (p : Nat) (d d' : SpawnedPoolData) : Prop where
  consistent : forest.Consistent d'
  within : forest.Within (forest.height p) d'
  same : forest.SameMembers p d d'
  outside : forest.Outside p d d'

def SpawnsMembers (forest : PoolForest) (kind : MemberKind) (p : Nat)
    (spawn1Object : Nat → Spawning → Option Spawning) : Prop :=
  ∀ g ∈ forest.mgr.members kind p, ∀ s, forest.Consistent s.data →
    forest.Within (forest.height p) s.data → s.data.isSpawnedObject kind g = true →
    ∃ s', spawn1Object g s = some s' ∧ MemberSpawned forest p s.data s'.data

/-- The state while pool `p` spawns members: its own limit is not required. -/
structure Spawned (forest : PoolForest) (p : Nat) (d d' : SpawnedPoolData) : Prop where
  consistent : forest.Consistent d'
  within : forest.Within (forest.height p) d'
  outside : forest.Outside p d d'

theorem Spawned.trans (h : Spawned forest p d d') (h' : Spawned forest p d' d'') :
    Spawned forest p d d'' :=
  ⟨h'.consistent, h'.within, h.outside.trans h'.outside⟩

variable {spawn1Object : Nat → Spawning → Option Spawning}

/-- The loop over the rolled objects adds one for each of them, the trigger
apart, and never unmarks a member of the pool. -/
theorem spawnRolled_spec (h1 : SpawnsMembers forest kind p spawn1Object) (l : List PoolObject) :
    ∀ (triggerFrom : Nat) (s : Spawning), (l.map PoolObject.guid).Nodup →
      (∀ o ∈ l, o.guid ∈ forest.mgr.members kind p) →
      (∀ o ∈ l, o.guid = triggerFrom ∨ s.data.isSpawnedObject kind o.guid = false) →
      forest.Consistent s.data → forest.Within (forest.height p) s.data →
      forest.Placed s.data p →
      ∃ left s', spawnRolled kind p spawn1Object l triggerFrom s = some (left, s') ∧
        Spawned forest p s.data s'.data ∧
        (∀ kind', ∀ g ∈ forest.mgr.members kind' p, s.data.isSpawnedObject kind' g = true →
          s'.data.isSpawnedObject kind' g = true) ∧
        (left = triggerFrom ∧
            forest.mgr.numSpawned s'.data p ≤ forest.mgr.numSpawned s.data p + l.length ∨
          left = 0 ∧
            forest.mgr.numSpawned s'.data p + 1 ≤ forest.mgr.numSpawned s.data p + l.length) := by
  induction l with
  | nil =>
    intro triggerFrom s _ _ _ hs hw _
    exact ⟨triggerFrom, s, rfl, ⟨hs, hw, .refl⟩, fun _ _ _ h => h, .inl ⟨rfl, Nat.le_refl _⟩⟩
  | cons o rest ih =>
    intro triggerFrom s hnodup hmem hready hs hw hp
    simp only [map_cons, nodup_cons] at hnodup
    obtain ⟨hfresh, hnodup⟩ := hnodup
    have ho := hmem o mem_cons_self
    have hrest := fun o' ho' => hmem o' (mem_cons_of_mem o ho')
    have hdiff : ∀ o' ∈ rest, o'.guid ≠ o.guid := fun o' ho' heq =>
      hfresh (heq ▸ mem_map_of_mem ho')
    unfold spawnRolled
    split
    · -- the trigger stays where it is and is not counted
      rename_i htrigger
      have hready' : ∀ o' ∈ rest, o'.guid = 0 ∨ s.data.isSpawnedObject kind o'.guid = false := by
        intro o' ho'
        right
        cases hready o' (mem_cons_of_mem o ho') with
        | inl heq => exact absurd (heq.trans htrigger.symm) (hdiff o' ho')
        | inr hoff => exact hoff
      obtain ⟨left, s', heq, hspawned, hkept, hcount⟩ := ih 0 s hnodup hrest hready' hs hw hp
      refine ⟨left, s', heq, hspawned, hkept, .inr ?_⟩
      simp only [length_cons]
      omega
    · rename_i htrigger
      have hoff : s.data.isSpawnedObject kind o.guid = false := by
        cases hready o mem_cons_self with
        | inl heq => exact absurd heq htrigger
        | inr hoff => exact hoff
      have hwrite := fun kind' g' => s.data.isSpawnedObject_addSpawn kind kind' o.guid g' p
      have hadd : Spawned forest p s.data (s.data.addSpawn kind o.guid p) :=
        ⟨hs.addSpawn ho hp hoff, addSpawn_within ho hp (Nat.le_refl _) hw, addSpawn_outside ho hp⟩
      obtain ⟨s1, heq1, hone⟩ := h1 o.guid ho
        { s with data := s.data.addSpawn kind o.guid p } hadd.consistent hadd.within addSpawn_marked
      have hstep : Spawned forest p s.data s1.data :=
        hadd.trans ⟨hone.consistent, hone.within, hone.outside⟩
      have hsiblings : ∀ kind', ∀ g ∈ forest.mgr.members kind' p, ¬ (kind' = kind ∧ g = o.guid) →
          s1.data.isSpawnedObject kind' g = s.data.isSpawnedObject kind' g := by
        intro kind' g hg hne
        rw [hone.same kind' g hg]
        exact mark_siblings hwrite kind' g hg hne
      have hcount1 : forest.mgr.numSpawned s1.data p = forest.mgr.numSpawned s.data p + 1 := by
        rw [numSpawned_same hone.same]
        exact addSpawn_numSpawned ho hoff
      have hready' : ∀ o' ∈ rest,
          o'.guid = triggerFrom ∨ s1.data.isSpawnedObject kind o'.guid = false := by
        intro o' ho'
        rw [hsiblings kind o'.guid (hrest o' ho') fun h => hdiff o' ho' h.2]
        exact hready o' (mem_cons_of_mem o ho')
      obtain ⟨left, s', heq, hspawned, hkept, hcount⟩ := ih triggerFrom s1 hnodup hrest hready'
        hstep.consistent hstep.within (hstep.outside.placed hp)
      rw [heq1]
      refine ⟨left, s', heq, hstep.trans hspawned, ?_, ?_⟩
      · intro kind' g hg hon
        apply hkept kind' g hg
        by_cases hself : kind' = kind ∧ g = o.guid
        · obtain ⟨rfl, rfl⟩ := hself
          rw [hone.same kind' o.guid ho]
          exact addSpawn_marked
        · rw [hsiblings kind' g hg hself]
          exact hon
      · simp only [length_cons]
        omega

theorem rollExplicit_spec (spawned : Nat → Bool) (triggerFrom : Nat) (l : List PoolObject) :
    ∀ roll : ℚ, (rollExplicit spawned triggerFrom roll l).Sublist l ∧
      (rollExplicit spawned triggerFrom roll l).length ≤ 1 ∧
      ∀ o ∈ rollExplicit spawned triggerFrom roll l,
        o.guid = triggerFrom ∨ spawned o.guid = false := by
  induction l with
  | nil =>
    intro roll
    exact ⟨List.Sublist.refl _, Nat.zero_le _, fun _ h => absurd h not_mem_nil⟩
  | cons o rest ih =>
    intro roll
    unfold rollExplicit
    split
    · rename_i hroll
      refine ⟨(nil_sublist rest).cons_cons o, Nat.le_refl _, ?_⟩
      intro o' ho'
      rw [List.mem_singleton.mp ho']
      exact hroll.2
    · obtain ⟨hsub, hlen, hready⟩ := ih (roll - o.chance)
      exact ⟨hsub.cons o, hlen, hready⟩

/-- What a roll for pool `p` returns: distinct members that are unmarked or the
trigger, at most `count` of them. -/
structure Rolled (forest : PoolForest) (kind : MemberKind) (p triggerFrom count : Nat)
    (d : SpawnedPoolData) (l : List PoolObject) : Prop where
  nodup : (l.map PoolObject.guid).Nodup
  member : ∀ o ∈ l, o.guid ∈ forest.mgr.members kind p
  ready : ∀ o ∈ l, o.guid = triggerFrom ∨ d.isSpawnedObject kind o.guid = false
  length : l.length ≤ count

variable {triggerFrom count : Nat}

theorem Rolled.nil : Rolled forest kind p triggerFrom count d [] :=
  ⟨nodup_nil, fun _ h => absurd h not_mem_nil, fun _ h => absurd h not_mem_nil, Nat.zero_le _⟩

theorem rolled_explicit (roll : ℚ) (hcount : 0 < count) :
    Rolled forest kind p triggerFrom count d (rollExplicit (d.isSpawnedObject kind) triggerFrom roll
      (forest.mgr.groups kind p).explicitlyChanced) := by
  obtain ⟨hsub, hlen, hready⟩ := rollExplicit_spec (d.isSpawnedObject kind) triggerFrom
    (forest.mgr.groups kind p).explicitlyChanced roll
  have hnodup := forest.members_nodup kind p
  unfold PoolMgr.members at hnodup
  rw [map_append, nodup_append] at hnodup
  constructor
  · exact (hsub.map _).nodup hnodup.2.1
  · intro o ho
    exact mem_members.mpr ⟨o, .inr (hsub.subset ho), rfl⟩
  · exact hready
  · exact Nat.le_trans hlen hcount

theorem rolled_equal (rng : Rng) :
    Rolled forest kind p triggerFrom count d (randomResize
      ((forest.mgr.groups kind p).equalChanced.filter fun o =>
        o.guid = triggerFrom ∨ d.isSpawnedObject kind o.guid = false) count rng).1 := by
  have hsub := randomResize_sublist ((forest.mgr.groups kind p).equalChanced.filter fun o =>
    o.guid = triggerFrom ∨ d.isSpawnedObject kind o.guid = false) count rng
  have hnodup := forest.members_nodup kind p
  unfold PoolMgr.members at hnodup
  rw [map_append, nodup_append] at hnodup
  constructor
  · exact ((hsub.trans filter_sublist).map _).nodup hnodup.1
  · intro o ho
    exact mem_members.mpr ⟨o, .inl (mem_of_mem_filter (hsub.subset ho)), rfl⟩
  · intro o ho
    simpa using (List.mem_filter.mp (hsub.subset ho)).2
  · rw [randomResize_length]
    exact Nat.min_le_right _ _

theorem rollObjects_spec (forest : PoolForest) (kind : MemberKind) (p triggerFrom count : Nat) (s : Spawning) (hcount : 0 < count) :
    ∃ l rng, rollObjects kind (forest.mgr.groups kind p) triggerFrom count s =
        (l, { s with rng := rng }) ∧
      Rolled forest kind p triggerFrom count s.data l := by
  unfold rollObjects
  dsimp only
  split
  · split
    · exact ⟨_, _, rfl, rolled_equal _⟩
    · exact ⟨_, _, rfl, .nil⟩
  · split
    · exact ⟨_, _, rfl, rolled_equal _⟩
    · exact ⟨_, _, rfl, rolled_explicit _ hcount⟩

theorem spawnCount_le {limit spawned : Nat} (triggerFrom : Nat) (hle : spawned ≤ limit) :
    spawnCount limit spawned triggerFrom ≤
      (limit : Int) - spawned + if triggerFrom ≠ 0 then 1 else 0 := by
  unfold spawnCount
  rw [Int.bmod_def]
  split <;> split <;> omega

/-- A call of `SpawnPool<T>` on `p`: without a trigger, or with a marked member. -/
structure TriggerOk (forest : PoolForest) (kind : MemberKind) (p triggerFrom : Nat)
    (d : SpawnedPoolData) : Prop where
  member : triggerFrom ≠ 0 → triggerFrom ∈ forest.mgr.members kind p
  marked : triggerFrom ≠ 0 → d.isSpawnedObject kind triggerFrom = true

/-- Replacing the trigger by `DespawnObject` takes one from the counter. -/
theorem Despawned.numSpawned_trigger (hne : triggerFrom ≠ 0)
    (hg : triggerFrom ∈ forest.mgr.members kind p)
    (hon : d.isSpawnedObject kind triggerFrom = true)
    (h : Despawned forest p (Selected kind triggerFrom) d d')
    (hoff : d'.isSpawnedObject kind triggerFrom = false) :
    forest.mgr.numSpawned d p = forest.mgr.numSpawned d' p + 1 := by
  apply numSpawned_mark hg hoff hon
  intro kind' g' hg' hother
  refine (h.kept kind' g' hg' ?_).symm
  intro hsel
  obtain ⟨hkind, hzero | heq⟩ := hsel
  · exact hne hzero
  · exact hother ⟨hkind, heq⟩

/-- The first half of `SpawnObject`. The trigger is still marked unless it was
rolled, and the limit is exceeded by at most the one that it then gives back. -/
theorem spawnRolledObjects_spec (h1 : SpawnsMembers forest kind p spawn1Object) (s : Spawning)
    (htrigger : TriggerOk forest kind p triggerFrom s.data) (hs : forest.Consistent s.data)
    (hw : forest.Within (forest.height p) s.data) (hp : forest.Placed s.data p)
    (hn : forest.mgr.numSpawned s.data p ≤ forest.mgr.maxLimit p)
    (hpos : 0 < spawnCount (forest.mgr.maxLimit p) (forest.mgr.numSpawned s.data p) triggerFrom) :
    ∃ left s1, spawnRolled kind p spawn1Object
        (rollObjects kind (forest.mgr.groups kind p) triggerFrom (spawnCount (forest.mgr.maxLimit p)
          (forest.mgr.numSpawned s.data p) triggerFrom).toNat s).1
        triggerFrom
        (rollObjects kind (forest.mgr.groups kind p) triggerFrom (spawnCount (forest.mgr.maxLimit p)
          (forest.mgr.numSpawned s.data p) triggerFrom).toNat s).2 = some (left, s1) ∧
      Spawned forest p s.data s1.data ∧
      (left ≠ 0 → left = triggerFrom ∧ s1.data.isSpawnedObject kind triggerFrom = true) ∧
      forest.mgr.numSpawned s1.data p ≤ forest.mgr.maxLimit p + if left ≠ 0 then 1 else 0 := by
  have hbudget := spawnCount_le triggerFrom hn
  obtain ⟨l, rng, heq, hrolled⟩ := rollObjects_spec forest kind p
    triggerFrom _ s (Int.pos_iff_toNat_pos.mp hpos)
  rw [heq]
  obtain ⟨left, s1, hrun, hspawned, hkept, hcount⟩ := spawnRolled_spec h1 l triggerFrom
    { s with rng := rng } hrolled.nodup hrolled.member hrolled.ready hs hw hp
  dsimp only at hcount
  have hlen := hrolled.length
  refine ⟨left, s1, hrun, hspawned, ?_, ?_⟩
  · intro hleft
    cases hcount with
    | inl h =>
      have hne : triggerFrom ≠ 0 := h.1 ▸ hleft
      exact ⟨h.1, hkept kind triggerFrom (htrigger.member hne) (htrigger.marked hne)⟩
    | inr h => exact absurd h.1 hleft
  · by_cases hzero : triggerFrom = 0
    · rw [if_neg (not_not_intro hzero)] at hbudget
      cases hcount <;> split <;> omega
    · rw [if_pos hzero] at hbudget
      cases hcount <;> split <;> omega

theorem spawnObject_spec (h1 : SpawnsMembers forest kind p spawn1Object)
    (h2 : DespawnsMembers forest kind p despawn1Object)
    (hid : (forest.mgr.groups kind p).poolId = p) (s : Spawning)
    (htrigger : TriggerOk forest kind p triggerFrom s.data) (hs : forest.Consistent s.data)
    (hw : forest.Within (forest.height p) s.data) (hp : forest.Placed s.data p)
    (hn : forest.mgr.numSpawned s.data p ≤ forest.mgr.maxLimit p) :
    ∃ s', spawnObject kind (forest.mgr.groups kind p) (forest.mgr.maxLimit p) triggerFrom
        spawn1Object despawn1Object s = some s' ∧
      Spawned forest p s.data s'.data ∧
      forest.mgr.numSpawned s'.data p ≤ forest.mgr.maxLimit p := by
  have hloop : ∃ left s1, (if 0 < spawnCount (forest.mgr.maxLimit p)
          (forest.mgr.numSpawned s.data p) triggerFrom then
        spawnRolled kind p spawn1Object
          (rollObjects kind (forest.mgr.groups kind p) triggerFrom (spawnCount (forest.mgr.maxLimit p)
            (forest.mgr.numSpawned s.data p) triggerFrom).toNat s).1
          triggerFrom
          (rollObjects kind (forest.mgr.groups kind p) triggerFrom (spawnCount (forest.mgr.maxLimit p)
            (forest.mgr.numSpawned s.data p) triggerFrom).toNat s).2
        else some (triggerFrom, s)) = some (left, s1) ∧
      Spawned forest p s.data s1.data ∧
      (left ≠ 0 → left = triggerFrom ∧ s1.data.isSpawnedObject kind triggerFrom = true) ∧
      forest.mgr.numSpawned s1.data p ≤ forest.mgr.maxLimit p + if left ≠ 0 then 1 else 0 := by
    split
    · rename_i hpos
      exact spawnRolledObjects_spec h1 s htrigger hs hw hp hn hpos
    · exact ⟨triggerFrom, s, rfl, ⟨hs, hw, .refl⟩, fun hne => ⟨rfl, htrigger.marked hne⟩,
        Nat.le_trans hn (Nat.le_add_right _ _)⟩
  obtain ⟨left, s1, hrun, hspawned, hleft, hcount⟩ := hloop
  unfold spawnObject
  dsimp only
  rw [hid, hs.counts p, hrun]
  dsimp only
  split
  · rename_i hne
    obtain ⟨rfl, hon⟩ := hleft hne
    have hg := htrigger.member hne
    obtain ⟨s2, heq, hdone, hclear⟩ := despawnObject_spec left h2 hid s1 hspawned.consistent
    have hless := hdone.numSpawned_trigger hne hg hon (hclear left hg (.inr rfl))
    rw [if_pos hne] at hcount
    exact ⟨s2, heq, ⟨hdone.consistent, hdone.down.within hspawned.within,
      hspawned.outside.trans hdone.outside⟩, by omega⟩
  · rename_i hzero
    rw [if_neg hzero] at hcount
    exact ⟨s1, rfl, hspawned, hcount⟩

theorem spawnsMembers_map : SpawnsMembers forest kind p fun _ s => some s :=
  fun _ _ s hs hw _ => ⟨s, rfl, hs, hw, fun _ _ _ => rfl, .refl⟩

variable {fuel : Nat}

theorem despawnsMembers (hfuel : forest.height p ≤ fuel) :
    DespawnsMembers forest kind p (forest.mgr.despawn1Object fuel kind) := by
  cases kind with
  | creature => exact despawnsMembers_map _ (by decide)
  | gameobject => exact despawnsMembers_map _ (by decide)
  | pool =>
    exact despawnsMembers_of fun c hc s hs =>
      despawnPool_spec fuel c s (Nat.lt_of_lt_of_le (forest.height_lt p c hc) hfuel) hs

theorem spawnGroup_spec (fuel : Nat) (kind : MemberKind)
    (h1 : SpawnsMembers forest kind p spawn1Object) (hfuel : forest.height p ≤ fuel)
    (s : Spawning) (htrigger : TriggerOk forest kind p triggerFrom s.data)
    (hs : forest.Consistent s.data) (hw : forest.Within (forest.height p) s.data)
    (hp : forest.Placed s.data p) (hn : forest.mgr.numSpawned s.data p ≤ forest.mgr.maxLimit p) :
    ∃ s', forest.mgr.spawnGroup fuel kind spawn1Object p triggerFrom s = some s' ∧
      Spawned forest p s.data s'.data ∧
      forest.mgr.numSpawned s'.data p ≤ forest.mgr.maxLimit p := by
  unfold PoolMgr.spawnGroup
  split
  · exact ⟨s, rfl, ⟨hs, hw, .refl⟩, hn⟩
  · rename_i hfull
    exact spawnObject_spec h1 (despawnsMembers hfuel)
      (forest.poolId_eq kind p (by simpa using hfull)) s htrigger hs hw hp hn

theorem triggerOk_none : TriggerOk forest kind p 0 d :=
  ⟨fun h => absurd rfl h, fun h => absurd rfl h⟩

/-- `SpawnPool` on a placed pool returns, keeps its limit and those below. -/
theorem spawnPool_spec (fuel : Nat) : ∀ (p : Nat) (s : Spawning), forest.height p < fuel →
    forest.Consistent s.data → forest.Within (forest.height p) s.data → forest.Placed s.data p →
    forest.mgr.numSpawned s.data p ≤ forest.mgr.maxLimit p →
    ∃ s', forest.mgr.spawnPool fuel p s = some s' ∧ Spawned forest p s.data s'.data ∧
      forest.mgr.numSpawned s'.data p ≤ forest.mgr.maxLimit p := by
  induction fuel with
  | zero =>
    intro p s hfuel
    exact absurd hfuel (Nat.not_lt_zero _)
  | succ fuel ih =>
    intro p s hfuel hs hw hp hn
    have hpool : SpawnsMembers forest .pool p (forest.mgr.spawnPool fuel) := by
      intro c hc s hs hw hon
      have hlt := forest.height_lt p c hc
      obtain ⟨s', heq, hspawned, hown⟩ := ih c s (by omega) hs
        (fun q hq => hw q (by omega)) (fun _ => hon) (hw c hlt)
      exact ⟨s', heq, hspawned.consistent, hw.mother hspawned.outside hspawned.within hown,
        hspawned.outside.mother_same hc, hspawned.outside.mother hc⟩
    obtain ⟨s1, heq1, h1, hn1⟩ := spawnGroup_spec fuel .pool hpool (by omega) s
      triggerOk_none hs hw hp hn
    have hp1 := h1.outside.placed hp
    obtain ⟨s2, heq2, h2, hn2⟩ := spawnGroup_spec fuel .gameobject
      spawnsMembers_map (by omega) s1 triggerOk_none h1.consistent h1.within hp1 hn1
    have hp2 := h2.outside.placed hp1
    obtain ⟨s3, heq3, h3, hn3⟩ := spawnGroup_spec fuel .creature
      spawnsMembers_map (by omega) s2 triggerOk_none h2.consistent h2.within hp2 hn2
    unfold PoolMgr.spawnPool
    rw [heq1]
    simp only [heq2]
    exact ⟨s3, heq3, h1.trans (h2.trans h3), hn3⟩

/-- `Spawn1Object` with enough fuel, for every kind of member. -/
theorem spawnsMembers (hfuel : forest.height p ≤ fuel) :
    SpawnsMembers forest kind p (forest.mgr.spawn1Object fuel kind) := by
  cases kind with
  | creature => exact spawnsMembers_map
  | gameobject => exact spawnsMembers_map
  | pool =>
    intro c hc s hs hw hon
    have hlt := forest.height_lt p c hc
    obtain ⟨s', heq, hspawned, hown⟩ := spawnPool_spec fuel c s (by omega) hs
      (fun q hq => hw q (by omega)) (fun _ => hon) (hw c hlt)
    exact ⟨s', heq, hspawned.consistent, hw.mother hspawned.outside hspawned.within hown,
      hspawned.outside.mother_same hc, hspawned.outside.mother hc⟩

end PoolForest

end LegionServer.Source.Pools
