import LegionServer.Source.Pools.NestedPools

/-!
# The relations that are loaded

Where no two rows give a pool a mother, the members of the groups of pools and the
search map agree, and a pool with creatures or game objects has a map.
-/
namespace LegionServer.Source.Pools
open List Function

/-- A row that `loadSubPool` does not skip. -/
def PoolMemberRow.Links (hasTemplate : Nat → Prop) (row : PoolMemberRow) : Prop :=
  hasTemplate row.poolSpawnId ∧ hasTemplate row.childPoolId ∧
    row.poolSpawnId ≠ row.childPoolId ∧ ¬(row.chance < 0 ∨ 100 < row.chance)

namespace LoadedPools

variable {pools : LoadedPools} {kind kind' : MemberKind} {p q : Nat}

def HasTemplate (pools : LoadedPools) (poolId : Nat) : Prop := (pools.mapIds poolId).isSome

structure WellLinked (pools : LoadedPools) : Prop where
  templates : ∀ c m, pools.mgr.poolSearchMap c = some m → pools.HasTemplate c ∧ pools.HasTemplate m
  listed : ∀ c m, pools.mgr.poolSearchMap c = some m ↔ c ∈ pools.mgr.members .pool m
  nodup : ∀ m, (pools.mgr.members .pool m).Nodup
  mapped : ∀ kind ≠ .pool, ∀ p, (pools.mgr.groups kind p).isEmpty = false →
    ∃ mapId ≠ -1, pools.mapIds p = some mapId

@[simp] theorem mapId_setMapId (mapId : Int) :
    (pools.setMapId p mapId).mapId q = if q = p then mapId else pools.mapId q := by
  by_cases h : q = p
  · subst h
    simp [LoadedPools.mapId, setMapId]
  · simp [LoadedPools.mapId, setMapId, h]

theorem groups_setGroup (group : PoolGroup) :
    (pools.setGroup kind p group).mgr.groups kind' q =
      if kind' = kind ∧ q = p then group else pools.mgr.groups kind' q := by
  by_cases hkind : kind' = kind
  · subst hkind
    by_cases hq : q = p
    · subst hq
      simp [setGroup]
    · simp [setGroup, hq]
  · simp [setGroup, hkind]

theorem members_setSearch (search : Nat → Option Nat) :
    (pools.setSearch search).mgr.members = pools.mgr.members := rfl

def guids (group : PoolGroup) : List Nat :=
  (group.equalChanced ++ group.explicitlyChanced).map PoolObject.guid

theorem members_eq (mgr : PoolMgr) : mgr.members kind p = guids (mgr.groups kind p) := rfl

variable {group : PoolGroup} {object : PoolObject} {limit g : Nat}

theorem mem_guids_addEntry :
    g ∈ guids (group.addEntry object limit) ↔ g = object.guid ∨ g ∈ guids group := by
  unfold PoolGroup.addEntry
  split <;> simp [guids] <;> grind

theorem nodup_guids_addEntry (hnodup : (guids group).Nodup) (hnew : object.guid ∉ guids group) :
    (guids (group.addEntry object limit)).Nodup := by
  have hperm : (guids (group.addEntry object limit)).Perm (object.guid :: guids group) := by
    unfold PoolGroup.addEntry
    split
    · simp only [guids, ← append_assoc, map_append, map_cons, map_nil]
      exact perm_append_singleton _ _
    · simp only [guids, append_assoc, map_append, map_cons, singleton_append]
      exact perm_middle
  exact hperm.nodup_iff.mpr (nodup_cons.mpr ⟨hnew, hnodup⟩)

variable {c : Nat}

theorem mem_eraseGuid {objects : List PoolObject} (hnodup : (objects.map PoolObject.guid).Nodup) :
    g ∈ (eraseGuid objects c).map PoolObject.guid ↔ g ∈ objects.map PoolObject.guid ∧ g ≠ c := by
  induction objects with
  | nil => simp [eraseGuid]
  | cons object objects ih =>
    rw [map_cons, nodup_cons] at hnodup
    by_cases hc : object.guid = c
    · subst hc
      have hnew := hnodup.1
      rw [eraseGuid, eraseP_cons_of_pos (by simp)]
      simp only [map_cons, mem_cons]
      constructor
      · intro hg
        exact ⟨.inr hg, fun heq => hnew (heq ▸ hg)⟩
      · rintro ⟨hg, hne⟩
        exact hg.resolve_left hne
    · rw [eraseGuid, eraseP_cons_of_neg (by simpa using hc), map_cons, mem_cons,
        ← eraseGuid, ih hnodup.2]
      simp only [map_cons, mem_cons]
      constructor
      · rintro (rfl | ⟨hg, hne⟩)
        · exact ⟨.inl rfl, hc⟩
        · exact ⟨.inr hg, hne⟩
      · rintro ⟨rfl | hg, hne⟩
        · exact .inl rfl
        · exact .inr ⟨hg, hne⟩

theorem eraseGuid_sublist (objects : List PoolObject) (c : Nat) :
    (eraseGuid objects c).Sublist objects := eraseP_sublist

theorem nodup_removeOneRelation (hnodup : (guids group).Nodup) (c : Nat) :
    (guids (group.removeOneRelation c)).Nodup :=
  hnodup.sublist (((eraseGuid_sublist _ c).append (eraseGuid_sublist _ c)).map _)

theorem mem_guids_removeOneRelation (hnodup : (guids group).Nodup) :
    g ∈ guids (group.removeOneRelation c) ↔ g ∈ guids group ∧ g ≠ c := by
  rw [guids, map_append] at hnodup
  obtain ⟨hequal, hexplicit, -⟩ := nodup_append.mp hnodup
  simp only [guids, PoolGroup.removeOneRelation, map_append, mem_append,
    mem_eraseGuid hequal, mem_eraseGuid hexplicit]
  tauto

theorem hasTemplate_setMapId (hp : pools.HasTemplate p) (mapId : Int) :
    (pools.setMapId p mapId).HasTemplate q ↔ pools.HasTemplate q := by
  by_cases h : q = p
  · subst h
    simp [HasTemplate, setMapId] at hp ⊢
    exact hp
  · simp [HasTemplate, setMapId, h]

theorem WellLinked.setMapId (h : pools.WellLinked) (hp : pools.HasTemplate p) {mapId : Int}
    (hmapId : mapId ≠ -1) : (pools.setMapId p mapId).WellLinked := by
  obtain ⟨htemplates, hlisted, hnodup, hmapped⟩ := h
  refine ⟨?_, hlisted, hnodup, ?_⟩
  · intro c m hlink
    rw [hasTemplate_setMapId hp, hasTemplate_setMapId hp]
    exact htemplates c m hlink
  · intro kind hkind q hfull
    by_cases hq : q = p
    · subst hq
      exact ⟨mapId, hmapId, by simp [LoadedPools.setMapId]⟩
    · obtain ⟨other, hother, heq⟩ := hmapped kind hkind q hfull
      exact ⟨other, hother, by simp [LoadedPools.setMapId, hq, heq]⟩

theorem members_addEntry {object : PoolObject} {g : Nat} :
    g ∈ (pools.addEntry kind p object).mgr.members kind' q ↔
      (kind' = kind ∧ q = p ∧ g = object.guid) ∨ g ∈ pools.mgr.members kind' q := by
  rw [members_eq, members_eq, addEntry, groups_setGroup]
  split
  · rename_i hgroup
    obtain ⟨rfl, rfl⟩ := hgroup
    rw [mem_guids_addEntry]
    simp [guids]
  · rename_i hother
    constructor
    · exact .inr
    · rintro (⟨hkind, hq, -⟩ | hg)
      · exact absurd ⟨hkind, hq⟩ hother
      · exact hg

theorem WellLinked.addSpawn (h : pools.WellLinked) (hkind : kind ≠ .pool)
    (hp : ∃ mapId ≠ -1, pools.mapIds p = some mapId) (object : PoolObject) :
    (pools.addEntry kind p object).WellLinked := by
  obtain ⟨htemplates, hlisted, hnodup, hmapped⟩ := h
  have hpools : ∀ q, (pools.addEntry kind p object).mgr.groups .pool q =
      pools.mgr.groups .pool q := by
    intro q
    rw [addEntry, groups_setGroup, if_neg fun hgroup => hkind hgroup.1.symm]
  refine ⟨htemplates, ?_, ?_, ?_⟩
  · intro c m
    rw [members_eq, hpools]
    exact hlisted c m
  · intro m
    rw [members_eq, hpools]
    exact hnodup m
  · intro kind' hkind' q hfull
    by_cases hgroup : kind' = kind ∧ q = p
    · obtain ⟨rfl, rfl⟩ := hgroup
      exact hp
    · rw [addEntry, groups_setGroup, if_neg hgroup] at hfull
      exact hmapped kind' hkind' q hfull

theorem WellLinked.loadSpawn (h : pools.WellLinked) {row : PoolMemberRow}
    (hrow : row.type ≠ .pool) (mapId : Nat) :
    (pools.loadSpawn row mapId).WellLinked ∧
      (∀ p, (pools.loadSpawn row mapId).HasTemplate p ↔ pools.HasTemplate p) ∧
      (pools.loadSpawn row mapId).mgr.poolSearchMap = pools.mgr.poolSearchMap := by
  unfold LoadedPools.loadSpawn
  split
  · exact ⟨h, fun _ => Iff.rfl, rfl⟩
  rename_i current hcurrent
  split
  · exact ⟨h, fun _ => Iff.rfl, rfl⟩
  have hp : pools.HasTemplate row.poolSpawnId := by simp [HasTemplate, hcurrent]
  have hmapId : (if current = -1 then (mapId : Int) else current) ≠ -1 := by
    split
    · omega
    · assumption
  simp only
  generalize (if current = -1 then (mapId : Int) else current) = poolMap at hmapId ⊢
  have hset := h.setMapId hp hmapId
  split
  · exact ⟨hset, fun _ => hasTemplate_setMapId hp _, rfl⟩
  · refine ⟨hset.addSpawn hrow ⟨_, hmapId, by simp [LoadedPools.setMapId]⟩ _, ?_, rfl⟩
    exact fun _ => hasTemplate_setMapId hp _

theorem WellLinked.loadSubPool (h : pools.WellLinked) {row : PoolMemberRow}
    (hrow : row.Links pools.HasTemplate → pools.mgr.poolSearchMap row.childPoolId = none) :
    (pools.loadSubPool row).WellLinked ∧
      (∀ p, (pools.loadSubPool row).HasTemplate p ↔ pools.HasTemplate p) ∧
      ∀ c, (pools.loadSubPool row).mgr.poolSearchMap c ≠ pools.mgr.poolSearchMap c →
        row.Links pools.HasTemplate ∧ c = row.childPoolId := by
  by_cases hlinks : row.Links pools.HasTemplate
  · have hnew := hrow hlinks
    obtain ⟨hmother, hchild, hne, hchance⟩ := hlinks
    have hload : pools.loadSubPool row =
        (pools.addEntry .pool row.poolSpawnId ⟨row.childPoolId, row.chance⟩).setSearch
          (Function.update pools.mgr.poolSearchMap row.childPoolId (some row.poolSpawnId)) := by
      simp [LoadedPools.loadSubPool, hne, hchance, hnew, Option.isSome_iff_ne_none.mp hmother,
        Option.isSome_iff_ne_none.mp hchild]
    obtain ⟨htemplates, hlisted, hnodup, hmapped⟩ := h
    have hunlisted : ∀ m, row.childPoolId ∉ pools.mgr.members .pool m := by
      intro m hmem
      rw [← hlisted, hnew] at hmem
      cases hmem
    rw [hload]
    refine ⟨⟨?_, ?_, ?_, ?_⟩, fun _ => Iff.rfl, ?_⟩
    · intro c m hlink
      simp only [setSearch] at hlink
      by_cases hc : c = row.childPoolId
      · subst hc
        rw [update_self, Option.some.injEq] at hlink
        subst hlink
        exact ⟨hchild, hmother⟩
      · rw [update_of_ne hc] at hlink
        exact htemplates c m hlink
    · intro c m
      rw [members_setSearch, members_addEntry]
      simp only [setSearch]
      by_cases hc : c = row.childPoolId
      · subst hc
        simp [hunlisted m, eq_comm]
      · simp [hlisted, hc]
    · intro m
      simp only [setSearch]
      rw [members_eq, addEntry, groups_setGroup]
      split
      · rename_i hm
        obtain ⟨-, rfl⟩ := hm
        exact nodup_guids_addEntry (hnodup _) (hunlisted _)
      · exact hnodup m
    · intro kind hkind q hfull
      simp only [setSearch] at hfull
      rw [addEntry, groups_setGroup, if_neg fun hgroup => hkind hgroup.1] at hfull
      exact hmapped kind hkind q hfull
    · intro c hc
      refine ⟨⟨hmother, hchild, hne, hchance⟩, ?_⟩
      by_contra hother
      exact hc (update_of_ne hother _ _)
  · have hload : pools.loadSubPool row = pools := by
      simp only [PoolMemberRow.Links, HasTemplate, not_and, not_not] at hlinks
      simp only [LoadedPools.loadSubPool, Option.isNone_iff_eq_none]
      split
      · rfl
      split
      · rfl
      split
      · rfl
      split
      · rfl
      rename_i hmother hchild hne hchance
      simp only [← ne_eq, ← Option.isSome_iff_ne_none] at hmother hchild
      exact absurd (hlinks hmother hchild hne) hchance
    rw [hload]
    exact ⟨h, fun _ => Iff.rfl, fun c hc => absurd rfl hc⟩

theorem WellLinked.loadMember {row : PoolMemberRow} (store : SpawnStore) (h : pools.WellLinked)
    (hrow : row.type = .pool → row.Links pools.HasTemplate →
      pools.mgr.poolSearchMap row.childPoolId = none) :
    (pools.loadMember store row).WellLinked ∧
      (∀ p, (pools.loadMember store row).HasTemplate p ↔ pools.HasTemplate p) ∧
      ∀ c, (pools.loadMember store row).mgr.poolSearchMap c ≠ pools.mgr.poolSearchMap c →
        row.type = .pool ∧ row.Links pools.HasTemplate ∧ c = row.childPoolId := by
  have hskipped : pools.WellLinked ∧ (∀ p, pools.HasTemplate p ↔ pools.HasTemplate p) ∧
      ∀ c, pools.mgr.poolSearchMap c ≠ pools.mgr.poolSearchMap c →
        row.type = .pool ∧ row.Links pools.HasTemplate ∧ c = row.childPoolId :=
    ⟨h, fun _ => Iff.rfl, fun c hc => absurd rfl hc⟩
  unfold LoadedPools.loadMember
  split
  · rename_i htype
    have hspawn : row.type ≠ .pool := by simp [htype]
    split
    · exact hskipped
    · rename_i mapId _
      obtain ⟨hlinked, hsame, hsearch⟩ := h.loadSpawn hspawn mapId
      exact ⟨hlinked, hsame, fun c hc => absurd (by rw [hsearch]) hc⟩
  · rename_i htype
    have hspawn : row.type ≠ .pool := by simp [htype]
    split
    · exact hskipped
    rename_i mapId _
    split
    · obtain ⟨hlinked, hsame, hsearch⟩ := h.loadSpawn hspawn mapId
      exact ⟨hlinked, hsame, fun c hc => absurd (by rw [hsearch]) hc⟩
    · exact hskipped
  · rename_i htype
    obtain ⟨hlinked, hsame, hsearch⟩ := h.loadSubPool (hrow htype)
    exact ⟨hlinked, hsame, fun c hc => ⟨htype, hsearch c hc⟩⟩

def PoolLinks (hasTemplate : Nat → Prop) (row : PoolMemberRow) : Prop :=
  row.type = .pool ∧ row.Links hasTemplate

def OneMother (hasTemplate : Nat → Prop) (rows : List PoolMemberRow) : Prop :=
  rows.Pairwise fun row row' =>
    PoolLinks hasTemplate row → PoolLinks hasTemplate row' → row.childPoolId ≠ row'.childPoolId

theorem WellLinked.loadMembers (store : SpawnStore) {rows : List PoolMemberRow} :
    ∀ {pools : LoadedPools}, pools.WellLinked → OneMother pools.HasTemplate rows →
      (∀ row ∈ rows, PoolLinks pools.HasTemplate row →
        pools.mgr.poolSearchMap row.childPoolId = none) →
      (rows.foldl (fun pools row => pools.loadMember store row) pools).WellLinked ∧
        ∀ p, (rows.foldl (fun pools row => pools.loadMember store row) pools).HasTemplate p ↔
          pools.HasTemplate p := by
  induction rows with
  | nil => exact fun h _ _ => ⟨h, fun _ => Iff.rfl⟩
  | cons row rows ih =>
    intro pools h hone hnew
    obtain ⟨hfirst, hrest⟩ := pairwise_cons.mp hone
    obtain ⟨hlinked, hsame, hsearch⟩ := h.loadMember store fun htype hlinks =>
      hnew row mem_cons_self ⟨htype, hlinks⟩
    have hsame' : (pools.loadMember store row).HasTemplate = pools.HasTemplate :=
      funext fun p => propext (hsame p)
    have hnew' : ∀ row' ∈ rows, PoolLinks (pools.loadMember store row).HasTemplate row' →
        (pools.loadMember store row).mgr.poolSearchMap row'.childPoolId = none := by
      intro row' hmem hlinks'
      rw [hsame'] at hlinks'
      by_contra hlinked'
      have hold := hnew row' (mem_cons_of_mem _ hmem) hlinks'
      obtain ⟨htype, hlinks, heq⟩ := hsearch row'.childPoolId (by rwa [hold])
      exact hfirst row' hmem ⟨htype, hlinks⟩ hlinks' heq.symm
    obtain ⟨hdone, hkept⟩ := ih hlinked (hsame' ▸ hrest) hnew'
    exact ⟨hdone, fun p => (hkept p).trans (hsame p)⟩

theorem loadTemplates (templates : List PoolTemplateRow) :
    ∀ pools : LoadedPools, (templates.foldl loadTemplate pools).mgr.groups = pools.mgr.groups ∧
        (templates.foldl loadTemplate pools).mgr.poolSearchMap = pools.mgr.poolSearchMap ∧
        ∀ p, (templates.foldl loadTemplate pools).HasTemplate p ↔
          p ∈ templates.map PoolTemplateRow.entry ∨ pools.HasTemplate p := by
  induction templates with
  | nil => simp
  | cons row templates ih =>
    intro pools
    obtain ⟨hgroups, hsearch, hkept⟩ := ih (pools.loadTemplate row)
    refine ⟨hgroups, hsearch, fun p => ?_⟩
    rw [foldl_cons, hkept, map_cons, mem_cons]
    by_cases hp : p = row.entry
    · simp [hp, HasTemplate, loadTemplate, setMapId]
    · simp [hp, HasTemplate, loadTemplate, setMapId]

theorem wellLinked_load (store : SpawnStore) (templates : List PoolTemplateRow)
    {members : List PoolMemberRow}
    (hone : OneMother (· ∈ templates.map PoolTemplateRow.entry) members) :
    (load store templates members).WellLinked ∧ ∀ p, (load store templates members).HasTemplate p ↔
        p ∈ templates.map PoolTemplateRow.entry := by
  obtain ⟨hgroups, hsearch, hentries⟩ := loadTemplates templates empty
  have hnone : ∀ p, ¬empty.HasTemplate p := fun p => by simp [HasTemplate, empty]
  simp only [hnone, or_false] at hentries
  unfold load
  generalize templates.foldl loadTemplate empty = start at hgroups hsearch hentries ⊢
  have hgroup : ∀ kind p, start.mgr.groups kind p = {} := fun kind p => by rw [hgroups]; rfl
  have hunlinked : ∀ c, start.mgr.poolSearchMap c = none := fun c => by rw [hsearch]; rfl
  have hstart : start.WellLinked := by
    constructor <;> simp [hunlinked, hgroup, members_eq, guids, PoolGroup.isEmpty]
  have hsame : start.HasTemplate = (· ∈ templates.map PoolTemplateRow.entry) :=
    funext fun p => propext (hentries p)
  -- the rows of the other types give no pool a mother
  have hone' : OneMother start.HasTemplate
      ([.creature, .gameobject, .pool].flatMap fun type => members.filter (·.type = type)) := by
    have hspawns : ∀ type ≠ .pool, ∀ row ∈ members.filter (·.type = type),
        ¬PoolLinks start.HasTemplate row := by
      intro type htype row hrow hlinks
      have heq : row.type = type := by simpa using (mem_filter.mp hrow).2
      exact htype (heq.symm.trans hlinks.1)
    have hskip : ∀ type ≠ .pool, OneMother start.HasTemplate (members.filter (·.type = type)) :=
      fun type htype => pairwise_of_forall_mem_list fun row hrow _ _ hlinks =>
        absurd hlinks (hspawns type htype row hrow)
    have hpools : OneMother start.HasTemplate (members.filter (·.type = MemberKind.pool)) := by
      rw [hsame]
      exact hone.filter _
    simp only [flatMap_cons, flatMap_nil, append_nil, OneMother, pairwise_append]
    refine ⟨hskip .creature (by decide), ⟨hskip .gameobject (by decide), hpools, ?_⟩, ?_⟩
    · exact fun row hrow _ _ hlinks => absurd hlinks (hspawns .gameobject (by decide) row hrow)
    · exact fun row hrow _ _ hlinks => absurd hlinks (hspawns .creature (by decide) row hrow)
  obtain ⟨hlinked, hkept⟩ := hstart.loadMembers store hone' fun row _ _ => hunlinked _
  exact ⟨hlinked, fun p => (hkept p).trans (hentries p)⟩

end LoadedPools

end LegionServer.Source.Pools
