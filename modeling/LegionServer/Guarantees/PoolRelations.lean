import LegionServer.Library.FiniteGraph
import LegionServer.Source.Pools.LoadedRelations

/-!
# The check for circular references

The inner loop climbs from a pool to its mothers. What it leaves behind is settled: the
ways up end, and a mother has the map of its child.
-/
namespace LegionServer.Guarantees.PoolRelations
open Library Source.Pools List Function
open Source.Pools.LoadedPools

/-- No map is handed on over a link that closes a cycle. -/
def Proper (s : RelationCheck) : Prop :=
  ∀ child checkedPools mother, s.walk = some (child, checkedPools) →
    s.pools.mgr.poolSearchMap child = some mother → mother ∈ child :: checkedPools →
    s.pools.mapId child = -1 ∨ s.pools.mapId mother ≠ -1

instance (s : RelationCheck) : Decidable (Proper s) :=
  match hwalk : s.walk with
  | none => .isTrue (by simp [Proper, hwalk])
  | some (child, checkedPools) =>
    match hlink : s.pools.mgr.poolSearchMap child with
    | none => .isTrue fun child' checkedPools' mother hwalk' hlink' => by
      rw [hwalk, Option.some.injEq, Prod.mk.injEq] at hwalk'
      simp [← hwalk'.1, hlink] at hlink'
    | some mother =>
      decidable_of_iff (mother ∈ child :: checkedPools →
          s.pools.mapId child = -1 ∨ s.pools.mapId mother ≠ -1) (by
        unfold Proper
        constructor
        · intro h child' checkedPools' mother' hwalk' hlink'
          rw [hwalk, Option.some.injEq, Prod.mk.injEq] at hwalk'
          obtain ⟨rfl, rfl⟩ := hwalk'
          rw [hlink, Option.some.injEq] at hlink'
          exact hlink' ▸ h
        · exact fun h => h child checkedPools mother hwalk hlink)

section links

variable {pools : LoadedPools} {child mother p : Nat}

@[simp] theorem search_removeLink :
    (pools.removeLink child mother).mgr.poolSearchMap =
      Function.update pools.mgr.poolSearchMap child none := rfl

@[simp] theorem mapIds_removeLink :
    (pools.removeLink child mother).mapIds = pools.mapIds := rfl

theorem search_of_removeLink {c m : Nat}
    (h : (pools.removeLink child mother).mgr.poolSearchMap c = some m) :
    c ≠ child ∧ pools.mgr.poolSearchMap c = some m := by
  rw [search_removeLink] at h
  by_cases hc : c = child
  · simp [hc] at h
  · exact ⟨hc, by rwa [update_of_ne hc] at h⟩

theorem members_removeLink (hnodup : (pools.mgr.members .pool mother).Nodup) {c m : Nat} :
    c ∈ (pools.removeLink child mother).mgr.members .pool m ↔
      c ∈ pools.mgr.members .pool m ∧ ¬(m = mother ∧ c = child) := by
  rw [removeLink, members_setSearch, members_eq, members_eq, groups_setGroup]
  by_cases hm : m = mother
  · subst hm
    rw [if_pos ⟨rfl, rfl⟩, mem_guids_removeOneRelation hnodup]
    simp
  · simp [hm]

theorem removeLink_wellLinked (h : pools.WellLinked)
    (hlink : pools.mgr.poolSearchMap child = some mother) :
    (pools.removeLink child mother).WellLinked := by
  obtain ⟨htemplates, hlisted, hnodup, hmapped⟩ := h
  refine ⟨?_, ?_, ?_, ?_⟩
  · intro c m hcm
    exact htemplates c m (search_of_removeLink hcm).2
  · intro c m
    rw [members_removeLink (hnodup mother), ← hlisted, search_removeLink]
    by_cases hc : c = child
    · subst hc
      simp [hlink, eq_comm]
    · simp [hc]
  · intro m
    rw [removeLink, members_setSearch, members_eq, groups_setGroup]
    split
    · exact nodup_removeOneRelation (hnodup mother) child
    · exact hnodup m
  · intro kind hkind q hfull
    simp only [removeLink, setSearch] at hfull
    rw [groups_setGroup, if_neg fun hgroup => hkind hgroup.1] at hfull
    exact hmapped kind hkind q hfull

@[simp] theorem mgr_passMapId : (pools.passMapId child mother).mgr = pools.mgr := by
  unfold passMapId
  split <;> rfl

theorem mapId_passMapId : (pools.passMapId child mother).mapId p =
    if p = mother ∧ pools.mapId child ≠ -1 ∧ pools.mapId mother = -1 then pools.mapId child
    else pools.mapId p := by
  unfold passMapId
  by_cases h : pools.mapId child ≠ -1 ∧ pools.mapId mother = -1
  · by_cases hp : p = mother <;> simp [h, hp]
  · simp [h]

theorem hasTemplate_passMapId (h : pools.HasTemplate mother) :
    (pools.passMapId child mother).HasTemplate p ↔ pools.HasTemplate p := by
  unfold passMapId
  split
  · exact hasTemplate_setMapId h _
  · rfl

theorem passMapId_wellLinked (h : pools.WellLinked) (hmother : pools.HasTemplate mother) :
    (pools.passMapId child mother).WellLinked := by
  unfold passMapId
  split
  · rename_i hpass
    exact h.setMapId hmother hpass.1
  · exact h

theorem passMapId_eq (h : pools.mapId child = -1 ∨ pools.mapId mother ≠ -1) :
    pools.passMapId child mother = pools := by
  unfold passMapId
  rw [if_neg]
  tauto

end links

section turns

variable {s s' : RelationCheck}

def OnDifferentMaps (pools : LoadedPools) (child mother : Nat) : Prop :=
  pools.mapId child ≠ -1 ∧ pools.mapId mother ≠ -1 ∧ pools.mapId mother ≠ pools.mapId child

/-- What a turn can do. -/
inductive Turn (s : RelationCheck) : RelationCheck → Prop
  | begins {p : Nat} {todo : List Nat} : s.walk = none → s.todo = p :: todo →
      Turn s { s with todo, walk := some (p, []) }
  | ends {child : Nat} {checkedPools : List Nat} : s.walk = some (child, checkedPools) →
      s.pools.mgr.poolSearchMap child = none → Turn s { s with walk := none }
  | removes {child mother : Nat} {checkedPools : List Nat} :
      s.walk = some (child, checkedPools) → s.pools.mgr.poolSearchMap child = some mother →
      (OnDifferentMaps s.pools child mother ∨ mother ∈ child :: checkedPools) →
      Turn s { s with pools := (s.pools.passMapId child mother).removeLink child mother, walk := none }
  | climbs {child mother : Nat} {checkedPools : List Nat} :
      s.walk = some (child, checkedPools) → s.pools.mgr.poolSearchMap child = some mother →
      ¬OnDifferentMaps s.pools child mother → mother ∉ child :: checkedPools →
      Turn s
        { s with
          pools := s.pools.passMapId child mother
          walk := some (mother, child :: checkedPools) }

theorem differ_passMapId {pools : LoadedPools} {child mother : Nat} (hne : mother ≠ child) :
    ((pools.passMapId child mother).mapId child ≠ -1 ∧
        (pools.passMapId child mother).mapId mother ≠ (pools.passMapId child mother).mapId child) ↔
      OnDifferentMaps pools child mother := by
  simp only [mapId_passMapId, OnDifferentMaps, hne.symm, false_and, if_false, true_and]
  split <;> grind

theorem Turn.of_step (h : s.step = some s') : Turn s s' := by
  obtain ⟨pools, todo, walk⟩ := s
  unfold RelationCheck.step at h
  cases walk with
  | none =>
    cases todo with
    | nil => simp at h
    | cons p todo =>
      simp only [Option.some.injEq] at h
      exact h ▸ .begins rfl rfl
  | some walk =>
    obtain ⟨child, checkedPools⟩ := walk
    cases hlink : pools.mgr.poolSearchMap child with
    | none =>
      simp only [hlink, Option.some.injEq] at h
      exact h ▸ .ends rfl hlink
    | some mother =>
      simp only [hlink, Option.some.injEq] at h
      rw [checkLink] at h
      by_cases hcircular : mother ∈ child :: checkedPools
      · rw [if_pos hcircular, ite_self] at h
        exact h ▸ .removes rfl hlink (.inr hcircular)
      have hne : mother ≠ child := fun heq => hcircular (heq ▸ mem_cons_self)
      rw [if_neg hcircular] at h
      split at h
      · rename_i hdiffer
        exact h ▸ .removes rfl hlink (.inl ((differ_passMapId hne).mp hdiffer))
      · rename_i hsame
        exact h ▸ .climbs rfl hlink ((differ_passMapId hne).not.mp hsame) hcircular

end turns

section invariant

variable {s s' : RelationCheck} {order : List Nat}

structure Walking (s : RelationCheck) (way : List Nat) : Prop where
  chain : way.IsChain fun mother child => s.pools.mgr.poolSearchMap child = some mother
  nodup : way.Nodup
  templates : ∀ p ∈ way, s.pools.HasTemplate p

/-- The way up from a pool that was looked at ends, but for those on the way of the inner loop. -/
structure Checking (order : List Nat) (s : RelationCheck) : Prop where
  linked : s.pools.WellLinked
  mem_order : ∀ p, p ∈ order ↔ s.pools.HasTemplate p
  todo : s.todo ⊆ order
  walking : ∀ child checkedPools, s.walk = some (child, checkedPools) →
    Walking s (child :: checkedPools)
  settled : ∀ p ∈ order, p ∈ s.todo ∨ (∃ n, EndsAfter s.pools.mgr.poolSearchMap p n) ∨
    ∃ child checkedPools, s.walk = some (child, checkedPools) ∧ p ∈ child :: checkedPools

variable {checkedPools : List Nat}

theorem Walking.up {child : Nat} (h : Walking s (child :: checkedPools)) {p : Nat}
    (hp : p ∈ child :: checkedPools) :
    Relation.ReflTransGen (IsUp s.pools.mgr.poolSearchMap) p child :=
  reflTransGen_of_isChain h.chain hp

theorem Walking.ends {child : Nat} (h : Walking s (child :: checkedPools))
    (hsearch : s'.pools.mgr.poolSearchMap = Function.update s.pools.mgr.poolSearchMap child none)
    {p : Nat} (hp : p ∈ child :: checkedPools) :
    ∃ n, EndsAfter s'.pools.mgr.poolSearchMap p n := by
  have hroot : s'.pools.mgr.poolSearchMap child = none := by simp [hsearch]
  have hsame : ∀ c ∈ checkedPools,
      s'.pools.mgr.poolSearchMap c = s.pools.mgr.poolSearchMap c := by
    intro c hc
    have hne : c ≠ child := fun heq => (nodup_cons.mp h.nodup).1 (heq ▸ hc)
    rw [hsearch, update_of_ne hne]
  exact EndsAfter.of_reflTransGen (reflTransGen_of_isChain (isChain_of_eq hsame h.chain) hp) (.root hroot)

theorem Checking.begins (h : Checking order s) {p : Nat} {todo : List Nat} (hwalk : s.walk = none)
    (htodo : s.todo = p :: todo) : Checking order { s with todo, walk := some (p, []) } := by
  obtain ⟨hlinked, horder, htodo', -, hsettled⟩ := h
  rw [htodo, cons_subset] at htodo'
  refine ⟨hlinked, horder, htodo'.2, ?_, ?_⟩
  · intro child checkedPools heq
    obtain ⟨rfl, rfl⟩ := heq
    exact ⟨.singleton _, nodup_singleton _, by simpa using (horder p).mp htodo'.1⟩
  · intro q hq
    rcases hsettled q hq with hq | hq | ⟨child, checkedPools, hq, -⟩
    · rw [htodo] at hq
      rcases mem_cons.mp hq with rfl | hq
      · exact .inr (.inr ⟨q, [], rfl, mem_cons_self⟩)
      · exact .inl hq
    · exact .inr (.inl hq)
    · simp [hwalk] at hq

theorem Checking.rests (h : Checking order s) {child : Nat}
    (hwalk : s.walk = some (child, checkedPools)) {pools : LoadedPools}
    (hlinked : pools.WellLinked) (htemplate : ∀ p, pools.HasTemplate p ↔ s.pools.HasTemplate p)
    (hsearch : pools.mgr.poolSearchMap = Function.update s.pools.mgr.poolSearchMap child none) :
    Checking order { s with pools, walk := none } := by
  refine ⟨hlinked, by simpa only [htemplate] using h.mem_order, h.todo, by simp, ?_⟩
  intro p hp
  rcases h.settled p hp with hp | ⟨n, hp⟩ | ⟨child', checkedPools', hwalk', hp⟩
  · exact .inl hp
  · refine .inr (.inl (hp.of_le fun c m hlink => ?_))
    simp only [hsearch] at hlink
    by_cases hc : c = child
    · simp [hc] at hlink
    · rwa [update_of_ne hc] at hlink
  · rw [hwalk, Option.some.injEq, Prod.mk.injEq] at hwalk'
    obtain ⟨rfl, rfl⟩ := hwalk'
    exact .inr (.inl ((h.walking _ _ hwalk).ends hsearch hp))

theorem Checking.climbs (h : Checking order s) {child mother : Nat}
    (hwalk : s.walk = some (child, checkedPools))
    (hlink : s.pools.mgr.poolSearchMap child = some mother)
    (hnew : mother ∉ child :: checkedPools) :
    Checking order
      { s with
        pools := s.pools.passMapId child mother
        walk := some (mother, child :: checkedPools) } := by
  have hmother := (h.linked.templates child mother hlink).2
  have hway := h.walking child checkedPools hwalk
  refine ⟨passMapId_wellLinked h.linked hmother, ?_, h.todo, ?_, ?_⟩
  · intro p
    rw [h.mem_order p, hasTemplate_passMapId hmother]
  · intro child' checkedPools' heq
    obtain ⟨rfl, rfl⟩ := heq
    refine ⟨?_, nodup_cons.mpr ⟨hnew, hway.nodup⟩, ?_⟩
    · simp only [mgr_passMapId]
      exact List.isChain_cons_cons.mpr ⟨hlink, hway.chain⟩
    · intro p hp
      simp only [hasTemplate_passMapId hmother]
      rcases mem_cons.mp hp with rfl | hp
      · exact hmother
      · exact hway.templates p hp
  · intro p hp
    rcases h.settled p hp with hp | hp | ⟨child', checkedPools', hwalk', hp⟩
    · exact .inl hp
    · exact .inr (.inl (by simpa using hp))
    · rw [hwalk, Option.some.injEq, Prod.mk.injEq] at hwalk'
      obtain ⟨rfl, rfl⟩ := hwalk'
      exact .inr (.inr ⟨mother, _, rfl, mem_cons_of_mem _ hp⟩)

theorem Checking.turn (h : Checking order s) (hturn : Turn s s') : Checking order s' := by
  cases hturn with
  | begins hwalk htodo => exact h.begins hwalk htodo
  | ends hwalk hroot =>
    refine h.rests hwalk h.linked (fun _ => .rfl) ?_
    rw [← hroot, update_eq_self]
  | removes hwalk hlink _ =>
    have hmother := (h.linked.templates _ _ hlink).2
    refine h.rests hwalk
      (removeLink_wellLinked (passMapId_wellLinked h.linked hmother) (by rwa [mgr_passMapId]))
      (fun p => ?_) (by rw [search_removeLink, mgr_passMapId])
    rw [HasTemplate, mapIds_removeLink]
    exact hasTemplate_passMapId hmother
  | climbs hwalk hlink _ hnew => exact h.climbs hwalk hlink hnew

/-- A link of a pool, if it has one, is one that a map was passed on over. -/
def Passed (pools : LoadedPools) (c : Nat) : Prop :=
  ∀ m, pools.mgr.poolSearchMap c = some m → pools.mapId c = -1 ∨ pools.mapId m = pools.mapId c

/-- Maps are passed on from every pool that was looked at, but for the one that the inner loop
looks at. -/
def Passing (order : List Nat) (s : RelationCheck) : Prop :=
  ∀ p ∈ order, p ∈ s.todo ∨ Passed s.pools p ∨ ∃ checkedPools, s.walk = some (p, checkedPools)

theorem Passed.passMapId {pools : LoadedPools} {child mother c : Nat} (h : Passed pools c)
    (hc : c ≠ mother) : Passed (pools.passMapId child mother) c := by
  intro m hlink
  rw [mgr_passMapId] at hlink
  rw [mapId_passMapId, mapId_passMapId, if_neg fun hpass => hc hpass.1]
  split
  · rename_i hpass
    have hcm := h m hlink
    rw [hpass.1, hpass.2.2] at hcm
    exact .inl (hcm.elim id Eq.symm)
  · exact h m hlink

theorem passed_passMapId {pools : LoadedPools} {child mother : Nat} (hne : child ≠ mother)
    (hlink : pools.mgr.poolSearchMap child = some mother)
    (hsame : ¬OnDifferentMaps pools child mother) :
    Passed (pools.passMapId child mother) child := by
  intro m hm
  rw [mgr_passMapId, hlink, Option.some.injEq] at hm
  subst hm
  rw [mapId_passMapId, mapId_passMapId, if_neg fun hpass => hne hpass.1]
  unfold OnDifferentMaps at hsame
  split <;> tauto

/-- The step of a run. -/
theorem Passing.turn (h : Passing order s) (hproper : Proper s) (hturn : Turn s s') :
    Passing order s' := by
  intro p hp
  have hp := h p hp
  cases hturn with
  | @begins q todo hwalk htodo =>
    simp only [hwalk, htodo, mem_cons, reduceCtorEq, exists_false, or_false] at hp
    rcases hp with (rfl | hp) | hp
    · exact .inr (.inr ⟨[], rfl⟩)
    · exact .inl hp
    · exact .inr (.inl hp)
  | @ends child checkedPools hwalk hroot =>
    refine hp.imp id fun hp => .inl ?_
    rcases hp with hp | ⟨_, hp⟩
    · exact hp
    · cases hwalk.symm.trans hp
      exact fun m hm => absurd (hroot.symm.trans hm) nofun
  | @removes child mother checkedPools hwalk hlink hcause =>
    have hsame : s.pools.passMapId child mother = s.pools := by
      refine passMapId_eq ?_
      rcases hcause with hdiffer | hcircular
      · exact .inr hdiffer.2.1
      · exact hproper child checkedPools mother hwalk hlink hcircular
    refine hp.imp id fun hp => .inl fun m hm => ?_
    rw [hsame] at hm ⊢
    obtain ⟨hne, hm⟩ := search_of_removeLink hm
    rcases hp with hp | ⟨_, hp⟩
    · exact hp m hm
    · cases hwalk.symm.trans hp
      exact absurd rfl hne
  | @climbs child mother checkedPools hwalk hlink hdiffer hnew =>
    refine hp.imp id fun hp => ?_
    by_cases hmother : p = mother
    · exact .inr ⟨_, by rw [hmother]⟩
    rcases hp with hp | ⟨_, hp⟩
    · exact .inl (hp.passMapId hmother)
    · cases hwalk.symm.trans hp
      exact .inl (passed_passMapId hmother hlink hdiffer)

/-- A link goes only when it closes a cycle or joins pools on different maps. -/
def Justified (s s' : RelationCheck) : Prop :=
  ∀ child mother, s.pools.mgr.poolSearchMap child = some mother →
    s'.pools.mgr.poolSearchMap child ≠ some mother →
    Relation.ReflTransGen (IsUp s.pools.mgr.poolSearchMap) mother child ∨
      OnDifferentMaps s.pools child mother

theorem Checking.justified (h : Checking order s) (hturn : Turn s s') : Justified s s' := by
  intro c m hcm hgone
  cases hturn with
  | begins => exact absurd hcm hgone
  | ends => exact absurd hcm hgone
  | climbs => exact absurd hcm (by simpa using hgone)
  | @removes child mother checkedPools hwalk hlink hcause =>
    have hc : c = child := by
      by_contra hother
      simp [update_of_ne hother, hcm] at hgone
    subst hc
    rw [hlink, Option.some.injEq] at hcm
    subst hcm
    rcases hcause with hdiffer | hcircular
    · exact .inr hdiffer
    · exact .inl ((h.walking c checkedPools hwalk).up hcircular)

/-- Turns that are left at most, for `size` pools. -/
def measure (size : Nat) (s : RelationCheck) : Nat :=
  s.todo.length * (size + 3) +
    match s.walk with
    | none => 0
    | some (_, checkedPools) => size + 2 - checkedPools.length

theorem Walking.length_le {way : List Nat} (h : Walking s way)
    (horder : ∀ p, p ∈ order ↔ s.pools.HasTemplate p) : way.length ≤ order.length :=
  (h.nodup.subperm fun p hp => (horder p).mpr (h.templates p hp)).length_le

theorem Checking.measure_lt (h : Checking order s) (hturn : Turn s s') :
    measure order.length s' < measure order.length s := by
  cases hturn with
  | begins hwalk htodo =>
    simp only [measure, hwalk, htodo, length_cons, length_nil]
    rw [Nat.succ_mul]
    omega
  | ends hwalk =>
    have hle := (h.walking _ _ hwalk).length_le h.mem_order
    simp only [measure, hwalk, length_cons] at hle ⊢
    omega
  | removes hwalk =>
    have hle := (h.walking _ _ hwalk).length_le h.mem_order
    simp only [measure, hwalk, length_cons] at hle ⊢
    omega
  | climbs hwalk =>
    have hle := (h.walking _ _ hwalk).length_le h.mem_order
    simp only [measure, hwalk, length_cons] at hle ⊢
    omega

end invariant

section results

/-- The state before the check, for an order of `mPoolTemplate`. -/
def started (store : SpawnStore) (templates : List PoolTemplateRow) (members : List PoolMemberRow)
    (order : List Nat) : RelationCheck :=
  { pools := .load store templates members, todo := order }

structure Sound (pools : LoadedPools) : Prop where
  acyclic : ∀ p, ¬Relation.TransGen (IsUp pools.mgr.poolSearchMap) p p
  nested : ∃ fuel, ∀ p, (pools.mgr.isEmpty fuel p).isSome ∧
    ∀ s, (pools.mgr.spawnPool fuel p s).isSome ∧ (pools.mgr.despawnPool fuel p s).isSome
  listed : ∀ c m, pools.mgr.poolSearchMap c = some m ↔ c ∈ pools.mgr.members .pool m
  sameMap : ∀ c m, pools.mgr.poolSearchMap c = some m → pools.mapId c ≠ -1 →
    pools.mapId m ≠ -1 → pools.mapId c = pools.mapId m
  mapped : ∀ p, pools.HasTemplate p → ∀ fuel, pools.mgr.isEmpty fuel p = some false →
    pools.mapId p ≠ -1

variable {s : RelationCheck} {order : List Nat}

theorem after_succ {s' : RelationCheck} {turns : Nat} (h : (s.after turns).step = some s') :
    s.after (turns + 1) = s' := by
  rw [RelationCheck.after, h, Option.getD_some]

theorem Checking.after (h : Checking order s) : ∀ turns, Checking order (s.after turns)
  | 0 => h
  | turns + 1 => by
    cases hstep : (s.after turns).step with
    | none =>
      rw [RelationCheck.after, hstep]
      exact h.after turns
    | some s' =>
      rw [after_succ hstep]
      exact (h.after turns).turn (.of_step hstep)

theorem Passing.after (h : Passing order s) (hproper : ∀ turns, Proper (s.after turns)) :
    ∀ turns, Passing order (s.after turns)
  | 0 => h
  | turns + 1 => by
    cases hstep : (s.after turns).step with
    | none =>
      rw [RelationCheck.after, hstep]
      exact h.after hproper turns
    | some s' =>
      rw [after_succ hstep]
      exact (h.after hproper turns).turn (hproper turns) (.of_step hstep)

theorem Checking.justified_after (h : Checking order s) (turns : Nat) :
    Justified (s.after turns) (s.after (turns + 1)) := by
  cases hstep : (s.after turns).step with
  | none =>
    rw [RelationCheck.after, hstep]
    exact fun c m hlink hgone => absurd hlink hgone
  | some s' =>
    rw [after_succ hstep]
    exact (h.after turns).justified (.of_step hstep)

theorem Checking.ends (h : Checking order s) : ∃ turns, (s.after turns).step = none := by
  by_contra hnever
  rw [not_exists] at hnever
  have hle : ∀ turns, measure order.length (s.after turns) + turns ≤ measure order.length s := by
    intro turns
    induction turns with
    | zero => exact le_rfl
    | succ turns ih =>
      obtain ⟨s', hs'⟩ := Option.ne_none_iff_exists'.mp (hnever turns)
      have hlt := (h.after turns).measure_lt (.of_step hs')
      rw [after_succ hs']
      omega
  have hlast := hle (measure order.length s + 1)
  omega

theorem nothing_left (hend : s.step = none) : s.walk = none ∧ s.todo = [] := by
  obtain ⟨pools, todo, walk⟩ := s
  cases walk with
  | some walk =>
    obtain ⟨child, checkedPools⟩ := walk
    cases hlink : pools.mgr.poolSearchMap child <;> simp [RelationCheck.step, hlink] at hend
  | none =>
    cases todo with
    | cons p todo => simp [RelationCheck.step] at hend
    | nil => exact ⟨rfl, rfl⟩

theorem Checking.links_end (h : Checking order s) (hend : s.step = none) (p : Nat) :
    ∃ n, EndsAfter s.pools.mgr.poolSearchMap p n := by
  cases hlink : s.pools.mgr.poolSearchMap p with
  | none => exact ⟨0, .root hlink⟩
  | some m =>
    have hp := h.settled p ((h.mem_order p).mpr (h.linked.templates p m hlink).1)
    simpa [nothing_left hend] using hp

theorem Checking.nested (h : Checking order s) (hend : s.step = none) :
    ∃ fuel, ∀ p, (s.pools.mgr.isEmpty fuel p).isSome ∧
      ∀ spawns, (s.pools.mgr.spawnPool fuel p spawns).isSome ∧
        (s.pools.mgr.despawnPool fuel p spawns).isSome := by
  have hchild : ∀ c m, s.pools.mgr.poolSearchMap c = some m → c ∈ order := fun c m hlink =>
    (h.mem_order c).mpr (h.linked.templates c m hlink).1
  obtain ⟨bound, height, hbound, hheight⟩ := exists_height (h.links_end hend) order hchild
  have hnested : Nested s.pools.mgr height := fun m c hc =>
    hheight c m ((h.linked.listed c m).mpr hc)
  have hfuel : ∀ p, height p < bound + 1 := fun p => Nat.lt_succ_of_le (hbound p)
  exact ⟨bound + 1, fun p => ⟨isEmpty_isSome hnested _ p (hfuel p), fun spawns =>
    ⟨spawnPool_isSome hnested _ p spawns (hfuel p),
      despawnPool_isSome hnested _ p spawns (hfuel p)⟩⟩⟩

theorem Checking.sound (h : Checking order s) (hpassing : Passing order s)
    (hend : s.step = none) : Sound s.pools := by
  have hpassed : ∀ c m, s.pools.mgr.poolSearchMap c = some m →
      s.pools.mapId c = -1 ∨ s.pools.mapId m = s.pools.mapId c := by
    intro c m hlink
    have hc := hpassing c ((h.mem_order c).mpr (h.linked.templates c m hlink).1)
    simp only [nothing_left hend, not_mem_nil, reduceCtorEq, exists_false, false_or, or_false] at hc
    exact hc m hlink
  refine ⟨acyclic_of_ends (h.links_end hend), h.nested hend, h.linked.listed, ?_, ?_⟩
  · intro c m hlink hc _
    exact ((hpassed c m hlink).resolve_left hc).symm
  · intro p _ fuel
    induction fuel generalizing p with
    | zero => exact fun hempty => by cases hempty
    | succ fuel ih =>
      intro hempty
      rcases isEmpty_eq_false hempty with ⟨kind, hkind, hfull⟩ | ⟨c, hc, hfull⟩
      · obtain ⟨mapId, hne, hmap⟩ := h.linked.mapped kind hkind p hfull
        simpa [LoadedPools.mapId, hmap] using hne
      · have hlink := (h.linked.listed c p).mpr hc
        have hne := ih c (h.linked.templates c p hlink).1 hfull
        rw [(hpassed c p hlink).resolve_left hne]
        exact hne

theorem checking_started (store : SpawnStore) {templates : List PoolTemplateRow}
    {members : List PoolMemberRow}
    (horder : ∀ p, p ∈ order ↔ p ∈ templates.map PoolTemplateRow.entry)
    (hone : OneMother (· ∈ templates.map PoolTemplateRow.entry) members) :
    Checking order (started store templates members order) := by
  obtain ⟨hlinked, hentries⟩ := wellLinked_load store templates hone
  refine ⟨hlinked, fun p => (horder p).trans (hentries p).symm, fun _ hp => hp, ?_, ?_⟩
  · intro child checkedPools hwalk
    cases hwalk
  · exact fun p hp => .inl hp

/-- The relation check ends without cycles and with both sides of every link, whatever maps are
handed on, and each link that it removes closes a cycle or joins pools on different maps. -/
theorem relations_end (store : SpawnStore) {templates : List PoolTemplateRow}
    {members : List PoolMemberRow}
    (horder : ∀ p, p ∈ order ↔ p ∈ templates.map PoolTemplateRow.entry)
    (hone : OneMother (· ∈ templates.map PoolTemplateRow.entry) members) :
    (∃ turns, ((started store templates members order).after turns).step = none ∧
      let pools := ((started store templates members order).after turns).pools
      (∀ p, ¬Relation.TransGen (IsUp pools.mgr.poolSearchMap) p p) ∧
        ∀ c m, pools.mgr.poolSearchMap c = some m ↔ c ∈ pools.mgr.members .pool m) ∧
      ∀ turns, Justified ((started store templates members order).after turns)
        ((started store templates members order).after (turns + 1)) := by
  have hstart := checking_started store horder hone
  obtain ⟨turns, hend⟩ := hstart.ends
  exact ⟨⟨turns, hend, acyclic_of_ends ((hstart.after turns).links_end hend),
    (hstart.after turns).linked.listed⟩, hstart.justified_after⟩

/-- The relation check ends and leaves sound relations, and each link that it removes
closes a cycle or joins pools on different maps. -/
theorem relations_checked (store : SpawnStore) {templates : List PoolTemplateRow}
    {members : List PoolMemberRow} {order : List Nat}
    (horder : ∀ p, p ∈ order ↔ p ∈ templates.map PoolTemplateRow.entry)
    (hone : OneMother (· ∈ templates.map PoolTemplateRow.entry) members)
    (hproper : ∀ turns, Proper ((started store templates members order).after turns)) :
    (∃ turns, ((started store templates members order).after turns).step = none ∧
        Sound ((started store templates members order).after turns).pools) ∧
      ∀ turns, Justified ((started store templates members order).after turns)
        ((started store templates members order).after (turns + 1)) := by
  have hstart := checking_started store horder hone
  have hpassing : Passing order (started store templates members order) := fun p hp => .inl hp
  obtain ⟨turns, hend⟩ := hstart.ends
  exact ⟨⟨turns, hend, (hstart.after turns).sound (hpassing.after hproper turns) hend⟩,
    hstart.justified_after⟩

theorem proper_of_end {last : Nat} (hend : (s.after last).step = none)
    (h : ∀ turns < last + 1, Proper (s.after turns)) : ∀ turns, Proper (s.after turns) := by
  have hconstant : ∀ more, s.after (last + more) = s.after last := by
    intro more
    induction more with
    | zero => rfl
    | succ more ih => rw [← Nat.add_assoc, RelationCheck.after, ih, hend, Option.getD_none]
  intro turns
  rcases Nat.lt_or_ge turns (last + 1) with hlt | hge
  · exact h turns hlt
  · rw [← Nat.add_sub_of_le (Nat.le_of_succ_le hge), hconstant]
    exact h last (Nat.lt_succ_self last)

/-- Creature 100 is on map 5 and creature 101 on map 7. -/
def twoCreatures : SpawnStore where
  creatureMap guid := if guid = 100 then some 5 else if guid = 101 then some 7 else none
  gameobjectMap _ := none
  lootable _ := false

def fourTemplates : List PoolTemplateRow := [⟨1, 1⟩, ⟨2, 1⟩, ⟨3, 1⟩, ⟨4, 1⟩]

/-- The creatures are in the pools 3 and 4; the pools 1, 2 and 3 are a cycle, and the
pool 4 is in the pool 2. -/
def cyclicMembers : List PoolMemberRow :=
  [⟨.creature, 100, 3, 0⟩, ⟨.creature, 101, 4, 0⟩, ⟨.pool, 1, 2, 0⟩, ⟨.pool, 2, 3, 0⟩,
    ⟨.pool, 3, 1, 0⟩, ⟨.pool, 4, 2, 0⟩]

theorem oneMother_cyclicMembers :
    OneMother (· ∈ fourTemplates.map PoolTemplateRow.entry) cyclicMembers := by
  unfold OneMother PoolLinks PoolMemberRow.Links
  decide +kernel

theorem mem_fourTemplates {order : List Nat} (h : order.Perm [1, 2, 3, 4]) (p : Nat) :
    p ∈ order ↔ p ∈ fourTemplates.map PoolTemplateRow.entry := by
  rw [h.mem_iff]
  rfl

/-- With the pool 4 first, the pools 1, 2 and 3 are on one way up. -/
theorem relations_checked_mapFirst :
    (∃ turns,
        ((started twoCreatures fourTemplates cyclicMembers [4, 1, 2, 3]).after turns).step = none ∧
        Sound ((started twoCreatures fourTemplates cyclicMembers [4, 1, 2, 3]).after turns).pools) ∧
      ∀ turns, Justified
        ((started twoCreatures fourTemplates cyclicMembers [4, 1, 2, 3]).after turns)
        ((started twoCreatures fourTemplates cyclicMembers [4, 1, 2, 3]).after (turns + 1)) := by
  have hend :
      ((started twoCreatures fourTemplates cyclicMembers [4, 1, 2, 3]).after 11).step = none :=
    Option.isNone_iff_eq_none.mp (by decide +kernel)
  refine relations_checked twoCreatures (mem_fourTemplates (by decide)) oneMother_cyclicMembers ?_
  exact proper_of_end hend (by decide +kernel)

/-- With the pool 1 first it gets the map of the pool 3, over a link that is removed at
once; its mother then gets the map of the pool 4. -/
theorem cyclicMembers_unsound :
    (cyclicMembers.map fun row => (row.type, row.spawnId)).Nodup ∧
      OneMother (· ∈ fourTemplates.map PoolTemplateRow.entry) cyclicMembers ∧
      ((started twoCreatures fourTemplates cyclicMembers [1, 2, 3, 4]).after 12).step = none ∧
      ¬Sound ((started twoCreatures fourTemplates cyclicMembers [1, 2, 3, 4]).after 12).pools := by
  refine ⟨by decide, oneMother_cyclicMembers, Option.isNone_iff_eq_none.mp (by decide +kernel), ?_⟩
  intro hsound
  have hlink : ((started twoCreatures fourTemplates cyclicMembers [1, 2, 3, 4]).after
      12).pools.mgr.poolSearchMap 1 = some 2 := by decide +kernel
  have hmaps : ((started twoCreatures fourTemplates cyclicMembers [1, 2, 3, 4]).after
        12).pools.mapId 1 = 5 ∧
      ((started twoCreatures fourTemplates cyclicMembers [1, 2, 3, 4]).after
        12).pools.mapId 2 = 7 := by decide +kernel
  have hsame := hsound.sameMap 1 2 hlink (by simp [hmaps]) (by simp [hmaps])
  exact absurd hsame (by decide)

end results

end LegionServer.Guarantees.PoolRelations
