import LegionServer.Library.FiniteGraph
import LegionServer.Source.Conditions.ConditionMgr

/-!
# References between condition lists

The recursion of both walks follows the references of a list to the templates that the
store has under their ids.
-/
namespace LegionServer.Guarantees.ConditionReferences
open Library Source.Conditions List Option GroupWalk

variable {store : ConditionStore} {conditions : List Condition} {c : Condition} {depth : Nat}
  {s : DataStores} {rows : List ConditionRow}

/-- The references of a list lead to templates, down to lists without references. -/
inductive Resolves (leaf : Condition → Prop) (store : ConditionStore) : List Condition → Prop
  | intro {conditions : List Condition} :
    (∀ c ∈ conditions, c.referenceId = 0 → leaf c) →
    (∀ c ∈ conditions, c.referenceId ≠ 0 →
      (store .referenceCondition (templateId c.referenceId)).isSome = true) →
    (∀ c ∈ conditions, c.referenceId ≠ 0 →
      ∀ ref, store .referenceCondition (templateId c.referenceId) = some ref →
        Resolves leaf store ref) → Resolves leaf store conditions

variable {leaf : Condition → Prop}

theorem exists_common_depth {α : Type*} {enough : α → Nat → Prop}
    (hmore : ∀ a depth, enough a depth → enough a (depth + 1)) (as : List α)
    (h : ∀ a ∈ as, ∃ depth, enough a depth) : ∃ depth, ∀ a ∈ as, enough a depth := by
  have hlater : ∀ a depth more, enough a depth → enough a (depth + more) := by
    intro a depth more hdepth
    induction more with
    | zero => exact hdepth
    | succ more ih => exact hmore a _ ih
  induction as with
  | nil => exact ⟨0, fun a hmem => by cases hmem⟩
  | cons first rest ih =>
    obtain ⟨depth, hdepth⟩ := ih fun a hmem => h a (mem_cons_of_mem first hmem)
    obtain ⟨other, hother⟩ := h first mem_cons_self
    refine ⟨other + depth, ?_⟩
    intro a hmem
    cases mem_cons.mp hmem with
    | inl hself =>
      rw [hself]
      exact hlater first other depth hother
    | inr hin =>
      rw [Nat.add_comm]
      exact hlater a depth other (hdepth a hin)

def metMember (store : ConditionStore) (meets : Condition → Option Bool) (depth : Nat)
    (c : Condition) : Option (Bool × List Nat) :=
  if c.referenceId ≠ 0 then
    match store .referenceCondition (templateId c.referenceId) with
    | some ref => isObjectMeetToConditionList store meets depth ref
    | none => some (true, [c.referenceId])
  else (meets c).map fun met => (met, [])

theorem isObjectMeetToConditionList_succ (meets : Condition → Option Bool) :
    isObjectMeetToConditionList store meets (depth + 1) conditions =
      (elseGroupStore.run (metMember store meets depth)
        (conditions.filter Condition.isLoaded)).map fun walked =>
          (walked.1.items.any Prod.snd, walked.2) := rfl

def maskMember (store : ConditionStore) (depth : Nat) (c : Condition) : Option (Nat × List Nat) :=
  if c.referenceId ≠ 0 then
    match store .referenceCondition (templateId c.referenceId) with
    | some ref => (getSearcherTypeMaskForConditionList store depth ref).map fun mask => (mask, [])
    | none => none
  else c.getSearcherTypeMaskForCondition.map fun mask => (mask, [])

theorem getSearcherTypeMaskForConditionList_succ :
    getSearcherTypeMaskForConditionList store (depth + 1) conditions =
      if conditions.isEmpty then some GRID_MAP_TYPE_MASK_ALL
      else if conditions.all Condition.isLoaded then
        (elseGroupSearcherTypeMasks.run (maskMember store depth) conditions).map fun walked =>
          walked.1.items.foldl (fun mask group => mask ||| group.2) 0
      else none := rfl

variable {meets : Condition → Option Bool} {result : Bool × List Nat}

theorem metMember_mono {more : Nat}
    (h : ∀ ref result, isObjectMeetToConditionList store meets depth ref = some result →
      isObjectMeetToConditionList store meets more ref = some result)
    (hmember : metMember store meets depth c = some result) :
    metMember store meets more c = some result := by
  unfold metMember at hmember ⊢
  split
  · rename_i href
    rw [if_pos href] at hmember
    split at hmember
    · exact h _ _ hmember
    · exact hmember
  · rename_i href
    rw [if_neg href] at hmember
    exact hmember

theorem maskMember_mono {more : Nat}
    (h : ∀ ref mask, getSearcherTypeMaskForConditionList store depth ref = some mask →
      getSearcherTypeMaskForConditionList store more ref = some mask) {result : Nat × List Nat}
    (hmember : maskMember store depth c = some result) :
    maskMember store more c = some result := by
  unfold maskMember at hmember ⊢
  split
  · rename_i href
    rw [if_pos href] at hmember
    split at hmember
    · obtain ⟨mask, hmask, hsame⟩ := map_eq_some_iff.mp hmember
      rw [h _ _ hmask, map_some, hsame]
    · cases hmember
  · rename_i href
    rw [if_neg href] at hmember
    exact hmember

theorem isObjectMeetToConditionList_mono
    (h : isObjectMeetToConditionList store meets depth conditions = some result) :
    isObjectMeetToConditionList store meets (depth + 1) conditions = some result := by
  induction depth generalizing conditions result with
  | zero => cases h
  | succ depth ih =>
    rw [isObjectMeetToConditionList_succ] at h ⊢
    obtain ⟨walked, hrun, hresult⟩ := map_eq_some_iff.mp h
    have hmore := run_mono (fun _ _ _ hmember => metMember_mono (fun _ _ => ih) hmember) hrun
    rw [hmore, map_some, hresult]

theorem getSearcherTypeMaskForConditionList_mono {mask : Nat}
    (h : getSearcherTypeMaskForConditionList store depth conditions = some mask) :
    getSearcherTypeMaskForConditionList store (depth + 1) conditions = some mask := by
  induction depth generalizing conditions mask with
  | zero => cases h
  | succ depth ih =>
    rw [getSearcherTypeMaskForConditionList_succ] at h ⊢
    split at h
    · rename_i hempty
      rw [if_pos hempty]
      exact h
    · rename_i hsome
      rw [if_neg hsome]
      split at h
      · rename_i hloaded
        rw [if_pos hloaded]
        obtain ⟨walked, hrun, hresult⟩ := map_eq_some_iff.mp h
        have hmore := run_mono (fun _ _ _ hmember => maskMember_mono (fun _ _ => ih) hmember) hrun
        rw [hmore, map_some, hresult]
      · cases h

theorem met_of_members {outcome : Condition → Bool} (h : ∀ c ∈ conditions, ∃ met,
      metMember store (fun c => some (outcome c)) depth c = some (met, [])) :
    ∃ walked, elseGroupStore.run (metMember store (fun c => some (outcome c)) depth)
        (conditions.filter Condition.isLoaded) = some walked ∧
      isObjectMeetToConditionList store (fun c => some (outcome c)) (depth + 1) conditions =
        some (walked.1.items.any Prod.snd, []) := by
  have hloaded : ∀ c ∈ conditions.filter Condition.isLoaded, ∃ met,
      metMember store (fun c => some (outcome c)) depth c = some (met, []) := fun c hc =>
    h c (mem_filter.mp hc).1
  have hends : (elseGroupStore.run (metMember store (fun c => some (outcome c)) depth)
      (conditions.filter Condition.isLoaded)).isSome = true := by
    apply run_isSome
    intro c hc
    obtain ⟨met, hmet⟩ := hloaded c hc
    rw [hmet, isSome_some]
  obtain ⟨walked, hrun⟩ := isSome_iff_exists.mp hends
  have hnotes : walked.2 = [] := by
    refine notes_eq_nil ?_ hrun
    intro c hc x notes hnotes
    obtain ⟨met, hmet⟩ := hloaded c hc
    rw [hmet, Option.some.injEq, Prod.mk.injEq] at hnotes
    exact hnotes.2.symm
  refine ⟨walked, hrun, ?_⟩
  rw [isObjectMeetToConditionList_succ, hrun, map_some, hnotes]

/-- With enough depth every member of a list that resolves has an outcome, and no reference is
left out. -/
theorem metMembers_of_resolves (outcome : Condition → Bool) (h : Resolves leaf store conditions) :
    ∃ depth, ∀ c ∈ conditions, ∃ met,
      metMember store (fun c => some (outcome c)) depth c = some (met, []) := by
  induction h with
  | @intro conditions _ hfound _ ih =>
    have hmember : ∀ c ∈ conditions, ∃ depth, ∃ met,
        metMember store (fun c => some (outcome c)) depth c = some (met, []) := by
      intro c hc
      unfold metMember
      by_cases href : c.referenceId = 0
      · refine ⟨0, outcome c, ?_⟩
        rw [if_neg (not_not.mpr href), map_some]
      obtain ⟨ref, hsome⟩ := isSome_iff_exists.mp (hfound c hc href)
      obtain ⟨depth, hdepth⟩ := ih c hc href ref hsome
      obtain ⟨walked, -, hmet⟩ := met_of_members hdepth
      refine ⟨depth + 1, walked.1.items.any Prod.snd, ?_⟩
      rw [if_pos href, hsome]
      exact hmet
    have hmore : ∀ c depth, (∃ met, metMember store (fun c => some (outcome c)) depth c =
        some (met, [])) → ∃ met, metMember store (fun c => some (outcome c)) (depth + 1) c =
          some (met, []) := fun c depth hmet =>
      hmet.imp fun _ => metMember_mono fun _ _ => isObjectMeetToConditionList_mono
    exact exists_common_depth hmore conditions hmember

theorem met_of_resolves (outcome : Condition → Bool) (h : Resolves leaf store conditions) :
    ∃ depth met, isObjectMeetToConditionList store (fun c => some (outcome c)) depth conditions =
        some (met, []) := by
  obtain ⟨depth, hdepth⟩ := metMembers_of_resolves outcome h
  obtain ⟨walked, -, hmet⟩ := met_of_members hdepth
  exact ⟨depth + 1, walked.1.items.any Prod.snd, hmet⟩

/-- A condition that both walks can take: loaded, and of a type with a mask. -/
def Walkable (c : Condition) : Prop :=
  c.isLoaded = true ∧ (c.getSearcherTypeMaskForCondition).isSome = true

theorem isLoaded_of_reference (h : c.referenceId ≠ 0) : c.isLoaded = true := by
  simp [Condition.isLoaded, h]

theorem mask_of_members (hloaded : ∀ c ∈ conditions, c.isLoaded = true)
    (h : ∀ c ∈ conditions, (maskMember store depth c).isSome = true) :
    ∃ mask, getSearcherTypeMaskForConditionList store (depth + 1) conditions = some mask := by
  obtain ⟨walked, hrun⟩ := isSome_iff_exists.mp (run_isSome h :
    (elseGroupSearcherTypeMasks.run (maskMember store depth) conditions).isSome = true)
  rw [getSearcherTypeMaskForConditionList_succ, hrun, all_eq_true.mpr hloaded]
  split
  · exact ⟨_, rfl⟩
  · exact ⟨_, rfl⟩

theorem members_of_resolves (h : Resolves Walkable store conditions) :
    (∀ c ∈ conditions, c.isLoaded = true) ∧
      ∃ depth, ∀ c ∈ conditions, (maskMember store depth c).isSome = true := by
  induction h with
  | @intro conditions hleaf hfound _ ih =>
    have hmember : ∀ c ∈ conditions, ∃ depth, (maskMember store depth c).isSome = true := by
      intro c hc
      unfold maskMember
      by_cases href : c.referenceId = 0
      · refine ⟨0, ?_⟩
        rw [if_neg (not_not.mpr href), isSome_map]
        exact (hleaf c hc href).2
      · obtain ⟨ref, hsome⟩ := isSome_iff_exists.mp (hfound c hc href)
        obtain ⟨hloaded, depth, hdepth⟩ := ih c hc href ref hsome
        obtain ⟨mask, hmask⟩ := mask_of_members hloaded hdepth
        refine ⟨depth + 1, ?_⟩
        rw [if_pos href, hsome]
        dsimp only
        rw [hmask, map_some, isSome_some]
    have hmore : ∀ c depth, (maskMember store depth c).isSome = true →
        (maskMember store (depth + 1) c).isSome = true := by
      intro c depth hsome
      obtain ⟨result, hresult⟩ := isSome_iff_exists.mp hsome
      rw [maskMember_mono (fun _ _ => getSearcherTypeMaskForConditionList_mono) hresult,
        isSome_some]
    refine ⟨?_, exists_common_depth hmore conditions hmember⟩
    intro c hc
    by_cases href : c.referenceId = 0
    · exact (hleaf c hc href).1
    · exact isLoaded_of_reference href

theorem mask_of_resolves (h : Resolves Walkable store conditions) :
    ∃ depth mask, getSearcherTypeMaskForConditionList store depth conditions = some mask := by
  obtain ⟨hloaded, depth, hdepth⟩ := members_of_resolves h
  exact ⟨depth + 1, mask_of_members hloaded hdepth⟩

theorem good_true : GroupWalk.Good elseGroupStore (fun met => met = true) where
  top := rfl
  meet v x := by simp [elseGroupStore]
  live v hdead := by simpa [elseGroupStore] using hdead

theorem resolves_of_met {met : Bool} {notFound : List Nat}
    (hstore : ∀ id ref, store .referenceCondition id = some ref → ref ≠ [] ∧
      ∀ c ∈ ref, c.isLoaded = true) (hsome : conditions ≠ [])
    (hloaded : ∀ c ∈ conditions, c.isLoaded = true)
    (h : isObjectMeetToConditionList store (fun _ => some true) depth conditions =
      some (met, notFound)) :
    met = true ∧ (notFound = [] → Resolves (fun _ => True) store conditions) := by
  induction depth generalizing conditions met notFound with
  | zero => cases h
  | succ depth ih =>
    rw [isObjectMeetToConditionList_succ, filter_eq_self.mpr hloaded] at h
    obtain ⟨walked, hrun, hresult⟩ := map_eq_some_iff.mp h
    rw [Prod.mk.injEq] at hresult
    have hmembers : ∀ c x notes, metMember store (fun _ => some true) depth c = some (x, notes) →
        x = true := by
      intro c x notes hmember
      unfold metMember at hmember
      split at hmember
      · split at hmember
        · rename_i ref hfound
          exact (ih (hstore _ ref hfound).1 (hstore _ ref hfound).2 hmember).1
        · cases hmember
          rfl
      · cases hmember
        rfl
    obtain ⟨-, hall⟩ := visits_all good_true hmembers hrun
    constructor
    · rw [← hresult.1, List.any_eq_true]
      obtain ⟨c, hc⟩ := List.exists_mem_of_ne_nil conditions hsome
      apply (exists_good_iff good_true rfl hrun).mpr
      refine ⟨c, hc, ?_⟩
      intro other hother _
      obtain ⟨x, notes, hmember, -⟩ := hall other hother
      exact ⟨x, notes, hmember, hmembers other x notes hmember⟩
    · intro hnone
      refine .intro (fun _ _ _ => trivial) ?_ ?_
      · intro c hc href
        obtain ⟨x, notes, hmember, hnotes⟩ := hall c hc
        cases hfound : store .referenceCondition (templateId c.referenceId) with
        | some ref => rfl
        | none =>
          -- The id would be among those that were not found.
          rw [metMember, if_pos href, hfound] at hmember
          cases hmember
          have hnote := hnotes c.referenceId mem_cons_self
          rw [hresult.2, hnone] at hnote
          cases hnote
      · intro c hc href ref hfound
        obtain ⟨x, notes, hmember, hnotes⟩ := hall c hc
        rw [metMember, if_pos href, hfound] at hmember
        refine (ih (hstore _ ref hfound).1 (hstore _ ref hfound).2 hmember).2 ?_
        apply List.eq_nil_iff_forall_not_mem.mpr
        intro note hnote
        have hin := hnotes note hnote
        rw [hresult.2, hnone] at hin
        cases hin

def loaded (s : DataStores) (rows : List ConditionRow) : List Condition :=
  rows.filterMap (loadRow s)

def hasKey (sourceType : ConditionSourceType) (id : ConditionId) (c : Condition) : Bool :=
  c.sourceType = sourceType ∧ c.id = id

theorem foldl_add (conditions : List Condition) (store : ConditionStore)
    (sourceType : ConditionSourceType) (id : ConditionId) :
    conditions.foldl ConditionStore.add store sourceType id =
      if conditions.filter (hasKey sourceType id) = [] then store sourceType id
      else some ((store sourceType id).getD [] ++ conditions.filter (hasKey sourceType id)) := by
  induction conditions generalizing store with
  | nil => rfl
  | cons first rest ih =>
    rw [foldl_cons, ih, filter_cons]
    by_cases hkey : first.sourceType = sourceType ∧ first.id = id
    · have hself : hasKey sourceType id first = true := decide_eq_true hkey
      rw [hself, if_pos rfl, if_neg (cons_ne_nil _ _), ConditionStore.add, if_pos hkey]
      split
      · rename_i hnone
        rw [hnone]
      · rw [getD_some, append_assoc, singleton_append]
    · have hother : hasKey sourceType id first = false := decide_eq_false hkey
      rw [hother, if_neg Bool.false_ne_true, ConditionStore.add, if_neg hkey]

variable {sourceType : ConditionSourceType} {id : ConditionId}

theorem loadConditions_eq_some :
    loadConditions s rows sourceType id = some conditions ↔
      conditions ≠ [] ∧ conditions = (loaded s rows).filter (hasKey sourceType id) := by
  change (loaded s rows).foldl ConditionStore.add .empty sourceType id = _ ↔ _
  rw [foldl_add]
  split
  · rename_i hnone
    rw [hnone]
    simp [ConditionStore.empty]
  · rename_i hsome
    rw [ConditionStore.empty, getD_none, nil_append, Option.some.injEq]
    constructor
    · intro heq
      rw [← heq]
      exact ⟨hsome, rfl⟩
    · intro heq
      exact heq.2.symm

/-- The checks that a loaded condition without a reference has passed. -/
def TypeChecked (s : DataStores) (c : Condition) : Prop :=
  c.checkValues s = true ∧ c.conditionTarget < c.getMaxAvailableConditionTargets

/-- The checks only ask for the number of targets of a source. -/
theorem TypeChecked.source {s : DataStores} (h : TypeChecked s c) {changed : Condition}
    (htype : changed.conditionType = c.conditionType)
    (hvalue1 : changed.conditionValue1 = c.conditionValue1)
    (hvalue2 : changed.conditionValue2 = c.conditionValue2)
    (hvalue3 : changed.conditionValue3 = c.conditionValue3)
    (htarget : changed.conditionTarget = c.conditionTarget)
    (hmax : changed.getMaxAvailableConditionTargets = c.getMaxAvailableConditionTargets) :
    TypeChecked s changed := by
  have hsame : changed.checkValues s = c.checkValues s := by
    unfold Condition.checkValues Condition.checkOtherTarget Condition.checkEntryGuid
      Condition.checkSpawn
    rw [htype, hvalue1, hvalue2, hvalue3, htarget, hmax]
  exact ⟨hsame.trans h.1, by rw [htarget, hmax]; exact h.2⟩

variable {row : ConditionRow}

theorem fetchCondition_sourceType (h : fetchCondition s row = some c)
    (htemplate : row.sourceTypeOrReferenceId < 0) : c.sourceType = .none := by
  obtain ⟨conditionType, -, h⟩ := Option.bind_eq_some_iff.mp h
  obtain ⟨sourceType, hsource, h⟩ := Option.bind_eq_some_iff.mp h
  rw [fetchSourceType, if_neg (not_le.mpr htemplate)] at hsource
  cases hsource
  cases h
  rfl

theorem convertLegacy_sourceType (c : Condition) : c.convertLegacy.sourceType = c.sourceType := by
  unfold Condition.convertLegacy
  split <;> rfl

/-- A row that is loaded is a reference or has a checked type. -/
theorem loadRow_checked (h : loadRow s row = some c) : c.referenceId ≠ 0 ∨ TypeChecked s c := by
  obtain ⟨fetched, hfetched, h⟩ := Option.bind_eq_some_iff.mp h
  obtain ⟨checked, hchecked, h⟩ := Option.bind_eq_some_iff.mp h
  obtain ⟨sourced, hsourced, h⟩ := Option.bind_eq_some_iff.mp h
  split at h
  · cases h
  split at h
  · cases h
  cases h
  have hsource : sourced.referenceId = checked.referenceId ∧
      (checked.sourceType = fetched.sourceType → TypeChecked s checked →
        TypeChecked s sourced) := by
    unfold checkSource at hsourced
    split at hsourced
    · rename_i htemplate
      cases hsourced
      refine ⟨rfl, fun hsame htype => htype.source rfl rfl rfl rfl rfl ?_⟩
      rw [Condition.getMaxAvailableConditionTargets, Condition.getMaxAvailableConditionTargets,
        hsame, fetchCondition_sourceType hfetched htemplate]
    · obtain ⟨sourceGroup, -, rfl⟩ := map_eq_some_iff.mp hsourced
      exact ⟨rfl, fun _ htype => htype.source rfl rfl rfl rfl rfl rfl⟩
  unfold checkReference at hchecked
  split at hchecked
  · rename_i href
    split at hchecked
    · cases hchecked
    cases hchecked
    left
    rw [hsource.1]
    exact Int.natAbs_ne_zero.mpr href.ne
  · unfold Condition.isConditionTypeValid at hchecked
    dsimp only at hchecked
    split at hchecked
    · rename_i hvalid
      cases hchecked
      rw [Bool.and_eq_true, decide_eq_true_eq] at hvalid
      right
      exact (hsource.2 (convertLegacy_sourceType fetched) hvalid).source rfl rfl rfl rfl rfl rfl
    · cases hchecked

/-- The checks refuse the types that the walks cannot take. -/
theorem checkValues_type (h : c.checkValues s = true) :
    c.conditionType ≠ .none ∧ c.conditionType ≠ .spawnmaskDeprecated ∧
      c.conditionType ≠ .objectEntryGuidLegacy ∧ c.conditionType ≠ .typeMaskLegacy := by
  unfold Condition.checkValues at h
  refine ⟨?_, ?_, ?_, ?_⟩ <;>
    intro htype <;> rw [htype] at h <;> exact absurd h Bool.false_ne_true

theorem walkable_of_checked (h : TypeChecked s c) : Walkable c := by
  obtain ⟨hnone, hspawnmask, hentry, hmask⟩ := checkValues_type h.1
  constructor
  · simp [Condition.isLoaded, hnone]
  · unfold Condition.getSearcherTypeMaskForCondition
    split
    · rfl
    · cases htype : c.conditionType <;> first | rfl | contradiction

/-- A list of the store can be evaluated, whatever the outcomes: both walks end, and no
reference is left out. -/
structure Evaluable (store : ConditionStore) (conditions : List Condition) : Prop where
  met : ∀ outcome : Condition → Bool, ∃ depth met,
    isObjectMeetToConditionList store (fun c => some (outcome c)) depth conditions = some (met, [])
  mask : ∃ depth mask, getSearcherTypeMaskForConditionList store depth conditions = some mask

def IsTemplate (id : Nat) (c : Condition) : Prop :=
  hasKey .referenceCondition (templateId id) c = true

def Refers (s : DataStores) (rows : List ConditionRow) (id other : Nat) : Prop :=
  ∃ c ∈ loaded s rows, IsTemplate id c ∧ c.referenceId = other ∧ other ≠ 0

/-- Of the rows that pass the checks of the loader: every reference has a template, under the
source entry 0, and no chain of references through templates comes back. -/
structure Grounded (s : DataStores) (rows : List ConditionRow) : Prop where
  resolved : ∀ c ∈ loaded s rows, c.referenceId ≠ 0 →
    ∃ template ∈ loaded s rows, IsTemplate c.referenceId template
  acyclic : ∀ id, ¬Relation.TransGen (Refers s rows) id id

theorem mem_loaded_isLoaded (h : c ∈ loaded s rows) : c.isLoaded = true := by
  obtain ⟨row, -, hrow⟩ := mem_filterMap.mp h
  cases loadRow_checked hrow with
  | inl href => exact isLoaded_of_reference href
  | inr htype => exact (walkable_of_checked htype).1

theorem mem_loaded_walkable (h : c ∈ loaded s rows) (href : c.referenceId = 0) : Walkable c := by
  obtain ⟨row, -, hrow⟩ := mem_filterMap.mp h
  cases loadRow_checked hrow with
  | inl hsome => exact absurd href hsome
  | inr htype => exact walkable_of_checked htype

theorem mem_of_stored (h : loadConditions s rows sourceType id = some conditions)
    (hc : c ∈ conditions) : c ∈ loaded s rows ∧ hasKey sourceType id c = true := by
  rw [(loadConditions_eq_some.mp h).2] at hc
  exact mem_filter.mp hc

/-- Every reference leads to conditions that are there. -/
theorem Grounded.resolves (h : Grounded s rows) :
    ∀ (sourceType : ConditionSourceType) (id : ConditionId) (conditions : List Condition),
      loadConditions s rows sourceType id = some conditions →
        Resolves Walkable (loadConditions s rows) conditions := by
  have hfound : ∀ c ∈ loaded s rows, c.referenceId ≠ 0 →
      (loadConditions s rows .referenceCondition (templateId c.referenceId)).isSome = true := by
    intro c hc href
    obtain ⟨template, hmem, htemplate⟩ := h.resolved c hc href
    have hsome := loadConditions_eq_some.mpr ⟨ne_nil_of_mem
      (mem_filter.mpr ⟨hmem, htemplate⟩), rfl⟩
    rw [hsome, isSome_some]
  have hsources : {id | ∃ other, Refers s rows id other}.Finite := by
    apply ((loaded s rows).map Condition.sourceGroup).finite_toSet.subset
    intro id hid
    obtain ⟨other, c, hc, htemplate, -⟩ := hid
    have hkey := of_decide_eq_true htemplate
    have hgroup : c.sourceGroup = id := congrArg ConditionId.sourceGroup hkey.2
    exact mem_map.mpr ⟨c, hc, hgroup⟩
  have hacc : ∀ id, Acc (fun b a => Refers s rows a b) id :=
    acc_of_acyclic hsources (fun id other hrefers => ⟨other, hrefers⟩) h.acyclic
  have htemplates : ∀ id ref, loadConditions s rows .referenceCondition (templateId id) =
      some ref → Resolves Walkable (loadConditions s rows) ref := by
    intro id
    induction hacc id with
    | intro id _ ih =>
      intro ref hstored
      refine .intro ?_ ?_ ?_
      · exact fun c hc => mem_loaded_walkable (mem_of_stored hstored hc).1
      · exact fun c hc => hfound c (mem_of_stored hstored hc).1
      · intro c hc href
        obtain ⟨hmem, hkey⟩ := mem_of_stored hstored hc
        exact ih c.referenceId ⟨c, hmem, hkey, rfl, href⟩
  intro sourceType id conditions hstored
  refine .intro ?_ ?_ ?_
  · exact fun c hc => mem_loaded_walkable (mem_of_stored hstored hc).1
  · exact fun c hc => hfound c (mem_of_stored hstored hc).1
  · exact fun c _ _ => htemplates c.referenceId

theorem acc_of_resolves {id : Nat}
    (hstored : loadConditions s rows .referenceCondition (templateId id) = some conditions)
    (h : Resolves leaf (loadConditions s rows) conditions) :
    Acc (fun b a => Refers s rows a b) id := by
  induction h generalizing id with
  | @intro conditions _ hfound _ ih =>
    refine ⟨id, ?_⟩
    intro other hrefers
    obtain ⟨c, hc, htemplate, rfl, href⟩ := hrefers
    have hin : c ∈ conditions := by
      rw [(loadConditions_eq_some.mp hstored).2]
      exact mem_filter.mpr ⟨hc, htemplate⟩
    obtain ⟨ref, hsome⟩ := isSome_iff_exists.mp (hfound c hin href)
    exact ih c hin href ref hsome hsome

/-- All lists that are loaded from a table can be evaluated just when the references of the
rows that pass the checks have templates and no cycle. -/
theorem all_evaluable_iff (s : DataStores) (rows : List ConditionRow) :
    (∀ sourceType id conditions, loadConditions s rows sourceType id = some conditions →
      Evaluable (loadConditions s rows) conditions) ↔ Grounded s rows := by
  constructor
  · intro hall
    have hresolves : ∀ sourceType id conditions,
        loadConditions s rows sourceType id = some conditions →
          Resolves (fun _ => True) (loadConditions s rows) conditions := by
      intro sourceType id conditions hstored
      have hstore : ∀ sourceType id ref, loadConditions s rows sourceType id = some ref →
          ref ≠ [] ∧ ∀ c ∈ ref, c.isLoaded = true := fun sourceType id ref href =>
        ⟨(loadConditions_eq_some.mp href).1,
          fun c hc => mem_loaded_isLoaded (mem_of_stored href hc).1⟩
      obtain ⟨depth, met, hmet⟩ := (hall sourceType id conditions hstored).met fun _ => true
      obtain ⟨hsome, hloaded⟩ := hstore sourceType id conditions hstored
      exact (resolves_of_met (hstore .referenceCondition) hsome hloaded hmet).2 rfl
    have hself : ∀ c ∈ loaded s rows, ∃ conditions,
        loadConditions s rows c.sourceType c.id = some conditions ∧ c ∈ conditions := by
      intro c hc
      have hin : c ∈ (loaded s rows).filter (hasKey c.sourceType c.id) :=
        mem_filter.mpr ⟨hc, by simp [hasKey]⟩
      exact ⟨_, loadConditions_eq_some.mpr ⟨ne_nil_of_mem hin, rfl⟩, hin⟩
    constructor
    · intro c hc href
      obtain ⟨conditions, hstored, hin⟩ := hself c hc
      cases hresolves _ _ _ hstored with
      | intro _ hfound _ =>
        obtain ⟨ref, hsome⟩ := isSome_iff_exists.mp (hfound c hin href)
        obtain ⟨template, htemplate⟩ := exists_mem_of_ne_nil ref
          (loadConditions_eq_some.mp hsome).1
        exact ⟨template, mem_of_stored hsome htemplate⟩
    · intro id hcycle
      obtain ⟨other, hrefers, -⟩ := Relation.TransGen.head'_iff.mp hcycle
      obtain ⟨c, hc, htemplate, -⟩ := hrefers
      have hkey := of_decide_eq_true htemplate
      obtain ⟨conditions, hstored, -⟩ := hself c hc
      rw [hkey.1, hkey.2] at hstored
      exact not_transGen_of_acc (acc_of_resolves hstored (hresolves _ _ _ hstored)) hcycle
  · intro hgrounded sourceType id conditions hstored
    have hresolves := hgrounded.resolves sourceType id conditions hstored
    exact ⟨fun outcome => met_of_resolves outcome hresolves, mask_of_resolves hresolves⟩

def fullStores : DataStores where
  spellInfo _ := true
  itemTemplate _ := true
  zone _ := true
  faction _ := true
  skillLine _ := true
  configMaxSkillValue := 800
  questTemplate _ := true
  gameEvent _ := true
  achievement _ := true
  map _ := true
  creatureTemplate _ := true
  gameObjectTemplate _ := true
  creatureData _ := none
  gameObjectData _ := none
  worldStateTemplate _ := true
  phase _ := true
  charTitle _ := true
  questObjective _ := some 1
  difficulty _ := true
  battlePetSpecies _ := true
  scenarioStep _ := true
  sceneScriptPackage _ := true
  playerCondition _ := true
  scriptId _ := 0
  sourceGroupOf c := some c.sourceGroup

/-- The condition of a row with the template `id` that refers to `other`. -/
def referring (id other : Nat) : Condition :=
  { sourceType := .referenceCondition, sourceGroup := id, referenceId := other }

def cyclicRows : List ConditionRow :=
  [⟨14, 7, 0, 0, 0, -1, 0, 0, 0, 0, false, 0, 0, ""⟩,
    ⟨-1, 0, 0, 0, 0, -2, 0, 0, 0, 0, false, 0, 0, ""⟩,
    ⟨-2, 0, 0, 0, 0, -1, 0, 0, 0, 0, false, 0, 0, ""⟩]

def danglingRows : List ConditionRow :=
  [⟨14, 7, 0, 0, 0, -5, 0, 0, 0, 0, false, 0, 0, ""⟩]

theorem cyclic_templates :
    loadConditions fullStores cyclicRows .referenceCondition (templateId 1) = some [referring 1 2] ∧
    loadConditions fullStores cyclicRows .referenceCondition (templateId 2) =
      some [referring 2 1] := by decide

theorem cyclic_none (depth : Nat) : ∀ id other, (id = 1 ∧ other = 2) ∨ (id = 2 ∧ other = 1) →
    isObjectMeetToConditionList (loadConditions fullStores cyclicRows) (fun _ => some true) depth
      [referring id other] = none ∧
    getSearcherTypeMaskForConditionList (loadConditions fullStores cyclicRows) depth
      [referring id other] = none := by
  induction depth with
  | zero => exact fun _ _ _ => ⟨rfl, rfl⟩
  | succ depth ih =>
    intro id other h
    obtain ⟨hmet, hmask⟩ := ih other id (h.symm.imp And.symm And.symm)
    have hfound : loadConditions fullStores cyclicRows .referenceCondition
        (templateId (referring id other).referenceId) = some [referring other id] := by
      cases h with
      | inl h =>
        rw [h.1, h.2]
        exact cyclic_templates.2
      | inr h =>
        rw [h.1, h.2]
        exact cyclic_templates.1
    have href : (referring id other).referenceId ≠ 0 := by
      change other ≠ 0
      omega
    have hloaded := isLoaded_of_reference href
    constructor
    · rw [isObjectMeetToConditionList_succ, filter_cons_of_pos hloaded, filter_nil,
        run_singleton rfl, metMember, if_pos href, hfound]
      dsimp only
      rw [hmet]
      rfl
    · rw [getSearcherTypeMaskForConditionList_succ, run_singleton rfl, maskMember,
        if_pos href, hfound]
      dsimp only
      rw [hmask, all_cons, hloaded]
      rfl

/-- The templates pass every check, and neither walk over them ends; the template that is not
there counts as true, and the other walk has no result. -/
theorem references_unsafe :
    (¬∀ sourceType id conditions, loadConditions fullStores cyclicRows sourceType id =
      some conditions → Evaluable (loadConditions fullStores cyclicRows) conditions) ∧
    ∃ conditions, loadConditions fullStores danglingRows .gossipMenu ⟨7, 0, 0⟩ = some conditions ∧
      isObjectMeetToConditionList (loadConditions fullStores danglingRows) (fun _ => some false) 1
        conditions = some (true, [5]) ∧
      ∀ depth, getSearcherTypeMaskForConditionList (loadConditions fullStores danglingRows) depth
        conditions = none := by
  constructor
  · intro hall
    obtain ⟨depth, met, hmet⟩ := (hall _ _ _ cyclic_templates.1).met fun _ => true
    rw [(cyclic_none depth 1 2 (Or.inl ⟨rfl, rfl⟩)).1] at hmet
    cases hmet
  · refine ⟨[{ sourceType := .gossipMenu, sourceGroup := 7, referenceId := 5 }], by decide,
      by decide, ?_⟩
    intro depth
    cases depth with
    | zero => rfl
    | succ depth =>
      rw [getSearcherTypeMaskForConditionList_succ, run_singleton rfl]
      have hnone : loadConditions fullStores danglingRows .referenceCondition (templateId 5) =
          none := by decide
      rw [maskMember]
      simp [hnone]

end LegionServer.Guarantees.ConditionReferences
