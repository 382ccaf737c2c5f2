import LegionServer.Guarantees.ConditionReferences

/-!
# Lookups by source type

Each lookup reads the list that its source type has under its key, and the templates. The one for
the spells of trainers reads the list of a vendor.
-/
namespace LegionServer.Guarantees.ConditionLookups
open Library Source.Conditions List
open ConditionReferences (loaded hasKey fullStores metMember isObjectMeetToConditionList_succ
  loadConditions_eq_some)

/-- A lookup with its ids. What the conditions give for its objects is not part of it. -/
inductive Lookup
  | notGrouped (sourceType : ConditionSourceType) (served : sourceType ≠ .none) (entry : Nat)
  | hasNotGrouped (sourceType : ConditionSourceType) (served : sourceType ≠ .none) (entry : Nat)
  | spellClick (creatureId spellId : Nat)
  | hasSpellClick (creatureId spellId : Nat)
  | vehicleSpell (creatureId spellId : Nat)
  | smartEvent (entryOrGuid : Int) (eventId sourceType : Nat)
  | vendorItem (creatureId itemId : Nat)
  | areaTrigger (areaTriggerId : Nat) (isServerSide : Bool)
  | trainerSpell (trainerId spellId : Nat)
  | objectIdVisibility (objectType entry : Nat)

/-- Whether the conditions are met, whether there are some, or which ones. -/
inductive Answer
  | meeting (met : Option Bool)
  | has (found : Bool)
  | list (conditions : Option (List Condition))

namespace Lookup

def answer (store : ConditionStore) (meets : Condition → Option Bool) (depth : Nat) :
    Lookup → Answer
  | notGrouped sourceType _ entry =>
    .meeting (isObjectMeetingNotGroupedConditions store meets depth sourceType entry)
  | hasNotGrouped sourceType _ entry =>
    .has (hasConditionsForNotGroupedEntry store sourceType entry)
  | spellClick creatureId spellId =>
    .meeting (isObjectMeetingSpellClickConditions store meets depth creatureId spellId)
  | hasSpellClick creatureId spellId =>
    .has (hasConditionsForSpellClickEvent store creatureId spellId)
  | vehicleSpell creatureId spellId =>
    .meeting (isObjectMeetingVehicleSpellConditions store meets depth creatureId spellId)
  | smartEvent entryOrGuid eventId sourceType =>
    .meeting (isObjectMeetingSmartEventConditions store meets depth entryOrGuid eventId sourceType)
  | vendorItem creatureId itemId =>
    .meeting (isObjectMeetingVendorItemConditions store meets depth creatureId itemId)
  | areaTrigger areaTriggerId isServerSide =>
    .list (getConditionsForAreaTrigger store areaTriggerId isServerSide)
  | trainerSpell trainerId spellId =>
    .meeting (isObjectMeetingTrainerSpellConditions store meets depth trainerId spellId)
  | objectIdVisibility objectType entry =>
    .meeting (isObjectMeetingVisibilityByObjectIdConditions store meets depth objectType entry)

def sourceType : Lookup → ConditionSourceType
  | notGrouped sourceType _ _ | hasNotGrouped sourceType _ _ => sourceType
  | spellClick _ _ | hasSpellClick _ _ => .spellClickEvent
  | vehicleSpell _ _ => .vehicleSpell
  | smartEvent _ _ _ => .smartEvent
  | vendorItem _ _ => .npcVendor
  | areaTrigger _ _ => .areatrigger
  | trainerSpell _ _ => .trainerSpell
  | objectIdVisibility _ _ => .objectIdVisibility

def key : Lookup → ConditionId
  | notGrouped _ _ entry | hasNotGrouped _ _ entry => ⟨0, toInt32 entry, 0⟩
  | spellClick creatureId spellId | hasSpellClick creatureId spellId
  | vehicleSpell creatureId spellId => ⟨creatureId, toInt32 spellId, 0⟩
  | smartEvent entryOrGuid eventId sourceType =>
    ⟨(eventId + 1) % 2 ^ 32, entryOrGuid.bmod (2 ^ 32), sourceType⟩
  | vendorItem creatureId itemId => ⟨creatureId, toInt32 itemId, 0⟩
  | areaTrigger areaTriggerId isServerSide => ⟨areaTriggerId, if isServerSide then 1 else 0, 0⟩
  | trainerSpell trainerId spellId => ⟨trainerId, toInt32 spellId, 0⟩
  | objectIdVisibility objectType entry => ⟨objectType, toInt32 entry, 0⟩

/-- The answer for the conditions of some rows, with the templates of a store. -/
def evaluate (store : ConditionStore) (meets : Condition → Option Bool) (depth : Nat)
    (conditions : List Condition) : Lookup → Answer
  | hasNotGrouped _ _ _ | hasSpellClick _ _ => .has !conditions.isEmpty
  | areaTrigger _ _ => .list (if conditions.isEmpty then none else some conditions)
  | _ => .meeting ((isObjectMeetToConditions store meets depth conditions).map Prod.fst)

end Lookup

def accepted (s : DataStores) (rows : List ConditionRow) (sourceType : ConditionSourceType)
    (id : ConditionId) : List Condition :=
  (loaded s rows).filter (hasKey sourceType id)

/-- The source type of a row, where there is one; a template has its own. -/
def rowSourceType (row : ConditionRow) : Option ConditionSourceType :=
  if row.sourceTypeOrReferenceId < 0 then some .referenceCondition
  else fetchSourceType row.sourceTypeOrReferenceId

/-- Two tables have the same rows of a source type and the same templates. -/
def Agree (sourceType : ConditionSourceType) (rows rows' : List ConditionRow) : Prop :=
  ∀ read ∈ [sourceType, .referenceCondition],
    rows.filter (rowSourceType · = some read) = rows'.filter (rowSourceType · = some read)

/-- What other source types have does not matter for a lookup, and it evaluates its own rows. -/
structure Lookup.Separate (l : Lookup) : Prop where
  independent : ∀ s rows rows' meets depth, Agree l.sourceType rows rows' →
    l.answer (loadConditions s rows) meets depth = l.answer (loadConditions s rows') meets depth
  exact : ∀ s rows meets depth, l.answer (loadConditions s rows) meets depth =
    l.evaluate (loadConditions s rows) meets depth (accepted s rows l.sourceType l.key)

variable {s : DataStores} {rows rows' : List ConditionRow} {meets : Condition → Option Bool}
  {depth : Nat} {sourceType : ConditionSourceType} {id : ConditionId} {l : Lookup}
  {store store' : ConditionStore} {conditions : List Condition}

section Tables

variable {row : ConditionRow}

theorem fetchCondition_sourceType {c : Condition} (h : fetchCondition s row = some c) :
    fetchSourceType row.sourceTypeOrReferenceId = some c.sourceType := by
  obtain ⟨conditionType, -, h⟩ := Option.bind_eq_some_iff.mp h
  obtain ⟨sourceType, hsource, h⟩ := Option.bind_eq_some_iff.mp h
  cases h
  exact hsource

theorem checkReference_sourceType {c checked : Condition}
    (h : checkReference s row c = some checked) : checked.sourceType = c.sourceType := by
  unfold checkReference at h
  split at h
  · split at h
    · cases h
    · cases h
      rfl
  · unfold Condition.isConditionTypeValid at h
    dsimp only at h
    split at h
    · cases h
      exact ConditionReferences.convertLegacy_sourceType c
    · cases h

theorem loadRow_sourceType {c : Condition} (h : loadRow s row = some c) :
    rowSourceType row = some c.sourceType := by
  obtain ⟨fetched, hfetched, h⟩ := Option.bind_eq_some_iff.mp h
  obtain ⟨checked, hchecked, h⟩ := Option.bind_eq_some_iff.mp h
  obtain ⟨sourced, hsourced, h⟩ := Option.bind_eq_some_iff.mp h
  split at h
  · cases h
  split at h
  · cases h
  cases h
  rw [rowSourceType]
  unfold checkSource at hsourced
  split at hsourced
  · rename_i htemplate
    cases hsourced
    rw [if_pos htemplate]
  · rename_i htemplate
    obtain ⟨sourceGroup, -, rfl⟩ := Option.map_eq_some_iff.mp hsourced
    rw [if_neg htemplate, fetchCondition_sourceType hfetched]
    exact congrArg some (checkReference_sourceType hchecked).symm

theorem accepted_eq : accepted s rows sourceType id =
    accepted s (rows.filter (rowSourceType · = some sourceType)) sourceType id := by
  induction rows with
  | nil => rfl
  | cons row rows ih =>
    unfold accepted loaded at ih ⊢
    rw [filter_cons]
    split
    · rw [filterMap_cons, filterMap_cons]
      cases loadRow s row with
      | none => exact ih
      | some c => rw [filter_cons, filter_cons, ih]
    · rename_i hother
      rw [← ih, filterMap_cons]
      cases hrow : loadRow s row with
      | none => rfl
      | some c =>
        refine filter_cons_of_neg fun hkey => hother ?_
        rw [loadRow_sourceType hrow, (of_decide_eq_true hkey).1]
        exact decide_eq_true rfl

theorem loadConditions_eq : loadConditions s rows sourceType id =
    if (accepted s rows sourceType id).isEmpty then none
    else some (accepted s rows sourceType id) := by
  split
  · rename_i hempty
    refine Option.eq_none_iff_forall_ne_some.mpr fun conditions hstored => ?_
    obtain ⟨hne, heq⟩ := loadConditions_eq_some.mp hstored
    exact hne (heq.trans (List.isEmpty_iff.mp hempty))
  · rename_i hempty
    exact loadConditions_eq_some.mpr ⟨fun hnil => hempty (List.isEmpty_iff.mpr hnil), rfl⟩

theorem loadConditions_congr (h : rows.filter (rowSourceType · = some sourceType) =
      rows'.filter (rowSourceType · = some sourceType)) :
    loadConditions s rows sourceType id = loadConditions s rows' sourceType id := by
  rw [loadConditions_eq, loadConditions_eq, accepted_eq, h, ← accepted_eq]

end Tables

section
variable (h : store .referenceCondition = store' .referenceCondition)
include h

theorem isObjectMeetToConditionList_congr :
    isObjectMeetToConditionList store meets depth conditions =
      isObjectMeetToConditionList store' meets depth conditions := by
  induction depth generalizing conditions with
  | zero => rfl
  | succ depth ih =>
    have hmember : metMember store meets depth = metMember store' meets depth := by
      funext c
      rw [metMember, metMember, h]
      split
      · split
        · exact ih
        · rfl
      · rfl
    rw [isObjectMeetToConditionList_succ, isObjectMeetToConditionList_succ, hmember]

theorem isObjectMeetToConditions_congr :
    isObjectMeetToConditions store meets depth conditions =
      isObjectMeetToConditions store' meets depth conditions := by
  rw [isObjectMeetToConditions, isObjectMeetToConditions, isObjectMeetToConditionList_congr h]

theorem evaluate_congr :
    l.evaluate store meets depth conditions = l.evaluate store' meets depth conditions := by
  cases l with
  | hasNotGrouped | hasSpellClick | areaTrigger => rfl
  | notGrouped | spellClick | vehicleSpell | smartEvent | vendorItem | trainerSpell
  | objectIdVisibility =>
    exact congrArg (fun met => Answer.meeting (Option.map Prod.fst met))
      (isObjectMeetToConditions_congr h)

end

theorem isObjectMeeting_eq :
    isObjectMeeting (loadConditions s rows) meets depth sourceType id =
      (isObjectMeetToConditions (loadConditions s rows) meets depth
        (accepted s rows sourceType id)).map Prod.fst := by
  rw [isObjectMeeting, loadConditions_eq]
  split
  · rename_i found hfound
    split at hfound
    · cases hfound
    · cases hfound
      rfl
  · rename_i hnone
    split at hnone
    · rename_i hempty
      rw [isObjectMeetToConditions, if_pos hempty]
      rfl
    · cases hnone

theorem isSome_loadConditions : (loadConditions s rows sourceType id).isSome =
    !(accepted s rows sourceType id).isEmpty := by
  rw [loadConditions_eq]
  cases (accepted s rows sourceType id).isEmpty <;> rfl

theorem exact_of_ne (h : ∀ trainerId spellId, l ≠ .trainerSpell trainerId spellId) :
    l.answer (loadConditions s rows) meets depth =
      l.evaluate (loadConditions s rows) meets depth (accepted s rows l.sourceType l.key) := by
  cases l with
  | trainerSpell trainerId spellId => exact absurd rfl (h trainerId spellId)
  | notGrouped sourceType served entry =>
    rw [Lookup.answer, isObjectMeetingNotGroupedConditions, if_pos served, isObjectMeeting_eq]
    rfl
  | hasNotGrouped sourceType served entry =>
    rw [Lookup.answer, hasConditionsForNotGroupedEntry, if_pos served, isSome_loadConditions]
    rfl
  | hasSpellClick => exact congrArg Answer.has isSome_loadConditions
  | areaTrigger => exact congrArg Answer.list loadConditions_eq
  | spellClick | vehicleSpell | smartEvent | vendorItem | objectIdVisibility =>
    exact congrArg Answer.meeting isObjectMeeting_eq

theorem separate_of_ne (h : ∀ trainerId spellId, l ≠ .trainerSpell trainerId spellId) :
    l.Separate := by
  refine ⟨fun s rows rows' meets depth hagree => ?_, fun _ _ _ _ => exact_of_ne h⟩
  have hrows : accepted s rows l.sourceType l.key = accepted s rows' l.sourceType l.key := by
    rw [accepted_eq, hagree _ mem_cons_self, ← accepted_eq]
  have htemplates : loadConditions s rows .referenceCondition =
      loadConditions s rows' .referenceCondition :=
    funext fun _ => loadConditions_congr (hagree _ (by simp))
  rw [exact_of_ne h, exact_of_ne h, hrows, evaluate_congr htemplates]

def vendorRow (creatureId : Nat) (itemId : Int) : ConditionRow :=
  { sourceTypeOrReferenceId := 23, sourceGroup := creatureId, sourceEntry := itemId,
    conditionTypeOrReference := 36 }

def vendorCondition (creatureId : Nat) (itemId : Int) : Condition :=
  { sourceType := .npcVendor, sourceGroup := creatureId, sourceEntry := itemId,
    conditionType := .alive }

theorem loaded_vendorRow (creatureId : Nat) (itemId : Int) :
    loaded fullStores [vendorRow creatureId itemId] = [vendorCondition creatureId itemId] := by
  have hrow : loadRow fullStores (vendorRow creatureId itemId) =
      some (vendorCondition creatureId itemId) := by
    have hcan : ¬(creatureId ≠ 0 ∧ Condition.canHaveSourceGroupSet .npcVendor = false) := by
      rintro ⟨-, hcan⟩
      cases hcan
    change (if creatureId ≠ 0 ∧ Condition.canHaveSourceGroupSet .npcVendor = false then none
      else some (vendorCondition creatureId itemId)) = _
    rw [if_neg hcan]
  rw [loaded, filterMap_cons, hrow]
  rfl

theorem accepted_vendorRow (creatureId : Nat) (itemId : Int) :
    accepted fullStores [vendorRow creatureId itemId] .npcVendor ⟨creatureId, itemId, 0⟩ =
        [vendorCondition creatureId itemId] ∧
      accepted fullStores [vendorRow creatureId itemId] .trainerSpell ⟨creatureId, itemId, 0⟩ =
        [] := by
  rw [accepted, accepted, loaded_vendorRow]
  exact ⟨filter_cons_of_pos (decide_eq_true ⟨rfl, rfl⟩),
    filter_cons_of_neg fun hkey => nomatch (of_decide_eq_true hkey).1⟩

/-- A trainer with the id of that creature does not teach the spell with the id of that item to a
dead player. -/
theorem trainer_not_exact (trainerId spellId : Nat) :
    (Lookup.trainerSpell trainerId spellId).answer
        (loadConditions fullStores [vendorRow trainerId (toInt32 spellId)]) (fun _ => some false)
        1 ≠
      (Lookup.trainerSpell trainerId spellId).evaluate
        (loadConditions fullStores [vendorRow trainerId (toInt32 spellId)]) (fun _ => some false) 1
        (accepted fullStores [vendorRow trainerId (toInt32 spellId)] .trainerSpell
          ⟨trainerId, toInt32 spellId, 0⟩) := by
  obtain ⟨hvendor, htrainer⟩ := accepted_vendorRow trainerId (toInt32 spellId)
  rw [Lookup.answer, isObjectMeetingTrainerSpellConditions, isObjectMeeting_eq, hvendor, htrainer]
  exact fun hsame => nomatch hsame

/-- Exactly the lookup for the spells of trainers is not separate, where it reads a vendor's list
that does not evaluate like its own. -/
theorem lookups_separate (l : Lookup) :
    (l.Separate ↔ ∀ trainerId spellId, l ≠ .trainerSpell trainerId spellId) ∧ ∀ s rows meets depth,
        l.answer (loadConditions s rows) meets depth =
            l.evaluate (loadConditions s rows) meets depth (accepted s rows l.sourceType l.key) ↔
          ∀ trainerId spellId, l = .trainerSpell trainerId spellId →
            l.evaluate (loadConditions s rows) meets depth (accepted s rows .npcVendor l.key) =
              l.evaluate (loadConditions s rows) meets depth
                (accepted s rows .trainerSpell l.key) := by
  refine ⟨⟨fun hseparate trainerId spellId hl => ?_, separate_of_ne⟩,
    fun s rows meets depth => ?_⟩
  · subst hl
    exact trainer_not_exact trainerId spellId (hseparate.exact _ _ _ _)
  · by_cases h : ∀ trainerId spellId, l ≠ .trainerSpell trainerId spellId
    · exact iff_of_true (exact_of_ne h) fun trainerId spellId hl => absurd hl (h trainerId spellId)
    · push Not at h
      obtain ⟨trainerId, spellId, rfl⟩ := h
      have hread : (Lookup.trainerSpell trainerId spellId).answer (loadConditions s rows) meets
          depth = (Lookup.trainerSpell trainerId spellId).evaluate (loadConditions s rows) meets
            depth (accepted s rows .npcVendor ⟨trainerId, toInt32 spellId, 0⟩) :=
        congrArg Answer.meeting isObjectMeeting_eq
      rw [hread]
      exact ⟨fun hsame _ _ _ => hsame, fun hsame => hsame _ _ rfl⟩

/-- The row of the vendor 7 for the item 100 forbids the trainer 7 to teach the spell 100. -/
theorem not_separate : ¬∀ l : Lookup, l.Separate := by
  intro h
  exact trainer_not_exact 7 100 ((h (.trainerSpell 7 100)).exact _ _ _ _)

end LegionServer.Guarantees.ConditionLookups
