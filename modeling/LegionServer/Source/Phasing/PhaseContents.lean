import LegionServer.Source.Phasing.PhaseEffects

/-!
# The loops of `OnConditionChange`

Each loop walks over a container and takes phases out of it. What a loop does to the phase
with a key depends on that phase alone.
-/
namespace LegionServer.Source.Phasing
open Library PhasingHandler List Option FlatSet UInt16

variable {C G : Type*} {met : C → Bool} {shifts : Shifts C G} {refs : List (PhaseRef C)}
  {ref : PhaseRef C} {key : Nat}

def isUnmet (met : C → Bool) (ref : PhaseRef C) : Bool := ref.areaConditions.any fun c => !met c

def isMet (met : C → Bool) (ref : PhaseRef C) : Bool := ref.areaConditions.any met

def takeOut (shift : PhaseShift C G) (ref : PhaseRef C) : PhaseShift C G :=
  { shift.modifyPhasesReferences ref (-ref.references) with
    phases := (shift.modifyPhasesReferences ref (-ref.references)).phases.erase ref.key }

def addRef (shift : PhaseShift C G) (ref : PhaseRef C) : PhaseShift C G :=
  shift.addPhase ref.id.toUInt32 ref.flags ref.areaConditions ref.references

theorem suppressPhase_eq (met : C → Bool) (shifts : Shifts C G) (ref : PhaseRef C) :
    suppressPhase met shifts ref = if isUnmet met ref then
      ⟨takeOut shifts.visible ref, addRef shifts.suppressed ref⟩ else shifts := by
  rw [suppressPhase, isUnmet]
  cases hconditions : ref.areaConditions with
  | none => rfl
  | some conditions =>
    dsimp only
    rw [any_some]
    cases hmet : met conditions with
    | true => rfl
    | false =>
      rw [if_neg Bool.false_ne_true, Bool.not_false, if_pos rfl, addRef, hconditions]
      rfl

theorem restorePhase_eq (met : C → Bool) (shifts : Shifts C G) (ref : PhaseRef C) :
    restorePhase met shifts ref = if isMet met ref then
      ⟨addRef shifts.visible ref, takeOut shifts.suppressed ref⟩ else shifts := by
  rw [restorePhase, isMet]
  cases hconditions : ref.areaConditions with
  | none => rfl
  | some conditions =>
    dsimp only
    rw [any_some]
    split
    · rw [addRef, hconditions]
      rfl
    · rfl

theorem find_takeOut' (shift : PhaseShift C G) (ref : PhaseRef C) (key : Nat) :
    (takeOut shift ref).phases.find key =
      if key = ref.key then none else shift.phases.find key :=
  find_takeOut shift ref _ key

theorem Positive.takeOut {shift : PhaseShift C G} (h : Positive shift) (ref : PhaseRef C) :
    Positive (takeOut shift ref) := by
  intro key other hother
  rw [find_takeOut'] at hother
  split at hother
  · cases hother
  · exact h key other hother

theorem find_addRef (shift : PhaseShift C G) (ref : PhaseRef C) (key : Nat) :
    (addRef shift ref).phases.find key =
      if key = ref.key then
        some (added ((shift.phases.find ref.key).getD ⟨ref.id, ref.flags, 0, none⟩)
          ref.areaConditions ref.references)
      else shift.phases.find key := by
  rw [addRef, find_addPhase, emplaced, toUInt16_toUInt32]
  rfl

theorem find_addRef_new {shift : PhaseShift C G} (h : shift.phases.find ref.key = none) :
    (addRef shift ref).phases.find key =
      if key = ref.key then some ref else shift.phases.find key := by
  have hkept : (ref.areaConditions <|> none) = ref.areaConditions := by
    cases ref.areaConditions <;> rfl
  rw [find_addRef, h, getD_none, added, PhaseRef.addReferences]
  rw [Int.zero_add, hkept]

def movePhase (moves : PhaseRef C → Bool) (pair : PhaseShift C G × PhaseShift C G)
    (ref : PhaseRef C) : PhaseShift C G × PhaseShift C G :=
  if moves ref then (takeOut pair.1 ref, addRef pair.2 ref) else pair

theorem foldl_suppressPhase (met : C → Bool) (shifts : Shifts C G) (refs : List (PhaseRef C)) :
    refs.foldl (movePhase (isUnmet met)) (shifts.visible, shifts.suppressed) =
      ((refs.foldl (suppressPhase met) shifts).visible,
        (refs.foldl (suppressPhase met) shifts).suppressed) := by
  apply foldl_hom fun shifts : Shifts C G => (shifts.visible, shifts.suppressed)
  intro shifts ref
  rw [suppressPhase_eq, movePhase]
  split <;> rfl

theorem foldl_restorePhase (met : C → Bool) (shifts : Shifts C G) (refs : List (PhaseRef C)) :
    refs.foldl (movePhase (isMet met)) (shifts.suppressed, shifts.visible) =
      ((refs.foldl (restorePhase met) shifts).suppressed,
        (refs.foldl (restorePhase met) shifts).visible) := by
  apply foldl_hom fun shifts : Shifts C G => (shifts.suppressed, shifts.visible)
  intro shifts ref
  rw [restorePhase_eq, movePhase]
  split <;> rfl

/-!
# What is in a phase shift

After each operation and each loop of `OnConditionChange`.
-/

variable {data : PhasingData C} {shift : PhaseShift C G} {references : Int}

/-- The references of a phase, none for a phase that is not there. -/
def refsAt (shift : PhaseShift C G) (key : Nat) : Int := shift.phases.value PhaseRef.references key

def conditionsAt (shift : PhaseShift C G) (key : Nat) : Option C :=
  (shift.phases.find key).bind PhaseRef.areaConditions

theorem Positive.references_eq (h : Positive shift) (key : Nat) :
    (shift.phases.find key).map PhaseRef.references =
      if refsAt shift key = 0 then none else some (refsAt shift key) := by
  cases hfind : shift.phases.find key with
  | none => rw [refsAt, value_none hfind, if_pos rfl, map_none]
  | some ref =>
    have hpos := h key ref hfind
    rw [refsAt, value_some hfind, if_neg (by omega), map_some]

section Operations

variable (shift)

section
variable (phaseId : UInt32) (flags : PhaseFlags) (areaConditions : Option C) (references : Int)
  (key : Nat)

theorem refsAt_addPhase :
    refsAt (shift.addPhase phaseId flags areaConditions references) key =
      refsAt shift key + if key = phaseId.toUInt16.toNat then references else 0 := by
  rw [refsAt, FlatSet.value, find_addPhase]
  split
  · rename_i hkey
    rw [elim_some, added, PhaseRef.addReferences, emplaced, ← hkey, refsAt, FlatSet.value]
    cases shift.phases.find key <;> rfl
  · exact (Int.add_zero _).symm

theorem conditionsAt_addPhase :
    conditionsAt (shift.addPhase phaseId flags areaConditions references) key =
      if key = phaseId.toUInt16.toNat then areaConditions <|> conditionsAt shift key
      else conditionsAt shift key := by
  rw [conditionsAt, find_addPhase]
  split
  · rename_i hkey
    rw [bind_some, added, PhaseRef.addReferences, emplaced, ← hkey, conditionsAt]
    cases shift.phases.find key <;> rfl
  · rfl

end

@[simp] theorem refsAt_ownPersonal (guid : G) (key : Nat) :
    refsAt (ownPersonal guid shift) key = refsAt shift key := by
  rw [ownPersonal]
  split <;> rfl

@[simp] theorem conditionsAt_ownPersonal (guid : G) (key : Nat) :
    conditionsAt (ownPersonal guid shift) key = conditionsAt shift key := by
  rw [ownPersonal]
  split <;> rfl

theorem refsAt_addRef (ref : PhaseRef C) (key : Nat) : refsAt (addRef shift ref) key =
    refsAt shift key + if key = ref.key then ref.references else 0 := by
  rw [addRef, refsAt_addPhase, toUInt16_toUInt32]
  rfl

theorem conditionsAt_addRef (ref : PhaseRef C) (key : Nat) : conditionsAt (addRef shift ref) key =
    if key = ref.key then ref.areaConditions <|> conditionsAt shift key
    else conditionsAt shift key := by
  rw [addRef, conditionsAt_addPhase, toUInt16_toUInt32]
  rfl

end Operations

def refAt (refs : List (PhaseRef C)) (key : Nat) : Option (PhaseRef C) :=
  refs.find? fun ref => ref.key = key

theorem refAt_cons (ref : PhaseRef C) (refs : List (PhaseRef C)) (key : Nat) :
    refAt (ref :: refs) key = if key = ref.key then some ref else refAt refs key := by
  rw [refAt, find?_cons]
  by_cases hkey : ref.key = key
  · simp [hkey]
  · simp [hkey, Ne.symm hkey, refAt]

theorem refAt_none (h : key ∉ refs.map PhaseRef.key) : refAt refs key = none := by
  apply find?_eq_none.mpr
  intro ref hmem hkey
  exact h (of_decide_eq_true hkey ▸ mem_map_of_mem hmem)

theorem contents_addSuppressions (shift : PhaseShift C G) (hkeys : (refs.map PhaseRef.key).Nodup)
    (key : Nat) :
    refsAt (refs.foldl addSuppression shift) key =
        refsAt shift key + (refAt refs key).elim 0 PhaseRef.references ∧
      conditionsAt (refs.foldl addSuppression shift) key =
        ((refAt refs key).bind PhaseRef.areaConditions <|> conditionsAt shift key) := by
  induction refs generalizing shift with
  | nil => exact ⟨(Int.add_zero _).symm, rfl⟩
  | cons ref refs ih =>
    rw [map_cons, nodup_cons] at hkeys
    obtain ⟨hrefs, hconditions⟩ := ih (addRef shift ref) hkeys.2
    rw [foldl_cons, refAt_cons]
    change refsAt (refs.foldl addSuppression (addRef shift ref)) key = _ ∧
      conditionsAt (refs.foldl addSuppression (addRef shift ref)) key = _
    rw [hrefs, hconditions, refsAt_addRef, conditionsAt_addRef]
    by_cases hkey : key = ref.key
    · rw [hkey, refAt_none hkeys.1]
      simp
    · simp [hkey]

theorem find_addRef_congr {shift' : PhaseShift C G}
    (h : shift.phases.find key = shift'.phases.find key) (ref : PhaseRef C) :
    (addRef shift ref).phases.find key = (addRef shift' ref).phases.find key := by
  rw [find_addRef, find_addRef]
  split
  · rename_i hkey
    rw [← hkey, h]
  · exact h

theorem find_move (moves : PhaseRef C → Bool) (pair : PhaseShift C G × PhaseShift C G)
    (hkeys : (refs.map PhaseRef.key).Nodup) (key : Nat) :
    (refs.foldl (movePhase moves) pair).1.phases.find key =
        (if ((refAt refs key).any moves) = true then none else pair.1.phases.find key) ∧
      (refs.foldl (movePhase moves) pair).2.phases.find key =
        match (refAt refs key).filter moves with
        | none => pair.2.phases.find key
        | some ref => (addRef pair.2 ref).phases.find key := by
  induction refs generalizing pair with
  | nil => exact ⟨rfl, rfl⟩
  | cons ref refs ih =>
    rw [map_cons, nodup_cons] at hkeys
    obtain ⟨hfirst, hsecond⟩ := ih (movePhase moves pair ref) hkeys.2
    rw [foldl_cons, hfirst, hsecond, refAt_cons, movePhase]
    by_cases hkey : key = ref.key
    · rw [if_pos hkey, hkey, refAt_none hkeys.1]
      cases hmoves : moves ref with
      | true => simp [hmoves, Option.filter, find_takeOut']
      | false => simp [hmoves, Option.filter]
    · rw [if_neg hkey]
      cases moves ref with
      | true =>
        rw [if_pos rfl]
        have hother : (addRef pair.2 ref).phases.find key = pair.2.phases.find key := by
          rw [find_addRef, if_neg hkey]
        constructor
        · rw [find_takeOut', if_neg hkey]
        · cases (refAt refs key).filter moves with
          | none => exact hother
          | some last => exact find_addRef_congr hother last
      | false => exact ⟨rfl, rfl⟩

def auraCount (phaseIds : List UInt32) (key : Nat) : Nat :=
  phaseIds.countP fun phaseId => key = phaseId.toUInt16.toNat

theorem auraCount_cons (phaseId : UInt32) (phaseIds : List UInt32) (key : Nat) :
    auraCount (phaseId :: phaseIds) key =
      auraCount phaseIds key + if key = phaseId.toUInt16.toNat then 1 else 0 := by
  rw [auraCount, countP_cons, auraCount]
  simp only [decide_eq_true_eq]

theorem contents_addOwnPhases (data : PhasingData C) (shift : PhaseShift C G)
    (phaseIds : List UInt32) (key : Nat) :
    refsAt (phaseIds.foldl (addOwnPhase data) shift) key =
        refsAt shift key + auraCount phaseIds key ∧
      conditionsAt (phaseIds.foldl (addOwnPhase data) shift) key = conditionsAt shift key := by
  induction phaseIds generalizing shift with
  | nil => exact ⟨(Int.add_zero _).symm, rfl⟩
  | cons phaseId phaseIds ih =>
    obtain ⟨hrefs, hconditions⟩ := ih (addOwnPhase data shift phaseId)
    rw [foldl_cons, hrefs, hconditions, auraCount_cons, addOwnPhase, refsAt_addPhase,
      conditionsAt_addPhase]
    constructor
    · split <;> omega
    · split
      · cases conditionsAt shift key <;> rfl
      · rfl

theorem removePhase_found (shift : PhaseShift C G) (phaseId : UInt32) :
    (shift.removePhase phaseId).2 ≠ .notFound ↔
      (shift.phases.find phaseId.toUInt16.toNat).isSome = true := by
  rw [PhaseShift.removePhase]
  cases shift.phases.find phaseId.toUInt16.toNat with
  | none => simp
  | some ref =>
    dsimp only
    split <;> simp

@[simp] theorem addReferences_zero (ref : PhaseRef C) : ref.addReferences 0 = ref := by
  rw [PhaseRef.addReferences, Int.add_zero]

@[simp] theorem addReferences_addReferences (ref : PhaseRef C) (first second : Int) :
    (ref.addReferences first).addReferences second = ref.addReferences (first + second) := by
  simp only [PhaseRef.addReferences, Int.add_assoc]

theorem find_removePhase_more (shift : PhaseShift C G) (phaseId : UInt32)
    (hmore : ∀ ref, shift.phases.find phaseId.toUInt16.toNat = some ref → 1 < ref.references)
    (key : Nat) : (shift.removePhase phaseId).1.phases.find key =
      (shift.phases.find key).map fun ref =>
        ref.addReferences (if key = phaseId.toUInt16.toNat then -1 else 0) := by
  rw [find_removePhase]
  split
  · rename_i hkey
    rw [hkey]
    cases hfind : shift.phases.find phaseId.toUInt16.toNat with
    | none => rfl
    | some ref =>
      have href := hmore ref hfind
      rw [bind_some, if_neg (by omega), map_some]
  · cases shift.phases.find key with
    | none => rfl
    | some ref => rw [map_some, addReferences_zero]

/-- The loops over the auras: each reference of an aura goes back to the visible phases, when
there are more references than those. -/
theorem contents_keepAuraPhases (data : PhasingData C) (shifts : Shifts C G)
    (phaseIds : List UInt32)
    (hroom : ∀ key ref, shifts.suppressed.phases.find key = some ref →
      (auraCount phaseIds key : Int) < ref.references) (key : Nat) :
    refsAt (phaseIds.foldl (keepAuraPhase data) shifts).visible key = refsAt shifts.visible key +
        (if (shifts.suppressed.phases.find key).isSome then (auraCount phaseIds key : Int) else 0) ∧
      conditionsAt (phaseIds.foldl (keepAuraPhase data) shifts).visible key =
        conditionsAt shifts.visible key ∧
      (phaseIds.foldl (keepAuraPhase data) shifts).suppressed.phases.find key =
        (shifts.suppressed.phases.find key).map
          fun ref => ref.addReferences (-auraCount phaseIds key) := by
  induction phaseIds generalizing shifts with
  | nil =>
    refine ⟨?_, rfl, ?_⟩
    · rw [auraCount, countP_nil]
      simp
    · simp [auraCount]
  | cons phaseId phaseIds ih =>
    have hmore : ∀ ref, shifts.suppressed.phases.find phaseId.toUInt16.toNat = some ref →
        1 < ref.references := by
      intro ref hfind
      have href := hroom _ ref hfind
      rw [auraCount_cons, if_pos rfl] at href
      omega
    have hfind := find_removePhase_more shifts.suppressed phaseId hmore
    obtain ⟨hrefs, hconditions, hsuppressed⟩ := ih (keepAuraPhase data shifts phaseId) (by
      intro key ref hkept
      obtain ⟨old, hold, rfl⟩ := map_eq_some_iff.mp ((hfind key).symm.trans hkept)
      have href := hroom key old hold
      rw [auraCount_cons] at href
      rw [PhaseRef.addReferences]
      dsimp only
      split at href <;> rename_i hkey
      · rw [if_pos hkey]
        omega
      · rw [if_neg hkey]
        omega)
    have hstep : (keepAuraPhase data shifts phaseId).suppressed.phases.find key = _ := hfind key
    have hvisible : refsAt (keepAuraPhase data shifts phaseId).visible key =
        refsAt shifts.visible key + (if (shifts.suppressed.phases.find key).isSome ∧
          key = phaseId.toUInt16.toNat then 1 else 0) ∧
        conditionsAt (keepAuraPhase data shifts phaseId).visible key =
          conditionsAt shifts.visible key := by
      rw [keepAuraPhase]
      dsimp only
      split
      · rename_i hfound
        rw [removePhase_found] at hfound
        rw [addOwnPhase, refsAt_addPhase, conditionsAt_addPhase]
        by_cases hkey : key = phaseId.toUInt16.toNat
        · rw [if_pos hkey, if_pos ⟨hkey ▸ hfound, hkey⟩, if_pos hkey]
          refine ⟨rfl, ?_⟩
          cases conditionsAt shifts.visible key <;> rfl
        · rw [if_neg hkey, if_neg fun h => hkey h.2, if_neg hkey]
          exact ⟨rfl, rfl⟩
      · rename_i hfound
        rw [removePhase_found] at hfound
        have hmiss : ¬((shifts.suppressed.phases.find key).isSome = true ∧
            key = phaseId.toUInt16.toNat) := by
          rintro ⟨hsome, rfl⟩
          exact hfound hsome
        rw [if_neg hmiss, Int.add_zero]
        exact ⟨rfl, rfl⟩
    rw [foldl_cons, hrefs, hconditions, hsuppressed, hvisible.1, hvisible.2, hstep, auraCount_cons]
    refine ⟨?_, rfl, ?_⟩
    · rw [isSome_map]
      cases (shifts.suppressed.phases.find key).isSome with
      | true =>
        simp only [if_true, true_and]
        split <;> omega
      | false => simp
    · rw [Option.map_map]
      congr 1
      funext ref
      rw [Function.comp_apply, addReferences_addReferences]
      congr 1
      split <;> omega

def addListed (data : PhasingData C) (shift : PhaseShift C G) (phaseArea : PhaseAreaInfo C) :
    PhaseShift C G :=
  shift.addPhase phaseArea.phaseId (getPhaseFlags data phaseArea.phaseId) (some phaseArea.conditions)

theorem addAreaPhases_eq (data : PhasingData C) (met : C → Bool) (shifts : Shifts C G)
    (phaseAreas : List (PhaseAreaInfo C)) :
    phaseAreas.foldl (addAreaPhase data met) shifts =
      ⟨(phaseAreas.filter fun area => met area.conditions).foldl (addListed data) shifts.visible,
        (phaseAreas.filter fun area => !met area.conditions).foldl (addListed data)
          shifts.suppressed⟩ := by
  induction phaseAreas generalizing shifts with
  | nil => rfl
  | cons phaseArea phaseAreas ih =>
    rw [foldl_cons, ih, addAreaPhase]
    cases hmet : met phaseArea.conditions with
    | true => simp [hmet, addListed]
    | false => simp [hmet, addListed]

def listCount (phaseAreas : List (PhaseAreaInfo C)) (key : Nat) : Nat :=
  phaseAreas.countP fun area => key = area.phaseId.toUInt16.toNat

theorem contents_addListed (data : PhasingData C) (shift : PhaseShift C G)
    (phaseAreas : List (PhaseAreaInfo C)) (key : Nat) :
    refsAt (phaseAreas.foldl (addListed data) shift) key =
        refsAt shift key + listCount phaseAreas key ∧
      (∀ conditions, conditionsAt (phaseAreas.foldl (addListed data) shift) key = some conditions →
        conditionsAt shift key = some conditions ∨ ∃ area ∈ phaseAreas,
          key = area.phaseId.toUInt16.toNat ∧ area.conditions = conditions) ∧
      (conditionsAt (phaseAreas.foldl (addListed data) shift) key = none →
        conditionsAt shift key = none ∧ listCount phaseAreas key = 0) := by
  induction phaseAreas generalizing shift with
  | nil => exact ⟨(Int.add_zero _).symm, fun _ h => Or.inl h, fun h => ⟨h, rfl⟩⟩
  | cons area phaseAreas ih =>
    obtain ⟨hrefs, hsome, hnone⟩ := ih (addListed data shift area)
    rw [addListed, refsAt_addPhase] at hrefs
    rw [addListed, conditionsAt_addPhase] at hsome hnone
    have hcount : listCount (area :: phaseAreas) key =
        listCount phaseAreas key + if key = area.phaseId.toUInt16.toNat then 1 else 0 := by
      rw [listCount, countP_cons, listCount]
      simp only [decide_eq_true_eq]
    rw [foldl_cons, hcount]
    refine ⟨?_, fun conditions hconditions => ?_, fun hconditions => ?_⟩
    · rw [addListed, hrefs]
      split <;> omega
    · rcases hsome conditions hconditions with hold | ⟨other, hmem, hother⟩
      · split at hold
        · rename_i hkey
          exact Or.inr ⟨area, mem_cons_self, hkey, Option.some.inj hold⟩
        · exact Or.inl hold
      · exact Or.inr ⟨other, mem_cons_of_mem _ hmem, hother⟩
    · obtain ⟨hold, hrest⟩ := hnone hconditions
      split at hold
      · cases hold
      · rename_i hkey
        exact ⟨hold, by rw [hrest, if_neg hkey]⟩

/-- The first loop takes the phase out. -/
def movesOut (met : C → Bool) (object : WorldObject C G) (key : Nat) : Bool :=
  (conditionsAt object.phaseShift key).any fun conditions => !met conditions

/-- The second loop makes the phase visible. -/
def movesIn (met : C → Bool) (object : WorldObject C G) (key : Nat) : Bool :=
  (conditionsAt object.suppressedPhaseShift key).any met

theorem filter_eq_ite {α : Type*} (o : Option α) (p : α → Bool) :
    o.filter p = if o.any p then o else none := by
  cases o with
  | none => rfl
  | some a => cases hp : p a <;> simp [hp]

section
variable (met : C → Bool) (object : WorldObject C G) (key : Nat)

theorem any_isUnmet :
    (object.phaseShift.phases.find key).any (isUnmet met) = movesOut met object key := by
  rw [movesOut, conditionsAt]
  cases object.phaseShift.phases.find key <;> rfl

theorem any_isMet :
    (object.suppressedPhaseShift.phases.find key).any (isMet met) = movesIn met object key := by
  rw [movesIn, conditionsAt]
  cases object.suppressedPhaseShift.phases.find key <;> rfl

theorem find_firstLoop :
    (object.phaseShift.phases.items.foldl (suppressPhase met)
        ⟨object.phaseShift, {}⟩).visible.phases.find key =
      (if movesOut met object key then none else object.phaseShift.phases.find key) ∧
    (object.phaseShift.phases.items.foldl (suppressPhase met)
        ⟨object.phaseShift, {}⟩).suppressed.phases.find key =
      if movesOut met object key then object.phaseShift.phases.find key else none := by
  have hphase : refAt object.phaseShift.phases.items key = object.phaseShift.phases.find key := rfl
  have hmove := find_move (isUnmet met) (object.phaseShift, {}) object.phaseShift.phases.keys_nodup
    key
  rw [foldl_suppressPhase met ⟨object.phaseShift, {}⟩, hphase, any_isUnmet, filter_eq_ite,
    any_isUnmet] at hmove
  refine ⟨hmove.1, hmove.2.trans ?_⟩
  cases movesOut met object key with
  | true =>
    cases hfind : object.phaseShift.phases.find key with
    | none => rfl
    | some ref =>
      exact (find_addRef_new rfl).trans (if_pos (find_eq_some.mp hfind).2.symm)
  | false => rfl

theorem contents_secondLoop (visible : PhaseShift C G) :
    let after := object.suppressedPhaseShift.phases.items.foldl (restorePhase met)
      ⟨visible, object.suppressedPhaseShift⟩
    refsAt after.visible key = refsAt visible key +
        (if movesIn met object key then refsAt object.suppressedPhaseShift key else 0) ∧
      conditionsAt after.visible key =
        ((if movesIn met object key then conditionsAt object.suppressedPhaseShift key else none) <|>
          conditionsAt visible key) ∧
      after.suppressed.phases.find key =
        if movesIn met object key then none else object.suppressedPhaseShift.phases.find key := by
  intro after
  have hphase : refAt object.suppressedPhaseShift.phases.items key =
      object.suppressedPhaseShift.phases.find key := rfl
  have hmove := find_move (isMet met) (object.suppressedPhaseShift, visible)
    object.suppressedPhaseShift.phases.keys_nodup key
  rw [foldl_restorePhase met ⟨visible, object.suppressedPhaseShift⟩, hphase, any_isMet,
    filter_eq_ite, any_isMet] at hmove
  obtain ⟨hsuppressed, hvisible⟩ := hmove
  have hsame : ∀ shift : PhaseShift C G, after.visible.phases.find key = shift.phases.find key →
      refsAt after.visible key = refsAt shift key ∧
        conditionsAt after.visible key = conditionsAt shift key := by
    intro shift hfind
    rw [refsAt, refsAt, FlatSet.value, FlatSet.value, conditionsAt, conditionsAt, hfind]
    exact ⟨rfl, rfl⟩
  rw [← and_assoc]
  refine ⟨?_, hsuppressed⟩
  cases hin : movesIn met object key with
  | false =>
    rw [hin] at hvisible
    obtain ⟨hrefs, hconditions⟩ := hsame visible hvisible
    simp [hrefs, hconditions]
  | true =>
    rw [hin, if_pos rfl] at hvisible
    cases hfind : object.suppressedPhaseShift.phases.find key with
    | none =>
      rw [movesIn, conditionsAt, hfind] at hin
      cases hin
    | some ref =>
      rw [hfind] at hvisible
      obtain ⟨hrefs, hconditions⟩ := hsame _ hvisible
      have hkey : key = ref.key := (find_eq_some.mp hfind).2.symm
      have hold : refsAt object.suppressedPhaseShift key = ref.references ∧
          conditionsAt object.suppressedPhaseShift key = ref.areaConditions :=
        ⟨value_some hfind, by rw [conditionsAt, hfind, bind_some]⟩
      rw [hrefs, hconditions, refsAt_addRef, conditionsAt_addRef, if_pos hkey, if_pos hkey, hold.1,
        hold.2]
      exact ⟨rfl, rfl⟩

end

/-- What `OnConditionChange` does to the phase with a key, when a phase that is taken out has
more references than those of the auras. -/
theorem contents_onConditionChange (data : PhasingData C) (met : C → Bool) (auras : PhaseAuras)
    (object : WorldObject C G)
    (hroom : ∀ key ref, object.phaseShift.phases.find key = some ref → isUnmet met ref = true →
      (auraCount (auraPhases data auras) key : Int) < ref.references) (key : Nat) :
    refsAt (onConditionChange data met auras object).phaseShift key =
        (if movesOut met object key then (auraCount (auraPhases data auras) key : Int)
          else refsAt object.phaseShift key) +
        (if movesIn met object key then refsAt object.suppressedPhaseShift key else 0) ∧
      conditionsAt (onConditionChange data met auras object).phaseShift key =
        ((if movesIn met object key then conditionsAt object.suppressedPhaseShift key else none) <|>
          if movesOut met object key then none else conditionsAt object.phaseShift key) ∧
      refsAt (onConditionChange data met auras object).suppressedPhaseShift key =
        (if movesIn met object key then 0 else refsAt object.suppressedPhaseShift key) +
        (if movesOut met object key then
          refsAt object.phaseShift key - auraCount (auraPhases data auras) key else 0) ∧
      conditionsAt (onConditionChange data met auras object).suppressedPhaseShift key =
        ((if movesOut met object key then conditionsAt object.phaseShift key else none) <|>
          if movesIn met object key then none else conditionsAt object.suppressedPhaseShift key) := by
  have hfirst := find_firstLoop met object
  rw [onConditionChange]
  generalize object.phaseShift.phases.items.foldl (suppressPhase met)
    (⟨object.phaseShift, {}⟩ : Shifts C G) = first at hfirst
  have hsecond := contents_secondLoop met object key first.visible
  generalize object.suppressedPhaseShift.phases.items.foldl (restorePhase met)
    ⟨first.visible, object.suppressedPhaseShift⟩ = second at hsecond
  have hthird := contents_keepAuraPhases data ⟨second.visible, first.suppressed⟩
    (auraPhases data auras) (by
      intro key ref hfind
      rw [(hfirst key).2] at hfind
      split at hfind
      · rename_i hout
        rw [← any_isUnmet, hfind] at hout
        exact hroom key ref hfind hout
      · cases hfind) key
  generalize (auraPhases data auras).foldl (keepAuraPhase data)
    ⟨second.visible, first.suppressed⟩ = third at hthird
  have hfourth := contents_addSuppressions second.suppressed third.suppressed.phases.keys_nodup key
  obtain ⟨hvisible, hnew⟩ := hfirst key
  obtain ⟨hrefs, hconditions, hsuppressed⟩ := hsecond
  have hadded : refAt third.suppressed.phases.items key = third.suppressed.phases.find key := rfl
  obtain ⟨hthirdRefs, hthirdConditions, hthirdNew⟩ := hthird
  rw [hadded, hthirdNew, hnew] at hfourth
  rw [hnew] at hthirdRefs
  have hsome : movesOut met object key = true →
      ∃ ref, object.phaseShift.phases.find key = some ref := by
    intro hout
    rw [← any_isUnmet] at hout
    cases hfind : object.phaseShift.phases.find key with
    | none =>
      rw [hfind] at hout
      cases hout
    | some ref => exact ⟨ref, rfl⟩
  rw [refsAt_ownPersonal, conditionsAt_ownPersonal, hthirdRefs, hthirdConditions, hrefs, hconditions,
    hfourth.1, hfourth.2]
  simp only [refsAt, conditionsAt, FlatSet.value, hvisible, hsuppressed]
  cases hout : movesOut met object key with
  | true =>
    obtain ⟨ref, hfind⟩ := hsome hout
    cases hin : movesIn met object key <;> simp [hfind, PhaseRef.addReferences] <;> omega
  | false =>
    cases hin : movesIn met object key <;> simp

section Stable

structure Stable (P : PhaseShift C G → Prop) : Prop where
  positive : ∀ shift, P shift → Positive shift
  addPhase : ∀ shift phaseId flags areaConditions references, P shift → 0 < references →
    P (shift.addPhase phaseId flags areaConditions references)
  removePhase : ∀ shift phaseId, P shift → P (shift.removePhase phaseId).1
  takeOut : ∀ shift ref, P shift → shift.phases.find ref.key = some ref → P (takeOut shift ref)
  ownPersonal : ∀ shift guid, P shift → P (ownPersonal guid shift)

theorem Positive.ownPersonal (h : Positive shift) (guid : G) : Positive (ownPersonal guid shift) := by
  rw [PhasingHandler.ownPersonal]
  split <;> exact h

theorem positive_new : Positive ({} : PhaseShift C G) := by
  intro key ref hfind
  cases hfind

theorem stable_positive : Stable (Positive (C := C) (G := G)) where
  positive _ h := h
  addPhase _ _ _ _ _ h hpos := h.addPhase _ _ _ hpos
  removePhase _ phaseId h := h.removePhase phaseId
  takeOut _ ref h _ := h.takeOut ref
  ownPersonal _ guid h := h.ownPersonal guid

variable {P Q : PhaseShift C G → Prop} (hP : Stable P) (hQ : Stable Q)
include hP

theorem Stable.addListed (data : PhasingData C) (h : P shift) (phaseAreas : List (PhaseAreaInfo C)) :
    P (phaseAreas.foldl (addListed data) shift) := by
  induction phaseAreas generalizing shift with
  | nil => exact h
  | cons area phaseAreas ih => exact ih (hP.addPhase _ _ _ _ _ h Int.one_pos)

theorem Stable.addOwnPhases (data : PhasingData C) (h : P shift) (phaseIds : List UInt32) :
    P (phaseIds.foldl (addOwnPhase data) shift) := by
  induction phaseIds generalizing shift with
  | nil => exact h
  | cons phaseId phaseIds ih => exact ih (hP.addPhase _ _ _ _ _ h Int.one_pos)

theorem Stable.removePhases (h : P shift) (phaseIds : List UInt32) :
    P (phaseIds.foldl (fun shift phaseId => (shift.removePhase phaseId).1) shift) := by
  induction phaseIds generalizing shift with
  | nil => exact h
  | cons phaseId phaseIds ih => exact ih (hP.removePhase _ phaseId h)

theorem Stable.addSuppressions (h : P shift) (hpos : ∀ ref ∈ refs, 0 < ref.references) :
    P (refs.foldl addSuppression shift) := by
  induction refs generalizing shift with
  | nil => exact h
  | cons ref refs ih =>
    exact ih (hP.addPhase _ _ _ _ _ h (hpos ref mem_cons_self))
      fun other hother => hpos other (mem_cons_of_mem _ hother)

include hQ

variable {visible suppressed : PhaseShift C G}

theorem Stable.move (moves : PhaseRef C → Bool) (pair : PhaseShift C G × PhaseShift C G)
    (hfirst : P pair.1) (hsecond : Q pair.2) (hkeys : (refs.map PhaseRef.key).Nodup)
    (hfind : ∀ ref ∈ refs, pair.1.phases.find ref.key = some ref) :
    P (refs.foldl (movePhase moves) pair).1 ∧ Q (refs.foldl (movePhase moves) pair).2 := by
  induction refs generalizing pair with
  | nil => exact ⟨hfirst, hsecond⟩
  | cons ref refs ih =>
    rw [map_cons, nodup_cons] at hkeys
    have href := hfind ref mem_cons_self
    have hrest := fun other hother => hfind other (mem_cons_of_mem _ hother)
    rw [foldl_cons, movePhase]
    split
    · apply ih _ (hP.takeOut _ ref hfirst href)
        (hQ.addPhase _ _ _ _ _ hsecond (hP.positive _ hfirst ref.key ref href)) hkeys.2
      intro other hother
      have hne : other.key ≠ ref.key := fun hsame => hkeys.1 (hsame ▸ mem_map_of_mem hother)
      rw [find_takeOut', if_neg hne]
      exact hrest other hother
    · exact ih _ hfirst hsecond hkeys.2 hrest

section
variable (hvisible : P visible) (hsuppressed : Q suppressed)
include hvisible hsuppressed

theorem Stable.suppress (met : C → Bool) :
    P (visible.phases.items.foldl (suppressPhase met) ⟨visible, suppressed⟩).visible ∧
      Q (visible.phases.items.foldl (suppressPhase met) ⟨visible, suppressed⟩).suppressed := by
  have hmove := hP.move hQ (isUnmet met) (visible, suppressed) hvisible hsuppressed
    visible.phases.keys_nodup fun ref hmem => find_key hmem
  rwa [foldl_suppressPhase met ⟨visible, suppressed⟩] at hmove

theorem Stable.restore (met : C → Bool) :
    P (suppressed.phases.items.foldl (restorePhase met) ⟨visible, suppressed⟩).visible ∧
      Q (suppressed.phases.items.foldl (restorePhase met) ⟨visible, suppressed⟩).suppressed := by
  have hmove := hQ.move hP (isMet met) (suppressed, visible) hsuppressed hvisible
    suppressed.phases.keys_nodup fun ref hmem => find_key hmem
  rw [foldl_restorePhase met ⟨visible, suppressed⟩] at hmove
  exact hmove.symm

theorem Stable.keepAuraPhases (data : PhasingData C) (phaseIds : List UInt32) :
    P (phaseIds.foldl (keepAuraPhase data) ⟨visible, suppressed⟩).visible ∧
      Q (phaseIds.foldl (keepAuraPhase data) ⟨visible, suppressed⟩).suppressed := by
  induction phaseIds generalizing visible suppressed with
  | nil => exact ⟨hvisible, hsuppressed⟩
  | cons phaseId phaseIds ih =>
    apply ih
    · dsimp only
      split
      · exact hP.addPhase _ _ _ _ _ hvisible Int.one_pos
      · exact hvisible
    · exact hQ.removePhase _ phaseId hsuppressed

end

theorem Stable.onConditionChange {object : WorldObject C G} (hvisible : P object.phaseShift)
    (hsuppressed : Q object.suppressedPhaseShift) (data : PhasingData C) (met : C → Bool)
    (auras : PhaseAuras) :
    P (onConditionChange data met auras object).phaseShift ∧
      Q (onConditionChange data met auras object).suppressedPhaseShift := by
  have hfirst := hP.suppress stable_positive hvisible positive_new met
  have hsecond := hP.restore hQ hfirst.1 hsuppressed met
  have hthird := hP.keepAuraPhases stable_positive hsecond.1 hfirst.2 data (auraPhases data auras)
  exact ⟨hP.ownPersonal _ _ hthird.1, hQ.addSuppressions hsecond.2 fun ref hmem =>
    hthird.2 ref.key ref (find_key hmem)⟩

end Stable

end LegionServer.Source.Phasing
