import LegionServer.Source.Phasing.PhaseContents

/-!
# Changes of conditions against a new calculation of the phases

A phase that several areas list is one entry with the conditions of one of them.
-/
namespace LegionServer.Guarantees.IncrementalPhasing
open Library Source.Phasing PhasingHandler List Option Bool

variable {C G : Type*} {data : PhasingData C} {areaId : UInt32} {auras : PhaseAuras}

structure Conditioned (C G : Type*) where
  object : WorldObject C G
  met : C → Bool

def conditionSystem (data : PhasingData C) (areaId : UInt32) (auras : PhaseAuras) :
    System (Conditioned C G) (C → Bool) where
  init s := ∃ object : WorldObject C G, s.object = onAreaChange data s.met areaId auras object
  step met s s' := s' = ⟨onConditionChange data met auras s.object, met⟩

def phasesOf (shift : PhaseShift C G) (id : UInt16) : Option Int :=
  (shift.phases.find id.toNat).map PhaseRef.references

structure Recomputed (data : PhasingData C) (areaId : UInt32) (auras : PhaseAuras)
    (s : Conditioned C G) : Prop where
  visible : phasesOf s.object.phaseShift =
    phasesOf (onAreaChange data s.met areaId auras s.object).phaseShift
  suppressed : phasesOf s.object.suppressedPhaseShift =
    phasesOf (onAreaChange data s.met areaId auras s.object).suppressedPhaseShift

/-- Listings of one phase whose conditions had the same value have the same value again. -/
def StayTogether (data : PhasingData C) (areaId : UInt32) (met : C → Bool) (s : Conditioned C G) :
    Prop :=
  ∀ first ∈ areaPhases data areaId, ∀ second ∈ areaPhases data areaId,
    first.phaseId.toUInt16 = second.phaseId.toUInt16 →
      s.met first.conditions = s.met second.conditions →
        met first.conditions = met second.conditions

section Invariant

variable {listings : List (PhaseAreaInfo C)} {met met' q : C → Bool} {extra : Nat → Nat}
  {shift : PhaseShift C G} {key : Nat}

def count (listings : List (PhaseAreaInfo C)) (q : C → Bool) (key : Nat) : Nat :=
  listings.countP fun area => key = area.phaseId.toUInt16.toNat && q area.conditions

/-- A phase shift has the phases listed under conditions, and what the auras give. -/
structure Lists (listings : List (PhaseAreaInfo C)) (q : C → Bool) (extra : Nat → Nat)
    (shift : PhaseShift C G) : Prop where
  positive : Positive shift
  refs : ∀ key, refsAt shift key = count listings q key + extra key
  conditions : ∀ key conditions, conditionsAt shift key = some conditions →
    ∃ area ∈ listings, key = area.phaseId.toUInt16.toNat ∧ q area.conditions = true ∧
      area.conditions = conditions
  none : ∀ key, conditionsAt shift key = Option.none → count listings q key = 0

theorem listCount_filter (listings : List (PhaseAreaInfo C)) (q : C → Bool) (key : Nat) :
    listCount (listings.filter fun area => q area.conditions) key = count listings q key := by
  rw [listCount, countP_filter, count]

theorem lists_addListed (data : PhasingData C) (listings : List (PhaseAreaInfo C)) (q : C → Bool)
    (shift : PhaseShift C G) :
    Lists listings q (fun _ => 0) ((listings.filter fun area => q area.conditions).foldl
      (addListed data) shift.clearPhases) := by
  have hclear : ∀ key, refsAt shift.clearPhases key = 0 ∧
      conditionsAt shift.clearPhases key = none := by
    intro key
    exact ⟨rfl, rfl⟩
  have hcontents := contents_addListed data shift.clearPhases
    (listings.filter fun area => q area.conditions)
  constructor
  · exact stable_positive.addListed data (positive_clearPhases shift) _
  · intro key
    rw [(hcontents key).1, (hclear key).1, listCount_filter]
    omega
  · intro key conditions hconditions
    rcases (hcontents key).2.1 conditions hconditions with hold | ⟨area, hmem, hkey, hsame⟩
    · rw [(hclear key).2] at hold
      cases hold
    · obtain ⟨hlisted, hq⟩ := mem_filter.mp hmem
      exact ⟨area, hlisted, hkey, hq, hsame⟩
  · intro key hconditions
    rw [← listCount_filter]
    exact ((hcontents key).2.2 hconditions).2

theorem Lists.addOwnPhases (h : Lists listings q extra shift) (data : PhasingData C)
    (phaseIds : List UInt32) :
    Lists listings q (fun key => extra key + auraCount phaseIds key)
      (phaseIds.foldl (addOwnPhase data) shift) := by
  have hcontents := contents_addOwnPhases data shift phaseIds
  constructor
  · exact stable_positive.addOwnPhases data h.positive _
  · intro key
    rw [(hcontents key).1, h.refs key]
    omega
  · intro key conditions hconditions
    rw [(hcontents key).2] at hconditions
    exact h.conditions key conditions hconditions
  · intro key hconditions
    rw [(hcontents key).2] at hconditions
    exact h.none key hconditions

theorem Lists.ownPersonal (h : Lists listings q extra shift) (guid : G) :
    Lists listings q extra (PhasingHandler.ownPersonal guid shift) := by
  rw [PhasingHandler.ownPersonal]
  split
  · exact ⟨h.positive, h.refs, h.conditions, h.none⟩
  · exact h

/-- The phases of an object are those listed and those of its auras. -/
def Laid (data : PhasingData C) (areaId : UInt32) (auras : PhaseAuras) (met : C → Bool)
    (object : WorldObject C G) : Prop :=
  Lists (areaPhases data areaId) met (auraCount (auraPhases data auras)) object.phaseShift ∧
    Lists (areaPhases data areaId) (fun conditions => !met conditions) (fun _ => 0)
      object.suppressedPhaseShift

theorem laid_onAreaChange (data : PhasingData C) (areaId : UInt32) (auras : PhaseAuras)
    (met : C → Bool) (object : WorldObject C G) :
    Laid data areaId auras met (onAreaChange data met areaId auras object) := by
  rw [onAreaChange, addAreaPhases_eq]
  have hvisible := (lists_addListed data (areaPhases data areaId) met object.phaseShift).addOwnPhases
    data (auraPhases data auras)
  simp only [Nat.zero_add] at hvisible
  exact ⟨hvisible.ownPersonal object.guid, lists_addListed data (areaPhases data areaId) _
    object.suppressedPhaseShift⟩

theorem Lists.phasesOf_eq {other : PhaseShift C G} (h : Lists listings q extra shift)
    (hother : Lists listings q extra other) : phasesOf shift = phasesOf other := by
  funext id
  rw [phasesOf, phasesOf, h.positive.references_eq, hother.positive.references_eq, h.refs,
    hother.refs]

/-- The listings under one set of conditions that also meet others: all of them or none, as the
conditions that the entry has. -/
theorem Lists.count_and (h : Lists listings q extra shift) (p : C → Bool) (key : Nat)
    (htogether : ∀ first ∈ listings, ∀ second ∈ listings, key = first.phaseId.toUInt16.toNat →
      key = second.phaseId.toUInt16.toNat → q first.conditions = true →
      q second.conditions = true → p first.conditions = p second.conditions) :
    count listings (fun conditions => q conditions && p conditions) key =
      if (conditionsAt shift key).any p then count listings q key else 0 := by
  cases hconditions : conditionsAt shift key with
  | none =>
    rw [any_none, if_neg Bool.false_ne_true, ← h.none key hconditions]
    apply Nat.le_antisymm
    · apply countP_mono_left
      intro area _ harea
      simp only [and_eq_true] at harea ⊢
      exact ⟨harea.1, harea.2.1⟩
    · rw [h.none key hconditions]
      exact Nat.zero_le _
  | some conditions =>
    obtain ⟨area, hmem, hkey, hq, rfl⟩ := h.conditions key conditions hconditions
    have hall : ∀ other ∈ listings, key = other.phaseId.toUInt16.toNat →
        q other.conditions = true → p other.conditions = p area.conditions :=
      fun other hother hkey' hq' => htogether other hother area hmem hkey' hkey hq' hq
    rw [any_some]
    cases hp : p area.conditions with
    | true =>
      apply countP_congr
      intro other hother
      simp only [and_eq_true, decide_eq_true_eq]
      constructor
      · rintro ⟨hkey', hq', _⟩
        exact ⟨hkey', hq'⟩
      · rintro ⟨hkey', hq'⟩
        exact ⟨hkey', hq', (hall other hother hkey' hq').trans hp⟩
    | false =>
      apply countP_eq_zero.mpr
      intro other hother hboth
      simp only [and_eq_true, decide_eq_true_eq] at hboth
      obtain ⟨hkey', hq', hp'⟩ := hboth
      rw [hall other hother hkey' hq', hp] at hp'
      cases hp'

theorem count_split (listings : List (PhaseAreaInfo C)) (q p : C → Bool) (key : Nat) :
    count listings p key = count listings (fun conditions => q conditions && p conditions) key +
      count listings (fun conditions => !q conditions && p conditions) key := by
  simp only [count]
  induction listings with
  | nil => rfl
  | cons area listings ih =>
    rw [countP_cons, countP_cons, countP_cons, ih]
    cases q area.conditions <;> cases p area.conditions <;>
      cases decide (key = area.phaseId.toUInt16.toNat) <;> simp <;> omega

theorem Lists.complement (h : Lists listings q extra shift) (p : C → Bool) (key : Nat) :
    (if (conditionsAt shift key).any (fun conditions => !p conditions) then 0
      else count listings q key) =
    if (conditionsAt shift key).any p then count listings q key else 0 := by
  cases hconditions : conditionsAt shift key with
  | none => exact h.none key hconditions
  | some conditions => cases hp : p conditions <;> simp [hp]

theorem Lists.count_pos (h : Lists listings q extra shift) {conditions : C}
    (hconditions : conditionsAt shift key = some conditions) : 0 < count listings q key := by
  obtain ⟨area, hmem, hkey, hq, _⟩ := h.conditions key conditions hconditions
  apply countP_pos_iff.mpr
  exact ⟨area, hmem, by rw [hq, Bool.and_true]; exact decide_eq_true hkey⟩

variable {object : WorldObject C G}

theorem Lists.room (h : Lists listings q extra shift) {ref : PhaseRef C}
    (hfind : shift.phases.find key = some ref) (hunmet : isUnmet met' ref = true) :
    (extra key : Int) < ref.references := by
  have hrefs := h.refs key
  rw [refsAt, FlatSet.value_some hfind] at hrefs
  cases hconditions : ref.areaConditions with
  | none =>
    rw [isUnmet, hconditions] at hunmet
    cases hunmet
  | some conditions =>
    have hkept : conditionsAt shift key = some conditions := by
      rw [conditionsAt, hfind, bind_some, hconditions]
    have hpos := h.count_pos hkept
    omega

/-- The conditions of an entry after a change, where entries come in and go out: they are from a
listing, and it meets what the entries there meet. -/
theorem moved_conditions {other : PhaseShift C G} {q' : C → Bool} {extra' : Nat → Nat}
    (h : Lists listings q extra shift) (hother : Lists listings q' extra' other) {p : C → Bool}
    {conditions : C}
    (hmoved : ((if (conditionsAt other key).any p then conditionsAt other key else none) <|>
      if (conditionsAt shift key).any (fun conditions => !p conditions) then none
      else conditionsAt shift key) = some conditions) :
    ∃ area ∈ listings, key = area.phaseId.toUInt16.toNat ∧ p area.conditions = true ∧
      area.conditions = conditions := by
  by_cases hin : (conditionsAt other key).any p = true
  · rw [if_pos hin] at hmoved
    cases hcame : conditionsAt other key with
    | none =>
      rw [hcame] at hin
      cases hin
    | some came =>
      obtain ⟨area, hmem, hkey, _, rfl⟩ := hother.conditions key came hcame
      rw [hcame] at hin hmoved
      exact ⟨area, hmem, hkey, hin, Option.some.inj hmoved⟩
  · rw [if_neg hin] at hmoved
    split at hmoved
    · cases hmoved
    rename_i hout
    have hkept : conditionsAt shift key = some conditions := hmoved
    obtain ⟨area, hmem, hkey, _, rfl⟩ := h.conditions key conditions hkept
    rw [hkept, any_some, not_eq_true, not_eq_false'] at hout
    exact ⟨area, hmem, hkey, hout, rfl⟩

theorem moved_none {other : PhaseShift C G} {q' : C → Bool}
    (h : Lists listings q extra shift) {p : C → Bool}
    (hmoved : ((if (conditionsAt other key).any p then conditionsAt other key else none) <|>
      if (conditionsAt shift key).any (fun conditions => !p conditions) then none
      else conditionsAt shift key) = none) :
    (if (conditionsAt shift key).any p then count listings q key else 0) = 0 ∧
      (if (conditionsAt other key).any p then count listings q' key else 0) = 0 := by
  by_cases hin : (conditionsAt other key).any p = true
  · rw [if_pos hin] at hmoved
    cases hcame : conditionsAt other key with
    | none =>
      rw [hcame] at hin
      cases hin
    | some came =>
      rw [hcame] at hmoved
      cases hmoved
  · rw [if_neg hin] at hmoved ⊢
    refine ⟨?_, rfl⟩
    rw [← h.complement]
    split at hmoved
    · rename_i hout
      rw [if_pos hout]
    · rename_i hout
      rw [if_neg hout]
      exact h.none key hmoved

/-- The phases move as their conditions change. -/
theorem Laid.onConditionChange (h : Laid data areaId auras met object)
    (htogether : StayTogether data areaId met' ⟨object, met⟩) :
    Laid data areaId auras met' (PhasingHandler.onConditionChange data met' auras object) := by
  obtain ⟨hvisible, hsuppressed⟩ := h
  have hpositive := stable_positive.onConditionChange stable_positive hvisible.positive
    hsuppressed.positive data met' auras
  have hcontents := contents_onConditionChange data met' auras object
    fun key ref hfind hunmet => hvisible.room hfind hunmet
  have hsame : ∀ {key : Nat}, ∀ first ∈ areaPhases data areaId, ∀ second ∈ areaPhases data areaId,
      key = first.phaseId.toUInt16.toNat → key = second.phaseId.toUInt16.toNat →
      met first.conditions = met second.conditions →
      met' first.conditions = met' second.conditions :=
    fun first hfirst second hsecond hkey hkey' => htogether first hfirst second hsecond
      (UInt16.toNat_inj.mp (hkey.symm.trans hkey'))
  -- the listings of a phase, by what they met before and what they meet now
  have hstayed := fun key => hvisible.count_and met' key fun first hfirst second hsecond hkey hkey'
    hq hq' => hsame first hfirst second hsecond hkey hkey' (hq.trans hq'.symm)
  have hleft := fun key => hvisible.count_and (fun conditions => !met' conditions) key
    fun first hfirst second hsecond hkey hkey' hq hq' => congrArg (!·)
      (hsame first hfirst second hsecond hkey hkey' (hq.trans hq'.symm))
  have hcame := fun key => hsuppressed.count_and met' key fun first hfirst second hsecond hkey hkey'
    hq hq' => hsame first hfirst second hsecond hkey hkey' (not_inj (hq.trans hq'.symm))
  have hremained := fun key => hsuppressed.count_and (fun conditions => !met' conditions) key
    fun first hfirst second hsecond hkey hkey' hq hq' => congrArg (!·)
      (hsame first hfirst second hsecond hkey hkey' (not_inj (hq.trans hq'.symm)))
  constructor
  · constructor
    · exact hpositive.1
    · intro key
      rw [(hcontents key).1, count_split _ met met', hstayed, hcame, hvisible.refs, hsuppressed.refs,
        ← hvisible.complement, movesOut, movesIn]
      split <;> split <;> omega
    · intro key conditions hconditions
      rw [(hcontents key).2.1] at hconditions
      exact moved_conditions hvisible hsuppressed hconditions
    · intro key hconditions
      rw [(hcontents key).2.1] at hconditions
      rw [count_split _ met met', hstayed, hcame]
      obtain ⟨hnone, hnone'⟩ := moved_none hvisible hconditions
      rw [hnone, hnone']
  · constructor
    · exact hpositive.2
    · intro key
      have hcomplement := hsuppressed.complement (fun conditions => !met' conditions) key
      simp only [Bool.not_not] at hcomplement
      rw [(hcontents key).2.2.1, count_split _ met, hleft, hremained, hvisible.refs,
        hsuppressed.refs, ← hcomplement, movesOut, movesIn]
      split <;> split <;> omega
    · intro key conditions hconditions
      rw [(hcontents key).2.2.2] at hconditions
      exact moved_conditions (p := fun conditions => !met' conditions) hsuppressed hvisible
        (by simp only [Bool.not_not]; exact hconditions)
    · intro key hconditions
      rw [(hcontents key).2.2.2] at hconditions
      rw [count_split _ met, hleft, hremained]
      have hmoved := @moved_none _ _ _ _ _ _ key object.phaseShift met hsuppressed
        (fun conditions => !met' conditions) (by simp only [Bool.not_not]; exact hconditions)
      rw [hmoved.1, hmoved.2]

theorem Laid.matchesEffects {s : Conditioned C G} (h : Laid data areaId auras s.met s.object) :
    Recomputed data areaId auras s := by
  have hnew := laid_onAreaChange data areaId auras s.met s.object
  constructor
  · exact h.1.phasesOf_eq hnew.1
  · exact h.2.phasesOf_eq hnew.2

end Invariant

/-- As long as listings of one phase stay together, changes of conditions leave what a new
calculation gives. -/
theorem recomputed {s : Conditioned C G}
    (h : ((conditionSystem data areaId auras).guarded (StayTogether data areaId)).Reachable s) :
    Recomputed data areaId auras s := by
  apply Laid.matchesEffects
  apply h.invariant (fun s => Laid data areaId auras s.met s.object)
  · rintro s ⟨object, hobject⟩
    rw [hobject]
    exact laid_onAreaChange data areaId auras s.met object
  · rintro met s _ hlaid ⟨htogether, rfl⟩
    exact hlaid.onConditionChange htogether

/-- Phase 5 in two areas under the conditions `false` and `true`, the first inside the second. -/
def nestedAreas (first second : Bool) : PhasingData Bool where
  phaseEntryFlags _ := none
  areaTable :=
    { lookupEntry := fun id =>
        if id = 2 then some ⟨2, 1⟩ else if id = 1 then some ⟨1, 0⟩ else none
      depth := fun id => id.toNat
      depth_parent := by
        intro id entry hentry
        split at hentry
        · next hid =>
          cases hentry
          rw [hid]
          decide
        · split at hentry
          · next hid =>
            cases hentry
            rw [hid]
            decide
          · cases hentry }
  phasesForArea id :=
    if id = 2 then some [⟨5, [], first⟩] else if id = 1 then some [⟨5, [], second⟩] else none
  phasesForGroup _ := none

def nestedObject (first second : Bool) : Conditioned Bool Unit where
  object := onAreaChange (nestedAreas first second) (fun _ => true) 2 { phases := [5] } { guid := () }
  met _ := true

/-- The object after the condition `true` is no longer met. -/
def partedObject (first second : Bool) : Conditioned Bool Unit where
  object := onConditionChange (nestedAreas first second) (fun conditions => !conditions)
    { phases := [5] } (nestedObject first second).object
  met conditions := !conditions

/-- Two references of areas are suppressed together, the one of the aura stays. -/
theorem recomputed_together : phasesOf (partedObject true true).object.suppressedPhaseShift 5 =
      some 2 ∧ phasesOf (partedObject true true).object.phaseShift 5 = some 1 ∧
    Recomputed (nestedAreas true true) 2 { phases := [5] } (partedObject true true) :=
  ⟨by decide, by decide, recomputed (.step (fun conditions => !conditions)
    (.init ⟨{ guid := () }, rfl⟩) ⟨by unfold StayTogether; decide, rfl⟩)⟩

/-- Where one of two areas has its condition met no longer, the references of both are moved. -/
theorem not_recomputed : ¬∀ s, (conditionSystem (nestedAreas false true) 2
    { phases := [5] }).Reachable s →
      Recomputed (C := Bool) (G := Unit) (nestedAreas false true) 2 { phases := [5] } s := by
  intro h
  have hvisible := congrFun (h (partedObject false true) (.step (fun conditions => !conditions)
    (.init ⟨{ guid := () }, rfl⟩) rfl)).visible 5
  revert hvisible
  decide

end LegionServer.Guarantees.IncrementalPhasing
