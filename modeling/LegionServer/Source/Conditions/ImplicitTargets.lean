import LegionServer.Source.Conditions.Condition
import Mathlib.Data.Nat.Find

/-!
# Conditions of implicit targets

`addToSpellImplicitTargetConditions` (`ConditionMgr.cpp:1480-1588`) for the spell of one
difficulty. Effects share lists of conditions: a list is an object with a number.
-/
namespace LegionServer.Source.Conditions
open List

inductive SpellTargetObjectType
  | none | src | dest | unit | unitAndDest | gobj | gobjItem | item | corpse | corpseEnemy
  | corpseAlly

def TARGET_FLAG_UNIT : Nat := 0x2
def TARGET_FLAG_ITEM : Nat := 0x10
def TARGET_FLAG_SOURCE_LOCATION : Nat := 0x20
def TARGET_FLAG_DEST_LOCATION : Nat := 0x40
def TARGET_FLAG_CORPSE_ENEMY : Nat := 0x200
def TARGET_FLAG_GAMEOBJECT : Nat := 0x800
def TARGET_FLAG_GAMEOBJECT_ITEM : Nat := 0x4000
def TARGET_FLAG_CORPSE_ALLY : Nat := 0x8000
/-- All flags of units, of which the effects have only the first. -/
def TARGET_FLAG_UNIT_MASK : Nat := 0x11058E
def TARGET_FLAG_GAMEOBJECT_MASK : Nat := TARGET_FLAG_GAMEOBJECT ||| TARGET_FLAG_GAMEOBJECT_ITEM
def TARGET_FLAG_CORPSE_MASK : Nat := TARGET_FLAG_CORPSE_ALLY ||| TARGET_FLAG_CORPSE_ENEMY

def getTargetFlagMask : SpellTargetObjectType → Nat
  | .dest => TARGET_FLAG_DEST_LOCATION
  | .unitAndDest => TARGET_FLAG_DEST_LOCATION ||| TARGET_FLAG_UNIT
  | .corpseAlly => TARGET_FLAG_CORPSE_ALLY
  | .corpseEnemy => TARGET_FLAG_CORPSE_ENEMY
  | .corpse => TARGET_FLAG_CORPSE_ALLY ||| TARGET_FLAG_CORPSE_ENEMY
  | .unit => TARGET_FLAG_UNIT
  | .gobj => TARGET_FLAG_GAMEOBJECT
  | .gobjItem => TARGET_FLAG_GAMEOBJECT_ITEM
  | .item => TARGET_FLAG_ITEM
  | .src => TARGET_FLAG_SOURCE_LOCATION
  | .none => 0

structure SpellEffectInfo where
  targetA : SpellTargetObjectType
  targetB : SpellTargetObjectType

structure SpellInfo where
  effects : List SpellEffectInfo
  /-- the list of each effect -/
  implicitTargetConditions : Nat → Option Nat := fun _ => none
  /-- the lists that there are -/
  lists : List (List Condition) := []

/-- The additional checks by condition type. -/
def SpellEffectInfo.check (effect : SpellEffectInfo) (cond : Condition) : Bool :=
  match cond.conditionType with
  | .objectEntryGuid =>
    let implicitTargetMask := getTargetFlagMask effect.targetA ||| getTargetFlagMask effect.targetB
    !(implicitTargetMask &&& TARGET_FLAG_UNIT_MASK != 0 &&
        cond.conditionValue1 != TypeId.unit.toNat && cond.conditionValue1 != TypeId.player.toNat) &&
      !(implicitTargetMask &&& TARGET_FLAG_GAMEOBJECT_MASK != 0 &&
        cond.conditionValue1 != TypeId.gameobject.toNat) &&
      !(implicitTargetMask &&& TARGET_FLAG_CORPSE_MASK != 0 &&
        cond.conditionValue1 != TypeId.corpse.toNat)
  | _ => true

namespace SpellInfo

variable (s : SpellInfo) (cond : Condition)

/-- The checks of all effects in the mask. Nothing is changed before the last one. -/
def checks : Bool :=
  s.effects.zipIdx.all fun (effect, effIndex) =>
    !cond.sourceGroup.testBit effIndex || effect.check cond

/-- An effect and those behind it that have the same list, or none like it. -/
def sharedMask (index : Nat) : Nat :=
  (List.range' (index + 1) (s.effects.length - (index + 1))).foldl (fun sharedMask effIndex =>
    if s.implicitTargetConditions effIndex = s.implicitTargetConditions index then
      sharedMask ||| 1 <<< effIndex
    else sharedMask) (1 <<< index)

def sharedMasks : List Nat :=
  (List.range s.effects.length).foldl (fun sharedMasks effIndex =>
    if sharedMasks.any fun mask => mask.testBit effIndex then sharedMasks
    else sharedMasks ++ [s.sharedMask effIndex]) []

/-- What is done for the first shared mask that has a bit of the mask of the condition. -/
def addToMask (effectMask : Nat) : SpellInfo :=
  let commonMask := effectMask &&& cond.sourceGroup
  match (List.range s.effects.length).find? effectMask.testBit with
  | none => s
  | some firstEffIndex =>
    match s.implicitTargetConditions firstEffIndex with
    | some sharedList =>
      -- We have overlapping masks in db.
      if cond.sourceGroup ≠ effectMask then s
      else { s with lists := s.lists.modify sharedList (· ++ [cond]) }
    | none =>
      let assigned (i : Nat) : Bool :=
        firstEffIndex ≤ i && i < s.effects.length && commonMask.testBit i
      if (List.range s.effects.length).any assigned then
        { s with
          implicitTargetConditions := fun i =>
            if assigned i then some s.lists.length else s.implicitTargetConditions i
          lists := s.lists ++ [[cond]] }
      else s

def addToSpellImplicitTargetConditions : SpellInfo :=
  if s.checks cond then
    match s.sharedMasks.find? fun effectMask => effectMask &&& cond.sourceGroup != 0 with
    | some effectMask => s.addToMask cond effectMask
    | none => s
  else s

end SpellInfo

theorem testBit_one_shiftLeft (i j : Nat) : (1 <<< i).testBit j = decide (i = j) := by
  rw [Nat.one_shiftLeft, Nat.testBit_two_pow]

theorem testBit_foldl_or (p : Nat → Bool) (l : List Nat) (mask j : Nat) :
    (l.foldl (fun mask i => if p i then mask ||| 1 <<< i else mask) mask).testBit j =
      (mask.testBit j || decide (j ∈ l) && p j) := by
  induction l generalizing mask with
  | nil => simp
  | cons i l ih =>
    have hmask : (if p i then mask ||| 1 <<< i else mask).testBit j =
        (mask.testBit j || decide (i = j) && p i) := by
      cases p i with
      | false => simp
      | true => rw [if_pos rfl, Nat.testBit_or, testBit_one_shiftLeft, Bool.and_true]
    rw [foldl_cons, ih, hmask]
    by_cases hj : i = j
    · subst hj
      cases p i <;> simp
    · simp [hj, Ne.symm hj]

namespace SpellInfo

variable {s : SpellInfo} {cond : Condition} {i j l : Nat}

theorem testBit_sharedMask : (s.sharedMask i).testBit j = true ↔
    j = i ∨ i < j ∧ j < s.effects.length ∧
      s.implicitTargetConditions j = s.implicitTargetConditions i := by
  have hfold := testBit_foldl_or
    (fun j => decide (s.implicitTargetConditions j = s.implicitTargetConditions i))
    (range' (i + 1) (s.effects.length - (i + 1))) (1 <<< i) j
  simp only [decide_eq_true_eq] at hfold
  rw [sharedMask, hfold, testBit_one_shiftLeft, Bool.or_eq_true, Bool.and_eq_true,
    decide_eq_true_eq, decide_eq_true_eq, decide_eq_true_eq, mem_range'_1, ← and_assoc,
    eq_comm]
  refine or_congr_right (and_congr_left fun _ => ?_)
  omega

def Leads (s : SpellInfo) (i : Nat) : Prop :=
  ∀ j < i, s.implicitTargetConditions j ≠ s.implicitTargetConditions i

instance : Decidable (s.Leads i) := inferInstanceAs (Decidable (∀ j < i, _))

theorem exists_leads (i : Nat) : ∃ l ≤ i, s.Leads l ∧
    s.implicitTargetConditions l = s.implicitTargetConditions i := by
  induction i using Nat.strongRecOn with
  | ind i ih =>
    by_cases hleads : s.Leads i
    · exact ⟨i, le_rfl, hleads, rfl⟩
    · simp only [Leads, not_forall, not_not] at hleads
      obtain ⟨j, hj, hsame⟩ := hleads
      obtain ⟨l, hl, hleads, hlist⟩ := ih j hj
      exact ⟨l, by omega, hleads, hlist.trans hsame⟩

theorem sharedMasks_eq : s.sharedMasks =
    ((List.range s.effects.length).filter fun i => s.Leads i).map s.sharedMask := by
  have hrange : ∀ n ≤ s.effects.length, (range n).foldl (fun sharedMasks effIndex =>
        if sharedMasks.any fun mask => mask.testBit effIndex then sharedMasks
        else sharedMasks ++ [s.sharedMask effIndex]) [] =
      ((range n).filter fun i => s.Leads i).map s.sharedMask := by
    intro n hn
    induction n with
    | zero => rfl
    | succ n ih =>
      rw [range_succ, foldl_append, ih (by omega), filter_append, map_append]
      have hany : (((range n).filter fun i => s.Leads i).map s.sharedMask).any
          (fun mask => mask.testBit n) = true ↔ ¬s.Leads n := by
        rw [any_map, any_eq_true]
        constructor
        · rintro ⟨l, hl, hbit⟩ hleads
          simp only [mem_filter, mem_range] at hl
          obtain rfl | ⟨-, -, hsame⟩ := testBit_sharedMask.mp hbit
          · omega
          · exact hleads l hl.1 hsame.symm
        · intro hleads
          obtain ⟨l, hl, hfirst, hsame⟩ := s.exists_leads n
          have hlt : l < n := lt_of_le_of_ne hl fun heq => hleads (heq ▸ hfirst)
          refine ⟨l, ?_, testBit_sharedMask.mpr (.inr ⟨hlt, by omega, hsame.symm⟩)⟩
          simp [hlt, hfirst]
      rw [foldl_cons, foldl_nil, filter_cons]
      by_cases hleads : s.Leads n
      · rw [if_neg (fun h => hany.mp h hleads), if_pos (decide_eq_true hleads)]
        rfl
      · rw [if_pos (hany.mpr hleads), if_neg (by simpa using hleads)]
        simp
  exact hrange _ le_rfl

theorem testBit_sharedMask_of_leads (hl : l < s.effects.length) (hleads : s.Leads l) :
    (s.sharedMask l).testBit j = true ↔ j < s.effects.length ∧
      s.implicitTargetConditions j = s.implicitTargetConditions l := by
  rw [testBit_sharedMask]
  constructor
  · rintro (rfl | ⟨-, hj, hsame⟩)
    · exact ⟨hl, rfl⟩
    · exact ⟨hj, hsame⟩
  · rintro ⟨hj, hsame⟩
    rcases Nat.lt_trichotomy j l with hlt | rfl | hlt
    · exact absurd hsame (hleads j hlt)
    · exact .inl rfl
    · exact .inr ⟨hlt, hj, hsame⟩

theorem land_ne_zero_iff (a b : Nat) : (a &&& b != 0) = true ↔
    ∃ i, a.testBit i = true ∧ b.testBit i = true := by
  rw [bne_iff_ne]
  constructor
  · intro hne
    obtain ⟨i, hi⟩ := Nat.exists_testBit_of_ne_zero hne
    rw [Nat.testBit_and, Bool.and_eq_true] at hi
    exact ⟨i, hi⟩
  · rintro ⟨i, hi⟩ hzero
    have hbit : (a &&& b).testBit i = true := by
      rw [Nat.testBit_and, Bool.and_eq_true]
      exact hi
    rw [hzero, Nat.zero_testBit] at hbit
    cases hbit

theorem add_of_none (h : ∀ i < s.effects.length, cond.sourceGroup.testBit i = false) :
    s.addToSpellImplicitTargetConditions cond = s := by
  have hfind : s.sharedMasks.find? (fun effectMask => effectMask &&& cond.sourceGroup != 0) =
      none := by
    rw [find?_eq_none, sharedMasks_eq]
    intro effectMask hmem hland
    obtain ⟨l, hl, rfl⟩ := mem_map.mp hmem
    simp only [mem_filter, mem_range, decide_eq_true_eq] at hl
    obtain ⟨i, hi, hbit⟩ := (land_ne_zero_iff _ _).mp hland
    rw [h i ((testBit_sharedMask_of_leads hl.1 hl.2).mp hi).1] at hbit
    cases hbit
  rw [addToSpellImplicitTargetConditions, hfind]
  split <;> rfl

structure First (s : SpellInfo) (cond : Condition) (l : Nat) : Prop where
  lt : l < s.effects.length
  touched : ∃ i < s.effects.length, cond.sourceGroup.testBit i = true ∧
    s.implicitTargetConditions i = s.implicitTargetConditions l
  first : ∀ i < s.effects.length, cond.sourceGroup.testBit i = true →
    ∀ j < l, s.implicitTargetConditions j ≠ s.implicitTargetConditions i

theorem First.leads (h : s.First cond l) : s.Leads l := by
  obtain ⟨i, hi, hbit, hsame⟩ := h.touched
  exact fun j hj hlist => h.first i hi hbit j hj (hlist.trans hsame.symm)

theorem exists_first (hi : i < s.effects.length) (hbit : cond.sourceGroup.testBit i = true) :
    ∃ l, s.First cond l := by
  have hex : ∃ l, ∃ k < s.effects.length, cond.sourceGroup.testBit k = true ∧
      s.implicitTargetConditions k = s.implicitTargetConditions l := ⟨i, i, hi, hbit, rfl⟩
  refine ⟨Nat.find hex, ?_, Nat.find_spec hex, fun k hk hbit j hj hsame => ?_⟩
  · exact lt_of_le_of_lt (Nat.find_min' hex ⟨i, hi, hbit, rfl⟩) hi
  · exact Nat.find_min hex hj ⟨k, hk, hbit, hsame.symm⟩

theorem add_of_first (hchecks : s.checks cond = true) (h : s.First cond l) :
    s.addToSpellImplicitTargetConditions cond = s.addToMask cond (s.sharedMask l) := by
  have htouches : ∀ k < s.effects.length, s.Leads k →
      ((s.sharedMask k &&& cond.sourceGroup != 0) = true ↔ ∃ i < s.effects.length,
        cond.sourceGroup.testBit i = true ∧
          s.implicitTargetConditions i = s.implicitTargetConditions k) := by
    intro k hk hleads
    rw [land_ne_zero_iff]
    refine exists_congr fun i => ?_
    rw [testBit_sharedMask_of_leads hk hleads]
    tauto
  have hfind : s.sharedMasks.find? (fun effectMask => effectMask &&& cond.sourceGroup != 0) =
      some (s.sharedMask l) := by
    rw [sharedMasks_eq, find?_map, find?_filter, Option.map_eq_some_iff]
    refine ⟨l, find?_range_eq_some.mpr ⟨?_, mem_range.mpr h.lt, fun j hj => ?_⟩, rfl⟩
    · rw [decide_eq_true_eq, decide_eq_true_eq]
      exact ⟨h.leads, (htouches l h.lt h.leads).mpr h.touched⟩
    · rw [Bool.not_eq_true', decide_eq_false_iff_not, decide_eq_true_eq]
      rintro ⟨hleads, hland⟩
      obtain ⟨i, hi, hbit, hsame⟩ := (htouches j (hj.trans h.lt) hleads).mp hland
      exact h.first i hi hbit j hj hsame.symm
  rw [addToSpellImplicitTargetConditions, if_pos hchecks, hfind]

theorem find_sharedMask (hl : l < s.effects.length) (hleads : s.Leads l) :
    (List.range s.effects.length).find? (s.sharedMask l).testBit = some l := by
  rw [find?_range_eq_some]
  refine ⟨testBit_sharedMask.mpr (.inl rfl), mem_range.mpr hl, fun j hj => ?_⟩
  rw [Bool.not_eq_true', ← Bool.not_eq_true, testBit_sharedMask_of_leads hl hleads]
  exact fun hbit => hleads j hj hbit.2

/-- The mask is the one of the effects that share a list. -/
def Exact (s : SpellInfo) (cond : Condition) (list : Nat) : Prop :=
  ∀ j, cond.sourceGroup.testBit j = true ↔
    j < s.effects.length ∧ s.implicitTargetConditions j = some list

variable {list : Nat}

theorem eq_sharedMask_iff (h : s.First cond l) (hlist : s.implicitTargetConditions l = some list) :
    cond.sourceGroup = s.sharedMask l ↔ s.Exact cond list := by
  rw [Exact, ← hlist]
  simp only [← testBit_sharedMask_of_leads h.lt h.leads]
  exact ⟨fun heq _ => heq ▸ Iff.rfl, fun hbits => Nat.eq_of_testBit_eq fun j =>
    Bool.eq_iff_iff.mpr (hbits j)⟩

section
variable (hchecks : s.checks cond = true) (h : s.First cond l)
include hchecks h

theorem add_of_exact (hlist : s.implicitTargetConditions l = some list)
    (hexact : s.Exact cond list) :
    s.addToSpellImplicitTargetConditions cond =
      { s with lists := s.lists.modify list (· ++ [cond]) } := by
  rw [add_of_first hchecks h, addToMask, find_sharedMask h.lt h.leads]
  dsimp only
  rw [hlist]
  exact if_neg (not_not.mpr ((eq_sharedMask_iff h hlist).mpr hexact))

theorem add_of_not_exact (hlist : s.implicitTargetConditions l = some list)
    (hexact : ¬s.Exact cond list) : s.addToSpellImplicitTargetConditions cond = s := by
  rw [add_of_first hchecks h, addToMask, find_sharedMask h.lt h.leads]
  dsimp only
  rw [hlist]
  exact if_pos fun heq => hexact ((eq_sharedMask_iff h hlist).mp heq)

theorem add_of_new (hlist : s.implicitTargetConditions l = none) :
    s.addToSpellImplicitTargetConditions cond =
      { s with
        implicitTargetConditions := fun j =>
          if j < s.effects.length ∧ s.implicitTargetConditions j = none ∧
            cond.sourceGroup.testBit j = true then some s.lists.length
          else s.implicitTargetConditions j
        lists := s.lists ++ [[cond]] } := by
  have hassigned : ∀ j, (l ≤ j && j < s.effects.length &&
      (s.sharedMask l &&& cond.sourceGroup).testBit j) = true ↔
      j < s.effects.length ∧ s.implicitTargetConditions j = none ∧
        cond.sourceGroup.testBit j = true := by
    intro j
    rw [Nat.testBit_and, Bool.and_eq_true, Bool.and_eq_true, Bool.and_eq_true, decide_eq_true_eq,
      decide_eq_true_eq, testBit_sharedMask_of_leads h.lt h.leads, hlist]
    constructor
    · rintro ⟨⟨-, hj⟩, ⟨-, hnone⟩, hbit⟩
      exact ⟨hj, hnone, hbit⟩
    · rintro ⟨hj, hnone, hbit⟩
      refine ⟨⟨Nat.le_of_not_lt fun hlt => h.leads j hlt (hnone.trans hlist.symm), hj⟩,
        ⟨hj, hnone⟩, hbit⟩
  have hany : ((range s.effects.length).any fun j => l ≤ j && j < s.effects.length &&
      (s.sharedMask l &&& cond.sourceGroup).testBit j) = true := by
    obtain ⟨i, hi, hbit, hsame⟩ := h.touched
    exact any_eq_true.mpr ⟨i, mem_range.mpr hi,
      (hassigned i).mpr ⟨hi, hsame.trans hlist, hbit⟩⟩
  rw [add_of_first hchecks h, addToMask, find_sharedMask h.lt h.leads]
  dsimp only
  rw [hlist]
  rw [if_pos hany]
  simp only [hassigned]

end

end SpellInfo

end LegionServer.Source.Conditions
