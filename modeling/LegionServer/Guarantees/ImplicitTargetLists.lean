import LegionServer.Source.Conditions.ImplicitTargets
import Mathlib.Data.List.Induction

/-!
# Lists of implicit targets

The rows of a spell are fed one after the other. A row is to be accepted if its mask is
equal to or disjoint from those of the rows accepted before.
-/
namespace LegionServer.Guarantees.ImplicitTargetLists
open Source.Conditions List SpellInfo
open SpellInfo (First)

def Covers (c : Condition) (i : Nat) : Prop := c.sourceGroup.testBit i = true

def Overlaps (n : Nat) (a c : Condition) : Prop := ∃ i < n, Covers a i ∧ Covers c i

/-- Two masks are equal, but for bits beyond the effects. -/
def SameMask (n : Nat) (a c : Condition) : Prop := ∀ i < n, Covers a i ↔ Covers c i

instance (c : Condition) (i : Nat) : Decidable (Covers c i) :=
  inferInstanceAs (Decidable (c.sourceGroup.testBit i = true))

instance (n : Nat) (a c : Condition) : Decidable (Overlaps n a c) :=
  inferInstanceAs (Decidable (∃ i < n, _))

instance (n : Nat) (a c : Condition) : Decidable (SameMask n a c) :=
  inferInstanceAs (Decidable (∀ i < n, _))

def accept (effects : List SpellEffectInfo) (before : List Condition) (row : Condition) :
    List Condition :=
  if SpellInfo.checks { effects } row ∧
      ∀ a ∈ before, Overlaps effects.length a row → SameMask effects.length a row then
    before ++ [row]
  else before

def accepted (effects : List SpellEffectInfo) (rows : List Condition) : List Condition :=
  rows.foldl (accept effects) []

def run (effects : List SpellEffectInfo) (rows : List Condition) : SpellInfo :=
  rows.foldl SpellInfo.addToSpellImplicitTargetConditions { effects }

def conditionsAt (rows : List Condition) (i : Nat) : List Condition :=
  rows.filter fun c => Covers c i

/-- Each effect in a mask has the list of the conditions whose masks have it, which it shares
with exactly the effects of its mask. -/
structure Represents (rows : List Condition) (s : SpellInfo) : Prop where
  unlisted : ∀ i < s.effects.length, (∀ a ∈ rows, ¬Covers a i) → s.implicitTargetConditions i = none
  listed : ∀ i < s.effects.length, ∀ a ∈ rows, Covers a i → ∃ list,
    s.implicitTargetConditions i = some list ∧ s.lists[list]? = some (conditionsAt rows i)
  shared : ∀ a ∈ rows, ∀ i < s.effects.length, Covers a i → ∀ j < s.effects.length,
    s.implicitTargetConditions j = s.implicitTargetConditions i ↔ Covers a j

/-- When a row is treated as it should be: one with an accepted mask has no bits beyond the
effects; and for one that is to be ignored, all its effects have lists, or one of the masks that it
overlaps begins before all effects without a list. -/
structure Fits (n : Nat) (before : List Condition) (row : Condition) : Prop where
  exact : ∀ a ∈ before, Overlaps n a row → SameMask n a row → row.sourceGroup < 2 ^ n
  ignored : ∀ a ∈ before, Overlaps n a row → ¬SameMask n a row →
    (∀ i < n, Covers row i → ∃ b ∈ before, Covers b i) ∨
      ∃ b ∈ before, Overlaps n b row ∧ ∃ i < n, Covers b i ∧ ∀ j < i, ∃ b ∈ before, Covers b j

variable {effects : List SpellEffectInfo} {rows before : List Condition} {row a : Condition}
  {s : SpellInfo} {i j l list : Nat}

theorem Represents.eq_none_iff (h : Represents before s) (hi : i < s.effects.length) :
    s.implicitTargetConditions i = none ↔ ∀ a ∈ before, ¬Covers a i := by
  refine ⟨fun hnone a ha hcovers => ?_, h.unlisted i hi⟩
  obtain ⟨list, hlist, -⟩ := h.listed i hi a ha hcovers
  rw [hnone] at hlist
  cases hlist

theorem Represents.exists_covers (h : Represents before s) (hi : i < s.effects.length)
    (hlist : s.implicitTargetConditions i = some list) : ∃ a ∈ before, Covers a i := by
  by_contra hnone
  push Not at hnone
  rw [h.unlisted i hi hnone] at hlist
  cases hlist

theorem conditionsAt_append : conditionsAt (before ++ [row]) i =
    conditionsAt before i ++ if Covers row i then [row] else [] := by
  rw [conditionsAt, conditionsAt, filter_append]
  congr 1
  by_cases hcovers : Covers row i <;> simp [hcovers]

theorem Represents.append_none (h : Represents before s)
    (hnone : ∀ i < s.effects.length, ¬Covers row i) : Represents (before ++ [row]) s := by
  constructor
  · exact fun i hi hall => h.unlisted i hi fun a ha => hall a (mem_append_left _ ha)
  · intro i hi a ha hcovers
    rw [conditionsAt_append, if_neg (hnone i hi), append_nil]
    rcases mem_append.mp ha with ha | ha
    · exact h.listed i hi a ha hcovers
    · rw [mem_singleton.mp ha] at hcovers
      exact absurd hcovers (hnone i hi)
  · intro a ha i hi hcovers
    rcases mem_append.mp ha with ha | ha
    · exact h.shared a ha i hi hcovers
    · rw [mem_singleton.mp ha] at hcovers
      exact absurd hcovers (hnone i hi)

theorem Represents.push (h : Represents before s) (ha : a ∈ before)
    (hsame : SameMask s.effects.length a row) (hi : i < s.effects.length) (hcovers : Covers row i)
    (hlist : s.implicitTargetConditions i = some list) :
    Represents (before ++ [row]) { s with lists := s.lists.modify list (· ++ [row]) } := by
  have hgroup : ∀ j < s.effects.length,
      s.implicitTargetConditions j = some list ↔ Covers row j := by
    intro j hj
    rw [← hlist, h.shared a ha i hi ((hsame i hi).mpr hcovers) j hj]
    exact hsame j hj
  constructor
  · exact fun j hj hall => h.unlisted j hj fun b hb => hall b (mem_append_left _ hb)
  · intro j hj b hb hcovers'
    have hbefore : ∃ b ∈ before, Covers b j := by
      rcases mem_append.mp hb with hb | hb
      · exact ⟨b, hb, hcovers'⟩
      · rw [mem_singleton.mp hb] at hcovers'
        exact ⟨a, ha, (hsame j hj).mpr hcovers'⟩
    obtain ⟨b, hb, hcovers'⟩ := hbefore
    obtain ⟨other, hother, hcontent⟩ := h.listed j hj b hb hcovers'
    refine ⟨other, hother, ?_⟩
    rw [getElem?_modify, conditionsAt_append]
    by_cases heq : list = other
    · rw [if_pos ((hgroup j hj).mp (hother.trans (congrArg some heq.symm))), heq, hcontent]
      simp
    · rw [if_neg fun hrow => heq (Option.some.inj (((hgroup j hj).mpr hrow).symm.trans hother)),
        hcontent]
      simp [heq]
  · intro b hb j hj hcovers' k hk
    rcases mem_append.mp hb with hb | hb
    · exact h.shared b hb j hj hcovers' k hk
    · rw [mem_singleton.mp hb] at hcovers' ⊢
      rw [(hgroup j hj).mpr hcovers']
      exact hgroup k hk

theorem Represents.create (h : Represents before s)
    (hnew : ∀ a ∈ before, ¬Overlaps s.effects.length a row) :
    Represents (before ++ [row])
      { s with
        implicitTargetConditions := fun j =>
          if j < s.effects.length ∧ s.implicitTargetConditions j = none ∧
            row.sourceGroup.testBit j = true then some s.lists.length
          else s.implicitTargetConditions j
        lists := s.lists ++ [[row]] } := by
  have hnone : ∀ j < s.effects.length, Covers row j → s.implicitTargetConditions j = none :=
    fun j hj hcovers => h.unlisted j hj fun b hb hcovers' => hnew b hb ⟨j, hj, hcovers', hcovers⟩
  have hempty : ∀ j < s.effects.length, Covers row j → conditionsAt before j = [] := by
    intro j hj hcovers
    refine filter_eq_nil_iff.mpr fun b hb hcovers' => ?_
    exact hnew b hb ⟨j, hj, of_decide_eq_true hcovers', hcovers⟩
  have hrow : ∀ j < s.effects.length, (if j < s.effects.length ∧
      s.implicitTargetConditions j = none ∧ row.sourceGroup.testBit j = true then
        some s.lists.length else s.implicitTargetConditions j) =
      if Covers row j then some s.lists.length else s.implicitTargetConditions j := by
    intro j hj
    by_cases hcovers : Covers row j
    · rw [if_pos hcovers, if_pos ⟨hj, hnone j hj hcovers, hcovers⟩]
    · rw [if_neg hcovers, if_neg fun hall => hcovers hall.2.2]
  have hold : ∀ {j list}, j < s.effects.length → s.implicitTargetConditions j = some list →
      list < s.lists.length := by
    intro j list hj hlist
    obtain ⟨b, hb, hcovers⟩ := h.exists_covers hj hlist
    obtain ⟨other, hother, hcontent⟩ := h.listed j hj b hb hcovers
    rw [hlist, Option.some.injEq] at hother
    rw [hother]
    exact (List.getElem?_eq_some_iff.mp hcontent).1
  constructor
  · intro j hj hall
    have hcovers := hall row (by simp)
    dsimp only
    rw [hrow j hj, if_neg hcovers]
    exact h.unlisted j hj fun b hb => hall b (mem_append_left _ hb)
  · intro j hj b hb hcovers'
    dsimp only
    rw [hrow j hj, conditionsAt_append]
    by_cases hcovers : Covers row j
    · rw [if_pos hcovers, if_pos hcovers, hempty j hj hcovers]
      exact ⟨_, rfl, by simp⟩
    rw [if_neg hcovers, if_neg hcovers, append_nil]
    rcases mem_append.mp hb with hb | hb
    · obtain ⟨list, hlist, hcontent⟩ := h.listed j hj b hb hcovers'
      exact ⟨list, hlist, by rw [getElem?_append_left (hold hj hlist), hcontent]⟩
    · rw [mem_singleton.mp hb] at hcovers'
      exact absurd hcovers' hcovers
  · intro b hb j hj hcovers' k hk
    dsimp only
    rw [hrow j hj, hrow k hk]
    rcases mem_append.mp hb with hb | hb
    · have hnot : ∀ {m}, m < s.effects.length → Covers b m → ¬Covers row m :=
        fun hm hcovers hcovers' => hnew b hb ⟨_, hm, hcovers, hcovers'⟩
      rw [if_neg (hnot hj hcovers'), ← h.shared b hb j hj hcovers' k hk]
      by_cases hcovers : Covers row k
      · obtain ⟨list, hlist, -⟩ := h.listed j hj b hb hcovers'
        rw [if_pos hcovers, hnone k hk hcovers, hlist]
        refine iff_of_false (fun heq => ?_) nofun
        have hlt := hold hj hlist
        rw [← Option.some.inj heq] at hlt
        exact lt_irrefl _ hlt
      · rw [if_neg hcovers]
    · rw [mem_singleton.mp hb] at hcovers' ⊢
      rw [if_pos hcovers']
      by_cases hcovers : Covers row k
      · rw [if_pos hcovers]
        exact iff_of_true rfl hcovers
      · rw [if_neg hcovers]
        exact iff_of_false (fun heq => lt_irrefl _ (hold hk heq)) hcovers

section Run

variable (h : Represents before s) (hchecks : s.checks row = true) (hfirst : s.First row l)
include h hchecks hfirst

/-- A row whose first effect has none -/
theorem step_new (hlist : s.implicitTargetConditions l = none) :
    Represents (accept s.effects before row) (s.addToSpellImplicitTargetConditions row) ↔
      Fits s.effects.length before row := by
  rw [add_of_new hchecks hfirst hlist]
  by_cases hnew : ∀ a ∈ before, ¬Overlaps s.effects.length a row
  · have haccept : accept s.effects before row = before ++ [row] :=
      if_pos ⟨hchecks, fun a ha hoverlaps => absurd hoverlaps (hnew a ha)⟩
    rw [haccept]
    exact iff_of_true (h.create hnew) ⟨fun a ha hoverlaps => absurd hoverlaps (hnew a ha),
      fun a ha hoverlaps => absurd hoverlaps (hnew a ha)⟩
  · push Not at hnew
    obtain ⟨a, ha, hoverlaps⟩ := hnew
    obtain ⟨i, hi, hcovers, hsame⟩ := hfirst.touched
    have hnone : s.implicitTargetConditions i = none := hsame.trans hlist
    have hunlisted := (h.eq_none_iff hi).mp hnone
    have hdiffers : ¬SameMask s.effects.length a row :=
      fun heq => hunlisted a ha ((heq i hi).mpr hcovers)
    have haccept : accept s.effects before row = before :=
      if_neg fun hall => hdiffers (hall.2 a ha hoverlaps)
    rw [haccept]
    refine iff_of_false (fun hafter => ?_) fun hfits => ?_
    · have hstill := hafter.unlisted i hi hunlisted
      dsimp only at hstill
      rw [if_pos ⟨hi, hnone, hcovers⟩] at hstill
      cases hstill
    · rcases hfits.ignored a ha hoverlaps hdiffers with hall | ⟨b, hb, ⟨k, hk, hbk, hrow⟩, m, hm,
        hbm, hbefore⟩
      · obtain ⟨b, hb, hlisted⟩ := hall i hi hcovers
        exact hunlisted b hb hlisted
      · -- The list of that mask is touched before.
        have hshared := (h.shared b hb k hk hbk m hm).mpr hbm
        rcases Nat.lt_trichotomy m l with hlt | rfl | hlt
        · exact hfirst.first k hk hrow m hlt hshared
        · exact (h.eq_none_iff hm).mp hlist b hb hbm
        · obtain ⟨c, hc, hcl⟩ := hbefore l hlt
          exact (h.eq_none_iff hfirst.lt).mp hlist c hc hcl

/-- A row whose first effect has a list -/
theorem step_listed (hlist : s.implicitTargetConditions l = some list) :
    Represents (accept s.effects before row) (s.addToSpellImplicitTargetConditions row) ↔
      Fits s.effects.length before row := by
  obtain ⟨i, hi, hcovers, hsame⟩ := hfirst.touched
  have hlist' : s.implicitTargetConditions i = some list := hsame.trans hlist
  obtain ⟨a, ha, hcovers'⟩ := h.exists_covers hi hlist'
  have hgroup : ∀ j < s.effects.length, s.implicitTargetConditions j = some list ↔ Covers a j := by
    intro j hj
    rw [← hlist']
    exact h.shared a ha i hi hcovers' j hj
  by_cases heq : SameMask s.effects.length a row
  · have hall : ∀ b ∈ before, Overlaps s.effects.length b row →
        SameMask s.effects.length b row := by
      rintro b hb ⟨k, hk, hbk, hrow⟩ j hj
      rw [← h.shared b hb k hk hbk j hj, ← heq j hj, h.shared a ha k hk ((heq k hk).mpr hrow) j hj]
    have haccept : accept s.effects before row = before ++ [row] := if_pos ⟨hchecks, hall⟩
    rw [haccept]
    have hexact : s.Exact row list ↔ row.sourceGroup < 2 ^ s.effects.length := by
      constructor
      · exact fun hexact => Nat.lt_pow_two_of_testBit _ fun j hj =>
          Bool.eq_false_iff.mpr fun hbit => absurd ((hexact j).mp hbit).1 (not_lt.mpr hj)
      · intro hlt j
        constructor
        · intro hbit
          have hj : j < s.effects.length := by
            by_contra hge
            rw [Nat.testBit_lt_two_pow (lt_of_lt_of_le hlt
              (Nat.pow_le_pow_right (by decide) (not_lt.mp hge)))] at hbit
            cases hbit
          exact ⟨hj, (hgroup j hj).mpr ((heq j hj).mpr hbit)⟩
        · rintro ⟨hj, hlisted⟩
          exact (heq j hj).mp ((hgroup j hj).mp hlisted)
    by_cases hbits : row.sourceGroup < 2 ^ s.effects.length
    · rw [add_of_exact hchecks hfirst hlist (hexact.mpr hbits)]
      exact iff_of_true (h.push ha heq hi hcovers hlist') ⟨fun _ _ _ _ => hbits,
        fun b hb hoverlaps hdiffers => absurd (hall b hb hoverlaps) hdiffers⟩
    · rw [add_of_not_exact hchecks hfirst hlist fun hall => hbits (hexact.mp hall)]
      refine iff_of_false (fun hafter => ?_) fun hfits =>
        hbits (hfits.exact a ha ⟨i, hi, hcovers', hcovers⟩ heq)
      -- The list of the effect has no condition more.
      obtain ⟨other, hother, hcontent⟩ := h.listed i hi a ha hcovers'
      obtain ⟨other', hother', hcontent'⟩ := hafter.listed i hi row (by simp) hcovers
      rw [hother, Option.some.injEq] at hother'
      rw [← hother', hcontent, conditionsAt_append, if_pos (show Covers row i from hcovers),
        Option.some.injEq] at hcontent'
      simp at hcontent'
  · have haccept : accept s.effects before row = before :=
      if_neg fun hall => heq (hall.2 a ha ⟨i, hi, hcovers', hcovers⟩)
    have hnot : ¬s.Exact row list := by
      refine fun hexact => heq fun j hj => ?_
      rw [← hgroup j hj]
      exact ⟨fun hlisted => (hexact j).mpr ⟨hj, hlisted⟩, fun hrow => ((hexact j).mp hrow).2⟩
    rw [haccept, add_of_not_exact hchecks hfirst hlist hnot]
    refine iff_of_true h ⟨fun b hb ⟨k, hk, hbk, hrow⟩ hsame' => absurd ?_ heq,
      fun _ _ _ _ => ?_⟩
    · -- Both masks have the effect.
      have hbi := (hsame' i hi).mpr hcovers
      intro j hj
      rw [← hsame' j hj, ← h.shared b hb i hi hbi j hj, hlist', hgroup j hj]
    · by_cases hall : ∀ j < s.effects.length, Covers row j → ∃ b ∈ before, Covers b j
      · exact .inl hall
      · push Not at hall
        obtain ⟨k, hk, hrow, hunlisted⟩ := hall
        refine .inr ⟨a, ha, ⟨i, hi, hcovers', hcovers⟩, l, hfirst.lt,
          (hgroup l hfirst.lt).mp hlist, fun j hj => ?_⟩
        have hne := hfirst.first k hk hrow j hj
        rw [h.unlisted k hk hunlisted] at hne
        obtain ⟨other, hother⟩ := Option.ne_none_iff_exists'.mp hne
        exact h.exists_covers (hj.trans hfirst.lt) hother

omit hchecks hfirst

theorem step_iff : Represents (accept s.effects before row)
    (s.addToSpellImplicitTargetConditions row) ↔
      (s.checks row = true → Fits s.effects.length before row) := by
  by_cases hchecks : s.checks row = true
  · rw [forall_prop_of_true hchecks]
    by_cases hnone : ∀ i < s.effects.length, ¬Covers row i
    · have hnew : ∀ a ∈ before, ¬Overlaps s.effects.length a row :=
        fun a _ ⟨i, hi, _, hcovers⟩ => hnone i hi hcovers
      have haccept : accept s.effects before row = before ++ [row] :=
        if_pos ⟨hchecks, fun a ha hoverlaps => absurd hoverlaps (hnew a ha)⟩
      rw [haccept, add_of_none fun i hi => Bool.eq_false_iff.mpr (hnone i hi)]
      exact iff_of_true (h.append_none hnone) ⟨fun a ha hoverlaps => absurd hoverlaps (hnew a ha),
        fun a ha hoverlaps => absurd hoverlaps (hnew a ha)⟩
    · push Not at hnone
      obtain ⟨i, hi, hcovers⟩ := hnone
      obtain ⟨l, hfirst⟩ := exists_first hi hcovers
      cases hlist : s.implicitTargetConditions l with
      | none => exact step_new h hchecks hfirst hlist
      | some list => exact step_listed h hchecks hfirst hlist
  · have haccept : accept s.effects before row = before := if_neg fun hall => hchecks hall.1
    have hadd : s.addToSpellImplicitTargetConditions row = s := if_neg hchecks
    rw [haccept, hadd]
    exact iff_of_true h fun hpasses => absurd hpasses hchecks

end Run

theorem represents_start : Represents [] { effects } :=
  ⟨fun _ _ _ => rfl, fun _ _ _ h => absurd h not_mem_nil,
    fun _ h => absurd h not_mem_nil⟩

theorem effects_add : (s.addToSpellImplicitTargetConditions row).effects = s.effects := by
  unfold SpellInfo.addToSpellImplicitTargetConditions
  split
  · split
    · unfold SpellInfo.addToMask
      dsimp only
      repeat' split
      all_goals rfl
    · rfl
  · rfl

theorem effects_run : (run effects rows).effects = effects := by
  induction rows using reverseRecOn with
  | nil => rfl
  | append_singleton rows row ih =>
    rw [run, foldl_append]
    exact effects_add.trans ih

theorem run_append : run effects (rows ++ [row]) =
    (run effects rows).addToSpellImplicitTargetConditions row := by
  rw [run, foldl_append]
  rfl

theorem accepted_append : accepted effects (rows ++ [row]) =
    accept effects (accepted effects rows) row := by
  rw [accepted, foldl_append]
  rfl

theorem run_step_iff (h : Represents (accepted effects rows) (run effects rows)) :
    Represents (accepted effects (rows ++ [row])) (run effects (rows ++ [row])) ↔
      (SpellInfo.checks { effects } row = true →
        Fits effects.length (accepted effects rows) row) := by
  have hstep : Represents (accept (run effects rows).effects (accepted effects rows) row)
      ((run effects rows).addToSpellImplicitTargetConditions row) ↔ _ := step_iff h
  have hchecks : (run effects rows).checks row = checks { effects } row := by
    rw [checks, effects_run]
    rfl
  rw [hchecks, effects_run] at hstep
  rw [accepted_append, run_append]
  exact hstep

theorem accepted_eq (hchecks : ∀ row ∈ rows, SpellInfo.checks { effects } row = true)
    (hmasks : rows.Pairwise fun a c =>
      Overlaps effects.length a c → SameMask effects.length a c) :
    accepted effects rows = rows := by
  induction rows using reverseRecOn with
  | nil => rfl
  | append_singleton rows row ih =>
    obtain ⟨hrows, -, hrow⟩ := pairwise_append.mp hmasks
    rw [accepted_append, ih (fun c hc => hchecks c (mem_append_left _ hc)) hrows]
    exact if_pos ⟨hchecks row (by simp), fun a ha => hrow a ha row (by simp)⟩

/-- After each row of a run the effects have the lists of the rows that are to be accepted, if and
only if each row is treated as it should be; and rows whose masks are equal or disjoint are all to
be accepted. -/
theorem implicit_target_lists (effects : List SpellEffectInfo) (rows : List Condition) :
    ((∀ fed, fed <+: rows → Represents (accepted effects fed) (run effects fed)) ↔
      ∀ before row, before ++ [row] <+: rows → SpellInfo.checks { effects } row = true →
        Fits effects.length (accepted effects before) row) ∧
      ((∀ row ∈ rows, SpellInfo.checks { effects } row = true) →
        (rows.Pairwise fun a c => Overlaps effects.length a c → SameMask effects.length a c) →
          accepted effects rows = rows) := by
  refine ⟨⟨fun h before row hfed => ?_, fun h fed => ?_⟩, accepted_eq⟩
  · exact (run_step_iff (h before ((prefix_append _ _).trans hfed))).mp (h _ hfed)
  · induction fed using reverseRecOn with
    | nil => exact fun _ => represents_start
    | append_singleton fed row ih =>
      exact fun hfed => (run_step_iff (ih ((prefix_append _ _).trans hfed))).mpr (h fed row hfed)

def unitEffect : SpellEffectInfo := ⟨.unit, .none⟩

def masked (mask elseGroup : Nat) : Condition :=
  { sourceType := .spellImplicitTarget, sourceGroup := mask, elseGroup, conditionType := .alive }

/-- The second row with a bit beyond the two effects is lost; and a row that overlaps the effects 1
and 2 gives a list to the effect 0. -/
theorem lists_differ :
    (¬∀ effects rows, (∀ row ∈ rows, SpellInfo.checks { effects } row = true) →
      (rows.Pairwise fun a c => Overlaps effects.length a c → SameMask effects.length a c) →
        Represents rows (run effects rows)) ∧
      ¬∀ effects rows, Represents (accepted effects rows) (run effects rows) := by
  constructor
  · intro h
    have hrepresents := h [unitEffect, unitEffect] [masked 5 0, masked 5 1] (by decide) (by decide)
    obtain ⟨list, hlist, hcontent⟩ := hrepresents.listed 0 (by decide) (masked 5 0) (by simp)
      (by decide)
    have hzero : list = 0 := by
      have hrun : (run [unitEffect, unitEffect]
        [masked 5 0, masked 5 1]).implicitTargetConditions 0 = some 0 := by decide
      rw [hrun, Option.some.injEq] at hlist
      exact hlist.symm
    rw [hzero] at hcontent
    revert hcontent
    decide
  · intro h
    have hrepresents := h [unitEffect, unitEffect, unitEffect] [masked 6 0, masked 3 0]
    have hnone := hrepresents.unlisted 0 (by decide) (by decide)
    revert hnone
    decide

end LegionServer.Guarantees.ImplicitTargetLists
