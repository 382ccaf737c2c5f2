import LegionServer.Source.Looting.TemplateEffects
import Mathlib.Data.List.Induction

/-!
# What personal loot consists of

`LootTemplate::ProcessPersonalLoot` chooses a looter and then what the looter gets. Entries
and references ask the chosen looter again; the groups of the template itself do not.
-/
namespace LegionServer.Guarantees.PersonalLoot
open Library Source Source.LootTemplates List

variable {P F : Type} [Chance F] [DecidableEq P] {stuck : Prop} {world : LootWorld P F}
  {looters : List P} {rate : Bool} {lootMode : UInt16} {depth : Nat}

section Entries

omit [DecidableEq P] in
theorem getLootersForItem_eq_none {predicate : P → Option Bool}
    (h : getLootersForItem predicate looters = none) : ∃ looter, predicate looter = none := by
  induction looters with
  | nil => cases h
  | cons looter rest ih =>
    unfold getLootersForItem at h
    cases hcan : predicate looter with
    | none => exact ⟨looter, hcan⟩
    | some canLoot =>
      cases hrest : getLootersForItem predicate rest with
      | none => exact ih hrest
      | some others =>
        rw [hcan, hrest] at h
        cases h

theorem always_referenceRound {groupId : Nat} {referenced : LootTemplate P F}
    (hends : ReferencesEnd world stuck depth groupId referenced) (rounds : ReferenceRounds P F) :
    Always stuck (referenceRound world looters rate lootMode depth referenced groupId rounds)
      fun rounds' => Added (Usable world lootMode) rounds.loots rounds'.loots := by
  unfold referenceRound
  split
  · exact Always.pure (Added.refl _ _)
  have hlooters : Always stuck (ofOption (getLootersForItem
      (fun looter => hasDropForPlayer world looter true depth referenced groupId) looters) :
      Rolls F (List P)) fun _ => True := by
    refine Always.ofOption (fun hnone => ?_) fun _ _ => trivial
    obtain ⟨looter, hdrop⟩ := getLootersForItem_eq_none hnone
    exact hasDropForPlayer_returns world looter true hends hdrop
  refine hlooters.bind fun lootersForItem _ => ?_
  split
  · exact Always.pure (Added.refl _ _)
  rename_i hsome
  extract_lets newLooters
  have hchoice : (if newLooters.isEmpty then lootersForItem else newLooters) ≠ [] := by
    split
    · exact fun hnil => hsome (isEmpty_iff.mpr hnil)
    · rename_i hnew
      exact fun hnil => hnew (isEmpty_iff.mpr hnil)
  refine (always_select hchoice).bind fun chosenLooter _ => ?_
  exact (always_process hends rounds.loots).bind fun loots hadded => Always.pure hadded

theorem always_processPersonalEntry {item : LootStoreItem P F}
    (hends : 0 < item.reference → ∀ referenced, world.getLootFor item.reference = some referenced →
        ReferencesEnd world stuck depth item.groupid referenced)
    (loots : PersonalLoot P F) :
    Always stuck (processPersonalEntry world looters rate lootMode depth loots item)
      (Added (Usable world lootMode) loots) := by
  unfold processPersonalEntry
  split
  · exact Always.pure (Added.refl _ loots)
  rename_i hmode
  refine (always_roll world rate item).bind fun taken _ => ?_
  split
  · exact Always.pure (Added.refl _ loots)
  split
  · rename_i hreference
    split
    · exact Always.pure (Added.refl _ loots)
    rename_i referenced hlootFor
    refine Always.bind (Always.foldlM
      (fun rounds : ReferenceRounds P F => Added (Usable world lootMode) loots rounds.loots)
      (range (world.referencedAmount item.maxcount)) (fun _ _ rounds hadded => ?_)
      (Added.refl _ loots)) fun rounds hadded => Always.pure hadded
    exact (always_referenceRound (hends hreference referenced hlootFor) rounds).mono
      fun _ hround => hadded.trans hround
  · extract_lets lootersForItem
    split
    · exact Always.pure (Added.refl _ loots)
    · rename_i hsome
      have hchoice : lootersForItem ≠ [] := fun hnil => hsome (isEmpty_iff.mpr hnil)
      refine (always_select hchoice).bind fun chosenLooter hchosen => ?_
      exact always_addItem world fun _ _ => ⟨hmode, (mem_filter.mp hchosen).2⟩

end Entries

section Groups

variable (world : LootWorld P F) (looters : List P) (rate : Bool) (lootMode : UInt16) (depth : Nat)
  (template : LootTemplate P F) (loots : PersonalLoot P F)

def processedUpTo (before : List (LootGroup P F)) : Rolls F (PersonalLoot P F) :=
  processPersonalLoot world looters rate lootMode depth
    { template with groups := before.map some } loots

/-- Whatever is drawn, what is added to a looter's loot is in the mode, and the looter may have
it, strictly. -/
def OnlyUsable : Prop :=
  ∀ s loots' rest, (processPersonalLoot world looters rate lootMode depth template loots).run s =
      some (loots', rest) → Added (Usable world lootMode) loots loots'

/-- A looter may have, strictly, what a group can roll, where the group has a drop for the looter
and finds room in the looter's loot. -/
def GroupsSuit : Prop :=
  ∀ before group after, template.groups.reduceOption = before ++ group :: after →
    ∀ looter ∈ looters, group.hasDropForPlayer world looter true →
      ∀ reached, Possible (processedUpTo world looters rate lootMode depth template loots before)
        reached → (reached looter).length < Looting.MAX_NR_LOOT_ITEMS →
      ∀ item, CanRoll world lootMode none group item → (world.itemTemplate item.itemid).isSome →
        world.allows looter true item

theorem processedUpTo_eq (before : List (LootGroup P F)) :
    processedUpTo world looters rate lootMode depth template loots before =
      template.entries.foldlM (processPersonalEntry world looters rate lootMode depth) loots >>=
        before.foldlM (processPersonalGroup world looters lootMode) := by
  have hgroups : (before.map some).reduceOption = before := by
    rw [reduceOption, filterMap_map]
    exact filterMap_some
  unfold processedUpTo processPersonalLoot
  rw [hgroups]

theorem processedUpTo_append (before after : List (LootGroup P F)) :
    processedUpTo world looters rate lootMode depth template loots (before ++ after) =
      processedUpTo world looters rate lootMode depth template loots before >>=
        after.foldlM (processPersonalGroup world looters lootMode) := by
  rw [processedUpTo_eq, processedUpTo_eq, bind_assoc]
  congr 1
  funext middle
  exact foldlM_append

theorem processPersonalLoot_eq :
    processPersonalLoot world looters rate lootMode depth template loots =
      processedUpTo world looters rate lootMode depth template loots
        template.groups.reduceOption := by
  rw [processedUpTo_eq]
  rfl

theorem always_processPersonalGroup {ok : P → LootStoreItem P F → Prop} {group : LootGroup P F}
    {loots : PersonalLoot P F}
    (hok : ∀ looter ∈ looters, group.hasDropForPlayer world looter true →
      (loots looter).length < Looting.MAX_NR_LOOT_ITEMS →
      ∀ item, CanRoll world lootMode none group item → (world.itemTemplate item.itemid).isSome →
        ok looter item) :
    Always stuck (processPersonalGroup world looters lootMode loots group) (Added ok loots) := by
  unfold processPersonalGroup
  extract_lets lootersForGroup
  split
  · exact Always.pure (Added.refl ok loots)
  rename_i hsome
  have hchoice : lootersForGroup ≠ [] := fun hnil => hsome (isEmpty_iff.mpr hnil)
  refine (always_select hchoice).bind fun chosenLooter hchosen => always_groupProcess ?_
  obtain ⟨hlooter, hdrop⟩ := mem_filter.mp hchosen
  exact fun item hroll hproto hroom => hok chosenLooter hlooter hdrop hroom item hroll hproto

theorem possible_processPersonalGroup {group : LootGroup P F} {loots : PersonalLoot P F}
    {looter : P} (hlooter : looter ∈ looters) (hdrop : group.hasDropForPlayer world looter true)
    (hroom : (loots looter).length < Looting.MAX_NR_LOOT_ITEMS) {item : LootStoreItem P F}
    (hroll : CanRoll world lootMode none group item)
    (hproto : (world.itemTemplate item.itemid).isSome) :
    ∃ loots' stack added,
      Possible (processPersonalGroup world looters lootMode loots group) loots' ∧
      stack.1 = item ∧ loots' looter = loots looter ++ stack :: added := by
  obtain ⟨loots', stack, added, hadd, hstack, heq⟩ := possible_addItem world hproto hroom
  refine ⟨loots', stack, added, ?_, hstack, heq⟩
  unfold processPersonalGroup
  extract_lets lootersForGroup
  have hmem : looter ∈ lootersForGroup := mem_filter.mpr ⟨hlooter, hdrop⟩
  split
  · rename_i hempty
    rw [isEmpty_iff.mp hempty] at hmem
    exact absurd hmem not_mem_nil
  · exact (possible_select hmem).bind ((possible_groupRoll hroll).bind hadd)

/-- The whole run returns where the references end, and the loots only grow. -/
theorem always_processPersonalLoot (hends : ReferencesEnd world stuck (depth + 1) 0 template) :
    Always stuck (processPersonalLoot world looters rate lootMode depth template loots)
      (Added (fun _ _ => True) loots) := by
  refine always_seq (always_rounds _ (fun item hitem loots => ?_) loots)
    fun middle => always_rounds _ (fun group _ loots => ?_) middle
  · exact (always_processPersonalEntry fun hreference => hends rfl item hitem hreference) loots
      |>.mono fun _ hadded => hadded.mono fun _ _ _ => trivial
  · exact always_processPersonalGroup world looters lootMode fun _ _ _ _ _ _ _ => trivial

theorem always_processedUpTo (hends : ReferencesEnd world stuck (depth + 1) 0 template)
    (hsuit : GroupsSuit world looters rate lootMode depth template loots)
    (before : List (LootGroup P F)) (hbefore : before <+: template.groups.reduceOption) :
    Always stuck (processedUpTo world looters rate lootMode depth template loots before)
      (Added (Usable world lootMode) loots) := by
  induction before using reverseRecOn with
  | nil =>
    refine always_seq (always_rounds _ (fun item hitem => ?_) loots)
      fun middle => Always.pure (Added.refl _ middle)
    exact always_processPersonalEntry fun hreference => hends rfl item hitem hreference
  | append_singleton before group ih =>
    obtain ⟨after, hafter⟩ := hbefore
    rw [append_assoc, singleton_append] at hafter
    rw [processedUpTo_append]
    refine (ih ⟨_, hafter⟩).bind_possible fun middle hpossible hmiddle => ?_
    have hgroup : Always stuck (processPersonalGroup world looters lootMode middle group)
        (Added (Usable world lootMode) middle) := by
      apply always_processPersonalGroup
      intro looter hlooter hdrop hroom item hroll hproto
      have hmode := ((valid_iff world lootMode none item).mp hroll.valid).1
      exact ⟨hmode, hsuit before group after hafter.symm looter hlooter hdrop middle hpossible
        hroom item hroll hproto⟩
    exact hgroup.bind fun last hlast => Always.pure (hmiddle.trans hlast)

theorem onlyUsable_of_suit (hsuit : GroupsSuit world looters rate lootMode depth template loots) :
    OnlyUsable world looters rate lootMode depth template loots := by
  intro s loots' rest hrun
  rw [processPersonalLoot_eq] at hrun
  exact (always_processedUpTo world looters rate lootMode depth template loots
    (referencesEnd_of_stuck world trivial _ _ _) hsuit _ (prefix_refl _)).post_of_run hrun

theorem suit_of_onlyUsable (honly : OnlyUsable world looters rate lootMode depth template loots) :
    GroupsSuit world looters rate lootMode depth template loots := by
  intro before group after hsplit looter hlooter hdrop reached hreached hroom item hroll hproto
  obtain ⟨loots', stack, added, hgroup, hstack, heq⟩ :=
    possible_processPersonalGroup world looters lootMode hlooter hdrop hroom hroll hproto
  have hafter : Always False (after.foldlM (processPersonalGroup world looters lootMode) loots')
      (Added (fun _ _ => True) loots') := always_rounds _ (fun group _ loots =>
    always_processPersonalGroup world looters lootMode fun _ _ _ _ _ _ _ => trivial) loots'
  obtain ⟨last, hlast, hgrown⟩ := hafter.exists_possible
  have hrun : Possible (processPersonalLoot world looters rate lootMode depth template loots)
      last := by
    rw [processPersonalLoot_eq, hsplit, processedUpTo_append]
    exact hreached.bind (Possible.cons hgroup hlast)
  -- Both the run and its part up to the group only add to the loot of the looter.
  obtain ⟨s, hs⟩ := hrun fun _ => default
  obtain ⟨all, hall, husable⟩ := honly s last _ hs looter
  have hfirst := always_processPersonalLoot world looters rate lootMode depth
    { template with groups := before.map some } loots (referencesEnd_of_stuck world trivial _ _ _)
  obtain ⟨earlier, hearlier, _⟩ := hfirst.post_of_possible hreached looter
  obtain ⟨later, hlater, _⟩ := hgrown looter
  have hmem : stack ∈ all := by
    rw [hall, heq, hearlier, append_assoc, append_assoc] at hlater
    rw [append_cancel_left hlater]
    exact mem_append_right _ (mem_append_left _ mem_cons_self)
  rw [← hstack]
  exact (husable stack hmem).2

/-- Personal loot is usable exactly where the groups of the template suit whom they choose. -/
theorem personal_loot_usable_iff :
    (OnlyUsable world looters rate lootMode depth template loots ↔
      GroupsSuit world looters rate lootMode depth template loots) ∧
    (ReferencesEnd world False (depth + 1) 0 template → ∀ s, ∃ loots' rest,
      (processPersonalLoot world looters rate lootMode depth template loots).run s =
        some (loots', rest)) := by
  refine ⟨⟨suit_of_onlyUsable world looters rate lootMode depth template loots,
    onlyUsable_of_suit world looters rate lootMode depth template loots⟩, ?_⟩
  intro hends s
  obtain ⟨loots', rest, hrun, _⟩ :=
    (always_processPersonalLoot world looters rate lootMode depth template loots hends).total s
  exact ⟨loots', rest, hrun⟩

end Groups

def factionGroup : LootGroup Unit Int where
  equalChanced :=
    [{ itemid := 1, chance := 0, groupid := 1 }, { itemid := 2, chance := 0, groupid := 1 }]

def factionWorld : LootWorld Unit Int where
  itemTemplate := fun itemid => some { factionHorde := itemid = 2 }
  getLootFor := fun _ => some { groups := [some factionGroup] }
  rateReferenced := 1
  rateQuality := fun _ => 1

/-- A reference to the group processes it for the player. -/
theorem personal_loot_usable_reference :
    OnlyUsable factionWorld [()] true 1 1
      { entries := [{ itemid := 7, reference := 7, chance := 100, groupid := 1 }] } (fun _ => []) ∧
    ∀ s, ∃ loots' rest, (processPersonalLoot factionWorld [()] true 1 1
      { entries := [{ itemid := 7, reference := 7, chance := 100, groupid := 1 }] }
        fun _ => []).run s = some (loots', rest) := by
  obtain ⟨honly, hreturns⟩ := personal_loot_usable_iff factionWorld [()] true 1 1
    { entries := [{ itemid := 7, reference := 7, chance := 100, groupid := 1 }] } fun _ => []
  refine ⟨honly.mpr fun before group after hsplit => ?_, hreturns fun _ item hitem _ => ?_⟩
  · exact absurd hsplit.symm (append_ne_nil_of_right_ne_nil _ (cons_ne_nil _ _))
  · rw [mem_singleton.mp hitem]
    exact fun _ _ hzero => absurd hzero Nat.one_ne_zero

/-- The group itself has a drop for the player, who gets the second item. -/
theorem personal_loot_not_usable :
    ¬ OnlyUsable factionWorld [()] true 1 1 { groups := [some factionGroup] } fun _ => [] := by
  intro honly
  have hrun : ((processPersonalLoot factionWorld [()] true 1 1
      { groups := [some factionGroup] } fun _ => []).run (Stream'.const (default, 1))).map
        (fun result => (result.1 ()).all fun stack => factionWorld.allows () true stack.1) =
          some false := by decide
  obtain ⟨⟨loots', rest⟩, hresult, hall⟩ := Option.map_eq_some_iff.mp hrun
  obtain ⟨added, hadded, husable⟩ := honly _ loots' rest hresult ()
  have htrue : (loots' ()).all (fun stack => factionWorld.allows () true stack.1) = true := by
    rw [hadded]
    exact all_eq_true.mpr fun stack hmem => (husable stack hmem).2
  rw [htrue] at hall
  cases hall

end LegionServer.Guarantees.PersonalLoot
