import LegionServer.Source.Looting.LootTemplates
import Mathlib.Data.List.ReduceOption

/-!
# What processing a loot template adds

Whatever is drawn, a loot only grows, and by entries that pass the selector with which they
were rolled. Where a template is processed for a looter, that is what the looter may have.
-/
namespace LegionServer.Source.LootTemplates
open Library List Function

variable {P F : Type} [Chance F] {stuck : Prop}

theorem always_randChance : Always stuck (randChance : Rolls F F)
    fun roll => ∃ outcome : RandChance F, outcome.value = roll :=
  Always.draw.bind fun outcome _ => Always.pure ⟨outcome.1, rfl⟩

theorem possible_randChance (outcome : RandChance F) :
    Possible (randChance : Rolls F F) outcome.value :=
  (Possible.draw (outcome, 0)).bind (Possible.pure _)

theorem always_urand (min max : Nat) :
    Always stuck (urand min max : Rolls F Nat) fun i => min ≤ i ∧ i ≤ min + (max - min) :=
  Always.draw.bind fun outcome _ => Always.pure (by
    have hmod : outcome.2 % (max - min + 1) < max - min + 1 := Nat.mod_lt _ (Nat.succ_pos _)
    omega)

theorem possible_urand {min max i : Nat} (hmin : min ≤ i) (hmax : i ≤ min + (max - min)) :
    Possible (urand min max : Rolls F Nat) i := by
  refine (Possible.draw ((default : RandChance F), i - min)).bind ?_
  have hmod : min + (i - min) % (max - min + 1) = i := by
    rw [Nat.mod_eq_of_lt (by omega)]
    omega
  rw [hmod]
  exact Possible.pure i

theorem always_select {α : Type} {container : List α} (h : container ≠ []) :
    Always stuck (selectRandomContainerElement container : Rolls F α) (· ∈ container) := by
  refine (always_urand 0 (container.length - 1)).bind fun i hi => ?_
  have hlength := length_pos_iff.mpr h
  have hlt : i < container.length := by omega
  apply Always.ofOption
  · intro hnone
    rw [getElem?_eq_getElem hlt] at hnone
    cases hnone
  · exact fun a ha => mem_of_getElem? ha

theorem possible_select {α : Type} {container : List α} {a : α} (h : a ∈ container) :
    Possible (selectRandomContainerElement container : Rolls F α) a := by
  obtain ⟨i, hi, heq⟩ := getElem_of_mem h
  refine (possible_urand (Nat.zero_le i) (by omega)).bind (Possible.ofOption ?_)
  rw [getElem?_eq_getElem hi, heq]

theorem always_rollChance (chance : F) :
    Always stuck (rollChance chance : Rolls F Bool) fun _ => True :=
  always_randChance.bind fun _ _ => Always.pure trivial

theorem always_roll (world : LootWorld P F) (rate : Bool) (item : LootStoreItem P F) :
    Always stuck (item.roll world rate) fun _ => True := by
  unfold LootStoreItem.roll
  split
  · exact Always.pure trivial
  · split
    · exact always_rollChance _
    · exact always_rollChance _

section Usable

omit [Chance F]

variable (world : LootWorld P F) (lootMode : UInt16)

/-- The entry is in the mode and the looter may have it, strictly. -/
def Usable (looter : P) (item : LootStoreItem P F) : Prop :=
  item.lootmode &&& lootMode ≠ 0 ∧ world.allows looter true item = true

theorem valid_iff (personalLooter : Option P) (item : LootStoreItem P F) :
    world.invalidSelector lootMode personalLooter item = false ↔ item.lootmode &&& lootMode ≠ 0 ∧
        ∀ looter, personalLooter = some looter → world.allows looter true item = true := by
  unfold LootWorld.invalidSelector
  split
  · rename_i hmode
    exact ⟨fun hfalse => (nomatch hfalse), fun hvalid => absurd hmode hvalid.1⟩
  rename_i hmode
  cases personalLooter with
  | none => exact ⟨fun _ => ⟨hmode, fun looter hsome => (nomatch hsome)⟩, fun _ => rfl⟩
  | some looter =>
    rw [Bool.not_eq_false']
    exact ⟨fun hallowed => ⟨hmode, fun other hother => by
        rw [← Option.some.inj hother]
        exact hallowed⟩,
      fun hvalid => hvalid.2 looter rfl⟩

end Usable

section Rolls

variable (world : LootWorld P F) (lootMode : UInt16) (personalLooter : Option P)
  (group : LootGroup P F)

def possibleLoot (list : List (LootStoreItem P F)) : List (LootStoreItem P F) :=
  list.filter fun item => !world.invalidSelector lootMode personalLooter item

/-- Some outcome of the roll picks the entry, or picks none and the entry has no chance of its
own. -/
def CanRoll (item : LootStoreItem P F) : Prop :=
  (∃ outcome : RandChance F, pickChanced outcome.value
    (possibleLoot world lootMode personalLooter group.explicitlyChanced) = some item) ∨
  ((∃ outcome : RandChance F, pickChanced outcome.value
    (possibleLoot world lootMode personalLooter group.explicitlyChanced) = none) ∧
    item ∈ possibleLoot world lootMode personalLooter group.equalChanced)

variable {item : LootStoreItem P F}

theorem mem_of_pickChanced {roll : F} {list : List (LootStoreItem P F)}
    (h : pickChanced roll list = some item) : item ∈ list := by
  induction list generalizing roll with
  | nil => cases h
  | cons first rest ih =>
    unfold pickChanced at h
    split at h
    · rw [Option.some.inj h]
      exact mem_cons_self
    · split at h
      · rw [Option.some.inj h]
        exact mem_cons_self
      · exact mem_cons_of_mem _ (ih h)

variable {world lootMode personalLooter group}

theorem CanRoll.valid (h : CanRoll world lootMode personalLooter group item) :
    world.invalidSelector lootMode personalLooter item = false := by
  have hmem : ∃ list, item ∈ possibleLoot world lootMode personalLooter list := by
    rcases h with ⟨_, hpick⟩ | ⟨_, hmem⟩
    · exact ⟨_, mem_of_pickChanced hpick⟩
    · exact ⟨_, hmem⟩
  obtain ⟨list, hmem⟩ := hmem
  have hvalid := (mem_filter.mp hmem).2
  rw [Bool.not_eq_true'] at hvalid
  exact hvalid

theorem CanRoll.usable {looter : P} (h : CanRoll world lootMode (some looter) group item) :
    Usable world lootMode looter item := by
  obtain ⟨hmode, hallowed⟩ := (valid_iff world lootMode (some looter) item).mp h.valid
  exact ⟨hmode, hallowed looter rfl⟩

theorem always_rollExplicit :
    Always stuck (group.rollExplicit world lootMode personalLooter) fun picked =>
      ∃ outcome : RandChance F, pickChanced outcome.value
        (possibleLoot world lootMode personalLooter group.explicitlyChanced) = picked := by
  unfold LootGroup.rollExplicit
  extract_lets possible
  split
  · rename_i hempty
    have hnil : possibleLoot world lootMode personalLooter group.explicitlyChanced = [] :=
      isEmpty_iff.mp hempty
    exact Always.pure ⟨default, by rw [hnil]; rfl⟩
  · exact always_randChance.bind fun roll ⟨outcome, houtcome⟩ =>
      Always.pure ⟨outcome, by rw [houtcome]; rfl⟩

theorem possible_rollExplicit (world : LootWorld P F) (lootMode : UInt16)
    (personalLooter : Option P) (group : LootGroup P F) (outcome : RandChance F) :
    Possible (group.rollExplicit world lootMode personalLooter) (pickChanced outcome.value
      (possibleLoot world lootMode personalLooter group.explicitlyChanced)) := by
  unfold LootGroup.rollExplicit
  extract_lets possible
  split
  · rename_i hempty
    have hnil : possibleLoot world lootMode personalLooter group.explicitlyChanced = [] :=
      isEmpty_iff.mp hempty
    rw [hnil]
    exact Possible.pure none
  · exact (possible_randChance outcome).bind (Possible.pure _)

theorem always_groupRoll :
    Always stuck (group.roll world lootMode personalLooter) fun rolled =>
      ∀ item, rolled = some item → CanRoll world lootMode personalLooter group item := by
  refine always_rollExplicit.bind fun picked hpicked => ?_
  cases picked with
  | some item =>
    exact Always.pure fun other hother => .inl (by rw [← hother]; exact hpicked)
  | none =>
    change Always stuck (group.rollEqual world lootMode personalLooter) _
    unfold LootGroup.rollEqual
    extract_lets possible
    split
    · exact Always.pure fun item hnone => (nomatch hnone)
    · rename_i hsome
      have hne : possible ≠ [] := fun hnil => hsome (isEmpty_iff.mpr hnil)
      exact (always_select hne).bind fun item hmem =>
        Always.pure fun other hother => .inr ⟨hpicked, by rw [← Option.some.inj hother]; exact hmem⟩

theorem possible_groupRoll (h : CanRoll world lootMode personalLooter group item) :
    Possible (group.roll world lootMode personalLooter) (some item) := by
  rcases h with ⟨outcome, hpick⟩ | ⟨⟨outcome, hpick⟩, hmem⟩
  · have hexplicit := possible_rollExplicit world lootMode personalLooter group outcome
    rw [hpick] at hexplicit
    exact hexplicit.bind (Possible.pure _)
  · have hexplicit := possible_rollExplicit world lootMode personalLooter group outcome
    rw [hpick] at hexplicit
    refine hexplicit.bind ?_
    change Possible (group.rollEqual world lootMode personalLooter) _
    unfold LootGroup.rollEqual
    extract_lets possible
    split
    · rename_i hempty
      have hnil : possibleLoot world lootMode personalLooter group.equalChanced = [] :=
        isEmpty_iff.mp hempty
      rw [hnil] at hmem
      exact absurd hmem not_mem_nil
    · exact (possible_select hmem).bind (Possible.pure _)

end Rolls

section Added

omit [Chance F]

/-- Each looter's loot has grown by stacks of entries with the property. -/
def Added (ok : P → LootStoreItem P F → Prop) (loots loots' : PersonalLoot P F) : Prop :=
  ∀ looter, ∃ added, loots' looter = loots looter ++ added ∧ ∀ stack ∈ added, ok looter stack.1

variable {ok ok' : P → LootStoreItem P F → Prop} {loots loots' loots'' : PersonalLoot P F}

theorem Added.refl (ok : P → LootStoreItem P F → Prop) (loots : PersonalLoot P F) :
    Added ok loots loots := fun _ =>
  ⟨[], (append_nil _).symm, fun _ hmem => absurd hmem not_mem_nil⟩

theorem Added.trans (h : Added ok loots loots') (h' : Added ok loots' loots'') :
    Added ok loots loots'' := by
  intro looter
  obtain ⟨added, heq, hadded⟩ := h looter
  obtain ⟨added', heq', hadded'⟩ := h' looter
  refine ⟨added ++ added', ?_, ?_⟩
  · rw [heq', heq, append_assoc]
  · intro stack hmem
    rcases mem_append.mp hmem with hmem | hmem
    · exact hadded stack hmem
    · exact hadded' stack hmem

theorem Added.mono (h : Added ok loots loots')
    (hok : ∀ looter item, ok looter item → ok' looter item) :
    Added ok' loots loots' := fun looter =>
  (h looter).imp fun _ hadded =>
    ⟨hadded.1, fun stack hmem => hok looter stack.1 (hadded.2 stack hmem)⟩

theorem addStacks_eq (item : LootStoreItem P F) (maxStackSize numStacks count : Nat)
    (items : List (LootStoreItem P F × Nat)) :
    ∃ added, addStacks item maxStackSize numStacks count items = items ++ added ∧
      (∀ stack ∈ added, stack.1 = item) ∧
      (added ≠ [] ↔ 0 < numStacks ∧ items.length < Looting.MAX_NR_LOOT_ITEMS) := by
  induction numStacks generalizing count items with
  | zero =>
    refine ⟨[], (append_nil items).symm, fun _ hmem => absurd hmem not_mem_nil, ?_⟩
    exact ⟨fun hne => absurd rfl hne, fun hpos => absurd hpos.1 (Nat.lt_irrefl 0)⟩
  | succ numStacks ih =>
    unfold addStacks
    split
    · rename_i hroom
      obtain ⟨added, heq, hitem, _⟩ := ih (count - maxStackSize)
        (items ++ [(item, min count maxStackSize)])
      refine ⟨(item, min count maxStackSize) :: added, ?_, ?_, ?_⟩
      · rw [heq, append_assoc, singleton_append]
      · intro stack hmem
        rcases mem_cons.mp hmem with rfl | hmem
        · rfl
        · exact hitem stack hmem
      · exact ⟨fun _ => ⟨Nat.succ_pos _, hroom⟩, fun _ => cons_ne_nil _ _⟩
    · rename_i hfull
      refine ⟨[], (append_nil items).symm, fun _ hmem => absurd hmem not_mem_nil, ?_⟩
      exact ⟨fun hne => absurd rfl hne, fun hroom => absurd hroom.2 hfull⟩

end Added

section AddItem

variable [DecidableEq P] (world : LootWorld P F) {ok : P → LootStoreItem P F → Prop}

omit [Chance F] in
/-- A looter's loot replaced by a longer one. -/
theorem Added.update (loots : PersonalLoot P F) {owner : P}
    {items added : List (LootStoreItem P F × Nat)} (heq : items = loots owner ++ added)
    (hadded : ∀ stack ∈ added, ok owner stack.1) :
    Added ok loots (Function.update loots owner items) := by
  intro looter
  by_cases howner : looter = owner
  · subst howner
    rw [update_self]
    exact ⟨added, heq, hadded⟩
  · rw [update_of_ne howner]
    exact Added.refl ok loots looter

variable {item : LootStoreItem P F}

theorem always_addItem {owner : P} {loots : PersonalLoot P F}
    (hitem : (world.itemTemplate item.itemid).isSome →
      (loots owner).length < Looting.MAX_NR_LOOT_ITEMS → ok owner item) :
    Always stuck (addItem world owner item loots) (Added ok loots) := by
  unfold addItem
  split
  · exact Always.pure (Added.refl ok loots)
  rename_i hproto
  refine (always_urand _ _).bind fun count _ => Always.pure ?_
  obtain ⟨added, heq, hstack, hsome⟩ := addStacks_eq item _ _ count (loots owner)
  apply Added.update loots heq
  intro stack hmem
  rw [hstack stack hmem]
  exact hitem (by rw [hproto]; rfl) (hsome.mp (ne_nil_of_mem hmem)).2

theorem possible_addItem {owner : P} {loots : PersonalLoot P F}
    (hproto : (world.itemTemplate item.itemid).isSome)
    (hroom : (loots owner).length < Looting.MAX_NR_LOOT_ITEMS) :
    ∃ loots' stack added, Possible (addItem world owner item loots) loots' ∧ stack.1 = item ∧
      loots' owner = loots owner ++ stack :: added := by
  obtain ⟨proto, hproto⟩ := Option.isSome_iff_exists.mp hproto
  have hcount : Possible (urand item.mincount item.maxcount : Rolls F Nat) item.mincount :=
    possible_urand (Nat.le_refl _) (Nat.le_add_right _ _)
  have hstacks : 0 < item.mincount / proto.maxStackSize +
      if item.mincount % proto.maxStackSize ≠ 0 then 1 else 0 := by
    split
    · exact Nat.succ_pos _
    · rename_i hmod
      have hdvd := Nat.dvd_of_mod_eq_zero (Decidable.not_not.mp hmod)
      exact Nat.div_pos (Nat.le_of_dvd item.mincount_pos hdvd) proto.maxStackSize_pos
  obtain ⟨added, heq, hstack, hsome⟩ :=
    addStacks_eq item proto.maxStackSize _ item.mincount (loots owner)
  have hadd : Possible (addItem world owner item loots)
      (update loots owner (loots owner ++ added)) := by
    unfold addItem
    rw [hproto, ← heq]
    exact hcount.bind (Possible.pure _)
  obtain ⟨stack, rest, rfl⟩ := exists_cons_of_ne_nil (hsome.mpr ⟨hstacks, hroom⟩)
  exact ⟨_, stack, rest, hadd, hstack stack mem_cons_self, update_self ..⟩

end AddItem

section References

omit [Chance F]

variable (world : LootWorld P F)

/-- The references of a template end within the depth, unless it may be stuck. -/
def ReferencesEnd (stuck : Prop) : Nat → Nat → LootTemplate P F → Prop
  | 0, _, _ => stuck
  | depth + 1, groupId, template =>
    groupId = 0 → ∀ item ∈ template.entries, 0 < item.reference →
      ∀ referenced, world.getLootFor item.reference = some referenced →
        ReferencesEnd stuck depth item.groupid referenced

theorem referencesEnd_of_stuck (hstuck : stuck) (depth groupId : Nat)
    (template : LootTemplate P F) : ReferencesEnd world stuck depth groupId template := by
  induction depth generalizing groupId template with
  | zero => exact hstuck
  | succ depth ih => exact fun _ item _ _ referenced _ => ih item.groupid referenced

theorem foldlM_eq_none {α σ : Type} {f : σ → α → Option σ} {xs : List α} {s : σ}
    (h : xs.foldlM f s = none) : ∃ x ∈ xs, ∃ s, f s x = none := by
  induction xs generalizing s with
  | nil => cases h
  | cons x xs ih =>
    rw [foldlM_cons] at h
    cases hx : f s x with
    | none => exact ⟨x, mem_cons_self, s, hx⟩
    | some s' =>
      rw [hx] at h
      obtain ⟨y, hy, hnone⟩ := ih h
      exact ⟨y, mem_cons_of_mem x hy, hnone⟩

theorem hasDropForPlayer_returns (player : P) (strict : Bool) {depth groupId : Nat}
    {template : LootTemplate P F} (hends : ReferencesEnd world stuck depth groupId template)
    (hnone : hasDropForPlayer world player strict depth template groupId = none) : stuck := by
  induction depth generalizing groupId template with
  | zero => exact hends
  | succ depth ih =>
    unfold hasDropForPlayer at hnone
    split at hnone
    · cases hnone
    rename_i hgroup
    rw [Option.bind_eq_bind, Option.bind_eq_none_iff] at hnone
    have hloop := Option.eq_none_iff_forall_ne_some.mpr fun found hfound =>
      (nomatch hnone found hfound)
    obtain ⟨item, hitem, found, hround⟩ := foldlM_eq_none hloop
    split at hround
    · cases hround
    split at hround
    · rename_i hreference
      cases hreferenced : world.getLootFor item.reference with
      | none =>
        rw [hreferenced] at hround
        cases hround
      | some referenced =>
        rw [hreferenced] at hround
        exact ih (hends (Nat.eq_zero_of_not_pos hgroup) item hitem hreference referenced
          hreferenced) hround
    · cases hround

end References

section Processing

variable [DecidableEq P] {world : LootWorld P F} {lootMode : UInt16}
  {ok : P → LootStoreItem P F → Prop}

theorem always_groupProcess {owner : P} {personalLooter : Option P} {group : LootGroup P F}
    {loots : PersonalLoot P F}
    (hok : ∀ item, CanRoll world lootMode personalLooter group item →
      (world.itemTemplate item.itemid).isSome →
      (loots owner).length < Looting.MAX_NR_LOOT_ITEMS → ok owner item) :
    Always stuck (group.process world lootMode owner personalLooter loots) (Added ok loots) := by
  refine always_groupRoll.bind fun rolled hrolled => ?_
  cases rolled with
  | none => exact Always.pure (Added.refl ok loots)
  | some item => exact always_addItem world (hok item (hrolled item rfl))

omit [DecidableEq P] in
/-- A loop whose rounds add what is fine. -/
theorem always_rounds {α : Type} {f : PersonalLoot P F → α → Rolls F (PersonalLoot P F)}
    (xs : List α) (hround : ∀ x ∈ xs, ∀ loots, Always stuck (f loots x) (Added ok loots))
    (loots : PersonalLoot P F) : Always stuck (xs.foldlM f loots) (Added ok loots) :=
  Always.foldlM (Added ok loots) xs
    (fun x hx middle hmiddle => (hround x hx middle).mono fun _ hadded => hmiddle.trans hadded)
    (Added.refl ok loots)

omit [DecidableEq P] in
theorem always_seq {m : Rolls F (PersonalLoot P F)}
    {next : PersonalLoot P F → Rolls F (PersonalLoot P F)} {loots : PersonalLoot P F}
    (h : Always stuck m (Added ok loots))
    (hnext : ∀ middle, Always stuck (next middle) (Added ok middle)) :
    Always stuck (m >>= next) (Added ok loots) :=
  h.bind fun middle hmiddle => (hnext middle).mono fun _ hadded => hmiddle.trans hadded

/-- An entry that is processed for a looter adds what the looter may have, if its reference
does. -/
theorem always_processEntry {rate : Bool} {looter : P} {item : LootStoreItem P F}
    {processReferenced : LootTemplate P F → Nat → PersonalLoot P F → Rolls F (PersonalLoot P F)}
    (hreferenced : 0 < item.reference → ∀ referenced,
      world.getLootFor item.reference = some referenced → ∀ loots,
        Always stuck (processReferenced referenced item.groupid loots)
          (Added (Usable world lootMode) loots))
    (loots : PersonalLoot P F) :
    Always stuck
      (processEntry world rate lootMode looter (some looter) processReferenced loots item)
      (Added (Usable world lootMode) loots) := by
  unfold processEntry
  split
  · exact Always.pure (Added.refl _ loots)
  rename_i hmode
  refine (always_roll world rate item).bind fun taken _ => ?_
  split
  · exact Always.pure (Added.refl _ loots)
  split
  · rename_i hreference
    split
    · exact Always.pure (Added.refl _ loots)
    · rename_i referenced hlootFor
      exact always_rounds _ (fun _ _ => hreferenced hreference referenced hlootFor) loots
  · split
    · rename_i hallowed
      exact always_addItem world fun _ _ => ⟨hmode, hallowed⟩
    · exact Always.pure (Added.refl _ loots)

theorem always_process {rate : Bool} {looter : P} {depth groupId : Nat}
    {template : LootTemplate P F} (hends : ReferencesEnd world stuck depth groupId template)
    (loots : PersonalLoot P F) :
    Always stuck (process world rate lootMode looter (some looter) depth template groupId loots)
      (Added (Usable world lootMode) loots) := by
  have hgroup : ∀ (group : LootGroup P F) (loots : PersonalLoot P F),
      Always stuck (group.process world lootMode looter (some looter) loots)
        (Added (Usable world lootMode) loots) := fun group loots =>
    always_groupProcess fun item hroll _ _ => hroll.usable
  induction depth generalizing groupId template loots with
  | zero => exact Always.ofOption (fun _ => hends) fun a ha => (nomatch ha)
  | succ depth ih =>
    unfold process
    split
    · split
      · exact hgroup _ loots
      · exact Always.pure (Added.refl _ loots)
    · rename_i hzero
      refine always_seq (always_rounds template.entries (fun item hitem => ?_) loots)
        fun middle => always_rounds _ (fun group _ => hgroup group) middle
      exact always_processEntry fun hreference referenced hlootFor =>
        ih (hends (Nat.eq_zero_of_not_pos hzero) item hitem hreference referenced hlootFor)

end Processing

end LegionServer.Source.LootTemplates
