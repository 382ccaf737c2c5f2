import LegionServer.Source.Spells.HistoryRuns

/-!
# Which categories are on cooldown

A category is on cooldown while the index has a pointer for it.
-/
namespace LegionServer.Source.Spells
open Library List AList

namespace SpellHistory

variable {h h' : SpellHistory} {c : Nat}

theorem mem_eraseCooldown (h : SpellHistory) (spellId c : Nat) :
    c ∈ (h.eraseCooldown spellId).categoryCooldowns ↔
      c ≠ (h.nodeAt spellId).entry.categoryId ∧ c ∈ h.categoryCooldowns :=
  mem_erase

theorem mem_setCategory (hc : c ∈ h.categoryCooldowns) (categoryId address : Nat) :
    c ∈ (h.setCategory categoryId address).categoryCooldowns := by
  unfold setCategory
  split
  · exact hc
  · exact (mem_insert _).mpr (.inr hc)

theorem mem_addCooldown (hc : c ∈ h.categoryCooldowns) (spellId itemId : Nat) (cooldownEnd : Int)
    (categoryId : Nat) (categoryEnd : Int) (onHold : Bool) :
    c ∈ (h.addCooldown spellId itemId cooldownEnd categoryId categoryEnd onHold).categoryCooldowns := by
  unfold addCooldown
  split
  · exact mem_setCategory (h := h.setEntry spellId _) hc _ _
  · exact hc

theorem modifiedEntry_category (entry : CooldownEntry) (cooldownMod : Int)
    (withoutCategoryCooldown : Bool) :
    (modifiedEntry entry cooldownMod withoutCategoryCooldown).categoryId = entry.categoryId := by
  unfold modifiedEntry
  split <;> rfl

theorem nodeAt_setEntry (h : SpellHistory) (spellId : Nat) (entry : CooldownEntry) :
    ((h.setEntry spellId entry).nodeAt spellId).entry = entry := by
  rw [nodeAt, lookup_setEntry, if_pos rfl]
  rfl

section modify

variable (now : Int) (cooldownMod : Int) (withoutCategoryCooldown : Bool)

theorem mem_modifyNode (h : SpellHistory) (spellId c : Nat) :
    c ∈ (h.modifyNode now spellId cooldownMod withoutCategoryCooldown).categoryCooldowns ↔
      c ∈ h.categoryCooldowns ∧ ¬ ((h.nodeAt spellId).entry.categoryId = c ∧
        (modifiedEntry (h.nodeAt spellId).entry cooldownMod
          withoutCategoryCooldown).cooldownEnd ≤ now) := by
  unfold modifyNode
  dsimp only
  split
  · rename_i hended
    rw [mem_eraseCooldown, nodeAt_setEntry, modifiedEntry_category, category_setEntry]
    constructor
    · exact fun hc => ⟨hc.2, fun hover => hc.1 hover.1.symm⟩
    · exact fun hc => ⟨fun heq => hc.2 ⟨heq.symm, hended⟩, hc.1⟩
  · rename_i hgoes
    exact ⟨fun hc => ⟨hc, fun hover => hgoes hover.2⟩, fun hc => hc.1⟩

variable {t : Nat}

theorem lookup_modifyNode_ne {spellId : Nat} (hne : t ≠ spellId) :
    (h.modifyNode now spellId cooldownMod withoutCategoryCooldown).spellCooldowns.lookup t =
      h.spellCooldowns.lookup t := by
  unfold modifyNode
  dsimp only
  split
  · rw [lookup_eraseCooldown, if_neg hne, lookup_setEntry, if_neg hne]
  · rw [lookup_setEntry, if_neg hne]

theorem lookup_modifyNode_self (h : SpellHistory) (spellId : Nat) :
    (h.modifyNode now spellId cooldownMod withoutCategoryCooldown).spellCooldowns.lookup spellId =
      if (modifiedEntry (h.nodeAt spellId).entry cooldownMod
          withoutCategoryCooldown).cooldownEnd ≤ now then none
      else some { (h.nodeAt spellId) with
        entry := modifiedEntry (h.nodeAt spellId).entry cooldownMod withoutCategoryCooldown } := by
  unfold modifyNode
  dsimp only
  split
  · rw [lookup_eraseCooldown, if_pos rfl]
  · rw [lookup_setEntry, if_pos rfl]

variable (predicate : Nat → CooldownEntry → Bool)

/-- `ModifyCoooldowns` modifies an entry until it ends or is no longer selected;
this one ends. -/
inductive ModifiedAway (t : Nat) : CooldownEntry → Prop
  | ended {entry : CooldownEntry} : predicate t entry = true →
    (modifiedEntry entry cooldownMod withoutCategoryCooldown).cooldownEnd ≤ now →
    ModifiedAway t entry
  | again {entry : CooldownEntry} : predicate t entry = true →
    now < (modifiedEntry entry cooldownMod withoutCategoryCooldown).cooldownEnd →
    ModifiedAway t (modifiedEntry entry cooldownMod withoutCategoryCooldown) →
    ModifiedAway t entry

variable {now cooldownMod withoutCategoryCooldown predicate}

variable {entry : CooldownEntry}

theorem ModifiedAway.again_iff (hselected : predicate t entry = true)
    (hgoes : now < (modifiedEntry entry cooldownMod withoutCategoryCooldown).cooldownEnd) :
    ModifiedAway now cooldownMod withoutCategoryCooldown predicate t entry ↔
      ModifiedAway now cooldownMod withoutCategoryCooldown predicate t
        (modifiedEntry entry cooldownMod withoutCategoryCooldown) := by
  constructor
  · intro haway
    cases haway with
    | ended _ hended => exact absurd hended (not_le.mpr hgoes)
    | again _ _ hmodified => exact hmodified
  · exact .again hselected hgoes

theorem ModifiedAway.selected
    (haway : ModifiedAway now cooldownMod withoutCategoryCooldown predicate t entry) :
    predicate t entry = true := by
  cases haway with
  | ended hselected _ => exact hselected
  | again hselected _ _ => exact hselected

/-- Some entry of the category under these spells is modified away. -/
def TakenAway (now cooldownMod : Int) (withoutCategoryCooldown : Bool)
    (predicate : Nat → CooldownEntry → Bool) (h : SpellHistory) (l : List Nat) (c : Nat) : Prop :=
  ∃ t ∈ l, ∃ node, h.spellCooldowns.lookup t = some node ∧ node.entry.categoryId = c ∧
    ModifiedAway now cooldownMod withoutCategoryCooldown predicate t node.entry

/-- What is ahead of the loop is not touched by a round. -/
theorem takenAway_congr {l : List Nat}
    (hsame : ∀ t ∈ l, h'.spellCooldowns.lookup t = h.spellCooldowns.lookup t) :
    TakenAway now cooldownMod withoutCategoryCooldown predicate h' l c ↔
      TakenAway now cooldownMod withoutCategoryCooldown predicate h l c := by
  constructor
  · rintro ⟨t, ht, node, hnode, haway⟩
    exact ⟨t, ht, node, (hsame t ht).symm.trans hnode, haway⟩
  · rintro ⟨t, ht, node, hnode, haway⟩
    exact ⟨t, ht, node, (hsame t ht).trans hnode, haway⟩

theorem takenAway_cons {l : List Nat} {node : CooldownNode}
    (hnode : h.spellCooldowns.lookup t = some node) :
    TakenAway now cooldownMod withoutCategoryCooldown predicate h (t :: l) c ↔
      (node.entry.categoryId = c ∧
        ModifiedAway now cooldownMod withoutCategoryCooldown predicate t node.entry) ∨
      TakenAway now cooldownMod withoutCategoryCooldown predicate h l c := by
  unfold TakenAway
  simp [hnode]

theorem mem_modifyCooldowns (fuel : Nat) (l : List Nat) (hnodup : l.Nodup)
    (hmem : ∀ t ∈ l, t ∈ h.spellCooldowns)
    (hmodified : modifyCooldowns now predicate cooldownMod withoutCategoryCooldown fuel l h = .ok h')
    (c : Nat) : c ∈ h'.categoryCooldowns ↔ c ∈ h.categoryCooldowns ∧
      ¬ TakenAway now cooldownMod withoutCategoryCooldown predicate h l c := by
  have hnothing : ∀ h : SpellHistory,
      ¬ TakenAway now cooldownMod withoutCategoryCooldown predicate h [] c := by
    rintro h ⟨t, ht, _⟩
    cases ht
  induction fuel generalizing h l with
  | zero =>
    cases l with
    | nil =>
      cases hmodified
      exact ⟨fun hc => ⟨hc, hnothing _⟩, fun hc => hc.1⟩
    | cons t l => cases hmodified
  | succ fuel ih =>
    cases l with
    | nil =>
      cases hmodified
      exact ⟨fun hc => ⟨hc, hnothing _⟩, fun hc => hc.1⟩
    | cons t l =>
      obtain ⟨hnot, hnodup'⟩ := nodup_cons.mp hnodup
      obtain ⟨node, hnode⟩ := Option.isSome_iff_exists.mp
        (lookup_isSome.mpr (hmem t mem_cons_self))
      have hrest : ∀ t' ∈ l, t' ∈ h.spellCooldowns :=
        fun t' ht' => hmem t' (mem_cons_of_mem t ht')
      have hsame : ∀ t' ∈ l, (h.modifyNode now t cooldownMod
          withoutCategoryCooldown).spellCooldowns.lookup t' = h.spellCooldowns.lookup t' :=
        fun t' ht' => lookup_modifyNode_ne now cooldownMod withoutCategoryCooldown
          fun heq => hnot (heq ▸ ht')
      have hstill : ∀ t' ∈ l, t' ∈ (h.modifyNode now t cooldownMod
          withoutCategoryCooldown).spellCooldowns := by
        intro t' ht'
        rw [← lookup_isSome, hsame t' ht', lookup_isSome]
        exact hrest t' ht'
      have hself := lookup_modifyNode_self now cooldownMod withoutCategoryCooldown h t
      have hcategory := mem_modifyNode now cooldownMod withoutCategoryCooldown h t c
      rw [takenAway_cons hnode]
      unfold modifyCooldowns at hmodified
      dsimp only at hmodified
      rw [nodeAt_of_lookup hnode] at hself hcategory hmodified
      by_cases hselected : predicate t node.entry = true
      · rw [if_pos hselected] at hmodified
        by_cases hended : (modifiedEntry node.entry cooldownMod
            withoutCategoryCooldown).cooldownEnd ≤ now
        · rw [if_pos hended] at hself
          rw [if_neg (lookup_eq_none.mp hself)] at hmodified
          have haway := ModifiedAway.ended hselected hended
          have hnext := ih l hnodup' hstill hmodified
          rw [takenAway_congr hsame, hcategory] at hnext
          refine hnext.trans ?_
          simp only [hended, haway, and_true, not_or, and_assoc]
        · rw [if_neg hended] at hself
          have hmem' : t ∈ (h.modifyNode now t cooldownMod
              withoutCategoryCooldown).spellCooldowns := by
            rw [← lookup_isSome, hself]
            rfl
          rw [if_pos hmem'] at hmodified
          have hall : ∀ t' ∈ t :: l, t' ∈ (h.modifyNode now t cooldownMod
              withoutCategoryCooldown).spellCooldowns := by
            intro t' ht'
            rcases mem_cons.mp ht' with rfl | hl
            · exact hmem'
            · exact hstill t' hl
          have hnext := ih (t :: l) hnodup hall hmodified
          rw [takenAway_cons hself, takenAway_congr hsame, hcategory] at hnext
          refine hnext.trans ?_
          rw [ModifiedAway.again_iff hselected (not_le.mp hended)]
          simp only [hended, and_false, not_false_eq_true, and_true, modifiedEntry_category]
      · rw [if_neg hselected] at hmodified
        have hkept : ¬ ModifiedAway now cooldownMod withoutCategoryCooldown predicate t node.entry :=
          fun haway => hselected haway.selected
        have hnext := ih l hnodup' hrest hmodified
        refine hnext.trans ?_
        simp only [hkept, and_false, false_or]

end modify

theorem mem_eraseWhere (erases : Nat → CooldownEntry → Bool) (l : List Nat) (hnodup : l.Nodup)
    (c : Nat) :
    c ∈ (l.foldl (fun h t => if erases t (h.nodeAt t).entry then h.eraseCooldown t else h)
        h).categoryCooldowns ↔
      c ∈ h.categoryCooldowns ∧
        ¬ ∃ t ∈ l, erases t (h.nodeAt t).entry = true ∧ (h.nodeAt t).entry.categoryId = c := by
  induction l generalizing h with
  | nil => simp
  | cons t l ih =>
    obtain ⟨hnot, hnodup'⟩ := nodup_cons.mp hnodup
    rw [foldl_cons, exists_mem_cons_iff, not_or]
    split
    · rename_i herases
      have hsame : ∀ t' ∈ l, ((h.eraseCooldown t).nodeAt t').entry = (h.nodeAt t').entry := by
        intro t' ht'
        have hne : t' ≠ t := fun heq => hnot (heq ▸ ht')
        unfold nodeAt
        rw [lookup_eraseCooldown, if_neg hne]
        cases h.spellCooldowns.lookup t' <;> rfl
      have hrest : (∃ t' ∈ l, erases t' ((h.eraseCooldown t).nodeAt t').entry = true ∧
          ((h.eraseCooldown t).nodeAt t').entry.categoryId = c) ↔
          ∃ t' ∈ l, erases t' (h.nodeAt t').entry = true ∧ (h.nodeAt t').entry.categoryId = c := by
        refine exists_congr fun t' => and_congr_right fun ht' => ?_
        rw [hsame t' ht']
      rw [ih hnodup', hrest, mem_eraseCooldown]
      tauto
    · rename_i hstays
      rw [ih hnodup']
      simp [hstays]

/-- The pointer of a category is at an entry whose category time is over. -/
def Expired (now : Int) (h : SpellHistory) (c : Nat) : Prop :=
  ∃ address entry, h.categoryCooldowns.lookup c = some address ∧ h.deref address = .ok entry ∧
    entry.categoryEnd < now

theorem mem_updateCategories {now : Int} (l : List (Σ _ : Nat, Nat)) (hkeys : (l.map Sigma.fst).Nodup)
    (hl : ∀ category ∈ l, h.categoryCooldowns.lookup category.1 = some category.2)
    (hupdate : l.foldlM (updateCategory now) h = .ok h') :
    h'.spellCooldowns = h.spellCooldowns ∧ ∀ c, c ∈ h'.categoryCooldowns ↔
      c ∈ h.categoryCooldowns ∧ ¬ (c ∈ l.map Sigma.fst ∧ Expired now h c) := by
  induction l generalizing h with
  | nil =>
    cases hupdate
    simp
  | cons category l ih =>
    obtain ⟨hnot, hkeys'⟩ := nodup_cons.mp hkeys
    have hhead := hl category mem_cons_self
    rw [foldlM_cons] at hupdate
    unfold updateCategory at hupdate
    cases hderef : h.deref category.2 with
    | error fault =>
      rw [hderef] at hupdate
      cases hupdate
    | ok entry =>
      rw [hderef] at hupdate
      change ((if entry.categoryEnd < now then _ else _ : Except Fault SpellHistory) >>= _) = _
        at hupdate
      have hexpired : Expired now h category.1 ↔ entry.categoryEnd < now := by
        constructor
        · rintro ⟨address, entry', haddress, hentry', hover⟩
          rw [hhead] at haddress
          cases haddress
          rw [hderef] at hentry'
          cases hentry'
          exact hover
        · exact fun hover => ⟨_, _, hhead, hderef, hover⟩
      split at hupdate
      · rename_i hover
        let h₁ : SpellHistory :=
          { h with categoryCooldowns := h.categoryCooldowns.erase category.1 }
        have hne : ∀ category' ∈ l, category'.1 ≠ category.1 :=
          fun category' hcategory' heq => hnot (heq ▸ mem_map_of_mem hcategory')
        have hl₁ : ∀ category' ∈ l, h₁.categoryCooldowns.lookup category'.1 = some category'.2 := by
          intro category' hcategory'
          rw [lookup_erase_ne (hne category' hcategory')]
          exact hl category' (mem_cons_of_mem category hcategory')
        obtain ⟨hcooldowns, hmem⟩ := ih hkeys' hl₁ hupdate
        refine ⟨hcooldowns, fun c => ?_⟩
        have hsame : c ≠ category.1 → (Expired now h₁ c ↔ Expired now h c) := by
          intro hc
          have hlookup : h₁.categoryCooldowns.lookup c = h.categoryCooldowns.lookup c :=
            lookup_erase_ne hc
          unfold Expired
          rw [hlookup]
          rfl
        have hsmaller : c ∈ h₁.categoryCooldowns ↔ c ≠ category.1 ∧ c ∈ h.categoryCooldowns :=
          mem_erase
        rw [hmem c, hsmaller, map_cons, mem_cons]
        by_cases hc : c = category.1
        · subst hc
          simp [hexpired, hover]
        · simp [hc, hsame hc]
      · rename_i hlasts
        have hl' : ∀ category' ∈ l, h.categoryCooldowns.lookup category'.1 = some category'.2 :=
          fun category' hcategory' => hl category' (mem_cons_of_mem category hcategory')
        obtain ⟨hcooldowns, hmem⟩ := ih hkeys' hl' hupdate
        refine ⟨hcooldowns, fun c => ?_⟩
        rw [hmem c, map_cons, mem_cons]
        by_cases hc : c = category.1
        · subst hc
          simp [hexpired, hlasts]
        · simp [hc]

theorem mem_update {now : Int} (hupdate : h.update now = .ok h') (c : Nat) :
    c ∈ h'.categoryCooldowns ↔ c ∈ h.categoryCooldowns ∧ ¬ Expired now h c ∧
      ¬ ∃ t node, h.spellCooldowns.lookup t = some node ∧ node.entry.cooldownEnd < now ∧
        node.entry.categoryId = c := by
  obtain ⟨h₁, hcategories, hupdate⟩ := exists_of_bind_ok hupdate
  cases hupdate
  obtain ⟨hcooldowns, hmem⟩ := mem_updateCategories _ h.categoryCooldowns.keys_nodup
    (fun category hcategory => mem_lookup_iff.mpr hcategory) hcategories
  have hsecond := mem_eraseWhere (h := h₁) (fun _ entry => entry.cooldownEnd < now)
    h₁.spellCooldowns.keys h₁.spellCooldowns.keys_nodup c
  simp only [decide_eq_true_eq] at hsecond
  have hentries : (∃ t ∈ h₁.spellCooldowns.keys, (h₁.nodeAt t).entry.cooldownEnd < now ∧
      (h₁.nodeAt t).entry.categoryId = c) ↔ ∃ t node, h.spellCooldowns.lookup t = some node ∧
        node.entry.cooldownEnd < now ∧ node.entry.categoryId = c := by
    rw [← hcooldowns]
    constructor
    · rintro ⟨t, ht, hover⟩
      obtain ⟨node, hnode⟩ := Option.isSome_iff_exists.mp (lookup_isSome.mpr ht)
      rw [nodeAt_of_lookup hnode] at hover
      exact ⟨t, node, hnode, hover⟩
    · rintro ⟨t, node, hnode, hover⟩
      refine ⟨t, lookup_isSome.mp (by rw [hnode]; rfl), ?_⟩
      rwa [nodeAt_of_lookup hnode]
  rw [hentries] at hsecond
  refine hsecond.trans ?_
  rw [hmem c]
  have hkey : c ∈ h.categoryCooldowns ↔ c ∈ h.categoryCooldowns.entries.map Sigma.fst := Iff.rfl
  rw [and_assoc]
  refine and_congr_right fun hc => and_congr_left fun _ => ?_
  rw [hkey] at hc
  simp [hc]

end SpellHistory

end LegionServer.Source.Spells
