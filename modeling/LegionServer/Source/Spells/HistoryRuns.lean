import LegionServer.Library.TokenBucket
import LegionServer.Library.Transition
import LegionServer.Source.Spells.CategoryIndex

/-!
# Casts that spend charges

Runs of casts and updates of one unit, seen from one charge category whose
maximum and recovery time stay the same.
-/
namespace LegionServer.Source.Spells
open Library List AList

namespace SpellHistory

variable {h h' : SpellHistory} {now : Int}

theorem updateCooldown_charges (spellId : Nat) :
    (h.updateCooldown now spellId).categoryCharges = h.categoryCharges := by
  unfold updateCooldown
  split <;> rfl

theorem updateCategory_charges {category : Σ _ : Nat, Nat}
    (hupdate : h.updateCategory now category = .ok h') :
    h'.categoryCharges = h.categoryCharges := by
  obtain ⟨entry, hderef, hupdate⟩ := exists_of_bind_ok hupdate
  split at hupdate <;> · cases hupdate; rfl

theorem update_charges (hupdate : h.update now = .ok h') (category : Nat) :
    h'.categoryCharges category =
      (h.categoryCharges category).dropWhile fun entry => entry.rechargeEnd ≤ now := by
  have hends : Ends (fun _ => True) (h.update now) fun h' =>
      h'.categoryCharges = (h.updateCharges now).categoryCharges := by
    have hcategories : Ends (fun _ => True)
        (h.categoryCooldowns.entries.foldlM (updateCategory now) h)
        fun h' => h'.categoryCharges = h.categoryCharges := by
      refine Ends.foldlM (fun _ h' => h'.categoryCharges = h.categoryCharges)
        (fun category _ h₁ hh₁ => ?_) _ h rfl
      cases hstep : h₁.updateCategory now category with
      | error fault => trivial
      | ok h₂ => exact (updateCategory_charges hstep).trans hh₁
    refine hcategories.bind fun h₁ hh₁ => ?_
    have hcooldowns : ∀ (l : List Nat) (h₁ : SpellHistory),
        (l.foldl (updateCooldown now) h₁).categoryCharges = h₁.categoryCharges := by
      intro l
      induction l with
      | nil => exact fun _ => rfl
      | cons spellId l ih => exact fun h₁ => (ih _).trans (updateCooldown_charges spellId)
    simp only [Ends, updateCharges, hcooldowns, hh₁]
  rw [hends.post_of_ok hupdate]
  rfl

theorem update_of_empty (hcooldowns : h.spellCooldowns = ∅) (hcategories : h.categoryCooldowns = ∅) :
    h.update now = .ok (h.updateCharges now) := by
  unfold update
  rw [hcategories]
  change Except.ok ((foldl _ h h.spellCooldowns.keys).updateCharges now) = _
  rw [hcooldowns]
  rfl

end SpellHistory

/-- The casts of the category so far, the latest first. -/
structure ChargeState where
  history : SpellHistory
  now : Int
  casts : List Int

inductive ChargeRequest where
  | cast (chargeCategoryId : Nat)
  | update
  | wait (elapsed : Nat)

structure View.Charged (view : View) (category m : Nat) (r : Int) : Prop where
  known : view.hasSpellCategory category = true
  maxCharges : view.getMaxCharges category = m
  recoveryTime : view.getChargeRecoveryTime category = r

namespace ChargeState

variable (category m : Nat) (r : Int)

def charges (s : ChargeState) : List ChargeEntry := s.history.categoryCharges category

/-- A cast consumes a charge, if `HasCharge` lets it happen. -/
def afterCast (view : View) (s : ChargeState) (chargeCategoryId : Nat) : ChargeState :=
  { s with
    history := (s.history.consumeCharge view s.now chargeCategoryId).1
    casts := if chargeCategoryId = category then s.now :: s.casts else s.casts }

def performs (view : View) (s s' : ChargeState) : ChargeRequest → Prop
  | .cast chargeCategoryId =>
    s.history.hasCharge view chargeCategoryId = true ∧ s' = s.afterCast category view chargeCategoryId
  | .update => ∃ h, s.history.update s.now = .ok h ∧ s' = { s with history := h }
  | .wait elapsed => s' = { s with now := s.now + elapsed }

end ChargeState

/-- A unit that casts and is updated. Nothing has been cast yet. -/
def chargeSystem (category m : Nat) (r : Int) : System ChargeState (View × ChargeRequest) where
  init s := s.history = {} ∧ s.casts = []
  step call s s' := call.1.Charged category m r ∧ ChargeState.performs category call.1 s s' call.2

/-!
# Every operation on cooldowns, and the index

No pointer of the index is followed in vain, and the index stays right exactly if nothing is
rebranded.
-/

/-- `LoadFromDB` is a `loadCooldown` for each row. -/
inductive CooldownRequest where
  | startCooldown (spellInfo : SpellInfo) (itemId : Nat) (onHold : Bool)
      (forcedCooldown : Option Int)
  | addCooldown (spellId itemId : Nat) (cooldownEnd : Int) (categoryId : Nat) (categoryEnd : Int)
      (onHold : Bool)
  | modifySpellCooldown (spellId : Nat) (cooldownMod : Int) (withoutCategoryCooldown : Bool)
  | modifyCooldowns (predicate : Nat → CooldownEntry → Bool) (cooldownMod : Int)
      (withoutCategoryCooldown : Bool) (fuel : Nat)
  | resetCooldown (spellId : Nat)
  | resetCooldowns (predicate : Nat → CooldownEntry → Bool)
  | resetAllCooldowns
  | lockSpellSchool (schoolMask : Nat) (lockoutTime : Int)
  | saveCooldownStateBeforeDuel
  | restoreCooldownStateAfterDuel
  | loadCooldown (spellId itemId : Nat) (cooldownEnd : Int) (categoryId : Nat) (categoryEnd : Int)
  | update
  | wait (elapsed : Nat)

structure CooldownState where
  history : SpellHistory
  now : Int

/-- Serving a request. `wait` is the clock. -/
def CooldownState.perform (view : View) (s : CooldownState) :
    CooldownRequest → Except Fault CooldownState
  | .startCooldown spellInfo itemId onHold forcedCooldown => .ok
      { s with
        history := s.history.startCooldown view s.now spellInfo itemId onHold forcedCooldown }
  | .addCooldown spellId itemId cooldownEnd categoryId categoryEnd onHold => .ok
      { s with
        history := s.history.addCooldown spellId itemId cooldownEnd categoryId categoryEnd onHold }
  | .modifySpellCooldown spellId cooldownMod withoutCategoryCooldown => .ok
      { s with
        history := s.history.modifySpellCooldown s.now spellId cooldownMod withoutCategoryCooldown }
  | .modifyCooldowns predicate cooldownMod withoutCategoryCooldown fuel =>
    (SpellHistory.modifyCooldowns s.now predicate cooldownMod withoutCategoryCooldown fuel
      s.history.spellCooldowns.keys s.history).map fun history => { s with history }
  | .resetCooldown spellId => .ok { s with history := s.history.resetCooldown spellId }
  | .resetCooldowns predicate => .ok { s with history := s.history.resetCooldowns predicate }
  | .resetAllCooldowns => .ok { s with history := s.history.resetAllCooldowns }
  | .lockSpellSchool schoolMask lockoutTime =>
    (s.history.lockSpellSchool view s.now schoolMask lockoutTime).map fun history =>
      { s with history }
  | .saveCooldownStateBeforeDuel => .ok { s with history := s.history.saveCooldownStateBeforeDuel }
  | .restoreCooldownStateAfterDuel => .ok
      { s with history := s.history.restoreCooldownStateAfterDuel view }
  | .loadCooldown spellId itemId cooldownEnd categoryId categoryEnd => .ok
      { s with
        history := s.history.loadCooldown spellId itemId cooldownEnd categoryId categoryEnd }
  | .update => (s.history.update s.now).map fun history => { s with history }
  | .wait elapsed => .ok { s with now := s.now + elapsed }

def cooldownSystem : System CooldownState (View × CooldownRequest) where
  init s := s.history = {}
  step call s s' := s.perform call.1 call.2 = .ok s'

namespace SpellHistory

variable {h h' : SpellHistory}

/-- `AddCooldown` writes over the entry, if it is an advance. -/
def addWrites (h : SpellHistory) (spellId : Nat) (cooldownEnd : Int) (categoryId : Nat)
    (categoryEnd : Int) (onHold : Bool) : Nat → Option Nat :=
  if h.storesCooldown spellId cooldownEnd categoryEnd onHold then only spellId categoryId else nowhere

/-- `LockSpellSchool` writes over the entries that end before the lockout. -/
def lockWrites (view : View) (now : Int) (schoolMask : Nat) (lockoutTime : Int) (h : SpellHistory) :
    Nat → Option Nat := fun t =>
  if t ∈ view.knownSpells ∧ isLockable (view.getSpellInfo t) schoolMask ∧
      remainingTime now (h.nodeAt t).entry.cooldownEnd < lockoutTime ∧
      h.storesCooldown t (now + milliseconds lockoutTime) now false then some 0 else none

/-- `RestoreCooldownStateAfterDuel` writes the entries from before the duel. -/
def restoreWrites (view : View) (h : SpellHistory) : Nat → Option Nat := fun t =>
  match (h.withProfessionCooldowns view).lookup t with
  | none => none
  | some saved =>
    if view.isPlayer ∧ !saved.onHold ∧ !(h.nodeAt t).entry.onHold then some saved.categoryId else none

theorem written_addCooldown (h : SpellHistory) (spellId itemId : Nat) (cooldownEnd : Int)
    (categoryId : Nat) (categoryEnd : Int) (onHold : Bool) :
    Written (h.addWrites spellId cooldownEnd categoryId categoryEnd onHold) h
      (h.addCooldown spellId itemId cooldownEnd categoryId categoryEnd onHold) := by
  unfold addWrites addCooldown
  split
  · exact written_store h spellId { spellId, cooldownEnd, itemId, categoryId, categoryEnd, onHold }
  refine (written_setEntry h spellId _).of_same fun t node c hnode hw => ?_
  unfold only at hw
  split at hw
  · rename_i heq
    subst heq
    cases hw
    rw [nodeAt_of_lookup hnode]
  · cases hw

theorem addressed_addCooldown (haddressed : h.Addressed) (spellId itemId : Nat) (cooldownEnd : Int)
    (categoryId : Nat) (categoryEnd : Int) (onHold : Bool) :
    (h.addCooldown spellId itemId cooldownEnd categoryId categoryEnd onHold).Addressed := by
  unfold addCooldown
  split
  · exact (haddressed.setEntry _ _).setCategory _ _
  · exact haddressed.setEntry _ _

theorem IndexOk.modifyNode (hok : h.IndexOk) (now : Int) {spellId : Nat}
    (hmem : spellId ∈ h.spellCooldowns) (cooldownMod : Int) (withoutCategoryCooldown : Bool) :
    (h.modifyNode now spellId cooldownMod withoutCategoryCooldown).IndexOk := by
  have hcategory : (modifiedEntry (h.nodeAt spellId).entry cooldownMod
      withoutCategoryCooldown).categoryId = (h.nodeAt spellId).entry.categoryId := by
    unfold modifiedEntry
    split <;> rfl
  have haddressed := hok.addressed.setEntry spellId
    (modifiedEntry (h.nodeAt spellId).entry cooldownMod withoutCategoryCooldown)
  have hindexed := ((written_setEntry h spellId _).of_same (fun t node c hnode hw => by
    unfold only at hw
    split at hw
    · rename_i heq
      subst heq
      cases hw
      rw [hcategory, nodeAt_of_lookup hnode]
    · cases hw)).indexed_iff hok.indexed haddressed |>.mpr not_rebrands_nowhere
  unfold SpellHistory.modifyNode
  dsimp only
  split
  · refine ⟨hindexed.eraseCooldown ?_, haddressed.eraseCooldown spellId⟩
    rw [← lookup_isSome, lookup_setEntry, if_pos rfl]
    rfl
  · exact ⟨hindexed, haddressed⟩

theorem IndexOk.modifySpellCooldown (hok : h.IndexOk) (now : Int) (spellId : Nat)
    (cooldownMod : Int) (withoutCategoryCooldown : Bool) :
    (h.modifySpellCooldown now spellId cooldownMod withoutCategoryCooldown).IndexOk := by
  unfold SpellHistory.modifySpellCooldown
  split
  · exact hok
  · rename_i hcase
    exact hok.modifyNode now (not_not.mp fun hnot => hcase (.inr hnot)) _ _

theorem IndexOk.eraseCooldown (hok : h.IndexOk) {spellId : Nat} (hmem : spellId ∈ h.spellCooldowns) :
    (h.eraseCooldown spellId).IndexOk :=
  ⟨hok.indexed.eraseCooldown hmem, hok.addressed.eraseCooldown spellId⟩

theorem IndexOk.resetCooldown (hok : h.IndexOk) (spellId : Nat) :
    (h.resetCooldown spellId).IndexOk := by
  unfold SpellHistory.resetCooldown
  split
  · rename_i hmem
    exact hok.eraseCooldown hmem
  · exact hok

theorem IndexOk.eraseWhere (hok : h.IndexOk) (erases : Nat → CooldownEntry → Bool) (l : List Nat)
    (hnodup : l.Nodup) (hmem : ∀ t ∈ l, t ∈ h.spellCooldowns) :
    (l.foldl (fun h t => if erases t (h.nodeAt t).entry then h.eraseCooldown t else h) h).IndexOk := by
  induction l generalizing h with
  | nil => exact hok
  | cons t l ih =>
    obtain ⟨hnot, hnodup'⟩ := nodup_cons.mp hnodup
    have ht := hmem t mem_cons_self
    have hrest : ∀ t' ∈ l, t' ∈ h.spellCooldowns := fun t' ht' => hmem t' (mem_cons_of_mem t ht')
    rw [foldl_cons]
    split
    · refine ih (hok.eraseCooldown ht) hnodup' fun t' ht' => ?_
      refine mem_erase.mpr ⟨?_, hrest t' ht'⟩
      rintro rfl
      exact hnot ht'
    · exact ih hok hnodup' hrest

/-- The rounds of `ModifyCoooldowns`. -/
theorem IndexOk.modifyCooldowns (hok : h.IndexOk) (now : Int)
    (predicate : Nat → CooldownEntry → Bool) (cooldownMod : Int) (withoutCategoryCooldown : Bool)
    (fuel : Nat) (l : List Nat) (hmem : ∀ t ∈ l, t ∈ h.spellCooldowns) (hnodup : l.Nodup) :
    Ends (· = .unfinished)
      (SpellHistory.modifyCooldowns now predicate cooldownMod withoutCategoryCooldown fuel l h)
      IndexOk := by
  induction fuel generalizing h l with
  | zero =>
    cases l with
    | nil => exact hok
    | cons t l => exact rfl
  | succ fuel ih =>
    cases l with
    | nil => exact hok
    | cons t l =>
      obtain ⟨hnot, hnodup'⟩ := nodup_cons.mp hnodup
      have ht := hmem t mem_cons_self
      have hrest : ∀ t' ∈ l, t' ∈ h.spellCooldowns :=
        fun t' ht' => hmem t' (mem_cons_of_mem t ht')
      have hkept : ∀ t' ∈ l,
          t' ∈ (h.modifyNode now t cooldownMod withoutCategoryCooldown).spellCooldowns := by
        intro t' ht'
        have hne : t' ≠ t := fun heq => hnot (heq ▸ ht')
        have hlookup : (h.modifyNode now t cooldownMod withoutCategoryCooldown).spellCooldowns.lookup
            t' = h.spellCooldowns.lookup t' := by
          unfold SpellHistory.modifyNode
          dsimp only
          split
          · rw [lookup_eraseCooldown, if_neg hne, lookup_setEntry, if_neg hne]
          · rw [lookup_setEntry, if_neg hne]
        rw [← lookup_isSome, hlookup, lookup_isSome]
        exact hrest t' ht'
      have hmodified := hok.modifyNode now ht cooldownMod withoutCategoryCooldown
      unfold SpellHistory.modifyCooldowns
      dsimp only
      split
      · split
        · rename_i hstays
          refine ih hmodified _ (fun t' ht' => ?_) hnodup
          exact (mem_cons.mp ht').elim (fun heq => heq ▸ hstays) (hkept t')
        · exact ih hmodified _ hkept hnodup'
      · exact ih hok _ hrest hnodup'

theorem IndexOk.updateCategories (hok : h.IndexOk) (now : Int) (l : List (Σ _ : Nat, Nat))
    (hl : l.Nodup) (hkeys : (l.map Sigma.fst).Nodup)
    (hmem : ∀ category ∈ l, h.categoryCooldowns.lookup category.1 = some category.2) :
    Ends (fun _ => False) (l.foldlM (updateCategory now) h) fun h' =>
      h'.IndexOk ∧ h'.spellCooldowns = h.spellCooldowns := by
  induction l generalizing h with
  | nil => exact ⟨hok, rfl⟩
  | cons category l ih =>
    obtain ⟨hnot, hkeys'⟩ := nodup_cons.mp hkeys
    obtain ⟨t, node, hnode, haddress, _⟩ := hok.indexed _ _ (hmem category mem_cons_self)
    obtain ⟨entry, hentry⟩ := deref_of_pointer hnode haddress
    have hrest : ∀ category' ∈ l, h.categoryCooldowns.lookup category'.1 = some category'.2 :=
      fun category' hcategory' => hmem category' (mem_cons_of_mem category hcategory')
    rw [foldlM_cons]
    unfold updateCategory
    rw [hentry]
    change Ends _ ((if entry.categoryEnd < now then _ else _ : Except Fault SpellHistory) >>= _) _
    split
    · have hsmaller : ({ h with
          categoryCooldowns := h.categoryCooldowns.erase category.1 } : SpellHistory).IndexOk := by
        refine ⟨fun c address hpointer => ?_, ⟨hok.addressed.unique, hok.addressed.fresh⟩⟩
        by_cases hc : c = category.1
        · rw [hc, lookup_erase] at hpointer
          cases hpointer
        · rw [lookup_erase_ne hc] at hpointer
          exact hok.indexed c address hpointer
      refine (ih hsmaller (nodup_cons.mp hl).2 hkeys' fun category' hcategory' => ?_)
      have hne : category'.1 ≠ category.1 :=
        fun heq => hnot (heq ▸ mem_map_of_mem hcategory')
      rw [lookup_erase_ne hne]
      exact hrest category' hcategory'
    · exact ih hok (nodup_cons.mp hl).2 hkeys' hrest

theorem IndexOk.update (hok : h.IndexOk) (now : Int) :
    Ends (fun _ => False) (h.update now) IndexOk := by
  have hcategories := hok.updateCategories now h.categoryCooldowns.entries
    h.categoryCooldowns.nodupKeys.nodup h.categoryCooldowns.keys_nodup
    fun category hcategory => mem_lookup_iff.mpr hcategory
  refine hcategories.bind fun h₁ hh₁ => ?_
  have hcooldowns := hh₁.1.eraseWhere (fun _ entry => entry.cooldownEnd < now)
    h₁.spellCooldowns.keys h₁.spellCooldowns.keys_nodup fun t ht => mem_keys.mpr ht
  simp only [decide_eq_true_eq] at hcooldowns
  exact hcooldowns.congr rfl rfl rfl

section loops

variable {w : Nat → Option Nat} {ahead : List Nat} {t : Nat}

theorem WrittenSoFar.deref (hloop : WrittenSoFar w h ahead h') (hok : h.IndexOk) {c address : Nat}
    (hpointer : h'.categoryCooldowns.lookup c = some address) :
    ∃ entry, h'.deref address = .ok entry := by
  rw [hloop.index] at hpointer
  obtain ⟨t, node, hnode, haddress, _⟩ := hok.indexed c address hpointer
  by_cases ht : t ∈ ahead
  · exact deref_of_pointer ((hloop.untouched t ht).trans hnode) haddress
  · obtain ⟨node', hnode', haddress', _⟩ := hloop.done t ht node hnode
    exact deref_of_pointer hnode' (haddress'.trans haddress)

theorem WrittenSoFar.addLockout (hloop : WrittenSoFar w h (t :: ahead) h') (hnot : t ∉ ahead)
    {cooldownEnd categoryEnd : Int} (hw : ∀ node, h.spellCooldowns.lookup t = some node →
      w t = if h.storesCooldown t cooldownEnd categoryEnd false then some 0 else none) :
    WrittenSoFar w h ahead (h'.addCooldown t 0 cooldownEnd 0 categoryEnd) := by
  have hnode : h'.nodeAt t = (h.spellCooldowns.lookup t).getD { address := h'.nextAddress } := by
    unfold nodeAt
    rw [hloop.untouched t mem_cons_self]
  unfold addCooldown
  split
  · rename_i hstores
    refine hloop.write hnot fun node hlookup => ?_
    have hsame : h'.nodeAt t = h.nodeAt t := by rw [hnode, hlookup, nodeAt_of_lookup hlookup]; rfl
    have hstores' : h.storesCooldown t cooldownEnd categoryEnd false = true := by
      unfold storesCooldown at hstores ⊢
      rwa [hsame] at hstores
    rw [hw node hlookup, if_pos hstores']
    rfl
  · rename_i hstores
    refine hloop.write hnot fun node hlookup => ?_
    have hsame : h'.nodeAt t = h.nodeAt t := by rw [hnode, hlookup, nodeAt_of_lookup hlookup]; rfl
    have hstores' : ¬ h.storesCooldown t cooldownEnd categoryEnd false = true := by
      unfold storesCooldown at hstores ⊢
      rwa [hsame] at hstores
    rw [hw node hlookup, if_neg hstores', hsame, nodeAt_of_lookup hlookup]
    rfl

variable (view : View) (now : Int)

theorem lockSpell_written (hok : h.IndexOk) (schoolMask : Nat) (lockoutTime : Int)
    (hloop : WrittenSoFar (h.lockWrites view now schoolMask lockoutTime) h (t :: ahead) h')
    (hnot : t ∉ ahead) (hknown : t ∈ view.knownSpells) :
    Ends (fun _ => False) (h'.lockSpell view now schoolMask lockoutTime t)
      (WrittenSoFar (h.lockWrites view now schoolMask lockoutTime) h ahead) := by
  unfold lockSpell
  dsimp only
  split
  · rename_i hlockable
    have hsame : h'.spellCooldowns.lookup (view.getSpellInfo t).id = h.spellCooldowns.lookup t := by
      rw [view.getSpellInfo_id, hloop.untouched t mem_cons_self]
    have hremaining : Ends (fun _ => False) (h'.getRemainingCooldown now (view.getSpellInfo t))
        fun remaining => ∀ node, h.spellCooldowns.lookup t = some node →
          remaining = remainingTime now node.entry.cooldownEnd := by
      unfold getRemainingCooldown
      rw [hsame]
      cases hlookup : h.spellCooldowns.lookup t with
      | some node =>
        intro node' hnode'
        cases hnode'
        rfl
      | none =>
        have habsent : ∀ (remaining : Int) node, (none : Option CooldownNode) = some node →
            remaining = remainingTime now node.entry.cooldownEnd := fun _ _ hnode => by cases hnode
        cases hpointer : h'.categoryCooldowns.lookup (view.getSpellInfo t).category with
        | none => exact habsent 0
        | some address =>
          obtain ⟨entry, hentry⟩ := hloop.deref hok hpointer
          dsimp only
          rw [hentry]
          exact habsent _
    refine hremaining.bind fun remaining hexact => ?_
    split
    · rename_i hless
      refine hloop.addLockout hnot fun node hnode => ?_
      rw [hexact node hnode] at hless
      simp [lockWrites, hknown, hlockable, nodeAt_of_lookup hnode, hless]
    · rename_i hless
      refine hloop.skip fun node hnode => ?_
      rw [hexact node hnode] at hless
      simp [lockWrites, nodeAt_of_lookup hnode, hless]
  · rename_i hlockable
    refine hloop.skip fun node hnode => ?_
    simp [lockWrites, hlockable]

theorem lockSpellSchool_written (hok : h.IndexOk) (schoolMask : Nat) (lockoutTime : Int) :
    Ends (fun _ => False) (h.lockSpellSchool view now schoolMask lockoutTime) fun h' =>
      Written (h.lockWrites view now schoolMask lockoutTime) h h' ∧ h'.Addressed := by
  unfold lockSpellSchool
  have hfinish : ∀ h', WrittenSoFar (h.lockWrites view now schoolMask lockoutTime) h [] h' →
      Written (h.lockWrites view now schoolMask lockoutTime) h h' ∧ h'.Addressed :=
    fun h' hloop => ⟨hloop.finish, hloop.addressed⟩
  refine (Ends.foldlM
    (fun ahead h' => WrittenSoFar (h.lockWrites view now schoolMask lockoutTime) h ahead h' ∧
      ahead.Nodup ∧ ahead ⊆ view.knownSpells) (fun t ahead h' hinv => ?_) _ _ ?_).mono
    fun h' hinv => hfinish h' hinv.1
  · obtain ⟨hloop, hnodup, hsub⟩ := hinv
    obtain ⟨hnot, hnodup'⟩ := nodup_cons.mp hnodup
    refine (lockSpell_written view now hok schoolMask lockoutTime hloop hnot
      (hsub mem_cons_self)).mono fun h'' hloop' => ⟨hloop', hnodup', ?_⟩
    exact fun t' ht' => hsub (mem_cons_of_mem t ht')
  · refine ⟨?_, view.knownSpells_nodup, List.Subset.refl _⟩
    have hstart : WrittenSoFar (h.lockWrites view now schoolMask lockoutTime) h view.knownSpells h :=
      .start hok.addressed fun t ht => by simp [lockWrites, ht]
    exact ⟨⟨hok.addressed.unique, hok.addressed.fresh⟩, rfl, hstart.untouched, hstart.done⟩

theorem restoreEntries_written (saved : List (Σ _ : Nat, CooldownEntry))
    (hnodup : (saved.map Sigma.fst).Nodup)
    (hloop : WrittenSoFar w h (saved.map Sigma.fst) h')
    (hw : ∀ entry ∈ saved, ∀ node, h.spellCooldowns.lookup entry.1 = some node →
      w entry.1 = if !entry.2.onHold ∧ !node.entry.onHold then some entry.2.categoryId else none) :
    WrittenSoFar w h [] (saved.foldl restoreEntry h') := by
  induction saved generalizing h' with
  | nil => exact hloop
  | cons entry saved ih =>
    obtain ⟨hnot, hnodup'⟩ := nodup_cons.mp hnodup
    have hrest : ∀ entry' ∈ saved, ∀ node, h.spellCooldowns.lookup entry'.1 = some node →
        w entry'.1 =
          if !entry'.2.onHold ∧ !node.entry.onHold then some entry'.2.categoryId else none :=
      fun entry' hentry' => hw entry' (mem_cons_of_mem entry hentry')
    have hsame := hloop.untouched entry.1 mem_cons_self
    refine ih hnodup' ?_ hrest
    unfold restoreEntry
    split
    · rename_i hcase
      refine WrittenSoFar.write hloop hnot fun node hnode => ?_
      rw [nodeAt_of_lookup (hsame.trans hnode)] at hcase
      rw [hw entry mem_cons_self node hnode, if_pos ⟨hcase.1, hcase.2.2⟩]
      rfl
    · rename_i hcase
      refine WrittenSoFar.skip hloop fun node hnode => ?_
      rw [nodeAt_of_lookup (hsame.trans hnode)] at hcase
      have hmem : entry.1 ∈ h'.spellCooldowns := by
        rw [← lookup_isSome, hsame, hnode]
        rfl
      rw [hw entry mem_cons_self node hnode, if_neg]
      exact fun hcase' => hcase ⟨hcase'.1, hmem, hcase'.2⟩

theorem restoreCooldowns_written (haddressed : h.Addressed) :
    Written (h.restoreWrites view) h (h.restoreCooldownStateAfterDuel view) ∧
      (h.restoreCooldownStateAfterDuel view).Addressed := by
  unfold restoreCooldownStateAfterDuel
  by_cases hplayer : view.isPlayer = true
  · rw [if_pos hplayer]
    have hkeys : ∀ t, t ∉ (h.withProfessionCooldowns view).entries.map Sigma.fst →
        h.restoreWrites view t = none := by
      intro t ht
      have hnone : (h.withProfessionCooldowns view).lookup t = none :=
        lookup_eq_none.mpr fun hmem => ht hmem
      simp [restoreWrites, hnone]
    have hstart := WrittenSoFar.start haddressed hkeys
    have hbegin : WrittenSoFar (h.restoreWrites view) h
        ((h.withProfessionCooldowns view).entries.map Sigma.fst)
        { h with spellCooldownsBeforeDuel := h.withProfessionCooldowns view } :=
      ⟨⟨haddressed.unique, haddressed.fresh⟩, rfl, hstart.untouched, hstart.done⟩
    have hloop := restoreEntries_written _ (h.withProfessionCooldowns view).keys_nodup hbegin ?_
    · exact ⟨hloop.finish, hloop.addressed⟩
    · intro entry hentry node hnode
      have hsaved : (h.withProfessionCooldowns view).lookup entry.1 = some entry.2 :=
        mem_lookup_iff.mpr hentry
      simp [restoreWrites, hsaved, hplayer, nodeAt_of_lookup hnode]
  · have hnowhere : h.restoreWrites view = nowhere := by
      funext t
      unfold restoreWrites nowhere
      split
      · rfl
      · simp [hplayer]
    rw [if_neg hplayer, hnowhere]
    exact ⟨Written.refl h, haddressed⟩

end loops

end SpellHistory

open SpellHistory

/-- The categories that a request writes over entries that exist. -/
def CooldownRequest.writes (view : View) (s : CooldownState) : CooldownRequest → Nat → Option Nat
  | .startCooldown spellInfo itemId onHold forcedCooldown =>
    match startedCooldown view s.now spellInfo itemId onHold forcedCooldown with
    | none => nowhere
    | some (recTime, categoryId, catrecTime) =>
      s.history.addWrites spellInfo.id recTime categoryId catrecTime onHold
  | .addCooldown spellId _ cooldownEnd categoryId categoryEnd onHold =>
    s.history.addWrites spellId cooldownEnd categoryId categoryEnd onHold
  | .lockSpellSchool schoolMask lockoutTime =>
    s.history.lockWrites view s.now schoolMask lockoutTime
  | .restoreCooldownStateAfterDuel => s.history.restoreWrites view
  | .loadCooldown spellId _ _ categoryId _ => only spellId categoryId
  | _ => nowhere

def Result (view : View) (s : CooldownState) (request : CooldownRequest) (s' : CooldownState) :
    Prop :=
  s'.history.Addressed ∧ (s'.history.Indexed ↔ ¬ Rebrands (request.writes view s) s.history)

section requests

variable {s : CooldownState} (view : View)

variable {s' : CooldownState} {request : CooldownRequest}

theorem result_of_ok (hwrites : request.writes view s = nowhere) (hok : s'.history.IndexOk) :
    Result view s request s' := by
  refine ⟨hok.addressed, iff_of_true hok.indexed ?_⟩
  rw [hwrites]
  exact not_rebrands_nowhere

theorem result_of_written (hok : s.history.IndexOk)
    (hwritten : Written (request.writes view s) s.history s'.history)
    (haddressed : s'.history.Addressed) : Result view s request s' :=
  ⟨haddressed, hwritten.indexed_iff hok.indexed haddressed⟩

/-- No request follows a pointer in vain, and only rebranding spoils the index. -/
theorem perform_result (hok : s.history.IndexOk) (request : CooldownRequest) :
    Ends (· = .unfinished) (s.perform view request) (Result view s request) := by
  have total : ∀ {r : Except Fault CooldownState}, Ends (fun _ => False) r (Result view s request) →
      Ends (· = .unfinished) r (Result view s request) := fun hr => hr.allow fun _ => False.elim
  cases request with
  | startCooldown spellInfo itemId onHold forcedCooldown =>
    cases hstarted : startedCooldown view s.now spellInfo itemId onHold forcedCooldown with
    | none =>
      refine total (result_of_written view hok ?_ ?_) <;>
        simp only [CooldownRequest.writes, startCooldown, hstarted]
      · exact Written.refl _
      · exact hok.addressed
    | some started =>
      refine total (result_of_written view hok ?_ ?_) <;>
        simp only [CooldownRequest.writes, startCooldown, hstarted]
      · exact written_addCooldown _ _ _ _ _ _ _
      · exact addressed_addCooldown hok.addressed _ _ _ _ _ _
  | addCooldown spellId itemId cooldownEnd categoryId categoryEnd onHold =>
    exact total (result_of_written view hok (written_addCooldown _ _ _ _ _ _ _)
      (addressed_addCooldown hok.addressed _ _ _ _ _ _))
  | modifySpellCooldown spellId cooldownMod withoutCategoryCooldown =>
    exact total (result_of_ok view rfl (hok.modifySpellCooldown _ _ _ _))
  | modifyCooldowns predicate cooldownMod withoutCategoryCooldown fuel =>
    refine Ends.map ((hok.modifyCooldowns s.now predicate cooldownMod withoutCategoryCooldown fuel
      s.history.spellCooldowns.keys (fun t ht => mem_keys.mpr ht)
      s.history.spellCooldowns.keys_nodup).mono fun h' hh' => result_of_ok view rfl hh')
  | resetCooldown spellId => exact total (result_of_ok view rfl (hok.resetCooldown spellId))
  | resetCooldowns predicate =>
    exact total (result_of_ok view rfl (hok.eraseWhere predicate _ s.history.spellCooldowns.keys_nodup
      fun t ht => mem_keys.mpr ht))
  | resetAllCooldowns =>
    refine total (result_of_ok view rfl ⟨fun c address hpointer => ?_, ⟨?_, ?_⟩⟩)
    · cases hpointer
    · intro t t' node node' hnode
      cases hnode
    · intro t node hnode
      cases hnode
  | lockSpellSchool schoolMask lockoutTime =>
    exact total (Ends.map ((lockSpellSchool_written view s.now hok schoolMask lockoutTime).mono
      fun h' hh' => result_of_written view hok hh'.1 hh'.2))
  | saveCooldownStateBeforeDuel => exact total (result_of_ok view rfl (hok.congr rfl rfl rfl))
  | restoreCooldownStateAfterDuel =>
    have hrestored := restoreCooldowns_written view hok.addressed
    exact total (result_of_written view hok hrestored.1 hrestored.2)
  | loadCooldown spellId itemId cooldownEnd categoryId categoryEnd =>
    exact total (result_of_written view hok
      (written_store s.history spellId { spellId, cooldownEnd, itemId, categoryId, categoryEnd })
      ((hok.addressed.setEntry _ _).setCategory _ _))
  | update => exact total (Ends.map ((hok.update s.now).mono fun h' hh' => result_of_ok view rfl hh'))
  | wait elapsed => exact total (result_of_ok view rfl hok)

end requests

end LegionServer.Source.Spells
