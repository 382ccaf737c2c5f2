import LegionServer.Source.Spells.SpellHistory

/-!
# The index of category cooldowns

An entry that is erased takes the pointer of its category along; one that is overwritten with
another category leaves the pointer of the old one behind.
-/
namespace LegionServer.Source.Spells
open Library List Option AList

namespace SpellHistory

variable {h h' : SpellHistory} {spellId : Nat} {node : CooldownNode} {entry : CooldownEntry}

section
variable (h : SpellHistory)

theorem lookup_setEntry (spellId : Nat) (entry : CooldownEntry) (t : Nat) :
    (h.setEntry spellId entry).spellCooldowns.lookup t =
      if t = spellId then some { address := (h.nodeAt spellId).address, entry }
      else h.spellCooldowns.lookup t := by
  unfold setEntry
  by_cases heq : t = spellId
  · subst heq
    rw [if_pos rfl, lookup_insert]
  · rw [if_neg heq, lookup_insert_ne heq]

theorem lookup_eraseCooldown (spellId t : Nat) :
    (h.eraseCooldown spellId).spellCooldowns.lookup t =
      if t = spellId then none else h.spellCooldowns.lookup t := by
  unfold eraseCooldown
  by_cases heq : t = spellId
  · subst heq
    rw [if_pos rfl, lookup_erase]
  · rw [if_neg heq, lookup_erase_ne heq]

theorem category_eraseCooldown (spellId c : Nat) :
    (h.eraseCooldown spellId).categoryCooldowns.lookup c =
      if c = (h.nodeAt spellId).entry.categoryId then none else h.categoryCooldowns.lookup c := by
  unfold eraseCooldown
  by_cases heq : c = (h.nodeAt spellId).entry.categoryId
  · rw [if_pos heq, ← heq, lookup_erase]
  · rw [if_neg heq, lookup_erase_ne heq]

theorem category_setCategory (categoryId address c : Nat) :
    (h.setCategory categoryId address).categoryCooldowns.lookup c =
      if c = categoryId ∧ categoryId ≠ 0 then some address else h.categoryCooldowns.lookup c := by
  unfold setCategory
  by_cases hzero : categoryId = 0
  · simp [hzero]
  · by_cases heq : c = categoryId
    · subst heq
      simp [hzero, lookup_insert]
    · simp [hzero, heq, lookup_insert_ne heq]

@[simp] theorem category_setEntry (spellId : Nat) (entry : CooldownEntry) :
    (h.setEntry spellId entry).categoryCooldowns = h.categoryCooldowns := rfl

@[simp] theorem cooldowns_setCategory (categoryId address : Nat) :
    (h.setCategory categoryId address).spellCooldowns = h.spellCooldowns := by
  unfold setCategory
  split <;> rfl

@[simp] theorem nextAddress_setCategory (categoryId address : Nat) :
    (h.setCategory categoryId address).nextAddress = h.nextAddress := by
  unfold setCategory
  split <;> rfl

end

theorem nodeAt_of_lookup (hlookup : h.spellCooldowns.lookup spellId = some node) :
    h.nodeAt spellId = node := by
  rw [nodeAt, hlookup]
  rfl

/-- Each pointer of the index refers to an entry of its category. -/
def Indexed (h : SpellHistory) : Prop :=
  ∀ c address, h.categoryCooldowns.lookup c = some address →
    ∃ spellId node, h.spellCooldowns.lookup spellId = some node ∧ node.address = address ∧
      node.entry.categoryId = c

/-- No two nodes have one address, and new ones get an address of their own. -/
structure Addressed (h : SpellHistory) : Prop where
  unique : ∀ {t t' node node'}, h.spellCooldowns.lookup t = some node →
    h.spellCooldowns.lookup t' = some node' → node.address = node'.address → t = t'
  fresh : ∀ {t node}, h.spellCooldowns.lookup t = some node → node.address < h.nextAddress

theorem Addressed.setEntry (h₀ : h.Addressed) (spellId : Nat) (entry : CooldownEntry) :
    (h.setEntry spellId entry).Addressed := by
  have hnext : h.nextAddress ≤ (h.setEntry spellId entry).nextAddress := by
    unfold SpellHistory.setEntry
    dsimp only
    split <;> omega
  have hnew : (h.nodeAt spellId).address < (h.setEntry spellId entry).nextAddress := by
    cases hlookup : h.spellCooldowns.lookup spellId with
    | some node =>
      rw [nodeAt_of_lookup hlookup]
      exact (h₀.fresh hlookup).trans_le hnext
    | none =>
      have habsent : spellId ∉ h.spellCooldowns := lookup_eq_none.mp hlookup
      simp [nodeAt, hlookup, SpellHistory.setEntry, habsent]
  have hother : ∀ {t node}, t ≠ spellId → h.spellCooldowns.lookup t = some node →
      node.address ≠ (h.nodeAt spellId).address := by
    intro t node hne hnode heq
    cases hlookup : h.spellCooldowns.lookup spellId with
    | some node' =>
      rw [nodeAt_of_lookup hlookup] at heq
      exact hne (h₀.unique hnode hlookup heq)
    | none =>
      have hlt := h₀.fresh hnode
      rw [heq] at hlt
      simp [nodeAt, hlookup] at hlt
  constructor
  · intro t t' node node' hnode hnode' haddress
    rw [lookup_setEntry] at hnode hnode'
    split at hnode
    · rename_i ht
      cases hnode
      split at hnode'
      · rename_i ht'
        rw [ht, ht']
      · rename_i ht'
        exact absurd haddress.symm (hother ht' hnode')
    · rename_i ht
      split at hnode'
      · cases hnode'
        exact absurd haddress (hother ht hnode)
      · exact h₀.unique hnode hnode' haddress
  · intro t node hnode
    rw [lookup_setEntry] at hnode
    split at hnode
    · cases hnode
      exact hnew
    · exact (h₀.fresh hnode).trans_le hnext

theorem Addressed.setCategory (h₀ : h.Addressed) (categoryId address : Nat) :
    (h.setCategory categoryId address).Addressed where
  unique hnode hnode' := by
    rw [cooldowns_setCategory] at hnode hnode'
    exact h₀.unique hnode hnode'
  fresh hnode := by
    rw [cooldowns_setCategory] at hnode
    rw [nextAddress_setCategory]
    exact h₀.fresh hnode

theorem Addressed.eraseCooldown (h₀ : h.Addressed) (spellId : Nat) :
    (h.eraseCooldown spellId).Addressed := by
  have hold : ∀ {t node}, (h.eraseCooldown spellId).spellCooldowns.lookup t = some node →
      h.spellCooldowns.lookup t = some node := by
    intro t node hnode
    rw [lookup_eraseCooldown] at hnode
    split at hnode
    · cases hnode
    · exact hnode
  exact ⟨fun hnode hnode' => h₀.unique (hold hnode) (hold hnode'), fun hnode => h₀.fresh (hold hnode)⟩

theorem Indexed.eraseCooldown (h₀ : h.Indexed) (hmem : spellId ∈ h.spellCooldowns) :
    (h.eraseCooldown spellId).Indexed := by
  obtain ⟨erased, herased⟩ := isSome_iff_exists.mp (lookup_isSome.mpr hmem)
  intro c address haddress
  rw [category_eraseCooldown, nodeAt_of_lookup herased] at haddress
  split at haddress
  · cases haddress
  rename_i hne
  obtain ⟨t, node, hnode, hnodeAddress, hcategory⟩ := h₀ c address haddress
  refine ⟨t, node, ?_, hnodeAddress, hcategory⟩
  rw [lookup_eraseCooldown, if_neg, hnode]
  rintro rfl
  rw [herased] at hnode
  cases hnode
  exact hne hcategory.symm

/-- The entries under these spells get these categories; the index may gain
pointers to entries of their category. -/
structure Written (w : Nat → Option Nat) (h h' : SpellHistory) : Prop where
  kept : ∀ t node, h.spellCooldowns.lookup t = some node →
    ∃ node', h'.spellCooldowns.lookup t = some node' ∧ node'.address = node.address ∧
      node'.entry.categoryId = (w t).getD node.entry.categoryId
  index : ∀ c address, h'.categoryCooldowns.lookup c = some address →
    h.categoryCooldowns.lookup c = some address ∨
      ∃ t node, h'.spellCooldowns.lookup t = some node ∧ node.address = address ∧
        node.entry.categoryId = c
  stale : ∀ t node c, h.spellCooldowns.lookup t = some node → w t = some c →
    c ≠ node.entry.categoryId → h'.categoryCooldowns.lookup node.entry.categoryId =
        h.categoryCooldowns.lookup node.entry.categoryId

/-- One of these spells gets another category while the index still points to
its entry under the old one. -/
def Rebrands (w : Nat → Option Nat) (h : SpellHistory) : Prop :=
  ∃ t node c, h.spellCooldowns.lookup t = some node ∧ w t = some c ∧ c ≠ node.entry.categoryId ∧
    h.categoryCooldowns.lookup node.entry.categoryId = some node.address

theorem Written.indexed_iff {w : Nat → Option Nat} (hwritten : Written w h h') (h₀ : h.Indexed)
    (haddressed : h'.Addressed) : h'.Indexed ↔ ¬ Rebrands w h := by
  constructor
  · rintro hindexed ⟨t, node, c, hnode, hw, hne, hpointer⟩
    have hpointer' := hwritten.stale t node c hnode hw hne
    rw [hpointer] at hpointer'
    obtain ⟨t', other, hother, haddress, hcategory⟩ := hindexed _ _ hpointer'
    obtain ⟨node', hnode', haddress', hcategory'⟩ := hwritten.kept t node hnode
    have hsame := haddressed.unique hother hnode' (haddress.trans haddress'.symm)
    subst hsame
    rw [hother] at hnode'
    cases hnode'
    rw [hw, getD_some] at hcategory'
    exact hne (hcategory'.symm.trans hcategory)
  · intro hkeeps c address hpointer
    rcases hwritten.index c address hpointer with hold | hnew
    · obtain ⟨t, node, hnode, haddress, hcategory⟩ := h₀ c address hold
      obtain ⟨node', hnode', haddress', hcategory'⟩ := hwritten.kept t node hnode
      refine ⟨t, node', hnode', haddress'.trans haddress, ?_⟩
      cases hw : w t with
      | none => rw [hcategory', hw, getD_none, hcategory]
      | some c' =>
        rw [hcategory', hw, getD_some]
        by_contra hne
        refine hkeeps ⟨t, node, c', hnode, hw, fun heq => hne (heq.trans hcategory), ?_⟩
        rw [hcategory, hold, haddress]
    · exact hnew

def nowhere : Nat → Option Nat := fun _ => none

def only (spellId categoryId : Nat) : Nat → Option Nat := fun t =>
  if t = spellId then some categoryId else none

theorem not_rebrands_nowhere : ¬ Rebrands nowhere h := by
  rintro ⟨_, _, _, _, hw, _⟩
  cases hw

theorem Written.refl (h : SpellHistory) : Written nowhere h h where
  kept _ node hnode := ⟨node, hnode, rfl, rfl⟩
  index _ _ := .inl
  stale _ _ _ _ hw := by cases hw

theorem written_setEntry (h : SpellHistory) (spellId : Nat) (entry : CooldownEntry) :
    Written (only spellId entry.categoryId) h (h.setEntry spellId entry) where
  kept t node hnode := by
    rw [lookup_setEntry]
    by_cases heq : t = spellId
    · subst heq
      rw [if_pos rfl]
      exact ⟨_, rfl, by rw [nodeAt_of_lookup hnode], by simp [only]⟩
    · rw [if_neg heq]
      exact ⟨node, hnode, rfl, by simp [only, heq]⟩
  index _ _ := .inl
  stale _ _ _ _ _ _ := rfl

theorem written_store (h : SpellHistory) (spellId : Nat) (entry : CooldownEntry) :
    Written (only spellId entry.categoryId) h
      ((h.setEntry spellId entry).setCategory entry.categoryId (h.nodeAt spellId).address) where
  kept t node hnode := by
    rw [cooldowns_setCategory]
    exact (written_setEntry h spellId entry).kept t node hnode
  index c address hpointer := by
    rw [category_setCategory] at hpointer
    split at hpointer
    · rename_i hc
      cases hpointer
      refine .inr ⟨spellId, { address := (h.nodeAt spellId).address, entry }, ?_, rfl, hc.1.symm⟩
      rw [cooldowns_setCategory, lookup_setEntry, if_pos rfl]
    · exact .inl hpointer
  stale t node c hnode hw hne := by
    have hc : c = entry.categoryId := by
      unfold only at hw
      split at hw
      · exact (Option.some.inj hw).symm
      · cases hw
    rw [category_setCategory, if_neg (fun heq => hne (hc.trans heq.1.symm)), category_setEntry]

theorem Written.of_same {w : Nat → Option Nat} (hwritten : Written w h h')
    (hsame : ∀ t node c, h.spellCooldowns.lookup t = some node → w t = some c →
      c = node.entry.categoryId) : Written nowhere h h' where
  kept t node hnode := by
    obtain ⟨node', hnode', haddress, hcategory⟩ := hwritten.kept t node hnode
    refine ⟨node', hnode', haddress, hcategory.trans ?_⟩
    cases hw : w t with
    | none => rfl
    | some c => exact hsame t node c hnode hw
  index := hwritten.index
  stale _ _ _ _ hw := by cases hw

structure WrittenSoFar (w : Nat → Option Nat) (h : SpellHistory) (ahead : List Nat)
    (h' : SpellHistory) : Prop where
  addressed : h'.Addressed
  index : h'.categoryCooldowns = h.categoryCooldowns
  untouched : ∀ t ∈ ahead, h'.spellCooldowns.lookup t = h.spellCooldowns.lookup t
  done : ∀ t, t ∉ ahead → ∀ node, h.spellCooldowns.lookup t = some node →
    ∃ node', h'.spellCooldowns.lookup t = some node' ∧ node'.address = node.address ∧
      node'.entry.categoryId = (w t).getD node.entry.categoryId

section loops

variable {w : Nat → Option Nat} {ahead : List Nat} {t : Nat}

theorem WrittenSoFar.start (haddressed : h.Addressed) (hahead : ∀ t, t ∉ ahead → w t = none) :
    WrittenSoFar w h ahead h where
  addressed := haddressed
  index := rfl
  untouched _ _ := rfl
  done t ht node hnode := ⟨node, hnode, rfl, by rw [hahead t ht, getD_none]⟩

theorem WrittenSoFar.finish (hloop : WrittenSoFar w h [] h') : Written w h h' where
  kept t := hloop.done t not_mem_nil
  index c address hpointer := .inl (by rwa [hloop.index] at hpointer)
  stale _ _ _ _ _ _ := by rw [hloop.index]

theorem WrittenSoFar.write (hloop : WrittenSoFar w h (t :: ahead) h') (hnot : t ∉ ahead)
    {entry : CooldownEntry} (hcategory : ∀ node, h.spellCooldowns.lookup t = some node →
      entry.categoryId = (w t).getD node.entry.categoryId) :
    WrittenSoFar w h ahead (h'.setEntry t entry) where
  addressed := hloop.addressed.setEntry t entry
  index := hloop.index
  untouched t' ht' := by
    have hne : t' ≠ t := fun heq => hnot (heq ▸ ht')
    rw [lookup_setEntry, if_neg hne]
    exact hloop.untouched t' (mem_cons_of_mem t ht')
  done t' ht' node hnode := by
    rw [lookup_setEntry]
    by_cases heq : t' = t
    · subst heq
      have hsame : h'.spellCooldowns.lookup t' = some node := by
        rw [hloop.untouched t' mem_cons_self, hnode]
      rw [if_pos rfl]
      exact ⟨_, rfl, by rw [nodeAt_of_lookup hsame], hcategory node hnode⟩
    · rw [if_neg heq]
      exact hloop.done t' (fun hmem => (mem_cons.mp hmem).elim heq ht') node hnode

theorem WrittenSoFar.skip (hloop : WrittenSoFar w h (t :: ahead) h')
    (hnone : ∀ node, h.spellCooldowns.lookup t = some node → w t = none) :
    WrittenSoFar w h ahead h' where
  addressed := hloop.addressed
  index := hloop.index
  untouched t' ht' := hloop.untouched t' (mem_cons_of_mem t ht')
  done t' ht' node hnode := by
    by_cases heq : t' = t
    · subst heq
      exact ⟨node, (hloop.untouched t' mem_cons_self).trans hnode, rfl, by
        rw [hnone node hnode, getD_none]⟩
    · exact hloop.done t' (fun hmem => (mem_cons.mp hmem).elim heq ht') node hnode

end loops

structure IndexOk (h : SpellHistory) : Prop where
  indexed : h.Indexed
  addressed : h.Addressed

/-- Other parts of the history do not matter. -/
theorem IndexOk.congr (hok : h.IndexOk) (hcooldowns : h'.spellCooldowns = h.spellCooldowns)
    (hcategories : h'.categoryCooldowns = h.categoryCooldowns)
    (hnext : h'.nextAddress = h.nextAddress) : h'.IndexOk := by
  refine ⟨?_, ⟨fun hnode hnode' => ?_, fun hnode => ?_⟩⟩
  · unfold Indexed
    rw [hcooldowns, hcategories]
    exact hok.indexed
  · rw [hcooldowns] at hnode hnode'
    exact hok.addressed.unique hnode hnode'
  · rw [hcooldowns] at hnode
    rw [hnext]
    exact hok.addressed.fresh hnode

theorem deref_of_pointer {address : Nat} (hnode : h.spellCooldowns.lookup spellId = some node)
    (haddress : node.address = address) : ∃ entry, h.deref address = .ok entry := by
  unfold deref
  cases hfind : h.spellCooldowns.entries.find? (·.2.address = address) with
  | some found => exact ⟨_, rfl⟩
  | none =>
    have hmem := mem_lookup_iff.mp hnode
    have hnot := find?_eq_none.mp hfind ⟨spellId, node⟩ hmem
    simp [haddress] at hnot

end SpellHistory

end LegionServer.Source.Spells
