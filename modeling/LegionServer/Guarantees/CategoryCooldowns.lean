import Mathlib.Data.Fintype.EquivFin
import LegionServer.Source.Spells.CategoryKeys

/-!
# No dangling category cooldowns

The index of category cooldowns stays right, and no pointer is followed to an erased
entry, as long as no entry gets another category under a pointer.
-/
open List
open AList
namespace LegionServer.Guarantees.CategoryCooldowns
open Library Source.Spells

section

/-- An entry gets another category while the index points to it. -/
def Rebrands (call : View × CooldownRequest) (s : CooldownState) : Prop :=
  SpellHistory.Rebrands (call.2.writes call.1 s) s.history

theorem indexOk_empty {s : CooldownState} (h : s.history = {}) : s.history.IndexOk := by
  rw [h]
  refine ⟨fun c address hpointer => ?_, ⟨fun hnode => ?_, fun hnode => ?_⟩⟩
  · cases hpointer
  · cases hnode
  · cases hnode

/-- In every run that rebrands no entry the index is right and no request follows
a dangling pointer; the next request keeps the index right exactly if it rebrands
no entry either. -/
theorem reachable_index_right {s : CooldownState}
    (h : (cooldownSystem.guarded fun call s => ¬ Rebrands call s).Reachable s) :
    s.history.Indexed ∧
    (∀ call : View × CooldownRequest, s.perform call.1 call.2 ≠ .error .useAfterFree) ∧
    ∀ (call : View × CooldownRequest) (s' : CooldownState), s.perform call.1 call.2 = .ok s' →
      (s'.history.Indexed ↔ ¬ Rebrands call s) := by
  have hok : s.history.IndexOk := by
    refine h.invariant (fun s => s.history.IndexOk) (fun s hinit => indexOk_empty hinit) ?_
    intro call s s' hs hstep
    have hresult := (perform_result call.1 hs call.2).post_of_ok hstep.2
    exact ⟨hresult.2.mpr hstep.1, hresult.1⟩
  refine ⟨hok.indexed, fun call hfault => ?_, fun call s' hstep => ?_⟩
  · cases (perform_result call.1 hok call.2).may_of_error hfault
  · exact ((perform_result call.1 hok call.2).post_of_ok hstep).2

def silenced (spellId : Nat) : SpellInfo where
  id := spellId
  preventedBySilence := true
  schoolMask := 2

def caster : View where
  getSpellInfo := silenced
  getSpellInfo_id _ := rfl
  itemEffects _ := []
  applySpellMod := none
  scaledByHaste _ := none
  scaledByHasteRegen _ := none
  cooldownModifier := 0
  playerSpells := none
  categoryModifier _ := 0
  expiresAtDailyReset _ := false
  timeToDailyReset := 0
  ignoresSpellCooldown _ := false
  knownSpells := [7]
  knownSpells_nodup := nodup_singleton 7
  isPlayer := true
  hasSpellCategory _ := false
  getMaxCharges _ := 0
  getChargeRecoveryTime _ := 0

/-- What requests make of an empty history at time zero; a failed one is left out. -/
def serve (view : View) (requests : List CooldownRequest) : CooldownState :=
  requests.foldl (fun s request =>
    match s.perform view request with
    | .ok s' => s'
    | .error _ => s) { history := {}, now := 0 }

theorem serve_reachable (view : View) (requests : List CooldownRequest) :
    cooldownSystem.Reachable (serve view requests) := by
  have hfold : ∀ s, cooldownSystem.Reachable s →
      cooldownSystem.Reachable (requests.foldl (fun s request =>
        match s.perform view request with
        | .ok s' => s'
        | .error _ => s) s) := by
    induction requests with
    | nil => exact fun s hs => hs
    | cons request requests ih =>
      intro s hs
      rw [foldl_cons]
      refine ih _ ?_
      split
      · rename_i s' hstep
        exact .step (view, request) hs hstep
      · exact hs
  exact hfold _ (.init rfl)

theorem serve_snoc {guard : View × CooldownRequest → CooldownState → Prop} {view : View}
    {requests : List CooldownRequest} (request : CooldownRequest)
    (h : (cooldownSystem.guarded guard).Reachable (serve view requests))
    (hguard : guard (view, request) (serve view requests)) :
    (cooldownSystem.guarded guard).Reachable (serve view (requests ++ [request])) := by
  unfold serve at *
  rw [foldl_append, foldl_cons, foldl_nil]
  split
  · rename_i s' hstep
    exact .step (view, request) h ⟨hguard, hstep⟩
  · exact h

theorem first_not_rebrands {view : View} {s : CooldownState} {spellId itemId categoryId : Nat}
    {cooldownEnd categoryEnd : Int} {onHold : Bool}
    (hnone : s.history.spellCooldowns.lookup spellId = none) :
    ¬ Rebrands (view, .addCooldown spellId itemId cooldownEnd categoryId categoryEnd onHold) s := by
  rintro ⟨t, node, c, hnode, hw, _⟩
  simp only [CooldownRequest.writes, SpellHistory.addWrites] at hw
  split at hw
  · unfold SpellHistory.only at hw
    split at hw
    · rename_i heq
      rw [heq, hnone] at hnode
      cases hnode
    · cases hw
  · cases hw

/-- Two spells of category 3, and the pointer to the second. -/
theorem reachable_index_right_two :
    let s := serve caster [.addCooldown 7 0 5000 3 4000 false, .addCooldown 8 0 9000 3 8000 false]
    s.history.categoryCooldowns.lookup 3 = some 1 ∧ s.history.Indexed := by
  have hfirst := serve_snoc (.addCooldown 7 0 5000 3 4000 false)
    (.init (s := serve caster []) rfl : (cooldownSystem.guarded fun call s =>
      ¬ Rebrands call s).Reachable _) (first_not_rebrands rfl)
  have hsecond := serve_snoc (.addCooldown 8 0 9000 3 8000 false) hfirst
    (first_not_rebrands (by decide))
  exact ⟨by decide, (reachable_index_right hsecond).1⟩

/-- Spell 7 is on a category cooldown when its school is locked for longer; once
the lockout is reset, the next update follows a dangling pointer. -/
theorem lockout_leaves_pointer :
    let s := serve caster [.addCooldown 7 0 5000000 3 5000000 false, .lockSpellSchool 2 8,
      .resetCooldown 7]
    cooldownSystem.Reachable s ∧ s.history.categoryCooldowns.lookup 3 = some 0 ∧
      s.history.spellCooldowns.keys = [] ∧ ¬ s.history.Indexed ∧
      s.perform caster .update = .error .useAfterFree := by
  refine ⟨serve_reachable _ _, by decide, by decide, fun hindexed => ?_, rfl⟩
  obtain ⟨t, node, hnode, _⟩ := hindexed 3 0 (by decide)
  cases hnode

end

/-!
# Category cooldowns for their full time

Runs from a cooldown with a category on, in which nothing resets or shortens it.
-/
section

variable {S c : Nat} {e : Int} {s s' : CooldownState}

/-- Starting this cooldown, not on hold, gives spell `S` a category cooldown in
category `c` that ends at `e`. -/
def Gives (S c : Nat) (e : Int) (call : View × CooldownRequest) (s : CooldownState) : Prop :=
  c ≠ 0 ∧ ∃ spellInfo itemId forcedCooldown recTime,
    call.2 = .startCooldown spellInfo itemId false forcedCooldown ∧ spellInfo.id = S ∧
    SpellHistory.startedCooldown call.1 s.now spellInfo itemId false forcedCooldown = some (recTime, c, e) ∧
    s.history.storesCooldown S recTime e false = true

/-- The entry of the spell is there still, and ends no earlier. An update may
erase it when its own time is over. -/
def Spares (S : Nat) (call : View × CooldownRequest) (s s' : CooldownState) : Prop :=
  call.2 = .update ∨ ∀ node, s.history.spellCooldowns.lookup S = some node →
    ∃ node', s'.history.spellCooldowns.lookup S = some node' ∧
      node.entry.cooldownEnd ≤ node'.entry.cooldownEnd ∧
      (node'.entry.categoryId = node.entry.categoryId →
        node.entry.categoryEnd ≤ node'.entry.categoryEnd)

/-- From any reachable history, a category cooldown and what happens after it. -/
def categorySystem (S c : Nat) (e : Int) : System CooldownState (View × CooldownRequest) where
  init s' := ∃ s call, cooldownSystem.Reachable s ∧ Gives S c e call s ∧
    s.perform call.1 call.2 = .ok s'
  step call s s' := s.perform call.1 call.2 = .ok s' ∧ Spares S call s s'

/-- Up to `e`, every spell of the category is on cooldown. -/
def Enforced (c : Nat) (e : Int) (s : CooldownState) : Prop :=
  s.now ≤ e → ∀ (view : View) (spellInfo : SpellInfo) (itemId : Nat),
    view.ignoresSpellCooldown spellInfo = false →
    (getCooldownDurations view spellInfo itemId).categoryId = c →
    s.history.hasCooldown view spellInfo itemId = true

/-- The request erases an entry of the category, or its expired pointer. -/
def Drops (c : Nat) (s : CooldownState) : CooldownRequest → Prop
  | .modifySpellCooldown spellId cooldownMod withoutCategoryCooldown =>
    cooldownMod ≠ 0 ∧ ∃ node, s.history.spellCooldowns.lookup spellId = some node ∧
      node.entry.categoryId = c ∧
      (SpellHistory.modifiedEntry node.entry cooldownMod withoutCategoryCooldown).cooldownEnd ≤ s.now
  | .modifyCooldowns predicate cooldownMod withoutCategoryCooldown _ =>
    SpellHistory.TakenAway s.now cooldownMod withoutCategoryCooldown predicate s.history
      s.history.spellCooldowns.keys c
  | .resetCooldown spellId =>
    ∃ node, s.history.spellCooldowns.lookup spellId = some node ∧ node.entry.categoryId = c
  | .resetCooldowns predicate =>
    ∃ t ∈ s.history.spellCooldowns.keys, predicate t (s.history.nodeAt t).entry = true ∧
      (s.history.nodeAt t).entry.categoryId = c
  | .resetAllCooldowns => True
  | .update => SpellHistory.Expired s.now s.history c ∨
      ∃ t node, s.history.spellCooldowns.lookup t = some node ∧ node.entry.cooldownEnd < s.now ∧
        node.entry.categoryId = c
  | _ => False

/-- While the category cooldown lasts, the request leaves the category alone. -/
def Lasting (c : Nat) (e : Int) (call : View × CooldownRequest) (s : CooldownState) : Prop :=
  s.now ≤ e → ¬ Drops c s call.2

theorem enforced_iff (hc : c ≠ 0) :
    Enforced c e s ↔ (s.now ≤ e → c ∈ s.history.categoryCooldowns) := by
  constructor
  · intro henforced hnow
    obtain ⟨t, ht⟩ := Infinite.exists_notMem_finset s.history.spellCooldowns.keys.toFinset
    have habsent : t ∉ s.history.spellCooldowns := fun hmem => ht (mem_toFinset.mpr hmem)
    have hcooldown := henforced hnow caster { id := t, category := c } 0 rfl rfl
    simp [SpellHistory.hasCooldown, caster, habsent, getCooldownDurations, hc] at hcooldown
    exact hcooldown
  · intro hindex hnow view spellInfo itemId hheeds hcategory
    unfold SpellHistory.hasCooldown
    rw [hheeds, hcategory]
    simp [hc, hindex hnow]

variable {h : SpellHistory}

theorem mem_startCooldown (view : View) (now : Int) (hmem : c ∈ h.categoryCooldowns)
    (spellInfo : SpellInfo) (itemId : Nat) (onHold : Bool) (forcedCooldown : Option Int) :
    c ∈ (h.startCooldown view now spellInfo itemId onHold forcedCooldown).categoryCooldowns := by
  unfold SpellHistory.startCooldown
  split
  · exact hmem
  · exact SpellHistory.mem_addCooldown hmem _ _ _ _ _ _

theorem lockSpell_mem (view : View) (now : Int) (schoolMask : Nat) (lockoutTime : Int)
    (hmem : c ∈ h.categoryCooldowns) (t : Nat) :
    Ends (fun _ => True) (h.lockSpell view now schoolMask lockoutTime t)
      fun h' => c ∈ h'.categoryCooldowns := by
  unfold SpellHistory.lockSpell
  dsimp only
  split
  · cases h.getRemainingCooldown now (view.getSpellInfo t) with
    | error fault => trivial
    | ok remaining =>
      change Ends _ (if remaining < lockoutTime then _ else _ : Except Fault SpellHistory) _
      split
      · exact SpellHistory.mem_addCooldown hmem _ _ _ _ _ _
      · exact hmem
  · exact hmem

theorem restore_category (view : View) (h : SpellHistory) :
    (h.restoreCooldownStateAfterDuel view).categoryCooldowns = h.categoryCooldowns := by
  have hloop : ∀ (saved : List (Σ _ : Nat, CooldownEntry)) (h : SpellHistory),
      (saved.foldl SpellHistory.restoreEntry h).categoryCooldowns = h.categoryCooldowns := by
    intro saved
    induction saved with
    | nil => exact fun _ => rfl
    | cons entry saved ih =>
      intro h
      rw [foldl_cons, ih]
      unfold SpellHistory.restoreEntry
      split <;> rfl
  unfold SpellHistory.restoreCooldownStateAfterDuel
  split
  · exact hloop _ _
  · rfl

variable {call : View × CooldownRequest}

/-- A category on cooldown stays so exactly if the request does not drop it. -/
theorem perform_category (hmem : c ∈ s.history.categoryCooldowns)
    (hstep : s.perform call.1 call.2 = .ok s') :
    c ∈ s'.history.categoryCooldowns ↔ ¬ Drops c s call.2 := by
  obtain ⟨view, request⟩ := call
  have stays : c ∈ s'.history.categoryCooldowns → (¬ Drops c s request) →
      (c ∈ s'.history.categoryCooldowns ↔ ¬ Drops c s request) := fun h h' => iff_of_true h h'
  cases request with
  | startCooldown spellInfo itemId onHold forcedCooldown =>
    cases hstep
    exact stays (mem_startCooldown view s.now hmem _ _ _ _) id
  | addCooldown spellId itemId cooldownEnd categoryId categoryEnd onHold =>
    cases hstep
    exact stays (SpellHistory.mem_addCooldown hmem _ _ _ _ _ _) id
  | modifySpellCooldown spellId cooldownMod withoutCategoryCooldown =>
    cases hstep
    change c ∈ SpellHistory.categoryCooldowns (if _ then _ else _) ↔ _
    cases hlookup : s.history.spellCooldowns.lookup spellId with
    | none =>
      rw [if_pos (.inr (lookup_eq_none.mp hlookup))]
      simp [Drops, hmem, hlookup]
    | some node =>
      have hin : spellId ∈ s.history.spellCooldowns := by
        rw [← lookup_isSome, hlookup]
        rfl
      by_cases hzero : cooldownMod = 0
      · simp [Drops, hmem, hzero]
      · rw [if_neg (by simp [hzero, hin]), SpellHistory.mem_modifyNode,
          SpellHistory.nodeAt_of_lookup hlookup]
        simp [Drops, hmem, hzero, hlookup]
  | modifyCooldowns predicate cooldownMod withoutCategoryCooldown fuel =>
    obtain ⟨h', hmodified, hstep⟩ := exists_of_bind_ok hstep
    cases hstep
    have hkeys := SpellHistory.mem_modifyCooldowns fuel _ s.history.spellCooldowns.keys_nodup
      (fun t ht => mem_keys.mpr ht) hmodified c
    refine hkeys.trans ?_
    simp [Drops, hmem]
  | resetCooldown spellId =>
    cases hstep
    change c ∈ SpellHistory.categoryCooldowns (if _ then _ else _) ↔ _
    cases hlookup : s.history.spellCooldowns.lookup spellId with
    | none =>
      rw [if_neg (lookup_eq_none.mp hlookup)]
      simp [Drops, hmem, hlookup]
    | some node =>
      have hin : spellId ∈ s.history.spellCooldowns := by
        rw [← lookup_isSome, hlookup]
        rfl
      rw [if_pos hin, SpellHistory.mem_eraseCooldown, SpellHistory.nodeAt_of_lookup hlookup]
      simp [Drops, hmem, hlookup, eq_comm]
  | resetCooldowns predicate =>
    cases hstep
    have hkeys := SpellHistory.mem_eraseWhere (h := s.history) predicate _
      s.history.spellCooldowns.keys_nodup c
    refine hkeys.trans ?_
    simp only [Drops, hmem, true_and]
  | resetAllCooldowns =>
    cases hstep
    refine iff_of_false (fun hin => ?_) (fun hnot => hnot trivial)
    exact absurd hin (notMem_empty c)
  | lockSpellSchool schoolMask lockoutTime =>
    have hlocked : Ends (fun _ => True) (s.history.lockSpellSchool view s.now schoolMask lockoutTime)
        fun h' => c ∈ h'.categoryCooldowns :=
      Ends.foldlM (fun _ (h' : SpellHistory) => c ∈ h'.categoryCooldowns)
        (fun t _ h₁ hh₁ => lockSpell_mem view s.now schoolMask lockoutTime hh₁ t) _ _ hmem
    have hmapped : Ends (fun _ => True) (s.perform view (.lockSpellSchool schoolMask lockoutTime))
        fun s' => c ∈ s'.history.categoryCooldowns := Ends.map hlocked
    exact stays (hmapped.post_of_ok hstep) id
  | saveCooldownStateBeforeDuel =>
    cases hstep
    exact stays hmem id
  | restoreCooldownStateAfterDuel =>
    cases hstep
    refine stays ?_ id
    rwa [restore_category]
  | loadCooldown spellId itemId cooldownEnd categoryId categoryEnd =>
    cases hstep
    exact stays (SpellHistory.mem_setCategory (h := s.history.setEntry spellId _) hmem _ _) id
  | update =>
    change Except.map _ _ = Except.ok s' at hstep
    obtain ⟨h', hupdate, hstep⟩ := exists_of_bind_ok hstep
    cases hstep
    refine (SpellHistory.mem_update hupdate c).trans ?_
    simp only [Drops, hmem, true_and, not_or]
  | wait elapsed =>
    cases hstep
    exact stays hmem id

/-- Only `wait` moves the clock, and forwards. -/
theorem perform_now (hstep : s.perform call.1 call.2 = .ok s') :
    s.now ≤ s'.now ∧ (Drops c s call.2 → s'.now = s.now) := by
  obtain ⟨view, request⟩ := call
  have mapped : ∀ {r : Except Fault SpellHistory},
      (r.map fun history => { s with history }) = .ok s' → s'.now = s.now := by
    intro r hr
    cases r with
    | error fault => cases hr
    | ok h' =>
      cases hr
      rfl
  cases request with
  | modifyCooldowns => exact ⟨(mapped hstep).ge, fun _ => mapped hstep⟩
  | lockSpellSchool => exact ⟨(mapped hstep).ge, fun _ => mapped hstep⟩
  | update => exact ⟨(mapped hstep).ge, fun _ => mapped hstep⟩
  | wait elapsed =>
    cases hstep
    refine ⟨?_, fun hdrops => by cases hdrops⟩
    change s.now ≤ s.now + (elapsed : Int)
    omega
  | _ =>
    cases hstep
    exact ⟨le_rfl, fun _ => rfl⟩

theorem gives_category (hgives : Gives S c e call s) (hstep : s.perform call.1 call.2 = .ok s') :
    c ≠ 0 ∧ c ∈ s'.history.categoryCooldowns := by
  obtain ⟨hc, spellInfo, itemId, forcedCooldown, recTime, hrequest, hspell, hstarted, hstores⟩ := hgives
  rw [hrequest] at hstep
  cases hstep
  refine ⟨hc, ?_⟩
  unfold SpellHistory.startCooldown
  rw [hstarted]
  dsimp only
  unfold SpellHistory.addCooldown
  rw [hspell, if_pos hstores]
  unfold SpellHistory.setCategory
  rw [if_neg hc]
  exact (mem_insert _).mpr (.inl rfl)

/-- In a run whose requests leave the category alone it is enforced for its full
time, and the next request keeps it enforced exactly if it leaves it alone too. -/
theorem reachable_category_enforced
    (h : ((categorySystem S c e).guarded (Lasting c e)).Reachable s) :
    Enforced c e s ∧ ∀ (call : View × CooldownRequest) (s' : CooldownState),
      (categorySystem S c e).step call s s' → (Enforced c e s' ↔ Lasting c e call s) := by
  have hstep : ∀ {s s' : CooldownState} {call : View × CooldownRequest},
      (s.now ≤ e → c ∈ s.history.categoryCooldowns) → (categorySystem S c e).step call s s' →
      ((s'.now ≤ e → c ∈ s'.history.categoryCooldowns) ↔ Lasting c e call s) := by
    intro s s' call hindex hstep
    obtain ⟨hle, hstays⟩ := perform_now hstep.1
    constructor
    · intro hindex' hnow hdrops
      have hnow' : s'.now ≤ e := (hstays hdrops).le.trans hnow
      exact (perform_category (hindex hnow) hstep.1).mp (hindex' hnow') hdrops
    · intro hlasting hnow'
      have hnow := hle.trans hnow'
      exact (perform_category (hindex hnow) hstep.1).mpr (hlasting hnow)
  have hinv : c ≠ 0 ∧ (s.now ≤ e → c ∈ s.history.categoryCooldowns) := by
    refine h.invariant (fun s => c ≠ 0 ∧ (s.now ≤ e → c ∈ s.history.categoryCooldowns)) ?_ ?_
    · intro s hinit
      obtain ⟨s₀, call, _, hgives, hfirst⟩ := hinit
      obtain ⟨hc, hmem⟩ := gives_category hgives hfirst
      exact ⟨hc, fun _ => hmem⟩
    · intro call s s' hs hguarded
      exact ⟨hs.1, (hstep hs.2 hguarded.2).mpr hguarded.1⟩
  refine ⟨(enforced_iff hinv.1).mpr hinv.2, fun call s' hnext => ?_⟩
  rw [enforced_iff hinv.1]
  exact hstep hinv.2 hnext

def shout : SpellInfo where
  id := 7
  recoveryTime := 5
  category := 3
  categoryRecoveryTime := 10

def cry : SpellInfo where
  id := 8
  category := 3

def afterShout (elapsed : Nat) : CooldownState :=
  serve caster [.startCooldown shout 0 false none, .wait elapsed, .update]

theorem spares_of_same (hsame : s'.history = s.history) : Spares S call s s' := by
  refine .inr fun node hnode => ⟨node, ?_, le_rfl, fun _ => le_rfl⟩
  rw [hsame]
  exact hnode

theorem shout_init : (categorySystem 7 3 10000000).init
    (serve caster [.startCooldown shout 0 false none]) := by
  refine ⟨serve caster [], (caster, .startCooldown shout 0 false none), serve_reachable caster [], ?_,
    rfl⟩
  exact ⟨by decide, shout, 0, none, 5000000, rfl, rfl, rfl, rfl⟩

/-- Four milliseconds later nothing is over, and the other spell is on cooldown. -/
theorem reachable_category_enforced_shout : Enforced 3 10000000 (afterShout 4000000) ∧
    (afterShout 4000000).history.hasCooldown caster cry 0 = true := by
  have hwait : ((categorySystem 7 3 10000000).guarded (Lasting 3 10000000)).Reachable
      (serve caster [.startCooldown shout 0 false none, .wait 4000000]) :=
    .step (caster, .wait 4000000) (.init shout_init) ⟨fun _ hdrops => hdrops, rfl, spares_of_same rfl⟩
  have hupdate : ((categorySystem 7 3 10000000).guarded (Lasting 3 10000000)).Reachable
      (afterShout 4000000) := by
    refine .step (caster, .update) hwait ⟨fun _ hdrops => ?_, rfl, .inl rfl⟩
    rcases hdrops with ⟨address, entry, haddress, hentry, hover⟩ | ⟨t, node, hnode, hover, _⟩
    · cases haddress
      cases hentry
      revert hover
      decide
    · have hmem := mem_lookup_iff.mp hnode
      have hone := mem_singleton.mp hmem
      cases hone
      revert hover
      decide
  have henforced := (reachable_category_enforced hupdate).1
  exact ⟨henforced, henforced (by decide) caster cry 0 rfl rfl⟩

/-- Six milliseconds later the update erases the entry of spell 7 and the category
with it, four milliseconds too soon. -/
theorem shorter_cooldown_ends_category :
    (categorySystem 7 3 10000000).Reachable (afterShout 6000000) ∧
      (afterShout 6000000).now = 6000000 ∧
      (afterShout 6000000).history.hasCooldown caster cry 0 = false ∧
      ¬ Enforced 3 10000000 (afterShout 6000000) := by
  have hwait : (categorySystem 7 3 10000000).Reachable
      (serve caster [.startCooldown shout 0 false none, .wait 6000000]) :=
    .step (caster, .wait 6000000) (.init shout_init) ⟨rfl, spares_of_same rfl⟩
  refine ⟨.step (caster, .update) hwait ⟨rfl, .inl rfl⟩, rfl, by decide, fun henforced => ?_⟩
  have hcooldown := henforced (by decide) caster cry 0 rfl rfl
  revert hcooldown
  decide

end

end LegionServer.Guarantees.CategoryCooldowns
