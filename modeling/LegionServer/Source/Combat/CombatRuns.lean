import LegionServer.Source.Combat.CombatLinks
import LegionServer.Source.Combat.CombatManager
import LegionServer.Source.Combat.ThreatLists

/-!
# Threat implies combat

The joint invariant of the combat and threat managers. Ending combat clears the
threat between both units first, and threat is put on a list only after the
units are in combat.
-/
namespace LegionServer.Source.Combat
open Library List ThreatWorld CombatWorld

universe u

namespace World

variable {U H : Type u} [DecidableEq U] {q : PriorityQueue RefId SortKey H}
  (env : World U H → View U) {may : Bool → SortKey → SortKey → Prop} {w w' w'' : World U H}
  {a b : U} {id : RefId} {isPvP : Bool}

/-- Combat is symmetric, threat is where it belongs, and there is none without combat. -/
structure JointOk (q : PriorityQueue RefId SortKey H) (w : World U H) : Prop where
  combat : w.combat.CombatOk
  threat : ThreatWorld.ThreatOk q w.threat
  implies : ∀ {a v id}, (w.threat.entries a).lookup v = some id → w.combat.isInCombatWith a v = true

structure Served (q : PriorityQueue RefId SortKey H) (may : Bool → SortKey → SortKey → Prop)
    (w w' : World U H) : Prop where
  ok : JointOk q w'
  changes : ThreatWorld.Changes q may w.threat w'.threat

theorem Served.refl (h : JointOk q w) : Served q may w w := ⟨h, .refl⟩

theorem Served.trans (h : Served q may w w') (h' : Served q may w' w'') : Served q may w w'' :=
  ⟨h'.ok, h.changes.trans h'.changes⟩

theorem JointOk.setCombat (h : JointOk q w) {combat : CombatWorld U} (hok : combat.CombatOk)
    (hkeeps : w.combat.Keeps combat) : Served q may w { w with combat } :=
  ⟨⟨hok, h.threat, fun hlookup => hkeeps _ _ (h.implies hlookup)⟩, .refl⟩

theorem JointOk.setThreat (h : JointOk q w) {threat : ThreatWorld U H}
    (hok : ThreatWorld.ThreatOk q threat) (hchanges : ThreatWorld.Changes q may w.threat threat)
    (hfewer : ∀ {x y id}, (threat.entries x).lookup y = some id →
      (w.threat.entries x).lookup y = some id) : Served q may w { w with threat } :=
  ⟨⟨h.combat, hok, fun hlookup => h.implies (hfewer hlookup)⟩, hchanges⟩

theorem foldlM_served {f : World U H → (Σ _ : U, RefId) → Except Fault (World U H)}
    (hf : ∀ w entry, JointOk q w → (w.combat.refs isPvP a).lookup entry.1 = some entry.2 →
      Ends (fun _ => False) (f w entry) fun w' => Served q Truthful w w' ∧
        ∀ entry' : Σ _ : U, RefId, entry'.1 ≠ entry.1 →
          (w.combat.refs isPvP a).lookup entry'.1 = some entry'.2 →
          (w'.combat.refs isPvP a).lookup entry'.1 = some entry'.2)
    (h : JointOk q w) :
    Ends (fun _ => False) (((env w).entries (w.combat.refs isPvP a)).foldlM f w)
      (Served q Truthful w) := by
  refine Ends.mono (Ends.foldlM (fun rest w' => Served q Truthful w w' ∧
      (rest.map Sigma.fst).Nodup ∧
      ∀ entry ∈ rest, (w'.combat.refs isPvP a).lookup entry.1 = some entry.2) ?_ _ w
    ⟨.refl h, (env w).entries_keys _, fun entry hentry => (env w).mem_entries.mp hentry⟩)
    fun _ hw' => hw'.1
  intro entry rest w' hw'
  obtain ⟨hserved, hnodup, hrest⟩ := hw'
  obtain ⟨hnotin, hnodup'⟩ := nodup_cons.mp hnodup
  refine (hf w' entry hserved.ok (hrest entry mem_cons_self)).mono fun w'' hw'' =>
    ⟨hserved.trans hw''.1, hnodup', fun entry' hentry' => ?_⟩
  refine hw''.2 entry' (fun heq => hnotin ?_) (hrest entry' (mem_cons_of_mem entry hentry'))
  exact heq ▸ mem_map_of_mem hentry'

section calls

variable (hq : q.Contents)
include hq

variable {threat : ThreatWorld U H}

theorem JointOk.adjust (h : JointOk q w) (hadjust : ThreatWorld.Adjusts q may w.threat threat) :
    Served q may w { w with threat } :=
  h.setThreat (hadjust.ok hq h.threat) hadjust.changes
    fun {x _ _} hlookup => hadjust.entries x ▸ hlookup

theorem JointOk.remove (h : JointOk q w) (hremove : ThreatWorld.Removes q w.threat threat) :
    Served q Truthful w { w with threat } :=
  h.setThreat (hremove.ok hq h.threat) hremove.changes hremove.fewer

/-- Ending the reference that `a` has under `b`, also if one map has been purged
of it before. -/
theorem endCombat_spec (h : JointOk q w) (hid : (w.combat.refs isPvP a).lookup b = some id)
    {combat : CombatWorld U} (hobject : combat.object = w.combat.object)
    (hend : combat.endCombat id = w.combat.endCombat id) :
    Ends (fun _ => False) ({ w with combat }.endCombat q env id) fun w' =>
      Served q Truthful w w' ∧ w'.combat = w.combat.endCombat id := by
  unfold endCombat
  simp only [hobject, hend]
  refine (clearThreat_spec _ hq h.threat _ _).bind fun threat₁ hthreat₁ => ?_
  have hok₁ := hthreat₁.1.ok hq h.threat
  refine (clearThreat_spec _ hq hok₁ _ _).bind fun threat₂ hthreat₂ => ?_
  have hremoves := hthreat₁.1.trans hthreat₂.1
  refine ⟨⟨⟨h.combat.endCombat hid, hremoves.ok hq h.threat, fun {x y id'} hlookup => ?_⟩,
    hremoves.changes⟩, rfl⟩
  have hcombat := h.implies (hremoves.fewer hlookup)
  rw [isInCombatWith_iff] at hcombat ⊢
  obtain ⟨isPvP', id'', hentry⟩ := hcombat
  refine ⟨isPvP', id'', ?_⟩
  rw [refs_endCombat _ (h.combat.links hid) (h.combat.distinct hid), if_neg]
  · exact hentry
  rintro ⟨_, hpair⟩
  -- the threat between the two is gone
  have hparties : (x = (w.combat.object id).first ∧ y = (w.combat.object id).second) ∨
      (x = (w.combat.object id).second ∧ y = (w.combat.object id).first) := by
    rcases h.combat.links hid with ⟨rfl, rfl⟩ | ⟨rfl, rfl⟩
    · exact hpair
    · exact hpair.symm
  rcases hparties with hfirst | hsecond
  · have hgone := hthreat₂.1.fewer hlookup
    rw [(hthreat₁.2 x y).1, if_pos hfirst] at hgone
    cases hgone
  · rw [(hthreat₂.2 x y).1, if_pos hsecond] at hlookup
    cases hlookup

variable {entry : Σ _ : U, RefId}

theorem eraseAndEnd_spec (h : JointOk q w)
    (hid : (w.combat.refs isPvP a).lookup entry.1 = some entry.2) :
    Ends (fun _ => False) (w.eraseAndEnd q env isPvP a entry) fun w' =>
      Served q Truthful w w' ∧ w'.combat = w.combat.endCombat entry.2 := by
  refine endCombat_spec env hq h hid rfl ?_
  have hpurged := endCombat_purged w.combat (h.combat.links hid) (h.combat.distinct hid)
  rwa [h.combat.kind hid] at hpurged

theorem eraseAndEnd_round (h : JointOk q w)
    (hid : (w.combat.refs isPvP a).lookup entry.1 = some entry.2) :
    Ends (fun _ => False) (w.eraseAndEnd q env isPvP a entry) fun w' => Served q Truthful w w' ∧
      ∀ entry' : Σ _ : U, RefId, entry'.1 ≠ entry.1 →
        (w.combat.refs isPvP a).lookup entry'.1 = some entry'.2 →
        (w'.combat.refs isPvP a).lookup entry'.1 = some entry'.2 := by
  refine (eraseAndEnd_spec env hq h hid).mono fun w' hw' =>
    ⟨hw'.1, fun entry' hne hentry' => ?_⟩
  rw [hw'.2, refs_endCombat _ (h.combat.links hid) (h.combat.distinct hid), if_neg]
  · exact hentry'
  · rintro ⟨_, ⟨_, heq⟩ | ⟨heq, _⟩⟩
    · exact hne heq
    · exact h.combat.distinct hid heq

theorem update_served (h : JointOk q w) (a : U) (tdiff : Nat) :
    Ends (fun _ => False) (w.update q env a tdiff) (Served q Truthful w) := by
  refine foldlM_served env (fun w' entry hok hid => ?_) h
  unfold updateRef
  dsimp only
  split
  · split
    · exact eraseAndEnd_round env hq hok hid
    · exact ⟨hok.setCombat (hok.combat.setTimer _ _) (sameLinks_setTimer _ _ _).keeps,
        fun _ _ hentry' => hentry'⟩
  · exact ⟨.refl hok, fun _ _ hentry' => hentry'⟩

theorem endWhere_served (ends : World U H → CombatReference U → Bool) (h : JointOk q w)
    (isPvP : Bool) (a : U) :
    Ends (fun _ => False) (w.endWhere q env ends isPvP a) (Served q Truthful w) := by
  refine foldlM_served env (fun w' entry hok hid => ?_) h
  split
  · exact eraseAndEnd_round env hq hok hid
  · exact ⟨.refl hok, fun _ _ hentry' => hentry'⟩

theorem endCombatBeyondRange_served (h : JointOk q w) (a : U) (range : ℚ) (includingPvP : Bool) :
    Ends (fun _ => False) (w.endCombatBeyondRange q env a range includingPvP)
      (Served q Truthful w) := by
  refine (endWhere_served env hq _ h false a).bind fun w' hw' => ?_
  split
  · exact hw'
  · exact (endWhere_served env hq _ hw'.ok true a).mono fun _ => hw'.trans

theorem revalidateCombat_served (h : JointOk q w) (a : U) :
    Ends (fun _ => False) (w.revalidateCombat q env a) (Served q Truthful w) := by
  refine (endWhere_served env hq _ h false a).bind fun w' hw' => ?_
  exact (endWhere_served env hq _ hw'.ok true a).mono fun _ => hw'.trans

/-- A unit is out of its combats of one kind, and out of no other has anybody come. -/
def Left (isPvP : Bool) (a : U) (w w' : CombatWorld U) : Prop :=
  w'.object = w.object ∧ ∀ kind x y, (w'.refs kind x).lookup y =
    if kind = isPvP ∧ (x = a ∨ y = a) then none else (w.refs kind x).lookup y

theorem endAll_left (h : JointOk q w) (isPvP : Bool) (a : U) :
    Ends (fun _ => False) (w.endAll q env isPvP a) fun w' =>
      Served q Truthful w w' ∧ Left isPvP a w.combat w'.combat := by
  refine Ends.mono (Ends.whileSome (fun w' => Served q Truthful w w' ∧
      w'.combat.object = w.combat.object ∧ ∀ kind x y,
        (w'.combat.refs kind x).lookup y = (w.combat.refs kind x).lookup y ∨
          kind = isPvP ∧ (x = a ∨ y = a))
    (fun w' => (w'.combat.refs isPvP a).entries.length) ?_ ?_ _ w ⟨.refl h, rfl, fun _ _ _ => .inl rfl⟩
      le_rfl) ?_
  · intro w' entry _ hentry
    rw [← (env w').length_entries]
    exact length_pos_of_mem (mem_of_mem_head? hentry)
  · intro w' entry hw' hentry
    have hid := (env w').mem_entries.mp (mem_of_mem_head? hentry)
    have hok := hw'.1.ok.combat
    refine (endCombat_spec env hq hw'.1.ok hid rfl rfl).mono fun w'' hw'' => ?_
    have hrefs := refs_endCombat w'.combat (hok.links hid) (hok.distinct hid)
    rw [← hw''.2, hok.kind hid] at hrefs
    have hobject := (endCombat_frame w'.combat entry.2).1
    rw [← hw''.2] at hobject
    refine ⟨⟨hw'.1.trans hw''.1, hobject.trans hw'.2.1, fun kind x y => ?_⟩,
      length_lt_of_lookup hid fun x => ?_⟩
    · rw [hrefs]
      split
      · rename_i hpair
        exact .inr ⟨hpair.1, hpair.2.imp And.left And.right⟩
      · exact hw'.2.2 kind x y
    · rw [hrefs]
      simp [hok.distinct hid]
  · rintro w' ⟨⟨hserved, hobject, hrefs⟩, hnone⟩
    rw [head?_eq_none_iff] at hnone
    have hempty : ∀ y id, (w'.combat.refs isPvP a).lookup y ≠ some id := by
      intro y id hid
      exact absurd ((env w').mem_entries.mpr hid) (hnone ▸ not_mem_nil)
    refine ⟨hserved, hobject, fun kind x y => ?_⟩
    split
    · rename_i hleft
      refine Option.eq_none_iff_forall_ne_some.mpr fun id hid => ?_
      obtain ⟨rfl, rfl | rfl⟩ := hleft
      · exact hempty y id hid
      · exact hempty x id (hserved.ok.combat.symm hid)
    · rename_i hstays
      exact (hrefs kind x y).resolve_right hstays

theorem endAllPvECombat_left (h : JointOk q w) (a : U) :
    Ends (fun _ => False) (w.endAllPvECombat q env a) fun w' =>
      Served q Truthful w w' ∧ Left false a w.combat w'.combat := by
  refine (removeMeFromThreatLists_removes _ hq h.threat a).bind fun threat₁ hthreat₁ => ?_
  have h₁ := h.remove hq hthreat₁
  refine (clearAllThreat_removes _ hq h₁.ok.threat a).bind fun threat₂ hthreat₂ => ?_
  have h₂ := h₁.trans (h₁.ok.remove hq hthreat₂)
  exact (endAll_left env hq h₂.ok false a).mono fun _ h => ⟨h₂.trans h.1, h.2⟩

theorem endAllCombat_left (h : JointOk q w) (a : U) :
    Ends (fun _ => False) (w.endAllCombat q env a) fun w' => JointOk q w' ∧
      w'.combat.object = w.combat.object ∧ ∀ kind x y, (w'.combat.refs kind x).lookup y =
        if x = a ∨ y = a then none else (w.combat.refs kind x).lookup y := by
  refine (endAllPvECombat_left env hq h a).bind fun w₁ h₁ => ?_
  refine (endAll_left env hq h₁.1.ok true a).mono fun w₂ h₂ => ⟨h₂.1.ok, h₂.2.1.trans h₁.2.1,
    fun kind x y => ?_⟩
  rw [h₂.2.2, h₁.2.2]
  cases kind <;> simp

end calls

theorem setInCombatWith_served (h : JointOk q w) (a who : U) (suppressed : Bool) :
    Ends (fun _ => False) (w.setInCombatWith env a who suppressed) fun result =>
      Served q Truthful w result.1 ∧ result.1.threat = w.threat ∧
        (result.2 = true → result.1.combat.isInCombatWith a who = true) := by
  refine (h.combat.setInCombatWith (env w) a who suppressed).bind fun result hresult => ?_
  exact ⟨h.setCombat hresult.1 hresult.2.1, rfl, hresult.2.2⟩

end World

/-!
# Adding threat

Each call of `AddThreat` puts a reference on the list only when both units are in combat.
-/

namespace World

variable {U H : Type u} [DecidableEq U] {q : PriorityQueue RefId SortKey H}
  (env : World U H → View U) {w w' : World U H} {a target : U}

theorem joinRedirect_served (h : JointOk q w) (redirect : U × Nat) :
    Ends (fun _ => False) (joinRedirect env a w redirect) (Served q Truthful w) := by
  unfold joinRedirect
  split
  · exact Ends.map ((setInCombatWith_served env h a redirect.1 false).mono fun _ hw' => hw'.1)
  · exact .refl h

theorem addThreatWithoutList_served (h : JointOk q w) (a target : U) :
    Ends (fun _ => False) (addThreatWithoutList env w a target) (Served q Truthful w) := by
  refine (setInCombatWith_served env h a target false).bind fun result hresult => ?_
  dsimp only
  split
  · exact Ends.foldlM (fun _ => Served q Truthful w)
      (fun redirect _ w' hw' => (joinRedirect_served env hw'.ok redirect).mono fun _ => hw'.trans)
      _ _ hresult.1
  · exact hresult.1

section calls

variable (hq : q.Contents)
include hq

theorem JointOk.insert (h : JointOk q w) {threat : ThreatWorld U H}
    (hinserted : ThreatWorld.Inserted q w.threat threat a target)
    (hcombat : w.combat.isInCombatWith a target = true) :
    Served q Truthful w { w with threat } := by
  refine ⟨⟨h.combat, h.threat.insert hq hinserted, fun {x y id} hlookup => ?_⟩,
    .single (.insert hinserted)⟩
  rw [hinserted.lookup] at hlookup
  split at hlookup
  · rename_i heq
    rw [heq.1, heq.2]
    exact hcombat
  · exact h.implies hlookup

theorem applyThreat_served (h : JointOk q w) (a target : U) (amount : ℚ) :
    Ends (fun _ => False) (applyThreat q env w a target amount) (Served q Truthful w) := by
  refine (setInCombatWith_served env h a target false).bind fun result hresult => ?_
  obtain ⟨hserved, hthreat, hcombat⟩ := hresult
  dsimp only
  split
  · exact hserved
  rename_i hin
  have hcombat' := hcombat (by simpa using hin)
  split
  · rename_i id hlookup
    have hlive := (hserved.ok.threat.stored hlookup).1
    have hresumed : ThreatWorld.Adjusts q Truthful result.1.threat
        (if (result.1.threat.ref id).isSuppressed &&
            !shouldBeSuppressed (env result.1) (result.1.threat.ref id) then
          result.1.threat.setOnline q id .online true else result.1.threat) := by
      split
      · rename_i hup
        simp only [Bool.and_eq_true] at hup
        exact resume_adjusts hserved.ok.threat hlive hup.1
      · exact .refl _
    have hw₁ := hserved.trans (hserved.ok.adjust hq hresumed)
    exact hw₁.trans (hw₁.ok.adjust hq
      (addOnlineThreat_adjusts hq hw₁.ok.threat (hresumed.live ▸ hlive) amount))
  · rename_i hlookup
    obtain ⟨threat₁, threat₂, hput, hput', hinserted⟩ := hserved.ok.threat.inserted hlookup
    refine Ends.bind_ok hput (Ends.bind_ok hput' ?_)
    have hw₂ := hserved.trans (hserved.ok.insert hq hinserted hcombat')
    have hlive : threat₂.live result.1.threat.nextRef = true := by
      simp [hinserted.live]
    have honline : ThreatWorld.Adjusts q Truthful threat₂
        (threat₂.updateOffline q (env result.1) result.1.threat.nextRef) :=
      updateOffline_adjusts hq hw₂.ok.threat hlive
    have hadd := addOnlineThreat_adjusts hq (honline.ok hq hw₂.ok.threat)
      (honline.live ▸ hlive) amount
    have hw₃ := hw₂.trans (hw₂.ok.adjust hq (honline.trans hadd))
    refine (updateMissingVictim_adjusts _ hq hw₃.ok.threat a).bind
      fun threat hthreat => ?_
    exact hw₃.trans (hw₃.ok.adjust hq hthreat)

section recursion

variable {may : Fault → Prop} {add : World U H → U → ℚ → Except Fault (World U H)}
  (hadd : ∀ w target amount, JointOk q w → Ends may (add w target amount) (Served q Truthful w))
include hadd

omit hq in
theorem addVehicleThreat_served (h : JointOk q w) (target : U) (amount : ℚ) :
    Ends may (addVehicleThreat env add w target amount) fun result =>
      Served q Truthful w result.1 := by
  unfold addVehicleThreat
  split
  · exact .refl h
  · exact Ends.map (hadd w _ amount h)

omit hq in
theorem addOwnerThreat_served (h : JointOk q w) (a target : U) (amount : ℚ) :
    Ends may (addOwnerThreat env add w a target amount) fun result =>
      Served q Truthful w result.1 := by
  unfold addOwnerThreat
  dsimp only
  split
  · exact Ends.map (hadd w _ amount h)
  · exact .refl h

omit hq in
theorem redirectThreat_served (h : JointOk q w) (a target : U) (amount : ℚ) :
    Ends may (redirectThreat env add w a target amount) fun result =>
      Served q Truthful w result.1 := by
  refine Ends.foldlM (fun _ (state : World U H × ℚ) => Served q Truthful w state.1)
    (fun redirect _ state hstate => ?_) _ _ (.refl h)
  dsimp only
  split
  · exact (hadd state.1 _ _ hstate.ok).bind fun _ hw' => hstate.trans hw'
  · exact hstate

theorem addModifiedThreat_served (h : JointOk q w) (a target : U) (amount : ℚ)
    (spell : Option SpellInfo) (ignoreModifiers ignoreRedirects : Bool) :
    Ends may (addModifiedThreat q env add w a target amount spell ignoreModifiers ignoreRedirects)
      (Served q Truthful w) := by
  unfold addModifiedThreat
  have happly : ∀ (result : World U H × ℚ), Served q Truthful w result.1 →
      Ends may (applyThreat q env result.1 a target result.2) (Served q Truthful w) :=
    fun result hresult => ((applyThreat_served env hq hresult.ok a target result.2).mono
      fun _ => hresult.trans).allow fun _ => False.elim
  dsimp only
  generalize (if ignoreModifiers then amount
    else (env w).calculateModifiedThreat amount target spell) = modified
  split
  · exact (redirectThreat_served env hadd h a target modified).bind happly
  · exact happly (w, modified) (.refl h)

end recursion

/-- `AddThreat` fails in no other way than by calling itself too often. -/
theorem addThreat_served (a : U) (spell : Option SpellInfo) (fuel : Nat)
    (ignoreModifiers ignoreRedirects : Bool) (h : JointOk q w) (target : U) (amount : ℚ) :
    Ends (· = .unfinished)
      (addThreat q env a spell fuel ignoreModifiers ignoreRedirects w target amount)
      (Served q Truthful w) := by
  induction fuel generalizing ignoreModifiers ignoreRedirects w target amount with
  | zero => rfl
  | succ fuel ih =>
    unfold addThreat
    split
    · exact .refl h
    refine (addVehicleThreat_served env (fun w target amount h => ih _ _ h target amount) h
      target amount).bind fun result hresult => ?_
    dsimp only
    split
    · exact hresult
    refine (addOwnerThreat_served env (fun w target amount h => ih _ _ h target amount)
      hresult.ok a target result.2).bind fun result' hresult' => ?_
    have hserved := hresult.trans hresult'
    split
    · exact ((addThreatWithoutList_served env hserved.ok a target).mono
        fun _ => hserved.trans).allow fun _ => False.elim
    · exact (addModifiedThreat_served env hq (fun w target amount h => ih _ _ h target amount)
        hserved.ok a target _ spell _ _).mono fun _ => hserved.trans

theorem matchUnitThreat_served (h : JointOk q w) (fuel : Nat) (a target : U) :
    Ends (· = .unfinished) (matchUnitThreatToHighestThreat q env fuel w a target)
      (Served q Truthful w) := by
  unfold matchUnitThreatToHighestThreat
  split
  · exact .refl h
  · split
    · exact .refl h
    · exact addThreat_served env hq a none fuel true true h target _

end calls

end World

/-!
# Every request keeps combat and threat in order

The only way to fail is an `AddThreat` that calls itself too often.
-/

namespace World

variable {U H : Type u} [DecidableEq U] {q : PriorityQueue RefId SortKey H}
  {may : Bool → SortKey → SortKey → Prop} {w w' : World U H}

theorem Served.weaken (h : Served q Truthful w w')
    (hmay : ∀ increased before after, Truthful increased before after →
      may increased before after) : Served q may w w' :=
  ⟨h.ok, h.changes.mono hmay⟩

section requests

variable (hq : q.Contents) (h : JointOk q w)
include h

theorem onReference_served {a b : U} {isPvP : Bool} {call : RefId → Except Fault (World U H)}
    (hcall : ∀ id, (w.combat.refs isPvP a).lookup b = some id →
      Ends (fun _ => False) (call id) (Served q Truthful w)) :
    Ends (fun _ => False) (w.onReference a b isPvP call) (Served q Truthful w) := by
  unfold onReference
  split
  · exact .refl h
  · rename_i id hid
    exact hcall id hid

include hq

theorem onThreat_served {a target : U} {call : RefId → ThreatWorld U H}
    (hcall : ∀ id, w.threat.live id = true → ThreatWorld.Adjusts q Truthful w.threat (call id)) :
    Served q Truthful w (w.onThreat a target call) := by
  unfold onThreat
  split
  · exact .refl h
  · rename_i id hlookup
    exact h.adjust hq (hcall id (h.threat.stored hlookup).1)

section
variable (env : World U H → View U) (fuel : Nat) (request : CombatRequest U)

/-- All requests but `UpdateMyTempModifiers`. -/
theorem perform_truthful (hmods : ∀ a, request ≠ .updateMyTempModifiers a) :
    Ends (· = .unfinished) (w.perform q env fuel request) (Served q Truthful w) := by
  have total : ∀ {r : Except Fault (World U H)}, Ends (fun _ => False) r (Served q Truthful w) →
      Ends (· = .unfinished) r (Served q Truthful w) := fun hr => hr.allow fun _ => False.elim
  have adjusts : ∀ {r : Except Fault (ThreatWorld U H)},
      Ends (fun _ => False) r (ThreatWorld.Adjusts q Truthful w.threat) →
      Ends (· = .unfinished) (r.map fun threat => { w with threat }) (Served q Truthful w) :=
    fun hr => total (Ends.map (hr.mono fun _ => h.adjust hq))
  have removes : ∀ {r : Except Fault (ThreatWorld U H)},
      Ends (fun _ => False) r (ThreatWorld.Removes q w.threat) →
      Ends (· = .unfinished) (r.map fun threat => { w with threat }) (Served q Truthful w) :=
    fun hr => total (Ends.map (hr.mono fun _ => h.remove hq))
  cases request with
  | setInCombatWith a who suppressed =>
    exact total (Ends.map ((setInCombatWith_served env h a who suppressed).mono fun _ hw' => hw'.1))
  | endCombat a b isPvP =>
    exact total (onReference_served h fun id hid =>
      (endCombat_spec env hq h hid rfl rfl).mono fun _ hw' => hw'.1)
  | refresh a b isPvP =>
    exact total (onReference_served h fun id _ =>
      h.setCombat (h.combat.refresh id) (sameLinks_refresh _ id).keeps)
  | suppressFor a b isPvP =>
    exact total (onReference_served h fun id hid =>
      h.setCombat (h.combat.suppressFor (h.combat.links hid)) (sameLinks_suppressFor _ id a).keeps)
  | suppressPvPCombat a =>
    exact h.setCombat (h.combat.suppressPvPCombat _ a)
      (sameLinks_suppressPvPCombat h.combat _ a).keeps
  | updateCombat a tdiff => exact total (update_served env hq h a tdiff)
  | endCombatBeyondRange a range includingPvP =>
    exact total (endCombatBeyondRange_served env hq h a range includingPvP)
  | revalidateCombat a => exact total (revalidateCombat_served env hq h a)
  | endAllPvECombat a => exact total ((endAllPvECombat_left env hq h a).mono fun _ => And.left)
  | endAllPvPCombat a => exact total ((endAll_left env hq h true a).mono fun _ => And.left)
  | addThreat a target amount spell ignoreModifiers ignoreRedirects =>
    exact addThreat_served env hq a spell fuel ignoreModifiers ignoreRedirects h target amount
  | scaleThreat a target factor =>
    exact h.adjust hq (scaleThreat_adjusts hq h.threat a target factor)
  | matchUnitThreatToHighestThreat a target => exact matchUnitThreat_served env hq h fuel a target
  | tauntUpdate a => exact h.adjust hq (tauntUpdate_adjusts _ hq h.threat a)
  | evaluateSuppressed a canExpire =>
    exact h.adjust hq (evaluateSuppressed_adjusts _ hq h.threat a canExpire)
  | resetAllThreat a => exact h.adjust hq (resetAllThreat_adjusts _ hq h.threat a)
  | clearThreat a target =>
    exact removes ((clearThreat_spec _ hq h.threat a target).mono fun _ hw' => hw'.1)
  | clearAllThreat a => exact removes (clearAllThreat_removes _ hq h.threat a)
  | removeMeFromThreatLists a =>
    exact removes (removeMeFromThreatLists_removes _ hq h.threat a)
  | fixateTarget a target => exact h.adjust hq (fixateTarget_adjusts h.threat a target)
  | updateThreat a tdiff => exact adjusts (update_adjusts _ hq h.threat a tdiff)
  | updateVictim a => exact adjusts (updateVictim_adjusts _ hq h.threat a)
  | updateMyTempModifiers a => exact absurd rfl (hmods a)
  | addRefThreat a target amount =>
    exact onThreat_served hq h fun _ hlive =>
      addRefThreat_adjusts hq h.threat hlive amount
  | scaleRefThreat a target factor =>
    exact onThreat_served hq h fun _ hlive =>
      scaleRefThreat_adjusts hq h.threat hlive factor.2
  | updateOffline a target =>
    exact onThreat_served hq h fun _ hlive => updateOffline_adjusts hq h.threat hlive

theorem perform_served :
    Ends (· = .unfinished) (w.perform q env fuel request) (Served q (fun _ _ _ => True) w) := by
  by_cases hmods : ∃ a, request = .updateMyTempModifiers a
  · obtain ⟨a, rfl⟩ := hmods
    exact h.adjust hq (updateMyTempModifiers_adjusts _ hq h.threat a)
  · refine (perform_truthful hq h env fuel request fun a ha => hmods ⟨a, ha⟩).mono fun _ hw' => ?_
    exact hw'.weaken fun _ _ _ _ => trivial

end

end requests

theorem jointOk_initial (hq : q.Contents) (h : Initial q w) : JointOk q w := by
  obtain ⟨hcombat, hlive, hthreat, hthreatLive, _⟩ := h
  have hrefs : ∀ isPvP a, w.combat.refs isPvP a = ∅ := by
    intro isPvP a
    cases isPvP <;> simp [refs, CombatManager.refs, (hcombat a).1]
  have hentries : ∀ a, w.threat.entries a = ∅ := by
    intro a
    obtain ⟨_, hmanager⟩ := hthreat a
    simp [entries, hmanager]
  have hcurrent : ∀ a, (w.threat.manager a).currentVictimRef = none ∧
      (w.threat.manager a).fixateRef = none ∧ (w.threat.manager a).threatenedByMe = ∅ ∧
      (w.threat.manager a).sortedThreatList = q.empty := by
    intro a
    obtain ⟨_, hmanager⟩ := hthreat a
    simp [hmanager]
  refine ⟨⟨?_, fun a => ?_⟩, ?_, fun {a v id} hlookup => ?_⟩
  · constructor <;> simp [hrefs, hlive]
  · have hnone : w.combat.hasCombat a = false := by
      simp [hasCombat, hasCombatOf, hrefs]
    exact (hcombat a).2.trans hnone.symm
  · constructor <;>
      simp [hentries, hthreatLive, hcurrent, threatenedByMe, heap,
        hq.elements_empty]
  · simp [hentries] at hlookup

theorem reachable_jointOk (hq : q.Contents) (h : (combatSystem q).Reachable w) : JointOk q w := by
  refine h.invariant (JointOk q) (fun _ => jointOk_initial hq) fun call w w' hw hstep => ?_
  exact ((perform_served hq hw call.env call.fuel call.request).post_of_ok hstep).ok

def run (q : PriorityQueue RefId SortKey H) (calls : List (CombatCall U H)) (w : World U H) :
    Except Fault (World U H) :=
  calls.foldlM (fun w call => w.perform q call.env call.fuel call.request) w

theorem reachable_run (calls : List (CombatCall U H)) (h : (combatSystem q).Reachable w)
    (hrun : run q calls w = .ok w') : (combatSystem q).Reachable w' := by
  have hends : Ends (fun _ => True) (run q calls w) (combatSystem q).Reachable := by
    refine Ends.foldlM (fun _ => (combatSystem q).Reachable) (fun call _ w hw => ?_) calls w h
    cases hstep : w.perform q call.env call.fuel call.request with
    | ok w' => exact .step call hw hstep
    | error fault => trivial
  exact hends.post_of_ok hrun

end World

end LegionServer.Source.Combat
