import LegionServer.Source.Combat.CombatRuns
import Mathlib.Algebra.BigOperators.Group.List.Basic

/-!
# Credits of threat

How much threat `AddThreat` gives to whom, where all that it is called for can be engaged.
-/
namespace LegionServer.Source.Combat
open Library List ThreatWorld

universe u

theorem CombatWorld.CombatOk.setInCombatWith_engaged {U : Type u} [DecidableEq U]
    {w : CombatWorld U} (h : w.CombatOk) {view : View U} {a who : U}
    (hcan : view.canBeginCombat a who = true) (suppressed : Bool) :
    Ends (fun _ => False) (w.setInCombatWith view a who suppressed) fun result =>
      result.2 = true := by
  unfold CombatWorld.setInCombatWith
  cases hpvp : (w.refs true a).lookup who with
  | some id => rfl
  | none =>
    cases hpve : (w.refs false a).lookup who with
    | some id => rfl
    | none =>
      simp only [hcan, Bool.not_true, Bool.false_eq_true, if_false]
      have hne : a ≠ who := by
        rintro rfl
        simp [view.canBeginCombat_self] at hcan
      have hnone : ∀ isPvP, (w.refs isPvP a).lookup who = none := by
        intro isPvP
        cases isPvP with
        | false => exact hpve
        | true => exact hpvp
      set ref : CombatReference U :=
        { first := a, second := who
          isPvP := view.isControlledByPlayer a && view.isControlledByPlayer who } with href
      obtain ⟨w', hput, hlinked, -⟩ := putReferences_linked h.toStructured hne hnone
        (if suppressed then ref.suppress who else ref)
      rw [← bind_assoc, hput]
      have hkeeps := ((sameLinks_update w' a).trans (sameLinks_update _ who)).keeps
      have hlookup := (hlinked.refs (if suppressed then ref.suppress who else ref).isPvP a who).trans
        (if_pos ⟨rfl, .inl ⟨rfl, rfl⟩⟩)
      exact hkeeps a who ((isInCombatWith_iff w' a who).mpr ⟨_, _, hlookup⟩)

namespace ThreatWorld

variable {U H : Type u} [DecidableEq U] {q : PriorityQueue RefId SortKey H} {view : View U}
  {w w' w'' : ThreatWorld U H} {a v x : U} {id : RefId} {amount : ℚ}

/-- The threat that `a` holds of a unit, before the modifiers of the unit. -/
def baseOf (w : ThreatWorld U H) (a v : U) : ℚ :=
  match (w.entries a).lookup v with
  | none => 0
  | some id => (w.ref id).baseAmount

/-- Nothing keeps a reference to the unit from being online. -/
def Attends (view : View U) (a v : U) : Prop :=
  ∀ ref : ThreatReference U, ref.owner = a → ref.victim = v →
    shouldBeOffline view ref = false ∧ shouldBeSuppressed view ref = false

def Present (w : ThreatWorld U H) (a v : U) : Prop :=
  ∀ id, (w.entries a).lookup v = some id → (w.ref id).isOffline = false

structure Quiet (view : View U) (a : U) (w w' : ThreatWorld U H) : Prop where
  base : ∀ id, (w'.ref id).baseAmount = (w.ref id).baseAmount
  parties : ∀ id, (w'.ref id).owner = (w.ref id).owner ∧ (w'.ref id).victim = (w.ref id).victim
  online : ∀ id, (w.ref id).owner = a → Attends view a (w.ref id).victim →
    (w.ref id).isOffline = false → (w'.ref id).isOffline = false
  canHave : ∀ x, (w'.manager x).ownerCanHaveThreatList = (w.manager x).ownerCanHaveThreatList

theorem canHave_setManager {manager : ThreatManager U H}
    (h : manager.ownerCanHaveThreatList = (w.manager a).ownerCanHaveThreatList) (x : U) :
    ((w.setManager a manager).manager x).ownerCanHaveThreatList =
      (w.manager x).ownerCanHaveThreatList :=
  field_setManager ThreatManager.ownerCanHaveThreatList h x

theorem canHave_heapNotify {increased : Bool} (x : U) :
    ((w.heapNotify q increased id).manager x).ownerCanHaveThreatList =
      (w.manager x).ownerCanHaveThreatList :=
  canHave_setManager (by rfl) x

namespace Quiet

omit [DecidableEq U] in
theorem refl (w : ThreatWorld U H) : Quiet view a w w :=
  ⟨fun _ => rfl, fun _ => ⟨rfl, rfl⟩, fun _ _ _ h => h, fun _ => rfl⟩

omit [DecidableEq U] in
theorem trans (h : Quiet view a w w') (h' : Quiet view a w' w'') : Quiet view a w w'' where
  base id := (h'.base id).trans (h.base id)
  parties id := ⟨(h'.parties id).1.trans (h.parties id).1, (h'.parties id).2.trans (h.parties id).2⟩
  online id howner hattends honline := by
    refine h'.online id ((h.parties id).1.trans howner) ?_ (h.online id howner hattends honline)
    rwa [(h.parties id).2]
  canHave x := (h'.canHave x).trans (h.canHave x)

theorem manage {manager : ThreatManager U H}
    (h : manager.ownerCanHaveThreatList = (w.manager x).ownerCanHaveThreatList) :
    Quiet view a w (w.setManager x manager) := by
  exact ⟨fun _ => rfl, fun _ => ⟨rfl, rfl⟩, fun _ _ _ h => h, canHave_setManager h⟩

theorem setOnline {state : OnlineState} (increased : Bool)
    (h : (w.ref id).owner = a → Attends view a (w.ref id).victim → state ≠ .offline) :
    Quiet view a w ((w.setRef id { w.ref id with online := state }).heapNotify q increased id) := by
  refine ⟨fun other => ?_, fun other => ?_, fun other howner hattends honline => ?_, fun y => ?_⟩
  · by_cases hother : other = id
    · subst hother
      simp [setRef, heapNotify, setManager]
    · simp [setRef, heapNotify, setManager, hother]
  · by_cases hother : other = id
    · subst hother
      simp [setRef, heapNotify, setManager]
    · simp [setRef, heapNotify, setManager, hother]
  · by_cases hother : other = id
    · subst hother
      simp [setRef, heapNotify, setManager, ThreatReference.isOffline, h howner hattends]
    · simpa [setRef, heapNotify, setManager, hother] using honline
  · exact canHave_heapNotify (w := w.setRef id { w.ref id with online := state }) y

theorem updateOffline : Quiet view a w (w.updateOffline q view id) := by
  unfold ThreatWorld.updateOffline
  dsimp only
  split
  · exact .refl w
  split
  · rename_i hoffline
    refine .setOnline false fun howner hattends => ?_
    rw [(hattends (w.ref id) howner rfl).1] at hoffline
    exact nomatch hoffline
  · refine (Quiet.setOnline true fun _ _ => ?_).trans (.manage rfl)
    split <;> exact nofun

theorem updateOnlineStates (x : U) : Quiet view a w (w.updateOnlineStates q view x) := by
  rw [ThreatWorld.updateOnlineStates]
  generalize view.entries (w.entries x) = l
  induction l generalizing w with
  | nil => exact .refl w
  | cons entry l ih => exact updateOffline.trans ih

theorem updateMissingVictim {may : Fault → Prop} (x : U)
    (h : Ends may (w.updateMissingVictim q view x) fun _ => True) :
    Ends may (w.updateMissingVictim q view x) (Quiet view a w) := by
  unfold ThreatWorld.updateMissingVictim at h ⊢
  split
  · rename_i hnone
    rw [if_pos hnone] at h
    unfold updateVictim reselectVictim at h ⊢
    split at h
    · rename_i hempty
      rw [if_pos hempty]
      exact Ends.ok (.manage rfl)
    · rename_i hlisted
      rw [if_neg hlisted]
      have hstates : Quiet view a w (w.updateOnlineStates q view x) := updateOnlineStates x
      dsimp only at h ⊢
      cases hchoose : (w.updateOnlineStates q view x).chooseVictim q view x with
      | error fault =>
        rw [hchoose] at h
        exact h
      | ok victim => exact Ends.ok (hstates.trans (.manage rfl))
  · exact Ends.ok (.manage rfl)

end Quiet

structure Raised (id : RefId) (amount : ℚ) (w w' : ThreatWorld U H) : Prop where
  base : ∀ other, (w'.ref other).baseAmount =
    (w.ref other).baseAmount + if other = id then amount else 0
  online : ∀ other, (w'.ref other).online = (w.ref other).online
  canHave : ∀ x, (w'.manager x).ownerCanHaveThreatList = (w.manager x).ownerCanHaveThreatList

theorem addRefThreat_raised (hamount : 0 ≤ amount) (hbase : 0 ≤ (w.ref id).baseAmount) :
    Raised id amount w (w.addRefThreat q id amount) := by
  unfold addRefThreat
  dsimp only
  split
  · rename_i hzero
    exact ⟨fun other => by simp [hzero], fun _ => rfl, fun _ => rfl⟩
  rename_i hne
  have hpos : amount > 0 := lt_of_le_of_ne hamount (Ne.symm hne)
  rw [if_pos hpos]
  refine ⟨fun other => ?_, fun other => ?_, fun x => ?_⟩
  · by_cases hother : other = id
    · subst hother
      simp [clientUpdate, heapNotify, setManager, setRef, add_nonneg hbase hamount]
    · simp [clientUpdate, heapNotify, setManager, setRef, hother]
  · by_cases hother : other = id
    · subst hother
      simp [clientUpdate, heapNotify, setManager, setRef]
    · simp [clientUpdate, heapNotify, setManager, setRef, hother]
  · exact (canHave_setManager (by rfl) x).trans (canHave_heapNotify x)

theorem addOnlineThreat_raised (hamount : 0 ≤ amount) (hbase : 0 ≤ (w.ref id).baseAmount)
    (honline : (w.ref id).isOnline = true) :
    Raised id amount w (w.addOnlineThreat q id amount) := by
  rw [addOnlineThreat, if_pos honline]
  exact addRefThreat_raised hamount hbase

theorem updateOffline_online (hattends : Attends view (w.ref id).owner (w.ref id).victim)
    (hoffline : (w.ref id).isOffline = true) :
    ((w.updateOffline q view id).ref id).isOnline = true := by
  obtain ⟨hstays, hactive⟩ := hattends (w.ref id) rfl rfl
  unfold updateOffline
  simp [hstays, hoffline, hactive, setManager, heapNotify, setRef, ThreatReference.isOnline]

structure Credited (attending : U → Prop) (a : U) (credit : U → ℚ) (w w' : ThreatWorld U H) :
    Prop where
  base : ∀ v, w'.baseOf a v = w.baseOf a v + credit v
  present : ∀ v, attending v → w.Present a v → w'.Present a v
  canHave : ∀ x, (w'.manager x).ownerCanHaveThreatList = (w.manager x).ownerCanHaveThreatList

namespace Credited

variable {attending : U → Prop} {credit credit' : U → ℚ}

theorem refl (w : ThreatWorld U H) : Credited attending a (fun _ => 0) w w :=
  ⟨fun _ => (add_zero _).symm, fun _ _ h => h, fun _ => rfl⟩

theorem trans (h : Credited attending a credit w w') (h' : Credited attending a credit' w' w'') :
    Credited attending a (fun v => credit v + credit' v) w w'' where
  base v := by rw [h'.base, h.base, add_assoc]
  present v hv hpresent := h'.present v hv (h.present v hv hpresent)
  canHave x := (h'.canHave x).trans (h.canHave x)

theorem quiet (hok : ThreatOk q w) (h : Quiet view a w w') (hentries : w'.entries a = w.entries a)
    (hattending : ∀ v, attending v → Attends view a v) :
    Credited attending a (fun _ => 0) w w' := by
  refine ⟨fun v => ?_, fun v hv hpresent id hlookup => ?_, h.canHave⟩
  · rw [add_zero, baseOf, baseOf, hentries]
    cases (w.entries a).lookup v with
    | none => rfl
    | some id => exact h.base id
  · rw [hentries] at hlookup
    obtain ⟨-, howner, hvictim⟩ := hok.stored hlookup
    exact h.online id howner (hvictim ▸ hattending v hv) (hpresent id hlookup)

theorem raised (hok : ThreatOk q w) (h : Raised id amount w w')
    (hentries : w'.entries a = w.entries a) (hlookup : (w.entries a).lookup v = some id) :
    Credited attending a (fun x => if x = v then amount else 0) w w' := by
  refine ⟨fun x => ?_, fun x hx hpresent other hother => ?_, h.canHave⟩
  · rw [baseOf, baseOf, hentries]
    by_cases hx : x = v
    · subst hx
      simp only [hlookup, if_true]
      rw [h.base, if_pos rfl]
    · rw [if_neg hx, add_zero]
      cases hother : (w.entries a).lookup x with
      | none => rfl
      | some other =>
        have hne : other ≠ id := by
          rintro rfl
          exact hx ((hok.stored hother).2.2.symm.trans (hok.stored hlookup).2.2)
        simp only
        rw [h.base, if_neg hne, add_zero]
  · rw [hentries] at hother
    have honline := hpresent other hother
    rwa [ThreatReference.isOffline, h.online]

theorem inserted (hok : ThreatOk q w) (h : Inserted q w w' a v)
    (hcanHave : ∀ x, (w'.manager x).ownerCanHaveThreatList = (w.manager x).ownerCanHaveThreatList) :
    Credited (fun x => attending x ∧ x ≠ v) a (fun _ => 0) w w' := by
  have hold : ∀ {x other}, (w.entries a).lookup x = some other → w'.ref other = w.ref other := by
    intro x other hother
    rw [h.ref, Function.update_of_ne (hok.fresh (hok.stored hother).1).ne]
  refine ⟨fun x => ?_, fun x hx hpresent other hother => ?_, hcanHave⟩
  · rw [add_zero, baseOf, baseOf, h.lookup]
    by_cases hx : x = v
    · subst hx
      simp [h.isNew, h.ref]
    rw [if_neg fun heq => hx heq.2]
    cases hother : (w.entries a).lookup x with
    | none => rfl
    | some other =>
      simp only
      rw [hold hother]
  · rw [h.lookup, if_neg fun heq => hx.2 heq.2] at hother
    rw [hold hother]
    exact hpresent other hother

theorem comes (h : Credited (fun x => attending x ∧ x ≠ v) a credit w w')
    (hlookup : (w'.entries a).lookup v = some id) (honline : (w'.ref id).isOnline = true) :
    Credited attending a credit w w' := by
  refine { h with present := fun x hx hpresent => ?_ }
  by_cases hv : x = v
  · subst hv
    intro other hother
    obtain rfl := Option.some.inj (hlookup.symm.trans hother)
    have hstate : (w'.ref id).online = .online := by simpa [ThreatReference.isOnline] using honline
    simp [ThreatReference.isOffline, hstate]
  · exact h.present x ⟨hx, hv⟩ hpresent

end Credited

theorem putThreatListRef_canHave (h : w.putThreatListRef q a v id = .ok w') (x : U) :
    (w'.manager x).ownerCanHaveThreatList = (w.manager x).ownerCanHaveThreatList := by
  rw [putThreatListRef] at h
  split at h
  · exact nomatch h
  · cases h
    exact canHave_setManager (by rfl) x

theorem putThreatenedByMeRef_canHave (h : w.putThreatenedByMeRef a v id = .ok w') (x : U) :
    (w'.manager x).ownerCanHaveThreatList = (w.manager x).ownerCanHaveThreatList := by
  rw [putThreatenedByMeRef] at h
  split at h
  · exact nomatch h
  · cases h
    exact canHave_setManager (by rfl) x

end ThreatWorld

namespace World

variable {U H : Type u} [DecidableEq U] {q : PriorityQueue RefId SortKey H}
  {env : World U H → View U} {w w' : World U H} {a target : U} {amount : ℚ}
  {attending : U → Prop}

/-- Units that the server lets fight each other, with nothing to redirect threat from one
to a third or to keep it off the list. -/
structure Engageable (env : World U H → View U) (a v : U) : Prop where
  canBeginCombat : ∀ w, (env w).canBeginCombat a v = true
  getUnit : ∀ w, (env w).getUnit a v = true
  getVehicleBase : ∀ w, (env w).getVehicleBase v = none
  isPrivateObject : ∀ w, (env w).isPrivateObject v = false
  attends : ∀ w, ThreatWorld.Attends (env w) a v

/-- The end of `AddThreat` gives the amount to the target, and nothing to others. -/
theorem applyThreat_credited (hq : q.Contents) (h : JointOk q w) (hamount : 0 ≤ amount)
    (htarget : Engageable env a target) (hattending : ∀ v, attending v → Engageable env a v)
    (hmember : attending target) (hpresent : ∀ v, attending v → w.threat.Present a v) :
    Ends (fun _ => False) (applyThreat q env w a target amount) fun w' =>
      ThreatWorld.Credited attending a (fun v => if v = target then amount else 0)
        w.threat w'.threat := by
  have hstart : Ends (fun _ => False) (w.setInCombatWith env a target false) fun result =>
      (Served q Truthful w result.1 ∧ result.1.threat = w.threat ∧
        (result.2 = true → result.1.combat.isInCombatWith a target = true)) ∧
        result.2 = true := by
    refine (setInCombatWith_served env h a target false).and ?_
    refine (h.combat.setInCombatWith_engaged (htarget.canBeginCombat w) false).bind
      fun result hresult => ?_
    exact hresult
  refine hstart.bind fun result hresult => ?_
  obtain ⟨⟨hserved, hthreat, hcombat⟩, hin⟩ := hresult
  obtain ⟨w₁, inCombat⟩ := result
  subst hin
  rw [← hthreat] at hpresent ⊢
  have hok := hserved.ok.threat
  have hquiet : ∀ v, attending v → ThreatWorld.Attends (env w₁) a v :=
    fun v hv => (hattending v hv).attends w₁
  simp only [Bool.not_true, Bool.false_eq_true, if_false]
  cases hlookup : (w₁.threat.entries a).lookup target with
  | some id =>
    have hlive := (hok.stored hlookup).1
    let resumed := if (w₁.threat.ref id).isSuppressed &&
        !shouldBeSuppressed (env w₁) (w₁.threat.ref id) then
      w₁.threat.setOnline q id .online true else w₁.threat
    have hactive := (hquiet target hmember (w₁.threat.ref id) (hok.stored hlookup).2.1
      (hok.stored hlookup).2.2).2
    have hresumed : ThreatWorld.Adjusts q Truthful w₁.threat resumed ∧
        ThreatWorld.Quiet (env w₁) a w₁.threat resumed ∧ (resumed.ref id).isOnline = true := by
      by_cases hsuppressed : (w₁.threat.ref id).isSuppressed = true
      · have heq : resumed = w₁.threat.setOnline q id .online true := by
          simp [resumed, hsuppressed, hactive]
        rw [heq]
        refine ⟨resume_adjusts hok hlive hsuppressed, .setOnline true nofun, ?_⟩
        simp [setOnline, heapNotify, setRef,
          setManager, ThreatReference.isOnline]
      · have heq : resumed = w₁.threat := by simp [resumed, hsuppressed]
        rw [heq]
        refine ⟨.refl _, .refl _, ?_⟩
        have hoffline := hpresent target hmember id hlookup
        revert hsuppressed hoffline
        simp only [ThreatReference.isSuppressed, ThreatReference.isOffline,
          ThreatReference.isOnline]
        cases (w₁.threat.ref id).online <;> simp
    obtain ⟨hadjusts, hsame, honline⟩ := hresumed
    have hok' := hadjusts.ok hq hok
    have hlive' : resumed.live id = true := hadjusts.live ▸ hlive
    have hraised := addOnlineThreat_raised (q := q) hamount (hok'.base hlive') honline
    have hcredit := (ThreatWorld.Credited.quiet hok hsame (hadjusts.entries a) hquiet).trans
      (.raised hok' hraised ((addOnlineThreat_adjusts hq hok' hlive' amount).entries a)
        (hadjusts.entries a ▸ hlookup))
    simp only [zero_add] at hcredit
    exact hcredit
  | none =>
    obtain ⟨threat₁, threat₂, hput, hput', hinserted⟩ := hok.inserted hlookup
    refine Ends.bind_ok hput (Ends.bind_ok hput' ?_)
    have hok₂ := hok.insert hq hinserted
    have hlive : threat₂.live w₁.threat.nextRef = true := by simp [hinserted.live]
    have hnew : threat₂.ref w₁.threat.nextRef = { owner := a, victim := target } := by
      simp [hinserted.ref]
    have hcanHave : ∀ x, (threat₂.manager x).ownerCanHaveThreatList =
        (w₁.threat.manager x).ownerCanHaveThreatList := fun x =>
      (putThreatenedByMeRef_canHave hput' x).trans (putThreatListRef_canHave hput x)
    have hadjusts : ThreatWorld.Adjusts q Truthful threat₂
        (threat₂.updateOffline q (env w₁) w₁.threat.nextRef) :=
      updateOffline_adjusts hq hok₂ hlive
    have honline : ((threat₂.updateOffline q (env w₁) w₁.threat.nextRef).ref
        w₁.threat.nextRef).isOnline = true := by
      refine updateOffline_online ?_ ?_
      · rw [hnew]
        exact hquiet target hmember
      · rw [hnew]
        rfl
    have hlookup' : ((threat₂.updateOffline q (env w₁) w₁.threat.nextRef).entries a).lookup target =
        some w₁.threat.nextRef := by
      rw [hadjusts.entries, hinserted.lookup, if_pos ⟨rfl, rfl⟩]
    have hok₃ := hadjusts.ok hq hok₂
    have hlive₃ : (threat₂.updateOffline q (env w₁) w₁.threat.nextRef).live
        w₁.threat.nextRef = true := hadjusts.live ▸ hlive
    have hbefore := ((ThreatWorld.Credited.inserted hok hinserted hcanHave).trans
      (.quiet hok₂ .updateOffline (hadjusts.entries a) fun v hv => hquiet v hv.1)).comes
        hlookup' honline
    have hraised := addOnlineThreat_raised (q := q) hamount (hok₃.base hlive₃) honline
    have hadded := addOnlineThreat_adjusts hq hok₃ hlive₃ amount
    have hcredit := hbefore.trans (.raised hok₃ hraised (hadded.entries a) hlookup')
    have hok₄ := hadded.ok hq hok₃
    have hvictim := updateMissingVictim_adjusts (env w₁) hq hok₄ a
    have hquiet₄ := ThreatWorld.Quiet.updateMissingVictim (a := a) a
      (hvictim.mono fun _ _ => trivial)
    refine (hvictim.and hquiet₄).bind fun threat hthreat' => ?_
    have hall := hcredit.trans (.quiet hok₄ hthreat'.2 (hthreat'.1.entries a) hquiet)
    simp only [zero_add, add_zero] at hall
    exact hall

/-- The spell does not keep the owner from adding threat. -/
def Threatens (env : World U H → View U) (a : U) (spell : Option SpellInfo) : Prop :=
  ∀ w, spell.any (fun spell => spell.noThreat || !(env w).isEngaged a && spell.noInitialThreat) =
    false

variable {spell : Option SpellInfo}

/-- `AddThreat` for a unit that can be engaged goes on to the threat modifiers. -/
theorem addThreat_engageable (hspell : Threatens env a spell) (htarget : Engageable env a target)
    (hlist : (w.threat.manager a).ownerCanHaveThreatList = true) (fuel : Nat)
    (ignoreModifiers ignoreRedirects : Bool) :
    addThreat q env a spell (fuel + 1) ignoreModifiers ignoreRedirects w target amount =
      addModifiedThreat q env (addThreat q env a spell fuel true true) w a target amount spell
        ignoreModifiers ignoreRedirects := by
  have hvehicle : ∀ add, addVehicleThreat env add w target amount = .ok (w, amount) := by
    intro add
    rw [addVehicleThreat, htarget.getVehicleBase w]
  have howner : ∀ add, addOwnerThreat env add w a target amount = .ok (w, amount) := by
    intro add
    simp [addOwnerThreat, htarget.isPrivateObject w]
  rw [addThreat, if_neg (by rw [hspell w]; exact nofun)]
  simp only [hvehicle, htarget.getVehicleBase w, Option.isSome_none, Bool.false_and]
  change (addOwnerThreat env _ w a target amount >>= _) = _
  rw [howner]
  change (if !(w.threat.manager a).ownerCanHaveThreatList then _ else _) = _
  rw [hlist]
  rfl

def shares (origAmount : ℚ) (redirects : List (U × Nat)) (v : U) : ℚ :=
  (redirects.map fun redirect => if v = redirect.1 then origAmount * redirect.2 / 100 else 0).sum

def redirected (origAmount : ℚ) (redirects : List (U × Nat)) : ℚ :=
  (redirects.map fun redirect => origAmount * redirect.2 / 100).sum

section
variable (hq : q.Contents) (hspell : Threatens env a spell)
  (hattending : ∀ v, attending v → Engageable env a v) (fuel : Nat)
include hq hspell hattending fuel

theorem redirects_credited (hamount : 0 ≤ amount) (redirects : List (U × Nat))
    (hredirects : ∀ redirect ∈ redirects, attending redirect.1) (rest : ℚ) (h : JointOk q w)
    (hlist : (w.threat.manager a).ownerCanHaveThreatList = true)
    (hpresent : ∀ v, attending v → w.threat.Present a v) :
    Ends (fun _ => False) (redirects.foldlM (fun (state : World U H × ℚ) redirect => do
        let (w, rest) := state
        if ((w.threat.entries a).lookup redirect.1).isSome || (env w).getUnit a redirect.1 then do
          let amountRedirected := amount * redirect.2 / 100
          let w ← addThreat q env a spell (fuel + 1) true true w redirect.1 amountRedirected
          .ok (w, rest - amountRedirected)
        else .ok (w, rest)) (w, rest))
      fun result => JointOk q result.1 ∧
        ThreatWorld.Credited attending a (shares amount redirects) w.threat result.1.threat ∧
        result.2 = rest - redirected amount redirects := by
  induction redirects generalizing w rest with
  | nil => exact ⟨h, .refl _, (sub_zero rest).symm⟩
  | cons redirect redirects ih =>
    have hhead := hredirects redirect mem_cons_self
    have hengaged := hattending _ hhead
    have hshare : 0 ≤ amount * redirect.2 / 100 :=
      div_nonneg (mul_nonneg hamount (Nat.cast_nonneg _)) (by norm_num)
    have hcall : Ends (fun _ => False)
        (addThreat q env a spell (fuel + 1) true true w redirect.1 (amount * redirect.2 / 100))
        fun w' => JointOk q w' ∧ ThreatWorld.Credited attending a
          (fun v => if v = redirect.1 then amount * redirect.2 / 100 else 0)
          w.threat w'.threat := by
      rw [addThreat_engageable hspell hengaged hlist]
      have hserved := applyThreat_served env hq h a redirect.1 (amount * redirect.2 / 100)
      exact (hserved.and (applyThreat_credited hq h hshare hengaged hattending hhead
        hpresent)).mono fun w' hw' => ⟨hw'.1.ok, hw'.2⟩
    rw [foldlM_cons]
    simp only [hengaged.getUnit w, Bool.or_true, if_true]
    have hround : Ends (fun _ => False) (do
        let w ← addThreat q env a spell (fuel + 1) true true w redirect.1
          (amount * redirect.2 / 100)
        .ok (w, rest - amount * redirect.2 / 100)) fun state : World U H × ℚ =>
          JointOk q state.1 ∧ ThreatWorld.Credited attending a
            (fun v => if v = redirect.1 then amount * redirect.2 / 100 else 0) w.threat
            state.1.threat ∧ state.2 = rest - amount * redirect.2 / 100 :=
      hcall.bind fun w' hw' => ⟨hw'.1, hw'.2, rfl⟩
    refine hround.bind ?_
    rintro ⟨w', rest'⟩ ⟨hok, hcredit, rfl⟩
    refine (ih (fun r hr => hredirects r (mem_cons_of_mem _ hr)) _ hok
      ((hcredit.canHave a).trans hlist) fun v hv => hcredit.present v hv (hpresent v hv)).mono ?_
    rintro result ⟨hok', hcredit', hrest⟩
    refine ⟨hok', ?_, ?_⟩
    · exact hcredit.trans hcredit'
    · rw [hrest, redirected, redirected, map_cons, sum_cons, sub_sub]

/-- `AddThreat` for a target and redirection targets that can all be engaged. -/
theorem addThreat_credited (ignoreModifiers : Bool) (h : JointOk q w)
    (hlist : (w.threat.manager a).ownerCanHaveThreatList = true)
    (hpresent : ∀ v, attending v → w.threat.Present a v) (htarget : attending target)
    (hredirects : ∀ redirect ∈ (env w).redirectInfo target, attending redirect.1) {modified : ℚ}
    (hmodified : modified =
      if ignoreModifiers then amount else (env w).calculateModifiedThreat amount target spell)
    (hamount : 0 ≤ modified)
    (hrest : redirected modified ((env w).redirectInfo target) ≤ modified) :
    Ends (fun _ => False)
      (addThreat q env a spell (fuel + 2) ignoreModifiers false w target amount) fun w' =>
      ThreatWorld.Credited attending a (fun v => shares modified ((env w).redirectInfo target) v +
          if v = target then modified - redirected modified ((env w).redirectInfo target) else 0)
        w.threat w'.threat := by
  have hengaged := hattending target htarget
  rw [addThreat_engageable hspell hengaged hlist, addModifiedThreat, ← hmodified]
  simp only [Bool.not_false, Bool.true_and, decide_eq_true_eq]
  split
  · have hfold := redirects_credited (w := w) hq hspell hattending fuel hamount
      ((env w).redirectInfo target) hredirects modified h hlist hpresent
    refine hfold.bind ?_
    rintro ⟨w', rest⟩ ⟨hok, hcredit, rfl⟩
    have hleft := sub_nonneg.mpr hrest
    exact (applyThreat_credited hq hok hleft hengaged hattending htarget
      fun v hv => hcredit.present v hv (hpresent v hv)).mono fun w'' hw'' => hcredit.trans hw''
  · rename_i hnot
    have hzero : modified = 0 := le_antisymm (not_lt.mp hnot) hamount
    have hnone : redirected modified ((env w).redirectInfo target) = 0 := by
      simp [redirected, hzero]
    have hnobody : ∀ v, shares modified ((env w).redirectInfo target) v = 0 := by
      simp [shares, hzero]
    refine (applyThreat_credited hq h hamount hengaged hattending htarget hpresent).mono
      fun w' hw' => ?_
    simpa only [hnone, hnobody, sub_zero, zero_add] using hw'

end

end World
end LegionServer.Source.Combat
