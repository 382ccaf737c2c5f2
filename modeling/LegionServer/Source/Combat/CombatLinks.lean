import LegionServer.Source.Combat.CombatReference

/-!
# Beginning and ending combat

Ending a reference takes exactly this link out of all maps, beginning combat adds one.
-/
namespace LegionServer.Source.Combat
open Library Function AList

variable {U : Type*} [DecidableEq U]

namespace CombatWorld

variable {w w' : CombatWorld U} {a b c d : U} {id id' : RefId} {isPvP isPvP' : Bool}

section
variable (w : CombatWorld U)

@[simp] theorem purgeReference_object (a b : U) (isPvP : Bool) :
    (w.purgeReference a b isPvP).object = w.object := rfl

theorem refs_endCombat (hlinks : (w.object id).Links a b) (hne : a ≠ b) (isPvP' : Bool) (c d : U) :
    ((w.endCombat id).refs isPvP' c).lookup d =
      if isPvP' = (w.object id).isPvP ∧ (c = a ∧ d = b ∨ c = b ∧ d = a) then none
      else (w.refs isPvP' c).lookup d := by
  -- flags and `delete` leave the maps alone
  have hupdate : ∀ (v : CombatWorld U) (x : U),
      (v.updateOwnerCombatState x).refs isPvP' c = v.refs isPvP' c :=
    fun v x => (sameLinks_update v x).refs isPvP' c
  have hdelete : ∀ (v : CombatWorld U), (v.delete id).refs isPvP' c = v.refs isPvP' c :=
    fun _ => rfl
  have hmaps : (w.endCombat id).refs isPvP' c =
      ((w.purgeReference a b (w.object id).isPvP).purgeReference b a
        (w.object id).isPvP).refs isPvP' c := by
    unfold endCombat
    simp only [hdelete, hupdate]
    rcases hlinks with ⟨rfl, rfl⟩ | ⟨rfl, rfl⟩
    · rfl
    · rw [purgeReference_comm _ hne]
  rw [hmaps, refs_purgeReference]
  by_cases hkind : isPvP' = (w.object id).isPvP
  · subst hkind
    by_cases hcb : c = b
    · subst hcb
      have hca : c ≠ a := Ne.symm hne
      by_cases hda : d = a
      · subst hda
        simp
      · simp [refs_purgeReference, hca, hda, lookup_erase_ne]
    · by_cases hca : c = a
      · subst hca
        by_cases hdb : d = b
        · subst hdb
          simp [refs_purgeReference, hcb]
        · simp [refs_purgeReference, hcb, hdb, lookup_erase_ne]
      · simp [refs_purgeReference, hca, hcb]
  · simp [refs_purgeReference, hkind]

theorem endCombat_frame (id : RefId) :
    (w.endCombat id).object = w.object ∧ (w.endCombat id).nextRef = w.nextRef ∧
      (w.endCombat id).live = Function.update w.live id false := by
  have hupdate : ∀ (v : CombatWorld U) (x : U), (v.updateOwnerCombatState x).object = v.object ∧
        (v.updateOwnerCombatState x).nextRef = v.nextRef ∧
        (v.updateOwnerCombatState x).live = v.live := by
    intro v x
    unfold updateOwnerCombatState
    split <;> exact ⟨rfl, rfl, rfl⟩
  simp [endCombat, delete, hupdate, purgeReference, setRefs]

theorem flagged_endCombat (hlinks : (w.object id).Links a b) (hne : a ≠ b)
    (hflag : ∀ c, c ≠ a → c ≠ b → Flagged w c) (c : U) : Flagged (w.endCombat id) c := by
  have hdelete : ∀ v : CombatWorld U, Flagged v c → Flagged (v.delete id) c := fun _ h => h
  have hpurge : ∀ (v : CombatWorld U) (x y : U) (isPvP : Bool), c ≠ x → Flagged v c →
      Flagged (v.purgeReference x y isPvP) c := by
    intro v x y isPvP hcx h
    have hsame : (v.purgeReference x y isPvP).hasCombat c = v.hasCombat c := by
      refine hasCombat_congr (fun isPvP' => ?_) fun _ _ _ _ => rfl
      simp [refs_purgeReference, hcx]
    exact h.trans hsame.symm
  apply hdelete
  by_cases hsecond : c = (w.object id).second
  · subst hsecond
    exact flagged_update _ _
  apply Flagged.update
  by_cases hfirst : c = (w.object id).first
  · subst hfirst
    exact flagged_update _ _
  apply Flagged.update
  apply hpurge _ _ _ _ hsecond
  apply hpurge _ _ _ _ hfirst
  rcases hlinks with ⟨rfl, rfl⟩ | ⟨rfl, rfl⟩
  · exact hflag c hfirst hsecond
  · exact hflag c hsecond hfirst

theorem endCombat_purged (hlinks : (w.object id).Links a b) (hne : a ≠ b) :
    (w.purgeReference a b (w.object id).isPvP).endCombat id = w.endCombat id := by
  unfold endCombat
  simp only [purgeReference_object]
  rcases hlinks with ⟨rfl, rfl⟩ | ⟨rfl, rfl⟩
  · rw [purgeReference_twice]
  · rw [purgeReference_comm _ hne, purgeReference_twice]

end

/-- An entry that is left after the end of a combat was there before, and is
not the reference that ended. -/
theorem Structured.lookup_endCombat (h : Structured w) (hid : (w.refs isPvP a).lookup b = some id)
    (hleft : ((w.endCombat id).refs isPvP' c).lookup d = some id') :
    (w.refs isPvP' c).lookup d = some id' ∧ id' ≠ id ∧
      ¬(isPvP' = isPvP ∧ (c = a ∧ d = b ∨ c = b ∧ d = a)) := by
  rw [refs_endCombat w (h.links hid) (h.distinct hid), h.kind hid] at hleft
  split at hleft
  · cases hleft
  rename_i hother
  refine ⟨hleft, ?_, hother⟩
  rintro rfl
  have hkind : isPvP' = isPvP := (h.kind hleft).symm.trans (h.kind hid)
  rcases h.links hid with ⟨hfirst, hsecond⟩ | ⟨hfirst, hsecond⟩ <;>
    rcases h.links hleft with ⟨hfirst', hsecond'⟩ | ⟨hfirst', hsecond'⟩ <;>
    simp_all

theorem CombatOk.endCombat (h : CombatOk w) (hid : (w.refs isPvP a).lookup b = some id) :
    CombatOk (w.endCombat id) := by
  obtain ⟨hobject, hnext, hlive⟩ := endCombat_frame w id
  refine ⟨⟨fun hlookup => ?_, fun hlookup => ?_, fun hlookup => ?_, fun hlookup => ?_,
    fun hlookup => ?_, fun hlookup => ?_, fun hlookup => ?_⟩,
    flagged_endCombat w (h.links hid) (h.distinct hid) fun c _ _ => h.flagged c⟩
  · obtain ⟨hold, hother, _⟩ := h.lookup_endCombat hid hlookup
    simpa [hlive, hother] using h.live hold
  · rw [hnext]
    rw [hlive] at hlookup
    rw [update_apply] at hlookup
    split at hlookup
    · cases hlookup
    · exact h.fresh hlookup
  · rw [hobject]
    exact h.kind (h.lookup_endCombat hid hlookup).1
  · rw [hobject]
    exact h.links (h.lookup_endCombat hid hlookup).1
  · exact h.distinct (h.lookup_endCombat hid hlookup).1
  · obtain ⟨hold, _, hother⟩ := h.lookup_endCombat hid hlookup
    rw [refs_endCombat w (h.links hid) (h.distinct hid), h.kind hid, if_neg]
    · exact h.symm hold
    · rintro ⟨hkind, hpair⟩
      exact hother ⟨hkind, hpair.symm.imp And.symm And.symm⟩
  · obtain ⟨hold, _, _⟩ := h.lookup_endCombat hid hlookup
    rw [refs_endCombat w (h.links hid) (h.distinct hid)]
    split
    · rfl
    · exact h.single hold

/-- `w'` has one reference more than `w`, a new one between `a` and `b`. -/
structure Linked (w w' : CombatWorld U) (a b : U) (ref : CombatReference U) : Prop where
  refs : ∀ isPvP c d, (w'.refs isPvP c).lookup d =
    if isPvP = ref.isPvP ∧ (c = a ∧ d = b ∨ c = b ∧ d = a) then some w.nextRef
    else (w.refs isPvP c).lookup d
  object : w'.object = Function.update w.object w.nextRef ref
  live : w'.live = Function.update w.live w.nextRef true
  nextRef : w'.nextRef = w.nextRef + 1

section linked

variable {ref : CombatReference U}

theorem Linked.lookup (h : Linked w w' a b ref) (hlookup : (w'.refs isPvP c).lookup d = some id) :
    (id = w.nextRef ∧ isPvP = ref.isPvP ∧ (c = a ∧ d = b ∨ c = b ∧ d = a)) ∨
      (w.refs isPvP c).lookup d = some id := by
  rw [h.refs] at hlookup
  split at hlookup
  · rename_i hnew
    cases hlookup
    exact .inl ⟨rfl, hnew⟩
  · exact .inr hlookup

theorem Structured.old (h : Structured w) (hlookup : (w.refs isPvP c).lookup d = some id) :
    id ≠ w.nextRef := (h.fresh (h.live hlookup)).ne

theorem Structured.linked (h : Structured w) (hlinked : Linked w w' a b ref) (hne : a ≠ b)
    (hparties : ref.Links a b) (hnone : ∀ isPvP, (w.refs isPvP a).lookup b = none) :
    Structured w' := by
  have hnone' : ∀ isPvP, (w.refs isPvP b).lookup a = none := by
    intro isPvP
    rw [Option.eq_none_iff_forall_not_mem]
    intro id hid
    have hback := h.symm hid
    rw [hnone] at hback
    cases hback
  refine ⟨fun hlookup => ?_, fun hlive => ?_, fun hlookup => ?_, fun hlookup => ?_,
    fun hlookup => ?_, fun hlookup => ?_, fun {c d id} hlookup => ?_⟩
  · rw [hlinked.live]
    obtain ⟨rfl, _⟩ | hold := hlinked.lookup hlookup
    · simp
    · simpa [h.old hold] using h.live hold
  · rw [hlinked.live, update_apply] at hlive
    rw [hlinked.nextRef]
    split at hlive
    · rename_i hnew
      exact hnew ▸ Nat.lt_succ_self _
    · exact Nat.lt_succ_of_lt (h.fresh hlive)
  · rw [hlinked.object]
    obtain ⟨rfl, rfl, _⟩ | hold := hlinked.lookup hlookup
    · simp
    · simpa [h.old hold] using h.kind hold
  · rw [hlinked.object]
    obtain ⟨rfl, rfl, ⟨rfl, rfl⟩ | ⟨rfl, rfl⟩⟩ | hold := hlinked.lookup hlookup
    · simpa using hparties
    · simpa using hparties.symm
    · simpa [h.old hold] using h.links hold
  · obtain ⟨_, _, ⟨rfl, rfl⟩ | ⟨rfl, rfl⟩⟩ | hold := hlinked.lookup hlookup
    · exact hne
    · exact Ne.symm hne
    · exact h.distinct hold
  · rw [hlinked.refs]
    obtain ⟨rfl, hkind, hpair⟩ | hold := hlinked.lookup hlookup
    · exact if_pos ⟨hkind, hpair.symm.imp And.symm And.symm⟩
    split
    · rename_i hnew
      rcases hnew.2 with ⟨rfl, rfl⟩ | ⟨rfl, rfl⟩
      · rw [hnone'] at hold
        cases hold
      · rw [hnone] at hold
        cases hold
    · exact h.symm hold
  · rw [hlinked.refs]
    obtain ⟨rfl, hkind, hpair⟩ | hold := hlinked.lookup hlookup
    · rw [if_neg fun htwo => absurd (htwo.1.trans hkind.symm) (by decide)]
      rcases hpair with ⟨rfl, rfl⟩ | ⟨rfl, rfl⟩
      · exact hnone true
      · exact hnone' true
    · split
      · rename_i hnew
        rcases hnew.2 with ⟨rfl, rfl⟩ | ⟨rfl, rfl⟩
        · rw [hnone] at hold
          cases hold
        · rw [hnone'] at hold
          cases hold
      · exact h.single hold

theorem Linked.flagged (h : Structured w) (hlinked : Linked w w' a b ref)
    (hflag : w'.inCombat = w.inCombat) (hca : c ≠ a) (hcb : c ≠ b) (hc : Flagged w c) :
    Flagged w' c := by
  have hsame : w'.hasCombat c = w.hasCombat c := by
    rw [Bool.eq_iff_iff, hasCombat_iff, hasCombat_iff]
    simp only [hlinked.refs, hca, hcb, false_and, or_false, and_false, if_false]
    constructor
    · rintro ⟨isPvP, d, id, hlookup, hsup⟩
      rw [hlinked.object, update_of_ne (h.old hlookup)] at hsup
      exact ⟨isPvP, d, id, hlookup, hsup⟩
    · rintro ⟨isPvP, d, id, hlookup, hsup⟩
      rw [← update_of_ne (h.old hlookup) ref w.object, ← hlinked.object] at hsup
      exact ⟨isPvP, d, id, hlookup, hsup⟩
  exact (congrFun hflag c).trans (hc.trans hsame.symm)

theorem CombatOk.linked (h : CombatOk w) (hlinked : Linked w w' a b ref) (hne : a ≠ b)
    (hparties : ref.Links a b) (hnone : ∀ isPvP, (w.refs isPvP a).lookup b = none)
    (hflag : w'.inCombat = w.inCombat) :
    CombatOk ((w'.updateOwnerCombatState a).updateOwnerCombatState b) where
  toStructured := (h.toStructured.linked hlinked hne hparties hnone).same
    ((sameLinks_update w' a).trans (sameLinks_update _ b))
  flagged c := by
    by_cases hcb : c = b
    · subst hcb
      exact flagged_update _ c
    apply Flagged.update
    by_cases hca : c = a
    · subst hca
      exact flagged_update _ c
    · exact (hlinked.flagged h.toStructured hflag hca hcb (h.flagged c)).update a

end linked

theorem isInCombatWith_iff (w : CombatWorld U) (a b : U) :
    w.isInCombatWith a b = true ↔ ∃ isPvP id, (w.refs isPvP a).lookup b = some id := by
  simp [isInCombatWith, Bool.exists_bool, Option.isSome_iff_exists]

def Keeps (w w' : CombatWorld U) : Prop :=
  ∀ c d, w.isInCombatWith c d = true → w'.isInCombatWith c d = true

theorem Keeps.refl (w : CombatWorld U) : Keeps w w := fun _ _ h => h

theorem Keeps.trans {w'' : CombatWorld U} (h : Keeps w w') (h' : Keeps w' w'') : Keeps w w'' :=
  fun c d hcd => h' c d (h c d hcd)

theorem SameLinks.keeps (h : SameLinks w w') : Keeps w w' :=
  fun c d hcd => (h.isInCombatWith c d).trans hcd

theorem Linked.keeps {ref : CombatReference U} (h : Linked w w' a b ref) : Keeps w w' := by
  intro c d hcd
  rw [isInCombatWith_iff] at hcd ⊢
  obtain ⟨isPvP, id, hlookup⟩ := hcd
  by_cases hnew : isPvP = ref.isPvP ∧ (c = a ∧ d = b ∨ c = b ∧ d = a)
  · exact ⟨isPvP, w.nextRef, (h.refs isPvP c d).trans (if_pos hnew)⟩
  · exact ⟨isPvP, id, (h.refs isPvP c d).trans ((if_neg hnew).trans hlookup)⟩

theorem putReferences_linked (h : Structured w) (hne : a ≠ b)
    (hnone : ∀ isPvP, (w.refs isPvP a).lookup b = none) (ref : CombatReference U) :
    ∃ w', ((w.create ref).putReference a b w.nextRef >>=
        fun w₁ => w₁.putReference b a w.nextRef) = .ok w' ∧
      Linked w w' a b ref ∧ w'.inCombat = w.inCombat := by
  have hnone' : (w.refs ref.isPvP b).lookup a = none := by
    rw [Option.eq_none_iff_forall_not_mem]
    intro id hid
    have hback := h.symm hid
    rw [hnone] at hback
    cases hback
  have hobject : (w.create ref).object w.nextRef = ref := by simp [create]
  have hrefs : ∀ isPvP c, (w.create ref).refs isPvP c = w.refs isPvP c := fun _ _ => rfl
  have hfirst : (w.create ref).putReference a b w.nextRef = .ok
      ((w.create ref).setRefs ref.isPvP a ((w.refs ref.isPvP a).insert b w.nextRef)) := by
    simp [putReference, hobject, hrefs, hnone]
  have hsecond : ((w.create ref).setRefs ref.isPvP a
      ((w.refs ref.isPvP a).insert b w.nextRef)).putReference b a w.nextRef = .ok
      (((w.create ref).setRefs ref.isPvP a ((w.refs ref.isPvP a).insert b w.nextRef)).setRefs
        ref.isPvP b ((w.refs ref.isPvP b).insert a w.nextRef)) := by
    have hkept : ((w.create ref).setRefs ref.isPvP a
        ((w.refs ref.isPvP a).insert b w.nextRef)).object w.nextRef = ref := hobject
    simp [putReference, hkept, refs_setRefs, Ne.symm hne, hrefs, hnone']
  refine ⟨_, (congrArg (· >>= _) hfirst).trans hsecond, ⟨fun isPvP c d => ?_, rfl, rfl, rfl⟩, rfl⟩
  by_cases hkind : isPvP = ref.isPvP
  · subst hkind
    by_cases hcb : c = b
    · subst hcb
      by_cases hda : d = a
      · subst hda
        simp [refs_setRefs]
      · simp [refs_setRefs, hda, Ne.symm hne, lookup_insert_ne]
    · by_cases hca : c = a
      · subst hca
        by_cases hdb : d = b
        · subst hdb
          simp [refs_setRefs, hcb]
        · simp [refs_setRefs, hcb, hdb, lookup_insert_ne]
      · simp [refs_setRefs, hca, hcb, hrefs]
  · simp [refs_setRefs, hkind, hrefs]

/-- What `SetInCombatWith` does: it meets no duplicate, no combat ends, and it
tells whether the two units are in combat now. -/
theorem CombatOk.setInCombatWith (h : CombatOk w) (view : View U) (a who : U) (suppressed : Bool) :
    Ends (fun _ => False) (w.setInCombatWith view a who suppressed) fun result =>
      CombatOk result.1 ∧ Keeps w result.1 ∧ (result.2 = true → result.1.isInCombatWith a who) := by
  unfold CombatWorld.setInCombatWith
  cases hpvp : (w.refs true a).lookup who with
  | some id =>
    have hall := (sameLinks_setTimer w id PVP_COMBAT_TIMEOUT).trans
      (sameLinks_refresh (w.refreshTimer id) id)
    refine ⟨CombatOk.refresh (h.setTimer id PVP_COMBAT_TIMEOUT) id, hall.keeps, fun _ => ?_⟩
    exact hall.keeps a who ((isInCombatWith_iff w a who).mpr ⟨true, id, hpvp⟩)
  | none =>
    cases hpve : (w.refs false a).lookup who with
    | some id =>
      have hall := sameLinks_refresh w id
      refine ⟨h.refresh id, hall.keeps, fun _ => ?_⟩
      exact hall.keeps a who ((isInCombatWith_iff w a who).mpr ⟨false, id, hpve⟩)
    | none =>
      dsimp only
      split
      · exact ⟨h, .refl w, fun hfalse => by cases hfalse⟩
      rename_i hcan
      have hne : a ≠ who := by
        rintro rfl
        simp [view.canBeginCombat_self] at hcan
      have hnone : ∀ isPvP, (w.refs isPvP a).lookup who = none := by
        intro isPvP
        cases isPvP with
        | false => exact hpve
        | true => exact hpvp
      set ref : CombatReference U :=
        { first := a, second := who
          isPvP := view.isControlledByPlayer a && view.isControlledByPlayer who } with href
      have hparties : (if suppressed then ref.suppress who else ref).Links a who := by
        split
        · exact (CombatReference.suppress_parties ref who).links.mpr (.inl ⟨rfl, rfl⟩)
        · exact .inl ⟨rfl, rfl⟩
      obtain ⟨w', hput, hlinked, hflag⟩ := putReferences_linked h.toStructured hne hnone
        (if suppressed then ref.suppress who else ref)
      have hok := h.linked hlinked hne hparties hnone hflag
      have hkeeps :=
        hlinked.keeps.trans ((sameLinks_update w' a).trans (sameLinks_update _ who)).keeps
      rw [← bind_assoc]
      rw [hput]
      exact ⟨hok, hkeeps, id⟩

end CombatWorld

end LegionServer.Source.Combat
