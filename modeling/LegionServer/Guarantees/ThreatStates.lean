import LegionServer.Source.Combat.ThreatOrder
import LegionServer.Source.Combat.TauntPriorities

/-!
# Combat states over whole runs

Any units, any requests, any answers of the server: combat is symmetric, two units share
at most one reference, and a unit has the flag exactly if some reference is not suppressed
for it.
-/
open List
namespace LegionServer.Guarantees.ThreatStates
open Library Source.Combat

section

universe u

variable {U H : Type u} [DecidableEq U] {q : PriorityQueue RefId SortKey H} {w : World U H}

/-- Two units share one reference only, whatever the maps it is found in. -/
theorem one_reference (h : w.combat.CombatOk) {isPvP isPvP' : Bool} {a b : U} {id id' : RefId}
    (hid : (w.combat.refs isPvP a).lookup b = some id)
    (hid' : (w.combat.refs isPvP' a).lookup b = some id') : isPvP = isPvP' ∧ id = id' := by
  have hkind : isPvP = isPvP' := by
    cases isPvP with
    | false =>
      cases isPvP' with
      | false => rfl
      | true =>
        rw [h.single hid] at hid'
        cases hid'
    | true =>
      cases isPvP' with
      | false =>
        rw [h.single hid'] at hid
        cases hid
      | true => rfl
  subst hkind
  exact ⟨rfl, Option.some.inj (hid.symm.trans hid')⟩

/-- Two units have the same one reference of each other or none, no `ASSERT` of a second one fails,
and the combat flag says whether one is there that is not suppressed. -/
theorem reachable_combat_symmetric (hq : q.Contents) (h : (combatSystem q).Reachable w) :
    (∀ isPvP a b id, (w.combat.refs isPvP a).lookup b = some id ↔
      (w.combat.refs isPvP b).lookup a = some id) ∧
    (∀ isPvP isPvP' a b id id', (w.combat.refs isPvP a).lookup b = some id →
      (w.combat.refs isPvP' a).lookup b = some id' → isPvP = isPvP' ∧ id = id') ∧
    (∀ call : CombatCall U H,
      w.perform q call.env call.fuel call.request ≠ .error .duplicateCombatState) ∧
    ∀ a, w.combat.inCombat a = true ↔ ∃ isPvP b id, (w.combat.refs isPvP a).lookup b = some id ∧
        (w.combat.object id).isSuppressedFor a = false := by
  have hok := World.reachable_jointOk hq h
  refine ⟨fun isPvP a b id => ⟨hok.combat.symm, hok.combat.symm⟩,
    fun isPvP isPvP' a b id id' => one_reference hok.combat, fun call herror => ?_, fun a => ?_⟩
  · have hserved := World.perform_served hq hok call.env call.fuel call.request
    cases hserved.may_of_error herror
  · rw [hok.combat.flagged a]
    exact w.combat.hasCombat_iff a

/-- A world in which everybody may fight everybody, and creatures are odd. -/
def calm : View Nat where
  order := id
  order_perm := List.Perm.refl
  isInWorld _ := true
  isAlive _ := true
  inSameMap _ _ := true
  inSamePhase _ _ := true
  isEvading _ := false
  isInFlight _ := false
  isCombatDisallowed _ := false
  isFriendlyTo _ _ := false
  isOfGameMaster _ := false
  isControlledByPlayer a := a % 2 = 0
  isWithinDistInMap _ _ _ := true
  canSeeOrDetect _ _ := true
  isTargetAcceptable _ _ := true
  canCreatureAttack _ _ := true
  isTrigger _ := false
  isPlayerControlled a := a % 2 = 0
  isImmuneToPC _ := false
  isImmuneToNPC _ := false
  isImmunedToMeleeDamageOf _ _ := false
  isConfused _ := false
  hasBreakableStun _ := false
  isDetauntedBy _ _ := false
  isWithinMeleeRange _ _ := true
  tauntCasters _ := []
  totalThreatAuras _ := []
  isEngaged _ := false
  getVehicleBase _ := none
  isAccessory _ := false
  isPrivateObject _ := false
  checkPrivateObjectOwnerVisibility _ _ := false
  getPrivateObjectOwner a := a
  getUnit _ _ := true
  redirectInfo _ := []
  calculateModifiedThreat threat _ _ := threat

def peace : World Nat (List RefId) where
  combat :=
    { object := fun _ => { first := 0, second := 0, isPvP := false }, live := fun _ => false
      nextRef := 0, manager := fun _ => {}, inCombat := fun _ => false }
  threat :=
    { ref := fun _ => { owner := 0, victim := 0 }, live := fun _ => false, nextRef := 0
      manager := fun a => { ownerCanHaveThreatList := a % 2 = 1, sortedThreatList := [] }
      seen := fun _ => toLex (0, toLex (0, 0)), notifications := [] }

theorem peace_initial : peace.Initial listQueue :=
  ⟨fun _ => ⟨rfl, rfl⟩, fun _ => rfl, fun _ => ⟨_, rfl⟩, fun _ => rfl, rfl⟩

/-- One request after the other, each with its answers; a failed run is taken back. -/
def afterwards (calls : List (View Nat × CombatRequest Nat)) : World Nat (List RefId) :=
  match World.run listQueue (calls.map fun call => ⟨fun _ => call.1, 9, call.2⟩) peace with
  | .ok w => w
  | .error _ => peace

theorem afterwards_reachable (calls : List (View Nat × CombatRequest Nat)) :
    (combatSystem listQueue).Reachable (afterwards calls) := by
  unfold afterwards
  split
  · rename_i w hrun
    exact World.reachable_run _ (.init peace_initial) hrun
  · exact .init peace_initial

/-- A spell missile of player 2, whom creature 1 fights, is under way to player 4, who does not
know yet; creature 3 fights player 6. -/
@[irreducible]
def skirmish : World Nat (List RefId) :=
  afterwards [(calm, .addThreat 1 2 10 none false false), (calm, .setInCombatWith 2 4 true),
    (calm, .addThreat 3 6 5 none false false), (calm, .addThreat 1 2 7 none false false)]

theorem skirmish_reachable : (combatSystem listQueue).Reachable skirmish := by
  rw [skirmish]
  exact afterwards_reachable _

theorem reachable_combat_symmetric_skirmish :
    skirmish.combat.inCombat 2 = true ∧ skirmish.combat.inCombat 4 = false ∧
      (skirmish.combat.refs true 4).lookup 2 = some 1 ∧
      (skirmish.combat.refs false 2).lookup 1 = some 0 := by
  have hall := reachable_combat_symmetric listQueue_contents skirmish_reachable
  exact ⟨(hall.2.2.2 2).mpr ⟨true, 4, 1, by decide +kernel, by decide +kernel⟩, by decide +kernel,
    (hall.1 true 2 4 1).mp (by decide +kernel), (hall.1 false 1 2 0).mp (by decide +kernel)⟩

end

/-!
# Threat references over whole runs

Any units and any interleaving of threat and combat requests: a threat reference
is stored in exactly three places, its owner and victim are in combat, and no
list, heap or cached pointer holds anything else.
-/
section

universe u

variable {U H : Type u} [DecidableEq U] {q : PriorityQueue RefId SortKey H} {w : World U H}

structure StoredOnce (q : PriorityQueue RefId SortKey H) (w : ThreatWorld U H) (id : RefId)
    (owner victim : U) : Prop where
  list : (w.entries owner).entries.count ⟨victim, id⟩ = 1
  heap : (q.elements (w.heap owner)).count id = 1
  threatened : (w.threatenedByMe victim).entries.count ⟨owner, id⟩ = 1
  noOtherList : ∀ {a v}, ⟨v, id⟩ ∈ (w.entries a).entries → a = owner ∧ v = victim
  noOtherHeap : ∀ {a}, id ∈ q.elements (w.heap a) → a = owner
  noOtherThreatened : ∀ {a v}, ⟨a, id⟩ ∈ (w.threatenedByMe v).entries → a = owner ∧ v = victim

theorem count_entry {refs : RefMap U} {a : U} {id : RefId} (h : refs.lookup a = some id) :
    refs.entries.count ⟨a, id⟩ = 1 :=
  count_eq_one_of_mem refs.nodupKeys.nodup (AList.mem_lookup_iff.mp h)

theorem listed_ids_nodup {w : ThreatWorld U H} (h : ThreatWorld.ThreatOk q w) (a : U) :
    ((w.entries a).entries.map Sigma.snd).Nodup := by
  refine List.Nodup.map_on ?_ (w.entries a).nodupKeys.nodup
  rintro ⟨v, id⟩ hv ⟨v', id'⟩ hv' heq
  have hid : id = id' := heq
  subst hid
  have hvictim := (h.stored (AList.mem_lookup_iff.mpr hv)).2.2
  have hvictim' := (h.stored (AList.mem_lookup_iff.mpr hv')).2.2
  rw [← hvictim, ← hvictim']

theorem storedOnce {w : ThreatWorld U H} (h : ThreatWorld.ThreatOk q w) {id : RefId}
    (hlive : w.live id = true) : StoredOnce q w id (w.ref id).owner (w.ref id).victim where
  list := count_entry (h.listed hlive)
  heap := by
    rw [(h.heaped _).count_eq]
    exact count_eq_one_of_mem (listed_ids_nodup h _)
      ((h.heaped _).mem_iff.mp (h.heap_of_entry (h.listed hlive)))
  threatened := count_entry (h.threatened.mpr (h.listed hlive))
  noOtherList hmem := by
    obtain ⟨_, howner, hvictim⟩ := h.stored (AList.mem_lookup_iff.mpr hmem)
    exact ⟨howner.symm, hvictim.symm⟩
  noOtherHeap hmem := by
    obtain ⟨v, hlookup⟩ := h.entry_of_heap hmem
    exact (h.stored hlookup).2.1.symm
  noOtherThreatened hmem := by
    obtain ⟨_, howner, hvictim⟩ := h.stored (h.threatened.mp (AList.mem_lookup_iff.mpr hmem))
    exact ⟨howner.symm, hvictim.symm⟩

/-- A live threat reference is in both maps and in the heap once, its units are in combat, and no
call reads a deleted one. -/
theorem reachable_threat_stored (hq : q.Contents) (h : (combatSystem q).Reachable w) :
    (∀ id, w.threat.live id = true →
      StoredOnce q w.threat id (w.threat.ref id).owner (w.threat.ref id).victim ∧
        w.combat.isInCombatWith (w.threat.ref id).owner (w.threat.ref id).victim = true) ∧
    (∀ a v id, (w.threat.entries a).lookup v = some id → w.threat.live id = true) ∧
    (∀ a id, (w.threat.manager a).currentVictimRef = some id ∨
        (w.threat.manager a).fixateRef = some id →
      ∃ v, (w.threat.entries a).lookup v = some id) ∧
    ∀ (call : CombatCall U H) (fault : Fault),
      w.perform q call.env call.fuel call.request = .error fault → fault = .unfinished := by
  have hok := World.reachable_jointOk hq h
  refine ⟨fun id hlive => ⟨storedOnce hok.threat hlive, ?_⟩, fun a v id hlookup => ?_,
    fun a id hid => ?_, fun call fault herror => ?_⟩
  · exact hok.implies (hok.threat.listed hlive)
  · exact (hok.threat.stored hlookup).1
  · exact hid.elim hok.threat.current hok.threat.fixate
  · exact (World.perform_served hq hok call.env call.fuel call.request).may_of_error herror

theorem reachable_threat_stored_skirmish :
    (skirmish.threat.entries 1).lookup 2 = some 0 ∧ List.count 0 (skirmish.threat.heap 1) = 1 ∧
      skirmish.combat.isInCombatWith 1 2 = true := by
  have hlookup : (skirmish.threat.entries 1).lookup 2 = some 0 := by decide +kernel
  have hall := reachable_threat_stored listQueue_contents skirmish_reachable
  obtain ⟨hstored, hcombat⟩ := hall.1 0 (hall.2.1 1 2 0 hlookup)
  obtain ⟨howner, hvictim⟩ := hstored.noOtherList (AList.mem_lookup_iff.mp hlookup)
  rw [← howner, ← hvictim] at hstored hcombat
  exact ⟨hlookup, hstored.heap, hcombat⟩

/-- `EndAllCombat` ends: its unit is in no combat and on no threat list, has no threat, and
all combats of the others are as they were. -/
theorem endAllCombat_leaves (hq : q.Contents) (h : (combatSystem q).Reachable w)
    (env : World U H → View U) (a : U) : ∃ w', w.endAllCombat q env a = .ok w' ∧
      (∀ isPvP x y, (w'.combat.refs isPvP x).lookup y =
        if x = a ∨ y = a then none else (w.combat.refs isPvP x).lookup y) ∧
      w'.combat.object = w.combat.object ∧ w'.combat.inCombat a = false ∧
      ∀ x y id, (w'.threat.entries x).lookup y = some id → x ≠ a ∧ y ≠ a := by
  obtain ⟨w', hrun, hok, hobject, hrefs⟩ :=
    Ends.exists_ok (World.endAllCombat_left env hq (World.reachable_jointOk hq h) a)
  refine ⟨w', hrun, hrefs, hobject, ?_, fun x y id hid => ?_⟩
  · rw [hok.combat.flagged a, Bool.eq_false_iff, ne_eq, CombatWorld.hasCombat_iff]
    rintro ⟨isPvP, b, id, hid, -⟩
    simp [hrefs] at hid
  · obtain ⟨isPvP, other, hcombat⟩ := (CombatWorld.isInCombatWith_iff _ x y).mp (hok.implies hid)
    rw [hrefs] at hcombat
    split at hcombat
    · cases hcombat
    · rename_i hothers
      exact not_or.mp hothers

theorem endAllCombat_leaves_skirmish :
    ∃ w', skirmish.endAllCombat listQueue (fun _ => calm) 2 = .ok w' ∧ w'.combat.inCombat 2 = false ∧
      (w'.combat.refs true 4).lookup 2 = none ∧ (w'.combat.refs false 6).lookup 3 = some 2 := by
  obtain ⟨w', hrun, hrefs, -, hflag, -⟩ := endAllCombat_leaves listQueue_contents
    skirmish_reachable (fun _ => calm) 2
  refine ⟨w', hrun, hflag, by simp [hrefs], ?_⟩
  rw [hrefs, if_neg (by decide)]
  decide +kernel

end

/-!
# Order of the threat heaps over whole runs

`UpdateMyTempModifiers` infers one direction from its first reference and tells it for all
of them.
-/
section

universe u

variable {U H : Type u} {q : PriorityQueue RefId SortKey H} {w w' : World U H}

/-- No heap was told wrong, and every top is a greatest reference. -/
structure OrderKept (q : PriorityQueue RefId SortKey H) (w : World U H) : Prop where
  told : ∀ n ∈ w.threat.notifications, Truthful n.increased n.before n.after
  top : ∀ a id other, q.top (w.threat.heap a) = some id → other ∈ q.elements (w.threat.heap a) →
    ThreatReference.compareReferencesLT (w.threat.ref id) (w.threat.ref other) 1 = false

variable {orders : q.Orders}

theorem orderKept_of_sorted (h : ThreatWorld.SortedOk orders w.threat) : OrderKept q w := by
  refine ⟨h.told, fun a id other htop hother => ?_⟩
  have hle := orders.top_max (h.wellFormed a) htop hother
  rw [Bool.eq_false_iff, ne_eq, ThreatReference.compareReferencesLT_one]
  exact not_lt_of_ge hle

theorem sorted_initial (h : World.Initial q w) : ThreatWorld.SortedOk orders w.threat := by
  obtain ⟨_, _, hmanager, hlive, hnotifications⟩ := h
  constructor
  · intro id hid
    rw [hlive id] at hid
    cases hid
  · rw [hnotifications]
    exact fun _ hn => absurd hn not_mem_nil
  · intro a
    obtain ⟨_, hmanager⟩ := hmanager a
    rw [ThreatWorld.heap, hmanager]
    exact orders.empty _

variable [DecidableEq U]

/-- An update of the modifiers has the right direction for every reference. -/
def CombatCall.Directed (call : CombatCall U H) (w : World U H) : Prop :=
  ∀ a, call.request = .updateMyTempModifiers a → w.threat.DirectionRight (call.env w) a

variable {call : CombatCall U H}

theorem perform_sorted (hq : q.Contents) (hok : World.JointOk q w)
    (h : ThreatWorld.SortedOk orders w.threat) (hdirected : CombatCall.Directed call w)
    (hstep : w.perform q call.env call.fuel call.request = .ok w') :
    ThreatWorld.SortedOk orders w'.threat := by
  have hserved : World.Served q Truthful w w' := by
    by_cases hmods : ∃ a, call.request = .updateMyTempModifiers a
    · obtain ⟨a, hrequest⟩ := hmods
      rw [hrequest] at hstep
      cases hstep
      exact hok.adjust hq
        (ThreatWorld.updateMyTempModifiers_truthful hq hok.threat (hdirected a hrequest))
    · have htruthful := World.perform_truthful hq hok call.env call.fuel call.request
        fun a ha => hmods ⟨a, ha⟩
      exact htruthful.post_of_ok hstep
  exact ThreatWorld.SortedOk.changes hq hserved.changes hok.threat h

theorem directed_of_kept (hok : World.JointOk q w) (h : ThreatWorld.SortedOk orders w.threat)
    (hstep : w.perform q call.env call.fuel call.request = .ok w') (hkept : OrderKept q w') :
    CombatCall.Directed call w := by
  intro a hrequest
  rw [hrequest] at hstep
  cases hstep
  exact ThreatWorld.directionRight_of_told hok.threat h hkept.told

/-- As long as the calls tell the heaps the right direction, and no longer, they are ordered. -/
theorem reachable_order_kept (hq : q.Contents) (orders : q.Orders)
    (h : ((combatSystem q).guarded CombatCall.Directed).Reachable w) :
    OrderKept q w ∧ ∀ (call : CombatCall U H) (w' : World U H),
      w.perform q call.env call.fuel call.request = .ok w' →
        (OrderKept q w' ↔ CombatCall.Directed call w) := by
  have hsorted : World.JointOk q w ∧ ThreatWorld.SortedOk orders w.threat := by
    refine h.invariant (fun w => World.JointOk q w ∧ ThreatWorld.SortedOk orders w.threat)
      (fun w hinit => ⟨World.jointOk_initial hq hinit, sorted_initial hinit⟩) ?_
    rintro call w w' ⟨hok, hw⟩ ⟨hdirected, hstep⟩
    have hserved := World.perform_served hq hok call.env call.fuel call.request
    exact ⟨(hserved.post_of_ok hstep).ok, perform_sorted hq hok hw hdirected hstep⟩
  obtain ⟨hok, hw⟩ := hsorted
  refine ⟨orderKept_of_sorted hw, fun call w' hstep => ⟨directed_of_kept hok hw hstep, ?_⟩⟩
  exact fun hdirected => orderKept_of_sorted (perform_sorted hq hok hw hdirected hstep)

/-- Player 2 has an aura that adds this much to the threat against him. -/
def provoking (amount : Int) : View Nat := { calm with totalThreatAuras := fun _ => [amount] }

theorem afterwards_snoc {guard : CombatCall Nat (List RefId) → World Nat (List RefId) → Prop}
    (calls : List (View Nat × CombatRequest Nat)) (view : View Nat) (request : CombatRequest Nat)
    (h : ((combatSystem listQueue).guarded guard).Reachable (afterwards calls))
    (hguard : guard ⟨fun _ => view, 9, request⟩ (afterwards calls)) :
    ((combatSystem listQueue).guarded guard).Reachable
      (afterwards (calls ++ [(view, request)])) := by
  unfold afterwards World.run at *
  simp only [map_append, map_cons, map_nil, foldlM_append, foldlM_cons, foldlM_nil, bind_pure]
  split at h
  · rename_i w hrun
    rw [hrun]
    simp only [hrun] at hguard
    split
    · rename_i w' hstep
      exact .step _ h ⟨hguard, hstep⟩
    · exact .init peace_initial
  · rename_i fault hrun
    rw [hrun]
    exact .init peace_initial

/-- The aura comes after the hit, and the heap of creature 1 learns of it. -/
theorem reachable_order_kept_provoked :
    let w := afterwards [(calm, .addThreat 1 2 10 none false false),
      (provoking 100, .updateMyTempModifiers 2)]
    (w.threat.ref 0).getThreat = 110 ∧ OrderKept listQueue w := by
  refine ⟨by decide +kernel, ?_⟩
  have hhit : ((combatSystem listQueue).guarded CombatCall.Directed).Reachable
      (afterwards [(calm, .addThreat 1 2 10 none false false)]) :=
    afterwards_snoc [] calm _ (.init peace_initial) fun a hrequest => by cases hrequest
  refine (reachable_order_kept listQueue_contents listQueue_orders
    (afterwards_snoc _ (provoking 100) _ hhit ?_)).1
  rintro a ⟨⟩
  unfold ThreatWorld.DirectionRight ThreatWorld.MovesAlong
  decide +kernel

/-- Creature 3 meets player 2 while he carries the aura, which then gets weaker:
creature 1 is told that his threat went up. -/
theorem weaker_aura_told_increased :
    let w := afterwards [(calm, .addThreat 1 2 10 none false false),
      (provoking 100, .updateMyTempModifiers 2), (provoking 100, .addThreat 3 2 10 none false false),
      (provoking 50, .updateMyTempModifiers 2)]
    (combatSystem listQueue).Reachable w ∧ (w.threat.ref 0).getThreat = 60 ∧
      ¬ OrderKept listQueue w := by
  refine ⟨afterwards_reachable _, by decide +kernel, fun hkept => ?_⟩
  have hlie : ∃ n ∈ (afterwards [(calm, .addThreat 1 2 10 none false false),
      (provoking 100, .updateMyTempModifiers 2), (provoking 100, .addThreat 3 2 10 none false false),
      (provoking 50, .updateMyTempModifiers 2)]).threat.notifications,
      ¬ Truthful n.increased n.before n.after := by
    unfold Truthful
    decide +kernel
  obtain ⟨n, hn, hfalse⟩ := hlie
  exact hfalse (hkept.told n hn)

end

/-!
# Taunt states

A taunt state is counted from the number of casters, but the priority in it from the
number of effects.
-/
section

variable {U H : Type*} [DecidableEq U] {q : PriorityQueue RefId SortKey H} {view : View U}
  {w w' : ThreatWorld U H} {a : U}

/-- `TAUNT_STATE_TAUNT + tauntStates.size() - it->second`, before the cast. -/
def stateNumber (casters : List U) (tauntPriority : Nat) : Int :=
  (TAUNT_STATE_TAUNT + (ThreatWorld.tauntStates casters).entries.length : Nat) - tauntPriority

/-- What the states on the list of a creature should be after an update. -/
structure Taunting (view : View U) (w w' : ThreatWorld U H) (a : U) : Prop where
  caster : ∀ c id, (w.entries a).lookup c = some id → c ∈ view.tauntCasters a →
    (w'.ref id).isTaunting = true
  other : ∀ c id, (w.entries a).lookup c = some id → c ∉ view.tauntCasters a →
    (w'.ref id).isTaunting = false
  bounds : ∀ c id priority, (w.entries a).lookup c = some id →
    (ThreatWorld.tauntStates (view.tauntCasters a)).lookup c = some priority →
    (TAUNT_STATE_TAUNT : Int) ≤ stateNumber (view.tauntCasters a) priority ∧
      stateNumber (view.tauntCasters a) priority < 2 ^ 32
  reversed : ∀ c c' id id' priority priority', (w.entries a).lookup c = some id →
    (w.entries a).lookup c' = some id' →
    (ThreatWorld.tauntStates (view.tauntCasters a)).lookup c = some priority →
    (ThreatWorld.tauntStates (view.tauntCasters a)).lookup c' = some priority' →
    (priority < priority' ↔ (w'.ref id').taunted < (w'.ref id).taunted)

/-- The last effect of each caster on the list stands no further back than there are casters. -/
def Counted (view : View U) (w : ThreatWorld U H) (a : U) : Prop :=
  ∀ c id, (w.entries a).lookup c = some id → c ∈ view.tauntCasters a →
    ThreatWorld.lastPosition (view.tauntCasters a) c ≤ (view.tauntCasters a).toFinset.card ∧
      TAUNT_STATE_TAUNT + (view.tauntCasters a).toFinset.card <
        2 ^ 32 + ThreatWorld.lastPosition (view.tauntCasters a) c

variable {casters : List U}

theorem stateNumber_bounds {priority : Nat} :
    ((TAUNT_STATE_TAUNT : Int) ≤ stateNumber casters priority ∧
      stateNumber casters priority < 2 ^ 32) ↔
    priority ≤ casters.toFinset.card ∧
      TAUNT_STATE_TAUNT + casters.toFinset.card < 2 ^ 32 + priority := by
  rw [stateNumber, ThreatWorld.length_tauntStates]
  omega

theorem tauntStateOf_none {c : U} (hc : c ∉ casters) :
    ThreatWorld.tauntStateOf (ThreatWorld.tauntStates casters) c = TAUNT_STATE_NONE := by
  rw [ThreatWorld.tauntStateOf, ThreatWorld.lookup_tauntStates, if_neg hc]

/-- A state that does not wrap is the number it was counted to. -/
theorem tauntStateOf_some {c : U} {priority : Nat}
    (hpriority : (ThreatWorld.tauntStates casters).lookup c = some priority)
    (hcounted : priority ≤ casters.toFinset.card ∧
      TAUNT_STATE_TAUNT + casters.toFinset.card < 2 ^ 32 + priority) :
    ThreatWorld.tauntStateOf (ThreatWorld.tauntStates casters) c =
      TAUNT_STATE_TAUNT + (casters.toFinset.card - priority) := by
  rw [ThreatWorld.tauntStateOf, hpriority, ThreatWorld.length_tauntStates]
  dsimp only
  omega

/-- The states are as they should be if and only if the effects are counted right. -/
theorem taunting_iff (hfiled : ThreatWorld.FiledByVictim w a) :
    Taunting view w (w.tauntUpdate q view a) a ↔ Counted view w a := by
  have hpriority : ∀ c ∈ view.tauntCasters a,
      (ThreatWorld.tauntStates (view.tauntCasters a)).lookup c =
        some (ThreatWorld.lastPosition (view.tauntCasters a) c) := by
    intro c hc
    rw [ThreatWorld.lookup_tauntStates, if_pos hc]
  have hmem : ∀ {c priority}, (ThreatWorld.tauntStates (view.tauntCasters a)).lookup c =
      some priority → c ∈ view.tauntCasters a ∧
        ThreatWorld.lastPosition (view.tauntCasters a) c = priority := by
    intro c priority hlookup
    rw [ThreatWorld.lookup_tauntStates, Option.ite_none_right_eq_some] at hlookup
    exact ⟨hlookup.1, Option.some.inj hlookup.2⟩
  constructor
  · intro h c id hlookup hc
    exact stateNumber_bounds.mp (h.bounds c id _ hlookup (hpriority c hc))
  · intro h
    have htaunted : ∀ c id priority, (w.entries a).lookup c = some id →
        (ThreatWorld.tauntStates (view.tauntCasters a)).lookup c = some priority →
        ((w.tauntUpdate q view a).ref id).taunted =
          TAUNT_STATE_TAUNT + ((view.tauntCasters a).toFinset.card - priority) := by
      intro c id priority hlookup hfound
      obtain ⟨hc, rfl⟩ := hmem hfound
      rw [ThreatWorld.taunted_tauntUpdate hfiled hlookup,
        tauntStateOf_some hfound (h c id hlookup hc), ThreatWorld.settled, if_neg (by omega)]
    refine ⟨fun c id hlookup hc => ?_, fun c id hlookup hc => ?_,
      fun c id priority hlookup hfound => ?_, ?_⟩
    · rw [ThreatReference.isTaunting, htaunted c id _ hlookup (hpriority c hc)]
      exact decide_eq_true (Nat.le_add_right _ _)
    · rw [ThreatReference.isTaunting, ThreatWorld.taunted_tauntUpdate hfiled hlookup,
        tauntStateOf_none hc, ThreatWorld.settled]
      split
      · rfl
      · rfl
    · obtain ⟨hc, rfl⟩ := hmem hfound
      exact stateNumber_bounds.mpr (h c id hlookup hc)
    · intro c c' id id' priority priority' hlookup hlookup' hfound hfound'
      rw [htaunted c id _ hlookup hfound, htaunted c' id' _ hlookup' hfound']
      obtain ⟨hc, rfl⟩ := hmem hfound
      obtain ⟨hc', rfl⟩ := hmem hfound'
      have hle' := (h c' id' hlookup' hc').1
      omega

def attacked : ThreatWorld Nat (List RefId) where
  ref id := { owner := 0, victim := id + 1, online := .online }
  live id := id < 2
  nextRef := 2
  manager _ :=
    { ownerCanHaveThreatList := true
      sortedThreatList := [1, 0]
      myThreatListEntries := ((∅ : RefMap Nat).insert 2 1).insert 1 0 }
  seen _ := toLex (0, toLex (0, 0))
  notifications := []

def taunted (casters : List Nat) : View Nat := { calm with tauntCasters := fun _ => casters }

theorem filed_attacked : ThreatWorld.FiledByVictim attacked 0 := by
  intro v id hlookup
  have hmem := AList.mem_lookup_iff.mp hlookup
  rcases List.mem_pair.mp hmem with heq | heq
  · cases heq
    rfl
  · cases heq
    rfl

theorem taunting_iff_attacked :
    Taunting (taunted [2, 1]) attacked (attacked.tauntUpdate listQueue (taunted [2, 1]) 0) 0 ↔
      Counted (taunted [2, 1]) attacked 0 :=
  taunting_iff filed_attacked

def AlwaysTaunting : Prop :=
  ∀ view : View Nat, ∀ w : ThreatWorld Nat (List RefId), ThreatWorld.FiledByVictim w 0 →
    Taunting view w (w.tauntUpdate listQueue view 0) 0

/-- Two effects of the only caster leave it without a taunt. -/
theorem not_alwaysTaunting : ¬AlwaysTaunting := by
  intro h
  have hcaster := (h (taunted [1, 1]) attacked filed_attacked).caster 1 0 (by decide) (by decide)
  revert hcaster
  decide

end

end LegionServer.Guarantees.ThreatStates
