import LegionServer.Source.Movement.MotionMaster

/-!
# Who owns generators

A generator that was handed to `Add` is in the default slot, in the set or in a call that is put
off until it is deleted. Operations keep this together with the map of base unit states.
-/
namespace LegionServer.Source.Movement
open Library List Function BitVec

namespace BaseUnitState

variable {b b' : BaseUnitState} {u v : BitVec 32}

def IsIn (b : BaseUnitState) (u : BitVec 32) : Prop := b.mask &&& u = b.mask

theorem IsIn.or_left (h : b.IsIn u) : b.IsIn (u ||| v) := by
  rw [IsIn] at h ⊢
  rw [and_or_distrib_left, h]
  ext i
  simp only [getElem_or, getElem_and]
  cases b.mask[i] <;> rfl

theorem isIn_or_self : b.IsIn (u ||| b.mask) := by
  ext i
  simp only [getElem_or, getElem_and]
  cases b.mask[i] <;> simp

theorem mask_and_not (h : b ≠ b') : b.mask &&& ~~~b'.mask = b.mask := by
  cases b <;> cases b' <;> first | contradiction | rfl

theorem IsIn.and_not (h : b.IsIn u) (hne : b ≠ b') : b.IsIn (u &&& ~~~b'.mask) := by
  rw [IsIn] at h ⊢
  rw [← BitVec.and_assoc, h]
  exact mask_and_not hne

def Respects (u v : BitVec 32) : Prop := ∀ b : BaseUnitState, b.IsIn u → b.IsIn v

end BaseUnitState

open BaseUnitState (Respects)

/-- Generators do not clear base unit states of their owner. -/
structure Callbacks.RespectsStates (c : Callbacks) : Prop where
  onInitialize : ∀ s movement, Respects s.unitState (c.onInitialize s movement).2
  onDeactivate : ∀ s movement, Respects s.unitState (c.onDeactivate s movement)
  onFinalize : ∀ s movement active movementInform,
    Respects s.unitState (c.onFinalize s movement active movementInform)

def Behaviour.RespectsStates : Behaviour → Prop
  | .done _ unitState => ∀ u, Respects u (unitState u)
  | .call _ start rest => start.RespectsStates ∧ rest.RespectsStates

namespace MotionMaster

def added : Call → Option MovementGenerator
  | .add movement _ => some movement
  | _ => none

def owned (s : MotionMaster) : List MovementGenerator :=
  s.defaultGenerator.toList ++ s.generators.items ++ s.delayedActions.filterMap added

/-- The pairs that the map of base unit states has for some generators. -/
def baseUnitStates (movements : List MovementGenerator) :
    List (BaseUnitState × MovementGenerator) :=
  (movements.filter fun g => g.baseUnitState ≠ .none).map fun g => (g.baseUnitState, g)

/-- What holds of the generators where some are still in the map, some are finalized and about to
be deleted, and some are in hand. The owner has all states of the map as long as no generator has
cleared one. -/
structure Kept (clean : Prop) (mapped leaving hand : List MovementGenerator) (s : MotionMaster) :
    Prop where
  states : s.baseUnitStatesMap.Perm (baseUnitStates (mapped ++ s.generators.items))
  bits : clean → ∀ p ∈ s.baseUnitStatesMap, p.1.IsIn s.unitState
  balance : ∀ g, g ≠ getIdleMovementGenerator →
    s.deleted g + s.owned.count g + leaving.count g + hand.count g = s.handed.count g
  finalized : ∀ g, g ≠ getIdleMovementGenerator → s.finalized g ≤ s.deleted g + leaving.count g
  ids : ∀ g ∈ s.handed, g ≠ getIdleMovementGenerator → g.id ≤ s.handed.length
  handed : ∀ g, g ≠ getIdleMovementGenerator → s.handed.count g ≤ 1
  flags : ∀ g, (g.kind = .idle → s.flags g = ⟨false, false⟩) ∧
    (g.kind = .immediate → (s.flags g).deactivated = false)
  assertFailed : s.assertFailed = false

variable {clean : Prop} {s s' : MotionMaster} {c : Callbacks} {mapped leaving hand : List MovementGenerator}
  {movement g : MovementGenerator}

theorem kept_start : Kept clean [] [] [] ({} : MotionMaster) where
  states := List.Perm.refl _
  bits _ _ h := by cases h
  balance _ _ := rfl
  finalized _ _ := le_refl _
  ids _ h := by cases h
  handed _ _ := Nat.zero_le _
  flags g := by
    constructor
    · intro h
      change GeneratorFlags.constructed g.kind = _
      rw [h]
      rfl
    · intro h
      change (GeneratorFlags.constructed g.kind).deactivated = _
      rw [h]
      rfl
  assertFailed := rfl

structure SameSlots (s s' : MotionMaster) : Prop where
  updating : s'.updating = s.updating
  initializationPending : s'.initializationPending = s.initializationPending
  initializing : s'.initializing = s.initializing
  defaultGenerator : s'.defaultGenerator = s.defaultGenerator
  generators : s'.generators = s.generators
  baseUnitStatesMap : s'.baseUnitStatesMap = s.baseUnitStatesMap

theorem SameSlots.refl (s : MotionMaster) : SameSlots s s := ⟨rfl, rfl, rfl, rfl, rfl, rfl⟩

theorem SameSlots.trans {s'' : MotionMaster} (h : SameSlots s s') (h' : SameSlots s' s'') :
    SameSlots s s'' where
  updating := h'.updating.trans h.updating
  initializationPending := h'.initializationPending.trans h.initializationPending
  initializing := h'.initializing.trans h.initializing
  defaultGenerator := h'.defaultGenerator.trans h.defaultGenerator
  generators := h'.generators.trans h.generators
  baseUnitStatesMap := h'.baseUnitStatesMap.trans h.baseUnitStatesMap

theorem SameSlots.delayed (h : SameSlots s s') : s'.delayed = s.delayed := by
  rw [MotionMaster.delayed, MotionMaster.delayed, h.updating, h.initializationPending]

structure Aside (clean : Prop) (s s' : MotionMaster) : Prop extends SameSlots s s' where
  kept : ∀ mapped leaving hand, Kept clean mapped leaving hand s → Kept clean mapped leaving hand s'

theorem Aside.refl (s : MotionMaster) : Aside clean s s := ⟨.refl s, fun _ _ _ h => h⟩

theorem Aside.trans {s'' : MotionMaster} (h : Aside clean s s') (h' : Aside clean s' s'') :
    Aside clean s s'' where
  toSameSlots := h.toSameSlots.trans h'.toSameSlots
  kept _ _ _ hkept := h'.kept _ _ _ (h.kept _ _ _ hkept)

theorem aside_unitState {unitState : BitVec 32} (hstate : clean → Respects s.unitState unitState) :
    Aside clean s { s with unitState } :=
  ⟨⟨rfl, rfl, rfl, rfl, rfl, rfl⟩, fun _ _ _ h =>
    ⟨h.states, fun hclean p hp => hstate hclean p.1 (h.bits hclean p hp), h.balance, h.finalized, h.ids, h.handed, h.flags, h.assertFailed⟩⟩

theorem aside_setFlags {f : GeneratorFlags} (hidle : movement.kind = .idle → f = s.flags movement)
    (himmediate : movement.kind = .immediate → (s.flags movement).deactivated = false →
      f.deactivated = false) : Aside clean s (s.setFlags movement f) := by
  refine ⟨⟨rfl, rfl, rfl, rfl, rfl, rfl⟩, fun _ _ _ h =>
    ⟨h.states, h.bits, h.balance, h.finalized, h.ids, h.handed, fun g => ?_, h.assertFailed⟩⟩
  change (_ → Function.update s.flags movement f g = _) ∧ (_ →
    (Function.update s.flags movement f g).deactivated = _)
  by_cases hg : g = movement
  · subst hg
    rw [update_self]
    exact ⟨fun hkind => (hidle hkind).trans ((h.flags g).1 hkind),
      fun hkind => himmediate hkind ((h.flags g).2 hkind)⟩
  · rw [update_of_ne hg]
    exact h.flags g

theorem aside_flagsOnInitialize :
    Aside clean s (s.setFlags movement ((s.flags movement).onInitialize movement.kind)) := by
  apply aside_setFlags
  · intro hkind
    rw [hkind]
    rfl
  · intro hkind hflags
    rw [hkind]
    exact hflags

theorem aside_flagsOnReset :
    Aside clean s (s.setFlags movement ((s.flags movement).onReset movement.kind)) := by
  apply aside_setFlags
  · intro hkind
    rw [hkind]
    rfl
  · intro hkind hflags
    rw [hkind]
    exact hflags

theorem aside_flagsOnDeactivate :
    Aside clean s (s.setFlags movement ((s.flags movement).onDeactivate movement.kind)) := by
  apply aside_setFlags
  · intro hkind
    rw [hkind]
    rfl
  · intro hkind hflags
    rw [hkind]
    exact hflags

theorem aside_onInitialize (hc : clean → c.RespectsStates) :
    Aside clean s (s.onInitialize movement c).1 :=
  aside_flagsOnInitialize.trans (aside_unitState fun hclean => (hc hclean).onInitialize _ movement)

theorem aside_onDeactivate (hc : clean → c.RespectsStates) :
    Aside clean s (s.onDeactivate movement c) :=
  aside_flagsOnDeactivate.trans (aside_unitState fun hclean => (hc hclean).onDeactivate _ movement)

theorem kept_updating (updating : Bool) (h : Kept clean mapped leaving hand s) :
    Kept clean mapped leaving hand { s with updating } :=
  ⟨h.states, h.bits, h.balance, h.finalized, h.ids, h.handed, h.flags, h.assertFailed⟩

theorem Kept.recordFinalize (h : Kept clean mapped leaving (movement :: hand) s) :
    Kept clean mapped (movement :: leaving) hand (s.recordFinalize movement) := by
  refine ⟨h.states, h.bits, fun g hg => ?_, fun g hg => ?_, h.ids, h.handed, h.flags, h.assertFailed⟩
  · have hbalance := h.balance g hg
    rw [count_cons] at hbalance
    rw [count_cons]
    change s.deleted g + s.owned.count g + _ + _ = s.handed.count g
    omega
  · have hfinalized := h.finalized g hg
    rw [count_cons]
    change Function.update s.finalized movement _ g ≤ s.deleted g + _
    by_cases hsame : g = movement
    · subst hsame
      rw [update_self, beq_self_eq_true, if_pos rfl]
      omega
    · rw [update_of_ne hsame]
      omega

theorem Kept.onFinalize {active movementInform : Bool} (hc : clean → c.RespectsStates)
    (h : Kept clean mapped leaving (movement :: hand) s) :
    Kept clean mapped (movement :: leaving) hand (s.onFinalize movement c active movementInform) :=
  (aside_unitState fun hclean =>
    (hc hclean).onFinalize _ movement active movementInform).kept _ _ _ h.recordFinalize

theorem deleted_deleteObject (g : MovementGenerator) : (s.deleteObject movement).deleted g =
    s.deleted g + if movement == g then 1 else 0 := by
  change Function.update s.deleted movement _ g = _
  by_cases hsame : movement = g
  · subst hsame
    rw [update_self, beq_self_eq_true, if_pos rfl]
  · rw [update_of_ne (Ne.symm hsame), if_neg (by simpa using hsame), add_zero]

theorem Kept.deleteLeaving (h : Kept clean mapped (movement :: leaving) hand s) :
    Kept clean mapped leaving hand (s.deleteObject movement) := by
  refine ⟨h.states, h.bits, fun g hg => ?_, fun g hg => ?_, h.ids, h.handed, h.flags, h.assertFailed⟩
  · have hbalance := h.balance g hg
    rw [count_cons] at hbalance
    rw [deleted_deleteObject]
    change _ + s.owned.count g + _ + _ = s.handed.count g
    omega
  · have hfinalized := h.finalized g hg
    rw [count_cons] at hfinalized
    rw [deleted_deleteObject]
    change s.finalized g ≤ _
    omega

theorem Kept.deleteHand (h : Kept clean mapped leaving (movement :: hand) s) :
    Kept clean mapped leaving hand (s.deleteObject movement) := by
  apply Kept.deleteLeaving
  refine { h with balance := fun g hg => ?_, finalized := fun g hg => ?_ }
  · have hbalance := h.balance g hg
    rw [count_cons] at hbalance ⊢
    omega
  · have hfinalized := h.finalized g hg
    rw [count_cons]
    omega

theorem Kept.pointerDeleter (h : Kept clean mapped (movement :: leaving) hand s) :
    Kept clean mapped leaving hand (s.movementGeneratorPointerDeleter movement) := by
  rw [movementGeneratorPointerDeleter]
  split
  · rename_i hstatic
    have hidle : movement = getIdleMovementGenerator := of_decide_eq_true hstatic
    refine ⟨h.states, h.bits, fun g hg => ?_, fun g hg => ?_, h.ids, h.handed, h.flags, h.assertFailed⟩
    · have hbalance := h.balance g hg
      rw [count_cons_of_ne (by rw [hidle]; exact hg.symm)] at hbalance
      exact hbalance
    · have hfinalized := h.finalized g hg
      rw [count_cons_of_ne (by rw [hidle]; exact hg.symm)] at hfinalized
      exact hfinalized
  · exact h.deleteLeaving

theorem Kept.move {mapped' hand' : List MovementGenerator} (h : Kept clean mapped leaving hand s)
    (hstates : s'.baseUnitStatesMap.Perm (baseUnitStates (mapped' ++ s'.generators.items)))
    (hbits : clean → ∀ p ∈ s'.baseUnitStatesMap, p.1.IsIn s'.unitState)
    (howned : ∀ g, g ≠ getIdleMovementGenerator →
      s'.owned.count g + hand'.count g = s.owned.count g + hand.count g)
    (hdeleted : s'.deleted = s.deleted) (hfinalized : s'.finalized = s.finalized)
    (hhanded : s'.handed = s.handed) (hflags : s'.flags = s.flags)
    (hassert : s'.assertFailed = s.assertFailed) : Kept clean mapped' leaving hand' s' := by
  refine ⟨hstates, hbits, fun g hg => ?_, fun g hg => ?_, ?_, ?_, ?_, hassert.trans h.assertFailed⟩
  · have hbalance := h.balance g hg
    have hmoved := howned g hg
    rw [hdeleted, hhanded]
    omega
  · rw [hfinalized, hdeleted]
    exact h.finalized g hg
  · rw [hhanded]
    exact h.ids
  · rw [hhanded]
    exact h.handed
  · rw [hflags]
    exact h.flags

end MotionMaster

end LegionServer.Source.Movement
