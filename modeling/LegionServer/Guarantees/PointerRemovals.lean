import LegionServer.Source.Movement.MotionSteps

/-!
# Removing a generator by its pointer

`Remove` of a pointer from the active slot looks it up by its priority.
-/
namespace LegionServer.Guarantees.PointerRemovals
open Library Source.Movement List MotionMaster FlatSet Function
open MotionMaster (Kept added)

/-- `Remove(movement, MOTION_SLOT_ACTIVE)` when it is not put off any more. -/
structure Removal where
  callbacks : Callbacks
  before : MotionMaster
  movement : MovementGenerator
  /-- the calls that are still to be made -/
  waiting : List Call

def Removal.after (r : Removal) : MotionMaster :=
  r.before.call r.callbacks (fun movement s => s.onInitialize movement r.callbacks)
    (.remove r.movement .active)

def removalOf (c : Callbacks) (s : MotionMaster) (waiting : List Call) : Call → List Removal
  | .remove movement .active => [⟨c, s, movement, waiting⟩]
  | _ => []

/-- The removals of `ResolveDelayedActions`. -/
def resolving (c : Callbacks) (s : MotionMaster) : List Call → List Removal
  | [] => []
  | made :: waiting => removalOf c s waiting made ++
      resolving c (s.call c (fun movement s => s.onInitialize movement c) made) waiting

def removalsOf (s : MotionMaster) : Step → List Removal
  | .addToWorld c =>
    if !s.initializationPending then []
    else
      let s := { s with initializing := true, initializationPending := false }
      let s := s.directInitialize c
      resolving c { s with delayedActions := [] } s.delayedActions
  | .call c made => if s.delayed then [] else removalOf c s [] made
  | .update c u =>
    if s.initializationPending || s.initializing || s.empty then []
    else
      match s.getCurrentMovementGenerator with
      | none => []
      | some top =>
        let s := { MotionMaster.updateTop c u { s with updating := true } top with
          updating := false }
        resolving c { s with delayedActions := [] } s.delayedActions

def removals (s : MotionMaster) : List Step → List Removal
  | [] => []
  | step :: steps => removalsOf s step ++ removals (step.exec s) steps

def Alive (s : MotionMaster) (movement : MovementGenerator) : Prop :=
  movement = getIdleMovementGenerator ∨ movement ∈ s.handed ∧ s.deleted movement = 0

/-- What a removal may do: `find` reads the pointer if there is something to compare it with. -/
structure Removal.Sound (r : Removal) : Prop where
  alive : r.before.generators.items ≠ [] → Alive r.before r.movement
  others : ∀ g, g ≠ r.movement → (g ∈ r.after.generators.items ↔ g ∈ r.before.generators.items) ∧
      r.after.finalized g = r.before.finalized g ∧ r.after.deleted g = r.before.deleted g
  defaultGenerator : r.after.defaultGenerator = r.before.defaultGenerator

/-- The generator is in a slot or waits to be added, and no other one in the active slot has its
priority. -/
structure Removal.Clear (r : Removal) : Prop where
  owned : r.before.generators.items ≠ [] → r.movement = getIdleMovementGenerator ∨
    r.movement ∈ r.before.owned ∨ r.movement ∈ r.waiting.filterMap added
  priority : ∀ g ∈ r.before.generators.items, g.priority = r.movement.priority → g = r.movement

structure Removal.Running (r : Removal) : Prop where
  kept : Kept False [] [] (r.waiting.filterMap added) r.before
  delayed : r.before.delayed = false

section One

variable {s : MotionMaster} {c : Callbacks} {movement g : MovementGenerator} {r : Removal}

theorem finalized_remove (active movementInform : Bool) :
    (s.remove movement c active movementInform).finalized =
      Function.update s.finalized movement (s.finalized movement + 1) := by
  unfold remove removeAt delete
    movementGeneratorPointerDeleter clearBaseUnitState
  split <;> split <;> rfl

theorem deleted_remove (active movementInform : Bool) (hne : g ≠ movement) :
    (s.remove movement c active movementInform).deleted g = s.deleted g := by
  unfold remove removeAt delete
    movementGeneratorPointerDeleter clearBaseUnitState
  split <;> split <;> first | rfl | exact update_of_ne hne _ _

theorem alive_iff {hand : List MovementGenerator} (h : Kept False [] [] hand s)
    (movement : MovementGenerator) :
    Alive s movement ↔ movement = getIdleMovementGenerator ∨ movement ∈ s.owned ∨
      movement ∈ hand := by
  refine or_congr_right' fun hne => ?_
  have hbalance := h.balance movement hne
  have honce := h.handed movement hne
  rw [count_nil] at hbalance
  rw [← count_pos_iff, ← count_pos_iff, ← count_pos_iff]
  omega

theorem after_eq (h : r.before.delayed = false) : r.after =
    match r.before.generators.find r.movement.order with
    | some found => r.before.remove found r.callbacks
        (r.before.getCurrentMovementGenerator = some found) false
    | none => r.before := by
  change (if r.before.delayed then _ else if r.before.empty then _ else
    r.before.directCall r.callbacks (.remove r.movement .active)) = _
  rw [if_neg (by simp [h])]
  split
  · rename_i hempty
    have hnone : r.before.generators.items = [] := by
      rw [MotionMaster.empty, Bool.and_eq_true] at hempty
      exact List.isEmpty_iff.mp hempty.2
    have hfind : r.before.generators.find r.movement.order = none := by
      rw [find_eq_none, hnone]
      exact fun _ hmem => absurd hmem not_mem_nil
    rw [hfind]
  · rfl

theorem others_iff (h : r.before.delayed = false) :
    ((∀ g, g ≠ r.movement → (g ∈ r.after.generators.items ↔ g ∈ r.before.generators.items) ∧
          r.after.finalized g = r.before.finalized g ∧
          r.after.deleted g = r.before.deleted g) ∧
      r.after.defaultGenerator = r.before.defaultGenerator) ↔
    ∀ g ∈ r.before.generators.items, g.priority = r.movement.priority → g = r.movement := by
  rw [after_eq h]
  cases hfind : r.before.generators.find r.movement.order with
  | none =>
    have hnone := find_eq_none.mp hfind
    refine iff_of_true ⟨fun g _ => ⟨Iff.rfl, rfl, rfl⟩, rfl⟩ fun g hmem hpriority => ?_
    exact absurd (congrArg OrderDual.toDual hpriority) (hnone g hmem)
  | some found =>
    obtain ⟨hfound, hkey⟩ := find_eq_some.mp hfind
    constructor
    · rintro ⟨hothers, -⟩ g hmem hpriority
      have hsame : g = found := eq_of_key hmem hfound
        ((congrArg OrderDual.toDual hpriority).trans hkey.symm)
      by_contra hne
      have hfinalized := (hothers g hne).2.1
      rw [finalized_remove, ← hsame, update_self] at hfinalized
      omega
    · intro hclear
      have hself : found = r.movement := hclear found hfound (OrderDual.toDual.injective hkey)
      refine ⟨fun g hne => ⟨?_, ?_, deleted_remove _ _ (hself ▸ hne)⟩, ?_⟩
      · rw [generators_remove, mem_erase, and_iff_left_iff_imp]
        exact fun hmem hsame => hne ((eq_of_key hmem hfound hsame).trans hself)
      · rw [finalized_remove, update_of_ne (hself ▸ hne)]
      · have hframe : (r.before.remove found r.callbacks
            (r.before.getCurrentMovementGenerator = some found) false).frame = r.before.frame :=
          frame_remove
        simp only [frame, Prod.mk.injEq] at hframe
        exact hframe.2.2.2.2

theorem Removal.Running.sound_iff (h : r.Running) : r.Sound ↔ r.Clear := by
  have halive := alive_iff h.kept r.movement
  have hothers := others_iff h.delayed
  constructor
  · rintro ⟨hread, hrest, hdefault⟩
    exact ⟨fun hne => halive.mp (hread hne), hothers.mp ⟨hrest, hdefault⟩⟩
  · rintro ⟨howned, hpriority⟩
    obtain ⟨hrest, hdefault⟩ := hothers.mpr hpriority
    exact ⟨fun hne => halive.mpr (howned hne), hrest, hdefault⟩

end One

section Run

variable {s : MotionMaster} {c : Callbacks}

theorem resolving_running {made : List Call} (hdelayed : s.delayed = false)
    (h : Kept False [] [] (made.filterMap added) s) : ∀ r ∈ resolving c s made, r.Running := by
  induction made generalizing s with
  | nil => exact fun _ hmem => absurd hmem not_mem_nil
  | cons first made ih =>
    have hadded : (first :: made).filterMap added =
        (added first).toList ++ made.filterMap added := by
      rw [filterMap_cons]
      cases added first <;> rfl
    rw [hadded] at h
    intro r hmem
    rw [resolving, mem_append] at hmem
    rcases hmem with hmem | hmem
    · unfold removalOf at hmem
      split at hmem
      · rw [mem_singleton.mp hmem]
        exact ⟨h, hdelayed⟩
      · exact absurd hmem not_mem_nil
    · have hfirst : MotionMaster.Direct False (added first).toList s
          (s.call c (fun movement s => s.onInitialize movement c) first) :=
        direct_call nofun hdelayed first
      exact ih (hfirst.delayed.trans hdelayed) (hfirst.kept _ h) r hmem

theorem resolving_delayedActions (hdelayed : s.delayed = false) (h : Kept False [] [] [] s) :
    ∀ r ∈ resolving c { s with delayedActions := [] } s.delayedActions, r.Running := by
  refine resolving_running hdelayed (h.move h.states h.bits (fun g _ => ?_) rfl rfl rfl rfl rfl)
  rw [owned, owned, count_append, count_append,
    count_append, count_append, filterMap_nil, count_nil]
  dsimp only
  omega

/-- Every removal of a step meets lists that are in order. -/
theorem removalsOf_running (h : s.AtRest False) (step : Step) :
    ∀ r ∈ removalsOf s step, r.Running := by
  intro r hmem
  cases step with
  | addToWorld c =>
    rw [removalsOf] at hmem
    split at hmem
    · exact absurd hmem not_mem_nil
    have hdelayed : ({ s with initializing := true, initializationPending := false } :
        MotionMaster).delayed = false := by
      rw [delayed]
      simp [h.updating]
    have hflags : Kept False [] [] []
        { s with initializing := true, initializationPending := false } :=
      ⟨h.kept.states, h.kept.bits, h.kept.balance, h.kept.finalized, h.kept.ids, h.kept.handed,
        h.kept.flags, h.kept.assertFailed⟩
    have hdirect : MotionMaster.Direct False []
        { s with initializing := true, initializationPending := false }
        (({ s with initializing := true, initializationPending := false } :
          MotionMaster).directInitialize c) :=
      direct_directInitialize False.elim hdelayed
    exact resolving_delayedActions (hdirect.delayed.trans hdelayed) (hdirect.kept [] hflags) r hmem
  | call c made =>
    rw [removalsOf] at hmem
    split at hmem
    · exact absurd hmem not_mem_nil
    rename_i hdelayed
    unfold removalOf at hmem
    split at hmem
    · rw [mem_singleton.mp hmem]
      exact ⟨h.kept, by simpa using hdelayed⟩
    · exact absurd hmem not_mem_nil
  | update c u =>
    rw [removalsOf] at hmem
    split at hmem
    · exact absurd hmem not_mem_nil
    rename_i hstart
    simp only [Bool.or_eq_true, not_or, Bool.not_eq_true] at hstart
    split at hmem
    · exact absurd hmem not_mem_nil
    rename_i top htop
    have hdelayed : ({ s with updating := true } : MotionMaster).delayed = true := rfl
    obtain ⟨hkept, hpending, -, -⟩ := updateTop_spec (c := c) (u := u) hdelayed
      False.elim htop (kept_updating true h.kept)
    refine resolving_delayedActions ?_ (kept_updating false hkept) r hmem
    rw [delayed, hpending]
    exact hstart.1.1

theorem removals_running (h : s.AtRest False) (steps : List Step) :
    ∀ r ∈ removals s steps, r.Running := by
  induction steps generalizing s with
  | nil => exact fun _ hmem => absurd hmem not_mem_nil
  | cons step steps ih =>
    intro r hmem
    rw [removals, mem_append] at hmem
    rcases hmem with hmem | hmem
    · exact removalsOf_running h step r hmem
    · exact ih (h.exec nofun) r hmem

/-- In every run, of every removal that is made in it. -/
theorem pointer_removals (steps : List Step) : ∀ r ∈ removals {} steps, r.Sound ↔ r.Clear :=
  fun r hmem => (removals_running atRest_start steps r hmem).sound_iff

end Run

def randomCallbacks : Callbacks where
  defaultMovementType := .random
  onInitialize s _ := (true, s.unitState)
  onDeactivate s _ := s.unitState
  onFinalize s _ _ _ := s.unitState

def wandering : MovementGenerator := ⟨1, .resumable, 1, motionPriorityNormal, .roaming⟩

/-- `PointMovementGenerator`, as the second object -/
def point : MovementGenerator := ⟨2, .resumable, 8, motionPriorityNormal, .roaming⟩

/-- While the unit moves to a point, a generator is to be removed from the active slot. -/
def pointSteps (movement : MovementGenerator) : List Step :=
  [.addToWorld randomCallbacks, .call randomCallbacks (.add point .active),
    .call randomCallbacks (.remove movement .active)]

def pointRemoval (movement : MovementGenerator) : Removal :=
  ⟨randomCallbacks, ((pointSteps movement).take 2).foldl Step.exec {}, movement, []⟩

theorem pointRemoval_mem (movement : MovementGenerator) :
    pointRemoval movement ∈ removals {} (pointSteps movement) :=
  mem_singleton.mpr rfl

/-- The unit does not move to the point any more. -/
theorem point_removed : (pointRemoval point).Sound := by
  refine (pointer_removals (pointSteps point) _ (pointRemoval_mem point)).mpr ⟨fun _ => ?_, ?_⟩
  · exact .inr (.inl (by decide))
  · intro g hmem _
    have hitems : (pointRemoval point).before.generators.items = [point] := by decide
    rw [hitems, mem_singleton] at hmem
    exact hmem

/-- The default generator is to be removed, and the other one is. -/
theorem other_removed : ¬∀ steps, ∀ r ∈ removals {} steps, r.movement ∈ r.before.owned →
    r.Sound := by
  intro h
  have hsound := h _ _ (pointRemoval_mem wandering) (by decide)
  have hbefore : point ∈ (pointRemoval wandering).before.generators.items := by decide
  have hafter : point ∉ (pointRemoval wandering).after.generators.items := by decide
  exact hafter ((hsound.others point (by decide)).1.mpr hbefore)

end LegionServer.Guarantees.PointerRemovals
