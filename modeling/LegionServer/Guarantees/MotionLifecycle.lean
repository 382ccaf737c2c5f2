import LegionServer.Source.Movement.MotionSteps

/-!
# The life of generators

After `AddToWorld` a unit always has a generator, its unit state and the map of base unit states
are those of its generators, and every generator is finalized at most once and deleted once.
-/
namespace LegionServer.Guarantees.MotionLifecycle
open Library Source.Movement List MotionMaster
open MotionMaster (baseUnitStates)

def run (steps : List Step) : MotionMaster := steps.foldl Step.exec {}

structure Lifecycle (steps : List Step) : Prop where
  empty : (run steps).empty = false
  priorities : (run steps).generators.items.Pairwise fun a b => a.priority ≠ b.priority
  baseUnitStatesMap :
    (run steps).baseUnitStatesMap.Perm (baseUnitStates (run steps).generators.items)
  unitState : (∀ step ∈ steps, step.RespectsStates) →
    ∀ g ∈ (run steps).generators.items, g.baseUnitState.IsIn (run steps).unitState
  finalized : ∀ g ∈ (run steps).handed, g ≠ getIdleMovementGenerator → (run steps).finalized g ≤ 1
  deleted : ∀ g ∈ (run steps).handed, g ≠ getIdleMovementGenerator → (run steps).deleted g =
      if g ∈ (run steps).defaultGenerator.toList ++ (run steps).generators.items then 0 else 1
  assertFailed : (run steps).assertFailed = false

theorem isIn_none (u : BitVec 32) : BaseUnitState.none.IsIn u := by
  exact BitVec.zero_and

/-- In every state after `AddToWorld`. -/
theorem lifecycle (before after : List Step) (c : Callbacks) :
    Lifecycle (before ++ .addToWorld c :: after) := by
  have hbefore : (run before).AtRest False := atRest_start.run nofun
  obtain ⟨hadded, hpending⟩ := hbefore.addToWorld (c := c) nofun
  have hrun : run (before ++ .addToWorld c :: after) =
      after.foldl Step.exec ((run before).addToWorld c) := by
    rw [run, foldl_append, foldl_cons]
    rfl
  have hrest : (run (before ++ .addToWorld c :: after)).AtRest
      (∀ step ∈ before ++ .addToWorld c :: after, step.RespectsStates) :=
    atRest_start.run id
  have hpending' : (run (before ++ .addToWorld c :: after)).initializationPending = false := by
    rw [hrun]
    exact run_initializationPending after hadded hpending
  generalize before ++ .addToWorld c :: after = steps at hrest hpending'
  obtain ⟨hdefault, hactions⟩ := hrest.started hpending'
  have howned : (run steps).owned =
      (run steps).defaultGenerator.toList ++ (run steps).generators.items := by
    rw [owned, hactions, filterMap_nil, append_nil]
  have hkept := hrest.kept
  have hcount : ∀ g ∈ (run steps).handed, g ≠ getIdleMovementGenerator →
      (run steps).deleted g + (run steps).owned.count g = 1 := by
    intro g hmem hg
    have hbalance := hkept.balance g hg
    have honce := hkept.handed g hg
    have hpositive := count_pos_iff.mpr hmem
    omega
  refine ⟨empty_eq_false hdefault, ?_, hkept.states, ?_, ?_, ?_, hkept.assertFailed⟩
  · exact (run steps).generators.sorted.imp fun hlt heq => hlt.ne (congrArg OrderDual.toDual heq)
  · intro hclean g hg
    by_cases hnone : g.baseUnitState = .none
    · rw [hnone]
      exact isIn_none _
    · have hpair : (g.baseUnitState, g) ∈ (run steps).baseUnitStatesMap := by
        rw [hkept.states.mem_iff]
        exact mem_map_of_mem (mem_filter.mpr ⟨hg, by simpa using hnone⟩)
      exact hkept.bits hclean _ hpair
  · intro g hmem hg
    have hfinalized := hkept.finalized g hg
    have hdeleted := hcount g hmem hg
    rw [count_nil] at hfinalized
    omega
  · intro g hmem hg
    have hdeleted := hcount g hmem hg
    rw [← howned]
    split
    · rename_i howner
      have hpositive := count_pos_iff.mpr howner
      omega
    · rename_i howner
      rw [count_eq_zero.mpr howner] at hdeleted
      exact hdeleted

def homeMovementGenerator : MovementGenerator := ⟨0, .resumable, 6, motionPriorityNormal, .roaming⟩

def idleCallbacks : Callbacks where
  defaultMovementType := .idle
  onInitialize s _ := (true, s.unitState)
  onDeactivate s _ := s.unitState
  onFinalize s _ _ _ := s.unitState

def goOn : Behaviour := .done true id

/-- `HomeMovementGenerator::SetTargetLocation` clears `UNIT_STATE_ALL_ERASABLE` without
`UNIT_STATE_EVADE`, and sets `UNIT_STATE_ROAMING_MOVE`. -/
def homeCallbacks : UpdateCallbacks where
  staticInitialize := goOn
  onInitialize := .done true fun u => (u &&& ~~~0x2FB7FFFF) ||| 0x00800000
  onReset := goOn
  onUpdate := goOn
  onFinalize := goOn

def homeSteps : List Step :=
  [.addToWorld idleCallbacks, .call idleCallbacks (.add getIdleMovementGenerator .default),
    .call idleCallbacks (.add getIdleMovementGenerator .default),
    .call idleCallbacks (.add homeMovementGenerator .active),
    .update idleCallbacks homeCallbacks]

/-- It does not have the base unit state of the generator that brings it home, and the idle
generator is finalized twice and not deleted. -/
theorem home_not_roaming :
    (∃ g ∈ (run homeSteps).generators.items, ¬g.baseUnitState.IsIn (run homeSteps).unitState) ∧
      (run homeSteps).finalized getIdleMovementGenerator = 2 ∧
      (run homeSteps).deleted getIdleMovementGenerator = 0 := by
  refine ⟨⟨{ homeMovementGenerator with id := 4 }, ?_, ?_⟩, ?_, ?_⟩
  · decide
  · rw [BaseUnitState.IsIn]
    decide
  · decide
  · decide

end LegionServer.Guarantees.MotionLifecycle
