import LegionServer.Library.FlatSet
import Mathlib.Order.Nat
import LegionServer.Library.Transition

/-!
# Phase shifts

The phases of a `PhaseShift` with their references, the counters and the flags
(`PhaseShift.cpp:28-49`, `82-195`). A condition list is a value of type `C`, a guid
one of type `G`. Terrain swaps are left out.
-/
namespace LegionServer.Source.Phasing
open Library BitVec

def DEFAULT_PHASE : UInt16 := 169

/-- `EnumFlag<PhaseShiftFlags>`. -/
abbrev PhaseShiftFlags : Type := BitVec 32

namespace PhaseShiftFlags

/-- The flags by bit number. -/
def alwaysVisible : Nat := 0
def inverse : Nat := 1
def inverseUnphased : Nat := 2
def unphased : Nat := 3
def noCosmetic : Nat := 4

def mask (flag : Nat) : PhaseShiftFlags := BitVec.twoPow 32 flag

def hasFlag (flags : PhaseShiftFlags) (flag : Nat) : Bool := flags.getLsbD flag

@[simp] theorem hasFlag_or (left right : PhaseShiftFlags) (flag : Nat) :
    hasFlag (left ||| right) flag = (left.hasFlag flag || right.hasFlag flag) :=
  getLsbD_or

@[simp] theorem hasFlag_and (left right : PhaseShiftFlags) (flag : Nat) :
    hasFlag (left &&& right) flag = (left.hasFlag flag && right.hasFlag flag) :=
  getLsbD_and

variable {flag other : Nat}

theorem hasFlag_mask (h : flag < 32) : (mask flag).hasFlag other = decide (other = flag) := by
  rw [hasFlag, mask, getLsbD_twoPow, decide_eq_true h, Bool.true_and,
    decide_eq_decide.mpr eq_comm]

theorem hasFlag_not_mask (h : flag < 32) (hother : other < 32) :
    hasFlag (~~~mask flag) other = !decide (other = flag) := by
  rw [← hasFlag_mask h, hasFlag, hasFlag, getLsbD_not, decide_eq_true hother, Bool.true_and]

end PhaseShiftFlags

/-- `EnumFlag<PhaseFlags>`. -/
abbrev PhaseFlags : Type := BitVec 16

namespace PhaseFlags

def none : PhaseFlags := 0
def cosmetic : PhaseFlags := 1
def personal : PhaseFlags := 2

def hasFlag (flags flag : PhaseFlags) : Bool := flags &&& flag != 0

end PhaseFlags

structure PhaseRef (C : Type*) where
  id : UInt16
  flags : PhaseFlags
  references : Int
  areaConditions : Option C

namespace PhaseRef

variable {C : Type*} (ref : PhaseRef C)

def key : Nat := ref.id.toNat

def isCosmetic : Bool := ref.flags.hasFlag PhaseFlags.cosmetic

def isNonCosmetic : Bool := !ref.isCosmetic && ref.id != DEFAULT_PHASE

def isDefault : Bool := !ref.isCosmetic && ref.id == DEFAULT_PHASE

def isPersonal : Bool := ref.flags.hasFlag PhaseFlags.personal

/-- `itr->References += references`. -/
def addReferences (references : Int) : PhaseRef C :=
  { ref with references := ref.references + references }

@[simp] theorem key_addReferences (references : Int) : (ref.addReferences references).key = ref.key := rfl

end PhaseRef

abbrev PhaseContainer (C : Type*) : Type _ := FlatSet (PhaseRef.key (C := C))

structure PhaseShift (C G : Type*) where
  flags : PhaseShiftFlags := PhaseShiftFlags.mask PhaseShiftFlags.unphased
  personalGuid : Option G := none
  phases : PhaseContainer C := FlatSet.empty
  nonCosmeticReferences : Int := 0
  cosmeticReferences : Int := 0
  personalReferences : Int := 0
  defaultReferences : Int := 0
  isDbPhaseShift : Bool := false

/-- What `RemovePhase` returns; `notFound` is the end of the container. -/
inductive EraseResult
  | notFound
  | kept
  | erased
  deriving DecidableEq

namespace PhaseShift

variable {C G : Type*} (shift : PhaseShift C G)

def updateUnphasedFlag : PhaseShift C G :=
  let inverse := shift.flags.hasFlag PhaseShiftFlags.inverse
  let unphasedFlag := if !inverse then PhaseShiftFlags.unphased else PhaseShiftFlags.inverseUnphased
  let otherFlag := if !inverse then PhaseShiftFlags.inverseUnphased else PhaseShiftFlags.unphased
  let flags := shift.flags &&& ~~~PhaseShiftFlags.mask otherFlag
  if shift.nonCosmeticReferences ≠ 0 && shift.defaultReferences = 0 then
    { shift with flags := flags &&& ~~~PhaseShiftFlags.mask unphasedFlag }
  else { shift with flags := flags ||| PhaseShiftFlags.mask unphasedFlag }

def updatePersonalGuid : PhaseShift C G :=
  if shift.personalReferences = 0 then { shift with personalGuid := none } else shift

/-- The counters of `ModifyPhasesReferences`. -/
def count (ref : PhaseRef C) (references : Int) : PhaseShift C G :=
  let shift :=
    if ref.isCosmetic then { shift with cosmeticReferences := shift.cosmeticReferences + references }
    else if ref.id ≠ DEFAULT_PHASE then
      { shift with nonCosmeticReferences := shift.nonCosmeticReferences + references }
    else { shift with defaultReferences := shift.defaultReferences + references }
  if ref.isPersonal then { shift with personalReferences := shift.personalReferences + references }
  else shift

def updateNoCosmetic : PhaseShift C G :=
  if shift.cosmeticReferences ≠ 0 then
    { shift with flags := shift.flags ||| PhaseShiftFlags.mask PhaseShiftFlags.noCosmetic }
  else { shift with flags := shift.flags &&& ~~~PhaseShiftFlags.mask PhaseShiftFlags.noCosmetic }

/-- `ModifyPhasesReferences` of a phase in the container. -/
def modifyPhasesReferences (ref : PhaseRef C) (references : Int) : PhaseShift C G :=
  let shift := { shift with phases := shift.phases.put (ref.addReferences references) }
  if shift.isDbPhaseShift then shift
  else (shift.count ref references).updateNoCosmetic.updateUnphasedFlag.updatePersonalGuid

def addPhase (phaseId : UInt32) (flags : PhaseFlags) (areaConditions : Option C)
    (references : Int := 1) : PhaseShift C G :=
  let (phases, ref) := shift.phases.emplace ⟨phaseId.toUInt16, flags, 0, none⟩
  let shift := ({ shift with phases } : PhaseShift C G).modifyPhasesReferences ref references
  match areaConditions with
  | none => shift
  | some areaConditions =>
    { shift with
      phases := shift.phases.put
        { ref.addReferences references with areaConditions := some areaConditions } }

def removePhase (phaseId : UInt32) : PhaseShift C G × EraseResult :=
  match shift.phases.find phaseId.toUInt16.toNat with
  | none => (shift, .notFound)
  | some ref =>
    let shift := shift.modifyPhasesReferences ref (-1)
    if ref.references - 1 = 0 then
      ({ shift with phases := shift.phases.erase ref.key }, .erased)
    else (shift, .kept)

def clearPhases : PhaseShift C G :=
  updateUnphasedFlag
    { shift with
      flags := shift.flags &&& (PhaseShiftFlags.mask PhaseShiftFlags.alwaysVisible |||
        PhaseShiftFlags.mask PhaseShiftFlags.inverse)
      personalGuid := none
      phases := FlatSet.empty
      nonCosmeticReferences := 0
      cosmeticReferences := 0
      personalReferences := 0
      defaultReferences := 0 }

/-- `Clear`, but for terrain swaps. -/
def clear : PhaseShift C G := shift.clearPhases

/-- The lambda of `CanSee` for a phase shift and an inverse one. -/
def checkInversePhaseShift (excludePhasesWithFlag : PhaseFlags)
    (excludedPhaseShift : PhaseShift C G) : Bool :=
  if shift.flags.hasFlag PhaseShiftFlags.unphased &&
      excludedPhaseShift.flags.hasFlag PhaseShiftFlags.inverseUnphased then false
  else shift.phases.items.all fun phase =>
    phase.flags.hasFlag excludePhasesWithFlag ||
      !(excludedPhaseShift.phases.find phase.key).any fun other =>
        !other.flags.hasFlag excludePhasesWithFlag

def canSee [DecidableEq G] (other : PhaseShift C G) : Bool :=
  if shift.flags.hasFlag PhaseShiftFlags.unphased && other.flags.hasFlag PhaseShiftFlags.unphased then
    true
  else if shift.flags.hasFlag PhaseShiftFlags.alwaysVisible ||
      other.flags.hasFlag PhaseShiftFlags.alwaysVisible then true
  else if shift.flags.hasFlag PhaseShiftFlags.inverse &&
      other.flags.hasFlag PhaseShiftFlags.inverse then true
  else
    let excludePhasesWithFlag :=
      if shift.flags.hasFlag PhaseShiftFlags.noCosmetic &&
          other.flags.hasFlag PhaseShiftFlags.noCosmetic then PhaseFlags.cosmetic
      else PhaseFlags.none
    if !shift.flags.hasFlag PhaseShiftFlags.inverse &&
        !other.flags.hasFlag PhaseShiftFlags.inverse then
      FlatSet.intersects PhaseRef.key (fun myPhase _ =>
        !myPhase.flags.hasFlag excludePhasesWithFlag &&
          (!myPhase.flags.hasFlag PhaseFlags.personal ||
            decide (shift.personalGuid = other.personalGuid)))
        shift.phases.items other.phases.items
    else if other.flags.hasFlag PhaseShiftFlags.inverse then
      shift.checkInversePhaseShift excludePhasesWithFlag other
    else other.checkInversePhaseShift excludePhasesWithFlag shift

end PhaseShift

/-!
# The phasing handler

How areas, auras and conditions change the phase shifts of an object
(`PhasingHandler.cpp:45-57`, `93-242`, `298-482`, `595-615`). Conditions are evaluated by the
caller. Units controlled by the object, terrain swaps and updates of visibility are left out.
-/

structure PhaseAreaInfo (C : Type*) where
  phaseId : UInt32
  subAreaExclusions : List UInt32
  conditions : C

structure AreaTableEntry where
  id : UInt32
  parentAreaID : UInt16

/-- `sAreaTableStore`. No area is above itself. -/
structure AreaTable where
  lookupEntry : UInt32 → Option AreaTableEntry
  depth : UInt32 → Nat
  depth_parent : ∀ id entry, lookupEntry id = some entry →
    depth entry.parentAreaID.toUInt32 < depth id

namespace AreaTable

variable (table : AreaTable)

/-- The areas above an area, as far as the fuel goes. -/
def areasFrom : Nat → UInt32 → List AreaTableEntry
  | 0, _ => []
  | fuel + 1, id =>
    match table.lookupEntry id with
    | none => []
    | some entry => entry :: areasFrom fuel entry.parentAreaID.toUInt32

/-- The entries that the loop of `OnAreaChange` visits. -/
def areas (id : UInt32) : List AreaTableEntry := table.areasFrom (table.depth id + 1) id

end AreaTable

structure PhasingData (C : Type*) where
  /-- The flags of an entry of `sPhaseStore`. -/
  phaseEntryFlags : UInt32 → Option UInt16
  areaTable : AreaTable
  phasesForArea : UInt32 → Option (List (PhaseAreaInfo C))
  phasesForGroup : UInt32 → Option (List UInt32)

/-- The auras of a unit: `GetMiscValueB` of each `SPELL_AURA_PHASE` and
`SPELL_AURA_PHASE_GROUP`. -/
structure PhaseAuras where
  phases : List UInt32 := []
  groups : List UInt32 := []

structure WorldObject (C G : Type*) where
  guid : G
  phaseShift : PhaseShift C G := {}
  suppressedPhaseShift : PhaseShift C G := {}

namespace PhasingHandler

variable {C G : Type*} (data : PhasingData C)

def getPhaseFlags (phaseId : UInt32) : PhaseFlags :=
  match data.phaseEntryFlags phaseId with
  | none => PhaseFlags.none
  | some flags =>
    if flags &&& 0x010 != 0 then PhaseFlags.cosmetic
    else if flags &&& 0x020 != 0 then PhaseFlags.personal
    else PhaseFlags.none

/-- `if (PersonalReferences) PersonalGuid = guid`. -/
def ownPersonal (guid : G) (shift : PhaseShift C G) : PhaseShift C G :=
  if shift.personalReferences ≠ 0 then { shift with personalGuid := some guid } else shift

def addOwnPhase (shift : PhaseShift C G) (phaseId : UInt32) : PhaseShift C G :=
  shift.addPhase phaseId (getPhaseFlags data phaseId) none

variable (object : WorldObject C G)

def addPhase (phaseId : UInt32) : WorldObject C G :=
  { object with
    phaseShift := ownPersonal object.guid (addOwnPhase data object.phaseShift phaseId) }

def removePhase (object : WorldObject C G) (phaseId : UInt32) : WorldObject C G :=
  { object with phaseShift := (object.phaseShift.removePhase phaseId).1 }

def addPhaseGroup (phaseGroupId : UInt32) : WorldObject C G :=
  match data.phasesForGroup phaseGroupId with
  | none => object
  | some phasesInGroup =>
    { object with
      phaseShift := ownPersonal object.guid
        (phasesInGroup.foldl (addOwnPhase data) object.phaseShift) }

def removePhaseGroup (phaseGroupId : UInt32) : WorldObject C G :=
  match data.phasesForGroup phaseGroupId with
  | none => object
  | some phasesInGroup =>
    { object with
      phaseShift := phasesInGroup.foldl (fun shift phaseId => (shift.removePhase phaseId).1)
        object.phaseShift }

def resetPhaseShift : WorldObject C G :=
  { object with
    phaseShift := object.phaseShift.clear
    suppressedPhaseShift := object.suppressedPhaseShift.clear }

def setAlwaysVisible (apply : Bool) : WorldObject C G :=
  let flags := object.phaseShift.flags
  let mask := PhaseShiftFlags.mask PhaseShiftFlags.alwaysVisible
  { object with
    phaseShift := { object.phaseShift with
      flags := if apply then flags ||| mask else flags &&& ~~~mask } }

def setInversed (apply : Bool) : WorldObject C G :=
  let flags := object.phaseShift.flags
  let mask := PhaseShiftFlags.mask PhaseShiftFlags.inverse
  { object with
    -- where `apply` is false the other flags are removed, not this one
    phaseShift := ({ object.phaseShift with
      flags := if apply then flags ||| mask else flags &&& mask } : PhaseShift C G).updateUnphasedFlag }

/-- The phases listed for the areas from `areaId` up, without those that exclude it. -/
def areaPhases (areaId : UInt32) : List (PhaseAreaInfo C) :=
  ((data.areaTable.areas areaId).flatMap fun area => (data.phasesForArea area.id).getD []).filter
    fun phaseArea => areaId ∉ phaseArea.subAreaExclusions

/-- The phases of the auras, in the order of the loops over them. -/
def auraPhases (auras : PhaseAuras) : List UInt32 :=
  auras.phases ++ auras.groups.flatMap fun group => (data.phasesForGroup group).getD []

structure Shifts (C G : Type*) where
  visible : PhaseShift C G
  suppressed : PhaseShift C G

variable (met : C → Bool)

def addAreaPhase (shifts : Shifts C G) (phaseArea : PhaseAreaInfo C) : Shifts C G :=
  let phaseId := phaseArea.phaseId
  let flags := getPhaseFlags data phaseId
  if met phaseArea.conditions then
    { shifts with visible := shifts.visible.addPhase phaseId flags (some phaseArea.conditions) }
  else
    { shifts with
      suppressed := shifts.suppressed.addPhase phaseId flags (some phaseArea.conditions) }

def onAreaChange (areaId : UInt32) (auras : PhaseAuras) (object : WorldObject C G) :
    WorldObject C G :=
  let shifts := (areaPhases data areaId).foldl (addAreaPhase data met)
    ⟨object.phaseShift.clearPhases, object.suppressedPhaseShift.clearPhases⟩
  let visible := (auraPhases data auras).foldl (addOwnPhase data) shifts.visible
  { object with
    phaseShift := ownPersonal object.guid visible
    suppressedPhaseShift := shifts.suppressed }

/-- The first loop of `OnConditionChange`: a visible phase that is to be suppressed. -/
def suppressPhase (shifts : Shifts C G) (ref : PhaseRef C) : Shifts C G :=
  match ref.areaConditions with
  | none => shifts
  | some conditions =>
    if met conditions then shifts
    else
      let visible := shifts.visible.modifyPhasesReferences ref (-ref.references)
      { visible := { visible with phases := visible.phases.erase ref.key }
        suppressed := shifts.suppressed.addPhase ref.id.toUInt32 ref.flags ref.areaConditions
          ref.references }

/-- The second loop: a suppressed phase that is to be visible. Every suppressed phase has
conditions, as an assertion says. -/
def restorePhase (shifts : Shifts C G) (ref : PhaseRef C) : Shifts C G :=
  match ref.areaConditions with
  | none => shifts
  | some conditions =>
    if met conditions then
      let suppressed := shifts.suppressed.modifyPhasesReferences ref (-ref.references)
      { visible := shifts.visible.addPhase ref.id.toUInt32 ref.flags ref.areaConditions ref.references
        suppressed := { suppressed with phases := suppressed.phases.erase ref.key } }
    else shifts

/-- The loops over the auras: what an aura gives stays visible. -/
def keepAuraPhase (shifts : Shifts C G) (phaseId : UInt32) : Shifts C G :=
  let (suppressed, eraseResult) := shifts.suppressed.removePhase phaseId
  { visible :=
      if eraseResult ≠ .notFound then addOwnPhase data shifts.visible phaseId else shifts.visible
    suppressed }

/-- The last loop: a phase of `newSuppressions`. -/
def addSuppression (suppressed : PhaseShift C G) (ref : PhaseRef C) : PhaseShift C G :=
  suppressed.addPhase ref.id.toUInt32 ref.flags ref.areaConditions ref.references

def onConditionChange (auras : PhaseAuras) (object : WorldObject C G) : WorldObject C G :=
  let first := object.phaseShift.phases.items.foldl (suppressPhase met) ⟨object.phaseShift, {}⟩
  let newSuppressions := first.suppressed
  let second := object.suppressedPhaseShift.phases.items.foldl (restorePhase met)
    ⟨first.visible, object.suppressedPhaseShift⟩
  let third := (auraPhases data auras).foldl (keepAuraPhase data) ⟨second.visible, newSuppressions⟩
  { object with
    phaseShift := ownPersonal object.guid third.visible
    suppressedPhaseShift := third.suppressed.phases.items.foldl addSuppression second.suppressed }

/-- The calls on an object. Conditions and auras are those at the time of the call. -/
inductive PhasingCall (C : Type*)
  | addPhase (phaseId : UInt32)
  | removePhase (phaseId : UInt32)
  | addPhaseGroup (phaseGroupId : UInt32)
  | removePhaseGroup (phaseGroupId : UInt32)
  | setAlwaysVisible (apply : Bool)
  | setInversed (apply : Bool)
  | onAreaChange (met : C → Bool) (areaId : UInt32) (auras : PhaseAuras)
  | onConditionChange (met : C → Bool) (auras : PhaseAuras)
  | resetPhaseShift

def PhasingCall.run (object : WorldObject C G) : PhasingCall C → WorldObject C G
  | .addPhase phaseId => PhasingHandler.addPhase data object phaseId
  | .removePhase phaseId => PhasingHandler.removePhase object phaseId
  | .addPhaseGroup phaseGroupId => PhasingHandler.addPhaseGroup data object phaseGroupId
  | .removePhaseGroup phaseGroupId => PhasingHandler.removePhaseGroup data object phaseGroupId
  | .setAlwaysVisible apply => PhasingHandler.setAlwaysVisible object apply
  | .setInversed apply => PhasingHandler.setInversed object apply
  | .onAreaChange met areaId auras => PhasingHandler.onAreaChange data met areaId auras object
  | .onConditionChange met auras => PhasingHandler.onConditionChange data met auras object
  | .resetPhaseShift => PhasingHandler.resetPhaseShift object

end PhasingHandler

end LegionServer.Source.Phasing
