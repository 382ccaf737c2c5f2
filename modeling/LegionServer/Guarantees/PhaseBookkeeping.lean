import LegionServer.Source.Phasing.PhaseContents
import Mathlib.Algebra.Order.BigOperators.Group.List
import Mathlib.Algebra.Order.Group.Int

/-!
# The counters and flags of a phase shift

Every call keeps the counters, the flags that follow from them and the two flags that are asked
for, but one: `SetInversed` with false removes all other flags instead of `Inverse`.
-/
namespace LegionServer.Guarantees.PhaseBookkeeping
open Library Source.Phasing PhaseShiftFlags Bool
open PhasingHandler (Shifts PhasingCall)

variable {C G : Type*} {data : PhasingData C} {shift : PhaseShift C G} {inversed alwaysVisible : Bool}

structure Tracked (C G : Type*) where
  object : WorldObject C G
  inversed : Bool := false
  alwaysVisible : Bool := false

def Tracked.run (data : PhasingData C) (tracked : Tracked C G) (call : PhasingCall C) :
    Tracked C G where
  object := call.run data tracked.object
  inversed :=
    match call with
    | .setInversed apply => apply
    | _ => tracked.inversed
  alwaysVisible :=
    match call with
    | .setAlwaysVisible apply => apply
    | _ => tracked.alwaysVisible

def trackedSystem (data : PhasingData C) : System (Tracked C G) (PhasingCall C) where
  init tracked := ∃ guid, tracked = { object := { guid } }
  step call tracked tracked' := tracked' = tracked.run data call

def referencesOf (shift : PhaseShift C G) (p : PhaseRef C → Bool) : Int :=
  shift.phases.sum fun ref => if p ref then ref.references else 0

structure Right (tracked : Tracked C G) (shift : PhaseShift C G) : Prop where
  references : ∀ ref ∈ shift.phases.items, 0 < ref.references
  cosmetic : shift.cosmeticReferences = referencesOf shift PhaseRef.isCosmetic
  default : shift.defaultReferences = referencesOf shift PhaseRef.isDefault
  nonCosmetic : shift.nonCosmeticReferences = referencesOf shift PhaseRef.isNonCosmetic
  personal : shift.personalReferences = referencesOf shift PhaseRef.isPersonal
  noCosmetic : shift.flags.hasFlag PhaseShiftFlags.noCosmetic = true ↔ 0 < shift.cosmeticReferences
  inverse : shift.flags.hasFlag PhaseShiftFlags.inverse = tracked.inversed
  alwaysVisible : shift.flags.hasFlag PhaseShiftFlags.alwaysVisible = tracked.alwaysVisible
  unphased : shift.flags.hasFlag PhaseShiftFlags.unphased = true ↔ tracked.inversed = false ∧
    (shift.nonCosmeticReferences = 0 ∨ 0 < shift.defaultReferences)
  inverseUnphased : shift.flags.hasFlag PhaseShiftFlags.inverseUnphased = true ↔
    tracked.inversed = true ∧ (shift.nonCosmeticReferences = 0 ∨ 0 < shift.defaultReferences)

/-- `SetInversed` with false meets none of the flags that it should leave, nor the one that it
should remove. -/
def Proper (call : PhasingCall C) (tracked : Tracked C G) : Prop :=
  call = .setInversed false →
    tracked.object.phaseShift.flags.hasFlag PhaseShiftFlags.inverse = false ∧
      tracked.object.phaseShift.flags.hasFlag PhaseShiftFlags.alwaysVisible = false ∧
      tracked.object.phaseShift.cosmeticReferences = 0

section Invariant

structure Sound (shift : PhaseShift C G) (inversed alwaysVisible : Bool) : Prop where
  booked : Booked shift
  positive : Positive shift
  inverse : shift.flags.hasFlag PhaseShiftFlags.inverse = inversed
  alwaysVisible : shift.flags.hasFlag PhaseShiftFlags.alwaysVisible = alwaysVisible

theorem flags_addPhase (shift : PhaseShift C G) (phaseId : UInt32) (flags : PhaseFlags)
    (areaConditions : Option C) (references : Int) {flag : Nat}
    (h : flag = PhaseShiftFlags.inverse ∨ flag = PhaseShiftFlags.alwaysVisible) :
    (shift.addPhase phaseId flags areaConditions references).flags.hasFlag flag =
      shift.flags.hasFlag flag := by
  cases areaConditions <;> exact hasFlag_modifyPhasesReferences _ _ _ h

theorem Sound.addPhase (h : Sound shift inversed alwaysVisible) (phaseId : UInt32)
    (flags : PhaseFlags) (areaConditions : Option C) {references : Int} (hpos : 0 < references) :
    Sound (shift.addPhase phaseId flags areaConditions references) inversed alwaysVisible where
  booked := h.booked.addPhase ..
  positive := h.positive.addPhase _ _ _ hpos
  inverse := (flags_addPhase _ _ _ _ _ (Or.inl rfl)).trans h.inverse
  alwaysVisible := (flags_addPhase _ _ _ _ _ (Or.inr rfl)).trans h.alwaysVisible

theorem Sound.removePhase (h : Sound shift inversed alwaysVisible) (phaseId : UInt32) :
    Sound (shift.removePhase phaseId).1 inversed alwaysVisible where
  booked := h.booked.removePhase phaseId
  positive := h.positive.removePhase phaseId
  inverse := by
    rw [← h.inverse, PhaseShift.removePhase]
    split
    · rfl
    · dsimp only
      split <;> exact hasFlag_modifyPhasesReferences _ _ _ (Or.inl rfl)
  alwaysVisible := by
    rw [← h.alwaysVisible, PhaseShift.removePhase]
    split
    · rfl
    · dsimp only
      split <;> exact hasFlag_modifyPhasesReferences _ _ _ (Or.inr rfl)

theorem Sound.takeOut (h : Sound shift inversed alwaysVisible) {ref : PhaseRef C}
    (hfind : shift.phases.find ref.key = some ref) :
    Sound (takeOut shift ref) inversed alwaysVisible where
  booked := h.booked.takeOut hfind
  positive := h.positive.takeOut ref
  inverse := (hasFlag_modifyPhasesReferences _ _ _ (Or.inl rfl)).trans h.inverse
  alwaysVisible := (hasFlag_modifyPhasesReferences _ _ _ (Or.inr rfl)).trans h.alwaysVisible

theorem Sound.ownPersonal (h : Sound shift inversed alwaysVisible) (guid : G) :
    Sound (PhasingHandler.ownPersonal guid shift) inversed alwaysVisible := by
  rw [PhasingHandler.ownPersonal]
  split
  · exact ⟨⟨⟨h.booked.counts.notDb, h.booked.counts.cosmetic, h.booked.counts.nonCosmetic,
      h.booked.counts.default, h.booked.counts.personal⟩, h.booked.noCosmetic, h.booked.unphased,
      h.booked.inverseUnphased⟩, h.positive, h.inverse, h.alwaysVisible⟩
  · exact h

theorem Sound.clearPhases (h : Sound shift inversed alwaysVisible) :
    Sound shift.clearPhases inversed alwaysVisible where
  booked := booked_clearPhases h.booked.counts.notDb
  positive := positive_clearPhases shift
  inverse := by
    rw [PhaseShift.clearPhases, hasFlag_updateUnphasedFlag _ (by decide), if_neg (by decide),
      if_neg (by decide), ← h.inverse, hasFlag_and, hasFlag_or,
      hasFlag_mask (by decide), hasFlag_mask (by decide)]
    exact and_true _
  alwaysVisible := by
    rw [PhaseShift.clearPhases, hasFlag_updateUnphasedFlag _ (by decide), if_neg (by decide),
      if_neg (by decide), ← h.alwaysVisible, hasFlag_and,
      hasFlag_or, hasFlag_mask (by decide),
      hasFlag_mask (by decide)]
    exact and_true _

theorem sound_new : Sound ({} : PhaseShift C G) false false where
  booked := booked_new
  positive key ref hfind := by cases hfind
  inverse := hasFlag_new _
  alwaysVisible := hasFlag_new _

theorem stable_sound : Stable (Sound (C := C) (G := G) · inversed alwaysVisible) where
  positive _ h := h.positive
  addPhase _ _ _ _ _ h hpos := h.addPhase _ _ _ hpos
  removePhase _ phaseId h := h.removePhase phaseId
  takeOut _ _ h hfind := h.takeOut hfind
  ownPersonal _ guid h := h.ownPersonal guid

def SoundObject (tracked : Tracked C G) : Prop :=
  Sound tracked.object.phaseShift tracked.inversed tracked.alwaysVisible ∧
    Sound tracked.object.suppressedPhaseShift false false

variable {tracked : Tracked C G} {met : C → Bool}

theorem SoundObject.onAreaChange (h : SoundObject tracked) (areaId : UInt32) (auras : PhaseAuras) :
    SoundObject (tracked.run data (.onAreaChange met areaId auras)) := by
  rw [SoundObject, Tracked.run, PhasingCall.run, PhasingHandler.onAreaChange, addAreaPhases_eq]
  · have hvisible := stable_sound.addListed data h.1.clearPhases
      ((PhasingHandler.areaPhases data areaId).filter fun area => met area.conditions)
    exact ⟨(stable_sound.addOwnPhases data hvisible _).ownPersonal _,
      stable_sound.addListed data h.2.clearPhases _⟩
  · nofun
  · nofun

theorem SoundObject.setAlwaysVisible (h : SoundObject tracked) (apply : Bool) :
    SoundObject (tracked.run data (.setAlwaysVisible apply)) := by
  obtain ⟨⟨hbooked, hpos, hinverse, -⟩, hsuppressed⟩ := h
  have hmask : alwaysVisible < 32 := by decide
  have hflag : ∀ flag < 32, (PhasingHandler.setAlwaysVisible tracked.object apply).phaseShift.flags.hasFlag
      flag = if flag = alwaysVisible then apply
        else tracked.object.phaseShift.flags.hasFlag flag := by
    intro flag hlt
    rw [PhasingHandler.setAlwaysVisible]
    cases apply <;> by_cases hflag : flag = alwaysVisible <;>
      simp [hflag, hasFlag_mask hmask, hasFlag_not_mask hmask hlt, hasFlag_not_mask hmask hmask]
  have hsame : ∀ flag < 32, flag ≠ alwaysVisible →
      (PhasingHandler.setAlwaysVisible tracked.object apply).phaseShift.flags.hasFlag flag =
        tracked.object.phaseShift.flags.hasFlag flag :=
    fun flag hlt hne => (hflag flag hlt).trans (if_neg hne)
  have hinverse' := hsame inverse (by decide) (by decide)
  refine ⟨⟨⟨hbooked.counts.withFlags _, ?_, ?_, ?_⟩, hpos, ?_, ?_⟩, hsuppressed⟩
  · exact (hsame _ (by decide) (by decide)).trans hbooked.noCosmetic
  · refine (hsame _ (by decide) (by decide)).trans (hbooked.unphased.trans ?_)
    exact congrArg (fun inverse => !inverse && tracked.object.phaseShift.isUnphased) hinverse'.symm
  · refine (hsame _ (by decide) (by decide)).trans (hbooked.inverseUnphased.trans ?_)
    exact congrArg (fun inverse => inverse && tracked.object.phaseShift.isUnphased) hinverse'.symm
  · exact hinverse'.trans hinverse
  · exact (hflag _ (by decide)).trans (if_pos rfl)

theorem SoundObject.setInversed (h : SoundObject tracked) (apply : Bool)
    (hproper : Proper (C := C) (.setInversed apply) tracked) :
    SoundObject (tracked.run data (.setInversed apply)) := by
  obtain ⟨⟨hbooked, hpos, hinverse, halways⟩, hsuppressed⟩ := h
  have hmask : inverse < 32 := by decide
  have hcosmetic : apply = false →
      tracked.object.phaseShift.flags.hasFlag noCosmetic = false := by
    rintro rfl
    rw [hbooked.noCosmetic, (hproper rfl).2.2]
    rfl
  generalize hflags : (if apply then tracked.object.phaseShift.flags |||
      mask inverse else tracked.object.phaseShift.flags &&&
        mask inverse) = flags
  have hshift : (tracked.run data (.setInversed apply)).object.phaseShift =
      ({ tracked.object.phaseShift with flags } : PhaseShift C G).updateUnphasedFlag := by
    rw [← hflags]
    rfl
  -- with `true` a flag is added; with `false` there is no other to lose
  have hkept : ∀ flag, flag = noCosmetic ∨ flag = alwaysVisible →
      flags.hasFlag flag = tracked.object.phaseShift.flags.hasFlag flag := by
    intro flag hflag
    have hne : flag ≠ inverse := by
      rcases hflag with rfl | rfl <;> decide
    rw [← hflags]
    cases apply with
    | true =>
      rw [if_pos rfl, hasFlag_or, hasFlag_mask hmask,
        decide_eq_false hne, Bool.or_false]
    | false =>
      rw [if_neg Bool.false_ne_true, hasFlag_and, hasFlag_mask hmask,
        decide_eq_false hne, Bool.and_false]
      rcases hflag with rfl | rfl
      · exact (hcosmetic rfl).symm
      · exact (hproper rfl).2.1.symm
  have hasked : flags.hasFlag inverse = apply := by
    rw [← hflags]
    cases apply with
    | true => rw [if_pos rfl, hasFlag_or, hasFlag_mask hmask,
        decide_eq_true rfl, Bool.or_true]
    | false => rw [if_neg Bool.false_ne_true, hasFlag_and, (hproper rfl).1, Bool.false_and]
  refine ⟨⟨?_, ?_, ?_, ?_⟩, hsuppressed⟩
  · rw [hshift]
    exact (hbooked.counts.withFlags flags).updateUnphasedFlag
      ((hkept _ (Or.inl rfl)).trans hbooked.noCosmetic)
  · rw [hshift, updateUnphasedFlag_eq]
    exact hpos
  · rw [hshift, hasFlag_updateUnphasedFlag _ (by decide), if_neg (by decide), if_neg (by decide)]
    exact hasked
  · rw [hshift, hasFlag_updateUnphasedFlag _ (by decide), if_neg (by decide), if_neg (by decide)]
    exact (hkept _ (Or.inr rfl)).trans halways

theorem SoundObject.run (h : SoundObject tracked) (call : PhasingCall C)
    (hproper : Proper call tracked) : SoundObject (tracked.run data call) := by
  cases call with
  | addPhase phaseId => exact ⟨(h.1.addPhase _ _ _ Int.one_pos).ownPersonal _, h.2⟩
  | removePhase phaseId => exact ⟨h.1.removePhase phaseId, h.2⟩
  | addPhaseGroup phaseGroupId =>
    change Sound (PhasingHandler.addPhaseGroup data tracked.object phaseGroupId).phaseShift _ _ ∧
      Sound (PhasingHandler.addPhaseGroup data tracked.object phaseGroupId).suppressedPhaseShift _ _
    rw [PhasingHandler.addPhaseGroup]
    cases data.phasesForGroup phaseGroupId with
    | none => exact h
    | some phasesInGroup => exact ⟨(stable_sound.addOwnPhases data h.1 phasesInGroup).ownPersonal _, h.2⟩
  | removePhaseGroup phaseGroupId =>
    change Sound (PhasingHandler.removePhaseGroup data tracked.object phaseGroupId).phaseShift _ _ ∧
      Sound (PhasingHandler.removePhaseGroup data tracked.object phaseGroupId).suppressedPhaseShift _ _
    rw [PhasingHandler.removePhaseGroup]
    cases data.phasesForGroup phaseGroupId with
    | none => exact h
    | some phasesInGroup => exact ⟨stable_sound.removePhases h.1 phasesInGroup, h.2⟩
  | setAlwaysVisible apply => exact h.setAlwaysVisible apply
  | setInversed apply => exact h.setInversed apply hproper
  | onAreaChange met areaId auras => exact h.onAreaChange areaId auras
  | onConditionChange met auras =>
    exact stable_sound.onConditionChange stable_sound h.1 h.2 data met auras
  | resetPhaseShift => exact ⟨h.1.clearPhases, h.2.clearPhases⟩

end Invariant

/-- A sum of references that are positive is not negative. -/
theorem referencesOf_nonneg {p : PhaseRef C → Bool}
    (hpos : ∀ ref ∈ shift.phases.items, 0 < ref.references) : 0 ≤ referencesOf shift p := by
  apply List.sum_nonneg
  intro value hmem
  obtain ⟨ref, href, rfl⟩ := List.mem_map.mp hmem
  split
  · exact Int.le_of_lt (hpos ref href)
  · exact Int.le_refl 0

theorem SoundObject.right {tracked : Tracked C G} (h : SoundObject tracked) :
    Right tracked tracked.object.phaseShift := by
  obtain ⟨⟨hbooked, hpos, hinverse, halways⟩, -⟩ := h
  have hreferences : ∀ ref ∈ tracked.object.phaseShift.phases.items, 0 < ref.references :=
    fun ref hmem => hpos ref.key ref (FlatSet.find_key hmem)
  have hcosmetic : 0 ≤ tracked.object.phaseShift.cosmeticReferences := by
    rw [hbooked.counts.cosmetic]
    exact referencesOf_nonneg hreferences
  have hdefault : 0 ≤ tracked.object.phaseShift.defaultReferences := by
    rw [hbooked.counts.default]
    exact referencesOf_nonneg hreferences
  have hunphased : tracked.object.phaseShift.isUnphased = true ↔
      tracked.object.phaseShift.nonCosmeticReferences = 0 ∨
        0 < tracked.object.phaseShift.defaultReferences := by
    rw [PhaseShift.isUnphased, or_eq_true, beq_iff_eq, bne_iff_ne]
    omega
  constructor
  · exact hreferences
  · exact hbooked.counts.cosmetic
  · exact hbooked.counts.default
  · exact hbooked.counts.nonCosmetic
  · exact hbooked.counts.personal
  · rw [hbooked.noCosmetic, bne_iff_ne]
    omega
  · exact hinverse
  · exact halways
  · rw [hbooked.unphased, hinverse, and_eq_true, not_eq_true', hunphased]
  · rw [hbooked.inverseUnphased, hinverse, and_eq_true, hunphased]

/-- The counters and the flags are right as long as `SetInversed` with false has nothing to
remove and nothing to leave. -/
theorem shift_right {tracked : Tracked C G}
    (h : ((trackedSystem data).guarded Proper).Reachable tracked) :
    Right tracked tracked.object.phaseShift := by
  apply SoundObject.right
  refine h.invariant SoundObject ?_ fun call before after hsound hstep => ?_
  · rintro _ ⟨guid, rfl⟩
    exact ⟨sound_new, sound_new⟩
  · obtain ⟨hproper, rfl⟩ := hstep
    exact hsound.run call hproper

def plainData : PhasingData Unit where
  phaseEntryFlags _ := none
  areaTable := { lookupEntry := fun _ => none, depth := fun _ => 0, depth_parent := by simp }
  phasesForArea _ := none
  phasesForGroup _ := none

def plainObject : Tracked Unit Unit :=
  ((({ object := { guid := () } } : Tracked Unit Unit).run plainData (.addPhase 5)).run plainData
    (.setInversed false)).run plainData (.setInversed true)

theorem shift_right_phased : plainObject.object.phaseShift.nonCosmeticReferences = 1 ∧
    Right plainObject plainObject.object.phaseShift :=
  ⟨by decide, shift_right (.step (.setInversed true) (.step (.setInversed false)
    (.step (.addPhase 5) (.init ⟨(), rfl⟩) ⟨nofun, rfl⟩) ⟨fun _ => by decide, rfl⟩) ⟨nofun, rfl⟩)⟩

/-- An inversed object that is not to be inversed any more still is. -/
theorem shift_not_right : ¬∀ tracked, (trackedSystem plainData).Reachable tracked →
    Right (C := Unit) (G := Unit) tracked tracked.object.phaseShift := by
  intro h
  have hinverse := (h ((({ object := { guid := () } } : Tracked Unit Unit).run plainData
    (.setInversed true)).run plainData (.setInversed false)) (.step (.setInversed false)
      (.step (.setInversed true) (.init ⟨(), rfl⟩) rfl) rfl)).inverse
  revert hinverse
  decide

end LegionServer.Guarantees.PhaseBookkeeping
