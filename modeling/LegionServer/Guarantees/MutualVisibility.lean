import LegionServer.Source.Phasing.PhasingHandler

/-!
# Who sees whom

`PhaseShift::CanSee` is symmetric, and between two ordinary phase shifts it is about one shared
phase.
-/
namespace LegionServer.Guarantees.MutualVisibility
open Library Source.Phasing

variable {C G : Type*}

def SameFlags (a b : PhaseShift C G) : Prop :=
  ∀ phase ∈ a.phases.items, ∀ other ∈ b.phases.items, phase.id = other.id →
    phase.flags = other.flags

theorem SameFlags.symm {a b : PhaseShift C G} (h : SameFlags a b) : SameFlags b a :=
  fun other hother phase hphase hid => (h phase hphase other hother hid.symm).symm

theorem id_eq_of_key {phase other : PhaseRef C} (h : phase.key = other.key) :
    phase.id = other.id := UInt16.toNat_inj.mp h

variable [DecidableEq G]

/-- The phases that two ordinary phase shifts share and do not exclude. -/
theorem intersects_phases (a b : PhaseShift C G) (excluded : PhaseFlags) :
    FlatSet.intersects PhaseRef.key (fun myPhase _ =>
        !myPhase.flags.hasFlag excluded && (!myPhase.flags.hasFlag PhaseFlags.personal ||
          decide (a.personalGuid = b.personalGuid))) a.phases.items b.phases.items = true ↔
      ∃ phase ∈ a.phases.items, ∃ other ∈ b.phases.items, phase.id = other.id ∧
        phase.flags.hasFlag excluded = false ∧
          (phase.flags.hasFlag PhaseFlags.personal = true → a.personalGuid = b.personalGuid) := by
  rw [FlatSet.intersects_iff a.phases.sorted b.phases.sorted]
  constructor
  · rintro ⟨phase, hphase, other, hother, hkey, hpred⟩
    rw [Bool.and_eq_true, Bool.or_eq_true, Bool.not_eq_true', Bool.not_eq_true',
      decide_eq_true_iff] at hpred
    refine ⟨phase, hphase, other, hother, id_eq_of_key hkey, hpred.1, fun hpersonal => ?_⟩
    rcases hpred.2 with hshared | howner
    · rw [hpersonal] at hshared
      cases hshared
    · exact howner
  · rintro ⟨phase, hphase, other, hother, hid, hkept, howner⟩
    refine ⟨phase, hphase, other, hother, congrArg UInt16.toNat hid, ?_⟩
    rw [Bool.and_eq_true, Bool.or_eq_true, Bool.not_eq_true', Bool.not_eq_true',
      decide_eq_true_iff]
    cases hpersonal : phase.flags.hasFlag PhaseFlags.personal with
    | false => exact ⟨hkept, Or.inl rfl⟩
    | true => exact ⟨hkept, Or.inr (howner hpersonal)⟩

variable {a b : PhaseShift C G}

theorem intersects_comm (hflags : SameFlags a b) (excluded : PhaseFlags) :
    FlatSet.intersects PhaseRef.key (fun myPhase _ =>
        !myPhase.flags.hasFlag excluded && (!myPhase.flags.hasFlag PhaseFlags.personal ||
          decide (a.personalGuid = b.personalGuid))) a.phases.items b.phases.items =
      FlatSet.intersects PhaseRef.key (fun myPhase _ =>
        !myPhase.flags.hasFlag excluded && (!myPhase.flags.hasFlag PhaseFlags.personal ||
          decide (b.personalGuid = a.personalGuid))) b.phases.items a.phases.items := by
  rw [Bool.eq_iff_iff, intersects_phases, intersects_phases]
  constructor
  · rintro ⟨phase, hphase, other, hother, hid, hkept, howner⟩
    rw [hflags phase hphase other hother hid] at hkept howner
    exact ⟨other, hother, phase, hphase, hid.symm, hkept, fun hpersonal => (howner hpersonal).symm⟩
  · rintro ⟨phase, hphase, other, hother, hid, hkept, howner⟩
    rw [hflags.symm phase hphase other hother hid] at hkept howner
    exact ⟨other, hother, phase, hphase, hid.symm, hkept, fun hpersonal => (howner hpersonal).symm⟩

theorem canSee_comm (hflags : SameFlags a b) : a.canSee b = b.canSee a := by
  unfold PhaseShift.canSee
  rw [Bool.and_comm (a.flags.hasFlag PhaseShiftFlags.unphased),
    Bool.or_comm (a.flags.hasFlag PhaseShiftFlags.alwaysVisible),
    Bool.and_comm (a.flags.hasFlag PhaseShiftFlags.inverse),
    Bool.and_comm (a.flags.hasFlag PhaseShiftFlags.noCosmetic),
    Bool.and_comm (!a.flags.hasFlag PhaseShiftFlags.inverse)]
  congr 2
  by_cases hboth : (b.flags.hasFlag PhaseShiftFlags.inverse &&
      a.flags.hasFlag PhaseShiftFlags.inverse) = true
  · rw [if_pos hboth, if_pos hboth]
  rw [if_neg hboth, if_neg hboth]
  by_cases hordinary : (!b.flags.hasFlag PhaseShiftFlags.inverse &&
      !a.flags.hasFlag PhaseShiftFlags.inverse) = true
  · rw [if_pos hordinary, if_pos hordinary]
    exact intersects_comm hflags _
  -- exactly one side is inverse
  cases hinverse : a.flags.hasFlag PhaseShiftFlags.inverse with
  | false =>
    cases hinverse' : b.flags.hasFlag PhaseShiftFlags.inverse with
    | false => exact absurd (by rw [hinverse, hinverse']; rfl) hordinary
    | true => rfl
  | true =>
    cases hinverse' : b.flags.hasFlag PhaseShiftFlags.inverse with
    | false => rfl
    | true => exact absurd (by rw [hinverse, hinverse']; rfl) hboth

theorem hasFlag_excluded (phase : PhaseRef C) (noCosmetic noCosmetic' : Bool) :
    phase.flags.hasFlag (if (noCosmetic && noCosmetic') = true then PhaseFlags.cosmetic
      else PhaseFlags.none) = false ↔
      ¬ (phase.isCosmetic = true ∧ noCosmetic = true ∧ noCosmetic' = true) := by
  rw [← Bool.and_eq_true noCosmetic]
  by_cases hexcluded : (noCosmetic && noCosmetic') = true
  · rw [if_pos hexcluded, eq_true hexcluded, and_true, ← Bool.not_eq_true]
    rfl
  rw [if_neg hexcluded]
  refine iff_of_true ?_ fun h => hexcluded h.2
  have hnone : phase.flags &&& (0 : PhaseFlags) = 0 := BitVec.and_zero
  rw [PhaseFlags.hasFlag, PhaseFlags.none, hnone]
  rfl

/-- Visibility is mutual, and between two ordinary phase shifts it needs a phase that both have,
that is not cosmetic if both ignore those, and that is not personal unless they have one owner. -/
theorem canSee_mutual {a b : PhaseShift C G} (hflags : SameFlags a b) :
    a.canSee b = b.canSee a ∧
    (a.flags.hasFlag PhaseShiftFlags.alwaysVisible = false →
      b.flags.hasFlag PhaseShiftFlags.alwaysVisible = false →
      a.flags.hasFlag PhaseShiftFlags.inverse = false →
      b.flags.hasFlag PhaseShiftFlags.inverse = false →
      ¬ (a.flags.hasFlag PhaseShiftFlags.unphased = true ∧
        b.flags.hasFlag PhaseShiftFlags.unphased = true) →
      (a.canSee b = true ↔ ∃ phase ∈ a.phases.items, ∃ other ∈ b.phases.items, phase.id = other.id ∧
        ¬ (phase.isCosmetic = true ∧ a.flags.hasFlag PhaseShiftFlags.noCosmetic = true ∧
          b.flags.hasFlag PhaseShiftFlags.noCosmetic = true) ∧
        (phase.isPersonal = true → a.personalGuid = b.personalGuid))) := by
  refine ⟨canSee_comm hflags, fun halways halways' hinverse hinverse' hunphased => ?_⟩
  unfold PhaseShift.canSee
  rw [← Bool.and_eq_true] at hunphased
  rw [if_neg hunphased, halways, halways', hinverse, hinverse']
  simp only [Bool.or_self, Bool.and_self, Bool.false_eq_true, if_false, Bool.not_false, if_true]
  rw [intersects_phases]
  refine exists_congr fun phase => and_congr_right fun _ => exists_congr fun other =>
    and_congr_right fun _ => and_congr_right fun _ => and_congr ?_ Iff.rfl
  exact hasFlag_excluded phase _ _

def personalShift (owner : Nat) : PhaseShift Unit Nat where
  flags := 0
  personalGuid := some owner
  phases := ⟨[⟨10, PhaseFlags.personal, 1, none⟩], List.pairwise_singleton _ _⟩

/-- Two owners do not see each other in their personal phases. -/
theorem canSee_mutual_owners :
    (personalShift 1).canSee (personalShift 2) = (personalShift 2).canSee (personalShift 1) ∧
      ¬ (personalShift 1).canSee (personalShift 2) = true := by
  have hflags : SameFlags (personalShift 1) (personalShift 2) := by
    intro phase hphase other hother _
    rw [List.mem_singleton.mp hphase, List.mem_singleton.mp hother]
  obtain ⟨hmutual, hshared⟩ := canSee_mutual hflags
  refine ⟨hmutual, fun hsee => ?_⟩
  obtain ⟨phase, hphase, _, _, _, _, howner⟩ :=
    (hshared (by decide) (by decide) (by decide) (by decide) (by decide)).mp hsee
  rw [List.mem_singleton.mp hphase] at howner
  exact absurd (howner (by decide)) (by decide)

end LegionServer.Guarantees.MutualVisibility
