import LegionServer.Source.Phasing.PhasingHandler

/-!
# What the operations of a phase shift do

`Booked` says that the counters and the flags go with the phases. Every operation keeps it, also
where a phase has no reference for a moment.
-/
namespace LegionServer.Source.Phasing
open Library PhaseShiftFlags FlatSet PhaseRef

variable {C G : Type*} {shift : PhaseShift C G} {ref : PhaseRef C} {references : Int}

def weight (p : PhaseRef C → Bool) (ref : PhaseRef C) : Int := if p ref then ref.references else 0

/-- A class of phases: it depends on the id and the flags alone. -/
def IsClass (p : PhaseRef C → Bool) : Prop :=
  ∀ (ref : PhaseRef C) references areaConditions, p { ref with references, areaConditions } = p ref

def PhaseShift.isUnphased (shift : PhaseShift C G) : Bool :=
  shift.nonCosmeticReferences == 0 || shift.defaultReferences != 0

/-- The counters are sums over the phases. -/
structure CountsRight (shift : PhaseShift C G) : Prop where
  notDb : shift.isDbPhaseShift = false
  cosmetic : shift.cosmeticReferences = shift.phases.sum (weight PhaseRef.isCosmetic)
  nonCosmetic : shift.nonCosmeticReferences = shift.phases.sum (weight PhaseRef.isNonCosmetic)
  default : shift.defaultReferences = shift.phases.sum (weight PhaseRef.isDefault)
  personal : shift.personalReferences = shift.phases.sum (weight PhaseRef.isPersonal)

structure Booked (shift : PhaseShift C G) : Prop where
  counts : CountsRight shift
  noCosmetic : shift.flags.hasFlag PhaseShiftFlags.noCosmetic = (shift.cosmeticReferences != 0)
  unphased : shift.flags.hasFlag PhaseShiftFlags.unphased =
    (!shift.flags.hasFlag PhaseShiftFlags.inverse && shift.isUnphased)
  inverseUnphased : shift.flags.hasFlag PhaseShiftFlags.inverseUnphased =
    (shift.flags.hasFlag PhaseShiftFlags.inverse && shift.isUnphased)

section
variable (shift : PhaseShift C G)

/-- Of the two flags only the one of the mode is left, and it says whether the shift is unphased. -/
theorem hasFlag_updateUnphasedFlag {flag : Nat} (h : flag < 32) :
    shift.updateUnphasedFlag.flags.hasFlag flag =
      if flag = PhaseShiftFlags.unphased then
        !shift.flags.hasFlag PhaseShiftFlags.inverse && shift.isUnphased
      else if flag = PhaseShiftFlags.inverseUnphased then
        shift.flags.hasFlag PhaseShiftFlags.inverse && shift.isUnphased
      else shift.flags.hasFlag flag := by
  have hunphased : unphased < 32 := by decide
  have hinverseUnphased : inverseUnphased < 32 := by decide
  have hapart : unphased ≠ inverseUnphased := by decide
  have hstate : shift.isUnphased =
      !(decide (shift.nonCosmeticReferences ≠ 0) && decide (shift.defaultReferences = 0)) := by
    rw [PhaseShift.isUnphased]
    by_cases hnone : shift.nonCosmeticReferences = 0 <;>
      by_cases hdefault : shift.defaultReferences = 0 <;> simp [hnone, hdefault]
  rw [PhaseShift.updateUnphasedFlag, hstate]
  cases shift.flags.hasFlag inverse <;>
    cases decide (shift.nonCosmeticReferences ≠ 0) && decide (shift.defaultReferences = 0) <;>
    by_cases hflag : flag = unphased <;>
    by_cases hother : flag = inverseUnphased <;>
    simp_all [hasFlag_not_mask, hasFlag_mask]

theorem updateUnphasedFlag_eq :
    shift.updateUnphasedFlag = { shift with flags := shift.updateUnphasedFlag.flags } := by
  rw [PhaseShift.updateUnphasedFlag]
  split <;> rfl

theorem updateNoCosmetic_eq :
    shift.updateNoCosmetic = { shift with flags := shift.updateNoCosmetic.flags } := by
  rw [PhaseShift.updateNoCosmetic]
  split <;> rfl

theorem hasFlag_updateNoCosmetic {flag : Nat} (h : flag < 32) :
    shift.updateNoCosmetic.flags.hasFlag flag =
      if flag = PhaseShiftFlags.noCosmetic then shift.cosmeticReferences != 0
      else shift.flags.hasFlag flag := by
  have hmask : noCosmetic < 32 := by decide
  rw [PhaseShift.updateNoCosmetic]
  split
  · rename_i hsome
    rw [hasFlag_or, hasFlag_mask hmask]
    split
    · rename_i hflag
      simp [hflag, hsome]
    · rename_i hflag
      simp [hflag]
  · rename_i hnone
    rw [hasFlag_and, hasFlag_not_mask hmask h]
    split
    · rename_i hflag
      simp [hflag, not_not.mp hnone]
    · rename_i hflag
      simp [hflag]

theorem flags_updatePersonalGuid : shift.updatePersonalGuid.flags = shift.flags := by
  rw [PhaseShift.updatePersonalGuid]
  split <;> rfl

end

theorem CountsRight.withFlags (h : CountsRight shift) (flags : PhaseShiftFlags) :
    CountsRight { shift with flags } :=
  ⟨h.notDb, h.cosmetic, h.nonCosmetic, h.default, h.personal⟩

theorem Booked.updatePersonalGuid (h : Booked shift) : Booked shift.updatePersonalGuid := by
  rw [PhaseShift.updatePersonalGuid]
  split
  · exact ⟨⟨h.counts.notDb, h.counts.cosmetic, h.counts.nonCosmetic, h.counts.default,
      h.counts.personal⟩, h.noCosmetic, h.unphased, h.inverseUnphased⟩
  · exact h

theorem CountsRight.updateUnphasedFlag (h : CountsRight shift)
    (hcosmetic : shift.flags.hasFlag PhaseShiftFlags.noCosmetic = (shift.cosmeticReferences != 0)) :
    Booked shift.updateUnphasedFlag := by
  have hflags := fun flag (hflag : flag < 32) => hasFlag_updateUnphasedFlag shift hflag
  have hinverse : shift.updateUnphasedFlag.flags.hasFlag inverse =
      shift.flags.hasFlag inverse := by
    rw [hflags _ (by decide), if_neg (by decide), if_neg (by decide)]
  have hsame := updateUnphasedFlag_eq shift
  generalize shift.updateUnphasedFlag = updated at hflags hinverse hsame ⊢
  have hcosmetic' : updated.cosmeticReferences = shift.cosmeticReferences := by rw [hsame]
  have hunphased : updated.isUnphased = shift.isUnphased := by rw [hsame]; rfl
  constructor
  · rw [hsame]
    exact h.withFlags _
  · rw [hflags _ (by decide), if_neg (by decide), if_neg (by decide), hcosmetic, hcosmetic']
  · rw [hflags _ (by decide), if_pos rfl, hinverse, hunphased]
  · rw [hflags _ (by decide), if_neg (by decide), if_pos rfl, hinverse, hunphased]

theorem CountsRight.updateFlags (h : CountsRight shift) :
    Booked shift.updateNoCosmetic.updateUnphasedFlag := by
  have hflag := hasFlag_updateNoCosmetic shift (show noCosmetic < 32 by decide)
  rw [if_pos rfl] at hflag
  apply CountsRight.updateUnphasedFlag
  · rw [updateNoCosmetic_eq]
    exact h.withFlags _
  · rw [hflag, updateNoCosmetic_eq]

section Counts

variable {p : PhaseRef C → Bool}

theorem weight_addReferences (hp : IsClass p) (ref : PhaseRef C) (references : Int) :
    weight p (ref.addReferences references) = weight p ref + if p ref then references else 0 := by
  have hsame : p (ref.addReferences references) = p ref := hp ref _ _
  rw [weight, hsame, weight]
  split
  · rfl
  · exact (Int.add_zero 0).symm

variable {phases : PhaseContainer C}

theorem sum_put_addReferences (hp : IsClass p) (hfind : phases.find ref.key = some ref) :
    (phases.put (ref.addReferences references)).sum (weight p) =
      phases.sum (weight p) + if p ref then references else 0 := by
  rw [sum_put, key_addReferences, value_some hfind, weight_addReferences hp]
  omega

theorem count_eq (shift : PhaseShift C G) (ref : PhaseRef C) (references : Int) :
    shift.count ref references = { shift with
      cosmeticReferences :=
        shift.cosmeticReferences + if ref.isCosmetic then references else 0
      nonCosmeticReferences :=
        shift.nonCosmeticReferences + if ref.isNonCosmetic then references else 0
      defaultReferences := shift.defaultReferences + if ref.isDefault then references else 0
      personalReferences :=
        shift.personalReferences + if ref.isPersonal then references else 0 } := by
  rw [PhaseShift.count, isNonCosmetic, isDefault]
  cases ref.isCosmetic <;> cases ref.isPersonal <;> by_cases hid : ref.id = DEFAULT_PHASE <;>
    simp [hid]

theorem CountsRight.count (h : CountsRight shift) (hfind : shift.phases.find ref.key = some ref)
    (references : Int) :
    CountsRight (({ shift with phases := shift.phases.put (ref.addReferences references) } :
      PhaseShift C G).count ref references) := by
  rw [count_eq]
  constructor
  · exact h.notDb
  · exact (congrArg (· + _) h.cosmetic).trans (sum_put_addReferences (fun _ _ _ => rfl) hfind).symm
  · exact (congrArg (· + _) h.nonCosmetic).trans (sum_put_addReferences (fun _ _ _ => rfl) hfind).symm
  · exact (congrArg (· + _) h.default).trans (sum_put_addReferences (fun _ _ _ => rfl) hfind).symm
  · exact (congrArg (· + _) h.personal).trans (sum_put_addReferences (fun _ _ _ => rfl) hfind).symm

theorem Booked.withPhases (h : Booked shift)
    (hsum : ∀ p, IsClass p → phases.sum (weight p) = shift.phases.sum (weight p)) :
    Booked { shift with phases } where
  counts := ⟨h.counts.notDb, h.counts.cosmetic.trans (hsum _ fun _ _ _ => rfl).symm,
    h.counts.nonCosmetic.trans (hsum _ fun _ _ _ => rfl).symm,
    h.counts.default.trans (hsum _ fun _ _ _ => rfl).symm,
    h.counts.personal.trans (hsum _ fun _ _ _ => rfl).symm⟩
  noCosmetic := h.noCosmetic
  unphased := h.unphased
  inverseUnphased := h.inverseUnphased

end Counts

section Operations

variable {phaseId : UInt32} {flags : PhaseFlags} {areaConditions : Option C} {key : Nat}

theorem modifyPhasesReferences_eq (h : shift.isDbPhaseShift = false) (ref : PhaseRef C)
    (references : Int) : shift.modifyPhasesReferences ref references =
      ((({ shift with phases := shift.phases.put (ref.addReferences references) } :
        PhaseShift C G).count ref references).updateNoCosmetic.updateUnphasedFlag).updatePersonalGuid := by
  rw [PhaseShift.modifyPhasesReferences]
  rw [h, if_neg Bool.false_ne_true]

theorem Booked.modifyPhasesReferences (h : Booked shift)
    (hfind : shift.phases.find ref.key = some ref) (references : Int) :
    Booked (shift.modifyPhasesReferences ref references) := by
  rw [modifyPhasesReferences_eq h.counts.notDb]
  exact (h.counts.count hfind references).updateFlags.updatePersonalGuid

section
variable (shift : PhaseShift C G) (ref : PhaseRef C) (references : Int)

theorem phases_modifyPhasesReferences : (shift.modifyPhasesReferences ref references).phases =
      shift.phases.put (ref.addReferences references) := by
  rw [PhaseShift.modifyPhasesReferences]
  split
  · rfl
  · rw [PhaseShift.updatePersonalGuid]
    split <;> rw [updateUnphasedFlag_eq, updateNoCosmetic_eq, count_eq]

/-- Neither `Inverse` nor `AlwaysVisible` depends on the phases. -/
theorem hasFlag_modifyPhasesReferences {flag : Nat}
    (h : flag = PhaseShiftFlags.inverse ∨ flag = PhaseShiftFlags.alwaysVisible) :
    (shift.modifyPhasesReferences ref references).flags.hasFlag flag = shift.flags.hasFlag flag := by
  have hlt : flag < 32 := by
    rcases h with rfl | rfl <;> decide
  have hne : flag ≠ unphased ∧ flag ≠ inverseUnphased ∧
      flag ≠ noCosmetic := by
    rcases h with rfl | rfl <;> decide
  rw [PhaseShift.modifyPhasesReferences]
  split
  · rfl
  · rw [flags_updatePersonalGuid, hasFlag_updateUnphasedFlag _ hlt, if_neg hne.1, if_neg hne.2.1,
      hasFlag_updateNoCosmetic _ hlt, if_neg hne.2.2, count_eq]

end

/-- The phase that `AddPhase` finds or makes. -/
def emplaced (shift : PhaseShift C G) (phaseId : UInt32) (flags : PhaseFlags) : PhaseRef C :=
  (shift.phases.find phaseId.toUInt16.toNat).getD ⟨phaseId.toUInt16, flags, 0, none⟩

def withEmplaced (shift : PhaseShift C G) (phaseId : UInt32) (flags : PhaseFlags) :
    PhaseShift C G :=
  { shift with phases := (shift.phases.emplace ⟨phaseId.toUInt16, flags, 0, none⟩).1 }

section
variable (shift : PhaseShift C G) (phaseId : UInt32) (flags : PhaseFlags)

theorem emplace_snd_eq :
    (shift.phases.emplace ⟨phaseId.toUInt16, flags, 0, none⟩).2 = emplaced shift phaseId flags :=
  emplace_snd

theorem key_emplaced : (emplaced shift phaseId flags).key = phaseId.toUInt16.toNat := by
  rw [← emplace_snd_eq]
  exact key_emplace

theorem find_withEmplaced (key : Nat) : (withEmplaced shift phaseId flags).phases.find key =
      if key = phaseId.toUInt16.toNat then some (emplaced shift phaseId flags)
      else shift.phases.find key := by
  rw [← emplace_snd_eq]
  exact find_emplace

end

def added (ref : PhaseRef C) (areaConditions : Option C) (references : Int) : PhaseRef C :=
  { ref.addReferences references with
    areaConditions := areaConditions <|> ref.areaConditions }

section
variable (shift : PhaseShift C G) (phaseId : UInt32) (flags : PhaseFlags)
  (areaConditions : Option C) (references : Int)

/-- `AddPhase` in two steps. -/
theorem addPhase_eq :
    shift.addPhase phaseId flags areaConditions references =
      let between := (withEmplaced shift phaseId flags).modifyPhasesReferences
        (emplaced shift phaseId flags) references
      let ref := added (emplaced shift phaseId flags) areaConditions references
      match areaConditions with
      | none => between
      | some _ => { between with phases := between.phases.put ref } := by
  rw [PhaseShift.addPhase, ← emplace_snd_eq]
  cases areaConditions <;> rfl

/-- The phases after `AddPhase`. -/
theorem find_addPhase (key : Nat) :
    (shift.addPhase phaseId flags areaConditions references).phases.find key =
      if key = phaseId.toUInt16.toNat then
        some (added (emplaced shift phaseId flags) areaConditions references)
      else shift.phases.find key := by
  have hkey := key_emplaced shift phaseId flags
  rw [addPhase_eq]
  cases areaConditions with
  | none =>
    rw [phases_modifyPhasesReferences, find_put, key_addReferences, hkey, find_withEmplaced]
    split <;> rfl
  | some conditions =>
    have hadded : (added (emplaced shift phaseId flags) (some conditions) references).key =
        phaseId.toUInt16.toNat := hkey
    rw [find_put, hadded, phases_modifyPhasesReferences, find_put,
      key_addReferences, hkey, find_withEmplaced]
    split <;> rfl

end

theorem Booked.addPhase (h : Booked shift) (phaseId : UInt32) (flags : PhaseFlags)
    (areaConditions : Option C) (references : Int) :
    Booked (shift.addPhase phaseId flags areaConditions references) := by
  have hemplaced : Booked (withEmplaced shift phaseId flags) := by
    apply h.withPhases
    intro p _
    apply sum_emplace
    rw [weight]
    split <;> rfl
  have hbetween := hemplaced.modifyPhasesReferences
    (by rw [find_withEmplaced, key_emplaced, if_pos rfl]) references
  rw [addPhase_eq]
  cases areaConditions with
  | none => exact hbetween
  | some conditions =>
    apply hbetween.withPhases
    intro p hp
    -- the conditions of a phase count nowhere
    have hsame : weight p (added (emplaced shift phaseId flags) (some conditions) references) =
        weight p ((emplaced shift phaseId flags).addReferences references) := by
      rw [weight, weight, added, PhaseRef.addReferences, hp, hp]
    have hfind : ((withEmplaced shift phaseId flags).modifyPhasesReferences
        (emplaced shift phaseId flags) references).phases.find
          (added (emplaced shift phaseId flags) (some conditions) references).key =
        some ((emplaced shift phaseId flags).addReferences references) := by
      rw [phases_modifyPhasesReferences]
      exact find_put_self
    rw [sum_put, value_some hfind, hsame]
    omega

theorem Booked.erase (ref : PhaseRef C) (h : Booked shift) (hfind : shift.phases.find ref.key = some ref)
    (hnone : ref.references = 0) : Booked { shift with phases := shift.phases.erase ref.key } := by
  apply h.withPhases
  intro p _
  rw [sum_erase, value_some hfind, weight, hnone, ite_self, Int.sub_zero]

theorem Booked.takeOut (h : Booked shift) (hfind : shift.phases.find ref.key = some ref) :
    Booked { shift.modifyPhasesReferences ref (-ref.references) with
      phases := (shift.modifyPhasesReferences ref (-ref.references)).phases.erase ref.key } := by
  refine Booked.erase (ref.addReferences (-ref.references)) (h.modifyPhasesReferences hfind _) ?_ ?_
  · rw [phases_modifyPhasesReferences]
    exact find_put_self
  · exact Int.add_right_neg _

theorem find_takeOut (shift : PhaseShift C G) (ref : PhaseRef C) (references : Int) (key : Nat) :
    ((shift.modifyPhasesReferences ref references).phases.erase ref.key).find key =
      if key = ref.key then none else shift.phases.find key := by
  rw [phases_modifyPhasesReferences, find_erase]
  split
  · rfl
  · rename_i hkey
    rw [find_put, key_addReferences, if_neg hkey]

theorem Booked.removePhase (h : Booked shift) (phaseId : UInt32) :
    Booked (shift.removePhase phaseId).1 := by
  rw [PhaseShift.removePhase]
  cases hfind : shift.phases.find phaseId.toUInt16.toNat with
  | none => exact h
  | some ref =>
    have hkey : ref.key = phaseId.toUInt16.toNat := (find_eq_some.mp hfind).2
    rw [← hkey] at hfind
    have hmodified := h.modifyPhasesReferences hfind (-1)
    dsimp only
    split
    · rename_i hlast
      refine Booked.erase (ref.addReferences (-1)) hmodified ?_ hlast
      rw [phases_modifyPhasesReferences]
      exact find_put_self
    · exact hmodified

/-- The phases after `RemovePhase`. -/
theorem find_removePhase (shift : PhaseShift C G) (phaseId : UInt32) (key : Nat) :
    (shift.removePhase phaseId).1.phases.find key =
      if key = phaseId.toUInt16.toNat then
        (shift.phases.find key).bind fun ref =>
          if ref.references = 1 then none else some (ref.addReferences (-1))
      else shift.phases.find key := by
  rw [PhaseShift.removePhase]
  cases hfind : shift.phases.find phaseId.toUInt16.toNat with
  | none =>
    dsimp only
    split
    · rename_i hkey
      rw [hkey, hfind]
      rfl
    · rfl
  | some ref =>
    have href : ref.key = phaseId.toUInt16.toNat := (find_eq_some.mp hfind).2
    have hlast : ref.references - 1 = 0 ↔ ref.references = 1 := by omega
    simp only [hlast]
    split
    · rename_i hone
      rw [find_takeOut, href]
      split
      · rename_i hkey
        rw [hkey, hfind, Option.bind_some, if_pos hone]
      · rfl
    · rename_i hmore
      rw [phases_modifyPhasesReferences, find_put, key_addReferences, href]
      split
      · rename_i hkey
        rw [hkey, hfind, Option.bind_some, if_neg hmore]
      · rfl

def Positive (shift : PhaseShift C G) : Prop :=
  ∀ key ref, shift.phases.find key = some ref → 0 < ref.references

theorem Positive.addPhase (h : Positive shift) (phaseId : UInt32) (flags : PhaseFlags)
    (areaConditions : Option C) (hpos : 0 < references) :
    Positive (shift.addPhase phaseId flags areaConditions references) := by
  intro key ref hfind
  rw [find_addPhase] at hfind
  split at hfind
  · rw [← Option.some.inj hfind]
    have hold : 0 ≤ (emplaced shift phaseId flags).references := by
      rw [emplaced]
      cases hphase : shift.phases.find phaseId.toUInt16.toNat with
      | none => exact Int.le_refl 0
      | some old => exact Int.le_of_lt (h _ _ hphase)
    exact Int.add_pos_of_nonneg_of_pos hold hpos
  · exact h key ref hfind

theorem Positive.removePhase (h : Positive shift) (phaseId : UInt32) :
    Positive (shift.removePhase phaseId).1 := by
  intro key ref hfind
  rw [find_removePhase] at hfind
  split at hfind
  · obtain ⟨old, hold, hkept⟩ := Option.bind_eq_some_iff.mp hfind
    have hpos := h key old hold
    split at hkept
    · cases hkept
    · rename_i hmore
      rw [← Option.some.inj hkept, PhaseRef.addReferences]
      dsimp only
      omega
  · exact h key ref hfind

theorem positive_clearPhases (shift : PhaseShift C G) : Positive shift.clearPhases := by
  intro key ref hfind
  cases hfind

theorem booked_clearPhases (h : shift.isDbPhaseShift = false) : Booked shift.clearPhases := by
  apply CountsRight.updateUnphasedFlag
  · exact ⟨h, rfl, rfl, rfl, rfl⟩
  · dsimp only
    rw [hasFlag_and, hasFlag_or, hasFlag_mask (by decide), hasFlag_mask (by decide)]
    exact Bool.and_false _

theorem hasFlag_new (flag : Nat) :
    ({} : PhaseShift C G).flags.hasFlag flag = decide (flag = PhaseShiftFlags.unphased) :=
  hasFlag_mask (by decide)

theorem booked_new : Booked ({} : PhaseShift C G) where
  counts := ⟨rfl, rfl, rfl, rfl, rfl⟩
  noCosmetic := hasFlag_new _
  unphased := by
    rw [hasFlag_new, hasFlag_new]
    rfl
  inverseUnphased := by
    rw [hasFlag_new, hasFlag_new]
    rfl

end Operations

end LegionServer.Source.Phasing
