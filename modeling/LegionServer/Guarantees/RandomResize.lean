import LegionServer.Source.Common.Random
import Mathlib.Algebra.Ring.Nat
import Mathlib.Algebra.Ring.Rat

/-!
# `RandomResize` in place

The elements that the in-place loop keeps are those of `randomKeep`, the loop
without a container to compact.
-/
namespace LegionServer.Guarantees.RandomResize

open Source.Common List

variable {α : Type*} {leave : α → α} {container : List α} {requestedSize : Nat} {rng : Rng}

/-- The loop invariant: what is kept, with what `randomKeep` would keep of the rest. -/
structure Compacted (container : List α) (requestedSize : Nat) (rng : Rng) (passes : Nat)
    (s : Resizing α) : Prop where
  atPass : s.curIt = passes
  behind : s.keepIt ≤ passes
  rest : s.container.drop passes = container.drop passes
  toKeep : s.keepIt + s.elementsToKeep.toNat = requestedSize
  kept : s.container.take s.keepIt ++ (randomKeep ((container.take (toProcess container)).drop
      passes) s.elementsToKeep.toNat s.rng).1 =
    (randomKeep (container.take (toProcess container)) requestedSize rng).1

/-- Keeping moves the element at `curIt` behind those already kept. -/
theorem Resizing.take_keep {s : Resizing α} {x : α} (hbehind : s.keepIt ≤ s.curIt)
    (hat : s.container[s.curIt]? = some x) :
    (s.keep leave).container.take (s.keepIt + 1) = s.container.take s.keepIt ++ [x] ∧
      (s.keep leave).container.drop (s.curIt + 1) = s.container.drop (s.curIt + 1) := by
  obtain ⟨hlt, -⟩ := List.getElem?_eq_some_iff.mp hat
  simp only [Resizing.keep, hat]
  split
  · rename_i hne
    have hkeep : s.keepIt < s.container.length := by omega
    rw [take_set_of_le (by omega), take_add_one, take_set_of_le le_rfl,
      drop_set_of_lt (by omega), drop_set_of_lt (by omega)]
    simp [hkeep]
  · rename_i heq
    have heq : s.keepIt = s.curIt := by omega
    rw [take_add_one, heq, hat]
    simp

theorem Compacted.pass {s : Resizing α} {passes : Nat}
    (h : Compacted container requestedSize rng passes s) (hleft : passes < toProcess container) :
    Compacted container requestedSize rng (passes + 1)
      (s.pass leave (toProcess container - passes)) := by
  have hlength : toProcess container ≤ container.length := Nat.mod_le _ _
  have hx : container[passes]? = some container[passes] := getElem?_eq_getElem (by omega)
  have hat : s.container[s.curIt]? = some container[passes] := by
    have hget := congrArg (·[0]?) h.rest
    simpa [h.atPass, hx] using hget
  have hdrop : (container.take (toProcess container)).drop passes =
      container[passes] :: (container.take (toProcess container)).drop (passes + 1) := by
    rw [drop_eq_getElem_cons (by simp; omega)]
    simp
  have hcount : ((container.take (toProcess container)).drop (passes + 1)).length + 1 =
      toProcess container - passes := by
    simp
    omega
  have hrest : s.container.drop (passes + 1) = container.drop (passes + 1) := by
    have htail := congrArg List.tail h.rest
    simpa using htail
  have hkept := h.kept
  rw [hdrop, randomKeep] at hkept
  simp only [hcount] at hkept
  have hone := (s.rng.urand_mem 1 (toProcess container - passes) (by omega)).1
  have hbehind := h.behind
  have htoKeep := h.toKeep
  simp only [Resizing.pass]
  split at hkept
  · rename_i hdraw
    obtain ⟨htake, hafter⟩ := @Resizing.take_keep _ leave _ _ (by rwa [h.atPass]) hat
    have hless : (s.elementsToKeep - 1).toNat = s.elementsToKeep.toNat - 1 := by
      rw [UInt32.toNat_sub_of_le _ _ (by rw [UInt32.le_iff_toNat_le]; simp; omega)]
      simp
    rw [if_pos hdraw]
    constructor
    · simp [Resizing.keep, h.atPass]
    · simp [Resizing.keep, hbehind]
    · rw [h.atPass] at hafter
      exact hafter.trans hrest
    · simp only [Resizing.keep, hless]
      omega
    · simp only [Resizing.keep, hless]
      rw [← hkept, append_cons]
      exact congrArg (· ++ _) htake
  · rename_i hdraw
    rw [if_neg hdraw]
    exact ⟨by simp [h.atPass], by simp; omega, hrest, htoKeep, hkept⟩

theorem resizing_holds {passes : Nat} (hrequested : requestedSize < toProcess container)
    (hpasses : passes ≤ toProcess container) :
    Compacted container requestedSize rng passes
      (resizing leave container requestedSize rng passes) := by
  induction passes with
  | zero =>
    have hsmall : requestedSize < 2 ^ 32 := by
      have hmod : toProcess container < 2 ^ 32 := Nat.mod_lt _ (by simp)
      omega
    have htoKeep : (UInt32.ofNat requestedSize).toNat = requestedSize := by
      simpa using hsmall
    constructor <;> simp [resizing, htoKeep]
  | succ passes ih => exact (ih (by omega)).pass (by omega)

/-- What the loop keeps is what `randomKeep` keeps of the elements it processes. -/
theorem resizeContainer_eq (hrequested : requestedSize < toProcess container) :
    (resizeContainer leave container requestedSize rng).1 =
      (randomKeep (container.take (toProcess container)) requestedSize rng).1 := by
  have hkept := (@resizing_holds _ leave _ _ rng _ hrequested le_rfl).kept
  rw [drop_eq_nil_of_le (by simp), randomKeep, append_nil] at hkept
  rwa [resizeContainer, if_neg (by omega)]

variable (leave container requestedSize rng)

/-- What resizing promises: as many elements as asked for, the kept ones in their order. -/
def KeepsExactly (container kept : List α) (requestedSize : Nat) : Prop :=
  kept.length = min container.length requestedSize ∧ kept.Sublist container

theorem keepsExactly_resizeContainer :
    KeepsExactly container (resizeContainer leave container requestedSize rng).1 requestedSize ↔
      (toProcess container ≤ requestedSize → container.length ≤ requestedSize) := by
  by_cases hless : toProcess container ≤ requestedSize
  · rw [resizeContainer, if_pos hless, KeepsExactly]
    simp only [List.Sublist.refl, and_true]
    omega
  · have hlength : toProcess container ≤ container.length := Nat.mod_le _ _
    rw [resizeContainer_eq (by omega), KeepsExactly, randomKeep_length _ _ _ (by simp; omega)]
    have hsub := randomKeep_sublist (container.take (toProcess container)) requestedSize rng
    simp only [hsub.trans (take_sublist _ _), and_true]
    omega

/-- Resizing keeps what it promises exactly where `uint32(size)` does not come down to
the requested size while the size is above it; the overload with a predicate also needs a
requested size, or nothing that meets the predicate. `elementsToKeep` never underflows. -/
theorem randomResize_exact :
    (KeepsExactly container (resizeContainer leave container requestedSize rng).1 requestedSize ↔
      (toProcess container ≤ requestedSize → container.length ≤ requestedSize)) ∧
    (∀ predicate, KeepsExactly (container.filter predicate)
        (resizeFiltered leave container requestedSize rng predicate).1 requestedSize ↔
      (requestedSize = 0 → container.filter predicate = []) ∧
        (toProcess (container.filter predicate) ≤ requestedSize →
          (container.filter predicate).length ≤ requestedSize)) ∧
    (requestedSize < toProcess container → ∀ passes ≤ toProcess container,
      (resizing leave container requestedSize rng passes).keepIt +
        (resizing leave container requestedSize rng passes).elementsToKeep.toNat =
          requestedSize) := by
  have hexact := fun container => keepsExactly_resizeContainer leave container requestedSize rng
  refine ⟨hexact container, fun predicate => ?_, ?_⟩
  · rw [resizeFiltered]
    generalize container.filter predicate = filtered
    by_cases hnone : requestedSize = 0
    · subst hnone
      simp only [ne_eq, not_true, if_false, KeepsExactly, Nat.min_zero, List.length_eq_zero_iff,
        List.Sublist.refl, and_true, forall_const, Nat.le_zero]
      exact ⟨fun hnil => ⟨hnil, fun _ => hnil⟩, And.left⟩
    · rw [if_pos hnone, hexact]
      exact ⟨fun hfits => ⟨fun hzero => absurd hzero hnone, hfits⟩, And.right⟩
  · intro hrequested passes hpasses
    exact (resizing_holds hrequested hpasses).toKeep

/-- A requested size of zero with a predicate keeps everything that meets it. -/
theorem randomResize_unlimited : ¬KeepsExactly ([7, 8].filter fun _ => true)
    (resizeFiltered id [7, 8] 0 ⟨0, 0, 0⟩ fun _ => true).1 0 :=
  fun hkept => absurd hkept.1 (by decide)

/-- A draw can be prescribed in front of draws for a result. -/
theorem exists_draw {drawn : Nat} {P : (Nat → Nat) → Prop} (value : Nat)
    (h : ∃ int : Nat → Nat, ∀ int', (∀ n, drawn + 1 ≤ n → int' n = int n) → P int') :
    ∃ int : Nat → Nat, ∀ int', (∀ n, drawn ≤ n → int' n = int n) → int' drawn = value ∧ P int' := by
  obtain ⟨int, hint⟩ := h
  refine ⟨Function.update int drawn value, fun int' hsame => ⟨?_, hint int' fun n hn => ?_⟩⟩
  · exact (hsame drawn le_rfl).trans (Function.update_self ..)
  · exact (hsame n (by omega)).trans (Function.update_of_ne (by omega) ..)

/-- Draws for a sublist: 1 where an element is kept, else one more than is left to keep. -/
theorem randomKeep_reaches {kept l : List α} (h : kept.Sublist l) (drawn : Nat) :
    ∃ int : Nat → Nat, ∀ int', (∀ n, drawn ≤ n → int' n = int n) →
      (randomKeep l kept.length ⟨0, int', drawn⟩).1 = kept := by
  induction h generalizing drawn with
  | slnil => exact ⟨0, fun _ _ => rfl⟩
  | @cons kept rest x hsub ih =>
    obtain ⟨int, hint⟩ := exists_draw kept.length (ih (drawn + 1))
    refine ⟨int, fun int' hsame => ?_⟩
    obtain ⟨hdraw, hrest⟩ := hint int' hsame
    have hleft := Nat.mod_eq_of_lt (Nat.lt_succ_of_le hsub.length_le)
    rw [randomKeep]
    simp only [Rng.urand, Rng.next, hdraw, Nat.add_sub_cancel, hleft]
    rw [if_neg (by omega)]
    exact hrest
  | @cons_cons kept rest x hsub ih =>
    obtain ⟨int, hint⟩ := exists_draw 0 (ih (drawn + 1))
    refine ⟨int, fun int' hsame => ?_⟩
    obtain ⟨hdraw, hrest⟩ := hint int' hsame
    rw [randomKeep]
    simp only [Rng.urand, Rng.next, hdraw, Nat.zero_mod, length_cons, Nat.add_sub_cancel]
    rw [if_pos (by omega)]
    exact congrArg (x :: ·) hrest

variable {container requestedSize}

/-- What resizing can keep are the sublists that it promises, all of them. -/
theorem resizeContainer_outcomes (hlength : container.length < 2 ^ 32) (kept : List α) :
    (∃ rng, (resizeContainer leave container requestedSize rng).1 = kept) ↔
      KeepsExactly container kept requestedSize := by
  have hprocess : toProcess container = container.length := Nat.mod_eq_of_lt hlength
  constructor
  · rintro ⟨rng, rfl⟩
    exact (keepsExactly_resizeContainer ..).mpr (by rw [hprocess]; exact id)
  · rintro ⟨hcount, hsub⟩
    by_cases hless : container.length ≤ requestedSize
    · refine ⟨⟨0, 0, 0⟩, ?_⟩
      rw [resizeContainer, if_pos (hprocess ▸ hless)]
      exact (hsub.eq_of_length (by omega)).symm
    · obtain ⟨int, hint⟩ := randomKeep_reaches hsub 0
      refine ⟨⟨0, int, 0⟩, ?_⟩
      rw [resizeContainer_eq (by omega), hprocess, take_length,
        show requestedSize = kept.length by omega]
      exact hint int fun _ _ => rfl

theorem resizeContainer_outcomes_ends : ∃ rng, (resizeContainer id [1, 2, 3] 2 rng).1 = [1, 3] :=
  (resizeContainer_outcomes id (by decide) _).mpr ⟨rfl, by decide⟩

end LegionServer.Guarantees.RandomResize
