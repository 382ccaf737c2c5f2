import Mathlib.Order.Bounds.Basic

/-!
# Pruning by a monotone check

Elements of a set whose check fails are removed in one ascending pass, each check made of
what is left.
-/
namespace LegionServer.Library.Pruning
open Bool

variable {check : (Nat → Bool) → Nat → Bool} {set rest : Nat → Bool} {n i j : Nat}

def Consistent (check : (Nat → Bool) → Nat → Bool) (set : Nat → Bool) : Prop :=
  ∀ i, set i = true → check set i = true

def prune (check : (Nat → Bool) → Nat → Bool) (set : Nat → Bool) (i : Nat) : Nat → Bool :=
  if set i && !check set i then Function.update set i false else set

def pass (check : (Nat → Bool) → Nat → Bool) (n : Nat) (set : Nat → Bool) : Nat → Bool :=
  (List.range n).foldl (prune check) set

open Classical in
/-- The elements of consistent subsets. -/
noncomputable def largest (check : (Nat → Bool) → Nat → Bool) (set : Nat → Bool) (i : Nat) : Bool :=
  decide (∃ rest ≤ set, Consistent check rest ∧ rest i = true)

theorem mem_largest : largest check set i = true ↔
    ∃ rest ≤ set, Consistent check rest ∧ rest i = true := by
  classical
  rw [largest, decide_eq_true_iff]

theorem le_largest (hle : rest ≤ set) (hrest : Consistent check rest) :
    rest ≤ largest check set := by
  intro i hi
  rw [mem_largest]
  exact ⟨rest, hle, hrest, hi⟩

theorem largest_le : largest check set ≤ set := by
  intro i hi
  rw [mem_largest] at hi
  obtain ⟨rest, hle, -, hmem⟩ := hi
  exact hle i hmem

theorem consistent_largest (hcheck : Monotone check) : Consistent check (largest check set) := by
  intro i hi
  rw [mem_largest] at hi
  obtain ⟨rest, hle, hrest, hmem⟩ := hi
  exact hcheck (le_largest hle hrest) i (hrest i hmem)

theorem isGreatest_largest (hcheck : Monotone check) (set : Nat → Bool) :
    IsGreatest {rest | rest ≤ set ∧ Consistent check rest} (largest check set) :=
  ⟨⟨largest_le, consistent_largest hcheck⟩, fun _ hrest => le_largest hrest.1 hrest.2⟩

theorem pass_succ : pass check (n + 1) set = prune check (pass check n set) n := by
  rw [pass, List.range_succ, List.foldl_append, ← pass]
  rfl

theorem prune_of_ne (hne : j ≠ i) : prune check set i j = set j := by
  rw [prune]
  split
  · exact Function.update_of_ne hne _ _
  · rfl

theorem prune_self : prune check set i i = (set i && check set i) := by
  rw [prune]
  split
  · rename_i hfails
    rw [and_eq_true, Bool.not_eq_true'] at hfails
    rw [Function.update_self, hfails.2, Bool.and_false]
  · rename_i hpasses
    cases hset : set i with
    | false => rfl
    | true =>
      rw [hset, Bool.true_and, Bool.not_eq_true', Bool.not_eq_false] at hpasses
      rw [hpasses]
      rfl

theorem pass_of_le (hle : n ≤ j) : pass check n set j = set j := by
  induction n with
  | zero => rfl
  | succ n ih => rw [pass_succ, prune_of_ne (by omega), ih (by omega)]

theorem pass_le : pass check n set ≤ set := by
  induction n with
  | zero => exact le_refl set
  | succ n ih =>
    rw [pass_succ]
    intro j hj
    by_cases hne : j = n
    · rw [hne, prune_self, and_eq_true] at hj
      exact hne ▸ ih n hj.1
    · rw [prune_of_ne hne] at hj
      exact ih j hj

/-- After its turn an element stays as it is. -/
theorem pass_of_lt (hlt : j < n) : pass check n set j = pass check (j + 1) set j := by
  induction n with
  | zero => exact absurd hlt (Nat.not_lt_zero j)
  | succ n ih =>
    rcases Nat.lt_succ_iff_lt_or_eq.mp hlt with hlt | rfl
    · rw [pass_succ, prune_of_ne (by omega), ih hlt]
    · rfl

theorem le_pass (hcheck : Monotone check) (hle : rest ≤ set) (hrest : Consistent check rest) :
    rest ≤ pass check n set := by
  induction n with
  | zero => exact hle
  | succ n ih =>
    rw [pass_succ]
    intro j hj
    by_cases hne : j = n
    · subst hne
      rw [prune_self, and_eq_true]
      exact ⟨ih j hj, hcheck ih j (hrest j hj)⟩
    · rw [prune_of_ne hne]
      exact ih j hj

/-- The elements of a subset and those whose turn is still to come. -/
def withLater (rest set : Nat → Bool) (i j : Nat) : Bool := rest j || (decide (i ≤ j) && set j)

section
variable (hcheck : Monotone check)
include hcheck

theorem withLater_le_pass (hle : rest ≤ set) (hrest : Consistent check rest) :
    withLater rest set n ≤ pass check n set := by
  intro j hj
  rw [withLater, or_eq_true, and_eq_true, decide_eq_true_iff] at hj
  rcases hj with hj | ⟨hlater, hj⟩
  · exact le_pass hcheck hle hrest j hj
  · rw [pass_of_le hlater]
    exact hj

/-- Where each element outside of a consistent subset is removed at its turn, the pass has the
subset and what is to come. -/
theorem pass_eq_withLater (hle : rest ≤ set) (hrest : Consistent check rest)
    (hfails : ∀ i < n, set i = true → rest i = false → check (withLater rest set i) i = false) :
    pass check n set = withLater rest set n := by
  induction n with
  | zero =>
    funext j
    rw [withLater, decide_eq_true (Nat.zero_le j), Bool.true_and]
    cases hj : rest j with
    | false => rfl
    | true => exact hle j hj
  | succ n ih =>
    have ih := ih fun i hi => hfails i (by omega)
    funext j
    rw [pass_succ]
    by_cases hne : j = n
    · subst hne
      rw [prune_self, pass_of_le (Nat.le_refl j), withLater,
        decide_eq_false (Nat.not_succ_le_self j), Bool.false_and, Bool.or_false, ih]
      cases hj : rest j with
      | true =>
        rw [and_eq_true]
        exact ⟨hle j hj, hcheck (ih ▸ le_pass hcheck hle hrest) j (hrest j hj)⟩
      | false =>
        cases hset : set j with
        | false => rfl
        | true => rw [hfails j (Nat.lt_succ_self j) hset hj, Bool.true_and]
    · rw [prune_of_ne hne, ih, withLater, withLater]
      congr 2
      rw [decide_eq_decide]
      omega

/-- The pass over a set leaves its largest consistent subset just where each element outside of it
fails its check with the subset and the elements from it on. -/
theorem pass_eq_largest_iff (hset : ∀ i, set i = true → i < n) :
    pass check n set = largest check set ↔ ∀ i, set i = true → largest check set i = false →
      check (withLater (largest check set) set i) i = false := by
  constructor
  · intro hpass i hi hout
    rw [← hpass, pass_of_lt (hset i hi), pass_succ, prune_self, pass_of_le (Nat.le_refl i), hi,
      Bool.true_and] at hout
    rw [← Bool.not_eq_true] at hout ⊢
    exact fun hpasses => hout
      (hcheck (withLater_le_pass hcheck largest_le (consistent_largest hcheck)) i hpasses)
  · intro hfails
    rw [pass_eq_withLater hcheck largest_le (consistent_largest hcheck) fun i _ => hfails i]
    funext j
    rw [withLater]
    cases hj : set j with
    | false => rw [Bool.and_false, Bool.or_false]
    | true => rw [decide_eq_false (Nat.not_le.mpr (hset j hj)), Bool.false_and, Bool.or_false]

/-- A consistent set passes as it is. -/
theorem pass_consistent (hset : Consistent check set) : pass check n set = set :=
  le_antisymm pass_le (le_pass hcheck (le_refl set) hset)

end

end LegionServer.Library.Pruning
