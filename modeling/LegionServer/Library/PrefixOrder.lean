import Mathlib.Data.List.Lex
import Mathlib.Data.List.Pairwise
import Mathlib.Order.Lattice

/-!
# Prefixes in the lexicographic order

The words with a prefix are next to each other in the order, from the prefix itself on. So a
sorted list shows all of them in one run behind what is below the prefix.
-/
namespace LegionServer.Library.PrefixOrder
open List

variable {C : Type*} [LinearOrder C] {t a b : List C}

theorem prefix_not_lt (h : t <+: a) : ¬a < t := by
  induction t generalizing a with
  | nil => exact not_lt_nil a
  | cons c t ih =>
    obtain ⟨rest, rfl⟩ := h
    intro hlt
    rw [cons_append, cons_lt_cons_iff] at hlt
    rcases hlt with hc | ⟨-, hlt⟩
    · exact lt_irrefl c hc
    · exact ih (prefix_append t rest) hlt

/-- Behind a word without the prefix, which is not below it, no word has the prefix. -/
theorem not_prefix_of_lt (hat : ¬a < t) (hno : ¬t <+: a) (hab : a < b) : ¬t <+: b := by
  induction t generalizing a b with
  | nil => exact absurd nil_prefix hno
  | cons c t ih =>
    rintro ⟨rest, rfl⟩
    cases a with
    | nil => exact hat (nil_lt_cons c t)
    | cons d a =>
      rw [cons_append, cons_lt_cons_iff] at hab
      rw [cons_lt_cons_iff, not_or, not_and] at hat
      rcases hab with hd | ⟨rfl, hab⟩
      · exact hat.1 hd
      · have hno' : ¬t <+: a := fun h => hno ((prefix_cons_inj d).mpr h)
        exact ih (hat.2 rfl) hno' hab (prefix_append t rest)

variable {E : Type*} {key : E → List C} {xs : List E}

/-- The elements whose keys have a prefix, in a list sorted by the keys. -/
theorem filter_prefix (hsorted : xs.Pairwise fun x y => key x < key y) :
    (xs.dropWhile fun x => key x < t).takeWhile (fun x => t <+: key x) =
      xs.filter fun x => t <+: key x := by
  induction xs with
  | nil => rfl
  | cons x xs ih =>
    obtain ⟨habove, hsorted⟩ := List.pairwise_cons.mp hsorted
    by_cases hbelow : key x < t
    · have hno : ¬t <+: key x := fun h => prefix_not_lt h hbelow
      rw [dropWhile_cons, if_pos (decide_eq_true hbelow), ih hsorted,
        filter_cons_of_neg (by simpa using hno)]
    · have hrest : (xs.dropWhile fun y => key y < t) = xs := by
        cases xs with
        | nil => rfl
        | cons y ys =>
          have hy : ¬key y < t := fun h => hbelow ((habove y mem_cons_self).trans h)
          exact dropWhile_cons_of_neg (by simpa using hy)
      have hrun := ih hsorted
      rw [hrest] at hrun
      rw [dropWhile_cons_of_neg (by simpa using hbelow)]
      by_cases hprefix : t <+: key x
      · rw [takeWhile_cons, if_pos (decide_eq_true hprefix), hrun, filter_cons,
          if_pos (decide_eq_true hprefix)]
      rw [takeWhile_cons_of_neg (by simpa using hprefix), eq_comm]
      apply List.filter_eq_nil_iff.mpr
      intro y hy hyes
      rcases List.mem_cons.mp hy with rfl | hy
      · exact hprefix (of_decide_eq_true hyes)
      · exact not_prefix_of_lt hbelow hprefix (habove y hy) (of_decide_eq_true hyes)

end LegionServer.Library.PrefixOrder
