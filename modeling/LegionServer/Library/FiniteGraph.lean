import Mathlib.Order.WellFoundedSet

/-!
# Finite graphs

A relation given by a list of pairs is well founded just when it has no cycle.
-/
namespace LegionServer.Library
open List

variable {α : Type*} {edge : α → α → Prop}

/-- From an element that a descent ends at there is no way back to itself. -/
theorem not_transGen_of_acc {a : α} (h : Acc (fun b a => edge a b) a) :
    ¬Relation.TransGen edge a a := by
  induction h with
  | intro a _ ih =>
    intro hcycle
    -- The first step of a cycle leads to an element that is on a cycle too.
    obtain ⟨b, hedge, hback⟩ := Relation.TransGen.head'_iff.mp hcycle
    exact ih b hedge (Relation.TransGen.tail' hback hedge)

/-- Without cycles, every descent through finitely many sources ends. -/
theorem acc_of_acyclic {sources : Set α} (hfinite : sources.Finite)
    (hsources : ∀ a b, edge a b → a ∈ sources)
    (hacyclic : ∀ a, ¬Relation.TransGen edge a a) (a : α) : Acc (fun b a => edge a b) a := by
  have hstrict : IsStrictOrder α fun b a => Relation.TransGen edge a b :=
    { irrefl := hacyclic
      trans := fun _ _ _ hba hcb => hcb.trans hba }
  have hfounded : sources.WellFoundedOn fun b a => Relation.TransGen edge a b :=
    hfinite.wellFoundedOn
  have hleaf : ∀ b, b ∉ sources → Acc (fun b a => edge a b) b := fun b hnone =>
    ⟨b, fun c hedge => absurd (hsources b c hedge) hnone⟩
  by_cases hmem : a ∈ sources
  · refine hfounded.induction hmem ?_
    intro b _ ih
    refine ⟨b, fun c hedge => ?_⟩
    by_cases hc : c ∈ sources
    · exact ih c hc (.single hedge)
    · exact hleaf c hc
  · exact hleaf a hmem

/-!
# Links to a parent

Every element is below a root exactly when the ways up end, and for finitely many elements with a
parent this bounds the nesting.
-/

variable {up up' : α → Option α} {a b : α} {n m : Nat}

/-- The way up from `a` ends after `n` links. -/
inductive EndsAfter (up : α → Option α) : α → Nat → Prop
  | root {a : α} : up a = none → EndsAfter up a 0
  | link {a b : α} {n : Nat} : up a = some b → EndsAfter up b n → EndsAfter up a (n + 1)

/-- The parent of `a` is `b`. -/
abbrev IsUp (up : α → Option α) (a b : α) : Prop := up a = some b

theorem EndsAfter.unique (h : EndsAfter up a n) (h' : EndsAfter up a m) : n = m := by
  induction h generalizing m with
  | root hroot =>
    cases h' with
    | root => rfl
    | link hlink => simp [hroot] at hlink
  | link hlink _ ih =>
    cases h' with
    | root hroot => simp [hroot] at hlink
    | link hlink' hrest =>
      rw [hlink, Option.some.injEq] at hlink'
      rw [ih (hlink' ▸ hrest)]

/-- Links that are removed only shorten the ways up. -/
theorem EndsAfter.of_le (hle : ∀ a b, up' a = some b → up a = some b) (h : EndsAfter up a n) :
    ∃ m, EndsAfter up' a m := by
  induction h with
  | @root a hroot =>
    cases ha : up' a with
    | none => exact ⟨0, .root ha⟩
    | some b => exact absurd (hle a b ha) (by simp [hroot])
  | @link a b n hlink _ ih =>
    cases ha : up' a with
    | none => exact ⟨0, .root ha⟩
    | some c =>
      have hc := hle a c ha
      rw [hlink, Option.some.injEq] at hc
      obtain ⟨m, hm⟩ := ih
      exact ⟨m + 1, .link ha (hc ▸ hm)⟩

theorem EndsAfter.of_transGen (h : Relation.TransGen (IsUp up) a b) (hb : EndsAfter up b n) :
    ∃ m, n < m ∧ EndsAfter up a m := by
  induction h using Relation.TransGen.head_induction_on with
  | single hlink => exact ⟨n + 1, n.lt_succ_self, .link hlink hb⟩
  | head hlink _ ih =>
    obtain ⟨m, hlt, hm⟩ := ih
    exact ⟨m + 1, Nat.lt_succ_of_lt hlt, .link hlink hm⟩

section
variable (h : ∀ a, ∃ n, EndsAfter up a n)
include h

theorem acyclic_of_ends (a : α) : ¬Relation.TransGen (IsUp up) a a := by
  intro hcycle
  obtain ⟨n, hn⟩ := h a
  obtain ⟨m, hlt, hm⟩ := EndsAfter.of_transGen hcycle hn
  exact absurd (hn.unique hm) (Nat.ne_of_lt hlt)

theorem exists_ends_le (members : List α) :
    ∃ bound, ∀ a ∈ members, ∀ n, EndsAfter up a n → n ≤ bound := by
  induction members with
  | nil => exact ⟨0, by simp⟩
  | cons a members ih =>
    obtain ⟨bound, hbound⟩ := ih
    obtain ⟨depth, hdepth⟩ := h a
    refine ⟨max depth bound, List.forall_mem_cons.mpr ⟨?_, ?_⟩⟩
    · intro n hn
      exact (hn.unique hdepth).le.trans (Nat.le_max_left depth bound)
    · intro b hb n hn
      exact (hbound b hb n hn).trans (Nat.le_max_right depth bound)

/-- A parent is higher than its children, up to some bound. -/
theorem exists_height (members : List α) (hmembers : ∀ a b, up a = some b → a ∈ members) :
    ∃ (bound : Nat) (height : α → Nat), (∀ a, height a ≤ bound) ∧
      ∀ a b, up a = some b → height a < height b := by
  obtain ⟨bound, hbound⟩ := exists_ends_le h members
  choose depth hdepth using h
  refine ⟨bound, fun a => bound - depth a, fun a => Nat.sub_le _ _, fun a b hlink => ?_⟩
  show bound - depth a < bound - depth b
  have heq : depth a = depth b + 1 := (hdepth a).unique (.link hlink (hdepth b))
  have hle := hbound a (hmembers a b hlink) _ (hdepth a)
  omega

end

variable {members : List α}

/-- A list that goes up link by link, its highest element first. -/
theorem reflTransGen_of_isChain
    (h : (a :: members).IsChain fun parent child => up child = some parent)
    (hb : b ∈ a :: members) : Relation.ReflTransGen (IsUp up) b a := by
  induction members generalizing a with
  | nil => rw [mem_singleton.mp hb]
  | cons c members ih =>
    rw [isChain_cons_cons] at h
    rcases mem_cons.mp hb with rfl | hb
    · exact .refl
    · exact (ih h.2 hb).tail h.1

/-- Only the links below the highest element matter. -/
theorem isChain_of_eq (heq : ∀ b ∈ members, up' b = up b)
    (h : (a :: members).IsChain fun parent child => up child = some parent) :
    (a :: members).IsChain fun parent child => up' child = some parent := by
  induction members generalizing a with
  | nil => exact .singleton a
  | cons b members ih =>
    rw [isChain_cons_cons] at h ⊢
    rw [forall_mem_cons] at heq
    exact ⟨heq.1.trans h.1, ih heq.2 h.2⟩

theorem EndsAfter.of_reflTransGen (h : Relation.ReflTransGen (IsUp up) a b) (hb : EndsAfter up b n) :
    ∃ m, EndsAfter up a m := by
  induction h using Relation.ReflTransGen.head_induction_on with
  | refl => exact ⟨n, hb⟩
  | head hlink _ ih =>
    obtain ⟨m, hm⟩ := ih
    exact ⟨m + 1, .link hlink hm⟩

end LegionServer.Library
