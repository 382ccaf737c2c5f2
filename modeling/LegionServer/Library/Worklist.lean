import Mathlib.Data.Finset.Max

/-!
# Closures by a worklist

Elements have links to others, and finitely many are defined.
-/
namespace LegionServer.Library

structure Links (α : Type*) where
  defined : Finset α
  linked : α → Finset α

/-- What is reached is not checked again. -/
structure Worklist (α : Type*) where
  toCheck : Finset α
  reached : Finset α
  disjoint : Disjoint toCheck reached

variable {α : Type*} [LinearOrder α] (links : Links α)

namespace Worklist

def start (s : Finset α) : Worklist α := ⟨s, ∅, Finset.disjoint_empty_right s⟩

def visit (w : Worklist α) (a : α) : Worklist α :=
  if a ∈ links.defined then
    { toCheck := w.toCheck.erase a ∪ (links.linked a).filter (· ∉ insert a w.reached)
      reached := insert a w.reached
      disjoint := by
        rw [Finset.disjoint_left]
        intro b hb
        rcases Finset.mem_union.mp hb with hb | hb
        · obtain ⟨hne, hb⟩ := Finset.mem_erase.mp hb
          rw [Finset.mem_insert, not_or]
          exact ⟨hne, Finset.disjoint_left.mp w.disjoint hb⟩
        · exact (Finset.mem_filter.mp hb).2 }
  else
    { toCheck := w.toCheck.erase a
      reached := w.reached
      disjoint := w.disjoint.mono_left (Finset.erase_subset _ _) }

/-- Fewer elements that are defined are left, or fewer wait. -/
theorem measure_visit {w : Worklist α} {a : α} (ha : a ∈ w.toCheck) :
    Prod.Lex (· < ·) (· < ·)
      ((links.defined \ (w.visit links a).reached).card, (w.visit links a).toCheck.card)
      ((links.defined \ w.reached).card, w.toCheck.card) := by
  rw [visit]
  split
  · rename_i hdefined
    refine .left _ _ (Finset.card_lt_card (Finset.ssubset_iff_of_subset ?_ |>.mpr ⟨a, ?_, ?_⟩))
    · exact Finset.sdiff_subset_sdiff le_rfl (Finset.subset_insert _ _)
    · exact Finset.mem_sdiff.mpr ⟨hdefined, Finset.disjoint_left.mp w.disjoint ha⟩
    · exact fun hmem => (Finset.mem_sdiff.mp hmem).2 (Finset.mem_insert_self _ _)
  · exact .right _ (Finset.card_lt_card (Finset.erase_ssubset ha))

def run (w : Worklist α) : Finset α :=
  if h : w.toCheck.Nonempty then (w.visit links (w.toCheck.min' h)).run else w.reached
termination_by ((links.defined \ w.reached).card, w.toCheck.card)
decreasing_by exact measure_visit links (Finset.min'_mem _ h)

end Worklist

namespace Links

def Linked (a b : α) : Prop := a ∈ links.defined ∧ b ∈ links.linked a

def Reaches : α → α → Prop := Relation.ReflTransGen links.Linked

def closure (s : Finset α) : Finset α := (Worklist.start s).run links

end Links

variable {links} {s : Finset α} {w : Worklist α} {a b : α}

/-- Everything that waits or is reached comes from the start; and what comes from the start by one
link from what is reached waits or is reached. -/
structure Worklist.Explores (links : Links α) (s : Finset α) (w : Worklist α) : Prop where
  start : ∀ a ∈ s, a ∈ links.defined → a ∈ w.toCheck ∨ a ∈ w.reached
  toCheck : ∀ a ∈ w.toCheck, ∃ r ∈ s, links.Reaches r a
  reached : ∀ a ∈ w.reached, a ∈ links.defined ∧ ∃ r ∈ s, links.Reaches r a
  linked : ∀ a ∈ w.reached, ∀ b ∈ links.linked a, b ∈ links.defined → b ∈ w.toCheck ∨ b ∈ w.reached

namespace Worklist

omit [LinearOrder α] in
theorem explores_start : Explores links s (start s) where
  start _ ha _ := .inl ha
  toCheck a ha := ⟨a, ha, .refl⟩
  reached _ ha := absurd ha (Finset.notMem_empty _)
  linked _ ha := absurd ha (Finset.notMem_empty _)

theorem Explores.visit (h : Explores links s w) (ha : a ∈ w.toCheck) :
    Explores links s (w.visit links a) := by
  rw [Worklist.visit]
  split
  · rename_i hdefined
    have hkept : ∀ b, b ∈ w.toCheck ∨ b ∈ w.reached →
        b ∈ w.toCheck.erase a ∪ (links.linked a).filter (· ∉ insert a w.reached) ∨
          b ∈ insert a w.reached := by
      intro b hb
      by_cases hsame : b = a
      · exact .inr (Finset.mem_insert.mpr (.inl hsame))
      · rcases hb with hb | hb
        · exact .inl (Finset.mem_union_left _ (Finset.mem_erase.mpr ⟨hsame, hb⟩))
        · exact .inr (Finset.mem_insert_of_mem hb)
    obtain ⟨r, hr, hreaches⟩ := h.toCheck a ha
    constructor
    · exact fun b hb hb' => hkept b (h.start b hb hb')
    · intro b hb
      rcases Finset.mem_union.mp hb with hb | hb
      · exact h.toCheck b (Finset.mem_of_mem_erase hb)
      · exact ⟨r, hr, hreaches.tail ⟨hdefined, (Finset.mem_filter.mp hb).1⟩⟩
    · intro b hb
      rcases Finset.mem_insert.mp hb with rfl | hb
      · exact ⟨hdefined, r, hr, hreaches⟩
      · exact h.reached b hb
    · intro b hb c hc hc'
      rcases Finset.mem_insert.mp hb with rfl | hb
      · by_cases hnew : c ∈ insert b w.reached
        · exact .inr hnew
        · exact .inl (Finset.mem_union_right _ (Finset.mem_filter.mpr ⟨hc, hnew⟩))
      · exact hkept c (h.linked b hb c hc hc')
  · rename_i hdefined
    have hkept : ∀ b ∈ links.defined, b ∈ w.toCheck ∨ b ∈ w.reached →
        b ∈ w.toCheck.erase a ∨ b ∈ w.reached := fun b hb =>
      Or.imp_left fun hb' => Finset.mem_erase.mpr ⟨fun hsame => hdefined (hsame ▸ hb), hb'⟩
    exact ⟨fun b hb hb' => hkept b hb' (h.start b hb hb'),
      fun b hb => h.toCheck b (Finset.mem_of_mem_erase hb), h.reached,
      fun b hb c hc hc' => hkept c hc' (h.linked b hb c hc hc')⟩

theorem Explores.mem_run (h : Explores links s w) :
    a ∈ w.run links ↔ a ∈ links.defined ∧ ∃ r ∈ s, links.Reaches r a := by
  induction w using run.induct links with
  | case1 w hsome ih =>
    rw [run, dif_pos hsome]
    exact ih (h.visit (Finset.min'_mem _ hsome))
  | case2 w hnone =>
    rw [run, dif_neg hnone]
    have hempty : ∀ b, b ∉ w.toCheck := fun b hb => hnone ⟨b, hb⟩
    refine ⟨h.reached a, ?_⟩
    rintro ⟨hdefined, r, hr, hreaches⟩
    induction hreaches with
    | refl => exact (h.start _ hr hdefined).resolve_left (hempty _)
    | tail _ hlinked ih =>
      exact (h.linked _ (ih hlinked.1) _ hlinked.2 hdefined).resolve_left (hempty _)

end Worklist

/-- The closure has what is defined and can be reached. -/
theorem Links.mem_closure : a ∈ links.closure s ↔ a ∈ links.defined ∧ ∃ r ∈ s, links.Reaches r a :=
  Worklist.explores_start.mem_run

end LegionServer.Library
