import Mathlib.Data.List.Perm.Basic
import Mathlib.Data.List.Nodup
import Mathlib.Algebra.Ring.Nat

/-!
# Counting marked elements of a list, and sums over it
-/
namespace LegionServer.Library
open List Bool

variable {α : Type*} {l : List α} {a : α} {before after : α → Bool}

theorem toNat_eq_ite (b : Bool) : b.toNat = if b then 1 else 0 := by cases b <;> rfl

/-- Marking one more element raises the count by one. -/
theorem countP_mark (hnodup : l.Nodup) (hmem : a ∈ l) (hoff : before a = false)
    (hon : after a = true) (hsame : ∀ b ∈ l, b ≠ a → after b = before b) :
    l.countP after = l.countP before + 1 := by
  classical
  have hperm := perm_cons_erase hmem
  have hrest : (l.erase a).countP after = (l.erase a).countP before := by
    apply countP_congr
    intro b hb
    obtain ⟨hne, hb⟩ := hnodup.mem_erase_iff.mp hb
    rw [hsame b hb hne]
  rw [hperm.countP_eq after, hperm.countP_eq before]
  simp [hon, hoff, hrest]

theorem countP_same (hsame : ∀ b ∈ l, after b = before b) : l.countP after = l.countP before := by
  apply countP_congr
  intro b hb
  rw [hsame b hb]

variable {p : α → Bool}

/-- Two counts together, compared element by element. -/
theorem countP_add_countP {q p' q' : α → Bool}
    (h : ∀ a, (p a).toNat + (q a).toNat = (p' a).toNat + (q' a).toNat) :
    l.countP p + l.countP q = l.countP p' + l.countP q' := by
  induction l with
  | nil => rfl
  | cons a l ih =>
    have ha := h a
    simp only [countP_cons, toNat_eq_ite] at ha ⊢
    omega

variable {f : α → α}

/-- Changing one element changes nothing for a predicate that does not see it. -/
theorem countP_modify_same (hsame : ∀ b, p (f b) = p b) (i : Nat) :
    (l.modify i f).countP p = l.countP p := by
  induction l generalizing i with
  | nil => simp
  | cons b l ih =>
    cases i with
    | zero => simp [countP_cons, hsame]
    | succ i => simp [countP_cons, ih]

variable {i : Nat}

/-- Replacing one element counts the new one instead of the old one. -/
theorem countP_set_add {b : α} (hi : l[i]? = some a) :
    (l.set i b).countP p + (p a).toNat = l.countP p + (p b).toNat := by
  induction l generalizing i with
  | nil => simp at hi
  | cons c l ih =>
    cases i with
    | zero =>
      simp only [getElem?_cons_zero, Option.some.injEq] at hi
      subst hi
      simp only [set_cons_zero, countP_cons, toNat_eq_ite]
      omega
    | succ i =>
      have hrest := ih (by simpa using hi)
      simp only [set_cons_succ, countP_cons]
      omega

theorem countP_eraseIdx_add (hi : l[i]? = some a) :
    (l.eraseIdx i).countP p + (p a).toNat = l.countP p := by
  induction l generalizing i with
  | nil => simp at hi
  | cons c l ih =>
    cases i with
    | zero =>
      simp only [getElem?_cons_zero, Option.some.injEq] at hi
      subst hi
      simp only [eraseIdx_cons_zero, countP_cons, toNat_eq_ite]
    | succ i =>
      have hrest := ih (by simpa using hi)
      simp only [eraseIdx_cons_succ, countP_cons]
      omega

/-- Changing the one element with a key counts the new one instead of the old one. -/
theorem countP_map_key_add {κ : Type*} [DecidableEq κ] {key : α → κ} (hkeys : (l.map key).Nodup)
    (hmem : a ∈ l) :
    (l.map fun b => if key b = key a then f b else b).countP p + (p a).toNat =
      l.countP p + (p (f a)).toNat := by
  induction l with
  | nil => simp at hmem
  | cons b l ih =>
    rw [map_cons, nodup_cons] at hkeys
    rcases List.mem_cons.mp hmem with rfl | hrest
    · have hothers : (l.map fun b => if key b = key a then f b else b) = l := by
        have hkept : ∀ b ∈ l, (if key b = key a then f b else b) = id b := by
          intro b hb
          have hkey : key b ≠ key a := fun hkey => hkeys.1 (hkey ▸ mem_map_of_mem hb)
          rw [if_neg hkey, id]
        rw [map_congr_left hkept, map_id]
      simp only [map_cons, hothers, countP_cons, toNat_eq_ite, if_true]
      omega
    · have hb : key b ≠ key a := fun hkey => hkeys.1 (hkey ▸ mem_map_of_mem hrest)
      have hcount := ih hkeys.2 hrest
      simp only [map_cons, if_neg hb, countP_cons]
      omega

/-- Unmarking one marked element lowers the count by one. -/
theorem countP_modify_unmark (hi : l[i]? = some a) (hon : p a = true) (hoff : p (f a) = false) :
    (l.modify i f).countP p + 1 = l.countP p := by
  induction l generalizing i with
  | nil => simp at hi
  | cons b l ih =>
    cases i with
    | zero =>
      simp only [getElem?_cons_zero, Option.some.injEq] at hi
      subst hi
      simp [hon, hoff]
    | succ i =>
      have hrest := ih (by simpa using hi)
      simp only [modify_succ_cons, countP_cons]
      omega

/-- Lowering one summand by one lowers the sum by one. -/
theorem sum_map_lower {before after : α → Nat} (hnodup : l.Nodup) (hmem : a ∈ l)
    (hlower : after a + 1 = before a) (hsame : ∀ b ∈ l, b ≠ a → after b = before b) :
    (l.map after).sum + 1 = (l.map before).sum := by
  classical
  have hperm := perm_cons_erase hmem
  have hrest : (l.erase a).map after = (l.erase a).map before := by
    apply map_congr_left
    intro b hb
    obtain ⟨hne, hb⟩ := hnodup.mem_erase_iff.mp hb
    exact hsame b hb hne
  rw [(hperm.map after).sum_nat, (hperm.map before).sum_nat, map_cons, map_cons, hrest,
    sum_cons, sum_cons]
  omega

end LegionServer.Library
