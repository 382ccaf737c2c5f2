import Mathlib.Data.List.Nodup
import Mathlib.Order.Lattice
import Mathlib.Algebra.BigOperators.Group.List.Basic

/-!
# Sets kept as sorted lists

A set has at most one element with a key and lists its elements by their keys. `put` replaces
the element that has the key. A sum over the set changes by what is put in its place.
-/
namespace LegionServer.Library
open List

variable {α κ : Type*} [LinearOrder κ]

structure FlatSet (key : α → κ) where
  items : List α
  sorted : items.Pairwise fun a b => key a < key b

namespace FlatSet

variable {key : α → κ} {s : FlatSet key} {a b : α} {k other : κ}

def empty : FlatSet key := ⟨[], List.Pairwise.nil⟩

def find (s : FlatSet key) (k : κ) : Option α := s.items.find? fun a => key a = k

def put (s : FlatSet key) (a : α) : FlatSet key where
  items := s.items.filter (fun b => key b < key a) ++ a :: s.items.filter (fun b => key a < key b)
  sorted := by
    have hbelow : ∀ b ∈ s.items.filter (fun b => key b < key a), key b < key a :=
      fun b hmem => of_decide_eq_true (mem_filter.mp hmem).2
    have habove : ∀ b ∈ s.items.filter (fun b => key a < key b), key a < key b :=
      fun b hmem => of_decide_eq_true (mem_filter.mp hmem).2
    apply pairwise_append.mpr
    refine ⟨s.sorted.sublist filter_sublist,
      pairwise_cons.mpr ⟨habove, s.sorted.sublist filter_sublist⟩, fun b hb c hc => ?_⟩
    rcases mem_cons.mp hc with rfl | hc
    · exact hbelow b hb
    · exact (hbelow b hb).trans (habove c hc)

def erase (s : FlatSet key) (k : κ) : FlatSet key where
  items := s.items.filter fun b => key b ≠ k
  sorted := s.sorted.sublist filter_sublist

/-- The loop that looks for elements with one key in two sorted lists, past those that are
rejected. -/
def intersects (key : α → κ) (equalPred : α → α → Bool) : List α → List α → Bool
  | [], _ => false
  | _ :: _, [] => false
  | a :: xs, b :: ys =>
    if key a < key b then intersects key equalPred xs (b :: ys)
    else if key b < key a then intersects key equalPred (a :: xs) ys
    else if !equalPred a b then intersects key equalPred xs ys
    else true
termination_by xs ys => xs.length + ys.length

def lowerBound (s : FlatSet key) (k : κ) : Option α := s.items.find? fun a => k ≤ key a

/-- The element with the key of a new one, which is put when there is none. -/
def emplace (s : FlatSet key) (a : α) : FlatSet key × α :=
  match s.find (key a) with
  | some b => (s, b)
  | none => (s.put a, a)

/-- What is below the first element is below all. -/
theorem below_of_mem {xs : List α} (hxs : (a :: xs).Pairwise fun a b => key a < key b)
    (hlt : k < key a) (hmem : b ∈ a :: xs) : k < key b := by
  rcases mem_cons.mp hmem with rfl | hmem
  · exact hlt
  · exact hlt.trans ((pairwise_cons.mp hxs).1 b hmem)

theorem intersects_iff {equalPred : α → α → Bool} {xs ys : List α}
    (hxs : xs.Pairwise fun a b => key a < key b) (hys : ys.Pairwise fun a b => key a < key b) :
    intersects key equalPred xs ys = true ↔
      ∃ a ∈ xs, ∃ b ∈ ys, key a = key b ∧ equalPred a b = true := by
  fun_induction intersects key equalPred xs ys with
  | case1 ys => exact ⟨fun h => (nomatch h), fun ⟨a, ha, _⟩ => absurd ha not_mem_nil⟩
  | case2 a xs => exact ⟨fun h => (nomatch h), fun ⟨_, _, b, hb, _⟩ => absurd hb not_mem_nil⟩
  | case3 a xs b ys hlt ih =>
    rw [ih (pairwise_cons.mp hxs).2 hys]
    constructor
    · exact fun ⟨x, hx, rest⟩ => ⟨x, mem_cons_of_mem a hx, rest⟩
    · rintro ⟨x, hx, y, hy, hkey, hpred⟩
      rcases mem_cons.mp hx with rfl | hx
      · exact absurd hkey (below_of_mem hys hlt hy).ne
      · exact ⟨x, hx, y, hy, hkey, hpred⟩
  | case4 a xs b ys hle hlt ih =>
    rw [ih hxs (pairwise_cons.mp hys).2]
    constructor
    · exact fun ⟨x, hx, y, hy, rest⟩ => ⟨x, hx, y, mem_cons_of_mem b hy, rest⟩
    · rintro ⟨x, hx, y, hy, hkey, hpred⟩
      rcases mem_cons.mp hy with rfl | hy
      · exact absurd hkey (below_of_mem hxs hlt hx).ne'
      · exact ⟨x, hx, y, hy, hkey, hpred⟩
  | case5 a xs b ys hle hge hrejected ih =>
    obtain ⟨habove, hxs⟩ := pairwise_cons.mp hxs
    obtain ⟨habove', hys⟩ := pairwise_cons.mp hys
    have hsame : key a = key b := le_antisymm (not_lt.mp hge) (not_lt.mp hle)
    rw [ih hxs hys]
    constructor
    · exact fun ⟨x, hx, y, hy, rest⟩ =>
        ⟨x, mem_cons_of_mem a hx, y, mem_cons_of_mem b hy, rest⟩
    · rintro ⟨x, hx, y, hy, hkey, hpred⟩
      rcases mem_cons.mp hx with rfl | hx <;> rcases mem_cons.mp hy with rfl | hy
      · rw [hpred] at hrejected
        cases hrejected
      · exact absurd (hkey.symm.trans hsame) (habove' y hy).ne'
      · exact absurd (hkey.trans hsame.symm) (habove x hx).ne'
      · exact ⟨x, hx, y, hy, hkey, hpred⟩
  | case6 a xs b ys hle hge haccepted =>
    have hsame : key a = key b := le_antisymm (not_lt.mp hge) (not_lt.mp hle)
    have hpred : equalPred a b = true := by
      cases hvalue : equalPred a b with
      | true => rfl
      | false => exact absurd (by rw [hvalue]; rfl) haccepted
    exact iff_of_true rfl ⟨a, mem_cons_self, b, mem_cons_self, hsame, hpred⟩

theorem mem_put : b ∈ (s.put a).items ↔ b = a ∨ (b ∈ s.items ∧ key b ≠ key a) := by
  simp only [put, mem_append, mem_cons, mem_filter, decide_eq_true_eq]
  constructor
  · rintro (⟨hmem, hlt⟩ | rfl | ⟨hmem, hlt⟩)
    · exact Or.inr ⟨hmem, hlt.ne⟩
    · exact Or.inl rfl
    · exact Or.inr ⟨hmem, hlt.ne'⟩
  · rintro (rfl | ⟨hmem, hne⟩)
    · exact Or.inr (Or.inl rfl)
    · rcases lt_or_gt_of_ne hne with hlt | hlt
      · exact Or.inl ⟨hmem, hlt⟩
      · exact Or.inr (Or.inr ⟨hmem, hlt⟩)

theorem mem_erase : b ∈ (s.erase k).items ↔ b ∈ s.items ∧ key b ≠ k := by
  simp [erase]

theorem keys_nodup (s : FlatSet key) : (s.items.map key).Nodup :=
  List.pairwise_map.mpr (s.sorted.imp fun h => h.ne)

theorem nodup (s : FlatSet key) : s.items.Nodup := List.Nodup.of_map key s.keys_nodup

theorem eq_of_key (ha : a ∈ s.items) (hb : b ∈ s.items) (hkey : key a = key b) : a = b :=
  inj_on_of_nodup_map s.keys_nodup ha hb hkey

theorem find_eq_some : s.find k = some a ↔ a ∈ s.items ∧ key a = k := by
  constructor
  · intro h
    have hkey : decide (key a = k) = true :=
      find?_some (p := fun a => decide (key a = k)) h
    exact ⟨mem_of_find?_eq_some h, of_decide_eq_true hkey⟩
  · rintro ⟨hmem, rfl⟩
    cases hfind : s.find (key a) with
    | none =>
      have hnone := find?_eq_none.mp hfind a hmem
      simp at hnone
    | some b =>
      have hkey : decide (key b = key a) = true :=
        find?_some (p := fun b => decide (key b = key a)) hfind
      rw [eq_of_key (mem_of_find?_eq_some hfind) hmem (of_decide_eq_true hkey)]

theorem find_key (hmem : a ∈ s.items) : s.find (key a) = some a := find_eq_some.mpr ⟨hmem, rfl⟩

@[simp] theorem find_empty : (empty : FlatSet key).find k = none := rfl

theorem find_put : (s.put a).find k = if k = key a then some a else s.find k := by
  apply Option.ext
  intro b
  rw [find_eq_some, mem_put]
  split
  · rename_i hkey
    rw [Option.some.injEq, hkey]
    constructor
    · rintro ⟨rfl | ⟨_, hne⟩, hsame⟩
      · rfl
      · exact absurd hsame hne
    · rintro rfl
      exact ⟨Or.inl rfl, rfl⟩
  · rename_i hkey
    rw [find_eq_some]
    constructor
    · rintro ⟨rfl | ⟨hmem, _⟩, rfl⟩
      · exact absurd rfl hkey
      · exact ⟨hmem, rfl⟩
    · rintro ⟨hmem, rfl⟩
      exact ⟨Or.inr ⟨hmem, hkey⟩, rfl⟩

@[simp] theorem find_put_self : (s.put a).find (key a) = some a := by
  rw [find_put, if_pos rfl]

theorem find_erase : (s.erase k).find other = if other = k then none else s.find other := by
  apply Option.ext
  intro b
  rw [find_eq_some, mem_erase]
  split
  · rename_i hkey
    rw [hkey]
    constructor
    · rintro ⟨⟨_, hne⟩, hsame⟩
      exact absurd hsame hne
    · intro h
      cases h
  · rename_i hkey
    rw [find_eq_some]
    constructor
    · rintro ⟨⟨hmem, _⟩, hsame⟩
      exact ⟨hmem, hsame⟩
    · rintro ⟨hmem, rfl⟩
      exact ⟨⟨hmem, hkey⟩, rfl⟩

theorem emplace_snd : (s.emplace a).2 = (s.find (key a)).getD a := by
  rw [emplace]
  cases s.find (key a) <;> rfl

theorem key_emplace : key (s.emplace a).2 = key a := by
  rw [emplace_snd]
  cases hfind : s.find (key a) with
  | none => rfl
  | some b => exact (find_eq_some.mp hfind).2

/-- The element is in the set, and nothing else is new. -/
theorem find_emplace : (s.emplace a).1.find k =
    if k = key a then some (s.emplace a).2 else s.find k := by
  rw [emplace]
  cases hfind : s.find (key a) with
  | none => exact find_put
  | some b =>
    dsimp only
    split
    · rename_i hkey
      rw [hkey, hfind]
    · rfl

theorem find_eq_none : s.find k = none ↔ ∀ a ∈ s.items, key a ≠ k := by
  simp [find]

/-- The first element that is not below a key has the key when any has. -/
theorem find_eq_none_of_lowerBound (h : ∀ a, s.lowerBound k = some a → key a ≠ k) :
    s.find k = none := by
  rw [find_eq_none]
  rintro a hmem rfl
  cases hlower : s.lowerBound (key a) with
  | none => simpa using find?_eq_none.mp hlower a hmem
  | some b =>
    obtain ⟨hle, before, after, hsplit, hbelow⟩ := List.find?_eq_some_iff_append.mp hlower
    rw [hsplit, mem_append, mem_cons] at hmem
    rcases hmem with hmem | rfl | hmem
    · simpa using hbelow a hmem
    · exact h a hlower rfl
    have hsorted := s.sorted
    rw [hsplit] at hsorted
    have hlt : key b < key a :=
      (pairwise_cons.mp (pairwise_append.mp hsorted).2.1).1 a hmem
    exact absurd (of_decide_eq_true hle) (not_le.mpr hlt)

theorem mem_lowerBound (h : s.lowerBound k = some a) : a ∈ s.items ∧ k ≤ key a :=
  ⟨mem_of_find?_eq_some h, of_decide_eq_true (find?_some (p := fun b => decide (k ≤ key b)) h)⟩

theorem perm_erase (hmem : a ∈ s.items) : s.items.Perm (a :: (s.erase (key a)).items) := by
  apply (perm_ext_iff_of_nodup s.nodup _).mpr
  · intro b
    rw [mem_cons, mem_erase]
    constructor
    · intro hb
      by_cases hkey : key b = key a
      · exact Or.inl (eq_of_key hb hmem hkey)
      · exact Or.inr ⟨hb, hkey⟩
    · rintro (rfl | hb)
      · exact hmem
      · exact hb.1
  · rw [nodup_cons, mem_erase]
    exact ⟨fun h => h.2 rfl, (s.erase (key a)).nodup⟩

theorem perm_emplace (h : s.find (key a) = none) : (s.emplace a).1.items.Perm (a :: s.items) := by
  rw [emplace, h]
  have hnew : ∀ b ∈ s.items, key b ≠ key a := find_eq_none.mp h
  apply (perm_ext_iff_of_nodup (s.put a).nodup _).mpr
  · intro b
    rw [mem_put, mem_cons]
    exact ⟨Or.imp_right And.left, Or.imp_right fun hb => ⟨hb, hnew b hb⟩⟩
  · exact nodup_cons.mpr ⟨fun hmem => hnew a hmem rfl, s.nodup⟩

section Sums

variable {G : Type*} [AddCommGroup G] {g : α → G}

def sum (s : FlatSet key) (g : α → G) : G := (s.items.map g).sum

def value (s : FlatSet key) (g : α → G) (k : κ) : G := (s.find k).elim 0 g

theorem value_some (h : s.find k = some a) : s.value g k = g a := by
  rw [value, h, Option.elim_some]

theorem value_none (h : s.find k = none) : s.value g k = 0 := by
  rw [value, h, Option.elim_none]


theorem sum_erase : (s.erase k).sum g = s.sum g - s.value g k := by
  rw [eq_sub_iff_add_eq, sum, sum, erase]
  have hperm := (filter_append_perm (fun b => decide (key b ≠ k)) s.items).map g
  rw [← hperm.sum_eq, map_append, sum_append]
  congr 1
  cases hfind : s.find k with
  | none =>
    have hnone : s.items.filter (fun b => !decide (key b ≠ k)) = [] := by
      apply List.filter_eq_nil_iff.mpr
      intro b hmem hkey
      have hb := find?_eq_none.mp hfind b hmem
      simp at hkey
      exact hb (decide_eq_true hkey)
    rw [value_none hfind, hnone]
    rfl
  | some a =>
    obtain ⟨hmem, hkey⟩ := find_eq_some.mp hfind
    have hone : s.items.filter (fun b => !decide (key b ≠ k)) = [a] := by
      apply List.perm_singleton.mp
      apply (perm_ext_iff_of_nodup (s.nodup.filter _) (nodup_singleton a)).mpr
      intro b
      rw [mem_filter, mem_singleton]
      constructor
      · rintro ⟨hb, hsame⟩
        simp at hsame
        exact eq_of_key hb hmem (hsame.trans hkey.symm)
      · rintro rfl
        exact ⟨hmem, by simp [hkey]⟩
    rw [value_some hfind, hone, map_singleton, sum_singleton]

theorem sum_put : (s.put a).sum g = s.sum g - s.value g (key a) + g a := by
  rw [← sum_erase, sum, sum, put, erase, map_append, sum_append, map_cons, sum_cons]
  have hsplit : (s.items.filter fun b => decide (key b ≠ key a)).Perm
      (s.items.filter (fun b => key b < key a) ++ s.items.filter (fun b => key a < key b)) := by
    have hsub : (s.items.filter (fun b => key b < key a) ++
        s.items.filter (fun b => key a < key b)).Sublist (s.put a).items :=
      List.Sublist.append (List.Sublist.refl _) (sublist_cons_self _ _)
    apply (perm_ext_iff_of_nodup (s.nodup.filter _) ((s.put a).nodup.sublist hsub)).mpr
    intro b
    simp only [mem_filter, mem_append, decide_eq_true_eq]
    constructor
    · rintro ⟨hmem, hne⟩
      exact (lt_or_gt_of_ne hne).imp (fun h => ⟨hmem, h⟩) fun h => ⟨hmem, h⟩
    · rintro (⟨hmem, hlt⟩ | ⟨hmem, hlt⟩)
      · exact ⟨hmem, hlt.ne⟩
      · exact ⟨hmem, hlt.ne'⟩
  rw [(hsplit.map g).sum_eq, map_append, sum_append, add_assoc, add_comm (g a)]

theorem sum_emplace (h : g a = 0) : (s.emplace a).1.sum g = s.sum g := by
  rw [emplace]
  cases hfind : s.find (key a) with
  | none =>
    rw [sum_put, value_none hfind, h]
    simp
  | some b => rfl

end Sums

end FlatSet

end LegionServer.Library
