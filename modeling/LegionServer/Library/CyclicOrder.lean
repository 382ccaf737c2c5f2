import Mathlib.Data.List.Nodup
import Mathlib.Data.List.Count
import Mathlib.Data.Option.Basic
import Mathlib.Logic.Function.Iterate

/-!
# Turns in a cyclic order

The members of a list take turns: the next one is the first eligible member after the one
whose turn it was, around the end of the list.
-/
namespace LegionServer.Library
open List

variable {α : Type*} [DecidableEq α]

/-- The members from the one after `current` on, around the end; all of them in their order if
`current` is not one of them. -/
def cyclicAfter (l : List α) : Option α → List α
  | none => l
  | some current => l.drop (l.idxOf current + 1) ++ l.take (l.idxOf current + 1)

/-- The eligible members in the order of their next turns. -/
def turnOrder (eligible : α → Bool) (l : List α) (current : Option α) : List α :=
  (cyclicAfter l current).filter eligible

def nextTurn (eligible : α → Bool) (l : List α) (current : Option α) : Option α :=
  (cyclicAfter l current).find? eligible

def turns (eligible : α → Bool) (l : List α) : Nat → Option α → List (Option α)
  | 0, _ => []
  | n + 1, current =>
    nextTurn eligible l current :: turns eligible l n (nextTurn eligible l current)

section CyclicOrder

variable {eligible : α → Bool} {l a b : List α} {x : α} {current : Option α}

theorem cyclicAfter_of_not_mem (h : x ∉ l) : cyclicAfter l (some x) = l := by
  rw [cyclicAfter, idxOf_eq_length h, drop_of_length_le (Nat.le_succ _),
    take_of_length_le (Nat.le_succ _), nil_append]

theorem cyclicAfter_of_split (h : x ∉ a) : cyclicAfter (a ++ x :: b) (some x) = b ++ a ++ [x] := by
  have hindex : (a ++ x :: b).idxOf x = a.length := by
    rw [idxOf_append_of_notMem h, idxOf_cons_self, Nat.add_zero]
  have hsplit : a ++ x :: b = (a ++ [x]) ++ b := by
    rw [append_assoc]
    rfl
  have hlength : a.length + 1 = (a ++ [x]).length := by
    rw [length_append]
    rfl
  rw [cyclicAfter, hindex, hsplit, hlength, drop_left, take_left, append_assoc]

theorem perm_cyclicAfter (l : List α) (current : Option α) : (cyclicAfter l current).Perm l := by
  cases current with
  | none => exact List.Perm.refl l
  | some x =>
    exact perm_append_comm.trans (List.Perm.of_eq (take_append_drop _ l))

/-- The order after a turn is the order before it, from there on. -/
theorem cyclicAfter_next (hl : l.Nodup) (h : cyclicAfter l current = a ++ x :: b) :
    cyclicAfter l (some x) = b ++ a ++ [x] := by
  have hnodup : (a ++ x :: b).Nodup := h ▸ (perm_cyclicAfter l current).nodup_iff.mpr hl
  have hbefore : x ∉ a := fun hmem => (nodup_append.mp hnodup).2.2 x hmem x mem_cons_self rfl
  have hafter : x ∉ b := (nodup_cons.mp (nodup_append.mp hnodup).2.1).1
  obtain ⟨front, back, rfl, hcyclic⟩ : ∃ front back, l = front ++ back ∧
      cyclicAfter l current = back ++ front := by
    cases current with
    | none => exact ⟨[], l, rfl, (append_nil l).symm⟩
    | some y => exact ⟨_, _, (take_append_drop _ l).symm, rfl⟩
  rw [hcyclic] at h
  rcases append_eq_append_iff.mp h with ⟨rest, rfl, hfront⟩ | ⟨rest, rfl, hback⟩
  · -- the next one is before the current one in the list
    rw [hfront, append_assoc, cons_append,
      cyclicAfter_of_split fun hmem => hbefore (mem_append_right _ hmem)]
    simp only [append_assoc]
  · rcases rest with - | ⟨y, rest⟩
    · obtain rfl : front = x :: b := hback.symm
      rw [cons_append, ← nil_append (x :: _), cyclicAfter_of_split not_mem_nil]
      simp
    · obtain ⟨rfl, rfl⟩ := cons.inj hback
      rw [← append_assoc, cyclicAfter_of_split]
      · simp
      · intro hmem
        rcases mem_append.mp hmem with hmem | hmem
        · exact hafter (mem_append_right _ hmem)
        · exact hbefore hmem

theorem nextTurn_eq_head? (eligible : α → Bool) (l : List α) (current : Option α) :
    nextTurn eligible l current = (turnOrder eligible l current).head? :=
  List.head?_filter.symm

/-- Who had the turn is the last one in the order after it. -/
theorem turnOrder_next (hl : l.Nodup) (h : turnOrder eligible l current = x :: b) :
    turnOrder eligible l (some x) = b ++ [x] := by
  obtain ⟨front, back, hcyclic, hfront, heligible, rfl⟩ := filter_eq_cons_iff.mp h
  have hnone : front.filter eligible = [] :=
    filter_eq_nil_iff.mpr fun y hy => hfront y hy
  rw [turnOrder, cyclicAfter_next hl hcyclic, filter_append, filter_append, hnone,
    append_nil, filter_singleton, heligible]
  rfl

theorem turns_add (m n : Nat) (current : Option α) :
    turns eligible l (m + n) current =
      turns eligible l m current ++ turns eligible l n ((nextTurn eligible l)^[m] current) := by
  induction m generalizing current with
  | zero =>
    rw [Nat.zero_add]
    rfl
  | succ m ih =>
    rw [Nat.succ_add, turns, ih, turns, cons_append, Function.iterate_succ_apply]

/-- The first ones of the order have their turns and are its last ones then. -/
theorem turns_of_order (hl : l.Nodup) (h : turnOrder eligible l current = a ++ b) :
    turns eligible l a.length current = a.map some ∧
      turnOrder eligible l ((nextTurn eligible l)^[a.length] current) = b ++ a := by
  induction a generalizing current b with
  | nil => exact ⟨rfl, by rw [append_nil]; exact h⟩
  | cons x a ih =>
    have hnext : nextTurn eligible l current = some x := by
      rw [nextTurn_eq_head?, h]
      rfl
    have horder : turnOrder eligible l (some x) = a ++ (b ++ [x]) := by
      rw [← append_assoc]
      exact turnOrder_next hl h
    obtain ⟨hturns, hafter⟩ := ih horder
    rw [length_cons, turns, Function.iterate_succ_apply, hnext]
    refine ⟨by rw [hturns, map_cons], ?_⟩
    rw [hafter, append_assoc]
    rfl

/-- In `k` rounds every eligible member has its turn once a round, in the same order. -/
theorem turns_rounds (hl : l.Nodup) (k : Nat) (current : Option α) :
    turns eligible l (k * (turnOrder eligible l current).length) current =
      (List.replicate k ((turnOrder eligible l current).map some)).flatten := by
  generalize horder : turnOrder eligible l current = order
  induction k generalizing current with
  | zero =>
    rw [Nat.zero_mul]
    rfl
  | succ k ih =>
    obtain ⟨hround, hafter⟩ := turns_of_order hl (horder.trans (append_nil order).symm)
    rw [Nat.succ_mul, Nat.add_comm, turns_add, hround, ih _ hafter, replicate_succ, flatten_cons]

theorem mem_turnOrder : x ∈ turnOrder eligible l current ↔ x ∈ l ∧ eligible x = true := by
  rw [turnOrder, mem_filter, (perm_cyclicAfter l current).mem_iff]

theorem perm_turnOrder (eligible : α → Bool) (l : List α) (current : Option α) :
    (turnOrder eligible l current).Perm (l.filter eligible) :=
  (perm_cyclicAfter l current).filter eligible

/-- So every eligible member has `k` turns in `k` rounds. -/
theorem count_turns_rounds (hl : l.Nodup) (k : Nat) (current : Option α) (hx : x ∈ l)
    (heligible : eligible x = true) :
    (turns eligible l (k * (turnOrder eligible l current).length) current).count (some x) = k := by
  have hnodup : (turnOrder eligible l current).Nodup :=
    (perm_turnOrder eligible l current).nodup_iff.mpr (hl.filter _)
  have honce : ((turnOrder eligible l current).map some).count (some x) = 1 := by
    rw [count_map_of_injective _ _ (Option.some_injective α)]
    exact count_eq_one_of_mem hnodup (mem_turnOrder.mpr ⟨hx, heligible⟩)
  rw [turns_rounds hl, count_flatten, map_replicate, honce, sum_replicate_nat, Nat.mul_one]

end CyclicOrder

end LegionServer.Library
