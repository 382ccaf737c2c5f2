import Mathlib.Data.List.MinMax
import Mathlib.Data.List.Sort

/-!
# Priority queues with changing keys

An interface for queues whose elements are handles: the keys live elsewhere and may
change, and the queue has to be told whether a key went up or down.
-/
open List
namespace LegionServer.Library

variable {α K H : Type*}

structure PriorityQueue (α K H : Type*) where
  empty : H
  push : (α → K) → H → α → H
  increase : (α → K) → H → α → H
  decrease : (α → K) → H → α → H
  erase : (α → K) → H → α → H
  top : H → Option α
  elements : H → List α
  ordered : (α → K) → H → List α

namespace PriorityQueue

structure Contents [DecidableEq α] (q : PriorityQueue α K H) : Prop where
  elements_empty : q.elements q.empty = []
  elements_push : ∀ key h x, (q.elements (q.push key h x)).Perm (x :: q.elements h)
  elements_increase : ∀ key h x, (q.elements (q.increase key h x)).Perm (q.elements h)
  elements_decrease : ∀ key h x, (q.elements (q.decrease key h x)).Perm (q.elements h)
  elements_erase : ∀ key h x, (q.elements (q.erase key h x)).Perm ((q.elements h).erase x)
  ordered_perm : ∀ key h, (q.ordered key h).Perm (q.elements h)
  top_none : ∀ h, q.top h = none ↔ q.elements h = []
  top_mem : ∀ h x, q.top h = some x → x ∈ q.elements h

/-- When the queue is well formed for the keys, and that it stays so as long as
it is told the truth. -/
structure Orders [LinearOrder K] (q : PriorityQueue α K H) where
  WellFormed : (α → K) → H → Prop
  empty : ∀ key, WellFormed key q.empty
  congr : ∀ {key key' h}, WellFormed key h → (∀ x ∈ q.elements h, key' x = key x) →
    WellFormed key' h
  push : ∀ {key h x}, WellFormed key h → WellFormed key (q.push key h x)
  erase : ∀ {key h x}, WellFormed key h → WellFormed key (q.erase key h x)
  increase : ∀ {key key' h x}, WellFormed key h → x ∈ q.elements h →
    (∀ y ∈ q.elements h, y ≠ x → key' y = key y) → key x ≤ key' x →
    WellFormed key' (q.increase key' h x)
  decrease : ∀ {key key' h x}, WellFormed key h → x ∈ q.elements h →
    (∀ y ∈ q.elements h, y ≠ x → key' y = key y) → key' x ≤ key x →
    WellFormed key' (q.decrease key' h x)
  top_max : ∀ {key h x y}, WellFormed key h → q.top h = some x → y ∈ q.elements h → key y ≤ key x

/-- What is erased is not compared: its key may have changed without a word. -/
def Orders.Forgets [LinearOrder K] {q : PriorityQueue α K H} (orders : q.Orders) : Prop :=
  ∀ {key key' h x}, orders.WellFormed key h → (∀ y ∈ q.elements h, y ≠ x → key' y = key y) →
    orders.WellFormed key' (q.erase key' h x)

/-- The traversal in order goes from the greatest to the least. -/
def Orders.Sorts [LinearOrder K] {q : PriorityQueue α K H} (orders : q.Orders) : Prop :=
  ∀ {key h}, orders.WellFormed key h → (q.ordered key h).Pairwise fun x y => key y ≤ key x

end PriorityQueue

section lists

variable [DecidableEq α] [LinearOrder K]

/-- A first greatest element moves to the front. -/
def settle (key : α → K) (l : List α) : List α :=
  match l.argmax key with
  | none => []
  | some x => x :: l.erase x

theorem settle_perm (key : α → K) (l : List α) : (settle key l).Perm l := by
  unfold settle
  cases h : l.argmax key with
  | none => rw [List.argmax_eq_none.mp h]
  | some x => exact (perm_cons_erase (argmax_mem h)).symm

/-- A list as a queue: the top is the head, which is kept greatest. -/
def listQueue : PriorityQueue α K (List α) where
  empty := []
  push key l x := settle key (x :: l)
  increase key l _ := settle key l
  decrease key l _ := settle key l
  erase key l x := settle key (l.erase x)
  top := List.head?
  elements l := l
  ordered key l := l.insertionSort fun x y => key y ≤ key x

theorem listQueue_contents : (listQueue : PriorityQueue α K (List α)).Contents where
  elements_empty := rfl
  elements_push key l x := settle_perm key (x :: l)
  elements_increase key l _ := settle_perm key l
  elements_decrease key l _ := settle_perm key l
  elements_erase key l x := settle_perm key (l.erase x)
  ordered_perm _ l := perm_insertionSort _ l
  top_none _ := head?_eq_none_iff
  top_mem _ _ h := mem_of_mem_head? h

theorem settle_greatest {key : α → K} {l : List α} {x y : α} (hx : (settle key l).head? = some x)
    (hy : y ∈ l) : key y ≤ key x := by
  unfold settle at hx
  cases h : l.argmax key with
  | none =>
    rw [h] at hx
    cases hx
  | some m =>
    rw [h] at hx
    cases hx
    exact le_of_mem_argmax hy h

def listQueue_orders : (listQueue : PriorityQueue α K (List α)).Orders where
  WellFormed key l := ∀ x y, l.head? = some x → y ∈ l → key y ≤ key x
  empty _ x y hx := by cases hx
  congr h hkey x y hx hy := by
    rw [hkey y hy, hkey x (mem_of_mem_head? hx)]
    exact h x y hx hy
  push _ x y hx hy := settle_greatest hx ((settle_perm _ _).mem_iff.mp hy)
  erase _ x y hx hy := settle_greatest hx ((settle_perm _ _).mem_iff.mp hy)
  increase _ _ _ _ x y hx hy := settle_greatest hx ((settle_perm _ _).mem_iff.mp hy)
  decrease _ _ _ _ x y hx hy := settle_greatest hx ((settle_perm _ _).mem_iff.mp hy)
  top_max h hx hy := h _ _ hx hy

theorem listQueue_forgets :
    (listQueue_orders : (listQueue : PriorityQueue α K (List α)).Orders).Forgets :=
  fun _ _ _ _ hx hy => settle_greatest hx ((settle_perm _ _).mem_iff.mp hy)

theorem listQueue_sorts :
    (listQueue_orders : (listQueue : PriorityQueue α K (List α)).Orders).Sorts := by
  intro key l _
  exact pairwise_insertionSort _ l

end lists

end LegionServer.Library

/-!
# Queues in the order of a key

A new element goes behind all elements with the same key, as in `std::multimap` and
`std::multiset`.
-/
namespace LegionServer.Library.StableQueue

variable {α κ : Type*} [LinearOrder κ] {key key' : α → κ} {x y : α} {l cache : List α}

def push (key : α → κ) (x : α) (l : List α) : List α :=
  l.orderedInsert (fun x y => key x < key y) x

/-- `merge`: the elements of the other container move over one by one. -/
def merge (key : α → κ) (cache l : List α) : List α := cache.foldl (fun l x => push key x l) l

def Ordered (key : α → κ) (l : List α) : Prop := l.Pairwise fun x y => key x ≤ key y

@[simp] theorem push_nil : push key x [] = [x] := rfl

theorem push_cons :
    push key x (y :: l) = if key x < key y then x :: y :: l else y :: push key x l :=
  orderedInsert_cons ..

theorem push_perm (key : α → κ) (x : α) (l : List α) : (push key x l).Perm (x :: l) :=
  perm_orderedInsert _ x l

@[simp] theorem mem_push : y ∈ push key x l ↔ y = x ∨ y ∈ l := mem_orderedInsert _

theorem Ordered.push (h : Ordered key l) : Ordered key (push key x l) := by
  induction l with
  | nil => exact pairwise_singleton _ _
  | cons y l ih =>
    obtain ⟨hy, hl⟩ := pairwise_cons.mp h
    rw [push_cons]
    split
    case isTrue hlt =>
      refine pairwise_cons.mpr ⟨fun z hz => ?_, h⟩
      rcases mem_cons.mp hz with rfl | hz
      · exact hlt.le
      · exact hlt.le.trans (hy z hz)
    case isFalse hge =>
      refine pairwise_cons.mpr ⟨fun z hz => ?_, ih hl⟩
      rcases mem_push.mp hz with rfl | hz
      · exact not_lt.mp hge
      · exact hy z hz

theorem Ordered.merge (h : Ordered key l) : Ordered key (merge key cache l) := by
  induction cache generalizing l with
  | nil => exact h
  | cons x cache ih => exact ih h.push

theorem merge_perm (key : α → κ) (cache l : List α) : (merge key cache l).Perm (cache ++ l) := by
  induction cache generalizing l with
  | nil => exact .refl _
  | cons x cache ih => exact (ih _).trans (((push_perm key x l).append_left cache).trans perm_middle)

@[simp] theorem mem_merge : y ∈ merge key cache l ↔ y ∈ cache ∨ y ∈ l := by
  rw [(merge_perm key cache l).mem_iff, mem_append]

theorem Ordered.head_le (h : Ordered key (x :: l)) (hy : y ∈ l) : key x ≤ key y :=
  (pairwise_cons.mp h).1 y hy

theorem Ordered.sublist (h : Ordered key l) (hsub : cache.Sublist l) : Ordered key cache :=
  List.Pairwise.sublist hsub h

end LegionServer.Library.StableQueue
