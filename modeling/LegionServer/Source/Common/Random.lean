import Mathlib.Algebra.Group.Nat.Defs
import Mathlib.Algebra.Order.Ring.Unbundled.Rat
import Mathlib.Data.List.Basic

/-!
# Random draws and `RandomResize`

`urand`, `rand_chance` (`Random.cpp:43-86`) and both overloads of
`Trinity::Containers::RandomResize` (`Containers.h:64-102`), with the two iterators as places in
one container. A generator is two streams of outcomes and the number of draws made; a result for
every generator is a result for every random outcome.
-/
namespace LegionServer.Source.Common

structure Rng where
  chance : Nat → ℚ
  int : Nat → Nat
  drawn : Nat := 0

def Rng.next (rng : Rng) : Rng := { rng with drawn := rng.drawn + 1 }

/-- `rand_chance`: the range [0, 100) is not used by any result. -/
def Rng.randChance (rng : Rng) : ℚ × Rng := (rng.chance rng.drawn, rng.next)

/-- `urand(min, max)`, inclusive on both sides. -/
def Rng.urand (rng : Rng) (min max : Nat) : Nat × Rng :=
  (min + rng.int rng.drawn % (max - min + 1), rng.next)

theorem Rng.urand_mem (rng : Rng) (min max : Nat) (h : min ≤ max) :
    min ≤ (rng.urand min max).1 ∧ (rng.urand min max).1 ≤ max := by
  have hmod : rng.int rng.drawn % (max - min + 1) < max - min + 1 := Nat.mod_lt _ (by omega)
  simp only [Rng.urand]
  omega

variable {α : Type*}

/-- The `while` of `RandomResize`: each of the remaining elements is kept with
chance `elementsToKeep / elementsToProcess`. -/
def randomKeep : List α → Nat → Rng → List α × Rng
  | [], _, rng => ([], rng)
  | x :: rest, elementsToKeep, rng =>
    let (draw, rng) := rng.urand 1 (rest.length + 1)
    if draw ≤ elementsToKeep then
      let (kept, rng) := randomKeep rest (elementsToKeep - 1) rng
      (x :: kept, rng)
    else randomKeep rest elementsToKeep rng

def randomResize (container : List α) (requestedSize : Nat) (rng : Rng) : List α × Rng :=
  if container.length ≤ requestedSize then (container, rng)
  else randomKeep container requestedSize rng

theorem randomKeep_sublist : ∀ (l : List α) (keep : Nat) (rng : Rng),
    (randomKeep l keep rng).1.Sublist l
  | [], _, _ => List.Sublist.refl _
  | x :: rest, keep, rng => by
    unfold randomKeep
    dsimp only
    split
    · exact (randomKeep_sublist rest (keep - 1) _).cons_cons x
    · exact (randomKeep_sublist rest keep _).cons x

/-- The chance reaches one when the rest must be kept whole, so the requested
number is met exactly. -/
theorem randomKeep_length : ∀ (l : List α) (keep : Nat) (rng : Rng), keep ≤ l.length →
    (randomKeep l keep rng).1.length = keep
  | [], keep, _, h => by
    simp only [List.length_nil, Nat.le_zero] at h
    simp [randomKeep, h]
  | x :: rest, keep, rng, h => by
    have hdraw := rng.urand_mem 1 (rest.length + 1) (by omega)
    simp only [List.length_cons] at h
    unfold randomKeep
    dsimp only
    split
    · rename_i hkeep
      simp only [List.length_cons, randomKeep_length rest (keep - 1) _ (by omega)]
      omega
    · exact randomKeep_length rest keep _ (by omega)

theorem randomResize_sublist (l : List α) (size : Nat) (rng : Rng) :
    (randomResize l size rng).1.Sublist l := by
  unfold randomResize
  split
  · exact List.Sublist.refl l
  · exact randomKeep_sublist l size rng

theorem randomResize_length (l : List α) (size : Nat) (rng : Rng) :
    (randomResize l size rng).1.length = min l.length size := by
  unfold randomResize
  split
  · rename_i h
    exact (Nat.min_eq_left h).symm
  · rename_i h
    rw [randomKeep_length l size rng (by omega)]
    omega

section

/-- The variables of the `while`, but for `elementsToProcess`. -/
structure Resizing (α : Type*) where
  container : List α
  keepIt : Nat
  curIt : Nat
  elementsToKeep : UInt32
  rng : Rng

variable (leave : α → α)

/-- `*keepIt = std::move(*curIt)`; `leave` is what a moved element becomes. -/
def Resizing.keep (s : Resizing α) : Resizing α :=
  let container := match s.container[s.curIt]? with
    | some x =>
      if s.keepIt ≠ s.curIt then (s.container.set s.keepIt x).set s.curIt (leave x)
      else s.container
    | none => s.container
  { s with container, keepIt := s.keepIt + 1, elementsToKeep := s.elementsToKeep - 1 }

def Resizing.pass (elementsToProcess : Nat) (s : Resizing α) : Resizing α :=
  let (draw, rng) := s.rng.urand 1 elementsToProcess
  let s := { s with rng }
  let s := if draw ≤ s.elementsToKeep.toNat then s.keep leave else s
  { s with curIt := s.curIt + 1 }

variable (container : List α) (requestedSize : Nat) (rng : Rng)

/-- `uint32(std::ranges::size(container))`. -/
def toProcess : Nat := container.length % 2 ^ 32

/-- The loop after `passes` of its passes: each takes one off `elementsToProcess`. -/
def resizing : Nat → Resizing α
  | 0 => ⟨container, 0, 0, UInt32.ofNat requestedSize, rng⟩
  | passes + 1 => (resizing passes).pass leave (toProcess container - passes)

/-- `RandomResize(container, requestedSize)`: the `while` ends at zero left, and
`erase` takes everything from `keepIt` on. -/
def resizeContainer : List α × Rng :=
  if toProcess container ≤ requestedSize then (container, rng)
  else
    let s := resizing leave container requestedSize rng (toProcess container)
    (s.container.take s.keepIt, s.rng)

/-- `RandomResize(container, predicate, requestedSize)`. -/
def resizeFiltered (predicate : α → Bool) : List α × Rng :=
  let containerCopy := container.filter predicate
  if requestedSize ≠ 0 then resizeContainer leave containerCopy requestedSize rng
  else (containerCopy, rng)

end

end LegionServer.Source.Common
