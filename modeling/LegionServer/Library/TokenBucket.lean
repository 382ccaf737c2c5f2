import Mathlib.Data.List.Basic
import Mathlib.Data.List.Pairwise
import Mathlib.Tactic.Linarith

/-!
# Token buckets

A bucket of `m` tokens, one of which is refilled at a time and takes the time `r`.
-/
namespace LegionServer.Library
open List

/-- When a token is spent, and when its refill starts. -/
structure Spent where
  time : Int
  refill : Int

structure Spent.Follows (m : Nat) (r : Int) (spent : Spent) (older : List Spent) : Prop where
  prompt : spent.time ≤ spent.refill
  after : ∀ old ∈ older, old.refill + r ≤ spent.refill
  back : ∀ old ∈ older.drop (m - 1), old.refill + r ≤ spent.time

def Metered (m : Nat) (r : Int) : List Spent → Prop
  | [] => True
  | spent :: older => spent.Follows m r older ∧ Metered m r older

namespace Metered

variable {m : Nat} {r : Int} {log older : List Spent} {spent : Spent}

theorem cons (hspent : spent.Follows m r older) (h : Metered m r older) :
    Metered m r (spent :: older) := ⟨hspent, h⟩

/-- Part of a log is metered as well. -/
theorem sublist (h : Metered m r log) (hsub : older.Sublist log) : Metered m r older := by
  induction hsub with
  | slnil => trivial
  | cons spent _ ih => exact ih h.2
  | cons_cons spent hsub ih =>
    obtain ⟨⟨prompt, after, back⟩, hrest⟩ := h
    refine ⟨⟨prompt, fun old hold => after old (hsub.subset hold), fun old hold => ?_⟩, ih hrest⟩
    exact back old ((hsub.drop (m - 1)).subset hold)

theorem prompt (h : Metered m r log) : ∀ spent ∈ log, spent.time ≤ spent.refill := by
  induction log with
  | nil => simp
  | cons spent older ih =>
    intro s hs
    rcases List.mem_cons.mp hs with rfl | holder
    · exact h.1.prompt
    · exact ih h.2 s holder

/-- The refills of a log follow each other, so they take their time. -/
theorem length_mul_le (h : Metered m r log) {first last : Int} (hle : first ≤ last)
    (hfirst : ∀ spent ∈ log, first ≤ spent.refill)
    (hlast : ∀ spent ∈ log, spent.refill + r ≤ last) : log.length * r ≤ last - first := by
  induction log generalizing last with
  | nil => simpa using hle
  | cons spent older ih =>
    have hspent := hlast spent mem_cons_self
    have hstart := hfirst spent mem_cons_self
    have holder := ih h.2 hstart (fun old hold => hfirst old (mem_cons_of_mem _ hold)) h.1.after
    rw [length_cons, Nat.cast_succ, add_mul, one_mul]
    linarith

/-- At most this many tokens are spent in a window. -/
theorem window (h : Metered m r log) (hm : 0 < m) (hr : 0 < r) (first last : Int)
    (hfirst : ∀ spent ∈ log, first ≤ spent.time) (hlast : ∀ spent ∈ log, spent.time ≤ last)
    (hle : first ≤ last) : (log.length : Int) ≤ m + (last - first) / r := by
  have hpos : 0 ≤ (last - first) / r := Int.ediv_nonneg (by linarith) hr.le
  cases log with
  | nil =>
    simp only [length_nil]
    omega
  | cons spent older =>
    have hrefill : ∀ old ∈ older, first ≤ old.refill := by
      intro old hold
      have hmem := mem_cons_of_mem spent hold
      exact (hfirst old hmem).trans (h.prompt old hmem)
    have hback : ∀ old ∈ older.drop (m - 1), old.refill + r ≤ last :=
      fun old hold => (h.1.back old hold).trans (hlast spent mem_cons_self)
    have hlength := length_mul_le (h.2.sublist (drop_sublist (m - 1) older)) hle
      (fun old hold => hrefill old (mem_of_mem_drop hold)) hback
    have hrounds := (Int.le_ediv_iff_mul_le hr).mpr hlength
    rw [length_drop] at hrounds
    rw [length_cons]
    omega

end Metered

end LegionServer.Library
