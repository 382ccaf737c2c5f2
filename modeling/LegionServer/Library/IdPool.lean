import Mathlib.Data.List.Nodup
import Mathlib.Algebra.Group.Nat.Defs

/-!
# Identifiers that are given out again

A queue of identifiers that were given back and a maximum that shrinks where the maximum itself
comes back.
-/
namespace LegionServer.Library
open List

structure IdPool where
  /-- oldest first -/
  free : List UInt64
  max : UInt64
  deriving DecidableEq, Repr

namespace IdPool

def take (pool : IdPool) : UInt64 × IdPool :=
  match pool.free with
  | [] => (pool.max + 1, { pool with max := pool.max + 1 })
  | id :: free => (id, { pool with free })

def release (pool : IdPool) (id : UInt64) : IdPool :=
  if id = pool.max then { pool with max := pool.max - 1 }
  else { pool with free := pool.free ++ [id] }

/-- The identifiers from one up to the maximum that are not in use. -/
def unused (max : UInt64) (used : UInt64 → Bool) : List UInt64 :=
  ((List.range' 1 (max.toNat - 1)).map UInt64.ofNat).filter fun id => !used id

structure Valid (live : List UInt64) (pool : IdPool) : Prop where
  live_nodup : live.Nodup
  free_nodup : pool.free.Nodup
  apart : ∀ id ∈ live, id ∉ pool.free
  live_le : ∀ id ∈ live, id ≤ pool.max
  free_le : ∀ id ∈ pool.free, id ≤ pool.max

/-- The counter may run over only where nothing is live. -/
def Spare (live : List UInt64) (pool : IdPool) : Prop :=
  pool.free = [] → pool.max.toNat + 1 = 2 ^ 64 → live = []

variable {pool : IdPool} {live live' : List UInt64} {id : UInt64}

namespace Valid

theorem sublist (h : Valid live pool) (hsub : List.Sublist live' live) : Valid live' pool where
  live_nodup := h.live_nodup.sublist hsub
  free_nodup := h.free_nodup
  apart id hid := h.apart id (hsub.subset hid)
  live_le id hid := h.live_le id (hsub.subset hid)
  free_le := h.free_le

theorem perm (h : Valid live pool) (hperm : live.Perm live') : Valid live' pool where
  live_nodup := hperm.nodup_iff.mp h.live_nodup
  free_nodup := h.free_nodup
  apart id hid := h.apart id (hperm.mem_iff.mpr hid)
  live_le id hid := h.live_le id (hperm.mem_iff.mpr hid)
  free_le := h.free_le

theorem take (h : Valid live pool) (hspare : Spare live pool) :
    Valid (pool.take.1 :: live) pool.take.2 := by
  obtain ⟨free, max⟩ := pool
  cases free with
  | cons id free =>
    have hfree := nodup_cons.mp h.free_nodup
    refine ⟨nodup_cons.mpr ⟨fun hid => h.apart id hid mem_cons_self, h.live_nodup⟩,
      hfree.2, ?_, ?_, fun other hother => h.free_le other (mem_cons_of_mem _ hother)⟩
    · intro other hother hmem
      rcases mem_cons.mp hother with rfl | hlive
      · exact hfree.1 hmem
      · exact h.apart other hlive (mem_cons_of_mem _ hmem)
    · intro other hother
      rcases mem_cons.mp hother with rfl | hlive
      · exact h.free_le other mem_cons_self
      · exact h.live_le other hlive
  | nil =>
    by_cases hfull : max.toNat + 1 = 2 ^ 64
    · rw [hspare rfl hfull]
      exact ⟨nodup_singleton _, nodup_nil, fun _ _ => not_mem_nil,
        fun other hother => by rw [mem_singleton.mp hother]; exact UInt64.le_refl _, nofun⟩
    · have hmax : (max + 1).toNat = max.toNat + 1 := by
        have hlt := max.toNat_lt
        rw [UInt64.toNat_add]
        exact Nat.mod_eq_of_lt (by change _ + 1 < _; omega)
      have hlive : ∀ other ∈ live, other.toNat < (max + 1).toNat := fun other hother => by
        have hle := UInt64.le_iff_toNat_le.mp (h.live_le other hother)
        change other.toNat ≤ max.toNat at hle
        omega
      refine ⟨nodup_cons.mpr ⟨fun hid => Nat.lt_irrefl _ (hlive _ hid), h.live_nodup⟩,
        nodup_nil, fun _ _ => not_mem_nil, ?_, nofun⟩
      intro other hother
      rcases mem_cons.mp hother with rfl | hmem
      · exact UInt64.le_refl _
      · exact UInt64.le_iff_toNat_le.mpr (Nat.le_of_lt (hlive other hmem))

/-- Below the maximum is at most the maximum that is left after the maximum is gone. -/
theorem le_pred {max : UInt64} (hle : id ≤ max) (hne : id ≠ max) : id ≤ max - 1 := by
  rw [UInt64.le_iff_toNat_le] at hle ⊢
  rw [ne_eq, ← UInt64.toNat_inj] at hne
  rw [UInt64.toNat_sub_of_le _ _ (UInt64.le_iff_toNat_le.mpr (by change 1 ≤ _; omega))]
  change _ ≤ _ - 1
  omega

theorem release (h : Valid (id :: live) pool) : Valid live (pool.release id) := by
  have hlive := nodup_cons.mp h.live_nodup
  have hfree := h.apart id mem_cons_self
  have hapart : ∀ other ∈ live, other ∉ pool.free := fun other hother =>
    h.apart other (mem_cons_of_mem _ hother)
  have hle : ∀ other ∈ live, other ≤ pool.max := fun other hother =>
    h.live_le other (mem_cons_of_mem _ hother)
  rw [IdPool.release]
  split
  · rename_i hmax
    refine ⟨hlive.2, h.free_nodup, hapart, fun other hother => le_pred (hle other hother) ?_,
      fun other hother => le_pred (h.free_le other hother) ?_⟩
    · rw [← hmax]
      exact fun heq => hlive.1 (heq ▸ hother)
    · rw [← hmax]
      exact fun heq => hfree (heq ▸ hother)
  · refine ⟨hlive.2, ?_, ?_, hle, ?_⟩
    · rw [nodup_append]
      refine ⟨h.free_nodup, nodup_singleton id, fun a ha b hb => ?_⟩
      rw [mem_singleton.mp hb]
      exact fun heq => hfree (heq ▸ ha)
    · intro other hother hmem
      rcases mem_append.mp hmem with hmem | hmem
      · exact hapart other hother hmem
      · exact hlive.1 (mem_singleton.mp hmem ▸ hother)
    · intro other hother
      rcases mem_append.mp hother with hmem | hmem
      · exact h.free_le other hmem
      · exact mem_singleton.mp hmem ▸ h.live_le id mem_cons_self

/-- The pool of the unused identifiers up to the largest one in use. -/
theorem of_unused {max : UInt64} {used : UInt64 → Bool} (hlive : live.Nodup)
    (hle : ∀ id ∈ live, id ≤ max) (hused : ∀ id ∈ live, used id = true) :
    Valid live { free := unused max used, max } := by
  refine ⟨hlive, ?_, ?_, hle, ?_⟩
  · refine List.Nodup.filter _ (List.Nodup.map_on ?_ nodup_range')
    intro i hi j hj heq
    rw [mem_range'_1] at hi hj
    have hlt := max.toNat_lt
    rw [← UInt64.toNat_inj, UInt64.toNat_ofNat_of_lt' (by change i < 2 ^ 64; omega),
      UInt64.toNat_ofNat_of_lt' (by change j < 2 ^ 64; omega)] at heq
    exact heq
  · intro id hid hfree
    have hfree := (mem_filter.mp hfree).2
    rw [hused id hid] at hfree
    cases hfree
  · intro id hid
    obtain ⟨i, hi, rfl⟩ := mem_map.mp (mem_filter.mp hid).1
    rw [mem_range'_1] at hi
    have hlt := max.toNat_lt
    rw [UInt64.le_iff_toNat_le, UInt64.toNat_ofNat_of_lt' (by change i < 2 ^ 64; omega)]
    change i ≤ max.toNat
    omega

end Valid

end IdPool

end LegionServer.Library
