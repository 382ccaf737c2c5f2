import Mathlib.Data.List.Perm.Basic
import Mathlib.Data.List.Nodup

/-!
# The contents of finitely many slots

A store of values in slots, listed over a duplicate-free list of slots. Writing
one slot changes the listing by one value, up to the order.
-/
namespace LegionServer.Library
open Function List

variable {K V : Type*}

def contents (slots : List K) (store : K → Option V) : List V := slots.filterMap store

variable {slots : List K} {store : K → Option V} {k : K} {v w : V}

theorem mem_contents (hk : k ∈ slots) (hv : store k = some v) : v ∈ contents slots store :=
  List.mem_filterMap.mpr ⟨k, hk, hv⟩

variable [DecidableEq K]

section
variable (hnodup : slots.Nodup) (hk : k ∈ slots)
include hnodup hk

/-- Filling an empty slot. -/
theorem contents_put (hempty : store k = none) :
    (contents slots (Function.update store k (some v))).Perm (v :: contents slots store) := by
  have hslots := perm_cons_erase hk
  have hrest : (slots.erase k).filterMap (Function.update store k (some v)) =
      (slots.erase k).filterMap store := by
    apply filterMap_congr
    intro j hj
    exact update_of_ne (hnodup.mem_erase_iff.mp hj).1 _ _
  refine (hslots.filterMap _).trans ?_
  simp only [filterMap_cons, update_self, hrest]
  refine .cons v ?_
  have hback := hslots.symm.filterMap store
  rw [filterMap_cons, hempty] at hback
  exact hback

/-- Emptying a filled slot. -/
theorem contents_take (hfull : store k = some v) :
    (contents slots store).Perm (v :: contents slots (Function.update store k none)) := by
  have hput := contents_put (v := v) hnodup hk (update_self k none store)
  rw [update_idem, ← hfull, update_eq_self] at hput
  exact hput

/-- Replacing the value of a filled slot. -/
theorem contents_replace :
    (contents slots (Function.update store k (some w))).Perm
      (w :: contents slots (Function.update store k none)) := by
  have hput := contents_put (v := w) hnodup hk (update_self k none store)
  rw [update_idem] at hput
  exact hput

end

end LegionServer.Library
