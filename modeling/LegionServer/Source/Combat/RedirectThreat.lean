import Mathlib.Data.List.AList
import Mathlib.Algebra.BigOperators.Group.List.Basic
import Mathlib.Algebra.Ring.Nat
import LegionServer.Library.Outcome

/-!
# Threat redirection

The registry of redirection effects of a unit, and the list of targets and percentages
that is made of it (`ThreatManager.cpp:783-809`, `896-913`).
-/
namespace LegionServer.Source.Combat
open Library List

variable {U : Type*} [DecidableEq U]

/-- A victim and its percentage; a unit stands for its guid. -/
abbrev VictimMap (U : Type*) := AList fun _ : U => UInt32

abbrev RedirectRegistry (U : Type*) := AList fun _ : Nat => VictimMap U

/-- The orders in which the two `unordered_map`s are traversed. -/
structure RegistryOrder (U : Type*) where
  spells : List (Σ _ : Nat, VictimMap U) → List (Σ _ : Nat, VictimMap U)
  spells_perm : ∀ l, (spells l).Perm l
  victims : List (Σ _ : U, UInt32) → List (Σ _ : U, UInt32)
  victims_perm : ∀ l, (victims l).Perm l

structure Redirects (U : Type*) where
  redirectRegistry : RedirectRegistry U := ∅
  redirectInfo : List (U × UInt32) := []

inductive RedirectFault where
  /-- `ASSERT(totalPct <= 100)`. -/
  | overRedirected

namespace Redirects

/-- The loop of `UpdateRedirectInfo` over what the two maps hold. -/
def fillRedirectInfo : List (U × UInt32) → UInt32 → List (U × UInt32) →
    Except RedirectFault (List (U × UInt32))
  | [], _, redirectInfo => .ok redirectInfo
  | (victim, pct) :: rest, totalPct, redirectInfo =>
    let thisPct := min (100 - totalPct) pct
    if 0 < thisPct then
      if totalPct + thisPct ≤ 100 then
        if totalPct + thisPct = 100 then .ok (redirectInfo ++ [(victim, thisPct)])
        else fillRedirectInfo rest (totalPct + thisPct) (redirectInfo ++ [(victim, thisPct)])
      else .error .overRedirected
    else fillRedirectInfo rest totalPct redirectInfo

variable (order : RegistryOrder U)

/-- The registered percentages, as the loops come to them. -/
def traversed (registry : RedirectRegistry U) : List (U × UInt32) :=
  (order.spells registry.entries).flatMap fun spell =>
    (order.victims spell.2.entries).map fun victim => (victim.1, victim.2)

def updateRedirectInfo (s : Redirects U) :
    Except RedirectFault (Redirects U) := do
  let redirectInfo ← fillRedirectInfo (traversed order s.redirectRegistry) 0 []
  .ok { s with redirectInfo }

def registerRedirectThreat (s : Redirects U) (spellId : Nat) (victim : U) (pct : UInt32) :
    Except RedirectFault (Redirects U) :=
  let victimMap := (s.redirectRegistry.lookup spellId).getD ∅
  updateRedirectInfo order
    { s with
      redirectRegistry := s.redirectRegistry.insert spellId (victimMap.insert victim pct) }

def unregisterRedirectThreat (s : Redirects U) (spellId : Nat) :
    Except RedirectFault (Redirects U) :=
  match s.redirectRegistry.lookup spellId with
  | none => .ok s
  | some _ =>
    updateRedirectInfo order { s with redirectRegistry := s.redirectRegistry.erase spellId }

/-- `UnregisterRedirectThreat` for one victim of the spell. -/
def unregisterRedirectThreatOf (s : Redirects U) (spellId : Nat) (victim : U) :
    Except RedirectFault (Redirects U) :=
  match s.redirectRegistry.lookup spellId with
  | none => .ok s
  | some victimMap =>
    match victimMap.lookup victim with
    | none => .ok s
    | some _ =>
      updateRedirectInfo order
        { s with
          redirectRegistry := s.redirectRegistry.insert spellId (victimMap.erase victim) }

end Redirects

inductive RedirectCall (U : Type*) where
  | registerRedirectThreat (spellId : Nat) (victim : U) (pct : UInt32)
  | unregisterRedirectThreat (spellId : Nat)
  | unregisterRedirectThreatOf (spellId : Nat) (victim : U)

namespace Redirects

def call (order : RegistryOrder U) (s : Redirects U) :
    RedirectCall U → Except RedirectFault (Redirects U)
  | .registerRedirectThreat spellId victim pct => s.registerRedirectThreat order spellId victim pct
  | .unregisterRedirectThreat spellId => s.unregisterRedirectThreat order spellId
  | .unregisterRedirectThreatOf spellId victim => s.unregisterRedirectThreatOf order spellId victim

/-- The states that calls lead to, whatever the orders of the maps. -/
inductive Reachable : Redirects U → Prop
  | new : Reachable {}
  | call {s s' : Redirects U} {order : RegistryOrder U} {c : RedirectCall U} :
      Reachable s → s.call order c = .ok s' → Reachable s'

def registeredPct (registry : RedirectRegistry U) : Nat :=
  (registry.entries.map fun spell => (spell.2.entries.map fun victim => victim.2.toNat).sum).sum

def totalPct (l : List (U × UInt32)) : Nat := (l.map fun redirect => redirect.2.toNat).sum

section

omit [DecidableEq U]

@[simp] theorem totalPct_nil : totalPct ([] : List (U × UInt32)) = 0 := rfl

@[simp] theorem totalPct_cons (redirect : U × UInt32) (l : List (U × UInt32)) :
    totalPct (redirect :: l) = redirect.2.toNat + totalPct l := rfl

@[simp] theorem totalPct_append (l l' : List (U × UInt32)) :
    totalPct (l ++ l') = totalPct l + totalPct l' := by
  simp [totalPct]

/-- The order of the maps does not matter for the sum. -/
theorem totalPct_traversed (order : RegistryOrder U) (registry : RedirectRegistry U) :
    totalPct (traversed order registry) = registeredPct registry := by
  have hinner : ∀ spell : Σ _ : Nat, VictimMap U,
      totalPct ((order.victims spell.2.entries).map fun victim => (victim.1, victim.2)) =
        (spell.2.entries.map fun victim => victim.2.toNat).sum := by
    intro spell
    rw [totalPct, map_map]
    exact ((order.victims_perm _).map _).sum_eq
  have hflat : ∀ l : List (Σ _ : Nat, VictimMap U), totalPct (l.flatMap fun spell =>
        (order.victims spell.2.entries).map fun victim => (victim.1, victim.2)) =
        (l.map fun spell => (spell.2.entries.map fun victim => victim.2.toNat).sum).sum := by
    intro l
    induction l with
    | nil => rfl
    | cons spell l ih =>
      rw [flatMap_cons, totalPct_append, hinner, ih, map_cons, sum_cons]
  rw [traversed, hflat]
  exact ((order.spells_perm _).map _).sum_eq

theorem toNat_min (a b : UInt32) : (min a b).toNat = min a.toNat b.toNat := by
  have hmin : min a b = if a ≤ b then a else b := rfl
  rw [hmin]
  split
  case isTrue h => exact (Nat.min_eq_left (UInt32.le_iff_toNat_le.mp h)).symm
  case isFalse h =>
    have hle : ¬a.toNat ≤ b.toNat := mt UInt32.le_iff_toNat_le.mpr h
    omega

theorem fillRedirectInfo_ends (l : List (U × UInt32)) {total : UInt32} (htotal : total ≤ 100)
    (redirectInfo : List (U × UInt32)) :
    Ends (fun _ => False) (fillRedirectInfo l total redirectInfo) fun result =>
      ∃ added, result = redirectInfo ++ added ∧ (∀ redirect ∈ added, 0 < redirect.2) ∧
        totalPct added = min (100 - total.toNat) (totalPct l) := by
  have hle : total.toNat ≤ 100 := UInt32.le_iff_toNat_le.mp htotal
  induction l generalizing total redirectInfo with
  | nil => exact ⟨[], (append_nil _).symm, nofun, by simp⟩
  | cons redirect l ih =>
    obtain ⟨victim, pct⟩ := redirect
    have hleft : (100 - total).toNat = 100 - total.toNat := UInt32.toNat_sub_of_le _ _ htotal
    have hthis : (min (100 - total) pct).toNat = min (100 - total.toNat) pct.toNat := by
      rw [toNat_min, hleft]
    have hsum : (total + min (100 - total) pct).toNat =
        total.toNat + min (100 - total.toNat) pct.toNat := by
      rw [UInt32.toNat_add, hthis]
      exact Nat.mod_eq_of_lt (by omega)
    rw [fillRedirectInfo, totalPct_cons]
    split
    case isTrue hpos =>
      have hpos' : 0 < min (100 - total.toNat) pct.toNat := by
        rw [← hthis]
        exact UInt32.lt_iff_toNat_lt.mp hpos
      have hbound : total + min (100 - total) pct ≤ 100 := by
        rw [UInt32.le_iff_toNat_le, hsum]
        change _ ≤ 100
        omega
      rw [if_pos hbound]
      split
      case isTrue hfull =>
        have hfull' : total.toNat + min (100 - total.toNat) pct.toNat = 100 := by
          rw [← hsum, hfull]
          rfl
        refine ⟨[(victim, min (100 - total) pct)], rfl, by simpa using hpos, ?_⟩
        simp only [totalPct_cons, totalPct_nil, hthis]
        omega
      case isFalse hroom =>
        refine (ih hbound _ (UInt32.le_iff_toNat_le.mp hbound)).mono ?_
        rintro _ ⟨added, rfl, hadded, htotal'⟩
        refine ⟨(victim, min (100 - total) pct) :: added, by simp, ?_, ?_⟩
        · rintro redirect (_ | ⟨_, hmem⟩)
          · exact hpos
          · exact hadded redirect hmem
        · rw [hsum] at htotal'
          change (min (100 - total) pct).toNat + totalPct added = _
          change _ = min (100 - total.toNat) (pct.toNat + totalPct l)
          omega
    case isFalse hzero =>
      have hzero' : min (100 - total.toNat) pct.toNat = 0 := by
        rw [← hthis]
        exact Nat.eq_zero_of_not_pos fun hpos => hzero (UInt32.lt_iff_toNat_lt.mpr hpos)
      refine (ih htotal redirectInfo hle).mono ?_
      rintro _ ⟨added, rfl, hadded, htotal'⟩
      refine ⟨added, rfl, hadded, ?_⟩
      change _ = min (100 - total.toNat) (pct.toNat + totalPct l)
      omega

/-- The list is always made of the registry that there is. -/
def Filled (s : Redirects U) : Prop :=
  ∃ order, fillRedirectInfo (traversed order s.redirectRegistry) 0 [] = .ok s.redirectInfo

theorem updateRedirectInfo_ends (order : RegistryOrder U) (s : Redirects U) :
    Ends (fun _ => False) (updateRedirectInfo order s) Filled := by
  have hfill := fillRedirectInfo_ends (traversed order s.redirectRegistry) (by decide : (0 : UInt32) ≤ 100) []
  rw [updateRedirectInfo]
  cases hresult : fillRedirectInfo (traversed order s.redirectRegistry) 0 [] with
  | ok redirectInfo => exact ⟨order, hresult⟩
  | error fault => exact hfill.may_of_error hresult

end

variable {s : Redirects U}

theorem call_ends (order : RegistryOrder U) (h : Filled s) (c : RedirectCall U) :
    Ends (fun _ => False) (s.call order c) Filled := by
  cases c with
  | registerRedirectThreat spellId victim pct => exact updateRedirectInfo_ends order _
  | unregisterRedirectThreat spellId =>
    rw [call, unregisterRedirectThreat]
    split
    · exact h
    · exact updateRedirectInfo_ends order _
  | unregisterRedirectThreatOf spellId victim =>
    rw [call, unregisterRedirectThreatOf]
    split
    · exact h
    · split
      · exact h
      · exact updateRedirectInfo_ends order _

theorem Reachable.filled (h : Reachable s) : Filled s := by
  induction h with
  | new => exact ⟨⟨id, .refl, id, .refl⟩, rfl⟩
  | call _ hs' ih => exact (call_ends _ ih _).post_of_ok hs'

theorem Reachable.info (h : Reachable s) :
    (∀ redirect ∈ s.redirectInfo, 0 < redirect.2) ∧
      totalPct s.redirectInfo = min 100 (registeredPct s.redirectRegistry) := by
  obtain ⟨order, hfill⟩ := h.filled
  obtain ⟨added, hadded, hpos, htotal⟩ := (fillRedirectInfo_ends _ (by decide) []).post_of_ok hfill
  rw [totalPct_traversed] at htotal
  subst hadded
  exact ⟨hpos, htotal⟩

end Redirects
end LegionServer.Source.Combat
