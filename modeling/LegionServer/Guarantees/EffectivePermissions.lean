import LegionServer.Source.Accounts.RBACData

/-!
# Effective permissions

Once an account is loaded its global permissions are those that it can reach from the granted ones
and cannot reach from the denied ones. A request that fails leaves everything as it was.
-/
namespace LegionServer.Guarantees.EffectivePermissions
open Library Source.Accounts List

/-- Links may lead to themselves, in cycles and to permissions that do not exist. -/
structure Effective (mgr : AccountMgr) (d : RBACData) : Prop where
  globalPerms : ∀ permission, permission ∈ d.globalPerms ↔ permission ∈ mgr.permissions.defined ∧
      (∃ granted ∈ d.grantedPerms, mgr.permissions.Reaches granted permission) ∧
      ¬∃ denied ∈ d.deniedPerms, mgr.permissions.Reaches denied permission
  apart : ∀ permission, ¬(permission ∈ d.grantedPerms ∧ permission ∈ d.deniedPerms)

def Apart (d : RBACData) : Prop := Disjoint d.grantedPerms d.deniedPerms

def Calculated (mgr : AccountMgr) (d : RBACData) : Prop :=
  d.globalPerms = RBACData.expandPermissions mgr d.grantedPerms \
    RBACData.expandPermissions mgr d.deniedPerms

/-- A request names its realm; realm 0 stands for loading. -/
def Recalculates : RBACStep → Prop
  | .grantPermission _ realmId | .denyPermission _ realmId | .revokePermission _ realmId =>
    realmId ≠ 0
  | .setSecLevel _ | .clearData | .loadFromDBCallback _ => True

instance : DecidablePred Recalculates
  | .grantPermission _ realmId | .denyPermission _ realmId | .revokePermission _ realmId =>
    inferInstanceAs (Decidable (realmId ≠ 0))
  | .setSecLevel _ | .clearData | .loadFromDBCallback _ => inferInstanceAs (Decidable True)

variable {mgr : AccountMgr} {d : RBACData} {permissionId : Nat} {realmId : Int} {step : RBACStep}

section
variable (mgr : AccountMgr) (d : RBACData) (permissionId : Nat) (realmId : Int)

theorem grantPermission_cases :
    (d.grantPermission mgr permissionId realmId).2 = d ∨
      (d.grantPermission mgr permissionId realmId).1 = .ok ∧ permissionId ∉ d.deniedPerms ∧
        (d.grantPermission mgr permissionId realmId).2.grantedPerms =
          insert permissionId d.grantedPerms ∧
        (d.grantPermission mgr permissionId realmId).2.deniedPerms = d.deniedPerms ∧
        (realmId ≠ 0 → Calculated mgr (d.grantPermission mgr permissionId realmId).2) := by
  unfold RBACData.grantPermission
  split
  · exact .inl rfl
  split
  · exact .inl rfl
  rename_i hdenied
  split
  · exact .inl rfl
  split
  · exact .inr ⟨rfl, hdenied, rfl, rfl, fun _ => rfl⟩
  · rename_i hrealm
    exact .inr ⟨rfl, hdenied, rfl, rfl, fun hne => absurd hne hrealm⟩

theorem denyPermission_cases :
    (d.denyPermission mgr permissionId realmId).2 = d ∨
      (d.denyPermission mgr permissionId realmId).1 = .ok ∧ permissionId ∉ d.grantedPerms ∧
        (d.denyPermission mgr permissionId realmId).2.grantedPerms = d.grantedPerms ∧
        (d.denyPermission mgr permissionId realmId).2.deniedPerms =
          insert permissionId d.deniedPerms ∧
        (realmId ≠ 0 → Calculated mgr (d.denyPermission mgr permissionId realmId).2) := by
  unfold RBACData.denyPermission
  split
  · exact .inl rfl
  split
  · exact .inl rfl
  rename_i hgranted
  split
  · exact .inl rfl
  split
  · exact .inr ⟨rfl, hgranted, rfl, rfl, fun _ => rfl⟩
  · rename_i hrealm
    exact .inr ⟨rfl, hgranted, rfl, rfl, fun hne => absurd hne hrealm⟩

theorem revokePermission_cases :
    (d.revokePermission mgr permissionId realmId).2 = d ∨
      (d.revokePermission mgr permissionId realmId).1 = .ok ∧
        (d.revokePermission mgr permissionId realmId).2.grantedPerms =
          d.grantedPerms.erase permissionId ∧
        (d.revokePermission mgr permissionId realmId).2.deniedPerms =
          d.deniedPerms.erase permissionId ∧
        (realmId ≠ 0 → Calculated mgr (d.revokePermission mgr permissionId realmId).2) := by
  unfold RBACData.revokePermission
  split
  · exact .inl rfl
  split
  · exact .inr ⟨rfl, rfl, rfl, fun _ => rfl⟩
  · rename_i hrealm
    exact .inr ⟨rfl, rfl, rfl, fun hne => absurd hne hrealm⟩

end

theorem Apart.grantPermission (h : Apart d) :
    Apart (d.grantPermission mgr permissionId realmId).2 := by
  obtain hfailed | ⟨-, hdenied, hgranted, hsame, -⟩ :=
    grantPermission_cases mgr d permissionId realmId
  · rw [hfailed]
    exact h
  · rw [Apart, hgranted, hsame]
    exact Finset.disjoint_insert_left.mpr ⟨hdenied, h⟩

theorem Apart.denyPermission (h : Apart d) :
    Apart (d.denyPermission mgr permissionId realmId).2 := by
  obtain hfailed | ⟨-, hgranted, hsame, hdenied, -⟩ :=
    denyPermission_cases mgr d permissionId realmId
  · rw [hfailed]
    exact h
  · rw [Apart, hdenied, hsame]
    exact Finset.disjoint_insert_right.mpr ⟨hgranted, h⟩

theorem Apart.loadRow (h : Apart d) (row : Nat × Bool) : Apart (d.loadRow mgr row) := by
  rw [RBACData.loadRow]
  split
  · exact h.grantPermission
  · exact h.denyPermission

theorem Apart.foldl {α : Type*} {f : RBACData → α → RBACData}
    (hf : ∀ d a, Apart d → Apart (f d a)) (h : Apart d) (l : List α) : Apart (l.foldl f d) := by
  induction l generalizing d with
  | nil => exact h
  | cons a l ih => exact ih (hf d a h)

theorem Apart.loadFromDBCallback (h : Apart d) (rows : List (Nat × Bool)) :
    Apart (d.loadFromDBCallback mgr rows) := by
  have hrows := h.foldl (fun d row h => (h.loadRow row : Apart (d.loadRow mgr row))) rows
  exact hrows.foldl (fun d permission h =>
    (h.grantPermission : Apart (d.grantPermission mgr permission 0).2))
    ((mgr.defaultPermissions _).sort (· ≤ ·))

theorem Apart.exec (h : Apart d) : Apart (step.exec mgr d).2 := by
  cases step with
  | setSecLevel id => exact h
  | clearData => exact Finset.disjoint_empty_left _
  | loadFromDBCallback rows => exact h.loadFromDBCallback rows
  | grantPermission permissionId realmId => exact h.grantPermission
  | denyPermission permissionId realmId => exact h.denyPermission
  | revokePermission permissionId realmId =>
    obtain hfailed | ⟨-, hgranted, hdenied, -⟩ := revokePermission_cases mgr d permissionId realmId
    · change Apart (d.revokePermission mgr permissionId realmId).2
      rw [hfailed]
      exact h
    · change Disjoint (d.revokePermission mgr permissionId realmId).2.grantedPerms
        (d.revokePermission mgr permissionId realmId).2.deniedPerms
      rw [hgranted, hdenied]
      exact h.mono (Finset.erase_subset _ _) (Finset.erase_subset _ _)

theorem Calculated.exec (h : Calculated mgr d) (hstep : Recalculates step) :
    Calculated mgr (step.exec mgr d).2 := by
  cases step with
  | setSecLevel id => exact h
  | clearData => exact (Finset.sdiff_self (RBACData.expandPermissions mgr ∅)).symm
  | loadFromDBCallback rows => exact rfl
  | grantPermission permissionId realmId =>
    obtain hfailed | ⟨-, -, -, -, hcalculated⟩ := grantPermission_cases mgr d permissionId realmId
    · change Calculated mgr (d.grantPermission mgr permissionId realmId).2
      rw [hfailed]
      exact h
    · exact hcalculated hstep
  | denyPermission permissionId realmId =>
    obtain hfailed | ⟨-, -, -, -, hcalculated⟩ := denyPermission_cases mgr d permissionId realmId
    · change Calculated mgr (d.denyPermission mgr permissionId realmId).2
      rw [hfailed]
      exact h
    · exact hcalculated hstep
  | revokePermission permissionId realmId =>
    obtain hfailed | ⟨-, -, -, hcalculated⟩ := revokePermission_cases mgr d permissionId realmId
    · change Calculated mgr (d.revokePermission mgr permissionId realmId).2
      rw [hfailed]
      exact h
    · exact hcalculated hstep

theorem Apart.run (h : Apart d) (steps : List RBACStep) : Apart (d.run mgr steps) :=
  h.foldl (fun _ _ h => h.exec) steps

theorem Calculated.run (h : Calculated mgr d) {steps : List RBACStep}
    (hsteps : ∀ step ∈ steps, Recalculates step) : Calculated mgr (d.run mgr steps) := by
  induction steps generalizing d with
  | nil => exact h
  | cons step steps ih =>
    exact ih (h.exec (hsteps step mem_cons_self)) fun other hother =>
      hsteps other (mem_cons_of_mem _ hother)

theorem effective_of_calculated (hcalculated : Calculated mgr d) (happart : Apart d) :
    Effective mgr d where
  globalPerms permission := by
    rw [hcalculated, Finset.mem_sdiff, RBACData.expandPermissions, RBACData.expandPermissions,
      Links.mem_closure, Links.mem_closure, and_assoc]
    exact and_congr_right fun hdefined => and_congr_right fun _ =>
      not_congr (and_iff_right hdefined)
  apart permission h := Finset.disjoint_left.mp happart h.1 h.2

/-- After an account was loaded, by whatever steps before, and in every run of requests for realms
and of further loads behind it. -/
theorem effective_permissions (mgr : AccountMgr) (before : List RBACStep)
    (rows : List (Nat × Bool)) (after : List RBACStep)
    (hafter : ∀ step ∈ after, Recalculates step) :
    Effective mgr (({} : RBACData).run mgr (before ++ .loadFromDBCallback rows :: after)) ∧
      ∀ d step, (RBACStep.exec mgr d step).1 ≠ .ok → (RBACStep.exec mgr d step).2 = d := by
  constructor
  · have hstart : Apart ({} : RBACData) := Finset.disjoint_empty_left _
    have hrun : ({} : RBACData).run mgr (before ++ .loadFromDBCallback rows :: after) =
        ((({} : RBACData).run mgr before).loadFromDBCallback mgr rows).run mgr after := by
      rw [RBACData.run, foldl_append, foldl_cons]
      rfl
    refine effective_of_calculated ?_ (hstart.run _)
    have hloaded : Calculated mgr
        ((({} : RBACData).run mgr before).loadFromDBCallback mgr rows) := rfl
    rw [hrun]
    exact hloaded.run hafter
  · intro d step hfailed
    cases step with
    | setSecLevel | clearData | loadFromDBCallback => exact absurd rfl hfailed
    | grantPermission permissionId realmId =>
      exact (grantPermission_cases _ _ _ _).resolve_right fun h => hfailed h.1
    | denyPermission permissionId realmId =>
      exact (denyPermission_cases _ _ _ _).resolve_right fun h => hfailed h.1
    | revokePermission permissionId realmId =>
      exact (revokePermission_cases _ _ _ _).resolve_right fun h => hfailed h.1

/-- Two permissions in a cycle, one of them with itself and with one that does not exist. -/
def cyclic : AccountMgr where
  permissions := ⟨{1, 2}, fun permission => if permission = 1 then {2} else {1, 2, 7}⟩
  defaultPermissions _ := {1}

/-- The default is granted unless a row denies it. -/
theorem effective_cyclic : Effective cyclic (({} : RBACData).run cyclic
    [.loadFromDBCallback [(1, false), (7, true)], .revokePermission 1 3, .grantPermission 2 3]) :=
  (effective_permissions cyclic [] [(1, false), (7, true)]
    [.revokePermission 1 3, .grantPermission 2 3] (by decide)).1

end LegionServer.Guarantees.EffectivePermissions
