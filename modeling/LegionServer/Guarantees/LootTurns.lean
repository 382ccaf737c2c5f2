import LegionServer.Source.Looting.LooterGuid
import LegionServer.Library.CyclicOrder

/-!
# Fair turns

Both searches of `UpdateLooterGuid` are one walk around the members from the one after the looter
on.
-/
namespace LegionServer.Guarantees.LootTurns
open Library Source.Looting List

variable {G : Type*} {group : LootGroup G} {players : Whereabouts G}

def eligible (group : LootGroup G) (players : Whereabouts G) : List G :=
  group.memberSlots.filter players.mayLoot

def LooterEligible (group : LootGroup G) (players : Whereabouts G) : Prop :=
  ∃ looter ∈ eligible group players, group.looterGuid = some looter

theorem findNewLooter_eq (group : LootGroup G) (players : Whereabouts G) (guidItr : Nat) :
    group.findNewLooter players guidItr =
      (group.memberSlots.drop guidItr ++ group.memberSlots.take guidItr).find? players.mayLoot := by
  unfold LootGroup.findNewLooter
  rw [find?_append]
  split
  · rename_i looter hfind
    rw [hfind]
    rfl
  · rename_i hfind
    rw [hfind]
    rfl

variable [DecidableEq G]

/-- The iterator after the looter, or `end()`, starts the cyclic order. -/
theorem cyclicAfter_eq (group : LootGroup G) :
    let guidItr := group.getMemberCSlot group.looterGuid
    let next := if group.memberSlots[guidItr]?.isSome then guidItr + 1 else guidItr
    group.memberSlots.drop next ++ group.memberSlots.take next =
      cyclicAfter group.memberSlots group.looterGuid := by
  cases hlooter : group.looterGuid with
  | none =>
    simp [LootGroup.getMemberCSlot, cyclicAfter]
  | some looter =>
    by_cases hmem : looter ∈ group.memberSlots
    · have hlt : group.memberSlots.idxOf looter < group.memberSlots.length :=
        idxOf_lt_length_of_mem hmem
      simp [LootGroup.getMemberCSlot, cyclicAfter, hlt]
    · have hend : group.memberSlots.idxOf looter = group.memberSlots.length :=
        idxOf_eq_length hmem
      simp [LootGroup.getMemberCSlot, cyclicAfter_of_not_mem hmem, hend]

theorem looterEligible_iff : LooterEligible group players ↔
    (group.memberSlots[group.getMemberCSlot group.looterGuid]?).any players.mayLoot = true := by
  unfold LooterEligible eligible LootGroup.getMemberCSlot
  cases hlooter : group.looterGuid with
  | none => simp
  | some looter =>
    by_cases hmem : looter ∈ group.memberSlots
    · have hlt := idxOf_lt_length_of_mem hmem
      simp [hmem, hlt]
    · simp [hmem]

/-- An eligible looter keeps the turn if the update is only made at need. -/
theorem updateLooterGuid_of_eligible (hmethod : group.lootMethod ≠ .freeForAll)
    (h : LooterEligible group players) : group.updateLooterGuid players true = (group, false) := by
  unfold LootGroup.updateLooterGuid
  rw [if_neg hmethod]
  dsimp only
  rw [looterEligible_iff.mp h]
  rfl

theorem updateLooterGuid_next (players : Whereabouts G) (ifneed : Bool)
    (hmethod : group.lootMethod ≠ .freeForAll) (h : ifneed = true → ¬LooterEligible group players) :
    (group.updateLooterGuid players ifneed).1 = { group with
        looterGuid := nextTurn players.mayLoot group.memberSlots group.looterGuid } ∧
      ((group.updateLooterGuid players ifneed).2 = true ↔
        nextTurn players.mayLoot group.memberSlots group.looterGuid = none ∨
          nextTurn players.mayLoot group.memberSlots group.looterGuid ≠ group.looterGuid) := by
  have hneed : ¬(ifneed && (group.memberSlots[group.getMemberCSlot group.looterGuid]?).any
      players.mayLoot) = true := by
    rw [Bool.and_eq_true, ← looterEligible_iff]
    exact fun hboth => h hboth.1 hboth.2
  have hfind := cyclicAfter_eq group
  unfold LootGroup.updateLooterGuid
  rw [if_neg hmethod]
  dsimp only
  rw [if_neg hneed, findNewLooter_eq, hfind, ← nextTurn]
  cases nextTurn players.mayLoot group.memberSlots group.looterGuid with
  | none => simp
  | some looter =>
    dsimp only
    by_cases hsame : group.looterGuid = some looter
    · rw [if_neg (not_not.mpr hsame), ← hsame]
      exact ⟨rfl, by simp [hsame]⟩
    · rw [if_pos hsame]
      simp [Ne.symm hsame]

theorem looters_eq (hmethod : group.lootMethod ≠ .freeForAll) (n : Nat) :
    LootGroup.looters players n group =
      turns players.mayLoot group.memberSlots n group.looterGuid := by
  induction n generalizing group with
  | zero => rfl
  | succ n ih =>
    have hnext := (updateLooterGuid_next players false hmethod fun h => by cases h).1
    rw [LootGroup.looters, turns]
    dsimp only
    rw [hnext]
    exact congrArg _ (ih hmethod)

/-- The next one is another one, unless the looter is eligible. -/
theorem nextTurn_ne (h : ¬LooterEligible group players) :
    nextTurn players.mayLoot group.memberSlots group.looterGuid = none ∨
      nextTurn players.mayLoot group.memberSlots group.looterGuid ≠ group.looterGuid := by
  cases hnext : nextTurn players.mayLoot group.memberSlots group.looterGuid with
  | none => exact .inl rfl
  | some looter =>
    refine .inr fun hsame => h ⟨looter, ?_, hsame.symm⟩
    have hmem := (perm_cyclicAfter group.memberSlots group.looterGuid).mem_iff.mp
      (mem_of_find?_eq_some hnext)
    exact mem_filter.mpr ⟨hmem, find?_some hnext⟩

theorem turnOrder_of_member (players : Whereabouts G) {before after : List G} {looter : G}
    (hmembers : group.memberSlots = before ++ looter :: after)
    (hlooter : group.looterGuid = some looter) :
    turnOrder players.mayLoot group.memberSlots group.looterGuid =
      (after ++ before ++ [looter]).filter players.mayLoot := by
  have hnodup := hmembers ▸ group.nodup
  have hfresh : looter ∉ before := fun hmem =>
    (nodup_append.mp hnodup).2.2 looter hmem looter mem_cons_self rfl
  rw [turnOrder, hmembers, hlooter, cyclicAfter_of_split hfresh]

theorem turnOrder_of_left (players : Whereabouts G)
    (hleft : ∀ looter ∈ group.memberSlots, group.looterGuid ≠ some looter) :
    turnOrder players.mayLoot group.memberSlots group.looterGuid = eligible group players := by
  unfold turnOrder eligible
  cases hlooter : group.looterGuid with
  | none => rfl
  | some looter => rw [cyclicAfter_of_not_mem fun hmem => hleft looter hmem hlooter]

/-- Calls that always move the turn give every eligible member `k` turns in `k` rounds, in the
cyclic order from the member after the looter on. -/
theorem round_robin (group : LootGroup G) (players : Whereabouts G)
    (hmethod : group.lootMethod ≠ .freeForAll) :
    let order := turnOrder players.mayLoot group.memberSlots group.looterGuid
    let next := group.updateLooterGuid players true
    (∀ before looter after, group.memberSlots = before ++ looter :: after →
      group.looterGuid = some looter →
        order = (after ++ before ++ [looter]).filter players.mayLoot) ∧
    ((∀ looter ∈ group.memberSlots, group.looterGuid ≠ some looter) →
      order = eligible group players) ∧
    (∀ k, LootGroup.looters players (k * (eligible group players).length) group =
        (List.replicate k (order.map some)).flatten ∧
      ∀ guid ∈ eligible group players,
        (LootGroup.looters players (k * (eligible group players).length) group).count
          (some guid) = k) ∧
    (next.2 = true ↔ ¬LooterEligible group players) ∧
    (group.looterGuid ≠ none ∨ eligible group players ≠ [] →
      (next.1.looterGuid ≠ group.looterGuid ↔ ¬LooterEligible group players)) ∧
    next.1 = { group with
      looterGuid := if next.2 then order.head? else group.looterGuid } ∧
    (order.head? = none ↔ eligible group players = []) := by
  have hperm := perm_turnOrder players.mayLoot group.memberSlots group.looterGuid
  have hhead : (turnOrder players.mayLoot group.memberSlots group.looterGuid).head? = none ↔
      eligible group players = [] := by
    rw [head?_eq_none_iff]
    exact ⟨fun h => List.nil_perm.mp (h ▸ hperm), fun h => List.perm_nil.mp (h ▸ hperm)⟩
  refine ⟨fun _ _ _ hmembers => turnOrder_of_member players hmembers, turnOrder_of_left players,
    fun k => ?_, ?_⟩
  · rw [looters_eq hmethod, eligible, ← hperm.length_eq]
    refine ⟨turns_rounds group.nodup k _, fun guid hguid => ?_⟩
    obtain ⟨hmem, hmay⟩ := mem_filter.mp hguid
    exact count_turns_rounds group.nodup k _ hmem hmay
  · by_cases hlooter : LooterEligible group players
    · rw [updateLooterGuid_of_eligible hmethod hlooter]
      exact ⟨by simp [hlooter], fun _ => by simp [hlooter], rfl, hhead⟩
    · obtain ⟨hnext, hsent⟩ := updateLooterGuid_next players true hmethod fun _ => hlooter
      have hmoved := nextTurn_ne hlooter
      have hflag := hsent.mpr hmoved
      rw [nextTurn_eq_head?] at hnext hmoved
      refine ⟨iff_of_true hflag hlooter, fun hsome => iff_of_true ?_ hlooter, ?_, hhead⟩
      · rw [hnext]
        rcases hmoved with hnone | hne
        · rw [hnone]
          have hempty := hhead.mp hnone
          rcases hsome with hsome | hsome
          · exact hsome.symm
          · exact absurd hempty hsome
        · exact hne
      · rw [hnext, if_pos hflag]

def fourPlayers : LootGroup Nat where
  memberSlots := [1, 2, 3, 4]
  nodup := by decide
  lootMethod := .groupLoot
  looterGuid := some 2

def secondAway : Whereabouts Nat where
  findPlayer _ := true
  isAtGroupRewardDistance guid := guid ≠ 2

theorem round_robin_four :
    LootGroup.looters secondAway 6 fourPlayers = [some 3, some 4, some 1, some 3, some 4, some 1] ∧
      (fourPlayers.updateLooterGuid secondAway true).1.looterGuid = some 3 := by
  obtain ⟨-, -, hrounds, -, -, hneed, -⟩ := round_robin fourPlayers secondAway (by decide)
  exact ⟨(hrounds 2).1, congrArg LootGroup.looterGuid hneed⟩

end LegionServer.Guarantees.LootTurns
