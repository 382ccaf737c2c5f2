import Mathlib.Algebra.BigOperators.Group.List.Basic
import Mathlib.Algebra.Ring.Nat
import LegionServer.Source.Battlegrounds.BattlegroundQueue

/-!
# Selection pools count their players, and balancing them ends

A kicked group leaves its pool and a group that is added leaves the rest of the queue,
so that every round of `FillPlayersToBG` has less to kick or to add.
-/
namespace LegionServer.Source.Battlegrounds
open Library List Function FillSide Bool Option

variable {P : Type*} {groups : Address → GroupQueueInfo P} {pool : SelectionPool}

/-- `PlayerCount` is the number of players of the selected groups. -/
def PoolOk (groups : Address → GroupQueueInfo P) (pool : SelectionPool) : Prop :=
  pool.playerCount = (pool.selectedGroups.map fun ginfo => (groups ginfo).size).sum

theorem poolOk_init : PoolOk groups {} := rfl

theorem PoolOk.selected_ne_nil (h : PoolOk groups pool) (hcount : 0 < pool.playerCount) :
    pool.selectedGroups ≠ [] := by
  intro hnil
  rw [PoolOk, hnil] at h
  simp only [map_nil, sum_nil] at h
  omega

theorem groupToKick_lt (groups : Address → GroupQueueInfo P) {selected : List Address}
    (hne : selected ≠ []) (size : Nat) :
    SelectionPool.groupToKick groups selected size < selected.length := by
  unfold SelectionPool.groupToKick
  have hloop : ∀ (positions : List Nat) (kick : Bool × Nat), kick.2 < selected.length →
      (∀ i ∈ positions, i < selected.length) →
      (positions.foldl (fun (kick : Bool × Nat) i =>
        if (((selected[i]?.map fun ginfo => (groups ginfo).size).getD 0 : Int) - size).natAbs ≤ 1 then
          (true, i)
        else if !kick.1 && decide ((selected[i]?.map fun ginfo => (groups ginfo).size).getD 0 ≥
            (selected[kick.2]?.map fun ginfo => (groups ginfo).size).getD 0) then (kick.1, i)
        else kick) kick).2 < selected.length := by
    intro positions
    induction positions with
    | nil => exact fun _ hkick _ => hkick
    | cons i positions ih =>
      intro kick hkick hall
      have hi := hall i mem_cons_self
      have hrest := fun j hj => hall j (mem_cons_of_mem _ hj)
      rw [foldl_cons]
      split
      · exact ih _ hi hrest
      · split
        · exact ih _ hi hrest
        · exact ih _ hkick hrest
  apply hloop
  · exact length_pos_iff.mpr hne
  · exact fun i hi => mem_range.mp hi

theorem kickGroup_spec (h : PoolOk groups pool) (hcount : 0 < pool.playerCount) (size : Nat) :
    PoolOk groups (pool.kickGroup groups size).1 ∧
      (pool.kickGroup groups size).1.selectedGroups.length + 1 = pool.selectedGroups.length := by
  have hlt := groupToKick_lt groups (h.selected_ne_nil hcount) size
  unfold SelectionPool.kickGroup
  rw [if_pos hcount]
  generalize SelectionPool.groupToKick groups pool.selectedGroups size = i at hlt
  constructor
  · have hperm := (getElem_cons_eraseIdx_perm hlt).map fun ginfo => (groups ginfo).size
    have hsum := hperm.sum_eq
    rw [map_cons, sum_cons] at hsum
    rw [PoolOk] at h ⊢
    simp only [getElem?_eq_getElem hlt, map_some, getD_some]
    omega
  · rw [length_eraseIdx_of_lt hlt]
    omega

theorem kickGroup_empty (hcount : pool.playerCount = 0) (size : Nat) :
    pool.kickGroup groups size = (pool, true) := by
  unfold SelectionPool.kickGroup
  rw [hcount]
  rfl

theorem addGroup_spec (h : PoolOk groups pool) (ginfo : Address) (desiredCount : Nat) :
    PoolOk groups (pool.addGroup groups ginfo desiredCount).1 ∧
      (pool.addGroup groups ginfo desiredCount).1.selectedGroups.length ≤
        pool.selectedGroups.length + 1 ∧
      ((pool.addGroup groups ginfo desiredCount).2 = false →
        (pool.addGroup groups ginfo desiredCount).1 = pool) := by
  unfold SelectionPool.addGroup
  split
  · refine ⟨?_, ?_, ?_⟩
    · rw [PoolOk, map_append, sum_append, h]
      rfl
    · rw [length_append]
      rfl
    · intro hfull
      cases hfull
  · exact ⟨h, Nat.le_succ _, fun _ => rfl⟩

theorem addWhile_spec (desiredCount : Nat) (rest : List Address) (h : PoolOk groups pool) :
    PoolOk groups (SelectionPool.addWhile groups desiredCount rest pool).2 ∧
      ((SelectionPool.addWhile groups desiredCount rest pool) = (rest, pool) ∨
        2 * (SelectionPool.addWhile groups desiredCount rest pool).1.length +
          (SelectionPool.addWhile groups desiredCount rest pool).2.selectedGroups.length <
        2 * rest.length + pool.selectedGroups.length) := by
  induction rest generalizing pool with
  | nil => exact ⟨h, .inl rfl⟩
  | cons ginfo rest ih =>
    obtain ⟨hok, hlength, hsame⟩ := addGroup_spec h ginfo desiredCount
    unfold SelectionPool.addWhile
    split
    · rename_i added heq
      rw [heq] at hok hlength
      obtain ⟨hafter, hless⟩ := ih hok
      refine ⟨hafter, .inr ?_⟩
      dsimp only at hlength hless ⊢
      rw [length_cons]
      rcases hless with hnone | hless
      · rw [hnone]
        dsimp only
        omega
      · omega
    · rename_i added heq
      rw [heq] at hok hsame
      have hpool : added = pool := hsame rfl
      rw [hpool]
      exact ⟨h, .inl rfl⟩

namespace FillSide

variable {side others : FillSide}

def left (side : FillSide) : Nat := 2 * side.rest.length + side.pool.selectedGroups.length

section
variable (h : PoolOk groups side.pool)
include h

theorem add_spec (desiredCount : Int) :
    PoolOk groups (side.add groups desiredCount).pool ∧
      (side.add groups desiredCount = side ∨ (side.add groups desiredCount).left < side.left) := by
  obtain ⟨hok, hsame | hless⟩ := addWhile_spec desiredCount.toNat side.rest h
  · refine ⟨hok, .inl ?_⟩
    unfold add
    rw [hsame]
  · exact ⟨hok, .inr hless⟩

theorem left_pos (hcount : 0 < side.pool.playerCount) : 0 < side.left := by
  have hne := length_pos_iff.mpr (h.selected_ne_nil hcount)
  unfold left
  omega

/-- After the first kick and what is added for it there is less left, or the pool of the
side was and is empty. -/
theorem refill_spec (size : Nat) (desiredCount : Int) :
    let kicked := side.pool.kickGroup groups size
    let after : FillSide := { side with pool := kicked.1 }
    let refilled := if kicked.2 then after.add groups desiredCount else after
    PoolOk groups refilled.pool ∧ (refilled.left < side.left ∨ refilled = side ∧
      side.pool.playerCount = 0) := by
  intro kicked after refilled
  rcases Nat.eq_zero_or_pos side.pool.playerCount with hzero | hpos
  · have hkicked : kicked = (side.pool, true) := kickGroup_empty hzero size
    have hafter : refilled = side.add groups desiredCount := by
      unfold refilled after
      rw [hkicked]
      rfl
    rw [hafter]
    obtain ⟨hok, hsame | hless⟩ := add_spec h desiredCount
    · exact ⟨hok, .inr ⟨hsame, hzero⟩⟩
    · exact ⟨hok, .inl hless⟩
  · obtain ⟨hok, hlength⟩ := kickGroup_spec h hpos size
    have hkicked : after.left < side.left := by
      exact Nat.add_lt_add_left (Nat.lt_of_succ_le (Nat.le_of_eq hlength)) _
    unfold refilled
    split
    · have hafter : PoolOk groups after.pool := hok
      obtain ⟨hadded, hsame | hless⟩ := add_spec hafter desiredCount
      · rw [hsame]
        exact ⟨hok, .inl hkicked⟩
      · exact ⟨hadded, .inl (Nat.lt_trans hless hkicked)⟩
    · exact ⟨hok, .inl hkicked⟩

theorem balanceRound_spec (hothers : PoolOk groups others.pool)
    (hcount : 0 < side.pool.playerCount ∨ 0 < others.pool.playerCount) :
    PoolOk groups (balanceRound groups side others).1.pool ∧
      PoolOk groups (balanceRound groups side others).2.1.pool ∧
      ((balanceRound groups side others).2.2 = true ∨
        (balanceRound groups side others).1.left + (balanceRound groups side others).2.1.left <
          side.left + others.left) := by
  unfold balanceRound
  extract_lets kicked after refilled
  obtain ⟨hrefilled, hleft⟩ : PoolOk groups refilled.pool ∧ (refilled.left < side.left ∨
      refilled = side ∧ side.pool.playerCount = 0) := refill_spec h _ _
  split
  · rename_i hempty
    split
    · exact ⟨hrefilled, hothers, .inl rfl⟩
    rcases Nat.eq_zero_or_pos others.pool.playerCount with hzero | hpos
    · rw [kickGroup_empty hzero]
      refine ⟨hrefilled, hothers, .inr ?_⟩
      rcases hleft with hless | ⟨_, hside⟩
      · exact Nat.add_lt_add_right hless _
      · omega
    · obtain ⟨hok, hlength⟩ := kickGroup_spec hothers hpos (others.diff - side.diff).toNat
      refine ⟨hrefilled, hok, .inr ?_⟩
      have hkicked : FillSide.left { others with
          pool := (others.pool.kickGroup groups (others.diff - side.diff).toNat).1 } <
          others.left := by
        exact Nat.add_lt_add_left (Nat.lt_of_succ_le (Nat.le_of_eq hlength)) _
      rcases hleft with hless | ⟨hsame, _⟩
      · exact Nat.add_lt_add hless hkicked
      · rw [hsame]
        exact Nat.add_lt_add_left hkicked _
  · rename_i hplayers
    refine ⟨hrefilled, hothers, .inr ?_⟩
    rcases hleft with hless | ⟨hsame, hzero⟩
    · exact Nat.add_lt_add_right hless _
    · rw [hsame] at hplayers
      exact absurd hzero hplayers

end

end FillSide

/-- The loop of `FillPlayersToBG` ends. -/
theorem balance_ends {ali horde : FillSide} (hali : PoolOk groups ali.pool)
    (hhorde : PoolOk groups horde.pool) :
    Ends (fun _ => False) (BattlegroundQueue.balance groups ali horde) fun _ => True := by
  -- an iteration starts only while one of the pools has players
  have hcount : ∀ s : FillSide × FillSide × Bool,
      (if !s.2.2 && decide ((s.1.diff - s.2.1.diff).natAbs > 1) &&
        (decide (s.2.1.pool.playerCount > 0) || decide (s.1.pool.playerCount > 0)) then some ()
      else none) = some () →
      s.2.2 = false ∧ (0 < s.1.pool.playerCount ∨ 0 < s.2.1.pool.playerCount) := by
    intro s hnext
    simp only [ite_none_right_eq_some, and_eq_true, or_eq_true,
      not_eq_true', decide_eq_true_eq] at hnext
    exact ⟨hnext.1.1.1, hnext.1.2.symm⟩
  have hleft : ∀ s : FillSide × FillSide × Bool, PoolOk groups s.1.pool →
      PoolOk groups s.2.1.pool → 0 < s.1.pool.playerCount ∨ 0 < s.2.1.pool.playerCount →
      0 < s.1.left + s.2.1.left := by
    intro s hone htwo hplayers
    rcases hplayers with hplayers | hplayers
    · exact Nat.add_pos_left (left_pos hone hplayers) _
    · exact Nat.add_pos_right _ (left_pos htwo hplayers)
  refine Ends.mono (Ends.whileSome
    (fun s : FillSide × FillSide × Bool => PoolOk groups s.1.pool ∧ PoolOk groups s.2.1.pool)
    (fun s => if s.2.2 then 0 else s.1.left + s.2.1.left) ?_ ?_ _ _ ⟨hali, hhorde⟩ ?_)
    fun _ _ => trivial
  · intro s _ hok hnext
    obtain ⟨hgoes, hplayers⟩ := hcount s hnext
    rw [hgoes]
    exact hleft s hok.1 hok.2 hplayers
  · intro s _ hok hnext
    obtain ⟨hgoes, hplayers⟩ := hcount s hnext
    have hpos := hleft s hok.1 hok.2 hplayers
    rw [hgoes]
    split
    · obtain ⟨hone, htwo, hless⟩ := balanceRound_spec hok.1 hok.2 hplayers
      refine ⟨⟨hone, htwo⟩, ?_⟩
      split
      · exact hpos
      · rename_i hround
        exact hless.resolve_left hround
    · obtain ⟨htwo, hone, hless⟩ := balanceRound_spec hok.2 hok.1 hplayers.symm
      refine ⟨⟨hone, htwo⟩, ?_⟩
      split
      · exact hpos
      · rename_i hround
        have hdecrease := hless.resolve_left hround
        simp only [false_eq_true, if_false]
        omega
  · simp only [false_eq_true, if_false, FillSide.left]
    omega

/-!
# What invitations and selections leave alone

They change no list and no team, except for the side that a rated match gives a team.
-/

variable {q q' q'' : BattlegroundQueue P}

/-- The same groups with the same players stand in the same lists. -/
structure SameLists (q q' : BattlegroundQueue P) : Prop where
  live : q'.live = q.live
  players : ∀ ginfo, (q'.groups ginfo).players = (q.groups ginfo).players
  queuedPlayers : q'.queuedPlayers = q.queuedPlayers
  queuedGroups : q'.queuedGroups = q.queuedGroups

structure SameQueue (q q' : BattlegroundQueue P) : Prop extends SameLists q q' where
  team : ∀ ginfo, (q'.groups ginfo).team = (q.groups ginfo).team

theorem SameLists.trans (h : SameLists q q') (h' : SameLists q' q'') : SameLists q q'' where
  live := h'.live.trans h.live
  players ginfo := (h'.players ginfo).trans (h.players ginfo)
  queuedPlayers := h'.queuedPlayers.trans h.queuedPlayers
  queuedGroups := h'.queuedGroups.trans h.queuedGroups

theorem SameQueue.refl (q : BattlegroundQueue P) : SameQueue q q :=
  ⟨⟨rfl, fun _ => rfl, rfl, rfl⟩, fun _ => rfl⟩

theorem SameQueue.trans (h : SameQueue q q') (h' : SameQueue q' q'') : SameQueue q q'' where
  toSameLists := h.toSameLists.trans h'.toSameLists
  team ginfo := (h'.team ginfo).trans (h.team ginfo)

namespace BattlegroundQueue

theorem setPool_same (q : BattlegroundQueue P) (team : Team) (pool : SelectionPool) :
    SameQueue q (q.setPool team pool) :=
  ⟨⟨rfl, fun _ => rfl, rfl, rfl⟩, fun _ => rfl⟩

theorem setPools_same (q : BattlegroundQueue P) (ali horde : SelectionPool) :
    SameQueue q ((q.setPool .ALLIANCE ali).setPool .HORDE horde) :=
  ⟨⟨rfl, fun _ => rfl, rfl, rfl⟩, fun _ => rfl⟩

section Groups

variable {ginfo : Address} {write : GroupQueueInfo P → GroupQueueInfo P}

section
variable (q : BattlegroundQueue P) (ginfo : Address)

theorem modifyGroup_groups :
    (q.modifyGroup ginfo write).groups =
      Function.update q.groups ginfo (write (q.groups ginfo)) := rfl

theorem modifyGroup_lists (hplayers : ∀ group, (write group).players = group.players) :
    SameLists q (q.modifyGroup ginfo write) where
  live := rfl
  players other := by
    rw [modifyGroup_groups]
    by_cases heq : other = ginfo
    · rw [heq, update_self, hplayers]
    · rw [update_of_ne heq]
  queuedPlayers := rfl
  queuedGroups := rfl

theorem modifyGroup_same (hplayers : ∀ group, (write group).players = group.players)
    (hteam : ∀ group, (write group).team = group.team) :
    SameQueue q (q.modifyGroup ginfo write) where
  toSameLists := modifyGroup_lists q ginfo hplayers
  team other := by
    rw [modifyGroup_groups]
    by_cases heq : other = ginfo
    · rw [heq, update_self, hteam]
    · rw [update_of_ne heq]

end

end Groups

section Invitations

variable (gameTimeMS instanceId : UInt32)

section
variable (q : BattlegroundQueue P)

/-- An invitation moves no group, and gives only its own group another team. -/
theorem inviteGroupToBG_spec (ginfo : Address) (side : Option Team) :
    SameLists q (q.inviteGroupToBG gameTimeMS ginfo instanceId side) ∧
      ∀ other, ((q.inviteGroupToBG gameTimeMS ginfo instanceId side).groups other).team =
        if other = ginfo then side.getD (q.groups ginfo).team else (q.groups other).team := by
  unfold inviteGroupToBG
  extract_lets sided
  have hsided : SameLists q sided ∧ ∀ other, (sided.groups other).team =
      if other = ginfo then side.getD (q.groups ginfo).team else (q.groups other).team := by
    cases side with
    | none =>
      refine ⟨(SameQueue.refl q).toSameLists, fun other => ?_⟩
      split
      · rename_i heq
        rw [heq]
        rfl
      · rfl
    | some team =>
      refine ⟨modifyGroup_lists q ginfo fun _ => rfl, fun other => ?_⟩
      rw [modifyGroup_groups]
      split
      · rename_i heq
        rw [heq, update_self]
        rfl
      · rename_i hne
        rw [update_of_ne hne]
  split
  · have hinvited : SameQueue sided (sided.modifyGroup ginfo fun group =>
        { group with
          isInvitedToBGInstanceGUID := instanceId
          removeInviteTime := gameTimeMS + INVITE_ACCEPT_WAIT_TIME }) :=
      modifyGroup_same sided ginfo (fun _ => rfl) fun _ => rfl
    exact ⟨hsided.1.trans hinvited.toSameLists,
      fun other => (hinvited.team other).trans (hsided.2 other)⟩
  · exact hsided

theorem inviteGroupToBG_same (ginfo : Address) {side : Option Team}
    (hside : ∀ team, side = some team → team = (q.groups ginfo).team) :
    SameQueue q (q.inviteGroupToBG gameTimeMS ginfo instanceId side) := by
  obtain ⟨hlists, hteam⟩ := inviteGroupToBG_spec gameTimeMS instanceId q ginfo side
  refine ⟨hlists, fun other => ?_⟩
  rw [hteam]
  split
  · rename_i heq
    rw [heq]
    cases side with
    | none => rfl
    | some team => exact hside team rfl
  · rfl

theorem inviteSelected_same (team : Team) :
    SameQueue q (q.inviteSelected gameTimeMS instanceId team) := by
  unfold inviteSelected
  generalize (q.selectionPools team).selectedGroups = selected
  induction selected generalizing q with
  | nil => exact SameQueue.refl q
  | cons ginfo selected ih =>
    apply SameQueue.trans _ (ih _)
    apply inviteGroupToBG_same
    intro team hteam
    exact (Option.some.inj hteam).symm

theorem invitePools_same : SameQueue q (q.invitePools gameTimeMS instanceId) :=
  (inviteSelected_same gameTimeMS instanceId q .ALLIANCE).trans
    (inviteSelected_same gameTimeMS instanceId _ .HORDE)

end

end Invitations

section Selections

variable (bracketId : Fin MAX_BATTLEGROUND_BRACKETS)

section
variable (q : BattlegroundQueue P)

theorem initPools_same : SameQueue q q.initPools :=
  setPools_same q {} {}

/-- Filling a battleground comes to its end and changes the pools only. -/
theorem fillPlayersToBG_ends (invitationType : InvitationType) (bg : FreeSlotBattleground)
    (hpools : ∀ team, PoolOk q.groups (q.selectionPools team)) :
    Ends (fun _ => False) (q.fillPlayersToBG invitationType bg bracketId) (SameQueue q) := by
  unfold fillPlayersToBG
  extract_lets hordeFree aliFree aliGroups hordeGroups aliCount hordeCount even aliFree hordeFree
    ali horde
  split
  · exact Ends.ok (setPools_same q _ _)
  · apply Ends.map
    have hali : PoolOk q.groups ali.pool := (add_spec (hpools .ALLIANCE) _).1
    have hhorde : PoolOk q.groups horde.pool := (add_spec (hpools .HORDE) _).1
    exact (balance_ends hali hhorde).mono fun sides _ => setPools_same q _ _

theorem fillFreeSlots_ends (env : Surroundings) :
    Ends (fun _ => False) (q.fillFreeSlots env bracketId) (SameQueue q) := by
  refine Ends.foldlM (fun _ => SameQueue q) (fun bg _ filled hfilled => ?_) _ _ (SameQueue.refl q)
  split
  · apply Ends.map
    have hpools : ∀ team, PoolOk filled.initPools.groups (filled.initPools.selectionPools team) := by
      intro team
      cases team <;> exact poolOk_init
    refine (fillPlayersToBG_ends bracketId filled.initPools env.invitationType bg hpools).mono
      fun after hafter => ?_
    exact ((hfilled.trans (initPools_same filled)).trans hafter).trans
      (invitePools_same env.gameTimeMS bg.instanceId after)
  · exact Ends.ok hfilled

theorem checkNormalMatch_same (env : Surroundings) (minPlayers maxPlayers : Nat) :
    SameQueue q (q.checkNormalMatch env bracketId minPlayers maxPlayers).1 := by
  unfold checkNormalMatch
  extract_lets first selected count j full balanced
  have hselected : SameQueue q selected := setPools_same q _ _
  have hbalanced : SameQueue q balanced := by
    unfold balanced
    split
    · exact hselected.trans (setPool_same selected j _)
    · exact hselected
  split
  · exact hbalanced
  · split
    · exact hbalanced
    · exact hbalanced

end

end Selections

end BattlegroundQueue

end LegionServer.Source.Battlegrounds
