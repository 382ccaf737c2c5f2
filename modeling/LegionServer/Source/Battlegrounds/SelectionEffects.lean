import LegionServer.Source.Battlegrounds.Iterators
import LegionServer.Source.Battlegrounds.PoolEffects

/-!
# What filling a battleground keeps

With what its iterator has not passed yet, a pool is part of the queue. While that holds every
iterator that `FillPlayersToBG` dereferences stands at a group.
-/
namespace LegionServer.Source.Battlegrounds
open Library List Function Option

variable {P : Type*} {groups : Address → GroupQueueInfo P} {pool : SelectionPool}

section
variable (groups : Address → GroupQueueInfo P) (pool : SelectionPool)

theorem kickGroup_le (size : Nat) :
    (pool.kickGroup groups size).1.selectedGroups.Sublist pool.selectedGroups ∧
      (pool.kickGroup groups size).1.playerCount ≤ pool.playerCount := by
  unfold SelectionPool.kickGroup
  split
  · exact ⟨eraseIdx_sublist _ _, Nat.sub_le _ _⟩
  · exact ⟨List.Sublist.refl _, Nat.le_refl _⟩

/-- A group is added when it is not invited and fits. -/
theorem addGroup_cases (ginfo : Address) (desiredCount : Nat) :
    ((groups ginfo).invited = false ∧ pool.playerCount + (groups ginfo).size ≤ desiredCount ∧
        pool.addGroup groups ginfo desiredCount =
          (⟨pool.selectedGroups ++ [ginfo], pool.playerCount + (groups ginfo).size⟩, true)) ∨
      (((groups ginfo).invited = false → desiredCount < pool.playerCount + (groups ginfo).size) ∧
        pool.addGroup groups ginfo desiredCount =
          (pool, decide (pool.playerCount < desiredCount))) := by
  unfold SelectionPool.addGroup
  split
  · rename_i hfits
    rw [Bool.and_eq_true, Bool.not_eq_true', decide_eq_true_eq] at hfits
    exact .inl ⟨hfits.1, hfits.2, rfl⟩
  · rename_i hfits
    rw [Bool.and_eq_true, Bool.not_eq_true', decide_eq_true_eq] at hfits
    exact .inr ⟨fun hinvited => Nat.lt_of_not_le fun hle => hfits ⟨hinvited, hle⟩, rfl⟩

end

structure FillOk (groups : Address → GroupQueueInfo P) (queue : List Address) (slots : Int)
    (side : FillSide) : Prop where
  pool : PoolOk groups side.pool
  free : side.free = slots
  fits : (side.pool.playerCount : Int) ≤ slots
  sublist : (side.pool.selectedGroups ++ side.rest).Sublist queue
  uninvited : ∀ ginfo ∈ side.pool.selectedGroups, (groups ginfo).invited = false

namespace FillOk

variable {queue queue' : List Address} {slots slots' : Int} {side others : FillSide}

theorem start (groups : Address → GroupQueueInfo P) (list : List Address) (hslots : 0 ≤ slots) :
    FillOk groups list slots ⟨slots, {}, list⟩ where
  pool := poolOk_init
  free := rfl
  fits := hslots
  sublist := List.Sublist.refl _
  uninvited _ hmem := absurd hmem not_mem_nil

theorem addGroup {free : Int} {ginfo : Address} {rest : List Address}
    (h : FillOk groups queue slots ⟨free, pool, ginfo :: rest⟩) {desiredCount : Nat}
    (hdesired : (desiredCount : Int) ≤ slots) :
    FillOk groups queue slots ⟨free, (pool.addGroup groups ginfo desiredCount).1, rest⟩ := by
  rcases addGroup_cases groups pool ginfo desiredCount with ⟨hinvited, hfits, hadd⟩ | ⟨_, hadd⟩
  · refine ⟨(addGroup_spec h.pool ginfo desiredCount).1, h.free, ?_, ?_, fun other hmem => ?_⟩
    · rw [hadd]
      dsimp only
      omega
    · rw [hadd]
      rw [append_assoc]
      exact h.sublist
    · rw [hadd] at hmem
      rcases mem_append.mp hmem with hmem | hnew
      · exact h.uninvited other hmem
      · rw [mem_singleton.mp hnew]
        exact hinvited
  · rw [hadd]
    exact ⟨h.pool, h.free, h.fits,
      ((sublist_cons_self ginfo rest).append_left _).trans h.sublist, h.uninvited⟩

theorem pass {free : Int} {rest rest' : List Address}
    (h : FillOk groups queue slots ⟨free, pool, rest⟩) (hrest : rest'.Sublist rest) :
    FillOk groups queue slots ⟨free, pool, rest'⟩ :=
  ⟨h.pool, h.free, h.fits, (hrest.append_left _).trans h.sublist, h.uninvited⟩

theorem addWhile {free : Int} {rest : List Address}
    (h : FillOk groups queue slots ⟨free, pool, rest⟩) {desiredCount : Nat}
    (hdesired : (desiredCount : Int) ≤ slots) :
    FillOk groups queue slots ⟨free, (SelectionPool.addWhile groups desiredCount rest pool).2,
      (SelectionPool.addWhile groups desiredCount rest pool).1⟩ := by
  induction rest generalizing pool with
  | nil => exact h
  | cons ginfo rest ih =>
    have hadded := h.addGroup hdesired
    have hsame := (addGroup_spec h.pool ginfo desiredCount).2.2
    unfold SelectionPool.addWhile
    split
    · rename_i added heq
      rw [heq] at hadded
      exact ih hadded
    · rename_i added heq
      rw [heq] at hsame
      have hfull : added = pool := hsame rfl
      rw [hfull]
      exact h

theorem add (h : FillOk groups queue slots side) {desiredCount : Int}
    (hdesired : desiredCount ≤ slots) : FillOk groups queue slots (side.add groups desiredCount) := by
  apply FillOk.addWhile h
  have hfits := h.fits
  omega

theorem addUninvited {free : Int} {rest : List Address}
    (h : FillOk groups queue slots ⟨free, pool, rest⟩) {desiredCount : Nat}
    (hdesired : (desiredCount : Int) ≤ slots) :
    FillOk groups queue slots
      ⟨free, SelectionPool.addUninvited groups desiredCount rest pool, []⟩ := by
  induction rest generalizing pool with
  | nil => exact h
  | cons ginfo rest ih =>
    unfold SelectionPool.addUninvited
    split
    · exact ih (h.pass (sublist_cons_self ginfo rest))
    have hadded := h.addGroup hdesired
    split
    · rename_i added heq
      rw [heq] at hadded
      exact ih hadded
    · rename_i added heq
      rw [heq] at hadded
      exact hadded.pass (nil_sublist rest)

theorem addUntil {free : Int} {rest : List Address} {maxPlayers : Nat}
    (h : FillOk groups queue slots ⟨free, pool, rest⟩) (minPlayers : Nat) (hmax : (maxPlayers : Int) ≤ slots) :
    FillOk groups queue slots
        ⟨free, (SelectionPool.addUntil groups minPlayers maxPlayers rest pool).2,
          (SelectionPool.addUntil groups minPlayers maxPlayers rest pool).1.tail⟩ ∧
      (pool.playerCount < minPlayers →
        minPlayers ≤ (SelectionPool.addUntil groups minPlayers maxPlayers rest pool).2.playerCount →
        (SelectionPool.addUntil groups minPlayers maxPlayers rest pool).1 ≠ []) := by
  induction rest generalizing pool with
  | nil => exact ⟨h, fun hless hreached => absurd hreached (Nat.not_le_of_lt hless)⟩
  | cons ginfo rest ih =>
    unfold SelectionPool.addUntil
    split
    · exact ih (h.pass (sublist_cons_self ginfo rest))
    extract_lets added
    have hadded : FillOk groups queue slots ⟨free, added, rest⟩ := h.addGroup hmax
    split
    · exact ⟨hadded, fun _ _ => cons_ne_nil _ _⟩
    · rename_i hfew
      exact ⟨(ih hadded).1, fun _ => (ih hadded).2 (Nat.lt_of_not_le hfew)⟩

section
variable (h : FillOk groups queue slots side)
include h

theorem kick (size : Nat) :
    FillOk groups queue slots { side with pool := (side.pool.kickGroup groups size).1 } := by
  obtain ⟨hsublist, hcount⟩ := kickGroup_le groups side.pool size
  refine ⟨?_, h.free, ?_, (hsublist.append_right side.rest).trans h.sublist, ?_⟩
  · rcases Nat.eq_zero_or_pos side.pool.playerCount with hzero | hpos
    · rw [kickGroup_empty hzero]
      exact h.pool
    · exact (kickGroup_spec h.pool hpos size).1
  · have hfits := h.fits
    change ((side.pool.kickGroup groups size).1.playerCount : Int) ≤ slots
    omega
  · exact fun ginfo hmem => h.uninvited ginfo (hsublist.subset hmem)

theorem diff_nonneg : 0 ≤ side.diff := by
  have hfits := h.fits
  have hfree := h.free
  unfold FillSide.diff
  omega

theorem desired_le (hothers : FillOk groups queue' slots' others) :
    (if side.free ≥ others.diff then side.free - others.diff else 0) ≤ slots := by
  have hdiff := hothers.diff_nonneg
  have hfree := h.free
  have hfits := h.fits
  split
  · omega
  · omega

end

theorem balanceRound (h : FillOk groups queue slots side)
    (hothers : FillOk groups queue' slots' others) :
    FillOk groups queue slots (FillSide.balanceRound groups side others).1 ∧
      FillOk groups queue' slots' (FillSide.balanceRound groups side others).2.1 := by
  unfold FillSide.balanceRound
  extract_lets kicked after refilled
  have hafter : FillOk groups queue slots after := h.kick _
  have hrefilled : FillOk groups queue slots refilled := by
    unfold refilled
    split
    · exact hafter.add (h.desired_le hothers)
    · exact hafter
  split
  · split
    · exact ⟨hrefilled, hothers⟩
    · exact ⟨hrefilled, hothers.kick _⟩
  · exact ⟨hrefilled, hothers⟩

end FillOk

namespace Iterators

theorem dereference_of_lt {list : List Address} {itr : Nat} (h : itr < list.length) :
    dereference list itr = .ok (list[itr]) := by
  unfold dereference
  rw [getElem?_eq_getElem h]

/-- The search of `KickGroup` stays inside the pool. -/
theorem groupToKick_eq (groups : Address → GroupQueueInfo P) (selected : List Address)
    (size : Nat) :
    groupToKick groups selected size = .ok (SelectionPool.groupToKick groups selected size) := by
  have hloop : ∀ (positions : List Nat) (kick : Bool × Nat),
      (∀ itr ∈ positions, itr < selected.length) → (positions ≠ [] → kick.2 < selected.length) →
      positions.foldlM (fun (kick : Bool × Nat) itr => do
        let ginfo ← dereference selected itr
        if (((groups ginfo).size : Int) - size).natAbs ≤ 1 then Except.ok (true, itr)
        else if kick.1 then Except.ok kick
        else
          let toKick ← dereference selected kick.2
          Except.ok (if (groups ginfo).size ≥ (groups toKick).size then (kick.1, itr) else kick))
        kick =
      .ok (positions.foldl (fun (kick : Bool × Nat) i =>
        if (((selected[i]?.map fun ginfo => (groups ginfo).size).getD 0 : Int) - size).natAbs ≤ 1 then
          (true, i)
        else if !kick.1 && decide ((selected[i]?.map fun ginfo => (groups ginfo).size).getD 0 ≥
            (selected[kick.2]?.map fun ginfo => (groups ginfo).size).getD 0) then (kick.1, i)
        else kick) kick) := by
    intro positions
    induction positions with
    | nil => exact fun kick _ _ => rfl
    | cons itr positions ih =>
      intro kick hall hkick
      have hitr := hall itr mem_cons_self
      have hkick := hkick (cons_ne_nil _ _)
      have hrest := fun i hi => hall i (mem_cons_of_mem _ hi)
      simp only [foldlM_cons, foldl_cons, dereference_of_lt hitr,
        dereference_of_lt hkick, getElem?_eq_getElem hitr, getElem?_eq_getElem hkick,
        map_some, getD_some, bind, Except.bind]
      by_cases hnear : (((groups selected[itr]).size : Int) - size).natAbs ≤ 1
      · rw [if_pos hnear, if_pos hnear]
        exact ih (true, itr) hrest fun _ => hitr
      rw [if_neg hnear, if_neg hnear]
      cases hfound : kick.1 with
      | true => exact ih kick hrest fun _ => hkick
      | false =>
        by_cases hlarge : (groups selected[itr]).size ≥ (groups selected[kick.2]).size
        · simp only [hlarge, Bool.false_eq_true, if_false, if_true, Bool.not_false,
            Bool.true_and, decide_true]
          exact ih (false, itr) hrest fun _ => hitr
        · simp only [hlarge, Bool.false_eq_true, if_false, Bool.not_false, Bool.true_and,
            decide_false]
          exact ih kick hrest fun _ => hkick
  unfold groupToKick SelectionPool.groupToKick
  rw [hloop _ _ (fun itr hmem => mem_range.mp hmem) fun hne => ?_]
  · rfl
  · rcases Nat.eq_zero_or_pos selected.length with hzero | hpos
    · rw [hzero] at hne
      exact absurd rfl hne
    · exact hpos

theorem kickGroup_eq (h : PoolOk groups pool) (size : Nat) :
    kickGroup groups pool size = .ok (pool.kickGroup groups size) := by
  unfold kickGroup
  rw [groupToKick_eq]
  dsimp only [bind, Except.bind]
  rcases Nat.eq_zero_or_pos pool.playerCount with hzero | hpos
  · rw [kickGroup_empty hzero, if_neg (by omega)]
  have hlt := groupToKick_lt groups (h.selected_ne_nil hpos) size
  rw [if_pos hpos, dereference_of_lt hlt]
  unfold SelectionPool.kickGroup
  rw [if_pos hpos]
  simp only [getElem?_eq_getElem hlt, map_some, getD_some, gt_iff_lt, ← Nat.not_le, decide_not]

theorem addWhile_eq (groups : Address → GroupQueueInfo P) (count desiredCount : Nat) (rest : List Address) (index : Nat)
    (pool : SelectionPool) (h : index + rest.length = count) :
    addWhile groups count desiredCount rest index pool =
      .ok ((SelectionPool.addWhile groups desiredCount rest pool).1,
        count - (SelectionPool.addWhile groups desiredCount rest pool).1.length,
        (SelectionPool.addWhile groups desiredCount rest pool).2) := by
  induction rest generalizing index pool with
  | nil =>
    rw [length_nil, Nat.add_zero] at h
    rw [addWhile, if_neg (by omega), h]
    rfl
  | cons ginfo rest ih =>
    rw [length_cons] at h
    rw [addWhile, if_pos (by omega), SelectionPool.addWhile]
    cases pool.addGroup groups ginfo desiredCount with
    | mk added more =>
      cases more with
      | true => exact ih (index + 1) added (by omega)
      | false =>
        have hindex : index = count - (ginfo :: rest).length := by
          rw [length_cons]
          omega
        rw [hindex]

def counted (count : Nat) (side : FillSide) : CountedSide :=
  { side with index := count - side.rest.length, count }

variable {count count' : Nat} {side others : FillSide}

theorem add_eq (h : side.rest.length ≤ count) (desiredCount : Int) :
    (counted count side).add groups desiredCount = .ok (counted count (side.add groups desiredCount)) := by
  have hadd := addWhile_eq groups count desiredCount.toNat side.rest
    (count - side.rest.length) side.pool (by omega)
  change (addWhile groups count desiredCount.toNat side.rest (count - side.rest.length) side.pool >>=
    _) = _
  rw [hadd]
  rfl

theorem balanceRound_eq (h : PoolOk groups side.pool) (hothers : PoolOk groups others.pool)
    (hcount : side.rest.length ≤ count) :
    (counted count side).balanceRound groups (counted count' others) =
      .ok (counted count (FillSide.balanceRound groups side others).1,
        counted count' (FillSide.balanceRound groups side others).2.1,
        (FillSide.balanceRound groups side others).2.2) := by
  unfold FillSide.balanceRound
  extract_lets kicked after refilled
  have hrefilled : (counted count side).replaceGroup groups (counted count' others) =
      .ok (counted count refilled) := by
    change (kickGroup groups side.pool (others.diff - side.diff).toNat >>= _) = _
    rw [kickGroup_eq h]
    change (if kicked.2 then (counted count after).add groups
      (if side.free ≥ others.diff then side.free - others.diff else 0) else _) = _
    unfold refilled
    cases kicked.2 with
    | true => exact add_eq (show after.rest.length ≤ count from hcount) _
    | false => rfl
  unfold CountedSide.balanceRound
  rw [hrefilled]
  change (if refilled.pool.playerCount = 0 then _ else _) = _
  by_cases hempty : refilled.pool.playerCount = 0
  · rw [if_pos hempty, if_pos hempty]
    by_cases hfew : side.free ≤ others.diff + 1
    · rw [if_pos hfew]
      exact if_pos hfew
    rw [if_neg hfew]
    refine (if_neg hfew).trans ?_
    change (kickGroup groups others.pool (others.diff - side.diff).toNat >>= _) = _
    rw [kickGroup_eq hothers]
    rfl
  · rw [if_neg hempty, if_neg hempty]

section Loop

variable {aliQueue hordeQueue : List Address} {aliSlots hordeSlots : Int} {ali horde : FillSide}

theorem rest_le (h : FillOk groups aliQueue aliSlots side) :
    side.rest.length ≤ aliQueue.length := by
  have hlength := h.sublist.length_le
  rw [length_append] at hlength
  omega

/-- The loop ends without a fault; where it was not left by a `break`, the slots that stay
free differ by at most one or the pools have no players. -/
theorem balance_fills (hali : FillOk groups aliQueue aliSlots ali)
    (hhorde : FillOk groups hordeQueue hordeSlots horde) :
    ∃ after : FillSide × FillSide × Bool, BattlegroundQueue.balance groups ali horde = .ok after ∧
      balance groups (counted aliQueue.length ali) (counted hordeQueue.length horde) =
        .ok (counted aliQueue.length after.1, counted hordeQueue.length after.2.1, after.2.2) ∧
      FillOk groups aliQueue aliSlots after.1 ∧ FillOk groups hordeQueue hordeSlots after.2.1 ∧
      (after.2.2 = false → (after.1.diff - after.2.1.diff).natAbs ≤ 1 ∨
        after.1.pool.playerCount = 0 ∧ after.2.1.pool.playerCount = 0) := by
  have hends := balance_ends hali.pool hhorde.pool
  cases hafter : BattlegroundQueue.balance groups ali horde with
  | error e => exact (hends.may_of_error hafter).elim
  | ok after =>
    have hround : ∀ (s s' : FillSide × FillSide × Bool), FillOk groups aliQueue aliSlots s.1 ∧
        FillOk groups hordeQueue hordeSlots s.2.1 →
        (if s.1.diff < s.2.1.diff then .ok (FillSide.balanceRound groups s.1 s.2.1)
          else
            let after := FillSide.balanceRound groups s.2.1 s.1
            .ok (after.2.1, after.1, after.2.2)) = (.ok s' : Except QueueFault _) →
        (if s.1.diff < s.2.1.diff then CountedSide.balanceRound groups
            (counted aliQueue.length s.1) (counted hordeQueue.length s.2.1)
          else (CountedSide.balanceRound groups (counted hordeQueue.length s.2.1)
            (counted aliQueue.length s.1)).map fun after => (after.2.1, after.1, after.2.2)) =
          .ok (counted aliQueue.length s'.1, counted hordeQueue.length s'.2.1, s'.2.2) ∧
        FillOk groups aliQueue aliSlots s'.1 ∧ FillOk groups hordeQueue hordeSlots s'.2.1 := by
      intro s s' hs hs'
      split at hs'
      · rename_i hless
        cases hs'
        rw [if_pos hless, balanceRound_eq hs.1.pool hs.2.pool (rest_le hs.1)]
        exact ⟨rfl, hs.1.balanceRound hs.2⟩
      · rename_i hless
        cases hs'
        rw [if_neg hless, balanceRound_eq hs.2.pool hs.1.pool (rest_le hs.2)]
        exact ⟨rfl, (hs.2.balanceRound hs.1).symm⟩
    have hloop : balance groups (counted aliQueue.length ali) (counted hordeQueue.length horde) =
        .ok (counted aliQueue.length after.1, counted hordeQueue.length after.2.1, after.2.2) ∧
        FillOk groups aliQueue aliSlots after.1 ∧ FillOk groups hordeQueue hordeSlots after.2.1 := by
      refine whileSome_map (s := (ali, horde, false)) (fun s : FillSide × FillSide × Bool =>
          (counted aliQueue.length s.1, counted hordeQueue.length s.2.1, s.2.2))
        (fun s => FillOk groups aliQueue aliSlots s.1 ∧ FillOk groups hordeQueue hordeSlots s.2.1)
        (fun _ _ => ?_) (fun s _ s' hs _ hs' => hround s s' hs hs') ⟨hali, hhorde⟩ hafter
      rfl
    obtain ⟨hloop, hone, htwo⟩ := hloop
    refine ⟨after, rfl, hloop, hone, htwo, fun hleft => ?_⟩
    have hend := next_of_whileSome hafter
    simp only [hleft, Bool.not_false, Bool.true_and, ite_eq_right_iff, reduceCtorEq, imp_false,
      Bool.and_eq_true, Bool.or_eq_true, decide_eq_true_eq] at hend
    omega

/-- Both loops over the queues, and the third unless balancing is off. -/
theorem fillSides_fills (groups : Address → GroupQueueInfo P) (invitationType : InvitationType) {aliSlots hordeSlots : Int}
    (aliList hordeList : List Address) (hali : 0 ≤ aliSlots) (hhorde : 0 ≤ hordeSlots) :
    let ali := FillSide.add groups ⟨aliSlots, {}, aliList⟩ aliSlots
    let horde := FillSide.add groups ⟨hordeSlots, {}, hordeList⟩ hordeSlots
    ∃ after : FillSide × FillSide × Bool,
      (if invitationType = .BG_QUEUE_INVITATION_TYPE_NO_BALANCE then .ok (ali, horde, false)
        else BattlegroundQueue.balance groups ali horde) = .ok after ∧
      fillSides groups invitationType (counted aliList.length ⟨aliSlots, {}, aliList⟩)
        (counted hordeList.length ⟨hordeSlots, {}, hordeList⟩) =
        .ok (counted aliList.length after.1, counted hordeList.length after.2.1, after.2.2) ∧
      FillOk groups aliList aliSlots after.1 ∧ FillOk groups hordeList hordeSlots after.2.1 ∧
      (invitationType ≠ .BG_QUEUE_INVITATION_TYPE_NO_BALANCE → after.2.2 = false →
        (after.1.diff - after.2.1.diff).natAbs ≤ 1 ∨
          after.1.pool.playerCount = 0 ∧ after.2.1.pool.playerCount = 0) := by
  intro ali horde
  have haliOk : FillOk groups aliList aliSlots ali :=
    (FillOk.start groups aliList hali).add (Int.le_refl _)
  have hhordeOk : FillOk groups hordeList hordeSlots horde :=
    (FillOk.start groups hordeList hhorde).add (Int.le_refl _)
  have hfill : fillSides groups invitationType (counted aliList.length ⟨aliSlots, {}, aliList⟩)
      (counted hordeList.length ⟨hordeSlots, {}, hordeList⟩) =
      if invitationType = .BG_QUEUE_INVITATION_TYPE_NO_BALANCE then
        .ok (counted aliList.length ali, counted hordeList.length horde, false)
      else balance groups (counted aliList.length ali) (counted hordeList.length horde) := by
    have hali : (counted aliList.length ⟨aliSlots, {}, aliList⟩).add groups aliSlots =
        .ok (counted aliList.length ali) := add_eq (Nat.le_refl _) aliSlots
    have hhorde : (counted hordeList.length ⟨hordeSlots, {}, hordeList⟩).add groups hordeSlots =
        .ok (counted hordeList.length horde) := add_eq (Nat.le_refl _) hordeSlots
    change ((counted aliList.length ⟨aliSlots, {}, aliList⟩).add groups aliSlots >>= fun _ =>
      (counted hordeList.length ⟨hordeSlots, {}, hordeList⟩).add groups hordeSlots >>= _) = _
    rw [hali, hhorde]
    rfl
  rw [hfill]
  by_cases htype : invitationType = .BG_QUEUE_INVITATION_TYPE_NO_BALANCE
  · rw [if_pos htype, if_pos htype]
    exact ⟨(ali, horde, false), rfl, rfl, haliOk, hhordeOk, fun hne => absurd htype hne⟩
  · rw [if_neg htype, if_neg htype]
    obtain ⟨after, hafter, hloop, hone, htwo, hleft⟩ := balance_fills haliOk hhordeOk
    exact ⟨after, hafter, hloop, hone, htwo, fun _ => hleft⟩

end Loop

section Battleground

variable (q : BattlegroundQueue P) (invitationType : InvitationType) (bg : FreeSlotBattleground)
  (bracketId : Fin MAX_BATTLEGROUND_BRACKETS)

/-- `FillPlayersToBG` does what its model does, for slots that are those of the battleground
unless each team has one. -/
theorem fillPlayersToBG_fills (hpools : ∀ team, q.selectionPools team = {}) :
    ∃ (ali horde : FillSide) (left : Bool) (slots : Team → Int),
      q.fillPlayersToBG invitationType bg bracketId =
        .ok ((q.setPool .ALLIANCE ali.pool).setPool .HORDE horde.pool) ∧
      fillPlayersToBG q invitationType bg bracketId =
        .ok ((q.setPool .ALLIANCE ali.pool).setPool .HORDE horde.pool, left) ∧
      FillOk q.groups (q.queuedGroups ⟨bracketId, .BG_QUEUE_NORMAL, .ALLIANCE⟩) (slots .ALLIANCE)
        ali ∧
      FillOk q.groups (q.queuedGroups ⟨bracketId, .BG_QUEUE_NORMAL, .HORDE⟩) (slots .HORDE) horde ∧
      (∀ team, slots team ≤ bg.freeSlotsForTeam team) ∧
      ((∀ team, slots team = bg.freeSlotsForTeam team) ∨ ∀ team, bg.freeSlotsForTeam team = 1) ∧
      (invitationType ≠ .BG_QUEUE_INVITATION_TYPE_NO_BALANCE → left = false →
        (ali.diff - horde.diff).natAbs ≤ 1 ∨
          ali.pool.playerCount = 0 ∧ horde.pool.playerCount = 0) := by
  unfold fillPlayersToBG BattlegroundQueue.fillPlayersToBG
  extract_lets hordeFree aliFree aliGroups hordeGroups aliCount hordeCount even aliSlots hordeSlots
    ali horde side
  have hslots : 0 ≤ aliSlots ∧ 0 ≤ hordeSlots ∧ aliSlots ≤ aliFree ∧ hordeSlots ≤ hordeFree ∧
      (aliSlots = aliFree ∧ hordeSlots = hordeFree ∨ aliFree = 1 ∧ hordeFree = 1) := by
    unfold aliSlots hordeSlots
    cases heven : even with
    | false =>
      exact ⟨Int.natCast_nonneg _, Int.natCast_nonneg _, Int.le_refl _, Int.le_refl _,
        .inl ⟨rfl, rfl⟩⟩
    | true =>
      unfold even at heven
      simp only [Bool.and_eq_true, beq_iff_eq] at heven
      obtain ⟨⟨⟨_, hhorde⟩, hali⟩, _⟩ := heven
      omega
  obtain ⟨after, hafter, hfill, hone, htwo, hleft⟩ :=
    fillSides_fills q.groups invitationType aliGroups hordeGroups hslots.1 hslots.2.1
  have hali : ali = FillSide.add q.groups ⟨aliSlots, {}, aliGroups⟩ aliSlots := by
    unfold ali
    rw [hpools]
  have hhorde : horde = FillSide.add q.groups ⟨hordeSlots, {}, hordeGroups⟩ hordeSlots := by
    unfold horde
    rw [hpools]
  have hfilled : fillSides q.groups invitationType (side .ALLIANCE aliSlots aliGroups)
      (side .HORDE hordeSlots hordeGroups) = .ok (counted aliGroups.length after.1,
        counted hordeGroups.length after.2.1, after.2.2) := by
    rw [← hfill]
    unfold side counted
    rw [hpools, hpools, Nat.sub_self, Nat.sub_self]
  refine ⟨after.1, after.2.1, after.2.2, fun team => team.casesOn aliSlots hordeSlots, ?_, ?_, hone, htwo, ?_, ?_, hleft⟩
  · rw [hali, hhorde]
    by_cases htype : invitationType = .BG_QUEUE_INVITATION_TYPE_NO_BALANCE
    · rw [if_pos htype] at hafter ⊢
      cases hafter
      rfl
    · rw [if_neg htype] at hafter ⊢
      rw [hafter]
      rfl
  · rw [hfilled]
    rfl
  · intro team
    cases team with
    | ALLIANCE => exact hslots.2.2.1
    | HORDE => exact hslots.2.2.2.1
  · rcases hslots.2.2.2.2 with ⟨hali, hhorde⟩ | ⟨hali, hhorde⟩
    · refine .inl fun team => ?_
      cases team with
      | ALLIANCE => exact hali
      | HORDE => exact hhorde
    · refine .inr fun team => ?_
      cases team with
      | ALLIANCE => exact Int.ofNat.inj hali
      | HORDE => exact Int.ofNat.inj hhorde

end Battleground

end Iterators

/-!
# What the check for an unrated match selects

It selects from the normal queues only, and changes nothing else before a match is found.
-/

variable {q : BattlegroundQueue P} {bracketId : Fin MAX_BATTLEGROUND_BRACKETS}

theorem Team.rec_other {p : Team → Prop} (team : Team) (h : p team) (hother : p team.other) :
    ∀ other, p other
  | .ALLIANCE => match team with
    | .ALLIANCE => h
    | .HORDE => hother
  | .HORDE => match team with
    | .ALLIANCE => hother
    | .HORDE => h

/-- The pool of each team is part of its normal queue and within the bound. -/
def PoolsOk (q q' : BattlegroundQueue P) (bracketId : Fin MAX_BATTLEGROUND_BRACKETS)
    (maxPlayers : Nat) : Prop :=
  ∀ team, FillOk q.groups (q.queuedGroups ⟨bracketId, .BG_QUEUE_NORMAL, team⟩) maxPlayers
    ⟨maxPlayers, q'.selectionPools team, []⟩

theorem setPool_self (q : BattlegroundQueue P) (team : Team) (pool : SelectionPool) :
    (q.setPool team pool).selectionPools team = pool := update_self ..

theorem setPool_of_ne (q : BattlegroundQueue P) {team other : Team} (pool : SelectionPool)
    (h : other ≠ team) : (q.setPool team pool).selectionPools other = q.selectionPools other :=
  update_of_ne h ..

theorem addUninvited_count (groups : Address → GroupQueueInfo P) (desiredCount : Nat)
    (list : List Address) (pool : SelectionPool) :
    pool.playerCount ≤ (SelectionPool.addUninvited groups desiredCount list pool).playerCount := by
  induction list generalizing pool with
  | nil => exact Nat.le_refl _
  | cons ginfo list ih =>
    have hadded : pool.playerCount ≤ (pool.addGroup groups ginfo desiredCount).1.playerCount := by
      rcases addGroup_cases groups pool ginfo desiredCount with ⟨_, _, hadd⟩ | ⟨_, hadd⟩
      · rw [hadd]
        exact Nat.le_add_right _ _
      · rw [hadd]
    unfold SelectionPool.addUninvited
    split
    · exact ih pool
    split
    · rename_i added heq
      rw [heq] at hadded
      exact hadded.trans (ih added)
    · rename_i added heq
      rw [heq] at hadded
      exact hadded

theorem addUntil_one {groups : Address → GroupQueueInfo P} {maxPlayers : Nat}
    {list : List Address} (hplayers : ∀ ginfo ∈ list, 0 < (groups ginfo).size) :
    (SelectionPool.addUntil groups 1 maxPlayers list {}).2 =
      match list.find? fun ginfo =>
          !(groups ginfo).invited && decide ((groups ginfo).size ≤ maxPlayers) with
      | none => {}
      | some ginfo => ⟨[ginfo], (groups ginfo).size⟩ := by
  induction list with
  | nil => rfl
  | cons ginfo list ih =>
    have hsize := hplayers ginfo mem_cons_self
    have ih := ih fun other hmem => hplayers other (mem_cons_of_mem _ hmem)
    unfold SelectionPool.addUntil
    rw [find?_cons]
    split
    · rename_i hinvited
      rw [hinvited]
      exact ih
    · rename_i hinvited
      rw [Bool.not_eq_true] at hinvited
      rcases addGroup_cases groups {} ginfo maxPlayers with ⟨_, hfits, hadd⟩ | ⟨hlarge, hadd⟩
      · rw [hadd, hinvited, decide_eq_true (by simpa using hfits)]
        simp only [Nat.zero_add, nil_append, Bool.not_false, Bool.true_and]
        rw [if_pos (show (groups ginfo).size ≥ 1 from hsize)]
      · have hlarge : maxPlayers < (groups ginfo).size := by simpa using hlarge hinvited
        rw [hadd, hinvited, decide_eq_false (Nat.not_le_of_lt hlarge)]
        exact ih

namespace Iterators

/-- What `CheckNormalMatch` leaves behind. -/
structure NormalChecked (q : BattlegroundQueue P) (env : Surroundings)
    (bracketId : Fin MAX_BATTLEGROUND_BRACKETS) (minPlayers maxPlayers : Nat)
    (after : BattlegroundQueue P × Bool) : Prop where
  groups : after.1.groups = q.groups
  queuedGroups : after.1.queuedGroups = q.queuedGroups
  pools : PoolsOk q after.1 bracketId maxPlayers
  enough : after.2 = true → env.isTesting = false →
    ∀ team, minPlayers ≤ (after.1.selectionPools team).playerCount
  balanced : after.2 = true → env.invitationType ≠ .BG_QUEUE_INVITATION_TYPE_NO_BALANCE →
    (∀ team, minPlayers ≤ (after.1.selectionPools team).playerCount) →
    (((after.1.selectionPools .HORDE).playerCount : Int) -
      (after.1.selectionPools .ALLIANCE).playerCount).natAbs ≤ 2
  few : ∀ team, (after.1.selectionPools team).playerCount < minPlayers →
    ((after.2 = false → env.isTesting = true →
        ∀ other, (after.1.selectionPools other).playerCount = 0) ∧
      ∀ other, after.1.selectionPools other = (SelectionPool.addUntil q.groups minPlayers maxPlayers
        (q.queuedGroups ⟨bracketId, .BG_QUEUE_NORMAL, other⟩) {}).2)

/-- The pools that `CheckNormalMatch` decides on; `full` says that it has balanced them. -/
structure Chosen (q : BattlegroundQueue P) (env : Surroundings)
    (bracketId : Fin MAX_BATTLEGROUND_BRACKETS) (minPlayers maxPlayers : Nat) (full : Bool)
    (after : BattlegroundQueue P) : Prop where
  groups : after.groups = q.groups
  queuedGroups : after.queuedGroups = q.queuedGroups
  pools : PoolsOk q after bracketId maxPlayers
  reached : full = true → ∀ team, minPlayers ≤ (after.selectionPools team).playerCount
  first : full = false → ∀ team, after.selectionPools team =
    (SelectionPool.addUntil q.groups minPlayers maxPlayers
      (q.queuedGroups ⟨bracketId, .BG_QUEUE_NORMAL, team⟩) {}).2
  full : env.invitationType ≠ .BG_QUEUE_INVITATION_TYPE_NO_BALANCE →
    (∀ team, minPlayers ≤ (after.selectionPools team).playerCount) → full = true

section Answer

variable {env : Surroundings} {minPlayers maxPlayers : Nat} {full : Bool}
  {after : BattlegroundQueue P}

theorem Chosen.checked (h : Chosen q env bracketId minPlayers maxPlayers full after) {found : Bool}
    (henough : found = true → env.isTesting = false →
      ∀ team, minPlayers ≤ (after.selectionPools team).playerCount)
    (hbalanced : found = true → full = true → (((after.selectionPools .HORDE).playerCount : Int) -
        (after.selectionPools .ALLIANCE).playerCount).natAbs ≤ 2)
    (hnone : found = false → full = false → env.isTesting = true →
      ∀ team, (after.selectionPools team).playerCount = 0) :
    NormalChecked q env bracketId minPlayers maxPlayers (after, found) := by
  have hfew : ∀ team, (after.selectionPools team).playerCount < minPlayers → full = false := by
    intro team hless
    by_contra hnot
    rw [Bool.not_eq_false] at hnot
    exact absurd (h.reached hnot team) (Nat.not_le_of_lt hless)
  exact
    { groups := h.groups
      queuedGroups := h.queuedGroups
      pools := h.pools
      enough := henough
      balanced := fun hfound htype hcount => hbalanced hfound (h.full htype hcount)
      few := fun team hless => ⟨fun hnot htesting => hnone hnot (hfew team hless) htesting,
        h.first (hfew team hless)⟩ }

/-- The three ways in which `CheckNormalMatch` returns. -/
theorem Chosen.answer (h : Chosen q env bracketId minPlayers maxPlayers full after) :
    NormalChecked q env bracketId minPlayers maxPlayers
      (if full && decide ((((after.selectionPools .HORDE).playerCount : Int) -
          (after.selectionPools .ALLIANCE).playerCount).natAbs > 2) then (after, false)
      else if env.isTesting && (decide ((after.selectionPools .ALLIANCE).playerCount > 0) ||
          decide ((after.selectionPools .HORDE).playerCount > 0)) then (after, true)
      else (after, decide ((after.selectionPools .ALLIANCE).playerCount ≥ minPlayers) &&
        decide ((after.selectionPools .HORDE).playerCount ≥ minPlayers))) := by
  split
  · rename_i hunbalanced
    rw [Bool.and_eq_true] at hunbalanced
    exact h.checked (fun hfound => nomatch hfound) (fun hfound => nomatch hfound)
      fun _ hnot => by rw [hunbalanced.1] at hnot; cases hnot
  · rename_i hbalanced
    rw [Bool.and_eq_true, decide_eq_true_eq, not_and] at hbalanced
    have hdiff : full = true → (((after.selectionPools .HORDE).playerCount : Int) -
        (after.selectionPools .ALLIANCE).playerCount).natAbs ≤ 2 :=
      fun hcase => Nat.le_of_not_lt (hbalanced hcase)
    split
    · rename_i htesting
      rw [Bool.and_eq_true] at htesting
      exact h.checked (fun _ hnot => by rw [htesting.1] at hnot; cases hnot) (fun _ => hdiff)
        fun hnot => nomatch hnot
    · rename_i htesting
      simp only [Bool.and_eq_true, Bool.or_eq_true, decide_eq_true_eq, not_and, not_or,
        Nat.not_lt, Nat.le_zero] at htesting
      refine h.checked (fun hfound _ => ?_) (fun _ => hdiff) fun _ _ hon => ?_
      · rw [Bool.and_eq_true, decide_eq_true_eq, decide_eq_true_eq] at hfound
        exact Team.rec_other .ALLIANCE hfound.1 hfound.2
      · exact Team.rec_other .ALLIANCE (htesting hon).1 (htesting hon).2

end Answer

theorem checkNormalMatch_checked (bracketId : Fin MAX_BATTLEGROUND_BRACKETS)
    (hpools : ∀ team, q.selectionPools team = {}) (env : Surroundings) {minPlayers : Nat} (maxPlayers : Nat) (hmin : 0 < minPlayers) :
    ∃ after, checkNormalMatch q env bracketId minPlayers maxPlayers = .ok after ∧
      q.checkNormalMatch env bracketId minPlayers maxPlayers = after ∧
      NormalChecked q env bracketId minPlayers maxPlayers after := by
  unfold checkNormalMatch BattlegroundQueue.checkNormalMatch
  extract_lets first selected count j full chosen
  have hselected : ∀ team, selected.selectionPools team = (first team).2 := by
    intro team
    cases team <;> rfl
  have hfirst : ∀ team, FillOk q.groups (q.queuedGroups ⟨bracketId, .BG_QUEUE_NORMAL, team⟩)
      maxPlayers ⟨maxPlayers, (first team).2, (first team).1.tail⟩ ∧
      (minPlayers ≤ (first team).2.playerCount → (first team).1 ≠ []) := by
    intro team
    unfold first
    rw [hpools team]
    obtain ⟨hok, hreached⟩ := (FillOk.start q.groups
      (q.queuedGroups ⟨bracketId, .BG_QUEUE_NORMAL, team⟩)
      (Int.natCast_nonneg maxPlayers)).addUntil minPlayers (Int.le_refl _)
    exact ⟨hok, hreached hmin⟩
  have hfull : full = true ↔ env.invitationType ≠ .BG_QUEUE_INVITATION_TYPE_NO_BALANCE ∧
      ∀ team, minPlayers ≤ (first team).2.playerCount := by
    simp only [full, count, hselected, Bool.and_eq_true, decide_eq_true_eq, ge_iff_le]
    constructor
    · exact fun ⟨⟨htype, hhorde⟩, hali⟩ => ⟨htype, Team.rec_other .ALLIANCE hali hhorde⟩
    · exact fun ⟨htype, hcount⟩ => ⟨⟨htype, hcount .HORDE⟩, hcount .ALLIANCE⟩
  have hrest : ∀ team, FillOk q.groups (q.queuedGroups ⟨bracketId, .BG_QUEUE_NORMAL, team⟩)
      maxPlayers ⟨maxPlayers, selected.selectionPools team, []⟩ := by
    intro team
    rw [hselected team]
    exact (hfirst team).1.pass (nil_sublist _)
  have hchosen : (if full then addToSmaller selected j (first j).1 else .ok selected) =
      .ok chosen := by
    unfold chosen
    cases hcase : full with
    | false => rfl
    | true =>
      have hne := (hfirst j).2 ((hfull.mp hcase).2 j)
      cases hitr : (first j).1 with
      | nil => exact absurd hitr hne
      | cons ginfo rest => rfl
  have hgrown : ∀ pool : SelectionPool, SelectionPool.addUninvited selected.groups
      (count selected j.other) (first j).1.tail (selected.selectionPools j) = pool →
      FillOk q.groups (q.queuedGroups ⟨bracketId, .BG_QUEUE_NORMAL, j⟩) maxPlayers
        ⟨maxPlayers, pool, []⟩ ∧ (first j).2.playerCount ≤ pool.playerCount := by
    rintro _ rfl
    rw [hselected j]
    refine ⟨(hfirst j).1.addUninvited ?_, addUninvited_count _ _ _ _⟩
    have hfits := (hfirst j.other).1.fits
    rw [← hselected j.other] at hfits
    exact hfits
  have hpair : ∀ team, full = true → chosen.selectionPools team = if team = j then
      SelectionPool.addUninvited selected.groups (count selected j.other) (first j).1.tail
        (selected.selectionPools j) else (first team).2 := by
    intro team hcase
    unfold chosen
    rw [if_pos hcase]
    split
    · rename_i hteam
      rw [hteam, setPool_self]
    · rename_i hteam
      rw [setPool_of_ne _ _ hteam, hselected]
  have hsame : full = false → chosen = selected := by
    intro hcase
    unfold chosen
    rw [hcase]
    rfl
  have hframe : chosen.groups = q.groups ∧ chosen.queuedGroups = q.queuedGroups := by
    unfold chosen
    split
    · exact ⟨rfl, rfl⟩
    · exact ⟨rfl, rfl⟩
  have hfirstPools : full = false → ∀ team, chosen.selectionPools team = (first team).2 := by
    intro hcase team
    rw [hsame hcase]
    exact hselected team
  have hmatch : Chosen q env bracketId minPlayers maxPlayers full chosen := by
    refine ⟨hframe.1, hframe.2, fun team => ?_, fun hcase team => ?_, fun hcase team => ?_,
      fun htype hcount => ?_⟩
    · cases hcase : full with
      | false =>
        rw [hfirstPools hcase team, ← hselected team]
        exact hrest team
      | true =>
        rw [hpair team hcase]
        split
        · rename_i hteam
          rw [hteam]
          exact (hgrown _ rfl).1
        · rw [← hselected team]
          exact hrest team
    · have hreached := (hfull.mp hcase).2 team
      rw [hpair team hcase]
      split
      · rename_i hteam
        rw [hteam] at hreached
        exact hreached.trans (hgrown _ rfl).2
      · exact hreached
    · rw [hfirstPools hcase team]
      unfold first
      rw [hpools team]
    · by_contra hnot
      rw [Bool.not_eq_true] at hnot
      refine absurd (hfull.mpr ⟨htype, fun team => ?_⟩) (by rw [hnot]; exact Bool.false_ne_true)
      rw [← hfirstPools hnot team]
      exact hcount team
  rw [hchosen]
  exact ⟨_, rfl, rfl, hmatch.answer⟩

section Skirmish

variable {team : Team} {mark : Address}

theorem mem_eraseAfter {ginfo : Address} {list : List Address} (h : mark ∈ list) :
    mark ∈ BattlegroundQueue.eraseAfter mark ginfo list := by
  induction list with
  | nil => exact absurd h not_mem_nil
  | cons first rest ih =>
    unfold BattlegroundQueue.eraseAfter
    split
    · rename_i hfirst
      rw [hfirst]
      exact mem_cons_self
    · rename_i hfirst
      rcases mem_cons.mp h with heq | hmem
      · exact absurd heq.symm hfirst
      · exact mem_cons_of_mem _ (ih hmem)

theorem moveSelected_eq (selected : List Address)
    (h : mark ∈ q.queuedGroups ⟨bracketId, .BG_QUEUE_NORMAL, team⟩) :
    selected.foldlM (moveToOtherTeam bracketId team mark) q =
        .ok (selected.foldl (BattlegroundQueue.moveToOtherTeam bracketId team mark) q) ∧
      (selected.foldl (BattlegroundQueue.moveToOtherTeam bracketId team mark) q).selectionPools =
        q.selectionPools := by
  induction selected generalizing q with
  | nil => exact ⟨rfl, rfl⟩
  | cons ginfo selected ih =>
    have hmove : moveToOtherTeam bracketId team mark q ginfo =
        .ok (q.moveToOtherTeam bracketId team mark ginfo) := if_pos h
    have hother := QueueIndex.ne_other bracketId .BG_QUEUE_NORMAL team
    have hmem : mark ∈ (q.moveToOtherTeam bracketId team mark ginfo).queuedGroups
        ⟨bracketId, .BG_QUEUE_NORMAL, team⟩ := by
      unfold BattlegroundQueue.moveToOtherTeam
      simp only [BattlegroundQueue.setList, BattlegroundQueue.modifyGroup, update_self]
      rw [update_of_ne hother]
      exact mem_eraseAfter h
    obtain ⟨hrest, hpools⟩ := ih hmem
    rw [foldlM_cons, foldl_cons, hmove]
    exact ⟨hrest, hpools⟩

/-- Whoever stands past the last selected group was not selected. -/
theorem not_selected_of_past {list selected before rest : List Address} {ginfo : Address}
    (hlist : list = before ++ mark :: rest) (hnodup : list.Nodup)
    (hselected : selected.Sublist list) (hlast : selected.getLast? = some mark)
    (hpast : ginfo ∈ rest) : ginfo ∉ selected := by
  intro hmem
  obtain ⟨init, hinit⟩ := List.getLast?_eq_some_iff.mp hlast
  rw [hlist] at hnodup hselected
  obtain ⟨_, hmark, hdisjoint⟩ := nodup_append.mp hnodup
  have hmarkRest := (nodup_cons.mp hmark).1
  have hne : ginfo ≠ mark := fun heq => hmarkRest (heq ▸ hpast)
  rw [hinit] at hmem hselected
  have hfirst : ginfo ∈ init := by
    rcases mem_append.mp hmem with hmem | hmem
    · exact hmem
    · exact absurd (mem_singleton.mp hmem) hne
  have hpair : [ginfo, mark].Sublist (before ++ mark :: rest) :=
    ((List.singleton_sublist.mpr hfirst).append_right [mark]).trans hselected
  obtain ⟨one, two, hsplit, hone, htwo⟩ := List.sublist_append_iff.mp hpair
  cases one with
  | nil =>
    rw [nil_append] at hsplit
    rw [← hsplit] at htwo
    cases htwo with
    | cons _ hrest => exact hmarkRest (hrest.subset (by simp))
    | cons_cons _ _ => exact hne rfl
  | cons other one =>
    rw [cons_append, List.cons.injEq] at hsplit
    rw [← hsplit.1] at hone
    exact hdisjoint ginfo (hone.subset mem_cons_self) ginfo (mem_cons_of_mem _ hpast) rfl

/-- What `CheckSkirmishForSameFaction` leaves behind. -/
structure SkirmishChecked (q : BattlegroundQueue P) (bracketId : Fin MAX_BATTLEGROUND_BRACKETS)
    (minPlayers maxPlayers : Nat) (after : BattlegroundQueue P × Bool) : Prop where
  unchanged : after.2 = false → after.1.groups = q.groups ∧ after.1.queuedGroups = q.queuedGroups
  pools : after.2 = true → ∃ side, ∀ team,
    FillOk q.groups (q.queuedGroups ⟨bracketId, .BG_QUEUE_NORMAL, side⟩) maxPlayers
      ⟨maxPlayers, after.1.selectionPools team, []⟩
  disjoint : after.2 = true → ∀ ginfo ∈ (after.1.selectionPools .ALLIANCE).selectedGroups,
    ginfo ∉ (after.1.selectionPools .HORDE).selectedGroups
  enough : after.2 = true → ∀ team, minPlayers ≤ (after.1.selectionPools team).playerCount

/-- Where the pool of the Alliance is not chosen while it is empty, the match has a last
group to start from. -/
theorem checkSkirmish_checked {minPlayers maxPlayers : Nat} (hmin : 0 < minPlayers)
    (hpools : PoolsOk q q bracketId maxPlayers)
    (hnodup : ∀ team, (q.queuedGroups ⟨bracketId, .BG_QUEUE_NORMAL, team⟩).Nodup)
    (hback : minPlayers < (q.selectionPools .HORDE).playerCount →
      minPlayers ≤ (q.selectionPools .ALLIANCE).playerCount) :
    ∃ after, checkSkirmishForSameFaction q bracketId minPlayers = .ok after ∧
      q.checkSkirmishForSameFaction bracketId minPlayers = after ∧
      SkirmishChecked q bracketId minPlayers maxPlayers after := by
  have hunchanged : ∀ after : BattlegroundQueue P, after.groups = q.groups →
      after.queuedGroups = q.queuedGroups →
      SkirmishChecked q bracketId minPlayers maxPlayers (after, false) := by
    intro after hgroups hlists
    exact ⟨fun _ => ⟨hgroups, hlists⟩, fun hfound => (nomatch hfound),
      fun hfound => (nomatch hfound), fun hfound => (nomatch hfound)⟩
  unfold checkSkirmishForSameFaction BattlegroundQueue.checkSkirmishForSameFaction
  split
  · exact ⟨_, rfl, rfl, hunchanged q rfl rfl⟩
  rename_i hsome
  simp only [Bool.and_eq_true, decide_eq_true_eq, not_and, Nat.not_lt] at hsome
  extract_lets team list cleared
  have hother : team ≠ team.other := by
    intro heq
    cases hteam : team with
    | ALLIANCE => rw [hteam] at heq; cases heq
    | HORDE => rw [hteam] at heq; cases heq
  have hpool : cleared.selectionPools team = q.selectionPools team := setPool_of_ne _ _ hother
  have hreached : minPlayers ≤ (q.selectionPools team).playerCount := by
    unfold team
    split
    · rename_i hhorde
      exact Nat.le_of_eq hhorde.symm
    · omega
  clear_value team
  rw [hpool]
  obtain ⟨mark, hlast⟩ : ∃ mark, (q.selectionPools team).selectedGroups.getLast? = some mark := by
    have hne := (hpools team).pool.selected_ne_nil (Nat.lt_of_lt_of_le hmin hreached)
    exact ⟨_, getLast?_eq_some_getLast hne⟩
  rw [hlast]
  dsimp only
  cases hfound : list.dropWhile fun ginfo => decide (ginfo ≠ mark) with
  | nil => exact ⟨_, rfl, rfl, hunchanged cleared rfl rfl⟩
  | cons first rest =>
    have hlist : list = list.takeWhile (fun ginfo => decide (ginfo ≠ mark)) ++ mark :: rest := by
      have hsplit : list.takeWhile (fun ginfo => decide (ginfo ≠ mark)) ++
          list.dropWhile (fun ginfo => decide (ginfo ≠ mark)) = list :=
        takeWhile_append_dropWhile
      have hhead := head?_dropWhile_not (fun ginfo => decide (ginfo ≠ mark)) list
      rw [hfound] at hsplit hhead
      have hmark : first = mark := by simpa using hhead
      rw [hmark] at hsplit
      exact hsplit.symm
    have hrest : rest.Sublist list := by
      rw [hlist]
      exact (sublist_cons_self mark rest).trans (sublist_append_right _ _)
    have hmax : (minPlayers : Int) ≤ maxPlayers :=
      (Int.ofNat_le.mpr hreached).trans (hpools team).fits
    have hadded := (FillOk.start q.groups rest (Int.natCast_nonneg maxPlayers)).addUninvited hmax
    have hgroups : cleared.groups = q.groups := rfl
    simp only [hgroups]
    generalize SelectionPool.addUninvited q.groups minPlayers rest {} = pool at hadded
    by_cases hcount : pool.playerCount = minPlayers
    · have hmark : mark ∈ (cleared.setPool team.other pool).queuedGroups
          ⟨bracketId, .BG_QUEUE_NORMAL, team⟩ := by
        change mark ∈ list
        rw [hlist]
        exact mem_append_right _ mem_cons_self
      obtain ⟨hmoved, hafter⟩ := moveSelected_eq pool.selectedGroups hmark
      rw [if_neg (not_not_intro hcount), if_neg (not_not_intro hcount), hmoved]
      refine ⟨_, rfl, rfl, ?_⟩
      have hteamPool := (congrFun hafter team).trans ((setPool_of_ne _ _ hother).trans hpool)
      have hotherPool := (congrFun hafter team.other).trans (setPool_self _ _ _)
      generalize pool.selectedGroups.foldl _ _ = moved at hteamPool hotherPool ⊢
      have hdisjoint : ∀ ginfo ∈ pool.selectedGroups,
          ginfo ∉ (q.selectionPools team).selectedGroups := by
        intro ginfo hmem
        refine not_selected_of_past hlist (hnodup team)
          ((sublist_append_left _ _).trans (hpools team).sublist) hlast ?_
        exact hadded.sublist.subset (mem_append_left _ hmem)
      have hotherOk : FillOk q.groups list maxPlayers ⟨maxPlayers, pool, []⟩ :=
        ⟨hadded.pool, rfl, hadded.fits, hadded.sublist.trans hrest, hadded.uninvited⟩
      have hteamOk := hpools team
      rw [← hteamPool] at hdisjoint hteamOk hreached
      rw [← hotherPool] at hdisjoint hotherOk hcount
      have henough := Nat.le_of_eq hcount.symm
      refine ⟨fun hfound => (nomatch hfound), fun _ => ⟨team, team.rec_other hteamOk hotherOk⟩,
        fun _ => ?_, fun _ => team.rec_other hreached henough⟩
      cases team with
      | ALLIANCE => exact fun ginfo hali hhorde => hdisjoint ginfo hhorde hali
      | HORDE => exact hdisjoint
    · rw [if_pos hcount, if_pos hcount]
      exact ⟨_, rfl, rfl, hunchanged _ rfl rfl⟩

end Skirmish

end Iterators

end LegionServer.Source.Battlegrounds
