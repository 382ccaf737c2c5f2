import LegionServer.Library.Count
import LegionServer.Library.Transition
import LegionServer.Source.Groups.Group

/-!
# Raid sub-group counters over whole runs

From `Create` on, under invitations, removals, changes of leader, conversions, moves and
swaps in any order: the counters of a raid are the sizes of its sub groups, and no sub
group is larger than a party.
-/
namespace LegionServer.Guarantees.SubGroupCounters
open Library Source Source.Groups List Function Option UInt8 Bool

variable {G : Type*} {g g' : Groups.Group G}

def sizeOfSubGroup (g : Groups.Group G) (subgroup : UInt8) : Nat :=
  g.memberSlots.countP fun slot => slot.group == subgroup

/-- A raid has right counters, and any other group has none and at most five members;
sub groups exist and are no larger than a party. -/
structure SubGroupsOk (g : Groups.Group G) : Prop where
  group_lt : ∀ slot ∈ g.memberSlots, slot.group < MAX_RAID_SUBGROUPS
  small : ∀ subgroup, sizeOfSubGroup g subgroup ≤ MAX_GROUP_SIZE.toNat
  raid : g.isRaidGroup = true → ∃ counts, g.subGroupsCounts = some counts ∧
    ∀ subgroup, counts subgroup = UInt8.ofNat (sizeOfSubGroup g subgroup)
  party : g.isRaidGroup = false → g.subGroupsCounts = none ∧
    g.memberSlots.length ≤ MAX_GROUP_SIZE.toNat
  battleground : g.isBGGroup = true → g.isRaidGroup = true

theorem counts_toNat (h : SubGroupsOk g) (subgroup : UInt8) :
    (UInt8.ofNat (sizeOfSubGroup g subgroup)).toNat = sizeOfSubGroup g subgroup := by
  have hsmall := h.small subgroup
  simp only [MAX_GROUP_SIZE, reduceToNat] at hsmall
  rw [toNat_ofNat', Nat.mod_eq_of_lt]
  omega

theorem sizeOfSubGroup_setSlot {i : Nat} {slot : MemberSlot G} (hslot : g.memberSlots[i]? = some slot)
    (new : MemberSlot G) (subgroup : UInt8) :
    sizeOfSubGroup (g.setSlot i new) subgroup + (slot.group == subgroup).toNat =
      sizeOfSubGroup g subgroup + (new.group == subgroup).toNat :=
  countP_set_add hslot

theorem SubGroupsOk.of_sizes (h : SubGroupsOk g) (hraid : g'.isRaidGroup = g.isRaidGroup)
    (hbg : g'.isBGGroup = g.isBGGroup) (hcounts : g'.subGroupsCounts = g.subGroupsCounts)
    (hgroups : ∀ slot ∈ g'.memberSlots, slot.group < MAX_RAID_SUBGROUPS)
    (hlength : g'.memberSlots.length = g.memberSlots.length)
    (hsize : ∀ subgroup, sizeOfSubGroup g' subgroup = sizeOfSubGroup g subgroup) :
    SubGroupsOk g' where
  group_lt := hgroups
  small subgroup := by
    rw [hsize]
    exact h.small subgroup
  raid hyes := by
    obtain ⟨counts, hold, hright⟩ := h.raid (hraid.symm.trans hyes)
    exact ⟨counts, hcounts.trans hold, fun subgroup => by rw [hsize, hright]⟩
  party hno := by
    rw [hcounts, hlength]
    exact h.party (hraid.symm.trans hno)
  battleground hyes := hraid.trans (h.battleground (hbg.symm.trans hyes))

/-- Other fields of a slot do not matter. -/
theorem subGroupsOk_setSlot (h : SubGroupsOk g) {i : Nat} {slot new : MemberSlot G}
    (hslot : g.memberSlots[i]? = some slot) (hgroup : new.group = slot.group) :
    SubGroupsOk (g.setSlot i new) := by
  refine h.of_sizes rfl rfl rfl ?_ ?_ ?_
  · intro s hs
    rcases mem_or_eq_of_mem_set hs with hold | hnew
    · exact h.group_lt s hold
    · rw [hnew, hgroup]
      exact h.group_lt slot (mem_of_getElem? hslot)
  · exact length_set
  · intro subgroup
    have hset := sizeOfSubGroup_setSlot hslot new subgroup
    rw [hgroup] at hset
    omega

section Flags

theorem and_or (flags a b : UInt16) : (flags ||| a) &&& b = flags &&& b ||| a &&& b := by
  apply UInt16.toBitVec_inj.mp
  ext i hi
  simp [and_or_distrib_right]

variable {flags flag : UInt16}

/-- Setting other flags does not make or unmake a raid. -/
theorem isRaidGroup_set (hflag : flag &&& GROUP_FLAG_RAID = 0) :
    (flags ||| flag) &&& GROUP_FLAG_RAID = flags &&& GROUP_FLAG_RAID := by
  rw [and_or, hflag, UInt16.or_zero]

theorem isRaidGroup_clear (hflag : ~~~flag &&& GROUP_FLAG_RAID = GROUP_FLAG_RAID) :
    flags &&& ~~~flag &&& GROUP_FLAG_RAID = flags &&& GROUP_FLAG_RAID := by
  rw [UInt16.and_assoc, hflag]

theorem isRaidGroup_convertToRaid : g.convertToRaid.isRaidGroup = true := by
  have hflag : (g.groupFlags ||| GROUP_FLAG_RAID) &&& GROUP_FLAG_RAID = GROUP_FLAG_RAID := by
    apply UInt16.toBitVec_inj.mp
    ext i hi
    simp
    exact .inr
  unfold Group.isRaidGroup Group.convertToRaid Group.initRaidSubGroupsCounter
  rw [hflag]
  rfl

theorem isRaidGroup_convertToGroup (flags : UInt16) :
    flags &&& ~~~GROUP_FLAG_RAID &&& GROUP_FLAG_RAID = 0 := by
  rw [UInt16.and_assoc, show ~~~GROUP_FLAG_RAID &&& GROUP_FLAG_RAID = 0 by decide, UInt16.and_zero]

end Flags

theorem firstNotFull_spec {counts : UInt8 → UInt8} {subGroup : UInt8}
    (h : Group.firstNotFull counts = some subGroup) :
    subGroup < MAX_RAID_SUBGROUPS ∧ counts subGroup < MAX_GROUP_SIZE := by
  refine ⟨?_, by simpa using find?_some h⟩
  obtain ⟨n, hn, rfl⟩ := mem_map.mp (mem_of_find?_eq_some h)
  rw [mem_range] at hn
  rw [lt_iff_toNat_lt, toNat_ofNat']
  omega

theorem sizeOfSubGroup_append (g : Groups.Group G) (slot : MemberSlot G) (subgroup : UInt8) :
    sizeOfSubGroup { g with memberSlots := g.memberSlots ++ [slot] } subgroup =
      sizeOfSubGroup g subgroup + (slot.group == subgroup).toNat := by
  simp only [sizeOfSubGroup, countP_append, countP_cons, countP_nil, toNat_eq_ite]
  omega

theorem subGroupsOk_addMember (h : SubGroupsOk g) (player : G)
    (hroom : g.isRaidGroup = false → g.memberSlots.length < MAX_GROUP_SIZE.toNat) :
    SubGroupsOk (g.addMember player).1 := by
  cases hraid : g.isRaidGroup with
  | true =>
    obtain ⟨counts, hcounts, hright⟩ := h.raid hraid
    cases hfree : Group.firstNotFull counts with
    | none => simpa [Group.addMember, hcounts, hfree] using h
    | some subGroup =>
      obtain ⟨hlt, hroom⟩ := firstNotFull_spec hfree
      rw [lt_iff_toNat_lt, hright, counts_toNat h] at hroom
      have hadded : (g.addMember player).1 = Group.subGroupCounterIncrease
          { g with memberSlots := g.memberSlots ++ [{ guid := player, group := subGroup }] }
          subGroup := by
        simp only [Group.addMember, hcounts, hfree]
      have hsize : ∀ subgroup, sizeOfSubGroup (Group.subGroupCounterIncrease
          { g with memberSlots := g.memberSlots ++ [{ guid := player, group := subGroup }] }
          subGroup) subgroup = sizeOfSubGroup g subgroup + (subGroup == subgroup).toNat :=
        sizeOfSubGroup_append g { guid := player, group := subGroup }
      rw [hadded]
      refine ⟨?_, ?_, ?_, ?_, h.battleground⟩
      · intro slot hslot
        rcases mem_append.mp hslot with hold | hnew
        · exact h.group_lt slot hold
        · rw [mem_singleton.mp hnew]
          exact hlt
      · intro subgroup
        rw [hsize]
        by_cases heq : subGroup = subgroup
        · rw [← heq, beq_self_eq_true]
          exact hroom
        · rw [beq_false_of_ne heq]
          exact h.small subgroup
      · intro _
        refine ⟨update counts subGroup (counts subGroup + 1), ?_, ?_⟩
        · simp only [Group.subGroupCounterIncrease, hcounts, map_some]
        · intro subgroup
          rw [hsize, UInt8.ofNat_add]
          by_cases heq : subGroup = subgroup
          · subst heq
            rw [update_self, hright, beq_self_eq_true]
            rfl
          · rw [update_of_ne (Ne.symm heq), hright, beq_false_of_ne heq]
            exact (UInt8.add_zero _).symm
      · intro hparty
        exact absurd (hraid.symm.trans hparty) (by decide)
  | false =>
    obtain ⟨hcounts, hlength⟩ := h.party hraid
    have hless := hroom hraid
    have hadded : (g.addMember player).1 =
        { g with memberSlots := g.memberSlots ++ [{ guid := player, group := 0 }] } := by
      simp [Group.addMember, hcounts, Group.subGroupCounterIncrease]
    rw [hadded]
    refine ⟨?_, ?_, ?_, ?_, h.battleground⟩
    · intro slot hslot
      rcases mem_append.mp hslot with hold | hnew
      · exact h.group_lt slot hold
      · rw [mem_singleton.mp hnew]
        show (0 : UInt8) < MAX_RAID_SUBGROUPS
        decide
    · intro subgroup
      refine Nat.le_trans countP_le_length ?_
      rw [length_append]
      exact hless
    · intro hyes
      exact absurd (hraid.symm.trans hyes) (by decide)
    · intro _
      refine ⟨hcounts, ?_⟩
      rw [length_append]
      exact hless

/-- `_initRaidSubGroupsCounter` counts the members of every sub group. -/
theorem foldl_counts (slots : List (MemberSlot G)) (subgroup : UInt8) :
    ∀ counts : UInt8 → UInt8,
      slots.foldl (fun counts slot => Function.update counts slot.group (counts slot.group + 1))
        counts subgroup = counts subgroup + UInt8.ofNat (slots.countP fun slot => slot.group == subgroup) := by
  induction slots with
  | nil => exact fun counts => (UInt8.add_zero _).symm
  | cons slot slots ih =>
    intro counts
    rw [foldl_cons, ih, countP_cons]
    by_cases heq : slot.group = subgroup
    · subst heq
      rw [update_self, beq_self_eq_true, if_pos rfl, UInt8.ofNat_add, UInt8.add_assoc,
        UInt8.add_comm (UInt8.ofNat _)]
      rfl
    · rw [update_of_ne (Ne.symm heq), beq_false_of_ne heq, if_neg Bool.false_ne_true, Nat.add_zero]

theorem subGroupsOk_convertToRaid (h : SubGroupsOk g) : SubGroupsOk g.convertToRaid where
  group_lt := h.group_lt
  small := h.small
  raid _ := by
    refine ⟨_, rfl, fun subgroup => ?_⟩
    rw [foldl_counts, UInt8.zero_add]
    rfl
  party hparty := absurd (isRaidGroup_convertToRaid.symm.trans hparty) (by decide)
  battleground _ := isRaidGroup_convertToRaid

theorem subGroupsOk_convertToGroup (h : SubGroupsOk g) (hbg : g.isBGGroup = false) :
    SubGroupsOk g.convertToGroup := by
  unfold Group.convertToGroup
  split
  · exact h
  rename_i hsmall
  have hparty : Group.isRaidGroup
      { g with groupFlags := g.groupFlags &&& ~~~GROUP_FLAG_RAID, subGroupsCounts := none } =
      false := by
    unfold Group.isRaidGroup
    rw [isRaidGroup_convertToGroup]
    rfl
  refine ⟨h.group_lt, h.small, fun hraid => ?_, fun _ => ⟨rfl, Nat.le_of_not_lt hsmall⟩, fun hyes => ?_⟩
  · exact absurd (hparty.symm.trans hraid) (by decide)
  · exact absurd (hbg.symm.trans hyes) (by decide)

section Slots

variable {slot : MemberSlot G}

theorem subGroupsOk_eraseSlot (h : SubGroupsOk g) {i : Nat}
    (hslot : g.memberSlots[i]? = some slot) :
    SubGroupsOk { g.subGroupCounterDecrease slot.group with
      memberSlots := g.memberSlots.eraseIdx i } := by
  have hsize : ∀ subgroup, sizeOfSubGroup { g.subGroupCounterDecrease slot.group with
      memberSlots := g.memberSlots.eraseIdx i } subgroup + (slot.group == subgroup).toNat =
      sizeOfSubGroup g subgroup := fun subgroup => countP_eraseIdx_add hslot
  refine ⟨?_, ?_, ?_, ?_, h.battleground⟩
  · exact fun s hs => h.group_lt s ((eraseIdx_sublist _ _).subset hs)
  · intro subgroup
    exact Nat.le_trans (Nat.le_of_add_right_le (Nat.le_of_eq (hsize subgroup))) (h.small subgroup)
  · intro hraid
    obtain ⟨counts, hcounts, hright⟩ := h.raid hraid
    refine ⟨update counts slot.group (counts slot.group - 1), ?_, ?_⟩
    · simp only [Group.subGroupCounterDecrease, hcounts, map_some]
    · intro subgroup
      have hone := hsize subgroup
      by_cases heq : slot.group = subgroup
      · subst heq
        rw [beq_self_eq_true] at hone
        rw [update_self, hright, ← hone, UInt8.ofNat_add]
        exact UInt8.add_sub_cancel ..
      · rw [beq_false_of_ne heq] at hone
        rw [update_of_ne (Ne.symm heq), hright, ← hone]
        rfl
  · intro hparty
    obtain ⟨hcounts, hsmall⟩ := h.party hparty
    refine ⟨by simp only [Group.subGroupCounterDecrease, hcounts, map_none], ?_⟩
    exact Nat.le_trans (eraseIdx_sublist _ _).length_le hsmall

theorem isRaidGroup_everyoneIsAssistant (g : Groups.Group G) (apply : Bool) :
    (g.setEveryoneIsAssistant apply).isRaidGroup = g.isRaidGroup := by
  unfold Group.isRaidGroup Group.setEveryoneIsAssistant
  cases apply with
  | true =>
    simp only [if_true]
    rw [isRaidGroup_set (by decide)]
  | false =>
    simp only [false_eq_true, if_false]
    rw [isRaidGroup_clear (by decide)]

theorem subGroupsOk_setEveryoneIsAssistant (h : SubGroupsOk g) (apply : Bool) :
    SubGroupsOk (g.setEveryoneIsAssistant apply) := by
  apply h.of_sizes (isRaidGroup_everyoneIsAssistant g apply) rfl rfl
  · intro slot hslot
    obtain ⟨old, hold, rfl⟩ := mem_map.mp hslot
    exact h.group_lt old hold
  · exact length_map _
  · intro subgroup
    simp only [sizeOfSubGroup, Group.setEveryoneIsAssistant, countP_map]
    rfl

variable [DecidableEq G]

theorem memberSlot_spec {guid : G} {i : Nat} (h : g.memberSlot guid = some (i, slot)) :
    g.memberSlots[i]? = some slot := by
  obtain ⟨j, _, hj⟩ := Option.bind_eq_some_iff.mp h
  obtain ⟨found, hfound, heq⟩ := map_eq_some_iff.mp hj
  cases heq
  exact hfound

section
variable (h : SubGroupsOk g)
include h

theorem subGroupsOk_changeLeader (connected : G → Bool) (newLeaderGuid : G) :
    SubGroupsOk (g.changeLeader connected newLeaderGuid) := by
  unfold Group.changeLeader
  split
  · exact h
  rename_i i slot hslot
  split
  · exact h
  · have hset : SubGroupsOk (g.setSlot i (Group.toggleFlag slot MEMBER_FLAG_ASSISTANT false)) :=
      subGroupsOk_setSlot h (memberSlot_spec hslot) rfl
    exact ⟨hset.group_lt, hset.small, hset.raid, hset.party, hset.battleground⟩

theorem subGroupsOk_setAssistant (guid : G) (apply : Bool) :
    SubGroupsOk (g.setAssistant guid apply) := by
  unfold Group.setAssistant
  split
  · exact h
  · split
    · exact h
    · rename_i i slot hslot
      exact subGroupsOk_setSlot h (memberSlot_spec hslot) rfl

theorem subGroupsOk_newLeader (env : Surroundings G) (guid : G) :
    SubGroupsOk (if g.leaderGuid = guid then
      match g.memberSlots.find? fun slot => env.connected slot.guid with
      | some slot => g.changeLeader env.connected slot.guid
      | none => g
    else g) := by
  split
  · split
    · exact subGroupsOk_changeLeader h _ _
    · exact h
  · exact h

theorem subGroupsOk_removeMember (env : Surroundings G) (guid : G) (kick : Bool)
    (hafter : g.removeMember env guid kick = some g') : SubGroupsOk g' := by
  unfold Group.removeMember at hafter
  by_cases hvote : (g.isLFGGroup && kick) = true
  · rw [if_pos hvote] at hafter
    cases hafter
    exact h
  · rw [if_neg hvote] at hafter
    simp only [ite_none_right_eq_some, ite_none_left_eq_some, Option.some.injEq] at hafter
    obtain ⟨_, _, _, hled⟩ := hafter
    cases hslot : g.memberSlot guid with
    | none =>
      rw [hslot] at hled
      rw [← hled]
      exact subGroupsOk_newLeader h env guid
    | some found =>
      rw [hslot] at hled
      rw [← hled]
      exact subGroupsOk_newLeader (subGroupsOk_eraseSlot h (memberSlot_spec hslot)) env guid

theorem subGroupsOk_changeMembersGroup (guid : G) {group : UInt8}
    (hlt : group < MAX_RAID_SUBGROUPS) (hfree : g.hasFreeSlotSubGroup group = true) :
    SubGroupsOk (g.changeMembersGroup guid group) := by
  unfold Group.changeMembersGroup
  split
  · exact h
  rename_i hraid
  rw [not_eq_true', not_eq_false] at hraid
  split
  · exact h
  rename_i i slot hslot
  split
  · exact h
  rename_i hmoves
  obtain ⟨counts, hcounts, hright⟩ := h.raid hraid
  have hat := memberSlot_spec hslot
  have hroom : sizeOfSubGroup g group < MAX_GROUP_SIZE.toNat := by
    simp only [Group.hasFreeSlotSubGroup, hcounts, decide_eq_true_eq] at hfree
    rwa [lt_iff_toNat_lt, hright, counts_toNat h] at hfree
  have hsize := sizeOfSubGroup_setSlot hat { slot with group }
  refine ⟨?_, ?_, ?_, ?_, h.battleground⟩
  · intro s hs
    rcases mem_or_eq_of_mem_set hs with hold | hnew
    · exact h.group_lt s hold
    · rw [hnew]
      exact hlt
  · intro subgroup
    change sizeOfSubGroup (g.setSlot i { slot with group }) subgroup ≤ _
    have hset := hsize subgroup
    have hold := h.small subgroup
    by_cases heq : group = subgroup
    · subst heq
      rw [beq_false_of_ne hmoves, beq_self_eq_true] at hset
      simp only [toNat_false, toNat_true] at hset
      omega
    · rw [beq_false_of_ne heq] at hset
      simp only [toNat_false] at hset
      omega
  · intro _
    refine ⟨update (update counts group (counts group + 1)) slot.group
      (update counts group (counts group + 1) slot.group - 1), ?_, ?_⟩
    · simp only [Group.subGroupCounterDecrease, Group.subGroupCounterIncrease, Group.setSlot,
        hcounts, map_some]
    · intro subgroup
      change _ = UInt8.ofNat (sizeOfSubGroup (g.setSlot i { slot with group }) subgroup)
      have hset := hsize subgroup
      by_cases hold : slot.group = subgroup
      · subst hold
        rw [beq_self_eq_true, beq_false_of_ne (Ne.symm hmoves)] at hset
        rw [update_self, update_of_ne hmoves, hright, ← Nat.add_zero (sizeOfSubGroup g _)]
        change _ = sizeOfSubGroup g slot.group + 0 at hset
        rw [← hset, UInt8.ofNat_add]
        exact UInt8.add_sub_cancel ..
      · rw [update_of_ne (Ne.symm hold)]
        rw [beq_false_of_ne hold] at hset
        by_cases hnew : group = subgroup
        · subst hnew
          rw [beq_self_eq_true] at hset
          change sizeOfSubGroup (g.setSlot i { slot with group }) group =
            sizeOfSubGroup g group + 1 at hset
          rw [update_self, hright, hset, UInt8.ofNat_add]
          rfl
        · rw [beq_false_of_ne hnew] at hset
          change sizeOfSubGroup (g.setSlot i { slot with group }) subgroup =
            sizeOfSubGroup g subgroup at hset
          rw [update_of_ne (Ne.symm hnew), hright, hset]
  · intro hparty
    exact absurd (hraid.symm.trans hparty) (by decide)

theorem subGroupsOk_swapMembersGroups (firstGuid secondGuid : G) :
    SubGroupsOk (g.swapMembersGroups firstGuid secondGuid) := by
  unfold Group.swapMembersGroups
  split
  · exact h
  split
  · rename_i i first j second hfirst hsecond
    split
    · exact h
    rename_i hdiffer
    have hi := memberSlot_spec hfirst
    have hj := memberSlot_spec hsecond
    have hne : i ≠ j := by
      rintro rfl
      exact hdiffer (congrArg _ (Option.some.inj (hi.symm.trans hj)))
    have hj' : (g.setSlot i { first with group := second.group }).memberSlots[j]? =
        some second := by
      rw [Group.setSlot, getElem?_set_ne hne]
      exact hj
    refine h.of_sizes rfl rfl rfl ?_ ?_ ?_
    · intro s hs
      rcases mem_or_eq_of_mem_set hs with hs | hnew
      · rcases mem_or_eq_of_mem_set hs with hold | hnew
        · exact h.group_lt s hold
        · rw [hnew]
          exact h.group_lt second (mem_of_getElem? hj)
      · rw [hnew]
        exact h.group_lt first (mem_of_getElem? hi)
    · simp only [Group.setSlot, length_set]
    · intro subgroup
      have hone := sizeOfSubGroup_setSlot hi { first with group := second.group } subgroup
      have htwo := sizeOfSubGroup_setSlot hj' { second with group := first.group } subgroup
      dsimp only at hone htwo
      omega
  · exact h

end

end Slots

section Runs

theorem subGroupsOk_start (hempty : g.memberSlots = []) (hcounts : g.subGroupsCounts = none)
    (hbg : g.isBGGroup = true → g.isRaidGroup = true) :
    SubGroupsOk (if g.isRaidGroup then g.initRaidSubGroupsCounter else g) := by
  have hsize : ∀ subgroup, sizeOfSubGroup g subgroup = 0 := by
    intro subgroup
    rw [sizeOfSubGroup, hempty]
    rfl
  have hgroups : ∀ slot ∈ g.memberSlots, slot.group < MAX_RAID_SUBGROUPS := by
    intro slot hslot
    rw [hempty] at hslot
    exact absurd hslot not_mem_nil
  have hsmall : ∀ subgroup, sizeOfSubGroup g subgroup ≤ MAX_GROUP_SIZE.toNat := by
    intro subgroup
    rw [hsize]
    exact Nat.zero_le _
  split
  · rename_i hraid
    refine ⟨hgroups, hsmall, fun _ => ⟨_, rfl, fun subgroup => ?_⟩, fun hparty => ?_, hbg⟩
    · rw [foldl_counts, UInt8.zero_add]
      rfl
    · exact absurd (hraid.symm.trans hparty) (by decide)
  · rename_i hparty
    refine ⟨hgroups, hsmall, fun hraid => absurd hraid hparty, fun _ => ⟨hcounts, ?_⟩, hbg⟩
    rw [hempty]
    exact Nat.zero_le _

theorem subGroupsOk_create {leader : G} {isBGGroup isBFGroup lfg : Bool}
    (h : Group.create leader isBGGroup isBFGroup lfg = some g) : SubGroupsOk g := by
  unfold Group.create at h
  extract_lets created ofKind flagged counted at h
  have hempty : flagged.memberSlots = [] := by
    cases isBGGroup <;> cases isBFGroup <;> cases lfg <;> rfl
  have hcounts : flagged.subGroupsCounts = none := by
    cases isBGGroup <;> cases isBFGroup <;> cases lfg <;> rfl
  have hbg : flagged.isBGGroup = true → flagged.isRaidGroup = true := by
    intro hyes
    cases isBGGroup with
    | false => cases isBFGroup <;> cases lfg <;> cases hyes
    | true =>
      show (GROUP_MASK_BGRAID &&& GROUP_FLAG_RAID != 0) = true
      decide
  have hadded : SubGroupsOk (counted.addMember leader).1 := by
    apply subGroupsOk_addMember (subGroupsOk_start hempty hcounts hbg)
    intro _
    have hnone : counted.memberSlots = [] := by
      unfold counted
      split
      · exact hempty
      · exact hempty
    rw [hnone]
    show 0 < 5
    decide
  split at h
  · rename_i added heq
    rw [heq] at hadded
    cases h
    exact hadded
  · cases h

variable [DecidableEq G]

/-- The server adds members to the raid of a battleground, whose players are in it, and to groups
that are not full (`GetFreeBfRaid`; a proposal has no more players than a party). -/
def Allowed (g : Groups.Group G) : GroupRequest G → Prop
  | .serverAdd _ => g.isBGGroup = true ∨ g.isFull = false
  | .convertRaid _ inBattleground _ => g.isBGGroup = true → inBattleground = true
  | _ => True

def groupSystem (G : Type*) [DecidableEq G] : System (Groups.Group G) (GroupRequest G) where
  init g := ∃ leader isBGGroup isBFGroup lfg, Group.create leader isBGGroup isBFGroup lfg = some g
  step request g g' := Allowed g request ∧ g.handle request = some g'

theorem subGroupsOk_handlePartyInviteResponse (h : SubGroupsOk g) (player : G) :
    SubGroupsOk (g.handlePartyInviteResponse player) := by
  unfold Group.handlePartyInviteResponse
  split
  · exact h
  split
  · exact h
  · rename_i hfull
    apply subGroupsOk_addMember h
    intro hparty
    simpa [Group.isFull, hparty] using hfull

theorem subGroupsOk_handleConvertRaid (h : SubGroupsOk g) (sender : G) {inBattleground : Bool}
    (raid : Bool) (hbg : g.isBGGroup = true → inBattleground = true) :
    SubGroupsOk (g.handleConvertRaid sender inBattleground raid) := by
  unfold Group.handleConvertRaid
  split
  · exact h
  rename_i houtside
  split
  · exact h
  split
  · exact subGroupsOk_convertToRaid h
  · apply subGroupsOk_convertToGroup h
    rw [eq_false_iff]
    exact fun hyes => houtside (hbg hyes)

theorem subGroupsOk_handleChangeSubGroup (h : SubGroupsOk g) (sender targetGuid : G)
    (newSubGroup : UInt8) :
    SubGroupsOk (g.handleChangeSubGroup sender targetGuid newSubGroup) := by
  unfold Group.handleChangeSubGroup
  split
  · exact h
  rename_i hlt
  split
  · exact h
  split
  · exact h
  · rename_i hfree
    rw [not_eq_true', not_eq_false] at hfree
    exact subGroupsOk_changeMembersGroup h targetGuid (UInt8.not_le.mp hlt) hfree

/-- The step of a run. -/
theorem subGroupsOk_handle (h : SubGroupsOk g) {request : GroupRequest G}
    (hallowed : Allowed g request) (hafter : g.handle request = some g') : SubGroupsOk g' := by
  cases request with
  | inviteResponse player =>
    cases hafter
    exact subGroupsOk_handlePartyInviteResponse h player
  | serverAdd player =>
    cases hafter
    apply subGroupsOk_addMember h
    intro hparty
    cases hallowed with
    | inl hbg => exact absurd (hparty.symm.trans (h.battleground hbg)) (by decide)
    | inr hfree => simpa [Group.isFull, hparty] using hfree
  | removeMember env guid kick => exact subGroupsOk_removeMember h env guid kick hafter
  | changeLeader connected newLeaderGuid =>
    cases hafter
    exact subGroupsOk_changeLeader h connected newLeaderGuid
  | convertRaid sender inBattleground raid =>
    cases hafter
    exact subGroupsOk_handleConvertRaid h sender raid hallowed
  | changeSubGroup sender targetGuid newSubGroup =>
    cases hafter
    exact subGroupsOk_handleChangeSubGroup h sender targetGuid newSubGroup
  | swapSubGroups sender firstTarget secondTarget =>
    cases hafter
    unfold Group.handleSwapSubGroups
    split
    · exact h
    · exact subGroupsOk_swapMembersGroups h firstTarget secondTarget
  | setAssistantLeader sender target apply =>
    cases hafter
    unfold Group.handleSetAssistantLeader
    split
    · exact h
    · exact subGroupsOk_setAssistant h target apply
  | setEveryoneIsAssistant sender apply =>
    cases hafter
    unfold Group.handleSetEveryoneIsAssistant
    split
    · exact h
    · exact subGroupsOk_setEveryoneIsAssistant h apply

theorem reachable_subGroupsOk (h : (groupSystem G).Reachable g) : SubGroupsOk g := by
  apply h.invariant
  · rintro g ⟨leader, isBGGroup, isBFGroup, lfg, hcreate⟩
    exact subGroupsOk_create hcreate
  · intro request g g' hok hstep
    exact subGroupsOk_handle hok hstep.1 hstep.2

end Runs

end LegionServer.Guarantees.SubGroupCounters
