import LegionServer.Library.Outcome
import LegionServer.Source.Guilds.Membership
import LegionServer.Guarantees.GuildRanks

/-!
# What one request does to a guild's leadership

A guild is led when every member's rank exists and the leader is the one member of the
master rank.
-/
namespace LegionServer.Guarantees.GuildLeadership
open Library Source.Guilds Guarantees.GuildRanks List Function

variable {G : Type} {r r' : Roster G}

/-- Every member's rank exists; `m_leaderGuid` is a member with the master rank,
and the only one. -/
structure Led (g : Guild G) : Prop where
  rank_exists : ∀ guid member, g.members guid = some member → (g.rankInfoOfId member.rankId).isSome
  leader : ∃ member, g.members g.leaderGuid = some member ∧ member.rankId = GuildMaster
  sole : ∀ guid member, g.members guid = some member → member.rankId = GuildMaster →
    guid = g.leaderGuid

/-- The rank table is well formed with the master rank in front, and `guids` lists
the members. -/
structure Tidy (r : Roster G) : Prop where
  ranks : WellFormedRanks r.guild.ranks
  first : (r.guild.ranks.map RankInfo.rankId).head? = some GuildMaster
  listed : ∀ guid, guid ∈ r.guids ↔ (r.guild.members guid).isSome
  nodup : r.guids.Nodup

section Ranks

variable {g : Guild G} {rank : RankInfo}

theorem rankInfoOfId_some {rankId : GuildRankId} (h : g.rankInfoOfId rankId = some rank) :
    rank ∈ g.ranks ∧ rank.rankId = rankId := by
  refine ⟨mem_of_find?_eq_some h, ?_⟩
  simpa using find?_some h

theorem rankInfoOfOrder_some {rankOrder : GuildRankOrder}
    (h : g.rankInfoOfOrder rankOrder = some rank) :
    rank ∈ g.ranks ∧ rank.rankOrder = rankOrder := by
  refine ⟨mem_of_find?_eq_some h, ?_⟩
  simpa using find?_some h

theorem rankInfoOfId_isSome_of_mem (h : rank ∈ g.ranks) : (g.rankInfoOfId rank.rankId).isSome :=
  (rankInfoOfId_isSome g rank.rankId).mpr (mem_map_of_mem h)

theorem order_zero_iff {ranks : List RankInfo} (h : WellFormedRanks ranks) (hrank : rank ∈ ranks) :
    rank.rankOrder = 0 ↔ rank.rankId = GuildMaster := by
  refine ⟨h.master_first rank hrank, fun hid => ?_⟩
  have hmin := h.min_count
  simp only [GUILD_RANKS_MIN_COUNT, UInt8.reduceToNat] at hmin
  obtain ⟨top, htop, hzero⟩ := mem_map.mp ((h.mem_orders 0).mpr (by omega))
  have htopOrder : top.rankOrder = 0 := UInt8.toNat_inj.mp hzero
  have hsame : rank = top :=
    inj_on_of_nodup_map h.ids_nodup hrank htop (hid.trans (h.master_first top htop htopOrder).symm)
  rw [hsame, htopOrder]

/-- The lowest rank id is the id of a rank, and not of the master's. -/
theorem Tidy.lowestRankId (h : Tidy r) : ∃ rank ∈ r.guild.ranks,
    r.guild.lowestRankId = .ok rank.rankId ∧ rank.rankId ≠ GuildMaster := by
  have hmin := h.ranks.min_count
  have hids := h.ranks.ids_nodup
  have hfirst := h.first
  simp only [GUILD_RANKS_MIN_COUNT, UInt8.reduceToNat] at hmin
  rcases hranks : r.guild.ranks with _ | ⟨master, _ | ⟨second, rest⟩⟩
  · simp [hranks] at hmin
  · simp [hranks] at hmin
  · rw [hranks] at hids hfirst
    rw [map_cons, head?_cons, Option.some.injEq] at hfirst
    rw [map_cons, nodup_cons, hfirst] at hids
    have hne : second :: rest ≠ [] := cons_ne_nil second rest
    have hlast : (second :: rest).getLast? = some ((second :: rest).getLast hne) :=
      getLast?_eq_getLast_of_ne_nil _
    refine ⟨(second :: rest).getLast hne, mem_cons_of_mem _ (getLast_mem _), ?_, ?_⟩
    · unfold Guild.lowestRankId
      rw [hranks, getLast?_cons_cons, hlast]
    · intro heq
      exact hids.1 (heq ▸ mem_map_of_mem (getLast_mem _))

end Ranks

section Members

theorem Led.master_exists {g : Guild G} (h : Led g) : (g.rankInfoOfId GuildMaster).isSome := by
  obtain ⟨member, hmember, hmaster⟩ := h.leader
  rw [← hmaster]
  exact h.rank_exists _ member hmember

variable [DecidableEq G]

variable {guid : G} {member : Member}

theorem changeRank_members (hmember : r.guild.members guid = some member) (newRank : GuildRankId) :
    (r.changeRank guid newRank).guild.members =
      Function.update r.guild.members guid (some (member.changeRank newRank)) := by
  simp [Roster.changeRank, hmember]

theorem changeRank_isSome (guid : G) (newRank : GuildRankId) (p : G) :
    ((r.changeRank guid newRank).guild.members p).isSome = (r.guild.members p).isSome := by
  simp only [Roster.changeRank, update_apply]
  split
  · rename_i heq
    rw [heq, Option.isSome_map]
  · rfl

theorem tidy_changeRank (h : Tidy r) (guid : G) (newRank : GuildRankId) :
    Tidy (r.changeRank guid newRank) where
  ranks := h.ranks
  first := h.first
  listed p := (h.listed p).trans (by rw [changeRank_isSome])
  nodup := h.nodup

theorem tidy_setLeader (h : Tidy r) (leader : G) : Tidy (r.setLeader leader) where
  ranks := h.ranks
  first := h.first
  listed p := (h.listed p).trans (by rw [← changeRank_isSome leader GuildMaster p]; rfl)
  nodup := h.nodup

theorem tidy_erase (h : Tidy r) (guid : G) : Tidy (r.erase guid) where
  ranks := h.ranks
  first := h.first
  listed p := by
    simp only [Roster.erase, h.nodup.mem_erase_iff, update_apply, h.listed]
    split
    · rename_i heq
      simp [heq]
    · rename_i hne
      simp [hne]
  nodup := h.nodup.erase guid

/-- A change of one member's rank keeps the guild led exactly if the leader is
given the master rank and nobody else is. -/
theorem led_changeRank_iff (h : Led r.guild) {newRank : GuildRankId}
    (hmember : r.guild.members guid = some member)
    (hexists : (r.guild.rankInfoOfId newRank).isSome) :
    Led (r.changeRank guid newRank).guild ↔ (newRank = GuildMaster ↔ guid = r.guild.leaderGuid) := by
  have hmembers := changeRank_members hmember newRank
  have hself : (r.changeRank guid newRank).guild.members guid = some (member.changeRank newRank) := by
    rw [hmembers, update_self]
  have hother : ∀ p, p ≠ guid → (r.changeRank guid newRank).guild.members p = r.guild.members p := by
    intro p hp
    rw [hmembers, update_of_ne hp]
  constructor
  · intro hled
    constructor
    · intro hmaster
      exact hled.sole guid _ hself hmaster
    · intro hleader
      obtain ⟨m, hm, hmaster⟩ := hled.leader
      change (r.changeRank guid newRank).guild.members r.guild.leaderGuid = _ at hm
      rw [← hleader, hself, Option.some.injEq] at hm
      rw [← hmaster, ← hm]
      rfl
  · intro hiff
    constructor
    · intro p m hm
      by_cases hp : p = guid
      · rw [hp, hself, Option.some.injEq] at hm
        rw [← hm]
        exact hexists
      · rw [hother p hp] at hm
        exact h.rank_exists p m hm
    · change ∃ m, (r.changeRank guid newRank).guild.members r.guild.leaderGuid = some m ∧ _
      by_cases hleader : guid = r.guild.leaderGuid
      · rw [← hleader]
        exact ⟨_, hself, hiff.mpr hleader⟩
      · rw [hother _ (Ne.symm hleader)]
        exact h.leader
    · intro p m hm hmaster
      by_cases hp : p = guid
      · rw [hp, hself, Option.some.injEq] at hm
        rw [← hm] at hmaster
        exact hp.trans (hiff.mp hmaster)
      · rw [hother p hp] at hm
        exact h.sole p m hm hmaster

variable {leader : G}

theorem setLeader_members (hmember : r.guild.members leader = some member) :
    (r.setLeader leader).guild.members =
      Function.update r.guild.members leader (some (member.changeRank GuildMaster)) := by
  simp [Roster.setLeader, Roster.changeRank, hmember]

/-- The guild is led by the new master, unless it is the old one, who ends up
with the lowest rank. -/
theorem led_replaceLeader_iff (h : Led r.guild) (ht : Tidy r) {newGuildMaster : G}
    (hmember : r.guild.members newGuildMaster = some member) :
    ∃ after, r.replaceLeader newGuildMaster = .ok after ∧ Tidy after ∧
      (Led after.guild ↔ newGuildMaster ≠ r.guild.leaderGuid) := by
  obtain ⟨lowest, hlowest, hlowestId, hnotMaster⟩ := ht.lowestRankId
  obtain ⟨old, hold, holdRank⟩ := h.leader
  have hexists := rankInfoOfId_isSome_of_mem hlowest
  have hset := setLeader_members hmember
  refine ⟨(r.setLeader newGuildMaster).changeRank r.guild.leaderGuid lowest.rankId, ?_,
    tidy_changeRank (tidy_setLeader ht newGuildMaster) _ _, ?_⟩
  · unfold Roster.replaceLeader
    rw [hlowestId]
    rfl
  by_cases hself : newGuildMaster = r.guild.leaderGuid
  · -- the master is set again, and then gets the lowest rank
    subst hself
    refine iff_of_false (fun hled => ?_) (fun hne => hne rfl)
    obtain ⟨m, hm, hmaster⟩ := hled.leader
    change ((r.setLeader r.guild.leaderGuid).changeRank _ _).guild.members r.guild.leaderGuid = _ at hm
    rw [changeRank_members (by rw [hset, update_self]), update_self, Option.some.injEq] at hm
    rw [← hm] at hmaster
    exact hnotMaster hmaster
  · refine iff_of_true ?_ hself
    have holdKept : (r.setLeader newGuildMaster).guild.members r.guild.leaderGuid = some old := by
      rw [hset, update_of_ne (Ne.symm hself), hold]
    have hafter := changeRank_members holdKept lowest.rankId
    rw [hset] at hafter
    constructor
    · intro p m hm
      rw [hafter] at hm
      by_cases hp : p = r.guild.leaderGuid
      · rw [hp, update_self, Option.some.injEq] at hm
        rw [← hm]
        exact hexists
      · rw [update_of_ne hp] at hm
        by_cases hnew : p = newGuildMaster
        · rw [hnew, update_self, Option.some.injEq] at hm
          rw [← hm]
          exact h.master_exists
        · rw [update_of_ne hnew] at hm
          exact h.rank_exists p m hm
    · refine ⟨member.changeRank GuildMaster, ?_, rfl⟩
      change ((r.setLeader newGuildMaster).changeRank _ _).guild.members newGuildMaster = _
      rw [hafter, update_of_ne hself, update_self]
    · intro p m hm hmaster
      rw [hafter] at hm
      by_cases hp : p = r.guild.leaderGuid
      · rw [hp, update_self, Option.some.injEq] at hm
        rw [← hm] at hmaster
        exact absurd hmaster hnotMaster
      · rw [update_of_ne hp] at hm
        by_cases hnew : p = newGuildMaster
        · exact hnew
        · rw [update_of_ne hnew] at hm
          exact absurd (h.sole p m hm hmaster) hp

theorem newLeader_spec (h : r.newLeader guid = some leader) : leader ∈ r.guids ∧ leader ≠ guid := by
  refine foldlRecOn (motive := fun found => ∀ p, found = some p → p ∈ r.guids ∧ p ≠ guid)
    r.guids (r.nextLeader guid) (fun p hp => by cases hp) ?_ leader h
  intro found hfound memberGuid hmem p hp
  unfold Roster.nextLeader at hp
  split at hp
  · exact hfound p hp
  rename_i hne
  split at hp
  · cases hp
    exact ⟨hmem, hne⟩
  · split at hp
    · cases hp
      exact ⟨hmem, hne⟩
    · exact hfound p hp

theorem led_erase (h : Led r.guild) (hne : guid ≠ r.guild.leaderGuid) :
    Led (r.erase guid).guild := by
  have hkept : ∀ {p m}, (r.erase guid).guild.members p = some m → r.guild.members p = some m := by
    intro p m hm
    change update r.guild.members guid none p = some m at hm
    rw [update_apply] at hm
    split at hm
    · cases hm
    · exact hm
  constructor
  · exact fun p m hm => h.rank_exists p m (hkept hm)
  · obtain ⟨m, hm, hmaster⟩ := h.leader
    refine ⟨m, ?_, hmaster⟩
    change update r.guild.members guid none r.guild.leaderGuid = some m
    rw [update_of_ne (Ne.symm hne), hm]
  · exact fun p m hm hmaster => h.sole p m (hkept hm) hmaster

theorem led_succeed (h : Led r.guild) (hmember : r.guild.members leader = some member)
    (hne : leader ≠ r.guild.leaderGuid) :
    Led ((r.setLeader leader).erase r.guild.leaderGuid).guild := by
  have hset := setLeader_members hmember
  have hafter : ((r.setLeader leader).erase r.guild.leaderGuid).guild.members =
      update (update r.guild.members leader
        (some (member.changeRank GuildMaster))) r.guild.leaderGuid none := by
    rw [← hset]
    rfl
  constructor
  · intro p m hm
    rw [hafter, update_apply, update_apply] at hm
    split at hm
    · cases hm
    · split at hm
      · rw [← Option.some.inj hm]
        exact h.master_exists
      · exact h.rank_exists p m hm
  · refine ⟨member.changeRank GuildMaster, ?_, rfl⟩
    change ((r.setLeader leader).erase _).guild.members leader = _
    rw [hafter, update_of_ne hne, update_self]
  · intro p m hm hmaster
    rw [hafter, update_apply, update_apply] at hm
    split at hm
    · cases hm
    · rename_i hold
      split at hm
      · assumption
      · exact absurd (h.sole p m hm hmaster) hold

/-- What `DeleteMember` leaves, if anything, is led. -/
theorem deleteMember_led (h : Led r.guild) (ht : Tidy r) (guid : G)
    (hafter : r.deleteMember guid = .stays r') : Led r'.guild ∧ Tidy r' := by
  unfold Roster.deleteMember at hafter
  split at hafter
  · rename_i hleader
    cases hnew : r.newLeader guid with
    | none => simp [hnew] at hafter
    | some leader =>
      simp only [hnew, Answer.stays.injEq] at hafter
      obtain ⟨hmem, hne⟩ := newLeader_spec hnew
      obtain ⟨member, hmember⟩ := Option.isSome_iff_exists.mp ((ht.listed leader).mp hmem)
      rw [← hleader] at hne hafter
      rw [← hafter]
      exact ⟨led_succeed h hmember hne, tidy_erase (tidy_setLeader ht leader) _⟩
  · rename_i hother
    cases hafter
    exact ⟨led_erase h (Ne.symm hother), tidy_erase ht guid⟩

end Members

end LegionServer.Guarantees.GuildLeadership
