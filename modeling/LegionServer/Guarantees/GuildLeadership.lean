import LegionServer.Guarantees.LeadershipSteps
import Mathlib.Algebra.Ring.Nat

/-!
# Guild leadership over whole runs

Three requests break a led guild.
-/
namespace LegionServer.Guarantees.GuildLeadership
open Library Source.Guilds Guarantees.GuildRanks List Function Ends

variable {G : Type} {r r' : Roster G} {nameOf : G → String}

section RankTable

variable {g : Guild G}

theorem led_ranks_iff (h : Led g) (ranks : List RankInfo) :
    Led { g with ranks := ranks } ↔
      ∀ guid member, g.members guid = some member → member.rankId ∈ ranks.map RankInfo.rankId := by
  constructor
  · intro hled guid member hmember
    exact (rankInfoOfId_isSome _ _).mp (hled.rank_exists guid member hmember)
  · intro hall
    exact ⟨fun guid member hmember => (rankInfoOfId_isSome _ _).mpr (hall guid member hmember),
      h.leader, h.sole⟩

theorem Led.rank_mem (h : Led g) {guid : G} {member : Member}
    (hmember : g.members guid = some member) : member.rankId ∈ g.ranks.map RankInfo.rankId :=
  (rankInfoOfId_isSome g _).mp (h.rank_exists guid member hmember)

variable {after : Guild G}

theorem createRank_appends {name : String} {rights : UInt32}
    (h : createRank g name rights = some after) :
    ∃ infos, after = { g with ranks := g.ranks ++ infos } := by
  unfold createRank at h
  split at h
  · cases h
    exact ⟨[], by rw [append_nil]⟩
  · split at h
    · cases h
    · cases h
      exact ⟨_, rfl⟩

variable [DecidableEq G]

theorem handleAddNewRank_appends {player : G} {name : String}
    (h : handleAddNewRank g player name = some after) :
    ∃ infos, after = { g with ranks := g.ranks ++ infos } := by
  unfold handleAddNewRank at h
  split at h
  · cases h
    exact ⟨[], by rw [append_nil]⟩
  · split at h
    · exact createRank_appends h
    · cases h
      exact ⟨[], by rw [append_nil]⟩

theorem handleShiftRank_ids (g : Guild G) (player : G) (rankOrder : GuildRankOrder) (shiftUp : Bool) :
    ∃ ranks, handleShiftRank g player rankOrder shiftUp = { g with ranks := ranks } ∧
      ranks.map RankInfo.rankId = g.ranks.map RankInfo.rankId := by
  unfold handleShiftRank
  split
  · exact ⟨g.ranks, rfl, rfl⟩
  dsimp only
  split
  · split
    · split
      · exact ⟨g.ranks, rfl, rfl⟩
      · exact ⟨_, rfl, by rw [setOrderAt_rankIds, setOrderAt_rankIds]⟩
    · exact ⟨g.ranks, rfl, rfl⟩
  · exact ⟨g.ranks, rfl, rfl⟩

theorem handleRemoveRank_removes (h : WellFormedRanks g.ranks) (player : G)
    (rankOrder : GuildRankOrder) :
    (handleRemoveRank g player rankOrder = g ∧ ∀ rank, g.rankInfoOfOrder rankOrder = some rank →
        ¬ (GUILD_RANKS_MIN_COUNT < g.ranksSize ∧ g.isLeader player = true)) ∨
    GUILD_RANKS_MIN_COUNT < g.ranksSize ∧ g.isLeader player = true ∧
      ∃ rank before behind, g.rankInfoOfOrder rankOrder = some rank ∧
        g.ranks = before ++ rank :: behind ∧
        handleRemoveRank g player rankOrder =
          { g with ranks := (before ++ behind).map (correctOrder rankOrder) } := by
  unfold handleRemoveRank
  split
  · rename_i hguard
    refine .inl ⟨rfl, fun rank _ hserved => ?_⟩
    simp only [hserved.2, Bool.not_true, Bool.or_false, decide_eq_true_eq] at hguard
    exact absurd (UInt8.lt_of_lt_of_le hserved.1 hguard) (UInt8.lt_irrefl _)
  · rename_i hguard
    simp only [Bool.or_eq_true, decide_eq_true_eq, Bool.not_eq_true', not_or, UInt8.not_le,
      Bool.not_eq_false] at hguard
    cases hfind : g.rankInfoOfOrder rankOrder with
    | none => exact .inl ⟨rfl, fun rank hrank => by cases hrank⟩
    | some rank =>
      obtain ⟨hmem, horder⟩ := rankInfoOfOrder_some hfind
      refine .inr ⟨hguard.1, hguard.2, rank, ?_⟩
      obtain ⟨found, before, behind, _, hfound, hsplit, herase⟩ :=
        exists_of_eraseP hmem (p := fun rank : RankInfo => rank.rankOrder == rankOrder)
          (by simpa using horder)
      have hfoundMem : found ∈ g.ranks := by
        rw [hsplit]
        exact mem_append_right _ mem_cons_self
      have hsame : found = rank := by
        refine inj_on_of_nodup_map h.orders_nodup hfoundMem hmem ?_
        rw [eq_of_beq hfound, horder]
      rw [hsame] at hsplit
      exact ⟨before, behind, rfl, hsplit, by dsimp only; rw [herase]⟩

end RankTable

section Requests

/-- The guild that is left is led exactly if the request was proper. -/
def Leaves (proper : Prop) : Answer G → Prop
  | .stays r' => (Led r'.guild ↔ proper) ∧ (proper → Tidy r')
  | .disbanded => True

theorem leaves_led {proper : Prop} (hproper : proper) (h : Led r.guild) (ht : Tidy r) :
    Leaves proper (.stays r) := ⟨iff_of_true h hproper, fun _ => ht⟩

theorem leaves_ranks {g' : Guild G} (h : Led r.guild) (ht : Tidy r) {ranks : List RankInfo}
    (hafter : g' = { r.guild with ranks := ranks }) (hranks : WellFormedRanks ranks)
    (hids : r.guild.ranks.map RankInfo.rankId <+: ranks.map RankInfo.rankId) :
    Leaves True (.stays { r with guild := g' }) := by
  rw [hafter]
  have hled := (led_ranks_iff h ranks).mpr fun guid member hmember =>
    hids.subset (h.rank_mem hmember)
  refine leaves_led trivial hled ⟨hranks, ?_, ht.listed, ht.nodup⟩
  obtain ⟨more, hmore⟩ := hids
  rw [← hmore, head?_append, ht.first]
  rfl

variable {g : Guild G} {guid : G}

theorem derefRank_ok (h : Led g) {member : Member} (hmember : g.members guid = some member) :
    ∃ rank, g.derefRank member.rankId = .ok rank ∧ rank ∈ g.ranks ∧ rank.rankId = member.rankId := by
  obtain ⟨rank, hrank⟩ := Option.isSome_iff_exists.mp (h.rank_exists guid member hmember)
  obtain ⟨hmem, hid⟩ := rankInfoOfId_some hrank
  exact ⟨rank, by unfold Guild.derefRank; rw [hrank], hmem, hid⟩

theorem derefMember_ok {member : Member} (hmember : g.members guid = some member)
    (fault : GuildFault) : g.derefMember guid fault = .ok member := by
  unfold Guild.derefMember
  rw [hmember]

variable {player : G}

theorem hasRankRight_member {right : UInt32} (h : g.hasRankRight player right = true) :
    ∃ member, g.members player = some member := by
  unfold Guild.hasRankRight at h
  split at h
  · exact ⟨_, by assumption⟩
  · cases h

variable [DecidableEq G]

def deletesFreeRank (g : Guild G) : RankRequest G → Prop
  | .removeRank player rankOrder =>
    GUILD_RANKS_MIN_COUNT < g.ranksSize → g.isLeader player = true →
      ∀ rank, g.rankInfoOfOrder rankOrder = some rank →
        ∀ guid member, g.members guid = some member → member.rankId ≠ rank.rankId
  | _ => True

/-- The requests that the handlers should have refused, or made no change for,
are left out: a rank in use is deleted, the guild master is replaced by the guild
master, order 0 is given to another member or another order to the leader. -/
def Proper (nameOf : G → String) (r : Roster G) : MemberRequest G → Prop
  | .setMemberRank player targetGuid rank =>
    ∀ member oldRank newRank, r.guild.members targetGuid = some member →
      r.guild.rankInfoOfId member.rankId = some oldRank →
      r.guild.rankInfoOfOrder rank = some newRank →
      r.guild.hasRankRight player
        (if rank > oldRank.rankOrder then GR_RIGHT_DEMOTE else GR_RIGHT_PROMOTE) = true →
      targetGuid ≠ player → (rank = 0 ↔ targetGuid = r.guild.leaderGuid)
  | .setNewGuildMaster player name isSelfPromote _ =>
    isSelfPromote = false → r.guild.isLeader player = true →
      r.memberNamed nameOf name ≠ some r.guild.leaderGuid
  | .rankTable request => deletesFreeRank r.guild request
  | _ => True

/-- A sender's session has found the guild through the sender's membership; a
rehash keeps the members. -/
def Allowed (r : Roster G) (request : MemberRequest G) : Prop :=
  (∀ player, request.sender? = some player → (r.guild.members player).isSome) ∧
    ∀ guids, request = .rehash guids → guids.Perm r.guids

section
variable (h : Led r.guild) (ht : Tidy r)
include h ht

theorem leaves_deleteMember (guid : G) : Leaves True (r.deleteMember guid) := by
  cases hafter : r.deleteMember guid with
  | stays r' =>
    obtain ⟨hled, htidy⟩ := deleteMember_led h ht guid hafter
    exact leaves_led trivial hled htidy
  | disbanded => trivial

theorem addMember_leaves (guid : G) (inGuild loaded : Bool) :
    ∃ added, r.addMember guid inGuild loaded none = .ok added ∧ Leaves True (.stays added.1) := by
  obtain ⟨lowest, hlowest, hlowestId, hnotMaster⟩ := ht.lowestRankId
  have hsame := leaves_led trivial h ht
  unfold Roster.addMember
  split
  · exact ⟨_, rfl, hsame⟩
  rw [hlowestId]
  split
  · exact ⟨_, rfl, hsame⟩
  rename_i hnew
  rw [Bool.not_eq_true, Option.isSome_eq_false_iff, Option.isNone_iff_eq_none] at hnew
  cases loaded with
  | false => exact ⟨_, rfl, hsame⟩
  | true =>
    refine ⟨_, rfl, leaves_led trivial ?_ ?_⟩
    · obtain ⟨leader, hleader, hmaster⟩ := h.leader
      have hother : guid ≠ r.guild.leaderGuid := by
        intro heq
        rw [heq, hleader] at hnew
        cases hnew
      constructor
      · intro p m hm
        dsimp only at hm
        rw [update_apply] at hm
        split at hm
        · rw [← Option.some.inj hm]
          exact rankInfoOfId_isSome_of_mem hlowest
        · exact h.rank_exists p m hm
      · exact ⟨leader, by dsimp only; rw [update_of_ne (Ne.symm hother), hleader], hmaster⟩
      · intro p m hm hm'
        dsimp only at hm
        rw [update_apply] at hm
        split at hm
        · rw [← Option.some.inj hm] at hm'
          exact absurd hm' hnotMaster
        · exact h.sole p m hm hm'
    · refine ⟨ht.ranks, ht.first, fun p => ?_, ?_⟩
      · dsimp only
        rw [mem_cons, update_apply, ht.listed]
        split
        · rename_i heq
          simp [heq]
        · rename_i hne
          simp [hne]
      · rw [nodup_cons, ht.listed, hnew]
        exact ⟨by simp, ht.nodup⟩

theorem leaveMember_leaves (hsender : (r.guild.members player).isSome) :
    Ends (· = .assertion) (r.handleLeaveMember player) (Leaves True) := by
  obtain ⟨member, hmember⟩ := Option.isSome_iff_exists.mp hsender
  unfold Roster.handleLeaveMember
  split
  · split
    · exact .ok (leaves_led trivial h ht)
    · exact .ok trivial
  · rw [derefMember_ok hmember]
    exact .ok (leaves_deleteMember h ht player)

theorem removeMember_leaves (player guid : G) :
    Ends (· = .assertion) (r.handleRemoveMember player guid) (Leaves True) := by
  have hsame : Ends (· = .assertion) (.ok (.stays r) : Except GuildFault (Answer G)) (Leaves True) :=
    .ok (leaves_led trivial h ht)
  unfold Roster.handleRemoveMember
  split
  · exact hsame
  rename_i hright
  rw [Bool.not_eq_true', Bool.not_eq_false] at hright
  obtain ⟨memberMe, hme⟩ := hasRankRight_member hright
  cases hmember : r.guild.members guid with
  | none => exact hsame
  | some member =>
    obtain ⟨myRank, hmyRank, _⟩ := derefRank_ok h hme
    obtain ⟨targetRank, htargetRank, _⟩ := derefRank_ok h hmember
    dsimp only
    split
    · exact hsame
    · refine bind_ok (derefMember_ok hme _) (bind_ok hmyRank (bind_ok htargetRank ?_))
      split
      · exact hsame
      · exact .ok (leaves_deleteMember h ht guid)

/-- Demotions stay below the sender's rank; the only failure is the assertion on a
promotion of the guild master, from order 0 to order 255. -/
theorem updateMemberRank_leaves (player guid : G) (demote : Bool) :
    Ends (· = .assertion) (r.handleUpdateMemberRank player guid demote)
      fun after => Leaves True (.stays after) := by
  have hsame : Ends (· = .assertion) (.ok r : Except GuildFault (Roster G))
      fun after => Leaves True (.stays after) := .ok (leaves_led trivial h ht)
  unfold Roster.handleUpdateMemberRank
  generalize (if demote = true then GR_RIGHT_DEMOTE else GR_RIGHT_PROMOTE) = right
  split
  · exact hsame
  rename_i hright
  rw [Bool.not_eq_true', Bool.not_eq_false] at hright
  obtain ⟨memberMe, hme⟩ := hasRankRight_member hright
  cases hmember : r.guild.members guid with
  | none => exact hsame
  | some member =>
    dsimp only
    split
    · exact hsame
    obtain ⟨myRank, hmyRank, _⟩ := derefRank_ok h hme
    obtain ⟨oldRank, holdRank, holdMem, holdId⟩ := derefRank_ok h hmember
    refine bind_ok (derefMember_ok hme _) (bind_ok hmyRank (bind_ok holdRank ?_))
    -- a rank that is not of order 0, given to a member that has not order 0
    have hchange : ∀ {rankOrder newRank}, r.guild.rankInfoOfOrder rankOrder = some newRank →
        oldRank.rankOrder ≠ 0 → rankOrder ≠ 0 →
        Leaves True (.stays (r.changeRank guid newRank.rankId)) := by
      intro rankOrder newRank hnew hold hne
      obtain ⟨hnewMem, hnewOrder⟩ := rankInfoOfOrder_some hnew
      refine leaves_led trivial ((led_changeRank_iff h hmember
        (rankInfoOfId_isSome_of_mem hnewMem)).mpr ?_) (tidy_changeRank ht guid _)
      rw [← order_zero_iff ht.ranks hnewMem, hnewOrder]
      refine iff_of_false hne ?_
      intro hleader
      obtain ⟨leader, hlead, hmaster⟩ := h.leader
      rw [← hleader, hmember, Option.some.injEq] at hlead
      exact hold ((order_zero_iff ht.ranks holdMem).mpr (holdId.trans (hlead ▸ hmaster)))
    cases demote with
    | true =>
      simp only [if_true]
      split
      · exact hsame
      rename_i hlower
      rw [UInt8.not_le, UInt8.lt_iff_toNat_lt] at hlower
      have hsmall : oldRank.rankOrder.toNat < r.guild.ranks.length :=
        (ht.ranks.mem_orders _).mp (mem_map_of_mem holdMem)
      have hmax := ht.ranks.max_count
      simp only [GUILD_RANKS_MAX_COUNT, UInt8.reduceToNat] at hmax
      cases hnew : r.guild.rankInfoOfOrder (oldRank.rankOrder + 1) with
      | none => exact hsame
      | some newRank =>
        refine .ok (hchange hnew ?_ ?_)
        · intro hzero
          rw [hzero, UInt8.toNat_zero] at hlower
          omega
        · intro hzero
          have hsum := congrArg UInt8.toNat hzero
          rw [UInt8.toNat_add, UInt8.toNat_one, UInt8.toNat_zero] at hsum
          omega
    | false =>
      simp only [Bool.false_eq_true, if_false]
      split
      · exact hsame
      rename_i hlower
      cases hnew : r.guild.rankInfoOfOrder (oldRank.rankOrder - 1) with
      | none => exact .error rfl
      | some newRank =>
        obtain ⟨hnewMem, hnewOrder⟩ := rankInfoOfOrder_some hnew
        refine .ok (hchange hnew ?_ ?_)
        · intro hzero
          have hsmall : newRank.rankOrder.toNat < r.guild.ranks.length :=
            (ht.ranks.mem_orders _).mp (mem_map_of_mem hnewMem)
          have hmax := ht.ranks.max_count
          simp only [GUILD_RANKS_MAX_COUNT, UInt8.reduceToNat] at hmax
          have hwrap : newRank.rankOrder.toNat = 255 := by
            rw [hnewOrder, hzero]
            rfl
          omega
        · intro hzero
          rw [hzero] at hlower
          exact hlower (UInt8.zero_le)

theorem setMemberRank_leaves (player targetGuid : G) (rank : GuildRankOrder) :
    Leaves (Proper nameOf r (.setMemberRank player targetGuid rank))
      (.stays (r.handleSetMemberRank player targetGuid rank)) := by
  unfold Roster.handleSetMemberRank
  cases hmember : r.guild.members targetGuid with
  | none =>
    refine leaves_led ?_ h ht
    intro member _ _ hm
    rw [hmember] at hm
    cases hm
  | some member =>
    dsimp only
    split
    · rename_i oldRank newRank hold hnew
      obtain ⟨hnewMem, hnewOrder⟩ := rankInfoOfOrder_some hnew
      generalize hrights : (if rank > oldRank.rankOrder then GR_RIGHT_DEMOTE else GR_RIGHT_PROMOTE) =
        rights
      have hproper : Proper nameOf r (.setMemberRank player targetGuid rank) ↔
          (r.guild.hasRankRight player rights = true → targetGuid ≠ player →
            (rank = 0 ↔ targetGuid = r.guild.leaderGuid)) := by
        constructor
        · intro hall hright
          rw [← hrights] at hright
          exact hall member oldRank newRank hmember hold hnew hright
        · intro hall m old' _ hm hold' _ hright
          rw [hmember, Option.some.injEq] at hm
          rw [← hm, hold, Option.some.injEq] at hold'
          rw [← hold', hrights] at hright
          exact hall hright
      split
      · rename_i hright
        rw [Bool.not_eq_true'] at hright
        refine leaves_led (hproper.mpr fun hhas => ?_) h ht
        rw [hright] at hhas
        cases hhas
      · rename_i hright
        rw [Bool.not_eq_true', Bool.not_eq_false] at hright
        split
        · rename_i hself
          exact leaves_led (hproper.mpr fun _ hne => absurd hself hne) h ht
        rename_i hother
        refine ⟨?_, fun _ => tidy_changeRank ht targetGuid _⟩
        rw [led_changeRank_iff h hmember (rankInfoOfId_isSome_of_mem hnewMem), hproper,
          ← order_zero_iff ht.ranks hnewMem, hnewOrder]
        exact ⟨fun hiff _ _ => hiff, fun hall => hall hright hother⟩
    · rename_i hnone
      refine leaves_led ?_ h ht
      intro m oldRank newRank hm hold hnew
      rw [hmember, Option.some.injEq] at hm
      rw [← hm] at hold
      exact absurd hnew (hnone oldRank newRank hold)

theorem setNewGuildMaster_leaves (player : G) (name : String) (isSelfPromote : Bool)
    (inactiveDays : UInt32) :
    Ends (· = .assertion) (r.handleSetNewGuildMaster nameOf player name isSelfPromote inactiveDays)
      fun after => Leaves
        (Proper nameOf r (.setNewGuildMaster player name isSelfPromote inactiveDays))
        (.stays after) := by
  obtain ⟨oldGuildMaster, hold, holdMaster⟩ := h.leader
  refine bind_ok (derefMember_ok hold _) ?_
  cases isSelfPromote with
  | true =>
    have hproper : Proper nameOf r (.setNewGuildMaster player name true inactiveDays) :=
      fun hfalse => by cases hfalse
    cases hmember : r.guild.members player with
    | none => exact .ok (leaves_led hproper h ht)
    | some member =>
      obtain ⟨oldRank, holdRank, holdMem, holdId⟩ := derefRank_ok h hmember
      refine bind_ok holdRank ?_
      split
      · exact .ok (leaves_led hproper h ht)
      rename_i hsecond
      rw [not_or, not_not] at hsecond
      obtain ⟨after, hafter, htidy, hled⟩ := led_replaceLeader_iff h ht hmember
      rw [hafter]
      refine .ok (leaves_led hproper (hled.mpr fun hself => ?_) htidy)
      -- the second rank is not the leader's
      rw [hself, hold, Option.some.injEq] at hmember
      have hzero := (order_zero_iff ht.ranks holdMem).mpr (holdId.trans (hmember ▸ holdMaster))
      rw [hsecond.1] at hzero
      exact absurd hzero (by decide)
  | false =>
    simp only [Bool.false_eq_true, if_false]
    split
    · rename_i hleader
      rw [Bool.not_eq_true'] at hleader
      refine .ok (leaves_led (fun _ hyes => ?_) h ht)
      rw [hleader] at hyes
      cases hyes
    · rename_i hleader
      rw [Bool.not_eq_true', Bool.not_eq_false] at hleader
      cases hnamed : r.memberNamed nameOf name with
      | none => exact .ok (leaves_led (fun _ _ => by rw [hnamed]; simp) h ht)
      | some newGuildMaster =>
        have hmem : newGuildMaster ∈ r.guids := mem_of_find?_eq_some hnamed
        obtain ⟨member, hmember⟩ := Option.isSome_iff_exists.mp ((ht.listed _).mp hmem)
        obtain ⟨after, hafter, htidy, hled⟩ := led_replaceLeader_iff h ht hmember
        dsimp only
        rw [hafter]
        refine .ok ⟨hled.trans ?_, fun _ => htidy⟩
        simp [Proper, hleader, hnamed]

theorem removeRank_leaves (player : G) (rankOrder : GuildRankOrder) :
    Leaves (deletesFreeRank r.guild (.removeRank player rankOrder))
      (.stays { r with guild := handleRemoveRank r.guild player rankOrder }) := by
  rcases handleRemoveRank_removes ht.ranks player rankOrder with
    ⟨hsame, hrefused⟩ | ⟨hmin, hleads, rank, before, behind, hrank, hsplit, hafter⟩
  · rw [hsame]
    refine leaves_led ?_ h ht
    intro hmin hleads rank hrank
    exact absurd ⟨hmin, hleads⟩ (hrefused rank hrank)
  · have hids := ht.ranks.ids_nodup
    have hfirst := ht.first
    have hproper : deletesFreeRank r.guild (.removeRank player rankOrder) ↔
        ∀ guid member, r.guild.members guid = some member → member.rankId ≠ rank.rankId := by
      constructor
      · exact fun hall => hall hmin hleads rank hrank
      · intro hall _ _ found hfound
        rw [hrank, Option.some.injEq] at hfound
        exact hfound ▸ hall
    have hnewIds : ((before ++ behind).map (correctOrder rankOrder)).map RankInfo.rankId =
        before.map RankInfo.rankId ++ behind.map RankInfo.rankId := by
      rw [map_map, ← map_append]
      exact map_congr_left fun rank _ => correctOrder_rankId rankOrder rank
    rw [hsplit, map_append, map_cons] at hids hfirst
    have hgone := (List.nodup_middle.mp hids).notMem
    have hkept : ∀ rankId, rankId ∈ before.map RankInfo.rankId ++ behind.map RankInfo.rankId ↔
        rankId ∈ r.guild.ranks.map RankInfo.rankId ∧ rankId ≠ rank.rankId := by
      intro rankId
      rw [hsplit, map_append, map_cons, mem_append, mem_append, mem_cons]
      constructor
      · intro hmem
        exact ⟨hmem.imp_right .inr, fun heq => hgone (heq ▸ List.mem_append.mpr hmem)⟩
      · rintro ⟨hbefore | hthis | hbehind, hne⟩
        · exact .inl hbefore
        · exact absurd hthis hne
        · exact .inr hbehind
    refine ⟨?_, fun hfree => ?_⟩
    · rw [hafter, hproper]
      refine (led_ranks_iff h _).trans ?_
      rw [hnewIds]
      refine forall_congr' fun guid => forall_congr' fun member => forall_congr' fun hmember => ?_
      rw [hkept]
      exact and_iff_right (h.rank_mem hmember)
    · -- the leader has the master rank, so it is another rank that goes
      rw [hproper] at hfree
      obtain ⟨leader, hleader, hmaster⟩ := h.leader
      have hnotMaster : rank.rankId ≠ GuildMaster := hmaster ▸ (hfree _ leader hleader).symm
      have hkeeps : ¬ deletesMasterRank r.guild (.removeRank player rankOrder) := by
        rintro ⟨hzero, _⟩
        obtain ⟨hmem, horder⟩ := rankInfoOfOrder_some hrank
        exact hnotMaster ((order_zero_iff ht.ranks hmem).mp (horder.trans hzero))
      obtain ⟨after, hserved, hiff⟩ :=
        handleRankRequest_wellFormed_iff r.guild (.removeRank player rankOrder) ht.ranks
      rw [← Option.some.inj hserved] at hiff
      refine ⟨hiff.mpr hkeeps, ?_, ?_, ht.nodup⟩
      · rw [hafter]
        rw [hnewIds]
        cases before with
        | nil => exact absurd (Option.some.inj hfirst) hnotMaster
        | cons => exact hfirst
      · rw [hafter]
        exact ht.listed

theorem rankTable_leaves (request : RankRequest G) :
    ∃ guild, handleRankRequest r.guild request = some guild ∧
      Leaves (deletesFreeRank r.guild request) (.stays { r with guild }) := by
  obtain ⟨guild, hserved, hiff⟩ := handleRankRequest_wellFormed_iff r.guild request ht.ranks
  refine ⟨guild, hserved, ?_⟩
  cases request with
  | addNewRank player name =>
    obtain ⟨infos, hafter⟩ := handleAddNewRank_appends hserved
    have hwf := hiff.mpr id
    rw [hafter] at hwf
    refine leaves_ranks h ht hafter hwf ?_
    rw [map_append]
    exact prefix_append _ _
  | shiftRank player rankOrder shiftUp =>
    obtain ⟨ranks, hafter, hids⟩ := handleShiftRank_ids r.guild player rankOrder shiftUp
    rw [Option.some.inj hserved] at hafter
    have hwf := hiff.mpr id
    rw [hafter] at hwf
    refine leaves_ranks h ht hafter hwf ?_
    rw [hids]
  | removeRank player rankOrder =>
    rw [← Option.some.inj hserved]
    exact removeRank_leaves h ht player rankOrder

/-- One request to a led guild fails with an assertion at most, and leaves a led
guild exactly if it is proper. -/
theorem handle_leaves (request : MemberRequest G) (hallowed : Allowed r request) :
    Ends (· = .assertion) (r.handle nameOf request) (Leaves (Proper nameOf r request)) := by
  cases request with
  | addMember guid inGuild loaded =>
    obtain ⟨added, hadded, hleaves⟩ := addMember_leaves h ht guid inGuild loaded
    unfold Roster.handle
    dsimp only
    rw [hadded]
    exact .ok hleaves
  | deleteMember guid => exact .ok (leaves_deleteMember h ht guid)
  | leaveMember player => exact leaveMember_leaves h ht (hallowed.1 player rfl)
  | removeMember player guid => exact removeMember_leaves h ht player guid
  | updateMemberRank player guid demote => exact (updateMemberRank_leaves h ht player guid demote).map
  | setMemberRank player targetGuid rank => exact .ok (setMemberRank_leaves h ht player targetGuid rank)
  | setNewGuildMaster player name isSelfPromote inactiveDays =>
    exact (setNewGuildMaster_leaves h ht player name isSelfPromote inactiveDays).map
  | delete player =>
    simp only [Roster.handle, Roster.handleDelete]
    split
    · exact .ok trivial
    · exact .ok (leaves_led trivial h ht)
  | rankTable request =>
    obtain ⟨guild, hserved, hleaves⟩ := rankTable_leaves h ht request
    unfold Roster.handle
    dsimp only
    rw [hserved]
    exact .ok hleaves
  | rehash guids =>
    have hperm := hallowed.2 guids rfl
    exact .ok (leaves_led trivial h
      ⟨ht.ranks, ht.first, fun p => hperm.mem_iff.trans (ht.listed p), hperm.nodup_iff.mpr ht.nodup⟩)

end

end Requests

section Runs

variable [DecidableEq G]

local instance neZeroRanks : NeZero 5 := ⟨by decide⟩

def defaultRanks (trinityString : Fin 5 → String) : List RankInfo :=
  [{ rankId := 0, rankOrder := 0, name := trinityString 0, rights := GR_RIGHT_ALL,
     bankMoneyPerDay := 0 },
   { rankId := 1, rankOrder := 1, name := trinityString 1, rights := GR_RIGHT_ALL,
     bankMoneyPerDay := 0 },
   { rankId := 2, rankOrder := 2, name := trinityString 2,
     rights := GR_RIGHT_GCHATLISTEN ||| GR_RIGHT_GCHATSPEAK, bankMoneyPerDay := 0 },
   { rankId := 3, rankOrder := 3, name := trinityString 3,
     rights := GR_RIGHT_GCHATLISTEN ||| GR_RIGHT_GCHATSPEAK, bankMoneyPerDay := 0 },
   { rankId := 4, rankOrder := 4, name := trinityString 4,
     rights := GR_RIGHT_GCHATLISTEN ||| GR_RIGHT_GCHATSPEAK, bankMoneyPerDay := 0 }]

theorem defaultRanks_wellFormed (trinityString : Fin 5 → String) :
    WellFormedRanks (defaultRanks trinityString) where
  orders_perm := List.Perm.refl [0, 1, 2, 3, 4]
  ids_nodup := by
    change ([0, 1, 2, 3, 4] : List UInt8).Nodup
    decide
  master_first := by simp [defaultRanks, GuildMaster]
  min_count := by
    change 2 ≤ 5
    decide
  max_count := by
    change 5 ≤ 10
    decide

theorem createGuild_led {pLeader : G} {trinityString : Fin 5 → String} {inGuild : Bool}
    (h : createGuild pLeader trinityString inGuild = .ok (r, true)) : Led r.guild ∧ Tidy r := by
  cases inGuild with
  | true => cases h
  | false =>
    have hcreated : createGuild pLeader trinityString false = .ok
        ({ guild :=
             { leaderGuid := pLeader
               ranks := defaultRanks trinityString
               members := Function.update (fun _ => none) pLeader (some { rankId := GuildMaster }) }
           guids := [pLeader] }, true) := rfl
    rw [hcreated, Except.ok.injEq, Prod.mk.injEq] at h
    rw [← h.1]
    refine ⟨⟨?_, ⟨{ rankId := GuildMaster }, by simp, rfl⟩, ?_⟩,
      ⟨defaultRanks_wellFormed trinityString, rfl, ?_, nodup_singleton _⟩⟩
    · intro guid member hmember
      dsimp only at hmember
      rw [update_apply] at hmember
      split at hmember
      · rw [← Option.some.inj hmember]
        rfl
      · cases hmember
    · intro guid member hmember _
      dsimp only at hmember
      rw [update_apply] at hmember
      split at hmember
      · assumption
      · cases hmember
    · intro guid
      dsimp only
      rw [mem_singleton, update_apply]
      split
      · rename_i heq
        simp [heq]
      · rename_i hne
        simp [hne]

def guildSystem (nameOf : G → String) : System (Roster G) (MemberRequest G) where
  init r := ∃ pLeader trinityString inGuild, createGuild pLeader trinityString inGuild = .ok (r, true)
  step request r r' := Allowed r request ∧ r.handle nameOf request = .ok (.stays r')

/-- While every request is proper the guild is led: every member's rank exists, the leader is a
member of the master rank, and nobody else has that rank. -/
theorem reachable_guild_led
    (h : ((guildSystem nameOf).guarded fun request r => Proper nameOf r request).Reachable r) :
    Led r.guild ∧ ∀ request, Allowed r request →
      (∀ fault, r.handle nameOf request = .error fault → fault = .assertion) ∧
      ∀ r', r.handle nameOf request = .ok (.stays r') →
        (Led r'.guild ↔ Proper nameOf r request) := by
  have hinv : Led r.guild ∧ Tidy r := by
    refine h.invariant (fun r => Led r.guild ∧ Tidy r) ?_ ?_
    · rintro r ⟨pLeader, trinityString, inGuild, hcreated⟩
      exact createGuild_led hcreated
    · rintro request r r' ⟨hled, htidy⟩ ⟨hproper, hallowed, hserved⟩
      have hleaves := (handle_leaves hled htidy request hallowed).post_of_ok hserved
      exact ⟨hleaves.1.mpr hproper, hleaves.2 hproper⟩
  refine ⟨hinv.1, fun request hallowed => ?_⟩
  have hleaves : Ends (· = .assertion) (r.handle nameOf request) (Leaves (Proper nameOf r request)) :=
    handle_leaves hinv.1 hinv.2 request hallowed
  exact ⟨fun fault hfault => hleaves.may_of_error hfault,
    fun r' hserved => (hleaves.post_of_ok hserved).1⟩

def twoNames (guid : Nat) : String := if guid = 1 then "Founder" else "Recruit"

def served (r : Roster Nat) (request : MemberRequest Nat) : Roster Nat :=
  match r.handle twoNames request with
  | .ok (.stays r') => r'
  | _ => r

def newGuild : Roster Nat :=
  served { guild :=
             { leaderGuid := 1
               ranks := defaultRanks fun _ => "Rank"
               members := Function.update (fun _ => none) 1 (some { rankId := GuildMaster }) }
           guids := [1] } (.addMember 2 false true)

theorem newGuild_reachable :
    ((guildSystem twoNames).guarded fun request r => Proper twoNames r request).Reachable newGuild := by
  refine .step (.addMember 2 false true) (.init ⟨1, fun _ => "Rank", false, rfl⟩) ?_
  refine ⟨trivial, ⟨?_, ?_⟩, rfl⟩
  · intro player hplayer
    cases hplayer
  · intro guids hguids
    cases hguids

variable {request : MemberRequest Nat}

theorem allowed_one (hsender : request.sender? = some 1) (hnot : ∀ guids, request ≠ .rehash guids) :
    Allowed newGuild request := by
  refine ⟨fun player hplayer => ?_, fun guids hguids => absurd hguids (hnot guids)⟩
  rw [hsender, Option.some.injEq] at hplayer
  rw [← hplayer]
  rfl

theorem served_reachable (hsender : request.sender? = some 1)
    (hnot : ∀ guids, request ≠ .rehash guids)
    (hserved : newGuild.handle twoNames request = .ok (.stays (served newGuild request))) :
    (guildSystem twoNames).Reachable (served newGuild request) :=
  .step request newGuild_reachable.of_guarded ⟨allowed_one hsender hnot, hserved⟩

/-- Promoting the recruit keeps the new guild led. -/
theorem reachable_guild_led_promote :
    Led newGuild.guild ∧ Led (served newGuild (.updateMemberRank 1 2 false)).guild := by
  have hled := reachable_guild_led newGuild_reachable
  exact ⟨hled.1, ((hled.2 (.updateMemberRank 1 2 false)
    (allowed_one rfl fun guids hguids => by cases hguids)).2 _ rfl).mpr trivial⟩

/-- The founder deletes the recruit's rank; or names the founder as the next guild master; or
gives the recruit order 0. -/
theorem requests_break_leadership :
    let deleted := served newGuild (.rankTable (.removeRank 1 4))
    let renamed := served newGuild (.setNewGuildMaster 1 "Founder" false 0)
    let doubled := served newGuild (.setMemberRank 1 2 0)
    ((guildSystem twoNames).Reachable deleted ∧ ¬ Led deleted.guild ∧
      deleted.handle twoNames (.updateMemberRank 1 2 false) = .error .nullRank) ∧
    ((guildSystem twoNames).Reachable renamed ∧ ¬ Led renamed.guild) ∧
    (guildSystem twoNames).Reachable doubled ∧ ¬ Led doubled.guild := by
  refine ⟨⟨?_, fun hled => ?_, rfl⟩, ⟨?_, fun hled => ?_⟩, ?_, fun hled => ?_⟩
  · exact served_reachable rfl (fun guids hguids => by cases hguids) rfl
  · exact absurd (hled.rank_exists 2 { rankId := 4 } rfl) (by decide)
  · exact served_reachable rfl (fun guids hguids => by cases hguids) rfl
  · obtain ⟨member, hmember, hmaster⟩ := hled.leader
    cases hmember
    exact absurd hmaster (by decide)
  · exact served_reachable rfl (fun guids hguids => by cases hguids) rfl
  · exact absurd (hled.sole 2 { rankId := 0 } rfl rfl) (by decide)

end Runs

end LegionServer.Guarantees.GuildLeadership
