import Mathlib.Data.List.Range
import LegionServer.Library.Transition
import LegionServer.Source.Guilds.Guild

/-!
# Guild rank tables stay well formed unless the master rank is removed

`HandleRemoveRank` guards the number of ranks and the sender, but not the rank it deletes;
`HandleShiftRank` has the missing guard.
-/
namespace LegionServer.Guarantees.GuildRanks
open Library Source.Guilds List

variable {G : Type*}

def orders (ranks : List RankInfo) : List Nat := ranks.map fun rank => rank.rankOrder.toNat

/-- Orders are 0..n-1, ids are distinct, order 0 is the master rank, and the
number of ranks is within the client's limits. -/
structure WellFormedRanks (ranks : List RankInfo) : Prop where
  orders_perm : (orders ranks).Perm (List.range ranks.length)
  ids_nodup : (ranks.map RankInfo.rankId).Nodup
  master_first : ∀ rank ∈ ranks, rank.rankOrder = 0 → rank.rankId = GuildMaster
  min_count : GUILD_RANKS_MIN_COUNT.toNat ≤ ranks.length
  max_count : ranks.length ≤ GUILD_RANKS_MAX_COUNT.toNat

variable {ranks : List RankInfo}

theorem WellFormedRanks.orders_nodup (h : WellFormedRanks ranks) : (orders ranks).Nodup :=
  h.orders_perm.nodup_iff.mpr nodup_range

theorem WellFormedRanks.mem_orders (h : WellFormedRanks ranks) (n : Nat) :
    n ∈ orders ranks ↔ n < ranks.length := by
  rw [h.orders_perm.mem_iff, mem_range]

/-- The number of ranks fits the `uint8` that `_GetRanksSize` returns. -/
theorem WellFormedRanks.ranksSize_toNat {g : Guild G} (h : WellFormedRanks g.ranks) :
    g.ranksSize.toNat = g.ranks.length := by
  have hmax := h.max_count
  simp only [GUILD_RANKS_MAX_COUNT, UInt8.reduceToNat] at hmax
  simp only [Guild.ranksSize, UInt8.toNat_ofNat', Nat.reducePow]
  omega

theorem rankInfoOfId_isSome (g : Guild G) (rankId : GuildRankId) :
    (g.rankInfoOfId rankId).isSome ↔ rankId ∈ g.ranks.map RankInfo.rankId := by
  simp [Guild.rankInfoOfId, find?_isSome]

theorem freeRankIdFrom_free (g : Guild G) : ∀ (fuel : Nat) (start found : GuildRankId),
    freeRankIdFrom g fuel start = some found → found ∉ g.ranks.map RankInfo.rankId
  | 0, _, _, h => by simp [freeRankIdFrom] at h
  | fuel + 1, start, found, h => by
    unfold freeRankIdFrom at h
    split at h
    · exact freeRankIdFrom_free g fuel _ found h
    · rename_i hfree
      cases Option.some.inj h
      rwa [rankInfoOfId_isSome] at hfree

/-- The search fails only when every id it looks at is taken. -/
theorem freeRankIdFrom_none (g : Guild G) : ∀ (fuel : Nat) (start : GuildRankId),
    freeRankIdFrom g fuel start = none →
    ∀ k < fuel, start + UInt8.ofNat k ∈ g.ranks.map RankInfo.rankId
  | 0, _, _, k, hk => absurd hk (Nat.not_lt_zero k)
  | fuel + 1, start, h, k, hk => by
    unfold freeRankIdFrom at h
    split at h
    · rename_i htaken
      rw [rankInfoOfId_isSome] at htaken
      cases k with
      | zero => simpa using htaken
      | succ k =>
        have hrest := freeRankIdFrom_none g fuel _ h k (by omega)
        have hnext : start + 1 + UInt8.ofNat k = start + UInt8.ofNat (k + 1) := by
          apply UInt8.toNat_inj.mp
          simp only [UInt8.toNat_add, UInt8.toNat_ofNat', UInt8.toNat_one]
          omega
        rwa [hnext] at hrest
    · cases h

theorem freeRankIdFrom_isSome (g : Guild G) (hlen : g.ranks.length < 256) :
    ∃ found, freeRankIdFrom g 256 0 = some found := by
  cases h : freeRankIdFrom g 256 0 with
  | some found => exact ⟨found, rfl⟩
  | none =>
    exfalso
    have hall := freeRankIdFrom_none g 256 0 h
    have hsub : (range 256).map UInt8.ofNat ⊆ g.ranks.map RankInfo.rankId := by
      intro id hid
      obtain ⟨k, hk, rfl⟩ := mem_map.mp hid
      simpa using hall k (mem_range.mp hk)
    have hnodup : ((range 256).map UInt8.ofNat).Nodup := by
      refine List.Nodup.map_on (fun a ha b hb hab => ?_) nodup_range
      have heq := congrArg UInt8.toNat hab
      simp only [UInt8.toNat_ofNat', mem_range] at heq ha hb
      omega
    have hle := (subperm_of_subset hnodup hsub).length_le
    simp only [length_map, length_range] at hle
    omega

theorem createRank_wellFormed (g : Guild G) (name : String) (rights : UInt32)
    (h : WellFormedRanks g.ranks) :
    ∃ after, createRank g name rights = some after ∧ WellFormedRanks after.ranks := by
  unfold createRank
  split
  · exact ⟨g, rfl, h⟩
  rename_i hroom
  simp only [GUILD_RANKS_MAX_COUNT, UInt8.reduceToNat, ge_iff_le, not_le] at hroom
  obtain ⟨newRankId, hfound⟩ := freeRankIdFrom_isSome g (by omega)
  have hfree := freeRankIdFrom_free g 256 0 newRankId hfound
  rw [hfound]
  refine ⟨_, rfl, ?_⟩
  have hmin := h.min_count
  simp only [GUILD_RANKS_MIN_COUNT, UInt8.reduceToNat] at hmin
  constructor
  · have hlast : (UInt8.ofNat g.ranks.length).toNat = g.ranks.length := by
      simp only [UInt8.toNat_ofNat', Nat.reducePow]
      omega
    simp only [orders, map_append, map_cons, map_nil, length_append,
      length_cons, length_nil, range_succ, hlast]
    exact List.Perm.append_right _ h.orders_perm
  · rw [map_append, nodup_append]
    refine ⟨h.ids_nodup, by simp, ?_⟩
    intro a ha b hb hab
    simp only [map_cons, map_nil, mem_singleton] at hb
    exact hfree (by rw [← hb, ← hab]; exact ha)
  · intro rank hrank hzero
    rcases mem_append.mp hrank with hold | hnew
    · exact h.master_first rank hold hzero
    rw [mem_singleton] at hnew
    subst hnew
    have heq : (UInt8.ofNat g.ranks.length).toNat = 0 := congrArg UInt8.toNat hzero
    simp only [UInt8.toNat_ofNat', Nat.reducePow] at heq
    omega
  · simp only [GUILD_RANKS_MIN_COUNT, UInt8.reduceToNat, length_append]
    omega
  · simp only [GUILD_RANKS_MAX_COUNT, UInt8.reduceToNat, length_append, length_cons, length_nil]
    omega

section RemoveRank

/-- `correctOrder` on the orders alone. -/
def closeGap (removed order : Nat) : Nat := if order < removed then order else order - 1

theorem closeGap_range (n removed : Nat) (hlt : removed < n) :
    (((List.range n).erase removed).map (closeGap removed)).Perm (List.range (n - 1)) := by
  have hmem : ∀ k, k ∈ (range n).erase removed ↔ k ≠ removed ∧ k < n := by
    intro k
    rw [nodup_range.mem_erase_iff, mem_range]
  rw [perm_ext_iff_of_nodup _ nodup_range]
  · intro k
    simp only [mem_map, hmem, mem_range, closeGap]
    constructor
    · rintro ⟨m, ⟨hne, hm⟩, rfl⟩
      split <;> omega
    · intro hk
      by_cases hlow : k < removed
      · exact ⟨k, ⟨by omega, by omega⟩, if_pos hlow⟩
      · exact ⟨k + 1, ⟨by omega, by omega⟩, by rw [if_neg (by omega)]; omega⟩
  · refine List.Nodup.map_on ?_ (nodup_range.erase _)
    intro a ha b hb hab
    rw [hmem] at ha hb
    simp only [closeGap] at hab
    split at hab <;> split at hab <;> omega

def withoutOrder (ranks : List RankInfo) (rankOrder : GuildRankOrder) : List RankInfo :=
  ranks.eraseP fun rank => rank.rankOrder == rankOrder

theorem orders_withoutOrder (ranks : List RankInfo) (rankOrder : GuildRankOrder) :
    orders (withoutOrder ranks rankOrder) = (orders ranks).erase rankOrder.toNat := by
  have hpred : (fun rank : RankInfo => rank.rankOrder == rankOrder) =
      (fun n => n == rankOrder.toNat) ∘ fun rank => rank.rankOrder.toNat := by
    funext rank
    simp [← UInt8.toNat_inj, Bool.beq_eq_decide_eq]
  simp only [orders, withoutOrder, erase_eq_eraseP', eraseP_map, hpred]

variable {rankOrder : GuildRankOrder}

theorem WellFormedRanks.withoutOrder_ne (h : WellFormedRanks ranks) {rank : RankInfo}
    (hrank : rank ∈ withoutOrder ranks rankOrder) : rank.rankOrder.toNat ≠ rankOrder.toNat := by
  have hmem : rank.rankOrder.toNat ∈ orders (withoutOrder ranks rankOrder) :=
    mem_map_of_mem hrank
  rw [orders_withoutOrder, h.orders_nodup.mem_erase_iff] at hmem
  exact hmem.1

theorem correctOrder_toNat {rank : RankInfo} (hne : rank.rankOrder.toNat ≠ rankOrder.toNat) :
    (correctOrder rankOrder rank).rankOrder.toNat =
      closeGap rankOrder.toNat rank.rankOrder.toNat := by
  unfold correctOrder closeGap
  simp only [UInt8.lt_iff_toNat_lt]
  split
  · rfl
  have hone : (1 : UInt8) ≤ rank.rankOrder := by
    rw [UInt8.le_iff_toNat_le, UInt8.toNat_one]
    omega
  rw [UInt8.toNat_sub_of_le _ _ hone, UInt8.toNat_one]

theorem correctOrder_rankId (rankOrder : GuildRankOrder) (rank : RankInfo) :
    (correctOrder rankOrder rank).rankId = rank.rankId := by
  unfold correctOrder
  split <;> rfl

/-- The orders close up behind the rank. -/
theorem removeRank_wellFormed (h : WellFormedRanks ranks)
    (hpresent : rankOrder.toNat < ranks.length)
    (hmin : GUILD_RANKS_MIN_COUNT.toNat < ranks.length) (hnotMaster : rankOrder ≠ 0) :
    WellFormedRanks ((withoutOrder ranks rankOrder).map (correctOrder rankOrder)) := by
  have hlength : (withoutOrder ranks rankOrder).length = ranks.length - 1 := by
    have hmem := (h.mem_orders rankOrder.toNat).mpr hpresent
    have hcount := congrArg length (orders_withoutOrder ranks rankOrder)
    rwa [length_erase_of_mem hmem, orders, orders, length_map, length_map] at hcount
  have hsub : (withoutOrder ranks rankOrder).Sublist ranks := eraseP_sublist
  constructor
  · have hcorrected : orders ((withoutOrder ranks rankOrder).map (correctOrder rankOrder)) =
        (orders (withoutOrder ranks rankOrder)).map (closeGap rankOrder.toNat) := by
      simp only [orders, map_map]
      exact map_congr_left fun rank hrank => correctOrder_toNat (h.withoutOrder_ne hrank)
    rw [hcorrected, orders_withoutOrder, length_map, hlength]
    exact ((h.orders_perm.erase _).map _).trans (closeGap_range _ _ hpresent)
  · have hids : ((withoutOrder ranks rankOrder).map (correctOrder rankOrder)).map RankInfo.rankId =
        (withoutOrder ranks rankOrder).map RankInfo.rankId := by
      rw [map_map]
      exact map_congr_left fun rank _ => correctOrder_rankId rankOrder rank
    rw [hids]
    exact h.ids_nodup.sublist (hsub.map _)
  · intro corrected hcorrected hzero
    obtain ⟨rank, hrank, rfl⟩ := mem_map.mp hcorrected
    rw [correctOrder_rankId]
    have hne := h.withoutOrder_ne hrank
    have hgap := correctOrder_toNat hne
    rw [hzero, UInt8.toNat_zero] at hgap
    have hpos : rankOrder.toNat ≠ 0 := fun heq => hnotMaster (UInt8.toNat_inj.mp heq)
    -- a corrected order 0 comes from an order 0 below the removed one
    have hrankZero : rank.rankOrder.toNat = 0 := by
      unfold closeGap at hgap
      split at hgap <;> omega
    exact h.master_first rank (hsub.subset hrank) (UInt8.toNat_inj.mp hrankZero)
  · rw [length_map, hlength]
    omega
  · rw [length_map, hlength]
    exact Nat.le_trans (Nat.sub_le _ _) h.max_count

theorem removeMaster_not_wellFormed (h : WellFormedRanks ranks)
    (hmin : GUILD_RANKS_MIN_COUNT.toNat < ranks.length) :
    ¬ WellFormedRanks ((withoutOrder ranks 0).map (correctOrder 0)) := by
  intro hafter
  simp only [GUILD_RANKS_MIN_COUNT, UInt8.reduceToNat] at hmin
  obtain ⟨master, hmaster, hmasterOrder⟩ :=
    mem_map.mp ((h.mem_orders 0).mpr (by omega))
  obtain ⟨officer, hofficer, hofficerOrder⟩ :=
    mem_map.mp ((h.mem_orders 1).mpr (by omega))
  have hdiffer : officer ≠ master := by
    rintro rfl
    omega
  have hkept : officer ∈ withoutOrder ranks 0 := by
    refine (mem_eraseP_of_neg ?_).mpr hofficer
    intro heq
    rw [beq_iff_eq] at heq
    rw [heq] at hofficerOrder
    exact absurd hofficerOrder (by decide)
  have htop := hafter.master_first (correctOrder 0 officer) (mem_map_of_mem hkept)
    (UInt8.toNat_inj.mp (by
      rw [correctOrder_toNat (h.withoutOrder_ne hkept), hofficerOrder]
      rfl))
  have hmasterId := h.master_first master hmaster (UInt8.toNat_inj.mp hmasterOrder)
  exact hdiffer (inj_on_of_nodup_map h.ids_nodup hofficer hmaster (htop.trans hmasterId.symm))

end RemoveRank

section
variable (ranks : List RankInfo) (i : Nat) (rankOrder : GuildRankOrder)

theorem orders_setOrderAt :
    orders (setOrderAt ranks i rankOrder) = (orders ranks).set i rankOrder.toNat := by
  apply ext_getElem?
  intro k
  simp only [orders, setOrderAt, getElem?_map, getElem?_modify, getElem?_set, length_map]
  by_cases hik : i = k
  · subst hik
    by_cases hlt : i < ranks.length
    · simp [hlt]
    · simp [hlt]
  · simp [hik]

theorem setOrderAt_rankIds :
    (setOrderAt ranks i rankOrder).map RankInfo.rankId = ranks.map RankInfo.rankId := by
  apply ext_getElem?
  intro k
  simp only [setOrderAt, getElem?_map, getElem?_modify]
  by_cases hik : i = k
  · cases ranks[k]? <;> simp [hik]
  · simp [hik]

theorem setOrderAt_length : (setOrderAt ranks i rankOrder).length = ranks.length := by
  simp [setOrderAt]

end

theorem mem_setOrderAt {i : Nat} {rankOrder : GuildRankOrder} {target rank : RankInfo}
    (htarget : ranks[i]? = some target) (hrank : rank ∈ setOrderAt ranks i rankOrder) :
    rank ∈ ranks ∨ rank.rankId = target.rankId ∧ rank.rankOrder = rankOrder := by
  obtain ⟨k, hk⟩ := mem_iff_getElem?.mp hrank
  simp only [setOrderAt, getElem?_modify] at hk
  by_cases hik : i = k
  · subst hik
    simp only [if_true, htarget, Option.map_eq_map, Option.map_some, Option.some.injEq] at hk
    exact Or.inr ⟨by rw [← hk], by rw [← hk]⟩
  · simp only [hik, if_false, id_map'] at hk
    exact Or.inl (mem_of_getElem? hk)

/-- Swapping the orders of two ranks other than the master's keeps the table
well formed. -/
theorem shiftRank_wellFormed {i j : Nat} {rankInfo otherRankInfo : RankInfo}
    (h : WellFormedRanks ranks) (hi : ranks[i]? = some rankInfo)
    (hj : ranks[j]? = some otherRankInfo) (hmaster : rankInfo.rankId ≠ GuildMaster)
    (hotherMaster : otherRankInfo.rankId ≠ GuildMaster) :
    WellFormedRanks
      (setOrderAt (setOrderAt ranks i otherRankInfo.rankOrder) j rankInfo.rankOrder) := by
  obtain ⟨hilt, hieq⟩ := List.getElem?_eq_some_iff.mp hi
  obtain ⟨hjlt, hjeq⟩ := List.getElem?_eq_some_iff.mp hj
  constructor
  · have hio : i < (orders ranks).length := by rwa [orders, length_map]
    have hjo : j < (orders ranks).length := by rwa [orders, length_map]
    have hswap := set_set_perm hio hjo
    have horderI : (orders ranks)[i] = rankInfo.rankOrder.toNat := by simp [orders, hieq]
    have horderJ : (orders ranks)[j] = otherRankInfo.rankOrder.toNat := by simp [orders, hjeq]
    rw [horderI, horderJ] at hswap
    rw [orders_setOrderAt, orders_setOrderAt, setOrderAt_length, setOrderAt_length]
    exact hswap.trans h.orders_perm
  · rw [setOrderAt_rankIds, setOrderAt_rankIds]
    exact h.ids_nodup
  · -- order 0 would be written only if one of the two ranks had it, hence were the master's
    intro rank hrank hzero
    have hfirst : rankInfo.rankOrder ≠ 0 := fun hz =>
      hmaster (h.master_first rankInfo (mem_of_getElem? hi) hz)
    have hsecond : otherRankInfo.rankOrder ≠ 0 := fun hz =>
      hotherMaster (h.master_first otherRankInfo (mem_of_getElem? hj) hz)
    have hj' : ∃ target, (setOrderAt ranks i otherRankInfo.rankOrder)[j]? = some target := by
      refine ⟨_, getElem?_eq_getElem ?_⟩
      rwa [setOrderAt_length]
    obtain ⟨target, htarget⟩ := hj'
    rcases mem_setOrderAt htarget hrank with hmem | ⟨_, horder⟩
    · rcases mem_setOrderAt hi hmem with hold | ⟨_, horder⟩
      · exact h.master_first rank hold hzero
      · exact absurd (horder.symm.trans hzero) hsecond
    · exact absurd (horder.symm.trans hzero) hfirst
  · rw [setOrderAt_length, setOrderAt_length]
    exact h.min_count
  · rw [setOrderAt_length, setOrderAt_length]
    exact h.max_count

section Runs

variable [DecidableEq G]

/-- A request that the code would serve by deleting the rank with order 0. -/
def deletesMasterRank (g : Guild G) : RankRequest G → Prop
  | .removeRank player rankOrder =>
    rankOrder = 0 ∧ GUILD_RANKS_MIN_COUNT < g.ranksSize ∧ g.isLeader player = true
  | _ => False

theorem handleAddNewRank_wellFormed (g : Guild G) (player : G) (name : String)
    (h : WellFormedRanks g.ranks) :
    ∃ after, handleAddNewRank g player name = some after ∧ WellFormedRanks after.ranks := by
  unfold handleAddNewRank
  split
  · exact ⟨g, rfl, h⟩
  · split
    · exact createRank_wellFormed g name _ h
    · exact ⟨g, rfl, h⟩

theorem handleShiftRank_wellFormed (g : Guild G) (player : G) (rankOrder : GuildRankOrder)
    (shiftUp : Bool) (h : WellFormedRanks g.ranks) :
    WellFormedRanks (handleShiftRank g player rankOrder shiftUp).ranks := by
  unfold handleShiftRank
  split
  · exact h
  dsimp only
  split
  · rename_i i j hi hj
    split
    · rename_i rankInfo otherRankInfo hrank hother
      split
      · exact h
      rename_i hguard
      simp only [Bool.or_eq_true, beq_iff_eq, not_or] at hguard
      have horder := findIdx?_eq_some_iff_getElem.mp hi
      have hotherOrder := findIdx?_eq_some_iff_getElem.mp hj
      obtain ⟨hilt, hieq, _⟩ := horder
      obtain ⟨hjlt, hjeq, _⟩ := hotherOrder
      rw [getElem?_eq_getElem hilt, Option.some.injEq] at hrank
      rw [getElem?_eq_getElem hjlt, Option.some.injEq] at hother
      rw [hrank, beq_iff_eq] at hieq
      rw [hother, beq_iff_eq] at hjeq
      rw [← hjeq, ← hieq]
      exact shiftRank_wellFormed h (by rw [getElem?_eq_getElem hilt, hrank])
        (by rw [getElem?_eq_getElem hjlt, hother]) hguard.1 hguard.2
    · exact h
  · exact h

theorem handleRemoveRank_cases (g : Guild G) (player : G) (rankOrder : GuildRankOrder)
    (h : WellFormedRanks g.ranks) :
    (handleRemoveRank g player rankOrder = g ∧
      ¬ (GUILD_RANKS_MIN_COUNT < g.ranksSize ∧ g.isLeader player = true ∧
        rankOrder.toNat < g.ranks.length)) ∨
    (GUILD_RANKS_MIN_COUNT < g.ranksSize ∧ g.isLeader player = true ∧
      rankOrder.toNat < g.ranks.length ∧
      (handleRemoveRank g player rankOrder).ranks =
        (withoutOrder g.ranks rankOrder).map (correctOrder rankOrder)) := by
  unfold handleRemoveRank
  split
  · rename_i hguard
    refine Or.inl ⟨rfl, ?_⟩
    rintro ⟨hsize, hleader, _⟩
    simp only [hleader, Bool.not_true, Bool.or_false, decide_eq_true_eq] at hguard
    exact absurd (UInt8.lt_of_lt_of_le hsize hguard) (UInt8.lt_irrefl _)
  · rename_i hguard
    simp only [Bool.or_eq_true, decide_eq_true_eq, Bool.not_eq_true', not_or, UInt8.not_le,
      Bool.not_eq_false] at hguard
    split
    · rename_i hnone
      refine Or.inl ⟨rfl, ?_⟩
      rintro ⟨_, _, hlt⟩
      obtain ⟨rank, hrank, horder⟩ := mem_map.mp ((h.mem_orders _).mpr hlt)
      have habsent := find?_eq_none.mp hnone rank hrank
      exact habsent (by simpa using UInt8.toNat_inj.mp horder)
    · rename_i rank hsome
      refine Or.inr ⟨hguard.1, hguard.2, ?_, rfl⟩
      have horder : rank.rankOrder = rankOrder := by simpa using find?_some hsome
      rw [← h.mem_orders, ← horder]
      exact mem_map_of_mem (mem_of_find?_eq_some hsome)

/-- One request: the handler returns, and the table it leaves is well formed
exactly if the request did not delete the master rank. -/
theorem handleRankRequest_wellFormed_iff (g : Guild G) (request : RankRequest G)
    (h : WellFormedRanks g.ranks) :
    ∃ after, handleRankRequest g request = some after ∧
      (WellFormedRanks after.ranks ↔ ¬ deletesMasterRank g request) := by
  have hsize := h.ranksSize_toNat
  cases request with
  | addNewRank player name =>
    obtain ⟨after, hafter, hwf⟩ := handleAddNewRank_wellFormed g player name h
    exact ⟨after, hafter, iff_of_true hwf id⟩
  | shiftRank player rankOrder shiftUp =>
    exact ⟨_, rfl, iff_of_true (handleShiftRank_wellFormed g player rankOrder shiftUp h) id⟩
  | removeRank player rankOrder =>
    refine ⟨_, rfl, ?_⟩
    rcases handleRemoveRank_cases g player rankOrder h with ⟨hsame, hguard⟩ |
      ⟨hmin, hleader, hlt, hranks⟩
    · rw [hsame]
      refine iff_of_true h ?_
      rintro ⟨rfl, hmin, hleader⟩
      refine hguard ⟨hmin, hleader, ?_⟩
      rw [UInt8.lt_iff_toNat_lt, hsize] at hmin
      exact Nat.lt_of_le_of_lt (Nat.zero_le _) hmin
    · rw [hranks]
      have hminNat : GUILD_RANKS_MIN_COUNT.toNat < g.ranks.length := by
        rwa [UInt8.lt_iff_toNat_lt, hsize] at hmin
      constructor
      · rintro hwf ⟨rfl, _, _⟩
        exact removeMaster_not_wellFormed h hminNat hwf
      · intro hkeeps
        exact removeRank_wellFormed h hlt hminNat fun hzero => hkeeps ⟨hzero, hmin, hleader⟩

def rankSystem (G : Type*) [DecidableEq G] : System (Guild G) (RankRequest G) where
  init g := WellFormedRanks g.ranks
  step request g after := handleRankRequest g request = some after

/-- While no request deletes the master rank, the table stays well formed; and
at each state of such a run the next request is answered and keeps the table
well formed exactly if it does not delete the master rank. -/
theorem reachable_ranks_wellFormed {g : Guild G}
    (h : ((rankSystem G).guarded fun request s => ¬ deletesMasterRank s request).Reachable g) :
    WellFormedRanks g.ranks ∧ ∀ request, ∃ after, handleRankRequest g request = some after ∧
        (WellFormedRanks after.ranks ↔ ¬ deletesMasterRank g request) := by
  have hwf : WellFormedRanks g.ranks := by
    refine h.invariant (fun s => WellFormedRanks s.ranks) (fun _ hinit => hinit) ?_
    rintro request s s' hs ⟨hguard, hstep⟩
    obtain ⟨after, hafter, hiff⟩ := handleRankRequest_wellFormed_iff s request hs
    cases Option.some.inj (hafter.symm.trans hstep)
    exact hiff.mpr hguard
  exact ⟨hwf, fun request => handleRankRequest_wellFormed_iff g request hwf⟩

def threeRankGuild : Guild Nat where
  leaderGuid := 7
  ranks :=
    [{ rankId := 0, rankOrder := 0, name := "Guild Master", rights := 0, bankMoneyPerDay := 0 },
     { rankId := 1, rankOrder := 1, name := "Officer", rights := 0, bankMoneyPerDay := 0 },
     { rankId := 2, rankOrder := 2, name := "Initiate", rights := 0, bankMoneyPerDay := 0 }]
  members := fun _ => none

theorem threeRankGuild_wellFormed : WellFormedRanks threeRankGuild.ranks := by
  constructor <;> decide

/-- The initiate moves up: a run of one request that keeps the table. -/
theorem reachable_ranks_wellFormed_shift :
    WellFormedRanks (handleShiftRank threeRankGuild 7 2 true).ranks :=
  (reachable_ranks_wellFormed (.step (.shiftRank 7 2 true)
    (.init threeRankGuild_wellFormed) ⟨id, rfl⟩)).1

/-- The leader of a three-rank guild deletes order 0, and the officer's rank
takes the master's place. -/
theorem deleting_order_zero_breaks_ranks :
    (rankSystem Nat).Reachable (handleRemoveRank threeRankGuild 7 0) ∧
      ¬ WellFormedRanks (handleRemoveRank threeRankGuild 7 0).ranks := by
  refine ⟨.step (.removeRank 7 0) (.init threeRankGuild_wellFormed) rfl, fun hwf => ?_⟩
  have htop := hwf.master_first
    { rankId := 1, rankOrder := 0, name := "Officer", rights := 0, bankMoneyPerDay := 0 }
    (mem_cons_self ..) rfl
  exact absurd htop (by decide)

end Runs

end LegionServer.Guarantees.GuildRanks
