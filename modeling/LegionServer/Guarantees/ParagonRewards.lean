import LegionServer.Source.Reputation.FactionStates
import Mathlib.Algebra.Ring.Int.Defs

/-!
# Rewards of a paragon faction

Gains of reputation with a paragon faction (`SetOneFactionReputation`), and claims of its
reward quest, which is accepted whenever it is given.
-/
namespace LegionServer.Guarantees.ParagonRewards
open Library Source.Reputation List Int32 ReputationMgr

variable {F : Type*} (data : ReputationData F) (entry : FactionEntry)

/-- A character with the reward quest of a faction. `offers` counts how often it was given. -/
structure RewardState where
  mgr : ReputationMgr
  unclaimed : Bool
  offers : Nat

inductive RewardCall
  | gain (standing : Int32)
  | claim

namespace RewardState

/-- The reward quest is repeatable: once claimed, it has no status. -/
def quests (s : RewardState) : QuestView where
  none := fun _ => !s.unclaimed
  available := fun _ => true

def reputation (s : RewardState) : Int := (s.mgr.getReputation data entry).toInt

def gain (s : RewardState) (standing : Int32) : RewardState :=
  let offered := s.mgr.givesRewardQuest data s.quests entry standing true
  { mgr := s.mgr.setOneFactionReputation data s.quests entry standing true
    unclaimed := s.unclaimed || offered
    offers := s.offers + offered.toNat }

def run (s : RewardState) : RewardCall → RewardState
  | .gain standing => s.gain data entry standing
  | .claim => { s with unclaimed := false }

end RewardState

/-- A value whose computation may wrap on the way is what it is without wrapping, if that fits. -/
theorem toInt_eq_of_bmod {x : Int32} {n : Int} (h : x.toInt = n.bmod (2 ^ 32))
    (hlow : -2 ^ 31 ≤ n) (hhigh : n < 2 ^ 31) : x.toInt = n := by
  rw [h]
  apply Int.bmod_eq_of_le <;> omega

theorem toInt_cap {reputation : Int32} (threshold : Int32) (hreputation : 0 ≤ reputation.toInt) :
    (reputation + threshold - reputation % threshold - 1).toInt =
        (reputation.toInt + threshold.toInt - reputation.toInt % threshold.toInt - 1).bmod
          (2 ^ 32) ∧
      (reputation + threshold - reputation % threshold - 1 + threshold).toInt =
        (reputation.toInt + threshold.toInt - reputation.toInt % threshold.toInt - 1 +
          threshold.toInt).bmod (2 ^ 32) := by
  have hfirst : (reputation + threshold - reputation % threshold - 1).toInt =
      (reputation.toInt + threshold.toInt - reputation.toInt % threshold.toInt - 1).bmod
        (2 ^ 32) := by
    rw [toInt_sub, toInt_sub, toInt_add, toInt_mod,
      Int.tmod_eq_emod_of_nonneg hreputation, Int.bmod_sub_bmod, Int.sub_sub, Int.bmod_sub_bmod,
      ← Int.sub_sub]
    rfl
  refine ⟨hfirst, ?_⟩
  rw [toInt_add, hfirst, Int.bmod_add_bmod]

theorem level_cap {reputation threshold levels : Int} (hreputation : 0 ≤ reputation)
    (hthreshold : 0 < threshold) (hlevels : 1 ≤ levels)
    (hfits : (reputation / threshold + levels) * threshold ≤ 2 ^ 31) {cap : Int32}
    (hcap : cap.toInt = (reputation + threshold - reputation % threshold - 1 +
      (levels - 1) * threshold).bmod (2 ^ 32)) :
    cap.toInt = (reputation / threshold + levels) * threshold - 1 := by
  have hvalue : reputation + threshold - reputation % threshold - 1 + (levels - 1) * threshold =
      (reputation / threshold + levels) * threshold - 1 := by
    have hdivision := Int.mul_ediv_add_emod reputation threshold
    grind
  rw [hvalue] at hcap
  have hpositive : 0 ≤ (reputation / threshold + levels) * threshold :=
    Int.mul_nonneg (Int.add_nonneg (Int.ediv_nonneg hreputation (Int.le_of_lt hthreshold))
      (by omega)) (Int.le_of_lt hthreshold)
  apply toInt_eq_of_bmod hcap <;> omega

section Steps

/-- The character has the faction, and a reputation that is not negative. -/
structure Ready (s : RewardState) : Prop where
  found : ∃ state, s.mgr.find entry.repListId = some state
  nonneg : 0 ≤ s.reputation data entry

/-- How many levels a gain may reach into, the current one included. -/
def openLevels (s : RewardState) : Int := if s.unclaimed then 1 else 2

/-- The gain that the rate makes of a standing is positive, and neither it nor the cap leaves the
32 bits of a reputation; the lowest reputation is below, unless the cap is reached. -/
structure GainFits (paragon : ParagonReputation) (s : RewardState) (standing : Int32) : Prop where
  positive : 0 < (data.reputationGain standing).toInt
  sum : s.reputation data entry + (data.reputationGain standing).toInt < 2 ^ 31
  cap : (s.reputation data entry / paragon.levelThreshold.toInt + openLevels s) *
    paragon.levelThreshold.toInt ≤ 2 ^ 31
  lowest : s.reputation data entry + (data.reputationGain standing).toInt <
      (s.reputation data entry / paragon.levelThreshold.toInt + openLevels s) *
        paragon.levelThreshold.toInt →
    (data.getMinReputation entry).toInt ≤
      s.reputation data entry + (data.reputationGain standing).toInt

variable {data entry} {paragon : ParagonReputation} {s : RewardState} {standing : Int32}
  (hparagon : data.paragonReputation entry.id = some paragon)
  (hthreshold : 0 < paragon.levelThreshold.toInt) (hrep : entry.canHaveReputation)

include hrep in
theorem getReputation_eq {state : FactionState} (hfind : s.mgr.find entry.repListId = some state) :
    s.mgr.getReputation data entry = state.standing + data.getBaseReputation entry := by
  rw [ReputationMgr.getReputation, ReputationMgr.getState, if_pos hrep, hfind]
  exact Int32.add_comm _ _

include hparagon hthreshold in
theorem toInt_getMaxReputation (hnonneg : 0 ≤ s.reputation data entry)
    (hcap : (s.reputation data entry / paragon.levelThreshold.toInt + openLevels s) *
      paragon.levelThreshold.toInt ≤ 2 ^ 31) :
    (s.mgr.getMaxReputation data s.quests entry).toInt =
      (s.reputation data entry / paragon.levelThreshold.toInt + openLevels s) *
        paragon.levelThreshold.toInt - 1 := by
  rw [ReputationMgr.getMaxReputation, hparagon]
  unfold RewardState.quests
  unfold openLevels at hcap ⊢
  obtain ⟨hcurrent, hnext⟩ := toInt_cap paragon.levelThreshold hnonneg
  cases hunclaimed : s.unclaimed with
  | true =>
    rw [hunclaimed, if_pos rfl] at hcap
    apply level_cap hnonneg hthreshold (by decide) hcap
    rw [Int.sub_self, Int.zero_mul, Int.add_zero]
    exact hcurrent
  | false =>
    rw [hunclaimed, if_neg Bool.false_ne_true] at hcap
    apply level_cap hnonneg hthreshold (by decide) hcap
    rw [show (2 : Int) - 1 = 1 from rfl, Int.one_mul]
    exact hnext

include hparagon hthreshold hrep in
theorem toInt_newStanding (hnonneg : 0 ≤ s.reputation data entry)
    (hfits : GainFits data entry paragon s standing) {state : FactionState}
    (hfind : s.mgr.find entry.repListId = some state) :
    (s.mgr.newStanding data s.quests entry (state.standing + data.getBaseReputation entry) standing
      true).toInt =
      min (s.reputation data entry + (data.reputationGain standing).toInt)
        ((s.reputation data entry / paragon.levelThreshold.toInt + openLevels s) *
          paragon.levelThreshold.toInt - 1) := by
  have hmax := toInt_getMaxReputation hparagon hthreshold hnonneg hfits.cap
  obtain ⟨hpositive, hsum, -, hlowest⟩ := hfits
  have hnew : (data.reputationGain standing +
      (state.standing + data.getBaseReputation entry)).toInt = s.reputation data entry + (data.reputationGain standing).toInt := by
    apply toInt_eq_of_bmod _ (by omega) hsum
    rw [← getReputation_eq hrep hfind, toInt_add, Int.add_comm]
    rfl
  rw [newStanding, if_pos rfl]
  split
  · rename_i hover
    rw [gt_iff_lt, lt_iff_toInt_lt, hnew, hmax] at hover
    omega
  · rename_i hover
    rw [gt_iff_lt, lt_iff_toInt_lt, hnew, hmax] at hover
    split
    · rename_i hunder
      rw [lt_iff_toInt_lt, hnew] at hunder
      omega
    · rw [hnew]
      omega

include hparagon in
theorem find_setOneFactionReputation {state : FactionState}
    (hfind : s.mgr.find entry.repListId = some state) :
    ∃ state', (s.mgr.setOneFactionReputation data s.quests entry standing true).find
        entry.repListId = some state' ∧
      state'.standing = s.mgr.newStanding data s.quests entry
        (state.standing + data.getBaseReputation entry) standing true -
          data.getBaseReputation entry := by
  have hkey : state.reputationListId = entry.repListId := (find_some hfind).2
  have hparagonFaction : data.isParagonReputation entry = true := by
    rw [ReputationData.isParagonReputation, hparagon]
    rfl
  rw [setOneFactionReputation, hfind]
  simp only [hparagonFaction, Bool.not_true, Bool.false_and, Bool.false_eq_true, if_false, hkey]
  obtain ⟨state', hfind', hstanding⟩ : ∃ state', (s.mgr.change entry.repListId fun old =>
      { old with
        standing := s.mgr.newStanding data s.quests entry
          (state.standing + data.getBaseReputation entry) standing true -
            data.getBaseReputation entry
        needSave := true }).find entry.repListId = some state' ∧
      state'.standing = s.mgr.newStanding data s.quests entry
        (state.standing + data.getBaseReputation entry) standing true -
          data.getBaseReputation entry :=
    ⟨_, find_change_self (fun _ => rfl) hfind, rfl⟩
  rw [hfind']
  obtain ⟨needSave, hkept⟩ := (keeps_of_find hfind').setVisibleState data
  rw [onState_some hfind'] at hkept
  exact ⟨_, hkept, hstanding⟩

def level (data : ReputationData F) (entry : FactionEntry) (paragon : ParagonReputation)
    (s : RewardState) : Int :=
  s.reputation data entry / paragon.levelThreshold.toInt

/-- What gains without a claim between them do: the levels that stay open are used up by those
that are reached, and each level that is reached gives a reward. -/
structure Gained (data : ReputationData F) (entry : FactionEntry) (paragon : ParagonReputation)
    (s s' : RewardState) : Prop where
  ready : Ready data entry s'
  reputation_le : s.reputation data entry ≤ s'.reputation data entry
  offers : (s'.offers : Int) - s.offers = level data entry paragon s' - level data entry paragon s
  openLevels : level data entry paragon s' + openLevels s' =
    level data entry paragon s + openLevels s

theorem level_gain {reputation threshold gain levels : Int} (hthreshold : 0 < threshold)
    (hgain : 0 < gain) (hlevels : 1 ≤ levels) :
    let gained := min (reputation + gain) ((reputation / threshold + levels) * threshold - 1)
    reputation ≤ gained ∧ gained / threshold < reputation / threshold + levels := by
  intro gained
  have hcap : (reputation / threshold + 1) * threshold ≤
      (reputation / threshold + levels) * threshold :=
    Int.mul_le_mul_of_nonneg_right (by omega) (Int.le_of_lt hthreshold)
  have hbelow := Int.lt_ediv_add_one_mul_self reputation hthreshold
  exact ⟨by omega, Int.ediv_lt_of_lt_mul hthreshold (by omega)⟩

theorem toInt_level {reputation threshold : Int32} (hreputation : 0 ≤ reputation.toInt)
    (hthreshold : 0 < threshold.toInt) :
    (reputation / threshold).toInt = reputation.toInt / threshold.toInt := by
  have hne : threshold ≠ -1 := by
    rintro rfl
    exact absurd hthreshold (by decide)
  rw [toInt_div_of_ne_right _ _ hne, Int.tdiv_eq_ediv_of_nonneg hreputation]

include hparagon hthreshold hrep in
theorem givesRewardQuest_eq (hnonneg : 0 ≤ s.reputation data entry) {state : FactionState}
    (hfind : s.mgr.find entry.repListId = some state) {after : Int}
    (hnew : (s.mgr.newStanding data s.quests entry
      (state.standing + data.getBaseReputation entry) standing true).toInt = after)
    (hafter : 0 ≤ after) :
    s.mgr.givesRewardQuest data s.quests entry standing true =
      decide (after / paragon.levelThreshold.toInt ≠ level data entry paragon s) := by
  have hold : (state.standing + data.getBaseReputation entry).toInt = s.reputation data entry := by
    rw [← getReputation_eq hrep hfind]
    rfl
  rw [givesRewardQuest, hfind, hparagon]
  rw [Bool.eq_iff_iff, bne_iff_ne, decide_eq_true_iff]
  refine not_congr ?_
  rw [← toInt_inj, toInt_level (by rw [hold]; exact hnonneg) hthreshold,
    toInt_level (by rw [hnew]; exact hafter) hthreshold, hold, hnew]
  exact eq_comm

include hparagon hthreshold hrep in
/-- One gain of reputation with its rewards. -/
theorem gain_gained (hready : Ready data entry s) (hfits : GainFits data entry paragon s standing) :
    Gained data entry paragon s (s.gain data entry standing) := by
  obtain ⟨⟨state, hfind⟩, hnonneg⟩ := hready
  obtain ⟨state', hfind', hstanding⟩ := find_setOneFactionReputation hparagon hfind
  have hnew := toInt_newStanding hparagon hthreshold hrep hnonneg hfits hfind
  have hreputation : (s.gain data entry standing).reputation data entry =
      min (s.reputation data entry + (data.reputationGain standing).toInt)
        ((s.reputation data entry / paragon.levelThreshold.toInt + openLevels s) *
          paragon.levelThreshold.toInt - 1) := by
    rw [← hnew, RewardState.reputation, getReputation_eq hrep (s := s.gain data entry standing)
      hfind', hstanding, Int32.sub_add_cancel]
  have hopen : 1 ≤ openLevels s := by
    unfold openLevels
    split <;> decide
  obtain ⟨hle, hreached⟩ := level_gain hthreshold hfits.positive hopen
  rw [← hreputation] at hle hreached
  have hlevel := Int.ediv_le_ediv hthreshold hle
  have hoffered :=
    givesRewardQuest_eq hparagon hthreshold hrep hnonneg hfind (hnew.trans hreputation.symm)
      (Int.le_trans hnonneg hle)
  have hready : Ready data entry (s.gain data entry standing) :=
    ⟨⟨state', hfind'⟩, Int.le_trans hnonneg hle⟩
  have hunclaimed : (s.gain data entry standing).unclaimed =
      (s.unclaimed || s.mgr.givesRewardQuest data s.quests entry standing true) := rfl
  have hoffers : (s.gain data entry standing).offers =
      s.offers + (s.mgr.givesRewardQuest data s.quests entry standing true).toNat := rfl
  by_cases hsame : level data entry paragon (s.gain data entry standing) =
      level data entry paragon s
  · rw [hoffered.trans (decide_eq_false fun hne => hne hsame)] at hunclaimed hoffers
    refine ⟨hready, hle, ?_, ?_⟩
    · rw [hoffers, hsame, Int.sub_self]
      exact Int.sub_self _
    · rw [hsame, openLevels, openLevels, hunclaimed, Bool.or_false]
  · rw [hoffered.trans (decide_eq_true hsame)] at hunclaimed hoffers
    -- one level is reached, so that the next one was open
    have hnext : level data entry paragon (s.gain data entry standing) =
        level data entry paragon s + 1 ∧ openLevels s = 2 := by
      unfold level at hsame ⊢
      unfold openLevels at hreached ⊢
      by_cases hclosed : s.unclaimed = true
      · rw [if_pos hclosed] at hreached
        omega
      · rw [if_neg hclosed] at hreached ⊢
        exact ⟨by omega, rfl⟩
    refine ⟨hready, hle, ?_, ?_⟩
    · rw [hoffers, hnext.1, Bool.toNat_true]
      omega
    · rw [hnext.1, hnext.2, openLevels, hunclaimed, Bool.or_true, if_pos rfl]
      omega

end Steps

section Runs

variable {data entry} {paragon : ParagonReputation}

theorem Gained.refl {s : RewardState} (hready : Ready data entry s) :
    Gained data entry paragon s s :=
  ⟨hready, Int.le_refl _, by rw [Int.sub_self, Int.sub_self], rfl⟩

theorem Gained.trans {s s' s'' : RewardState} (h : Gained data entry paragon s s')
    (h' : Gained data entry paragon s' s'') : Gained data entry paragon s s'' where
  ready := h'.ready
  reputation_le := Int.le_trans h.reputation_le h'.reputation_le
  offers := by
    have hfirst := h.offers
    have hsecond := h'.offers
    omega
  openLevels := h'.openLevels.trans h.openLevels

theorem Gained.level_le {s s' : RewardState} (h : Gained data entry paragon s s') :
    level data entry paragon s' ≤ level data entry paragon s + 1 := by
  have hopen := h.openLevels
  unfold ParagonRewards.openLevels at hopen
  split at hopen <;> split at hopen <;> omega

def Fits (data : ReputationData F) (entry : FactionEntry) (paragon : ParagonReputation) :
    RewardState → List RewardCall → Prop
  | _, [] => True
  | s, .gain standing :: calls =>
    GainFits data entry paragon s standing ∧
      Fits data entry paragon (s.gain data entry standing) calls
  | s, .claim :: calls => Fits data entry paragon { s with unclaimed := false } calls

def after (data : ReputationData F) (entry : FactionEntry) (s : RewardState)
    (calls : List RewardCall) : RewardState :=
  calls.foldl (RewardState.run data entry) s

theorem fits_append {s : RewardState} {calls calls' : List RewardCall} :
    Fits data entry paragon s (calls ++ calls') ↔ Fits data entry paragon s calls ∧
        Fits data entry paragon (after data entry s calls) calls' := by
  induction calls generalizing s with
  | nil => exact (iff_of_eq (true_and _)).symm
  | cons call calls ih =>
    cases call with
    | gain standing =>
      rw [cons_append, Fits, Fits, ih, and_assoc]
      rfl
    | claim =>
      rw [cons_append, Fits, Fits, ih]
      rfl

section Rewards

variable (hparagon : data.paragonReputation entry.id = some paragon)
  (hthreshold : 0 < paragon.levelThreshold.toInt) (hrep : entry.canHaveReputation)
  {s : RewardState} {calls : List RewardCall}

include hparagon hthreshold hrep

theorem run_rewards (hready : Ready data entry s) (hfits : Fits data entry paragon s calls) :
    Ready data entry (after data entry s calls) ∧
      s.reputation data entry ≤ (after data entry s calls).reputation data entry ∧
      ((after data entry s calls).offers : Int) - s.offers =
        level data entry paragon (after data entry s calls) - level data entry paragon s := by
  induction calls generalizing s with
  | nil => exact ⟨hready, Int.le_refl _, by rw [after, foldl_nil, Int.sub_self, Int.sub_self]⟩
  | cons call calls ih =>
    cases call with
    | gain standing =>
      have hgain := gain_gained hparagon hthreshold hrep hready hfits.1
      obtain ⟨hready', hle, hoffers⟩ := ih hgain.ready hfits.2
      have hfirst := hgain.offers
      refine ⟨hready', Int.le_trans hgain.reputation_le hle, ?_⟩
      change ((after data entry (s.gain data entry standing) calls).offers : Int) - s.offers =
        level data entry paragon (after data entry (s.gain data entry standing) calls) - _
      omega
    | claim => exact ih ⟨hready.found, hready.nonneg⟩ hfits

theorem run_gained (hready : Ready data entry s) (hfits : Fits data entry paragon s calls)
    (hunclaimed : RewardCall.claim ∉ calls) :
    Gained data entry paragon s (after data entry s calls) := by
  induction calls generalizing s with
  | nil => exact Gained.refl hready
  | cons call calls ih =>
    cases call with
    | gain standing =>
      have hgain := gain_gained hparagon hthreshold hrep hready hfits.1
      exact hgain.trans (ih hgain.ready hfits.2 fun hmem =>
        hunclaimed (mem_cons_of_mem _ hmem))
    | claim => exact absurd mem_cons_self hunclaimed

end Rewards

/-- Along a run whose gains fit, the reputation never decreases, each level that is reached gives
one reward, and between two claims at most one level is reached. -/
theorem paragon_rewards (hparagon : data.paragonReputation entry.id = some paragon)
    (hthreshold : 0 < paragon.levelThreshold.toInt) (hrep : entry.canHaveReputation)
    {start : RewardState} (hready : Ready data entry start)
    {before between rest : List RewardCall}
    (hfits : Fits data entry paragon start (before ++ between ++ rest)) :
    let s := after data entry start before
    let s' := after data entry s between
    s.reputation data entry ≤ s'.reputation data entry ∧
      (s'.offers : Int) - s.offers = s'.reputation data entry / paragon.levelThreshold.toInt -
        s.reputation data entry / paragon.levelThreshold.toInt ∧
      (RewardCall.claim ∉ between → s'.reputation data entry / paragon.levelThreshold.toInt ≤
        s.reputation data entry / paragon.levelThreshold.toInt + 1) := by
  intro s s'
  obtain ⟨hfits, -⟩ := fits_append.mp hfits
  obtain ⟨hbefore, hbetween⟩ := fits_append.mp hfits
  have hs := (run_rewards hparagon hthreshold hrep hready hbefore).1
  obtain ⟨-, hle, hoffers⟩ := run_rewards hparagon hthreshold hrep hs hbetween
  refine ⟨hle, hoffers, fun hunclaimed => ?_⟩
  exact (run_gained hparagon hthreshold hrep hs hbetween hunclaimed).level_le

end Runs

def paragonFaction : FactionEntry where
  id := 1
  reputationRaceMask := []
  reputationClassMask := []
  reputationBase := []
  reputationMax := []
  reputationFlags := []
  reputationIndex := 0
  parentFactionId := 0
  paragonFactionId := 0
  parentFactionCap := 0
  friendshipRepId := 0

def paragonData : ReputationData Unit where
  store := ⟨[paragonFaction], by decide, by decide, by decide⟩
  friendshipRepReactions := fun _ => none
  paragonReputation := fun _ => some ⟨10000, 7⟩
  repSpilloverTemplate := fun _ => none
  factionTeamList := fun _ => none
  parentFactionMod := fun _ => ((), ())
  arithmetic := ⟨fun _ => (), fun _ _ => (), fun _ => 0, fun _ => true⟩
  reputationGain := id
  race := 1
  classMask := 1

def paragonStart : RewardState where
  mgr := { factions := [⟨1, 0, 12345, 0, false⟩] }
  unclaimed := false
  offers := 0

theorem paragonStart_ready : Ready paragonData paragonFaction paragonStart :=
  ⟨⟨_, rfl⟩, by decide⟩

/-- Two gains over the cap give one reward. -/
theorem paragon_rewards_once :
    let s := after paragonData paragonFaction paragonStart [.gain 10000, .gain 50000]
    paragonStart.reputation paragonData paragonFaction ≤ s.reputation paragonData paragonFaction ∧
      (s.offers : Int) - 0 = s.reputation paragonData paragonFaction / 10000 -
        paragonStart.reputation paragonData paragonFaction / 10000 ∧
      (RewardCall.claim ∉ [RewardCall.gain 10000, .gain 50000] →
        s.reputation paragonData paragonFaction / 10000 ≤
          paragonStart.reputation paragonData paragonFaction / 10000 + 1) :=
  @paragon_rewards Unit paragonData paragonFaction ⟨10000, 7⟩ rfl (by decide) rfl paragonStart
    paragonStart_ready [] [.gain 10000, .gain 50000] []
    ⟨⟨by decide, by decide, by decide, by decide⟩, ⟨by decide, by decide, by decide, by decide⟩,
      trivial⟩

/-- The sum of a gain and the reputation wraps before it is capped, and the reputation decreases. -/
theorem paragon_reputation_decreases :
    ¬ ∀ standing : Int32, 0 < standing → paragonStart.reputation paragonData paragonFaction ≤
      (paragonStart.gain paragonData paragonFaction standing).reputation paragonData
        paragonFaction := fun h =>
  absurd (h 2147483520 (by decide)) (by decide)

end LegionServer.Guarantees.ParagonRewards
