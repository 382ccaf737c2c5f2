import LegionServer.Source.Battlegrounds.SelectionEffects
import LegionServer.Guarantees.QueuedGroups

/-!
# Which groups a match selects

Groups for a battleground that already runs (`FillPlayersToBG`), for a match between premade
groups (`CheckPremadeMatch`) and for one that is not rated (`CheckNormalMatch` and
`CheckSkirmishForSameFaction`).
-/
namespace LegionServer.Guarantees.MatchSelection
open Library Source.Battlegrounds Guarantees.QueuedGroups List Iterators Bool

variable {P : Type*} {q : BattlegroundQueue P} {bracketId : Fin MAX_BATTLEGROUND_BRACKETS}

section FreeSlots

/-- The pool of a team holds distinct groups of a list that wait for an invitation, and
counts their players. -/
structure SelectedFrom (groups : Address → GroupQueueInfo P) (list : List Address)
    (pool : SelectionPool) : Prop where
  distinct : pool.selectedGroups.Nodup
  listed : ∀ ginfo ∈ pool.selectedGroups, ginfo ∈ list ∧ (groups ginfo).invited = false
  count : pool.playerCount = (pool.selectedGroups.map fun ginfo => (groups ginfo).size).sum

variable {groups : Address → GroupQueueInfo P} {list : List Address}

theorem selectedFrom_of_fillOk {slots : Int} {side : FillSide} (h : FillOk groups list slots side)
    (hnodup : list.Nodup) : SelectedFrom groups list side.pool := by
  have hselected : side.pool.selectedGroups.Sublist list :=
    (sublist_append_left _ _).trans h.sublist
  exact ⟨hnodup.sublist hselected,
    fun ginfo hmem => ⟨hselected.subset hmem, h.uninvited ginfo hmem⟩, h.pool⟩

theorem SelectedFrom.eq_nil {pool : SelectionPool} (h : SelectedFrom groups list pool)
    (hplayers : ∀ ginfo ∈ list, 0 < (groups ginfo).size) (hcount : pool.playerCount = 0) :
    pool.selectedGroups = [] := by
  have hsum := h.count
  cases hselected : pool.selectedGroups with
  | nil => rfl
  | cons ginfo rest =>
    have hmem : ginfo ∈ pool.selectedGroups := by
      rw [hselected]
      exact mem_cons_self
    have hsize := hplayers ginfo (h.listed ginfo hmem).1
    rw [hselected, map_cons, sum_cons] at hsum
    omega

/-- A battleground with free slots gets distinct groups that wait in the normal queue of each
team, no more players than the team has slots, and unless a `break` ends the balancing or both
pools are empty, as many that the slots left free differ by one at most. -/
theorem filled_within_slots (bracketId : Fin MAX_BATTLEGROUND_BRACKETS) (invitationType : InvitationType) (bg : FreeSlotBattleground)
    (hnodup : ∀ team, (q.queuedGroups ⟨bracketId, .BG_QUEUE_NORMAL, team⟩).Nodup)
    (hplayers : ∀ team, ∀ ginfo ∈ q.queuedGroups ⟨bracketId, .BG_QUEUE_NORMAL, team⟩,
      0 < (q.groups ginfo).size) :
    ∃ q' left, Iterators.fillPlayersToBG q.initPools invitationType bg bracketId = .ok (q', left) ∧
      (∀ team, SelectedFrom q.groups (q.queuedGroups ⟨bracketId, .BG_QUEUE_NORMAL, team⟩)
          (q'.selectionPools team) ∧
        (q'.selectionPools team).playerCount ≤ bg.freeSlotsForTeam team) ∧
      (invitationType ≠ .BG_QUEUE_INVITATION_TYPE_NO_BALANCE → left = false →
        (∃ team, (q'.selectionPools team).selectedGroups ≠ []) →
        let stillFree (team : Team) : Int :=
          bg.freeSlotsForTeam team - (q'.selectionPools team).playerCount
        (stillFree .ALLIANCE - stillFree .HORDE).natAbs ≤ 1) := by
  have hpools : ∀ team, q.initPools.selectionPools team = {} := by
    intro team
    cases team <;> rfl
  obtain ⟨ali, horde, left, slots, _, hfill, hali, hhorde, hslots, hsame, hleft⟩ :=
    fillPlayersToBG_fills q.initPools invitationType bg bracketId hpools
  have haliSelected := selectedFrom_of_fillOk hali (hnodup .ALLIANCE)
  have hhordeSelected := selectedFrom_of_fillOk hhorde (hnodup .HORDE)
  refine ⟨_, left, hfill, fun team => ?_, fun htype hstayed hsome => ?_⟩
  · cases team with
    | ALLIANCE =>
      exact ⟨haliSelected, Int.ofNat_le.mp (hali.fits.trans (hslots .ALLIANCE))⟩
    | HORDE =>
      exact ⟨hhordeSelected, Int.ofNat_le.mp (hhorde.fits.trans (hslots .HORDE))⟩
  · change (((bg.freeSlotsForTeam .ALLIANCE : Int) - ali.pool.playerCount) -
      ((bg.freeSlotsForTeam .HORDE : Int) - horde.pool.playerCount)).natAbs ≤ 1
    have hone := hali.fits
    have htwo := hhorde.fits
    rcases hsame with hsame | hsame
    · rcases hleft htype hstayed with hdiff | ⟨hzero, hzero'⟩
      · unfold FillSide.diff at hdiff
        rw [hali.free, hhorde.free, hsame, hsame] at hdiff
        exact hdiff
      · obtain ⟨team, hteam⟩ := hsome
        cases team with
        | ALLIANCE => exact absurd (haliSelected.eq_nil (hplayers .ALLIANCE) hzero) hteam
        | HORDE => exact absurd (hhordeSelected.eq_nil (hplayers .HORDE) hzero') hteam
    · have hone' := hslots .ALLIANCE
      have htwo' := hslots .HORDE
      rw [hsame] at hone' htwo'
      rw [hsame, hsame]
      omega

def fourQueued : BattlegroundQueue Nat where
  queueId := ⟨false, 0⟩
  groups ginfo :=
    { players := List.replicate (match ginfo with | 1 => 4 | 2 => 2 | _ => 3) 0 }
  queuedGroups index :=
    match index.type, index.team with
    | .BG_QUEUE_NORMAL, .ALLIANCE => [1, 2]
    | .BG_QUEUE_NORMAL, .HORDE => [3, 4]
    | .BG_QUEUE_PREMADE, _ => []

def freeSlots : FreeSlotBattleground where
  instanceId := 1
  isRated := false
  bracketId := BG_BRACKET_ID_FIRST
  isRunning := true
  freeSlotsForTeam team := match team with
    | .ALLIANCE => 5
    | .HORDE => 6

/-- The second group of the Alliance stays out. -/
theorem filled_within_slots_four :
    ∃ q' left, Iterators.fillPlayersToBG fourQueued.initPools .BG_QUEUE_INVITATION_TYPE_BALANCED
        freeSlots BG_BRACKET_ID_FIRST = .ok (q', left) ∧
      (q'.selectionPools .ALLIANCE).playerCount ≤ 5 ∧
      (q'.selectionPools .HORDE).playerCount ≤ 6 := by
  obtain ⟨q', left, hfill, hselected, _⟩ := filled_within_slots (q := fourQueued)
    BG_BRACKET_ID_FIRST .BG_QUEUE_INVITATION_TYPE_BALANCED freeSlots
    (by intro team; cases team <;> decide)
    (by intro team; cases team <;> decide)
  exact ⟨q', left, hfill, (hselected .ALLIANCE).2, (hselected .HORDE).2⟩

def selectedPlayers (q : BattlegroundQueue P) : List P :=
  ((q.selectionPools .ALLIANCE).selectedGroups ++ (q.selectionPools .HORDE).selectedGroups).flatMap
    fun ginfo => (q.groups ginfo).players

/-- Groups that lists of both teams give are distinct, and so are their players. -/
theorem players_nodup (h : QueueOk q) {type : GroupType} {ali horde : List Address}
    (hali : ali.Sublist (q.queuedGroups ⟨bracketId, type, .ALLIANCE⟩))
    (hhorde : horde.Sublist (q.queuedGroups ⟨bracketId, type, .HORDE⟩)) :
    ((ali ++ horde).flatMap fun ginfo => (q.groups ginfo).players).Nodup := by
  have hlive : ∀ ginfo ∈ ali ++ horde, q.live ginfo = true := by
    intro ginfo hmem
    rw [h.shape.live_iff]
    rcases mem_append.mp hmem with hmem | hmem
    · exact ⟨_, hali.subset hmem⟩
    · exact ⟨_, hhorde.subset hmem⟩
  have hdistinct : (ali ++ horde).Nodup := by
    refine nodup_append.mpr ⟨hali.nodup (h.shape.nodup _), hhorde.nodup (h.shape.nodup _), ?_⟩
    rintro ginfo hone _ htwo rfl
    have hsame := h.shape.unique _ _ ginfo (hali.subset hone) (hhorde.subset htwo)
    cases hsame
  refine nodup_flatMap.mpr ⟨fun ginfo hmem => h.shape.playersNodup ginfo (hlive ginfo hmem), ?_⟩
  refine hdistinct.pairwise_of_forall_ne fun ginfo hone other htwo hne guid hin hin' => hne ?_
  have hqueued := (h.shape.queued guid ginfo).mpr ⟨hlive ginfo hone, hin⟩
  rw [(h.shape.queued guid other).mpr ⟨hlive other htwo, hin'⟩] at hqueued
  exact (Option.some.inj hqueued).symm

/-- A running battleground never gets a player twice, be it through two groups or for both
teams, and only groups of the team that were not invited yet. -/
theorem filled_once [LinearOrder P] (h : (queueSystem P).Reachable q)
    (bracketId : Fin MAX_BATTLEGROUND_BRACKETS) (invitationType : InvitationType)
    (bg : FreeSlotBattleground) :
    ∃ q', q.initPools.fillPlayersToBG invitationType bg bracketId = .ok q' ∧
      (selectedPlayers q').Nodup ∧ ∀ team, ∀ ginfo ∈ (q'.selectionPools team).selectedGroups,
        (q'.groups ginfo).team = team ∧ (q'.groups ginfo).invited = false := by
  have hok := reachable_queueOk h
  obtain ⟨ali, horde, _, _, hfill, -, hali, hhorde, -⟩ :=
    fillPlayersToBG_fills q.initPools invitationType bg bracketId (by intro team; cases team <;> rfl)
  have haliSub := (sublist_append_left _ _).trans hali.sublist
  have hhordeSub := (sublist_append_left _ _).trans hhorde.sublist
  refine ⟨_, hfill, players_nodup hok haliSub hhordeSub, fun team ginfo hmem => ?_⟩
  cases team with
  | ALLIANCE => exact ⟨hok.teams _ _ (haliSub.subset hmem), hali.uninvited _ hmem⟩
  | HORDE => exact ⟨hok.teams _ _ (hhordeSub.subset hmem), hhorde.uninvited _ hmem⟩

def pairQueued : BattlegroundQueue Nat :=
  ({ queueId := ⟨false, 0⟩ } : BattlegroundQueue Nat).addGroup 1 100 [10, 11] .HORDE
    BG_BRACKET_ID_FIRST false 0 0 0

def bothQueued : BattlegroundQueue Nat :=
  pairQueued.addGroup 2 100 [20] .ALLIANCE BG_BRACKET_ID_FIRST false 0 0 0

theorem filled_once_both : ∃ q', bothQueued.initPools.fillPlayersToBG
      .BG_QUEUE_INVITATION_TYPE_BALANCED freeSlots BG_BRACKET_ID_FIRST = .ok q' ∧
    (selectedPlayers q').Nodup := by
  have hhorde : (queueSystem Nat).Reachable pairQueued :=
    .step (.addGroup 1 100 [10, 11] .HORDE BG_BRACKET_ID_FIRST false 0 0 0) (.init ⟨_, rfl⟩)
      ⟨⟨rfl, by decide, fun _ _ => rfl⟩, rfl⟩
  have hreachable : (queueSystem Nat).Reachable bothQueued :=
    .step (.addGroup 2 100 [20] .ALLIANCE BG_BRACKET_ID_FIRST false 0 0 0) hhorde
      ⟨⟨rfl, by decide, by decide⟩, rfl⟩
  obtain ⟨q', hfill, honce, -⟩ :=
    filled_once hreachable BG_BRACKET_ID_FIRST .BG_QUEUE_INVITATION_TYPE_BALANCED freeSlots
  exact ⟨q', hfill, honce⟩

end FreeSlots

/-- A pool full up to the size of the larger premade group: the premade group of the team
first, then distinct groups of its normal queue, as many as fit. -/
structure FilledUp (groups : Address → GroupQueueInfo P) (normal : List Address) (first : Address)
    (larger : Nat) (pool : SelectionPool) : Prop where
  selected : ∃ added, pool.selectedGroups = first :: added ∧ added.Nodup ∧
    ∀ ginfo ∈ added, ginfo ∈ normal ∧ (groups ginfo).invited = false
  count : pool.playerCount = (pool.selectedGroups.map fun ginfo => (groups ginfo).size).sum
  within : pool.playerCount ≤ larger
  filled : larger ≤ pool.playerCount ∨ ∀ ginfo ∈ normal, (groups ginfo).invited = false →
    ginfo ∉ pool.selectedGroups → larger < pool.playerCount + (groups ginfo).size

/-- Groups with players do not get into a pool that has reached its bound. -/
theorem addUninvited_full {groups : Address → GroupQueueInfo P} {desiredCount : Nat}
    {list : List Address} {pool : SelectionPool}
    (hplayers : ∀ ginfo ∈ list, 0 < (groups ginfo).size) (hfull : desiredCount ≤ pool.playerCount) :
    SelectionPool.addUninvited groups desiredCount list pool = pool := by
  induction list with
  | nil => rfl
  | cons ginfo list ih =>
    have hsize := hplayers ginfo mem_cons_self
    unfold SelectionPool.addUninvited
    split
    · exact ih fun other hmem => hplayers other (mem_cons_of_mem _ hmem)
    · rcases addGroup_cases groups pool ginfo desiredCount with ⟨_, hfits, _⟩ | ⟨_, hadd⟩
      · omega
      · rw [hadd, decide_eq_false (by omega)]

/-- The pools that `CheckPremadeMatch` sets: the bound is the smaller of the groups, so that
nothing is added to them. -/
theorem checkPremadeMatch_pools (env : Surroundings) (minPlayers maxPlayers : Nat)
    {first : Team → Address}
    (hplayers : ∀ team, ∀ ginfo ∈ q.queuedGroups ⟨bracketId, .BG_QUEUE_NORMAL, team⟩,
      0 < (q.groups ginfo).size)
    (hfirst : ∀ team, (q.queuedGroups ⟨bracketId, .BG_QUEUE_PREMADE, team⟩).find?
      (fun ginfo => !(q.groups ginfo).invited) = some (first team)) :
    let after := q.initPools.checkPremadeMatch env bracketId minPlayers maxPlayers
    after.2 = true ∧ ∀ team, after.1.selectionPools team =
      if (q.groups (first team)).size ≤ maxPlayers then
        ⟨[first team], (q.groups (first team)).size⟩
      else {} := by
  have hadd : ∀ team, ((q.initPools.selectionPools team).addGroup q.groups (first team)
      maxPlayers).1 = if (q.groups (first team)).size ≤ maxPlayers then
        ⟨[first team], (q.groups (first team)).size⟩ else {} := by
    intro team
    have hempty : q.initPools.selectionPools team = {} := by cases team <;> rfl
    have hinvited : (q.groups (first team)).invited = false := by
      simpa using find?_some (hfirst team)
    rw [hempty]
    rcases addGroup_cases q.groups {} (first team) maxPlayers with ⟨_, hfits, hadd⟩ | ⟨hnot, hadd⟩
    · rw [hadd, if_pos (by simpa using hfits)]
      simp
    · have hlarge := hnot hinvited
      rw [hadd, if_neg (by simpa using hlarge)]
  have hfind : ∀ team, (q.initPools.queuedGroups ⟨bracketId, .BG_QUEUE_PREMADE, team⟩).find?
      (fun ginfo => !(q.initPools.groups ginfo).invited) = some (first team) := hfirst
  have hfill : ∀ (team : Team) (bound : Nat) (pool : SelectionPool), bound ≤ pool.playerCount →
      SelectionPool.addUninvited q.initPools.groups bound
        (q.initPools.queuedGroups ⟨bracketId, .BG_QUEUE_NORMAL, team⟩) pool = pool :=
    fun team bound pool hbound => addUninvited_full (hplayers team) hbound
  unfold BattlegroundQueue.checkPremadeMatch
  simp only [hfind]
  refine ⟨trivial, fun team => ?_⟩
  rw [hfill _ _ _ (Nat.min_le_left _ _), hfill _ _ _ (Nat.min_le_right _ _)]
  cases team with
  | ALLIANCE => exact hadd .ALLIANCE
  | HORDE => exact hadd .HORDE

/-- A match between premade groups fills both pools up to the larger of the two groups exactly
if both first groups fit into the battleground and no group that waits in a normal queue would
fit beside the premade group of its team. -/
theorem premade_filled_iff (h : QueueShape q) (bracketId : Fin MAX_BATTLEGROUND_BRACKETS)
    (env : Surroundings) (minPlayers maxPlayers : Nat)
    (hpremade : ∀ team, ∃ ginfo ∈ q.queuedGroups ⟨bracketId, .BG_QUEUE_PREMADE, team⟩,
      (q.groups ginfo).invited = false ∧ (q.groups ginfo).size ≤ maxPlayers) :
    ∃ first : Team → Address, (∀ team, (q.queuedGroups ⟨bracketId, .BG_QUEUE_PREMADE, team⟩).find?
        (fun ginfo => !(q.groups ginfo).invited) = some (first team)) ∧
      let size (team : Team) := (q.groups (first team)).size
      let larger := max (size .ALLIANCE) (size .HORDE)
      let after := q.initPools.checkPremadeMatch env bracketId minPlayers maxPlayers
      ((after.2 = true ∧ ∀ team, FilledUp q.groups
          (q.queuedGroups ⟨bracketId, .BG_QUEUE_NORMAL, team⟩) (first team) larger
          (after.1.selectionPools team)) ↔
        ∀ team, size team ≤ maxPlayers ∧
          ∀ ginfo ∈ q.queuedGroups ⟨bracketId, .BG_QUEUE_NORMAL, team⟩,
            (q.groups ginfo).invited = false → larger < size team + (q.groups ginfo).size) := by
  have hplayers : ∀ index, ∀ ginfo ∈ q.queuedGroups index, 0 < (q.groups ginfo).size := by
    intro index ginfo hmem
    exact length_pos_iff.mpr (h.nonempty ginfo ((h.live_iff ginfo).mpr ⟨index, hmem⟩))
  have hfirst : ∀ team, ∃ first, (q.queuedGroups ⟨bracketId, .BG_QUEUE_PREMADE, team⟩).find?
      (fun ginfo => !(q.groups ginfo).invited) = some first := by
    intro team
    obtain ⟨ginfo, hmem, hinvited, _⟩ := hpremade team
    apply Option.isSome_iff_exists.mp
    rw [find?_isSome]
    exact ⟨ginfo, hmem, by rw [hinvited]; rfl⟩
  choose first hfirst using hfirst
  refine ⟨first, hfirst, ?_⟩
  intro size larger after
  obtain ⟨hfound, hpools⟩ := checkPremadeMatch_pools env minPlayers maxPlayers
    (fun team => hplayers ⟨bracketId, .BG_QUEUE_NORMAL, team⟩) hfirst
  have hsize : ∀ team, size team ≤ larger := by
    intro team
    cases team with
    | ALLIANCE => exact Nat.le_max_left _ _
    | HORDE => exact Nat.le_max_right _ _
  constructor
  · rintro ⟨_, hfilled⟩ team
    obtain ⟨⟨added, hselected, _⟩, _, _, hfull⟩ := hfilled team
    rw [hpools team] at hselected hfull
    split at hselected
    · rename_i hfits
      rw [if_pos hfits] at hfull
      refine ⟨hfits, fun ginfo hmem hinvited => ?_⟩
      have hpos := hplayers _ ginfo hmem
      rcases hfull with hreached | hnone
      · exact Nat.lt_of_le_of_lt hreached (Nat.lt_add_of_pos_right hpos)
      · refine hnone ginfo hmem hinvited fun hin => ?_
        have hpremade := mem_of_find?_eq_some (hfirst team)
        rw [mem_singleton.mp hin] at hmem
        cases h.unique _ _ _ hmem hpremade
    · cases hselected
  · refine fun hcondition => ⟨hfound, fun team => ?_⟩
    obtain ⟨hfits, hnone⟩ := hcondition team
    rw [hpools team, if_pos hfits]
    exact
      { selected := ⟨[], rfl, nodup_nil, fun _ hmem => absurd hmem not_mem_nil⟩
        count := (Nat.add_zero _).symm
        within := hsize team
        filled := .inr fun ginfo hmem hinvited _ => hnone ginfo hmem hinvited }

/-- Premade groups of two and of three, and some players of the Alliance who wait in the normal
queue. -/
def premadeQueued (members : List Nat) : BattlegroundQueue Nat :=
  ((({ queueId := ⟨false, 0⟩ } : BattlegroundQueue Nat).addGroup 1 100 [10, 11] .ALLIANCE
    BG_BRACKET_ID_FIRST true 0 0 0).addGroup 2 100 [20, 21, 22] .HORDE BG_BRACKET_ID_FIRST true
    0 0 0).addGroup 3 100 members .ALLIANCE BG_BRACKET_ID_FIRST false 0 0 0

/-- One player would fill the smaller side up and stays in the queue. -/
theorem premade_not_filled_up :
    let q := premadeQueued [30]
    let after := q.initPools.checkPremadeMatch arenaSurroundings BG_BRACKET_ID_FIRST 5 10
    (q.queuedGroups ⟨BG_BRACKET_ID_FIRST, .BG_QUEUE_PREMADE, .ALLIANCE⟩ = [1] ∧
      q.queuedGroups ⟨BG_BRACKET_ID_FIRST, .BG_QUEUE_PREMADE, .HORDE⟩ = [2] ∧
      ∀ ginfo, (q.groups ginfo).invited = false) ∧
    after.2 = true ∧ (after.1.selectionPools .ALLIANCE).selectedGroups = [1] ∧
    ¬ FilledUp q.groups (q.queuedGroups ⟨BG_BRACKET_ID_FIRST, .BG_QUEUE_NORMAL, .ALLIANCE⟩) 1
      (max (q.groups 1).size (q.groups 2).size) (after.1.selectionPools .ALLIANCE) := by
  refine ⟨⟨by decide, by decide, fun ginfo => ?_⟩, by decide, by decide, fun hfilled => ?_⟩
  · simp only [premadeQueued, BattlegroundQueue.addGroup, Function.update_apply]
    split
    · rfl
    split
    · rfl
    · split
      · rfl
      · rfl
  · rcases hfilled.filled with hreached | hnone
    · exact absurd hreached (by decide)
    · exact absurd (hnone 3 (by decide) (by decide) (by decide)) (by decide)

/-- Two players would be one too many. -/
theorem premade_filled_iff_two : ∃ first : Team → Address, ∀ team,
    FilledUp (premadeQueued [30, 31]).groups
      ((premadeQueued [30, 31]).queuedGroups ⟨BG_BRACKET_ID_FIRST, .BG_QUEUE_NORMAL, team⟩)
      (first team) 3 (((premadeQueued [30, 31]).initPools.checkPremadeMatch arenaSurroundings
        BG_BRACKET_ID_FIRST 5 10).1.selectionPools team) := by
  have hreachable : (queueSystem Nat).Reachable (premadeQueued [30, 31]) :=
    .step (.addGroup 3 100 [30, 31] .ALLIANCE BG_BRACKET_ID_FIRST false 0 0 0)
      (.step (.addGroup 2 100 [20, 21, 22] .HORDE BG_BRACKET_ID_FIRST true 0 0 0)
        (.step (.addGroup 1 100 [10, 11] .ALLIANCE BG_BRACKET_ID_FIRST true 0 0 0)
          (.init ⟨⟨false, 0⟩, rfl⟩) ⟨⟨rfl, by decide, by decide⟩, rfl⟩)
        ⟨⟨by decide, by decide, by decide⟩, rfl⟩) ⟨⟨by decide, by decide, by decide⟩, rfl⟩
  obtain ⟨first, hfirst, hiff⟩ := premade_filled_iff
    (reachable_queueOk hreachable).shape BG_BRACKET_ID_FIRST arenaSurroundings 5 10
    (by intro team; cases team <;> decide)
  have hali : first .ALLIANCE = 1 :=
    Option.some.inj ((hfirst .ALLIANCE).symm.trans (by decide))
  have hhorde : first .HORDE = 2 := Option.some.inj ((hfirst .HORDE).symm.trans (by decide))
  simp only [hali, hhorde] at hiff
  refine ⟨first, (hiff.mpr fun team => ?_).2⟩
  cases team with
  | ALLIANCE =>
    rw [hali]
    decide
  | HORDE =>
    rw [hhorde]
    decide

/-- No group of the Alliance that waits fits, and the first of the Horde that fits has more than
the one player that arena testing asks for. -/
def LargerHordeGroup (q : BattlegroundQueue P) (env : Surroundings)
    (template : BattlegroundTemplate) (bracketId : Fin MAX_BATTLEGROUND_BRACKETS) : Prop :=
  template.isArena = true ∧ env.isArenaTesting = true ∧ env.isTesting = false ∧
    (∀ ginfo ∈ q.queuedGroups ⟨bracketId, .BG_QUEUE_NORMAL, .ALLIANCE⟩,
      (q.groups ginfo).invited = false → q.queueId.teamSize < (q.groups ginfo).size) ∧
    ∃ ginfo, (q.queuedGroups ⟨bracketId, .BG_QUEUE_NORMAL, .HORDE⟩).find? (fun ginfo =>
      !(q.groups ginfo).invited && decide ((q.groups ginfo).size ≤ q.queueId.teamSize)) =
        some ginfo ∧ 1 < (q.groups ginfo).size

/-- What a reported match promises; `normal` says that `CheckNormalMatch` found it. -/
structure MatchOk (q : BattlegroundQueue P) (env : Surroundings) (template : BattlegroundTemplate)
    (bracketId : Fin MAX_BATTLEGROUND_BRACKETS) (normal : Bool) (q' : BattlegroundQueue P) :
    Prop where
  selected : ∀ team, ∃ side, SelectedFrom q.groups
    (q.queuedGroups ⟨bracketId, .BG_QUEUE_NORMAL, side⟩) (q'.selectionPools team)
  disjoint : ∀ ginfo ∈ (q'.selectionPools .ALLIANCE).selectedGroups,
    ginfo ∉ (q'.selectionPools .HORDE).selectedGroups
  atMost : ∀ team, (q'.selectionPools team).playerCount ≤
    Iterators.maxPlayersPerTeam template q.queueId.teamSize
  atLeast : env.isTesting = false → ∀ team,
    Iterators.minPlayersPerTeam template env q.queueId.teamSize ≤
      (q'.selectionPools team).playerCount
  teamSize : template.isArena = true → env.isArenaTesting = false → env.isTesting = false →
    ∀ team, (q'.selectionPools team).playerCount = q.queueId.teamSize
  balanced : env.invitationType ≠ .BG_QUEUE_INVITATION_TYPE_NO_BALANCE →
    (∀ team, Iterators.minPlayersPerTeam template env q.queueId.teamSize ≤
      (q'.selectionPools team).playerCount) →
    normal = true ∨ env.isArenaTesting = false →
    (((q'.selectionPools .HORDE).playerCount : Int) -
      (q'.selectionPools .ALLIANCE).playerCount).natAbs ≤ 2

theorem selectedFrom_of_pool {groups : Address → GroupQueueInfo P} {list : List Address}
    {maxPlayers : Nat} {pool : SelectionPool}
    (h : FillOk groups list maxPlayers ⟨maxPlayers, pool, []⟩) (hnodup : list.Nodup) :
    SelectedFrom groups list pool := selectedFrom_of_fillOk h hnodup

/-- The pool of the Alliance is not chosen while it is empty. -/
theorem alliance_not_empty (h : QueueShape q) (env : Surroundings)
    (template : BattlegroundTemplate) (harena : template.isArena = true)
    (hslip : ¬ LargerHordeGroup q env template bracketId) {after : BattlegroundQueue P × Bool}
    (hafter : Iterators.NormalChecked q.initPools env bracketId
      (Iterators.minPlayersPerTeam template env q.queueId.teamSize)
      (Iterators.maxPlayersPerTeam template q.queueId.teamSize) after) (hfound : after.2 = false)
    (hmore : Iterators.minPlayersPerTeam template env q.queueId.teamSize <
      (after.1.selectionPools .HORDE).playerCount) :
    Iterators.minPlayersPerTeam template env q.queueId.teamSize ≤
      (after.1.selectionPools .ALLIANCE).playerCount := by
  by_contra hless
  obtain ⟨hnone, hsame⟩ := hafter.few .ALLIANCE (Nat.lt_of_not_le hless)
  have hplayers : ∀ index, ∀ ginfo ∈ q.queuedGroups index, 0 < (q.groups ginfo).size := by
    intro index ginfo hmem
    exact length_pos_iff.mpr (h.nonempty ginfo ((h.live_iff ginfo).mpr ⟨index, hmem⟩))
  have hmax : Iterators.maxPlayersPerTeam template q.queueId.teamSize = q.queueId.teamSize :=
    if_pos harena
  have hfits := Int.ofNat_le.mp (hafter.pools .HORDE).fits
  dsimp only at hfits
  rw [hmax] at hsame hfits
  have htesting : env.isTesting = false := by
    by_contra hon
    rw [not_eq_false] at hon
    have hzero := hnone hfound hon .HORDE
    omega
  have harenaTesting : env.isArenaTesting = true := by
    by_contra hoff
    have hsize : Iterators.minPlayersPerTeam template env q.queueId.teamSize =
        q.queueId.teamSize := (if_pos harena).trans (if_neg hoff)
    omega
  have hone : Iterators.minPlayersPerTeam template env q.queueId.teamSize = 1 :=
    (if_pos harena).trans (if_pos harenaTesting)
  rw [hone] at hmore hless hsame
  refine hslip ⟨harena, harenaTesting, htesting, fun ginfo hmem hinvited => ?_, ?_⟩
  · have hali := (hsame .ALLIANCE).trans (addUntil_one (hplayers _))
    rw [hali] at hless
    split at hless
    · rename_i hnotFound
      have hnot := find?_eq_none.mp hnotFound ginfo hmem
      have hinvited' : (q.initPools.groups ginfo).invited = false := hinvited
      rw [hinvited', Bool.not_false, Bool.true_and, decide_eq_true_eq] at hnot
      exact Nat.lt_of_not_le hnot
    · rename_i found hfind
      exact absurd (hplayers _ found (mem_of_find?_eq_some hfind)) hless
  · have hhorde := (hsame .HORDE).trans (addUntil_one (hplayers _))
    rw [hhorde] at hmore
    split at hmore
    · exact absurd hmore (by decide)
    · rename_i found hfind
      exact ⟨found, hfind, hmore⟩

/-- An unrated match is found without a fault, promises what it should, and is not prepared for
unless it is reported. -/
theorem unrated_match_selected (h : QueueShape q) (bracketId : Fin MAX_BATTLEGROUND_BRACKETS)
    (env : Surroundings) (template : BattlegroundTemplate)
    (hmin : 0 < Iterators.minPlayersPerTeam template env q.queueId.teamSize)
    (hslip : ¬ LargerHordeGroup q env template bracketId) :
    ∃ q' found, Iterators.unratedMatch q.initPools env template bracketId = .ok (q', found) ∧
      (found = true → MatchOk q env template bracketId (q.initPools.checkNormalMatch env bracketId
          (Iterators.minPlayersPerTeam template env q.queueId.teamSize)
          (Iterators.maxPlayersPerTeam template q.queueId.teamSize)).2 q') ∧
      (found = false → q'.queuedGroups = q.queuedGroups ∧
        ∀ ginfo, (q'.groups ginfo).team = (q.groups ginfo).team) := by
  have hpools : ∀ team, q.initPools.selectionPools team = {} := by
    intro team
    cases team <;> rfl
  obtain ⟨after, hnormal, hmodel, hchecked⟩ := checkNormalMatch_checked bracketId hpools env
    (Iterators.maxPlayersPerTeam template q.queueId.teamSize) hmin
  have hstep : unratedMatch q.initPools env template bracketId =
      if after.2 then .ok (after.1, true)
      else if template.isArena then checkSkirmishForSameFaction after.1 bracketId
        (Iterators.minPlayersPerTeam template env q.queueId.teamSize)
      else .ok (after.1, false) := by
    change (checkNormalMatch q.initPools env bracketId
      (Iterators.minPlayersPerTeam template env q.queueId.teamSize)
      (Iterators.maxPlayersPerTeam template q.queueId.teamSize) >>= _) = _
    rw [hnormal]
    rfl
  have hnodup : ∀ team, (q.queuedGroups ⟨bracketId, .BG_QUEUE_NORMAL, team⟩).Nodup :=
    fun team => h.nodup _
  rw [hstep, hmodel]
  cases hfound : after.2 with
  | true =>
    refine ⟨after.1, true, rfl, fun _ => ?_, fun hnot => (nomatch hnot)⟩
    have hfull : template.isArena = true → env.isArenaTesting = false → env.isTesting = false →
        ∀ team, (after.1.selectionPools team).playerCount = q.queueId.teamSize := by
      intro harena hoff htesting team
      have hless := hchecked.enough hfound htesting team
      have hmore := Int.ofNat_le.mp (hchecked.pools team).fits
      rw [minPlayersPerTeam, if_pos harena, hoff] at hless
      rw [maxPlayersPerTeam, if_pos harena] at hmore
      exact Nat.le_antisymm hmore hless
    exact
      { selected := fun team => ⟨team, selectedFrom_of_pool (hchecked.pools team) (hnodup team)⟩
        disjoint := fun ginfo hali hhorde => by
          have hone := (selectedFrom_of_pool (hchecked.pools .ALLIANCE) (hnodup _)).listed ginfo hali
          have htwo := (selectedFrom_of_pool (hchecked.pools .HORDE) (hnodup _)).listed ginfo hhorde
          cases h.unique _ _ _ hone.1 htwo.1
        atMost := fun team => Int.ofNat_le.mp (hchecked.pools team).fits
        atLeast := hchecked.enough hfound
        teamSize := hfull
        balanced := fun htype hcount _ => hchecked.balanced hfound htype hcount }
  | false =>
    have hunchanged : after.1.queuedGroups = q.queuedGroups ∧
        ∀ ginfo, (after.1.groups ginfo).team = (q.groups ginfo).team :=
      ⟨hchecked.queuedGroups, fun ginfo => by rw [hchecked.groups]; rfl⟩
    cases harena : template.isArena with
    | false =>
      exact ⟨after.1, false, rfl, fun hyes => (nomatch hyes), fun _ => hunchanged⟩
    | true =>
      have hok : PoolsOk after.1 after.1 bracketId
          (Iterators.maxPlayersPerTeam template q.queueId.teamSize) := by
        intro team
        rw [hchecked.groups, hchecked.queuedGroups]
        exact hchecked.pools team
      have hnodup' : ∀ team, (after.1.queuedGroups ⟨bracketId, .BG_QUEUE_NORMAL, team⟩).Nodup := by
        rw [hchecked.queuedGroups]
        exact hnodup
      obtain ⟨last, hskirmish, _, hlast⟩ := checkSkirmish_checked hmin hok hnodup'
        (alliance_not_empty h env template harena hslip hchecked hfound)
      rw [hskirmish]
      refine ⟨last.1, last.2, rfl, fun hyes => ?_, fun hnot => ?_⟩
      · obtain ⟨side, hside⟩ := hlast.pools hyes
        rw [hchecked.groups, hchecked.queuedGroups] at hside
        have hless := hlast.enough hyes
        have hmore : ∀ team, (last.1.selectionPools team).playerCount ≤
            Iterators.maxPlayersPerTeam template q.queueId.teamSize :=
          fun team => Int.ofNat_le.mp (hside team).fits
        have hfull : env.isArenaTesting = false →
            ∀ team, (last.1.selectionPools team).playerCount = q.queueId.teamSize := by
          intro hoff team
          have hone := hless team
          have htwo := hmore team
          rw [minPlayersPerTeam, if_pos harena, hoff] at hone
          rw [maxPlayersPerTeam, if_pos harena] at htwo
          exact Nat.le_antisymm htwo hone
        exact
          { selected := fun team => ⟨side, selectedFrom_of_pool (hside team) (hnodup side)⟩
            disjoint := hlast.disjoint hyes
            atMost := hmore
            atLeast := fun _ => hless
            teamSize := fun _ hoff _ => hfull hoff
            balanced := fun _ _ hcase => by
              have hoff := hcase.resolve_left false_ne_true
              rw [hfull hoff .HORDE, hfull hoff .ALLIANCE]
              omega }
      · obtain ⟨hgroups, hlists⟩ := hlast.unchanged hnot
        rw [hgroups, hlists]
        exact hunchanged

def hordeQueued : BattlegroundQueue Nat :=
  ((({ queueId := ⟨false, 2⟩ } : BattlegroundQueue Nat).addGroup 1 100 [10, 11, 12] .HORDE
    BG_BRACKET_ID_FIRST false 0 0 0).addGroup 2 200 [20, 21] .HORDE BG_BRACKET_ID_FIRST false
    0 0 0).addGroup 3 300 [30, 31] .HORDE BG_BRACKET_ID_FIRST false 0 0 0

/-- With arena testing the last group of an empty pool is asked for, and where no player is
needed an iterator is advanced past the end. -/
theorem unrated_match_faults :
    Iterators.unratedMatch hordeQueued.initPools
        { arenaSurroundings with isArenaTesting := true } ⟨true, 0, 0⟩ BG_BRACKET_ID_FIRST =
      .error .backOfEmpty ∧
    Iterators.unratedMatch hordeQueued.initPools
        { arenaSurroundings with invitationType := .BG_QUEUE_INVITATION_TYPE_BALANCED }
        ⟨false, 0, 10⟩ BG_BRACKET_ID_FIRST = .error .endIncremented ∧
    ∃ q', Iterators.unratedMatch hordeQueued.initPools
        { arenaSurroundings with
          isTesting := true, invitationType := .BG_QUEUE_INVITATION_TYPE_BALANCED }
        ⟨false, 4, 10⟩ BG_BRACKET_ID_FIRST = .ok (q', true) ∧
      (q'.selectionPools .HORDE).playerCount = 3 ∧ (q'.selectionPools .ALLIANCE).playerCount = 0 :=
  ⟨rfl, rfl, _, rfl, rfl, rfl⟩

/-- The groups of two play against each other. -/
theorem unrated_match_selected_horde :
    ∃ q', Iterators.unratedMatch hordeQueued.initPools arenaSurroundings ⟨true, 0, 0⟩
        BG_BRACKET_ID_FIRST = .ok (q', true) ∧
      ∀ team, (q'.selectionPools team).playerCount = 2 := by
  have hreachable : (queueSystem Nat).Reachable hordeQueued :=
    .step (.addGroup 3 300 [30, 31] .HORDE BG_BRACKET_ID_FIRST false 0 0 0)
      (.step (.addGroup 2 200 [20, 21] .HORDE BG_BRACKET_ID_FIRST false 0 0 0)
        (.step (.addGroup 1 100 [10, 11, 12] .HORDE BG_BRACKET_ID_FIRST false 0 0 0)
          (.init ⟨⟨false, 2⟩, rfl⟩) ⟨⟨rfl, by decide, by decide⟩, rfl⟩)
        ⟨⟨by decide, by decide, by decide⟩, rfl⟩) ⟨⟨by decide, by decide, by decide⟩, rfl⟩
  obtain ⟨q', found, hmatch, hfound, _⟩ := unrated_match_selected
    (reachable_queueOk hreachable).shape BG_BRACKET_ID_FIRST arenaSurroundings
    ⟨true, 0, 0⟩ (by decide) (fun hslip => absurd hslip.2.1 (by decide))
  have hyes : (unratedMatch hordeQueued.initPools arenaSurroundings ⟨true, 0, 0⟩
      BG_BRACKET_ID_FIRST).toOption.map Prod.snd = some true := by
    decide
  rw [hmatch] at hyes
  have htrue : found = true := Option.some.inj hyes
  rw [htrue] at hmatch
  exact ⟨q', hmatch, (hfound htrue).teamSize rfl rfl rfl⟩

end LegionServer.Guarantees.MatchSelection
