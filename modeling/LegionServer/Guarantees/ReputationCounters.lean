import LegionServer.Source.Reputation.LoadedStates

/-!
# The counters of the reputation manager

`Initialize` and `LoadFromDB` count the rank of every faction that is no friendship, those
with a paragon reputation too, but `SetOneFactionReputation` leaves the counters alone
when it moves the standing of a faction with a paragon reputation. They have eight bits.
-/
namespace LegionServer.Guarantees.ReputationCounters
open Library Source.Reputation List ReputationMgr FactionStore UInt8

variable {F : Type*} {data : ReputationData F} {mgr after : ReputationMgr} {listId : UInt32}
  {state : FactionState} {entry : FactionEntry} {f : FactionState → FactionState}

/-- A faction that is no friendship and has at least the rank. -/
def isAtLeast (data : ReputationData F) (mgr : ReputationMgr) (rank : ReputationRank)
    (state : FactionState) : Bool :=
  match data.store.lookupEntry state.id with
  | some entry => entry.friendshipRepId = 0 && mgr.getRank data entry ≥ rank
  | none => false

def isVisible (state : FactionState) : Bool := state.flags.hasFlag ReputationFlags.visible

structure Agree (data : ReputationData F) (mgr : ReputationMgr) : Prop where
  honored : mgr.honoredFactionCount.toNat = mgr.factions.countP (isAtLeast data mgr REP_HONORED)
  revered : mgr.reveredFactionCount.toNat = mgr.factions.countP (isAtLeast data mgr REP_REVERED)
  exalted : mgr.exaltedFactionCount.toNat = mgr.factions.countP (isAtLeast data mgr REP_EXALTED)
  visible : mgr.visibleFactionCount.toNat = mgr.factions.countP isVisible

/-- What is counted fits into eight bits. -/
structure Fits (data : ReputationData F) (mgr : ReputationMgr) : Prop where
  ranks : ∀ rank ∈ [REP_HONORED, REP_REVERED, REP_EXALTED],
    mgr.factions.countP (isAtLeast data mgr rank) < 256
  visible : mgr.factions.countP isVisible < 256

def SameCounters (oldRank newRank : ReputationRank) : Prop :=
  ∀ rank ∈ [REP_HONORED, REP_REVERED, REP_EXALTED], oldRank ≥ rank ↔ newRank ≥ rank

/-- The standing of a faction with a paragon reputation stays between the ranks counted. -/
def Kept (data : ReputationData F) (quests : QuestView) (incremental : Bool)
    (mgr : ReputationMgr) (call : ReputationMgr.Attempt) : Prop :=
  call.applies mgr = true → data.isParagonReputation call.entry = true →
    call.entry.friendshipRepId = 0 → ∀ state, mgr.find call.entry.repListId = some state →
      SameCounters
        (data.reputationToRank call.entry (state.standing + data.getBaseReputation call.entry))
        (data.reputationToRank call.entry (mgr.newStanding data quests call.entry
          (state.standing + data.getBaseReputation call.entry) call.standing incremental))

def AllKept (data : ReputationData F) (quests : QuestView) (incremental : Bool) :
    ReputationMgr → List ReputationMgr.Attempt → Prop
  | _, [] => True
  | mgr, call :: calls => Kept data quests incremental mgr call ∧
      AllKept data quests incremental (mgr.attempt data quests incremental call) calls

def Proper (call : ReputationMgr.ReputationCall data) (mgr : ReputationMgr) : Prop :=
  match call with
  | .setReputation call _ =>
    AllKept data call.quests call.incremental mgr
        (mgr.spilloverAttempts data call.entry call.standing call.incremental call.noSpillover) ∧
      AllKept data call.quests call.incremental (mgr.spillOver data call)
        ((mgr.spillOver data call).primaryAttempts data call.quests call.entry call.standing
          call.incremental call.spillOverOnly)
  | _ => True

/-- `isAtLeast`, by the state alone. -/
def ranked (data : ReputationData F) (rank : ReputationRank) (state : FactionState) : Bool :=
  match data.store.lookupEntry state.id with
  | some entry => entry.friendshipRepId = 0 &&
      data.reputationToRank entry (data.getBaseReputation entry + state.standing) ≥ rank
  | none => false

@[simp] theorem ranked_setFlag (data : ReputationData F) (rank : ReputationRank) (flag : Nat)
    (on : Bool) (state : FactionState) :
    ranked data rank (state.setFlag flag on) = ranked data rank state := rfl

def rankCounters (mgr : ReputationMgr) : List (ReputationRank × UInt8) :=
  [(REP_HONORED, mgr.honoredFactionCount), (REP_REVERED, mgr.reveredFactionCount),
    (REP_EXALTED, mgr.exaltedFactionCount)]

structure Counted (data : ReputationData F) (mgr : ReputationMgr) : Prop where
  matched : mgr.Matched data
  ranks : ∀ counter ∈ rankCounters mgr,
    counter.2 = UInt8.ofNat (mgr.factions.countP (ranked data counter.1))
  visible : mgr.visibleFactionCount = UInt8.ofNat (mgr.factions.countP isVisible)

theorem ofNat_recount {count recount : Nat} {old new : Bool}
    (h : recount + old.toNat = count + new.toNat) :
    UInt8.ofNat recount = UInt8.ofNat count - old.toUInt8 + new.toUInt8 := by
  have hbytes := congrArg UInt8.ofNat h
  rw [ofNat_add, ofNat_add] at hbytes
  have hold : UInt8.ofNat old.toNat = old.toUInt8 := by cases old <;> rfl
  have hnew : UInt8.ofNat new.toNat = new.toUInt8 := by cases new <;> rfl
  grind

theorem rankCounters_update (mgr : ReputationMgr) (oldRank newRank : ReputationRank) :
    rankCounters (mgr.updateRankCounters oldRank newRank) = (rankCounters mgr).map fun counter =>
      (counter.1, counter.2 - (decide (oldRank ≥ counter.1)).toUInt8 +
        (decide (newRank ≥ counter.1)).toUInt8) := by
  simp only [rankCounters, updateRankCounters, map_cons, map_nil,
    Bool.toUInt8, decide_eq_true_eq]

theorem Counted.recount (h : Counted data mgr) (hfind : mgr.find listId = some state)
    (hid : ∀ state, (f state).id = state.id)
    (hlist : ∀ state, (f state).reputationListId = state.reputationListId)
    (hfactions : after.factions = (mgr.change listId f).factions)
    (hranks : rankCounters after = (rankCounters mgr).map fun counter =>
      (counter.1, counter.2 - (ranked data counter.1 state).toUInt8 +
        (ranked data counter.1 (f state)).toUInt8))
    (hvisible : after.visibleFactionCount = mgr.visibleFactionCount - (isVisible state).toUInt8 +
      (isVisible (f state)).toUInt8) : Counted data after where
  matched := by
    have hmatched := h.matched.change listId hid hlist
    exact ⟨hfactions ▸ hmatched.keys, hfactions ▸ hmatched.entry⟩
  ranks counter hmem := by
    rw [hranks] at hmem
    obtain ⟨old, hold, rfl⟩ := mem_map.mp hmem
    rw [hfactions, ofNat_recount (h.matched.countP_change hfind (ranked data old.1)),
      ← h.ranks old hold]
  visible := by
    rw [hfactions, hvisible, ofNat_recount (h.matched.countP_change hfind isVisible), ← h.visible]

theorem cancel_toUInt8 (count : UInt8) (b : Bool) : count - b.toUInt8 + b.toUInt8 = count := by
  grind

/-- A change of the states that the counters do not see. -/
theorem Counted.map (h : Counted data mgr) (hid : ∀ state, (f state).id = state.id)
    (hlist : ∀ state, (f state).reputationListId = state.reputationListId)
    (hstanding : ∀ state, (f state).standing = state.standing)
    (hvisible : ∀ state, isVisible (f state) = isVisible state) :
    Counted data { mgr with factions := mgr.factions.map f } := by
  have hcount : ∀ p : FactionState → Bool, (∀ state, p (f state) = p state) →
      (mgr.factions.map f).countP p = mgr.factions.countP p := by
    intro p hp
    rw [countP_map]
    exact countP_same fun state _ => hp state
  refine ⟨h.matched.map hid hlist, fun counter hmem => ?_, ?_⟩
  · rw [hcount _ fun state => by rw [ranked, ranked, hid, hstanding]]
    exact h.ranks counter hmem
  · rw [hcount _ hvisible]
    exact h.visible

theorem Counted.change (h : Counted data mgr) (hid : ∀ state, (f state).id = state.id)
    (hlist : ∀ state, (f state).reputationListId = state.reputationListId)
    (hstanding : ∀ state, (f state).standing = state.standing)
    (hvisible : ∀ state, isVisible (f state) = isVisible state) :
    Counted data (mgr.change listId f) := by
  apply h.map <;> intro state <;> split
  · exact hid state
  · rfl
  · exact hlist state
  · rfl
  · exact hstanding state
  · rfl
  · exact hvisible state
  · rfl

theorem toNat_ofNat_eq_iff {count : Nat} : (UInt8.ofNat count).toNat = count ↔ count < 256 := by
  rw [UInt8.toNat_ofNat']
  omega

theorem Counted.agree_iff (h : Counted data mgr) : Agree data mgr ↔ Fits data mgr := by
  have hsame : ∀ rank, mgr.factions.countP (ranked data rank) =
      mgr.factions.countP (isAtLeast data mgr rank) := by
    intro rank
    refine countP_same fun state hmem => ?_
    rw [ranked, isAtLeast]
    cases hentry : data.store.lookupEntry state.id with
    | none => rfl
    | some entry =>
      dsimp only
      rw [ReputationMgr.getRank, h.matched.getReputation_eq hmem hentry]
  have hrank : ∀ counter ∈ rankCounters mgr,
      (counter.2.toNat = mgr.factions.countP (isAtLeast data mgr counter.1) ↔
        mgr.factions.countP (isAtLeast data mgr counter.1) < 256) := by
    intro counter hmem
    rw [h.ranks counter hmem, hsame, toNat_ofNat_eq_iff]
  have hhonored := hrank (REP_HONORED, mgr.honoredFactionCount) (by simp [rankCounters])
  have hrevered := hrank (REP_REVERED, mgr.reveredFactionCount) (by simp [rankCounters])
  have hexalted := hrank (REP_EXALTED, mgr.exaltedFactionCount) (by simp [rankCounters])
  have hvisible : mgr.visibleFactionCount.toNat = mgr.factions.countP isVisible ↔
      mgr.factions.countP isVisible < 256 := by
    rw [h.visible, toNat_ofNat_eq_iff]
  constructor
  · rintro ⟨honored, revered, exalted, visible⟩
    refine ⟨fun rank hmem => ?_, hvisible.mp visible⟩
    simp only [mem_cons, not_mem_nil, or_false] at hmem
    rcases hmem with rfl | rfl | rfl
    · exact hhonored.mp honored
    · exact hrevered.mp revered
    · exact hexalted.mp exalted
  · rintro ⟨ranks, visible⟩
    exact ⟨hhonored.mpr (ranks _ mem_cons_self),
      hrevered.mpr (ranks _ (mem_cons_of_mem _ mem_cons_self)),
      hexalted.mpr (ranks _ (mem_cons_of_mem _ (mem_cons_of_mem _ mem_cons_self))),
      hvisible.mpr visible⟩

section Operations

theorem Counted.setVisibleState (h : Counted data mgr) (hfind : mgr.find listId = some state) :
    Counted data (mgr.setVisibleState data state) := by
  obtain rfl := (find_some hfind).2
  rw [setVisibleState]
  split
  · exact h
  rename_i hshow
  rw [Bool.or_eq_true, not_or, Bool.not_eq_true, Bool.not_eq_true] at hshow
  have hoff : isVisible state = false := hshow.2
  have hon : isVisible (state.setFlag ReputationFlags.visible true) = true := by
    rw [isVisible, FactionState.setFlag, ReputationFlags.hasFlag_change true (by decide), if_pos rfl]
  refine h.recount hfind (FactionState.id_setFlag _ _)
    (FactionState.reputationListId_setFlag _ _) rfl ?_ ?_
  · simp only [ranked_setFlag, cancel_toUInt8]
    exact (map_id _).symm
  · rw [hoff, hon]
    change mgr.visibleFactionCount + 1 = mgr.visibleFactionCount - 0 + 1
    grind

/-- A change of another flag than `Visible`. -/
theorem Counted.changeFlag (h : Counted data mgr) {flag : Nat} (hflag : flag < 16)
    (hother : flag ≠ ReputationFlags.visible) (on : Bool) :
    Counted data (mgr.change listId (FactionState.setFlag flag on)) := by
  refine h.change (FactionState.id_setFlag _ _) (FactionState.reputationListId_setFlag _ _)
    (FactionState.standing_setFlag _ _) fun state => ?_
  rw [isVisible, FactionState.setFlag, ReputationFlags.hasFlag_change on hflag, if_neg hother.symm]
  rfl

theorem Counted.setAtWarState (h : Counted data mgr) (state : FactionState) (atWar : Bool) :
    Counted data (mgr.setAtWarState data state atWar) := by
  rw [ReputationMgr.setAtWarState]
  split
  · exact h
  · split
    · exact h
    · exact h.changeFlag (by decide) (by decide) atWar

theorem Counted.setInactiveState (h : Counted data mgr) (state : FactionState)
    (inactive : Bool) : Counted data (mgr.setInactiveState state inactive) := by
  rw [ReputationMgr.setInactiveState]
  split
  · exact h
  · split
    · exact h
    · exact h.changeFlag (by decide) (by decide) inactive

theorem Counted.setStanding (h : Counted data mgr) (hentry : entry ∈ data.store.entries)
    (hfind : mgr.find entry.repListId = some state) (standing : Int32) (save : Bool → Bool)
    (hfactions : after.factions = (mgr.change entry.repListId fun s =>
      { s with standing, needSave := save s.needSave }).factions)
    (hvisible : after.visibleFactionCount = mgr.visibleFactionCount)
    (hcounters : rankCounters after = if entry.friendshipRepId = 0 then rankCounters
        (mgr.updateRankCounters
          (data.reputationToRank entry (data.getBaseReputation entry + state.standing))
          (data.reputationToRank entry (data.getBaseReputation entry + standing)))
      else rankCounters mgr) : Counted data after := by
  have hid := (h.matched.find_entry hentry hfind).2
  apply h.recount (f := fun s => { s with standing, needSave := save s.needSave }) hfind
    (fun _ => rfl) (fun _ => rfl) hfactions
  · rw [hcounters]
    simp only [ranked, hid, data.store.lookupEntry_mem hentry]
    split
    · rename_i hfriendship
      rw [rankCounters_update]
      simp [hfriendship]
    · rename_i hfriendship
      simp only [hfriendship, decide_false, Bool.false_and, cancel_toUInt8]
      exact (map_id _).symm
  · rw [hvisible]
    exact (cancel_toUInt8 _ (isVisible state)).symm

theorem rankCounters_same {oldRank newRank : ReputationRank} (h : SameCounters oldRank newRank) :
    rankCounters (mgr.updateRankCounters oldRank newRank) = rankCounters mgr := by
  rw [rankCounters_update]
  conv_rhs => rw [← (rankCounters mgr).map_id]
  apply map_congr_left
  intro counter hmem
  have hrank : counter.1 ∈ [REP_HONORED, REP_REVERED, REP_EXALTED] := by
    have hcounter := mem_map_of_mem (f := Prod.fst) hmem
    exact hcounter
  rw [decide_eq_decide.mpr (h counter.1 hrank), cancel_toUInt8, id]

variable {quests : QuestView} {incremental : Bool}

theorem Counted.setOneFactionReputation (h : Counted data mgr) (hentry : entry ∈ data.store.entries)
    {standing : Int32}
    (hkept : data.isParagonReputation entry = true → entry.friendshipRepId = 0 →
      ∀ state, mgr.find entry.repListId = some state → SameCounters
        (data.reputationToRank entry (state.standing + data.getBaseReputation entry))
        (data.reputationToRank entry (mgr.newStanding data quests entry
          (state.standing + data.getBaseReputation entry) standing incremental))) :
    Counted data (mgr.setOneFactionReputation data quests entry standing incremental) := by
  rw [ReputationMgr.setOneFactionReputation]
  cases hfind : mgr.find entry.repListId with
  | none => exact h
  | some state =>
    have hkept := fun hparagon hfriendship => hkept hparagon hfriendship state hfind
    have hkey : state.reputationListId = entry.repListId := (find_some hfind).2
    dsimp only
    generalize mgr.newStanding data quests entry
      (state.standing + data.getBaseReputation entry) standing incremental = standing at hkept ⊢
    -- whether war is declared matters to neither the standing nor the counters
    generalize hwar : (if (!data.isParagonReputation entry &&
        decide (data.reputationToRank entry standing ≤ REP_HOSTILE)) = true then
      mgr.setAtWarState data state true else mgr) = between
    obtain ⟨hbetween, state', hfind', hstanding⟩ : Counted data between ∧ ∃ state',
        between.find entry.repListId = some state' ∧ state'.standing = state.standing := by
      rw [← hwar]
      split
      · obtain ⟨needSave, hfind'⟩ := ReputationMgr.Keeps.setAtWarState data hfind true
        exact ⟨h.setAtWarState state true, _, hfind', rfl⟩
      · exact ⟨h, state, hfind, rfl⟩
    have hold : data.getBaseReputation entry + state'.standing =
        state.standing + data.getBaseReputation entry := by
      rw [hstanding, Int32.add_comm]
    have hnew : data.getBaseReputation entry + (standing - data.getBaseReputation entry) =
        standing := by grind
    generalize hafter : ReputationMgr.change _ state.reputationListId _ = after
    have hcounted : Counted data after := by
      rw [← hafter, hkey]
      apply hbetween.setStanding hentry hfind' (standing - data.getBaseReputation entry)
        fun _ => true
      · split <;> rfl
      · split <;> rfl
      · rw [hold, hnew]
        cases hparagon : data.isParagonReputation entry with
        | false =>
          by_cases hfriendship : entry.friendshipRepId = 0 <;> simp [hfriendship] <;> rfl
        | true =>
          by_cases hfriendship : entry.friendshipRepId = 0
          · rw [if_pos hfriendship, rankCounters_same (hkept hparagon hfriendship)]
            rfl
          · rw [if_neg hfriendship]
            rfl
    split
    · exact hcounted
    · rename_i found hfound
      exact hcounted.setVisibleState hfound

/-- A loop of `SetReputation`. -/
theorem Counted.attempts (h : Counted data mgr) {calls : List ReputationMgr.Attempt}
    (hentries : ∀ call ∈ calls, call.entry ∈ data.store.entries)
    (hkept : AllKept data quests incremental mgr calls) :
    Counted data (calls.foldl (ReputationMgr.attempt data quests incremental) mgr) := by
  induction calls generalizing mgr with
  | nil => exact h
  | cons call calls ih =>
    obtain ⟨hcall, hrest⟩ := hkept
    refine ih ?_ (fun call hmem => hentries call (mem_cons_of_mem _ hmem)) hrest
    rw [attempt]
    split
    · rename_i happlies
      exact h.setOneFactionReputation (hentries call mem_cons_self) (hcall happlies)
    · exact h

end Operations

section Loading

theorem Counted.append (h : Counted data mgr) (hentry : entry ∈ data.store.entries)
    (hrep : entry.canHaveReputation = true) (hfresh : mgr.Fresh entry)
    (hfactions : after.factions = mgr.factions ++ [ReputationMgr.initialState data entry])
    (hranks : rankCounters after = (rankCounters mgr).map fun counter => (counter.1,
      counter.2 + (ranked data counter.1 (ReputationMgr.initialState data entry)).toUInt8))
    (hvisible : after.visibleFactionCount = mgr.visibleFactionCount +
      (isVisible (ReputationMgr.initialState data entry)).toUInt8) : Counted data after := by
  have hcount : ∀ p : FactionState → Bool, UInt8.ofNat (after.factions.countP p) =
      UInt8.ofNat (mgr.factions.countP p) + (p (initialState data entry)).toUInt8 := by
    intro p
    rw [hfactions, countP_append, ofNat_add, countP_singleton]
    congr 1
    cases p (initialState data entry) <;> rfl
  constructor
  · constructor
    · rw [hfactions, map_append, nodup_append]
      refine ⟨h.matched.keys, nodup_singleton _, fun listId hmem other hother => ?_⟩
      obtain ⟨old, hold, rfl⟩ := mem_map.mp hmem
      rw [mem_singleton.mp hother]
      exact hfresh hrep old hold
    · intro state hmem
      rw [hfactions, mem_append, mem_singleton] at hmem
      rcases hmem with hmem | rfl
      · exact h.matched.entry state hmem
      · exact ⟨entry, hentry, hrep, rfl, rfl⟩
  · intro counter hmem
    rw [hranks] at hmem
    obtain ⟨old, hold, rfl⟩ := mem_map.mp hmem
    rw [hcount, ← h.ranks old hold]
  · rw [hcount, hvisible, ← h.visible]

theorem Counted.initializeFaction (h : Counted data mgr) (hentry : entry ∈ data.store.entries)
    (hfresh : mgr.Fresh entry) : Counted data (ReputationMgr.initializeFaction data mgr entry) := by
  have hfactions := initializeFaction_factions data hfresh
  cases hrep : entry.canHaveReputation with
  | false =>
    rw [ReputationMgr.initializeFaction, hrep]
    exact h
  | true =>
    refine h.append hentry hrep hfresh ?_ ?_ ?_
    · rw [hfactions, filter_singleton, hrep]
      rfl
    · have hranked : ∀ rank, ranked data rank (initialState data entry) =
          (decide (entry.friendshipRepId = 0) && decide (data.getBaseRank entry ≥ rank)) := by
        intro rank
        rw [ranked, initialState, data.store.lookupEntry_mem hentry]
        dsimp only
        rw [Int32.add_zero]
        rfl
      simp only [hranked]
      by_cases hfriendship : entry.friendshipRepId = 0
      · have hupdated : rankCounters (ReputationMgr.initializeFaction data mgr entry) =
            rankCounters (mgr.updateRankCounters REP_HOSTILE (data.getBaseRank entry)) := by
          rw [ReputationMgr.initializeFaction, if_pos hrep]
          dsimp only
          rw [if_pos hfriendship]
          split <;> rfl
        rw [hupdated, rankCounters_update]
        apply map_congr_left
        intro counter hmem
        have hrank : counter.1 ∈ [REP_HONORED, REP_REVERED, REP_EXALTED] :=
          mem_map_of_mem (f := Prod.fst) hmem
        have hlow : ∀ rank ∈ [REP_HONORED, REP_REVERED, REP_EXALTED], ¬REP_HOSTILE ≥ rank := by
          simp [REP_HOSTILE, REP_HONORED, REP_REVERED, REP_EXALTED]
        rw [decide_eq_false (hlow counter.1 hrank), decide_eq_true hfriendship, Bool.true_and]
        change (counter.1, counter.2 - 0 + _) = _
        rw [UInt8.sub_zero]
      · have hsame : rankCounters (ReputationMgr.initializeFaction data mgr entry) =
            rankCounters mgr := by
          rw [ReputationMgr.initializeFaction, if_pos hrep]
          dsimp only
          rw [if_neg hfriendship]
          split <;> rfl
        rw [hsame, decide_eq_false hfriendship]
        have hzero : ∀ count : UInt8, count + false.toUInt8 = count := UInt8.add_zero
        simp only [Bool.false_and, hzero]
        exact (map_id _).symm
    · rw [ReputationMgr.initializeFaction, if_pos hrep, isVisible]
      dsimp only
      cases (ReputationMgr.initialState data entry).flags.hasFlag ReputationFlags.visible with
      | true =>
        split <;> rfl
      | false =>
        split <;> exact (UInt8.add_zero _).symm

theorem counted_empty (data : ReputationData F) : Counted data {} where
  matched := ⟨nodup_nil, fun _ hmem => (not_mem_nil hmem).elim⟩
  ranks counter hmem := by
    have hzero : ∀ counter ∈ rankCounters {}, counter.2 = 0 := by simp [rankCounters]
    exact hzero counter hmem
  visible := rfl

theorem counted_initializeFactions (data : ReputationData F) :
    Counted data (ReputationMgr.initializeFactions data) :=
  (initialize_induction (P := Counted data)
    (fun _ _ h hentry hfresh => h.initializeFaction hentry hfresh) (counted_empty data)).1

theorem Counted.onState (h : Counted data mgr) {g : ReputationMgr → FactionState → ReputationMgr}
    (hg : ∀ state, mgr.find listId = some state → Counted data (g mgr state)) :
    Counted data (mgr.onState listId g) := by
  rw [ReputationMgr.onState]
  cases hfind : mgr.find listId with
  | none => exact h
  | some state => exact hg state hfind

variable {dbFactionFlags : ReputationFlags} {row : ReputationMgr.Row}

theorem Counted.loadStanding (h : Counted data mgr) (hentry : entry ∈ data.store.entries)
    (hfind : mgr.find entry.repListId = some state) (hstart : state.standing = 0)
    (standing : Int32) : Counted data (mgr.loadStanding data entry standing) := by
  have hbase : data.getBaseReputation entry + state.standing = data.getBaseReputation entry := by
    rw [hstart, Int32.add_zero]
  apply h.setStanding hentry hfind standing id
  · rw [ReputationMgr.loadStanding]
    split <;> rfl
  · rw [ReputationMgr.loadStanding]
    split <;> rfl
  · rw [ReputationMgr.loadStanding, hbase]
    split <;> rfl

theorem Counted.loadVisible (h : Counted data mgr) :
    Counted data (mgr.loadVisible data listId dbFactionFlags) := by
  rw [ReputationMgr.loadVisible]
  split
  · exact h.onState fun state hfind => h.setVisibleState hfind
  · exact h

theorem Counted.loadInactive (h : Counted data mgr) :
    Counted data (mgr.loadInactive listId dbFactionFlags) := by
  rw [ReputationMgr.loadInactive]
  split
  · exact h.onState fun state _ => h.setInactiveState state true
  · exact h

theorem Counted.loadAtWar (h : Counted data mgr) :
    Counted data (mgr.loadAtWar data listId dbFactionFlags) := by
  refine h.onState fun state _ => ?_
  split
  · exact h.setAtWarState state true
  · split
    · exact h.setAtWarState state false
    · exact h

theorem Counted.loadHostile (h : Counted data mgr) : Counted data (mgr.loadHostile data entry) := by
  rw [ReputationMgr.loadHostile]
  split
  · exact h.onState fun state _ => h.setAtWarState state true
  · exact h

theorem Counted.loadSaved (h : Counted data mgr) :
    Counted data (mgr.loadSaved listId dbFactionFlags) := by
  apply h.change <;> intro state <;> split <;> rfl

/-- What is left to load has its standing of the start. -/
def AtStart (data : ReputationData F) (mgr : ReputationMgr) (row : ReputationMgr.Row) : Prop :=
  ∀ entry, data.store.lookupEntry row.faction.toUInt32 = some entry →
    entry.canHaveReputation = true →
    ∃ state, mgr.find entry.repListId = some state ∧ state.standing = 0

theorem Counted.loadRow (h : Counted data mgr) (hstart : AtStart data mgr row) :
    Counted data (ReputationMgr.loadRow data mgr row) := by
  rw [ReputationMgr.loadRow]
  cases hlookup : data.store.lookupEntry row.faction.toUInt32 with
  | none => exact h
  | some entry =>
    dsimp only
    split
    · exact h
    rename_i hrep
    rw [Bool.not_eq_true, Bool.not_eq_false'] at hrep
    obtain ⟨state, hfind, hzero⟩ := hstart entry hlookup hrep
    have hstanding := h.loadStanding (lookupEntry_some hlookup).1 hfind hzero row.standing
    exact hstanding.loadVisible.loadInactive.loadAtWar.loadHostile.loadSaved

theorem AtStart.loadRow {other : ReputationMgr.Row} (h : AtStart data mgr other)
    (hother : other.faction ≠ row.faction) : AtStart data (ReputationMgr.loadRow data mgr row) other := by
  intro entry hlookup hrep
  obtain ⟨state, hfind, hzero⟩ := h entry hlookup hrep
  refine ⟨state, (find_loadRow_ne fun found hfound hsame => hother ?_).trans hfind, hzero⟩
  obtain ⟨hfoundmem, hfoundid⟩ := lookupEntry_some hfound
  obtain ⟨hmem, hid⟩ := lookupEntry_some hlookup
  obtain rfl := data.store.eq_of_repListId hmem hfoundmem hrep hsame.symm
  exact UInt16.toUInt32_inj.mp (hid.symm.trans hfoundid)

theorem Counted.loadRows (h : Counted data mgr) {rows : List ReputationMgr.Row}
    (hnodup : (rows.map ReputationMgr.Row.faction).Nodup)
    (hstart : ∀ row ∈ rows, AtStart data mgr row) :
    Counted data (rows.foldl (ReputationMgr.loadRow data) mgr) := by
  induction rows generalizing mgr with
  | nil => exact h
  | cons row rows ih =>
    rw [map_cons, nodup_cons] at hnodup
    refine ih (h.loadRow (hstart row mem_cons_self)) hnodup.2 fun other hother => ?_
    exact (hstart other (mem_cons_of_mem _ hother)).loadRow
      fun hsame => hnodup.1 (hsame ▸ mem_map_of_mem hother)

theorem counted_loadFromDB (data : ReputationData F) (table : ReputationMgr.CharacterReputation) :
    Counted data (ReputationMgr.loadFromDB data table) := by
  have hinit := counted_initializeFactions data
  refine hinit.loadRows table.factions_nodup fun row _ entry hlookup hrep => ?_
  exact ⟨_, find_initializeFactions (lookupEntry_some hlookup).1 hrep,
    rfl⟩

theorem Counted.saveToDB (h : Counted data mgr) (table : ReputationMgr.CharacterReputation) :
    Counted data (mgr.saveToDB table).1 := by
  apply h.map <;> intro state <;> rfl

end Loading

/-- The step of a run. -/
theorem Counted.run (h : Counted data mgr) (call : ReputationMgr.ReputationCall data)
    (hproper : Proper call mgr) : Counted data (call.run mgr) := by
  cases call with
  | initializeFactions => exact counted_initializeFactions data
  | loadFromDB table => exact counted_loadFromDB data table
  | saveToDB table => exact h.saveToDB table
  | setReputation call hmem =>
    obtain ⟨hspill, hprimary⟩ := hproper
    have hspilled : Counted data (mgr.spillOver data call) :=
      h.attempts (fun _ hcall => spilloverAttempts_mem hcall) hspill
    exact hspilled.attempts (fun _ hcall => primaryAttempts_mem hmem hcall) hprimary
  | setVisible entry _ =>
    change Counted data (mgr.setVisible data entry)
    rw [setVisible]
    split
    · exact h
    · cases hfind : mgr.find entry.repListId with
      | none => exact h
      | some state => exact h.setVisibleState hfind
  | setAtWar repListId on =>
    change Counted data (mgr.setAtWar data repListId on)
    rw [setAtWar]
    cases mgr.find repListId with
    | none => exact h
    | some state =>
      dsimp only
      split
      · exact h
      · exact h.setAtWarState state on
  | setInactive repListId on =>
    change Counted data (mgr.setInactive repListId on)
    rw [setInactive]
    cases mgr.find repListId with
    | none => exact h
    | some state => exact h.setInactiveState state on

def sampleFaction : FactionEntry where
  id := 21
  reputationRaceMask := [1]
  reputationClassMask := [0]
  reputationBase := [0]
  reputationMax := [42999]
  reputationFlags := [0]
  reputationIndex := 0
  parentFactionId := 0
  paragonFactionId := 0
  parentFactionCap := 0
  friendshipRepId := 0

def sampleData (paragon : Option ParagonReputation) : ReputationData Int32 where
  store := {
    entries := [sampleFaction]
    ids_nodup := by decide
    indexes_nodup := by decide
    ids_short := by decide }
  friendshipRepReactions _ := none
  paragonReputation id := if id = 21 then paragon else none
  repSpilloverTemplate _ := none
  factionTeamList _ := none
  parentFactionMod _ := (0, 0)
  arithmetic := { ofInt := id, mul := (· * ·), toInt := id, isZero := (· == 0) }
  reputationGain standing := standing
  race := 1
  classMask := 1

def sampleCall : ReputationMgr.SetReputationCall where
  quests := { none := fun _ => false, available := fun _ => false }
  entry := sampleFaction
  standing := 9000
  incremental := false

def sampleMgr (paragon : Option ParagonReputation) : ReputationMgr :=
  (ReputationMgr.initializeFactions (sampleData paragon)).setReputation (sampleData paragon) sampleCall

end LegionServer.Guarantees.ReputationCounters
