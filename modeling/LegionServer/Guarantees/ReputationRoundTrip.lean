import LegionServer.Source.Reputation.LoadedStates

/-!
# What a saved reputation is after it was loaded

Standings come back, and so does what was shown.
-/
namespace LegionServer.Guarantees.ReputationRoundTrip
open Library Source.Reputation ReputationFlags ReputationMgr FactionState List
open ReputationMgr (Matched Keeps Row CharacterReputation ReputationCall)

variable {F : Type*} {data : ReputationData F} {mgr after : ReputationMgr} {listId : UInt32}
  {state : FactionState} {entry : FactionEntry} {f : FactionState → FactionState}

/-- The calls between `Initialize` and `SaveToDB`. -/
def Played (call : ReputationCall data) (_ : ReputationMgr) : Prop :=
  match call with
  | .setReputation .. | .setVisible .. | .setAtWar .. | .setInactive .. => True
  | .initializeFactions | .loadFromDB _ | .saveToDB _ => False

def WarKept (data : ReputationData F) (mgr : ReputationMgr) (entry : FactionEntry)
    (flags : ReputationFlags) : Prop :=
  let start := data.getDefaultStateFlags entry
  let own := start.hasFlag ReputationFlags.peaceful && mgr.getRank data entry > REP_HATED
  if flags.hasFlag ReputationFlags.atWar then
    start.hasFlag ReputationFlags.atWar = true ∨ own = false
  else
    (start.hasFlag ReputationFlags.atWar = false ∨ flags.hasFlag ReputationFlags.visible = true) ∧
      (mgr.getRank data entry ≤ REP_HOSTILE → own = true)

def InactiveKept (data : ReputationData F) (entry : FactionEntry) (flags : ReputationFlags) : Prop :=
  (data.getDefaultStateFlags entry).hasFlag ReputationFlags.inactive = true →
    flags.hasFlag ReputationFlags.inactive = true

section Invariant

structure Grown (data : ReputationData F) (id : UInt32) (start flags : ReputationFlags) : Prop where
  fixed : ∀ flag, flag ≠ ReputationFlags.visible → flag ≠ ReputationFlags.atWar →
    flag ≠ ReputationFlags.inactive → flags.hasFlag flag = start.hasFlag flag
  kept : start.hasFlag ReputationFlags.visible = true → flags.hasFlag ReputationFlags.visible = true
  shown : flags.hasFlag ReputationFlags.visible = true →
    start.hasFlag ReputationFlags.visible = true ∨ ReputationMgr.cannotShow data id start = false
  rested : flags.hasFlag ReputationFlags.inactive = true →
    start.hasFlag ReputationFlags.inactive = true ∨ ReputationMgr.cannotRest flags = false

theorem Grown.cannotShow_eq {id : UInt32} {start flags : ReputationFlags}
    (h : Grown data id start flags) :
    ReputationMgr.cannotShow data id flags = ReputationMgr.cannotShow data id start := by
  rw [cannotShow, cannotShow, h.fixed _ (by decide) (by decide) (by decide),
    h.fixed _ (by decide) (by decide) (by decide), h.fixed _ (by decide) (by decide) (by decide)]

theorem Grown.refl (data : ReputationData F) (id : UInt32) (start : ReputationFlags) :
    Grown data id start start where
  fixed _ _ _ _ := rfl
  kept h := h
  shown h := Or.inl h
  rested h := Or.inl h

theorem Grown.show {id : UInt32} {start flags : ReputationFlags} (h : Grown data id start flags)
    (hshow : ReputationMgr.cannotShow data id flags = false) :
    Grown data id start (flags.change ReputationFlags.visible true) where
  fixed flag hvisible hwar hinactive := by
    rw [hasFlag_change _ (by decide), if_neg hvisible]
    exact h.fixed flag hvisible hwar hinactive
  kept _ := by
    rw [hasFlag_change _ (by decide), if_pos rfl]
  shown _ := Or.inr (h.cannotShow_eq ▸ hshow)
  rested hon := by
    rw [hasFlag_change _ (by decide), if_neg (by decide)] at hon
    apply (h.rested hon).imp_right
    intro hrest
    simp only [cannotRest, Bool.or_eq_false_iff,
      hasFlag_change _ (show visible < 16 by decide)] at hrest ⊢
    exact ⟨hrest.1, rfl⟩

theorem Grown.war {id : UInt32} {start flags : ReputationFlags} (h : Grown data id start flags)
    (on : Bool) : Grown data id start (flags.change ReputationFlags.atWar on) where
  fixed flag hvisible hwar hinactive := by
    rw [hasFlag_change _ (by decide), if_neg hwar]
    exact h.fixed flag hvisible hwar hinactive
  kept hstart := by
    rw [hasFlag_change _ (by decide), if_neg (by decide)]
    exact h.kept hstart
  shown hon := by
    rw [hasFlag_change _ (by decide), if_neg (by decide)] at hon
    exact h.shown hon
  rested hon := by
    rw [hasFlag_change _ (by decide), if_neg (by decide)] at hon
    apply (h.rested hon).imp_right
    intro hrest
    simp only [cannotRest, Bool.or_eq_false_iff,
      hasFlag_change _ (show atWar < 16 by decide)] at hrest ⊢
    exact hrest

theorem Grown.rest {id : UInt32} {start flags : ReputationFlags} (h : Grown data id start flags)
    (hrest : ReputationMgr.cannotRest flags = false) (on : Bool) :
    Grown data id start (flags.change ReputationFlags.inactive on) where
  fixed flag hvisible hwar hinactive := by
    rw [hasFlag_change _ (by decide), if_neg hinactive]
    exact h.fixed flag hvisible hwar hinactive
  kept hstart := by
    rw [hasFlag_change _ (by decide), if_neg (by decide)]
    exact h.kept hstart
  shown hon := by
    rw [hasFlag_change _ (by decide), if_neg (by decide)] at hon
    exact h.shown hon
  rested _ := by
    simp only [cannotRest, Bool.or_eq_false_iff,
      hasFlag_change _ (show inactive < 16 by decide)] at hrest ⊢
    exact Or.inr hrest

structure Dirty (data : ReputationData F) (mgr : ReputationMgr) : Prop where
  matched : mgr.Matched data
  complete : ∀ entry ∈ data.store.entries, entry.canHaveReputation = true →
    ∃ state, mgr.find entry.repListId = some state
  save : ∀ state ∈ mgr.factions, state.needSave = true
  grown : ∀ state ∈ mgr.factions, ∀ entry, data.store.lookupEntry state.id = some entry →
    Grown data state.id (data.getDefaultStateFlags entry) state.flags

theorem Dirty.of_factions (h : Dirty data mgr) (hfactions : after.factions = mgr.factions) :
    Dirty data after where
  matched := ⟨hfactions ▸ h.matched.keys, hfactions ▸ h.matched.entry⟩
  complete entry hentry hrep := by
    obtain ⟨state, hfind⟩ := h.complete entry hentry hrep
    exact ⟨state, by rw [find, hfactions]; exact hfind⟩
  save := hfactions ▸ h.save
  grown := hfactions ▸ h.grown

theorem Dirty.change (h : Dirty data mgr) (hfind : mgr.find listId = some state)
    (hid : ∀ state, (f state).id = state.id)
    (hlist : ∀ state, (f state).reputationListId = state.reputationListId)
    (hsave : (f state).needSave = true)
    (hgrown : ∀ start, Grown data state.id start state.flags →
      Grown data state.id start (f state).flags) : Dirty data (mgr.change listId f) where
  matched := h.matched.change listId hid hlist
  complete entry hentry hrep := by
    obtain ⟨old, hold⟩ := h.complete entry hentry hrep
    rw [find_change hlist, hold]
    exact ⟨_, rfl⟩
  save new hnew := by
    obtain ⟨old, hold, rfl⟩ := mem_change.mp hnew
    split
    · rename_i hkey
      have hsame := h.matched.find_mem hold
      rw [hkey, hfind] at hsame
      rw [← Option.some.inj hsame]
      exact hsave
    · exact h.save old hold
  grown new hnew entry hentry := by
    obtain ⟨old, hold, rfl⟩ := mem_change.mp hnew
    by_cases hkey : old.reputationListId = listId
    · rw [if_pos hkey] at hentry ⊢
      have hsame := h.matched.find_mem hold
      rw [hkey, hfind] at hsame
      obtain rfl := Option.some.inj hsame
      rw [hid] at hentry ⊢
      exact hgrown _ (h.grown state hold entry hentry)
    · rw [if_neg hkey] at hentry ⊢
      exact h.grown old hold entry hentry

theorem Dirty.setVisibleState (h : Dirty data mgr) (hfind : mgr.find listId = some state) :
    Dirty data (mgr.setVisibleState data state) := by
  obtain rfl := (find_some hfind).2
  rw [setVisibleState]
  split
  · exact h
  rename_i hshow
  rw [Bool.or_eq_true, not_or, Bool.not_eq_true] at hshow
  have hchange := h.change hfind (id_setFlag visible true)
    (reputationListId_setFlag _ _) rfl fun start hgrown => hgrown.show hshow.1
  exact hchange.of_factions rfl

theorem Dirty.setAtWarState (h : Dirty data mgr) (hfind : mgr.find listId = some state)
    (atWar : Bool) : Dirty data (mgr.setAtWarState data state atWar) := by
  obtain rfl := (find_some hfind).2
  rw [setAtWarState]
  split
  · exact h
  · split
    · exact h
    · exact h.change hfind (id_setFlag ReputationFlags.atWar atWar)
        (reputationListId_setFlag _ _) rfl fun start hgrown => hgrown.war atWar

theorem Dirty.setInactiveState (h : Dirty data mgr) (hfind : mgr.find listId = some state)
    (inactive : Bool) : Dirty data (mgr.setInactiveState state inactive) := by
  obtain rfl := (find_some hfind).2
  rw [setInactiveState]
  split
  · exact h
  rename_i hrest
  rw [Bool.not_eq_true] at hrest
  split
  · exact h
  · exact h.change hfind (id_setFlag ReputationFlags.inactive inactive)
      (reputationListId_setFlag _ _) rfl fun start hgrown => hgrown.rest hrest inactive

variable {quests : QuestView} {incremental : Bool}

theorem Dirty.setOneFactionReputation (h : Dirty data mgr) (entry : FactionEntry) (standing : Int32) :
    Dirty data (mgr.setOneFactionReputation data quests entry standing incremental) := by
  rw [ReputationMgr.setOneFactionReputation]
  cases hfind : mgr.find entry.repListId with
  | none => exact h
  | some state =>
    obtain hkey := (find_some hfind).2
    dsimp only
    generalize mgr.newStanding data quests entry
      (state.standing + data.getBaseReputation entry) standing incremental = standing
    generalize hwar : (if (!data.isParagonReputation entry &&
        decide (data.reputationToRank entry standing ≤ REP_HOSTILE)) = true then
      mgr.setAtWarState data state true else mgr) = between
    obtain ⟨hbetween, state', hfind'⟩ : Dirty data between ∧ ∃ state',
        between.find state.reputationListId = some state' := by
      rw [← hwar, hkey]
      split
      · obtain ⟨needSave, hfind'⟩ := ReputationMgr.Keeps.setAtWarState data hfind true
        exact ⟨h.setAtWarState hfind true, _, hfind'⟩
      · exact ⟨h, state, hfind⟩
    generalize hafter : ReputationMgr.change _ state.reputationListId _ = after
    have hdirty : Dirty data after := by
      have hchange := hbetween.change (f := fun s => { s with
        standing := standing - data.getBaseReputation entry, needSave := true }) hfind'
        (fun _ => rfl) (fun _ => rfl) rfl fun start hgrown => hgrown
      rw [← hafter]
      apply hchange.of_factions
      split <;> rfl
    split
    · exact hdirty
    · rename_i found hfound
      exact hdirty.setVisibleState hfound

theorem Dirty.attempts (h : Dirty data mgr) (calls : List ReputationMgr.Attempt) :
    Dirty data (calls.foldl (ReputationMgr.attempt data quests incremental) mgr) := by
  induction calls generalizing mgr with
  | nil => exact h
  | cons call calls ih =>
    apply ih
    rw [attempt]
    split
    · exact h.setOneFactionReputation call.entry call.standing
    · exact h

theorem dirty_initializeFactions (data : ReputationData F) :
    Dirty data (ReputationMgr.initializeFactions data) where
  matched := matched_initializeFactions data
  complete entry hentry hrep := ⟨_, find_initializeFactions hentry hrep⟩
  save state hmem := by
    obtain ⟨entry, _, _, rfl⟩ := mem_initializeFactions.mp hmem
    rfl
  grown state hmem entry hentry := by
    obtain ⟨found, hfound, _, rfl⟩ := mem_initializeFactions.mp hmem
    rw [initialState, data.store.lookupEntry_mem hfound] at hentry
    obtain rfl := Option.some.inj hentry
    exact Grown.refl data _ _

theorem Dirty.run (h : Dirty data mgr) (call : ReputationCall data) (hplayed : Played call mgr) :
    Dirty data (call.run mgr) := by
  cases call with
  | initializeFactions => exact hplayed.elim
  | loadFromDB table => exact hplayed.elim
  | saveToDB table => exact hplayed.elim
  | setReputation call hmem => exact (h.attempts _).attempts _
  | setVisible entry _ =>
    change Dirty data (mgr.setVisible data entry)
    rw [setVisible]
    split
    · exact h
    · cases hfind : mgr.find entry.repListId with
      | none => exact h
      | some state => exact h.setVisibleState hfind
  | setAtWar repListId on =>
    change Dirty data (mgr.setAtWar data repListId on)
    rw [setAtWar]
    cases hfind : mgr.find repListId with
    | none => exact h
    | some state =>
      dsimp only
      split
      · exact h
      · exact h.setAtWarState hfind on
  | setInactive repListId on =>
    change Dirty data (mgr.setInactive repListId on)
    rw [setInactive]
    cases hfind : mgr.find repListId with
    | none => exact h
    | some state => exact h.setInactiveState hfind on

theorem dirty_of_leads (h : ((ReputationMgr.reputationSystem data).guarded Played).Leads
      (ReputationMgr.initializeFactions data) mgr) : Dirty data mgr := by
  induction h with
  | refl => exact dirty_initializeFactions data
  | tail _ hstep ih =>
    obtain ⟨call, hplayed, rfl⟩ := hstep
    exact ih.run call hplayed

end Invariant

section Flags

variable {id : UInt32} {start flags : ReputationFlags}

theorem hasFlag_shownFlags (h : Grown data id start flags) (flag : Nat) :
    (ReputationMgr.shownFlags data id flags start).hasFlag flag =
      if flag = ReputationFlags.visible then flags.hasFlag flag else start.hasFlag flag := by
  rw [shownFlags]
  by_cases hflag : flag = visible
  · rw [if_pos hflag, hflag]
    cases hsaved : flags.hasFlag visible with
    | true =>
      rw [Bool.true_and]
      split
      · rw [hasFlag_change _ (by decide), if_pos rfl]
      rename_i hshow
      rw [Bool.not_eq_true, Bool.not_eq_false'] at hshow
      rcases h.shown hsaved with hstart | hfree
      · exact hstart
      · exact absurd (hfree.symm.trans hshow) Bool.false_ne_true
    | false =>
      rw [Bool.false_and, if_neg Bool.false_ne_true, ← Bool.not_eq_true]
      intro hstart
      exact absurd (hsaved.symm.trans (h.kept hstart)) Bool.false_ne_true
  · rw [if_neg hflag]
    split
    · rw [hasFlag_change _ (by decide), if_neg hflag]
    · rfl

theorem hasFlag_restedFlags (h : Grown data id start flags) (flag : Nat) :
    (ReputationMgr.restedFlags flags (ReputationMgr.shownFlags data id flags start)).hasFlag flag =
      if flag = ReputationFlags.visible then flags.hasFlag flag
      else if flag = ReputationFlags.inactive then flags.hasFlag flag || start.hasFlag flag
      else start.hasFlag flag := by
  have hshown := hasFlag_shownFlags h
  have hrest : ReputationMgr.cannotRest (ReputationMgr.shownFlags data id flags start) =
      ReputationMgr.cannotRest flags := by
    rw [cannotRest, cannotRest, hshown, hshown, hshown,
      h.fixed ReputationFlags.hidden (by decide) (by decide) (by decide),
      h.fixed ReputationFlags.header (by decide) (by decide) (by decide)]
    rfl
  rw [restedFlags, hrest]
  by_cases hflag : flag = ReputationFlags.inactive
  · have hne : inactive ≠ visible := by decide
    rw [hflag, if_neg hne, if_pos rfl]
    cases hsaved : flags.hasFlag inactive with
    | true =>
      rw [Bool.true_and, Bool.true_or]
      split
      · rw [hasFlag_change _ (by decide), if_pos rfl]
      rename_i hcannot
      rw [Bool.not_eq_true, Bool.not_eq_false'] at hcannot
      rw [hshown, if_neg (by decide)]
      rcases h.rested hsaved with hstart | hfree
      · exact hstart
      · exact absurd (hfree.symm.trans hcannot) Bool.false_ne_true
    | false =>
      rw [Bool.false_and, if_neg Bool.false_ne_true, Bool.false_or, hshown, if_neg (by decide)]
  · rw [if_neg hflag, ← hshown]
    split
    · rw [hasFlag_change _ (by decide), if_neg hflag]
    · rfl

theorem hasFlag_warFlags (rank : ReputationRank) (flag : Nat) :
    (ReputationMgr.warFlags rank start flags).hasFlag flag =
      if flag = ReputationFlags.atWar then
        if start.hasFlag ReputationFlags.atWar then
          flags.hasFlag flag || !ReputationMgr.isOwn rank flags
        else flags.hasFlag flag && !flags.hasFlag ReputationFlags.visible
      else flags.hasFlag flag := by
  rw [warFlags]
  have hwar : atWar < 16 := by decide
  by_cases hsaved : start.hasFlag atWar = true
  · cases hown : isOwn rank flags <;>
      simp [hsaved, hasFlag_change _ hwar]
  · cases hvisible : flags.hasFlag visible <;>
      simp [hsaved, hasFlag_change _ hwar]

theorem hasFlag_hostileFlags (rank : ReputationRank) (flag : Nat) :
    (ReputationMgr.hostileFlags rank flags).hasFlag flag =
      if flag = ReputationFlags.atWar then
        flags.hasFlag flag || (decide (rank ≤ REP_HOSTILE) && !ReputationMgr.isOwn rank flags)
      else flags.hasFlag flag := by
  rw [hostileFlags]
  split
  · rename_i hset
    rw [hset, hasFlag_change _ (by decide), Bool.or_true]
  · rename_i hkeep
    rw [Bool.not_eq_true] at hkeep
    rw [hkeep, Bool.or_false, ite_self]

def warAfter (rank : ReputationRank) (start flags : ReputationFlags) : Bool :=
  let own := ReputationMgr.isOwn rank start
  if flags.hasFlag ReputationFlags.atWar then start.hasFlag ReputationFlags.atWar || !own
  else (start.hasFlag ReputationFlags.atWar && !flags.hasFlag ReputationFlags.visible) ||
    (decide (rank ≤ REP_HOSTILE) && !own)

theorem hasFlag_loadedFlags (standing : Int32) (faction : UInt16)
    (h : Grown data entry.id start flags) (flag : Nat) :
    (ReputationMgr.loadedFlags data entry ⟨faction, standing, flags⟩ start).hasFlag flag =
      if flag = ReputationFlags.atWar then warAfter
        (data.reputationToRank entry (data.getBaseReputation entry + standing)) start flags
      else if flag = ReputationFlags.visible then flags.hasFlag flag
      else if flag = ReputationFlags.inactive then flags.hasFlag flag || start.hasFlag flag
      else start.hasFlag flag := by
  have hrested := hasFlag_restedFlags h
  rw [loadedFlags]
  generalize restedFlags flags (shownFlags data entry.id flags start) =
    rested at hrested ⊢
  generalize data.reputationToRank entry (data.getBaseReputation entry + standing) = rank
  have hown : isOwn rank rested = isOwn rank start := by
    rw [isOwn, hrested, isOwn]
    rfl
  have hown' : isOwn rank (warFlags rank flags rested) =
      isOwn rank start := by
    rw [← hown, isOwn, hasFlag_warFlags, if_neg (by decide), isOwn]
  rw [hasFlag_hostileFlags, hasFlag_warFlags, hown', hown]
  by_cases hflag : flag = atWar
  · have hstart : rested.hasFlag atWar = start.hasFlag atWar := by
      rw [hrested, if_neg (by decide), if_neg (by decide)]
    have hvisible : rested.hasFlag visible =
        flags.hasFlag visible := by
      rw [hrested, if_pos rfl]
    simp only [hflag, if_true, hstart, hvisible, warAfter]
    -- a war that was saved is not declared once more
    cases flags.hasFlag atWar with
    | true =>
      cases start.hasFlag atWar <;> cases isOwn rank start <;> simp
    | false => rfl
  · simp only [hflag, if_false]
    exact hrested flag

theorem warAfter_eq_iff (rank : ReputationRank) :
    warAfter rank start flags = flags.hasFlag ReputationFlags.atWar ↔
      if flags.hasFlag ReputationFlags.atWar then
        start.hasFlag ReputationFlags.atWar = true ∨ ReputationMgr.isOwn rank start = false
      else
        (start.hasFlag ReputationFlags.atWar = false ∨
            flags.hasFlag ReputationFlags.visible = true) ∧
          (rank ≤ REP_HOSTILE → ReputationMgr.isOwn rank start = true) := by
  rw [warAfter]
  cases flags.hasFlag atWar <;> cases start.hasFlag atWar <;> simp

end Flags

variable {table saved : CharacterReputation}

def visibleFaction : FactionEntry where
  id := 21
  reputationRaceMask := [1]
  reputationClassMask := [0]
  reputationBase := [0]
  reputationMax := [42999]
  reputationFlags := [1]
  reputationIndex := 0
  parentFactionId := 0
  paragonFactionId := 0
  parentFactionCap := 0
  friendshipRepId := 0

def visibleData : ReputationData Int32 where
  store := {
    entries := [visibleFaction]
    ids_nodup := by decide
    indexes_nodup := by decide
    ids_short := by decide }
  friendshipRepReactions _ := none
  paragonReputation _ := none
  repSpilloverTemplate _ := none
  factionTeamList _ := none
  parentFactionMod _ := (0, 0)
  arithmetic := { ofInt := id, mul := (· * ·), toInt := id, isZero := (· == 0) }
  reputationGain standing := standing
  race := 1
  classMask := 1

def hostileCall : ReputationMgr.SetReputationCall where
  quests := { none := fun _ => false, available := fun _ => false }
  entry := visibleFaction
  standing := -4000
  incremental := false

def hostileMgr : ReputationMgr :=
  (ReputationMgr.initializeFactions visibleData).setReputation visibleData hostileCall

theorem leads_hostile : ((ReputationMgr.reputationSystem visibleData).guarded Played).Leads
    (ReputationMgr.initializeFactions visibleData) hostileMgr :=
  Relation.ReflTransGen.single ⟨.setReputation hostileCall mem_cons_self, trivial, rfl⟩

def warMgr : ReputationMgr := hostileMgr.setAtWar visibleData 0 true

def peaceMgr : ReputationMgr := hostileMgr.setAtWar visibleData 0 false

def noRows : CharacterReputation := ⟨[], nodup_nil⟩

end LegionServer.Guarantees.ReputationRoundTrip
