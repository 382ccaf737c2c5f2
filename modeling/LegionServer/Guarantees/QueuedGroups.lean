import LegionServer.Library.Transition
import LegionServer.Source.Battlegrounds.QueueInvariant

/-!
# The representation of a battleground queue over whole runs

Through joining, leaving, invitations and updates of any bracket in any order: a group
that is allocated stands in exactly one list, of its own team, and has players; a queued
player points to the one group that lists him.
-/
namespace LegionServer.Guarantees.QueuedGroups
open Library Source.Battlegrounds List Function BattlegroundQueue

variable {P : Type*} {q q' : BattlegroundQueue P} {ginfo : Address}

section Premade

variable (bracketId : Fin MAX_BATTLEGROUND_BRACKETS)

theorem queueOk_movePremade (h : QueueOk q) (timeBefore : UInt32) (minPlayersPerTeam : Nat)
    (team : Team) : QueueOk (q.movePremade bracketId timeBefore minPlayersPerTeam team) := by
  unfold movePremade
  extract_lets premade normal
  split
  · exact h
  rename_i ginfo rest hpremade
  split
  · have hmem : ginfo ∈ q.queuedGroups premade := by
      rw [hpremade]
      exact mem_cons_self
    have hne : normal ≠ premade := by
      intro heq
      cases congrArg QueueIndex.type heq
    have hmoved := setLists_moved h.shape hmem hne
    rw [hpremade, erase_cons_head] at hmoved
    exact h.moved hmoved (h.live hmem) (h.teams premade ginfo hmem) fun _ _ => rfl
  · exact h

section
variable (h : QueueOk q) (env : Surroundings) (minPlayersPerTeam maxPlayersPerTeam : Nat)
include h

theorem queueOk_checkPremadeMatch :
    QueueOk (q.checkPremadeMatch env bracketId minPlayersPerTeam maxPlayersPerTeam).1 := by
  unfold checkPremadeMatch
  extract_lets notInvited
  split
  · exact h.same (setPools_same q _ _)
  · exact queueOk_movePremade bracketId (queueOk_movePremade bracketId h _ _ _) _ _ _

theorem queueOk_premadeMatch :
    QueueOk (q.premadeMatch env bracketId minPlayersPerTeam maxPlayersPerTeam).1 := by
  have hchecked := queueOk_checkPremadeMatch bracketId h env minPlayersPerTeam maxPlayersPerTeam
  unfold premadeMatch
  split
  · rename_i checked heq
    rw [heq] at hchecked
    split
    · exact hchecked
    · rename_i bg2 _
      have hinvited := invitePools_same env.gameTimeMS bg2 checked
      exact hchecked.same (hinvited.trans (initPools_same _))
  · rename_i checked heq
    rw [heq] at hchecked
    exact hchecked

end

end Premade

section Skirmish

variable (bracketId : Fin MAX_BATTLEGROUND_BRACKETS)

variable {mark : Address} {before after : List Address}

theorem eraseAfter_eq (hnodup : (before ++ mark :: after).Nodup) (hmem : ginfo ∈ after) :
    BattlegroundQueue.eraseAfter mark ginfo (before ++ mark :: after) =
        before ++ mark :: after.erase ginfo ∧
      (before ++ mark :: after).erase ginfo = before ++ mark :: after.erase ginfo := by
  induction before with
  | nil =>
    rw [nil_append, nodup_cons] at hnodup
    have hne : mark ≠ ginfo := fun heq => hnodup.1 (heq ▸ hmem)
    rw [nil_append, nil_append, eraseAfter, if_pos rfl,
      erase_cons_tail (by simpa using hne)]
    exact ⟨rfl, rfl⟩
  | cons first before ih =>
    rw [cons_append, nodup_cons, mem_append, mem_cons] at hnodup
    obtain ⟨hfirst, hrest⟩ := hnodup
    have hmark : first ≠ mark := fun heq => hfirst (.inr (.inl heq))
    have hne : first ≠ ginfo := fun heq => hfirst (.inr (.inr (heq ▸ hmem)))
    obtain ⟨hone, htwo⟩ := ih hrest
    rw [cons_append, cons_append, eraseAfter, if_neg hmark, hone,
      erase_cons_tail (by simpa using hne), htwo]
    exact ⟨rfl, rfl⟩

theorem addUninvited_selected (groups : Address → GroupQueueInfo P) (desiredCount : Nat)
    (list : List Address) (pool : SelectionPool) :
    ∃ added, added.Sublist list ∧ (SelectionPool.addUninvited groups desiredCount list
      pool).selectedGroups = pool.selectedGroups ++ added := by
  induction list generalizing pool with
  | nil => exact ⟨[], List.Sublist.refl _, (append_nil _).symm⟩
  | cons ginfo list ih =>
    unfold SelectionPool.addUninvited
    split
    · obtain ⟨added, hsub, hselected⟩ := ih pool
      exact ⟨added, hsub.cons ginfo, hselected⟩
    have hadd : (pool.addGroup groups ginfo desiredCount).1.selectedGroups =
          pool.selectedGroups ++ [ginfo] ∨
        (pool.addGroup groups ginfo desiredCount).1 = pool := by
      unfold SelectionPool.addGroup
      split
      · exact .inl rfl
      · exact .inr rfl
    split
    · rename_i grown heq
      rw [heq] at hadd
      obtain ⟨added, hsub, hselected⟩ := ih grown
      rcases hadd with hadd | hadd
      · refine ⟨ginfo :: added, hsub.cons_cons ginfo, ?_⟩
        rw [hselected, hadd, append_assoc, singleton_append]
      · refine ⟨added, hsub.cons ginfo, ?_⟩
        dsimp only at hadd
        rw [hselected, hadd]
    · rename_i grown heq
      rw [heq] at hadd
      rcases hadd with hadd | hadd
      · exact ⟨[ginfo], (nil_sublist list).cons_cons ginfo, hadd⟩
      · refine ⟨[], nil_sublist _, ?_⟩
        dsimp only at hadd
        rw [hadd, append_nil]

variable {team : Team}

theorem moveToOtherTeam_eq (q : BattlegroundQueue P) {ginfo : Address}
    (herase : BattlegroundQueue.eraseAfter mark ginfo
      (q.queuedGroups ⟨bracketId, .BG_QUEUE_NORMAL, team⟩) =
      (q.queuedGroups ⟨bracketId, .BG_QUEUE_NORMAL, team⟩).erase ginfo) :
    BattlegroundQueue.moveToOtherTeam bracketId team mark q ginfo =
      ((q.setList ⟨bracketId, .BG_QUEUE_NORMAL, team.other⟩
        (ginfo :: q.queuedGroups ⟨bracketId, .BG_QUEUE_NORMAL, team.other⟩)).setList
        ⟨bracketId, .BG_QUEUE_NORMAL, team⟩
        ((q.queuedGroups ⟨bracketId, .BG_QUEUE_NORMAL, team⟩).erase ginfo)).modifyGroup ginfo
        fun group => { group with team := team.other } := by
  have hne := QueueIndex.ne_other bracketId .BG_QUEUE_NORMAL team
  have hsame : update q.queuedGroups ⟨bracketId, .BG_QUEUE_NORMAL, team.other⟩
      (ginfo :: q.queuedGroups ⟨bracketId, .BG_QUEUE_NORMAL, team.other⟩)
      ⟨bracketId, .BG_QUEUE_NORMAL, team⟩ = q.queuedGroups ⟨bracketId, .BG_QUEUE_NORMAL, team⟩ :=
    update_of_ne hne _ _
  unfold moveToOtherTeam
  simp only [setList, BattlegroundQueue.modifyGroup, hsame, herase]

theorem queueOk_moveToOtherTeam (h : QueueOk q) {ginfo : Address}
    (hlist : q.queuedGroups ⟨bracketId, .BG_QUEUE_NORMAL, team⟩ = before ++ mark :: after)
    (hmem : ginfo ∈ after) :
    QueueOk (BattlegroundQueue.moveToOtherTeam bracketId team mark q ginfo) ∧
      (BattlegroundQueue.moveToOtherTeam bracketId team mark q ginfo).queuedGroups
        ⟨bracketId, .BG_QUEUE_NORMAL, team⟩ = before ++ mark :: after.erase ginfo := by
  have hnodup := h.shape.nodup ⟨bracketId, .BG_QUEUE_NORMAL, team⟩
  rw [hlist] at hnodup
  obtain ⟨hafter, herase⟩ := eraseAfter_eq hnodup hmem
  have horigin : ginfo ∈ q.queuedGroups ⟨bracketId, .BG_QUEUE_NORMAL, team⟩ := by
    rw [hlist]
    exact mem_append_right _ (mem_cons_of_mem _ hmem)
  have hne := (QueueIndex.ne_other bracketId .BG_QUEUE_NORMAL team).symm
  rw [moveToOtherTeam_eq bracketId q (by rw [hlist, hafter, herase])]
  have hmoved := setLists_moved h.shape horigin hne
  refine ⟨h.moved (hmoved.same (modifyGroup_lists _ ginfo fun _ => rfl)) (h.live horigin) ?_ ?_, ?_⟩
  · rw [modifyGroup_groups, update_self]
  · intro other hother
    rw [modifyGroup_groups, update_of_ne hother]
    rfl
  · rw [hlist, herase]
    exact update_self ..

theorem queueOk_moveSelected (selected : List Address) (h : QueueOk q) (hselected : selected.Nodup)
    (hlist : q.queuedGroups ⟨bracketId, .BG_QUEUE_NORMAL, team⟩ = before ++ mark :: after)
    (hmem : ∀ ginfo ∈ selected, ginfo ∈ after) :
    QueueOk (selected.foldl (BattlegroundQueue.moveToOtherTeam bracketId team mark) q) := by
  induction selected generalizing q after with
  | nil => exact h
  | cons ginfo selected ih =>
    obtain ⟨hfirst, hrest⟩ := nodup_cons.mp hselected
    obtain ⟨hmoved, hnow⟩ :=
      queueOk_moveToOtherTeam bracketId h hlist (hmem ginfo mem_cons_self)
    apply ih hmoved hrest hnow
    intro other hother
    refine (mem_erase_of_ne ?_).mpr (hmem other (mem_cons_of_mem _ hother))
    rintro rfl
    exact hfirst hother

theorem queueOk_checkSkirmish (h : QueueOk q) (minPlayersPerTeam : Nat) :
    QueueOk (q.checkSkirmishForSameFaction bracketId minPlayersPerTeam).1 := by
  unfold checkSkirmishForSameFaction
  split
  · exact h
  extract_lets team list cleared
  have hcleared : QueueOk cleared := h.same (setPool_same q _ _)
  split
  · exact hcleared
  rename_i mark _
  split
  · exact hcleared
  rename_i first rest hfound
  extract_lets pool filled
  have hfilled : QueueOk filled := hcleared.same (setPool_same cleared _ _)
  split
  · exact hfilled
  have hmark : first = mark := by
    have hhead := head?_dropWhile_not (fun ginfo => decide (ginfo ≠ mark)) list
    rw [hfound] at hhead
    simpa using hhead
  have hlist : filled.queuedGroups ⟨bracketId, .BG_QUEUE_NORMAL, team⟩ =
      list.takeWhile (fun ginfo => decide (ginfo ≠ mark)) ++ mark :: rest := by
    have hsplit : list.takeWhile (fun ginfo => decide (ginfo ≠ mark)) ++
        list.dropWhile (fun ginfo => decide (ginfo ≠ mark)) = list :=
      takeWhile_append_dropWhile
    rw [hfound, hmark] at hsplit
    exact hsplit.symm
  obtain ⟨added, hsub, hselected⟩ :=
    addUninvited_selected cleared.groups minPlayersPerTeam rest {}
  have hpool : pool.selectedGroups = added := hselected
  have hnodup := hfilled.shape.nodup ⟨bracketId, .BG_QUEUE_NORMAL, team⟩
  rw [hlist] at hnodup
  have hrest : rest.Nodup := (nodup_cons.mp hnodup.of_append_right).2
  rw [hpool]
  exact queueOk_moveSelected bracketId added hfilled (hsub.nodup hrest) hlist
    fun ginfo hginfo => hsub.subset hginfo

theorem queueOk_normalMatch (h : QueueOk q) (env : Surroundings) (isArena : Bool)
    (minPlayersPerTeam maxPlayersPerTeam : Nat) :
    QueueOk (q.normalMatch env bracketId isArena minPlayersPerTeam maxPlayersPerTeam) := by
  have hnormal := h.same (checkNormalMatch_same bracketId q env minPlayersPerTeam maxPlayersPerTeam)
  unfold normalMatch
  extract_lets checked
  have hchecked : QueueOk checked.1 := by
    unfold checked
    split
    · rename_i after heq
      rw [heq] at hnormal
      exact hnormal
    · rename_i after heq
      rw [heq] at hnormal
      split
      · exact queueOk_checkSkirmish bracketId hnormal minPlayersPerTeam
      · exact hnormal
  clear_value checked
  obtain ⟨after, found⟩ := checked
  cases found with
  | false => exact hchecked
  | true =>
    cases env.matchBattleground with
    | none => exact hchecked
    | some bg2 =>
      exact hchecked.same (invitePools_same env.gameTimeMS bg2 after)

end Skirmish

section Rated

variable (bracketId : Fin MAX_BATTLEGROUND_BRACKETS)

variable {aTeam hTeam : Address}

theorem findTeams_spec {env : Surroundings} {arenaRating : UInt32}
    (h : q.findTeams env bracketId arenaRating = some (aTeam, hTeam)) :
    (aTeam ∈ q.queuedGroups ⟨bracketId, .BG_QUEUE_PREMADE, .ALLIANCE⟩ ∧
      hTeam ∈ q.queuedGroups ⟨bracketId, .BG_QUEUE_PREMADE, .HORDE⟩) ∨
    ∃ team, aTeam ∈ q.queuedGroups ⟨bracketId, .BG_QUEUE_PREMADE, team⟩ ∧
      hTeam ∈ q.queuedGroups ⟨bracketId, .BG_QUEUE_PREMADE, team⟩ ∧ aTeam ≠ hTeam := by
  unfold findTeams at h
  extract_lets list matching second at h
  have hsecond : ∀ team found, (list team).find? matching = some found →
      second team found = some (aTeam, hTeam) →
      ∃ team, aTeam ∈ q.queuedGroups ⟨bracketId, .BG_QUEUE_PREMADE, team⟩ ∧
        hTeam ∈ q.queuedGroups ⟨bracketId, .BG_QUEUE_PREMADE, team⟩ ∧ aTeam ≠ hTeam := by
    intro team found hfound hpair
    obtain ⟨other, hother, heq⟩ := Option.map_eq_some_iff.mp hpair
    obtain ⟨rfl, rfl⟩ := Prod.mk.inj heq
    refine ⟨team, mem_of_find?_eq_some hfound,
      (dropWhile_sublist _).subset (mem_of_find?_eq_some hother), ?_⟩
    rintro rfl
    simpa using find?_some hother
  split at h
  · rename_i aFound hFound haTeam hhTeam
    obtain ⟨rfl, rfl⟩ := Prod.mk.inj (Option.some.inj h)
    exact .inl ⟨mem_of_find?_eq_some haTeam, mem_of_find?_eq_some hhTeam⟩
  · rename_i found hfound _
    exact .inr (hsecond _ _ hfound h)
  · rename_i found _ hfound
    exact .inr (hsecond _ _ hfound h)
  · cases h

variable {side : Team}

theorem moveTeam_same (hteam : (q.groups ginfo).team = side) :
    q.moveTeam bracketId side ginfo = q := by
  exact if_neg (not_not_intro hteam)

section
variable (h : QueueOk q)
include h

theorem moveTeam_moved (hmem : ginfo ∈ q.queuedGroups ⟨bracketId, .BG_QUEUE_PREMADE, side.other⟩) :
    Moved q (q.moveTeam bracketId side ginfo) ginfo ⟨bracketId, .BG_QUEUE_PREMADE, side⟩ ∧
      (q.moveTeam bracketId side ginfo).groups = q.groups := by
  have hne := QueueIndex.ne_other bracketId .BG_QUEUE_PREMADE side
  have hteam : (q.groups ginfo).team ≠ side := by
    rw [h.teams _ ginfo hmem]
    dsimp only
    cases side <;> decide
  have hsame : (q.setList ⟨bracketId, .BG_QUEUE_PREMADE, side⟩
      (ginfo :: q.queuedGroups ⟨bracketId, .BG_QUEUE_PREMADE, side⟩)).queuedGroups
      ⟨bracketId, .BG_QUEUE_PREMADE, side.other⟩ =
        q.queuedGroups ⟨bracketId, .BG_QUEUE_PREMADE, side.other⟩ :=
    update_of_ne hne.symm _ _
  unfold moveTeam
  rw [if_pos hteam]
  dsimp only
  rw [hsame]
  exact ⟨setLists_moved h.shape hmem hne, rfl⟩

theorem queueOk_invite_moved (gameTimeMS arena : UInt32)
    (hmoved : Moved q q' ginfo ⟨bracketId, .BG_QUEUE_PREMADE, side⟩) (hlive : q.live ginfo = true)
    (hothers : ∀ other, other ≠ ginfo → (q'.groups other).team = (q.groups other).team) :
    QueueOk (q'.inviteGroupToBG gameTimeMS ginfo arena (some side)) := by
  obtain ⟨hlists, hteam⟩ :=
    inviteGroupToBG_spec gameTimeMS arena q' ginfo (some side)
  apply h.moved (hmoved.same hlists) hlive
  · rw [hteam, if_pos rfl]
    rfl
  · intro other hother
    rw [hteam, if_neg hother]
    exact hothers other hother

theorem queueOk_invite_own {index : QueueIndex} (gameTimeMS arena : UInt32)
    (hmem : ginfo ∈ q.queuedGroups index) {side : Option Team}
    (hside : ∀ team, side = some team → team = index.team) :
    QueueOk (q.inviteGroupToBG gameTimeMS ginfo arena side) := by
  apply h.same
  apply inviteGroupToBG_same
  intro team hteam
  rw [h.teams index ginfo hmem]
  exact hside team hteam

/-- Two teams leave their queues together. -/
theorem queueOk_sendTeams (gameTimeMS arena : UInt32)
    (hteams : (aTeam ∈ q.queuedGroups ⟨bracketId, .BG_QUEUE_PREMADE, .ALLIANCE⟩ ∧
      hTeam ∈ q.queuedGroups ⟨bracketId, .BG_QUEUE_PREMADE, .HORDE⟩) ∨
      ∃ team, aTeam ∈ q.queuedGroups ⟨bracketId, .BG_QUEUE_PREMADE, team⟩ ∧
      hTeam ∈ q.queuedGroups ⟨bracketId, .BG_QUEUE_PREMADE, team⟩ ∧ aTeam ≠ hTeam) :
    QueueOk ((((q.moveTeam bracketId .ALLIANCE aTeam).moveTeam bracketId .HORDE
      hTeam).inviteGroupToBG gameTimeMS aTeam arena (some .ALLIANCE)).inviteGroupToBG
      gameTimeMS hTeam arena (some .HORDE)) := by
  have hown : ∀ (q' : BattlegroundQueue P) ginfo team, QueueOk q' →
      ginfo ∈ q'.queuedGroups ⟨bracketId, .BG_QUEUE_PREMADE, team⟩ →
      QueueOk (q'.inviteGroupToBG gameTimeMS ginfo arena (some team)) := by
    intro q' ginfo team hok hmem
    exact queueOk_invite_own hok gameTimeMS arena hmem fun _ heq => (Option.some.inj heq).symm
  have hlists : ∀ (q' : BattlegroundQueue P) ginfo side,
      (q'.inviteGroupToBG gameTimeMS ginfo arena side).queuedGroups = q'.queuedGroups :=
    fun q' ginfo side =>
      (inviteGroupToBG_spec gameTimeMS arena q' ginfo side).1.queuedGroups
  rcases hteams with ⟨hali, hhorde⟩ | ⟨team, hali, hhorde, hne⟩
  · rw [moveTeam_same bracketId (h.teams _ _ hali), moveTeam_same bracketId (h.teams _ _ hhorde)]
    refine hown _ _ _ (hown _ _ _ h hali) ?_
    rw [hlists]
    exact hhorde
  · cases team with
    | ALLIANCE =>
      have haTeam := h.teams _ _ hali
      obtain ⟨hmoved, hgroups⟩ :
        Moved q (q.moveTeam bracketId .HORDE hTeam) hTeam ⟨bracketId, .BG_QUEUE_PREMADE, .HORDE⟩ ∧
          (q.moveTeam bracketId .HORDE hTeam).groups = q.groups := moveTeam_moved bracketId h hhorde
      rw [moveTeam_same bracketId haTeam]
      have hside : ∀ team, some Team.ALLIANCE = some team →
          team = ((q.moveTeam bracketId .HORDE hTeam).groups aTeam).team := by
        intro team hteam
        rw [hgroups, haTeam]
        exact (Option.some.inj hteam).symm
      have hinvited := inviteGroupToBG_same gameTimeMS arena
        (q.moveTeam bracketId .HORDE hTeam) aTeam hside
      refine queueOk_invite_moved bracketId h gameTimeMS arena (hmoved.same hinvited.toSameLists)
        (h.live hhorde) fun other _ => ?_
      rw [hinvited.team, hgroups]
    | HORDE =>
      have hhTeam := h.teams _ _ hhorde
      obtain ⟨hmoved, hgroups⟩ : Moved q (q.moveTeam bracketId .ALLIANCE aTeam) aTeam
            ⟨bracketId, .BG_QUEUE_PREMADE, .ALLIANCE⟩ ∧
          (q.moveTeam bracketId .ALLIANCE aTeam).groups = q.groups :=
        moveTeam_moved bracketId h hali
      rw [moveTeam_same bracketId (by rw [hgroups]; exact hhTeam)]
      have hok := queueOk_invite_moved bracketId h gameTimeMS arena hmoved (h.live hali)
        fun other _ => by rw [hgroups]
      apply hown _ _ _ hok
      rw [hlists, hmoved.mem, if_neg hne.symm]
      exact hhorde

theorem queueOk_ratedMatch (env : Surroundings) (arenaRating : UInt32) :
    QueueOk (q.ratedMatch env bracketId arenaRating) := by
  unfold ratedMatch
  split
  · exact h
  split
  · rename_i aTeam hTeam arena hfound _
    extract_lets one two three four moved invited
    have hone : SameQueue q one :=
      modifyGroup_same q aTeam (fun _ => rfl) fun _ => rfl
    have htwo : SameQueue one two :=
      modifyGroup_same one hTeam (fun _ => rfl) fun _ => rfl
    have hthree : SameQueue two three :=
      modifyGroup_same two aTeam (fun _ => rfl) fun _ => rfl
    have hfour : SameQueue three four :=
      modifyGroup_same three hTeam (fun _ => rfl) fun _ => rfl
    have hsame : SameQueue q four := ((hone.trans htwo).trans hthree).trans hfour
    have hteams := findTeams_spec bracketId hfound
    exact queueOk_sendTeams bracketId (h.same hsame) env.gameTimeMS arena hteams
  · exact h

theorem update_ends (env : Surroundings) (arenaRating : UInt32) :
    Ends (fun _ => False) (q.update env bracketId arenaRating) QueueOk := by
  unfold BattlegroundQueue.update
  extract_lets empty
  split
  · exact Ends.ok h
  split
  · exact Ends.ok h
  rename_i template _
  apply Ends.map
  refine (fillFreeSlots_ends bracketId q env).mono fun filled hfilled => ?_
  extract_lets maxPlayers minPlayers started premade
  have hstarted : QueueOk started :=
    (h.same hfilled).same (initPools_same filled)
  have hpremade : QueueOk premade.1 := by
    unfold premade
    split
    · exact hstarted
    · exact queueOk_premadeMatch bracketId hstarted env minPlayers maxPlayers
  split
  · exact hpremade
  split
  · exact queueOk_normalMatch bracketId hpremade env template.isArena minPlayers maxPlayers
  · split
    · exact queueOk_ratedMatch bracketId hpremade env arenaRating
    · exact hpremade

end

end Rated

section Runs

theorem queueOk_init (queueId : BattlegroundQueueTypeId) :
    QueueOk ({ queueId } : BattlegroundQueue P) where
  shape :=
    { nodup := fun _ => nodup_nil
      unique := fun _ _ _ hi => absurd hi not_mem_nil
      live_iff := fun _ =>
        ⟨fun hlive => absurd hlive Bool.false_ne_true, fun ⟨_, hmem⟩ => absurd hmem not_mem_nil⟩
      nonempty := fun _ hlive => absurd hlive Bool.false_ne_true
      playersNodup := fun _ _ => nodup_nil
      queued := fun _ _ =>
        ⟨fun hsome => (Option.some_ne_none _ hsome.symm).elim,
          fun ⟨hlive, _⟩ => absurd hlive Bool.false_ne_true⟩ }
  teams _ _ hmem := absurd hmem not_mem_nil

variable [LinearOrder P]

/-- Players who are not in the queue join at a free address, and only groups of a list of the
side are invited for it. -/
def Allowed (q : BattlegroundQueue P) : QueueRequest P → Prop
  | .addGroup ginfo _ members _ _ _ _ _ _ =>
    q.live ginfo = false ∧ members ≠ [] ∧ ∀ guid ∈ members, q.queuedPlayers guid = none
  | .inviteGroupToBG _ ginfo _ side =>
    ∃ index, ginfo ∈ q.queuedGroups index ∧ ∀ team, side = some team → team = index.team
  | _ => True

def queueSystem (P : Type*) [LinearOrder P] : System (BattlegroundQueue P) (QueueRequest P) where
  init q := ∃ queueId, q = { queueId }
  step request q q' := Allowed q request ∧ q.handle request = .ok q'

theorem handle_ends (h : QueueOk q) {request : QueueRequest P} (hallowed : Allowed q request) :
    Ends (fun _ => False) (q.handle request) QueueOk := by
  cases request with
  | addGroup ginfo gameTimeMS members team bracketId isPremade arenaRating matchmakerRating
      arenateamid =>
    obtain ⟨hfree, hmembers, hnew⟩ := hallowed
    exact Ends.ok (queueOk_addGroup h hfree hmembers hnew ..)
  | removePlayer guid => exact removePlayer_ends h guid
  | inviteGroupToBG gameTimeMS ginfo instanceId side =>
    obtain ⟨index, hmem, hside⟩ := hallowed
    exact Ends.ok (queueOk_invite_own h gameTimeMS instanceId hmem hside)
  | update env bracketId arenaRating => exact update_ends bracketId h env arenaRating

theorem reachable_queueOk (h : (queueSystem P).Reachable q) : QueueOk q := by
  apply h.invariant
  · rintro _ ⟨queueId, rfl⟩
    exact queueOk_init queueId
  · intro request before after hok hstep
    exact (handle_ends hok hstep.1).post_of_ok hstep.2

/-- In every reachable state a group is allocated if and only if a list has it; it is then in
one list only, once, of its own team, and has players. -/
theorem reachable_queue_represented (h : (queueSystem P).Reachable q) :
    (∀ ginfo, q.live ginfo = true ↔ ∃ index, ginfo ∈ q.queuedGroups index) ∧
    (∀ ginfo, q.live ginfo = true → (∃! index, ginfo ∈ q.queuedGroups index) ∧
      (q.groups ginfo).players ≠ []) ∧
    (∀ index, (q.queuedGroups index).Nodup ∧
      ∀ ginfo ∈ q.queuedGroups index, (q.groups ginfo).team = index.team) ∧
    (∀ guid, (q.queuedPlayers guid).isSome = true ↔
      ∃! ginfo, q.live ginfo = true ∧ guid ∈ (q.groups ginfo).players) ∧
    (∀ guid ginfo, q.queuedPlayers guid = some ginfo →
      q.live ginfo = true ∧ guid ∈ (q.groups ginfo).players) ∧
    ∀ request, Allowed q request → ∃ q', q.handle request = .ok q' := by
  have hok := reachable_queueOk h
  refine ⟨hok.shape.live_iff, ?_, ?_, ?_, ?_, ?_⟩
  · intro ginfo hlive
    obtain ⟨index, hindex⟩ := (hok.shape.live_iff ginfo).mp hlive
    exact ⟨⟨index, hindex, fun other hother => hok.shape.unique other index ginfo hother hindex⟩,
      hok.shape.nonempty ginfo hlive⟩
  · exact fun index => ⟨hok.shape.nodup index, hok.teams index⟩
  · intro guid
    rw [Option.isSome_iff_exists]
    constructor
    · rintro ⟨ginfo, hqueued⟩
      refine ⟨ginfo, (hok.shape.queued guid ginfo).mp hqueued, fun other hother => ?_⟩
      have hagain := (hok.shape.queued guid other).mpr hother
      exact (Option.some.inj (hqueued.symm.trans hagain)).symm
    · rintro ⟨ginfo, hlists, _⟩
      exact ⟨ginfo, (hok.shape.queued guid ginfo).mpr hlists⟩
  · exact fun guid ginfo hqueued => (hok.shape.queued guid ginfo).mp hqueued
  · intro request hallowed
    have hends := handle_ends hok hallowed
    cases hafter : q.handle request with
    | ok q' => exact ⟨q', rfl⟩
    | error e => exact (hends.may_of_error hafter).elim

def hordeTeams : BattlegroundQueue Nat :=
  (({ queueId := ⟨true, 2⟩ } : BattlegroundQueue Nat).addGroup 1 100 [10, 11] .HORDE
    BG_BRACKET_ID_FIRST false 1500 1500 5).addGroup 2 200 [20, 21] .HORDE BG_BRACKET_ID_FIRST
    false 1510 1510 6

def arenaSurroundings : Surroundings where
  gameTimeMS := 1000
  template := some ⟨true, 0, 0⟩
  freeSlotQueue := []
  invitationType := .BG_QUEUE_INVITATION_TYPE_NO_BALANCE
  isTesting := false
  isArenaTesting := false
  premadeGroupWaitForMatch := 0
  maxRatingDifference := 150
  ratingDiscardTimer := 1000
  premadeBattleground := none
  matchBattleground := some 7

/-- The first of the teams plays for the Alliance and stands in its list, and both its
players can leave. -/
theorem reachable_queue_represented_rated :
    ∃ q : BattlegroundQueue Nat, hordeTeams.update arenaSurroundings BG_BRACKET_ID_FIRST 0 = .ok q ∧
      q.queuedGroups ⟨BG_BRACKET_ID_FIRST, .BG_QUEUE_PREMADE, .ALLIANCE⟩ = [1] ∧ (q.groups 1).team = .ALLIANCE ∧
      (∃ q', q.removePlayer 10 = .ok q') ∧ ∃ q', q.removePlayer 11 = .ok q' := by
  have hteams : (queueSystem Nat).Reachable hordeTeams :=
    .step (.addGroup 2 200 [20, 21] .HORDE BG_BRACKET_ID_FIRST false 1510 1510 6)
      (.step (.addGroup 1 100 [10, 11] .HORDE BG_BRACKET_ID_FIRST false 1500 1500 5) (.init ⟨⟨true, 2⟩, rfl⟩)
        ⟨⟨rfl, by decide, by decide⟩, rfl⟩) ⟨⟨by decide, by decide, by decide⟩, rfl⟩
  obtain ⟨q, hupdate⟩ :=
    (reachable_queue_represented hteams).2.2.2.2.2 (.update arenaSurroundings BG_BRACKET_ID_FIRST 0) trivial
  have hmatch : (hordeTeams.update arenaSurroundings BG_BRACKET_ID_FIRST 0).toOption.map (fun q =>
      (q.queuedGroups ⟨BG_BRACKET_ID_FIRST, .BG_QUEUE_PREMADE, .ALLIANCE⟩, (q.groups 1).team)) =
        some ([1], .ALLIANCE) := by
    decide
  change hordeTeams.update arenaSurroundings BG_BRACKET_ID_FIRST 0 = .ok q at hupdate
  rw [hupdate] at hmatch
  obtain ⟨hlist, hteam⟩ := Prod.mk.inj (Option.some.inj hmatch)
  have hreach : (queueSystem Nat).Reachable q := .step (.update arenaSurroundings BG_BRACKET_ID_FIRST 0) hteams
    ⟨trivial, hupdate⟩
  have hcalls := (reachable_queue_represented hreach).2.2.2.2.2
  exact ⟨q, hupdate, hlist, hteam, hcalls (.removePlayer 10) trivial,
    hcalls (.removePlayer 11) trivial⟩

end Runs

end LegionServer.Guarantees.QueuedGroups
