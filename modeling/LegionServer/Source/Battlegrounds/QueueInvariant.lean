import LegionServer.Source.Battlegrounds.PoolEffects

/-!
# Lists, groups and players of a battleground queue fit together

The invariant of a queue, and what keeps it: moving a group to another list, a group
that joins, and a player who leaves. A removal finds the group it looks for.
-/
namespace LegionServer.Source.Battlegrounds
open Library List Function Option BattlegroundQueue

variable {P : Type*} {q q' : BattlegroundQueue P} {ginfo : Address} {target origin : QueueIndex}

structure QueueShape (q : BattlegroundQueue P) : Prop where
  nodup : ∀ index, (q.queuedGroups index).Nodup
  unique : ∀ i j ginfo, ginfo ∈ q.queuedGroups i → ginfo ∈ q.queuedGroups j → i = j
  live_iff : ∀ ginfo, q.live ginfo = true ↔ ∃ index, ginfo ∈ q.queuedGroups index
  nonempty : ∀ ginfo, q.live ginfo = true → (q.groups ginfo).players ≠ []
  playersNodup : ∀ ginfo, q.live ginfo = true → (q.groups ginfo).players.Nodup
  queued : ∀ guid ginfo, q.queuedPlayers guid = some ginfo ↔
    q.live ginfo = true ∧ guid ∈ (q.groups ginfo).players

structure QueueOk (q : BattlegroundQueue P) : Prop where
  shape : QueueShape q
  teams : ∀ index, ∀ ginfo ∈ q.queuedGroups index, (q.groups ginfo).team = index.team

theorem QueueShape.same (h : QueueShape q) (hsame : SameLists q q') : QueueShape q' where
  nodup index := by
    rw [hsame.queuedGroups]
    exact h.nodup index
  unique i j ginfo hi hj := by
    rw [hsame.queuedGroups] at hi hj
    exact h.unique i j ginfo hi hj
  live_iff ginfo := by
    rw [hsame.live, hsame.queuedGroups]
    exact h.live_iff ginfo
  nonempty ginfo hlive := by
    rw [hsame.live] at hlive
    rw [hsame.players]
    exact h.nonempty ginfo hlive
  playersNodup ginfo hlive := by
    rw [hsame.live] at hlive
    rw [hsame.players]
    exact h.playersNodup ginfo hlive
  queued guid ginfo := by
    rw [hsame.queuedPlayers, hsame.live, hsame.players]
    exact h.queued guid ginfo

theorem QueueOk.same (h : QueueOk q) (hsame : SameQueue q q') : QueueOk q' where
  shape := h.shape.same hsame.toSameLists
  teams index ginfo hmem := by
    rw [hsame.queuedGroups] at hmem
    rw [hsame.team]
    exact h.teams index ginfo hmem

structure Moved (q q' : BattlegroundQueue P) (ginfo : Address) (target : QueueIndex) : Prop where
  live : q'.live = q.live
  players : ∀ other, (q'.groups other).players = (q.groups other).players
  queuedPlayers : q'.queuedPlayers = q.queuedPlayers
  nodup : ∀ index, (q'.queuedGroups index).Nodup
  mem : ∀ index other, other ∈ q'.queuedGroups index ↔
    if other = ginfo then index = target else other ∈ q.queuedGroups index

theorem QueueShape.moved (h : QueueShape q) (hmoved : Moved q q' ginfo target)
    (hlive : q.live ginfo = true) : QueueShape q' where
  nodup := hmoved.nodup
  unique i j other hi hj := by
    rw [hmoved.mem] at hi hj
    split at hi
    · rename_i heq
      rw [if_pos heq] at hj
      rw [hi, hj]
    · rename_i hne
      rw [if_neg hne] at hj
      exact h.unique i j other hi hj
  live_iff other := by
    rw [hmoved.live]
    simp only [hmoved.mem]
    split
    · rename_i heq
      rw [heq]
      exact ⟨fun _ => ⟨target, rfl⟩, fun _ => hlive⟩
    · exact h.live_iff other
  nonempty other hother := by
    rw [hmoved.live] at hother
    rw [hmoved.players]
    exact h.nonempty other hother
  playersNodup other hother := by
    rw [hmoved.live] at hother
    rw [hmoved.players]
    exact h.playersNodup other hother
  queued guid other := by
    rw [hmoved.queuedPlayers, hmoved.live, hmoved.players]
    exact h.queued guid other

/-- `push_front` on one list and `erase` from another. -/
theorem setLists_moved (h : QueueShape q) (horigin : ginfo ∈ q.queuedGroups origin)
    (hne : target ≠ origin) :
    Moved q ((q.setList target (ginfo :: q.queuedGroups target)).setList origin
      ((q.queuedGroups origin).erase ginfo)) ginfo target where
  live := rfl
  players _ := rfl
  queuedPlayers := rfl
  nodup index := by
    simp only [setList]
    by_cases hindex : index = origin
    · rw [hindex, update_self]
      exact (h.nodup origin).erase ginfo
    rw [update_of_ne hindex]
    by_cases htarget : index = target
    · rw [htarget, update_self]
      exact nodup_cons.mpr ⟨fun hmem => hne (h.unique _ _ _ hmem horigin), h.nodup target⟩
    · rw [update_of_ne htarget]
      exact h.nodup index
  mem index other := by
    simp only [setList]
    by_cases hindex : index = origin
    · rw [hindex, update_self, (h.nodup origin).mem_erase_iff]
      split
      · rename_i heq
        exact ⟨fun hmem => absurd heq hmem.1, fun hmem => absurd hmem.symm hne⟩
      · rename_i hother
        exact ⟨fun hmem => hmem.2, fun hmem => ⟨hother, hmem⟩⟩
    · rw [update_of_ne hindex]
      by_cases htarget : index = target
      · rw [htarget, update_self, mem_cons]
        split
        · rename_i heq
          exact ⟨fun _ => rfl, fun _ => .inl heq⟩
        · rename_i hother
          exact or_iff_right hother
      · rw [update_of_ne htarget]
        split
        · rename_i heq
          rw [heq]
          exact ⟨fun hmem => absurd (h.unique _ _ _ hmem horigin) hindex,
            fun hmem => absurd hmem htarget⟩
        · rfl

theorem Moved.same {q'' : BattlegroundQueue P} (h : Moved q q' ginfo target)
    (hsame : SameLists q' q'') : Moved q q'' ginfo target where
  live := hsame.live.trans h.live
  players other := (hsame.players other).trans (h.players other)
  queuedPlayers := hsame.queuedPlayers.trans h.queuedPlayers
  nodup := by
    rw [hsame.queuedGroups]
    exact h.nodup
  mem := by
    rw [hsame.queuedGroups]
    exact h.mem

theorem QueueOk.moved (h : QueueOk q) (hmoved : Moved q q' ginfo target)
    (hlive : q.live ginfo = true) (hteam : (q'.groups ginfo).team = target.team)
    (hothers : ∀ other, other ≠ ginfo → (q'.groups other).team = (q.groups other).team) :
    QueueOk q' where
  shape := h.shape.moved hmoved hlive
  teams index other hmem := by
    rw [hmoved.mem] at hmem
    split at hmem
    · rename_i heq
      rw [heq, hteam, hmem]
    · rename_i hne
      rw [hothers other hne]
      exact h.teams index other hmem

theorem QueueOk.live (h : QueueOk q) (hmem : ginfo ∈ q.queuedGroups origin) :
    q.live ginfo = true := (h.shape.live_iff ginfo).mpr ⟨origin, hmem⟩

section Joining

variable [LinearOrder P]

variable {players : List P}

theorem mem_insertPlayer {guid other : P} :
    other ∈ BattlegroundQueue.insertPlayer players guid ↔ other = guid ∨ other ∈ players := by
  unfold insertPlayer
  split
  · rename_i hmem
    exact ⟨.inr, fun h => h.elim (fun heq => heq ▸ hmem) id⟩
  · exact mem_orderedInsert _

theorem nodup_insertPlayer (h : players.Nodup) (guid : P) :
    (BattlegroundQueue.insertPlayer players guid).Nodup := by
  unfold insertPlayer
  split
  · exact h
  · rename_i hnew
    exact (perm_orderedInsert _ guid players).nodup_iff.mpr (nodup_cons.mpr ⟨hnew, h⟩)

theorem insertPlayers_spec (members players : List P) (h : players.Nodup) :
    (members.foldl BattlegroundQueue.insertPlayer players).Nodup ∧
      ∀ guid, guid ∈ members.foldl BattlegroundQueue.insertPlayer players ↔
        guid ∈ members ∨ guid ∈ players := by
  induction members generalizing players with
  | nil => exact ⟨h, fun guid => (or_iff_right not_mem_nil).symm⟩
  | cons member members ih =>
    obtain ⟨hnodup, hmem⟩ := ih _ (nodup_insertPlayer h member)
    refine ⟨hnodup, fun guid => ?_⟩
    rw [foldl_cons, hmem, mem_insertPlayer, mem_cons]
    tauto

theorem queuePlayers_spec (members : List P) (ginfo : Address) (queued : P → Option Address)
    (guid : P) :
    members.foldl (fun queued guid => Function.update queued guid (some ginfo)) queued guid =
      if guid ∈ members then some ginfo else queued guid := by
  induction members generalizing queued with
  | nil => rfl
  | cons member members ih =>
    rw [foldl_cons, ih]
    by_cases hmem : guid ∈ members
    · rw [if_pos hmem, if_pos (mem_cons_of_mem _ hmem)]
    rw [if_neg hmem]
    by_cases heq : guid = member
    · rw [heq, update_self, if_pos mem_cons_self]
    · rw [update_of_ne heq, if_neg]
      exact fun h => (mem_cons.mp h).elim heq hmem

/-- A group of players who are not queued joins at a free address. -/
theorem queueOk_addGroup (h : QueueOk q) (hfree : q.live ginfo = false) {members : List P}
    (hmembers : members ≠ []) (hnew : ∀ guid ∈ members, q.queuedPlayers guid = none)
    (gameTimeMS : UInt32) (team : Team) (bracketId : Fin MAX_BATTLEGROUND_BRACKETS)
    (isPremade : Bool) (arenaRating matchmakerRating arenateamid : UInt32) :
    QueueOk (q.addGroup ginfo gameTimeMS members team bracketId isPremade arenaRating
      matchmakerRating arenateamid) := by
  obtain ⟨hnodup, hkeys⟩ := insertPlayers_spec members [] nodup_nil
  have hunlisted : ∀ index, ginfo ∉ q.queuedGroups index := by
    intro index hmem
    exact absurd (hfree.symm.trans (h.live hmem)) (by decide)
  have hqueued := queuePlayers_spec members ginfo q.queuedPlayers
  unfold BattlegroundQueue.addGroup
  extract_lets index
  have hteam : index.team = team := rfl
  clear_value index
  have hlists : ∀ i other, other ∈ update q.queuedGroups index
      (q.queuedGroups index ++ [ginfo]) i ↔ other ∈ q.queuedGroups i ∨ i = index ∧ other = ginfo := by
    intro i other
    by_cases hi : i = index
    · rw [hi, update_self, mem_append, mem_singleton]
      simp only [true_and]
    · rw [update_of_ne hi]
      simp only [hi, false_and, or_false]
  have hlive : ∀ other, update q.live ginfo true other = true ↔
      other = ginfo ∨ q.live other = true := by
    intro other
    by_cases heq : other = ginfo
    · rw [heq, update_self]
      simp only [true_or]
    · rw [update_of_ne heq]
      simp only [heq, false_or]
  refine ⟨⟨?_, ?_, ?_, ?_, ?_, ?_⟩, ?_⟩
  · intro i
    dsimp only
    by_cases hi : i = index
    · rw [hi, update_self, nodup_append_comm]
      exact nodup_cons.mpr ⟨hunlisted index, h.shape.nodup index⟩
    · rw [update_of_ne hi]
      exact h.shape.nodup i
  · intro i j other hi hj
    rw [hlists] at hi hj
    rcases hi with hi | ⟨hi, heq⟩
    · rcases hj with hj | ⟨_, heq⟩
      · exact h.shape.unique i j other hi hj
      · exact absurd (heq ▸ hi) (hunlisted i)
    · rcases hj with hj | ⟨hj, _⟩
      · exact absurd (heq ▸ hj) (hunlisted j)
      · rw [hi, hj]
  · intro other
    rw [hlive, h.shape.live_iff]
    simp only [hlists]
    constructor
    · rintro (heq | ⟨i, hi⟩)
      · exact ⟨index, .inr ⟨rfl, heq⟩⟩
      · exact ⟨i, .inl hi⟩
    · rintro ⟨i, hi | ⟨_, heq⟩⟩
      · exact .inr ⟨i, hi⟩
      · exact .inl heq
  · intro other hother
    dsimp only
    by_cases heq : other = ginfo
    · rw [heq, update_self]
      obtain ⟨guid, hguid⟩ := exists_mem_of_ne_nil members hmembers
      exact ne_nil_of_mem ((hkeys guid).mpr (.inl hguid))
    · rw [update_of_ne heq]
      exact h.shape.nonempty other (((hlive other).mp hother).resolve_left heq)
  · intro other hother
    dsimp only
    by_cases heq : other = ginfo
    · rw [heq, update_self]
      exact hnodup
    · rw [update_of_ne heq]
      exact h.shape.playersNodup other (((hlive other).mp hother).resolve_left heq)
  · intro guid other
    dsimp only
    rw [hqueued, hlive]
    by_cases heq : other = ginfo
    · rw [heq, update_self]
      simp only [true_or, true_and, hkeys, not_mem_nil, or_false]
      split
      · rename_i hmem
        exact ⟨fun _ => hmem, fun _ => rfl⟩
      · rename_i hmem
        refine ⟨fun hold => ?_, fun hin => absurd hin hmem⟩
        exact absurd (hfree.symm.trans ((h.shape.queued guid ginfo).mp hold).1) (by decide)
    · rw [update_of_ne heq]
      simp only [heq, false_or]
      split
      · rename_i hmem
        refine ⟨fun hsome => absurd (Option.some.inj hsome).symm heq, fun hold => ?_⟩
        have hnone := hnew guid hmem
        rw [(h.shape.queued guid other).mpr hold] at hnone
        cases hnone
      · exact h.shape.queued guid other
  · intro i other hi
    rw [hlists] at hi
    dsimp only
    by_cases heq : other = ginfo
    · rcases hi with hi | ⟨hi, _⟩
      · exact absurd (heq ▸ hi) (hunlisted i)
      · rw [heq, update_self, hi, hteam]
    · rw [update_of_ne heq]
      exact h.teams i other (hi.resolve_right fun hin => heq hin.2)

end Joining

section Leaving

variable {index : QueueIndex}

theorem findGroup_spec (h : QueueOk q) (hmem : ginfo ∈ q.queuedGroups index) :
    q.findGroup ginfo = some index := by
  have hfound : (q.findGroup ginfo).isSome = true := by
    unfold findGroup
    rw [findSome?_isSome_iff]
    refine ⟨index.bracket, mem_reverse.mpr (mem_finRange _), ?_⟩
    rw [findSome?_isSome_iff]
    refine ⟨index.type, ?_, ?_⟩
    · cases index.type <;> decide
    · dsimp only
      rw [h.teams index ginfo hmem, if_pos hmem]
      rfl
  obtain ⟨found, hsome⟩ := isSome_iff_exists.mp hfound
  rw [hsome]
  obtain ⟨bracket, _, hbracket⟩ := exists_of_findSome?_eq_some hsome
  obtain ⟨type, _, htype⟩ := exists_of_findSome?_eq_some hbracket
  simp only [ite_none_right_eq_some, Option.some.injEq] at htype
  obtain ⟨hin, heq⟩ := htype
  rw [heq] at hin
  rw [h.shape.unique found index ginfo hin hmem]

variable [LinearOrder P] {guid : P}

/-- The player is gone from his group and from the map. -/
def left (q : BattlegroundQueue P) (ginfo : Address) (guid : P) : BattlegroundQueue P :=
  { q.modifyGroup ginfo fun group =>
      { group with players := (q.groups ginfo).players.erase guid } with
    queuedPlayers := Function.update q.queuedPlayers guid none }

theorem left_players (q : BattlegroundQueue P) (guid : P) (other : Address) :
    ((left q ginfo guid).groups other).players =
      if other = ginfo then (q.groups ginfo).players.erase guid else (q.groups other).players := by
  unfold left
  rw [modifyGroup_groups]
  split
  · rename_i heq
    rw [heq, update_self]
  · rename_i hne
    rw [update_of_ne hne]

theorem left_team (q : BattlegroundQueue P) (guid : P) (other : Address) :
    ((left q ginfo guid).groups other).team = (q.groups other).team := by
  unfold left
  rw [modifyGroup_groups]
  by_cases heq : other = ginfo
  · rw [heq, update_self]
  · rw [update_of_ne heq]

theorem left_queued (h : QueueShape q) (hguid : q.queuedPlayers guid = some ginfo) (other : P)
    (group : Address) :
    (left q ginfo guid).queuedPlayers other = some group ↔
      q.live group = true ∧ other ∈ ((left q ginfo guid).groups group).players := by
  obtain ⟨hlive, hmem⟩ := (h.queued guid ginfo).mp hguid
  rw [left_players]
  change update q.queuedPlayers guid none other = some group ↔ _
  by_cases hother : other = guid
  · rw [hother, update_self]
    refine ⟨fun hnone => (some_ne_none _ hnone.symm).elim, fun ⟨hgroup, hin⟩ => ?_⟩
    split at hin
    · exact absurd hin ((h.playersNodup ginfo hlive).not_mem_erase)
    · rename_i hne
      have hagain := (h.queued guid group).mpr ⟨hgroup, hin⟩
      rw [hguid] at hagain
      exact absurd (Option.some.inj hagain).symm hne
  · rw [update_of_ne hother, h.queued]
    split
    · rename_i heq
      rw [heq, mem_erase_of_ne hother]
    · rfl

theorem queueOk_left (h : QueueOk q) (hguid : q.queuedPlayers guid = some ginfo)
    (hplayers : (q.groups ginfo).players.erase guid ≠ []) : QueueOk (left q ginfo guid) where
  shape :=
    { nodup := h.shape.nodup
      unique := h.shape.unique
      live_iff := h.shape.live_iff
      nonempty := by
        intro other hlive
        rw [left_players]
        split
        · exact hplayers
        · exact h.shape.nonempty other hlive
      playersNodup := by
        intro other hlive
        rw [left_players]
        split
        · rename_i heq
          exact (h.shape.playersNodup ginfo (heq ▸ hlive)).erase guid
        · exact h.shape.playersNodup other hlive
      queued := left_queued h.shape hguid }
  teams index other hmem := by
    rw [left_team]
    exact h.teams index other hmem

theorem queueOk_leftLast (h : QueueOk q) (hguid : q.queuedPlayers guid = some ginfo)
    (hplayers : (q.groups ginfo).players.erase guid = []) (hindex : ginfo ∈ q.queuedGroups index) :
    QueueOk { (left q ginfo guid).setList index ((q.queuedGroups index).erase ginfo) with
      live := Function.update q.live ginfo false } := by
  have hlists : ∀ i other, other ∈ update q.queuedGroups index
      ((q.queuedGroups index).erase ginfo) i ↔ other ≠ ginfo ∧ other ∈ q.queuedGroups i := by
    intro i other
    by_cases hi : i = index
    · rw [hi, update_self, (h.shape.nodup index).mem_erase_iff]
    · rw [update_of_ne hi]
      refine ⟨fun hmem => ⟨?_, hmem⟩, fun hmem => hmem.2⟩
      rintro rfl
      exact hi (h.shape.unique i index _ hmem hindex)
  have hlive : ∀ other, update q.live ginfo false other = true ↔
      other ≠ ginfo ∧ q.live other = true := by
    intro other
    by_cases heq : other = ginfo
    · rw [heq, update_self]
      simp only [Bool.false_eq_true, ne_eq, not_true_eq_false, false_and]
    · rw [update_of_ne heq]
      simp only [ne_eq, heq, not_false_eq_true, true_and]
  refine ⟨⟨?_, ?_, ?_, ?_, ?_, ?_⟩, ?_⟩
  · intro i
    change (update q.queuedGroups index ((q.queuedGroups index).erase ginfo) i).Nodup
    by_cases hi : i = index
    · rw [hi, update_self]
      exact (h.shape.nodup index).erase ginfo
    · rw [update_of_ne hi]
      exact h.shape.nodup i
  · intro i j other hi hj
    exact h.shape.unique i j other ((hlists i other).mp hi).2 ((hlists j other).mp hj).2
  · intro other
    refine (hlive other).trans ?_
    rw [h.shape.live_iff]
    constructor
    · rintro ⟨hne, i, hi⟩
      exact ⟨i, (hlists i other).mpr ⟨hne, hi⟩⟩
    · rintro ⟨i, hi⟩
      obtain ⟨hne, hold⟩ := (hlists i other).mp hi
      exact ⟨hne, i, hold⟩
  · intro other hother
    obtain ⟨hne, hold⟩ := (hlive other).mp hother
    change ((left q ginfo guid).groups other).players ≠ []
    rw [left_players, if_neg hne]
    exact h.shape.nonempty other hold
  · intro other hother
    obtain ⟨hne, hold⟩ := (hlive other).mp hother
    change ((left q ginfo guid).groups other).players.Nodup
    rw [left_players, if_neg hne]
    exact h.shape.playersNodup other hold
  · intro player other
    refine (left_queued h.shape hguid player other).trans ?_
    refine Iff.trans ?_ (and_congr_left' (hlive other).symm)
    rw [and_assoc]
    refine ⟨fun hin => ⟨?_, hin⟩, fun hin => hin.2⟩
    rintro rfl
    have hmem := hin.2
    rw [left_players, if_pos rfl, hplayers] at hmem
    exact absurd hmem not_mem_nil
  · intro i other hmem
    change ((left q ginfo guid).groups other).team = i.team
    rw [left_team]
    exact h.teams i other ((hlists i other).mp hmem).2

/-- A removal of one player finds the group. The next player of a rated group that is not
invited yet is in the same group, which became smaller. -/
theorem removeOne_ends (h : QueueOk q) (guid : P) :
    Ends (fun _ => False) (q.removeOne guid) fun s => QueueOk s.1 ∧ ∀ next, s.2 = some next →
      ∃ ginfo, q.queuedPlayers guid = some ginfo ∧ s.1.queuedPlayers next = some ginfo ∧
        (s.1.groups ginfo).size < (q.groups ginfo).size := by
  unfold removeOne
  cases hguid : q.queuedPlayers guid with
  | none => exact Ends.ok ⟨h, fun _ hnext => (some_ne_none _ hnext.symm).elim⟩
  | some ginfo =>
    obtain ⟨hlive, hmem⟩ := (h.shape.queued guid ginfo).mp hguid
    obtain ⟨index, hindex⟩ := (h.shape.live_iff ginfo).mp hlive
    dsimp only
    rw [findGroup_spec h hindex]
    change Ends _ (if ((q.groups ginfo).players.erase guid).isEmpty = true then
      .ok ({ (left q ginfo guid).setList index ((q.queuedGroups index).erase ginfo) with
        live := update q.live ginfo false }, none)
      else if (!((left q ginfo guid).groups ginfo).invited && q.queueId.rated) = true then
        .ok (left q ginfo guid, ((q.groups ginfo).players.erase guid).head?)
      else .ok (left q ginfo guid, none)) _
    split
    · rename_i hempty
      exact Ends.ok ⟨queueOk_leftLast h hguid (isEmpty_iff.mp hempty) hindex,
        fun _ hnext => (some_ne_none _ hnext.symm).elim⟩
    · rename_i hplayers
      have hleft := queueOk_left h hguid fun hnil => hplayers (isEmpty_iff.mpr hnil)
      split
      · refine Ends.ok ⟨hleft, fun next hnext => ⟨ginfo, rfl, ?_, ?_⟩⟩
        · rw [left_queued h.shape hguid, left_players, if_pos rfl]
          exact ⟨hlive, mem_of_mem_head? hnext⟩
        · have hlength := length_erase_of_mem hmem
          have hpos := length_pos_of_mem hmem
          unfold GroupQueueInfo.size
          rw [left_players, if_pos rfl]
          omega
      · exact Ends.ok ⟨hleft, fun _ hnext => (some_ne_none _ hnext.symm).elim⟩

theorem removePlayer_ends (h : QueueOk q) (guid : P) :
    Ends (fun _ => False) (q.removePlayer guid) QueueOk := by
  apply Ends.map
  let rounds (s : BattlegroundQueue P × Option P) : Nat :=
    s.2.elim 0 fun next => (s.1.queuedPlayers next).elim 1 fun ginfo => (s.1.groups ginfo).size
  have hpos : ∀ s : BattlegroundQueue P × Option P, QueueOk s.1 → ∀ next, s.2 = some next →
      0 < rounds s := by
    intro s hok next hnext
    unfold rounds
    rw [hnext, elim_some]
    cases hqueued : s.1.queuedPlayers next with
    | none => exact Nat.one_pos
    | some ginfo => exact length_pos_of_mem ((hok.shape.queued next ginfo).mp hqueued).2
  refine Ends.mono (Ends.whileSome (fun s : BattlegroundQueue P × Option P => QueueOk s.1) rounds
    (fun s next hok hnext => hpos s hok next hnext) ?_ _ _ h ?_) fun s hs => hs.1
  rotate_left
  · unfold rounds
    rw [elim_some]
    dsimp only
    cases q.queuedPlayers guid <;> exact Nat.le_refl _
  intro s next hok hnext
  refine (removeOne_ends hok next).mono fun after hafter => ⟨hafter.1, ?_⟩
  cases hagain : after.2 with
  | none =>
    have hdone : rounds after = 0 := by
      unfold rounds
      rw [hagain, elim_none]
    rw [hdone]
    exact hpos s hok next hnext
  | some more =>
    obtain ⟨ginfo, hbefore, hnow, hless⟩ := hafter.2 more hagain
    have hstill : rounds after = (after.1.groups ginfo).size := by
      unfold rounds
      rw [hagain, elim_some, hnow, elim_some]
    have hold : rounds s = (s.1.groups ginfo).size := by
      unfold rounds
      rw [hnext, elim_some, hbefore, elim_some]
    rw [hstill, hold]
    exact hless

end Leaving

end LegionServer.Source.Battlegrounds
