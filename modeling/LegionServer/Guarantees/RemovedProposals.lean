import LegionServer.Source.DungeonFinding.QueueEffects
import Mathlib.Data.Finset.Max

/-!
# Removed proposals

Whoever does not accept a proposal leaves the queue with the whole entry, and every other
entry gets its place back.
-/
namespace LegionServer.Guarantees.RemovedProposals
open Library Source.DungeonFinding Source.Objects Option LFGMgr LfgProposal List

variable {mgr : LFGMgr} {proposal : LfgProposal} {type : LfgUpdateType} {q : LFGQueue}
  {e : ObjectGuid}

def queueIdOf (mgr : LFGMgr) (proposal : LfgProposal) : Fin 256 :=
  mgr.getQueueId ((proposal.players.map Prod.fst).headD .empty)

/-- An entry that waits for the end of a proposal: it has its data and is in no current list. -/
def SetAside (q : LFGQueue) (e : ObjectGuid) : Prop :=
  (q.dataOf e).isSome ∧ e ∉ q.currentQueueStore

instance (q : LFGQueue) : DecidablePred (SetAside q) :=
  fun _ => inferInstanceAs (Decidable (_ ∧ _))

structure Removed (proposal : LfgProposal) (type : LfgUpdateType) (mgr mgr' : LFGMgr) : Prop where
  gone : ∀ e, proposal.Dropped type e → (mgr'.queueAt (queueIdOf mgr proposal)).Gone e
  once : ∀ e ∈ proposal.queues, ¬proposal.Dropped type e →
    (mgr'.queueAt (queueIdOf mgr proposal)).currentQueueStore.count e = 1
  kept : ∀ e ∈ proposal.queues, ¬proposal.Dropped type e →
    ∃ data data', (mgr.queueAt (queueIdOf mgr proposal)).dataOf e = some data ∧
      (mgr'.queueAt (queueIdOf mgr proposal)).dataOf e = some data' ∧
      LfgQueueData.SameEntry data data'
  queued : ∀ it ∈ proposal.players, ¬proposal.Dropped type (LfgProposal.entryOf it) →
    mgr'.getState it.1 = .queued
  others : ∀ e ∉ proposal.queues, LFGQueue.Stays (mgr.queueAt (queueIdOf mgr proposal))
    (mgr'.queueAt (queueIdOf mgr proposal)) e
  otherQueues : ∀ queueId ≠ queueIdOf mgr proposal, mgr'.queueAt queueId = mgr.queueAt queueId

theorem queueAt_setQueueAt (mgr : LFGMgr) (q : LFGQueue) (queueId other : Fin 256) :
    (mgr.setQueueAt queueId q).queueAt other = if other = queueId then q else mgr.queueAt other := by
  rw [queueAt, setQueueAt, FlatSet.find_put]
  split
  · rfl
  · rfl

theorem queueAt_removeProposal (mgr : LFGMgr) (proposal : LfgProposal) (type : LfgUpdateType)
    (queueId : Fin 256) : ∃ toRemove : GuidList, (∀ e, e ∈ toRemove ↔ proposal.Dropped type e) ∧
    (mgr.removeProposal proposal type).queueAt queueId =
      if queueId = queueIdOf mgr proposal then
        LFGMgr.readdEntries (proposal.queues.filter (· ∉ toRemove))
          (LFGMgr.removeEntries toRemove (mgr.queueAt queueId) proposal.queues).1
      else mgr.queueAt queueId := by
  refine ⟨(toRemove type (markPending type proposal.players)).items,
    fun e => mem_toRemove, ?_⟩
  have hsame := sameQueues_notify mgr (markPending type proposal.players)
    (toRemove type (markPending type proposal.players))
  have hguids : (markPending type proposal.players).map Prod.fst =
      proposal.players.map Prod.fst := map_markPending _ _ _ fun _ _ => rfl
  have hid := hsame.getQueueId ((proposal.players.map Prod.fst).headD .empty)
  simp only [removeProposal, hguids, hid]
  have hset := queueAt_setQueueAt ((markPending type proposal.players).foldl
    (LFGMgr.notifyPlayer
      (toRemove type (markPending type proposal.players))) mgr)
    (readdEntries (removeEntries (toRemove type
        (markPending type proposal.players)).items
      (mgr.queueAt (queueIdOf mgr proposal)) proposal.queues).2
      (removeEntries (toRemove type
        (markPending type proposal.players)).items
      (mgr.queueAt (queueIdOf mgr proposal)) proposal.queues).1)
    (queueIdOf mgr proposal) queueId
  rw [hsame.queueAt] at hset
  rw [hsame.queueAt]
  refine hset.trans ?_
  split
  · rename_i heq
    rw [heq, (removeEntries_spec _ _ _).1]
  · rfl

theorem getState_removeProposal (hgrouped : proposal.Grouped) {it : ObjectGuid × LfgProposalPlayer}
    (hit : it ∈ proposal.players) (hkept : ¬proposal.Dropped type (LfgProposal.entryOf it)) :
    (mgr.removeProposal proposal type).getState it.1 = .queued := by
  have hmarked {β : Type} (f : ObjectGuid × LfgProposalPlayer → β)
      (hf : ∀ it accept, f (it.1, { it.2 with accept := accept }) = f it) :=
    map_markPending type proposal.players f hf
  have hguids := hmarked Prod.fst fun _ _ => rfl
  have hpairs := hmarked (fun it => (it.1, it.2.group)) fun _ _ => rfl
  have hfrom : ∀ x ∈ markPending type proposal.players,
      ∃ y ∈ proposal.players, y.1 = x.1 ∧ y.2.group = x.2.group := by
    intro x hx
    have hmem := mem_map_of_mem (f := fun it => (it.1, it.2.group)) hx
    rw [hpairs] at hmem
    obtain ⟨y, hy, heq⟩ := mem_map.mp hmem
    exact ⟨y, hy, (Prod.mk.inj heq).1, (Prod.mk.inj heq).2⟩
  have hmem := mem_map_of_mem (f := fun it => (it.1, it.2.group)) hit
  rw [← hpairs] at hmem
  obtain ⟨x, hx, heq⟩ := mem_map.mp hmem
  obtain ⟨hfst, hgroup⟩ := Prod.mk.inj heq
  have hentry : entryOf x = entryOf it := by
    rw [entryOf, entryOf, hfst, hgroup]
  have hstate := getState_notify mgr
    (toRemove type (markPending type proposal.players))
    (hguids ▸ hgrouped.players_nodup)
    (fun y hy => by
      obtain ⟨z, hz, hzy, -⟩ := hfrom y hy
      exact hzy ▸ hgrouped.player z hz)
    (fun y hy => by
      obtain ⟨z, hz, -, hzy⟩ := hfrom y hy
      exact hzy ▸ hgrouped.group z hz)
    hx (by rwa [hentry, mem_toRemove])
  rw [hfst] at hstate
  exact hstate

theorem isSome_eq {α : Type*} {r : α → α → Prop} {a b : Option α} (h : Option.Rel r a b) :
    b.isSome = a.isSome := by
  cases h <;> rfl

/-- **An entry that waits gets its place back.** Whoever refuses is gone with the whole entry, and
the rest of the queue is as it was; what stays of the proposal is queued once exactly where it was
set aside all the time. -/
theorem removed_iff (hgrouped : proposal.Grouped) :
    Removed proposal type mgr (mgr.removeProposal proposal type) ↔
      ∀ e ∈ proposal.queues, ¬proposal.Dropped type e →
        SetAside (mgr.queueAt (queueIdOf mgr proposal)) e := by
  obtain ⟨toRemove, hremove, hqueue⟩ :=
    queueAt_removeProposal mgr proposal type (queueIdOf mgr proposal)
  rw [if_pos rfl] at hqueue
  obtain ⟨-, hgone, hstays⟩ := removeEntries_spec toRemove
    (mgr.queueAt (queueIdOf mgr proposal)) proposal.queues
  have hcount : ∀ e ∈ proposal.queues, ¬proposal.Dropped type e →
      ((mgr.removeProposal proposal type).queueAt
          (queueIdOf mgr proposal)).currentQueueStore.count e =
        (mgr.queueAt (queueIdOf mgr proposal)).currentQueueStore.count e +
          if ((mgr.queueAt (queueIdOf mgr proposal)).dataOf e).isSome then 1 else 0 := by
    intro e he hkept
    have hnot : e ∉ toRemove := fun h => hkept ((hremove e).mp h)
    have hone : (proposal.queues.filter (· ∉ toRemove)).count e = 1 := by
      rw [count_filter (by simpa using hnot)]
      exact count_eq_one_of_mem hgrouped.queues_nodup he
    rw [hqueue, (readdEntries_spec _ _).2.2.2 e, hone, (hstays e hnot).currentQueue]
    rw [isSome_eq (hstays e hnot).data]
  constructor
  · intro hremoved e he hkept
    obtain ⟨data, data', hdata, -, -⟩ := hremoved.kept e he hkept
    have honce := hremoved.once e he hkept
    rw [hcount e he hkept, hdata, isSome_some, if_pos rfl] at honce
    exact ⟨by rw [hdata]; rfl, count_eq_zero.mp (Nat.succ_injective honce)⟩
  · intro hwaits
    refine ⟨fun e he => ?_, fun e he hkept => ?_, fun e he hkept => ?_,
      fun it hit hkept => getState_removeProposal hgrouped hit hkept, fun e he => ?_,
      fun queueId hne => ?_⟩
    · rw [hqueue]
      exact gone_readdEntries _ (hgone e ((hremove e).mpr he))
    · obtain ⟨hdata, hnot⟩ := hwaits e he hkept
      rw [hcount e he hkept, if_pos hdata, count_eq_zero.mpr hnot]
    · obtain ⟨hdata, -⟩ := hwaits e he hkept
      obtain ⟨data, hdata⟩ := isSome_iff_exists.mp hdata
      have hsame := (hstays e fun h => hkept ((hremove e).mp h)).data
      rw [hdata] at hsame
      rw [hqueue, dataOf_readdEntries]
      generalize (removeEntries toRemove (mgr.queueAt (queueIdOf mgr proposal))
        proposal.queues).1.dataOf e = after at hsame
      cases hsame with
      | some hsame => exact ⟨data, _, hdata, rfl, hsame⟩
    · have hnot : e ∉ toRemove := fun h => by
        obtain ⟨it, hit, hentry, -⟩ := (hremove e).mp h
        exact he (hentry ▸ hgrouped.entry it hit)
      rw [hqueue]
      exact (hstays e hnot).trans (stays_readdEntries fun h => he (mem_filter.mp h).1)
    · obtain ⟨_, -, hother⟩ := queueAt_removeProposal mgr proposal type queueId
      rw [hother, if_neg hne]

def player (low : UInt64) : ObjectGuid := ⟨0x0800040000000000, low⟩

def firstDungeon : LfgChance where
  dungeon := fun _ dungeons => if h : dungeons.Nonempty then dungeons.min' h else 0
  dungeon_mem := fun _ dungeons h => by
    rw [dif_pos h]
    exact dungeons.min'_mem h
  leads := fun _ _ => false

def party : ObjectGuid := ObjectGuidFactory.createGlobal .party 0 1

def nextUpdate (mgr : LFGMgr) (currTime : Int) : Option LFGMgr :=
  mgr.update ⟨fun _ => true, fun _ _ => false⟩ (fun _ => firstDungeon) currTime

def proposed : Option LFGMgr := do
  let mgr ← LFGMgr.finishRoleCheck {} party [(player 1, PLAYER_ROLE_TANK),
    (player 2, PLAYER_ROLE_HEALER), (player 3, PLAYER_ROLE_DAMAGE),
    (player 4, PLAYER_ROLE_DAMAGE)] {7} 100
  nextUpdate (mgr.joinLfg (player 5) PLAYER_ROLE_DAMAGE {7} 100) 100

def rejoined : Option LFGMgr := do
  nextUpdate ((← proposed).joinLfg (player 5) PLAYER_ROLE_DAMAGE {7} 101) 101

/-- The party declines, and the fifth player goes back to the queue. -/
theorem removed_iff_proposed : ∃ mgr proposal, proposed = some mgr ∧
    mgr.proposalsStore.find 1 = some proposal ∧
    Removed (proposal.answer (player 1) .deny) .proposalDeclined mgr
      (mgr.removeProposal (proposal.answer (player 1) .deny) .proposalDeclined) := by
  have hrun : proposed.any fun mgr => (mgr.proposalsStore.find 1).any fun proposal =>
      decide (let answered := proposal.answer (player 1) .deny
        answered.Grouped ∧ ∀ e ∈ answered.queues, ¬answered.Dropped .proposalDeclined e →
          SetAside (mgr.queueAt (queueIdOf mgr answered)) e) := by
    decide +kernel
  obtain ⟨mgr, hmgr, hfound⟩ := (any_eq_true _ _).mp hrun
  obtain ⟨proposal, hfind, hchecked⟩ := (any_eq_true _ _).mp hfound
  obtain ⟨hgrouped, haside⟩ := of_decide_eq_true hchecked
  exact ⟨mgr, proposal, hmgr, hfind, (removed_iff hgrouped).mpr haside⟩

/-- The player who has joined again is queued twice when the party declines. -/
theorem rejoined_twice : ∃ mgr proposal, rejoined = some mgr ∧
    mgr.proposalsStore.find 1 = some proposal ∧
    (proposal.answer (player 1) .deny).Grouped ∧
    ¬Removed (proposal.answer (player 1) .deny) .proposalDeclined mgr
      (mgr.declineProposal 1 (player 1)) := by
  have hrun : rejoined.any fun mgr => (mgr.proposalsStore.find 1).any fun proposal =>
      decide (let answered := proposal.answer (player 1) .deny
        answered.Grouped ∧ player 5 ∈ answered.queues ∧
          ¬answered.Dropped .proposalDeclined (player 5) ∧
          ((mgr.declineProposal 1 (player 1)).queueAt
            (queueIdOf mgr answered)).currentQueueStore.count (player 5) = 2) := by
    decide +kernel
  obtain ⟨mgr, hmgr, hfound⟩ := (any_eq_true _ _).mp hrun
  obtain ⟨proposal, hfind, hchecked⟩ := (any_eq_true _ _).mp hfound
  obtain ⟨hgrouped, hmem, hkept, htwice⟩ := of_decide_eq_true hchecked
  refine ⟨mgr, proposal, hmgr, hfind, hgrouped, fun hremoved => ?_⟩
  have honce := hremoved.once (player 5) hmem hkept
  rw [htwice] at honce
  cases honce

/-!
# The proposals of `FindGroups`

The entries of a proposal are set aside when it is handed to `AddProposal`.
-/

section Found
open CheckCompatibility LFGQueue

variable {view : LfgView} {chance : LfgChance} {q : LFGQueue} {check : GuidList}
  {count count' : EntryCount} {s s' : Search} {roles : LfgRolesMap ObjectGuid}
  {result : LfgCompatibility} {all all' : GuidList}

theorem countEntries_fits (h : countEntries view q check count = .ok count')
    (hgroups : count'.numLfgGroups < 2) (hplayers : count'.numPlayers ≤ MAX_GROUP_SIZE) :
    ∀ e ∈ check, (q.dataOf e).isSome := by
  induction check generalizing count with
  | nil => nofun
  | cons e check ih =>
    rw [countEntries] at h
    split at h
    · cases hdata : q.dataOf e with
      | none => simp [hdata] at h
      | some data =>
        rw [hdata] at h
        exact forall_mem_cons.mpr ⟨by rw [hdata]; rfl, ih h⟩
    · rename_i hopen
      cases h
      exact absurd ⟨hgroups, hplayers⟩ hopen

theorem setAside_markNotQueued (queues : GuidList) (h : ∀ e ∈ check, (q.dataOf e).isSome) :
    (∀ e ∈ check, ((q.markNotQueued queues).dataOf e).isSome) ∧
      ∀ e ∈ (q.markNotQueued queues).currentQueueStore, e ∈ q.currentQueueStore ∧ e ∉ queues := by
  induction queues generalizing q with
  | nil => exact ⟨h, fun e he => ⟨he, not_mem_nil⟩⟩
  | cons guid queues ih =>
    obtain ⟨hdata, hqueue⟩ := ih (q := (q.removeFromNewQueue guid).removeFromCurrentQueue guid) h
    refine ⟨hdata, fun e he => ?_⟩
    obtain ⟨hmem, hnot⟩ := hqueue e he
    obtain ⟨hmem, hne⟩ := mem_filter.mp hmem
    exact ⟨hmem, by simpa [hnot] using hne⟩

/-- What a search adds to the proposals is set aside. -/
def Adds (s s' : Search) : Prop :=
  ∀ added ∈ s'.proposals, added ∈ s.proposals ∨ ∀ e ∈ added.proposal.queues, SetAside added.queue e

theorem Adds.refl (s : Search) : Adds s s := fun _ => .inl

theorem Adds.trans {s'' : Search} (h : Adds s s') (h' : Adds s' s'') : Adds s s'' :=
  fun added hadded => (h' added hadded).elim (h added) .inr

theorem Adds.done {α : Type} {a b : α} {t : Search}
    (h : some (a, t) = some (b, s')) (ht : t.proposals = s.proposals) : Adds s s' := by
  cases h
  exact fun _ hadded => .inl (ht ▸ hadded)

theorem adds_enoughPlayers (dungeons : LfgDungeonSet)
    (hcount : countEntries view s.queue check {} = .ok count) (hgroups : count.numLfgGroups < 2) :
    Adds s (enoughPlayers view chance check count dungeons roles s).2 := by
  rw [enoughPlayers]
  split
  · exact .refl _
  split
  · exact .refl _
  rename_i hplayers _
  obtain ⟨hdata, hqueue⟩ := setAside_markNotQueued check
    (countEntries_fits hcount hgroups (not_not.mp hplayers).le)
  intro added hadded
  refine (mem_append.mp hadded).imp id fun hlast => ?_
  cases mem_singleton.mp hlast
  exact fun e he => ⟨hdata e he, fun hmem => (hqueue e hmem).2 he⟩

theorem adds_checkEntries (h : checkEntries view chance check s = some (result, s')) :
    Adds s s' := by
  rw [checkEntries] at h
  split at h
  · exact .done h rfl
  rename_i count hcount
  split at h
  · obtain ⟨⟨fits, left⟩, -, h⟩ := Option.bind_eq_some_iff.mp h
    exact .done h rfl
  split at h
  · exact .done h rfl
  rename_i hgroups
  have hadds (dungeons roles) : Adds s (enoughPlayers view chance check count dungeons roles s).2 :=
    adds_enoughPlayers dungeons hcount (by omega)
  split at h
  · exact .done h rfl
  split at h
  · simp only [severalEntries, Option.pure_def, Option.bind_eq_bind] at h
    split at h
    · exact .done h rfl
    obtain ⟨⟨fits, left⟩, -, h⟩ := Option.bind_eq_some_iff.mp h
    split at h
    · exact .done h rfl
    split at h
    · exact .done h rfl
    · obtain rfl := congrArg Prod.snd (Option.some.inj h)
      exact hadds _ _
  · dsimp only at h
    obtain ⟨⟨fits, left⟩, -, h⟩ := Option.bind_eq_some_iff.mp h
    obtain rfl := congrArg Prod.snd (Option.some.inj h)
    exact hadds _ _

theorem adds_checkCompatibility (h : checkCompatibility view chance check s = some (result, s')) :
    Adds s s' := by
  induction check generalizing s s' result with
  | nil =>
    exact .done h rfl
  | cons front check ih =>
    rw [checkCompatibility] at h
    split at h
    · exact .done h rfl
    split at h
    · obtain ⟨⟨child, middle⟩, hmiddle, h⟩ := Option.bind_eq_some_iff.mp h
      refine (ih hmiddle).trans ?_
      dsimp only at h
      split at h
      · exact .done h rfl
      · exact adds_checkEntries h
    · exact adds_checkEntries h

theorem adds_compatibility (h : compatibility view chance check s = some (result, s')) :
    Adds s s' := by
  unfold compatibility at h
  dsimp only at h
  split at h
  all_goals obtain ⟨⟨compatibles, middle⟩, hmiddle, h⟩ := Option.bind_eq_some_iff.mp h
  · refine (adds_checkCompatibility hmiddle).trans ?_
    dsimp only at h
    split at h
    all_goals exact .done h rfl
  · cases hmiddle
    dsimp only at h
    split at h
    all_goals exact .done h rfl

theorem adds_tryAll {rounds : Nat}
    {search : GuidList → GuidList → Search → Option (LfgCompatibility × GuidList × Search)}
    (hsearch : ∀ {check all result all' s s'}, search check all s = some (result, all', s') →
      Adds s s') (h : tryAll search check rounds all s = some (result, all', s')) : Adds s s' := by
  fun_induction tryAll search check rounds all s with
  | case1 =>
    cases h
    exact .refl _
  | case2 => cases h
  | case3 =>
    rename_i ih
    obtain ⟨⟨compatibles, rest, middle⟩, hmiddle, h⟩ := Option.bind_eq_some_iff.mp h
    refine (hsearch hmiddle).trans ?_
    dsimp only at h
    split at h
    · cases h
      exact .refl _
    · exact ih _ _ h

theorem adds_findNewGroups {depth : Nat}
    (h : findNewGroups view chance depth check all s = some (result, all', s')) : Adds s s' := by
  induction depth generalizing check all all' s s' result with
  | zero => cases h
  | succ depth ih =>
    obtain ⟨⟨compatibles, middle⟩, hmiddle, h⟩ := Option.bind_eq_some_iff.mp h
    refine (adds_compatibility hmiddle).trans ?_
    dsimp only at h
    split at h
    · cases h
      exact .refl _
    · exact adds_tryAll ih h

theorem adds_findGroup {frontguid : ObjectGuid}
    (h : Source.DungeonFinding.findGroup view chance frontguid s = some s') : Adds s s' := by
  unfold Source.DungeonFinding.findGroup at h
  dsimp only at h
  obtain ⟨⟨compatibles, all, middle⟩, hmiddle, h⟩ := Option.bind_eq_some_iff.mp h
  refine Adds.trans (fun _ => .inl) ((adds_findNewGroups hmiddle).trans ?_)
  dsimp only at h
  split at h
  all_goals
    cases h
    exact .refl _

/-- Every proposal of `FindGroups` has its entries set aside. -/
theorem setAside_findGroups (h : Source.DungeonFinding.findGroups view chance q = some s') :
    ∀ added ∈ s'.proposals, ∀ e ∈ added.proposal.queues, SetAside added.queue e := by
  have hloop : ∀ fuel s, findGroupsLoop view chance fuel s = some s' → Adds s s' := by
    intro fuel
    induction fuel with
    | zero =>
      intro s h
      cases hnew : s.queue.newToQueueStore with
      | nil =>
        unfold findGroupsLoop at h
        simp only [hnew, some.injEq] at h
        exact h ▸ .refl s
      | cons frontguid rest =>
        unfold findGroupsLoop at h
        simp only [hnew, reduceCtorEq] at h
    | succ fuel ih =>
      intro s h
      cases hnew : s.queue.newToQueueStore with
      | nil =>
        unfold findGroupsLoop at h
        simp only [hnew, some.injEq] at h
        exact h ▸ .refl s
      | cons frontguid rest =>
        unfold findGroupsLoop at h
        simp only [hnew] at h
        obtain ⟨middle, hmiddle, h⟩ := Option.bind_eq_some_iff.mp h
        exact (adds_findGroup hmiddle).trans (ih _ h)
  exact fun added hadded => (hloop _ _ h added hadded).resolve_left not_mem_nil

end Found
end LegionServer.Guarantees.RemovedProposals
