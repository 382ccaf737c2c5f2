import LegionServer.Source.Looting.Loot

/-!
# Winners and effects of finished rolls

Who wins a roll, said without the loop of `AllPlayerVoted`, and what finishing
a roll changes: only its own slot, and for a disenchanting winner the item stays
in the loot.
-/
namespace LegionServer.Source.Looting
open List

variable {G : Type*}

/-- A vote that competes with the disenchanting ones. -/
def PlayerRollVote.greedy (roll : PlayerRollVote) : Prop :=
  roll.vote = .greed ∨ roll.vote = .disenchant

/-- The vote at place `i` of the vote map is greedy, no greedy vote has a higher
number and none before it has the same. -/
structure FirstBest (votes : List (G × PlayerRollVote)) (i : Nat) (best : G × PlayerRollVote) :
    Prop where
  here : votes[i]? = some best
  greedy : best.2.greedy
  highest : ∀ (j : Nat) (v : G × PlayerRollVote), votes[j]? = some v → v.2.greedy → v.2.rollNumber ≤ best.2.rollNumber
  first : ∀ (j : Nat) (v : G × PlayerRollVote), votes[j]? = some v → v.2.greedy → j < i → v.2.rollNumber < best.2.rollNumber

/-- Nobody needs the item, and the first best greedy vote is for disenchanting. -/
def DisenchantWins (votes : List (G × PlayerRollVote)) (player : G) : Prop :=
  (∀ v ∈ votes, v.2.vote ≠ .need) ∧ ∃ i number, FirstBest votes i (player, ⟨.disenchant, number⟩)

variable {i j : Nat} {v w : G × PlayerRollVote}

theorem FirstBest.unique {votes : List (G × PlayerRollVote)} (hv : FirstBest votes i v)
    (hw : FirstBest votes j w) : v = w := by
  have heq : i = j := by
    by_contra hne
    rcases Nat.lt_or_gt_of_ne hne with hlt | hlt
    · have hless := hw.first i v hv.here hv.greedy hlt
      have hmost := hv.highest j w hw.here hw.greedy
      omega
    · have hless := hv.first j w hw.here hw.greedy hlt
      have hmost := hw.highest i v hv.here hv.greedy
      omega
  subst heq
  exact Option.some.inj (hv.here.symm.trans hw.here)

/-- The state of the loop after the votes `seen`. -/
structure Leading (seen : List (G × PlayerRollVote)) (isSomeoneNeed : Bool)
    (winner : Option (G × PlayerRollVote)) : Prop where
  needed : isSomeoneNeed = true → (∃ v ∈ seen, v.2.vote = .need) ∧
    ∃ w, winner = some w ∧ w.2.vote = .need
  unneeded : isSomeoneNeed = false → ∀ v ∈ seen, v.2.vote ≠ .need
  nobody : isSomeoneNeed = false → winner = none → ∀ v ∈ seen, ¬ v.2.greedy
  best : isSomeoneNeed = false → ∀ w, winner = some w → ∃ i, FirstBest seen i w

theorem leading_nil : Leading ([] : List (G × PlayerRollVote)) false none := by
  constructor
  · intro h
    cases h
  · intro _ v hv
    cases hv
  · intro _ _ v hv
    cases hv
  · intro _ w hw
    cases hw

theorem getElem?_snoc {α : Type*} {l : List α} {a b : α} (h : (l ++ [a])[j]? = some b) :
    l[j]? = some b ∨ (j = l.length ∧ b = a) := by
  rcases Nat.lt_trichotomy j l.length with hlt | heq | hgt
  · rw [getElem?_append_left hlt] at h
    exact .inl h
  · subst heq
    rw [getElem?_append_right (Nat.le_refl _)] at h
    simp only [Nat.sub_self, getElem?_cons_zero, Option.some.injEq] at h
    exact .inr ⟨rfl, h.symm⟩
  · rw [getElem?_eq_none (by simp only [length_append, length_singleton]; omega)] at h
    cases h

theorem getElem?_snoc_left {α : Type*} {l : List α} {a b : α} (h : l[j]? = some b) :
    (l ++ [a])[j]? = some b := by
  rw [getElem?_append_left (List.getElem?_eq_some_iff.mp h).1]
  exact h

theorem FirstBest.snoc {seen : List (G × PlayerRollVote)} (h : FirstBest seen i w)
    (hv : v.2.greedy → v.2.rollNumber ≤ w.2.rollNumber) : FirstBest (seen ++ [v]) i w := by
  have hi := (List.getElem?_eq_some_iff.mp h.here).1
  refine ⟨getElem?_snoc_left h.here, h.greedy, ?_, ?_⟩
  · intro j u hu hgreedy
    rcases getElem?_snoc hu with hold | ⟨_, rfl⟩
    · exact h.highest j u hold hgreedy
    · exact hv hgreedy
  · intro j u hu hgreedy hlt
    rcases getElem?_snoc hu with hold | ⟨rfl, rfl⟩
    · exact h.first j u hold hgreedy hlt
    · omega

theorem FirstBest.last {seen : List (G × PlayerRollVote)} (hv : v.2.greedy)
    (hless : ∀ (j : Nat) (u : G × PlayerRollVote), seen[j]? = some u → u.2.greedy → u.2.rollNumber < v.2.rollNumber) :
    FirstBest (seen ++ [v]) seen.length v := by
  refine ⟨?_, hv, ?_, ?_⟩
  · rw [getElem?_append_right (Nat.le_refl _), Nat.sub_self]
    rfl
  · intro j u hu hgreedy
    rcases getElem?_snoc hu with hold | ⟨_, rfl⟩
    · exact Nat.le_of_lt (hless j u hold hgreedy)
    · exact Nat.le_refl _
  · intro j u hu hgreedy hlt
    rcases getElem?_snoc hu with hold | ⟨rfl, rfl⟩
    · exact hless j u hold hgreedy
    · exact absurd hlt (Nat.lt_irrefl _)

variable {seen : List (G × PlayerRollVote)} {isSomeoneNeed : Bool}
  {winner : Option (G × PlayerRollVote)} {v : G × PlayerRollVote}

theorem Leading.skip (h : Leading seen isSomeoneNeed winner) (hneed : v.2.vote ≠ .need)
    (hgreedy : ¬ v.2.greedy) : Leading (seen ++ [v]) isSomeoneNeed winner := by
  constructor
  · intro hsome
    obtain ⟨⟨u, hu, hvote⟩, hwinner⟩ := h.needed hsome
    exact ⟨⟨u, mem_append_left _ hu, hvote⟩, hwinner⟩
  · intro hnone u hu
    rcases mem_append.mp hu with hold | hnew
    · exact h.unneeded hnone u hold
    · rw [mem_singleton.mp hnew]
      exact hneed
  · intro hnone hempty u hu
    rcases mem_append.mp hu with hold | hnew
    · exact h.nobody hnone hempty u hold
    · rw [mem_singleton.mp hnew]
      exact hgreedy
  · intro hnone w hw
    obtain ⟨i, hbest⟩ := h.best hnone w hw
    exact ⟨i, hbest.snoc fun hg => absurd hg hgreedy⟩

theorem Leading.need {w : G × PlayerRollVote} (hv : v.2.vote = .need) (hw : w.2.vote = .need) :
    Leading (seen ++ [v]) true (some w) := by
  constructor
  · intro _
    exact ⟨⟨v, mem_append_right _ mem_cons_self, hv⟩, w, rfl, hw⟩
  · intro h
    cases h
  · intro h
    cases h
  · intro h
    cases h

/-- Greedy votes do not matter once somebody needs the item. -/
theorem Leading.ignored (h : Leading seen true winner) : Leading (seen ++ [v]) true winner := by
  obtain ⟨⟨u, hu, hvote⟩, w, hw, hneed⟩ := h.needed rfl
  constructor
  · intro _
    exact ⟨⟨u, mem_append_left _ hu, hvote⟩, w, hw, hneed⟩
  · intro h
    cases h
  · intro h
    cases h
  · intro h
    cases h

theorem Leading.greedy {w : G × PlayerRollVote} {i : Nat} (h : Leading seen false winner)
    (hv : v.2.greedy) (hw : FirstBest (seen ++ [v]) i w) :
    Leading (seen ++ [v]) false (some w) := by
  constructor
  · intro hsome
    cases hsome
  · intro _ u hu
    rcases mem_append.mp hu with hold | hnew
    · exact h.unneeded rfl u hold
    · rw [mem_singleton.mp hnew]
      rcases hv with hvote | hvote <;> rw [hvote] <;> decide
  · intro _ hnone
    cases hnone
  · intro _ w' hw'
    cases hw'
    exact ⟨i, hw⟩

theorem Leading.compare (h : Leading seen false winner) (hv : v.2.greedy) :
    Leading (seen ++ [v]) false (if v.2.beats winner = true then some v else winner) := by
  cases winner with
  | none =>
    exact h.greedy hv (.last hv fun j u hu hgreedy =>
      absurd hgreedy (h.nobody rfl rfl u (mem_of_getElem? hu)))
  | some best =>
    obtain ⟨i, hbest⟩ := h.best rfl best rfl
    by_cases hbetter : best.2.rollNumber < v.2.rollNumber
    · rw [if_pos (show v.2.beats (some best) = true from decide_eq_true hbetter)]
      exact h.greedy hv (.last hv fun j u hu hgreedy =>
        Nat.lt_of_le_of_lt (hbest.highest j u hu hgreedy) hbetter)
    · rw [if_neg (by simpa [PlayerRollVote.beats] using hbetter)]
      exact h.greedy hv (hbest.snoc fun _ => Nat.le_of_not_lt hbetter)

theorem allPlayerVoted_missing (votes : List (G × PlayerRollVote)) :
    ∀ (isSomeoneNeed : Bool) (winner : Option (G × PlayerRollVote)),
      (allPlayerVoted votes isSomeoneNeed winner).1 = 0 ↔
        ∀ v ∈ votes, v.2.vote ≠ .notEmitedYet := by
  induction votes with
  | nil =>
    intro isSomeoneNeed winner
    exact iff_of_true rfl fun _ h => absurd h not_mem_nil
  | cons v rest ih =>
    intro isSomeoneNeed winner
    obtain ⟨player, roll⟩ := v
    rw [forall_mem_cons]
    unfold allPlayerVoted
    generalize roll.beats winner = better
    cases roll.vote with
    | need => cases isSomeoneNeed <;> cases better <;> simp [ih]
    | greed => cases isSomeoneNeed <;> cases better <;> simp [ih]
    | disenchant => cases isSomeoneNeed <;> cases better <;> simp [ih]
    | notEmitedYet => simp
    | pass => simp [ih]
    | notValid => simp [ih]

theorem allPlayerVoted_leading (rest : List (G × PlayerRollVote)) :
    ∀ (seen : List (G × PlayerRollVote)) (isSomeoneNeed : Bool)
      (winner : Option (G × PlayerRollVote)), Leading seen isSomeoneNeed winner →
      ∃ need, Leading (seen ++ rest) need (allPlayerVoted rest isSomeoneNeed winner).2 := by
  induction rest with
  | nil =>
    intro seen isSomeoneNeed winner h
    rw [append_nil]
    exact ⟨isSomeoneNeed, h⟩
  | cons v rest ih =>
    intro seen isSomeoneNeed winner h
    obtain ⟨player, roll⟩ := v
    rw [append_cons]
    have hskip : ∀ hvote : roll.vote ≠ .need ∧ roll.vote ≠ .greed ∧ roll.vote ≠ .disenchant,
        Leading (seen ++ [(player, roll)]) isSomeoneNeed winner := fun hvote =>
      h.skip hvote.1 fun hgreedy => hgreedy.elim hvote.2.1 hvote.2.2
    have hgreedy : ∀ hvote : roll.greedy, Leading (seen ++ [(player, roll)]) isSomeoneNeed
        (if (!isSomeoneNeed && roll.beats winner) = true then some (player, roll)
          else winner) := by
      intro hvote
      cases isSomeoneNeed with
      | true => exact h.ignored
      | false =>
        exact h.compare (v := (player, roll)) hvote
    unfold allPlayerVoted
    cases hvote : roll.vote with
    | need =>
      dsimp only
      split
      · exact ih _ _ _ (.need hvote hvote)
      · rename_i hkeep
        simp only [Bool.or_eq_true, not_or, Bool.not_eq_true, Bool.not_eq_false'] at hkeep
        obtain ⟨rfl, _⟩ := hkeep
        exact ih _ _ _ h.ignored
    | greed =>
      have hnext := hgreedy (.inl hvote)
      split at hnext
      · rename_i hbetter
        rw [if_pos hbetter]
        exact ih _ _ _ hnext
      · rename_i hbetter
        rw [if_neg hbetter]
        exact ih _ _ _ hnext
    | disenchant =>
      have hnext := hgreedy (.inr hvote)
      dsimp only
      split at hnext
      · rename_i hbetter
        rw [if_pos hbetter]
        exact ih _ _ _ hnext
      · rename_i hbetter
        rw [if_neg hbetter]
        exact ih _ _ _ hnext
    | notEmitedYet => exact ih _ _ _ (hskip (by rw [hvote]; decide))
    | pass => exact ih _ _ _ (hskip (by rw [hvote]; decide))
    | notValid => exact ih _ _ _ (hskip (by rw [hvote]; decide))

/-- The winner votes for disenchanting exactly if that vote is the first best
and nobody needs the item. -/
theorem winner_disenchant_iff (roll : LootRoll G) (player : G) :
    (∃ number, roll.winner = some (player, ⟨.disenchant, number⟩)) ↔
      DisenchantWins roll.rollVoteMap player := by
  obtain ⟨need, h⟩ := allPlayerVoted_leading roll.rollVoteMap [] false none leading_nil
  change Leading roll.rollVoteMap need roll.winner at h
  constructor
  · intro hwinner
    obtain ⟨number, hwinner⟩ := hwinner
    cases need with
    | true =>
      obtain ⟨_, w, hw, hneed⟩ := h.needed rfl
      rw [hwinner] at hw
      cases hw
      cases hneed
    | false =>
      obtain ⟨i, hbest⟩ := h.best rfl _ hwinner
      exact ⟨h.unneeded rfl, i, number, hbest⟩
  · intro hwins
    obtain ⟨hneed, i, number, hbest⟩ := hwins
    cases need with
    | true =>
      obtain ⟨⟨v, hv, hvote⟩, _⟩ := h.needed rfl
      exact absurd hvote (hneed v hv)
    | false =>
      cases hwinner : roll.winner with
      | none =>
        exact absurd hbest.greedy (h.nobody rfl hwinner _ (mem_of_getElem? hbest.here))
      | some w =>
        obtain ⟨j, hw⟩ := h.best rfl w hwinner
        rw [hw.unique hbest]
        exact ⟨number, rfl⟩

theorem due_iff (roll : LootRoll G) (now : Nat) : roll.due now = true ↔
    (∀ v ∈ roll.rollVoteMap, v.2.vote ≠ .notEmitedYet) ∨ roll.endTime ≤ now := by
  rw [LootRoll.due, Bool.or_eq_true, decide_eq_true_iff, decide_eq_true_iff, allPlayerVoted_missing]

def LootState.rewardCount (s : LootState G) (slot : Nat) : Nat :=
  (s.rewards.map Prod.fst).count slot

def SameSlot (slot : Nat) (s s' : LootState G) : Prop :=
  s'.loot.items[slot]? = s.loot.items[slot]? ∧ s'.rewardCount slot = s.rewardCount slot

/-- At most one reward for an item that is not free for all, none while it can
still be looted; and an item under a roll is one of these. -/
structure SlotOk (s : LootState G) (slot : Nat) : Prop where
  once : ∀ item, s.loot.items[slot]? = some item → item.freeforall = false → s.rewardCount slot ≤ 1
  gone : ∀ item, s.loot.items[slot]? = some item → item.freeforall = false →
    item.isLooted = false → s.rewardCount slot = 0
  blocked : ∀ item, s.loot.items[slot]? = some item → item.isBlocked = true →
    item.freeforall = false ∧ item.isLooted = false

variable {s s' : LootState G} {loot : Loot G} {slot : Nat}

theorem SameSlot.refl : SameSlot slot s s := ⟨rfl, rfl⟩

theorem SameSlot.trans {s'' : LootState G} (h : SameSlot slot s s') (h' : SameSlot slot s' s'') :
    SameSlot slot s s'' :=
  ⟨h'.1.trans h.1, h'.2.trans h.2⟩

theorem SlotOk.same (hok : SlotOk s slot) (h : SameSlot slot s s') : SlotOk s' slot := by
  constructor
  · intro item hitem
    rw [h.1] at hitem
    rw [h.2]
    exact hok.once item hitem
  · intro item hitem
    rw [h.1] at hitem
    rw [h.2]
    exact hok.gone item hitem
  · intro item hitem
    rw [h.1] at hitem
    exact hok.blocked item hitem

theorem rewardCount_append (rewards : List (Nat × Reward G)) (i : Nat) (reward : Reward G) :
    (LootState.mk loot (rewards ++ [(i, reward)])).rewardCount slot =
      (LootState.mk loot rewards).rewardCount slot + if i = slot then 1 else 0 := by
  simp only [LootState.rewardCount, map_append, map_cons, map_nil, count_append, count_singleton]
  by_cases h : i = slot
  · simp [h]
  · simp [h]

theorem modifyItem_getElem? (loot : Loot G) (i j : Nat) (f : LootItem G → LootItem G) :
    (loot.modifyItem i f).items[j]? = if i = j then loot.items[j]?.map f else loot.items[j]? := by
  by_cases h : i = j
  · subst h
    simp [Loot.modifyItem]
  · simp [Loot.modifyItem, h]

theorem SlotOk.modify {rewards : List (Nat × Reward G)} {f : LootItem G → LootItem G}
    (h : SlotOk ⟨loot, rewards⟩ slot) (hffa : ∀ item, (f item).freeforall = item.freeforall)
    (hlooted : ∀ item, (f item).isLooted = item.isLooted)
    (hblocked : ∀ item, (f item).isBlocked = true → item.isBlocked = true) :
    SlotOk ⟨loot.modifyItem i f, rewards⟩ slot := by
  have hback : ∀ item, (loot.modifyItem i f).items[slot]? = some item →
      ∃ old, loot.items[slot]? = some old ∧ item.freeforall = old.freeforall ∧
        item.isLooted = old.isLooted ∧ (item.isBlocked = true → old.isBlocked = true) := by
    intro item hitem
    rw [modifyItem_getElem?] at hitem
    split at hitem
    · obtain ⟨old, hold, rfl⟩ := Option.map_eq_some_iff.mp hitem
      exact ⟨old, hold, hffa old, hlooted old, hblocked old⟩
    · exact ⟨item, hitem, rfl, rfl, id⟩
  constructor
  · intro item hitem hfree
    obtain ⟨old, hold, hsame, _⟩ := hback item hitem
    exact h.once old hold (hsame ▸ hfree)
  · intro item hitem hfree hleft
    obtain ⟨old, hold, hsame, hloot, _⟩ := hback item hitem
    exact h.gone old hold (hsame ▸ hfree) (hloot ▸ hleft)
  · intro item hitem hon
    obtain ⟨old, hold, hsame, hloot, hblock⟩ := hback item hitem
    rw [hsame, hloot]
    exact h.blocked old hold (hblock hon)

variable {item : LootItem G}

theorem lootItemInSlot_some {player : G} (h : loot.lootItemInSlot i player = some item) :
    loot.items[i]? = some item := by
  unfold Loot.lootItemInSlot at h
  cases hslot : loot.items[i]? with
  | none =>
    rw [hslot] at h
    cases h
  | some found =>
    rw [hslot] at h
    exact (Option.ite_none_left_eq_some.mp h).2

variable [DecidableEq G] {env : Surroundings G}

/-- `StoreLootItem` does nothing, or it finds an unblocked item that is not
looted unless it is free for all, and marks it. -/
theorem storeLootItem_cases (loot : Loot G) (player : G) (i : Nat) (canStoreNewItem : Bool) :
    loot.storeLootItem player i canStoreNewItem = (loot, none) ∨
      ∃ item, loot.items[i]? = some item ∧ item.isBlocked = false ∧ item.isLooted = false ∧
        loot.storeLootItem player i canStoreNewItem =
          (loot.markLooted i item player, some item) := by
  unfold Loot.storeLootItem
  cases hlootable : loot.lootable i player (some player) with
  | none => exact .inl rfl
  | some item =>
    cases canStoreNewItem with
    | false => exact .inl rfl
    | true =>
      right
      unfold Loot.lootable at hlootable
      split at hlootable
      · cases hlootable
      rename_i found hfound
      split at hlootable
      · cases hlootable
      rename_i hchecks
      cases hlootable
      simp only [Bool.or_eq_true, not_or, Bool.not_eq_true] at hchecks
      obtain ⟨⟨⟨hlooted, _⟩, hblocked⟩, _⟩ := hchecks
      exact ⟨item, lootItemInSlot_some hfound, hblocked, hlooted, rfl⟩

theorem markLooted_getElem? (loot : Loot G) (i j : Nat) (item : LootItem G) (player : G) :
    (loot.markLooted i item player).items[j]? =
      if i = j ∧ item.freeforall = false then
        loot.items[j]?.map fun item => { item with isLooted := true }
      else loot.items[j]? := by
  unfold Loot.markLooted
  cases hffa : item.freeforall with
  | true => simp
  | false =>
    simp only [Bool.false_eq_true, if_false, modifyItem_getElem?, and_true]

theorem markLooted_frame (loot : Loot G) (i : Nat) (item : LootItem G) (player : G) :
    (loot.markLooted i item player).rolls = loot.rolls ∧
      (loot.markLooted i item player).wasOpened = loot.wasOpened := by
  unfold Loot.markLooted
  cases item.freeforall <;> exact ⟨rfl, rfl⟩

section
variable (s : LootState G) (player : G) (i : Nat) (canStoreNewItem : Bool)

theorem LootState.storeLootItem_frame :
    (s.storeLootItem player i canStoreNewItem).loot.rolls = s.loot.rolls ∧
      (s.storeLootItem player i canStoreNewItem).loot.wasOpened = s.loot.wasOpened := by
  unfold LootState.storeLootItem
  rcases storeLootItem_cases s.loot player i canStoreNewItem with hsame | ⟨item, _, _, _, hstore⟩
  · rw [hsame]
    exact ⟨rfl, rfl⟩
  · rw [hstore]
    exact markLooted_frame s.loot i item player

theorem LootState.storeLootItem_same
    (h : i = slot → ∃ item, s.loot.items[slot]? = some item ∧ item.isBlocked = true) :
    SameSlot slot s (s.storeLootItem player i canStoreNewItem) := by
  unfold LootState.storeLootItem
  rcases storeLootItem_cases s.loot player i canStoreNewItem with
    hsame | ⟨item, hitem, hopen, _, hstore⟩
  · rw [hsame]
    exact .refl
  rw [hstore]
  have hne : i ≠ slot := by
    intro heq
    subst heq
    obtain ⟨blocked, hslot, hblocked⟩ := h rfl
    rw [hitem] at hslot
    cases hslot
    rw [hopen] at hblocked
    cases hblocked
  constructor
  · dsimp only
    rw [markLooted_getElem?, if_neg fun hboth => hne hboth.1]
  · rw [rewardCount_append, if_neg hne]
    rfl

end

theorem SlotOk.storeLootItem (h : SlotOk s slot) (player : G) (i : Nat) (canStoreNewItem : Bool) :
    SlotOk (s.storeLootItem player i canStoreNewItem) slot := by
  by_cases hne : i = slot
  · subst hne
    unfold LootState.storeLootItem
    rcases storeLootItem_cases s.loot player i canStoreNewItem with
      hsame | ⟨item, hitem, hopen, hleft, hstore⟩
    · rw [hsame]
      exact h
    rw [hstore]
    constructor
    · intro item' hitem' hffa'
      rw [markLooted_getElem?, hitem] at hitem'
      rw [rewardCount_append, if_pos rfl]
      split at hitem'
      · rename_i hffa
        exact Nat.add_le_add_right (Nat.le_of_eq (h.gone item hitem hffa.2 hleft)) 1
      · rename_i hffa
        cases hitem'
        exact absurd ⟨rfl, hffa'⟩ hffa
    · intro item' hitem' hffa' hleft'
      rw [markLooted_getElem?, hitem] at hitem'
      split at hitem'
      · cases hitem'
        cases hleft'
      · rename_i hffa
        cases hitem'
        exact absurd ⟨rfl, hffa'⟩ hffa
    · intro item' hitem' hblocked'
      rw [markLooted_getElem?, hitem] at hitem'
      split at hitem' <;> cases hitem' <;> rw [hopen] at hblocked' <;> cases hblocked'
  · exact h.same (s.storeLootItem_same player i canStoreNewItem fun heq => absurd heq hne)

theorem finish_same (h : finish env i winner s = some s') (hne : i ≠ slot) :
    SameSlot slot s s' := by
  have hmodify : ∀ (s : LootState G) (f : LootItem G → LootItem G),
      SameSlot slot s { s with loot := s.loot.modifyItem i f } := fun s f =>
    ⟨by rw [modifyItem_getElem?, if_neg hne], rfl⟩
  have hopen := hmodify s fun item => { item with isBlocked := false }
  unfold finish at h
  cases winner with
  | none =>
    cases h
    exact hopen
  | some w =>
    obtain ⟨player, roll⟩ := w
    have hwon := hopen.trans (hmodify _ fun item => { item with rollWinnerGUID := some player })
    dsimp only at h
    split at h
    · split at h
      · split at h
        · cases h
        · cases h
          refine hwon.trans ⟨rfl, ?_⟩
          rw [rewardCount_append, if_neg hne]
          rfl
      · cases h
        exact hwon.trans (LootState.storeLootItem_same _ player i _ fun heq => absurd heq hne)
    · cases h
      exact hwon

theorem finish_frame (h : finish env i winner s = some s') :
    s'.loot.rolls = s.loot.rolls ∧ s'.loot.wasOpened = s.loot.wasOpened := by
  unfold finish at h
  cases winner with
  | none =>
    cases h
    exact ⟨rfl, rfl⟩
  | some w =>
    dsimp only at h
    split at h
    · split at h
      · split at h
        · cases h
        · cases h
          exact ⟨rfl, rfl⟩
      · cases h
        exact LootState.storeLootItem_frame _ _ _ _
    · cases h
      exact ⟨rfl, rfl⟩

theorem finish_ok (env : Surroundings G) (winner : Option (G × PlayerRollVote)) (hok : SlotOk s i)
    (h : ∀ player number, winner = some (player, ⟨.disenchant, number⟩) →
      env.connected player = false) :
    ∃ s', finish env i winner s = some s' ∧ SlotOk s' i := by
  have hopen : SlotOk { s with loot := s.loot.modifyItem i fun item =>
      { item with isBlocked := false } } i :=
    hok.modify (fun _ => rfl) (fun _ => rfl) (fun _ hoff => by cases hoff)
  unfold finish
  cases winner with
  | none => exact ⟨_, rfl, hopen⟩
  | some w =>
    obtain ⟨player, vote, number⟩ := w
    have hwon := hopen.modify (i := i) (f := fun item => { item with rollWinnerGUID := some player })
      (fun _ => rfl) (fun _ => rfl) (fun _ => id)
    dsimp only
    cases hconnected : env.connected player with
    | false => exact ⟨_, rfl, hwon⟩
    | true =>
      have hvote : vote ≠ .disenchant := by
        intro heq
        subst heq
        rw [h player number rfl] at hconnected
        cases hconnected
      rw [if_pos rfl, if_neg hvote]
      exact ⟨_, rfl, hwon.storeLootItem player i _⟩

/-- A connected player who wins for disenchanting gets the materials, and the
item is still there to be looted. -/
theorem finish_disenchant {player : G} {number : Nat} (hok : SlotOk s i)
    (hitem : s.loot.items[i]? = some item) (hblocked : item.isBlocked = true)
    (hconnected : env.connected player = true)
    (h : finish env i (some (player, ⟨.disenchant, number⟩)) s = some s') :
    ∃ item', s'.loot.items[i]? = some item' ∧ item'.freeforall = false ∧
      item'.isLooted = false ∧ s'.rewardCount i = 1 := by
  obtain ⟨hffa, hleft⟩ := hok.blocked item hitem hblocked
  have hnone := hok.gone item hitem hffa hleft
  unfold finish at h
  dsimp only at h
  rw [if_pos hconnected, if_pos rfl] at h
  split at h
  · cases h
  cases h
  refine ⟨{ item with isBlocked := false, rollWinnerGUID := some player }, ?_, hffa, hleft, ?_⟩
  · dsimp only
    rw [modifyItem_getElem?, if_pos rfl, modifyItem_getElem?, if_pos rfl, hitem]
    rfl
  · rw [rewardCount_append, if_pos rfl]
    exact congrArg (· + 1) hnone

end LegionServer.Source.Looting
