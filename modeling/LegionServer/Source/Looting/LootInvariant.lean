import LegionServer.Source.Looting.RollEffects

/-!
# What filling, opening, voting and updating keep

The invariant of a loot as a whole: every slot is in order, and the rolls are
for distinct blocked items. An update keeps it unless it ends a roll that a
connected player wins for disenchanting.
-/
namespace LegionServer.Source.Looting
open List

variable {G : Type*}

/-- A roll that is over, all votes in or its time gone, and that a connected
player wins for disenchanting. -/
def Disenchants (env : Surroundings G) (roll : LootRoll G) : Prop :=
  ((∀ v ∈ roll.rollVoteMap, v.2.vote ≠ .notEmitedYet) ∨ roll.endTime ≤ env.now) ∧
    ∃ player, DisenchantWins roll.rollVoteMap player ∧ env.connected player = true

structure LootOk (s : LootState G) : Prop where
  slots : ∀ slot, SlotOk s slot
  keys : (s.loot.rolls.map Prod.fst).Nodup
  rolling : ∀ r ∈ s.loot.rolls, ∃ item, s.loot.items[r.1]? = some item ∧ item.isBlocked = true
  closed : s.loot.wasOpened = false → s.loot.rolls = []

variable {s : LootState G} {env : Surroundings G}

theorem disenchants_iff (roll : LootRoll G) : Disenchants env roll ↔
    roll.due env.now = true ∧ ∃ player number,
      roll.winner = some (player, ⟨.disenchant, number⟩) ∧ env.connected player = true := by
  rw [Disenchants, due_iff]
  apply and_congr_right
  intro _
  constructor
  · intro h
    obtain ⟨player, hwins, hconnected⟩ := h
    obtain ⟨number, hwinner⟩ := (winner_disenchant_iff roll player).mpr hwins
    exact ⟨player, number, hwinner, hconnected⟩
  · intro h
    obtain ⟨player, number, hwinner, hconnected⟩ := h
    exact ⟨player, (winner_disenchant_iff roll player).mp ⟨number, hwinner⟩, hconnected⟩

theorem LootOk.rolls {rolls : List (Nat × LootRoll G)} (h : LootOk s)
    (hkeys : (rolls.map Prod.fst).Perm (s.loot.rolls.map Prod.fst)) :
    LootOk { s with loot := { s.loot with rolls } } := by
  refine ⟨fun slot => (h.slots slot).same ⟨rfl, rfl⟩, hkeys.nodup_iff.mpr h.keys, ?_, ?_⟩
  · intro r hr
    obtain ⟨r', hr', heq⟩ := mem_map.mp (hkeys.mem_iff.mp (mem_map_of_mem hr))
    rw [← heq]
    exact h.rolling r' hr'
  · intro hclosed
    rw [h.closed hclosed] at hkeys
    exact List.map_eq_nil_iff.mp (List.perm_nil.mp hkeys)

structure Opening (ids : List Nat) (s : LootState G) : Prop where
  slots : ∀ slot, SlotOk s slot
  keys : (s.loot.rolls.map Prod.fst).Nodup
  rolling : ∀ r ∈ s.loot.rolls, ∃ item, s.loot.items[r.1]? = some item ∧ item.isBlocked = true
  fresh : ∀ r ∈ s.loot.rolls, r.1 ∉ ids

variable {i : Nat} {rest : List Nat}

theorem Opening.tail (h : Opening (i :: rest) s) : Opening rest s :=
  ⟨h.slots, h.keys, h.rolling, fun r hr hmem => h.fresh r hr (mem_cons_of_mem i hmem)⟩

variable {item : LootItem G}

theorem Opening.started {roll : LootRoll G} (h : Opening (i :: rest) s) (hi : i ∉ rest)
    (hitem : s.loot.items[i]? = some item) (hblocked : item.isBlocked = true) :
    let loot := s.loot.modifyItem i fun item => { item with isBlocked := true }
    Opening rest { s with loot := { loot with rolls := loot.rolls ++ [(i, roll)] } } := by
  have hsame : ∀ slot : Nat, (s.loot.modifyItem i fun item => { item with isBlocked := true }).items[slot]? =
      s.loot.items[slot]? := by
    intro slot
    rw [modifyItem_getElem?]
    split
    · rename_i heq
      subst heq
      rw [hitem, Option.map_some, ← hblocked]
    · rfl
  constructor
  · exact fun slot => (h.slots slot).same ⟨hsame slot, rfl⟩
  · simp only [map_append, map_cons, map_nil]
    rw [nodup_append]
    refine ⟨h.keys, by simp, ?_⟩
    intro a ha b hb heq
    obtain ⟨r, hr, hkey⟩ := mem_map.mp ha
    rw [mem_singleton.mp hb] at heq
    exact h.fresh r hr (by rw [hkey, heq]; exact mem_cons_self)
  · intro r hr
    rw [hsame]
    rcases mem_append.mp hr with hold | hnew
    · exact h.rolling r hold
    · rw [mem_singleton.mp hnew]
      exact ⟨item, hitem, hblocked⟩
  · intro r hr hmem
    rcases mem_append.mp hr with hold | hnew
    · exact h.fresh r hold (mem_cons_of_mem i hmem)
    · rw [mem_singleton.mp hnew] at hmem
      exact hi hmem

/-- A roll that does not start unblocks its item; the other rolls stay. -/
theorem Opening.unblocked (h : Opening (i :: rest) s) :
    Opening rest { s with loot := s.loot.modifyItem i fun item =>
      { item with isUnderthreshold := true, isBlocked := false } } := by
  constructor
  · exact fun slot => (h.slots slot).modify (fun _ => rfl) (fun _ => rfl) fun _ hoff => by cases hoff
  · exact h.keys
  · intro r hr
    have hne : i ≠ r.1 := fun heq => h.fresh r hr (heq ▸ mem_cons_self)
    rw [modifyItem_getElem?, if_neg hne]
    exact h.rolling r hr
  · exact h.tail.fresh

/-- As `AddItem` leaves an item: neither looted nor blocked. -/
def Unopened (item : LootItem G) : Prop := item.isLooted = false ∧ item.isBlocked = false

theorem addStacks_unopened (li : LootStoreItem) (numStacks : Nat) :
    ∀ (count : Nat) (items : List (LootItem G)), (∀ item ∈ items, Unopened item) →
      ∀ item ∈ addStacks li numStacks count items, Unopened item := by
  induction numStacks with
  | zero =>
    intro count items h
    exact h
  | succ numStacks ih =>
    intro count items h
    unfold addStacks
    split
    · apply ih
      intro item hitem
      rcases mem_append.mp hitem with hold | hnew
      · exact h item hold
      · rw [mem_singleton.mp hnew]
        exact ⟨rfl, rfl⟩
    · exact h

/-- `FillLoot` up to the rights: nothing looted or blocked, no rolls. -/
structure Generated (loot : Loot G) : Prop where
  unopened : ∀ item ∈ loot.items, Unopened item
  rolls : loot.rolls = []

theorem addItems_generated (entries : List LootStoreItem) :
    ∀ loot : Loot G, Generated loot → Generated (entries.foldl Loot.addItem loot) := by
  induction entries with
  | nil =>
    intro loot h
    exact h
  | cons li rest ih =>
    intro loot h
    exact ih _ ⟨addStacks_unopened li _ _ _ h.unopened, h.rolls⟩

theorem setThreshold_slot (lootMethod : LootMethod) (lootThreshold : Nat)
    (quality : Nat → Option Nat) (h : Unopened item) :
    (item.setThreshold lootMethod lootThreshold quality).isLooted = false ∧
      ((item.setThreshold lootMethod lootThreshold quality).isBlocked = true →
        (item.setThreshold lootMethod lootThreshold quality).freeforall = false) := by
  have hoff : item.isBlocked = true → item.freeforall = false := fun hon => by
    rw [h.2] at hon
    cases hon
  unfold LootItem.setThreshold
  split
  · exact ⟨h.1, hoff⟩
  rename_i hrules
  have hffa : item.freeforall = false := by
    cases hffa : item.freeforall with
    | false => rfl
    | true => simp [hffa] at hrules
  split
  · exact ⟨h.1, hoff⟩
  · split
    · exact ⟨h.1, hoff⟩
    · split <;> exact ⟨h.1, fun _ => hffa⟩

variable [DecidableEq G] {s' : LootState G}

section
variable (l : List (Nat × LootRoll G))

theorem updateRolls_same {slot : Nat} :
    ∀ (s : LootState G) (rolls : List (Nat × LootRoll G)) (s' : LootState G),
      updateRolls env l s = some (rolls, s') → slot ∉ l.map Prod.fst → SameSlot slot s s' := by
  induction l with
  | nil =>
    intro s rolls s' h _
    cases h
    exact .refl
  | cons r rest ih =>
    intro s rolls s' h hslot
    simp only [map_cons, mem_cons, not_or] at hslot
    unfold updateRolls at h
    split at h
    · cases hfinish : finish env r.1 r.2.winner s with
      | none =>
        rw [hfinish] at h
        cases h
      | some s1 =>
        rw [hfinish] at h
        exact (finish_same hfinish (Ne.symm hslot.1)).trans (ih s1 rolls s' h hslot.2)
    · cases hrest : updateRolls env rest s with
      | none =>
        rw [hrest] at h
        cases h
      | some result =>
        rw [hrest] at h
        cases h
        exact ih s result.1 _ hrest hslot.2

theorem updateRolls_wasOpened :
    ∀ (s : LootState G) (rolls : List (Nat × LootRoll G)) (s' : LootState G),
      updateRolls env l s = some (rolls, s') →
      s'.loot.wasOpened = s.loot.wasOpened ∧ rolls.Sublist l := by
  induction l with
  | nil =>
    intro s rolls s' h
    cases h
    exact ⟨rfl, List.Sublist.refl _⟩
  | cons r rest ih =>
    intro s rolls s' h
    unfold updateRolls at h
    split at h
    · cases hfinish : finish env r.1 r.2.winner s with
      | none =>
        rw [hfinish] at h
        cases h
      | some s1 =>
        rw [hfinish] at h
        obtain ⟨hopened, hsub⟩ := ih s1 rolls s' h
        exact ⟨hopened.trans (finish_frame hfinish).2, hsub.cons r⟩
    · cases hrest : updateRolls env rest s with
      | none =>
        rw [hrest] at h
        cases h
      | some result =>
        rw [hrest] at h
        cases h
        obtain ⟨hopened, hsub⟩ := ih s result.1 _ hrest
        exact ⟨hopened, hsub.cons_cons r⟩

/-- Without a disenchanting winner the loop returns, every slot stays in order
and the items of the remaining rolls stay blocked. -/
theorem updateRolls_ok :
    ∀ s : LootState G, (∀ slot, SlotOk s slot) → (l.map Prod.fst).Nodup →
      (∀ r ∈ l, ∃ item, s.loot.items[r.1]? = some item ∧ item.isBlocked = true) →
      (∀ r ∈ l, ¬ Disenchants env r.2) →
      ∃ rolls s', updateRolls env l s = some (rolls, s') ∧ (∀ slot, SlotOk s' slot) ∧
        ∀ r ∈ rolls, ∃ item, s'.loot.items[r.1]? = some item ∧ item.isBlocked = true := by
  induction l with
  | nil =>
    intro s hslots _ _ _
    exact ⟨[], s, rfl, hslots, fun _ h => absurd h not_mem_nil⟩
  | cons r rest ih =>
    intro s hslots hkeys hrolling hnone
    simp only [map_cons, nodup_cons] at hkeys
    have hrest := fun r' hr' => hrolling r' (mem_cons_of_mem r hr')
    have hnone' := fun r' hr' => hnone r' (mem_cons_of_mem r hr')
    unfold updateRolls
    split
    · rename_i hdue
      obtain ⟨s1, hfinish, hslot⟩ := finish_ok env r.2.winner (hslots r.1) (by
        intro player number hwinner
        cases hconnected : env.connected player with
        | false => rfl
        | true =>
          exact absurd ((disenchants_iff r.2).mpr ⟨hdue, player, number, hwinner, hconnected⟩)
            (hnone r mem_cons_self))
      rw [hfinish]
      apply ih s1 _ hkeys.2 _ hnone'
      · intro slot
        by_cases heq : r.1 = slot
        · exact heq ▸ hslot
        · exact (hslots slot).same (finish_same hfinish heq)
      · intro r' hr'
        have hne : r.1 ≠ r'.1 := fun heq => hkeys.1 (heq ▸ mem_map_of_mem hr')
        rw [(finish_same hfinish hne).1]
        exact hrest r' hr'
    · obtain ⟨rolls, s', heq, hslots', hrolling'⟩ := ih s hslots hkeys.2 hrest hnone'
      rw [heq]
      refine ⟨r :: rolls, s', rfl, hslots', ?_⟩
      intro r' hr'
      cases hr' with
      | head =>
        rw [(updateRolls_same rest s rolls s' heq hkeys.1).1]
        exact hrolling r mem_cons_self
      | tail _ hr' => exact hrolling' r' hr'

/-- With a disenchanting winner, if the loop returns, there is an item that was
rewarded and is not looted. -/
theorem updateRolls_disenchant :
    ∀ (s : LootState G) (rolls : List (Nat × LootRoll G)) (s' : LootState G),
      updateRolls env l s = some (rolls, s') → (l.map Prod.fst).Nodup →
      (∀ r ∈ l, SlotOk s r.1 ∧ ∃ item, s.loot.items[r.1]? = some item ∧ item.isBlocked = true) →
      (∃ r ∈ l, Disenchants env r.2) →
      ∃ slot item, s'.loot.items[slot]? = some item ∧ item.freeforall = false ∧
        item.isLooted = false ∧ s'.rewardCount slot = 1 := by
  induction l with
  | nil =>
    intro s rolls s' _ _ _ hbad
    obtain ⟨r, hr, _⟩ := hbad
    cases hr
  | cons r rest ih =>
    intro s rolls s' h hkeys hslots hbad
    simp only [map_cons, nodup_cons] at hkeys
    unfold updateRolls at h
    by_cases hhead : Disenchants env r.2
    · obtain ⟨hdue, player, number, hwinner, hconnected⟩ := (disenchants_iff r.2).mp hhead
      obtain ⟨hok, item, hitem, hblocked⟩ := hslots r mem_cons_self
      rw [if_pos hdue, hwinner] at h
      cases hfinish : finish env r.1 (some (player, ⟨.disenchant, number⟩)) s with
      | none =>
        rw [hfinish] at h
        cases h
      | some s1 =>
        rw [hfinish] at h
        obtain ⟨item', hitem', hffa, hleft, hcount⟩ :=
          finish_disenchant hok hitem hblocked hconnected hfinish
        have hsame := updateRolls_same rest s1 rolls s' h hkeys.1
        exact ⟨r.1, item', by rw [hsame.1, hitem'], hffa, hleft, by rw [hsame.2, hcount]⟩
    · have hrest : ∃ r ∈ rest, Disenchants env r.2 := by
        obtain ⟨r', hr', hdis⟩ := hbad
        cases hr' with
        | head => exact absurd hdis hhead
        | tail _ hr' => exact ⟨r', hr', hdis⟩
      split at h
      · cases hfinish : finish env r.1 r.2.winner s with
        | none =>
          rw [hfinish] at h
          cases h
        | some s1 =>
          rw [hfinish] at h
          apply ih s1 rolls s' h hkeys.2 _ hrest
          intro r' hr'
          have hne : r.1 ≠ r'.1 := fun heq => hkeys.1 (heq ▸ mem_map_of_mem hr')
          have hsame := finish_same hfinish hne
          obtain ⟨hok, hitem⟩ := hslots r' (mem_cons_of_mem r hr')
          rw [hsame.1]
          exact ⟨hok.same hsame, hitem⟩
      · cases hrun : updateRolls env rest s with
        | none =>
          rw [hrun] at h
          cases h
        | some result =>
          rw [hrun] at h
          cases h
          exact ih s result.1 _ hrun hkeys.2 (fun r' hr' => hslots r' (mem_cons_of_mem r hr')) hrest

end

theorem update_keeps (h : LootOk s) (hnone : ∀ r ∈ s.loot.rolls, ¬ Disenchants env r.2) :
    ∃ s', s.update env = some s' ∧ LootOk s' := by
  obtain ⟨rolls, s1, heq, hslots, hrolling⟩ :=
    updateRolls_ok s.loot.rolls s h.slots h.keys h.rolling hnone
  obtain ⟨hopened, hsub⟩ := updateRolls_wasOpened _ s rolls s1 heq
  unfold LootState.update
  rw [heq]
  refine ⟨_, rfl, ?_, (hsub.map Prod.fst).nodup h.keys, hrolling, ?_⟩
  · intro slot
    exact (hslots slot).same ⟨rfl, rfl⟩
  · intro hclosed
    rw [h.closed (hopened ▸ hclosed)] at hsub
    exact List.sublist_nil.mp hsub

theorem storeLootItem_keeps (h : LootOk s) (player : G) (i : Nat) (canStoreNewItem : Bool) :
    LootOk (s.storeLootItem player i canStoreNewItem) := by
  obtain ⟨hrolls, hopened⟩ := s.storeLootItem_frame player i canStoreNewItem
  refine ⟨fun slot => (h.slots slot).storeLootItem player i canStoreNewItem, ?_, ?_, ?_⟩
  · rw [hrolls]
    exact h.keys
  · rw [hrolls]
    intro r hr
    obtain ⟨item, hitem, hblocked⟩ := h.rolling r hr
    refine ⟨item, ?_, hblocked⟩
    rw [(s.storeLootItem_same player i canStoreNewItem fun _ => ⟨item, hitem, hblocked⟩).1]
    exact hitem
  · rw [hrolls, hopened]
    exact h.closed

theorem playerVote_keys (loot : Loot G) (player : G) (i : Nat) (vote : RollVote) (draw : Nat) :
    (loot.playerVote player i vote draw).rolls.map Prod.fst = loot.rolls.map Prod.fst := by
  simp only [Loot.playerVote, map_map]
  apply map_congr_left
  intro r _
  simp only [Function.comp_apply]
  split <;> rfl

/-- `TryToStart` on a blocked item keeps it blocked, or unblocks it and starts
nothing; other items stay. -/
theorem tryToStart_cases (env : Surroundings G) (loot : Loot G)
    (hitem : loot.items[i]? = some item) :
    (∃ roll, tryToStart env loot i =
        (true, loot.modifyItem i fun item => { item with isBlocked := true }, roll)) ∨
      ∃ roll, tryToStart env loot i = (false, loot.modifyItem i fun item =>
        { item with isUnderthreshold := true, isBlocked := false }, roll) := by
  unfold tryToStart
  rw [hitem]
  dsimp only
  split
  · exact .inl ⟨_, rfl⟩
  · exact .inr ⟨_, rfl⟩

theorem startRolls_keeps (env : Surroundings G) (ids : List Nat) :
    ∀ s : LootState G, ids.Nodup → Opening ids s →
      Opening [] { s with loot := startRolls env ids s.loot } ∧
        (startRolls env ids s.loot).wasOpened = s.loot.wasOpened := by
  induction ids with
  | nil =>
    intro s _ h
    exact ⟨h, rfl⟩
  | cons i rest ih =>
    intro s hnodup h
    obtain ⟨hi, hnodup⟩ := nodup_cons.mp hnodup
    unfold startRolls
    cases hitem : s.loot.items[i]? with
    | none => exact ih s hnodup h.tail
    | some item =>
      dsimp only
      cases hblocked : item.isBlocked with
      | false => exact ih s hnodup h.tail
      | true =>
        rcases tryToStart_cases env s.loot hitem with ⟨roll, heq⟩ | ⟨roll, heq⟩
        · rw [heq]
          exact ih _ hnodup (h.started hi hitem hblocked)
        · rw [heq]
          exact ih _ hnodup h.unblocked

theorem onLootOpened_keeps (h : LootOk s) (env : Surroundings G) :
    LootOk { s with loot := s.loot.onLootOpened env } := by
  unfold Loot.onLootOpened
  cases hopened : s.loot.wasOpened with
  | true => exact h
  | false =>
    dsimp only
    rw [if_neg Bool.false_ne_true]
    have hrolls := h.closed hopened
    split
    · have hstart := startRolls_keeps env (List.range s.loot.items.length)
        { s with loot := { s.loot with wasOpened := true } } nodup_range
        ⟨fun slot => (h.slots slot).same ⟨rfl, rfl⟩, h.keys, h.rolling,
          fun r hr => by rw [hrolls] at hr; cases hr⟩
      obtain ⟨⟨hslots, hkeys, hrolling, _⟩, hflag⟩ := hstart
      refine ⟨hslots, hkeys, hrolling, fun hclosed => ?_⟩
      rw [hflag] at hclosed
      cases hclosed
    · exact ⟨fun slot => (h.slots slot).same ⟨rfl, rfl⟩, h.keys, h.rolling,
        fun hclosed => by cases hclosed⟩

theorem fillNotNormalLootFor_generated (allowedForPlayer : G → LootItem G → Bool)
    (players : List G) : ∀ loot : Loot G, Generated loot →
      Generated (players.foldl (Loot.fillNotNormalLootFor allowedForPlayer) loot) := by
  induction players with
  | nil =>
    intro loot h
    exact h
  | cons player rest ih =>
    intro loot h
    refine ih _ ⟨fun item hitem => ?_, h.rolls⟩
    obtain ⟨old, hold, rfl⟩ := mem_map.mp hitem
    unfold LootItem.fillFor
    split
    · exact h.unopened old hold
    · exact h.unopened old hold

theorem fillGroup_slots {loot : Loot G} (h : Generated loot) (isCorpse : Bool) (lootOwner : G)
    (members : List G) (lootThreshold : Nat) (quality : Nat → Option Nat)
    (allowedForPlayer : G → LootItem G → Bool) :
    (loot.fillGroup isCorpse lootOwner members lootThreshold quality allowedForPlayer).rolls = [] ∧
      ∀ item ∈ (loot.fillGroup isCorpse lootOwner members lootThreshold quality
          allowedForPlayer).items,
        item.isLooted = false ∧ (item.isBlocked = true → item.freeforall = false) := by
  unfold Loot.fillGroup
  have hfilled := fillNotNormalLootFor_generated allowedForPlayer members
    (if isCorpse = true then { loot with roundRobinPlayer := some lootOwner } else loot) (by
      split
      · exact ⟨h.unopened, h.rolls⟩
      · exact h)
  refine ⟨hfilled.rolls, fun item hitem => ?_⟩
  obtain ⟨old, hold, rfl⟩ := mem_map.mp hitem
  exact setThreshold_slot _ lootThreshold quality (hfilled.unopened old hold)

end LegionServer.Source.Looting
