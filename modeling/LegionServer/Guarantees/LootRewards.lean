import LegionServer.Library.Transition
import LegionServer.Source.Looting.FillCount

/-!
# Rewards of group loot over whole runs

Loot filled for a group under group loot or need before greed, opened, voted on, updated
and looted from in any order.
-/
open List
namespace LegionServer.Guarantees.LootRewards
open Library Source.Looting

section

variable {G : Type*}

inductive LootRequest (G : Type*) where
  | onLootOpened (env : Surroundings G)
  | playerVote (player : G) (lootListId : Nat) (vote : RollVote) (draw : Nat)
  | update (env : Surroundings G)
  | storeLootItem (player : G) (lootSlot : Nat) (canStoreNewItem : Bool)
  /-- The maps of rolls and of votes are unordered: another iteration order. -/
  | rehash

/-- The same rolls and votes in another iteration order. -/
def Reordered (rolls rolls' : List (Nat × LootRoll G)) : Prop :=
  ∃ moved, rolls.Perm moved ∧ List.Forall₂ (fun a b => a.1 = b.1 ∧
    a.2.rollVoteMap.Perm b.2.rollVoteMap ∧ a.2.isStarted = b.2.isStarted ∧
    a.2.endTime = b.2.endTime) moved rolls'

variable {rolls rolls' : List (Nat × LootRoll G)}

theorem forall₂_keys {R : Nat × LootRoll G → Nat × LootRoll G → Prop}
    (hR : ∀ a b, R a b → a.1 = b.1) (h : List.Forall₂ R rolls rolls') :
    rolls.map Prod.fst = rolls'.map Prod.fst := by
  induction h with
  | nil => rfl
  | cons hhead _ ih => rw [map_cons, map_cons, hR _ _ hhead, ih]

theorem reordered_keys (h : Reordered rolls rolls') :
    (rolls'.map Prod.fst).Perm (rolls.map Prod.fst) := by
  obtain ⟨moved, hperm, hsame⟩ := h
  rw [← forall₂_keys (fun a b hab => hab.1) hsame]
  exact (hperm.map Prod.fst).symm

variable [DecidableEq G]

/-- Freshly filled for a group; nothing is opened or given away yet. -/
def Filled (s : LootState G) : Prop :=
  ∃ (lootMethod : LootMethod) (lootMaster : Option G) (entries : List LootStoreItem)
      (isCorpse : Bool) (lootOwner : G) (members : List G) (lootThreshold : Nat)
      (quality : Nat → Option Nat) (allowedForPlayer : G → LootItem G → Bool),
    (lootMethod = .groupLoot ∨ lootMethod = .needBeforeGreed) ∧
    s = { loot := Loot.fillGroup (entries.foldl Loot.addItem { lootMethod, lootMaster }) isCorpse
            lootOwner members lootThreshold quality allowedForPlayer }

def LootRequest.performs (s s' : LootState G) : LootRequest G → Prop
  | .onLootOpened env => s' = { s with loot := s.loot.onLootOpened env }
  | .playerVote player lootListId vote draw =>
    s' = { s with loot := s.loot.playerVote player lootListId vote draw }
  | .update env => s.update env = some s'
  | .storeLootItem player lootSlot canStoreNewItem =>
    s' = s.storeLootItem player lootSlot canStoreNewItem
  | .rehash => ∃ rolls, Reordered s.loot.rolls rolls ∧ s' = { s with loot := { s.loot with rolls } }

def lootSystem (G : Type*) [DecidableEq G] : System (LootState G) (LootRequest G) where
  init := Filled
  step request s s' := request.performs s s'

/-- Every item that is not free for all is given away at most once, and after
that it is offered to nobody. -/
def RewardedOnce (s : LootState G) : Prop :=
  ∀ slot item, s.loot.items[slot]? = some item → item.freeforall = false → s.rewardCount slot ≤ 1 ∧
    (0 < s.rewardCount slot → ∀ player, s.loot.lootItemInSlot slot player = none ∧
      item.getUiTypeForPlayer player s.loot = none)

def LootRequest.duplicates (s : LootState G) : LootRequest G → Prop
  | .update env => ∃ r ∈ s.loot.rolls, Disenchants env r.2
  | _ => False

variable {s s' : LootState G} {env : Surroundings G}

theorem rewardedOnce_of_ok (h : LootOk s) : RewardedOnce s := by
  intro slot item hitem hffa
  refine ⟨(h.slots slot).once item hitem hffa, fun hpos player => ?_⟩
  have hlooted : item.isLooted = true := by
    cases hleft : item.isLooted with
    | true => rfl
    | false =>
      rw [(h.slots slot).gone item hitem hffa hleft] at hpos
      cases hpos
  constructor
  · simp [Loot.lootItemInSlot, hitem, hffa, hlooted]
  · simp [LootItem.getUiTypeForPlayer, hlooted]

/-- A rewarded item that is not looted is offered by `LootItemInSlot`. -/
theorem not_rewardedOnce {slot : Nat} {item : LootItem G} (player : G)
    (hitem : s.loot.items[slot]? = some item) (hffa : item.freeforall = false)
    (hleft : item.isLooted = false) (hcount : 0 < s.rewardCount slot) : ¬ RewardedOnce s := by
  intro h
  have hgone := (((h slot item hitem hffa).2 hcount) player).1
  simp [Loot.lootItemInSlot, hitem, hffa, hleft] at hgone

theorem update_duplicates (h : LootOk s) (hbad : ∃ r ∈ s.loot.rolls, Disenchants env r.2)
    (hrun : s.update env = some s') : ¬ RewardedOnce s' := by
  unfold LootState.update at hrun
  cases hrolls : updateRolls env s.loot.rolls s with
  | none =>
    rw [hrolls] at hrun
    cases hrun
  | some result =>
    rw [hrolls] at hrun
    cases hrun
    obtain ⟨slot, item, hitem, hffa, hleft, hcount⟩ := updateRolls_disenchant s.loot.rolls s
      result.1 result.2 hrolls h.keys (fun r hr => ⟨h.slots r.1, h.rolling r hr⟩) hbad
    obtain ⟨_, _, _, player, _⟩ := hbad
    exact not_rewardedOnce player hitem hffa hleft (Nat.lt_of_lt_of_eq Nat.one_pos hcount.symm)

theorem filled_ok (h : Filled s) : LootOk s := by
  obtain ⟨lootMethod, lootMaster, entries, isCorpse, lootOwner, members, lootThreshold, quality,
    allowedForPlayer, _, rfl⟩ := h
  obtain ⟨hrolls, hslots⟩ := fillGroup_slots
    (addItems_generated entries ({ lootMethod, lootMaster } : Loot G)
      ⟨fun _ hitem => absurd hitem not_mem_nil, rfl⟩)
    isCorpse lootOwner members lootThreshold quality allowedForPlayer
  refine ⟨fun slot => ⟨fun _ _ _ => Nat.zero_le 1, fun _ _ _ _ => rfl, ?_⟩, ?_, ?_,
    fun _ => hrolls⟩
  · intro item hitem hblocked
    obtain ⟨hleft, hffa⟩ := hslots item (mem_of_getElem? hitem)
    exact ⟨hffa hblocked, hleft⟩
  · dsimp only
    rw [hrolls]
    exact nodup_nil
  · intro r hr
    rw [hrolls] at hr
    cases hr

theorem performs_keeps (request : LootRequest G) (h : LootOk s)
    (hok : ¬ request.duplicates s) (hstep : request.performs s s') : LootOk s' := by
  cases request with
  | onLootOpened env =>
    cases hstep
    exact onLootOpened_keeps h env
  | playerVote player lootListId vote draw =>
    cases hstep
    exact h.rolls (.of_eq (playerVote_keys s.loot player lootListId vote draw))
  | update env =>
    obtain ⟨after, heq, hafter⟩ := update_keeps h fun r hr hdis => hok ⟨r, hr, hdis⟩
    cases Option.some.inj (heq.symm.trans hstep)
    exact hafter
  | storeLootItem player lootSlot canStoreNewItem =>
    cases hstep
    exact storeLootItem_keeps h player lootSlot canStoreNewItem
  | rehash =>
    obtain ⟨rolls, hreordered, rfl⟩ := hstep
    exact h.rolls (reordered_keys hreordered)

/-- While no update ends a roll that a connected player wins for disenchanting,
every item is given away at most once and then offered to nobody; and at each
state of such a run the next request keeps this exactly if it is no such update. -/
theorem reachable_rewarded_once
    (h : ((lootSystem G).guarded fun request s => ¬ request.duplicates s).Reachable s) :
    RewardedOnce s ∧ ∀ (request : LootRequest G) (s' : LootState G), request.performs s s' →
      (RewardedOnce s' ↔ ¬ request.duplicates s) := by
  have hok : LootOk s := by
    refine h.invariant LootOk (fun _ hinit => filled_ok hinit) ?_
    intro request s s' hs hstep
    exact performs_keeps request hs hstep.1 hstep.2
  refine ⟨rewardedOnce_of_ok hok, fun request s' hstep => ⟨fun honce hbad => ?_, fun hgood => ?_⟩⟩
  · cases request with
    | update env => exact update_duplicates hok hbad hstep honce
    | onLootOpened env => exact hbad
    | playerVote player lootListId vote draw => exact hbad
    | storeLootItem player lootSlot canStoreNewItem => exact hbad
    | rehash => exact hbad
  · exact rewardedOnce_of_ok (performs_keeps request hok hgood hstep)

def sword : LootStoreItem where
  itemid := 900
  count := 1
  needsQuest := false
  freeforall := false
  followLootRules := true
  maxStackSize := 1

def dust : LootStoreItem where
  itemid := 901
  count := 2
  needsQuest := false
  freeforall := false
  followLootRules := true
  maxStackSize := 20

def swordLoot : LootState Nat where
  loot := Loot.fillGroup (List.foldl Loot.addItem { lootMethod := .groupLoot } [sword])
    true 1 [1, 2] 2 (fun _ => some 3) (fun _ _ => true)

theorem swordLoot_filled : Filled swordLoot :=
  ⟨.groupLoot, none, _, true, 1, [1, 2], 2, _, _, .inl rfl, rfl⟩

def swordRaid : Surroundings Nat where
  now := 0
  onMap _ := true
  connected _ := true
  passOnGroupLoot _ := false
  canStoreNewItem _ _ := true
  canStoreMaterial _ _ := true
  disenchantLoot _ player := some
    (Loot.fillPersonal (Loot.addItem { lootMethod := .freeForAll } dust) player fun _ _ => true)

def swordOpened : LootState Nat :=
  { swordLoot with loot := swordLoot.loot.onLootOpened swordRaid }

def swordVoted (vote : RollVote) : LootState Nat :=
  { swordOpened with
    loot := (swordOpened.loot.playerVote 1 0 vote 50).playerVote 2 0 .greed 20 }

example : ((swordVoted .disenchant).update swordRaid).map
    (fun s => (s.rewardCount 0, (s.loot.lootItemInSlot 0 1).isSome)) = some (1, true) := by
  decide

/-- Player 1 wins by need and gets the sword once. -/
theorem reachable_rewarded_once_need : ∃ s, (swordVoted .need).update swordRaid = some s ∧
    s.rewardCount 0 = 1 ∧ RewardedOnce s := by
  refine ⟨_, rfl, by decide, (reachable_rewarded_once (.step (.update swordRaid)
    (.step (.playerVote 2 0 .greed 20) (.step (.playerVote 1 0 .need 50)
      (.step (.onLootOpened swordRaid) (.init swordLoot_filled) ⟨id, rfl⟩) ⟨id, rfl⟩) ⟨id, rfl⟩)
    ⟨?_, rfl⟩)).1⟩
  intro hdis
  obtain ⟨r, hr, _, player, ⟨hneed, _⟩, _⟩ := hdis
  have hvotes : r.2.rollVoteMap = [(1, ⟨.need, 50⟩), (2, ⟨.greed, 20⟩)] := by
    rw [List.mem_singleton.mp hr]
    rfl
  exact hneed (1, ⟨.need, 50⟩) (by rw [hvotes]; exact mem_cons_self) rfl

/-- Player 1 wins by disenchanting, gets the materials and then loots the sword. -/
theorem disenchanted_sword_looted : ∃ s, (lootSystem Nat).Reachable s ∧ s.rewardCount 0 = 2 ∧
    ¬ RewardedOnce s := by
  have hitem : ∃ s, (lootSystem Nat).Reachable s ∧ s.rewardCount 0 = 2 ∧
      ∃ item, s.loot.items[0]? = some item ∧ item.freeforall = false :=
    ⟨_, .step (.storeLootItem 1 0 true) (.step (.update swordRaid)
      (.step (.playerVote 2 0 .greed 20) (.step (.playerVote 1 0 .disenchant 50)
        (.step (.onLootOpened swordRaid) (.init swordLoot_filled) rfl) rfl) rfl) rfl) rfl,
      by decide, _, rfl, rfl⟩
  obtain ⟨s, hreach, hcount, item, hslot, hffa⟩ := hitem
  refine ⟨s, hreach, hcount, fun honce => ?_⟩
  have hone := (honce 0 item hslot hffa).1
  rw [hcount] at hone
  exact absurd hone (by decide)

end

/-!
# The unlooted counter over whole runs

Loot of any templates for any looters, then opened, rolled for, looted, stored
automatically and emptied of its gold in any order.
-/
section

variable {G : Type*} {s s' : GoldLoot G}

inductive CountRequest (G : Type*) where
  /-- Opening, rolls and `StoreLootItem`. -/
  | group (request : LootRequest G)
  | autoStore (player : G) (canStoreNewItem : Nat → Bool)
  | lootMoney

/-- The counter is the number of remaining counted entries, and the loot is looted
exactly if it has no gold and nobody has anything left to take. -/
structure RightlyCounted (s : GoldLoot G) : Prop where
  counter : s.loot.unlootedCount.toNat = s.loot.remaining
  isLooted : s.isLooted = true ↔ s.gold = 0 ∧ ∀ player, ¬ s.loot.leftFor player

/-- The counter and the gold tell whether anything is left, as long as the counter
has not wrapped. -/
theorem rightlyCounted_of_small (h : Counted s.loot) (hsmall : s.loot.remaining ≤ 255) :
    RightlyCounted s := by
  have hcounter : s.loot.unlootedCount.toNat = s.loot.remaining := by
    rw [h.counter, UInt8.toNat_ofNat']
    omega
  refine ⟨hcounter, ?_⟩
  rw [← remaining_eq_zero_iff h, ← hcounter]
  simp [GoldLoot.isLooted, ← UInt8.toNat_inj]

variable [DecidableEq G]

def CountRequest.performs (s s' : GoldLoot G) : CountRequest G → Prop
  | .group request =>
    s'.gold = s.gold ∧ ∃ rewards rewards', request.performs ⟨s.loot, rewards⟩ ⟨s'.loot, rewards'⟩
  | .autoStore player canStoreNewItem =>
    s' = { s with loot := (s.loot.autoStore player canStoreNewItem).1 }
  | .lootMoney => s' = s.handleLootMoney

def countSystem (fill : Fill G) : System (GoldLoot G) (CountRequest G) where
  init s := s = { loot := fill.loot, gold := fill.gold }
  step request s s' := request.performs s s'

theorem performs_counted (request : CountRequest G) (h : Counted s.loot)
    (hstep : request.performs s s') : Keeps s.loot s'.loot := by
  cases request with
  | autoStore player canStoreNewItem =>
    cases hstep
    exact autoStore_counted player canStoreNewItem _ 0 s.loot h
  | lootMoney =>
    cases hstep
    exact h.keeps
  | group request =>
    obtain ⟨_, rewards, rewards', hstep⟩ := hstep
    cases request with
    | onLootOpened env =>
      rw [(LootState.mk.inj hstep).1]
      exact onLootOpened_counted h env
    | playerVote player lootListId vote draw =>
      rw [(LootState.mk.inj hstep).1]
      exact h.rolls _ s.loot.wasOpened
    | update env => exact update_counted (s := ⟨s.loot, rewards⟩) h hstep
    | storeLootItem player lootSlot canStoreNewItem =>
      have hloot := congrArg LootState.loot hstep
      dsimp only at hloot
      rw [hloot]
      exact state_storeLootItem_counted (s := ⟨s.loot, rewards⟩) h player lootSlot canStoreNewItem
    | rehash =>
      obtain ⟨rolls, _, hafter⟩ := hstep
      rw [(LootState.mk.inj hafter).1]
      exact h.rolls rolls s.loot.wasOpened

/-- The counter is right in every reachable state exactly if the filling has at
most 255 entries to count. -/
theorem counting_right_iff (fill : Fill G) :
    (∀ s, (countSystem fill).Reachable s → RightlyCounted s) ↔ fill.countedEntries ≤ 255 := by
  obtain ⟨hcounted, hremaining⟩ := fill.loot_counted
  constructor
  · intro hall
    have hfilled := (hall { loot := fill.loot, gold := fill.gold } (.init rfl)).counter
    have hbound := fill.loot.unlootedCount.toNat_lt
    dsimp only at hfilled
    omega
  · intro hsmall s h
    have hinv : Counted s.loot ∧ s.loot.remaining ≤ 255 := by
      refine h.invariant (fun s => Counted s.loot ∧ s.loot.remaining ≤ 255) ?_ ?_
      · intro s hs
        rw [hs]
        exact ⟨hcounted, hremaining ▸ hsmall⟩
      · intro request s s' hs hstep
        obtain ⟨hafter, hless⟩ := performs_counted request hs.1 hstep
        exact ⟨hafter, Nat.le_trans hless hs.2⟩
    exact rightlyCounted_of_small hinv.1 hinv.2

def crowdedFill : Fill Nat where
  lootMethod := .groupLoot
  entries := (List.range 16).map fun itemid =>
    { itemid, count := 1, needsQuest := false, freeforall := true, followLootRules := true,
      maxStackSize := 1 }
  lootOwner := 0
  members := List.range 16
  members_nodup := nodup_range
  allowed := fun _ _ => true

/-- 256 entries are counted as none: the loot that nobody has touched is looted,
while player 0 has items left to take. -/
theorem crowded_loot_looks_looted :
    let s : GoldLoot Nat := { loot := crowdedFill.loot, gold := 0 }
    (countSystem crowdedFill).Reachable s ∧ s.isLooted = true ∧ s.loot.leftFor 0 := by
  have hleft : (crowdedFill.loot.playerFFAItems 0).any
      (fun ffaItems => ffaItems.any fun ffaItem => !ffaItem.isLooted) = true := by
    decide +kernel
  obtain ⟨ffaItems, hffaItems, hany⟩ := (Option.any_eq_true _ _).mp hleft
  obtain ⟨ffaItem, hmem, hthere⟩ := List.any_eq_true.mp hany
  rw [Bool.not_eq_true'] at hthere
  exact ⟨.init rfl, by decide +kernel, .inr ⟨ffaItems, hffaItems, ffaItem, hmem, hthere⟩⟩

end

end LegionServer.Guarantees.LootRewards
