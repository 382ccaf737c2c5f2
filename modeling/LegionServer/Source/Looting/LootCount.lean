import LegionServer.Library.Count
import LegionServer.Source.Looting.LootInvariant

/-!
# The counter of unlooted entries

`isLooted`, the gold of a loot (`Loot.h:284-306`, `LootHandler.cpp:143-211`) and what
`unlootedCount` is meant to count: the items that somebody may take, and every
player's own entries for items that are free for all.
-/
namespace LegionServer.Source.Looting
open Library List Function

variable {G : Type*}

structure GoldLoot (G : Type*) where
  loot : Loot G
  gold : UInt32

def GoldLoot.isLooted (s : GoldLoot G) : Bool := s.gold == 0 && s.loot.unlootedCount == 0

/-- What `HandleLootMoneyOpcode` leaves of the loot. -/
def GoldLoot.handleLootMoney (s : GoldLoot G) : GoldLoot G := { s with gold := 0 }

def LootItem.remains (item : LootItem G) : Bool :=
  !item.freeforall && item.isCounted && !item.isLooted

def Loot.entriesLeft (loot : Loot G) (player : G) : Nat :=
  match loot.playerFFAItems player with
  | some ffaItems => ffaItems.countP fun ffaItem => !ffaItem.isLooted
  | none => 0

def Loot.remaining (loot : Loot G) : Nat :=
  loot.items.countP LootItem.remains + (loot.allowedLooters.map loot.entriesLeft).sum

def Loot.leftFor (loot : Loot G) (player : G) : Prop :=
  (∃ item ∈ loot.items, item.freeforall = false ∧ item.isLooted = false ∧
      player ∈ item.allowedGUIDs) ∨
    ∃ ffaItems, loot.playerFFAItems player = some ffaItems ∧
      ∃ ffaItem ∈ ffaItems, ffaItem.isLooted = false

/-- Items are numbered, counted for their looters, and a looter of an item that is
free for all has an entry for it; the counter counts modulo 256. -/
structure Counted (loot : Loot G) : Prop where
  looters : loot.allowedLooters.Nodup
  numbered : ∀ (i : Nat) item, loot.items[i]? = some item → item.lootListId = i
  counted : ∀ item ∈ loot.items, item.freeforall = false →
    (item.isCounted = true ↔ item.allowedGUIDs ≠ [])
  entries : ∀ player ffaItems, loot.playerFFAItems player = some ffaItems →
    player ∈ loot.allowedLooters
  listed : ∀ item ∈ loot.items, item.freeforall = true → ∀ player ∈ item.allowedGUIDs,
    ∃ ffaItems, loot.playerFFAItems player = some ffaItems ∧
      ∃ ffaItem ∈ ffaItems, ffaItem.lootListId = item.lootListId
  counter : loot.unlootedCount = UInt8.ofNat loot.remaining

variable {loot loot' : Loot G}

theorem remaining_eq_zero_iff (h : Counted loot) :
    loot.remaining = 0 ↔ ∀ player, ¬ loot.leftFor player := by
  constructor
  · intro hzero player hleft
    unfold Loot.remaining at hzero
    have hitems : loot.items.countP LootItem.remains = 0 := by omega
    have hentries : (loot.allowedLooters.map loot.entriesLeft).sum = 0 := by omega
    rcases hleft with ⟨item, hitem, hffa, hthere, hallowed⟩ | ⟨ffaItems, hffaItems, entry, hentry, hthere⟩
    · have hnot := countP_eq_zero.mp hitems item hitem
      have hcounted := (h.counted item hitem hffa).mpr (ne_nil_of_mem hallowed)
      simp [LootItem.remains, hffa, hthere, hcounted] at hnot
    · have hmem := mem_map_of_mem (f := loot.entriesLeft) (h.entries player ffaItems hffaItems)
      have hnone := List.sum_eq_zero_iff_forall_eq_nat.mp hentries _ hmem
      simp only [Loot.entriesLeft, hffaItems, countP_eq_zero] at hnone
      simpa [hthere] using hnone entry hentry
  · intro hnobody
    have hitems : loot.items.countP LootItem.remains = 0 := by
      rw [countP_eq_zero]
      intro item hitem hremains
      simp only [LootItem.remains, Bool.and_eq_true, Bool.not_eq_true'] at hremains
      obtain ⟨⟨hffa, hcounted⟩, hthere⟩ := hremains
      obtain ⟨player, hplayer⟩ := exists_mem_of_ne_nil _ ((h.counted item hitem hffa).mp hcounted)
      exact hnobody player (.inl ⟨item, hitem, hffa, hthere, hplayer⟩)
    have hentries : (loot.allowedLooters.map loot.entriesLeft).sum = 0 := by
      rw [List.sum_eq_zero_iff_forall_eq_nat]
      intro n hn
      obtain ⟨player, _, rfl⟩ := List.mem_map.mp hn
      unfold Loot.entriesLeft
      split
      · rename_i ffaItems hffaItems
        rw [countP_eq_zero]
        intro entry hentry hthere
        rw [Bool.not_eq_true'] at hthere
        exact hnobody player (.inr ⟨ffaItems, hffaItems, entry, hentry, hthere⟩)
      · rfl
    rw [Loot.remaining, hitems, hentries]

structure SameEntry (old new : LootItem G) : Prop where
  lootListId : new.lootListId = old.lootListId
  allowedGUIDs : new.allowedGUIDs = old.allowedGUIDs
  isLooted : new.isLooted = old.isLooted
  freeforall : new.freeforall = old.freeforall
  isCounted : new.isCounted = old.isCounted

theorem SameEntry.remains {old new : LootItem G} (h : SameEntry old new) :
    new.remains = old.remains := by
  unfold LootItem.remains
  rw [h.freeforall, h.isCounted, h.isLooted]

/-- The count is kept, or lowered together with the counter. -/
def Keeps (loot loot' : Loot G) : Prop := Counted loot' ∧ loot'.remaining ≤ loot.remaining

theorem Keeps.trans {loot'' : Loot G} (h : Keeps loot loot') (h' : Keeps loot' loot'') :
    Keeps loot loot'' := ⟨h'.1, Nat.le_trans h'.2 h.2⟩

theorem Counted.keeps (h : Counted loot) : Keeps loot loot := ⟨h, Nat.le_refl _⟩

theorem Counted.items {items : List (LootItem G)} (h : Counted loot)
    (hold : ∀ (i : Nat) item, items[i]? = some item → ∃ old, loot.items[i]? = some old ∧ SameEntry old item)
    (hcount : items.countP LootItem.remains = loot.items.countP LootItem.remains) :
    Counted { loot with items := items } ∧
      Loot.remaining { loot with items := items } = loot.remaining := by
  have hmem : ∀ item ∈ items, ∃ old ∈ loot.items, SameEntry old item := by
    intro item hitem
    obtain ⟨i, hi⟩ := mem_iff_getElem?.mp hitem
    obtain ⟨old, hold, hsame⟩ := hold i item hi
    exact ⟨old, mem_of_getElem? hold, hsame⟩
  have hremaining : Loot.remaining { loot with items := items } = loot.remaining := by
    unfold Loot.remaining
    rw [hcount]
    rfl
  refine ⟨⟨h.looters, ?_, ?_, h.entries, ?_, ?_⟩, hremaining⟩
  · intro i item hitem
    obtain ⟨old, hold, hsame⟩ := hold i item hitem
    rw [hsame.lootListId]
    exact h.numbered i old hold
  · intro item hitem hffa
    obtain ⟨old, hold, hsame⟩ := hmem item hitem
    rw [hsame.isCounted, hsame.allowedGUIDs]
    exact h.counted old hold (hsame.freeforall ▸ hffa)
  · intro item hitem hffa player hplayer
    obtain ⟨old, hold, hsame⟩ := hmem item hitem
    rw [hsame.allowedGUIDs] at hplayer
    rw [hsame.lootListId]
    exact h.listed old hold (hsame.freeforall ▸ hffa) player hplayer
  · rw [hremaining]
    exact h.counter

theorem Counted.modifyItem (h : Counted loot) (i : Nat) {f : LootItem G → LootItem G}
    (hf : ∀ item, SameEntry item (f item)) : Keeps loot (loot.modifyItem i f) := by
  have hitems : ∀ (j : Nat) item, (loot.items.modify i f)[j]? = some item →
      ∃ old, loot.items[j]? = some old ∧ SameEntry old item := by
    intro j item hitem
    change (loot.modifyItem i f).items[j]? = some item at hitem
    rw [modifyItem_getElem?] at hitem
    split at hitem
    · obtain ⟨old, hold, rfl⟩ := Option.map_eq_some_iff.mp hitem
      exact ⟨old, hold, hf old⟩
    · exact ⟨item, hitem, rfl, rfl, rfl, rfl, rfl⟩
  obtain ⟨hcounted, hremaining⟩ :=
    h.items hitems (countP_modify_same (fun item => (hf item).remains) i)
  exact ⟨hcounted, Nat.le_of_eq hremaining⟩

theorem Counted.map (h : Counted loot) {f : LootItem G → LootItem G}
    (hf : ∀ item, SameEntry item (f item)) : Counted { loot with items := loot.items.map f } ∧
      Loot.remaining { loot with items := loot.items.map f } = loot.remaining := by
  apply h.items
  · intro i item hitem
    rw [getElem?_map] at hitem
    obtain ⟨old, hold, rfl⟩ := Option.map_eq_some_iff.mp hitem
    exact ⟨old, hold, hf old⟩
  · rw [countP_map]
    apply countP_congr
    intro item _
    rw [comp_apply, (hf item).remains]

theorem Counted.rolls (h : Counted loot) (rolls : List (Nat × LootRoll G)) (wasOpened : Bool) :
    Keeps loot { loot with rolls, wasOpened } :=
  ⟨⟨h.looters, h.numbered, h.counted, h.entries, h.listed, h.counter⟩, Nat.le_refl _⟩

theorem counter_lowered {before after : Nat} {counter count : UInt8}
    (hcounter : counter = UInt8.ofNat before) (hcount : count = counter - 1)
    (hlower : after + 1 = before) : count = UInt8.ofNat after := by
  rw [hcount, hcounter, ← hlower, UInt8.ofNat_add]
  exact UInt8.add_sub_cancel ..

section Looting

variable [DecidableEq G]

variable {i : Nat} {player : G} {item : LootItem G}

theorem lootable_spec {self : Option G} (h : loot.lootable i player self = some item) :
    loot.items[i]? = some item ∧ item.isLooted = false ∧ player ∈ item.allowedGUIDs ∧
      (item.freeforall = true → ∀ entry, loot.ffaItem i player = some entry →
        entry.isLooted = false) := by
  unfold Loot.lootable at h
  cases hslot : loot.lootItemInSlot i player with
  | none => simp [hslot] at h
  | some found =>
    simp only [hslot] at h
    split at h
    · cases h
    rename_i hfree
    cases h
    simp only [Bool.or_eq_true, not_or, Bool.not_eq_true, Bool.not_eq_false',
      LootItem.hasAllowedLooter, decide_eq_true_eq] at hfree
    unfold Loot.lootItemInSlot at hslot
    cases hitem : loot.items[i]? with
    | none => simp [hitem] at hslot
    | some stored =>
      simp only [hitem, Option.ite_none_left_eq_some, Option.some.injEq] at hslot
      obtain ⟨hthere, rfl⟩ := hslot
      refine ⟨rfl, hfree.1.1.1, hfree.1.1.2, fun hffa entry hentry => ?_⟩
      rw [if_pos hffa, hentry, Bool.not_eq_true] at hthere
      exact hthere

theorem markLooted_item (h : Counted loot) (hitem : loot.items[i]? = some item)
    (hffa : item.freeforall = false) (hthere : item.isLooted = false)
    (hallowed : player ∈ item.allowedGUIDs) : Keeps loot (loot.markLooted i item player) := by
  let items := loot.items.modify i fun item => { item with isLooted := true }
  have hmarked : loot.markLooted i item player =
      { loot with items := items, unlootedCount := loot.unlootedCount - 1 } := by
    simp [Loot.markLooted, hffa, Loot.modifyItem, items]
  have hcounted := (h.counted item (mem_of_getElem? hitem) hffa).mpr (ne_nil_of_mem hallowed)
  have hless : items.countP LootItem.remains + 1 = loot.items.countP LootItem.remains :=
    countP_modify_unmark hitem (by simp [LootItem.remains, hffa, hcounted, hthere])
      (by simp [LootItem.remains])
  have hremaining : (loot.markLooted i item player).remaining + 1 = loot.remaining := by
    have hentries : (loot.markLooted i item player).entriesLeft = loot.entriesLeft := by
      rw [hmarked]
      rfl
    unfold Loot.remaining
    rw [hentries, hmarked]
    dsimp only
    omega
  have hold : ∀ {j : Nat} {new}, items[j]? = some new → ∃ old, loot.items[j]? = some old ∧
      new.lootListId = old.lootListId ∧ new.freeforall = old.freeforall ∧
      new.isCounted = old.isCounted ∧ new.allowedGUIDs = old.allowedGUIDs := by
    intro j new hnew
    rw [getElem?_modify] at hnew
    obtain ⟨old, hj, hnew⟩ := Option.map_eq_some_iff.mp hnew
    refine ⟨old, hj, ?_⟩
    split at hnew <;> rw [← hnew] <;> exact ⟨rfl, rfl, rfl, rfl⟩
  refine ⟨?_, Nat.le_of_succ_le (Nat.le_of_eq hremaining)⟩
  have hcounter := counter_lowered h.counter
    (show (loot.markLooted i item player).unlootedCount = loot.unlootedCount - 1 by rw [hmarked])
    hremaining
  rw [hmarked] at hcounter ⊢
  refine ⟨h.looters, ?_, ?_, h.entries, ?_, hcounter⟩
  · intro j new hnew
    obtain ⟨old, hj, hid, _⟩ := hold hnew
    rw [hid]
    exact h.numbered j old hj
  · intro new hnew hnewFfa
    obtain ⟨j, hj⟩ := mem_iff_getElem?.mp hnew
    obtain ⟨old, hj, _, holdFfa, holdCounted, holdAllowed⟩ := hold hj
    rw [holdCounted, holdAllowed]
    exact h.counted old (mem_of_getElem? hj) (holdFfa ▸ hnewFfa)
  · intro new hnew hnewFfa p hp
    obtain ⟨j, hj⟩ := mem_iff_getElem?.mp hnew
    obtain ⟨old, hj, hid, holdFfa, _, holdAllowed⟩ := hold hj
    rw [hid]
    exact h.listed old (mem_of_getElem? hj) (holdFfa ▸ hnewFfa) p (holdAllowed ▸ hp)

/-- An item that is free for all is looted for the player: the entry that
`LootItemInSlot` finds is the one that is marked. -/
theorem markLooted_entry (h : Counted loot) (hitem : loot.items[i]? = some item)
    (hffa : item.freeforall = true) (hallowed : player ∈ item.allowedGUIDs)
    (hthere : ∀ entry, loot.ffaItem i player = some entry → entry.isLooted = false) :
    Keeps loot (loot.markLooted i item player) := by
  obtain ⟨ffaItems, hffaItems, own, hown, hownId⟩ :=
    h.listed item (mem_of_getElem? hitem) hffa player hallowed
  rw [h.numbered i item hitem] at hownId
  let place := ffaItems.findIdx fun ffaItem => ffaItem.lootListId = i
  have hlt : place < ffaItems.length :=
    findIdx_lt_length_of_exists ⟨own, hown, by simpa using hownId⟩
  obtain ⟨entry, hplace⟩ : ∃ entry, ffaItems[place]? = some entry :=
    ⟨_, getElem?_eq_getElem hlt⟩
  have hfound : loot.ffaItem i player = some entry := by
    rw [Loot.ffaItem, hffaItems, Option.bind_some, find?_eq_getElem?_findIdx]
    exact hplace
  let marked := ffaItems.modify place fun ffaItem => { ffaItem with isLooted := true }
  let entries := update loot.playerFFAItems player (some marked)
  have hmarked : loot.markLooted i item player =
      { loot with playerFFAItems := entries, unlootedCount := loot.unlootedCount - 1 } := by
    simp [Loot.markLooted, hffa, hffaItems, entries, marked, place]
  have hself : entries player = some marked := update_self ..
  have hother : ∀ p, p ≠ player → entries p = loot.playerFFAItems p :=
    fun p hp => update_of_ne hp ..
  have hless : marked.countP (fun ffaItem => !ffaItem.isLooted) + 1 =
      ffaItems.countP fun ffaItem => !ffaItem.isLooted :=
    countP_modify_unmark hplace (by simp [hthere entry hfound]) rfl
  have hremaining : (loot.markLooted i item player).remaining + 1 = loot.remaining := by
    have hentriesLeft : ∀ p, (loot.markLooted i item player).entriesLeft p =
        match entries p with
        | some ffaItems => ffaItems.countP fun ffaItem => !ffaItem.isLooted
        | none => 0 := by
      intro p
      rw [hmarked]
      rfl
    have hsum : (loot.allowedLooters.map (loot.markLooted i item player).entriesLeft).sum + 1 =
        (loot.allowedLooters.map loot.entriesLeft).sum := by
      refine sum_map_lower h.looters (h.entries player ffaItems hffaItems) ?_ ?_
      · rw [hentriesLeft, hself, Loot.entriesLeft, hffaItems]
        exact hless
      · intro p _ hne
        rw [hentriesLeft, hother p hne, Loot.entriesLeft]
    have hitems : (loot.markLooted i item player).items = loot.items := by rw [hmarked]
    have hlooters : (loot.markLooted i item player).allowedLooters = loot.allowedLooters := by
      rw [hmarked]
    unfold Loot.remaining
    rw [hitems, hlooters]
    omega
  refine ⟨?_, Nat.le_of_succ_le (Nat.le_of_eq hremaining)⟩
  have hcounter := counter_lowered h.counter
    (show (loot.markLooted i item player).unlootedCount = loot.unlootedCount - 1 by rw [hmarked])
    hremaining
  rw [hmarked] at hcounter ⊢
  refine ⟨h.looters, h.numbered, h.counted, ?_, ?_, hcounter⟩
  · intro p es hes
    by_cases hp : p = player
    · exact hp ▸ h.entries player ffaItems hffaItems
    · exact h.entries p es ((hother p hp).symm.trans hes)
  · intro other hotherMem hotherFfa p hp
    obtain ⟨es, hes, e, he, heId⟩ := h.listed other hotherMem hotherFfa p hp
    by_cases hpp : p = player
    · subst hpp
      rw [hffaItems, Option.some.injEq] at hes
      subst hes
      obtain ⟨j, hj⟩ := mem_iff_getElem?.mp he
      refine ⟨marked, hself, if place = j then { e with isLooted := true } else e, ?_, ?_⟩
      · refine mem_iff_getElem?.mpr ⟨j, ?_⟩
        rw [getElem?_modify, hj]
        split <;> rfl
      · split <;> exact heId
    · exact ⟨es, (hother p hpp).trans hes, e, he, heId⟩

theorem markLooted_keeps (h : Counted loot) {self : Option G}
    (hlootable : loot.lootable i player self = some item) :
    Keeps loot (loot.markLooted i item player) := by
  obtain ⟨hitem, hthere, hallowed, hentry⟩ := lootable_spec hlootable
  cases hffa : item.freeforall with
  | false => exact markLooted_item h hitem hffa hthere hallowed
  | true => exact markLooted_entry h hitem hffa hallowed (hentry hffa)

theorem storeLootItem_counted (h : Counted loot) (player : G) (lootSlot : Nat)
    (canStoreNewItem : Bool) :
    Keeps loot (loot.storeLootItem player lootSlot canStoreNewItem).1 := by
  unfold Loot.storeLootItem
  split
  · exact h.keeps
  · rename_i item hlootable
    split
    · exact markLooted_keeps h hlootable
    · exact h.keeps

theorem autoStore_counted (player : G) (canStoreNewItem : Nat → Bool) (fuel : Nat) :
    ∀ (i : Nat) (loot : Loot G), Counted loot →
      Keeps loot (Loot.autoStoreFrom player canStoreNewItem fuel i loot).1 := by
  induction fuel with
  | zero => exact fun i loot h => h.keeps
  | succ fuel ih =>
    intro i loot h
    unfold Loot.autoStoreFrom
    split
    · exact ih (i + 1) loot h
    rename_i item hlootable
    split
    · have hmarked := markLooted_keeps h hlootable
      exact hmarked.trans (ih (i + 1) _ hmarked.1)
    · exact ih (i + 1) loot h

theorem state_storeLootItem_counted {s : LootState G} (h : Counted s.loot) (player : G)
    (lootSlot : Nat) (canStoreNewItem : Bool) :
    Keeps s.loot (s.storeLootItem player lootSlot canStoreNewItem).loot := by
  have hkeeps := storeLootItem_counted h player lootSlot canStoreNewItem
  unfold LootState.storeLootItem
  split
  · rename_i loot heq
    rw [heq] at hkeeps
    exact hkeeps
  · rename_i loot item heq
    rw [heq] at hkeeps
    exact hkeeps

end Looting

section Rolling

variable [DecidableEq G] {env : Surroundings G}

theorem tryToStart_counted (h : Counted loot) (i : Nat) :
    Keeps loot (tryToStart env loot i).2.1 := by
  unfold tryToStart
  split
  · exact h.keeps
  · dsimp only
    split
    · exact h.modifyItem i fun _ => ⟨rfl, rfl, rfl, rfl, rfl⟩
    · exact h.modifyItem i fun _ => ⟨rfl, rfl, rfl, rfl, rfl⟩

theorem startRolls_counted (ids : List Nat) :
    ∀ loot : Loot G, Counted loot → Keeps loot (startRolls env ids loot) := by
  induction ids with
  | nil => exact fun loot h => h.keeps
  | cons i rest ih =>
    intro loot h
    unfold startRolls
    split
    · exact ih loot h
    split
    · exact ih loot h
    have hstart : Keeps loot (tryToStart env loot i).2.1 := tryToStart_counted h i
    split
    · rename_i after roll heq
      rw [heq] at hstart
      have hrolls := hstart.1.rolls (after.rolls ++ [(i, roll)]) after.wasOpened
      exact (hstart.trans hrolls).trans (ih _ hrolls.1)
    · rename_i after roll heq
      rw [heq] at hstart
      exact hstart.trans (ih _ hstart.1)

theorem onLootOpened_counted (h : Counted loot) (env : Surroundings G) :
    Keeps loot (loot.onLootOpened env) := by
  unfold Loot.onLootOpened
  split
  · exact h.keeps
  have hopened := h.rolls loot.rolls true
  dsimp only
  split
  · exact hopened.trans (startRolls_counted _ _ hopened.1)
  · exact hopened

variable {s s' : LootState G}

theorem finish_counted (h : Counted s.loot) {i : Nat} {winner : Option (G × PlayerRollVote)}
    (hfinish : finish env i winner s = some s') : Keeps s.loot s'.loot := by
  have hfree : Keeps s.loot (s.loot.modifyItem i fun item => { item with isBlocked := false }) :=
    h.modifyItem i fun _ => ⟨rfl, rfl, rfl, rfl, rfl⟩
  unfold finish at hfinish
  dsimp only at hfinish
  split at hfinish
  · cases hfinish
    exact hfree
  rename_i player roll
  have hwon := hfree.trans (hfree.1.modifyItem i
    (f := fun item => { item with rollWinnerGUID := some player })
    fun _ => ⟨rfl, rfl, rfl, rfl, rfl⟩)
  split at hfinish
  · split at hfinish
    · split at hfinish
      · cases hfinish
      · cases hfinish
        exact hwon
    · cases hfinish
      exact hwon.trans (state_storeLootItem_counted (s := { s with loot := _ }) hwon.1 _ _ _)
  · cases hfinish
    exact hwon

theorem updateRolls_counted (l : List (Nat × LootRoll G)) :
    ∀ (s : LootState G) (rolls : List (Nat × LootRoll G)) (s' : LootState G), Counted s.loot →
      updateRolls env l s = some (rolls, s') → Keeps s.loot s'.loot := by
  induction l with
  | nil =>
    intro s rolls s' h hrun
    cases hrun
    exact h.keeps
  | cons r rest ih =>
    intro s rolls s' h hrun
    unfold updateRolls at hrun
    split at hrun
    · split at hrun
      · cases hrun
      · rename_i s1 hfinish
        have hkeeps := finish_counted h hfinish
        exact hkeeps.trans (ih s1 rolls s' hkeeps.1 hrun)
    · split at hrun
      · cases hrun
      · rename_i rolls1 s1 hrest
        cases hrun
        exact ih s rolls1 _ h hrest

theorem update_counted (h : Counted s.loot) (hrun : s.update env = some s') :
    Keeps s.loot s'.loot := by
  unfold LootState.update at hrun
  split at hrun
  · cases hrun
  · rename_i rolls s1 hrolls
    cases hrun
    have hkeeps := updateRolls_counted s.loot.rolls s rolls s1 h hrolls
    exact hkeeps.trans (hkeeps.1.rolls rolls s1.loot.wasOpened)

end Rolling

end LegionServer.Source.Looting
