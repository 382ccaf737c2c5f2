import LegionServer.Source.Looting.LootCount

/-!
# What filling counts

A loot filled from templates for its looters. Which looter may have which item is
an answer for the looter and the number of the item; the rest follows.
-/
namespace LegionServer.Source.Looting
open Library List Function

variable {G : Type*}

/-- The arguments of one filling, and what its conditions answered. The members
of a group are distinct players. -/
structure Fill (G : Type*) where
  lootMethod : LootMethod
  lootMaster : Option G := none
  entries : List LootStoreItem
  personal : Bool := false
  isCorpse : Bool := true
  lootOwner : G
  members : List G
  members_nodup : members.Nodup
  lootThreshold : Nat := 2
  quality : Nat → Option Nat := fun _ => none
  allowed : G → Nat → Bool
  gold : UInt32 := 0

namespace Fill

def generated (fill : Fill G) : Loot G :=
  fill.entries.foldl Loot.addItem { lootMethod := fill.lootMethod, lootMaster := fill.lootMaster }

def allowedForPlayer (fill : Fill G) (player : G) (item : LootItem G) : Bool :=
  fill.allowed player item.lootListId

def looters (fill : Fill G) : List G := if fill.personal then [fill.lootOwner] else fill.members

/-- The entries that are to be counted: one for every looter of an item that is
free for all, and one for any other item that somebody may have. -/
def countedEntries (fill : Fill G) : Nat :=
  (fill.looters.map fun player => fill.generated.items.countP fun item =>
      item.freeforall && fill.allowed player item.lootListId).sum +
    fill.generated.items.countP fun item =>
      !item.freeforall && fill.looters.any fun player => fill.allowed player item.lootListId

def loot [DecidableEq G] (fill : Fill G) : Loot G :=
  if fill.personal then fill.generated.fillPersonal fill.lootOwner fill.allowedForPlayer
  else fill.generated.fillGroup fill.isCorpse fill.lootOwner fill.members fill.lootThreshold
    fill.quality fill.allowedForPlayer

end Fill

/-- Items as `AddItem` makes them: numbered, and nobody's. -/
structure Fresh (items : List (LootItem G)) : Prop where
  numbered : ∀ (i : Nat) item, items[i]? = some item → item.lootListId = i
  unclaimed : ∀ item ∈ items, item.allowedGUIDs = [] ∧ item.isLooted = false ∧
    item.isCounted = false

theorem fresh_nil : Fresh ([] : List (LootItem G)) where
  numbered i item hitem := by cases hitem
  unclaimed item hitem := absurd hitem not_mem_nil

theorem addStacks_fresh (li : LootStoreItem) (numStacks : Nat) :
    ∀ (count : Nat) (items : List (LootItem G)), Fresh items →
      Fresh (addStacks li numStacks count items) := by
  induction numStacks with
  | zero => exact fun count items h => h
  | succ numStacks ih =>
    intro count items h
    unfold addStacks
    split
    · apply ih
      constructor
      · intro i item hitem
        rcases getElem?_snoc hitem with hold | ⟨hi, hnew⟩
        · exact h.numbered i item hold
        · rw [hnew, hi]
      · intro item hitem
        rcases mem_append.mp hitem with hold | hnew
        · exact h.unclaimed item hold
        · rw [mem_singleton.mp hnew]
          exact ⟨rfl, rfl, rfl⟩
    · exact h

theorem addItems_frame (entries : List LootStoreItem) :
    ∀ loot : Loot G, Fresh loot.items →
      ∃ items, entries.foldl Loot.addItem loot = { loot with items := items } ∧ Fresh items := by
  induction entries with
  | nil => exact fun loot h => ⟨loot.items, rfl, h⟩
  | cons li rest ih =>
    intro loot h
    exact ih (loot.addItem li) (addStacks_fresh li _ _ _ h)

section Filling

variable (allowed : G → Nat → Bool) (base : List (LootItem G))

/-- An item once the looters `done` were filled in. -/
def fillAll (done : List G) (item : LootItem G) : LootItem G :=
  { item with
    allowedGUIDs := done.filter fun player => allowed player item.lootListId
    isCounted := !item.freeforall && done.any fun player => allowed player item.lootListId }

def ownEntries (player : G) : List NotNormalLootItem :=
  (base.filter fun item => allowed player item.lootListId && item.freeforall).map
    fun item => { lootListId := item.lootListId }

def countFor (done : List G) : Nat :=
  (done.map fun player => base.countP fun item =>
      item.freeforall && allowed player item.lootListId).sum +
    base.countP fun item => !item.freeforall && done.any fun player => allowed player item.lootListId

variable {allowed base} in
theorem countFor_snoc (done : List G) (player : G) :
    countFor allowed base (done ++ [player]) = countFor allowed base done +
      base.countP fun item => allowed player item.lootListId &&
        (item.freeforall || !(!item.freeforall && done.any fun p => allowed p item.lootListId)) := by
  have hlast : base.countP (fun item => item.freeforall && allowed player item.lootListId) +
      base.countP (fun item => !item.freeforall &&
        (done ++ [player]).any fun p => allowed p item.lootListId) =
      base.countP (fun item => !item.freeforall && done.any fun p => allowed p item.lootListId) +
      base.countP fun item => allowed player item.lootListId &&
        (item.freeforall || !(!item.freeforall && done.any fun p => allowed p item.lootListId)) := by
    refine countP_add_countP fun item => ?_
    rw [any_append, any_cons, any_nil, Bool.or_false]
    cases item.freeforall <;> cases allowed player item.lootListId <;>
      cases done.any fun p => allowed p item.lootListId <;> rfl
  unfold countFor
  rw [map_append, sum_append, map_singleton, sum_singleton]
  omega

variable [DecidableEq G]

/-- The loot once the looters `done` were filled in. -/
structure FilledFor (done : List G) (loot : Loot G) : Prop where
  items : loot.items = base.map (fillAll allowed done)
  looters : loot.allowedLooters = done
  entries : ∀ player, loot.playerFFAItems player =
    if player ∈ done ∧ ownEntries allowed base player ≠ [] then some (ownEntries allowed base player)
    else none
  counter : loot.unlootedCount = UInt8.ofNat (countFor allowed base done)

variable {allowed base}

variable {done : List G}

theorem fillFor_fillAll {player : G} (hnew : player ∉ done) (item : LootItem G) :
    LootItem.fillFor player (fun p item => allowed p item.lootListId) (fillAll allowed done item) =
      fillAll allowed (done ++ [player]) item := by
  have hnot : player ∉ done.filter fun p => allowed p item.lootListId :=
    fun hmem => hnew (mem_filter.mp hmem).1
  cases hallowed : allowed player item.lootListId with
  | true =>
    simp [LootItem.fillFor, fillAll, hallowed, hnot]
    exact fun hffa _ _ _ => hffa
  | false => simp [LootItem.fillFor, fillAll, hallowed]

variable {loot : Loot G}

theorem FilledFor.snoc (h : FilledFor allowed base done loot) {player : G} (hnew : player ∉ done) :
    FilledFor allowed base (done ++ [player])
      (loot.fillNotNormalLootFor (fun p item => allowed p item.lootListId) player) := by
  have howned : (loot.items.filter fun item => allowed player item.lootListId && item.freeforall).map
      (fun item => ({ lootListId := item.lootListId } : NotNormalLootItem)) =
      ownEntries allowed base player := by
    rw [h.items, filter_map, map_map]
    rfl
  constructor
  · simp only [Loot.fillNotNormalLootFor, h.items, map_map]
    exact map_congr_left fun item _ => fillFor_fillAll hnew item
  · simp [Loot.fillNotNormalLootFor, h.looters, hnew]
  · intro p
    unfold Loot.fillNotNormalLootFor
    dsimp only
    have hempty : (loot.items.filter fun item =>
        allowed player item.lootListId && item.freeforall).isEmpty = true ↔
          ownEntries allowed base player = [] := by
      rw [← howned, List.isEmpty_iff, List.map_eq_nil_iff]
    rw [howned]
    by_cases hp : p = player
    · subst hp
      by_cases hnone : ownEntries allowed base p = []
      · rw [if_pos (hempty.mpr hnone), h.entries, if_neg (fun hin => hin.2 hnone),
          if_neg (fun hin => hin.2 hnone)]
      · rw [if_neg (fun hyes => hnone (hempty.mp hyes)), update_self,
          if_pos ⟨by simp, hnone⟩]
    · have hsame : (if (loot.items.filter fun item =>
            allowed player item.lootListId && item.freeforall).isEmpty = true then
          loot.playerFFAItems
          else Function.update loot.playerFFAItems player
            (some (ownEntries allowed base player))) p = loot.playerFFAItems p := by
        split
        · rfl
        · exact update_of_ne hp ..
      rw [hsame, h.entries]
      simp [hp]
  · have hcounted : (loot.items.filter fun item => allowed player item.lootListId &&
        (item.freeforall || !item.isCounted)).length =
        base.countP fun item => allowed player item.lootListId && (item.freeforall ||
          !(!item.freeforall && done.any fun p => allowed p item.lootListId)) := by
      rw [← countP_eq_length_filter, h.items, countP_map]
      rfl
    simp only [Loot.fillNotNormalLootFor, hcounted]
    rw [h.counter, countFor_snoc, UInt8.ofNat_add]

theorem filledFor_foldl (players : List G) :
    ∀ (done : List G) (loot : Loot G), FilledFor allowed base done loot → players.Nodup →
      (∀ player ∈ players, player ∉ done) → FilledFor allowed base (done ++ players)
        (players.foldl (Loot.fillNotNormalLootFor fun p item => allowed p item.lootListId) loot) := by
  induction players with
  | nil =>
    intro done loot h _ _
    rw [append_nil]
    exact h
  | cons player rest ih =>
    intro done loot h hnodup hnew
    rw [nodup_cons] at hnodup
    rw [append_cons]
    apply ih _ _ (h.snoc (hnew player mem_cons_self)) hnodup.2
    intro p hp hdone
    rcases mem_append.mp hdone with hold | hlast
    · exact hnew p (mem_cons_of_mem _ hp) hold
    · rw [mem_singleton.mp hlast] at hp
      exact hnodup.1 hp

theorem filledFor_nil (hfresh : Fresh base) (hitems : loot.items = base)
    (hlooters : loot.allowedLooters = []) (hentries : loot.playerFFAItems = fun _ => none)
    (hcounter : loot.unlootedCount = 0) : FilledFor allowed base [] loot where
  items := by
    rw [hitems]
    conv_lhs => rw [← map_id base]
    apply map_congr_left
    intro item hitem
    obtain ⟨hunclaimed, _, huncounted⟩ := hfresh.unclaimed item hitem
    cases item
    simp_all [fillAll]
  looters := hlooters
  entries player := by
    rw [hentries]
    simp
  counter := by
    rw [hcounter]
    simp [countFor]

theorem FilledFor.counted (hfresh : Fresh base) (hnodup : done.Nodup)
    (h : FilledFor allowed base done loot) :
    Counted loot ∧ loot.remaining = countFor allowed base done := by
  have hmem : ∀ item ∈ loot.items, ∃ old ∈ base, fillAll allowed done old = item := by
    intro item hitem
    rw [h.items] at hitem
    exact mem_map.mp hitem
  have hremaining : loot.remaining = countFor allowed base done := by
    have hentries : ∀ player ∈ done, loot.entriesLeft player =
        base.countP fun item => item.freeforall && allowed player item.lootListId := by
      intro player hplayer
      have hown : (ownEntries allowed base player).countP (fun ffaItem => !ffaItem.isLooted) =
          base.countP fun item => item.freeforall && allowed player item.lootListId := by
        simp [ownEntries, countP_map, countP_filter, Bool.and_comm, comp_def]
      unfold Loot.entriesLeft
      rw [h.entries, ← hown]
      by_cases hnone : ownEntries allowed base player = []
      · rw [if_neg (fun hin => hin.2 hnone), hnone]
        rfl
      · rw [if_pos ⟨hplayer, hnone⟩]
    have hitems : loot.items.countP LootItem.remains = base.countP fun item =>
        !item.freeforall && done.any fun player => allowed player item.lootListId := by
      rw [h.items, countP_map]
      apply countP_congr
      intro item hitem
      simp [LootItem.remains, fillAll, (hfresh.unclaimed item hitem).2.1]
    unfold Loot.remaining countFor
    rw [hitems, h.looters, map_congr_left hentries, Nat.add_comm]
  refine ⟨⟨h.looters ▸ hnodup, ?_, ?_, ?_, ?_, h.counter.trans (by rw [hremaining])⟩, hremaining⟩
  · intro i item hitem
    rw [h.items, getElem?_map] at hitem
    obtain ⟨old, hold, rfl⟩ := Option.map_eq_some_iff.mp hitem
    exact hfresh.numbered i old hold
  · intro item hitem hffa
    obtain ⟨old, _, rfl⟩ := hmem item hitem
    change old.freeforall = false at hffa
    simp [fillAll, hffa]
  · intro player ffaItems hffaItems
    rw [h.entries] at hffaItems
    split at hffaItems
    · rename_i hin
      exact h.looters ▸ hin.1
    · cases hffaItems
  · intro item hitem hffa player hplayer
    obtain ⟨old, hold, rfl⟩ := hmem item hitem
    obtain ⟨hdone, hallowed⟩ := mem_filter.mp hplayer
    have hown : ({ lootListId := old.lootListId } : NotNormalLootItem) ∈
        ownEntries allowed base player := by
      refine mem_map.mpr ⟨old, mem_filter.mpr ⟨hold, ?_⟩, rfl⟩
      rw [hallowed]
      exact hffa
    refine ⟨ownEntries allowed base player, ?_, _, hown, rfl⟩
    rw [h.entries, if_pos ⟨hdone, ne_nil_of_mem hown⟩]

end Filling

theorem setThreshold_same (lootMethod : LootMethod) (lootThreshold : Nat)
    (quality : Nat → Option Nat) (item : LootItem G) :
    SameEntry item (item.setThreshold lootMethod lootThreshold quality) := by
  unfold LootItem.setThreshold
  split
  · exact ⟨rfl, rfl, rfl, rfl, rfl⟩
  split
  · exact ⟨rfl, rfl, rfl, rfl, rfl⟩
  · split
    · exact ⟨rfl, rfl, rfl, rfl, rfl⟩
    · split <;> exact ⟨rfl, rfl, rfl, rfl, rfl⟩

variable [DecidableEq G]

theorem Fill.loot_counted (fill : Fill G) :
    Counted fill.loot ∧ fill.loot.remaining = fill.countedEntries := by
  obtain ⟨items, hgenerated, hfresh⟩ := addItems_frame fill.entries
    ({ lootMethod := fill.lootMethod, lootMaster := fill.lootMaster } : Loot G)
    fresh_nil
  change fill.generated = _ at hgenerated
  have hbase : fill.generated.items = items := by rw [hgenerated]
  unfold Fill.loot Fill.countedEntries Fill.looters
  rw [hbase]
  cases fill.personal with
  | true =>
    have hstart : FilledFor fill.allowed items [] fill.generated :=
      filledFor_nil hfresh hbase (by rw [hgenerated]) (by rw [hgenerated]) (by rw [hgenerated])
    have hfilled := filledFor_foldl [fill.lootOwner] [] fill.generated hstart
      (nodup_singleton _) (fun _ _ => not_mem_nil)
    exact hfilled.counted hfresh (nodup_singleton _)
  | false =>
    unfold Loot.fillGroup
    have hstart : FilledFor fill.allowed items [] (if fill.isCorpse = true then
        { fill.generated with roundRobinPlayer := some fill.lootOwner } else fill.generated) := by
      split <;> exact filledFor_nil hfresh (by rw [hgenerated]) (by rw [hgenerated])
        (by rw [hgenerated]) (by rw [hgenerated])
    have hfilled := filledFor_foldl fill.members [] _ hstart fill.members_nodup
      (fun _ _ => not_mem_nil)
    obtain ⟨hcounted, hremaining⟩ := hfilled.counted hfresh fill.members_nodup
    obtain ⟨hthreshold, hsame⟩ := hcounted.map (setThreshold_same
      (fill.members.foldl (Loot.fillNotNormalLootFor fill.allowedForPlayer) _).lootMethod
      fill.lootThreshold fill.quality)
    exact ⟨hthreshold, hsame.trans hremaining⟩

end LegionServer.Source.Looting
