import LegionServer.Source.Trading.OfferEffects
import Mathlib.Algebra.Ring.Nat

/-!
# Goods that are stored

What storing an item adds to an inventory: its pieces, kind by kind, and new objects only under the
guid of the item or under fresh ones.
-/
namespace LegionServer.Source.Trading
open List Function

def amount (entry : UInt32) (item : Item) : Nat := if item.entry = entry then item.count else 0

def goods (entry : UInt32) (items : List Item) : Nat := (items.map (amount entry)).sum

theorem goods_append {entry : UInt32} (items items' : List Item) :
    goods entry (items ++ items') = goods entry items + goods entry items' := by
  simp [goods]

theorem goods_perm {entry : UInt32} {items items' : List Item} (h : items.Perm items') :
    goods entry items = goods entry items' :=
  (h.map _).sum_eq

theorem le_goods {items : List Item} {item : Item} (h : item ∈ items) :
    item.count ≤ goods item.entry items := by
  refine le_trans ?_ (List.single_le_sum (fun _ _ => Nat.zero_le _) _ (List.mem_map_of_mem h))
  simp [amount]

theorem exists_of_goods {entry : UInt32} {items : List Item} (h : 0 < goods entry items) :
    ∃ item ∈ items, item.entry = entry := by
  by_contra! hnone
  refine absurd (List.sum_eq_zero fun n hn => ?_) h.ne'
  obtain ⟨item, hitem, rfl⟩ := List.mem_map.mp hn
  exact if_neg (hnone item hitem)

def PosNodup (items : List Item) : Prop := (items.map Item.pos).Nodup

/-- Where the pieces go there is nothing or an item of the same kind. -/
def Merges (items : List Item) (item : Item) (dest : Dest) : Prop :=
  ∀ place ∈ dest, ∀ other ∈ items, other.pos = place.1 → other.entry = item.entry

namespace TradePlayer

variable {player : TradePlayer} {pos : UInt16} {item : Item} {count : Nat} {clone : Option Nat}
  {entry : UInt32} {dest : Dest} {guid : Nat}

@[simp] theorem entry_bound : (bound pos item).entry = item.entry := by
  unfold bound
  split <;> rfl

@[simp] theorem count_bound : (bound pos item).count = item.count := by
  unfold bound
  split <;> rfl

@[simp] theorem pos_bound {pos' : UInt16} : (bound pos' item).pos = item.pos := by
  unfold bound
  split <;> rfl

@[simp] theorem guid_bound : (bound pos item).guid = item.guid := by
  unfold bound
  split <;> rfl

def placed (player : TradePlayer) (pos : UInt16) (item : Item) (count : Nat)
    (clone : Option Nat) : Item :=
  let item := match clone with
    | none => item
    | some guid => cloneItem item guid
  bound pos { item with count := count, pos := pos, ownerGuid := player.guid }

@[simp] theorem entry_placed : (placed player pos item count clone).entry = item.entry := by
  cases clone <;> exact entry_bound

@[simp] theorem count_placed : (placed player pos item count clone).count = count := by
  cases clone <;> exact count_bound

@[simp] theorem pos_placed : (placed player pos item count clone).pos = pos := by
  cases clone <;> exact pos_bound

@[simp] theorem guid_placed : (placed player pos item count clone).guid = clone.getD item.guid := by
  cases clone <;> exact guid_bound

def grown (pos : UInt16) (count : Nat) (other : Item) : Item :=
  if other.pos = pos then { bound pos other with count := other.count + count } else other

variable {other : Item}

@[simp] theorem entry_grown : (grown pos count other).entry = other.entry := by
  unfold grown
  split
  · exact entry_bound
  · rfl

@[simp] theorem pos_grown : (grown pos count other).pos = other.pos := by
  unfold grown
  split
  · exact pos_bound
  · rfl

@[simp] theorem guid_grown : (grown pos count other).guid = other.guid := by
  unfold grown
  split
  · exact guid_bound
  · rfl

theorem storeAt_cases :
    ((∀ other ∈ player.items, other.pos ≠ pos) ∧ player.storeAt pos item count clone =
        { player with items := player.items ++ [placed player pos item count clone] }) ∨
    ((∃ other ∈ player.items, other.pos = pos) ∧ player.storeAt pos item count clone =
        { player with items := player.items.map (grown pos count) }) := by
  unfold storeAt
  cases hpos : player.getItemByPos pos with
  | none =>
    refine .inl ⟨?_, rfl⟩
    intro other hother
    have hnone := find?_eq_none.mp hpos other hother
    simpa using hnone
  | some other =>
    refine .inr ⟨⟨other, mem_of_find?_eq_some hpos, ?_⟩, rfl⟩
    simpa using find?_some hpos

theorem goods_grown {items : List Item} (hnodup : PosNodup items)
    (hexists : ∃ other ∈ items, other.pos = pos)
    (hentry : ∀ other ∈ items, other.pos = pos → other.entry = item.entry) :
    goods entry (items.map (grown pos count)) =
      goods entry items + if item.entry = entry then count else 0 := by
  induction items with
  | nil =>
    obtain ⟨_, hmem, _⟩ := hexists
    cases hmem
  | cons first items ih =>
    have hnodup' := nodup_cons.mp hnodup
    have hcons : ∀ (a : Item) (l : List Item), goods entry (a :: l) = amount entry a + goods entry l :=
      fun _ _ => sum_cons
    rw [map_cons, hcons, hcons]
    by_cases hfirst : first.pos = pos
    · -- the others are somewhere else
      have hrest : items.map (grown pos count) = items := by
        refine (map_congr_left fun other hother => ?_).trans (map_id _)
        unfold grown
        rw [if_neg]
        · rfl
        · rintro hsame
          refine hnodup'.1 (mem_map.mpr ⟨other, hother, ?_⟩)
          rw [hsame, hfirst]
      have hsame := hentry first (mem_cons_self ..) hfirst
      have hamount : amount entry (grown pos count first) =
          amount entry first + if item.entry = entry then count else 0 := by
        unfold amount
        rw [entry_grown, hsame]
        unfold grown
        split <;> rfl
      rw [hrest, hamount]
      omega
    · have hsame : grown pos count first = first := if_neg hfirst
      have hrest : ∃ other ∈ items, other.pos = pos := by
        obtain ⟨other, hother, hpos⟩ := hexists
        rcases mem_cons.mp hother with rfl | hmem
        · exact absurd hpos hfirst
        · exact ⟨other, hmem, hpos⟩
      rw [hsame, ih hnodup'.2 hrest fun other hother => hentry other (mem_cons_of_mem _ hother)]
      omega

/-- What one `_StoreItem` makes of an inventory. -/
structure StoredAt (player player' : TradePlayer) (item : Item) (count : Nat)
    (clone : Option Nat) : Prop where
  guid : player'.guid = player.guid
  money : player'.money = player.money
  nodup : PosNodup player'.items
  goods : ∀ entry, goods entry player'.items =
    goods entry player.items + if item.entry = entry then count else 0
  merges : ∀ {dest}, Merges player.items item dest → Merges player'.items item dest
  guids : player'.items.map Item.guid = player.items.map Item.guid ∨
    player'.items.map Item.guid = player.items.map Item.guid ++ [clone.getD item.guid]

theorem storedAt (hnodup : PosNodup player.items) (hmerges : Merges player.items item [(pos, count)]) :
    StoredAt player (player.storeAt pos item count clone) item count clone := by
  rcases @storeAt_cases player pos item count clone with ⟨hempty, hstored⟩ | ⟨hexists, hstored⟩
  · rw [hstored]
    refine ⟨rfl, rfl, ?_, fun entry => ?_, fun {dest} hdest => ?_, ?_⟩
    · unfold PosNodup
      rw [map_append, map_singleton, pos_placed]
      refine nodup_append.mpr ⟨hnodup, nodup_singleton _, ?_⟩
      intro other hother other' hother'
      obtain ⟨old, hold, rfl⟩ := mem_map.mp hother
      rw [mem_singleton.mp hother']
      exact hempty old hold
    · rw [goods_append]
      simp [Trading.goods, amount]
    · intro place hplace other hother hpos
      rcases mem_append.mp hother with hold | hnew
      · exact hdest place hplace other hold hpos
      · rw [mem_singleton.mp hnew]
        exact entry_placed
    · exact .inr (by simp)
  · rw [hstored]
    refine ⟨rfl, rfl, ?_, fun entry => ?_, fun {dest} hdest => ?_, ?_⟩
    · unfold PosNodup
      rw [map_map]
      exact (map_congr_left fun other _ => pos_grown).symm ▸ hnodup
    · exact goods_grown hnodup hexists fun other hother hpos =>
        hmerges _ (mem_singleton_self _) other hother hpos
    · intro place hplace other hother hpos
      obtain ⟨old, hold, rfl⟩ := mem_map.mp hother
      rw [pos_grown] at hpos
      rw [entry_grown]
      exact hdest place hplace old hold hpos
    · refine .inl ?_
      rw [map_map]
      exact map_congr_left fun other _ => guid_grown

/-- What a whole `StoreItem` makes of an inventory. -/
structure Stored (player player' : TradePlayer) (item : Item) (count next next' : Nat) :
    Prop where
  guid : player'.guid = player.guid
  money : player'.money = player.money
  nodup : PosNodup player'.items
  goods : ∀ entry, goods entry player'.items =
    goods entry player.items + if item.entry = entry then count else 0
  le : next ≤ next'
  guids : ∃ added, player'.items.map Item.guid = player.items.map Item.guid ++ added ∧
    added.Nodup ∧ ∀ g ∈ added, g = item.guid ∨ next ≤ g ∧ g < next'

theorem storeItem_stored {next : Nat} (hnodup : PosNodup player.items)
    (hmerges : Merges player.items item dest) (hitem : item.guid < next) :
    Stored player (storeItem item dest (player, next)).1 item (dest.map Prod.snd).sum next
      (storeItem item dest (player, next)).2 := by
  induction dest generalizing player next with
  | nil =>
    refine ⟨rfl, rfl, hnodup, fun entry => ?_, Nat.le_refl _, [], ?_, nodup_nil, ?_⟩
    · simp [storeItem]
    · simp [storeItem]
    · exact fun _ hg => (not_mem_nil hg).elim
  | cons place dest ih =>
    obtain ⟨pos, count⟩ := place
    have hhere : Merges player.items item [(pos, count)] := fun place hplace =>
      hmerges place (mem_singleton.mp hplace ▸ mem_cons_self ..)
    cases dest with
    | nil =>
      have hstored : StoredAt player (player.storeAt pos item count none) item count none :=
        storedAt hnodup hhere
      refine ⟨hstored.guid, hstored.money, hstored.nodup, fun entry => ?_, Nat.le_refl _, ?_⟩
      · exact (hstored.goods entry).trans (by simp)
      · rcases hstored.guids with hsame | hadded
        · refine ⟨[], ?_, nodup_nil, fun _ hg => (not_mem_nil hg).elim⟩
          exact hsame.trans (append_nil _).symm
        · exact ⟨_, hadded, nodup_singleton _, fun g hg => .inl (mem_singleton.mp hg)⟩
    | cons second dest =>
      have hstored : StoredAt player (player.storeAt pos item count (some next)) item count
          (some next) := storedAt hnodup hhere
      have hrest := ih hstored.nodup (hstored.merges fun place hplace =>
        hmerges place (mem_cons_of_mem _ hplace)) (Nat.lt_succ_of_lt hitem)
      change Stored player (storeItem item (second :: dest)
        (player.storeAt pos item count (some next), next + 1)).1 item _ next
        (storeItem item (second :: dest) (player.storeAt pos item count (some next), next + 1)).2
      refine ⟨hrest.guid.trans hstored.guid, hrest.money.trans hstored.money, hrest.nodup,
        fun entry => ?_, Nat.le_of_succ_le hrest.le, ?_⟩
      · rw [hrest.goods, hstored.goods]
        simp only [map_cons, sum_cons]
        split <;> omega
      · obtain ⟨added, hguids, hadded, hsource⟩ := hrest.guids
        rcases hstored.guids with hsame | hclone
        · rw [hsame] at hguids
          refine ⟨added, hguids, hadded, fun g hg => ?_⟩
          exact (hsource g hg).imp id fun hfresh => ⟨Nat.le_of_succ_le hfresh.1, hfresh.2⟩
        · rw [hclone, append_assoc] at hguids
          refine ⟨_, hguids, ?_, fun g hg => ?_⟩
          · refine nodup_cons.mpr ⟨fun hmem => ?_, hadded⟩
            rcases hsource _ hmem with hsame | hfresh
            · rw [Option.getD_some] at hsame
              omega
            · exact Nat.lt_irrefl _ hfresh.1
          · rcases mem_cons.mp hg with rfl | hmem
            · exact .inr ⟨Nat.le_refl _, hrest.le⟩
            · exact (hsource g hmem).imp id fun hfresh =>
                ⟨Nat.le_of_succ_le hfresh.1, hfresh.2⟩

end TradePlayer

/-!
# Items that change hands
-/

/-- "in trade" marks are gone. -/
def Item.unmark (item : Item) : Item := { item with inTrade := false }

def TradePlayer.withoutTraded (player : TradePlayer) : TradePlayer :=
  { player with items := player.items.filter (!·.inTrade) }

/-- The items can be stored one after the other. -/
def StoresAll (storage : Storage) : TradePlayer → List (Option Item) → Prop
  | _, [] => True
  | player, none :: items => StoresAll storage player items
  | player, some item :: items =>
    ∃ dest, storage.canStoreItem player [] item = (.ok, dest) ∧
      ∀ next, StoresAll storage (TradePlayer.storeItem item dest (player, next)).1 items

/-- What `CanStoreItem` and `CanStoreItems` promise with `EQUIP_ERR_OK`. -/
structure Storage.Lawful (storage : Storage) : Prop where
  dest : ∀ {player item dest}, storage.canStoreItem player [] item = (.ok, dest) →
    (dest.map Prod.snd).sum = item.count ∧ Merges player.items item dest
  together : ∀ {player : TradePlayer} {items}, player.canStoreItems storage items = .ok →
    StoresAll storage player.withoutTraded (items.map (Option.map Item.unmark))

def optionAmount (entry : UInt32) (item : Option Item) : Nat := (item.map (amount entry)).getD 0

def optionGuids (item : Option Item) : List Nat := (item.map Item.guid).toList

namespace TradeWorld

def guids (w : TradeWorld) (x : Side) : List Nat := (w.players x).items.map Item.guid

variable {storage : Storage} {w w' : TradeWorld} {x side : Side} {item : Option Item} {dest : Dest}
  {limbo : List Nat} {myItems hisItems : Fin 6 → Option Item}

/-- No object lies at two places, and the guids to come are free. -/
structure Apart (w : TradeWorld) (limbo : List Nat) : Prop where
  inside : ∀ x, (w.guids x).Nodup
  across : ∀ x, ∀ g ∈ w.guids x, g ∉ w.guids x.other
  limbo_nodup : limbo.Nodup
  outside : ∀ x, ∀ g ∈ w.guids x, g ∉ limbo
  below : ∀ x, ∀ g ∈ w.guids x, g < w.nextItemGuid
  limbo_below : ∀ g ∈ limbo, g < w.nextItemGuid

structure Received (w w' : TradeWorld) (x : Side) (item : Option Item) : Prop where
  other : w'.players x.other = w.players x.other
  money : (w'.players x).money = (w.players x).money
  nodup : PosNodup (w'.players x).items
  goods : ∀ entry, goods entry (w'.players x).items =
    goods entry (w.players x).items + optionAmount entry item
  le : w.nextItemGuid ≤ w'.nextItemGuid
  guids : ∃ added, w'.guids x = w.guids x ++ added ∧ added.Nodup ∧
    ∀ g ∈ added, g ∈ optionGuids item ∨ w.nextItemGuid ≤ g ∧ g < w'.nextItemGuid

theorem received_storeTraded (hlawful : storage.Lawful) (hnodup : PosNodup (w.players x).items)
    (hcan : w.canStore storage x item = (.ok, dest))
    (hbelow : ∀ g ∈ optionGuids item, g < w.nextItemGuid) :
    Received w (w.storeTraded x dest item) x item := by
  cases item with
  | none =>
    refine ⟨rfl, rfl, hnodup, fun entry => rfl, Nat.le_refl _, [], ?_, nodup_nil, ?_⟩
    · exact (append_nil _).symm
    · exact fun _ hg => (not_mem_nil hg).elim
  | some item =>
    obtain ⟨hcount, hmerges⟩ := hlawful.dest hcan
    have hstored := TradePlayer.storeItem_stored hnodup hmerges
      (hbelow item.guid (mem_singleton_self _))
    have hplayer : (w.storeTraded x dest (some item)).players x =
        (TradePlayer.storeItem item dest (w.players x, w.nextItemGuid)).1 :=
      update_self ..
    refine ⟨update_of_ne x.other_ne .., ?_, ?_, fun entry => ?_, hstored.le, ?_⟩
    · rw [hplayer, hstored.money]
    · rw [hplayer]
      exact hstored.nodup
    · rw [hplayer, hstored.goods, hcount]
      rfl
    · obtain ⟨added, hguids, hadded, hsource⟩ := hstored.guids
      refine ⟨added, ?_, hadded, fun g hg => ?_⟩
      · unfold TradeWorld.guids
        rw [hplayer, hguids]
      · rcases hsource g hg with rfl | hfresh
        · exact .inl (mem_singleton_self _)
        · exact .inr hfresh

theorem Received.apart (h : Received w w' x item) (hapart : Apart w (optionGuids item ++ limbo)) :
    Apart w' limbo := by
  obtain ⟨added, hguids, hadded, hsource⟩ := h.guids
  have hother : w'.guids x.other = w.guids x.other := by
    unfold TradeWorld.guids
    rw [h.other]
  obtain ⟨hitem_nodup, hlimbo_nodup, hapart'⟩ := nodup_append.mp hapart.limbo_nodup
  -- an object that is new here is nowhere else
  have hnew : ∀ g ∈ added, (∀ y, g ∉ w.guids y) ∧ g ∉ limbo ∧ g < w'.nextItemGuid := by
    intro g hg
    rcases hsource g hg with hitem | hfresh
    · refine ⟨fun y hy => ?_, fun hmem => hapart' g hitem g hmem rfl, ?_⟩
      · exact hapart.outside y g hy (mem_append_left _ hitem)
      · exact Nat.lt_of_lt_of_le (hapart.limbo_below g (mem_append_left _ hitem)) h.le
    · refine ⟨fun y hy => ?_, fun hmem => ?_, hfresh.2⟩
      · exact Nat.not_lt.mpr hfresh.1 (hapart.below y g hy)
      · exact Nat.not_lt.mpr hfresh.1 (hapart.limbo_below g (mem_append_right _ hmem))
  have hhere : ∀ g ∈ w'.guids x, g ∈ w.guids x ∨ g ∈ added := by
    intro g hg
    rw [hguids] at hg
    exact mem_append.mp hg
  refine ⟨fun y => ?_, fun y g hg => ?_, hlimbo_nodup, fun y g hg => ?_, fun y g hg => ?_,
    fun g hg => ?_⟩
  · rcases x.eq_or_other y with rfl | rfl
    · rw [hguids]
      refine nodup_append.mpr ⟨hapart.inside y, hadded, ?_⟩
      rintro g hg _ hg' rfl
      exact (hnew g hg').1 y hg
    · rw [hother]
      exact hapart.inside _
  · rcases x.eq_or_other y with rfl | rfl
    · rw [hother]
      rcases hhere g hg with hold | hadd
      · exact hapart.across y g hold
      · exact (hnew g hadd).1 _
    · rw [hother] at hg
      rw [Side.other_other]
      intro hmem
      rcases hhere g hmem with hold | hadd
      · exact hapart.across x g hold hg
      · exact (hnew g hadd).1 _ hg
  · rcases x.eq_or_other y with rfl | rfl
    · rcases hhere g hg with hold | hadd
      · exact fun hmem => hapart.outside y g hold (mem_append_right _ hmem)
      · exact (hnew g hadd).2.1
    · rw [hother] at hg
      exact fun hmem => hapart.outside _ g hg (mem_append_right _ hmem)
  · rcases x.eq_or_other y with rfl | rfl
    · rcases hhere g hg with hold | hadd
      · exact Nat.lt_of_lt_of_le (hapart.below y g hold) h.le
      · exact (hnew g hadd).2.2
    · rw [hother] at hg
      exact Nat.lt_of_lt_of_le (hapart.below _ g hg) h.le
  · exact Nat.lt_of_lt_of_le (hapart.limbo_below g (mem_append_right _ hg)) h.le

theorem canStore_of_storesAll {items : List (Option Item)}
    (h : StoresAll storage (w.players x) (item :: items)) :
    ∃ dest, w.canStore storage x item = (.ok, dest) ∧
      StoresAll storage ((w.storeTraded x dest item).players x) items := by
  cases item with
  | none => exact ⟨[], rfl, h⟩
  | some item =>
    obtain ⟨dest, hcan, hrest⟩ := h
    refine ⟨dest, hcan, ?_⟩
    have hplayer : (w.storeTraded x dest (some item)).players x =
        (TradePlayer.storeItem item dest (w.players x, w.nextItemGuid)).1 :=
      update_self ..
    rw [hplayer]
    exact hrest w.nextItemGuid

def pending (myItems hisItems : Fin 6 → Option Item) (l : List (Fin 6)) : List Nat :=
  l.flatMap fun i => optionGuids (myItems i) ++ optionGuids (hisItems i)

structure Moving (storage : Storage) (w : TradeWorld) (side : Side)
    (myItems hisItems : Fin 6 → Option Item) (l : List (Fin 6)) : Prop where
  trader : StoresAll storage (w.players side.other) (l.map myItems)
  player : StoresAll storage (w.players side) (l.map hisItems)
  nodup : ∀ x, PosNodup (w.players x).items
  apart : Apart w (pending myItems hisItems l)

structure Moved (w w' : TradeWorld) (side : Side) (myItems hisItems : Fin 6 → Option Item)
    (l : List (Fin 6)) : Prop where
  money : ∀ x, (w'.players x).money = (w.players x).money
  trader : ∀ entry, goods entry (w'.players side.other).items =
    goods entry (w.players side.other).items + (l.map fun i => optionAmount entry (myItems i)).sum
  player : ∀ entry, goods entry (w'.players side).items =
    goods entry (w.players side).items + (l.map fun i => optionAmount entry (hisItems i)).sum
  trader_guids : ∀ g ∈ w'.guids side.other, g ∈ w.guids side.other ∨
    (∃ i ∈ l, g ∈ optionGuids (myItems i)) ∨ w.nextItemGuid ≤ g
  player_guids : ∀ g ∈ w'.guids side, g ∈ w.guids side ∨
    (∃ i ∈ l, g ∈ optionGuids (hisItems i)) ∨ w.nextItemGuid ≤ g
  apart : Apart w' []

theorem Received.source (h : Received w w' x item) {g : Nat} (hg : g ∈ w'.guids x) :
    g ∈ w.guids x ∨ g ∈ optionGuids item ∨ w.nextItemGuid ≤ g := by
  obtain ⟨added, hguids, _, hsource⟩ := h.guids
  rw [hguids] at hg
  rcases mem_append.mp hg with hold | hnew
  · exact .inl hold
  · exact .inr ((hsource g hnew).imp id And.left)

theorem guids_congr (h : w'.players x = w.players x) : w'.guids x = w.guids x := by
  unfold TradeWorld.guids
  rw [h]

theorem Moving.step {i : Fin 6} {l : List (Fin 6)} (hlawful : storage.Lawful)
    (h : Moving storage w side myItems hisItems (i :: l)) :
    ∃ w₁, Received w w₁ side.other (myItems i) ∧
      Received w₁ (w.moveItem storage side (myItems i) (hisItems i)) side (hisItems i) ∧
      Moving storage (w.moveItem storage side (myItems i) (hisItems i)) side myItems hisItems l := by
  obtain ⟨traderDst, htrader, htrader'⟩ := canStore_of_storesAll h.trader
  obtain ⟨playerDst, hplayer, _⟩ := canStore_of_storesAll h.player
  have hmoved : w.moveItem storage side (myItems i) (hisItems i) =
      (w.storeTraded side.other traderDst (myItems i)).storeTraded side playerDst (hisItems i) := by
    unfold moveItem
    simp only [htrader, hplayer, and_self, ↓reduceIte]
  have hpending : pending myItems hisItems (i :: l) =
      optionGuids (myItems i) ++ (optionGuids (hisItems i) ++ pending myItems hisItems l) := by
    simp [pending]
  have hapart := h.apart
  rw [hpending] at hapart
  have hfirst := received_storeTraded hlawful (h.nodup _) htrader fun g hg =>
      hapart.limbo_below g (mem_append_left _ hg)
  have hapart₁ := hfirst.apart hapart
  have hsame : (w.storeTraded side.other traderDst (myItems i)).players side = w.players side := by
    have hother := hfirst.other
    rwa [Side.other_other] at hother
  have hplayers : StoresAll storage
      ((w.storeTraded side.other traderDst (myItems i)).players side) ((i :: l).map hisItems) :=
    hsame ▸ h.player
  obtain ⟨dest, hcan, hplayer'⟩ := canStore_of_storesAll hplayers
  have hdest : dest = playerDst := by
    have hagain : w.canStore storage side (hisItems i) = (.ok, dest) := by
      rw [← hcan]
      unfold canStore
      rw [hsame]
    rw [hplayer] at hagain
    exact (Prod.mk.inj hagain).2.symm
  subst hdest
  have hsecond : Received (w.storeTraded side.other traderDst (myItems i))
      ((w.storeTraded side.other traderDst (myItems i)).storeTraded side dest (hisItems i)) side
      (hisItems i) :=
    received_storeTraded hlawful (hsame ▸ h.nodup _) hcan fun g hg =>
      hapart₁.limbo_below g (mem_append_left _ hg)
  refine ⟨_, hfirst, hmoved ▸ hsecond, hmoved ▸ ⟨?_, hplayer', fun x => ?_, hsecond.apart hapart₁⟩⟩
  · rw [hsecond.other]
    exact htrader'
  · rcases side.eq_or_other x with rfl | rfl
    · exact hsecond.nodup
    · rw [hsecond.other]
      exact hfirst.nodup

theorem Moving.run (hlawful : storage.Lawful) (l : List (Fin 6))
    (h : Moving storage w side myItems hisItems l) :
    Moved w (l.foldl (fun w i => w.moveItem storage side (myItems i) (hisItems i)) w) side myItems
      hisItems l := by
  induction l generalizing w with
  | nil =>
    exact ⟨fun _ => rfl, fun _ => rfl, fun _ => rfl, fun _ hg => .inl hg, fun _ hg => .inl hg,
      h.apart⟩
  | cons i l ih =>
    obtain ⟨w₁, hfirst, hsecond, hrest⟩ := h.step hlawful
    have hmoved := ih hrest
    have hfirst_other : w₁.players side = w.players side := by
      have hother := hfirst.other
      rwa [Side.other_other] at hother
    rw [foldl_cons]
    refine ⟨fun x => ?_, fun entry => ?_, fun entry => ?_, fun g hg => ?_, fun g hg => ?_,
      hmoved.apart⟩
    · rw [hmoved.money]
      rcases side.eq_or_other x with rfl | rfl
      · rw [hsecond.money, hfirst_other]
      · rw [hsecond.other, hfirst.money]
    · rw [hmoved.trader, hsecond.other, hfirst.goods, map_cons, sum_cons]
      omega
    · rw [hmoved.player, hsecond.goods, hfirst_other, map_cons, sum_cons]
      omega
    · rcases hmoved.trader_guids g hg with hold | ⟨j, hj, hnew⟩ | hfresh
      · rw [guids_congr hsecond.other] at hold
        rcases hfirst.source hold with hold | hitem | hfresh
        · exact .inl hold
        · exact .inr (.inl ⟨i, mem_cons_self .., hitem⟩)
        · exact .inr (.inr hfresh)
      · exact .inr (.inl ⟨j, mem_cons_of_mem _ hj, hnew⟩)
      · exact .inr (.inr (Nat.le_trans hfirst.le (Nat.le_trans hsecond.le hfresh)))
    · rcases hmoved.player_guids g hg with hold | ⟨j, hj, hnew⟩ | hfresh
      · rcases hsecond.source hold with hold | hitem | hfresh
        · rw [guids_congr hfirst_other] at hold
          exact .inl hold
        · exact .inr (.inl ⟨i, mem_cons_self .., hitem⟩)
        · exact .inr (.inr (Nat.le_trans hfirst.le hfresh))
      · exact .inr (.inl ⟨j, mem_cons_of_mem _ hj, hnew⟩)
      · exact .inr (.inr (Nat.le_trans hfirst.le (Nat.le_trans hsecond.le hfresh)))

end TradeWorld

end LegionServer.Source.Trading
