import Mathlib.Data.Int.Bitwise
import LegionServer.Source.Guilds.Guild
import Mathlib.Algebra.BigOperators.Group.List.Basic
import Mathlib.Data.List.ProdSigma
import LegionServer.Library.Slots

/-!
# Moving items in the guild bank

`Guild::SwapItems`, `SwapItemsWithInventory`, `_MoveItems`, `_DoItemsMove` and
the two kinds of `MoveItemData` (`Guild.cpp:724-1111`, `2894-2921`,
`3185-3232`, `3262-3382`). An item is a value with its guid: pointer comparisons
compare guids, and a write through `m_pItem` is a write to its slot. The
player's inventory is a parameter.
-/
namespace LegionServer.Source.Guilds
open List

def NULL_SLOT : Nat := 255

structure Item where
  guid : Nat
  entry : Nat
  count : Nat
  soulBound : Bool := false
  deriving DecidableEq, Repr

/-- `ItemPosCount`: a slot of the tab and the reserved count. -/
abbrev ItemPosCount := Nat × Nat

/-- The parts of `Player` that a move uses. `P` is the inventory, `D` the vector
that `CanStoreItem` fills; storing may draw new guids. -/
structure Inventory (P D : Type*) where
  getItemByPos : P → Nat → Nat → Option Item
  isNotEmptyBag : P → Item → Bool
  canBeTraded : P → Item → Bool
  /-- `some` for `EQUIP_ERR_OK`. -/
  canStoreItem : P → Nat → Nat → Item → Bool → Option D
  /-- `m_pItem->SetCount` on the item at a position. -/
  setCount : P → Nat → Nat → Nat → P
  moveItemFromInventory : P → Nat → Nat → P
  moveItemToInventory : P → D → Item → Nat → P × Nat
  /-- Every stack in the inventory. -/
  items : P → List Item

/-- The purchased tabs, their slots, and the rest of the server a move touches.
`maxStack` is `GetMaxStackSize` of the template of an entry. -/
structure BankWorld (G P : Type*) where
  guild : Guild G
  purchasedTabs : Nat
  bank : Nat × Nat → Option Item
  player : P
  nextGuid : Nat

/-- `BankMoveItemData` or `PlayerMoveItemData`: container and slot. -/
inductive MoveItemData where
  | bank (container slotId : Nat)
  | player (container slotId : Nat)
  deriving DecidableEq

/-- `m_vec`, as the kind of the move data fills it. -/
inductive MoveVec (D : Type*) where
  | bank (vec : List ItemPosCount)
  | player (dest : D)

section Rights

variable {G : Type*} [DecidableEq G]

/-- `_GetRankBankTabRights`, 0 past the last tab. -/
def Guild.rankBankTabRights (g : Guild G) (rankId : GuildRankId) (tabId : Nat) : Int8 :=
  match g.rankInfoOfId rankId with
  | none => 0
  | some rank =>
    if h : tabId < GUILD_BANK_MAX_TABS then (rank.bankTabRightsAndSlots ⟨tabId, h⟩).rights else 0

/-- `_GetRankBankTabSlotsPerDay`. -/
def Guild.rankBankTabSlotsPerDay (g : Guild G) (purchasedTabs : Nat) (rankId : GuildRankId)
    (tabId : Nat) : Int32 :=
  if tabId < purchasedTabs then
    match g.rankInfoOfId rankId with
    | none => 0
    | some rank =>
      if h : tabId < GUILD_BANK_MAX_TABS then (rank.bankTabRightsAndSlots ⟨tabId, h⟩).slots else 0
  else 0

/-- `GetBankTabWithdrawValue`. -/
def Member.bankTabWithdrawValue (member : Member) (tabId : Nat) : UInt32 :=
  if h : tabId < GUILD_BANK_MAX_TABS then member.bankWithdraw ⟨tabId, h⟩ else 0

/-- `_GetMemberRemainingSlots`; unlimited is -1 as an `int32`. -/
def Guild.memberRemainingSlots (g : Guild G) (purchasedTabs : Nat) (member : Member)
    (tabId : Nat) : Int32 :=
  if member.rankId = GuildMaster then -1
  else if g.rankBankTabRights member.rankId tabId &&& GUILD_BANK_RIGHT_VIEW_TAB ≠ 0 then
    let remaining := g.rankBankTabSlotsPerDay purchasedTabs member.rankId tabId -
      (member.bankTabWithdrawValue tabId).toInt32
    if 0 < remaining then remaining else 0
  else 0

def Guild.memberHasTabRights (g : Guild G) (guid : G) (tabId : Nat) (rights : Int8) : Bool :=
  match g.members guid with
  | none => false
  | some member =>
    if member.isRank GuildMaster || decide (g.leaderGuid = guid) then true
    else g.rankBankTabRights member.rankId tabId &&& rights == rights

def Guild.updateMemberWithdrawSlots (g : Guild G) (guid : G) (tabId : Nat) : Guild G :=
  match g.members guid with
  | none => g
  | some member =>
    if h : tabId < GUILD_BANK_MAX_TABS then
      { g with members := Function.update g.members guid (some { member with
          bankWithdraw := Function.update member.bankWithdraw ⟨tabId, h⟩
            (member.bankWithdraw ⟨tabId, h⟩ + 1) }) }
    else g

end Rights

namespace MoveItemData

def isBank : MoveItemData → Bool
  | .bank _ _ => true
  | .player _ _ => false

def container : MoveItemData → Nat
  | .bank container _ | .player container _ => container

end MoveItemData

variable {G P D : Type*} [DecidableEq G] (inv : Inventory P D) (maxStack : Nat → Nat) (guid : G)

/-- `_GetItem`: nothing outside the purchased tabs and their slots. -/
def BankWorld.getItem (w : BankWorld G P) (tabId slotId : Nat) : Option Item :=
  if tabId < w.purchasedTabs ∧ slotId < GUILD_BANK_MAX_SLOTS then w.bank (tabId, slotId) else none

/-- `BankTab::SetItem` on an existing tab. -/
def BankWorld.setItem (w : BankWorld G P) (tabId slotId : Nat) (item : Option Item) :
    BankWorld G P :=
  if tabId < w.purchasedTabs ∧ slotId < GUILD_BANK_MAX_SLOTS then
    { w with bank := Function.update w.bank (tabId, slotId) item }
  else w

def initItem (w : BankWorld G P) : MoveItemData → Option Item
  | .bank container slotId => w.getItem container slotId
  | .player container slotId =>
    match inv.getItemByPos w.player container slotId with
    | none => none
    | some item =>
      if inv.isNotEmptyBag w.player item then none
      else if !inv.canBeTraded w.player item then none
      else some item

/-- `CheckItem`: the split amount to use, 0 for the whole stack. -/
def checkItem (item : Item) (splitedAmount : Nat) : Option Nat :=
  if item.count < splitedAmount then none
  else if splitedAmount = item.count then some 0
  else some splitedAmount

def hasStoreRights (w : BankWorld G P) (self other : MoveItemData) : Bool :=
  match self with
  | .player _ _ => true
  | .bank container _ =>
    if other.isBank && other.container = container then true
    else w.guild.memberHasTabRights guid container GUILD_BANK_RIGHT_DEPOSIT_ITEM

def hasWithdrawRights (w : BankWorld G P) (self other : MoveItemData) : Bool :=
  match self with
  | .player _ _ => true
  | .bank container _ =>
    if other.isBank && other.container = container then true
    else
      match w.guild.members guid with
      | none => false
      | some member => w.guild.memberRemainingSlots w.purchasedTabs member container != 0

/-- `_ReserveSpace`: the vector and what is left of `count`. A slot that is in
the vector already is not reserved again. -/
def reserveSpace (slotId : Nat) (item : Item) (itemDest : Option Item)
    (vec : List ItemPosCount) (count : Nat) : Option (List ItemPosCount × Nat) :=
  let reserve := fun requiredSpace =>
    let requiredSpace := min requiredSpace count
    if vec.any fun pos => pos.1 = slotId then (vec, count)
    else (vec ++ [(slotId, requiredSpace)], count - requiredSpace)
  match itemDest with
  | some dest =>
    if dest.entry ≠ item.entry ∨ maxStack item.entry ≤ dest.count then none
    else some (reserve (maxStack item.entry - dest.count))
  | none => some (reserve (maxStack item.entry))

/-- The loop of `CanStoreItemInTab` over the given slots. -/
def canStoreItemInTab (w : BankWorld G P) (container : Nat) (item : Item) (skipSlotId : Nat)
    (merge : Bool) : List Nat → List ItemPosCount × Nat → List ItemPosCount × Nat
  | [], (vec, count) => (vec, count)
  | slotId :: rest, (vec, count) =>
    if count = 0 then (vec, count)
    else if slotId = skipSlotId then canStoreItemInTab w container item skipSlotId merge rest
      (vec, count)
    else
      let itemDest := (w.getItem container slotId).filter fun dest => dest.guid != item.guid
      if itemDest.isSome != merge then
        canStoreItemInTab w container item skipSlotId merge rest (vec, count)
      else
        canStoreItemInTab w container item skipSlotId merge rest
          ((reserveSpace maxStack slotId item itemDest vec count).getD (vec, count))

/-- "Search for stacks to merge with", then "search free slot for item". -/
def canStoreItemAnywhere (w : BankWorld G P) (container slotId : Nat) (item : Item)
    (reserved : List ItemPosCount × Nat) : Option (List ItemPosCount) :=
  let slots := List.range GUILD_BANK_MAX_SLOTS
  let merged :=
    if 1 < maxStack item.entry then
      canStoreItemInTab maxStack w container item slotId true slots reserved
    else reserved
  if merged.2 = 0 then some merged.1
  else
    let (vec, count) := canStoreItemInTab maxStack w container item slotId false slots merged
    if count = 0 then some vec else none

/-- `BankMoveItemData::CanStore`. -/
def bankCanStore (w : BankWorld G P) (container slotId : Nat) (item : Item) (swap : Bool) :
    Option (List ItemPosCount) :=
  if item.soulBound then none
  else if w.purchasedTabs ≤ container then none
  else if slotId ≠ NULL_SLOT then
    -- "Ignore swapped item (this slot will be empty after move)"
    let itemDest :=
      if swap then none
      else (w.getItem container slotId).filter fun dest => dest.guid != item.guid
    match reserveSpace maxStack slotId item itemDest [] item.count with
    | none => none
    | some (vec, count) =>
      if count = 0 then some vec
      else canStoreItemAnywhere maxStack w container slotId item (vec, count)
  else canStoreItemAnywhere maxStack w container slotId item ([], item.count)

def canStore (w : BankWorld G P) (self : MoveItemData) (item : Item) (swap : Bool) :
    Option (MoveVec D) :=
  match self with
  | .bank container slotId =>
    (bankCanStore maxStack w container slotId item swap).map MoveVec.bank
  | .player container slotId =>
    (inv.canStoreItem w.player container slotId item swap).map MoveVec.player

/-- `RemoveItem`; `item` is `m_pItem`. -/
def removeItem (w : BankWorld G P) (self other : MoveItemData) (item : Item)
    (splitedAmount : Nat) : BankWorld G P :=
  match self with
  | .bank container slotId =>
    let w := w.setItem container slotId
      (if splitedAmount ≠ 0 then some { item with count := item.count - splitedAmount } else none)
    if !other.isBank || other.container != container then
      { w with guild := w.guild.updateMemberWithdrawSlots guid container }
    else w
  | .player container slotId =>
    if splitedAmount ≠ 0 then
      { w with player := inv.setCount w.player container slotId (item.count - splitedAmount) }
    else { w with player := inv.moveItemFromInventory w.player container slotId }

/-- `Item::CloneItem`: a new object, the count capped at the maximal stack. -/
def cloneItem (item : Item) (count nextGuid : Nat) : Item :=
  { item with guid := nextGuid, count := min count (maxStack item.entry) }

/-- `_StoreItem`. The item itself is deleted when its last part is merged. -/
def bankStoreOne (container : Nat) (item : Item) (pos : ItemPosCount) (clone : Bool)
    (w : BankWorld G P) : BankWorld G P :=
  match w.getItem container pos.1 with
  | some dest => w.setItem container pos.1 (some { dest with count := dest.count + pos.2 })
  | none =>
    if clone then
      { w.setItem container pos.1 (some (cloneItem maxStack item pos.2 w.nextGuid)) with
        nextGuid := w.nextGuid + 1 }
    else w.setItem container pos.1 (some { item with count := pos.2 })

/-- The loop of `BankMoveItemData::StoreItem`: all parts but the last are clones. -/
def bankStoreItem (container : Nat) (item : Item) :
    List ItemPosCount → BankWorld G P → BankWorld G P
  | [], w => w
  | pos :: rest, w =>
    bankStoreItem container item rest (bankStoreOne maxStack container item pos (!rest.isEmpty) w)

def storeItem (w : BankWorld G P) (self : MoveItemData) (vec : MoveVec D) (item : Item) :
    BankWorld G P :=
  match self, vec with
  | .bank container _, .bank vec => bankStoreItem maxStack container item vec w
  | .player _ _, .player dest =>
    let (player, nextGuid) := inv.moveItemToInventory w.player dest item w.nextGuid
    { w with player, nextGuid }
  | _, _ => w

/-- `_DoItemsMove`: `none` when one of the two sides cannot store. `srcItem` is
`pSrc->GetItem()`, `moved` the clone on a split, `destItem` is set on a swap. -/
def doItemsMove (w : BankWorld G P) (src dest : MoveItemData) (srcItem moved : Item)
    (destItem : Option Item) (splitedAmount : Nat) : Option (BankWorld G P) :=
  match canStore inv maxStack w dest moved destItem.isSome with
  | none => none
  | some destVec =>
    match destItem with
    | none =>
      let w := removeItem inv guid w src dest srcItem splitedAmount
      some (storeItem inv maxStack w dest destVec moved)
    | some destItem =>
      match canStore inv maxStack w src destItem true with
      | none => none
      | some srcVec =>
        let w := removeItem inv guid w src dest srcItem splitedAmount
        let w := removeItem inv guid w dest src destItem 0
        let w := storeItem inv maxStack w dest destVec moved
        some (storeItem inv maxStack w src srcVec destItem)

/-- `_MoveItems`: the world and whether a move was made. -/
def moveItems (w : BankWorld G P) (src dest : MoveItemData) (splitedAmount : Nat) :
    BankWorld G P × Bool :=
  match initItem inv w src with
  | none => (w, false)
  | some item =>
    match checkItem item splitedAmount with
    | none => (w, false)
    | some splitedAmount =>
      if !hasStoreRights guid w dest src then (w, false)
      else if !hasWithdrawRights guid w src dest then (w, false)
      else if splitedAmount ≠ 0 then
        let clone := cloneItem maxStack item splitedAmount w.nextGuid
        let w := { w with nextGuid := w.nextGuid + 1 }
        match doItemsMove inv maxStack guid w src dest item clone none splitedAmount with
        | none => (w, false)
        | some w => (w, true)
      else
        match doItemsMove inv maxStack guid w src dest item item none 0 with
        | some w => (w, true)
        | none =>
          match initItem inv w dest with
          | none => (w, false)
          | some destItem =>
            if !hasStoreRights guid w src dest then (w, false)
            else if !hasWithdrawRights guid w dest src then (w, false)
            else
              match doItemsMove inv maxStack guid w src dest item item (some destItem) 0 with
              | none => (w, false)
              | some w => (w, true)

def swapItems (w : BankWorld G P) (tabId slotId destTabId destSlotId splitedAmount : Nat) :
    BankWorld G P × Bool :=
  if w.purchasedTabs ≤ tabId ∨ GUILD_BANK_MAX_SLOTS ≤ slotId ∨
      w.purchasedTabs ≤ destTabId ∨ GUILD_BANK_MAX_SLOTS ≤ destSlotId then (w, false)
  else if tabId = destTabId ∧ slotId = destSlotId then (w, false)
  else
    moveItems inv maxStack guid w (.bank tabId slotId) (.bank destTabId destSlotId) splitedAmount

def swapItemsWithInventory (w : BankWorld G P) (toChar : Bool)
    (tabId slotId playerBag playerSlotId splitedAmount : Nat) : BankWorld G P × Bool :=
  if (GUILD_BANK_MAX_SLOTS ≤ slotId ∧ slotId ≠ NULL_SLOT) ∨ w.purchasedTabs ≤ tabId then
    (w, false)
  else if toChar then
    moveItems inv maxStack guid w (.bank tabId slotId) (.player playerBag playerSlotId)
      splitedAmount
  else
    moveItems inv maxStack guid w (.player playerBag playerSlotId) (.bank tabId slotId)
      splitedAmount

/-!
# Counting items and exchanging them

Well-stocked lists (no stack empty or too large, no object twice), and exchanges of one list of
stacks for another with the same amounts.
-/
open Library

def amount (entry : Nat) (items : List Item) : Nat :=
  (items.map fun item => if item.entry = entry then item.count else 0).sum

@[simp] theorem amount_nil (entry : Nat) : amount entry [] = 0 := rfl

@[simp] theorem amount_cons (entry : Nat) (item : Item) (items : List Item) :
    amount entry (item :: items) =
      (if item.entry = entry then item.count else 0) + amount entry items := rfl

@[simp] theorem amount_append (entry : Nat) (l l' : List Item) :
    amount entry (l ++ l') = amount entry l + amount entry l' := by
  simp [amount]

theorem amount_perm {l l' : List Item} (entry : Nat) (h : l.Perm l') :
    amount entry l = amount entry l' :=
  (h.map _).sum_eq

/-- Stacks of 1 to `maxStack` items, all objects different and older than the
next guid. -/
structure Stocked (maxStack : Nat → Nat) (nextGuid : Nat) (items : List Item) : Prop where
  sizes : ∀ item ∈ items, 1 ≤ item.count ∧ item.count ≤ maxStack item.entry
  guids : (items.map Item.guid).Nodup
  old : ∀ item ∈ items, item.guid < nextGuid

/-- From the stacks `before` to the stacks `after`: same amounts, no object in
two places, new objects only under new guids. -/
structure Exchange (maxStack : Nat → Nat) (nextGuid : Nat) (before : List Item)
    (nextGuid' : Nat) (after : List Item) : Prop where
  amounts : ∀ entry, amount entry after = amount entry before
  sizes : ∀ item ∈ after, 1 ≤ item.count ∧ item.count ≤ maxStack item.entry
  guids : (after.map Item.guid).Nodup
  next : nextGuid ≤ nextGuid'
  origin : ∀ item ∈ after, item.guid ∈ before.map Item.guid ∨
    (nextGuid ≤ item.guid ∧ item.guid < nextGuid')

variable {maxStack : Nat → Nat} {n n' n'' : Nat} {l l' l'' before after : List Item}

theorem Stocked.perm (h : Stocked maxStack n l) (hperm : l.Perm l') : Stocked maxStack n l' :=
  ⟨fun item hitem => h.sizes item (hperm.mem_iff.mpr hitem),
    (hperm.map _).nodup_iff.mp h.guids, fun item hitem => h.old item (hperm.mem_iff.mpr hitem)⟩

theorem Stocked.left (l' : List Item) (h : Stocked maxStack n (l ++ l')) : Stocked maxStack n l := by
  have hguids := h.guids
  rw [map_append, nodup_append] at hguids
  exact ⟨fun item hitem => h.sizes item (mem_append_left l' hitem), hguids.1,
    fun item hitem => h.old item (mem_append_left l' hitem)⟩

theorem Exchange.of_later (h : Stocked maxStack n l) (hle : n ≤ n') : Exchange maxStack n l n' l :=
  ⟨fun _ => rfl, h.sizes, h.guids, hle, fun _ hitem => .inl (mem_map_of_mem hitem)⟩

theorem Exchange.refl (h : Stocked maxStack n l) : Exchange maxStack n l n l :=
  .of_later h (Nat.le_refl n)

theorem Exchange.perm_left (h : Exchange maxStack n l n' after) (hperm : l.Perm before) :
    Exchange maxStack n before n' after :=
  ⟨fun entry => (h.amounts entry).trans (amount_perm entry hperm), h.sizes, h.guids, h.next,
    fun item hitem => (h.origin item hitem).imp_left ((hperm.map _).mem_iff.mp ·)⟩

theorem Exchange.perm_right (h : Exchange maxStack n before n' l) (hperm : l.Perm after) :
    Exchange maxStack n before n' after :=
  ⟨fun entry => (amount_perm entry hperm.symm).trans (h.amounts entry),
    fun item hitem => h.sizes item (hperm.mem_iff.mpr hitem),
    (hperm.map _).nodup_iff.mp h.guids, h.next,
    fun item hitem => h.origin item (hperm.mem_iff.mpr hitem)⟩

theorem Exchange.stocked (h : Exchange maxStack n before n' after)
    (hbefore : Stocked maxStack n before) : Stocked maxStack n' after := by
  refine ⟨h.sizes, h.guids, ?_⟩
  intro item hitem
  cases h.origin item hitem with
  | inl hold =>
    obtain ⟨old, hmem, heq⟩ := mem_map.mp hold
    rw [← heq]
    exact Nat.lt_of_lt_of_le (hbefore.old old hmem) h.next
  | inr hnew => exact hnew.2

theorem Exchange.trans (h : Exchange maxStack n l n' l') (h' : Exchange maxStack n' l' n'' l'') :
    Exchange maxStack n l n'' l'' := by
  refine ⟨fun entry => (h'.amounts entry).trans (h.amounts entry), h'.sizes, h'.guids,
    Nat.le_trans h.next h'.next, ?_⟩
  intro item hitem
  have hnext := h.next
  have hnext' := h'.next
  cases h'.origin item hitem with
  | inl hold =>
    obtain ⟨mid, hmid, heq⟩ := mem_map.mp hold
    rw [← heq]
    cases h.origin mid hmid with
    | inl horigin => exact .inl horigin
    | inr hnew => exact .inr ⟨hnew.1, by omega⟩
  | inr hnew => exact .inr ⟨by omega, hnew.2⟩

theorem Exchange.frame (h : Exchange maxStack n before n' after)
    (hall : Stocked maxStack n (before ++ l)) : Exchange maxStack n (before ++ l) n' (after ++ l) := by
  have hguids := hall.guids
  rw [map_append, nodup_append] at hguids
  obtain ⟨_, hright, hapart⟩ := hguids
  refine ⟨?_, ?_, ?_, h.next, ?_⟩
  · intro entry
    rw [amount_append, amount_append, h.amounts]
  · intro item hitem
    rcases mem_append.mp hitem with hafter | hl
    · exact h.sizes item hafter
    · exact hall.sizes item (mem_append_right _ hl)
  · rw [map_append, nodup_append]
    refine ⟨h.guids, hright, ?_⟩
    intro a ha b hb heq
    subst heq
    obtain ⟨item, hitem, rfl⟩ := mem_map.mp ha
    cases h.origin item hitem with
    | inl hold => exact hapart _ hold _ hb rfl
    | inr hnew =>
      obtain ⟨other, hother, hsame⟩ := mem_map.mp hb
      have hlt := hall.old other (mem_append_right _ hother)
      omega
  · intro item hitem
    rw [map_append, mem_append]
    rcases mem_append.mp hitem with hafter | hl
    · exact (h.origin item hafter).imp_left .inl
    · exact .inl (.inr (mem_map_of_mem hl))

variable {x d : Item}

theorem exchange_merge {count left : Nat} (hentry : d.entry = x.entry)
    (hroom : d.count + count ≤ maxStack x.entry) (htotal : x.count = count + left)
    (hleft : 1 ≤ left) (h : Stocked maxStack n [x, d]) :
    Exchange maxStack n [x, d] n
      [{ x with count := left }, { d with count := d.count + count }] := by
  have hx := h.sizes x (by simp)
  have hd := h.sizes d (by simp)
  refine ⟨?_, ?_, h.guids, Nat.le_refl n, ?_⟩
  · intro entry
    simp only [amount_cons, amount_nil, hentry]
    split <;> omega
  · simp only [mem_cons, not_mem_nil, or_false, forall_eq_or_imp, forall_eq]
    rw [hentry] at hd ⊢
    omega
  · simp

theorem exchange_absorb (hentry : d.entry = x.entry)
    (hroom : d.count + x.count ≤ maxStack x.entry) (h : Stocked maxStack n [x, d]) :
    Exchange maxStack n [x, d] n [{ d with count := d.count + x.count }] := by
  have hd := h.sizes d (by simp)
  refine ⟨?_, ?_, by simp, Nat.le_refl n, ?_⟩
  · intro entry
    simp only [amount_cons, amount_nil, hentry]
    split <;> omega
  · simp only [mem_cons, not_mem_nil, or_false, forall_eq]
    rw [hentry] at hd ⊢
    omega
  · simp

theorem exchange_split (count left : Nat) (htotal : x.count = count + left) (hcount : 1 ≤ count)
    (hleft : 1 ≤ left) (h : Stocked maxStack n [x]) :
    Exchange maxStack n [x] (n + 1)
      [{ x with count := left }, { x with guid := n, count := count }] := by
  have hx := h.sizes x (by simp)
  have hold := h.old x (by simp)
  refine ⟨?_, ?_, ?_, Nat.le_succ n, ?_⟩
  · intro entry
    simp only [amount_cons, amount_nil]
    split <;> omega
  · simp only [mem_cons, not_mem_nil, or_false, forall_eq_or_imp, forall_eq]
    omega
  · simp only [map_cons, map_nil, nodup_cons, mem_singleton,
      not_mem_nil, not_false_eq_true, nodup_nil, and_true]
    omega
  · simp

/-- What the player's side is trusted with: taking an item out takes exactly it,
and storing what `CanStoreItem` accepted exchanges it for the same amounts. -/
structure Inventory.Conserves {P D : Type*} (inv : Inventory P D) (maxStack : Nat → Nat) :
    Prop where
  remove : ∀ p container slotId item, inv.getItemByPos p container slotId = some item →
    (inv.items p).Perm (item :: inv.items (inv.moveItemFromInventory p container slotId))
  split : ∀ p container slotId item, inv.getItemByPos p container slotId = some item →
    ∃ rest, (inv.items p).Perm (item :: rest) ∧ ∀ count,
      (inv.items (inv.setCount p container slotId count)).Perm ({ item with count } :: rest)
  store : ∀ p container slotId item dest nextGuid,
    inv.canStoreItem p container slotId item false = some dest →
    Stocked maxStack nextGuid (item :: inv.items p) →
    Exchange maxStack nextGuid (item :: inv.items p) (inv.moveItemToInventory p dest item nextGuid).2
      (inv.items (inv.moveItemToInventory p dest item nextGuid).1)
  /-- A swap: the position checked holds the item that is taken out first. -/
  storeSwapped : ∀ p container slotId old item dest nextGuid,
    inv.getItemByPos p container slotId = some old →
    inv.canStoreItem p container slotId item true = some dest →
    let p' := inv.moveItemFromInventory p container slotId
    Stocked maxStack nextGuid (item :: inv.items p') →
    Exchange maxStack nextGuid (item :: inv.items p')
      (inv.moveItemToInventory p' dest item nextGuid).2
      (inv.items (inv.moveItemToInventory p' dest item nextGuid).1)

section Bank

def bankSlots (purchasedTabs : Nat) : List (Nat × Nat) :=
  (List.range purchasedTabs).product (List.range GUILD_BANK_MAX_SLOTS)

theorem mem_bankSlots {purchasedTabs tabId slotId : Nat} :
    (tabId, slotId) ∈ bankSlots purchasedTabs ↔
      tabId < purchasedTabs ∧ slotId < GUILD_BANK_MAX_SLOTS := by
  simp [bankSlots]

theorem bankSlots_nodup (purchasedTabs : Nat) : (bankSlots purchasedTabs).Nodup :=
  List.nodup_range.product nodup_range

def BankWorld.bankItems (w : BankWorld G P) : List Item :=
  contents (bankSlots w.purchasedTabs) w.bank

def BankWorld.allItems (inv : Inventory P D) (w : BankWorld G P) : List Item :=
  w.bankItems ++ inv.items w.player

variable {G P D : Type*}
variable {w : BankWorld G P} {inv : Inventory P D} {tabId slotId : Nat} {item : Item}

theorem getItem_some : w.getItem tabId slotId = some item ↔
    (tabId, slotId) ∈ bankSlots w.purchasedTabs ∧ w.bank (tabId, slotId) = some item := by
  unfold BankWorld.getItem
  rw [mem_bankSlots]
  split
  · rename_i h
    simp [h]
  · rename_i h
    simp [h]

theorem getItem_none (hslot : (tabId, slotId) ∈ bankSlots w.purchasedTabs) :
    w.getItem tabId slotId = none ↔ w.bank (tabId, slotId) = none := by
  unfold BankWorld.getItem
  rw [if_pos (mem_bankSlots.mp hslot)]

theorem setItem_eq (hslot : (tabId, slotId) ∈ bankSlots w.purchasedTabs) (content : Option Item) :
    w.setItem tabId slotId content =
      { w with bank := Function.update w.bank (tabId, slotId) content } := by
  unfold BankWorld.setItem
  rw [if_pos (mem_bankSlots.mp hslot)]

section
variable (content : Option Item)

@[simp] theorem setItem_purchasedTabs :
    (w.setItem tabId slotId content).purchasedTabs = w.purchasedTabs := by
  unfold BankWorld.setItem
  split <;> rfl

@[simp] theorem setItem_player : (w.setItem tabId slotId content).player = w.player := by
  unfold BankWorld.setItem
  split <;> rfl

@[simp] theorem setItem_nextGuid : (w.setItem tabId slotId content).nextGuid = w.nextGuid := by
  unfold BankWorld.setItem
  split <;> rfl

theorem setItem_other {tabId' slotId' : Nat} (hne : ¬ (tabId' = tabId ∧ slotId' = slotId)) :
    (w.setItem tabId slotId content).getItem tabId' slotId' = w.getItem tabId' slotId' := by
  unfold BankWorld.setItem
  split
  · have hkey : (tabId', slotId') ≠ (tabId, slotId) := fun heq => hne (by simpa using heq)
    simp only [BankWorld.getItem, Function.update_of_ne hkey]
  · rfl

end

theorem setItem_getItem (hslot : (tabId, slotId) ∈ bankSlots w.purchasedTabs)
    (content : Option Item) (tabId' slotId' : Nat) :
    (w.setItem tabId slotId content).getItem tabId' slotId' =
      if tabId' = tabId ∧ slotId' = slotId then content else w.getItem tabId' slotId' := by
  by_cases hsame : tabId' = tabId ∧ slotId' = slotId
  · obtain ⟨rfl, rfl⟩ := hsame
    rw [setItem_eq hslot]
    simp [BankWorld.getItem, mem_bankSlots.mp hslot]
  · rw [if_neg hsame, setItem_other content hsame]

theorem allItems_take (inv : Inventory P D) (h : w.getItem tabId slotId = some item) :
    (w.allItems inv).Perm (item :: (w.setItem tabId slotId none).allItems inv) := by
  obtain ⟨hslot, hfull⟩ := getItem_some.mp h
  rw [setItem_eq hslot]
  exact (contents_take (bankSlots_nodup _) hslot hfull).append_right _

section
variable (inv : Inventory P D) (item : Item) (hslot : (tabId, slotId) ∈ bankSlots w.purchasedTabs)
include hslot

theorem allItems_replace :
    ((w.setItem tabId slotId (some item)).allItems inv).Perm
      (item :: (w.setItem tabId slotId none).allItems inv) := by
  rw [setItem_eq hslot, setItem_eq hslot]
  exact (contents_replace (bankSlots_nodup _) hslot).append_right _

theorem allItems_put (hempty : w.getItem tabId slotId = none) :
    ((w.setItem tabId slotId (some item)).allItems inv).Perm (item :: w.allItems inv) := by
  rw [setItem_eq hslot]
  exact (contents_put (bankSlots_nodup _) hslot ((getItem_none hslot).mp hempty)).append_right _

end

theorem mem_allItems (h : w.getItem tabId slotId = some item) : item ∈ w.allItems inv :=
  have ⟨hslot, hfull⟩ := getItem_some.mp h
  mem_append_left _ (mem_contents hslot hfull)

end Bank

end LegionServer.Source.Guilds
