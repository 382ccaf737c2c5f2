import LegionServer.Source.Guilds.BankEffects

/-!
# Effects of the two sides of a move

Taking the item out of its place, and storing an item in a place that was
checked before: with room reserved for it, or emptied for a swap.
-/
namespace LegionServer.Source.Guilds
open Library List

variable {G P D : Type*} {w w₀ : BankWorld G P} {inv : Inventory P D}
  {maxStack : Nat → Nat} {item moved : Item} {self other : MoveItemData}

/-- What lies in the place, whether or not it may be moved. -/
def held (inv : Inventory P D) (w : BankWorld G P) : MoveItemData → Option Item
  | .bank container slotId => w.getItem container slotId
  | .player container slotId => inv.getItemByPos w.player container slotId

theorem held_of_initItem (h : initItem inv w self = some item) : held inv w self = some item := by
  cases self with
  | bank container slotId => exact h
  | player container slotId =>
    unfold initItem at h
    dsimp only at h
    cases hpos : inv.getItemByPos w.player container slotId with
    | none =>
      rw [hpos] at h
      cases h
    | some found =>
      rw [hpos] at h
      dsimp only at h
      split at h
      · cases h
      · split at h
        · cases h
        · rw [held, hpos]
          exact h

/-- Places of a request: bank slots, or `NULL_SLOT` for storing anywhere. -/
def MoveItemData.valid : MoveItemData → Prop
  | .bank _ slotId => slotId < GUILD_BANK_MAX_SLOTS ∨ slotId = NULL_SLOT
  | .player _ _ => True

def Apart : MoveItemData → MoveItemData → Prop
  | .bank container slotId, .bank container' slotId' => ¬ (container = container' ∧ slotId = slotId')
  | .player _ _, .player _ _ => False
  | _, _ => True

theorem Apart.symm (h : Apart self other) : Apart other self := by
  cases self with
  | bank container slotId =>
    cases other with
    | bank container' slotId' => exact fun heq => h ⟨heq.1.symm, heq.2.symm⟩
    | player _ _ => trivial
  | player _ _ =>
    cases other with
    | bank _ _ => trivial
    | player _ _ => exact h

variable {n : Nat}

theorem exchange_player {player : P}
    (h : Exchange maxStack w.nextGuid (item :: inv.items w.player) n (inv.items player))
    (hall : Stocked maxStack w.nextGuid (item :: w.allItems inv)) :
    Exchange maxStack w.nextGuid (item :: w.allItems inv) n
      (({ w with player, nextGuid := n } : BankWorld G P).allItems inv) := by
  have hperm : ((item :: inv.items w.player) ++ w.bankItems).Perm (item :: w.allItems inv) :=
    perm_append_comm.cons item
  exact ((h.frame (hall.perm hperm.symm)).perm_left hperm).perm_right perm_append_comm

/-- `StoreItem` after a `CanStore` without a swap, made in the world `w₀`. -/
theorem storeItem_exchange (hinv : inv.Conserves maxStack) {vec : MoveVec D}
    (hvec : canStore inv maxStack w₀ self moved false = some vec) (hvalid : self.valid)
    (hroom : ∀ container, Roomier (seenBy w₀ container moved) (w.getItem container))
    (htabs : w.purchasedTabs = w₀.purchasedTabs)
    (hplayer : self.isBank = false → w.player = w₀.player)
    (hall : Stocked maxStack w.nextGuid (moved :: w.allItems inv)) :
    let w' := storeItem inv maxStack w self vec moved
    Exchange maxStack w.nextGuid (moved :: w.allItems inv) w'.nextGuid (w'.allItems inv) := by
  have hsize := hall.sizes moved mem_cons_self
  cases self with
  | bank container slotId =>
    obtain ⟨slots, hslots, rfl⟩ := Option.map_eq_some_iff.mp hvec
    obtain ⟨hcontainer, hne, hreserved⟩ := bankCanStore_reserved hvalid hsize.1 hsize.2 hslots
    exact bankStoreItem_exchange slots w moved.count (htabs ▸ hcontainer) hne
      (hreserved.roomier (hroom container)) hall
  | player container slotId =>
    obtain ⟨dest, hdest, rfl⟩ := Option.map_eq_some_iff.mp hvec
    rw [← hplayer rfl] at hdest
    have hstock : Stocked maxStack w.nextGuid (moved :: inv.items w.player) :=
      Stocked.left w.bankItems (hall.perm (perm_append_comm.cons moved))
    exact exchange_player (hinv.store w.player container slotId moved dest w.nextGuid hdest hstock)
      hall

/-- The place was emptied since `w₀`, and nothing happened to its side since. -/
def Vacated (inv : Inventory P D) (w₀ w : BankWorld G P) : MoveItemData → Prop
  | .bank container slotId => w.getItem container slotId = none
  | .player container slotId => w.player = inv.moveItemFromInventory w₀.player container slotId

/-- `StoreItem` after a `CanStore` for a swap; other places are not touched. -/
theorem storeItem_swap (hinv : inv.Conserves maxStack) {vec : MoveVec D} {old : Item}
    (hold : held inv w₀ self = some old)
    (hvec : canStore inv maxStack w₀ self moved true = some vec)
    (htabs : w.purchasedTabs = w₀.purchasedTabs) (hempty : Vacated inv w₀ w self)
    (hall : Stocked maxStack w.nextGuid (moved :: w.allItems inv)) :
    let w' := storeItem inv maxStack w self vec moved
    Exchange maxStack w.nextGuid (moved :: w.allItems inv) w'.nextGuid (w'.allItems inv) ∧
      w'.purchasedTabs = w.purchasedTabs ∧
      ∀ other, Apart other self → Vacated inv w₀ w other → Vacated inv w₀ w' other := by
  have hsize := hall.sizes moved mem_cons_self
  cases self with
  | bank container slotId =>
    obtain ⟨slots, hslots, rfl⟩ := Option.map_eq_some_iff.mp hvec
    have hslot := (mem_bankSlots.mp (getItem_some.mp hold).1).2
    obtain ⟨hcontainer, rfl⟩ := bankCanStore_swap hslot hsize.2 hslots
    have hreserved : Reserved maxStack (w.getItem container) moved [(slotId, moved.count)]
        moved.count := by
      refine ⟨by simp, fun pos hpos => ?_, by simp⟩
      rw [mem_singleton.mp hpos]
      refine ⟨hslot, hsize.1, hsize.2, fun dest hdest => ?_⟩
      rw [hempty] at hdest
      cases hdest
    obtain ⟨hsame, hplayer, hget⟩ := bankStoreItem_frame maxStack container moved
      [(slotId, moved.count)] w
    refine ⟨bankStoreItem_exchange _ w moved.count (htabs ▸ hcontainer) (cons_ne_nil _ _)
      hreserved hall, hsame, ?_⟩
    intro other hapart hother
    cases other with
    | bank container' slotId' =>
      refine (hget container' slotId' ?_).trans hother
      intro h
      simp only [map_cons, map_nil, mem_singleton] at h
      exact hapart h
    | player container' slotId' => exact hplayer.trans hother
  | player container slotId =>
    obtain ⟨dest, hdest, rfl⟩ := Option.map_eq_some_iff.mp hvec
    have hstock : Stocked maxStack w.nextGuid (moved :: inv.items w.player) :=
      Stocked.left w.bankItems (hall.perm (perm_append_comm.cons moved))
    have hlaw := hinv.storeSwapped w₀.player container slotId old moved dest w.nextGuid hold hdest
    rw [← show w.player = _ from hempty] at hlaw
    refine ⟨exchange_player (hlaw hstock) hall, rfl, ?_⟩
    intro other hapart hother
    cases other with
    | bank container' slotId' => exact hother
    | player container' slotId' => exact absurd hapart id

variable [DecidableEq G] {guid : G}

theorem removeItem_bank (inv : Inventory P D) (guid : G) (w : BankWorld G P)
    (other : MoveItemData) (item : Item) (container slotId splitedAmount : Nat) :
    ∃ guild, removeItem inv guid w (.bank container slotId) other item splitedAmount =
      { w.setItem container slotId (if splitedAmount ≠ 0
          then some { item with count := item.count - splitedAmount } else none) with guild } := by
  unfold removeItem
  dsimp only
  split
  · exact ⟨_, rfl⟩
  · exact ⟨_, rfl⟩

/-- A removal from the inventory changes the inventory only. -/
theorem removeItem_player (container slotId splitedAmount : Nat) :
    removeItem inv guid w (.player container slotId) other item splitedAmount =
      { w with player :=
          if splitedAmount ≠ 0 then inv.setCount w.player container slotId (item.count - splitedAmount)
          else inv.moveItemFromInventory w.player container slotId } := by
  unfold removeItem
  dsimp only
  split <;> rfl

@[simp] theorem removeItem_purchasedTabs (splitedAmount : Nat) :
    (removeItem inv guid w self other item splitedAmount).purchasedTabs = w.purchasedTabs := by
  cases self with
  | bank container slotId =>
    obtain ⟨g, heq⟩ := removeItem_bank inv guid w other item container slotId splitedAmount
    rw [heq]
    exact setItem_purchasedTabs _
  | player container slotId => rw [removeItem_player]

@[simp] theorem removeItem_nextGuid (splitedAmount : Nat) :
    (removeItem inv guid w self other item splitedAmount).nextGuid = w.nextGuid := by
  cases self with
  | bank container slotId =>
    obtain ⟨g, heq⟩ := removeItem_bank inv guid w other item container slotId splitedAmount
    rw [heq]
    exact setItem_nextGuid _
  | player container slotId => rw [removeItem_player]

theorem removeItem_items (guid : G) (other : MoveItemData) (hinv : inv.Conserves maxStack) (h : held inv w self = some item) :
    (w.allItems inv).Perm (item :: (removeItem inv guid w self other item 0).allItems inv) := by
  cases self with
  | bank container slotId =>
    obtain ⟨g, heq⟩ := removeItem_bank inv guid w other item container slotId 0
    rw [heq]
    exact allItems_take inv h
  | player container slotId =>
    have htake := hinv.remove w.player container slotId item h
    exact (htake.append_left w.bankItems).trans perm_middle

variable {splitedAmount : Nat}

theorem removeItem_split (guid : G) (other : MoveItemData) (hinv : inv.Conserves maxStack)
    (h : held inv w self = some item) (hsplit : splitedAmount ≠ 0) :
    ∃ rest, (w.allItems inv).Perm (item :: rest) ∧
      ((removeItem inv guid w self other item splitedAmount).allItems inv).Perm
        ({ item with count := item.count - splitedAmount } :: rest) := by
  cases self with
  | bank container slotId =>
    obtain ⟨g, heq⟩ := removeItem_bank inv guid w other item container slotId splitedAmount
    rw [heq, if_pos hsplit]
    exact ⟨_, allItems_take inv h, allItems_replace inv _ (getItem_some.mp h).1⟩
  | player container slotId =>
    rw [removeItem_player, if_pos hsplit]
    obtain ⟨rest, hbefore, hafter⟩ := hinv.split w.player container slotId item h
    exact ⟨w.bankItems ++ rest, (hbefore.append_left w.bankItems).trans perm_middle,
      ((hafter _).append_left w.bankItems).trans perm_middle⟩

theorem removeItem_getItem (h : held inv w self = some item) {container slotId : Nat}
    {dest' : Item}
    (hdest' : (removeItem inv guid w self other item splitedAmount).getItem container
      slotId = some dest') :
    ∃ dest, w.getItem container slotId = some dest ∧ dest'.guid = dest.guid ∧
      dest'.entry = dest.entry ∧ dest'.count ≤ dest.count := by
  cases self with
  | bank container' slotId' =>
    obtain ⟨g, heq⟩ := removeItem_bank inv guid w other item container' slotId' splitedAmount
    rw [heq] at hdest'
    change (w.setItem container' slotId' _).getItem container slotId = some dest' at hdest'
    rw [setItem_getItem (getItem_some.mp h).1] at hdest'
    split at hdest'
    · rename_i hsame
      obtain ⟨rfl, rfl⟩ := hsame
      split at hdest'
      · cases hdest'
        exact ⟨item, h, rfl, rfl, Nat.sub_le _ _⟩
      · cases hdest'
    · exact ⟨dest', hdest', rfl, rfl, Nat.le_refl _⟩
  | player container' slotId' =>
    rw [removeItem_player] at hdest'
    exact ⟨dest', hdest', rfl, rfl, Nat.le_refl _⟩

/-- After the removal every slot has the room that `CanStore` saw. -/
theorem removeItem_roomier (h : held inv w self = some item) (hmoved : Stocked maxStack n
      (moved :: (removeItem inv guid w self other item splitedAmount).allItems inv))
    (container : Nat) : Roomier (seenBy w container moved)
      ((removeItem inv guid w self other item splitedAmount).getItem container) := by
  intro slotId dest' hdest'
  obtain ⟨dest, hdest, hguid, hentry, hcount⟩ := removeItem_getItem h hdest'
  have hguids := hmoved.guids
  rw [map_cons, nodup_cons] at hguids
  have hother : dest.guid ≠ moved.guid := by
    intro heq
    apply hguids.1
    rw [← heq, ← hguid]
    exact mem_map_of_mem (mem_allItems hdest')
  refine ⟨dest, ?_, hentry, hcount⟩
  simp [seenBy, hdest, hother]

variable {moveTo : MoveItemData}

theorem removeItem_apart (w₀ : BankWorld G P) (hapart : Apart other self) :
    held inv (removeItem inv guid w self moveTo item 0) other = held inv w other ∧
      (Vacated inv w₀ w other →
        Vacated inv w₀ (removeItem inv guid w self moveTo item 0) other) := by
  cases self with
  | bank container slotId =>
    obtain ⟨g, heq⟩ := removeItem_bank inv guid w moveTo item container slotId 0
    rw [heq]
    cases other with
    | bank container' slotId' =>
      have hget := setItem_other (w := w) (if (0 : Nat) ≠ 0
        then some { item with count := item.count - 0 } else none) hapart
      exact ⟨hget, fun h => hget.trans h⟩
    | player container' slotId' =>
      simp only [held, Vacated, setItem_player]
      exact ⟨trivial, id⟩
  | player container slotId =>
    cases other with
    | bank container' slotId' => exact ⟨rfl, id⟩
    | player container' slotId' => exact absurd hapart id

theorem removeItem_vacated (hheld : held inv w self = some item)
    (hplayer : self.isBank = false → w.player = w₀.player) :
    Vacated inv w₀ (removeItem inv guid w self moveTo item 0) self := by
  cases self with
  | bank container slotId =>
    obtain ⟨g, heq⟩ := removeItem_bank inv guid w moveTo item container slotId 0
    rw [heq]
    change (w.setItem container slotId _).getItem container slotId = none
    rw [setItem_getItem (getItem_some.mp hheld).1, if_pos ⟨rfl, rfl⟩]
    rfl
  | player container slotId =>
    exact congrArg (inv.moveItemFromInventory · container slotId) (hplayer rfl)

end LegionServer.Source.Guilds
