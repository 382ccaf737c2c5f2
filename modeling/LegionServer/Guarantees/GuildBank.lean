import LegionServer.Source.Guilds.MoveEffects

/-!
# Guild bank moves conserve items

Every swap, merge, split, deposit and withdrawal exchanges the stacks of bank
and inventory for stacks with the same amounts, whatever the rights, slots and
split amounts of the request; a refused request changes neither.
-/
namespace LegionServer.Guarantees.GuildBank
open Library Source.Guilds List Option

variable {G P D : Type*} {inv : Inventory P D} {maxStack : Nat → Nat} {w w' : BankWorld G P}

structure Conserved (inv : Inventory P D) (maxStack : Nat → Nat) (w : BankWorld G P)
    (result : BankWorld G P × Bool) : Prop where
  exchange : Exchange maxStack w.nextGuid (w.allItems inv) result.1.nextGuid (result.1.allItems inv)
  refused : result.2 = false → result.1.bank = w.bank ∧ result.1.player = w.player

theorem conserved_refused (h : Stocked maxStack w.nextGuid (w.allItems inv)) :
    Conserved inv maxStack w (w, false) :=
  ⟨.refl h, fun _ => ⟨rfl, rfl⟩⟩

theorem conserved_moved
    (h : Exchange maxStack w.nextGuid (w.allItems inv) w'.nextGuid (w'.allItems inv)) :
    Conserved inv maxStack w (w', true) :=
  ⟨h, fun hmoved => by cases hmoved⟩

variable [DecidableEq G] {guid : G} {src dest : MoveItemData} {item : Item}

theorem checkItem_some {splitedAmount amount : Nat} (h : checkItem item splitedAmount = some amount)
    (hne : amount ≠ 0) : amount < item.count := by
  unfold checkItem at h
  split at h
  · cases h
  split at h
  · cases h
    exact absurd rfl hne
  · cases h
    omega

theorem removeItem_keeps_player (hapart : Apart src dest) (hplayer : dest.isBank = false)
    (splitedAmount : Nat) :
    (removeItem inv guid w src dest item splitedAmount).player = w.player := by
  cases src with
  | bank container slotId =>
    obtain ⟨g, heq⟩ := removeItem_bank inv guid w dest item container slotId splitedAmount
    rw [heq]
    exact setItem_player _
  | player _ _ =>
    cases dest with
    | bank _ _ => cases hplayer
    | player _ _ => exact absurd hapart id

section
variable (hinv : inv.Conserves maxStack)
include hinv

theorem doItemsMove_whole (hapart : Apart src dest) (hvalid : dest.valid)
    (h : Stocked maxStack w.nextGuid (w.allItems inv)) (hitem : held inv w src = some item)
    (hrun : doItemsMove inv maxStack guid w src dest item item none 0 = some w') :
    Exchange maxStack w.nextGuid (w.allItems inv) w'.nextGuid (w'.allItems inv) := by
  unfold doItemsMove at hrun
  cases hvec : canStore inv maxStack w dest item false with
  | none =>
    simp only [isSome_none, hvec] at hrun
    cases hrun
  | some vec =>
    simp only [isSome_none, hvec] at hrun
    cases hrun
    have htake := removeItem_items guid dest hinv hitem
    have hhand : Stocked maxStack (removeItem inv guid w src dest item 0).nextGuid
        (item :: (removeItem inv guid w src dest item 0).allItems inv) := by
      rw [removeItem_nextGuid]
      exact h.perm htake
    have hstore := storeItem_exchange hinv hvec hvalid (removeItem_roomier hitem hhand)
      (removeItem_purchasedTabs 0) (fun hplayer => removeItem_keeps_player hapart hplayer 0) hhand
    rw [removeItem_nextGuid] at hstore
    exact hstore.perm_left htake.symm

theorem doItemsMove_split (hapart : Apart src dest) (hvalid : dest.valid)
    (h : Stocked maxStack w.nextGuid (w.allItems inv)) (hitem : held inv w src = some item)
    {splitedAmount : Nat} (hsplit : splitedAmount ≠ 0) (hless : splitedAmount < item.count)
    (hrun : doItemsMove inv maxStack guid { w with nextGuid := w.nextGuid + 1 } src dest item
      (cloneItem maxStack item splitedAmount w.nextGuid) none splitedAmount = some w') :
    Exchange maxStack w.nextGuid (w.allItems inv) w'.nextGuid (w'.allItems inv) := by
  set w₀ : BankWorld G P := { w with nextGuid := w.nextGuid + 1 } with hw₀
  have hheld : held inv w₀ src = some item := by
    cases src with
    | bank _ _ => exact hitem
    | player _ _ => exact hitem
  obtain ⟨rest, hbefore, hafter⟩ := removeItem_split guid dest hinv hheld hsplit
  have hstocked := h.perm hbefore
  have hsize := hstocked.sizes item mem_cons_self
  have hclone : cloneItem maxStack item splitedAmount w.nextGuid =
      { item with guid := w.nextGuid, count := splitedAmount } := by
    have hmin : min splitedAmount (maxStack item.entry) = splitedAmount := by omega
    simp only [cloneItem, hmin]
  -- the source keeps the rest, the clone is in hand
  have hsplitted : Exchange maxStack w.nextGuid (w.allItems inv) (w.nextGuid + 1)
      (cloneItem maxStack item splitedAmount w.nextGuid ::
        (removeItem inv guid w₀ src dest item splitedAmount).allItems inv) := by
    have hbase := exchange_split (x := item) splitedAmount
      (item.count - splitedAmount) (by omega) (by omega) (by omega)
      (Stocked.left (l := [item]) _ hstocked)
    rw [hclone]
    exact ((hbase.frame hstocked).perm_left hbefore.symm).perm_right
      ((List.Perm.swap _ _ rest).trans (hafter.symm.cons _))
  unfold doItemsMove at hrun
  cases hvec : canStore inv maxStack w₀ dest (cloneItem maxStack item splitedAmount w.nextGuid)
      false with
  | none =>
    simp only [isSome_none, hvec] at hrun
    cases hrun
  | some vec =>
    simp only [isSome_none, hvec] at hrun
    cases hrun
    have hhand := hsplitted.stocked h
    have hnext : (removeItem inv guid w₀ src dest item splitedAmount).nextGuid = w.nextGuid + 1 :=
      removeItem_nextGuid splitedAmount
    rw [← hnext] at hhand
    have hstore := storeItem_exchange hinv hvec hvalid (removeItem_roomier hheld hhand)
      (removeItem_purchasedTabs splitedAmount)
      (fun hplayer => removeItem_keeps_player hapart hplayer splitedAmount) hhand
    rw [hnext] at hstore
    exact hsplitted.trans hstore

theorem doItemsMove_swap (hapart : Apart src dest)
    (h : Stocked maxStack w.nextGuid (w.allItems inv)) {destItem : Item}
    (hitem : held inv w src = some item) (hdest : held inv w dest = some destItem)
    (hrun : doItemsMove inv maxStack guid w src dest item item (some destItem) 0 = some w') :
    Exchange maxStack w.nextGuid (w.allItems inv) w'.nextGuid (w'.allItems inv) := by
  unfold doItemsMove at hrun
  cases hvec : canStore inv maxStack w dest item true with
  | none =>
    simp only [isSome_some, hvec] at hrun
    cases hrun
  | some vec =>
    cases hback : canStore inv maxStack w src destItem true with
    | none =>
      simp only [isSome_some, hvec, hback] at hrun
      cases hrun
    | some backVec =>
      simp only [isSome_some, hvec, hback] at hrun
      cases hrun
      set w₁ := removeItem inv guid w src dest item 0 with hw₁
      set w₂ := removeItem inv guid w₁ dest src destItem 0 with hw₂
      have hheld₁ : held inv w₁ dest = some destItem :=
        (removeItem_apart w hapart.symm).1.trans hdest
      have htake : (w.allItems inv).Perm (item :: w₁.allItems inv) := removeItem_items guid dest hinv hitem
      have htake₁ : (w₁.allItems inv).Perm (destItem :: w₂.allItems inv) :=
        removeItem_items guid src hinv hheld₁
      have htabs₁ : w₁.purchasedTabs = w.purchasedTabs := removeItem_purchasedTabs 0
      have htabs₂ : w₂.purchasedTabs = w.purchasedTabs := (removeItem_purchasedTabs 0).trans htabs₁
      have hnext₂ : w₂.nextGuid = w.nextGuid :=
        (removeItem_nextGuid 0).trans (removeItem_nextGuid 0)
      have hsrc₂ : Vacated inv w w₂ src :=
        (removeItem_apart w hapart).2 (removeItem_vacated hitem fun _ => rfl)
      have hdest₂ : Vacated inv w w₂ dest :=
        removeItem_vacated hheld₁ fun hplayer => removeItem_keeps_player hapart hplayer 0
      have hboth := (htake.trans (htake₁.cons item)).trans (List.Perm.swap _ _ _)
      have hstock : Stocked maxStack w₂.nextGuid (destItem :: (item :: w₂.allItems inv)) := by
        rw [hnext₂]
        exact h.perm hboth
      obtain ⟨hstore, htabs₃, hothers⟩ := storeItem_swap hinv hdest hvec htabs₂ hdest₂
        (Stocked.left [destItem] (hstock.perm (perm_append_singleton destItem _).symm))
      have hsrc₃ := hothers src hapart hsrc₂
      set w₃ := storeItem inv maxStack w₂ dest vec item with hw₃
      have hhand : Exchange maxStack w₂.nextGuid (destItem :: (item :: w₂.allItems inv)) w₃.nextGuid
          (destItem :: w₃.allItems inv) := by
        have hframe := hstore.frame (l := [destItem])
          (hstock.perm (perm_append_singleton destItem _).symm)
        exact (hframe.perm_left (perm_append_singleton destItem _)).perm_right
          (perm_append_singleton destItem _)
      obtain ⟨hlast, _, _⟩ := storeItem_swap hinv hitem hback (htabs₃.trans htabs₂) hsrc₃
        (hhand.stocked hstock)
      have hall := hhand.trans hlast
      rw [hnext₂] at hall
      exact hall.perm_left hboth.symm

theorem moveItems_conserved (guid : G) (hapart : Apart src dest) (hvalid : dest.valid)
    (h : Stocked maxStack w.nextGuid (w.allItems inv)) (splitedAmount : Nat) :
    Conserved inv maxStack w (moveItems inv maxStack guid w src dest splitedAmount) := by
  unfold moveItems
  cases hitem : initItem inv w src with
  | none => exact conserved_refused h
  | some item =>
    have hheld := held_of_initItem hitem
    dsimp only
    cases hcheck : checkItem item splitedAmount with
    | none => exact conserved_refused h
    | some amount =>
      dsimp only
      split
      · exact conserved_refused h
      split
      · exact conserved_refused h
      split
      · rename_i hsplit
        cases hrun : doItemsMove inv maxStack guid { w with nextGuid := w.nextGuid + 1 } src dest
            item (cloneItem maxStack item amount w.nextGuid) none amount with
        | none => exact ⟨.of_later h (Nat.le_succ _), fun _ => ⟨rfl, rfl⟩⟩
        | some after =>
          exact conserved_moved (doItemsMove_split hinv hapart hvalid h hheld hsplit
            (checkItem_some hcheck hsplit) hrun)
      · cases hrun : doItemsMove inv maxStack guid w src dest item item none 0 with
        | some after =>
          exact conserved_moved (doItemsMove_whole hinv hapart hvalid h hheld hrun)
        | none =>
          cases hdest : initItem inv w dest with
          | none => exact conserved_refused h
          | some destItem =>
            dsimp only
            split
            · exact conserved_refused h
            split
            · exact conserved_refused h
            cases hswap : doItemsMove inv maxStack guid w src dest item item (some destItem) 0 with
            | none => exact conserved_refused h
            | some after =>
              exact conserved_moved (doItemsMove_swap hinv hapart h hheld
                (held_of_initItem hdest) hswap)

end

inductive BankRequest where
  | swapItems (tabId slotId destTabId destSlotId splitedAmount : Nat)
  | swapItemsWithInventory (toChar : Bool) (tabId slotId playerBag playerSlotId splitedAmount : Nat)

def BankRequest.perform (inv : Inventory P D) (maxStack : Nat → Nat) (guid : G)
    (w : BankWorld G P) : BankRequest → BankWorld G P × Bool
  | .swapItems tabId slotId destTabId destSlotId splitedAmount =>
    Source.Guilds.swapItems inv maxStack guid w tabId slotId destTabId destSlotId splitedAmount
  | .swapItemsWithInventory toChar tabId slotId playerBag playerSlotId splitedAmount =>
    Source.Guilds.swapItemsWithInventory inv maxStack guid w toChar tabId slotId playerBag playerSlotId
      splitedAmount

theorem perform_conserved (hinv : inv.Conserves maxStack) (guid : G)
    (h : Stocked maxStack w.nextGuid (w.allItems inv)) (request : BankRequest) :
    Conserved inv maxStack w (request.perform inv maxStack guid w) := by
  cases request with
  | swapItems tabId slotId destTabId destSlotId splitedAmount =>
    unfold BankRequest.perform Source.Guilds.swapItems
    dsimp only
    split
    · exact conserved_refused h
    rename_i hbounds
    split
    · exact conserved_refused h
    · rename_i hne
      refine moveItems_conserved hinv guid ?_ ?_ h splitedAmount
      · exact hne
      · exact Or.inl (by omega)
  | swapItemsWithInventory toChar tabId slotId playerBag playerSlotId splitedAmount =>
    unfold BankRequest.perform Source.Guilds.swapItemsWithInventory
    dsimp only
    split
    · exact conserved_refused h
    split
    · refine moveItems_conserved hinv guid ?_ ?_ h splitedAmount
      · exact trivial
      · exact trivial
    · refine moveItems_conserved hinv guid ?_ ?_ h splitedAmount
      · exact trivial
      · show slotId < GUILD_BANK_MAX_SLOTS ∨ slotId = NULL_SLOT
        omega

/-- After any request on a well-stocked bank and inventory the amount of every
entry is the same, every stack has a legal size and no object is in two places;
a refused request changes neither bank nor inventory. -/
theorem bank_request_conserves (hinv : inv.Conserves maxStack) (guid : G)
    (h : Stocked maxStack w.nextGuid (w.allItems inv)) (request : BankRequest) :
    let result := request.perform inv maxStack guid w
    (∀ entry, amount entry (result.1.allItems inv) = amount entry (w.allItems inv)) ∧
      Stocked maxStack result.1.nextGuid (result.1.allItems inv) ∧
      (result.2 = false → result.1.bank = w.bank ∧ result.1.player = w.player) := by
  have hconserved := perform_conserved hinv guid h request
  exact ⟨hconserved.exchange.amounts, hconserved.exchange.stocked h, hconserved.refused⟩

def backpack : Inventory (Nat → Option Item) Nat where
  getItemByPos p _ slotId := if slotId < 4 then p slotId else none
  isNotEmptyBag _ _ := false
  canBeTraded _ item := !item.soulBound
  canStoreItem p _ slotId _ swap :=
    if slotId < 4 ∧ (swap ∨ p slotId = none) then some slotId
    else if swap then none
    else (List.range 4).find? fun slotId => (p slotId).isNone
  setCount p _ slotId count :=
    Function.update p slotId ((p slotId).map fun item => { item with count })
  moveItemFromInventory p _ slotId := Function.update p slotId none
  moveItemToInventory p dest item nextGuid := (Function.update p dest (some item), nextGuid)
  items := contents (List.range 4)

theorem backpack_fill {maxStack : Nat → Nat} {p : Nat → Option Item} {slotId n : Nat} {item : Item}
    (hslot : slotId < 4) (hempty : p slotId = none)
    (h : Stocked maxStack n (item :: contents (List.range 4) p)) :
    Exchange maxStack n (item :: contents (List.range 4) p) n
      (contents (List.range 4) (Function.update p slotId (some item))) :=
  (Exchange.refl h).perm_right (contents_put nodup_range (mem_range.mpr hslot) hempty).symm

theorem backpack_conserves (maxStack : Nat → Nat) : backpack.Conserves maxStack := by
  have hpos : ∀ {p : Nat → Option Item} {container slotId : Nat} {item : Item},
      backpack.getItemByPos p container slotId = some item → slotId < 4 ∧ p slotId = some item :=
    fun h => by simpa [backpack] using h
  constructor
  · intro p container slotId item h
    obtain ⟨hslot, hfull⟩ := hpos h
    exact contents_take nodup_range (mem_range.mpr hslot) hfull
  · intro p container slotId item h
    obtain ⟨hslot, hfull⟩ := hpos h
    refine ⟨_, contents_take nodup_range (mem_range.mpr hslot) hfull, fun count => ?_⟩
    simp only [backpack, hfull, map_some]
    exact contents_replace nodup_range (mem_range.mpr hslot)
  · intro p container slotId item dest n hdest h
    simp only [backpack, Bool.false_eq_true, false_or, if_false] at hdest h ⊢
    split at hdest
    · rename_i hfree
      cases hdest
      exact backpack_fill hfree.1 hfree.2 h
    · have hmem := mem_range.mp (mem_of_find?_eq_some hdest)
      have hempty := find?_some hdest
      exact backpack_fill hmem (by simpa using hempty) h
  · intro p container slotId old item dest n hold hdest
    obtain ⟨hslot, _⟩ := hpos hold
    simp only [backpack, true_or, and_true, hslot, if_true] at hdest ⊢
    cases hdest
    exact backpack_fill hslot (Function.update_self _ _ _)

def herbBank : BankWorld Nat (Nat → Option Item) where
  guild := { leaderGuid := 7, ranks := [],
             members := fun player => if player = 7 then some { rankId := GuildMaster } else none }
  purchasedTabs := 1
  bank slot := if slot = (0, 3) then some { guid := 1, entry := 700, count := 20 } else none
  player _ := none
  nextGuid := 2

/-- Five of them are withdrawn into backpack slot 0. -/
theorem bank_request_conserves_split :
    amount 700 (((BankRequest.swapItemsWithInventory true 0 3 255 0 5).perform backpack
      (fun _ => 20) 7 herbBank).1.allItems backpack) = 20 := by
  have hstock : Stocked (fun _ => 20) 2 (herbBank.allItems backpack) := by
    constructor <;> decide
  have hsame := (bank_request_conserves (w := herbBank) (backpack_conserves fun _ => 20) 7 hstock
    (.swapItemsWithInventory true 0 3 255 0 5)).1 700
  exact hsame.trans (by decide)

end LegionServer.Guarantees.GuildBank
