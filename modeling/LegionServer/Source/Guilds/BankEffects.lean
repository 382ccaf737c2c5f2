import LegionServer.Source.Guilds.BankItems

/-!
# Reserving and storing in a bank tab

`CanStore` reserves distinct slots with room for the whole count; `StoreItem` then exchanges the
item in hand for stacks in these slots.
-/
namespace LegionServer.Source.Guilds
open Library List

variable {G P D : Type*} {w : BankWorld G P} {inv : Inventory P D} {maxStack : Nat → Nat}
  {item : Item} {vec : List ItemPosCount} {pos : ItemPosCount} {total container : Nat}
  {seen seen' : Nat → Option Item}

/-- A reservation that the contents `seen` of its slot leave room for. -/
structure Fits (maxStack : Nat → Nat) (seen : Nat → Option Item) (item : Item)
    (pos : ItemPosCount) : Prop where
  slot : pos.1 < GUILD_BANK_MAX_SLOTS
  positive : 1 ≤ pos.2
  small : pos.2 ≤ maxStack item.entry
  room : ∀ dest, seen pos.1 = some dest →
    dest.entry = item.entry ∧ dest.count + pos.2 ≤ maxStack item.entry

/-- A vector of reservations for `total` items. -/
structure Reserved (maxStack : Nat → Nat) (seen : Nat → Option Item) (item : Item)
    (vec : List ItemPosCount) (total : Nat) : Prop where
  slots : (vec.map Prod.fst).Nodup
  fits : ∀ pos ∈ vec, Fits maxStack seen item pos
  sum : (vec.map Prod.snd).sum = total

def Roomier (seen seen' : Nat → Option Item) : Prop :=
  ∀ slotId dest', seen' slotId = some dest' →
    ∃ dest, seen slotId = some dest ∧ dest'.entry = dest.entry ∧ dest'.count ≤ dest.count

theorem Reserved.roomier (h : Reserved maxStack seen item vec total)
    (hroom : Roomier seen seen') : Reserved maxStack seen' item vec total := by
  refine ⟨h.slots, fun pos hpos => ?_, h.sum⟩
  have hfits := h.fits pos hpos
  refine ⟨hfits.slot, hfits.positive, hfits.small, fun dest' hdest' => ?_⟩
  obtain ⟨dest, hdest, hentry, hcount⟩ := hroom pos.1 dest' hdest'
  obtain ⟨hsame, hle⟩ := hfits.room dest hdest
  exact ⟨hentry.trans hsame, by omega⟩

theorem bankStoreOne_frame (maxStack : Nat → Nat) (container : Nat) (item : Item)
    (pos : ItemPosCount) (w : BankWorld G P) (clone : Bool) :
    (bankStoreOne maxStack container item pos clone w).purchasedTabs = w.purchasedTabs ∧
      (bankStoreOne maxStack container item pos clone w).player = w.player ∧
      ∀ tabId slotId, ¬ (tabId = container ∧ slotId = pos.1) →
        (bankStoreOne maxStack container item pos clone w).getItem tabId slotId =
          w.getItem tabId slotId := by
  have hset : ∀ content, (w.setItem container pos.1 content).purchasedTabs = w.purchasedTabs ∧
      (w.setItem container pos.1 content).player = w.player ∧
      ∀ tabId slotId, ¬ (tabId = container ∧ slotId = pos.1) →
        (w.setItem container pos.1 content).getItem tabId slotId = w.getItem tabId slotId :=
    fun content => ⟨setItem_purchasedTabs content, setItem_player content,
      fun _ _ hne => setItem_other content hne⟩
  unfold bankStoreOne
  cases w.getItem container pos.1 with
  | some dest => exact hset _
  | none =>
    cases clone with
    | true => exact hset _
    | false => exact hset _

theorem bankStoreOne_exchange (left : Nat) (clone : Bool) (hclone : clone = true ↔ 1 ≤ left)
    (hcontainer : container < w.purchasedTabs) (hfits : Fits maxStack (w.getItem container) item pos)
    (h : Stocked maxStack w.nextGuid ({ item with count := pos.2 + left } :: w.allItems inv)) :
    let w' := bankStoreOne maxStack container item pos clone w
    Exchange maxStack w.nextGuid ({ item with count := pos.2 + left } :: w.allItems inv)
      w'.nextGuid ((if clone then [{ item with count := left }] else []) ++ w'.allItems inv) := by
  have hslot : (container, pos.1) ∈ bankSlots w.purchasedTabs :=
    mem_bankSlots.mpr ⟨hcontainer, hfits.slot⟩
  unfold bankStoreOne
  cases hdest : w.getItem container pos.1 with
  | some dest =>
    obtain ⟨hentry, hroom⟩ := hfits.room dest hdest
    have htake := (allItems_take inv hdest).cons { item with count := pos.2 + left }
    have hput := allItems_replace inv { dest with count := dest.count + pos.2 } hslot
    have hstocked := h.perm htake
    dsimp only
    cases clone with
    | true =>
      have hleft := hclone.mp rfl
      have hbase := exchange_merge (x := { item with count := pos.2 + left }) hentry hroom rfl
        hleft (Stocked.left (l := [_, _]) _ hstocked)
      rw [if_pos rfl, setItem_nextGuid]
      exact ((hbase.frame hstocked).perm_left htake.symm).perm_right
        (hput.symm.cons ({ item with count := left } : Item))
    | false =>
      have hzero : left = 0 := by
        have := mt hclone.mpr Bool.false_ne_true
        omega
      subst hzero
      have hbase := exchange_absorb (x := { item with count := pos.2 + 0 }) hentry hroom
        (Stocked.left (l := [_, _]) _ hstocked)
      rw [if_neg Bool.false_ne_true, nil_append, setItem_nextGuid]
      exact ((hbase.frame hstocked).perm_left htake.symm).perm_right hput.symm
  | none =>
    dsimp only
    cases clone with
    | true =>
      have hleft := hclone.mp rfl
      have hput := allItems_put inv (cloneItem maxStack item pos.2 w.nextGuid) hslot hdest
      have hbase := exchange_split (x := { item with count := pos.2 + left }) pos.2 left rfl
        hfits.positive hleft (Stocked.left (l := [_]) _ h)
      have hclone' : cloneItem maxStack item pos.2 w.nextGuid =
          { item with guid := w.nextGuid, count := pos.2 } := by
        simp only [cloneItem, Nat.min_eq_left hfits.small]
      rw [hclone'] at hput ⊢
      exact (hbase.frame h).perm_right (hput.symm.cons ({ item with count := left } : Item))
    | false =>
      have hzero : left = 0 := by
        have := mt hclone.mpr Bool.false_ne_true
        omega
      subst hzero
      rw [if_neg Bool.false_ne_true, if_neg Bool.false_ne_true, nil_append, setItem_nextGuid]
      exact (Exchange.refl h).perm_right
        (allItems_put inv { item with count := pos.2 } hslot hdest).symm

theorem bankStoreItem_frame (maxStack : Nat → Nat) (container : Nat) (item : Item) (vec : List ItemPosCount) :
    ∀ w : BankWorld G P, (bankStoreItem maxStack container item vec w).purchasedTabs =
        w.purchasedTabs ∧
      (bankStoreItem maxStack container item vec w).player = w.player ∧
      ∀ tabId slotId, ¬ (tabId = container ∧ slotId ∈ vec.map Prod.fst) →
        (bankStoreItem maxStack container item vec w).getItem tabId slotId =
          w.getItem tabId slotId := by
  induction vec with
  | nil =>
    intro w
    exact ⟨rfl, rfl, fun _ _ _ => rfl⟩
  | cons pos rest ih =>
    intro w
    obtain ⟨htabs, hplayer, hget⟩ := ih (bankStoreOne maxStack container item pos (!rest.isEmpty) w)
    obtain ⟨htabs1, hplayer1, hget1⟩ := bankStoreOne_frame maxStack container item pos w (!rest.isEmpty)
    refine ⟨htabs.trans htabs1, hplayer.trans hplayer1, ?_⟩
    intro tabId slotId hne
    simp only [map_cons, mem_cons] at hne
    exact (hget tabId slotId fun h => hne ⟨h.1, .inr h.2⟩).trans
      (hget1 tabId slotId fun h => hne ⟨h.1, .inl h.2⟩)

/-- `StoreItem` exchanges the item in hand for stacks in the reserved slots. -/
theorem bankStoreItem_exchange (vec : List ItemPosCount) :
    ∀ (w : BankWorld G P) (total : Nat), container < w.purchasedTabs → vec ≠ [] →
      Reserved maxStack (w.getItem container) item vec total →
      Stocked maxStack w.nextGuid ({ item with count := total } :: w.allItems inv) →
      let w' := bankStoreItem maxStack container item vec w
      Exchange maxStack w.nextGuid ({ item with count := total } :: w.allItems inv) w'.nextGuid
        (w'.allItems inv) := by
  induction vec with
  | nil =>
    intro w total _ hne
    exact absurd rfl hne
  | cons pos rest ih =>
    intro w total hcontainer _ hreserved hstocked
    have hsum := hreserved.sum
    have hslots := hreserved.slots
    rw [map_cons, nodup_cons] at hslots
    have hrest : (!rest.isEmpty) = true ↔ 1 ≤ (rest.map Prod.snd).sum := by
      cases rest with
      | nil => simp
      | cons next more =>
        have hpos := (hreserved.fits next (by simp)).positive
        simp only [isEmpty_cons, Bool.not_false, map_cons, sum_cons, true_iff]
        omega
    subst hsum
    have hone := bankStoreOne_exchange (rest.map Prod.snd).sum (!rest.isEmpty) hrest hcontainer
      (hreserved.fits pos (by simp)) hstocked
    obtain ⟨htabs, _, hget⟩ := bankStoreOne_frame maxStack container item pos w (!rest.isEmpty)
    cases hempty : rest with
    | nil =>
      subst hempty
      exact hone
    | cons next more =>
      rw [← hempty]
      have hmore : (!rest.isEmpty) = true := by rw [hempty]; rfl
      rw [hmore, if_pos rfl] at hone
      have hfits : Reserved maxStack
          ((bankStoreOne maxStack container item pos (!rest.isEmpty) w).getItem container) item rest
          (rest.map Prod.snd).sum := by
        refine ⟨hslots.2, fun pos' hpos' => ?_, rfl⟩
        have hold := hreserved.fits pos' (mem_cons_of_mem pos hpos')
        have hne : pos'.1 ≠ pos.1 := fun heq => hslots.1 (heq ▸ mem_map_of_mem hpos')
        refine ⟨hold.slot, hold.positive, hold.small, fun dest hdest => hold.room dest ?_⟩
        rw [← hdest]
        exact (hget container pos'.1 fun h => hne h.2).symm
      have htail := ih (bankStoreOne maxStack container item pos (!rest.isEmpty) w) _
        (by rw [htabs]; exact hcontainer) (by rw [hempty]; exact cons_ne_nil _ _) hfits
        (by rw [hmore]; exact hone.stocked hstocked)
      rw [hmore] at htail
      unfold bankStoreItem
      rw [hmore]
      exact hone.trans htail

/-- What `CanStore` sees in a slot: the item itself counts as gone. -/
def seenBy (w : BankWorld G P) (container : Nat) (item : Item) (slotId : Nat) : Option Item :=
  (w.getItem container slotId).filter fun dest => dest.guid != item.guid

structure Reserving (maxStack : Nat → Nat) (seen : Nat → Option Item) (item : Item)
    (state : List ItemPosCount × Nat) (total : Nat) : Prop where
  reserved : Reserved maxStack seen item state.1 (total - state.2)
  le : state.2 ≤ total

theorem reserving_nil : Reserving maxStack seen item ([], total) total :=
  ⟨⟨nodup_nil, fun _ h => absurd h not_mem_nil, (Nat.sub_self total).symm⟩, Nat.le_refl _⟩

variable {count slotId : Nat}

theorem Reserving.append {part : Nat} (h : Reserving maxStack seen item (vec, count) total)
    (hnew : slotId ∉ vec.map Prod.fst) (hfits : Fits maxStack seen item (slotId, part))
    (hpart : part ≤ count) :
    Reserving maxStack seen item (vec ++ [(slotId, part)], count - part) total := by
  have hle := h.le
  refine ⟨⟨?_, ?_, ?_⟩, by dsimp only; omega⟩
  · rw [map_append, nodup_append]
    refine ⟨h.reserved.slots, by simp, ?_⟩
    intro a ha b hb heq
    simp only [map_cons, map_nil, mem_singleton] at hb
    exact hnew (hb ▸ heq ▸ ha)
  · intro pos hpos
    rcases mem_append.mp hpos with hold | hlast
    · exact h.reserved.fits pos hold
    · rw [mem_singleton.mp hlast]
      exact hfits
  · have hsum := h.reserved.sum
    simp only [map_append, sum_append, map_cons, map_nil, sum_cons, sum_nil] at hsum ⊢
    omega

variable {state : List ItemPosCount × Nat}

theorem reserveSpace_keeps (hslot : slotId < GUILD_BANK_MAX_SLOTS)
    (hmax : 1 ≤ maxStack item.entry) (hcount : count ≠ 0)
    (h : Reserving maxStack seen item (vec, count) total)
    (hrun : reserveSpace maxStack slotId item (seen slotId) vec count = some state) :
    Reserving maxStack seen item state total := by
  have hstep : ∀ room, 1 ≤ room → room ≤ maxStack item.entry → (∀ dest, seen slotId = some dest →
        dest.entry = item.entry ∧ dest.count + room ≤ maxStack item.entry) →
      Reserving maxStack seen item (if vec.any (fun pos => pos.1 = slotId) then (vec, count)
        else (vec ++ [(slotId, min room count)], count - min room count)) total := by
    intro room hroom hsmall hdest
    split
    · exact h
    rename_i hnew
    apply h.append _ ⟨hslot, by dsimp only; omega, by dsimp only; omega, _⟩ (Nat.min_le_right _ _)
    · intro hmem
      obtain ⟨pos, hpos, heq⟩ := mem_map.mp hmem
      exact hnew (any_eq_true.mpr ⟨pos, hpos, decide_eq_true heq⟩)
    · intro dest hseen
      obtain ⟨hentry, hle⟩ := hdest dest hseen
      exact ⟨hentry, by dsimp only; omega⟩
  unfold reserveSpace at hrun
  cases hseen : seen slotId with
  | none =>
    rw [hseen] at hrun
    cases hrun
    exact hstep _ hmax (Nat.le_refl _) fun dest hdest => by rw [hseen] at hdest; cases hdest
  | some dest =>
    rw [hseen] at hrun
    dsimp only at hrun
    split at hrun
    · cases hrun
    rename_i hok
    simp only [ne_eq, not_or, not_not, Nat.not_le] at hok
    cases hrun
    apply hstep _ (by omega) (by omega)
    intro dest' hdest'
    rw [hseen] at hdest'
    cases hdest'
    exact ⟨hok.1, by omega⟩

theorem canStoreItemInTab_keeps (skipSlotId : Nat) (merge : Bool)
    (hmax : 1 ≤ maxStack item.entry) (slots : List Nat) :
    ∀ state : List ItemPosCount × Nat, (∀ slotId ∈ slots, slotId < GUILD_BANK_MAX_SLOTS) →
      Reserving maxStack (seenBy w container item) item state total →
      Reserving maxStack (seenBy w container item) item
        (canStoreItemInTab maxStack w container item skipSlotId merge slots state) total := by
  induction slots with
  | nil =>
    intro state _ h
    exact h
  | cons slotId rest ih =>
    intro state hslots h
    obtain ⟨vec, count⟩ := state
    have hrest := fun slotId' hmem => hslots slotId' (mem_cons_of_mem slotId hmem)
    unfold canStoreItemInTab
    split
    · exact h
    rename_i hcount
    split
    · exact ih _ hrest h
    dsimp only
    split
    · exact ih _ hrest h
    apply ih _ hrest
    cases hspace : reserveSpace maxStack slotId item (seenBy w container item slotId) vec count with
    | none =>
      unfold seenBy at hspace
      rw [hspace]
      exact h
    | some state =>
      have hkeep := reserveSpace_keeps (hslots slotId mem_cons_self) hmax hcount h hspace
      unfold seenBy at hspace
      rw [hspace]
      exact hkeep

theorem canStoreItemAnywhere_reserved (hmax : 1 ≤ maxStack item.entry)
    (h : Reserving maxStack (seenBy w container item) item state total)
    (hrun : canStoreItemAnywhere maxStack w container slotId item state = some vec) :
    Reserved maxStack (seenBy w container item) item vec total := by
  have hslots : ∀ slotId ∈ List.range GUILD_BANK_MAX_SLOTS, slotId < GUILD_BANK_MAX_SLOTS :=
    fun _ hmem => mem_range.mp hmem
  unfold canStoreItemAnywhere at hrun
  dsimp only at hrun
  have hmerged : Reserving maxStack (seenBy w container item) item
      (if 1 < maxStack item.entry then canStoreItemInTab maxStack w container item slotId true
        (List.range GUILD_BANK_MAX_SLOTS) state else state) total := by
    split
    · exact canStoreItemInTab_keeps slotId true hmax _ state hslots h
    · exact h
  generalize (if 1 < maxStack item.entry then canStoreItemInTab maxStack w container item slotId true
    (List.range GUILD_BANK_MAX_SLOTS) state else state) = merged at hrun hmerged
  split at hrun
  · rename_i hzero
    cases hrun
    have hdone := hmerged.reserved
    rw [hzero] at hdone
    exact hdone
  · have hfree := canStoreItemInTab_keeps slotId false hmax _ _ hslots hmerged
    split at hrun
    · rename_i hzero
      cases hrun
      have hdone := hfree.reserved
      rw [hzero] at hdone
      exact hdone
    · cases hrun

/-- Without a swap, `CanStore` reserves room for the whole stack. -/
theorem bankCanStore_reserved (hslot : slotId < GUILD_BANK_MAX_SLOTS ∨ slotId = NULL_SLOT)
    (hcount : 1 ≤ item.count) (hmax : item.count ≤ maxStack item.entry)
    (hrun : bankCanStore maxStack w container slotId item false = some vec) :
    container < w.purchasedTabs ∧ vec ≠ [] ∧
      Reserved maxStack (seenBy w container item) item vec item.count := by
  unfold bankCanStore at hrun
  split at hrun
  · cases hrun
  split at hrun
  · cases hrun
  rename_i htabs
  have hreserved : Reserved maxStack (seenBy w container item) item vec item.count := by
    split at hrun
    · rename_i hnull
      dsimp only at hrun
      rw [if_neg Bool.false_ne_true] at hrun
      cases hspace : reserveSpace maxStack slotId item (seenBy w container item slotId) []
          item.count with
      | none =>
        unfold seenBy at hspace
        rw [hspace] at hrun
        cases hrun
      | some state =>
        have hkeep := reserveSpace_keeps (hslot.resolve_right hnull) (by omega) (by omega)
          reserving_nil hspace
        unfold seenBy at hspace
        rw [hspace] at hrun
        dsimp only at hrun
        split at hrun
        · rename_i hzero
          cases hrun
          have hdone := hkeep.reserved
          rw [hzero] at hdone
          exact hdone
        · exact canStoreItemAnywhere_reserved (by omega) hkeep hrun
    · exact canStoreItemAnywhere_reserved (by omega) reserving_nil hrun
  refine ⟨Nat.lt_of_not_le htabs, ?_, hreserved⟩
  intro hempty
  have hsum := hreserved.sum
  rw [hempty] at hsum
  simp only [map_nil, sum_nil] at hsum
  omega

theorem bankCanStore_swap (hslot : slotId < GUILD_BANK_MAX_SLOTS)
    (hmax : item.count ≤ maxStack item.entry)
    (hrun : bankCanStore maxStack w container slotId item true = some vec) :
    container < w.purchasedTabs ∧ vec = [(slotId, item.count)] := by
  have hnull : slotId ≠ NULL_SLOT := by
    intro heq
    rw [heq] at hslot
    exact absurd hslot (by decide)
  unfold bankCanStore at hrun
  split at hrun
  · cases hrun
  split at hrun
  · cases hrun
  rename_i htabs
  refine ⟨Nat.lt_of_not_le htabs, ?_⟩
  simp only [if_true, reserveSpace, any_nil, Bool.false_eq_true, if_false,
    nil_append, Nat.min_eq_right hmax, Nat.sub_self, Option.some.injEq] at hrun
  exact hrun.symm

end LegionServer.Source.Guilds
