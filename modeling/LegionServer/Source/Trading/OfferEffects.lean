import LegionServer.Source.Trading.TradeHandler

/-!
# Offers and acceptance

A change of an offer withdraws the acceptance of both partners; whatever leaves an acceptance
leaves both offers as they were.
-/
namespace LegionServer.Source.Trading
open Source.Guilds Function Trade TradePlayer

structure Offer where
  items : TradeSlot → Option Nat
  money : UInt64
  spell : UInt32
  spellCastItem : Option Nat

def Trade.offers (t : Trade) (side : Side) : Offer where
  items := (t.data side).items
  money := (t.data side).money
  spell := (t.data side).spell
  spellCastItem := (t.data side).spellCastItem

namespace Trade

variable {t t' : Trade} {side x : Side} {f : TradeData → TradeData}

def Withdrawn (t : Trade) : Prop := ∀ x, (t.data x).accepted = false

/-- The offers are the same, and nobody accepts who did not before. -/
structure Keeps (t t' : Trade) : Prop where
  offers : t'.offers = t.offers
  accepted : ∀ {x}, (t'.data x).accepted = true → (t.data x).accepted = true

theorem Keeps.refl (t : Trade) : t.Keeps t := ⟨rfl, id⟩

@[simp] theorem data_modify_self : (t.modify side f).data side = f (t.data side) :=
  update_self ..

@[simp] theorem data_modify_other : (t.modify side f).data side.other = t.data side.other :=
  update_of_ne side.other_ne ..

theorem Keeps.modify (hitems : (f (t.data side)).items = (t.data side).items)
    (hmoney : (f (t.data side)).money = (t.data side).money)
    (hspell : (f (t.data side)).spell = (t.data side).spell)
    (hcast : (f (t.data side)).spellCastItem = (t.data side).spellCastItem)
    (haccepted : (f (t.data side)).accepted = true → (t.data side).accepted = true) :
    t.Keeps (t.modify side f) := by
  constructor
  · funext x
    rcases side.eq_or_other x with rfl | rfl
    · simp only [Trade.offers, data_modify_self, hitems, hmoney, hspell, hcast]
    · simp only [Trade.offers, data_modify_other]
  · intro x
    rcases side.eq_or_other x with rfl | rfl
    · rw [data_modify_self]
      exact haccepted
    · rw [data_modify_other]
      exact id

theorem keeps_refuse : t.Keeps (t.setAccepted side false) :=
  .modify rfl rfl rfl rfl fun h => by cases h

theorem keeps_updateClientStateIndex : t.Keeps (t.updateClientStateIndex side) :=
  .modify rfl rfl rfl rfl id

variable {state : Bool}

theorem offers_setAccepted : (t.setAccepted side state).offers = t.offers := by
  funext x
  rcases side.eq_or_other x with rfl | rfl
  · simp only [offers, setAccepted, data_modify_self]
  · simp only [offers, setAccepted, data_modify_other]

theorem Keeps.withdrawn (h : t.Keeps t') (hnone : t.Withdrawn) : t'.Withdrawn := by
  intro x
  by_contra hx
  have hold := h.accepted (Bool.eq_true_of_not_eq_false hx)
  rw [hnone x] at hold
  cases hold

theorem withdrawn_setAccepted :
    ((t.setAccepted side false).setAccepted side.other false).Withdrawn := by
  intro x
  rcases side.other.eq_or_other x with rfl | rfl
  · simp only [setAccepted, data_modify_self]
  rw [Side.other_other]
  have hself : ((t.setAccepted side false).setAccepted side.other false).data side =
      (t.setAccepted side false).data side := update_of_ne side.ne_other ..
  rw [hself]
  simp only [setAccepted, data_modify_self]

theorem withdrawn_changed : (t.changed side).Withdrawn := by
  have hindex : ∀ (t : Trade) (index : UInt32),
      t.Keeps (t.modify side fun data => { data with serverStateIndex := index }) :=
    fun t index => .modify rfl rfl rfl rfl id
  exact (hindex _ _).withdrawn withdrawn_setAccepted

variable {spellId : UInt32} {castItem : Option Nat}

theorem setSpell_cases :
    t.setSpell side spellId castItem = t ∨ (t.setSpell side spellId castItem).Withdrawn := by
  unfold setSpell
  split
  · exact .inl rfl
  · exact .inr withdrawn_changed

theorem Withdrawn.setSpell (h : t.Withdrawn) {spellId : UInt32} {castItem : Option Nat} :
    (t.setSpell side spellId castItem).Withdrawn := by
  have hcases : t.setSpell side spellId castItem = t ∨
      (t.setSpell side spellId castItem).Withdrawn := setSpell_cases
  rcases hcases with hsame | hnone
  · rw [hsame]
    exact h
  · exact hnone

variable {slot : TradeSlot} {update : Bool}

theorem setItem_cases {item : Option Nat} :
    (t.setItem side slot item update = t ∧ update = false) ∨
      (t.setItem side slot item update).Withdrawn := by
  unfold setItem
  split
  · rename_i hsame
    exact .inl ⟨rfl, hsame.2⟩
  · refine .inr (Withdrawn.setSpell ?_)
    split
    · exact withdrawn_changed.setSpell
    · exact withdrawn_changed

theorem items_setAccepted : ((t.setAccepted side state).data x).items = (t.data x).items :=
  congrArg Offer.items (congrFun offers_setAccepted x)

theorem items_modify (hf : ∀ data, (f data).items = data.items) :
    ((t.modify side f).data x).items = (t.data x).items := by
  rcases side.eq_or_other x with rfl | rfl
  · rw [data_modify_self, hf]
  · rw [data_modify_other]

theorem items_changed : ((t.changed side).data x).items = (t.data x).items := by
  have hindex : ∀ (t : Trade) (index : UInt32),
      ((t.modify side fun data => { data with serverStateIndex := index }).data x).items =
        (t.data x).items := fun t index => items_modify fun _ => rfl
  exact (hindex _ _).trans (items_setAccepted.trans items_setAccepted)

theorem items_setSpell : ((t.setSpell side spellId castItem).data x).items = (t.data x).items := by
  unfold setSpell
  split
  · rfl
  · exact items_changed.trans (items_modify fun _ => rfl)

theorem items_setMoney {player : TradePlayer} {money : UInt64} :
    ((t.setMoney side player money).data x).items = (t.data x).items := by
  unfold setMoney
  split
  · rfl
  · split
    · rfl
    · exact items_changed.trans (items_modify fun _ => rfl)

theorem items_updateClientStateIndex :
    ((t.updateClientStateIndex side).data x).items = (t.data x).items :=
  items_modify fun _ => rfl

theorem items_setItem {item : Option Nat} :
    ((t.setItem side slot item update).data x).items =
      if x = side then Function.update (t.data x).items slot item else (t.data x).items := by
  have hchanged : (((t.modify side fun data =>
      { data with items := Function.update data.items slot item }).changed side).data x).items =
      if x = side then Function.update (t.data x).items slot item else (t.data x).items := by
    rw [items_changed]
    rcases side.eq_or_other x with rfl | rfl
    · rw [if_pos rfl, data_modify_self]
    · rw [if_neg side.other_ne, data_modify_other]
  unfold setItem
  split
  · rename_i hsame
    split
    · rename_i hside
      rw [hside, ← hsame.1, update_eq_self]
    · rfl
  · rw [items_setSpell]
    split
    · rw [items_setSpell]
      exact hchanged
    · exact hchanged

theorem setMoney_cases {player : TradePlayer} {money : UInt64} :
    t.setMoney side player money = t ∨ (t.setMoney side player money).Withdrawn := by
  unfold setMoney
  split
  · exact .inl rfl
  · split
    · exact .inl rfl
    · exact .inr withdrawn_changed

end Trade

namespace TradeWorld

variable {storage : Storage} {w : TradeWorld} {side x : Side} {t t' : Trade} {i : Fin 6}
  {surroundings : Surroundings} {stateIndex : UInt32} {state inTrade : Bool}

section
variable (h : t'.offers = t.offers)
include h

theorem tradedItem_congr : w.tradedItem x t' = w.tradedItem x t := by
  funext i
  have hitems : (t'.data x).items = (t.data x).items := congrArg Offer.items (congrFun h x)
  unfold tradedItem TradeData.getItem
  rw [hitems]

theorem itemsTradeable_congr : w.itemsTradeable side t' = w.itemsTradeable side t := by
  unfold itemsTradeable
  rw [tradedItem_congr h, tradedItem_congr h]

theorem setInTrade_congr : w.setInTrade t' inTrade = w.setInTrade t inTrade := by
  have hguids : ∀ x, w.tradedGuids x t' = w.tradedGuids x t := by
    intro x
    unfold tradedGuids
    rw [tradedItem_congr h]
  simp only [setInTrade, hguids]

theorem canStoreTraded_congr :
    w.canStoreTraded storage side t' = w.canStoreTraded storage side t := by
  unfold canStoreTraded
  rw [tradedItem_congr h]

theorem executeTrade_congr : w.executeTrade storage side t' = w.executeTrade storage side t := by
  have hmoney : ∀ x, (t'.data x).money = (t.data x).money :=
    fun x => congrArg Offer.money (congrFun h x)
  have hremoved : w.removeTraded t' = w.removeTraded t := by
    unfold removeTraded
    simp only [tradedItem_congr h]
  unfold executeTrade updateMoney
  simp only [hmoney, tradedItem_congr h, hremoved]

end

structure Completing (storage : Storage) (w : TradeWorld) (side : Side) (stateIndex : UInt32)
    (t : Trade) : Prop where
  index : (t.data side.other).serverStateIndex = stateIndex
  accepted : (t.data side.other).accepted = true
  owns : ∀ x, (w.players x).hasEnoughMoney (t.data x).money = true
  capped : ∀ x, (w.players x).money ≤ MAX_MONEY_AMOUNT - (t.data x.other).money
  tradeable : w.itemsTradeable side t = true
  stores : ∀ x, (w.setInTrade t true).canStoreTraded storage x t = .ok

def unmarked (w : TradeWorld) (t : Trade) : TradeWorld :=
  (w.setInTrade t true).setInTrade t false

theorem of_side {P : Side → Prop} (hself : P side) (hother : P side.other) (x : Side) : P x := by
  rcases side.eq_or_other x with rfl | rfl
  · exact hself
  · exact hother

theorem keeps_process : t.Keeps (setInAcceptProcess (setInAcceptProcess t true) false) :=
  ⟨rfl, id⟩

/-- What an accept can do: it is refused for its index, it ends with the offers as they are or
with nobody accepting, or it completes the trade. -/
theorem handleAcceptTrade_cases (ht : w.trade = some t) :
    (w.handleAcceptTrade storage side surroundings stateIndex =
        { w with trade := some ((t.setAccepted side true).setAccepted side false) }) ∨
      ((t.data side.other).serverStateIndex = stateIndex ∧ ∃ w' t',
        w.handleAcceptTrade storage side surroundings stateIndex = { w' with trade := some t' } ∧
        (w' = w ∨ w' = w.unmarked t) ∧
        ((t.setAccepted side true).Keeps t' ∨ t'.Withdrawn) ∧
        ∀ x, (t'.data x).items = (t.data x).items) ∨
      (Completing storage w side stateIndex t ∧
        w.handleAcceptTrade storage side surroundings stateIndex =
          (w.unmarked t).executeTrade storage side t) := by
  have hoffers : (t.setAccepted side true).offers = t.offers := offers_setAccepted
  have hmoney : ∀ x, ((t.setAccepted side true).data x).money = (t.data x).money :=
    fun x => congrArg Offer.money (congrFun hoffers x)
  have hother : (t.setAccepted side true).data side.other = t.data side.other :=
    data_modify_other
  unfold handleAcceptTrade
  rw [ht]
  dsimp only
  rw [hother, hmoney, itemsTradeable_congr hoffers]
  split
  · exact .inl rfl
  rename_i hindex
  rw [not_not] at hindex
  have hkept : ∀ t', (t.setAccepted side true).Keeps t' →
      (t.data side.other).serverStateIndex = stateIndex ∧ ∃ w' t'',
        { w with trade := some t' } = { w' with trade := some t'' } ∧
        (w' = w ∨ w' = w.unmarked t) ∧
        ((t.setAccepted side true).Keeps t'' ∨ t''.Withdrawn) ∧
        ∀ x, (t''.data x).items = (t.data x).items :=
    fun t' h => ⟨hindex, w, t', rfl, .inl rfl, .inl h,
      fun x => congrArg Offer.items (congrFun (h.offers.trans hoffers) x)⟩
  split
  · exact .inl rfl
  split
  · exact .inl rfl
  rename_i hmine
  split
  · exact .inr (.inl (hkept _ keeps_refuse))
  rename_i hhis
  split
  · exact .inl rfl
  rename_i hcap
  split
  · exact .inr (.inl (hkept _ keeps_refuse))
  rename_i hhiscap
  split
  · exact .inr (.inl (hkept _ (.refl _)))
  rename_i htradeable
  split
  · rename_i haccepted
    have hprocess : (setInAcceptProcess (t.setAccepted side true) true).offers = t.offers :=
      hoffers
    unfold acceptTrade
    dsimp only
    rw [setInTrade_congr hprocess]
    have hunmarked : (w.setInTrade t true).setInTrade
        (setInAcceptProcess (t.setAccepted side true) true) false = w.unmarked t :=
      setInTrade_congr hprocess
    rw [hunmarked, canStoreTraded_congr hprocess, canStoreTraded_congr hprocess]
    split
    · refine .inr (.inl ⟨hindex, _, _, rfl, .inr rfl, ?_,
        fun x => items_setSpell.trans items_setAccepted⟩)
      rcases setSpell_cases with hsame | hnone
      · rw [hsame]
        exact .inl keeps_process
      · exact .inr hnone
    split
    · refine .inr (.inl ⟨hindex, _, _, rfl, .inr rfl, ?_,
        fun x => items_setSpell.trans items_setAccepted⟩)
      rcases setSpell_cases with hsame | hnone
      · rw [hsame]
        exact .inl keeps_process
      · exact .inr hnone
    split
    · exact .inr (.inl ⟨hindex, _, _, rfl, .inr rfl, .inr withdrawn_setAccepted,
        fun x => items_setAccepted.trans (items_setAccepted.trans items_setAccepted)⟩)
    rename_i hstores
    rw [not_or, not_not, not_not] at hstores
    refine .inr (.inr ⟨⟨hindex, haccepted, ?_, ?_, ?_, ?_⟩, executeTrade_congr hprocess⟩)
    · exact of_side (by simpa using hmine) (by simpa using hhis)
    · exact of_side (UInt64.not_lt.mp hcap) (by simpa using UInt64.not_lt.mp hhiscap)
    · simpa using htradeable
    · exact of_side hstores.1 hstores.2
  · exact .inr (.inl (hkept _ (.refl _)))

end TradeWorld

/-!
# Items of a trade

What `CanStoreItems` has checked of an item, and the items of a window while they are marked.
-/

namespace TradePlayer

variable {storage : Storage} {player : TradePlayer} {items : List (Option Item)} {item : Item}
  {guids : List Nat} {inTrade : Bool} {guid : Nat}

variable {space : storage.Space}

theorem check_some :
    canStoreItems.check storage player space (some item :: items) =
      if item.lootGenerated then .lootGone
      else if item.isBindedNotWith player.guid then .notOwner
      else
        match storage.place player space item with
        | .error result => result.1
        | .ok space => canStoreItems.check storage player space items := rfl

theorem check_ok (h : canStoreItems.check storage player space items = .ok)
    (hitem : some item ∈ items) :
    item.lootGenerated = false ∧ item.isBindedNotWith player.guid = false := by
  induction items generalizing space with
  | nil => cases hitem
  | cons first items ih =>
    cases first with
    | none =>
      have hrest : some item ∈ items := by simpa using hitem
      exact ih (by simpa [canStoreItems.check] using h) hrest
    | some other =>
      rw [check_some] at h
      split at h
      · cases h
      rename_i hloot
      split at h
      · cases h
      rename_i hbound
      split at h
      · rename_i result _
        exact absurd h result.2
      · rcases List.mem_cons.mp hitem with hsame | hrest
        · cases hsame
          exact ⟨by simpa using hloot, by simpa using hbound⟩
        · exact ih h hrest

/-- `CanStoreItems` does not let in an item that is bound to somebody else. -/
theorem canStoreItems_ok (h : player.canStoreItems storage items = .ok)
    (hitem : some item ∈ items) :
    item.lootGenerated = false ∧ item.isBindedNotWith player.guid = false :=
  check_ok h hitem

def marked (guids : List Nat) (inTrade : Bool) (item : Item) : Item :=
  if item.guid ∈ guids then { item with inTrade := inTrade } else item

@[simp] theorem guid_marked : (marked guids inTrade item).guid = item.guid := by
  unfold marked
  split <;> rfl

@[simp] theorem isBindedNotWith_marked :
    (marked guids inTrade item).isBindedNotWith guid = item.isBindedNotWith guid := by
  unfold marked
  split <;> rfl

theorem getItemByGuid_setInTrade :
    (player.setInTrade guids inTrade).getItemByGuid guid =
      (player.getItemByGuid guid).map (marked guids inTrade) := by
  unfold getItemByGuid setInTrade
  rw [List.find?_map]
  have hguid : ((fun item : Item => decide (item.guid = guid)) ∘ fun item =>
      if item.guid ∈ guids then { item with inTrade := inTrade } else item) =
      fun item => decide (item.guid = guid) := by
    funext item
    exact congrArg (fun other => decide (other = guid)) guid_marked
  rw [hguid]
  rfl

end TradePlayer

namespace TradeWorld

variable {storage : Storage} {w : TradeWorld} {side x : Side} {t : Trade} {i : Fin 6}
  {item : Item} {inTrade : Bool} {stateIndex : UInt32}

theorem tradedItem_setInTrade :
    (w.setInTrade t inTrade).tradedItem x t i =
      (w.tradedItem x t i).map (TradePlayer.marked (w.tradedGuids x t) inTrade) := by
  unfold tradedItem TradeData.getItem
  cases (t.data x).items (tradedSlot i) with
  | none => rfl
  | some guid => exact getItemByGuid_setInTrade

/-- An item that is handed over may be traded, and it is not bound to anybody but the recipient:
for the items of the partner only `CanStoreItems` looks at that. -/
theorem Completing.transferable (h : Completing storage w side stateIndex t)
    (hitem : w.tradedItem x t i = some item) :
    item.canBeTraded false true = true ∧ item.isBindedNotWith (w.players x.other).guid = false := by
  have htradeable := List.all_eq_true.mp h.tradeable i (List.mem_finRange i)
  rw [Bool.and_eq_true] at htradeable
  constructor
  · rcases side.eq_or_other x with rfl | rfl
    · have hmine := htradeable.1
      rw [hitem, Option.all_some, Bool.and_eq_true] at hmine
      exact hmine.1
    · have hhis := htradeable.2
      rwa [hitem] at hhis
  · have hstores := h.stores x.other
    unfold canStoreTraded at hstores
    rw [Side.other_other] at hstores
    have hmarked : some (marked (w.tradedGuids x t) true item) ∈
        (List.finRange 6).map ((w.setInTrade t true).tradedItem x t) :=
      List.mem_map.mpr ⟨i, List.mem_finRange i, by rw [tradedItem_setInTrade, hitem]; rfl⟩
    have hbound := (canStoreItems_ok hstores hmarked).2
    rwa [isBindedNotWith_marked] at hbound

end TradeWorld

end LegionServer.Source.Trading
