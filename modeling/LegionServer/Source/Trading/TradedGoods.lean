import LegionServer.Source.Trading.MoveEffects

/-!
# Runs of a trade

The requests of both partners in any order, with every change of their inventories and their money
in between.
-/
namespace LegionServer.Source.Trading
open List Function Option Trade

inductive TradeRequest where
  | initiate (random : Nat → UInt32)
  | setItem (side : Side) (tradeSlot : UInt8) (pos : UInt16)
  | clearItem (side : Side) (tradeSlot : UInt8)
  | setGold (side : Side) (coinage : UInt64)
  | cast (side : Side) (spellId : UInt32) (castItem : Option Nat)
  | accept (side : Side) (surroundings : TradeWorld.Surroundings) (stateIndex : UInt32)
  | unaccept (side : Side)
  | cancel
  /-- A new count, which is announced to the window. -/
  | setCount (side : Side) (guid count : Nat)
  /-- Any other change of the items: they move, become bound or are gone, where `DestroyItem` leaves
  the guid in its slot. -/
  | inventory (side : Side) (items : List Item)
  | spend (side : Side) (left : UInt64)

namespace TradeRequest

def run (storage : Storage) (w : TradeWorld) : TradeRequest → TradeWorld
  | initiate random => w.initiateTrade random
  | setItem side tradeSlot pos => w.handleSetTradeItem side tradeSlot pos
  | clearItem side tradeSlot => w.handleClearTradeItem side tradeSlot
  | setGold side coinage => w.handleSetTradeGold side coinage
  | cast side spellId castItem => w.castOnTradeItem side spellId castItem
  | accept side surroundings stateIndex =>
    w.handleAcceptTrade storage side surroundings stateIndex
  | unaccept side => w.handleUnacceptTrade side
  | cancel => w.tradeCancel
  | setCount side guid count => w.setCount side guid count
  | inventory side items => w.setPlayer side { w.players side with items := items }
  | spend side left => w.setPlayer side { w.players side with money := left }

/-- The request announces a change of an item that lies in the window. -/
def Announces (w : TradeWorld) : TradeRequest → Prop
  | setCount side guid _ =>
    ∃ t slot, w.trade = some t ∧ (t.data side).getTradeSlotForItem guid = some slot
  | _ => False

/-- An acceptance that a request leaves in place: nothing was announced and it was not taken
back. -/
structure Spares (w : TradeWorld) (request : TradeRequest) (x : Side) : Prop where
  announces : ¬ request.Announces w
  unaccept : request ≠ .unaccept x

end TradeRequest

def Trade.DistinctOffers (t : Trade) : Prop :=
  ∀ x {i j g}, (t.data x).items i = some g → (t.data x).items j = some g → i = j

theorem Trade.DistinctOffers.congr {t t' : Trade} (h : t.DistinctOffers)
    (hitems : ∀ x, (t'.data x).items = (t.data x).items) : t'.DistinctOffers := by
  intro x i j g hi hj
  rw [hitems] at hi hj
  exact h x hi hj

theorem Trade.DistinctOffers.setItem {t : Trade} {side : Side} {slot : TradeSlot}
    {item : Option Nat} {update : Bool} (h : t.DistinctOffers)
    (hfree : ∀ {i g}, item = some g → (t.data side).items i = some g → i = slot) :
    (t.setItem side slot item update).DistinctOffers := by
  intro x i j g hi hj
  rw [items_setItem] at hi hj
  by_cases hx : x = side
  · subst hx
    rw [if_pos rfl] at hi hj
    by_cases hislot : i = slot
    · subst hislot
      rw [update_self] at hi
      by_contra hne
      rw [update_of_ne (Ne.symm hne)] at hj
      exact hne (hfree hi hj).symm
    · rw [update_of_ne hislot] at hi
      by_cases hjslot : j = slot
      · subst hjslot
        rw [update_self] at hj
        exact hfree hj hi
      · rw [update_of_ne hjslot] at hj
        exact h x hi hj
  · rw [if_neg hx] at hi hj
    exact h x hi hj

namespace TradeRequest

variable {storage : Storage} {w : TradeWorld} {request : TradeRequest} {x side : Side}
  {t t' : Trade}

/-- A request but an accept leaves an acceptance only with both offers as they are. -/
structure Edits (w : TradeWorld) (request : TradeRequest) (t t' : Trade) : Prop where
  accepted : ∀ x, (t'.data x).accepted = true →
    request.Spares w x ∧ t'.offers = t.offers ∧ (t.data x).accepted = true
  distinct : t.DistinctOffers → t'.DistinctOffers

theorem Edits.of_keeps (hspares : ∀ x, request.Spares w x) (h : t.Keeps t') :
    request.Edits w t t' :=
  ⟨fun x hx => ⟨hspares x, h.offers, h.accepted hx⟩,
    fun hdistinct => hdistinct.congr fun x => congrArg Offer.items (congrFun h.offers x)⟩

theorem Edits.same (hspares : ∀ x, request.Spares w x) (ht : w.trade = some t)
    (ht' : w.trade = some t') : request.Edits w t t' := by
  cases ht.symm.trans ht'
  exact .of_keeps hspares (.refl t)

theorem Edits.of_withdrawn (h : t'.Withdrawn) (hdistinct : t.DistinctOffers → t'.DistinctOffers) :
    request.Edits w t t' := by
  refine ⟨fun x hx => ?_, hdistinct⟩
  rw [h x] at hx
  cases hx

theorem Edits.trans {t₁ : Trade} (hspares : ∀ x, request.Spares w x) (hkeeps : t.Keeps t₁)
    (h : t' = t₁ ∨ t'.Withdrawn) (hdistinct : t₁.DistinctOffers → t'.DistinctOffers) :
    request.Edits w t t' := by
  rcases h with rfl | hnone
  · exact .of_keeps hspares hkeeps
  · exact .of_withdrawn hnone fun h => hdistinct ((Edits.of_keeps hspares hkeeps).distinct h)

theorem not_hasItem {data : TradeData} {guid : Nat} (h : ¬ data.hasItem guid = true)
    (i : TradeSlot) : data.items i ≠ some guid := by
  intro hi
  refine h (any_eq_true.mpr ⟨i, mem_finRange i, ?_⟩)
  exact decide_eq_true hi

theorem data_of_none (ht : w.trade = none) (ht' : (request.run storage w).trade = some t') :
    t'.data x = {} := by
  cases request with
  | initiate random =>
    simp only [run, TradeWorld.initiateTrade, ht, Option.some.injEq] at ht'
    rw [← ht']
  | _ =>
    simp [run, TradeWorld.handleSetTradeItem, TradeWorld.handleClearTradeItem,
      TradeWorld.handleSetTradeGold, TradeWorld.castOnTradeItem, TradeWorld.handleAcceptTrade,
      TradeWorld.handleUnacceptTrade, TradeWorld.tradeCancel, TradeWorld.setCount,
      TradeWorld.setPlayer, ht] at ht'

theorem edits_run (haccept : ∀ side surroundings stateIndex,
      request ≠ .accept side surroundings stateIndex) (ht : w.trade = some t)
    (ht' : (request.run storage w).trade = some t') : request.Edits w t t' := by
  have hspares (hannounces : ¬request.Announces w) (hunaccept : ∀ x, request ≠ .unaccept x) (x) :
      request.Spares w x := ⟨hannounces, hunaccept x⟩
  cases request with
  | initiate random =>
    simp only [run, TradeWorld.initiateTrade, ht] at ht'
    exact .same (hspares id (by simp)) ht (ht.trans ht')
  | setItem side tradeSlot pos =>
    have hspares := hspares id (by simp)
    simp only [run, TradeWorld.handleSetTradeItem, ht] at ht'
    split at ht'
    · split at ht'
      · exact .same hspares ht ht'
      split at ht'
      · exact .same hspares ht ht'
      split at ht'
      · exact .same hspares ht ht'
      rename_i hnew
      split at ht'
      · cases ht'
        exact .of_keeps hspares keeps_updateClientStateIndex
      cases ht'
      refine .trans hspares keeps_updateClientStateIndex (setItem_cases.imp And.left id)
        fun h => h.setItem fun {i g} hg hi => ?_
      cases hg
      rw [items_updateClientStateIndex] at hi
      exact absurd hi (not_hasItem hnew i)
    · exact .same hspares ht ht'
  | clearItem side tradeSlot =>
    have hspares := hspares id (by simp)
    simp only [run, TradeWorld.handleClearTradeItem, ht] at ht'
    split at ht'
    · cases ht'
      exact .trans hspares keeps_updateClientStateIndex (setItem_cases.imp And.left id)
        fun h => h.setItem nofun
    · cases ht'
      exact .of_keeps hspares keeps_updateClientStateIndex
  | setGold side coinage =>
    simp only [run, TradeWorld.handleSetTradeGold, ht, map_some, Option.some.injEq] at ht'
    subst ht'
    exact .trans (hspares id (by simp)) keeps_updateClientStateIndex setMoney_cases
      fun h => h.congr fun _ => items_setMoney
  | cast side spellId castItem =>
    have hspares := hspares id (by simp)
    simp only [run, TradeWorld.castOnTradeItem, ht] at ht'
    split at ht'
    · exact .same hspares ht ht'
    · cases ht'
      exact .trans hspares (.refl t) setSpell_cases fun h => h.congr fun _ => items_setSpell
  | accept side surroundings stateIndex => exact absurd rfl (haccept side surroundings stateIndex)
  | unaccept side =>
    simp only [run, TradeWorld.handleUnacceptTrade, ht, map_some, Option.some.injEq] at ht'
    subst ht'
    refine ⟨fun x hx => ?_, fun h => h.congr fun _ => items_setAccepted⟩
    have hside : side ≠ x := by
      rintro rfl
      rw [setAccepted, data_modify_self] at hx
      cases hx
    exact ⟨⟨id, fun hsame => hside (TradeRequest.unaccept.inj hsame)⟩, offers_setAccepted,
      keeps_refuse.accepted hx⟩
  | cancel => cases ht'
  | setCount side guid count =>
    simp only [run, TradeWorld.setCount, ht, map_some, Option.some.injEq] at ht'
    split at ht'
    · rename_i hslot
      subst ht'
      refine .of_keeps (hspares ?_ (by simp)) (.refl t)
      rintro ⟨t', slot, ht', hslot'⟩
      cases ht.symm.trans ht'
      cases hslot.symm.trans hslot'
    · rename_i slot hslot
      subst ht'
      have hhere : (t.data side).items slot = some guid := by
        simpa using find?_some hslot
      refine .of_withdrawn (setItem_cases.resolve_left fun hsame => Bool.noConfusion hsame.2)
        fun h => h.setItem fun {i g} hg hi => ?_
      cases hg
      exact h side hi hhere
  | inventory side items => exact .same (hspares id (by simp)) ht ht'
  | spend side left => exact .same (hspares id (by simp)) ht ht'

theorem distinctOffers_run (h : ∀ t, w.trade = some t → t.DistinctOffers)
    (ht' : (request.run storage w).trade = some t') : t'.DistinctOffers := by
  cases ht : w.trade with
  | none =>
    intro x i j g hi
    rw [data_of_none ht ht'] at hi
    cases hi
  | some t =>
    by_cases haccept : ∃ side surroundings stateIndex,
        request = .accept side surroundings stateIndex
    · obtain ⟨side, surroundings, stateIndex, rfl⟩ := haccept
      rw [run] at ht'
      rcases TradeWorld.handleAcceptTrade_cases ht with
        hrefused | ⟨_, _, _, hgoes, _, _, hitems⟩ | ⟨_, hcompleted⟩
      · rw [hrefused] at ht'
        cases ht'
        exact (h t ht).congr fun _ => items_setAccepted.trans items_setAccepted
      · rw [hgoes] at ht'
        cases ht'
        exact (h t ht).congr hitems
      · rw [hcompleted] at ht'
        cases ht'
    · exact (edits_run (fun side surroundings stateIndex heq =>
        haccept ⟨side, surroundings, stateIndex, heq⟩) ht ht').distinct (h t ht)

end TradeRequest

/-!
# Goods on their way

An inventory is what stays and what is handed over; an item lies in one slot of the window only.
-/

namespace TradeWorld

variable {storage : Storage} {w : TradeWorld} {side x : Side} {t : Trade} {i : Fin 6} {item : Item}
  {entry : UInt32} {stateIndex : UInt32} {surroundings : Surroundings}

structure Wellformed (w : TradeWorld) : Prop where
  apart : Apart w []
  nodup : ∀ x, PosNodup (w.players x).items
  unmarked : ∀ x, ∀ item ∈ (w.players x).items, item.inTrade = false
  capped : ∀ x, (w.players x).money ≤ Guilds.MAX_MONEY_AMOUNT

def tradedItems (w : TradeWorld) (x : Side) (t : Trade) : List Item :=
  (List.finRange 6).filterMap (w.tradedItem x t)

theorem mem_of_tradedItem (h : w.tradedItem x t i = some item) :
    item ∈ (w.players x).items ∧ (t.data x).items (tradedSlot i) = some item.guid := by
  obtain ⟨guid, hslot, hitem⟩ := Option.bind_eq_some_iff.mp h
  have hguid : item.guid = guid := by simpa using find?_some hitem
  exact ⟨mem_of_find?_eq_some hitem, hguid ▸ hslot⟩

theorem mem_tradedItems : item ∈ w.tradedItems x t ↔ ∃ i, w.tradedItem x t i = some item := by
  simp [tradedItems]

theorem mem_tradedGuids {guid : Nat} :
    guid ∈ w.tradedGuids x t ↔ ∃ item ∈ w.tradedItems x t, item.guid = guid := by
  simp only [tradedGuids, tradedItems, mem_filterMap, mem_finRange, true_and, map_eq_some_iff]
  constructor
  · rintro ⟨i, item, hitem, hguid⟩
    exact ⟨item, ⟨i, hitem⟩, hguid⟩
  · rintro ⟨item, ⟨i, hitem⟩, hguid⟩
    exact ⟨i, item, hitem, hguid⟩

theorem tradedItems_nodup (h : t.DistinctOffers) : (w.tradedItems x t).Nodup := by
  refine List.Nodup.filterMap (fun i j item hi hj => ?_) (nodup_finRange 6)
  have hslot := (mem_of_tradedItem hi).2
  have hslot' := (mem_of_tradedItem hj).2
  exact Fin.castSucc_injective 6 (h x hslot hslot')

theorem Wellformed.mem_tradedItems_iff (h : w.Wellformed) (hitem : item ∈ (w.players x).items) :
    item ∈ w.tradedItems x t ↔ item.guid ∈ w.tradedGuids x t := by
  rw [mem_tradedGuids]
  constructor
  · exact fun hmem => ⟨item, hmem, rfl⟩
  · rintro ⟨other, hother, hguid⟩
    obtain ⟨i, hi⟩ := mem_tradedItems.mp hother
    have hsame : other = item :=
      inj_on_of_nodup_map (h.apart.inside x) (mem_of_tradedItem hi).1 hitem hguid
    exact hsame ▸ hother

def kept (w : TradeWorld) (x : Side) (t : Trade) : List Item :=
  (w.players x).items.filter (·.guid ∉ w.tradedGuids x t)

theorem Wellformed.items_perm (h : w.Wellformed) (hdistinct : t.DistinctOffers) :
    (w.players x).items.Perm (w.kept x t ++ w.tradedItems x t) := by
  have hitems : (w.players x).items.Nodup := (h.apart.inside x).of_map
  have hsplit := filter_append_perm (fun item : Item => decide (item.guid ∉ w.tradedGuids x t))
    (w.players x).items
  refine hsplit.symm.trans (List.Perm.append_left _ ?_)
  refine (perm_ext_iff_of_nodup (hitems.filter _) (tradedItems_nodup hdistinct)).mpr ?_
  intro item
  rw [mem_filter]
  constructor
  · rintro ⟨hmem, htraded⟩
    exact (h.mem_tradedItems_iff hmem).mpr (by simpa using htraded)
  · intro htraded
    obtain ⟨i, hi⟩ := mem_tradedItems.mp htraded
    have hmem := (mem_of_tradedItem hi).1
    exact ⟨hmem, by simpa using (h.mem_tradedItems_iff hmem).mp htraded⟩

theorem foldl_removed (l : List (Fin 6)) (player : TradePlayer) :
    l.foldl (fun player i =>
        match w.tradedItem x t i with
        | none => player
        | some item => player.moveItemFromInventory item.pos) player =
      { player with items := player.items.filter fun other =>
          (l.filterMap (w.tradedItem x t)).all fun item => other.pos ≠ item.pos } := by
  induction l generalizing player with
  | nil => simp
  | cons i l ih =>
    rw [foldl_cons]
    cases hitem : w.tradedItem x t i with
    | none =>
      rw [filterMap_cons_none hitem]
      exact ih player
    | some item =>
      rw [filterMap_cons_some hitem]
      refine (ih _).trans ?_
      simp only [TradePlayer.moveItemFromInventory, List.filter_filter, List.all_cons]
      congr 2
      funext other
      exact Bool.and_comm ..

theorem Wellformed.players_removeTraded (h : w.Wellformed) :
    (w.removeTraded t).players x = { w.players x with items := w.kept x t } := by
  refine (foldl_removed _ _).trans ?_
  have hfilter : (w.players x).items.filter (fun other =>
      (w.tradedItems x t).all fun item => other.pos ≠ item.pos) = w.kept x t := by
    refine filter_congr fun other hother => ?_
    rw [Bool.eq_iff_iff, List.all_eq_true]
    simp only [decide_eq_true_eq]
    rw [← h.mem_tradedItems_iff hother]
    constructor
    · intro hpos htraded
      exact hpos other htraded rfl
    · rintro hkept item hitem hpos
      obtain ⟨i, hi⟩ := mem_tradedItems.mp hitem
      have hsame : other = item :=
        inj_on_of_nodup_map (h.nodup x) hother (mem_of_tradedItem hi).1 hpos
      exact hkept (hsame ▸ hitem)
  exact congrArg (fun items => { w.players x with items := items }) hfilter

theorem tradedGuids_setInTrade {inTrade : Bool} :
    (w.setInTrade t inTrade).tradedGuids x t = w.tradedGuids x t := by
  refine List.filterMap_congr fun i _ => ?_
  rw [tradedItem_setInTrade, Option.map_map]
  exact congrFun (congrArg Option.map (funext fun _ => TradePlayer.guid_marked)) _

theorem unmark_eq (h : item.inTrade = false) : item.unmark = item := by
  cases item
  cases h
  rfl

variable {guids : List Nat}

theorem unmark_marked (h : item.inTrade = false) :
    (TradePlayer.marked guids true item).unmark = item := by
  refine Eq.trans ?_ (unmark_eq h)
  unfold TradePlayer.marked
  split <;> rfl

theorem marked_marked (h : item.inTrade = false) :
    TradePlayer.marked guids false (TradePlayer.marked guids true item) = item := by
  by_cases hmem : item.guid ∈ guids
  · have hset : TradePlayer.marked guids true item = { item with inTrade := true } := if_pos hmem
    rw [hset]
    exact (if_pos hmem).trans (unmark_eq h)
  · have hset : TradePlayer.marked guids true item = item := if_neg hmem
    rw [hset]
    exact if_neg hmem

theorem Wellformed.unmarked_eq (h : w.Wellformed) : w.unmarked t = w := by
  have hplayers : (w.unmarked t).players = w.players := by
    funext x
    have hitems : ((w.players x).items.map (TradePlayer.marked (w.tradedGuids x t) true)).map
        (TradePlayer.marked ((w.setInTrade t true).tradedGuids x t) false) =
        (w.players x).items := by
      rw [tradedGuids_setInTrade, List.map_map]
      refine (List.map_congr_left fun item hitem => ?_).trans (List.map_id _)
      exact marked_marked (h.unmarked x item hitem)
    exact congrArg (fun items => { w.players x with items := items }) hitems
  exact congrArg (fun players => { w with players := players }) hplayers

/-- What `CanStoreItems` sees of an inventory is what stays in it. -/
theorem Wellformed.withoutTraded_marked (h : w.Wellformed) :
    ((w.setInTrade t true).players x).withoutTraded = (w.removeTraded t).players x := by
  rw [h.players_removeTraded]
  have hitems : ((w.players x).items.map (TradePlayer.marked (w.tradedGuids x t) true)).filter
      (!·.inTrade) = w.kept x t := by
    rw [List.filter_map]
    have hkept : (w.players x).items.filter ((!·.inTrade) ∘
        TradePlayer.marked (w.tradedGuids x t) true) = w.kept x t := by
      refine filter_congr fun item hitem => ?_
      have hmark := h.unmarked x item hitem
      unfold TradePlayer.marked
      by_cases hguid : item.guid ∈ w.tradedGuids x t <;> simp [hguid, hmark]
    rw [hkept]
    refine (map_congr_left fun item hitem => ?_).trans (map_id _)
    have hguid := (mem_filter.mp hitem).2
    exact if_neg (of_decide_eq_true hguid)
  exact congrArg (fun items => { w.players x with items := items }) hitems

theorem Wellformed.unmark_tradedItem (h : w.Wellformed) :
    ((w.setInTrade t true).tradedItem x t i).map Item.unmark = w.tradedItem x t i := by
  rw [tradedItem_setInTrade, Option.map_map]
  cases hitem : w.tradedItem x t i with
  | none => rfl
  | some item =>
    exact congrArg some (unmark_marked (h.unmarked x item (mem_of_tradedItem hitem).1))

theorem flatMap_optionGuids (l : List (Fin 6)) :
    (l.flatMap fun i => optionGuids (w.tradedItem x t i)) =
      (l.filterMap (w.tradedItem x t)).map Item.guid := by
  induction l with
  | nil => rfl
  | cons i l ih =>
    rw [flatMap_cons, ih]
    cases hitem : w.tradedItem x t i with
    | none => rw [filterMap_cons_none hitem]; rfl
    | some item => rw [filterMap_cons_some hitem]; rfl

theorem sum_optionAmount (l : List (Fin 6)) :
    (l.map fun i => optionAmount entry (w.tradedItem x t i)).sum =
      goods entry (l.filterMap (w.tradedItem x t)) := by
  induction l with
  | nil => rfl
  | cons i l ih =>
    rw [map_cons, sum_cons, ih]
    cases hitem : w.tradedItem x t i with
    | none =>
      rw [filterMap_cons_none hitem]
      exact Nat.zero_add _
    | some item =>
      rw [filterMap_cons_some hitem]
      exact sum_cons.symm

theorem mem_pending {guid : Nat} :
    guid ∈ pending (w.tradedItem side t) (w.tradedItem side.other t) (List.finRange 6) ↔
      (∃ item ∈ w.tradedItems side t, item.guid = guid) ∨
        ∃ item ∈ w.tradedItems side.other t, item.guid = guid := by
  have hperm := List.flatMap_append_perm (List.finRange 6)
    (fun i => optionGuids (w.tradedItem side t i))
    (fun i => optionGuids (w.tradedItem side.other t i))
  rw [flatMap_optionGuids, flatMap_optionGuids] at hperm
  rw [pending, ← hperm.mem_iff, List.mem_append, List.mem_map, List.mem_map]
  rfl

theorem Wellformed.guids_traded_nodup (h : w.Wellformed) (hdistinct : t.DistinctOffers) :
    ((w.tradedItems x t).map Item.guid).Nodup := by
  have hall := ((h.items_perm hdistinct).map Item.guid).nodup_iff.mp (h.apart.inside x)
  rw [map_append] at hall
  exact (nodup_append.mp hall).2.1

theorem Wellformed.apart_removed (h : w.Wellformed) (hdistinct : t.DistinctOffers) :
    Apart (w.removeTraded t)
      (pending (w.tradedItem side t) (w.tradedItem side.other t) (List.finRange 6)) := by
  have hguids : ∀ x, (w.removeTraded t).guids x = (w.kept x t).map Item.guid := by
    intro x
    unfold TradeWorld.guids
    rw [h.players_removeTraded]
  have hsub : ∀ x, ∀ g ∈ (w.removeTraded t).guids x, g ∈ w.guids x := by
    intro x g hg
    rw [hguids] at hg
    exact (filter_sublist.map _).subset hg
  have htraded : ∀ x, ∀ item ∈ w.tradedItems x t, item.guid ∈ w.guids x := by
    intro x item hitem
    obtain ⟨i, hi⟩ := mem_tradedItems.mp hitem
    exact mem_map_of_mem (mem_of_tradedItem hi).1
  have hlimbo : ∀ g ∈ pending (w.tradedItem side t) (w.tradedItem side.other t)
      (finRange 6), ∃ y, g ∈ w.guids y ∧ ∃ item ∈ w.tradedItems y t, item.guid = g := by
    intro g hg
    rcases mem_pending.mp hg with ⟨item, hitem, rfl⟩ | ⟨item, hitem, rfl⟩
    · exact ⟨side, htraded _ item hitem, item, hitem, rfl⟩
    · exact ⟨side.other, htraded _ item hitem, item, hitem, rfl⟩
  refine ⟨fun x => ?_, fun x g hg hother => ?_, ?_, fun x g hg hmem => ?_, fun x g hg => ?_,
    fun g hg => ?_⟩
  · rw [hguids]
    exact (h.apart.inside x).sublist (filter_sublist.map _)
  · exact h.apart.across x g (hsub x g hg) (hsub _ g hother)
  · have hperm := flatMap_append_perm (finRange 6)
      (fun i => optionGuids (w.tradedItem side t i))
      (fun i => optionGuids (w.tradedItem side.other t i))
    rw [flatMap_optionGuids, flatMap_optionGuids] at hperm
    refine hperm.nodup_iff.mp (nodup_append.mpr
      ⟨h.guids_traded_nodup hdistinct, h.guids_traded_nodup hdistinct, ?_⟩)
    rintro g hg _ hg' rfl
    obtain ⟨item, hitem, rfl⟩ := mem_map.mp hg
    obtain ⟨other, hother, hsame⟩ := mem_map.mp hg'
    exact h.apart.across side _ (htraded side item hitem) (hsame ▸ htraded _ other hother)
  · obtain ⟨y, hy, item, hitem, rfl⟩ := hlimbo g hmem
    rcases x.eq_or_other y with rfl | rfl
    · rw [hguids] at hg
      obtain ⟨stays, hstays, hsame⟩ := mem_map.mp hg
      have hout := of_decide_eq_true (mem_filter.mp hstays).2
      exact hout (hsame ▸ mem_tradedGuids.mpr ⟨item, hitem, rfl⟩)
    · exact h.apart.across x _ (hsub x _ hg) hy
  · exact h.apart.below x g (hsub x g hg)
  · obtain ⟨y, hy, _⟩ := hlimbo g hg
    exact h.apart.below y g hy

end TradeWorld

end LegionServer.Source.Trading
