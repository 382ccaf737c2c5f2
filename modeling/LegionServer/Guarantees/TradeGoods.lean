import LegionServer.Source.Trading.TradedGoods

/-!
# Agreement of a trade

A trade completes only while the accept of the partner still stands for the very offers that
change hands, and it hands over nothing that may not be traded.
-/
open List
namespace LegionServer.Guarantees.TradeGoods
open Source.Trading

section

variable {storage : Storage} {w₀ : TradeWorld} {requests : List TradeRequest} {x side : Side}
  {t : Trade} {surroundings : TradeWorld.Surroundings} {stateIndex : UInt32}

def runAll (storage : Storage) (w₀ : TradeWorld) (requests : List TradeRequest) : TradeWorld :=
  requests.foldl (TradeRequest.run storage) w₀

/-- After this run the last accept of a side stands for the offers: it was sent for the state index
that the partner's offer had, the offers were these, and since then neither has changed, no item
was announced and the accept was not taken back. -/
inductive StandsFor (storage : Storage) (w₀ : TradeWorld) (x : Side) (offers : Side → Offer) :
    List TradeRequest → Prop where
  | accepted {requests : List TradeRequest} {surroundings : TradeWorld.Surroundings} {t : Trade} :
    (runAll storage w₀ requests).trade = some t → t.offers = offers →
    StandsFor storage w₀ x offers
      (requests ++ [.accept x surroundings (t.data x.other).serverStateIndex])
  | kept {requests : List TradeRequest} {request : TradeRequest} {t : Trade} :
    StandsFor storage w₀ x offers requests → request.Spares (runAll storage w₀ requests) x →
    (runAll storage w₀ (requests ++ [request])).trade = some t → t.offers = offers →
    StandsFor storage w₀ x offers (requests ++ [request])

theorem runAll_append {request : TradeRequest} :
    runAll storage w₀ (requests ++ [request]) = request.run storage (runAll storage w₀ requests) := by
  simp [runAll]

/-- Whatever takes the flag of a side away also ends what it stands for. -/
theorem stands_of_accepted (hstart : w₀.trade = none)
    (ht : (runAll storage w₀ requests).trade = some t) (hx : (t.data x).accepted = true) :
    StandsFor storage w₀ x t.offers requests := by
  induction requests using reverseRecOn generalizing t with
  | nil =>
    rw [runAll, foldl_nil, hstart] at ht
    cases ht
  | append_singleton requests request ih =>
    have hkept : ∀ t₀, (runAll storage w₀ requests).trade = some t₀ → t.offers = t₀.offers →
        (t₀.data x).accepted = true → request.Spares (runAll storage w₀ requests) x →
        StandsFor storage w₀ x t.offers (requests ++ [request]) := by
      intro t₀ ht₀ hoffers hx₀ hspares
      exact .kept (hoffers ▸ ih ht₀ hx₀) hspares ht rfl
    by_cases haccept : ∃ side surroundings stateIndex,
        request = .accept side surroundings stateIndex
    · obtain ⟨side, surroundings, stateIndex, rfl⟩ := haccept
      rw [runAll_append, TradeRequest.run] at ht
      cases ht₀ : (runAll storage w₀ requests).trade with
      | none =>
        rw [TradeWorld.handleAcceptTrade, ht₀] at ht
        rw [ht₀] at ht
        cases ht
      | some t₀ =>
        have hspares : (TradeRequest.accept side surroundings stateIndex).Spares
            (runAll storage w₀ requests) x :=
            ⟨id, fun h => by cases h⟩
        -- an accept of the partner that was there before
        have hpartner : (t₀.setAccepted side true).Keeps t → x = side.other →
            StandsFor storage w₀ x t.offers
              (requests ++ [.accept side surroundings stateIndex]) := by
          rintro hkeeps rfl
          have haccepted := hkeeps.accepted hx
          rw [Trade.setAccepted, Trade.data_modify_other] at haccepted
          exact hkept t₀ ht₀ (hkeeps.offers.trans Trade.offers_setAccepted) haccepted hspares
        rcases TradeWorld.handleAcceptTrade_cases ht₀ with
          hrefused | ⟨hindex, w', t', hgoes, _, hkeeps | hnone, _⟩ | ⟨_, hcompleted⟩
        · rw [hrefused] at ht
          cases ht
          refine hpartner Trade.keeps_refuse ((side.eq_or_other x).resolve_left ?_)
          rintro rfl
          rw [Trade.setAccepted, Trade.data_modify_self] at hx
          cases hx
        · rw [hgoes] at ht
          cases ht
          rcases side.eq_or_other x with rfl | hother
          · rw [hkeeps.offers, Trade.offers_setAccepted, ← hindex]
            exact .accepted ht₀ rfl
          · exact hpartner hkeeps hother
        · rw [hgoes] at ht
          cases ht
          rw [hnone x] at hx
          cases hx
        · rw [hcompleted] at ht
          cases ht
    · rw [runAll_append] at ht
      cases ht₀ : (runAll storage w₀ requests).trade with
      | none =>
        rw [TradeRequest.data_of_none ht₀ ht] at hx
        cases hx
      | some t₀ =>
        obtain ⟨hspares, hoffers, hx₀⟩ := (TradeRequest.edits_run (fun side surroundings stateIndex h =>
          haccept ⟨side, surroundings, stateIndex, h⟩) ht₀ ht).accepted x hx
        exact hkept t₀ ht₀ hoffers hx₀ hspares

/-- When a trade completes, the accept that completes it is for the state index of the partner's
offer, the last accept of the partner stands for the offers as they are now, and each item that
changes hands may be traded and is not bound to anybody but its recipient. -/
theorem completes_as_agreed (hstart : w₀.trade = none)
    (ht : (runAll storage w₀ requests).trade = some t)
    (hcompletes : ((runAll storage w₀ requests).handleAcceptTrade storage side surroundings
      stateIndex).trade = none) :
    (t.data side.other).serverStateIndex = stateIndex ∧
      StandsFor storage w₀ side.other t.offers requests ∧
      ∀ {x i item}, (runAll storage w₀ requests).tradedItem x t i = some item →
        item.canBeTraded false true = true ∧
          item.isBindedNotWith ((runAll storage w₀ requests).players x.other).guid = false := by
  rcases TradeWorld.handleAcceptTrade_cases ht with
    hrefused | ⟨_, _, _, hgoes, _⟩ | ⟨hcompleting, _⟩
  · rw [hrefused] at hcompletes
    cases hcompletes
  · rw [hgoes] at hcompletes
    cases hcompletes
  · exact ⟨hcompleting.index, stands_of_accepted hstart ht hcompleting.accepted,
      fun hitem => hcompleting.transferable hitem⟩

variable {w w' : TradeWorld} {request : TradeRequest} {offers : Side → Offer}

def goodsOf (player : TradePlayer) (g : Nat) : Option (UInt32 × Nat) :=
  (player.getItemByGuid g).map fun item => (item.entry, item.count)

/-- The entry and the count of what lies in a slot. -/
def offered (w : TradeWorld) (offers : Side → Offer) (y : Side) (i : Fin 6) :
    Option (UInt32 × Nat) :=
  ((offers y).items (tradedSlot i)).bind (goodsOf (w.players y))

/-- A change of the inventory keeps what lies in the window. -/
def KeepsOffered (storage : Storage) (w : TradeWorld) (offers : Side → Offer) (request : TradeRequest) : Prop :=
  ∀ side items, request = .inventory side items →
    offered (request.run storage w) offers = offered w offers

theorem offered_congr (h : ∀ y i g, (offers y).items (tradedSlot i) = some g →
    goodsOf (w'.players y) g = goodsOf (w.players y) g) : offered w' offers = offered w offers := by
  funext y i
  rw [offered, offered]
  cases hslot : (offers y).items (tradedSlot i) with
  | none => rfl
  | some g => exact h y i g hslot

theorem goodsOf_setInTrade {player : TradePlayer} {guids : List Nat} {inTrade : Bool} {g : Nat} :
    goodsOf (player.setInTrade guids inTrade) g = goodsOf player g := by
  rw [goodsOf, TradePlayer.getItemByGuid_setInTrade, goodsOf, Option.map_map]
  congr 1
  funext item
  simp only [Function.comp, TradePlayer.marked]
  split <;> rfl

theorem goodsOf_setCount {player : TradePlayer} {guid g : Nat} (count : Nat) (hne : g ≠ guid) :
    goodsOf { player with items := player.items.map fun item =>
      if item.guid = guid then { item with count := count } else item } g = goodsOf player g := by
  simp only [goodsOf, TradePlayer.getItemByGuid, find?_map, Option.map_map]
  have hguid : ((fun item : Item => decide (item.guid = g)) ∘ fun item =>
      if item.guid = guid then { item with count := count } else item) =
      fun item => decide (item.guid = g) := by
    funext item
    simp only [Function.comp]
    split <;> rfl
  rw [hguid]
  cases hfind : player.items.find? (·.guid = g) with
  | none => rfl
  | some item =>
    have hg : item.guid = g := by simpa using find?_some hfind
    simp [hg, hne]

/-- A request that announces no item leaves the goods of a window as they are. -/
theorem offered_run (ht : w.trade = some t) (hitems : ∀ y, (t.data y).items = (offers y).items)
    (hannounces : ¬request.Announces w) (ht' : (request.run storage w).trade ≠ none)
    (hkeeps : KeepsOffered storage w offers request) :
    offered (request.run storage w) offers = offered w offers := by
  have hsame (h : (request.run storage w).players = w.players) :
      offered (request.run storage w) offers = offered w offers :=
    offered_congr fun _ _ _ _ => by rw [h]
  cases request with
  | initiate random => exact hsame (by simp [TradeRequest.run, TradeWorld.initiateTrade, ht])
  | setItem side tradeSlot pos =>
    refine hsame ?_
    simp only [TradeRequest.run, TradeWorld.handleSetTradeItem, ht]
    grind
  | clearItem side tradeSlot =>
    refine hsame ?_
    simp only [TradeRequest.run, TradeWorld.handleClearTradeItem, ht]
    split <;> rfl
  | setGold side coinage => exact hsame rfl
  | cast side spellId castItem =>
    refine hsame ?_
    simp only [TradeRequest.run, TradeWorld.castOnTradeItem, ht]
    split <;> rfl
  | unaccept side => exact hsame rfl
  | cancel => exact absurd rfl ht'
  | spend side left =>
    refine offered_congr fun y _ _ _ => ?_
    rcases side.eq_or_other y with rfl | rfl
    · simp [TradeRequest.run, TradeWorld.setPlayer, goodsOf, TradePlayer.getItemByGuid]
    · simp [TradeRequest.run, TradeWorld.setPlayer]
  | inventory side items => exact hkeeps side items rfl
  | setCount side guid count =>
    refine offered_congr fun y i g hslot => ?_
    rcases side.eq_or_other y with rfl | rfl
    · have hne : g ≠ guid := by
        rintro rfl
        have hslots : ((t.data y).getTradeSlotForItem g).isSome := by
          rw [TradeData.getTradeSlotForItem, find?_isSome]
          exact ⟨tradedSlot i, mem_finRange _, decide_eq_true (hitems y ▸ hslot)⟩
        obtain ⟨slot, hslot⟩ := Option.isSome_iff_exists.mp hslots
        exact hannounces ⟨t, slot, ht, hslot⟩
      simpa [TradeRequest.run, TradeWorld.setCount, TradeWorld.setPlayer] using goodsOf_setCount count hne
    · simp [TradeRequest.run, TradeWorld.setCount, TradeWorld.setPlayer]
  | accept side surroundings stateIndex =>
    simp only [TradeRequest.run] at ht' ⊢
    rcases TradeWorld.handleAcceptTrade_cases ht with
      hrefused | ⟨_, w', t', hgoes, hplayers, _⟩ | ⟨_, hcompleted⟩
    · rw [hrefused]
      rfl
    · rw [hgoes]
      rcases hplayers with rfl | rfl
      · rfl
      · exact offered_congr fun _ _ _ _ => goodsOf_setInTrade.trans goodsOf_setInTrade
    · rw [hcompleted] at ht'
      exact absurd rfl ht'

/-- While an accept stands, the goods are those of its moment. -/
theorem offered_stands (h : StandsFor storage w₀ x offers requests)
    (hkeeps : ∀ before request after, requests = before ++ request :: after →
      KeepsOffered storage (runAll storage w₀ before) offers request) :
    ∃ before surroundings stateIndex after, requests = before ++ .accept x surroundings stateIndex ::
      after ∧ ∀ t, (runAll storage w₀ requests).trade = some t →
        (∀ y, (t.data y).items = (offers y).items) ∧
          offered (runAll storage w₀ requests) offers = offered (runAll storage w₀ before) offers := by
  induction h with
  | @accepted requests surroundings t₀ ht₀ hoffers =>
    subst hoffers
    refine ⟨requests, surroundings, _, [], rfl, fun t ht => ?_⟩
    have hrun := hkeeps requests _ [] rfl
    rw [runAll_append] at ht ⊢
    refine ⟨fun y => ?_, offered_run ht₀ (fun _ => rfl) id (by rw [ht]; nofun) hrun⟩
    rw [TradeRequest.run] at ht
    rcases TradeWorld.handleAcceptTrade_cases ht₀ with
      hrefused | ⟨_, _, _, hgoes, _, _, hitems⟩ | ⟨_, hcompleted⟩
    · rw [hrefused] at ht
      cases ht
      exact Trade.items_setAccepted.trans Trade.items_setAccepted
    · rw [hgoes] at ht
      cases ht
      exact hitems y
    · rw [hcompleted] at ht
      cases ht
  | @kept requests request t₁ hstands hspares ht₁ hoffers ih =>
    subst hoffers
    obtain ⟨before, surroundings, stateIndex, after, hsplit, hsame⟩ :=
      ih fun before other after hsplit => hkeeps before other (after ++ [request]) (by simp [hsplit])
    refine ⟨before, surroundings, stateIndex, after ++ [request], by simp [hsplit], fun t ht => ?_⟩
    cases ht₁.symm.trans ht
    refine ⟨fun _ => rfl, ?_⟩
    rw [runAll_append] at ht₁ ⊢
    cases ht₀ : (runAll storage w₀ requests).trade with
    | none =>
      funext y i
      simp only [offered, Trade.offers, TradeRequest.data_of_none ht₀ ht₁, Option.bind_none]
    | some t₀ =>
      obtain ⟨hitems, hsame⟩ := hsame t₀ ht₀
      rw [← hsame]
      exact offered_run ht₀ hitems hspares.announces (by rw [ht₁]; nofun)
        (hkeeps requests request [] rfl)

/-- The slot of the backpack behind a row of items. -/
def nextSlot (player : TradePlayer) : UInt16 := 0xFF23 + UInt16.ofNat player.items.length

/-- An inventory with a row of slots, of which the next one is taken. -/
def rowStorage : Storage where
  Space := TradePlayer
  space player := { player with items := player.items.filter (!·.inTrade) }
  place _ space item :=
    if space.getItemByPos (nextSlot space) = none then
      .ok (space.storeAt (nextSlot space) { item with inTrade := false } item.count none)
    else .error ⟨.other 50, by decide⟩
  canStoreItem player _ item :=
    if player.getItemByPos (nextSlot player) = none then (.ok, [(nextSlot player, item.count)])
    else (.other 50, [])

def nearby : TradeWorld.Surroundings where
  isWithinDistInMap := true
  getSpellInfo _ := true
  checkCast _ := true

def herb : Item where
  guid := 10
  pos := 0xFF23
  entry := 765
  count := 3
  ownerGuid := 1

def herbs : TradeWorld where
  players
    | .initiator => { guid := 1, money := 0, items := [herb] }
    | .target => { guid := 2, money := 9, items := [] }
  trade := none
  nextItemGuid := 100

/-- The stack shrinks while it is in the window, and all of it is agreed on after that. -/
def herbRequests : List TradeRequest :=
  [.initiate fun _ => 7, .setItem .initiator 0 0xFF23, .setGold .target 2,
    .accept .target nearby 7, .setCount .initiator 10 2, .accept .target nearby 7]

theorem completes_as_agreed_herbs : ∃ t, (runAll rowStorage herbs herbRequests).trade = some t ∧
      ((runAll rowStorage herbs herbRequests).handleAcceptTrade rowStorage .initiator nearby
        7).trade = none ∧
      StandsFor rowStorage herbs .target t.offers herbRequests :=
  ⟨_, rfl, rfl, (@completes_as_agreed rowStorage herbs herbRequests .initiator _ nearby 7
    rfl rfl rfl).2.1⟩

end

/-!
# Goods of a trade

A trade that completes moves exactly what was offered, and one that does not moves nothing.
-/
section
open TradeWorld
open Source.Guilds (MAX_MONEY_AMOUNT modifyMoney_pay modifyMoney_receive)

variable {storage : Storage} {w w' w₀ : TradeWorld} {requests : List TradeRequest} {x side : Side}
  {t : Trade} {surroundings : Surroundings} {stateIndex : UInt32} {entry : UInt32}

/-- Both calls of `ModifyMoney` for a player succeed, and he has paid one amount and got the
other. -/
def Paid (before pays gets after : UInt64) : Prop :=
  ∃ rest, Source.Guilds.modifyMoney before (-pays.toInt64) = some rest ∧
    Source.Guilds.modifyMoney rest gets.toInt64 = some after ∧
    after.toNat + pays.toNat = before.toNat + gets.toNat ∧ after ≤ MAX_MONEY_AMOUNT

theorem modifyMoney_room {money amount : UInt64} (hsmall : amount ≤ MAX_MONEY_AMOUNT)
    (hroom : money ≤ MAX_MONEY_AMOUNT - amount) :
    ∃ received, Source.Guilds.modifyMoney money amount.toInt64 = some received := by
  have hle := Source.Guilds.small_of_le_max hsmall
  unfold Source.Guilds.modifyMoney
  split
  · exact ⟨_, rfl⟩
  split
  · exact ⟨_, rfl⟩
  · have hsame : amount.toInt64.toUInt64 = amount := by simp
    rw [hsame, if_pos hroom]
    exact ⟨_, rfl⟩

theorem exists_paid {before pays gets : UInt64} (hcapped : before ≤ MAX_MONEY_AMOUNT)
    (howns : pays ≤ before) (hgets : gets ≤ MAX_MONEY_AMOUNT)
    (hroom : before ≤ MAX_MONEY_AMOUNT - gets) : ∃ after, Paid before pays gets after := by
  have hsmall := UInt64.le_trans howns hcapped
  obtain ⟨rest, hpays, hrest⟩ := modifyMoney_pay hsmall (UInt64.le_iff_toNat_le.mp howns)
  have hless : rest ≤ before := by
    rw [UInt64.le_iff_toNat_le]
    omega
  obtain ⟨after, hafter⟩ := modifyMoney_room hgets (UInt64.le_trans hless hroom)
  obtain ⟨hsum, hcap⟩ := modifyMoney_receive hgets (UInt64.le_trans hless hcapped) hafter
  exact ⟨after, rest, hpays, hafter, by omega, hcap⟩

theorem players_modifyMoney {amount : Int64} {result : UInt64}
    (h : Source.Guilds.modifyMoney (w.players x).money amount = some result) :
    (w.modifyMoney x amount).players x = { w.players x with money := result } ∧
      (w.modifyMoney x amount).players x.other = w.players x.other := by
  unfold TradeWorld.modifyMoney
  rw [h]
  exact ⟨Function.update_self .., Function.update_of_ne x.other_ne ..⟩

theorem players_updateMoney {after : Side → UInt64}
    (hpaid : ∀ x, Paid (w.players x).money (t.data x).money (t.data x.other).money (after x)) :
    (w.updateMoney side t).players x = { w.players x with money := after x } := by
  obtain ⟨rest, hpays, hgets, _⟩ := hpaid side
  obtain ⟨rest', hpays', hgets', _⟩ := hpaid side.other
  rw [Side.other_other] at hgets'
  obtain ⟨hfirst, hfirst'⟩ := players_modifyMoney hpays
  have hgets₁ : Source.Guilds.modifyMoney
      ((w.modifyMoney side (-(t.data side).money.toInt64)).players side).money
      (t.data side.other).money.toInt64 = some (after side) := by
    rw [hfirst]
    exact hgets
  obtain ⟨hsecond, hsecond'⟩ := players_modifyMoney hgets₁
  have hpays₂ : Source.Guilds.modifyMoney
      (((w.modifyMoney side (-(t.data side).money.toInt64)).modifyMoney side
        (t.data side.other).money.toInt64).players side.other).money
      (-(t.data side.other).money.toInt64) = some rest' := by
    rw [hsecond', hfirst']
    exact hpays'
  obtain ⟨hthird, hthird'⟩ := players_modifyMoney hpays₂
  have hgets₃ : Source.Guilds.modifyMoney
      ((((w.modifyMoney side (-(t.data side).money.toInt64)).modifyMoney side
        (t.data side.other).money.toInt64).modifyMoney side.other
        (-(t.data side.other).money.toInt64)).players side.other).money
      (t.data side).money.toInt64 = some (after side.other) := by
    rw [hthird]
    exact hgets'
  obtain ⟨hfourth, hfourth'⟩ := players_modifyMoney hgets₃
  rw [Side.other_other] at hthird' hfourth'
  rcases side.eq_or_other x with rfl | rfl
  · exact hfourth'.trans (hthird'.trans (hsecond.trans (by rw [hfirst])))
  · exact hfourth.trans (by rw [hthird, hsecond', hfirst'])

theorem moving (hlawful : storage.Lawful) (hwell : w.Wellformed) (hdistinct : t.DistinctOffers)
    (h : Completing storage w side stateIndex t) :
    Moving storage (w.removeTraded t) side (w.tradedItem side t) (w.tradedItem side.other t)
      (List.finRange 6) := by
  have hroom : ∀ x, StoresAll storage ((w.removeTraded t).players x)
      ((finRange 6).map (w.tradedItem x.other t)) := by
    intro x
    have htogether := hlawful.together (h.stores x)
    have hitems : (fun i => ((w.setInTrade t true).tradedItem x.other t i).map Item.unmark) =
        w.tradedItem x.other t := funext fun _ => hwell.unmark_tradedItem
    rw [hwell.withoutTraded_marked, map_map] at htogether
    exact hitems ▸ htogether
  have htrader := hroom side.other
  rw [Side.other_other] at htrader
  refine ⟨htrader, hroom side, fun x => ?_, hwell.apart_removed hdistinct⟩
  rw [hwell.players_removeTraded]
  exact (hwell.nodup x).sublist (filter_sublist.map _)

/-- The guid of a traded item is not among those that its owner can have after the trade. -/
theorem not_mem_of_traded (hwell : w.Wellformed) {item : Item} (hitem : item ∈ w.tradedItems x t) :
    ¬ (item.guid ∈ (w.removeTraded t).guids x ∨
      (∃ i ∈ List.finRange 6, item.guid ∈ optionGuids (w.tradedItem x.other t i)) ∨
      w.nextItemGuid ≤ item.guid) := by
  obtain ⟨i, hi⟩ := mem_tradedItems.mp hitem
  have howned : item.guid ∈ w.guids x := mem_map_of_mem (mem_of_tradedItem hi).1
  rintro (hstays | ⟨j, _, hj⟩ | hfresh)
  · unfold guids at hstays
    rw [hwell.players_removeTraded] at hstays
    obtain ⟨stays, hkept, hsame⟩ := mem_map.mp hstays
    have hout := of_decide_eq_true (mem_filter.mp hkept).2
    exact hout (hsame ▸ mem_tradedGuids.mpr ⟨item, hitem, rfl⟩)
  · cases hother : w.tradedItem x.other t j with
    | none =>
      rw [hother] at hj
      exact not_mem_nil hj
    | some other =>
      rw [hother] at hj
      have hsame : item.guid = other.guid := mem_singleton.mp hj
      have hthere : other.guid ∈ w.guids x.other := mem_map_of_mem (mem_of_tradedItem hother).1
      exact hwell.apart.across x _ howned (hsame ▸ hthere)
  · exact Nat.not_lt.mpr hfresh (hwell.apart.below x _ howned)

structure Conserved (w w' : TradeWorld) (t : Trade) : Prop where
  /-- Each player pays what he has offered and gets what the other has. -/
  money : ∀ x, Paid (w.players x).money (t.data x).money (t.data x.other).money (w'.players x).money
  sum : (w'.players .initiator).money.toNat + (w'.players .target).money.toNat =
    (w.players .initiator).money.toNat + (w.players .target).money.toNat
  goods : ∀ x entry, goods entry (w'.players x).items + goods entry (w.tradedItems x t) =
    goods entry (w.players x).items + goods entry (w.tradedItems x.other t)
  /-- What is handed over has left its owner, -/
  left : ∀ x, ∀ item ∈ w.tradedItems x t, item.guid ∉ w'.guids x
  /-- it is with the other, unless its pieces are in stacks there, -/
  arrived : ∀ x, ∀ item ∈ w.tradedItems x t, 0 < item.count → item.guid ∈ w'.guids x.other ∨
    ∃ stack ∈ (w'.players x.other).items, stack.entry = item.entry ∧ stack.guid ≠ item.guid
  /-- and nothing lies in both inventories, or twice in one. -/
  apart : Apart w' []

theorem conserved_executeTrade (hlawful : storage.Lawful) (hwell : w.Wellformed)
    (hdistinct : t.DistinctOffers) (h : Completing storage w side stateIndex t) :
    Conserved w (w.executeTrade storage side t) t := by
  have hmoved := (moving hlawful hwell hdistinct h).run hlawful
  set moved := (w.removeTraded t).moveItems storage side (w.tradedItem side t)
    (w.tradedItem side.other t) with hmoved_eq
  have hmoney : ∀ x, (moved.players x).money = (w.players x).money := by
    intro x
    refine (hmoved.money x).trans ?_
    rw [hwell.players_removeTraded]
  have howns : ∀ x, (t.data x).money ≤ (w.players x).money := fun x =>
    of_decide_eq_true (h.owns x)
  have hpaid : ∀ x, ∃ after, Paid (moved.players x).money (t.data x).money (t.data x.other).money
      after := by
    intro x
    rw [hmoney]
    exact exists_paid (hwell.capped x) (howns x)
      (UInt64.le_trans (howns x.other) (hwell.capped x.other)) (h.capped x)
  choose after hafter using hpaid
  have hplayers : ∀ x, (w.executeTrade storage side t).players x =
      { moved.players x with money := after x } := fun x => players_updateMoney hafter
  have hguids : ∀ x, (w.executeTrade storage side t).guids x = moved.guids x := by
    intro x
    unfold guids
    rw [hplayers]
  have hstays : ∀ x entry, goods entry ((w.removeTraded t).players x).items +
      goods entry (w.tradedItems x t) = goods entry (w.players x).items := by
    intro x entry
    rw [hwell.players_removeTraded, goods_perm (hwell.items_perm hdistinct), goods_append]
  have hpaid : ∀ x, Paid (w.players x).money (t.data x).money (t.data x.other).money
      ((w.executeTrade storage side t).players x).money := by
    intro x
    rw [hplayers, ← hmoney x]
    exact hafter x
  -- what has stayed, and what the other has offered
  have hgot : ∀ x entry, goods entry ((w.executeTrade storage side t).players x).items =
      goods entry ((w.removeTraded t).players x).items + goods entry (w.tradedItems x.other t) := by
    intro x entry
    rw [hplayers]
    rcases side.eq_or_other x with rfl | rfl
    · have hgot := hmoved.player entry
      rwa [sum_optionAmount] at hgot
    · have hgot := hmoved.trader entry
      rw [sum_optionAmount] at hgot
      rwa [Side.other_other]
  refine ⟨hpaid, ?_, fun x entry => ?_, fun x item hitem hmem => ?_, fun x item hitem hcount => ?_,
    ?_⟩
  · obtain ⟨_, _, _, hfirst, _⟩ := hpaid .initiator
    obtain ⟨_, _, _, hsecond, _⟩ := hpaid .target
    simp only [Side.other] at hfirst hsecond
    omega
  · have hx := hstays x entry
    rw [hgot]
    omega
  · rw [hguids] at hmem
    refine not_mem_of_traded hwell hitem ?_
    rcases side.eq_or_other x with rfl | rfl
    · exact hmoved.player_guids _ hmem
    · rw [Side.other_other]
      exact hmoved.trader_guids _ hmem
  · have hle := hgot x.other item.entry
    rw [Side.other_other] at hle
    have hpieces := le_goods hitem
    obtain ⟨stack, hstack, hentry⟩ := exists_of_goods (by omega :
      0 < goods item.entry ((w.executeTrade storage side t).players x.other).items)
    by_cases hguid : stack.guid = item.guid
    · exact .inl (hguid ▸ mem_map_of_mem hstack)
    · exact .inr ⟨stack, hstack, hentry, hguid⟩
  · refine ⟨fun x => ?_, fun x => ?_, nodup_nil, fun x g _ => not_mem_nil, fun x => ?_,
      fun g hg => (not_mem_nil hg).elim⟩
    · rw [hguids]
      exact hmoved.apart.inside x
    · rw [hguids, hguids]
      exact hmoved.apart.across x
    · rw [hguids]
      exact hmoved.apart.below x

theorem distinctOffers_runAll (hstart : w₀.trade = none)
    (ht : (runAll storage w₀ requests).trade = some t) : t.DistinctOffers := by
  induction requests using reverseRecOn generalizing t with
  | nil =>
    rw [runAll, foldl_nil, hstart] at ht
    cases ht
  | append_singleton requests request ih =>
    rw [runAll_append] at ht
    exact TradeRequest.distinctOffers_run (fun _ h => ih h) ht

/-- An accept that completes the trade conserves the money and the goods of both players; any other
accept leaves their money and their inventories alone. -/
theorem accept_conserves (hlawful : storage.Lawful) (hstart : w₀.trade = none)
    (ht : (runAll storage w₀ requests).trade = some t)
    (hwell : (runAll storage w₀ requests).Wellformed) :
    (((runAll storage w₀ requests).handleAcceptTrade storage side surroundings stateIndex).trade =
        none →
      Conserved (runAll storage w₀ requests)
        ((runAll storage w₀ requests).handleAcceptTrade storage side surroundings stateIndex) t) ∧
    (((runAll storage w₀ requests).handleAcceptTrade storage side surroundings stateIndex).trade ≠
        none →
      ((runAll storage w₀ requests).handleAcceptTrade storage side surroundings
        stateIndex).players = (runAll storage w₀ requests).players) := by
  have hdistinct := distinctOffers_runAll hstart ht
  rcases handleAcceptTrade_cases ht with
    hrefused | ⟨_, w', t', hgoes, hplayers, _⟩ | ⟨hcompleting, hcompleted⟩
  · rw [hrefused]
    exact ⟨nofun, fun _ => rfl⟩
  · rw [hgoes]
    refine ⟨nofun, fun _ => ?_⟩
    rcases hplayers with rfl | rfl
    · rfl
    · have hsame := congrArg players (hwell.unmarked_eq (t := t))
      exact hsame
  · rw [hcompleted, hwell.unmarked_eq]
    refine ⟨fun _ => conserved_executeTrade hlawful hwell hdistinct hcompleting, fun hopen => ?_⟩
    exact absurd rfl hopen

theorem rowStorage_storesAll {space : TradePlayer} {items : List (Option Item)}
    {player : TradePlayer}
    (h : TradePlayer.canStoreItems.check rowStorage player space items = .ok) :
    StoresAll rowStorage space (items.map (Option.map Item.unmark)) := by
  induction items generalizing space with
  | nil => trivial
  | cons item items ih =>
    cases item with
    | none => exact ih h
    | some item =>
      replace h := TradePlayer.check_some.symm.trans h
      split at h
      · cases h
      split at h
      · cases h
      split at h
      · rename_i result _
        exact absurd h result.2
      rename_i space' hplace
      by_cases hfree : space.getItemByPos (nextSlot space) = none
      · simp only [rowStorage, hfree, ↓reduceIte] at hplace
        cases hplace
        refine ⟨[(nextSlot space, item.count)], ?_, fun _ => ih h⟩
        simp only [rowStorage, hfree, ↓reduceIte, Item.unmark]
      · simp [rowStorage, hfree] at hplace

theorem rowStorage_lawful : rowStorage.Lawful where
  dest := by
    intro player item dest h
    by_cases hfree : player.getItemByPos (nextSlot player) = none
    · simp only [rowStorage, hfree, ↓reduceIte, Prod.mk.injEq, true_and] at h
      subst h
      refine ⟨rfl, fun place hplace other hother hpos => ?_⟩
      rw [mem_singleton.mp hplace] at hpos
      have hnone := find?_eq_none.mp hfree other hother
      exact absurd (decide_eq_true hpos) hnone
    · simp [rowStorage, hfree] at h
  together := rowStorage_storesAll

theorem herbs_wellformed : (runAll rowStorage herbs herbRequests).Wellformed where
  apart :=
    { inside := fun x => by cases x <;> decide
      across := fun x => by cases x <;> decide
      limbo_nodup := nodup_nil
      outside := fun _ _ _ => not_mem_nil
      below := fun x => by cases x <;> decide
      limbo_below := fun _ hg => (not_mem_nil hg).elim }
  nodup := fun x => by
    unfold PosNodup
    cases x <;> decide
  unmarked := fun x => by cases x <;> decide
  capped := fun x => by cases x <;> decide

theorem accept_conserves_herbs : ∃ t, (runAll rowStorage herbs herbRequests).trade = some t ∧
      ((runAll rowStorage herbs herbRequests).handleAcceptTrade rowStorage .initiator nearby
        7).trade = none ∧
      Conserved (runAll rowStorage herbs herbRequests)
        ((runAll rowStorage herbs herbRequests).handleAcceptTrade rowStorage .initiator nearby 7)
        t :=
  ⟨_, rfl, rfl, (@accept_conserves rowStorage herbs herbRequests .initiator _ nearby 7
    rowStorage_lawful rfl rfl herbs_wellformed).1 rfl⟩

end

end LegionServer.Guarantees.TradeGoods
