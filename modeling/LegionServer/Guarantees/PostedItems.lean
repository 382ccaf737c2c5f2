import LegionServer.Guarantees.AuctionItems

/-!
# Posting items and the runs of the auction house

What a request has passed when it is accepted: the stacks are different objects of the
player with one entry, and no more is taken of each than it has.
-/
namespace LegionServer.Guarantees.PostedItems
open Library Source Source.Auctions List FlatSet World
  Guarantees.PendingAuctions Guarantees.AuctionMoney
  Guarantees.AuctionItems

variable {config : AuctionConfig} {w w' : World} {auction : AuctionEntry} {player : Player}
  {g : Item → ℤ} {item : Item}

structure Source (w : World) (player : Player) (source : SellItem × Item) : Prop where
  owned : player.items.find source.2.guid = some source.2
  free : w.aItems.find source.2.guid = none
  enough : source.1.useCount ≤ source.2.count
  wanted : source.2.guid = source.1.guid

theorem gatherItems_ok {wanted : List SellItem} {items : List (SellItem × Item)}
    (h : gatherItems config w player wanted = .ok items) :
    items.map Prod.fst = wanted ∧ ∀ source ∈ items, Source w player source := by
  induction wanted generalizing items with
  | nil =>
    cases h
    exact ⟨rfl, fun _ hmem => by cases hmem⟩
  | cons first rest ih =>
    rw [gatherItems] at h
    split at h
    · cases h
    rename_i found hfound
    split at h
    · cases h
    rename_i hchecks
    cases hrest : gatherItems config w player rest with
    | error error =>
      rw [hrest] at h
      cases h
    | ok others =>
      rw [hrest] at h
      cases h
      obtain ⟨hwanted, hall⟩ := ih hrest
      have hguid := (find_eq_some.mp hfound).2
      simp only [Bool.or_eq_true, not_or, Bool.not_eq_true, Option.isSome_eq_false_iff,
        Option.isNone_iff_eq_none, decide_eq_false_iff_not, not_lt] at hchecks
      refine ⟨by rw [map_cons, hwanted], ?_⟩
      intro source hmem
      cases mem_cons.mp hmem with
      | inl hself =>
        rw [hself]
        exact ⟨by rw [← hfound, hguid], hchecks.1.1, hchecks.2, hguid⟩
      | inr hin => exact hall source hin

theorem checkPairs_none {items : List (SellItem × Item)} (h : checkPairs items = none) :
    items.Pairwise fun a b => a.1.guid ≠ b.1.guid ∧ a.2.entry = b.2.entry := by
  induction items with
  | nil => exact .nil
  | cons first rest ih =>
    rw [checkPairs, Option.or_eq_none_iff, findSome?_eq_none_iff] at h
    refine .cons ?_ (ih h.2)
    intro other hother
    have hpair := h.1 other hother
    unfold pairError at hpair
    split at hpair
    · cases hpair
    rename_i hguid
    split at hpair
    · cases hpair
    · rename_i hentry
      exact ⟨hguid, not_not.mp hentry⟩

structure Accepted (config : AuctionConfig) (w : World) (player : Player)
    (packet : AuctionSellItem) (posting : Posting) : Prop where
  wanted : posting.items.map Prod.fst = packet.items
  sources : ∀ source ∈ posting.items, Source w player source
  first : ∃ rest, posting.items = posting.first :: rest
  finalCount : posting.finalCount = (posting.items.map fun source => source.1.useCount).sum
  pairs : posting.items.Pairwise fun a b => a.1.guid ≠ b.1.guid ∧ a.2.entry = b.2.entry
  stack : posting.finalCount ≤ config.maxStackCount posting.first.2.entry

theorem checkSellItem_ok {packet : AuctionSellItem} {posting : Posting}
    (h : checkSellItem config w player packet = .ok posting) :
    Accepted config w player packet posting := by
  unfold checkSellItem at h
  simp only [bind, Except.bind, pure, Except.pure, throw, throwThe, MonadExceptOf.throw,
    Except.mapError] at h
  split at h
  · cases h
  split at h
  · cases h
  split at h
  · cases h
  split at h
  · split at h
    · split at h
      · cases h
      split at h
      · cases h
      rename_i items hitems
      split at h
      · rename_i first rest
        split at h
        · cases h
        split at h
        · cases h
        rename_i hpairs
        split at h
        · cases h
        rename_i hstack
        split at h
        · cases h
        cases h
        have hgathered : gatherItems config w player packet.items = .ok (first :: rest) := by
          split at hitems
          · cases hitems
          · cases hitems
            assumption
        obtain ⟨hwanted, hsources⟩ := gatherItems_ok hgathered
        have hnone : checkPairs (first :: rest) = none :=
          Option.eq_none_iff_forall_ne_some.mpr fun error hsome => hpairs error hsome
        refine ⟨hwanted, hsources, ⟨rest, rfl⟩, rfl, checkPairs_none hnone, ?_⟩
        simp only [any_eq_true, decide_eq_true_eq, not_exists, not_and, not_lt] at hstack
        exact hstack first mem_cons_self
      · cases h
    · cases h
  · cases h

def taken (g : Item → ℤ) (source : SellItem × Item) : ℤ :=
  g source.2 - if source.2.count = source.1.useCount then 0
    else g { source.2 with count := source.2.count - source.1.useCount }

variable {items : FlatSet Item.guid} {source : SellItem × Item}

theorem sum_takeSource (howned : items.find source.2.guid = some source.2) :
    (World.takeSource items source).sum g = items.sum g - taken g source := by
  unfold World.takeSource taken
  split
  · rw [FlatSet.sum_erase, FlatSet.value_some howned, sub_zero]
  · rw [FlatSet.sum_put, FlatSet.value_some howned]
    omega

variable {guid : Nat}

theorem find_takeSource (hother : guid ≠ source.2.guid) :
    (World.takeSource items source).find guid = items.find guid := by
  unfold takeSource
  split
  · rw [find_erase, if_neg hother]
  · rw [find_put, if_neg hother]

variable {sources : List (SellItem × Item)}

theorem sum_takeSources (hpairs : sources.Pairwise fun a b => a.2.guid ≠ b.2.guid)
    (howned : ∀ source ∈ sources, items.find source.2.guid = some source.2) :
    (sources.foldl World.takeSource items).sum g = items.sum g - (sources.map (taken g)).sum := by
  induction hpairs generalizing items with
  | nil => simp
  | @cons first rest hfirst _ ih =>
    have hrest : ∀ source ∈ rest, (takeSource items first).find source.2.guid =
        some source.2 := by
      intro source hmem
      rw [find_takeSource (hfirst source hmem).symm]
      exact howned source (mem_cons_of_mem first hmem)
    rw [foldl_cons, ih hrest, sum_takeSource (howned first mem_cons_self), map_cons, sum_cons]
    omega

theorem taken_isGuid_nonneg (guid : Nat) (source : SellItem × Item) :
    0 ≤ taken (isGuid guid) source := by
  unfold taken isGuid
  split <;> split <;> omega

theorem taken_unitsOf (entry : Nat) (henough : source.1.useCount ≤ source.2.count) :
    taken (unitsOf entry) source = if source.2.entry = entry then (source.1.useCount : ℤ) else 0 := by
  unfold taken unitsOf
  dsimp only
  split <;> split <;> omega

theorem sum_taken_unitsOf {kind : Nat} (entry : Nat)
    (henough : ∀ source ∈ sources, source.1.useCount ≤ source.2.count)
    (hkind : ∀ source ∈ sources, source.2.entry = kind) :
    (sources.map (taken (unitsOf entry))).sum =
      if kind = entry then (((sources.map fun source => source.1.useCount).sum : ℕ) : ℤ)
      else 0 := by
  induction sources with
  | nil => simp
  | cons first rest ih =>
    rw [map_cons, sum_cons, ih (fun source hmem => henough source (.tail first hmem))
      (fun source hmem => hkind source (.tail first hmem)),
      taken_unitsOf entry (henough first mem_cons_self), hkind first mem_cons_self]
    split
    · simp
    · rfl

namespace Accepted

variable {packet : AuctionSellItem} {posting : Posting}

section
variable (h : Accepted config w player packet posting)
include h

theorem guids : posting.items.Pairwise fun a b => a.2.guid ≠ b.2.guid := by
  refine h.pairs.imp_of_mem ?_
  intro a b ha hb hpair
  rw [(h.sources a ha).wanted, (h.sources b hb).wanted]
  exact hpair.1

theorem entries : ∀ source ∈ posting.items, source.2.entry = posting.first.2.entry := by
  obtain ⟨rest, hitems⟩ := h.first
  have hpairs := h.pairs
  rw [hitems] at hpairs ⊢
  intro source hmem
  cases mem_cons.mp hmem with
  | inl hself => rw [hself]
  | inr hin => exact ((pairwise_cons.mp hpairs).1 source hin).2.symm

theorem first_mem : posting.first ∈ posting.items := by
  obtain ⟨rest, hitems⟩ := h.first
  rw [hitems]
  exact mem_cons_self

end

end Accepted

theorem weigh_addPosted (packet : AuctionSellItem) (posting : Posting) (now : Nat)
    (hfree : w.aItems.find item.guid = none) :
    weigh g (w.addPosted config player packet posting item now) = weigh g w + g item := by
  unfold World.addPosted
  rw [pendingAuctionAdd_eq]
  exact weigh_addAItem (w := { w with nextAuctionId := w.nextAuctionId + 1 }) hfree

theorem nextItemGuid_addPosted (packet : AuctionSellItem) (posting : Posting) (now : Nat) :
    (w.addPosted config player packet posting item now).nextItemGuid = w.nextItemGuid := by
  unfold World.addPosted
  rw [pendingAuctionAdd_eq]
  rfl

theorem matched_addPosted (config : AuctionConfig) (h : Matched w) (player : Player)
    (packet : AuctionSellItem) (posting : Posting) (now : Nat) (hfree : w.aItems.find item.guid = none) :
    Matched (w.addPosted config player packet posting item now) := by
  have hapart : ∀ other ∈ w.auctions.items, other.itemGUIDLow ≠ item.guid := by
    intro other hother hsame
    obtain ⟨listed, hlisted, hguid⟩ := h.listed other hother
    exact find_eq_none.mp hfree listed hlisted (hguid.trans hsame)
  unfold World.addPosted
  rw [pendingAuctionAdd_eq]
  generalize hposted : AuctionEntry.mk w.nextAuctionId _ item.guid _ _ _ _ _ _ _ _ _ _ _ _ = posted
  have hguid : posted.itemGUIDLow = item.guid := by rw [← hposted]
  have hid : posted.id = w.nextAuctionId := by rw [← hposted]
  have hauctions : ∀ other, other ∈ (w.auctions.put posted).items →
      other = posted ∨ other ∈ w.auctions.items := fun other hother =>
    (mem_put.mp hother).imp_right And.left
  constructor
  · intro other hother
    cases hauctions other hother with
    | inl hself => rw [hself, hid]; exact Nat.lt_succ_self _
    | inr hold => exact Nat.lt_succ_of_lt (h.fresh other hold)
  · intro other hother
    cases hauctions other hother with
    | inl hself => exact ⟨item, mem_put.mpr (Or.inl rfl), by rw [hself, hguid]⟩
    | inr hold =>
      obtain ⟨listed, hlisted, hsame⟩ := h.listed other hold
      refine ⟨listed, mem_put.mpr (Or.inr ⟨hlisted, ?_⟩), hsame⟩
      rw [hsame]
      exact hapart other hold
  · intro other hother
    cases mem_put.mp hother with
    | inl hself => exact ⟨posted, mem_put.mpr (Or.inl rfl), by rw [hself, hguid]⟩
    | inr hold =>
      obtain ⟨owner, howner, hsame⟩ := h.owned other hold.1
      refine ⟨owner, mem_put.mpr (Or.inr ⟨howner, ?_⟩), hsame⟩
      rw [hid]
      exact (h.fresh owner howner).ne
  · intro other hother another hanother hsame
    cases hauctions other hother with
    | inl hself =>
      cases hauctions another hanother with
      | inl hself' => rw [hself, hself']
      | inr hold' =>
        rw [hself, hguid] at hsame
        exact absurd hsame.symm (hapart another hold')
    | inr hold =>
      cases hauctions another hanother with
      | inl hself' =>
        rw [hself', hguid] at hsame
        exact absurd hsame (hapart other hold)
      | inr hold' => exact h.one other hold another hold' hsame

/-- An object whose guid is not given yet is nowhere. -/
theorem find_fresh (hzero : objects guid w = 0) : w.aItems.find guid = none := by
  rw [find_eq_none]
  intro item hmem hguid
  have hparts := weigh_parts_nonneg (isGuid_nonneg guid) w
  have hone := le_sum (isGuid_nonneg guid) hmem
  have hself : isGuid guid item = 1 := if_pos hguid
  unfold objects weigh at hzero
  omega

theorem weigh_posted (hfind : w.players.find player.guid = some player)
    (packet : AuctionSellItem) (posting : Posting) (now : Nat)
    (hfree : w.aItems.find item.guid = none) (items : FlatSet Item.guid) :
    weigh g ((w.addPosted config player packet posting item now).putPlayer
      { player with items }) = weigh g w + g item - player.items.sum g + items.sum g := by
  have hplayers : (w.addPosted config player packet posting item now).players.find player.guid =
      some player := by
    rw [players_addPosted, hfind]
  have hguid : ({ player with items } : Player).guid = player.guid := rfl
  rw [weigh_putPlayer hplayers hguid, weigh_addPosted packet posting now hfree]

theorem matched_posted (config : AuctionConfig) (h : Matched w) (player : Player)
    (packet : AuctionSellItem) (posting : Posting) (now : Nat)
    (hfree : w.aItems.find item.guid = none) (changed : Player) :
    Matched ((w.addPosted config player packet posting item now).putPlayer changed) := by
  have hmatched := matched_addPosted config h player packet posting now hfree
  exact ⟨hmatched.fresh, hmatched.listed, hmatched.owned, hmatched.one⟩

theorem sum_taken_eq {packet : AuctionSellItem} {posting : Posting}
    (h : Accepted config w player packet posting) (entry guid : Nat) :
    (posting.items.map (taken (unitsOf entry))).sum = unitsOf entry
      { guid, entry := posting.first.2.entry,
        count := min posting.finalCount (config.maxStackCount posting.first.2.entry) } := by
  rw [sum_taken_unitsOf entry (fun source hmem => (h.sources source hmem).enough) h.entries,
    ← h.finalCount, Nat.min_eq_left h.stack]
  rfl

/-- What is taken from the stacks is in the item that is posted. -/
theorem keeps_merged (h : ItemsOk w) (hfind : w.players.find player.guid = some player)
    {packet : AuctionSellItem} {posting : Posting}
    (haccepted : Accepted config w player packet posting) (now : Nat) (newItem : Item)
    (hnew : newItem = ⟨w.nextItemGuid, posting.first.2.entry,
      min posting.finalCount (config.maxStackCount posting.first.2.entry)⟩) :
    let merged := ({ w with nextItemGuid := w.nextItemGuid + 1 }.addPosted config player packet
      posting newItem now).putPlayer
        { player with items := posting.items.foldl World.takeSource player.items }
    ItemsOk merged ∧ ∀ entry, units entry merged = units entry w := by
  intro merged
  have hguid : newItem.guid = w.nextItemGuid := by rw [hnew]
  have hfree : w.aItems.find newItem.guid = none := by
    rw [hguid]
    exact find_fresh (h.given w.nextItemGuid le_rfl)
  have hweigh : ∀ g, weigh g merged =
      weigh g w + g newItem - (posting.items.map (taken g)).sum := by
    intro g
    rw [weigh_posted (w := { w with nextItemGuid := w.nextItemGuid + 1 }) hfind packet posting now
      hfree, sum_takeSources haccepted.guids fun source hmem => (haccepted.sources source hmem).owned]
    change weigh g w + _ - _ + _ = _
    omega
  have hmatched : Matched { w with nextItemGuid := w.nextItemGuid + 1 } :=
    ⟨h.matched.fresh, h.matched.listed, h.matched.owned, h.matched.one⟩
  -- An object gets no more places, but for the new one.
  have hobjects : ∀ guid, objects guid merged ≤ objects guid w + isGuid guid newItem := by
    intro guid
    have hloss : 0 ≤ (posting.items.map (taken (isGuid guid))).sum := by
      apply List.sum_nonneg
      intro value hvalue
      obtain ⟨source, -, rfl⟩ := mem_map.mp hvalue
      exact taken_isGuid_nonneg guid source
    unfold objects
    rw [hweigh]
    omega
  refine ⟨⟨matched_posted config hmatched player packet posting now hfree _, ?_, ?_⟩, ?_⟩
  · intro guid
    have hless := hobjects guid
    have hsingle := h.single guid
    unfold isGuid at hless
    split at hless
    · have hzero := h.given guid (by omega)
      omega
    · omega
  · intro guid hguid'
    have hnext : merged.nextItemGuid = w.nextItemGuid + 1 :=
      nextItemGuid_addPosted packet posting now
    have hother : isGuid guid newItem = 0 := if_neg (by omega)
    have hless := hobjects guid
    have hzero := h.given guid (by omega)
    have hparts := weigh_parts_nonneg (isGuid_nonneg guid) merged
    rw [hzero, hother] at hless
    unfold objects at hless ⊢
    unfold weigh at hless ⊢
    omega
  · intro entry
    unfold units
    rw [hweigh, sum_taken_eq haccepted entry w.nextItemGuid, ← hnew]
    omega

variable {now : Nat}

/-- A request that is not accepted changes nothing. -/
theorem sellItem_refused {packet : AuctionSellItem}
    (hrefused : (w.handleAuctionSellItem config guid packet now).2 ≠ .ok) :
    (w.handleAuctionSellItem config guid packet now).1 = w := by
  unfold handleAuctionSellItem postAuction at hrefused ⊢
  cases hplayer : w.findConnectedPlayer guid with
  | none => rfl
  | some player =>
    rw [hplayer] at hrefused
    dsimp only at hrefused ⊢
    cases hchecked : checkSellItem config w player packet with
    | error result => rfl
    | ok posting =>
      rw [hchecked] at hrefused
      dsimp only at hrefused ⊢
      split at hrefused
      · exact absurd rfl hrefused
      rename_i hmerged
      rw [if_neg hmerged]
      split at hrefused
      · rfl
      · exact absurd rfl hrefused

theorem keeps_sellItem (h : ItemsOk w) (guid : Nat) (packet : AuctionSellItem) (now : Nat) :
    ItemsOk (w.handleAuctionSellItem config guid packet now).1 ∧
      ∀ entry, units entry (w.handleAuctionSellItem config guid packet now).1 = units entry w := by
  apply handleAuctionSellItem_cases
    (motive := fun w' => ItemsOk w' ∧ ∀ entry, units entry w' = units entry w) ⟨h, fun _ => rfl⟩
  · -- The stack itself goes into the auction.
    intro player posting hfind hchecked
    have haccepted := checkSellItem_ok hchecked
    have hsource := haccepted.sources posting.first haccepted.first_mem
    have hweigh : ∀ g, weigh g ((w.addPosted config player packet posting posting.first.2
        now).putPlayer { player with items := player.items.erase posting.first.2.guid }) =
          weigh g w := by
      intro g
      rw [weigh_posted hfind packet posting now hsource.free, FlatSet.sum_erase,
        FlatSet.value_some hsource.owned]
      omega
    refine ⟨h.of_noNew ⟨fun g _ => le_of_eq (hweigh g), ?_⟩ ?_, fun _ => hweigh _⟩
    · exact nextItemGuid_addPosted packet posting now
    · exact matched_posted config h.matched player packet posting now hsource.free _
  · intro player posting hfind hchecked
    exact keeps_merged h hfind (checkSellItem_ok hchecked) now _ rfl

def recipient (auction : AuctionEntry) : Nat :=
  if auction.bidder = 0 ∧ auction.bid = 0 then auction.owner else auction.bidder

theorem keeps_updateAuction (config : AuctionConfig) (h : ItemsOk w)
    (hfind : w.auctions.find auction.id = some auction) (curTime : Nat) :
    Keeps (auction.expireTime ≤ curTime + 60 → w.receiverExists config (recipient auction) = true) w
      (w.updateAuction config curTime auction) := by
  unfold updateAuction
  by_cases hexpired : auction.expireTime ≤ curTime + 60
  · rw [if_neg (not_lt.mpr hexpired), recipient]
    split
    · obtain ⟨hdelivered, hended⟩ := endUnsold_delivered config w auction
      obtain ⟨hok, hsame⟩ := h.keeps hdelivered (h.matched.ended hended hfind rfl)
      exact ⟨hok, fun hthere => hsame (hthere hexpired)⟩
    · obtain ⟨hdelivered, hended⟩ := endSold_delivered config w auction
      obtain ⟨hok, hsame⟩ := h.keeps hdelivered (h.matched.ended hended hfind rfl)
      exact ⟨hok, fun hthere => hsame (hthere hexpired)⟩
  · rw [if_pos (not_le.mp hexpired)]
    exact .refl h _

theorem receiverExists_updateAuction (curTime guid : Nat) :
    (w.updateAuction config curTime auction).receiverExists config guid =
      w.receiverExists config guid := by
  obtain hsame | ⟨ended, hbooks, hend⟩ := updateAuction_eq config w curTime auction
  · rw [hsame]
  · rw [hend]
    exact hbooks.receiverExists guid

theorem keeps_updateAuctions (config : AuctionConfig) (curTime : Nat)
    (auctions : List AuctionEntry) (h : ItemsOk w)
    (hnodup : (auctions.map AuctionEntry.id).Nodup)
    (hfind : ∀ auction ∈ auctions, w.auctions.find auction.id = some auction) :
    Keeps (∀ auction ∈ auctions, auction.expireTime ≤ curTime + 60 →
      w.receiverExists config (recipient auction) = true) w
      (auctions.foldl (fun w auction => w.updateAuction config curTime auction) w) := by
  induction auctions generalizing w with
  | nil => exact .refl h _
  | cons first rest ih =>
    rw [map_cons, nodup_cons] at hnodup
    obtain ⟨hok, hsame⟩ := keeps_updateAuction config h (hfind first mem_cons_self) curTime
    have hothers : ∀ auction ∈ rest, (w.updateAuction config curTime first).auctions.find
        auction.id = some auction := by
      intro auction hmem
      rw [find_updateAuction curTime fun hid => hnodup.1 (hid ▸ mem_map_of_mem hmem)]
      exact hfind auction (mem_cons_of_mem first hmem)
    obtain ⟨hend, hrest⟩ := ih hok hnodup.2 hothers
    refine ⟨hend, ?_⟩
    intro hthere g
    rw [foldl_cons, hrest, hsame]
    · exact hthere first mem_cons_self
    · intro auction hmem
      rw [receiverExists_updateAuction]
      exact hthere auction (mem_cons_of_mem first hmem)

theorem keeps_updateHouse (h : ItemsOk w) (house : House) (curTime : Nat) :
    Keeps (∀ auction ∈ w.auctions.items, auction.house = house → auction.expireTime ≤ curTime + 60 →
        w.receiverExists config (recipient auction) = true) w
      (w.updateHouse config house curTime) := by
  obtain ⟨hok, hsame⟩ := keeps_updateAuctions config curTime
    (w.auctions.items.filter fun auction => auction.house = house) h
    (w.auctions.keys_nodup.sublist (filter_sublist.map _))
    fun auction hmem => find_key (mem_filter.mp hmem).1
  refine ⟨hok, fun hthere => hsame ?_⟩
  intro auction hmem
  obtain ⟨hin, hhouse⟩ := mem_filter.mp hmem
  exact hthere auction hin (of_decide_eq_true hhouse)

variable {auctions : List AuctionEntry}

theorem matched_putAuctions (h : Matched w)
    (hposted : ∀ auction ∈ auctions, ∃ posted, w.auctions.find auction.id = some posted ∧
      auction.itemGUIDLow = posted.itemGUIDLow) :
    Matched (w.putAuctions auctions) :=
  putAuctions_keeps AuctionEntry.itemGUIDLow Matched.putAuction h hposted

theorem derefAuctions_found {ids : List Nat} (h : w.derefAuctions ids = some auctions) :
    ∀ auction ∈ auctions, w.auctions.find auction.id = some auction := by
  unfold derefAuctions at h
  induction ids generalizing auctions with
  | nil =>
    cases h
    exact fun _ hmem => by cases hmem
  | cons id rest ih =>
    rw [mapM_cons] at h
    obtain ⟨first, hfirst, hrest⟩ := Option.bind_eq_some_iff.mp h
    obtain ⟨others, hothers, hsome⟩ := Option.bind_eq_some_iff.mp hrest
    cases hsome
    intro auction hmem
    cases mem_cons.mp hmem with
    | inl hself =>
      rw [hself, (find_eq_some.mp hfirst).2]
      exact hfirst
    | inr hin => exact ih hothers auction hin

/-- The deposits and the charges do not change what is auctioned. -/
theorem mem_charged {share totaldeposit taken : UInt64} (hmem : auction ∈ World.recordCharges taken
      (World.assignDeposits share totaldeposit auctions)) :
    ∃ posted ∈ auctions, posted.id = auction.id ∧ auction.itemGUIDLow = posted.itemGUIDLow := by
  obtain ⟨assigned, hassigned, charged, rfl⟩ := mem_recordCharges _ hmem
  obtain ⟨posted, hposted, deposit, rfl⟩ := mem_assignDeposits _ hassigned
  exact ⟨posted, hposted, rfl, rfl⟩

theorem keeps_batch (h : ItemsOk w) (auctions : List AuctionEntry)
    (hposted : ∀ auction ∈ auctions, ∃ posted, w.auctions.find auction.id = some posted ∧
      auction.itemGUIDLow = posted.itemGUIDLow) (pending : FlatSet PlayerAuctions.player) :
    Keeps True w { w.putAuctions auctions with pending } := by
  have hmatched := matched_putAuctions h.matched hposted
  have hweigh : ∀ g, weigh g { w.putAuctions auctions with pending } = weigh g w := by
    intro g
    rw [putAuctions_eq]
    rfl
  have hnext : ({ w.putAuctions auctions with pending } : World).nextItemGuid = w.nextItemGuid := by
    rw [putAuctions_eq]
  refine ⟨h.of_noNew ⟨fun g _ => le_of_eq (hweigh g), hnext⟩ ?_, fun _ => hweigh⟩
  exact ⟨hmatched.fresh, hmatched.listed, hmatched.owned, hmatched.one⟩

theorem keeps_putPlayer (h : ItemsOk w) (hfind : w.players.find player.guid = some player)
    {changed : Player} (hguid : changed.guid = player.guid)
    (hitems : changed.items = player.items) : Keeps True w (w.putPlayer changed) := by
  have hweigh : ∀ g, weigh g (w.putPlayer changed) = weigh g w := fun _ =>
    weigh_pay hfind hguid hitems
  refine ⟨h.of_noNew ⟨fun g _ => le_of_eq (hweigh g), rfl⟩ ?_, fun _ => hweigh⟩
  exact ⟨h.matched.fresh, h.matched.listed, h.matched.owned, h.matched.one⟩

theorem keeps_paidBatch (h : ItemsOk w) (auctions : List AuctionEntry)
    (hposted : ∀ auction ∈ auctions, ∃ posted, w.auctions.find auction.id = some posted ∧
      auction.itemGUIDLow = posted.itemGUIDLow) (pending : FlatSet PlayerAuctions.player)
    (hfind : w.players.find player.guid = some player) (amount : UInt64) :
    Keeps True w (({ w.putAuctions auctions with pending } : World).putPlayer
      (player.pay amount)) := by
  have hbatch := keeps_batch h auctions hposted pending
  have hpayer : ({ w.putAuctions auctions with pending } : World).players.find player.guid =
      some player := by
    rw [putAuctions_eq]
    exact hfind
  have hguid : (player.pay amount).guid = player.guid := rfl
  have hpaid := hbatch.trans (keeps_putPlayer hbatch.1 hpayer hguid rfl)
  rw [and_self] at hpaid
  exact hpaid

theorem keeps_updatePendingOf (h : ItemsOk w) {thisAH : PlayerAuctions}
    (hturn : w.updatePendingOf config now thisAH = some w') : Keeps True w w' := by
  unfold updatePendingOf at hturn
  cases hplayer : w.findConnectedPlayer thisAH.player with
  | none =>
    rw [hplayer] at hturn
    unfold expirePending at hturn
    dsimp only at hturn
    split at hturn
    · cases hturn
    rename_i auctions hderef
    cases hturn
    refine keeps_batch h _ ?_ _
    intro auction hmem
    obtain ⟨posted, hin, rfl⟩ := mem_map.mp hmem
    exact ⟨posted, derefAuctions_found hderef posted hin, rfl⟩
  | some player =>
    have hfind := (findConnectedPlayer_eq_some hplayer).1
    rw [hplayer] at hturn
    dsimp only at hturn
    split at hturn
    · unfold pendingAuctionProcess at hturn
      split at hturn
      · cases hturn
        exact .refl h _
      split at hturn
      · cases hturn
      · cases hturn
      rename_i first rest hderef
      cases hturn
      have hposted : ∀ taken, ∀ auction ∈ World.recordCharges taken (assignDeposits
          (UInt64.ofNat ((w.batchDeposit config first (first :: rest)).toNat /
            (first :: rest).length)) (w.batchDeposit config first (first :: rest))
          (first :: rest)), ∃ posted, w.auctions.find auction.id = some posted ∧
            auction.itemGUIDLow = posted.itemGUIDLow := by
        intro taken auction hmem
        obtain ⟨posted, hin, hid, hsame⟩ := mem_charged hmem
        refine ⟨posted, ?_, hsame⟩
        rw [← hid]
        exact derefAuctions_found hderef posted hin
      exact keeps_paidBatch h _ (hposted _) _ hfind _
    · cases hturn
      exact ⟨h.of_noNew ⟨fun _ _ => le_rfl, rfl⟩
        ⟨h.matched.fresh, h.matched.listed, h.matched.owned, h.matched.one⟩, fun _ _ => rfl⟩

theorem keeps_updatePendingAuctions (h : ItemsOk w)
    (hrun : w.updatePendingAuctions config now = some w') : Keeps True w w' := by
  unfold updatePendingAuctions at hrun
  generalize w.pending.items = lists at hrun
  induction lists generalizing w with
  | nil =>
    cases hrun
    exact .refl h _
  | cons thisAH rest ih =>
    obtain ⟨turned, hturn, hrest⟩ := Option.bind_eq_some_iff.mp hrun
    have hkept := keeps_updatePendingOf h hturn
    have hboth := hkept.trans (ih hkept.1 hrest)
    rw [and_self] at hboth
    exact hboth

/-- Whoever is to get the item of an auction that the call ends is there. A cancelled auction
is mailed in any case. -/
def ReceiversExist (config : AuctionConfig) (w : World) : AuctionCall → Prop
  | .placeBid guid packet => ∀ auction, w.Ends config (.placeBid guid packet) auction →
      w.receiverExists config guid = true
  | .update house curTime => ∀ auction, w.Ends config (.update house curTime) auction →
      w.receiverExists config (recipient auction) = true
  | _ => True

theorem keeps_call (h : ItemsOk w) (call : AuctionCall) (hcall : w.call config call = some w') :
    ItemsOk w' ∧ (ReceiversExist config w call → ∀ entry, units entry w' = units entry w) := by
  have hplayer : ∀ {guid}, _ → Keeps True w w' := fun {guid} hplayer =>
    @call_player config w w' _ guid call hplayer hcall (.refl h _) fun _ _ hfind hguid hitems _ =>
      keeps_putPlayer h hfind hguid hitems
  have hquiet : Keeps True w w' → ItemsOk w' ∧ (ReceiversExist config w call →
      ∀ entry, units entry w' = units entry w) := by
    intro hkept
    exact ⟨hkept.1, fun _ _ => hkept.2 trivial _⟩
  cases call with
  | sellItem player packet now =>
    cases hcall
    obtain ⟨hok, hunits⟩ := keeps_sellItem h player packet now
    exact ⟨hok, fun _ => hunits⟩
  | placeBid player packet =>
    cases hcall
    obtain ⟨hok, hsame⟩ := h.handleAuctionPlaceBid config player packet
    exact ⟨hok, fun hthere _ => hsame hthere _⟩
  | removeItem player packet =>
    cases hcall
    exact hquiet (h.handleAuctionRemoveItem player packet)
  | update house curTime =>
    cases hcall
    obtain ⟨hok, hsame⟩ := keeps_updateHouse h house curTime
    refine ⟨hok, fun hthere _ => hsame ?_ _⟩
    intro auction hmem hhouse hexpired
    exact hthere auction ⟨hmem, hhouse, hexpired⟩
  | updatePending now => exact hquiet (keeps_updatePendingAuctions h hcall)
  | spend player amount => exact hquiet (hplayer (.inl ⟨amount, rfl⟩))
  | login player => exact hquiet (hplayer (.inr (.inl rfl)))
  | logout player => exact hquiet (hplayer (.inr (.inr rfl)))

theorem sum_isGuid (guid : Nat) (items : List Item) :
    (items.map (isGuid guid)).sum = ((items.map Item.guid).count guid : ℤ) := by
  induction items with
  | nil => rfl
  | cons first rest ih =>
    rw [map_cons, sum_cons, ih, map_cons, count_cons, isGuid]
    by_cases hself : first.guid = guid
    · simp [hself]
      omega
    · simp [hself]

theorem objects_opening (h : w.Opening) (guid : Nat) : objects guid w =
    ((w.players.items.flatMap fun player => player.items.items.map Item.guid).count guid : ℤ) := by
  have hnothing : w.aItems.sum (isGuid guid) = 0 := by
    rw [FlatSet.sum, h.aItems]
    rfl
  rw [objects, weigh, hnothing, h.mails, FlatSet.sum]
  induction w.players.items with
  | nil => rfl
  | cons first rest ih =>
    rw [flatMap_cons, count_append, map_cons, sum_cons, FlatSet.sum, sum_isGuid]
    omega

theorem itemsOk_opening (h : w.Opening) : ItemsOk w where
  matched := by constructor <;> simp [h.auctions, h.aItems]
  single guid := by
    have hone := nodup_iff_count_le_one.mp h.distinct guid
    rw [objects_opening h]
    omega
  given guid hguid := by
    rw [objects_opening h, Nat.cast_eq_zero, count_eq_zero, mem_flatMap]
    rintro ⟨player, hplayer, hmem⟩
    obtain ⟨item, hitem, hsame⟩ := mem_map.mp hmem
    have hless := h.given player hplayer item hitem
    omega

theorem itemsOk_reachable (h : (auctionSystem config).Reachable w) : ItemsOk w := by
  apply h.invariant ItemsOk
  · intro w hopening
    exact itemsOk_opening hopening
  · intro call w w' hok hcall
    exact (keeps_call hok call hcall).1

/-- Every object is in one place at most, the items in auctions are those of the live auctions,
no call makes or loses a unit while the receivers are there, and a refused request changes
nothing. -/
theorem items_conserved (h : (auctionSystem config).Reachable w) :
    (∀ guid, objects guid w ≤ 1) ∧
    (∀ auction ∈ w.auctions.items, ∃ item ∈ w.aItems.items, item.guid = auction.itemGUIDLow) ∧
    (∀ item ∈ w.aItems.items, ∃! auction, auction ∈ w.auctions.items ∧
      auction.itemGUIDLow = item.guid) ∧
    (∀ call w', w.call config call = some w' → ReceiversExist config w call →
      ∀ entry, units entry w' = units entry w) ∧
    ∀ guid packet now, (w.handleAuctionSellItem config guid packet now).2 ≠ .ok →
      (w.handleAuctionSellItem config guid packet now).1 = w := by
  have hok := itemsOk_reachable h
  refine ⟨hok.single, hok.matched.listed, ?_, ?_, ?_⟩
  · intro item hmem
    obtain ⟨auction, hauction, hguid⟩ := hok.matched.owned item hmem
    refine ⟨auction, ⟨hauction, hguid⟩, ?_⟩
    intro other hother
    exact hok.matched.one other hother.1 auction hauction (hother.2.trans hguid.symm)
  · intro call w' hcall hthere
    exact (keeps_call hok call hcall).2 hthere
  · intro guid packet now hrefused
    exact sellItem_refused hrefused

def botConfig : AuctionConfig := { plainConfig with botCharacters := [2] }

def botPosted : World := (market.handleAuctionSellItem botConfig 1 sellStack 0).1

def botBought : World := (botPosted.handleAuctionPlaceBid botConfig 2 buyStack).1

theorem reachable_botPosted : (auctionSystem botConfig).Reachable botPosted :=
  .step (.sellItem 1 sellStack 0) (.init opening_market) rfl

/-- The buyer exists and is connected, and the five units are deleted. -/
theorem bot_loses_item :
    (auctionSystem botConfig).Reachable botPosted ∧
      botPosted.call botConfig (.placeBid 2 buyStack) = some botBought ∧
      (botPosted.findConnectedPlayer 2).isSome = true ∧
      units 100 botPosted = 5 ∧ units 100 botBought = 0 :=
  ⟨reachable_botPosted, rfl, by decide, by decide, by decide⟩

/-- The same purchase by a player. -/
theorem items_conserved_bought : units 100 soldStack = units 100 postedStack := by
  apply (items_conserved reachable_postedStack).2.2.2.1 (.placeBid 2 buyStack) soldStack rfl
  intro auction _
  decide

end LegionServer.Guarantees.PostedItems
