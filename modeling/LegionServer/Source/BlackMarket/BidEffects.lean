import LegionServer.Source.BlackMarket.MarketEffects

/-!
# What becomes of bids

A bid stands in the market, or a mail has returned its money, or a mail has delivered its item.
The calls move bids between these places.
-/
namespace LegionServer.Source.BlackMarket
open Library List Option KeyedRows

structure Bid where
  marketId : Int32
  bidder : UInt64
  amount : UInt64
  deriving DecidableEq, Repr

variable {S : Type} [Seconds S] {w : World S} {m : BlackMarketMgr S}
  {entry : BlackMarketEntry S} {catalogue : Catalogue} {characters : Characters} {now : Int}
  {updateTime interacts : Bool} {mail : Mail} {bid : Bid} {player : Player} {marketId : Int32}
  {amount : UInt64} {auctions : List (BlackMarketEntry S)} {ends : Int32 → Int}

def Mail.returned (mail : Mail) : Option Bid :=
  if mail.subject.response = .BMAH_AUCTION_OUTBID then
    some ⟨mail.subject.marketId, mail.receiver, mail.money⟩
  else none

def Mail.delivered (mail : Mail) : Option Bid :=
  if mail.subject.response = .BMAH_AUCTION_WON ∧ mail.item.isSome then
    some ⟨mail.subject.marketId, mail.receiver, mail.body.currentBid⟩
  else none

/-- The current bid of an auction whose won mail has not been sent. -/
def BlackMarketEntry.standing (entry : BlackMarketEntry S) : Option Bid :=
  if entry.bidder ≠ 0 ∧ entry.mailSent = false then
    some ⟨entry.marketId, entry.bidder, entry.currentBid⟩
  else none

def countBy {α : Type*} (f : α → Option Bid) (bid : Bid) (xs : List α) : Nat :=
  (xs.filterMap f).count bid

variable {α : Type*}

theorem countBy_append (f : α → Option Bid) (xs ys : List α) :
    countBy f bid (xs ++ ys) = countBy f bid xs + countBy f bid ys := by
  simp [countBy]

theorem countBy_cons (f : α → Option Bid) (x : α) (xs : List α) :
    countBy f bid (x :: xs) = (f x).toList.count bid + countBy f bid xs := by
  rw [countBy, countBy, filterMap_cons]
  cases f x with
  | none => simp
  | some b =>
    simp [count_cons, Nat.add_comm]

omit [Seconds S] in
/-- A won mail is the one that the source describes. -/
theorem eq_of_auctionWonMail (h : auctionWonMail catalogue characters entry = some mail) :
    entry.mailSent = false ∧ mail.returned = none ∧
      mail.delivered = some ⟨entry.marketId, entry.bidder, entry.currentBid⟩ := by
  rw [auctionWonMail] at h
  split at h
  · cases h
  rename_i hunsent
  split at h
  · cases h
  obtain ⟨templ, -, h⟩ := Option.bind_eq_some_iff.mp h
  obtain ⟨item, -, rfl⟩ := map_eq_some_iff.mp h
  exact ⟨by simpa using hunsent, rfl, rfl⟩

theorem auctionWonMail_of_wonMail (h : m.wonMail catalogue characters now entry = some mail) :
    entry.isCompleted m.lastUpdate now = true ∧ entry.bidder ≠ 0 ∧
      auctionWonMail catalogue characters entry = some mail := by
  rw [BlackMarketMgr.wonMail] at h
  split at h
  · rename_i hwon
    rw [Bool.and_eq_true_iff] at hwon
    exact ⟨hwon.1, by simpa using hwon.2, h⟩
  · cases h

section
variable (m : BlackMarketMgr S) (catalogue : Catalogue) (characters : Characters)
  (updateTime : Bool) (now : Int)

/-- A bid that leaves the market in `Update` is delivered. -/
theorem count_updateEntry (entry : BlackMarketEntry S) (bid : Bid) :
    (m.updateEntry catalogue characters updateTime now entry).standing.toList.count bid +
      ((m.wonMail catalogue characters now entry).bind Mail.delivered).toList.count bid =
    entry.standing.toList.count bid := by
  simp only [BlackMarketEntry.standing, marketId_updateEntry, currentBid_updateEntry,
    bidder_updateEntry, mailSent_updateEntry]
  cases hmail : m.wonMail catalogue characters now entry with
  | none => simp
  | some mail =>
    obtain ⟨-, hbidder, hwon⟩ := auctionWonMail_of_wonMail hmail
    obtain ⟨hunsent, -, hdelivered⟩ := eq_of_auctionWonMail hwon
    simp [hbidder, hunsent, hdelivered]

theorem countBy_update_auctions (auctions : List (BlackMarketEntry S)) (bid : Bid) :
    countBy BlackMarketEntry.standing bid
        (auctions.map (m.updateEntry catalogue characters updateTime now)) +
      countBy Mail.delivered bid (auctions.filterMap (m.wonMail catalogue characters now)) =
    countBy BlackMarketEntry.standing bid auctions := by
  induction auctions with
  | nil => rfl
  | cons entry auctions ih =>
    rw [map_cons, countBy_cons, countBy_cons, ← ih, filterMap_cons]
    have hentry := count_updateEntry m catalogue characters updateTime now entry bid
    cases hmail : m.wonMail catalogue characters now entry with
    | none =>
      simp only [hmail, bind_none, toList_none, count_nil] at hentry ⊢
      omega
    | some mail =>
      simp only [hmail, bind_some] at hentry
      simp only [countBy_cons]
      omega

end

/-- How often a bid is returned, delivered or still stands. -/
def World.settled (w : World S) (bid : Bid) : Nat :=
  countBy Mail.returned bid w.mails + countBy Mail.delivered bid w.mails +
    countBy BlackMarketEntry.standing bid w.mgr.auctions

theorem settled_update :
    (w.update catalogue characters updateTime now).settled bid = w.settled bid := by
  have hreturned : countBy Mail.returned bid
      (w.mgr.auctions.filterMap (w.mgr.wonMail catalogue characters now)) = 0 := by
    rw [countBy, filterMap_filterMap, filterMap_eq_nil_iff.mpr]
    · rfl
    · intro entry _
      cases hmail : w.mgr.wonMail catalogue characters now entry with
      | none => rfl
      | some mail => exact (eq_of_auctionWonMail (auctionWonMail_of_wonMail hmail).2.2).2.1
  have hdelivered := countBy_update_auctions w.mgr catalogue characters updateTime now
    w.mgr.auctions bid
  simp only [World.settled, World.update, countBy_append, hreturned]
  omega

theorem countBy_filter_add (f : α → Option Bid) (p : α → Bool) (xs : List α) (bid : Bid) :
    countBy f bid (xs.filter fun x => !p x) + countBy f bid (xs.filter p) = countBy f bid xs := by
  induction xs with
  | nil => rfl
  | cons x xs ih =>
    rw [filter_cons, filter_cons, countBy_cons, ← ih]
    cases p x <;> simp [countBy_cons] <;> omega

theorem countBy_opened (templates : List BlackMarketTemplate) :
    countBy BlackMarketEntry.standing bid (opened S templates) = 0 := by
  rw [countBy, filterMap_eq_nil_iff.mpr]
  · rfl
  · intro entry hentry
    obtain ⟨templat, -, rfl⟩ := mem_map.mp hentry
    rfl

theorem mails_openAuctions (templates : List BlackMarketTemplate) :
    (templates.foldl (World.openAuction now) w).mails = w.mails := by
  induction templates generalizing w with
  | nil => rfl
  | cons templat templates ih => exact ih

def World.completed (w : World S) (now : Int) : List (BlackMarketEntry S) :=
  w.mgr.auctions.filter (·.isCompleted w.mgr.lastUpdate now)

/-- `RefreshAuctions` loses the bids that stand in completed auctions. -/
theorem settled_refreshAuctions [LawfulSeconds S] (h : Tracked w ends)
    (chosen : BlackMarketTemplate → Bool) :
    (w.refreshAuctions catalogue characters chosen now).settled bid +
      countBy BlackMarketEntry.standing bid (w.completed now) = w.settled bid := by
  have hdeleted : Tracked (w.deleteCompleted now) ends := h.deleteCompleted
  have hopened : (((w.deleteCompleted now).newTemplates catalogue chosen).foldl
      (World.openAuction now) (w.deleteCompleted now)).mgr.auctions = _ :=
    (hdeleted.openAuctions now (nodup_newTemplates hdeleted chosen)).1
  have hkept := countBy_filter_add BlackMarketEntry.standing
    (fun e => e.isCompleted w.mgr.lastUpdate now) w.mgr.auctions bid
  rw [World.refreshAuctions, settled_update]
  simp only [World.settled, hopened, mails_openAuctions, countBy_append, countBy_opened]
  simp only [World.deleteCompleted, World.completed]
  omega

omit [Seconds S] in
theorem count_standing_of_ne (h : entry.bidder ≠ bid.bidder) :
    entry.standing.toList.count bid = 0 := by
  rw [count_eq_zero, BlackMarketEntry.standing]
  split
  · rw [toList_some, mem_singleton]
    exact fun heq => h (heq ▸ rfl)
  · exact not_mem_nil

/-- An existing bidder's auction is loaded again unless it is completed. -/
theorem count_loadedAuction [LawfulSeconds S] {D : Int} (bid : Bid) (hcounts : entry.Counts m.lastUpdate D)
    (hfits : Fits S (D - now)) (htempl : (catalogue.getTemplateById entry.marketId).isSome)
    (hexists : characters.accountIdByGuid bid.bidder ≠ 0)
    (hmailed : entry.mailSent = true → D ≤ now) :
    (((loadedAuction catalogue characters now (entry.rowAt D)).bind fun e : BlackMarketEntry S =>
        e.standing).toList.count bid) +
      (if entry.isCompleted m.lastUpdate now then entry.standing else none).toList.count bid =
    entry.standing.toList.count bid := by
  have hcompleted := hcounts.isCompleted hfits
  by_cases hbidder : entry.bidder = bid.bidder
  · have hload : BlackMarketEntry.loadFromDB catalogue characters now (entry.rowAt D) = some
        (⟨entry.marketId, entry.currentBid, entry.numBids, entry.bidder, ofInt (D - now), false⟩ :
          BlackMarketEntry S) := by
      rw [BlackMarketEntry.loadFromDB, if_neg (by simpa [BlackMarketEntry.rowAt, ← isSome_iff_ne_none] using htempl),
        if_neg (by simp [BlackMarketEntry.rowAt, hbidder, hexists])]
      rfl
    have hagain : (⟨entry.marketId, entry.currentBid, entry.numBids, entry.bidder, ofInt (D - now),
        false⟩ : BlackMarketEntry S).isCompleted now now = true ↔ D ≤ now :=
      BlackMarketEntry.Counts.isCompleted rfl hfits
    by_cases hended : D ≤ now
    · simp [loadedAuction, hload, Option.filter, hagain.mpr hended, hcompleted.mpr hended]
    have hunsent : entry.mailSent = false := by
      rw [← Bool.not_eq_true]
      exact fun hsent => hended (hmailed hsent)
    simp [loadedAuction, hload, Option.filter, mt hagain.mp hended, mt hcompleted.mp hended,
      BlackMarketEntry.standing, hunsent]
  · have hnone : ∀ e : BlackMarketEntry S,
        loadedAuction catalogue characters now (entry.rowAt D) = some e →
        e.standing.toList.count bid = 0 := by
      intro e he
      apply count_standing_of_ne
      rwa [eq_of_loadedAuction he]
    cases hload : (loadedAuction catalogue characters now (entry.rowAt D) :
        Option (BlackMarketEntry S)) with
    | none => split <;> simp [count_standing_of_ne hbidder]
    | some e => split <;> simp [count_standing_of_ne hbidder, hnone e hload]

/-- What the runs keep besides the ends: auctions have their templates, and the ones whose winner
has got his mail are completed. -/
structure Listed (catalogue : Catalogue) (w : World S) (ends : Int32 → Int) (clock : Int) : Prop
    where
  templates : ∀ entry ∈ w.mgr.auctions, (catalogue.getTemplateById entry.marketId).isSome
  mailed : ∀ entry ∈ w.mgr.auctions, entry.mailSent = true → ends entry.marketId ≤ clock

/-- `LoadAuctions` loses the bids of existing characters that stand in completed auctions. -/
theorem settled_loadAuctions [LawfulSeconds S] {w' : World S} (h : Tracked w ends)
    (hlisted : Listed catalogue w ends now) (hrows : w'.rows = w.rows) (hmails : w'.mails = w.mails)
    (hfits : ∀ entry ∈ w.mgr.auctions, Fits S (ends entry.marketId - now))
    (hexists : characters.accountIdByGuid bid.bidder ≠ 0) :
    (w'.loadAuctions catalogue characters now).settled bid +
      countBy BlackMarketEntry.standing bid (w.completed now) = w.settled bid := by
  have hauctions : (w'.loadAuctions catalogue characters now).mgr.auctions = _ :=
    auctions_loadAuctions (hrows ▸ h.nodup_rows)
  have hmails' : (w'.loadAuctions catalogue characters now).mails = w.mails := by
    rw [World.loadAuctions, ← hmails]
    split <;> rfl
  have hlist : ∀ auctions : List (BlackMarketEntry S), (∀ e ∈ auctions, e ∈ w.mgr.auctions) →
      countBy BlackMarketEntry.standing bid
          ((auctions.map fun e => e.rowAt (ends e.marketId)).filterMap
            (loadedAuction catalogue characters now) : List (BlackMarketEntry S)) +
        countBy BlackMarketEntry.standing bid
          (auctions.filter (·.isCompleted w.mgr.lastUpdate now)) =
      countBy BlackMarketEntry.standing bid auctions := by
    intro auctions hauctions
    induction auctions with
    | nil => rfl
    | cons entry auctions ih =>
      rw [forall_mem_cons] at hauctions
      have hentry := count_loadedAuction bid (h.counts entry hauctions.1)
        (hfits entry hauctions.1) (hlisted.templates entry hauctions.1) hexists
        (hlisted.mailed entry hauctions.1)
      have hrest := ih hauctions.2
      rw [map_cons, filterMap_cons, filter_cons, countBy_cons, ← hrest, ← hentry]
      cases (loadedAuction catalogue characters now (entry.rowAt (ends entry.marketId)) :
          Option (BlackMarketEntry S)) with
      | none =>
        cases entry.isCompleted w.mgr.lastUpdate now <;> simp [countBy_cons]
        omega
      | some e =>
        cases entry.isCompleted w.mgr.lastUpdate now <;> simp [countBy_cons] <;> omega
  simp only [World.settled, hauctions, hmails', hrows, h.rows]
  have hsum := hlist w.mgr.auctions fun e he => he
  simp only [World.completed]
  omega

structure Accepted (w : World S) (now : Int) (player : Player) (marketId : Int32) (amount : UInt64)
    (entry : BlackMarketEntry S) : Prop where
  mem : entry ∈ w.mgr.auctions
  marketId : entry.marketId = marketId
  higher : ¬amount < entry.currentBid
  small : amount < BMAH_MAX_BID
  owns : amount ≤ player.money
  runs : ¬toInt (entry.getSecondsRemaining w.mgr.lastUpdate now) ≤ 0

omit [Seconds S] in
theorem of_validateBid (h : entry.validateBid amount = true) :
    ¬amount < entry.currentBid ∧ amount < BMAH_MAX_BID := by
  rw [BlackMarketEntry.validateBid] at h
  split at h
  · cases h
  rename_i hhigher
  split at h
  · cases h
  split at h
  · cases h
  rename_i hsmall
  exact ⟨fun hlt => hhigher (UInt64.le_of_lt hlt), UInt64.not_le.mp hsmall⟩

/-- The world after `SendAuctionOutbidMail`. -/
def World.withOutbidMail (w : World S) (catalogue : Catalogue) (characters : Characters)
    (entry : BlackMarketEntry S) : World S :=
  { w with mails := w.mails ++ (auctionOutbidMail catalogue characters entry).toList }

theorem handleBid_cases (w : World S) (catalogue : Catalogue) (characters : Characters) (now : Int)
    (interacts : Bool) (player : Player) (marketId : Int32) (amount : UInt64) :
    let result := w.handleBlackMarketBidOnItem catalogue characters now interacts player marketId
      amount
    (result.result ≠ some .ERR_BMAH_OK ∧ result.world = w) ∨
      ∃ entry, Accepted w now player marketId amount entry ∧
        let placed := (w.withOutbidMail catalogue characters entry).placeBid catalogue characters now
          entry amount player
        result = ⟨some .ERR_BMAH_OK, placed.1, placed.2⟩ := by
  simp only [World.handleBlackMarketBidOnItem]
  split
  · exact .inl ⟨nofun, rfl⟩
  cases hfound : w.mgr.getAuctionById marketId with
  | none => exact .inl ⟨nofun, rfl⟩
  | some entry =>
    simp only
    split
    · exact .inl ⟨nofun, rfl⟩
    split
    · exact .inl ⟨nofun, rfl⟩
    rename_i hvalid
    split
    · exact .inl ⟨nofun, rfl⟩
    rename_i howns
    split
    · exact .inl ⟨nofun, rfl⟩
    rename_i hruns
    obtain ⟨hhigher, hsmall⟩ := of_validateBid (by simpa using hvalid)
    exact .inr ⟨entry, ⟨mem_rowOf hfound, key_rowOf hfound, hhigher, hsmall,
      UInt64.not_lt.mp howns, hruns⟩, rfl⟩

omit [Seconds S] in
/-- The mail to somebody who is outbid returns his bid. -/
theorem count_auctionOutbidMail (htempl : (catalogue.getTemplateById entry.marketId).isSome)
    (hexists : characters.accountIdByGuid bid.bidder ≠ 0) (hunsent : entry.mailSent = false) :
    ((auctionOutbidMail catalogue characters entry).bind Mail.returned).toList.count bid =
      entry.standing.toList.count bid := by
  obtain ⟨templ, htempl⟩ := isSome_iff_exists.mp htempl
  rw [auctionOutbidMail, htempl]
  by_cases hbidder : entry.bidder = bid.bidder
  · have hne : entry.bidder ≠ 0 := by
      rintro hzero
      rw [← hbidder, hzero, characters.accountIdByGuid_zero] at hexists
      exact hexists rfl
    rw [if_neg (by simp [hbidder, hexists]), BlackMarketEntry.standing, if_pos ⟨hne, hunsent⟩]
    rfl
  · rw [count_standing_of_ne hbidder]
    split
    · rfl
    rw [count_eq_zero]
    rintro hmem
    obtain rfl : bid = ⟨entry.marketId, entry.bidder, entry.currentBid⟩ :=
      mem_singleton.mp hmem
    exact hbidder rfl

omit [Seconds S] in
theorem delivered_auctionOutbidMail :
    (auctionOutbidMail catalogue characters entry).bind Mail.delivered = none := by
  rw [auctionOutbidMail]
  split
  · rfl
  · cases catalogue.getTemplateById entry.marketId <;> rfl

theorem countBy_toList (f : α → Option Bid) (x : Option α) :
    countBy f bid x.toList = (x.bind f).toList.count bid := by
  cases x with
  | none => rfl
  | some x => rw [toList_some, countBy_cons, bind_some]; rfl

theorem settled_placeBid (h : Tracked w ends)
    (htempl : (catalogue.getTemplateById entry.marketId).isSome)
    (hexists : characters.accountIdByGuid bid.bidder ≠ 0) (hunsent : entry.mailSent = false)
    (haccepted : Accepted w now player marketId amount entry) :
    ((w.withOutbidMail catalogue characters entry).placeBid catalogue characters now entry amount
      player).1.settled bid =
    w.settled bid + [(⟨marketId, player.guid, amount⟩ : Bid)].count bid := by
  rw [placeBid_eq haccepted.higher, settled_update]
  obtain ⟨before, after, hbefore, hafter⟩ := exists_replace h.nodup haccepted.mem
    (World.bidEntry entry w.mgr.lastUpdate now amount player.guid)
  have hstanding : (World.bidEntry entry w.mgr.lastUpdate now amount player.guid).standing.toList.count
      bid = [(⟨marketId, player.guid, amount⟩ : Bid)].count bid := by
    by_cases hplayer : player.guid = 0
    · have hne : (⟨marketId, player.guid, amount⟩ : Bid) ≠ bid := by
        rintro rfl
        rw [hplayer, characters.accountIdByGuid_zero] at hexists
        exact hexists rfl
      rw [count_standing_of_ne fun heq => hexists (by
        rw [← heq]
        exact hplayer ▸ characters.accountIdByGuid_zero)]
      exact (count_eq_zero.mpr fun hmem => hne (mem_singleton.mp hmem).symm).symm
    · simp [BlackMarketEntry.standing, World.bidEntry, hplayer, hunsent, haccepted.marketId]
  have hauctions : (withBid (w.withOutbidMail catalogue characters entry) now entry amount
      player.guid).mgr.auctions = before ++
        World.bidEntry entry w.mgr.lastUpdate now amount player.guid :: after := hafter
  simp only [World.settled, hauctions]
  simp only [withBid, World.withOutbidMail, hbefore, countBy_append, countBy_cons, countBy_toList, hstanding,
    delivered_auctionOutbidMail, count_auctionOutbidMail htempl hexists hunsent]
  simp only [toList_none, count_nil]
  omega

theorem paid_placeBid (haccepted : Accepted w now player marketId amount entry) :
    player.money - (w.placeBid catalogue characters now entry amount player).2 = amount := by
  have hsmall : amount ≤ Guilds.MAX_MONEY_AMOUNT :=
    UInt64.le_trans (UInt64.le_of_lt haccepted.small) (by decide)
  obtain ⟨rest, hrest, hsum⟩ := Guilds.modifyMoney_pay hsmall
    (UInt64.le_iff_toNat_le.mp haccepted.owns)
  rw [placeBid_eq haccepted.higher]
  simp only [hrest, getD_some]
  rw [← UInt64.toNat_inj, Guilds.toNat_sub_of_le (by omega)]
  omega

end LegionServer.Source.BlackMarket
