import LegionServer.Source.BlackMarket.BidEffects

/-!
# Bids of the black market

Each bid of a character that exists throughout still stands, or its amount came back in
one outbid mail, or its item came in one won mail, exactly as long as no auction of his is
deleted that is completed and whose won mail was not sent.
-/
namespace LegionServer.Guarantees.BlackMarketBids
open Library Source.BlackMarket List

structure Market where
  world : World Int
  clock : Int
  paid : List Bid

inductive Call where
  | bidOnItem (interacts : Bool) (player : Player) (marketId : Int32) (bidAmount : UInt64)
  | call (call : MarketCall)

structure TimedCall where
  now : Int
  characters : Characters
  call : Call

variable {catalogue : Catalogue} {characters : Characters} {s s' : Market} {l : TimedCall}
  {w : World Int} {ends : Int32 → Int} {now clock : Int} {g : UInt64} {bid : Bid}

def Market.run (catalogue : Catalogue) (s : Market) (l : TimedCall) : Market :=
  match l.call with
  | .bidOnItem interacts player marketId bidAmount =>
    let result := s.world.handleBlackMarketBidOnItem catalogue l.characters l.now interacts player
      marketId bidAmount
    { world := result.world
      clock := l.now
      paid := if result.result = some .ERR_BMAH_OK then
          s.paid ++ [⟨marketId, player.guid, player.money - result.money⟩]
        else s.paid }
  | .call call =>
    { s with world := s.world.run catalogue l.characters l.now call, clock := l.now }

/-- The runs of a market from its first start, with an empty table, at times that do not go back,
while a character exists. -/
def market (catalogue : Catalogue) (g : UInt64) : System Market TimedCall where
  init s := s.world = {} ∧ s.paid = []
  step l s s' := s.clock ≤ l.now ∧ l.characters.accountIdByGuid g ≠ 0 ∧ s' = s.run catalogue l

/-- Each bid that the character paid is matched by one thing: its auction in which it stands, the
mail that returns its amount or the mail with its item. -/
def Dues (g : UInt64) (s : Market) : Prop :=
  ∀ bid : Bid, bid.bidder = g → s.paid.count bid = s.world.settled bid

/-- Whenever auctions are refreshed or loaded, the won mail was sent of each completed auction that
the character has won. -/
def Collected (g : UInt64) (l : TimedCall) (s : Market) : Prop :=
  match l.call with
  | .call (.refreshAuctions _) | .call .loadAuctions | .call .restart =>
    ∀ entry ∈ s.world.mgr.auctions, entry.bidder = g →
      entry.isCompleted s.world.mgr.lastUpdate l.now = true → entry.mailSent = true
  | _ => True

section
variable (h : Tracked w ends) (hlisted : Listed catalogue w ends clock) (hnow : clock ≤ now)
include h hlisted hnow

theorem listed_update {updateTime : Bool} :
    Listed catalogue (w.update catalogue characters updateTime now) ends now where
  templates := by
    intro entry hentry
    obtain ⟨old, hold, rfl⟩ := mem_map.mp hentry
    rw [marketId_updateEntry]
    exact hlisted.templates old hold
  mailed := by
    intro entry hentry hsent
    obtain ⟨old, hold, rfl⟩ := mem_map.mp hentry
    rw [marketId_updateEntry]
    rw [mailSent_updateEntry, Bool.or_eq_true] at hsent
    rcases hsent with hsent | hmail
    · exact (hlisted.mailed old hold hsent).trans hnow
    · obtain ⟨mail, hmail⟩ := Option.isSome_iff_exists.mp hmail
      exact ((h.counts old hold).isCompleted (fits_int _)).mp (auctionWonMail_of_wonMail hmail).1

theorem listed_refreshAuctions (chosen : BlackMarketTemplate → Bool) :
    Listed catalogue (w.refreshAuctions catalogue characters chosen now)
      (endsAfterRefresh w catalogue chosen now ends) now := by
  have hdeleted : Tracked (w.deleteCompleted now) ends := h.deleteCompleted
  have hnodup : (_ ++ ((w.deleteCompleted now).newTemplates catalogue chosen).map
      BlackMarketTemplate.marketId).Nodup := nodup_newTemplates hdeleted chosen
  obtain ⟨hauctions, htracked⟩ := hdeleted.openAuctions now hnodup
  refine listed_update htracked ⟨?_, ?_⟩ hnow
  · intro entry hentry
    rw [hauctions, mem_append] at hentry
    rcases hentry with hkept | hopened
    · exact hlisted.templates entry (mem_of_mem_filter hkept)
    · obtain ⟨templat, htemplat, rfl⟩ := mem_map.mp hopened
      have hfound := KeyedRows.rowOf_of_mem catalogue.nodup (mem_of_mem_filter htemplat)
      exact Option.isSome_iff_exists.mpr ⟨templat, hfound⟩
  · intro entry hentry hsent
    rw [hauctions, mem_append] at hentry
    rcases hentry with hkept | hopened
    · rw [foldl_withAnnounced_of_not_mem fun hmem => (nodup_append.mp hnodup).2.2 _
        (mem_map_of_mem hkept) _ hmem rfl]
      exact hlisted.mailed entry (mem_of_mem_filter hkept) hsent
    · obtain ⟨templat, -, rfl⟩ := mem_map.mp hopened
      cases hsent

end

theorem listed_loadAuctions (hnodup : (w.rows.map AuctionRow.marketId).Nodup) :
    Listed catalogue (w.loadAuctions catalogue characters now) ends now where
  templates := by
    intro entry hentry
    rw [auctions_loadAuctions hnodup] at hentry
    obtain ⟨row, -, hload⟩ := mem_filterMap.mp hentry
    have hrow := eq_of_loadedAuction hload
    have hfound := (Option.filter_eq_some_iff.mp hload).1
    rw [BlackMarketEntry.loadFromDB] at hfound
    split at hfound
    · cases hfound
    · rename_i htempl
      rw [hrow]
      simpa [Option.isSome_iff_ne_none] using htempl
  mailed := by
    intro entry hentry hsent
    rw [auctions_loadAuctions hnodup] at hentry
    obtain ⟨row, -, hload⟩ := mem_filterMap.mp hentry
    rw [eq_of_loadedAuction hload] at hsent
    cases hsent

theorem listed_placeBid {entry : BlackMarketEntry Int} {amount : UInt64} {player : Player}
    {marketId : Int32} (h : Tracked w ends) (hlisted : Listed catalogue w ends clock)
    (hnow : clock ≤ now) (haccepted : Accepted w now player marketId amount entry) :
    entry.mailSent = false ∧ Tracked (w.placeBid catalogue characters now entry amount player).1
        (endsAfterBid ends entry.marketId now) ∧
      Listed catalogue (w.placeBid catalogue characters now entry amount player).1
        (endsAfterBid ends entry.marketId now) now := by
  have hruns : ¬ends entry.marketId ≤ now := by
    have := haccepted.runs
    rw [(h.counts entry haccepted.mem).getSecondsRemaining] at this
    simp only [toInt, ofInt] at this
    omega
  have hunsent : entry.mailSent = false := by
    rw [← Bool.not_eq_true]
    exact fun hsent => hruns ((hlisted.mailed entry haccepted.mem hsent).trans hnow)
  have htracked : Tracked (withBid w now entry amount player.guid)
      (endsAfterBid ends entry.marketId now) := h.withBid haccepted.mem (fits_int _) (fits_int _)
  refine ⟨hunsent, h.placeBid haccepted.mem haccepted.higher (fits_int _) (fits_int _), ?_⟩
  rw [placeBid_eq haccepted.higher]
  refine listed_update htracked ⟨?_, ?_⟩ hnow
  · intro e he
    obtain ⟨old, hold, rfl⟩ := mem_map.mp he
    split
    · exact hlisted.templates entry haccepted.mem
    · exact hlisted.templates old hold
  · intro e he hsent
    obtain ⟨old, hold, rfl⟩ := mem_map.mp he
    by_cases hid : old.marketId = entry.marketId
    · rw [if_pos (by exact hid)] at hsent
      rw [World.bidEntry, hunsent] at hsent
      cases hsent
    · rw [if_neg (by exact hid)] at hsent ⊢
      have hsame : endsAfterBid ends entry.marketId now old.marketId = ends old.marketId := by
        rw [endsAfterBid]
        split
        · rw [Function.update_of_ne hid]
        · rfl
      rw [hsame]
      exact hlisted.mailed old hold hsent

def TimedCall.deletes (l : TimedCall) (s : Market) : List (BlackMarketEntry Int) :=
  match l.call with
  | .call (.refreshAuctions _) | .call .loadAuctions | .call .restart => s.world.completed l.now
  | _ => []

def InOrder (catalogue : Catalogue) (s : Market) : Prop :=
  ∃ ends, Tracked s.world ends ∧ Listed catalogue s.world ends s.clock

theorem inOrder_init (h : (market catalogue g).init s) : InOrder catalogue s := by
  obtain ⟨world, clock, paid⟩ := s
  obtain ⟨rfl, -⟩ := h
  exact ⟨fun _ => 0, ⟨nodup_nil, rfl, fun _ h => absurd h not_mem_nil⟩,
    fun _ h => absurd h not_mem_nil, fun _ h => absurd h not_mem_nil⟩

/-- A bid that is paid is settled or stands, unless its auction is deleted. -/
theorem step_settled (hs : InOrder catalogue s) (hstep : (market catalogue g).step l s s') :
    InOrder catalogue s' ∧ ∀ bid : Bid, bid.bidder = g → s'.paid.count bid + s.world.settled bid =
        s.paid.count bid + s'.world.settled bid +
          countBy BlackMarketEntry.standing bid (l.deletes s) := by
  obtain ⟨ends, htracked, hlisted⟩ := hs
  obtain ⟨hclock, hexists, rfl⟩ := hstep
  obtain ⟨now, characters, call⟩ := l
  change s.clock ≤ now at hclock
  change characters.accountIdByGuid g ≠ 0 at hexists
  have hload : ∀ w' : World Int, w'.rows = s.world.rows → w'.mails = s.world.mails →
      (∃ ends, Tracked (w'.loadAuctions catalogue characters now) ends ∧
        Listed catalogue (w'.loadAuctions catalogue characters now) ends now) ∧
      ∀ bid : Bid, bid.bidder = g → s.paid.count bid + s.world.settled bid =
        s.paid.count bid + (w'.loadAuctions catalogue characters now).settled bid +
          countBy BlackMarketEntry.standing bid (s.world.completed now) := by
    intro w' hrows hmails
    have hnodup : (w'.rows.map AuctionRow.marketId).Nodup := hrows ▸ htracked.nodup_rows
    refine ⟨⟨ends, tracked_loadAuctions hnodup ?_, listed_loadAuctions hnodup⟩, ?_⟩
    · rw [hrows]
      exact fun row hrow => htracked.time_row hrow
    · rintro bid rfl
      have hsettled := settled_loadAuctions htracked
        ⟨hlisted.templates, fun e he hsent => (hlisted.mailed e he hsent).trans hclock⟩ hrows hmails
        (fun _ _ => fits_int _) hexists
      omega
  rcases call with ⟨interacts, player, marketId, amount⟩ | call
  · simp only [Market.run, TimedCall.deletes]
    rcases handleBid_cases s.world catalogue characters now interacts player marketId amount with
      ⟨hrefused, hworld⟩ | ⟨entry, haccepted, hresult⟩
    · rw [if_neg hrefused, hworld]
      exact ⟨⟨ends, htracked, hlisted.templates,
        fun e he hsent => (hlisted.mailed e he hsent).trans hclock⟩, fun bid _ => rfl⟩
    · have haccepted' : Accepted (s.world.withOutbidMail catalogue characters entry) now player
          marketId amount entry := ⟨haccepted.mem, haccepted.marketId, haccepted.higher,
            haccepted.small, haccepted.owns, haccepted.runs⟩
      obtain ⟨hunsent, htracked', hlisted'⟩ := listed_placeBid
        (w := s.world.withOutbidMail catalogue characters entry)
        ⟨htracked.nodup, htracked.rows, htracked.counts⟩ ⟨hlisted.templates, hlisted.mailed⟩ hclock
        haccepted'
      rw [hresult]
      refine ⟨⟨_, htracked', hlisted'⟩, ?_⟩
      rintro bid rfl
      have hsettled := settled_placeBid htracked (hlisted.templates entry haccepted.mem) hexists
        hunsent haccepted
      have hpaid : player.money - ((s.world.withOutbidMail catalogue characters entry).placeBid
          catalogue characters now entry amount player).2 = amount := paid_placeBid haccepted'
      simp only [if_true, hpaid, count_append]
      have hnone : countBy BlackMarketEntry.standing bid ([] : List (BlackMarketEntry Int)) = 0 := rfl
      omega
  · cases call with
    | update updateTime =>
      refine ⟨⟨ends, htracked.update, listed_update htracked hlisted hclock⟩, fun bid _ => ?_⟩
      simp only [Market.run, World.run, settled_update]
      rfl
    | refreshAuctions chosen =>
      refine ⟨⟨_, htracked.refreshAuctions chosen,
        listed_refreshAuctions htracked hlisted hclock chosen⟩, fun bid _ => ?_⟩
      have hsettled : (s.world.refreshAuctions catalogue characters chosen now).settled bid + _ = _ :=
        settled_refreshAuctions htracked chosen
      simp only [Market.run, World.run, TimedCall.deletes]
      omega
    | loadAuctions => exact hload s.world rfl rfl
    | restart => exact hload _ rfl rfl

theorem deletes_standing_iff (hg : g ≠ 0) :
    (∀ bid : Bid, bid.bidder = g → countBy BlackMarketEntry.standing bid (l.deletes s) = 0) ↔
      Collected g l s := by
  have hcompleted : (∀ bid : Bid, bid.bidder = g →
        countBy BlackMarketEntry.standing bid (s.world.completed l.now) = 0) ↔
      ∀ entry ∈ s.world.mgr.auctions, entry.bidder = g →
        entry.isCompleted s.world.mgr.lastUpdate l.now = true → entry.mailSent = true := by
    constructor
    · rintro hnone entry hentry rfl hcompleted
      by_contra hunsent
      rw [Bool.not_eq_true] at hunsent
      have hcount := hnone ⟨entry.marketId, entry.bidder, entry.currentBid⟩ rfl
      rw [countBy, count_eq_zero, mem_filterMap] at hcount
      exact hcount ⟨entry, mem_filter.mpr ⟨hentry, hcompleted⟩, if_pos ⟨hg, hunsent⟩⟩
    · rintro hcollected bid rfl
      rw [countBy, count_eq_zero, mem_filterMap]
      rintro ⟨entry, hentry, hstanding⟩
      obtain ⟨hentry, hcompleted⟩ := mem_filter.mp hentry
      rw [BlackMarketEntry.standing] at hstanding
      split at hstanding
      · rename_i hstands
        cases hstanding
        have hsent := hcollected entry hentry rfl hcompleted
        rw [hstands.2] at hsent
        cases hsent
      · cases hstanding
  obtain ⟨now, characters, call⟩ := l
  rcases call with _ | call
  · exact ⟨fun _ => trivial, fun _ _ _ => rfl⟩
  cases call with
  | update updateTime => exact ⟨fun _ => trivial, fun _ _ _ => rfl⟩
  | refreshAuctions chosen => exact hcompleted
  | loadAuctions => exact hcompleted
  | restart => exact hcompleted

theorem dues_step (hs : InOrder catalogue s) (hdues : Dues g s)
    (hstep : (market catalogue g).step l s s') : Dues g s' ↔ Collected g l s := by
  have hg : g ≠ 0 := by
    rintro rfl
    exact hstep.2.1 l.characters.accountIdByGuid_zero
  obtain ⟨-, hsettled⟩ := step_settled hs hstep
  rw [← deletes_standing_iff hg]
  constructor
  · intro hdues' bid hbid
    have hbefore := hdues bid hbid
    have hafter := hdues' bid hbid
    have hsum := hsettled bid hbid
    omega
  · intro hnone bid hbid
    have hbefore := hdues bid hbid
    have hsum := hsettled bid hbid
    rw [hnone bid hbid] at hsum
    omega

theorem inOrder_reachable (h : ((market catalogue g).guarded (Collected g)).Reachable s) :
    InOrder catalogue s ∧ Dues g s := by
  apply h.invariant fun s => InOrder catalogue s ∧ Dues g s
  · intro s (hinit : (market catalogue g).init s)
    refine ⟨inOrder_init hinit, fun bid _ => ?_⟩
    rw [hinit.1, hinit.2]
    rfl
  · rintro l s s' ⟨hs, hdues⟩ ⟨hcollected, hstep⟩
    exact ⟨(step_settled hs hstep).1, (dues_step hs hdues hstep).mpr hcollected⟩

/-- In every run in which no won auction of the character is deleted before its mail, each of his
bids is settled in each state; the first call that deletes one leaves a bid that is not. -/
theorem bids_settled (h : ((market catalogue g).guarded (Collected g)).Reachable s) :
    Dues g s ∧ ∀ {l s'}, (market catalogue g).step l s s' → (Dues g s' ↔ Collected g l s) := by
  obtain ⟨hs, hdues⟩ := inOrder_reachable h
  exact ⟨hdues, fun hstep => dues_step hs hdues hstep⟩

def buyer : Characters where
  connected guid := guid = 7
  accountIdByGuid guid := if guid = 7 then 1 else 0
  connected_zero := rfl
  accountIdByGuid_zero := rfl

def egg : BlackMarketTemplate where
  marketId := 1
  sellerNpc := 64515
  quantity := 1
  duration := 3600
  itemId := 32768
  bonusListIds := []

def onlyEgg : Catalogue where
  templates := [egg]
  nodup := by simp
  maxStackSize _ := 1

def closed : Market where
  world := {}
  clock := 0
  paid := []

def refresh (now : Int) : TimedCall where
  now := now
  characters := buyer
  call := .call (.refreshAuctions fun _ => true)

def buyerBids : TimedCall where
  now := 10
  characters := buyer
  call := .bidOnItem true { guid := 7, money := 50000 } 1 10000

def withBidOfBuyer : Market := (closed.run onlyEgg (refresh 0)).run onlyEgg buyerBids

theorem reachable_withBidOfBuyer :
    ((market onlyEgg 7).guarded (Collected 7)).Reachable withBidOfBuyer := by
  have hclosed : ((market onlyEgg 7).guarded (Collected 7)).Reachable closed := .init ⟨rfl, rfl⟩
  have hopened : ((market onlyEgg 7).guarded (Collected 7)).Reachable
      (closed.run onlyEgg (refresh 0)) :=
    .step (refresh 0) hclosed ⟨fun _ hentry => absurd hentry not_mem_nil, le_rfl, by decide, rfl⟩
  exact .step buyerBids hopened ⟨trivial, by decide, by decide, rfl⟩

theorem bids_settled_withBidOfBuyer : Dues 7 withBidOfBuyer ∧ ∀ {l s'},
    (market onlyEgg 7).step l withBidOfBuyer s' → (Dues 7 s' ↔ Collected 7 l withBidOfBuyer) :=
  bids_settled reachable_withBidOfBuyer

def AlwaysDues (catalogue : Catalogue) (g : UInt64) : Prop :=
  ∀ s, (market catalogue g).Reachable s → Dues g s

/-- The refresh in the second in which the auction ends deletes it before any update has seen its
winner. -/
theorem not_alwaysDues : ¬AlwaysDues onlyEgg 7 := by
  intro h
  have hreachable : (market onlyEgg 7).Reachable (withBidOfBuyer.run onlyEgg (refresh 3600)) :=
    .step (refresh 3600) reachable_withBidOfBuyer.of_guarded ⟨by decide, by decide, rfl⟩
  have hdue := h _ hreachable ⟨1, 7, 10000⟩ rfl
  revert hdue
  decide

end LegionServer.Guarantees.BlackMarketBids
