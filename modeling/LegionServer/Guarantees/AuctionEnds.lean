import LegionServer.Source.BlackMarket.MarketEffects

/-!
# The end of black market auctions

Each auction has one time at which it ends. It is announced when the auction is opened,
and only a bid in the last half hour moves it.
-/
namespace LegionServer.Guarantees.AuctionEnds
open Library Source.BlackMarket Function

structure Market where
  world : World UInt32
  clock : Int
  ends : Int32 → Int

inductive Call where
  | placeBid (marketId : Int32) (bid : UInt64) (player : Player)
  | call (call : MarketCall)

structure TimedCall where
  now : Int
  characters : Characters
  call : Call

variable {catalogue : Catalogue} {s s' : Market} {l : TimedCall} {entry : BlackMarketEntry UInt32}
  {now : Int}

def Market.run (catalogue : Catalogue) (s : Market) (l : TimedCall) : Market :=
  match l.call with
  | .placeBid marketId bid player =>
    match s.world.mgr.getAuctionById marketId with
    | none => { s with clock := l.now }
    | some entry =>
      { world := (s.world.placeBid catalogue l.characters l.now entry bid player).1
        clock := l.now
        ends := if bid < entry.currentBid then s.ends else endsAfterBid s.ends marketId l.now }
  | .call (.refreshAuctions chosen) =>
    { world := s.world.refreshAuctions catalogue l.characters chosen l.now
      clock := l.now
      ends := endsAfterRefresh s.world catalogue chosen l.now s.ends }
  | .call call =>
    { s with world := s.world.run catalogue l.characters l.now call, clock := l.now }

/-- The runs of a market from its first start, with an empty table, at times that do not go
back. -/
def market (catalogue : Catalogue) : System Market TimedCall where
  init s := s.world = {} ∧ ∀ id, s.ends id ≤ s.clock
  step l s s' := s.clock ≤ l.now ∧ s' = s.run catalogue l

def InTime (catalogue : Catalogue) (l : TimedCall) (s : Market) : Prop :=
  match l.call with
  | .call .loadAuctions | .call .restart => ∀ row ∈ s.world.rows,
    (BlackMarketEntry.loadFromDB catalogue l.characters l.now row :
      Option (BlackMarketEntry UInt32)).isSome → l.now ≤ s.ends row.marketId
  | _ => ∀ entry ∈ s.world.mgr.auctions, l.now ≤ s.ends entry.marketId

structure Promised (s : Market) (entry : BlackMarketEntry UInt32) (now : Int) : Prop where
  expires : entry.getExpirationTime s.world.mgr.lastUpdate now = s.ends entry.marketId
  remains : now < s.ends entry.marketId →
    toInt (entry.getSecondsRemaining s.world.mgr.lastUpdate now) = s.ends entry.marketId - now
  completes : entry.isCompleted s.world.mgr.lastUpdate now = true ↔ s.ends entry.marketId ≤ now

/-- What the runs keep: auctions count down to their ends, none of which is out of reach of the
count. -/
structure Counting (s : Market) : Prop where
  tracked : Tracked s.world s.ends
  reach : ∀ id, s.ends id < s.clock + 2 ^ 32

theorem counting_init (h : (market catalogue).init s) : Counting s := by
  obtain ⟨world, clock, ends⟩ := s
  obtain ⟨rfl, hends⟩ := h
  refine ⟨⟨List.nodup_nil, rfl, fun _ h => absurd h (List.not_mem_nil)⟩, fun id => ?_⟩
  have := hends id
  omega

theorem announced_lt (lastUpdate now : Int) (templat : BlackMarketTemplate) :
    announced UInt32 lastUpdate now templat < now + 2 ^ 32 := by
  rw [announced, BlackMarketEntry.getExpirationTime, BlackMarketEntry.getSecondsRemaining,
    UInt32.toInt_ofInt]
  omega

variable {ends : Int32 → Int}

theorem foldl_withAnnounced_lt {templates : List BlackMarketTemplate} {lastUpdate : Int}
    (h : ∀ id, ends id < now + 2 ^ 32) (id : Int32) :
    templates.foldl (withAnnounced UInt32 lastUpdate now) ends id < now + 2 ^ 32 := by
  induction templates generalizing ends with
  | nil => exact h id
  | cons templat templates ih =>
    apply ih
    intro id
    rw [withAnnounced, update_apply]
    split
    · exact announced_lt lastUpdate now templat
    · exact h id

theorem endsAfterBid_lt (h : ∀ id, ends id < now + 2 ^ 32) (marketId id : Int32) :
    endsAfterBid ends marketId now id < now + 2 ^ 32 := by
  rw [endsAfterBid]
  split
  · rename_i hlate
    rw [update_apply]
    split
    · simp only [MINUTE] at hlate ⊢
      omega
    · exact h id
  · exact h id

theorem le_endsAfterBid {marketId : Int32} (h : now ≤ ends marketId) :
    now ≤ endsAfterBid ends marketId now marketId := by
  rw [endsAfterBid]
  split
  · rw [update_self, MINUTE]
    omega
  · exact h

theorem counting_step (hs : Counting s) (hguard : InTime catalogue l s)
    (hstep : (market catalogue).step l s s') : Counting s' := by
  obtain ⟨hclock, rfl⟩ := hstep
  have hreach : ∀ id, s.ends id < l.now + 2 ^ 32 := fun id => by
    have := hs.reach id
    omega
  have hload : ∀ world : World UInt32, world.rows = s.world.rows →
      Tracked (world.loadAuctions catalogue l.characters l.now) s.ends := by
    intro world hrows
    apply tracked_loadAuctions
    · rw [hrows]
      exact hs.tracked.nodup_rows
    · rw [hrows]
      exact fun row hrow => hs.tracked.time_row hrow
  obtain ⟨now, characters, call⟩ := l
  rcases call with ⟨marketId, bid, player⟩ | call
  · simp only [Market.run]
    cases hfound : s.world.mgr.getAuctionById marketId with
    | none => exact ⟨hs.tracked, hreach⟩
    | some entry =>
      have hentry : entry ∈ s.world.mgr.auctions := KeyedRows.mem_rowOf hfound
      obtain rfl : entry.marketId = marketId := KeyedRows.key_rowOf hfound
      by_cases hbid : bid < entry.currentBid
      · simp only [World.placeBid, hbid, if_true]
        exact ⟨hs.tracked, hreach⟩
      have hnow := hguard entry hentry
      simp only [hbid, if_false]
      refine ⟨hs.tracked.placeBid hentry hbid ?_ ?_, endsAfterBid_lt hreach _⟩
      · rw [fits_uint32]
        have := hreach entry.marketId
        simp only at hnow this
        omega
      · rw [fits_uint32]
        have hle := le_endsAfterBid hnow
        have hlt := endsAfterBid_lt hreach entry.marketId entry.marketId
        simp only at hle hlt
        omega
  · cases call with
    | update updateTime => exact ⟨hs.tracked.update, hreach⟩
    | refreshAuctions chosen =>
      exact ⟨hs.tracked.refreshAuctions chosen, foldl_withAnnounced_lt hreach⟩
    | loadAuctions => exact ⟨hload s.world rfl, hreach⟩
    | restart => exact ⟨hload _ rfl, hreach⟩

theorem counting_reachable (h : ((market catalogue).guarded (InTime catalogue)).Reachable s) :
    Counting s := by
  apply h.invariant Counting
  · intro s (hinit : (market catalogue).init s)
    exact counting_init hinit
  · rintro l s s' hs ⟨hguard, hstep⟩
    exact counting_step hs hguard hstep

/-- In every state that calls in time lead to and at every later time, an auction is as its end
promises just where that time is not after the end. -/
theorem ends_as_announced (h : ((market catalogue).guarded (InTime catalogue)).Reachable s)
    (hentry : entry ∈ s.world.mgr.auctions) (hnow : s.clock ≤ now) :
    Promised s entry now ↔ now ≤ s.ends entry.marketId := by
  have hs := counting_reachable h
  have hcounts := hs.tracked.counts entry hentry
  have hreach := hs.reach entry.marketId
  constructor
  · intro hpromised
    have hexpires := hpromised.expires
    rw [BlackMarketEntry.getExpirationTime, hcounts.getSecondsRemaining, UInt32.toInt_ofInt]
      at hexpires
    omega
  · intro hle
    have hfits : Fits UInt32 (s.ends entry.marketId - now) := by
      rw [fits_uint32]
      omega
    refine ⟨hcounts.getExpirationTime hfits, fun _ => ?_, hcounts.isCompleted hfits⟩
    rw [hcounts.getSecondsRemaining]
    exact hfits

def nobody : Characters where
  connected _ := false
  accountIdByGuid _ := 0
  connected_zero := rfl
  accountIdByGuid_zero := rfl

def egg : BlackMarketTemplate where
  marketId := 1
  sellerNpc := 64515
  quantity := 1
  duration := 60
  itemId := 32768
  bonusListIds := []

def onlyEgg : Catalogue where
  templates := [egg]
  nodup := by simp
  maxStackSize _ := 1

def closed : Market where
  world := {}
  clock := 0
  ends _ := 0

def refresh : TimedCall where
  now := 0
  characters := nobody
  call := .call (.refreshAuctions fun _ => true)

def eggAuction : BlackMarketEntry UInt32 where
  marketId := 1
  secondsRemaining := 60

theorem reachable_egg : ((market onlyEgg).guarded (InTime onlyEgg)).Reachable
    (closed.run onlyEgg refresh) :=
  .step refresh (.init ⟨rfl, fun _ => le_rfl⟩) ⟨fun _ hentry => absurd hentry List.not_mem_nil, le_rfl, rfl⟩

theorem ends_as_announced_egg :
    Promised (closed.run onlyEgg refresh) eggAuction 60 ↔
      60 ≤ (closed.run onlyEgg refresh).ends 1 :=
  ends_as_announced reachable_egg (by decide) (by decide)

def AlwaysPromised (catalogue : Catalogue) : Prop :=
  ∀ s, (market catalogue).Reachable s → ∀ entry ∈ s.world.mgr.auctions, ∀ now, s.clock ≤ now →
    Promised s entry now

/-- One second after its end the auction is not completed, and it expires in 2106. -/
theorem not_alwaysPromised : ¬AlwaysPromised onlyEgg := by
  intro h
  have hpromised := h _ reachable_egg.of_guarded eggAuction (by decide) 61 (by decide)
  have hcompleted := hpromised.completes.mpr (by decide)
  revert hcompleted
  decide

end LegionServer.Guarantees.AuctionEnds
