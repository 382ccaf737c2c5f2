import LegionServer.Source.BlackMarket.BlackMarketMgr

/-!
# What the calls of the black market do

The time at which each auction ends, kept beside the market: the counted seconds and the rows of
the table follow it through every call.
-/
namespace LegionServer.Source.BlackMarket
open Library List Function KeyedRows

/-- Conversions to the type of the seconds may be made early. -/
class LawfulSeconds (S : Type) [Seconds S] : Prop where
  ofInt_toInt_add (i j : Int) : (ofInt (toInt (ofInt i : S) + j) : S) = ofInt (i + j)

theorem UInt32.toInt_ofInt (i : Int) : toInt (ofInt i : UInt32) = i % 2 ^ 32 := by
  simp only [toInt, ofInt, UInt32.toNat_ofNat']
  omega

instance : LawfulSeconds UInt32 where
  ofInt_toInt_add i j := by
    rw [UInt32.toInt_ofInt]
    simp only [ofInt]
    congr 2
    omega

instance : LawfulSeconds Int where
  ofInt_toInt_add _ _ := rfl

variable {S : Type} [Seconds S] {w : World S} {m : BlackMarketMgr S} {entry : BlackMarketEntry S}
  {catalogue : Catalogue} {characters : Characters} {ends : Int32 → Int} {now lastUpdate D : Int}
  {updateTime : Bool} {templat : BlackMarketTemplate}

theorem ofInt_toInt_sub [LawfulSeconds S] (i j : Int) :
    (ofInt (toInt (ofInt i : S) - j) : S) = ofInt (i - j) :=
  LawfulSeconds.ofInt_toInt_add i (-j)

def Fits (S : Type) [Seconds S] (i : Int) : Prop := toInt (ofInt i : S) = i

theorem fits_int (i : Int) : Fits Int i := rfl

theorem fits_uint32 {i : Int} : Fits UInt32 i ↔ 0 ≤ i ∧ i < 2 ^ 32 := by
  rw [Fits, UInt32.toInt_ofInt]
  omega

namespace BlackMarketEntry

def rowAt (entry : BlackMarketEntry S) (time : Int) : AuctionRow where
  marketId := entry.marketId
  currentBid := entry.currentBid
  time := time
  numBids := entry.numBids
  bidder := entry.bidder

/-- The counted seconds are those from the last update to a time. -/
def Counts (entry : BlackMarketEntry S) (lastUpdate D : Int) : Prop :=
  entry.secondsRemaining = ofInt (D - lastUpdate)

theorem Counts.getSecondsRemaining [LawfulSeconds S] (h : entry.Counts lastUpdate D) (now : Int) :
    entry.getSecondsRemaining lastUpdate now = ofInt (D - now) := by
  rw [BlackMarketEntry.getSecondsRemaining, h, ofInt_toInt_sub]
  congr 1
  omega

theorem Counts.isCompleted [LawfulSeconds S] (h : entry.Counts lastUpdate D)
    (hfits : Fits S (D - now)) :
    entry.isCompleted lastUpdate now = true ↔ D ≤ now := by
  rw [BlackMarketEntry.isCompleted, h.getSecondsRemaining, hfits]
  simp

theorem Counts.getExpirationTime [LawfulSeconds S] (h : entry.Counts lastUpdate D)
    (hfits : Fits S (D - now)) :
    entry.getExpirationTime lastUpdate now = D := by
  rw [BlackMarketEntry.getExpirationTime, h.getSecondsRemaining, hfits]
  omega

end BlackMarketEntry

structure Tracked (w : World S) (ends : Int32 → Int) : Prop where
  nodup : (w.mgr.auctions.map BlackMarketEntry.marketId).Nodup
  rows : w.rows = w.mgr.auctions.map fun entry => entry.rowAt (ends entry.marketId)
  counts : ∀ entry ∈ w.mgr.auctions, entry.Counts w.mgr.lastUpdate (ends entry.marketId)

theorem Tracked.nodup_rows (h : Tracked w ends) : (w.rows.map AuctionRow.marketId).Nodup := by
  rw [h.rows, map_map]
  exact h.nodup

@[simp] theorem marketId_updateEntry :
    (m.updateEntry catalogue characters updateTime now entry).marketId = entry.marketId := by
  cases updateTime <;> rfl

@[simp] theorem currentBid_updateEntry :
    (m.updateEntry catalogue characters updateTime now entry).currentBid = entry.currentBid := by
  cases updateTime <;> rfl

@[simp] theorem bidder_updateEntry :
    (m.updateEntry catalogue characters updateTime now entry).bidder = entry.bidder := by
  cases updateTime <;> rfl

@[simp] theorem mailSent_updateEntry :
    (m.updateEntry catalogue characters updateTime now entry).mailSent =
      (entry.mailSent || (m.wonMail catalogue characters now entry).isSome) := by
  cases updateTime <;> rfl

theorem rowAt_updateEntry (time : Int) :
    (m.updateEntry catalogue characters updateTime now entry).rowAt time = entry.rowAt time := by
  cases updateTime <;> rfl

theorem counts_updateEntry [LawfulSeconds S] (h : entry.Counts m.lastUpdate D) :
    (m.updateEntry catalogue characters updateTime now entry).Counts
      (if updateTime then now else m.lastUpdate) D := by
  cases updateTime with
  | false => exact h
  | true => exact h.getSecondsRemaining now

theorem map_marketId_update :
    (w.update catalogue characters updateTime now).mgr.auctions.map BlackMarketEntry.marketId =
      w.mgr.auctions.map BlackMarketEntry.marketId := by
  simp [World.update, comp_def]

theorem Tracked.update [LawfulSeconds S] (h : Tracked w ends) :
    Tracked (w.update catalogue characters updateTime now) ends where
  nodup := by rw [map_marketId_update]; exact h.nodup
  rows := by simp [World.update, h.rows, comp_def, rowAt_updateEntry]
  counts := by
    intro entry hentry
    obtain ⟨old, hold, rfl⟩ := mem_map.mp hentry
    rw [marketId_updateEntry]
    exact counts_updateEntry (h.counts old hold)

theorem Tracked.deleteCompleted (h : Tracked w ends) : Tracked (w.deleteCompleted now) ends where
  nodup := h.nodup.sublist (filter_sublist.map _)
  rows := by
    have hcompleted : ∀ entry ∈ w.mgr.auctions, (entry.marketId ∉ (w.mgr.auctions.filter
          (·.isCompleted w.mgr.lastUpdate now)).map (·.marketId)) =
        (entry.isCompleted w.mgr.lastUpdate now = false) := by
      intro entry hentry
      have := filter_keys_notMem (p := fun e => e.isCompleted w.mgr.lastUpdate now) h.nodup
      have hmem := congrArg (entry ∈ ·) this
      simp only [mem_filter, hentry, true_and, decide_eq_true_eq, Bool.not_eq_true'] at hmem
      exact hmem
    simp only [World.deleteCompleted, deleteRows, h.rows, filter_map]
    congr 1
    apply filter_congr
    intro entry hentry
    simp only [comp_apply, BlackMarketEntry.rowAt, hcompleted entry hentry]
    cases entry.isCompleted w.mgr.lastUpdate now <;> rfl
  counts entry hentry := h.counts entry (mem_of_mem_filter hentry)

/-- The end of a new auction, as its row announces it. -/
def announced (S : Type) [Seconds S] (lastUpdate now : Int) (templat : BlackMarketTemplate) : Int :=
  (.initializeEntry templat.marketId (ofInt templat.duration) :
    BlackMarketEntry S).getExpirationTime lastUpdate now

def withAnnounced (S : Type) [Seconds S] (lastUpdate now : Int) (ends : Int32 → Int)
    (templat : BlackMarketTemplate) : Int32 → Int :=
  Function.update ends templat.marketId (announced S lastUpdate now templat)

variable {templates : List BlackMarketTemplate}

theorem foldl_withAnnounced_of_not_mem {marketId : Int32}
    (h : marketId ∉ templates.map BlackMarketTemplate.marketId) :
    templates.foldl (withAnnounced S lastUpdate now) ends marketId = ends marketId := by
  induction templates generalizing ends with
  | nil => rfl
  | cons templat templates ih =>
    rw [map_cons, mem_cons, not_or] at h
    rw [foldl_cons, ih h.2, withAnnounced, update_of_ne h.1]

theorem counts_announced [LawfulSeconds S] :
    (.initializeEntry templat.marketId (ofInt templat.duration) : BlackMarketEntry S).Counts
      lastUpdate (withAnnounced S lastUpdate now ends templat templat.marketId) := by
  rw [withAnnounced, update_self, announced, BlackMarketEntry.getExpirationTime,
    BlackMarketEntry.getSecondsRemaining, BlackMarketEntry.Counts]
  simp only [BlackMarketEntry.initializeEntry]
  rw [ofInt_toInt_sub, add_comm, add_sub_assoc, LawfulSeconds.ofInt_toInt_add]
  congr 1
  omega

theorem Tracked.openAuction [LawfulSeconds S] (h : Tracked w ends) (now : Int)
    (hnew : templat.marketId ∉ w.mgr.auctions.map BlackMarketEntry.marketId) :
    (w.openAuction now templat).mgr.auctions = w.mgr.auctions ++
        [.initializeEntry templat.marketId (ofInt templat.duration)] ∧
      Tracked (w.openAuction now templat) (withAnnounced S w.mgr.lastUpdate now ends templat) := by
  have hne : ∀ entry ∈ w.mgr.auctions, entry.marketId ≠ templat.marketId :=
    fun entry hentry heq => hnew (heq ▸ mem_map_of_mem hentry)
  have hauctions : (w.openAuction now templat).mgr.auctions = w.mgr.auctions ++
      [.initializeEntry templat.marketId (ofInt templat.duration)] := by
    simp only [World.openAuction, BlackMarketMgr.addAuction, BlackMarketEntry.initializeEntry]
    rw [filter_eq_self.mpr]
    exact fun entry hentry => decide_eq_true (hne entry hentry)
  refine ⟨hauctions, ?_, ?_, ?_⟩
  · rw [hauctions, map_append, nodup_append]
    refine ⟨h.nodup, by simp, ?_⟩
    simpa [BlackMarketEntry.initializeEntry] using hne
  · have hrows : templat.marketId ∉ w.rows.map AuctionRow.marketId := by
      rw [h.rows, map_map]
      exact hnew
    have hinserted : (w.openAuction now templat).rows = w.rows ++
        [(BlackMarketEntry.initializeEntry templat.marketId (ofInt templat.duration) :
          BlackMarketEntry S).saveToDB w.mgr.lastUpdate now] := if_neg hrows
    rw [hauctions, hinserted, h.rows, map_append]
    congr 1
    · apply map_congr_left
      intro entry hentry
      rw [withAnnounced, update_of_ne (hne entry hentry)]
    · simp [withAnnounced, BlackMarketEntry.rowAt, announced, BlackMarketEntry.initializeEntry,
        BlackMarketEntry.saveToDB]
  · intro entry hentry
    rw [hauctions, mem_append, mem_singleton] at hentry
    rcases hentry with hentry | rfl
    · rw [withAnnounced, update_of_ne (hne entry hentry)]
      exact h.counts entry hentry
    · exact counts_announced

def opened (S : Type) [Seconds S] (templates : List BlackMarketTemplate) :
    List (BlackMarketEntry S) :=
  templates.map fun t => .initializeEntry t.marketId (ofInt t.duration)

theorem Tracked.openAuctions [LawfulSeconds S] (h : Tracked w ends) (now : Int)
    (hnew : (w.mgr.auctions.map BlackMarketEntry.marketId ++
      templates.map BlackMarketTemplate.marketId).Nodup) :
    (templates.foldl (World.openAuction now) w).mgr.auctions = w.mgr.auctions ++ opened S templates ∧
      Tracked (templates.foldl (World.openAuction now) w)
        (templates.foldl (withAnnounced S w.mgr.lastUpdate now) ends) := by
  induction templates generalizing w ends with
  | nil => exact ⟨(append_nil _).symm, h⟩
  | cons templat templates ih =>
    have hnotMem : templat.marketId ∉ w.mgr.auctions.map BlackMarketEntry.marketId := by
      intro hmem
      exact (nodup_append.mp hnew).2.2 _ hmem _ mem_cons_self rfl
    obtain ⟨hauctions, htracked⟩ := h.openAuction now hnotMem
    have hrest := ih htracked (by
      rw [hauctions, map_append, append_assoc]
      exact hnew)
    rw [foldl_cons, foldl_cons, hrest.1, hauctions, append_assoc]
    exact ⟨rfl, hrest.2⟩

theorem nodup_newTemplates (h : Tracked w ends) (chosen : BlackMarketTemplate → Bool) :
    (w.mgr.auctions.map BlackMarketEntry.marketId ++
      (w.newTemplates catalogue chosen).map BlackMarketTemplate.marketId).Nodup := by
  rw [nodup_append]
  refine ⟨h.nodup, catalogue.nodup.sublist (filter_sublist.map _), ?_⟩
  rintro _ hmem _ hnew rfl
  obtain ⟨templat, htemplat, hid⟩ := mem_map.mp hnew
  have hnone := (Bool.and_eq_true_iff.mp (mem_filter.mp htemplat).2).1
  rw [Option.isNone_iff_eq_none, BlackMarketMgr.getAuctionById, rowOf_eq_none] at hnone
  exact hnone (hid ▸ hmem)

/-- The ends of the auctions after `RefreshAuctions`. -/
def endsAfterRefresh (w : World S) (catalogue : Catalogue) (chosen : BlackMarketTemplate → Bool)
    (now : Int) (ends : Int32 → Int) : Int32 → Int :=
  ((w.deleteCompleted now).newTemplates catalogue chosen).foldl
    (withAnnounced S w.mgr.lastUpdate now) ends

theorem Tracked.refreshAuctions [LawfulSeconds S] (h : Tracked w ends)
    (chosen : BlackMarketTemplate → Bool) :
    Tracked (w.refreshAuctions catalogue characters chosen now)
      (endsAfterRefresh w catalogue chosen now ends) :=
  (h.deleteCompleted.openAuctions now (nodup_newTemplates h.deleteCompleted chosen)).2.update

/-- The auction that `LoadAuctions` makes of a row and keeps. -/
def loadedAuction (catalogue : Catalogue) (characters : Characters) (now : Int)
    (row : AuctionRow) : Option (BlackMarketEntry S) :=
  (BlackMarketEntry.loadFromDB catalogue characters now row).filter
    fun auction => !auction.isCompleted now now

variable {row : AuctionRow}

theorem eq_of_loadFromDB
    (h : BlackMarketEntry.loadFromDB catalogue characters lastUpdate row = some entry) :
    entry = ⟨row.marketId, row.currentBid, row.numBids, row.bidder, ofInt (row.time - lastUpdate),
      false⟩ := by
  rw [BlackMarketEntry.loadFromDB] at h
  split at h
  · cases h
  split at h
  · cases h
  exact (Option.some.inj h).symm

theorem eq_of_loadedAuction (h : loadedAuction catalogue characters now row = some entry) :
    entry = ⟨row.marketId, row.currentBid, row.numBids, row.bidder, ofInt (row.time - now), false⟩ :=
  eq_of_loadFromDB (Option.filter_eq_some_iff.mp h).1

variable {rows : List AuctionRow}

theorem foldl_loadRow (auctions : List (BlackMarketEntry S)) {deleted : List Int32}
    (hnodup : (auctions.map BlackMarketEntry.marketId ++ rows.map AuctionRow.marketId).Nodup) :
    rows.foldl (BlackMarketMgr.loadRow catalogue characters now) (⟨auctions, now⟩, deleted) =
      (⟨auctions ++ rows.filterMap (loadedAuction catalogue characters now), now⟩,
        deleted ++ (rows.filter fun row =>
          (loadedAuction catalogue characters now row : Option (BlackMarketEntry S)).isNone).map
            AuctionRow.marketId) := by
  induction rows generalizing auctions deleted with
  | nil => simp
  | cons row rows ih =>
    have hrow : row.marketId ∉ auctions.map BlackMarketEntry.marketId :=
      fun hmem => (nodup_append.mp hnodup).2.2 _ hmem _ mem_cons_self rfl
    have hrest := hnodup.sublist (List.Sublist.append_left (sublist_cons_self _ _) _)
    rw [foldl_cons, filterMap_cons, filter_cons, BlackMarketMgr.loadRow]
    cases hload : (BlackMarketEntry.loadFromDB catalogue characters now row :
        Option (BlackMarketEntry S)) with
    | none =>
      have hnone : (loadedAuction catalogue characters now row : Option (BlackMarketEntry S)) =
          none := by rw [loadedAuction, hload]; rfl
      simp [hnone, ih auctions hrest]
    | some auction =>
      have hid : auction.marketId = row.marketId := by rw [eq_of_loadFromDB hload]
      by_cases hcompleted : auction.isCompleted now now = true
      · have hnone : (loadedAuction catalogue characters now row : Option (BlackMarketEntry S)) =
            none := by simp [loadedAuction, hload, Option.filter, hcompleted]
        simp [hnone, hcompleted, ih auctions hrest]
      · have hsome : (loadedAuction catalogue characters now row : Option (BlackMarketEntry S)) =
            some auction := by simp [loadedAuction, hload, Option.filter, hcompleted]
        have hadd : BlackMarketMgr.addAuction ⟨auctions, now⟩ auction = ⟨auctions ++ [auction], now⟩ := by
          rw [BlackMarketMgr.addAuction, filter_eq_self.mpr]
          intro entry hentry
          exact decide_eq_true fun heq => hrow (hid ▸ heq ▸ mem_map_of_mem hentry)
        have hnodup' : ((auctions ++ [auction]).map BlackMarketEntry.marketId ++
            rows.map AuctionRow.marketId).Nodup := by
          rw [map_append, map_singleton, hid, append_assoc]
          exact hnodup
        simp [hsome, hcompleted, hadd, ih (auctions ++ [auction]) hnodup']

theorem auctions_loadAuctions (hnodup : (w.rows.map AuctionRow.marketId).Nodup) :
    (w.loadAuctions catalogue characters now).mgr.auctions =
      w.rows.filterMap (loadedAuction catalogue characters now) := by
  rw [World.loadAuctions]
  split
  · rename_i hempty
    simp [List.isEmpty_iff.mp hempty]
  · simp only [foldl_loadRow ([] : List (BlackMarketEntry S)) hnodup]
    rfl

theorem rows_loadAuctions (hnodup : (w.rows.map AuctionRow.marketId).Nodup) :
    (w.loadAuctions catalogue characters now).rows = w.rows.filter fun row =>
      (loadedAuction catalogue characters now row : Option (BlackMarketEntry S)).isSome := by
  rw [World.loadAuctions]
  split
  · rename_i hempty
    simp [List.isEmpty_iff.mp hempty]
  · simp only [foldl_loadRow ([] : List (BlackMarketEntry S)) hnodup,
      nil_append, deleteRows, filter_keys_notMem hnodup]
    simp

/-- What `LoadAuctions` keeps of rows that tell when their auctions end. -/
theorem map_rowAt_loaded (hends : ∀ row ∈ rows, row.time = ends row.marketId) :
    (rows.filterMap (loadedAuction catalogue characters now) : List (BlackMarketEntry S)).map
        (fun entry => entry.rowAt (ends entry.marketId)) =
      rows.filter fun row =>
        (loadedAuction catalogue characters now row : Option (BlackMarketEntry S)).isSome := by
  induction rows with
  | nil => rfl
  | cons row rows ih =>
    rw [forall_mem_cons] at hends
    rw [filterMap_cons, filter_cons]
    cases hload : (loadedAuction catalogue characters now row : Option (BlackMarketEntry S)) with
    | none => simpa using ih hends.2
    | some auction =>
      have hrow : auction.rowAt (ends auction.marketId) = row := by
        rw [eq_of_loadedAuction hload, BlackMarketEntry.rowAt, ← hends.1]
      simpa [hrow] using ih hends.2

theorem Tracked.time_row (h : Tracked w ends) (hrow : row ∈ w.rows) :
    row.time = ends row.marketId := by
  rw [h.rows] at hrow
  obtain ⟨entry, -, rfl⟩ := mem_map.mp hrow
  rfl

theorem tracked_loadAuctions (hnodup : (w.rows.map AuctionRow.marketId).Nodup)
    (hends : ∀ row ∈ w.rows, row.time = ends row.marketId) :
    Tracked (w.loadAuctions catalogue characters now) ends where
  nodup := by
    have hids : (w.loadAuctions catalogue characters now).mgr.auctions.map
        BlackMarketEntry.marketId = (w.loadAuctions catalogue characters now).rows.map
          AuctionRow.marketId := by
      rw [auctions_loadAuctions hnodup, rows_loadAuctions hnodup, ← map_rowAt_loaded hends, map_map]
      rfl
    rw [hids, rows_loadAuctions hnodup]
    exact hnodup.sublist (filter_sublist.map _)
  rows := by
    rw [auctions_loadAuctions hnodup, rows_loadAuctions hnodup, map_rowAt_loaded hends]
  counts := by
    intro entry hentry
    rw [auctions_loadAuctions hnodup] at hentry
    obtain ⟨row, hrow, hload⟩ := mem_filterMap.mp hentry
    have hlast : (w.loadAuctions catalogue characters now).mgr.lastUpdate = now := by
      rw [World.loadAuctions, if_neg (by simpa using ne_nil_of_mem hrow)]
      simp only [foldl_loadRow ([] : List (BlackMarketEntry S)) hnodup]
    rw [hlast, eq_of_loadedAuction hload, BlackMarketEntry.Counts, hends row hrow]

/-- The ends of the auctions after a bid: less than half an hour before its end, an auction ends
half an hour later. -/
def endsAfterBid (ends : Int32 → Int) (marketId : Int32) (now : Int) : Int32 → Int :=
  if ends marketId - now < 30 * MINUTE then
    Function.update ends marketId (ends marketId + 30 * MINUTE)
  else ends

theorem counts_bidEntry [LawfulSeconds S] (bid guid : UInt64)
    (hcounts : entry.Counts lastUpdate (ends entry.marketId))
    (hfits : Fits S (ends entry.marketId - now)) :
    (World.bidEntry entry lastUpdate now bid guid).Counts lastUpdate
      (endsAfterBid ends entry.marketId now entry.marketId) := by
  have hlate : toInt (entry.getSecondsRemaining lastUpdate now) = ends entry.marketId - now := by
    rw [hcounts.getSecondsRemaining]
    exact hfits
  simp only [BlackMarketEntry.Counts, World.bidEntry, endsAfterBid, hlate]
  split
  · rw [update_self, hcounts, LawfulSeconds.ofInt_toInt_add]
    congr 1
    omega
  · exact hcounts

/-- The world of `PlaceBid` before it updates the market. -/
def withBid (w : World S) (now : Int) (entry : BlackMarketEntry S) (bid guid : UInt64) : World S :=
  let entry := World.bidEntry entry w.mgr.lastUpdate now bid guid
  { w with
    mgr.auctions := w.mgr.auctions.map fun (e : BlackMarketEntry S) =>
      if e.marketId = entry.marketId then entry else e
    rows := updateRow w.rows (entry.saveToDB w.mgr.lastUpdate now) }

theorem placeBid_eq {bid : UInt64} {player : Player} (h : ¬bid < entry.currentBid) :
    w.placeBid catalogue characters now entry bid player =
      ((withBid w now entry bid player.guid).update catalogue characters true now,
        (Guilds.modifyMoney player.money (-bid.toInt64)).getD player.money) := by
  rw [World.placeBid, if_neg h]
  rfl

theorem Tracked.withBid [LawfulSeconds S] {bid guid : UInt64} (h : Tracked w ends)
    (hentry : entry ∈ w.mgr.auctions) (hfits : Fits S (ends entry.marketId - now))
    (hfits' : Fits S (endsAfterBid ends entry.marketId now entry.marketId - now)) :
    Tracked (withBid w now entry bid guid) (endsAfterBid ends entry.marketId now) := by
  have hother : ∀ {id}, id ≠ entry.marketId → endsAfterBid ends entry.marketId now id = ends id := by
    intro id hid
    rw [endsAfterBid]
    split
    · rw [update_of_ne hid]
    · rfl
  have hcounts := counts_bidEntry bid guid (h.counts entry hentry) hfits
  refine ⟨?_, ?_, ?_⟩
  · have hids : (BlackMarket.withBid w now entry bid guid).mgr.auctions.map
        BlackMarketEntry.marketId = w.mgr.auctions.map BlackMarketEntry.marketId := by
      simp only [BlackMarket.withBid, map_map]
      apply map_congr_left
      intro e _
      simp only [comp_apply]
      split
      · rename_i hid
        exact hid.symm
      · rfl
    rw [hids]
    exact h.nodup
  · simp only [BlackMarket.withBid, updateRow, h.rows, map_map]
    apply map_congr_left
    intro e he
    simp only [comp_apply, BlackMarketEntry.rowAt, BlackMarketEntry.saveToDB]
    rw [hcounts.getExpirationTime hfits']
    by_cases hid : e.marketId = entry.marketId
    · simp [World.bidEntry, hid]
    · simp [World.bidEntry, hid, hother hid]
  · intro e he
    obtain ⟨old, hold, rfl⟩ := mem_map.mp he
    by_cases hid : old.marketId = entry.marketId
    · rw [if_pos (by exact hid)]
      exact hcounts
    · rw [if_neg (by exact hid), hother hid]
      exact h.counts old hold

theorem Tracked.placeBid [LawfulSeconds S] {bid : UInt64} {player : Player} (h : Tracked w ends)
    (hentry : entry ∈ w.mgr.auctions) (hbid : ¬bid < entry.currentBid)
    (hfits : Fits S (ends entry.marketId - now))
    (hfits' : Fits S (endsAfterBid ends entry.marketId now entry.marketId - now)) :
    Tracked (w.placeBid catalogue characters now entry bid player).1
      (endsAfterBid ends entry.marketId now) := by
  rw [placeBid_eq hbid]
  exact (h.withBid hentry hfits hfits').update

end LegionServer.Source.BlackMarket
