import LegionServer.Source.Auctions.AuctionHandlers

/-!
# Pending lists and the auctions they point to

While no auction leaves its house before the deposit of its owner is taken, the pending
lists point to live auctions, each of them once, and the deposits of a batch add up to
what its owner is asked for, and charged by an owner who has it.
-/
namespace LegionServer.Guarantees.PendingAuctions
open Library Source Source.Auctions List FlatSet World

variable {config : AuctionConfig} {w w' : World} {auction posted : AuctionEntry}
  {thisAH : PlayerAuctions}

def IsPending (w : World) (id : Nat) : Prop := ∃ thisAH ∈ w.pending.items, id ∈ thisAH.auctions

/-- The condition on a call: what it removes is in no pending list. -/
def EndsSettled (config : AuctionConfig) (call : AuctionCall) (w : World) : Prop :=
  ∀ auction, w.Ends config call auction → ¬IsPending w auction.id

structure PendingOk (w : World) : Prop where
  fresh : ∀ auction ∈ w.auctions.items, auction.id < w.nextAuctionId
  live : ∀ thisAH ∈ w.pending.items, ∀ id ∈ thisAH.auctions,
    ∃ auction, w.auctions.find id = some auction ∧ auction.owner = thisAH.player
  once : ∀ thisAH ∈ w.pending.items, thisAH.auctions.Nodup
  some_pending : ∀ thisAH ∈ w.pending.items, thisAH.auctions ≠ []

theorem pendingOk_opening (h : w.Opening) : PendingOk w := by
  constructor <;> simp [h.auctions, h.pending]

theorem PendingOk.of_books (h : PendingOk w) (hauctions : w'.auctions = w.auctions)
    (hpending : w'.pending = w.pending) (hnext : w'.nextAuctionId = w.nextAuctionId) :
    PendingOk w' := by
  constructor
  · rw [hauctions, hnext]
    exact h.fresh
  · rw [hauctions, hpending]
    exact h.live
  · rw [hpending]
    exact h.once
  · rw [hpending]
    exact h.some_pending

theorem PendingOk.sameBooks (h : PendingOk w) (hbooks : w.SameBooks w') : PendingOk w' :=
  h.of_books hbooks.auctions hbooks.pending hbooks.nextAuctionId

theorem PendingOk.putPlayer (h : PendingOk w) (player : Player) : PendingOk (w.putPlayer player) :=
  h.of_books rfl rfl rfl

theorem PendingOk.putAuction (h : PendingOk w) (hfind : w.auctions.find auction.id = some posted)
    (howner : auction.owner = posted.owner) : PendingOk (w.putAuction auction) := by
  constructor
  · intro other hother
    cases mem_put.mp hother with
    | inl hself =>
      rw [hself, ← (find_eq_some.mp hfind).2]
      exact h.fresh posted (find_eq_some.mp hfind).1
    | inr hold => exact h.fresh other hold.1
  · intro thisAH hthis id hid
    obtain ⟨found, hfound, hfoundOwner⟩ := h.live thisAH hthis id hid
    change ∃ changed, (w.auctions.put auction).find id = some changed ∧ _
    rw [find_put]
    by_cases hself : id = auction.id
    · rw [if_pos hself]
      refine ⟨auction, rfl, ?_⟩
      rw [hself, hfind, Option.some.injEq] at hfound
      rw [howner, hfound, hfoundOwner]
    · rw [if_neg hself]
      exact ⟨found, hfound, hfoundOwner⟩
  · exact h.once
  · exact h.some_pending

theorem PendingOk.removeAuction (h : PendingOk w) {id : Nat} (hsettled : ¬IsPending w id) :
    PendingOk (w.removeAuction id) := by
  constructor
  · intro other hother
    exact h.fresh other (mem_erase.mp hother).1
  · intro thisAH hthis other hother
    obtain ⟨found, hfound, hfoundOwner⟩ := h.live thisAH hthis other hother
    refine ⟨found, ?_, hfoundOwner⟩
    change (w.auctions.erase id).find other = some found
    rw [find_erase, if_neg, hfound]
    intro hself
    rw [hself] at hother
    exact hsettled ⟨thisAH, hthis, hother⟩
  · exact h.once
  · exact h.some_pending

theorem PendingOk.pendingAuctionAdd (h : PendingOk w) {id player : Nat}
    (hfind : w.auctions.find id = some posted) (howner : posted.owner = player)
    (hnew : ¬IsPending w id) : PendingOk (w.pendingAuctionAdd player id) := by
  unfold World.pendingAuctionAdd
  cases hlist : w.pending.find player with
  | none =>
    constructor
    · exact h.fresh
    · intro thisAH hthis other hother
      cases mem_put.mp hthis with
      | inl hself =>
        subst hself
        rw [mem_singleton] at hother
        exact ⟨posted, by rw [hother]; exact hfind, howner⟩
      | inr hold => exact h.live thisAH hold.1 other hother
    · intro thisAH hthis
      cases mem_put.mp hthis with
      | inl hself => simp [hself]
      | inr hold => exact h.once thisAH hold.1
    · intro thisAH hthis
      cases mem_put.mp hthis with
      | inl hself => simp [hself]
      | inr hold => exact h.some_pending thisAH hold.1
  | some list =>
    obtain ⟨hmem, hplayer⟩ := find_eq_some.mp hlist
    dsimp only
    constructor
    · exact h.fresh
    · intro thisAH hthis other hother
      cases mem_put.mp hthis with
      | inl hself =>
        subst hself
        rw [mem_append, mem_singleton] at hother
        cases hother with
        | inl hin => exact h.live list hmem other hin
        | inr hlast => exact ⟨posted, by rw [hlast]; exact hfind, howner.trans hplayer.symm⟩
      | inr hold => exact h.live thisAH hold.1 other hother
    · intro thisAH hthis
      cases mem_put.mp hthis with
      | inl hself =>
        subst hself
        rw [nodup_append]
        refine ⟨h.once list hmem, nodup_singleton id, ?_⟩
        intro other hother last hlast hsame
        rw [mem_singleton] at hlast
        rw [hsame, hlast] at hother
        exact hnew ⟨list, hmem, hother⟩
      | inr hold => exact h.once thisAH hold.1
    · intro thisAH hthis
      cases mem_put.mp hthis with
      | inl hself => simp [hself]
      | inr hold => exact h.some_pending thisAH hold.1

theorem PendingOk.not_pending_next (h : PendingOk w) : ¬IsPending w w.nextAuctionId := by
  intro hpending
  obtain ⟨thisAH, hthis, hid⟩ := hpending
  obtain ⟨found, hfound, -⟩ := h.live thisAH hthis _ hid
  obtain ⟨hmem, hself⟩ := find_eq_some.mp hfound
  have hless := h.fresh found hmem
  omega

theorem PendingOk.addPosted (h : PendingOk w) (config : AuctionConfig) (player : Player)
    (packet : AuctionSellItem) (posting : Posting) (item : Item) (now : Nat) :
    PendingOk (w.addPosted config player packet posting item now) := by
  apply PendingOk.pendingAuctionAdd
  · constructor
    · intro other hother
      cases mem_put.mp hother with
      | inl hself =>
        rw [hself]
        exact Nat.lt_succ_self _
      | inr hold => exact Nat.lt_succ_of_lt (h.fresh other hold.1)
    · intro thisAH hthis id hid
      obtain ⟨found, hfound, howner⟩ := h.live thisAH hthis id hid
      refine ⟨found, ?_, howner⟩
      rw [World.putAuction, find_put, if_neg]
      · exact hfound
      · intro hself
        apply h.not_pending_next
        rw [hself] at hid
        exact ⟨thisAH, hthis, hid⟩
    · exact h.once
    · exact h.some_pending
  · exact find_put_self
  · rfl
  · exact h.not_pending_next

theorem PendingOk.handleAuctionSellItem (h : PendingOk w) (guid : Nat)
    (packet : AuctionSellItem) (now : Nat) :
    PendingOk (w.handleAuctionSellItem config guid packet now).1 := by
  apply handleAuctionSellItem_cases (motive := PendingOk) h
  · intro player posting _ _
    exact (h.addPosted config player packet posting _ now).putPlayer _
  · intro player posting _ _
    have hcloned : PendingOk { w with nextItemGuid := w.nextItemGuid + 1 } :=
      h.of_books rfl rfl rfl
    exact (hcloned.addPosted config player packet posting _ now).putPlayer _

theorem PendingOk.bid (h : PendingOk w) (hfind : w.auctions.find auction.id = some auction)
    (player : Player) (bidAmount : UInt64) :
    PendingOk (w.bid config player auction bidAmount) := by
  -- However the bid is paid, the books of the auctions stay.
  have hpaid : ∀ paid : World, PendingOk paid → paid.auctions = w.auctions →
      PendingOk (paid.putAuction { auction with bidder := player.guid, bid := bidAmount }) := by
    intro paid hok hauctions
    have hput : paid.auctions.find auction.id = some auction := by rw [hauctions, hfind]
    exact hok.putAuction hput rfl
  apply hpaid
  · split
    · split
      · exact h.putPlayer _
      · exact (h.sameBooks sameBooks_outbidded).putPlayer _
    · exact h.putPlayer _
  · split
    · split
      · rfl
      · exact sameBooks_outbidded.auctions
    · rfl

theorem PendingOk.endUnsold (h : PendingOk w) (hsettled : ¬IsPending w auction.id) :
    PendingOk (w.endUnsold config auction) := by
  obtain ⟨ended, hbooks, hend⟩ := endUnsold_eq config w auction
  rw [hend]
  apply (h.sameBooks hbooks).removeAuction
  rw [IsPending, hbooks.pending]
  exact hsettled

theorem PendingOk.endSold (h : PendingOk w) (hsettled : ¬IsPending w auction.id) :
    PendingOk (w.endSold config auction) := by
  obtain ⟨ended, hbooks, hend⟩ := endSold_eq config w auction
  rw [hend]
  apply (h.sameBooks hbooks).removeAuction
  rw [IsPending, hbooks.pending]
  exact hsettled

theorem PendingOk.buyout (h : PendingOk w) (hsettled : ¬IsPending w auction.id)
    (player : Player) : PendingOk (w.buyout config player auction) := by
  have hpaid : PendingOk (w.payBuyout config player auction) ∧
      (w.payBuyout config player auction).pending = w.pending := by
    unfold payBuyout
    split
    · exact ⟨h.putPlayer _, rfl⟩
    split
    · exact ⟨(h.putPlayer _).sameBooks sameBooks_outbidded, sameBooks_outbidded.pending⟩
    · exact ⟨h.putPlayer _, rfl⟩
  apply (hpaid.1.sameBooks sameBooks_salePending).endSold
  rw [IsPending, sameBooks_salePending.pending, hpaid.2]
  exact hsettled

theorem PendingOk.handleAuctionPlaceBid (h : PendingOk w) (guid : Nat)
    (packet : AuctionPlaceBid) (hsettled : EndsSettled config (.placeBid guid packet) w) :
    PendingOk (w.handleAuctionPlaceBid config guid packet).1 := by
  apply handleAuctionPlaceBid_cases (motive := PendingOk) h
  · intro player auction _ hauction _ _ _
    exact h.bid hauction player packet.bidAmount
  · intro player auction _ _ _ _ _ hends
    exact h.buyout (hsettled auction hends) player

theorem PendingOk.handleAuctionRemoveItem (h : PendingOk w) (guid : Nat)
    (packet : AuctionRemoveItem) (hsettled : EndsSettled config (.removeItem guid packet) w) :
    PendingOk (w.handleAuctionRemoveItem config guid packet).1 := by
  apply handleAuctionRemoveItem_cases (motive := PendingOk) h
  intro player auction item _ _ _ _ hends
  have hpaid : PendingOk (w.payCancel config player auction) ∧
      (w.payCancel config player auction).pending = w.pending := by
    unfold payCancel
    split
    · exact ⟨(h.sameBooks sameBooks_cancelledToBidder).putPlayer _,
        sameBooks_cancelledToBidder.pending⟩
    · exact ⟨h, rfl⟩
  apply PendingOk.removeAuction
  · exact (hpaid.1.sameBooks (sameBooks_sendMailTo _)).sameBooks (sameBooks_removeAItem _)
  · change ¬∃ thisAH ∈ (w.payCancel config player auction).pending.items, _
    rw [hpaid.2]
    exact hsettled auction hends

theorem pending_updateAuction (curTime : Nat) :
    (w.updateAuction config curTime auction).pending = w.pending := by
  obtain hsame | ⟨ended, hbooks, hend⟩ := updateAuction_eq config w curTime auction
  · rw [hsame]
  · rw [hend]
    exact hbooks.pending

theorem PendingOk.updateAuctions {curTime : Nat} {auctions : List AuctionEntry}
    (h : PendingOk w) (hsettled : ∀ auction ∈ auctions, auction.expireTime ≤ curTime + 60 →
      ¬IsPending w auction.id) :
    PendingOk (auctions.foldl (fun w auction => w.updateAuction config curTime auction) w) := by
  induction auctions generalizing w with
  | nil => exact h
  | cons auction rest ih =>
    apply ih
    · unfold updateAuction
      beta_reduce
      split
      · exact h
      rename_i hexpired
      have hself := hsettled auction mem_cons_self (by omega)
      split
      · exact h.endUnsold hself
      · exact h.endSold hself
    · intro other hother hexpired
      rw [IsPending, pending_updateAuction]
      exact hsettled other (mem_cons_of_mem auction hother) hexpired

theorem PendingOk.updateHouse (h : PendingOk w) (house : House) (curTime : Nat)
    (hsettled : EndsSettled config (.update house curTime) w) :
    PendingOk (w.updateHouse config house curTime) := by
  apply h.updateAuctions
  intro auction hmem hexpired
  obtain ⟨hauction, hhouse⟩ := mem_filter.mp hmem
  exact hsettled auction ⟨hauction, of_decide_eq_true hhouse, hexpired⟩

section Batches

variable {share depositremain taken : UInt64} {auctions : List AuctionEntry}

theorem map_id_assignDeposits : ∀ depositremain,
    (World.assignDeposits share depositremain auctions).map AuctionEntry.id =
      auctions.map AuctionEntry.id := by
  induction auctions with
  | nil => intro; rfl
  | cons auction rest ih =>
    intro depositremain
    cases rest with
    | nil => rfl
    | cons next rest =>
      rw [assignDeposits, map_cons, ih]
      rfl

theorem mem_assignDeposits : ∀ depositremain,
    auction ∈ World.assignDeposits share depositremain auctions →
      ∃ posted ∈ auctions, ∃ deposit, auction = { posted with deposit } := by
  induction auctions with
  | nil => intro _ h; cases h
  | cons first rest ih =>
    intro depositremain h
    cases rest with
    | nil =>
      rw [assignDeposits, mem_singleton] at h
      exact ⟨first, mem_cons_self, depositremain, h⟩
    | cons next rest =>
      rw [assignDeposits, mem_cons] at h
      cases h with
      | inl hself => exact ⟨first, mem_cons_self, share, hself⟩
      | inr hrest =>
        obtain ⟨posted, hposted, deposit, hsame⟩ := ih _ hrest
        exact ⟨posted, mem_cons_of_mem first hposted, deposit, hsame⟩

theorem sum_assignDeposits : ∀ depositremain, auctions ≠ [] →
    (auctions.length - 1) * share.toNat ≤ depositremain.toNat →
    ((World.assignDeposits share depositremain auctions).map fun auction =>
      auction.deposit.toNat).sum = depositremain.toNat := by
  induction auctions with
  | nil => intro _ h; exact absurd rfl h
  | cons first rest ih =>
    intro depositremain _ hroom
    cases rest with
    | nil => simp [assignDeposits]
    | cons next rest =>
      simp only [length_cons, Nat.add_sub_cancel, Nat.add_mul, Nat.one_mul] at hroom
      have hless : (depositremain - share).toNat = depositremain.toNat - share.toNat :=
        Guilds.toNat_sub_of_le (by omega)
      rw [assignDeposits, map_cons, sum_cons, ih _ (cons_ne_nil _ _), hless]
      · change share.toNat + _ = _
        omega
      · simp only [length_cons, Nat.add_sub_cancel]
        omega

theorem sum_deposits (hsome : auctions ≠ []) (totaldeposit : UInt64) :
    ((World.assignDeposits (UInt64.ofNat (totaldeposit.toNat / auctions.length)) totaldeposit
      auctions).map fun auction => auction.deposit.toNat).sum = totaldeposit.toNat := by
  apply sum_assignDeposits _ hsome
  have hless : totaldeposit.toNat / auctions.length < 2 ^ 64 :=
    Nat.lt_of_le_of_lt (Nat.div_le_self _ _) totaldeposit.toNat_lt
  rw [UInt64.toNat_ofNat', Nat.mod_eq_of_lt hless]
  calc (auctions.length - 1) * (totaldeposit.toNat / auctions.length)
      ≤ auctions.length * (totaldeposit.toNat / auctions.length) :=
        Nat.mul_le_mul_right _ (Nat.sub_le _ _)
    _ ≤ totaldeposit.toNat := Nat.mul_div_le _ _

theorem map_id_recordCharges : ∀ taken,
    (World.recordCharges taken auctions).map AuctionEntry.id = auctions.map AuctionEntry.id := by
  induction auctions with
  | nil => intro; rfl
  | cons auction rest ih =>
    intro taken
    rw [World.recordCharges, map_cons, ih, map_cons]

theorem map_deposit_recordCharges (auctions : List AuctionEntry) : ∀ taken,
    (World.recordCharges taken auctions).map AuctionEntry.deposit =
      auctions.map AuctionEntry.deposit := by
  induction auctions with
  | nil => intro; rfl
  | cons auction rest ih =>
    intro taken
    rw [World.recordCharges, map_cons, ih, map_cons]

theorem mem_recordCharges : ∀ taken, auction ∈ World.recordCharges taken auctions →
    ∃ posted ∈ auctions, ∃ charged, auction = { posted with charged } := by
  induction auctions with
  | nil => intro _ h; cases h
  | cons first rest ih =>
    intro taken h
    rw [World.recordCharges, mem_cons] at h
    cases h with
    | inl hself => exact ⟨first, mem_cons_self, _, hself⟩
    | inr hrest =>
      obtain ⟨posted, hposted, charged, hsame⟩ := ih _ hrest
      exact ⟨posted, mem_cons_of_mem first hposted, charged, hsame⟩

theorem derefAuctions_live {ids : List Nat} {player : Nat}
    (hlive : ∀ id ∈ ids, ∃ auction, w.auctions.find id = some auction ∧ auction.owner = player) :
    ∃ auctions, w.derefAuctions ids = some auctions ∧ auctions.map AuctionEntry.id = ids ∧
      ∀ auction ∈ auctions, w.auctions.find auction.id = some auction ∧ auction.owner = player := by
  induction ids with
  | nil => exact ⟨[], rfl, rfl, by simp⟩
  | cons id rest ih =>
    obtain ⟨auction, hfind, howner⟩ := hlive id mem_cons_self
    obtain ⟨auctions, hderef, hids, hall⟩ := ih fun id hid =>
      hlive id (mem_cons_of_mem _ hid)
    obtain ⟨hmem, hid⟩ := find_eq_some.mp hfind
    refine ⟨auction :: auctions, ?_, ?_, ?_⟩
    · unfold derefAuctions at hderef ⊢
      rw [mapM_cons, hfind, hderef]
      rfl
    · rw [map_cons, hids, hid]
    · intro other hother
      cases mem_cons.mp hother with
      | inl hself =>
        rw [hself]
        exact ⟨find_key hmem, howner⟩
      | inr hrest => exact hall other hrest

@[simp] theorem putAuctions_nil : w.putAuctions [] = w := rfl

@[simp] theorem putAuctions_cons (auction : AuctionEntry) (rest : List AuctionEntry) :
    w.putAuctions (auction :: rest) = (w.putAuction auction).putAuctions rest := rfl

theorem putAuctions_eq (w : World) (auctions : List AuctionEntry) :
    w.putAuctions auctions = { w with auctions := (w.putAuctions auctions).auctions } := by
  induction auctions generalizing w with
  | nil => rfl
  | cons auction rest ih =>
    rw [putAuctions_cons, ih]
    rfl

theorem find_putAuctions_of_notMem {id : Nat} (hid : id ∉ auctions.map AuctionEntry.id) :
    (w.putAuctions auctions).auctions.find id = w.auctions.find id := by
  induction auctions generalizing w with
  | nil => rfl
  | cons auction rest ih =>
    rw [map_cons, mem_cons, not_or] at hid
    rw [putAuctions_cons, ih hid.2, putAuction, find_put, if_neg hid.1]

theorem find_putAuctions (hnodup : (auctions.map AuctionEntry.id).Nodup)
    (hmem : auction ∈ auctions) :
    (w.putAuctions auctions).auctions.find auction.id = some auction := by
  induction auctions generalizing w with
  | nil => cases hmem
  | cons first rest ih =>
    rw [map_cons, nodup_cons] at hnodup
    rw [putAuctions_cons]
    cases mem_cons.mp hmem with
    | inl hself =>
      rw [hself, find_putAuctions_of_notMem hnodup.1, putAuction, find_put_self]
    | inr hrest => exact ih hnodup.2 hrest

theorem PendingOk.putAuctions (h : PendingOk w) (hall : ∀ auction ∈ auctions, ∃ posted,
    w.auctions.find auction.id = some posted ∧ auction.owner = posted.owner) :
    PendingOk (w.putAuctions auctions) :=
  putAuctions_keeps AuctionEntry.owner PendingOk.putAuction h hall

theorem PendingOk.erasePending (h : PendingOk w) (player : Nat) :
    PendingOk { w with pending := w.pending.erase player } where
  fresh := h.fresh
  live thisAH hthis := h.live thisAH (FlatSet.mem_erase.mp hthis).1
  once thisAH hthis := h.once thisAH (FlatSet.mem_erase.mp hthis).1
  some_pending thisAH hthis := h.some_pending thisAH (FlatSet.mem_erase.mp hthis).1

/-- The player pays what is posted as deposits, and only his auctions change. -/
theorem pendingAuctionProcess_spec (config : AuctionConfig) (h : PendingOk w) (hthis : thisAH ∈ w.pending.items)
    {player : Player} (hplayer : player.guid = thisAH.player) :
    ∃ w' totaldeposit, w.pendingAuctionProcess config player = some w' ∧ PendingOk w' ∧
      w'.pending = w.pending.erase thisAH.player ∧
      w'.players = w.players.put (player.pay totaldeposit) ∧
      (∀ id ∉ thisAH.auctions, w'.auctions.find id = w.auctions.find id) ∧
      (thisAH.auctions.map fun id =>
        (w'.auctions.find id).elim 0 fun auction => auction.deposit.toNat).sum =
          totaldeposit.toNat := by
  obtain ⟨auctions, hderef, hids, hall⟩ := derefAuctions_live (h.live thisAH hthis)
  have hfind : w.pending.find player.guid = some thisAH := by
    rw [hplayer]
    exact find_key hthis
  have hsome : auctions ≠ [] := by
    intro hnil
    rw [hnil] at hids
    exact h.some_pending thisAH hthis hids.symm
  obtain ⟨first, rest, hauctions⟩ := exists_cons_of_ne_nil hsome
  unfold pendingAuctionProcess
  rw [hfind]
  dsimp only
  rw [hderef, hauctions]
  dsimp only
  rw [← hauctions]
  generalize w.batchDeposit config first auctions = totaldeposit
  generalize hshare : UInt64.ofNat (totaldeposit.toNat / auctions.length) = share
  generalize htaken : player.money - (player.pay totaldeposit).money = taken
  generalize hwritten : World.recordCharges taken (assignDeposits share totaldeposit
    auctions) = written
  have hwrittenIds : written.map AuctionEntry.id = thisAH.auctions := by
    rw [← hwritten, map_id_recordCharges, map_id_assignDeposits, hids]
  have hnodup : (written.map AuctionEntry.id).Nodup := by
    rw [hwrittenIds]
    exact h.once thisAH hthis
  refine ⟨_, totaldeposit, rfl, ?_, ?_, ?_, ?_, ?_⟩
  · apply PendingOk.putPlayer
    apply PendingOk.erasePending
    apply h.putAuctions
    intro auction hauction
    rw [← hwritten] at hauction
    obtain ⟨assigned, hassigned, charged, hcharged⟩ := mem_recordCharges _ hauction
    obtain ⟨posted, hposted, deposit, hdeposit⟩ := mem_assignDeposits _ hassigned
    exact ⟨posted, by rw [hcharged, hdeposit]; exact (hall posted hposted).1,
      by rw [hcharged, hdeposit]⟩
  · rw [putAuctions_eq, ← hplayer]
    rfl
  · rw [putAuctions_eq]
    rfl
  · intro id hid
    rw [← hwrittenIds] at hid
    exact find_putAuctions_of_notMem hid
  · rw [← hwrittenIds, map_map]
    have hdeposits : written.map ((fun id => ((w.putAuctions written).auctions.find id).elim 0
        fun auction => auction.deposit.toNat) ∘ AuctionEntry.id) =
        written.map fun auction => auction.deposit.toNat := by
      apply map_congr_left
      intro auction hauction
      rw [Function.comp_apply, find_putAuctions hnodup hauction, Option.elim_some]
    change (written.map ((fun id => ((w.putAuctions written).auctions.find id).elim 0
        fun auction => auction.deposit.toNat) ∘ AuctionEntry.id)).sum = _
    have hsame : (written.map fun auction => auction.deposit.toNat) =
        (assignDeposits share totaldeposit auctions).map fun auction =>
          auction.deposit.toNat := by
      have hmap := congrArg (map UInt64.toNat) (map_deposit_recordCharges
        (assignDeposits share totaldeposit auctions) taken)
      rw [hwritten, map_map, map_map] at hmap
      exact hmap
    rw [hdeposits, hsame, ← hshare]
    exact sum_deposits hsome totaldeposit

end Batches

structure OthersKept (thisAH : PlayerAuctions) (w w' : World) : Prop where
  pending : ∀ other ∈ w.pending.items, other.player ≠ thisAH.player → other ∈ w'.pending.items
  players : ∀ guid, guid ≠ thisAH.player → w'.players.find guid = w.players.find guid
  auctions : ∀ id ∉ thisAH.auctions, w'.auctions.find id = w.auctions.find id
  aItems : w'.aItems = w.aItems

theorem pendingAuctionProcess_others (h : PendingOk w) (hthis : thisAH ∈ w.pending.items)
    {player : Player} (hplayer : player.guid = thisAH.player)
    (hprocess : w.pendingAuctionProcess config player = some w') : OthersKept thisAH w w' := by
  obtain ⟨done, totaldeposit, hdone, -, hpending, hplayers, hauctions, -⟩ :=
    pendingAuctionProcess_spec config h hthis hplayer
  rw [hprocess, Option.some.injEq] at hdone
  subst hdone
  refine ⟨?_, ?_, hauctions, ?_⟩
  · intro other hother hne
    rw [hpending]
    exact mem_erase.mpr ⟨hother, hne⟩
  · intro guid hne
    rw [hplayers, find_put, if_neg]
    rw [← hplayer] at hne
    exact hne
  · unfold pendingAuctionProcess at hprocess
    split at hprocess
    · cases hprocess
      rfl
    split at hprocess
    · cases hprocess
    · cases hprocess
    · cases hprocess
      rw [putAuctions_eq]
      rfl

theorem expirePending_spec (h : PendingOk w) (hthis : thisAH ∈ w.pending.items) (now : Nat) :
    ∃ w', w.expirePending thisAH now = some w' ∧ PendingOk w' ∧ OthersKept thisAH w w' := by
  obtain ⟨auctions, hderef, hids, hall⟩ := derefAuctions_live (h.live thisAH hthis)
  unfold expirePending
  rw [hderef]
  dsimp only
  generalize hexpired : (auctions.map fun auction => { auction with expireTime := now }) = expired
  have hexpiredIds : expired.map AuctionEntry.id = thisAH.auctions := by
    rw [← hexpired, map_map, ← hids]
    rfl
  refine ⟨_, rfl, ?_, ?_, ?_, ?_, ?_⟩
  · apply PendingOk.erasePending
    apply h.putAuctions
    intro auction hauction
    rw [← hexpired] at hauction
    obtain ⟨posted, hposted, hsame⟩ := mem_map.mp hauction
    exact ⟨posted, by rw [← hsame]; exact (hall posted hposted).1, by rw [← hsame]⟩
  · intro other hother hne
    rw [putAuctions_eq]
    exact mem_erase.mpr ⟨hother, hne⟩
  · intro guid _
    rw [putAuctions_eq]
  · intro id hid
    rw [← hexpiredIds] at hid
    exact find_putAuctions_of_notMem hid
  · rw [putAuctions_eq]

theorem updatePendingOf_spec (config : AuctionConfig) (h : PendingOk w) (hthis : thisAH ∈ w.pending.items) (now : Nat) :
    ∃ w', w.updatePendingOf config now thisAH = some w' ∧ PendingOk w' ∧
      OthersKept thisAH w w' := by
  unfold updatePendingOf
  cases hplayer : w.findConnectedPlayer thisAH.player with
  | none => exact expirePending_spec h hthis now
  | some player =>
    have hguid := (findConnectedPlayer_eq_some hplayer).2
    dsimp only
    split
    · obtain ⟨done, _, hdone, hok, -⟩ := pendingAuctionProcess_spec config h hthis hguid
      exact ⟨done, hdone, hok, pendingAuctionProcess_others h hthis hguid hdone⟩
    refine ⟨_, rfl, ?_, ?_, fun _ _ => rfl, fun _ _ => rfl, rfl⟩
    · constructor
      · exact h.fresh
      · intro other hother
        cases mem_put.mp hother with
        | inl hself =>
          rw [hself]
          exact h.live thisAH hthis
        | inr hold => exact h.live other hold.1
      · intro other hother
        cases mem_put.mp hother with
        | inl hself =>
          rw [hself]
          exact h.once thisAH hthis
        | inr hold => exact h.once other hold.1
      · intro other hother
        cases mem_put.mp hother with
        | inl hself =>
          rw [hself]
          exact h.some_pending thisAH hthis
        | inr hold => exact h.some_pending other hold.1
    · intro other hother hne
      exact mem_put.mpr (Or.inr ⟨hother, hne⟩)

theorem updatePending_induction (config : AuctionConfig) (now : Nat) {motive : World → Prop}
    (waiting : World → PlayerAuctions → Prop) (lists : List PlayerAuctions)
    (hstep : ∀ w w' thisAH, PendingOk w → thisAH ∈ w.pending.items → waiting w thisAH → motive w →
      w.updatePendingOf config now thisAH = some w' → motive w')
    (hwait : ∀ w w' thisAH other, PendingOk w → OthersKept thisAH w w' →
      thisAH ∈ w.pending.items → other ∈ w.pending.items → other.player ≠ thisAH.player →
      waiting w other → waiting w' other)
    (h : PendingOk w) (hlists : ∀ thisAH ∈ lists, thisAH ∈ w.pending.items)
    (hdistinct : (lists.map PlayerAuctions.player).Nodup)
    (hwaiting : ∀ thisAH ∈ lists, waiting w thisAH) (hstart : motive w) :
    ∃ w', lists.foldlM (fun w thisAH => w.updatePendingOf config now thisAH) w = some w' ∧
      PendingOk w' ∧ motive w' := by
  induction lists generalizing w with
  | nil => exact ⟨w, rfl, h, hstart⟩
  | cons thisAH rest ih =>
    have hthis := hlists thisAH mem_cons_self
    rw [map_cons, nodup_cons] at hdistinct
    have hother : ∀ other ∈ rest, other.player ≠ thisAH.player := by
      intro other hmem hsame
      apply hdistinct.1
      rw [← hsame]
      exact mem_map_of_mem hmem
    obtain ⟨next, hnext, hok, hkept⟩ := updatePendingOf_spec config h hthis now
    obtain ⟨last, hlast, hresult⟩ := ih hok
      (fun other hmem => hkept.pending other (hlists other (mem_cons_of_mem _ hmem))
        (hother other hmem))
      hdistinct.2
      (fun other hmem => hwait w next thisAH other h hkept hthis
        (hlists other (mem_cons_of_mem _ hmem)) (hother other hmem)
        (hwaiting other (mem_cons_of_mem _ hmem)))
      (hstep w next thisAH h hthis (hwaiting thisAH mem_cons_self) hstart hnext)
    refine ⟨last, ?_, hresult⟩
    rw [foldlM_cons, hnext]
    exact hlast

theorem updatePendingAuctions_spec (config : AuctionConfig) (h : PendingOk w) (now : Nat) :
    ∃ w', w.updatePendingAuctions config now = some w' ∧ PendingOk w' := by
  obtain ⟨w', hrun, hok, -⟩ := updatePending_induction config now (motive := fun _ => True)
    (fun _ _ => True) w.pending.items
    (fun _ _ _ _ _ _ _ _ => trivial) (fun _ _ _ _ _ _ _ _ _ _ => trivial) h
    (fun _ hmem => hmem) w.pending.keys_nodup (fun _ _ => trivial) trivial
  exact ⟨w', hrun, hok⟩

theorem pendingOk_call (h : PendingOk w) (call : AuctionCall)
    (hsettled : EndsSettled config call w) (hcall : w.call config call = some w') :
    PendingOk w' := by
  have hplayer := @call_player config w w' PendingOk
  cases call with
  | sellItem player packet now =>
    cases hcall
    exact h.handleAuctionSellItem player packet now
  | placeBid player packet =>
    cases hcall
    exact h.handleAuctionPlaceBid player packet hsettled
  | removeItem player packet =>
    cases hcall
    exact h.handleAuctionRemoveItem player packet hsettled
  | update house curTime =>
    cases hcall
    exact h.updateHouse house curTime hsettled
  | updatePending now =>
    obtain ⟨done, hdone, hok⟩ := updatePendingAuctions_spec config h now
    rw [call, hdone, Option.some.injEq] at hcall
    rw [← hcall]
    exact hok
  | spend player amount =>
    exact hplayer (.inl ⟨amount, rfl⟩) hcall h fun _ changed _ _ _ _ => h.putPlayer changed
  | login player =>
    exact hplayer (.inr (.inl rfl)) hcall h fun _ changed _ _ _ _ => h.putPlayer changed
  | logout player =>
    exact hplayer (.inr (.inr rfl)) hcall h fun _ changed _ _ _ _ => h.putPlayer changed

theorem pendingOk_reachable
    (h : ((auctionSystem config).guarded (EndsSettled config)).Reachable w) : PendingOk w := by
  apply h.invariant PendingOk
  · intro w hopening
    exact pendingOk_opening hopening
  · intro call w w' hok hstep
    exact pendingOk_call hok call hstep.1 hstep.2

theorem toNat_money_pay {player : Player} {amount : UInt64} (howns : amount ≤ player.money)
    (hcapped : player.money ≤ Guilds.MAX_MONEY_AMOUNT) :
    (player.pay amount).money.toNat + amount.toNat = player.money.toNat := by
  obtain ⟨rest, hrest, hsum⟩ := Guilds.modifyMoney_pay (UInt64.le_trans howns hcapped)
    (UInt64.le_iff_toNat_le.mp howns)
  rw [Player.pay, hrest, Option.getD_some, hsum]

/-- An owner is charged the whole amount just when there is as much. -/
theorem charged_iff {player : Player} {amount : UInt64}
    (hcapped : player.money ≤ Guilds.MAX_MONEY_AMOUNT) :
    amount.toNat + (player.pay amount).money.toNat = player.money.toNat ↔
      amount ≤ player.money := by
  constructor
  · rw [UInt64.le_iff_toNat_le]
    omega
  · intro howns
    rw [Nat.add_comm, toNat_money_pay howns hcapped]

/-- In every run in which no auction leaves its house while it is in a pending list: the
pointers of the lists lead to live auctions, each auction is in one list at most and once,
no update of the lists reads a deleted entry, and the deposits of a batch add up to what its
owner is charged just when the owner has as much. -/
theorem pending_live (h : ((auctionSystem config).guarded (EndsSettled config)).Reachable w) :
    (∀ thisAH ∈ w.pending.items, thisAH.auctions.Nodup ∧
      ∀ id ∈ thisAH.auctions, ∃ auction ∈ w.auctions.items, auction.id = id) ∧
    (∀ thisAH ∈ w.pending.items, ∀ other ∈ w.pending.items, ∀ id ∈ thisAH.auctions,
      id ∈ other.auctions → thisAH = other) ∧
    (∀ now, (w.updatePendingAuctions config now).isSome = true) ∧
    ∀ thisAH ∈ w.pending.items, ∀ player : Player, player.guid = thisAH.player →
      player.money ≤ Guilds.MAX_MONEY_AMOUNT →
        ∃ w' totaldeposit, w.pendingAuctionProcess config player = some w' ∧
          w'.players = w.players.put (player.pay totaldeposit) ∧
          (thisAH.auctions.map fun id =>
            (w'.auctions.find id).elim 0 fun auction => auction.deposit.toNat).sum =
              totaldeposit.toNat ∧
          (totaldeposit.toNat + (player.pay totaldeposit).money.toNat = player.money.toNat ↔
            totaldeposit ≤ player.money) := by
  have hok := pendingOk_reachable h
  refine ⟨?_, ?_, ?_, ?_⟩
  · intro thisAH hthis
    refine ⟨hok.once thisAH hthis, ?_⟩
    intro id hid
    obtain ⟨auction, hfind, -⟩ := hok.live thisAH hthis id hid
    exact ⟨auction, find_eq_some.mp hfind⟩
  · intro thisAH hthis other hother id hid hid'
    obtain ⟨auction, hfind, howner⟩ := hok.live thisAH hthis id hid
    obtain ⟨found, hfound, hfoundOwner⟩ := hok.live other hother id hid'
    rw [hfind, Option.some.injEq] at hfound
    apply eq_of_key hthis hother
    rw [← howner, ← hfoundOwner, hfound]
  · intro now
    obtain ⟨done, hdone, -⟩ := updatePendingAuctions_spec config hok now
    rw [hdone, Option.isSome_some]
  · intro thisAH hthis player hplayer hcapped
    obtain ⟨done, totaldeposit, hdone, -, -, hplayers, -, hsum⟩ :=
      pendingAuctionProcess_spec config hok hthis hplayer
    exact ⟨done, totaldeposit, hdone, hplayers, hsum, charged_iff hcapped⟩

/-- A realm with one auction house, where a deposit is 10 and nothing is cut. -/
def plainConfig : AuctionConfig where
  auctionHouseEntry _ := some 1
  auctionsMap _ := .neutral
  auctionDeposit _ _ _ _ := 10
  auctionCut _ := 0
  auctionOutBid _ := 1
  auctionTime runTime := runTime
  botCharacters := []
  maxStackCount _ := 20
  canBeSold _ := true

def market : World where
  players := ((FlatSet.empty : FlatSet Player.guid).put
    ⟨1, 1, true, true, 1000, (FlatSet.empty : FlatSet Item.guid).put ⟨7, 100, 5⟩⟩).put
    ⟨2, 2, true, true, 1000, FlatSet.empty⟩
  mails := []
  auctions := FlatSet.empty
  aItems := FlatSet.empty
  pending := FlatSet.empty
  nextAuctionId := 1
  nextItemGuid := 8

def sellStack : AuctionSellItem where
  auctioneer := some 12
  minBid := 100
  buyoutPrice := 200
  runTime := 720
  items := [⟨7, 5⟩]

theorem opening_market : market.Opening := by
  constructor <;> decide

def postedStack : World := (market.handleAuctionSellItem plainConfig 1 sellStack 0).1

def cancelledStack : World := (postedStack.handleAuctionRemoveItem plainConfig 1 ⟨some 12, 1⟩).1

theorem reachable_cancelledStack : (auctionSystem plainConfig).Reachable cancelledStack :=
  .step (.removeItem 1 ⟨some 12, 1⟩) (.step (.sellItem 1 sellStack 0) (.init opening_market) rfl) rfl

/-- The list of the seller still has the auction, which is gone; the second update of the lists
reads it. -/
theorem cancelled_dangles :
    (auctionSystem plainConfig).Reachable cancelledStack ∧
      cancelledStack.pending.items = [⟨1, [1], 0⟩] ∧ cancelledStack.auctions.items = [] ∧
      (cancelledStack.updatePendingAuctions plainConfig 60).any (fun once =>
        (once.updatePendingAuctions plainConfig 120).isNone) = true :=
  ⟨reachable_cancelledStack, by decide, by decide, by decide⟩

/-- The auction as it is before it is cancelled, and the deposit that is taken for it. -/
theorem pending_live_posted :
    postedStack.pending.items = [⟨1, [1], 0⟩] ∧
      (∀ thisAH ∈ postedStack.pending.items, thisAH.auctions.Nodup ∧
        ∀ id ∈ thisAH.auctions, ∃ auction ∈ postedStack.auctions.items, auction.id = id) ∧
      ∃ w' : World, ∃ totaldeposit : UInt64, postedStack.pendingAuctionProcess plainConfig
          ⟨1, 1, true, true, 1000, FlatSet.empty⟩ = some w' ∧
        ([1].map fun id => (w'.auctions.find id).elim 0 fun auction =>
          auction.deposit.toNat).sum = totaldeposit.toNat := by
  have hreachable : ((auctionSystem plainConfig).guarded (EndsSettled plainConfig)).Reachable
      postedStack :=
    .step (.sellItem 1 sellStack 0) (.init opening_market) ⟨fun _ hends => hends.elim, rfl⟩
  obtain ⟨hlive, -, -, hcharged⟩ := pending_live hreachable
  obtain ⟨w', totaldeposit, hprocess, -, hsum, -⟩ := hcharged ⟨1, [1], 0⟩ (by decide)
    ⟨1, 1, true, true, 1000, empty⟩ rfl (by decide)
  exact ⟨by decide, hlive, w', totaldeposit, hprocess, hsum⟩

end LegionServer.Guarantees.PendingAuctions
