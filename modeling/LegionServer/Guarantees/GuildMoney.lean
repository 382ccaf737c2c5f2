import LegionServer.Library.Transition
import LegionServer.Source.Guilds.Membership

/-!
# Guild bank money over whole runs

Deposits of owned money, withdrawals of any amount and daily resets, by any players of the
server.
-/
namespace LegionServer.Guarantees.GuildMoney
open Library Source.Guilds Function UInt64

/-- `repaired` is what repairs have cost; `today` is what each member has
withdrawn since the last reset, if there was one. -/
structure MoneyState (G : Type*) where
  treasury : Treasury G
  repaired : Nat := 0
  today : Option (G → Nat) := none

inductive MoneyRequest (G : Type*) where
  | deposit (player : G) (amount : UInt64)
  | withdraw (player : G) (amount : UInt64) (repair : Bool)
  | resetTimes

variable {G : Type*} [DecidableEq G] {players : Finset G} {total : Nat} {s s' : MoneyState G}

def clamped (amount : UInt64) : UInt64 := min amount MAX_MONEY_AMOUNT

theorem clamped_le (amount : UInt64) : clamped amount ≤ MAX_MONEY_AMOUNT := by
  rw [le_iff_toNat_le, clamped, toNat_min]
  exact Nat.min_le_right _ _

def MoneyState.perform (s : MoneyState G) : MoneyRequest G → MoneyState G
  | .deposit player amount =>
    { s with treasury := s.treasury.handleMemberDepositMoney player amount }
  | .withdraw player amount repair =>
    match s.treasury.handleMemberWithdrawMoney player amount repair with
    | (treasury, false) => { s with treasury }
    | (treasury, true) =>
      { treasury
        repaired := if repair then s.repaired + (clamped amount).toNat else s.repaired
        today := s.today.map fun today =>
          Function.update today player (today player + (clamped amount).toNat) }
  | .resetTimes => { s with treasury := s.treasury.resetTimes, today := some fun _ => 0 }

/-- The sender is one of the players; a depositor owns the amount. -/
def MoneyRequest.Allowed (players : Finset G) (s : MoneyState G) : MoneyRequest G → Prop
  | .deposit player amount =>
    player ∈ players ∧ amount.toNat ≤ (s.treasury.money player).toNat
  | .withdraw player _ _ => player ∈ players
  | .resetTimes => True

def sumOfMoney (players : Finset G) (t : Treasury G) : Nat :=
  t.guild.bankMoney.toNat + ∑ player ∈ players, (t.money player).toNat

def moneySystem (players : Finset G) (total : Nat) : System (MoneyState G) (MoneyRequest G) where
  init s := sumOfMoney players s.treasury = total ∧ s.treasury.guild.bankMoney ≤ MAX_MONEY_AMOUNT ∧
    (∀ player ∈ players, s.treasury.money player ≤ MAX_MONEY_AMOUNT) ∧
    s.repaired = 0 ∧ s.today = none
  step request s s' := request.Allowed players s ∧ s' = s.perform request

/-- Nothing but repairs takes money away, and all limits are respected. -/
structure MoneyKept (players : Finset G) (total : Nat) (s : MoneyState G) : Prop where
  conserved : sumOfMoney players s.treasury + s.repaired = total
  bank : s.treasury.guild.bankMoney ≤ MAX_MONEY_AMOUNT
  purses : ∀ player ∈ players, s.treasury.money player ≤ MAX_MONEY_AMOUNT
  daily : ∀ today, s.today = some today → ∀ player member,
    s.treasury.guild.members player = some member → member.rankId ≠ GuildMaster →
      member.bankWithdrawMoney.toNat = today player ∧
      today player ≤ (s.treasury.guild.rankBankMoneyPerDay member.rankId).toNat

variable {t : Treasury G} {player : G} {amount : UInt64}

theorem deposit_moves (hbank : t.guild.bankMoney ≤ MAX_MONEY_AMOUNT)
    (howns : amount.toNat ≤ (t.money player).toNat) :
    t.handleMemberDepositMoney player amount = t ∨
      ∃ (bank money moved : UInt64), t.handleMemberDepositMoney player amount =
          { guild := { t.guild with bankMoney := bank }
            money := Function.update t.money player money } ∧
        bank.toNat = t.guild.bankMoney.toNat + moved.toNat ∧ bank ≤ MAX_MONEY_AMOUNT ∧
        money.toNat + moved.toNat = (t.money player).toNat := by
  have hmax : MAX_MONEY_AMOUNT.toNat = 99999999999 := rfl
  rw [le_iff_toNat_le] at hbank
  have hroom := toNat_sub_of_le hbank
  let moved := min amount (MAX_MONEY_AMOUNT - t.guild.bankMoney)
  have hmoved : moved.toNat = min amount.toNat (MAX_MONEY_AMOUNT.toNat - t.guild.bankMoney.toNat) := by
    rw [toNat_min, hroom]
  have hsmall : moved ≤ MAX_MONEY_AMOUNT := by
    rw [le_iff_toNat_le, hmoved]
    omega
  have hcovered : moved.toNat ≤ (t.money player).toNat := by
    omega
  obtain ⟨rest, hpays, hrest⟩ := modifyMoney_pay hsmall hcovered
  have hsum : (t.guild.bankMoney + moved).toNat = t.guild.bankMoney.toNat + moved.toNat := by
    rw [UInt64.toNat_add, Nat.mod_eq_of_lt]
    omega
  unfold Treasury.handleMemberDepositMoney
  dsimp only
  split
  · exact .inl rfl
  split
  · exact .inl rfl
  refine .inr ⟨t.guild.bankMoney + moved, rest, moved, ?_, hsum, ?_, hrest⟩
  · have htaken : modifyMoney ((t.modifyBankMoney (min amount (MAX_MONEY_AMOUNT - t.guild.bankMoney))
        true).money player) (-(min amount (MAX_MONEY_AMOUNT - t.guild.bankMoney)).toInt64) = some rest :=
      hpays
    rw [htaken]
    rfl
  · rw [le_iff_toNat_le, hsum]
    omega

theorem withdraw_failed {repair : Bool}
    (hfails : (t.handleMemberWithdrawMoney player amount repair).2 = false) :
    (t.handleMemberWithdrawMoney player amount repair).1 = t := by
  revert hfails
  unfold Treasury.handleMemberWithdrawMoney
  dsimp only
  split
  · exact fun _ => rfl
  split
  · exact fun _ => rfl
  split
  · exact fun _ => rfl
  split
  · exact fun _ => rfl
  split
  · intro hfails
    cases hfails
  · split
    · exact fun _ => rfl
    · intro hfails
      cases hfails

theorem withdraw_succeeded {t' : Treasury G} {repair : Bool}
    (hcap : t.money player ≤ MAX_MONEY_AMOUNT)
    (hok : t.handleMemberWithdrawMoney player amount repair = (t', true)) :
    ∃ (member : Member) (bank money : UInt64), t.guild.members player = some member ∧
      ¬ t.guild.memberRemainingMoney member < (clamped amount).toInt64 ∧
      t' =
        { guild :=
            { t.guild with
              bankMoney := bank
              members := Function.update t.guild.members player (some { member with
                  bankWithdrawMoney := member.bankWithdrawMoney + clamped amount }) }
          money := Function.update t.money player money } ∧
      bank.toNat + (clamped amount).toNat = t.guild.bankMoney.toNat ∧
      money ≤ MAX_MONEY_AMOUNT ∧
      money.toNat = (t.money player).toNat + if repair then 0 else (clamped amount).toNat := by
  have hsmall := clamped_le amount
  change (if t.guild.bankMoney < clamped amount then (t, false) else _) = (t', true) at hok
  split at hok
  · cases hok
  rename_i henough
  have hcovered : (clamped amount).toNat ≤ t.guild.bankMoney.toNat := by
    rw [lt_iff_toNat_lt] at henough
    omega
  have hbank := toNat_sub_of_le hcovered
  split at hok
  · cases hok
  rename_i member hmember
  split at hok
  · cases hok
  split at hok
  · cases hok
  rename_i hremaining
  split at hok
  · rename_i hrepair
    cases hok
    refine ⟨member, t.guild.bankMoney - clamped amount, t.money player, hmember, hremaining, ?_,
      by omega, hcap, by simp [hrepair]⟩
    rw [update_eq_self]
    exact Treasury.modifyBankMoney_take henough
  · rename_i hgold
    split at hok
    · cases hok
    rename_i money hmoney
    cases hok
    obtain ⟨hreceived, hunder⟩ := modifyMoney_receive hsmall hcap hmoney
    refine ⟨member, t.guild.bankMoney - clamped amount, money, hmember, hremaining, ?_,
      by omega, hunder, by simp [hgold, hreceived]⟩
    exact Treasury.modifyBankMoney_take henough

theorem sumOfMoney_update (hplayer : player ∈ players) (guild : Guild G) (money : UInt64) :
    sumOfMoney players { guild, money := Function.update t.money player money } +
        (t.money player).toNat + t.guild.bankMoney.toNat =
      sumOfMoney players t + money.toNat + guild.bankMoney.toNat := by
  unfold sumOfMoney
  have hnew := Finset.add_sum_erase players
    (fun p => (update t.money player money p).toNat) hplayer
  have hold := Finset.add_sum_erase players (fun p => (t.money p).toNat) hplayer
  have hrest : ∑ p ∈ players.erase player, (update t.money player money p).toNat =
      ∑ p ∈ players.erase player, (t.money p).toNat := by
    refine Finset.sum_congr rfl fun p hp => ?_
    rw [update_of_ne (Finset.ne_of_mem_erase hp)]
  simp only [update_self] at hnew
  dsimp only at hnew ⊢
  omega

theorem purses_update {money : UInt64} (hpurses : ∀ p ∈ players, t.money p ≤ MAX_MONEY_AMOUNT)
    (hmoney : money ≤ MAX_MONEY_AMOUNT) :
    ∀ p ∈ players, Function.update t.money player money p ≤ MAX_MONEY_AMOUNT := by
  intro p hp
  by_cases heq : p = player
  · subst heq
    simpa using hmoney
  · rw [update_of_ne heq]
    exact hpurses p hp

theorem counted_withdraw {g : Guild G} {today : G → Nat} {member : Member}
    (hdaily : ∀ p m, g.members p = some m → m.rankId ≠ GuildMaster →
      m.bankWithdrawMoney.toNat = today p ∧ today p ≤ (g.rankBankMoneyPerDay m.rankId).toNat)
    (hmember : g.members player = some member)
    (hcovers : ¬ g.memberRemainingMoney member < (clamped amount).toInt64) {p : G} {m : Member}
    (hm : Function.update g.members player (some { member with
      bankWithdrawMoney := member.bankWithdrawMoney + clamped amount }) p = some m)
    (hmaster : m.rankId ≠ GuildMaster) :
    m.bankWithdrawMoney.toNat =
        Function.update today player (today player + (clamped amount).toNat) p ∧
      Function.update today player (today player + (clamped amount).toNat) p ≤
        (g.rankBankMoneyPerDay m.rankId).toNat := by
  by_cases heq : p = player
  · subst heq
    rw [update_self] at hm ⊢
    obtain rfl := Option.some.inj hm
    have hmaster' : member.rankId ≠ GuildMaster := hmaster
    obtain ⟨hcounted, hlimit⟩ := hdaily p member hmember hmaster'
    rw [← hcounted] at hlimit ⊢
    have hlimit' := memberRemainingMoney_covers hmaster' (clamped_le amount) hlimit hcovers
    have hwide := (g.rankBankMoneyPerDay member.rankId).toNat_lt
    have hcount : (member.bankWithdrawMoney + clamped amount).toNat =
        member.bankWithdrawMoney.toNat + (clamped amount).toNat := by
      rw [UInt64.toNat_add, Nat.mod_eq_of_lt]
      omega
    exact ⟨hcount, hlimit'⟩
  · rw [update_of_ne heq] at hm ⊢
    exact hdaily p m hm hmaster

/-- The step of a run. -/
theorem perform_kept (h : MoneyKept players total s) {request : MoneyRequest G}
    (hallowed : request.Allowed players s) : MoneyKept players total (s.perform request) := by
  have hconserved := h.conserved
  cases request with
  | deposit player amount =>
    obtain ⟨hplayer, howns⟩ := hallowed
    have hmoves := deposit_moves h.bank howns
    unfold MoneyState.perform
    dsimp only
    rcases hmoves with hnothing | ⟨bank, money, moved, hmoves, hbank, hcap, hmoney⟩
    · rw [hnothing]
      exact h
    rw [hmoves]
    refine ⟨?_, hcap, purses_update h.purses ?_, h.daily⟩
    · have hsum := sumOfMoney_update (t := s.treasury) hplayer
        { s.treasury.guild with bankMoney := bank } money
      dsimp only at hsum ⊢
      omega
    · have hold := h.purses player hplayer
      rw [le_iff_toNat_le] at hold ⊢
      omega
  | withdraw player amount repair =>
    unfold MoneyState.perform
    dsimp only
    split
    · rename_i t' hfails
      have hfailed : (s.treasury.handleMemberWithdrawMoney player amount repair).2 = false := by
        rw [hfails]
      have hsame := withdraw_failed hfailed
      rw [hfails] at hsame
      dsimp only at hsame
      rw [hsame]
      exact h
    · rename_i t' hok
      obtain ⟨member, bank, money, hmember, hcovers, rfl, hbank, hcap, hmoney⟩ :=
        withdraw_succeeded (h.purses player hallowed) hok
      have hsum := sumOfMoney_update (t := s.treasury) hallowed
        { s.treasury.guild with
          bankMoney := bank
          members := update s.treasury.guild.members player (some { member with
              bankWithdrawMoney := member.bankWithdrawMoney + clamped amount }) } money
      refine ⟨?_, ?_, purses_update h.purses hcap, ?_⟩
      · dsimp only at hsum ⊢
        cases repair <;> simp only [Bool.false_eq_true, if_true, if_false] at hmoney ⊢ <;> omega
      · have hbefore := h.bank
        rw [le_iff_toNat_le] at hbefore ⊢
        change bank.toNat ≤ _
        omega
      · intro today htoday p m hm hmaster
        obtain ⟨before, hbefore, rfl⟩ := Option.map_eq_some_iff.mp htoday
        exact counted_withdraw (h.daily before hbefore) hmember hcovers hm hmaster
  | resetTimes =>
    refine ⟨hconserved, h.bank, h.purses, fun today htoday p m hm _ => ?_⟩
    cases htoday
    obtain ⟨member, _, rfl⟩ := Option.map_eq_some_iff.mp hm
    exact ⟨rfl, Nat.zero_le _⟩

theorem reachable_kept (h : (moneySystem players total).Reachable s) :
    MoneyKept players total s := by
  refine h.invariant (MoneyKept players total) (fun s hinit => ?_) fun request s s' hs hstep => ?_
  · obtain ⟨hsum, hbank, hpurses, hrepaired, htoday⟩ := hinit
    refine ⟨by rw [hrepaired, Nat.add_zero, hsum], hbank, hpurses, fun today hsome => ?_⟩
    rw [htoday] at hsome
    cases hsome
  · obtain ⟨hallowed, rfl⟩ := hstep
    exact perform_kept hs hallowed

/-- Money is conserved but for repairs, the bank and the players stay below their
limits, nobody but a master withdraws more in a day than the rank allows, and a
request that fails changes nothing. -/
theorem reachable_money_kept (h : (moneySystem players total).Reachable s) :
    sumOfMoney players s.treasury + s.repaired = total ∧
    s.treasury.guild.bankMoney ≤ GUILD_BANK_MONEY_LIMIT ∧
    (∀ player ∈ players, s.treasury.money player ≤ MAX_MONEY_AMOUNT) ∧
    (∀ today, s.today = some today → ∀ player member,
      s.treasury.guild.members player = some member → member.rankId ≠ GuildMaster →
        today player ≤ (s.treasury.guild.rankBankMoneyPerDay member.rankId).toNat) ∧
    (∀ player amount repair, (s.treasury.handleMemberWithdrawMoney player amount repair).2 = false →
      (s.treasury.handleMemberWithdrawMoney player amount repair).1 = s.treasury) ∧
    ∀ player (amount : UInt64), amount.toNat ≤ (s.treasury.money player).toNat →
      s.treasury.handleMemberDepositMoney player amount = s.treasury ∨
      ∃ moved : UInt64, (s.treasury.handleMemberDepositMoney player amount).guild.bankMoney.toNat =
          s.treasury.guild.bankMoney.toNat + moved.toNat ∧
        ((s.treasury.handleMemberDepositMoney player amount).money player).toNat + moved.toNat =
          (s.treasury.money player).toNat := by
  have hkept := reachable_kept h
  refine ⟨hkept.conserved, ?_, hkept.purses, fun today htoday player member hmember hmaster => ?_,
    fun player amount repair hfails => withdraw_failed hfails, fun player amount howns => ?_⟩
  · have hbank := small_of_le_max hkept.bank
    exact hbank.trans (by decide)
  · exact (hkept.daily today htoday player member hmember hmaster).2
  · rcases deposit_moves hkept.bank howns with hnothing | ⟨bank, money, moved, hmoves, hbank, _, hmoney⟩
    · exact .inl hnothing
    · rw [hmoves]
      exact .inr ⟨moved, hbank, by simpa using hmoney⟩

def officers : Guild Nat where
  leaderGuid := 1
  ranks := [⟨0, 0, "Guild Master", 0xFFFFFFFF, 0, fun _ => {}⟩,
    ⟨1, 1, "Officer", GR_RIGHT_WITHDRAW_REPAIR, 50, fun _ => {}⟩]
  members := fun player =>
    if player = 1 then some { rankId := 0 } else if player = 2 then some { rankId := 1 } else none
  bankMoney := 100

def payday : MoneyState Nat where
  treasury := { guild := officers, money := fun _ => 10 }

theorem payday_init : (moneySystem {1, 2} 120).init payday :=
  ⟨by decide, by decide, by decide, rfl, rfl⟩

/-- The master deposits 5; all of it is in the bank. -/
theorem reachable_money_kept_deposit :
    let s := payday.perform (.deposit 1 5)
    s.treasury.guild.bankMoney = 105 ∧ sumOfMoney {1, 2} s.treasury = 120 := by
  have hkept := reachable_money_kept (.step (.deposit 1 5) (.init payday_init)
    ⟨⟨by decide, by decide⟩, rfl⟩)
  exact ⟨by decide, hkept.1⟩

/-- The officer repairs for 30, and the players and the bank have 90 left of 120. -/
theorem repair_takes_money : (moneySystem {1, 2} 120).Reachable (payday.perform (.withdraw 2 30 true)) ∧
    sumOfMoney {1, 2} payday.treasury = 120 ∧
    sumOfMoney {1, 2} (payday.perform (.withdraw 2 30 true)).treasury = 90 :=
  ⟨.step (.withdraw 2 30 true) (.init payday_init)
    ⟨Finset.mem_insert_of_mem (Finset.mem_singleton_self 2), rfl⟩, by decide, by decide⟩

end LegionServer.Guarantees.GuildMoney
