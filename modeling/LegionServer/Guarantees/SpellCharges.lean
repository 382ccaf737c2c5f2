import Mathlib.Data.List.Chain
import Mathlib.Data.List.TakeWhile
import LegionServer.Source.Spells.HistoryRuns

/-!
# Spell charges as a token bucket

Pending charges are chained and bounded in every run.
-/
namespace LegionServer.Guarantees.SpellCharges
open Library Source.Spells List SpellHistory

variable {category m : Nat} {r : Int} {s s' : ChargeState}

/-- Each pending charge starts when the previous one ends. -/
def Chained (charges : List ChargeEntry) : Prop :=
  charges.IsChain fun previous entry => entry.rechargeStart = previous.rechargeEnd

/-- The casts from `first` on, up to `length` later. -/
def castsWithin (s : ChargeState) (first length : Int) : List Int :=
  s.casts.filter fun time => first ≤ time ∧ time ≤ first + length

/-- No window holds more casts than the charges it starts with and regains. -/
def RateKept (m : Nat) (r : Int) (s : ChargeState) : Prop :=
  ∀ first length, 0 ≤ length →
    ((castsWithin s first length).length : Int) ≤ m + length / milliseconds r

/-- The last pending charge is not back yet, if there is one. -/
def Prompt (category : Nat) (call : View × ChargeRequest) (s : ChargeState) : Prop :=
  call.2 = .cast category → ∀ last ∈ (s.charges category).getLast?, s.now ≤ last.rechargeEnd

def pending (r : Int) (spent : Spent) : ChargeEntry := ChargeEntry.startingAt spent.refill r

/-- The casts are the tokens spent, the pending charges those not yet refilled. -/
structure Spending (category m : Nat) (r : Int) (s : ChargeState) (recent old : List Spent) :
    Prop where
  casts : (recent ++ old).map Spent.time = s.casts
  charges : recent.reverse.map (pending r) = s.charges category
  metered : Metered m (milliseconds r) (recent ++ old)
  refilled : ∀ spent ∈ old, spent.refill + milliseconds r ≤ s.now
  bounded : recent.length ≤ m

variable {recent old : List Spent}

theorem rateKept_of_spending (hm : 0 < m) (hr : 0 < r) (h : Spending category m r s recent old) :
    RateKept m r s := by
  intro first length hlength
  have hmillis : 0 < milliseconds r := by
    unfold milliseconds
    linarith
  let inWindow : Spent → Bool := fun spent => first ≤ spent.time ∧ spent.time ≤ first + length
  have hcasts : castsWithin s first length = ((recent ++ old).filter inWindow).map Spent.time := by
    rw [castsWithin, ← h.casts, filter_map]
    rfl
  have hinside : ∀ spent ∈ (recent ++ old).filter inWindow,
      first ≤ spent.time ∧ spent.time ≤ first + length :=
    fun spent hspent => of_decide_eq_true (mem_filter.mp hspent).2
  have hwindow := (h.metered.sublist filter_sublist).window hm hmillis first (first + length)
    (fun spent hspent => (hinside spent hspent).1) (fun spent hspent => (hinside spent hspent).2)
    (by linarith)
  rw [hcasts, length_map]
  simpa using hwindow

variable {view : View}

theorem charges_afterCast (hview : view.Charged category m r) (hm : 0 < m) (hr : 0 < r)
    (s : ChargeState) :
    (s.afterCast category view category).charges category = s.charges category ++
      [ChargeEntry.startingAt (((s.charges category).getLast?.map ChargeEntry.rechargeEnd).getD s.now)
        r] := by
  have hmax : 0 < (m : Int) := by omega
  unfold ChargeState.afterCast ChargeState.charges consumeCharge
  simp only [hview.known, hview.recoveryTime, hview.maxCharges, hr, hmax, Bool.not_true,
    Bool.false_eq_true, if_false, and_self, if_true, Function.update_self]
  cases (s.history.categoryCharges category).getLast? <;> rfl

variable {other : Nat}

theorem charges_afterCast_other (view : View) (hne : other ≠ category) (s : ChargeState) :
    (s.afterCast category view other).charges category = s.charges category := by
  unfold ChargeState.afterCast ChargeState.charges consumeCharge
  dsimp only
  split
  · rfl
  · split
    · exact Function.update_of_ne hne.symm _ _
    · rfl

theorem length_lt_of_hasCharge (hview : view.Charged category m r) (hm : 0 < m)
    (h : s.history.hasCharge view category = true) : (s.charges category).length < m := by
  have hmax : ¬ (m : Int) ≤ 0 := by omega
  unfold hasCharge at h
  simp only [hview.known, hview.maxCharges, hmax, Bool.not_true, Bool.false_eq_true, if_false] at h
  exact_mod_cast of_decide_eq_true h

theorem chained_afterCast (hview : view.Charged category m r) (hm : 0 < m) (hr : 0 < r)
    (h : Chained (s.charges category)) :
    Chained ((s.afterCast category view category).charges category) := by
  rw [charges_afterCast hview hm hr]
  refine List.IsChain.append h (.singleton _) fun last hlast next hnext => ?_
  cases hnext
  rw [hlast]
  rfl

structure Pending (category m : Nat) (r : Int) (s : ChargeState) : Prop where
  chained : Chained (s.charges category)
  bounded : (s.charges category).length ≤ m
  noCooldowns : s.history.spellCooldowns = ∅ ∧ s.history.categoryCooldowns = ∅
  lasting : ∀ entry ∈ s.charges category, entry.rechargeEnd = entry.rechargeStart + milliseconds r

theorem noCooldowns_afterCast (h : s.history.spellCooldowns = ∅ ∧ s.history.categoryCooldowns = ∅) :
    (s.afterCast category view other).history.spellCooldowns = ∅ ∧
      (s.afterCast category view other).history.categoryCooldowns = ∅ := by
  unfold ChargeState.afterCast consumeCharge
  dsimp only
  split
  · exact h
  · split <;> exact h

theorem charges_update {h : SpellHistory} (hupdate : s.history.update s.now = .ok h) :
    ChargeState.charges category { s with history := h } =
      (s.charges category).dropWhile fun entry => entry.rechargeEnd ≤ s.now :=
  update_charges hupdate category

variable {call : View × ChargeRequest}

theorem pending_step (hm : 0 < m) (hr : 0 < r) (h : Pending category m r s)
    (hstep : (chargeSystem category m r).step call s s') : Pending category m r s' := by
  obtain ⟨view, request⟩ := call
  obtain ⟨hview, hperforms⟩ := hstep
  cases request with
  | cast chargeCategoryId =>
    obtain ⟨hcharge, rfl⟩ := hperforms
    by_cases hsame : chargeCategoryId = category
    · subst hsame
      refine ⟨chained_afterCast hview hm hr h.chained, ?_, noCooldowns_afterCast h.noCooldowns, ?_⟩
      · rw [charges_afterCast hview hm hr, length_append]
        exact length_lt_of_hasCharge hview hm hcharge
      · rw [charges_afterCast hview hm hr]
        intro entry hentry
        rcases mem_append.mp hentry with hold | hnew
        · exact h.lasting entry hold
        · rw [mem_singleton.mp hnew]
          rfl
    · have hother := charges_afterCast_other view hsame s
      refine ⟨?_, ?_, noCooldowns_afterCast h.noCooldowns, ?_⟩
      · exact hother ▸ h.chained
      · exact hother ▸ h.bounded
      · exact hother ▸ h.lasting
  | update =>
    obtain ⟨history, hupdate, rfl⟩ := hperforms
    have hsuffix := dropWhile_suffix (fun entry => decide (entry.rechargeEnd ≤ s.now))
      (l := s.charges category)
    rw [update_of_empty h.noCooldowns.1 h.noCooldowns.2] at hupdate
    cases hupdate
    exact ⟨h.chained.suffix hsuffix, hsuffix.length_le.trans h.bounded, h.noCooldowns,
      fun entry hentry => h.lasting entry (hsuffix.subset hentry)⟩
  | wait elapsed =>
    cases hperforms
    exact ⟨h.chained, h.bounded, h.noCooldowns, h.lasting⟩

theorem pending_initial (h : (chargeSystem category m r).init s) : Pending category m r s := by
  obtain ⟨hhistory, _⟩ := h
  have hcharges : s.charges category = [] := by
    unfold ChargeState.charges
    rw [hhistory]
  constructor
  · rw [hcharges]
    exact .nil
  · rw [hcharges]
    exact Nat.zero_le m
  · rw [hhistory]
    exact ⟨rfl, rfl⟩
  · rw [hcharges]
    exact fun _ hentry => absurd hentry not_mem_nil

theorem getLast?_pending (recent : List Spent) :
    (recent.reverse.map (pending r)).getLast? = recent.head?.map (pending r) := by
  rw [getLast?_map, getLast?_reverse]

theorem spending_afterCast (hview : view.Charged category m r) (hm : 0 < m) (hr : 0 < r)
    (h : Spending category m r s recent old) (hcharge : s.history.hasCharge view category = true)
    (hprompt : ∀ last ∈ (s.charges category).getLast?, s.now ≤ last.rechargeEnd) :
    ∃ refill, Spending category m r (s.afterCast category view category)
      (⟨s.now, refill⟩ :: recent) old := by
  have hlength : recent.length < m := by
    have hlt := length_lt_of_hasCharge hview hm hcharge
    rwa [← h.charges, length_map, length_reverse] at hlt
  have hmillis : 0 < milliseconds r := by
    unfold milliseconds
    linarith
  let refill := ((s.charges category).getLast?.map ChargeEntry.rechargeEnd).getD s.now
  have hcases : (recent = [] ∧ refill = s.now) ∨
      ∃ newest rest, recent = newest :: rest ∧ refill = newest.refill + milliseconds r ∧
        s.now ≤ refill := by
    have hlast := getLast?_pending (r := r) recent
    rw [h.charges] at hlast
    cases recent with
    | nil => exact .inl ⟨rfl, by simp [refill, hlast]⟩
    | cons newest rest =>
      have hrefill : refill = newest.refill + milliseconds r := by
        simp [refill, hlast, pending, ChargeEntry.startingAt]
      refine .inr ⟨newest, rest, rfl, hrefill, ?_⟩
      rw [hrefill]
      exact hprompt (pending r newest) hlast
  have hnow : s.now ≤ refill := by
    obtain ⟨_, hrefill⟩ | ⟨_, _, _, _, hnow⟩ := hcases
    · exact hrefill.ge
    · exact hnow
  have hback : ∀ spent ∈ (recent ++ old).drop (m - 1), spent ∈ old := by
    intro spent hspent
    rw [drop_append, drop_eq_nil_of_le (by omega), nil_append] at hspent
    exact mem_of_mem_drop hspent
  refine ⟨refill, ?_, ?_, ?_, h.refilled, hlength⟩
  · rw [cons_append, map_cons, h.casts]
    simp [ChargeState.afterCast]
  · rw [charges_afterCast hview hm hr, reverse_cons, map_append, h.charges]
    rfl
  · refine Metered.cons ⟨hnow, fun spent hspent => ?_, fun spent hspent => ?_⟩ h.metered
    · rcases mem_append.mp hspent with hrecent | hold
      · obtain ⟨hnil, _⟩ | ⟨newest, rest, hcons, hrefill, _⟩ := hcases
        · rw [hnil] at hrecent
          cases hrecent
        · rw [hrefill]
          have hmetered := h.metered
          rw [hcons] at hmetered hrecent
          rcases mem_cons.mp hrecent with rfl | hrest
          · exact le_rfl
          · have := hmetered.1.after spent (mem_append_left old hrest)
            linarith
      · exact (h.refilled spent hold).trans hnow
    · exact h.refilled spent (hback spent hspent)

theorem spending_update (h : Spending category m r s recent old) {history : SpellHistory}
    (hupdate : s.history.update s.now = .ok history) :
    ∃ recent' old', Spending category m r { s with history } recent' old' := by
  let back : Spent → Bool := fun spent => (pending r spent).rechargeEnd ≤ s.now
  let kept := recent.reverse.dropWhile back
  let gone := recent.reverse.takeWhile back
  have hsplit : recent = kept.reverse ++ gone.reverse := by
    rw [← reverse_append, takeWhile_append_dropWhile, reverse_reverse]
  have hlog : kept.reverse ++ (gone.reverse ++ old) = recent ++ old := by
    rw [hsplit, append_assoc]
  refine ⟨kept.reverse, gone.reverse ++ old, ?_, ?_, ?_, fun spent hspent => ?_, ?_⟩
  · rw [hlog]
    exact h.casts
  · rw [reverse_reverse, charges_update hupdate, ← h.charges, dropWhile_map]
    rfl
  · rw [hlog]
    exact h.metered
  · rcases mem_append.mp hspent with hgone | hold
    · have hback : back spent = true := mem_takeWhile_imp (mem_reverse.mp hgone)
      exact of_decide_eq_true hback
    · exact h.refilled spent hold
  · have hle : kept.length ≤ recent.reverse.length := length_dropWhile_le _ _
    rw [length_reverse] at hle ⊢
    exact hle.trans h.bounded

theorem spending_wait (h : Spending category m r s recent old) (elapsed : Nat) :
    Spending category m r { s with now := s.now + elapsed } recent old where
  casts := h.casts
  charges := h.charges
  metered := h.metered
  refilled spent hspent := by
    have := h.refilled spent hspent
    change _ ≤ s.now + elapsed
    omega
  bounded := h.bounded

theorem spending_other (hne : other ≠ category) (h : Spending category m r s recent old) :
    Spending category m r (s.afterCast category view other) recent old where
  casts := by simp [ChargeState.afterCast, hne, h.casts]
  charges := by rw [charges_afterCast_other view hne, h.charges]
  metered := h.metered
  refilled := h.refilled
  bounded := h.bounded

theorem spending_step (hm : 0 < m) (hr : 0 < r) (h : Spending category m r s recent old)
    (hprompt : Prompt category call s) (hstep : (chargeSystem category m r).step call s s') :
    ∃ recent' old', Spending category m r s' recent' old' := by
  obtain ⟨view, request⟩ := call
  obtain ⟨hview, hperforms⟩ := hstep
  cases request with
  | cast chargeCategoryId =>
    obtain ⟨hcharge, rfl⟩ := hperforms
    by_cases hsame : chargeCategoryId = category
    · subst hsame
      obtain ⟨refill, hspending⟩ := spending_afterCast hview hm hr h hcharge (hprompt rfl)
      exact ⟨_, _, hspending⟩
    · exact ⟨_, _, spending_other hsame h⟩
  | update =>
    obtain ⟨history, hupdate, rfl⟩ := hperforms
    exact spending_update h hupdate
  | wait elapsed =>
    cases hperforms
    exact ⟨_, _, spending_wait h elapsed⟩

variable {last : ChargeEntry}

theorem le_last (hr : 0 < r) (h : Pending category m r s) {earlier : List ChargeEntry}
    (hcharges : s.charges category = earlier ++ [last]) :
    ∀ entry ∈ s.charges category, entry.rechargeEnd ≤ last.rechargeEnd := by
  have hmillis : 0 < milliseconds r := by
    unfold milliseconds
    linarith
  have hchain : (s.charges category).IsChain
      fun previous entry => previous.rechargeEnd ≤ entry.rechargeEnd := by
    refine h.chained.imp_of_mem_imp fun previous entry _ hentry hstart => ?_
    rw [h.lasting entry hentry, hstart]
    linarith
  have hpairs := isChain_iff_pairwise.mp hchain
  rw [hcharges] at hpairs ⊢
  intro entry hentry
  rcases mem_append.mp hentry with hearlier | hlast
  · exact (pairwise_append.mp hpairs).2.2 entry hearlier last (mem_singleton_self last)
  · rw [mem_singleton.mp hlast]

theorem casts_at_once (hview : view.Charged category m r) (hm : 0 < m) (hr : 0 < r)
    (hnone : s.charges category = []) (k : Nat) (hk : k ≤ m) :
    ∃ s', ((chargeSystem category m r).guarded (Prompt category)).Leads s s' ∧ s'.now = s.now ∧
      s'.casts = List.replicate k s.now ++ s.casts ∧ (s'.charges category).length = k ∧
      ∀ entry ∈ s'.charges category, s.now ≤ entry.rechargeEnd := by
  have hmillis : 0 < milliseconds r := by
    unfold milliseconds
    linarith
  induction k with
  | zero => exact ⟨s, .refl, rfl, rfl, by rw [hnone]; rfl, by rw [hnone]; simp⟩
  | succ k ih =>
    obtain ⟨s', hleads, hnow, hcasts, hlength, hlate⟩ := ih (by omega)
    have hcharge : s'.history.hasCharge view category = true := by
      have hmax : ¬ (m : Int) ≤ 0 := by omega
      have hlt : ((s'.charges category).length : Int) < m := by omega
      unfold hasCharge
      simp only [hview.known, hview.maxCharges, hmax, Bool.not_true, Bool.false_eq_true, if_false]
      exact decide_eq_true hlt
    have hprompt : Prompt category (view, .cast category) s' := by
      intro _ last hlast
      rw [hnow]
      exact hlate last (mem_of_getLast? hlast)
    refine ⟨s'.afterCast category view category,
      hleads.step (view, .cast category) ⟨hprompt, hview, hcharge, rfl⟩, hnow, ?_, ?_, ?_⟩
    · rw [replicate_succ, cons_append, ← hcasts, ← hnow]
      simp [ChargeState.afterCast]
    · rw [charges_afterCast hview hm hr, length_append, hlength]
      rfl
    · rw [charges_afterCast hview hm hr]
      intro entry hentry
      rcases mem_append.mp hentry with hold | hnew
      · exact hlate entry hold
      rw [mem_singleton.mp hnew]
      cases hlast : (s'.charges category).getLast? with
      | none =>
        change s.now ≤ s'.now + milliseconds r
        linarith
      | some last =>
        change s.now ≤ last.rechargeEnd + milliseconds r
        have := hlate last (mem_of_getLast? hlast)
        linarith

/-- After a cast that is not prompt the bucket can be emptied too soon. -/
theorem late_cast_exceeds (hm : 0 < m) (hr : 0 < r) (h : Pending category m r s)
    (hview : view.Charged category m r) (hlast : (s.charges category).getLast? = some last)
    (hlate : last.rechargeEnd < s.now) :
    ∃ s'', ((chargeSystem category m r).guarded (Prompt category)).Leads
      (s.afterCast category view category) s'' ∧ ¬ RateKept m r s'' := by
  have hmillis : 0 < milliseconds r := by
    unfold milliseconds
    linarith
  let s₁ := s.afterCast category view category
  let new := ChargeEntry.startingAt last.rechargeEnd r
  let restored := max s.now new.rechargeEnd
  have hnew : new.rechargeEnd = last.rechargeEnd + milliseconds r := rfl
  have hcharges : s₁.charges category = s.charges category ++ [new] := by
    rw [charges_afterCast hview hm hr, hlast]
    rfl
  let s₂ : ChargeState := { s₁ with now := restored }
  let s₃ : ChargeState := { s₂ with history := s₂.history.updateCharges s₂.now }
  have hold : ∀ entry ∈ s₁.charges category, entry.rechargeEnd ≤ restored := by
    obtain ⟨earlier, hearlier⟩ := List.getLast?_eq_some_iff.mp hlast
    intro entry hentry
    rw [hcharges] at hentry
    refine le_trans ?_ (le_max_right _ _)
    rcases mem_append.mp hentry with hbefore | hafter
    · have := le_last hr h hearlier entry hbefore
      linarith
    · rw [mem_singleton.mp hafter]
  have hempty : s₃.charges category = [] := by
    change (s₁.charges category).dropWhile (fun entry => decide (entry.rechargeEnd ≤ restored)) = []
    rw [dropWhile_eq_nil_iff]
    exact fun entry hentry => decide_eq_true (hold entry hentry)
  have hwait : s₂ = { s₁ with now := s₁.now + ((restored - s.now).toNat : Int) } := by
    have hnow : s₁.now + ((restored - s.now).toNat : Int) = restored := by
      change s.now + ((restored - s.now).toNat : Int) = restored
      omega
    rw [hnow]
  have hnoCooldowns : s₁.history.spellCooldowns = ∅ ∧ s₁.history.categoryCooldowns = ∅ :=
    noCooldowns_afterCast h.noCooldowns
  have hupdate : s₂.history.update s₂.now = .ok (s₂.history.updateCharges s₂.now) :=
    update_of_empty hnoCooldowns.1 hnoCooldowns.2
  obtain ⟨s'', hleads, _, hcasts, _⟩ := casts_at_once hview hm hr hempty m le_rfl
  refine ⟨s'', ?_, fun hkept => ?_⟩
  · have hfirst : ((chargeSystem category m r).guarded (Prompt category)).Leads s₁ s₃ := by
      refine System.Leads.step (.single ⟨(view, .wait (restored - s.now).toNat), ?_, hview, hwait⟩)
        (view, .update) ⟨?_, hview, _, hupdate, rfl⟩
      · exact fun hrequest => by cases hrequest
      · exact fun hrequest => by cases hrequest
    exact hfirst.trans hleads
  · have hlength : 0 ≤ restored - s.now := by
      omega
    have hshort : restored - s.now < milliseconds r := by
      have : restored < s.now + milliseconds r := max_lt (by linarith) (by linarith)
      linarith
    have hbound := hkept s.now (restored - s.now) hlength
    rw [Int.ediv_eq_zero_of_lt hlength hshort, add_zero] at hbound
    have hall : castsWithin s'' s.now (restored - s.now) =
        replicate m restored ++ (s.now :: castsWithin s s.now (restored - s.now)) := by
      have hbefore : s₃.casts = s.now :: s.casts := by
        simp [s₃, s₂, s₁, ChargeState.afterCast]
      have htop : s.now ≤ restored := le_max_left _ _
      unfold castsWithin
      rw [hcasts, hbefore, filter_append, filter_replicate, filter_cons]
      simp [s₃, s₂, htop]
    rw [hall, length_append, length_replicate, length_cons] at hbound
    omega

theorem reachable_pending (hm : 0 < m) (hr : 0 < r) (h : (chargeSystem category m r).Reachable s) :
    Pending category m r s :=
  h.invariant (Pending category m r) (fun _ hinit => pending_initial hinit)
    fun _ _ _ hs hstep => pending_step hm hr hs hstep

theorem spending_initial (h : (chargeSystem category m r).init s) :
    Spending category m r s [] [] := by
  obtain ⟨hhistory, hcasts⟩ := h
  refine ⟨hcasts.symm, ?_, trivial, fun _ hspent => absurd hspent not_mem_nil, Nat.zero_le m⟩
  unfold ChargeState.charges
  rw [hhistory]
  rfl

theorem spending_leads (hm : 0 < m) (hr : 0 < r) (h : Spending category m r s recent old)
    (hleads : ((chargeSystem category m r).guarded (Prompt category)).Leads s s') :
    ∃ recent' old', Spending category m r s' recent' old' := by
  induction hleads with
  | refl => exact ⟨recent, old, h⟩
  | tail _ hstep ih =>
    obtain ⟨call, hprompt, hstep⟩ := hstep
    obtain ⟨recent', old', hspending⟩ := ih
    exact spending_step hm hr hspending hprompt hstep

/-- Pending charges are chained and bounded in every run. -/
theorem reachable_rate_kept (hm : 1 ≤ m) (hr : 0 < r) :
    (∀ s, (chargeSystem category m r).Reachable s →
      Chained (s.charges category) ∧ (s.charges category).length ≤ m) ∧
    ∀ s, ((chargeSystem category m r).guarded (Prompt category)).Reachable s →
      RateKept m r s ∧ ∀ call s', (chargeSystem category m r).step call s s' →
        ((∀ s'', ((chargeSystem category m r).guarded (Prompt category)).Leads s' s'' →
          RateKept m r s'') ↔ Prompt category call s) := by
  refine ⟨fun s hs => ?_, fun s hs => ?_⟩
  · have hpending := reachable_pending hm hr hs
    exact ⟨hpending.chained, hpending.bounded⟩
  have hspending : ∃ recent old, Spending category m r s recent old := by
    refine hs.invariant (fun s => ∃ recent old, Spending category m r s recent old) ?_ ?_
    · exact fun s hinit => ⟨[], [], spending_initial hinit⟩
    · intro call s s' hinv hstep
      obtain ⟨recent, old, hspending⟩ := hinv
      exact spending_step hm hr hspending hstep.1 hstep.2
  obtain ⟨recent, old, hspending⟩ := hspending
  refine ⟨rateKept_of_spending hm hr hspending, fun call s' hstep => ⟨fun hkept => ?_, ?_⟩⟩
  · obtain ⟨view, request⟩ := call
    intro hrequest last hlast
    cases hrequest
    obtain ⟨hview, hcharge, rfl⟩ := hstep
    by_contra hlate
    have hpending := reachable_pending hm hr hs.of_guarded
    obtain ⟨s'', hleads, hexceeds⟩ :=
      late_cast_exceeds hm hr hpending hview hlast (not_le.mp hlate)
    exact hexceeds (hkept s'' hleads)
  · intro hprompt s'' hleads
    obtain ⟨recent', old', hspending'⟩ := spending_step hm hr hspending hprompt hstep
    obtain ⟨_, _, hspending''⟩ := spending_leads hm hr hspending' hleads
    exact rateKept_of_spending hm hr hspending''

def twoCharges : View where
  getSpellInfo id := { id }
  getSpellInfo_id _ := rfl
  itemEffects _ := []
  applySpellMod := none
  scaledByHaste _ := none
  scaledByHasteRegen _ := none
  cooldownModifier := 0
  playerSpells := none
  categoryModifier _ := 0
  expiresAtDailyReset _ := false
  timeToDailyReset := 0
  ignoresSpellCooldown _ := false
  knownSpells := []
  knownSpells_nodup := .nil
  isPlayer := true
  hasSpellCategory category := category = 5
  getMaxCharges _ := 2
  getChargeRecoveryTime _ := 10

theorem twoCharges_charged : twoCharges.Charged 5 2 10 := ⟨rfl, rfl, rfl⟩

def rested (now : Int) : ChargeState := { history := {}, now, casts := [] }

/-- Both charges at once, and no third. -/
theorem reachable_rate_kept_twice :
    let s := ((rested 0).afterCast 5 twoCharges 5).afterCast 5 twoCharges 5
    s.casts = [0, 0] ∧ s.history.hasCharge twoCharges 5 = false ∧ RateKept 2 10 s := by
  have hall := @reachable_rate_kept 5 2 10 (by decide) (by decide)
  refine ⟨rfl, rfl, (hall.2 _ ?_).1⟩
  refine .step (twoCharges, .cast 5) (.step (twoCharges, .cast 5) (.init ⟨rfl, rfl⟩)
    ⟨fun _ last hlast => ?_, twoCharges_charged, rfl, rfl⟩) ⟨fun _ last hlast => ?_, twoCharges_charged,
      rfl, rfl⟩
  · cases hlast
  · cases hlast
    decide

/-- The second cast comes after the first charge is back, but before the update. -/
def castLate : ChargeState :=
  { (rested 0).afterCast 5 twoCharges 5 with now := 30000000 }.afterCast 5 twoCharges 5

def castFour : ChargeState :=
  ({ castLate with history := castLate.history.updateCharges castLate.now }.afterCast 5 twoCharges
    5).afterCast 5 twoCharges 5

/-- Three casts at one time from a bucket of two. -/
theorem late_cast_three_at_once : (chargeSystem 5 2 10).Reachable castFour ∧
    castFour.casts = [30000000, 30000000, 30000000, 0] ∧ ¬ RateKept 2 10 castFour := by
  refine ⟨?_, rfl, fun hkept => ?_⟩
  · refine .step (twoCharges, .cast 5) (.step (twoCharges, .cast 5) (.step (twoCharges, .update)
      (.step (twoCharges, .cast 5) (.step (twoCharges, .wait 30000000)
        (.step (twoCharges, .cast 5) (.init (s := rested 0) ⟨rfl, rfl⟩) ⟨twoCharges_charged, rfl, rfl⟩)
        ⟨twoCharges_charged, rfl⟩) ⟨twoCharges_charged, rfl, rfl⟩)
      ⟨twoCharges_charged, _, rfl, rfl⟩) ⟨twoCharges_charged, rfl, rfl⟩)
      ⟨twoCharges_charged, rfl, rfl⟩
  · have hthree := hkept 30000000 0 le_rfl
    revert hthree
    decide

end LegionServer.Guarantees.SpellCharges
