import LegionServer.Source.Combat.RedirectThreat
import LegionServer.Source.Combat.ThreatCredits
import LegionServer.Guarantees.ThreatStates
import Mathlib.Algebra.BigOperators.Group.Finset.Piecewise
import Mathlib.Algebra.Order.BigOperators.Group.List

/-!
# Redirected threat

The percentages of a unit never come to more than 100, so what is redirected from it never
leaves it with less than nothing.
-/
namespace LegionServer.Guarantees.RedirectedThreat
open Library Source.Combat Guarantees.ThreatStates List

universe u

variable {U H : Type u} {q : PriorityQueue RefId SortKey H}
  {env : World U H → View U} {w : World U H} {a target : U} {spell : Option SpellInfo}
  {amount modified : ℚ} {s : Redirects U}

/-- `_redirectInfo`, as `AddThreat` reads it. -/
def redirectsOf (s : Redirects U) : List (U × Nat) :=
  s.redirectInfo.map fun redirect => (redirect.1, redirect.2.toNat)

theorem redirected_eq (amount : ℚ) (s : Redirects U) :
    World.redirected amount (redirectsOf s) =
      amount * (Redirects.totalPct s.redirectInfo : ℚ) / 100 := by
  rw [redirectsOf, Redirects.totalPct]
  induction s.redirectInfo with
  | nil => simp [World.redirected]
  | cons redirect l ih =>
    simp only [World.redirected, map_cons, sum_cons, Nat.cast_add] at ih ⊢
    rw [ih, mul_add, add_div]

variable [DecidableEq U]

def receivers (s : Redirects U) (target : U) : Finset U :=
  insert target (s.redirectInfo.map Prod.fst).toFinset

/-- A creature adds threat to a target. All who are to receive it can be engaged. -/
structure Engaging (q : PriorityQueue RefId SortKey H) (env : World U H → View U)
    (w : World U H) (a target : U) (spell : Option SpellInfo) (s : Redirects U) : Prop where
  reachable : (combatSystem q).Reachable w
  list : (w.threat.manager a).ownerCanHaveThreatList = true
  spell : World.Threatens env a spell
  engageable : ∀ v ∈ receivers s target, World.Engageable env a v
  present : ∀ v ∈ receivers s target, w.threat.Present a v
  redirectInfo : (env w).redirectInfo target = redirectsOf s

theorem shares_nonneg (hamount : 0 ≤ amount) (redirects : List (U × Nat)) (v : U) :
    0 ≤ World.shares amount redirects v := by
  refine sum_nonneg fun share hshare => ?_
  obtain ⟨redirect, -, rfl⟩ := List.mem_map.mp hshare
  split
  · exact div_nonneg (mul_nonneg hamount (Nat.cast_nonneg _)) (by norm_num)
  · exact le_rfl

theorem sum_shares (amount : ℚ) (redirects : List (U × Nat)) {receivers : Finset U}
    (h : ∀ redirect ∈ redirects, redirect.1 ∈ receivers) :
    ∑ v ∈ receivers, World.shares amount redirects v = World.redirected amount redirects := by
  induction redirects with
  | nil => simp [World.shares, World.redirected]
  | cons redirect redirects ih =>
    have hrest := ih fun r hr => h r (mem_cons_of_mem _ hr)
    have hhead := h redirect mem_cons_self
    simp only [World.shares, World.redirected, map_cons, sum_cons] at hrest ⊢
    rw [Finset.sum_add_distrib, hrest, Finset.sum_ite_eq' receivers redirect.1, if_pos hhead]

/-- What is left for the target is not negative. -/
theorem redirected_le (hs : s.Reachable) (hamount : 0 ≤ amount) :
    World.redirected amount (redirectsOf s) ≤ amount := by
  have htotal : Redirects.totalPct s.redirectInfo ≤ 100 := by
    rw [hs.info.2]
    exact min_le_left _ _
  have hpct : (Redirects.totalPct s.redirectInfo : ℚ) ≤ 100 := by exact_mod_cast htotal
  rw [redirected_eq, div_le_iff₀ (by norm_num)]
  exact mul_le_mul_of_nonneg_left hpct hamount

theorem redirect_mem_receivers {redirect : U × Nat} (h : redirect ∈ redirectsOf s) :
    redirect.1 ∈ receivers s target := by
  obtain ⟨entry, hentry, rfl⟩ := List.mem_map.mp h
  exact Finset.mem_insert_of_mem (List.mem_toFinset.mpr (mem_map_of_mem hentry))

theorem credited (hq : q.Contents) (hs : s.Reachable) (h : Engaging q env w a target spell s)
    (ignoreModifiers : Bool) (fuel : Nat) (hmodified : modified = if ignoreModifiers then amount
      else (env w).calculateModifiedThreat amount target spell) (hamount : 0 ≤ modified) :
    ∃ w', World.addThreat q env a spell (fuel + 2) ignoreModifiers false w target amount = .ok w' ∧
      ∀ v, w'.threat.baseOf a v = w.threat.baseOf a v + (World.shares modified (redirectsOf s) v +
          if v = target then modified - World.redirected modified (redirectsOf s) else 0) := by
  have hends := World.addThreat_credited hq h.spell h.engageable fuel ignoreModifiers (World.reachable_jointOk hq h.reachable) h.list h.present
    (Finset.mem_insert_self _ _)
    (fun redirect hredirect => redirect_mem_receivers (h.redirectInfo ▸ hredirect)) hmodified
    hamount (h.redirectInfo ▸ redirected_le hs hamount)
  rw [h.redirectInfo] at hends
  cases hresult : World.addThreat q env a spell (fuel + 2) ignoreModifiers false w target
      amount with
  | ok w' => exact ⟨w', rfl, (hends.post_of_ok hresult).base⟩
  | error fault => exact (hends.may_of_error hresult).elim

/-- The percentages are positive and add up to at most 100, and `AddThreat` gives each target its
share of the threat and the victim the rest. -/
theorem redirected_threat (hq : q.Contents) (hs : s.Reachable) :
    (∀ redirect ∈ s.redirectInfo, 0 < redirect.2) ∧
    Redirects.totalPct s.redirectInfo = min 100 (Redirects.registeredPct s.redirectRegistry) ∧
    (∀ order c, ∃ s', s.call order c = .ok s') ∧
    ∀ (env : World U H → View U) (w : World U H) (a target : U) (spell : Option SpellInfo)
      (amount modified : ℚ) (ignoreModifiers : Bool) (fuel : Nat),
      Engaging q env w a target spell s →
      modified = (if ignoreModifiers then amount
        else (env w).calculateModifiedThreat amount target spell) → 0 ≤ modified →
      ∃ w', World.addThreat q env a spell (fuel + 2) ignoreModifiers false w target amount =
          .ok w' ∧
        (∀ v, w'.threat.baseOf a v = w.threat.baseOf a v +
          (World.shares modified (redirectsOf s) v +
            if v = target then modified - World.redirected modified (redirectsOf s) else 0)) ∧
        (∀ v, 0 ≤ World.shares modified (redirectsOf s) v) ∧
        0 ≤ modified - World.redirected modified (redirectsOf s) ∧
        ∑ v ∈ receivers s target, (w'.threat.baseOf a v - w.threat.baseOf a v) = modified := by
  refine ⟨hs.info.1, hs.info.2, fun order c => ?_, ?_⟩
  · have hends := Redirects.call_ends order hs.filled c
    cases hresult : s.call order c with
    | ok s' => exact ⟨s', rfl⟩
    | error fault => exact (hends.may_of_error hresult).elim
  · intro env w a target spell amount modified ignoreModifiers fuel h hmodified hamount
    obtain ⟨w', hw', hbase⟩ := credited hq hs h ignoreModifiers fuel hmodified hamount
    refine ⟨w', hw', hbase, shares_nonneg hamount _, sub_nonneg.mpr (redirected_le hs hamount), ?_⟩
    have hmem : target ∈ receivers s target := Finset.mem_insert_self _ _
    have hgain : ∀ v ∈ receivers s target, w'.threat.baseOf a v - w.threat.baseOf a v =
        World.shares modified (redirectsOf s) v +
          if v = target then modified - World.redirected modified (redirectsOf s) else 0 := by
      intro v _
      rw [hbase v, add_sub_cancel_left]
    rw [Finset.sum_congr rfl hgain, Finset.sum_add_distrib,
      sum_shares modified _ fun redirect hredirect => redirect_mem_receivers hredirect,
      Finset.sum_ite_eq', if_pos hmem, add_sub_cancel]

/-- Of the threat of player 2, 30 percent go to player 4 and, for another spell, 50 to player 6. -/
def misdirected : Redirects Nat :=
  { redirectRegistry := AList.insert 3 ((∅ : VictimMap Nat).insert 6 50)
      ((∅ : RedirectRegistry Nat).insert 1 ((∅ : VictimMap Nat).insert 4 30))
    redirectInfo := [(6, 50), (4, 30)] }

def misdirecting : View Nat :=
  { calm with redirectInfo := fun target => if target = 2 then [(6, 50), (4, 30)] else [] }

theorem misdirected_reachable : misdirected.Reachable :=
  .call (.call .new (rfl : Redirects.call ⟨id, .refl, id, .refl⟩ {}
    (.registerRedirectThreat 1 4 30) = .ok _)) (rfl : Redirects.call ⟨id, .refl, id, .refl⟩ _
      (.registerRedirectThreat 3 6 50) = .ok misdirected)

theorem engaging_misdirected :
    Engaging listQueue (fun _ => misdirecting) peace 1 2 none misdirected where
  reachable := .init peace_initial
  list := rfl
  spell _ := rfl
  engageable v hv := by
    have hcases : v = 2 ∨ v = 6 ∨ v = 4 := by simpa [receivers, misdirected] using hv
    rcases hcases with rfl | rfl | rfl
    all_goals
      exact ⟨fun _ => rfl, fun _ => rfl, fun _ => rfl, fun _ => rfl,
        fun _ ref howner hvictim => by
          simp [ThreatWorld.shouldBeOffline, ThreatWorld.shouldBeSuppressed, misdirecting, calm,
            View.flagsAllowFighting]⟩
  present v _ id hlookup := by
    exact nomatch hlookup
  redirectInfo := rfl

/-- Of ten points of threat, three go to player 4 and five to player 6. -/
theorem redirected_threat_misdirected :
    ∃ w', World.addThreat listQueue (fun _ => misdirecting) 1 none 2 true false peace 2 10 =
        .ok w' ∧ w'.threat.baseOf 1 2 = 2 ∧ w'.threat.baseOf 1 4 = 3 ∧ w'.threat.baseOf 1 6 = 5 := by
  obtain ⟨-, -, -, hadd⟩ :=
    redirected_threat (H := List RefId) listQueue_contents misdirected_reachable
  obtain ⟨w', hw', hbase, -⟩ := hadd _ _ _ _ _ 10 10 true 0 engaging_misdirected rfl (by norm_num)
  have hpct : (30 : UInt32).toNat = 30 ∧ (50 : UInt32).toNat = 50 := ⟨rfl, rfl⟩
  refine ⟨w', hw', (hbase 2).trans ?_, (hbase 4).trans ?_, (hbase 6).trans ?_⟩
  all_goals
    norm_num [ThreatWorld.baseOf, ThreatWorld.entries, peace, World.shares, World.redirected,
      redirectsOf, misdirected, hpct]

end LegionServer.Guarantees.RedirectedThreat
