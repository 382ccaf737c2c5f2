import LegionServer.Source.Achievements.CriteriaProgress
import Mathlib.Data.Set.Insert

/-!
# The daily quest streak

When the counter of a `CompleteAnyDailyQuestPerDay` criterion is the number of
consecutive reset periods with a completed daily.
-/
namespace LegionServer.Guarantees.DailyStreaks
open Source.Achievements List

/-- The run of days that ends with `p` has length `n`. -/
def IsStreak (days : Set Int) (p : Int) (n : Nat) : Prop :=
  (∀ i < n, p - i ∈ days) ∧ p - n ∉ days

section
variable {days : Set Int} {p e : Int} {n s : Nat}

theorem IsStreak.unique {m : Nat} (hn : IsStreak days p n) (hm : IsStreak days p m) : n = m := by
  rcases Nat.lt_trichotomy n m with hlt | heq | hgt
  · exact absurd (hm.1 n hlt) hn.2
  · exact heq
  · exact absurd (hn.1 m hgt) hm.2

theorem IsStreak.pos (h : IsStreak days p n) (hlast : p ∈ days) : n ≠ 0 := by
  rintro rfl
  exact h.2 (by simpa using hlast)

/-- The streak with one more day, not before the last one. -/
theorem IsStreak.insert (h : IsStreak days e s) (hlast : e ∈ days) (hlatest : ∀ p ∈ days, p ≤ e)
    (hp : e ≤ p) : ∃ s', IsStreak (insert p days) p s' ∧
      ((e + 2 ≤ p ∧ s' = 1) ∨ (e + 1 = p ∧ s' = s + 1) ∨ (e = p ∧ s' = s)) := by
  have hpos := h.pos hlast
  rcases (by omega : e + 2 ≤ p ∨ e + 1 = p ∨ e = p) with hgap | rfl | rfl
  · refine ⟨1, ⟨fun i hi => .inl (by omega), ?_⟩, .inl ⟨hgap, rfl⟩⟩
    rintro (hsame | hbefore)
    · omega
    · have hle := hlatest _ hbefore
      omega
  · refine ⟨s + 1, ⟨fun i hi => ?_, ?_⟩, .inr (.inl ⟨rfl, rfl⟩)⟩
    · cases i with
      | zero => exact .inl (by simp)
      | succ i =>
        rw [show e + 1 - ((i + 1 : Nat) : Int) = e - i by omega]
        exact .inr (h.1 i (by omega))
    · rw [show e + 1 - ((s + 1 : Nat) : Int) = e - s by omega]
      rintro (hsame | hbefore)
      · omega
      · exact h.2 hbefore
  · rw [Set.insert_eq_of_mem hlast]
    exact ⟨s, h, .inr (.inr ⟨rfl, rfl⟩)⟩

end

variable (reset : Int)

def period (time : Int64) : Int := (time.toInt - reset) / DAY

/-- The progress after a timeline, its latest update first. -/
def progressAfter : List QuestUpdate → Option CriteriaProgress
  | [] => none
  | update :: earlier => updateDailyQuest reset update (progressAfter earlier)

def completedDays (updates : List QuestUpdate) : Set Int :=
  {p | ∃ update ∈ updates, update.miscValue1 ≠ 0 ∧ period reset update.now = p}

def Counts (updates : List QuestUpdate) (now : Int64) (progress : Option CriteriaProgress) : Prop :=
  ∃ p, progress = some p ∧
    IsStreak (completedDays reset updates) (period reset now) p.counter.toNat

def CountsStreaks (updates : List QuestUpdate) : Prop :=
  ∀ update earlier, update :: earlier <:+ updates → update.miscValue1 ≠ 0 →
    Counts reset (update :: earlier) update.now (progressAfter reset (update :: earlier))

/-- A completion that goes uncounted: a login has set the counter to zero in the same
period, or the completion of the period before has left no date or no counter. -/
def Uncounted (earlier : List QuestUpdate) (now : Int64) (progress : Option CriteriaProgress) :
    Prop :=
  ∃ p, progress = some p ∧ ((p.counter = 0 ∧ period reset p.date = period reset now) ∨
    (period reset now - 1 ∈ completedDays reset earlier ∧
      (p.counter = 0 ∨ period reset p.date + 2 ≤ period reset now)))

def Misses (updates : List QuestUpdate) : Prop :=
  ∃ update earlier, update :: earlier <:+ updates ∧ update.miscValue1 ≠ 0 ∧
    Uncounted reset earlier update.now (progressAfter reset earlier)

/-- What stands of the last completion, in period `e` of a streak `s`: counter and date;
or a date of before, since the counter was one already; or nothing after a login. -/
structure Stands (updates : List QuestUpdate) (progress : CriteriaProgress) (e : Int) (s : Nat) :
    Prop where
  last : e ∈ completedDays reset updates
  latest : ∀ p ∈ completedDays reset updates, p ≤ e
  streak : IsStreak (completedDays reset updates) e s
  dated : ∃ update ∈ updates, progress.date = update.now
  counter : (progress.counter.toNat = s ∧ period reset progress.date = e) ∨
    (progress.counter.toNat = 1 ∧ s = 1 ∧ period reset progress.date + 2 ≤ e) ∨
    (progress.counter.toNat = 0 ∧ e ≤ period reset progress.date ∧
      (s = 1 ∨ e + 2 ≤ period reset progress.date))

def StandsOrNone (updates : List QuestUpdate) : Option CriteriaProgress → Prop
  | none => completedDays reset updates = ∅
  | some progress => ∃ e s, Stands reset updates progress e s

variable {reset} {updates earlier : List QuestUpdate} {update : QuestUpdate}
  {progress : CriteriaProgress} {before : Option CriteriaProgress} {e : Int} {s : Nat}

theorem period_mono {a b : Int64} (h : a ≤ b) : period reset a ≤ period reset b := by
  have hle := Int64.le_iff_toInt_le.mp h
  exact Int.ediv_le_ediv (by simp [DAY]) (by omega)

/-- The two comparisons of `updateDailyQuest`, as comparisons of periods. -/
theorem date_lt_iff (k : Int) (date now : Int64) :
    date.toInt < nextDailyResetTime reset now - k * DAY ↔
      period reset date + k ≤ period reset now := by
  simp only [nextDailyResetTime, period, DAY]
  omega

theorem completedDays_login (h : update.miscValue1 = 0) :
    completedDays reset (update :: earlier) = completedDays reset earlier := by
  ext p
  simp [completedDays, h]

theorem completedDays_completion (h : update.miscValue1 ≠ 0) :
    completedDays reset (update :: earlier) =
      insert (period reset update.now) (completedDays reset earlier) := by
  ext p
  simp [completedDays, h, eq_comm]

/-- Times are of 64 bits, so no streak comes near the counter's maximum. -/
theorem Stands.lt (h : Stands reset updates progress e s) : s + 1 < 2 ^ 64 := by
  obtain ⟨first, -, -, hfirst⟩ := h.streak.1 (s - 1) (by have := h.streak.pos h.last; omega)
  obtain ⟨last, -, -, hlast⟩ := h.last
  have hlow := Int64.le_toInt first.now
  have hhigh := Int64.toInt_lt last.now
  simp only [period, DAY] at hfirst hlast
  omega

theorem accumulate_one {counter : UInt64} (hmax : counter.toNat + 1 < 2 ^ 64) :
    (ProgressType.PROGRESS_ACCUMULATE.newValue counter 1).toNat = counter.toNat + 1 := by
  have hle : counter ≤ UInt64.ofNat (2 ^ 64 - 1) := by
    rw [UInt64.le_iff_toNat_le]
    simp
    omega
  simp only [ProgressType.newValue, gt_iff_lt, UInt64.lt_iff_toNat_lt, UInt64.toNat_sub_of_le _ _ hle]
  split
  · simp
    omega
  · rename_i hlarge
    simp at hlarge ⊢
    omega

/-- The counter and its date after a completion. -/
theorem updateDailyQuest_completion (h : update.miscValue1 ≠ 0)
    (hmax : progress.counter.toNat + 1 < 2 ^ 64)
    (hdate : period reset progress.date ≤ period reset update.now) :
    ∃ progress', updateDailyQuest reset update (some progress) = some progress' ∧
      ((period reset progress.date + 2 ≤ period reset update.now ∧ progress'.counter.toNat = 1 ∧
          (progress.counter.toNat = 1 ∧ progress'.date = progress.date ∨
            progress.counter.toNat ≠ 1 ∧ progress'.date = update.now)) ∨
        (period reset progress.date + 1 = period reset update.now ∧
          progress'.counter.toNat = progress.counter.toNat + 1 ∧ progress'.date = update.now) ∨
        (period reset progress.date = period reset update.now ∧ progress' = progress)) := by
  have hone := @date_lt_iff reset 1 progress.date update.now
  rw [Int.one_mul] at hone
  have hcount := accumulate_one hmax
  simp only [updateDailyQuest, if_neg h, date_lt_iff, hone]
  split
  · rename_i hmissed
    simp only [setCriteriaProgress, ProgressType.newValue]
    split
    · rename_i hsame
      exact ⟨progress, rfl, .inl ⟨hmissed, by simp [hsame.1], .inl ⟨by simp [hsame.1], rfl⟩⟩⟩
    · rename_i hother
      refine ⟨_, rfl, .inl ⟨hmissed, rfl, .inr ⟨fun hone => hother ⟨?_, trivial⟩, rfl⟩⟩⟩
      exact UInt64.toNat_inj.mp hone
  · split
    · simp only [setCriteriaProgress]
      generalize ProgressType.PROGRESS_ACCUMULATE.newValue progress.counter 1 = newValue at hcount
      have hother : progress.counter ≠ newValue := by
        intro hsame
        rw [hsame] at hcount
        omega
      simp only [hother, false_and, if_false]
      exact ⟨_, rfl, .inr (.inl ⟨by omega, hcount, rfl⟩)⟩
    · exact ⟨progress, rfl, .inr (.inr ⟨by omega, rfl⟩)⟩

section
variable (hle : ∀ before ∈ earlier, before.now ≤ update.now)
  (hbefore : StandsOrNone reset earlier before)
include hle hbefore

/-- A login leaves what stands, or takes the counter to zero with the login's date. -/
theorem StandsOrNone.login (h : update.miscValue1 = 0) :
    StandsOrNone reset (update :: earlier) (updateDailyQuest reset update before) := by
  have hsame := @completedDays_login reset earlier _ h
  cases before with
  | none =>
    simp only [updateDailyQuest, if_pos h, StandsOrNone, hsame]
    exact hbefore
  | some progress =>
    obtain ⟨e, s, hstands⟩ := hbefore
    obtain ⟨hlast, hlatest, hstreak, ⟨dated, hdated, hdate⟩, hcounter⟩ := hstands
    obtain ⟨last, hmem, -, hlastAt⟩ := id hlast
    have hnow := @period_mono reset _ _ (hle last hmem)
    rw [← hsame] at hlast hlatest hstreak
    have hkept : StandsOrNone reset (update :: earlier) (some progress) :=
      ⟨e, s, hlast, hlatest, hstreak, ⟨dated, mem_cons_of_mem _ hdated, hdate⟩, hcounter⟩
    simp only [updateDailyQuest, if_pos h, date_lt_iff]
    split
    · simp only [setCriteriaProgress, ProgressType.newValue]
      split
      · exact hkept
      · refine ⟨e, s, hlast, hlatest, hstreak, ⟨update, by simp, rfl⟩, .inr (.inr ⟨rfl, ?_, ?_⟩)⟩
        · simp only
          omega
        · simp only
          omega
    · exact hkept

/-- A completion is counted unless it is one of the uncounted, and then its date stands
or it was the restart of a counter at one. -/
theorem StandsOrNone.completion (h : update.miscValue1 ≠ 0) :
    (Counts reset (update :: earlier) update.now (updateDailyQuest reset update before) ↔
        ¬Uncounted reset earlier update.now before) ∧
      (Counts reset (update :: earlier) update.now (updateDailyQuest reset update before) →
        StandsOrNone reset (update :: earlier) (updateDailyQuest reset update before)) := by
  have hdays := @completedDays_completion reset earlier _ h
  have hnowLast : ∀ p ∈ completedDays reset earlier, p ≤ period reset update.now := by
    rintro p ⟨last, hmem, -, rfl⟩
    exact period_mono (hle last hmem)
  have hlatest : ∀ p ∈ completedDays reset (update :: earlier), p ≤ period reset update.now := by
    rw [hdays]
    rintro p (rfl | hp)
    · exact Int.le_refl _
    · exact hnowLast p hp
  have hhere : period reset update.now ∈ completedDays reset (update :: earlier) := by simp [hdays]
  cases before with
  | none =>
    have hone : IsStreak (completedDays reset (update :: earlier)) (period reset update.now) 1 := by
      rw [hdays, show completedDays reset earlier = ∅ from hbefore]
      exact ⟨fun i hi => .inl (by omega), by rw [insert_empty_eq, Set.mem_singleton_iff]; omega⟩
    have hupdate : updateDailyQuest reset update none =
        some ⟨1, update.now, update.referencePlayer, true⟩ := by
      simp [updateDailyQuest, h, setCriteriaProgress]
    rw [hupdate]
    refine ⟨?_, fun _ => ⟨_, 1, hhere, hlatest, hone, ⟨update, by simp, rfl⟩, .inl ⟨rfl, rfl⟩⟩⟩
    simpa [Counts, Uncounted] using hone
  | some old =>
    obtain ⟨e, s, hstands⟩ := hbefore
    obtain ⟨dated, hdated, hdate⟩ := hstands.dated
    have hnow := hnowLast e hstands.last
    have hdateNow := @period_mono reset _ _ (hdate ▸ hle dated hdated)
    have hlt := hstands.lt
    have hcounter := hstands.counter
    obtain ⟨s', hstreak, hcases⟩ := hstands.streak.insert hstands.last hstands.latest hnow
    rw [← hdays] at hstreak
    obtain ⟨progress, hupdate, hafter⟩ := updateDailyQuest_completion h (by omega) hdateNow
    have hright : Counts reset (update :: earlier) update.now (some progress) ↔
        progress.counter.toNat = s' := by
      simp only [Counts, Option.some.injEq, exists_eq_left']
      exact ⟨fun hcounted => hcounted.unique hstreak, fun heq => heq ▸ hstreak⟩
    have hpos := hstands.streak.pos hstands.last
    have hprevious : period reset update.now - 1 ∈ completedDays reset earlier ↔
        e + 1 = period reset update.now ∨ e = period reset update.now ∧ 2 ≤ s := by
      constructor
      · intro hp
        have hle := hstands.latest _ hp
        by_cases hsame : e = period reset update.now
        · refine .inr ⟨hsame, Nat.le_of_not_lt fun hless => hstands.streak.2 ?_⟩
          rwa [← hsame, show (1 : Int) = (s : Nat) by omega] at hp
        · omega
      · rintro (hnext | ⟨hsame, htwo⟩)
        · rw [← hnext, Int.add_sub_cancel]
          exact hstands.last
        · rw [← hsame]
          exact hstands.streak.1 1 (by omega)
    have hzero : old.counter = 0 ↔ old.counter.toNat = 0 := UInt64.toNat_inj.symm
    rw [hupdate, hright]
    constructor
    · simp only [Uncounted, Option.some.injEq, exists_eq_left', hprevious, hzero]
      rcases hafter with ⟨hmissed, hone, -⟩ | ⟨hnext, hone, -⟩ | ⟨hsame, rfl⟩
      · omega
      · omega
      · omega
    · intro heq
      refine ⟨_, s', hhere, hlatest, hstreak, ?_, ?_⟩
      · rcases hafter with ⟨-, -, ⟨-, hkept⟩ | ⟨-, hstamped⟩⟩ | ⟨-, -, hstamped⟩ | ⟨-, rfl⟩
        · exact ⟨dated, mem_cons_of_mem _ hdated, hkept.trans hdate⟩
        · exact ⟨update, mem_cons_self, hstamped⟩
        · exact ⟨update, mem_cons_self, hstamped⟩
        · exact ⟨dated, mem_cons_of_mem _ hdated, hdate⟩
      · rcases hafter with ⟨hmissed, hone, ⟨hold, hkept⟩ | ⟨hold, hstamped⟩⟩ |
          ⟨hnext, hone, hstamped⟩ | ⟨hsame, rfl⟩
        · rw [hkept]
          omega
        · rw [hstamped]
          omega
        · rw [hstamped]
          omega
        · omega

end

theorem countsStreaks_cons : CountsStreaks reset (update :: earlier) ↔
    CountsStreaks reset earlier ∧ (update.miscValue1 ≠ 0 →
      Counts reset (update :: earlier) update.now (progressAfter reset (update :: earlier))) := by
  simp only [CountsStreaks, suffix_cons_iff, List.cons.injEq]
  constructor
  · intro hall
    exact ⟨fun u e hsuffix => hall u e (.inr hsuffix), hall _ _ (.inl ⟨rfl, rfl⟩)⟩
  · rintro ⟨hearlier, hhere⟩ u e (⟨rfl, rfl⟩ | hsuffix)
    · exact hhere
    · exact hearlier u e hsuffix

theorem misses_cons : Misses reset (update :: earlier) ↔ Misses reset earlier ∨
    (update.miscValue1 ≠ 0 ∧ Uncounted reset earlier update.now (progressAfter reset earlier)) := by
  simp only [Misses, suffix_cons_iff, List.cons.injEq]
  constructor
  · rintro ⟨u, e, ⟨rfl, rfl⟩ | hsuffix, hmiss⟩
    · exact .inr hmiss
    · exact .inl ⟨u, e, hsuffix, hmiss⟩
  · rintro (⟨u, e, hsuffix, hmiss⟩ | hmiss)
    · exact ⟨u, e, .inr hsuffix, hmiss⟩
    · exact ⟨update, earlier, .inl ⟨rfl, rfl⟩, hmiss⟩

theorem countsStreaks_stands
    (hsorted : updates.Pairwise fun update before => before.now ≤ update.now) :
    (CountsStreaks reset updates → StandsOrNone reset updates (progressAfter reset updates)) ∧
      (CountsStreaks reset updates ↔ ¬Misses reset updates) := by
  induction updates with
  | nil => simp [CountsStreaks, Misses, progressAfter, StandsOrNone, completedDays]
  | cons update earlier ih =>
    obtain ⟨hle, hsorted⟩ := List.pairwise_cons.mp hsorted
    obtain ⟨hstands, hiff⟩ := ih hsorted
    rw [countsStreaks_cons, misses_cons, not_or, ← hiff, progressAfter]
    by_cases h : update.miscValue1 = 0
    · simp only [h, ne_eq, not_true_eq_false, false_implies, and_true, false_and, not_false_eq_true]
      exact fun hearlier => (hstands hearlier).login hle h
    · simp only [h, ne_eq, not_false_eq_true, true_implies, true_and]
      constructor
      · rintro ⟨hearlier, hright⟩
        exact ((hstands hearlier).completion hle h).2 hright
      · exact and_congr_right fun hearlier => ((hstands hearlier).completion hle h).1

/-- In every timeline the counter is the streak after every completion exactly if no
completion goes uncounted. -/
theorem daily_streak_iff (reset : Int) (updates : List QuestUpdate)
    (hsorted : updates.Pairwise fun update before => before.now ≤ update.now) :
    CountsStreaks reset updates ↔ ¬Misses reset updates :=
  (countsStreaks_stands hsorted).2

theorem daily_streak_iff_lost : CountsStreaks 0 [⟨7, 259200, 1⟩, ⟨7, 172800, 1⟩, ⟨7, 0, 1⟩] ↔
    ¬Misses 0 [⟨7, 259200, 1⟩, ⟨7, 172800, 1⟩, ⟨7, 0, 1⟩] :=
  daily_streak_iff 0 _ (by decide)

/-- Completions on the first day, the third and the fourth, in one session: the counter
stays at one. -/
theorem daily_streak_lost : ¬CountsStreaks 0 [⟨7, 259200, 1⟩, ⟨7, 172800, 1⟩, ⟨7, 0, 1⟩] := by
  intro hall
  obtain ⟨progress, hafter, hstreak⟩ := hall _ _ (suffix_refl _) (by decide)
  have hone : progressAfter 0 [⟨7, 259200, 1⟩, ⟨7, 172800, 1⟩, ⟨7, 0, 1⟩] =
      some ⟨1, 0, 1, true⟩ := rfl
  rw [hone, Option.some.injEq] at hafter
  subst hafter
  exact hstreak.2 ⟨⟨7, 172800, 1⟩, by simp, by decide, rfl⟩

end LegionServer.Guarantees.DailyStreaks
