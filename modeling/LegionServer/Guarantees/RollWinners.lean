import LegionServer.Library.Transition
import LegionServer.Source.Looting.RollEffects
import Mathlib.Data.List.Perm.Basic

/-!
# Winners of group rolls

`AllPlayerVoted` finds a highest roll among the needs, or among the greedy votes where
nobody needs the item, in whatever order the map of votes is read.
-/
namespace LegionServer.Guarantees.RollWinners
open Library Source.Looting List

variable {G : Type*} {votes seen : List (G × PlayerRollVote)} {isSomeoneNeed : Bool}
  {winner : Option (G × PlayerRollVote)} {v w : G × PlayerRollVote}

/-- A vote of this kind that no other one of the kind exceeds. -/
structure Highest (kind : PlayerRollVote → Prop) (votes : List (G × PlayerRollVote))
    (w : G × PlayerRollVote) : Prop where
  mem : w ∈ votes
  ofKind : kind w.2
  highest : ∀ v ∈ votes, kind v.2 → v.2.rollNumber ≤ w.2.rollNumber

def Needs (roll : PlayerRollVote) : Prop := roll.vote = .need

structure Wins (votes : List (G × PlayerRollVote)) (winner : Option (G × PlayerRollVote)) :
    Prop where
  need : (∃ v ∈ votes, Needs v.2) → ∃ w, winner = some w ∧ Highest Needs votes w
  greedy : (∀ v ∈ votes, ¬Needs v.2) → (∃ v ∈ votes, v.2.greedy) →
    ∃ w, winner = some w ∧ Highest PlayerRollVote.greedy votes w
  nobody : (∀ v ∈ votes, ¬Needs v.2 ∧ ¬v.2.greedy) → winner = none

section scan

/-- The loop of `AllPlayerVoted` after some of the votes. -/
structure Foremost (seen : List (G × PlayerRollVote)) (isSomeoneNeed : Bool)
    (winner : Option (G × PlayerRollVote)) : Prop where
  need : isSomeoneNeed = true → ∃ w, winner = some w ∧ Highest Needs seen w
  unneeded : isSomeoneNeed = false → ∀ v ∈ seen, ¬Needs v.2
  greedy : isSomeoneNeed = false → ∀ w, winner = some w → Highest PlayerRollVote.greedy seen w
  nobody : isSomeoneNeed = false → winner = none → ∀ v ∈ seen, ¬v.2.greedy

variable {kind : PlayerRollVote → Prop}

theorem Highest.skip (h : Highest kind seen w)
    (hv : kind v.2 → v.2.rollNumber ≤ w.2.rollNumber) : Highest kind (seen ++ [v]) w := by
  refine ⟨mem_append_left _ h.mem, h.ofKind, fun u hu hkind => ?_⟩
  rcases mem_append.mp hu with hold | hnew
  · exact h.highest u hold hkind
  · rw [mem_singleton.mp hnew] at hkind ⊢
    exact hv hkind

theorem Highest.last (hv : kind v.2)
    (hbelow : ∀ u ∈ seen, kind u.2 → u.2.rollNumber ≤ v.2.rollNumber) :
    Highest kind (seen ++ [v]) v := by
  refine ⟨mem_append_right _ mem_cons_self, hv, fun u hu hkind => ?_⟩
  rcases mem_append.mp hu with hold | hnew
  · exact hbelow u hold hkind
  · obtain rfl := mem_singleton.mp hnew
    exact Nat.le_refl _

theorem forall_mem_snoc {p : G × PlayerRollVote → Prop} (h : ∀ u ∈ seen, p u) (hv : p v) :
    ∀ u ∈ seen ++ [v], p u := by
  intro u hu
  rcases mem_append.mp hu with hold | hnew
  · exact h u hold
  · rw [mem_singleton.mp hnew]
    exact hv

theorem not_greedy_of_need (hv : Needs v.2) : ¬v.2.greedy := by
  rintro (hgreed | hdisenchant)
  · rw [Needs, hgreed] at hv
    cases hv
  · rw [Needs, hdisenchant] at hv
    cases hv

section
variable (h : Foremost seen isSomeoneNeed winner)
include h

theorem Foremost.pass (hneed : ¬Needs v.2) (hgreedy : ¬v.2.greedy) :
    Foremost (seen ++ [v]) isSomeoneNeed winner where
  need hsome := by
    obtain ⟨w, hw, hhigh⟩ := h.need hsome
    exact ⟨w, hw, hhigh.skip fun hv => absurd hv hneed⟩
  unneeded hnone := forall_mem_snoc (h.unneeded hnone) hneed
  greedy hnone w hw := (h.greedy hnone w hw).skip fun hv => absurd hv hgreedy
  nobody hnone hwinner := forall_mem_snoc (h.nobody hnone hwinner) hgreedy

theorem Foremost.needs (hv : Needs v.2) :
    Foremost (seen ++ [v]) true
      (if !isSomeoneNeed || v.2.beats winner then some v else winner) where
  need _ := by
    cases isSomeoneNeed with
    | false =>
      exact ⟨v, rfl, .last hv fun u hu hneed => absurd hneed (h.unneeded rfl u hu)⟩
    | true =>
      obtain ⟨w, rfl, hhigh⟩ := h.need rfl
      by_cases hbetter : w.2.rollNumber < v.2.rollNumber
      · refine ⟨v, by simp [PlayerRollVote.beats, hbetter], .last hv fun u hu hneed => ?_⟩
        exact Nat.le_trans (hhigh.highest u hu hneed) (Nat.le_of_lt hbetter)
      · exact ⟨w, by simp [PlayerRollVote.beats, hbetter],
          hhigh.skip fun _ => Nat.le_of_not_lt hbetter⟩
  unneeded hnone := by cases hnone
  greedy hnone := by cases hnone
  nobody hnone := by cases hnone

theorem Foremost.greeds (hv : v.2.greedy) :
    Foremost (seen ++ [v]) isSomeoneNeed
      (if !isSomeoneNeed && v.2.beats winner then some v else winner) := by
  have hneed : ¬Needs v.2 := fun hneed => not_greedy_of_need hneed hv
  cases isSomeoneNeed with
  | true =>
    obtain ⟨w, hw, hhigh⟩ := h.need rfl
    refine ⟨fun _ => ⟨w, hw, hhigh.skip fun hn => absurd hn hneed⟩, ?_, ?_, ?_⟩
    · intro hnone
      cases hnone
    · intro hnone
      cases hnone
    · intro hnone
      cases hnone
  | false =>
    refine ⟨(nomatch ·), fun _ => forall_mem_snoc (h.unneeded rfl) hneed, ?_, ?_⟩
    · intro _ w hw
      cases winner with
      | none =>
        obtain rfl : v = w := by simpa [PlayerRollVote.beats] using hw
        exact .last hv fun u hu hgreedy => absurd hgreedy (h.nobody rfl rfl u hu)
      | some best =>
        have hbest := h.greedy rfl best rfl
        by_cases hbetter : best.2.rollNumber < v.2.rollNumber
        · obtain rfl : v = w := by simpa [PlayerRollVote.beats, hbetter] using hw
          exact .last hv fun u hu hgreedy =>
            Nat.le_trans (hbest.highest u hu hgreedy) (Nat.le_of_lt hbetter)
        · obtain rfl : best = w := by simpa [PlayerRollVote.beats, hbetter] using hw
          exact hbest.skip fun _ => Nat.le_of_not_lt hbetter
    · intro _ hwinner
      cases winner with
      | none => simp [PlayerRollVote.beats] at hwinner
      | some best =>
        split at hwinner
        · cases hwinner
        · cases hwinner

end

/-- After each vote the winner is the foremost so far. -/
theorem allPlayerVoted_foremost (rest : List (G × PlayerRollVote)) :
    ∀ (seen : List (G × PlayerRollVote)) (isSomeoneNeed : Bool)
      (winner : Option (G × PlayerRollVote)), Foremost seen isSomeoneNeed winner →
      ∃ need, Foremost (seen ++ rest) need (allPlayerVoted rest isSomeoneNeed winner).2 := by
  induction rest with
  | nil =>
    intro seen isSomeoneNeed winner h
    exact ⟨isSomeoneNeed, by simpa [allPlayerVoted] using h⟩
  | cons v rest ih =>
    intro seen isSomeoneNeed winner h
    obtain ⟨player, roll⟩ := v
    rw [append_cons]
    unfold allPlayerVoted
    cases hvote : roll.vote with
    | need =>
      have hnext := h.needs (v := (player, roll)) hvote
      split at hnext
      · rename_i hbetter
        rw [if_pos hbetter]
        exact ih _ _ _ hnext
      · rename_i hbetter
        rw [if_neg hbetter]
        have hsome : isSomeoneNeed = true := by
          cases isSomeoneNeed with
          | true => rfl
          | false => exact absurd rfl hbetter
        rw [hsome]
        exact ih _ _ _ hnext
    | greed =>
      have hnext := h.greeds (v := (player, roll)) (.inl hvote)
      dsimp only
      split at hnext
      · rename_i hbetter
        rw [if_pos hbetter]
        exact ih _ _ _ hnext
      · rename_i hbetter
        rw [if_neg hbetter]
        exact ih _ _ _ hnext
    | disenchant =>
      have hnext := h.greeds (v := (player, roll)) (.inr hvote)
      split at hnext
      · rename_i hbetter
        rw [if_pos hbetter]
        exact ih _ _ _ hnext
      · rename_i hbetter
        rw [if_neg hbetter]
        exact ih _ _ _ hnext
    | notEmitedYet => exact ih _ _ _ (h.pass (by simp [Needs, hvote])
        (by simp [PlayerRollVote.greedy, hvote]))
    | pass => exact ih _ _ _ (h.pass (by simp [Needs, hvote])
        (by simp [PlayerRollVote.greedy, hvote]))
    | notValid => exact ih _ _ _ (h.pass (by simp [Needs, hvote])
        (by simp [PlayerRollVote.greedy, hvote]))

theorem Foremost.wins (h : Foremost votes isSomeoneNeed winner) : Wins votes winner := by
  cases isSomeoneNeed with
  | true =>
    obtain ⟨w, hw, hhigh⟩ := h.need rfl
    refine ⟨fun _ => ⟨w, hw, hhigh⟩, fun hnone _ => ?_, fun hnone => ?_⟩
    · exact absurd hhigh.ofKind (hnone w hhigh.mem)
    · exact absurd hhigh.ofKind (hnone w hhigh.mem).1
  | false =>
    refine ⟨fun ⟨v, hv, hneed⟩ => absurd hneed (h.unneeded rfl v hv), ?_, fun hnone => ?_⟩
    · rintro - ⟨v, hv, hgreedy⟩
      cases hwinner : winner with
      | none => exact absurd hgreedy (h.nobody rfl hwinner v hv)
      | some w => exact ⟨w, rfl, h.greedy rfl w hwinner⟩
    · cases hwinner : winner with
      | none => rfl
      | some w =>
        have hbest := h.greedy rfl w hwinner
        exact absurd hbest.ofKind (hnone w hbest.mem).2

/-- The winner that `AllPlayerVoted` finds, for any votes in any order. -/
theorem allPlayerVoted_wins (votes : List (G × PlayerRollVote)) :
    Wins votes (allPlayerVoted votes false none).2 := by
  have hstart : Foremost ([] : List (G × PlayerRollVote)) false none :=
    ⟨by simp, by simp, by simp, by simp⟩
  obtain ⟨need, h⟩ := allPlayerVoted_foremost votes [] false none hstart
  exact h.wins

theorem Wins.voted (h : Wins votes (some w)) : w ∈ votes ∧ (Needs w.2 ∨ w.2.greedy) := by
  by_cases hneed : ∃ v ∈ votes, Needs v.2
  · obtain ⟨w', hw', hhigh⟩ := h.need hneed
    cases hw'
    exact ⟨hhigh.mem, Or.inl hhigh.ofKind⟩
  · by_cases hgreedy : ∃ v ∈ votes, v.2.greedy
    · obtain ⟨w', hw', hhigh⟩ := h.greedy (fun v hv hn => hneed ⟨v, hv, hn⟩) hgreedy
      cases hw'
      exact ⟨hhigh.mem, Or.inr hhigh.ofKind⟩
    · cases h.nobody fun v hv => ⟨fun hn => hneed ⟨v, hv, hn⟩, fun hg => hgreedy ⟨v, hv, hg⟩⟩

end scan

section runs

variable [DecidableEq G] {env : Surroundings G} {item : LootItem G} {roll : LootRoll G}
  {player : G} {vote : RollVote} {draw : Nat}

def Open (votes : List (G × PlayerRollVote)) (player : G) : Prop :=
  ∃ roll, (player, roll) ∈ votes ∧ roll.vote = .notEmitedYet

/-- A vote of this player, whatever it is, changes nothing. -/
def Counted (votes : List (G × PlayerRollVote)) (player : G) : Prop :=
  ∀ vote draw, castVote player vote draw votes = votes

theorem castVote_keys (votes : List (G × PlayerRollVote)) :
    (castVote player vote draw votes).map Prod.fst = votes.map Prod.fst := by
  induction votes with
  | nil => rfl
  | cons v votes ih =>
    rw [castVote]
    split
    · split <;> rfl
    · rw [map_cons, map_cons, ih]

theorem counted_of_not_open (h : ¬Open votes player) : Counted votes player := by
  intro vote draw
  induction votes with
  | nil => rfl
  | cons v votes ih =>
    have hrest : ¬Open votes player := fun ⟨roll, hmem, hvote⟩ =>
      h ⟨roll, mem_cons_of_mem _ hmem, hvote⟩
    rw [castVote]
    split
    · rename_i heq
      subst heq
      rw [if_neg fun hvote => h ⟨v.2, mem_cons_self, hvote⟩]
    · rw [ih hrest]

/-- A vote on the entry of a player that waits for one. -/
def giveVote (player : G) (vote : RollVote) (draw : Nat) (v : G × PlayerRollVote) :
    G × PlayerRollVote :=
  if v.1 = player ∧ v.2.vote = .notEmitedYet then
    (v.1, { vote, rollNumber := if vote = .pass ∨ vote = .notValid then v.2.rollNumber else draw })
  else v

theorem castVote_eq_map (hnodup : (votes.map Prod.fst).Nodup) :
    castVote player vote draw votes = votes.map (giveVote player vote draw) := by
  induction votes with
  | nil => rfl
  | cons v votes ih =>
    obtain ⟨hnot, hrest⟩ := nodup_cons.mp hnodup
    rw [castVote, map_cons]
    split
    · rename_i heq
      have hsame : votes.map (giveVote player vote draw) = votes := by
        refine (map_congr_left fun u hu => ?_).trans votes.map_id
        refine if_neg fun h => hnot ?_
        rw [heq, ← h.1]
        exact mem_map_of_mem hu
      rw [hsame]
      by_cases hvote : v.2.vote = .notEmitedYet
      · rw [if_pos hvote, giveVote, if_pos (And.intro heq hvote)]
      · rw [if_neg hvote, giveVote, if_neg fun h => hvote h.2]
    · rename_i hne
      rw [ih hrest, giveVote, if_neg fun h => hne h.1]

theorem open_castVote (vote : RollVote) (draw : Nat)
    (hnodup : (votes.map Prod.fst).Nodup) (other : G) :
    Open (castVote player vote draw votes) other ↔
      Open votes other ∧ (other = player → vote = .notEmitedYet) := by
  rw [castVote_eq_map hnodup]
  constructor
  · rintro ⟨roll, hmem, hvote⟩
    obtain ⟨v, hv, heq⟩ := mem_map.mp hmem
    rw [giveVote] at heq
    split at heq
    · rename_i hopen
      obtain ⟨rfl, rfl⟩ := Prod.mk.inj heq
      exact ⟨⟨v.2, hv, hopen.2⟩, fun _ => hvote⟩
    · rename_i hclosed
      subst heq
      exact ⟨⟨roll, hv, hvote⟩, fun heq => absurd ⟨heq, hvote⟩ hclosed⟩
  · rintro ⟨⟨roll, hmem, hvote⟩, hplayer⟩
    by_cases heq : other = player
    · refine ⟨_, mem_map.mpr ⟨_, hmem, if_pos ⟨heq, hvote⟩⟩, hplayer heq⟩
    · exact ⟨roll, mem_map.mpr ⟨_, hmem, if_neg fun h => heq h.1⟩, hvote⟩

theorem not_counted_of_open (hnodup : (votes.map Prod.fst).Nodup) (h : Open votes player) :
    ¬Counted votes player := by
  intro hcounted
  have hsame := (open_castVote .pass 0 hnodup player).mp ((hcounted .pass 0).symm ▸ h)
  cases hsame.2 rfl

theorem counted_iff (hnodup : (votes.map Prod.fst).Nodup) :
    Counted votes player ↔ ¬Open votes player :=
  ⟨fun hcounted hopen => not_counted_of_open hnodup hopen hcounted, counted_of_not_open⟩

structure Rolling (G : Type*) where
  roll : LootRoll G
  callers : List G := []

inductive RollCall (G : Type*) where
  | playerVote (player : G) (vote : RollVote) (draw : Nat)
  /-- The map of votes is read in another order from now on. -/
  | reorder

def RollCall.performs (s s' : Rolling G) : RollCall G → Prop
  | .playerVote player vote draw => s' =
      { roll := { s.roll with rollVoteMap := castVote player vote draw s.roll.rollVoteMap }
        callers := player :: s.callers }
  | .reorder => ∃ votes, votes.Perm s.roll.rollVoteMap ∧
      s' = { s with roll := { s.roll with rollVoteMap := votes } }

/-- A roll that `TryToStart` has started for an item. -/
def Started (env : Surroundings G) (item : LootItem G) (roll : LootRoll G) : Prop :=
  item.allowedGUIDs.Nodup ∧ ∃ loot lootListId loot', loot.items[lootListId]? = some item ∧
    tryToStart env loot lootListId = (true, loot', roll)

def rolling (env : Surroundings G) (item : LootItem G) : System (Rolling G) (RollCall G) where
  init s := Started env item s.roll ∧ s.callers = []
  step l s s' := l.performs s s'

structure Fair (env : Surroundings G) (item : LootItem G) (s : Rolling G) : Prop where
  once : ∀ player ∈ s.callers, Counted s.roll.rollVoteMap player
  wins : Wins s.roll.rollVoteMap s.roll.winner
  allowed : ∀ w, s.roll.winner = some w → item.hasAllowedLooter w.1 ∧ env.onMap w.1
  ends : ∀ now, s.roll.due now ↔
    (∀ v ∈ s.roll.rollVoteMap, v.2.vote ≠ .notEmitedYet) ∨ s.roll.endTime ≤ now

/-- Nobody votes with the value of a vote not yet given. -/
def RollCall.Genuine (l : RollCall G) (s : Rolling G) : Prop :=
  ∀ player vote draw, l = .playerVote player vote draw →
    Open s.roll.rollVoteMap player → vote ≠ .notEmitedYet

structure OfAllowed (env : Surroundings G) (item : LootItem G)
    (votes : List (G × PlayerRollVote)) : Prop where
  nodup : (votes.map Prod.fst).Nodup
  allowed : ∀ v ∈ votes, v.2.vote ≠ .notValid → item.hasAllowedLooter v.1 ∧ env.onMap v.1

theorem Started.ofAllowed (h : Started env item roll) : OfAllowed env item roll.rollVoteMap := by
  obtain ⟨hnodup, loot, lootListId, loot', hitem, hstart⟩ := h
  simp only [tryToStart, hitem] at hstart
  split at hstart
  · obtain ⟨-, -, rfl⟩ := hstart
    refine ⟨?_, fun v hv hvalid => ?_⟩
    · rw [map_map]
      exact (map_id item.allowedGUIDs).symm ▸ hnodup
    · obtain ⟨looter, -, rfl⟩ := mem_map.mp hv
      split at hvalid
      · exact absurd rfl hvalid
      · rename_i hok
        simp only [Bool.not_eq_true', Bool.not_eq_false, Bool.and_eq_true] at hok
        exact ⟨hok.2, hok.1⟩
  · cases hstart

theorem OfAllowed.castVote (h : OfAllowed env item votes) :
    OfAllowed env item (castVote player vote draw votes) := by
  refine ⟨(castVote_keys votes).symm ▸ h.nodup, fun v hv hvalid => ?_⟩
  rw [castVote_eq_map h.nodup] at hv
  obtain ⟨u, hu, rfl⟩ := mem_map.mp hv
  rw [giveVote] at hvalid ⊢
  split at hvalid
  · rename_i hopen
    have hallowed := h.allowed u hu (by rw [hopen.2]; decide)
    rw [if_pos hopen]
    exact hallowed
  · rename_i hclosed
    rw [if_neg hclosed]
    exact h.allowed u hu hvalid

theorem OfAllowed.perm {votes' : List (G × PlayerRollVote)} (h : OfAllowed env item votes)
    (hperm : votes'.Perm votes) : OfAllowed env item votes' :=
  ⟨(hperm.map Prod.fst).nodup_iff.mpr h.nodup, fun v hv => h.allowed v (hperm.mem_iff.mp hv)⟩

theorem fair_iff {s : Rolling G} (h : OfAllowed env item s.roll.rollVoteMap) :
    Fair env item s ↔ ∀ player ∈ s.callers, ¬Open s.roll.rollVoteMap player := by
  constructor
  · intro hfair player hplayer
    exact (counted_iff h.nodup).mp (hfair.once player hplayer)
  · intro hclosed
    refine ⟨fun player hplayer => counted_of_not_open (hclosed player hplayer),
      allPlayerVoted_wins _, fun w hw => ?_, due_iff s.roll⟩
    have hwins := allPlayerVoted_wins s.roll.rollVoteMap
    rw [show (allPlayerVoted s.roll.rollVoteMap false none).2 = some w from hw] at hwins
    obtain ⟨hmem, hvoted⟩ := hwins.voted
    refine h.allowed w hmem fun hinvalid => ?_
    rcases hvoted with hneed | hgreed | hdisenchant
    · rw [Needs, hinvalid] at hneed
      cases hneed
    · rw [hinvalid] at hgreed
      cases hgreed
    · rw [hinvalid] at hdisenchant
      cases hdisenchant

theorem performs_iff {s s' : Rolling G} {l : RollCall G}
    (h : OfAllowed env item s.roll.rollVoteMap ∧
      ∀ player ∈ s.callers, ¬Open s.roll.rollVoteMap player) (hstep : l.performs s s') :
    OfAllowed env item s'.roll.rollVoteMap ∧
      ((∀ player ∈ s'.callers, ¬Open s'.roll.rollVoteMap player) ↔ l.Genuine s) := by
  obtain ⟨hallowed, hclosed⟩ := h
  cases l with
  | playerVote player vote draw =>
    obtain rfl := hstep
    refine ⟨hallowed.castVote, ?_⟩
    simp only [forall_mem_cons, open_castVote _ _ hallowed.nodup, RollCall.Genuine,
      RollCall.playerVote.injEq]
    constructor
    · rintro ⟨hfirst, -⟩ player' vote' draw' ⟨rfl, rfl, rfl⟩ hopen hvote
      exact hfirst ⟨hopen, fun _ => hvote⟩
    · intro hgenuine
      refine ⟨fun ⟨hopen, hvote⟩ => ?_, fun other hother hopen => hclosed other hother hopen.1⟩
      exact hgenuine player vote draw ⟨rfl, rfl, rfl⟩ hopen (hvote trivial)
  | reorder =>
    obtain ⟨votes, hperm, rfl⟩ := hstep
    refine ⟨hallowed.perm hperm, ?_⟩
    refine iff_of_true (fun player hplayer => ?_) fun player vote draw h => by cases h
    rintro ⟨roll, hmem, hvote⟩
    exact hclosed player hplayer ⟨roll, hperm.mem_iff.mp hmem, hvote⟩

/-- **Rolls are won by the highest.** Read in any order, a map of votes has the winner it is to
have; and a roll is fair as long as nobody votes with the value of a vote not yet given. -/
theorem roll_fair_iff (env : Surroundings G) (item : LootItem G) :
    (∀ votes : List (G × PlayerRollVote),
      ((allPlayerVoted votes false none).1 = 0 ↔ ∀ v ∈ votes, v.2.vote ≠ .notEmitedYet) ∧
        Wins votes (allPlayerVoted votes false none).2) ∧
    ∀ roll, Started env item roll → ∀ path, (rolling env item).Path ⟨roll, []⟩ path →
      ((∀ visit ∈ path, Fair env item visit.2) ↔
        ((rolling env item).guarded RollCall.Genuine).Path ⟨roll, []⟩ path) := by
  refine ⟨fun votes => ⟨allPlayerVoted_missing votes false none, allPlayerVoted_wins votes⟩, ?_⟩
  intro roll hstart path hpath
  refine System.forall_mem_path_iff (fun s => OfAllowed env item s.roll.rollVoteMap ∧
      ∀ player ∈ s.callers, ¬Open s.roll.rollVoteMap player)
    (fun l s s' h hstep hgenuine => ?_) (fun l s s' h hstep => ?_)
    ⟨hstart.ofAllowed, fun _ hmem => absurd hmem not_mem_nil⟩ hpath
  · obtain ⟨hallowed, hcounted⟩ := performs_iff h hstep
    exact ⟨hallowed, hcounted.mpr hgenuine⟩
  · obtain ⟨hallowed, hcounted⟩ := performs_iff h hstep
    exact (fair_iff hallowed).trans hcounted

def raidRoll : Surroundings Nat where
  now := 0
  onMap player := player < 3
  connected _ := true
  passOnGroupLoot _ := false
  canStoreNewItem _ _ := true
  canStoreMaterial _ _ := true
  disenchantLoot _ _ := none

def helmet : LootItem Nat where
  itemid := 7
  lootListId := 0
  allowedGUIDs := [1, 2, 5]
  count := 1
  freeforall := false
  needsQuest := false
  followLootRules := true

def helmetRoll : LootRoll Nat where
  rollVoteMap := [(1, { vote := .notEmitedYet }), (2, { vote := .notEmitedYet }), (5, {})]
  isStarted := true
  endTime := LOOT_ROLL_TIMEOUT

theorem helmetRoll_started : Started raidRoll helmet helmetRoll :=
  ⟨by decide, { items := [helmet], lootMethod := .groupLoot }, 0, _, rfl, rfl⟩

def helmetNeeded : Rolling Nat :=
  ⟨{ helmetRoll with rollVoteMap := castVote 1 .need 50 helmetRoll.rollVoteMap }, [1]⟩

def helmetPassed : Rolling Nat :=
  ⟨{ helmetRoll with rollVoteMap := castVote 2 .pass 70 helmetNeeded.roll.rollVoteMap }, [2, 1]⟩

theorem roll_fair_iff_helmet :
    Fair raidRoll helmet helmetNeeded ∧ Fair raidRoll helmet helmetPassed := by
  have hgenuine : ∀ (player : Nat) vote draw s, vote ≠ .notEmitedYet →
      RollCall.Genuine (.playerVote player vote draw) s := by
    rintro player vote draw s hvote _ _ _ h -
    cases h
    exact hvote
  have hfair := ((roll_fair_iff raidRoll helmet).2 helmetRoll helmetRoll_started
    [(.playerVote 1 .need 50, helmetNeeded), (.playerVote 2 .pass 70, helmetPassed)]
    ⟨rfl, rfl, trivial⟩).mpr
      ⟨⟨hgenuine _ _ _ _ nofun, rfl⟩, ⟨hgenuine _ _ _ _ nofun, rfl⟩, trivial⟩
  exact ⟨hfair _ mem_cons_self, hfair _ (mem_cons_of_mem _ mem_cons_self)⟩

/-- A player who votes with the value of a vote not yet given can vote again. -/
theorem votes_twice : Started raidRoll helmet helmetRoll ∧
    ∃ s, (RollCall.playerVote 1 .notEmitedYet 50).performs ⟨helmetRoll, []⟩ s ∧
      ¬Fair raidRoll helmet s ∧
      castVote 1 .need 60 s.roll.rollVoteMap ≠ s.roll.rollVoteMap := by
  have hchanges : castVote 1 .need 60 (castVote 1 .notEmitedYet 50 helmetRoll.rollVoteMap) ≠
      castVote 1 .notEmitedYet 50 helmetRoll.rollVoteMap := by decide
  refine ⟨helmetRoll_started, _, rfl, fun hfair => ?_, hchanges⟩
  exact hchanges (hfair.once 1 mem_cons_self .need 60)

end runs

end LegionServer.Guarantees.RollWinners
