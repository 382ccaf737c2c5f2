import LegionServer.Guarantees.ThreatStates

/-!
# Choosing a victim

`ReselectVictim` looks at the highest reference and walks down from it no further
than it must. It chooses the victim that a look at the whole list would choose.
-/
namespace LegionServer.Guarantees.VictimSelection
open Library Source.Combat Guarantees.ThreatStates ThreatWorld ThreatReference

variable {U H : Type*} {q : PriorityQueue RefId SortKey H} {view : View U}
  {w : ThreatWorld U H} {a : U} {victim : Option RefId}

/-- "AI notifies are processed in ::UpdateVictim caller": the online states are up to date. -/
def Refreshed (view : View U) (w : ThreatWorld U H) (a : U) : Prop :=
  ∀ entry ∈ view.entries (w.entries a),
    ThreatWorld.shouldBeOffline view (w.ref entry.2) = (w.ref entry.2).isOffline

structure InOrder (orders : q.Orders) (w : ThreatWorld U H) (a : U) : Prop where
  wellFormed : orders.WellFormed w.sortKeys (w.heap a)
  current : ∀ id, (w.manager a).currentVictimRef = some id → id ∈ q.elements (w.heap a)
  fixate : ∀ id, (w.manager a).fixateRef = some id → id ∈ q.elements (w.heap a)

/-- "fixated target is always preferred". -/
def FixateAvailable (w : ThreatWorld U H) (a : U) (id : RefId) : Prop :=
  (w.manager a).fixateRef = some id ∧ (w.ref id).isAvailable = true

structure Selected (q : PriorityQueue RefId SortKey H) (view : View U) (w : ThreatWorld U H)
    (a : U) (victim : Option RefId) : Prop where
  fixated : ∀ id, FixateAvailable w a id → victim = some id
  none_iff : victim = none ↔ ∀ id ∈ q.elements (w.heap a), (w.ref id).isOffline = true
  top : (∀ id, ¬FixateAvailable w a id) → (∃ id ∈ q.elements (w.heap a), (w.ref id).isAvailable) →
    (∀ old, (w.manager a).currentVictimRef = some old → (w.ref old).isOffline = true) →
    victim.isSome = true ∧ victim = q.top (w.heap a)
  contested : (∀ id, ¬FixateAvailable w a id) →
    ∀ old, (w.manager a).currentVictimRef = some old → (w.ref old).isAvailable = true →
    ∃ x, victim = some x ∧ ThreatWorld.Wins view w a (q.elements (w.heap a)) old x

theorem isOffline_iff {ref : ThreatReference U} :
    ref.isOffline = true ↔ ¬ref.isAvailable = true := by
  simp [isOffline, isAvailable]

theorem offline_of_highest {id highest : RefId} (hle : w.sortKeys id ≤ w.sortKeys highest)
    (hoffline : (w.ref highest).isOffline = true) : (w.ref id).isOffline = true := by
  have honline : (w.ref highest).online = .offline := by
    simpa [isOffline] using hoffline
  have hle := sortKey_le_iff.mp hle
  rw [honline] at hle
  rcases hle with hle | ⟨hle, -⟩
  · exact absurd hle (Nat.not_lt_zero _)
  · simpa [isOffline] using hle

theorem wins_perm {l l' : List RefId} {old x : RefId} (hperm : l.Perm l')
    (h : ThreatWorld.Wins view w a l old x) : ThreatWorld.Wins view w a l' old x := by
  unfold ThreatWorld.Wins at *
  simpa only [hperm.mem_iff] using h

section choice

variable (hq : q.Contents) (orders : q.Orders) (hsorts : orders.Sorts) (h : InOrder orders w a)
include hq hsorts h

theorem chooseVictim_contested {old highest : RefId} (hold : old ∈ q.elements (w.heap a))
    (htop : q.top (w.heap a) = some highest) :
    Ends (fun _ => False) (if highest = old then .ok (some highest)
      else if !(w.ref old).compareReferencesLT (w.ref highest) (11 / 10) then .ok (some old)
      else if (w.ref old).compareReferencesLT (w.ref highest) (13 / 10) then .ok (some highest)
      else if view.isWithinMeleeRange a (w.ref highest).victim then .ok (some highest)
      else (w.searchVictim view a old (q.ordered w.sortKeys (w.heap a))).map some)
      fun victim => ∃ x, victim = some x ∧
        ThreatWorld.Wins view w a (q.elements (w.heap a)) old x := by
  have hhighest := hq.top_mem _ _ htop
  have hle : ∀ y ∈ q.elements (w.heap a), w.sortKeys y ≤ w.sortKeys highest :=
    fun y hy => orders.top_max h.wellFormed htop hy
  have habove : ∀ y ∈ q.elements (w.heap a),
      (w.ref highest).compareReferencesLT (w.ref y) 1 = true → ¬ThreatWorld.Beats view w a old y := by
    intro y hy hlt
    rw [compareReferencesLT_one] at hlt
    exact absurd (hle y hy) (not_le_of_gt hlt)
  split
  · rename_i heq
    subst heq
    exact ⟨highest, rfl, hold, .inl ⟨rfl, fun y hy => not_beats_of_le (hle y hy)⟩⟩
  split
  · rename_i hlt
    have hlt : (w.ref old).compareReferencesLT (w.ref highest) (11 / 10) ≠ true := by
      simpa using hlt
    exact ⟨old, rfl, hold, .inl ⟨rfl, fun y hy => not_beats_below (hle y hy) hlt⟩⟩
  rename_i h110
  have h110 : (w.ref old).compareReferencesLT (w.ref highest) (11 / 10) = true := by
    simpa using h110
  split
  · rename_i h130
    exact ⟨highest, rfl, hhighest, .inr ⟨.inl h130, habove⟩⟩
  rename_i h130
  split
  · rename_i hmelee
    exact ⟨highest, rfl, hhighest, .inr ⟨.inr ⟨h110, hmelee⟩, habove⟩⟩
  have hperm := hq.ordered_perm w.sortKeys (w.heap a)
  have hbelow : ∀ y ∈ q.ordered w.sortKeys (w.heap a),
      (w.ref old).compareReferencesLT (w.ref y) (13 / 10) ≠ true := fun y hy hlt =>
    h130 (compareReferencesLT_mono (hle y (hperm.mem_iff.mp hy)) hlt)
  refine Ends.map ((searchVictim_wins (hperm.mem_iff.mpr hold)
    (hsorts h.wellFormed) hbelow).mono fun x hx => ?_)
  exact ⟨x, rfl, wins_perm hperm hx⟩

/-- The walk ends with the victim that the full scan selects. -/
theorem chooseVictim_selected (hne : q.elements (w.heap a) ≠ []) :
    Ends (fun _ => False) (w.chooseVictim q view a) (Selected q view w a) := by
  obtain ⟨highest, htop⟩ := Option.ne_none_iff_exists'.mp fun hnone =>
    hne ((hq.top_none _).mp hnone)
  have hhighest := hq.top_mem _ _ htop
  have hle : ∀ y ∈ q.elements (w.heap a), w.sortKeys y ≤ w.sortKeys highest :=
    fun y hy => orders.top_max h.wellFormed htop hy
  unfold chooseVictim
  split
  · rename_i fixateRef hfixate
    obtain ⟨hfixate, havailable⟩ := Option.filter_eq_some_iff.mp hfixate
    have hfound : FixateAvailable w a fixateRef := ⟨hfixate, havailable⟩
    refine ⟨fun id hid => hfixate.symm.trans hid.1, ?_, fun hnot => absurd hfound (hnot _),
      fun hnot => absurd hfound (hnot _)⟩
    refine iff_of_false nofun fun hall => ?_
    exact isOffline_iff.mp (hall fixateRef (h.fixate _ hfixate)) havailable
  · rename_i hfixate
    have hnot : ∀ id, ¬FixateAvailable w a id := by
      intro id hid
      rw [Option.filter_eq_none_iff] at hfixate
      exact hfixate id hid.1 hid.2
    rw [htop]
    dsimp only
    split
    · rename_i hunavailable
      have hoffline : (w.ref highest).isOffline = true :=
        isOffline_iff.mpr (by simpa using hunavailable)
      have hall : ∀ id ∈ q.elements (w.heap a), (w.ref id).isOffline = true :=
        fun id hid => offline_of_highest (hle id hid) hoffline
      refine ⟨fun id hid => absurd hid (hnot id), iff_of_true rfl hall, ?_, ?_⟩
      · rintro - ⟨id, hid, havailable⟩
        exact absurd havailable (isOffline_iff.mp (hall id hid))
      · intro _ old hold havailable
        exact absurd havailable (isOffline_iff.mp (hall old (h.current old hold)))
    · rename_i havailable
      have havailable : (w.ref highest).isAvailable = true := by simpa using havailable
      have hsome : ∀ x : RefId, (some x = none ↔ ∀ id ∈ q.elements (w.heap a),
          (w.ref id).isOffline = true) := fun x =>
        iff_of_false nofun fun hall => isOffline_iff.mp (hall highest hhighest) havailable
      split
      · rename_i hcurrent
        rw [Option.filter_eq_none_iff] at hcurrent
        refine ⟨fun id hid => absurd hid (hnot id), hsome highest,
          fun _ _ _ => ⟨rfl, htop.symm⟩, fun _ old hold havailable => ?_⟩
        refine absurd ?_ (hcurrent old hold)
        rw [Bool.not_eq_true']
        exact eq_false_of_ne_true fun hoffline => isOffline_iff.mp hoffline havailable
      · rename_i old hcurrent
        obtain ⟨hold, honline⟩ := Option.filter_eq_some_iff.mp hcurrent
        have honline : ¬(w.ref old).isOffline = true := by simpa using honline
        refine (chooseVictim_contested hq orders hsorts h (h.current old hold) htop).mono ?_
        rintro victim ⟨x, rfl, hwins⟩
        refine ⟨fun id hid => absurd hid (hnot id), hsome x, fun _ _ hall => ?_,
          fun _ old' hold' _ => ?_⟩
        · exact absurd (hall old hold) honline
        · cases hold.symm.trans hold'
          exact ⟨x, rfl, hwins⟩

end choice

variable [DecidableEq U]

theorem updateOnlineStates_refreshed (h : Refreshed view w a) :
    w.updateOnlineStates q view a = w := by
  have hloop : ∀ l : List (Σ _ : U, RefId), (∀ entry ∈ l,
      shouldBeOffline view (w.ref entry.2) = (w.ref entry.2).isOffline) →
      l.foldl (fun w entry => w.updateOffline q view entry.2) w = w := by
    intro l
    induction l with
    | nil => exact fun _ => rfl
    | cons entry rest ih =>
      intro hl
      rw [List.forall_mem_cons] at hl
      rw [List.foldl_cons, updateOffline, if_pos hl.1]
      exact ih hl.2
  exact hloop _ h

variable (hq : q.Contents) (orders : q.Orders) (hsorts : orders.Sorts) (h : InOrder orders w a)
include hq hsorts h

/-- The choice never aborts, and agrees with a scan of the whole list. -/
theorem reselects (hne : q.elements (w.heap a) ≠ []) (hrefreshed : Refreshed view w a) :
    ∃ victim, w.reselectVictim q view a = .ok (w, victim) ∧ Selected q view w a victim := by
  have hnotEmpty : w.isThreatListEmpty q a = false := by
    simpa [isThreatListEmpty, List.isEmpty_iff] using hne
  have hchoice : Ends (fun _ => False) (w.chooseVictim q view a) (Selected q view w a) :=
    chooseVictim_selected hq orders hsorts h hne
  rw [reselectVictim, hnotEmpty, if_neg Bool.false_ne_true]
  dsimp only
  rw [updateOnlineStates_refreshed hrefreshed]
  cases hvictim : w.chooseVictim q view a with
  | error fault => exact (hchoice.may_of_error hvictim).elim
  | ok victim => exact ⟨victim, rfl, hchoice.post_of_ok hvictim⟩

omit hq hsorts h

/-- Two attackers, of which the second has gained too little to take over from afar. -/
def pursued : ThreatWorld Nat (List RefId) where
  ref id := { owner := 0, victim := id + 1, online := .online, baseAmount := 100 + 20 * id }
  live id := id < 2
  nextRef := 2
  manager _ :=
    { ownerCanHaveThreatList := true
      sortedThreatList := [1, 0]
      myThreatListEntries := ((∅ : RefMap Nat).insert 2 1).insert 1 0
      currentVictimRef := some 0 }
  seen _ := toLex (0, toLex (0, 0))
  notifications := []

def ranged : View Nat := { calm with isWithinMeleeRange := fun _ who => who = 1 }

theorem reselects_pursued : ∃ victim, pursued.reselectVictim listQueue ranged 0 =
    .ok (pursued, victim) ∧ Selected listQueue ranged pursued 0 victim := by
  refine reselects listQueue_contents listQueue_orders listQueue_sorts ⟨?_, ?_, ?_⟩ (by decide) ?_
  · intro x y hx hy
    cases hx
    rcases List.mem_pair.mp hy with rfl | rfl
    · exact le_rfl
    · decide +kernel
  · rintro id ⟨⟩
    decide
  · rintro id ⟨⟩
  · unfold Refreshed
    decide +kernel

end LegionServer.Guarantees.VictimSelection
