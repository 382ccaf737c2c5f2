import Mathlib.Tactic.NormNum
import LegionServer.Source.Combat.ThreatManager
import Mathlib.Data.Finset.Card

/-!
# Comparisons with a weight

`CompareReferencesLT` with the weights of the victim selection, and the search
below the highest reference of a list that is in order.
-/
namespace LegionServer.Source.Combat
open Library List ThreatReference AList

namespace ThreatReference

variable {U : Type*} {a b c : ThreatReference U} {weight : ℚ}

theorem getThreat_nonneg (ref : ThreatReference U) : 0 ≤ ref.getThreat := le_max_right _ _

theorem compareReferencesLT_iff : compareReferencesLT a b weight = true ↔
    a.online.toNat < b.online.toNat ∨ a.online = b.online ∧
      (a.taunted < b.taunted ∨ a.taunted = b.taunted ∧ a.getThreat * weight < b.getThreat) := by
  unfold compareReferencesLT
  by_cases honline : a.online = b.online
  · by_cases htaunt : a.taunted = b.taunted
    · simp [honline, htaunt]
    · simp [honline, htaunt]
  · simp [honline]

theorem sortKey_le_iff : b.sortKey ≤ c.sortKey ↔
    b.online.toNat < c.online.toNat ∨ b.online = c.online ∧
      (b.taunted < c.taunted ∨ b.taunted = c.taunted ∧ b.getThreat ≤ c.getThreat) := by
  simp only [sortKey, Prod.Lex.toLex_le_toLex, toNat_injective.eq_iff]

theorem compareReferencesLT_mono (hle : b.sortKey ≤ c.sortKey)
    (hlt : compareReferencesLT a b weight = true) : compareReferencesLT a c weight = true := by
  rw [compareReferencesLT_iff] at *
  rw [sortKey_le_iff] at hle
  rcases hle with hle | ⟨honline, hle | ⟨htaunt, hle⟩⟩
  · rcases hlt with hlt | ⟨hlt, -⟩
    · exact .inl (hlt.trans hle)
    · exact .inl (hlt ▸ hle)
  · rw [honline] at hlt
    rcases hlt with hlt | ⟨hlt, hlt' | ⟨hlt', -⟩⟩
    · exact .inl hlt
    · exact .inr ⟨hlt, .inl (hlt'.trans hle)⟩
    · exact .inr ⟨hlt, .inl (hlt' ▸ hle)⟩
  · rw [honline, htaunt] at hlt
    rcases hlt with hlt | ⟨hlt, hlt' | ⟨hlt', hthreat⟩⟩
    · exact .inl hlt
    · exact .inr ⟨hlt, .inl hlt'⟩
    · exact .inr ⟨hlt, .inr ⟨hlt', hthreat.trans_le hle⟩⟩

theorem compareReferencesLT_lighter {lighter : ℚ} (hle : lighter ≤ weight)
    (hlt : compareReferencesLT a b weight = true) : compareReferencesLT a b lighter = true := by
  rw [compareReferencesLT_iff] at *
  have hthreat := mul_le_mul_of_nonneg_left hle a.getThreat_nonneg
  rcases hlt with hlt | ⟨honline, hlt | ⟨htaunt, hlt⟩⟩
  · exact .inl hlt
  · exact .inr ⟨honline, .inl hlt⟩
  · exact .inr ⟨honline, .inr ⟨htaunt, hthreat.trans_lt hlt⟩⟩

/-- A weight of one or more does not let a reference beat one above it. -/
theorem not_compareReferencesLT_of_le (hweight : 1 ≤ weight) (hle : b.sortKey ≤ a.sortKey) :
    compareReferencesLT a b weight ≠ true := by
  intro hlt
  have hone := compareReferencesLT_lighter hweight hlt
  rw [compareReferencesLT_one] at hone
  exact absurd hle (not_le_of_gt hone)

end ThreatReference

namespace ThreatWorld

variable {U H : Type*} {view : View U} {w : ThreatWorld U H} {a : U} {old : RefId}

/-- "if highest threat breaks 130%, it's our new target regardless of range"; in melee range 110%
is enough. -/
def Beats (view : View U) (w : ThreatWorld U H) (a : U) (old y : RefId) : Prop :=
  (w.ref old).compareReferencesLT (w.ref y) (13 / 10) = true ∨
    (w.ref old).compareReferencesLT (w.ref y) (11 / 10) = true ∧
      view.isWithinMeleeRange a (w.ref y).victim = true

theorem not_beats_of_le {y : RefId} (hle : w.sortKeys y ≤ w.sortKeys old) :
    ¬Beats view w a old y := by
  have h130 : (1 : ℚ) ≤ 13 / 10 := by norm_num
  have h110 : (1 : ℚ) ≤ 11 / 10 := by norm_num
  rintro (hlt | ⟨hlt, -⟩)
  · exact not_compareReferencesLT_of_le h130 hle hlt
  · exact not_compareReferencesLT_of_le h110 hle hlt

theorem not_beats_below {next y : RefId} (hle : w.sortKeys y ≤ w.sortKeys next)
    (hnext : (w.ref old).compareReferencesLT (w.ref next) (11 / 10) ≠ true) :
    ¬Beats view w a old y := by
  have hlighter : (11 / 10 : ℚ) ≤ 13 / 10 := by norm_num
  rintro (hlt | ⟨hlt, -⟩)
  · refine hnext (compareReferencesLT_mono hle ?_)
    exact compareReferencesLT_lighter hlighter hlt
  · exact hnext (compareReferencesLT_mono hle hlt)

/-- The old victim stays when none of these beats it, and else the highest that does wins. -/
def Wins (view : View U) (w : ThreatWorld U H) (a : U) (l : List RefId) (old x : RefId) : Prop :=
  x ∈ l ∧ (x = old ∧ (∀ y ∈ l, ¬Beats view w a old y) ∨ Beats view w a old x ∧ ∀ y ∈ l,
      (w.ref x).compareReferencesLT (w.ref y) 1 = true → ¬Beats view w a old y)

theorem wins_cons {next x : RefId} {rest : List RefId} (h : Wins view w a rest old x)
    (hnext : ¬Beats view w a old next) : Wins view w a (next :: rest) old x := by
  refine ⟨mem_cons_of_mem next h.1, ?_⟩
  rcases h.2 with ⟨heq, hnone⟩ | ⟨hbeats, habove⟩
  · exact .inl ⟨heq, forall_mem_cons.mpr ⟨hnext, hnone⟩⟩
  · exact .inr ⟨hbeats, forall_mem_cons.mpr ⟨fun _ => hnext, habove⟩⟩

theorem searchVictim_wins {l : List RefId} (hold : old ∈ l)
    (hsorted : l.Pairwise fun x y => w.sortKeys y ≤ w.sortKeys x)
    (hbelow : ∀ y ∈ l, (w.ref old).compareReferencesLT (w.ref y) (13 / 10) ≠ true) :
    Ends (fun _ => False) (w.searchVictim view a old l) (Wins view w a l old) := by
  induction l with
  | nil => cases hold
  | cons next rest ih =>
    have hrest := pairwise_cons.mp hsorted
    have hhead : ∀ y ∈ next :: rest, w.sortKeys y ≤ w.sortKeys next :=
      forall_mem_cons.mpr ⟨le_rfl, hrest.1⟩
    unfold searchVictim
    split
    · rename_i heq
      subst heq
      exact ⟨hold, .inl ⟨rfl, fun y hy => not_beats_of_le (hhead y hy)⟩⟩
    rename_i hne
    split
    · rename_i hlt
      have hnext : (w.ref old).compareReferencesLT (w.ref next) (11 / 10) ≠ true := by
        simpa using hlt
      exact ⟨hold, .inl ⟨rfl, fun y hy => not_beats_below (hhead y hy) hnext⟩⟩
    rename_i hlt
    have hnext : (w.ref old).compareReferencesLT (w.ref next) (11 / 10) = true := by
      simpa using hlt
    split
    · rename_i hmelee
      refine ⟨mem_cons_self, .inr ⟨.inr ⟨hnext, hmelee⟩, fun y hy habove => ?_⟩⟩
      rw [compareReferencesLT_one] at habove
      exact absurd (hhead y hy) (not_le_of_gt habove)
    · rename_i hmelee
      have hold' : old ∈ rest := (mem_cons.mp hold).resolve_left (Ne.symm hne)
      have hnot : ¬Beats view w a old next := by
        rintro (hlt' | ⟨-, hmelee'⟩)
        · exact hbelow next mem_cons_self hlt'
        · exact hmelee hmelee'
      refine (ih hold' hrest.2 fun y hy => hbelow y (mem_cons_of_mem next hy)).mono ?_
      exact fun x hx => wins_cons hx hnot

end ThreatWorld

/-!
# Taunt priorities

`TauntUpdate` numbers the taunt effects and keeps the number of the last effect of each caster.
-/

namespace ThreatWorld

variable {U : Type*} [DecidableEq U] {casters : List U} {c caster : U}

/-- Where the last effect of a caster stands, counted from one. -/
def lastPosition (casters : List U) (c : U) : Nat := casters.length - casters.reverse.idxOf c

theorem lastPosition_append_self : lastPosition (casters ++ [c]) c = casters.length + 1 := by
  simp [lastPosition]

theorem lastPosition_append (hne : c ≠ caster) :
    lastPosition (casters ++ [caster]) c = lastPosition casters c := by
  simp [lastPosition, idxOf_cons_ne _ (Ne.symm hne)]

theorem tauntStates_append : tauntStates (casters ++ [caster]) =
    (tauntStates casters).insert caster (casters.length + 1) := by
  simp [tauntStates, zipIdx_append, Nat.add_comm]

theorem lookup_tauntStates : (tauntStates casters).lookup c =
    if c ∈ casters then some (lastPosition casters c) else none := by
  induction casters using reverseRecOn with
  | nil => rfl
  | append_singleton casters caster ih =>
    rw [tauntStates_append]
    by_cases heq : c = caster
    · subst heq
      rw [lookup_insert, lastPosition_append_self, if_pos (by simp)]
    · rw [lookup_insert_ne heq, ih, lastPosition_append heq]
      simp [heq]

theorem length_tauntStates : (tauntStates casters).entries.length = casters.toFinset.card := by
  have hkeys : (tauntStates casters).keys.toFinset = casters.toFinset := by
    ext c
    rw [mem_toFinset, mem_toFinset]
    change c ∈ tauntStates casters ↔ _
    rw [← lookup_isSome, lookup_tauntStates]
    by_cases hmem : c ∈ casters
    · simp [hmem]
    · simp [hmem]
  rw [← hkeys, toFinset_card_of_nodup (keys_nodup _)]
  simp [AList.keys, List.keys]

variable {H : Type*} {q : PriorityQueue RefId SortKey H} {view : View U} {w : ThreatWorld U H}
  {a : U} {id other : RefId}

/-- A state below `TAUNT_STATE_TAUNT` gives way to a detaunt. -/
def settled (view : View U) (ref : ThreatReference U) (state : Nat) : Nat :=
  if state < TAUNT_STATE_TAUNT ∧ view.isDetauntedBy ref.victim ref.owner then TAUNT_STATE_DETAUNT
  else state

theorem ref_setOnline (state : OnlineState) (increased : Bool) :
    (w.setOnline q id state increased).ref other =
      if other = id then { w.ref id with online := state } else w.ref other := by
  change Function.update w.ref id _ other = _
  rw [Function.update_apply]

theorem ref_updateTauntState (state : Nat) : (w.updateTauntState q view id state).ref other =
    if other = id then { w.ref id with taunted := settled view (w.ref id) state }
    else w.ref other := by
  unfold updateTauntState settled
  dsimp only
  generalize (if state < TAUNT_STATE_TAUNT ∧
    view.isDetauntedBy (w.ref id).victim (w.ref id).owner = true then TAUNT_STATE_DETAUNT
    else state) = state
  split
  · rename_i hsame
    split
    · rename_i heq
      subst heq hsame
      rfl
    · rfl
  · have hset : (w.setRef id { w.ref id with taunted := state }).ref other =
        if other = id then { w.ref id with taunted := state } else w.ref other := by
      change Function.update w.ref id _ other = _
      rw [Function.update_apply]
    split
    · exact hset
    · exact hset

theorem taunted_evaluateSuppressed (canExpire : Bool) :
    ((w.evaluateSuppressed q view a canExpire).ref id).taunted = (w.ref id).taunted := by
  have hstep : ∀ (w : ThreatWorld U H) (entry : Σ _ : U, RefId),
      ((w.evaluateSuppressedRef q view canExpire entry.2).ref id).taunted = (w.ref id).taunted := by
    intro w entry
    unfold evaluateSuppressedRef
    dsimp only
    split
    · rw [ref_setOnline]
      split
      · rename_i heq
        rw [heq]
      · rfl
    · split
      · rw [ref_setOnline]
        split
        · rename_i heq
          rw [heq]
        · rfl
      · rfl
  unfold evaluateSuppressed
  generalize view.entries (w.threatenedByMe a) = l
  induction l generalizing w with
  | nil => rfl
  | cons entry rest ih =>
    rw [foldl_cons, ih, hstep]

def FiledByVictim (w : ThreatWorld U H) (a : U) : Prop :=
  ∀ v id, (w.entries a).lookup v = some id → (w.ref id).victim = v

theorem ref_updateTauntStates (state : U → Nat) {l : List (Σ _ : U, RefId)}
    (hkeys : (l.map Sigma.fst).Nodup) (hfiled : ∀ entry ∈ l, (w.ref entry.2).victim = entry.1)
    {v : U} (hmem : ⟨v, id⟩ ∈ l) :
    (l.foldl (fun w entry => w.updateTauntState q view entry.2 (state entry.1)) w).ref id =
      { w.ref id with taunted := settled view (w.ref id) (state v) } := by
  have hlater : ∀ (l : List (Σ _ : U, RefId)) (w : ThreatWorld U H), (∀ entry ∈ l, entry.2 ≠ id) →
      (l.foldl (fun w entry => w.updateTauntState q view entry.2 (state entry.1)) w).ref id =
        w.ref id := by
    intro l
    induction l with
    | nil => exact fun _ _ => rfl
    | cons entry rest ih =>
      intro w hne
      rw [forall_mem_cons] at hne
      rw [foldl_cons, ih _ hne.2, ref_updateTauntState, if_neg (Ne.symm hne.1)]
  induction l generalizing w with
  | nil => cases hmem
  | cons entry rest ih =>
    rw [map_cons, nodup_cons] at hkeys
    rw [forall_mem_cons] at hfiled
    rw [foldl_cons]
    rcases mem_cons.mp hmem with rfl | hmem
    · have hrest : ∀ entry ∈ rest, entry.2 ≠ id := by
        rintro entry hentry rfl
        refine hkeys.1 ?_
        rw [← hfiled.1, hfiled.2 entry hentry]
        exact mem_map_of_mem hentry
      rw [hlater rest _ hrest, ref_updateTauntState, if_pos rfl]
    · have hne : id ≠ entry.2 := by
        rintro rfl
        have hv := hfiled.2 _ hmem
        rw [hfiled.1] at hv
        exact hkeys.1 (hv ▸ mem_map_of_mem hmem)
      have hsame : (w.updateTauntState q view entry.2 (state entry.1)).ref id = w.ref id := by
        rw [ref_updateTauntState, if_neg hne]
      rw [ih hkeys.2 ?_ hmem, hsame]
      intro other hother
      rw [ref_updateTauntState]
      split
      · rename_i heq
        rw [← hfiled.2 other hother, heq]
      · exact hfiled.2 other hother

theorem taunted_tauntUpdate (hfiled : FiledByVictim w a) {v : U}
    (hlookup : (w.entries a).lookup v = some id) :
    ((w.tauntUpdate q view a).ref id).taunted =
      settled view (w.ref id) (tauntStateOf (tauntStates (view.tauntCasters a)) v) := by
  unfold tauntUpdate
  rw [taunted_evaluateSuppressed, ref_updateTauntStates _ (view.entries_keys _)
    (fun entry hentry => hfiled _ _ (view.mem_entries.mp hentry)) (view.mem_entries.mpr hlookup)]

end ThreatWorld

end LegionServer.Source.Combat
