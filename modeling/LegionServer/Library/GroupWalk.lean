import LegionServer.Library.FlatSet
import Mathlib.Order.Nat

/-!
# Walks over groups

A list whose members belong to groups is walked once.
-/
namespace LegionServer.Library
open List Option FlatSet

structure GroupWalk (C V : Type*) where
  group : C → Nat
  top : V
  meet : V → V → V
  dead : V → Bool

namespace GroupWalk

variable {C V N : Type*} (walk : GroupWalk C V) (member : C → Option (V × List N))

abbrev Groups (V : Type*) := FlatSet (Prod.fst : Nat × V → Nat)

/-- The value of a group, which is the top before its first member. -/
def valueAt (groups : Groups V) (g : Nat) : V := (groups.find g).elim walk.top Prod.snd

def visit (state : Groups V × List N) (c : C) : Option (Groups V × List N) :=
  let value := walk.valueAt state.1 (walk.group c)
  if walk.dead value then some state
  else (member c).map fun result =>
    (state.1.put (walk.group c, walk.meet value result.1), state.2 ++ result.2)

def run (members : List C) : Option (Groups V × List N) :=
  members.foldlM (walk.visit member) (FlatSet.empty, [])

variable {walk member} {state after : Groups V × List N} {members : List C} {c : C} {g : Nat}

section
variable (motive : List C → Groups V × List N → Prop)
  (hvisit : ∀ seen state after c, motive seen state →
    walk.visit member state c = some after → motive (seen ++ [c]) after)
include hvisit

/-- The induction over a walk: what holds at first and is kept by each visit. -/
theorem foldlM_induction (seen : List C) (hstate : motive seen state)
    (hrun : members.foldlM (walk.visit member) state = some after) :
    motive (seen ++ members) after := by
  induction members generalizing seen state with
  | nil =>
    cases hrun
    rw [append_nil]
    exact hstate
  | cons first rest ih =>
    obtain ⟨next, hnext, hrest⟩ := Option.bind_eq_some_iff.mp hrun
    have hkept := ih (seen ++ [first]) (hvisit seen state next first hstate hnext) hrest
    rw [append_assoc] at hkept
    exact hkept

theorem run_induction (hempty : motive [] (FlatSet.empty, []))
    (hrun : walk.run member members = some after) : motive members after :=
  foldlM_induction motive hvisit [] hempty hrun

end

theorem visit_eq_some (h : walk.visit member state c = some after) :
    (walk.dead (walk.valueAt state.1 (walk.group c)) = true ∧ after = state) ∨
      ∃ x notes, walk.dead (walk.valueAt state.1 (walk.group c)) = false ∧
        member c = some (x, notes) ∧
        after = (state.1.put (walk.group c, walk.meet (walk.valueAt state.1 (walk.group c)) x),
          state.2 ++ notes) := by
  unfold visit at h
  dsimp only at h
  split at h
  · rename_i hdead
    cases h
    exact Or.inl ⟨hdead, rfl⟩
  · rename_i hlive
    obtain ⟨result, hmember, hafter⟩ := map_eq_some_iff.mp h
    exact Or.inr ⟨result.1, result.2, Bool.not_eq_true _ ▸ hlive, hmember, hafter.symm⟩

theorem valueAt_put (groups : Groups V) (entry : Nat × V) :
    walk.valueAt (groups.put entry) g = if g = entry.1 then entry.2 else walk.valueAt groups g := by
  unfold valueAt
  rw [find_put]
  split <;> rfl

/-- Values that a meet keeps apart: good when both are good, and never dead. -/
structure Good (walk : GroupWalk C V) (good : V → Prop) : Prop where
  top : good walk.top
  meet : ∀ v x, good (walk.meet v x) ↔ good v ∧ good x
  live : ∀ v, walk.dead v = true → ¬good v

variable {good : V → Prop}

/-- The value of a group is good just when all its members have good values. -/
theorem good_valueAt (hgood : Good walk good) (hrun : walk.run member members = some after)
    (g : Nat) :
    good (walk.valueAt after.1 g) ↔
      ∀ c ∈ members, walk.group c = g → ∃ x notes, member c = some (x, notes) ∧ good x := by
  refine run_induction (fun seen state => good (walk.valueAt state.1 g) ↔
    ∀ c ∈ seen, walk.group c = g → ∃ x notes, member c = some (x, notes) ∧ good x)
    ?_ ?_ hrun
  · intro seen state after c hseen hvisit
    simp only [mem_append, mem_singleton, or_imp, forall_and, forall_eq]
    rw [← hseen]
    cases visit_eq_some hvisit with
    | inl hskipped =>
      rw [hskipped.2]
      -- The group of a skipped member has no good value already.
      refine ⟨fun hvalue => ⟨hvalue, ?_⟩, And.left⟩
      intro hgroup
      rw [hgroup] at hskipped
      exact absurd hvalue (hgood.live _ hskipped.1)
    | inr hvisited =>
      obtain ⟨x, notes, hlive, hmember, rfl⟩ := hvisited
      rw [valueAt_put]
      by_cases hgroup : walk.group c = g
      · rw [if_pos hgroup.symm, hgood.meet, hgroup, hmember]
        simp
      · rw [if_neg (Ne.symm hgroup)]
        simp [hgroup]
  · simp only [valueAt, find_empty, elim_none]
    simp [hgood.top]

/-- The groups that have an entry are those of the members. -/
theorem find_isSome (htop : walk.dead walk.top = false)
    (hrun : walk.run member members = some after) (g : Nat) :
    (after.1.find g).isSome = true ↔ ∃ c ∈ members, walk.group c = g := by
  refine run_induction (fun seen state => (state.1.find g).isSome = true ↔
    ∃ c ∈ seen, walk.group c = g) ?_ ?_ hrun
  · intro seen state after c hseen hvisit
    simp only [mem_append, mem_singleton, or_and_right, exists_or, exists_eq_left]
    rw [← hseen]
    cases visit_eq_some hvisit with
    | inl hskipped =>
      rw [hskipped.2]
      refine ⟨Or.inl, fun h => h.elim id ?_⟩
      intro hgroup
      -- A group without an entry would not have been skipped.
      cases hfind : state.1.find g with
      | some entry => rfl
      | none =>
        have hdead := hskipped.1
        rw [hgroup, valueAt, hfind, elim_none, htop] at hdead
        cases hdead
    | inr hvisited =>
      obtain ⟨x, notes, -, -, rfl⟩ := hvisited
      rw [find_put]
      by_cases hgroup : walk.group c = g
      · simp [hgroup]
      · rw [if_neg (Ne.symm hgroup)]
        simp [hgroup]
  · simp

/-- Some group has a good value just when all members of some group have good values. -/
theorem exists_good_iff (hgood : Good walk good) (htop : walk.dead walk.top = false)
    (hrun : walk.run member members = some after) :
    (∃ entry ∈ after.1.items, good entry.2) ↔ ∃ c ∈ members, ∀ other ∈ members,
      walk.group other = walk.group c → ∃ x notes, member other = some (x, notes) ∧ good x := by
  constructor
  · intro h
    obtain ⟨entry, hmem, hvalue⟩ := h
    have hfind := find_key hmem
    obtain ⟨c, hc, hgroup⟩ := (find_isSome htop hrun entry.1).mp (by rw [hfind, isSome_some])
    refine ⟨c, hc, ?_⟩
    rw [← good_valueAt hgood hrun, hgroup, valueAt, hfind]
    exact hvalue
  · intro h
    obtain ⟨c, hc, hall⟩ := h
    have hvalue := (good_valueAt hgood hrun (walk.group c)).mpr hall
    obtain ⟨entry, hfind⟩ := isSome_iff_exists.mp
      ((find_isSome htop hrun (walk.group c)).mpr ⟨c, hc, rfl⟩)
    refine ⟨entry, (find_eq_some.mp hfind).1, ?_⟩
    rw [valueAt, hfind] at hvalue
    exact hvalue

/-- A walk over members that have values ends. -/
theorem run_isSome (h : ∀ c ∈ members, (member c).isSome = true) :
    (walk.run member members).isSome = true := by
  unfold run
  generalize ((empty, []) : Groups V × List N) = state
  induction members generalizing state with
  | nil => rfl
  | cons first rest ih =>
    obtain ⟨result, hresult⟩ := isSome_iff_exists.mp (h first mem_cons_self)
    have hvisit : ∃ next, walk.visit member state first = some next := by
      unfold visit
      dsimp only
      split
      · exact ⟨_, rfl⟩
      · rw [hresult]
        exact ⟨_, rfl⟩
    obtain ⟨next, hnext⟩ := hvisit
    rw [foldlM_cons, hnext]
    exact ih (fun c hmem => h c (mem_cons_of_mem first hmem)) next

/-- No notes of the members, no notes of the walk. -/
theorem notes_eq_nil (h : ∀ c ∈ members, ∀ x notes, member c = some (x, notes) → notes = [])
    (hrun : walk.run member members = some after) : after.2 = [] := by
  refine run_induction (fun seen state => (∀ c ∈ seen, ∀ x notes,
    member c = some (x, notes) → notes = []) → state.2 = []) ?_ (fun _ => rfl) hrun h
  intro seen state after c hseen hvisit hall
  have hbefore := hseen fun c hmem => hall c (mem_append_left [_] hmem)
  cases visit_eq_some hvisit with
  | inl hskipped =>
    rw [hskipped.2]
    exact hbefore
  | inr hvisited =>
    obtain ⟨x, notes, -, hmember, rfl⟩ := hvisited
    simp [hbefore, hall c (by simp) x notes hmember]

/-- Where no member kills its group, every member is looked at and its notes are kept. -/
theorem visits_all (hgood : Good walk good)
    (hmembers : ∀ c x notes, member c = some (x, notes) → good x)
    (hrun : walk.run member members = some after) :
    (∀ g, good (walk.valueAt after.1 g)) ∧ ∀ c ∈ members, ∃ x notes, member c = some (x, notes) ∧
      ∀ note ∈ notes, note ∈ after.2 := by
  refine run_induction (fun seen state => (∀ g, good (walk.valueAt state.1 g)) ∧
    ∀ c ∈ seen, ∃ x notes, member c = some (x, notes) ∧ ∀ note ∈ notes, note ∈ state.2)
    ?_ ?_ hrun
  · intro seen state after c hseen hvisit
    obtain ⟨hvalues, hall⟩ := hseen
    cases visit_eq_some hvisit with
    | inl hskipped => exact absurd (hvalues _) (hgood.live _ hskipped.1)
    | inr hvisited =>
      obtain ⟨x, notes, -, hmember, rfl⟩ := hvisited
      refine ⟨?_, ?_⟩
      · intro g
        rw [valueAt_put]
        split
        · exact (hgood.meet _ _).mpr ⟨hvalues _, hmembers c x notes hmember⟩
        · exact hvalues g
      · intro other hother
        cases mem_append.mp hother with
        | inl hmem =>
          obtain ⟨y, others, hsome, hnotes⟩ := hall other hmem
          exact ⟨y, others, hsome, fun note hnote => mem_append_left _ (hnotes note hnote)⟩
        | inr hself =>
          rw [mem_singleton.mp hself]
          exact ⟨x, notes, hmember, fun note hnote => mem_append_right _ hnote⟩
  · simp only [valueAt, find_empty, elim_none]
    simp [hgood.top]

/-- A walk does the same with the values of more members. -/
theorem run_mono {more : C → Option (V × List N)}
    (h : ∀ c ∈ members, ∀ result, member c = some result → more c = some result)
    (hrun : walk.run member members = some after) : walk.run more members = some after := by
  unfold run at hrun ⊢
  generalize ((empty, []) : Groups V × List N) = state at hrun ⊢
  induction members generalizing state with
  | nil => exact hrun
  | cons first rest ih =>
    rw [foldlM_cons] at hrun ⊢
    obtain ⟨next, hnext, hrest⟩ := Option.bind_eq_some_iff.mp hrun
    have hsame : walk.visit more state first = some next := by
      cases visit_eq_some hnext with
      | inl hskipped => rw [visit, if_pos hskipped.1, hskipped.2]
      | inr hvisited =>
        obtain ⟨x, notes, hlive, hmember, hafter⟩ := hvisited
        rw [visit, hlive, h first mem_cons_self (x, notes) hmember, hafter]
        rfl
    rw [hsame]
    exact ih (fun c hmem => h c (mem_cons_of_mem first hmem)) next hrest

/-- A walk over one member. -/
theorem run_singleton (htop : walk.dead walk.top = false) : walk.run member [c] =
    (member c).map fun result =>
      (FlatSet.empty.put (walk.group c, walk.meet walk.top result.1), result.2) := by
  unfold run
  rw [foldlM_cons]
  simp only [visit, valueAt, find_empty, elim_none, htop, Bool.false_eq_true,
    if_false, foldlM_nil, nil_append]
  cases member c <;> rfl

end GroupWalk

end LegionServer.Library
