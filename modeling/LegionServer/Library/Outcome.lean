import Mathlib.Logic.Relation
import Mathlib.Order.Basic

/-!
# Outcomes of code that can fail

Rules of pre- and postconditions for `Except` computations.
-/
namespace LegionServer.Library

universe u

variable {ε κ σ : Type*} {α β : Type u} {may may' : ε → Prop} {r : Except ε α}
  {post post' : α → Prop}

def Ends (may : ε → Prop) (r : Except ε α) (post : α → Prop) : Prop :=
  match r with
  | .ok a => post a
  | .error e => may e

/-- What a sequence that returned has computed first. -/
theorem exists_of_bind_ok {next : α → Except ε β} {b : β} (h : (r >>= next) = .ok b) :
    ∃ a, r = .ok a ∧ next a = .ok b := by
  cases r with
  | ok a => exact ⟨a, rfl, h⟩
  | error e => cases h

namespace Ends

theorem ok {a : α} (h : post a) : Ends may (.ok a) post := h

theorem error {e : ε} (h : may e) : Ends may (.error e : Except ε α) post := h

variable {after : β → Prop}

/-- Sequencing. -/
theorem bind {next : α → Except ε β} (h : Ends may r post)
    (hnext : ∀ a, post a → Ends may (next a) after) : Ends may (r >>= next) after := by
  cases r with
  | ok a => exact hnext a h
  | error e => exact h

theorem bind_ok {next : α → Except ε β} {a : α} (hr : r = .ok a) (h : Ends may (next a) after) :
    Ends may (r >>= next) after := by
  subst hr
  exact h

/-- Consequence. -/
theorem mono (h : Ends may r post) (hpost : ∀ a, post a → post' a) : Ends may r post' := by
  cases r with
  | ok a => exact hpost a h
  | error e => exact h

theorem map {γ : Type*} {f : α → γ} {after : γ → Prop} (h : Ends may r fun a => after (f a)) :
    Ends may (r.map f) after := by
  cases r with
  | ok a => exact h
  | error e => exact h

section
variable (h : Ends may r post)
include h

theorem allow (hmay : ∀ e, may e → may' e) : Ends may' r post := by
  cases r with
  | ok a => exact h
  | error e => exact hmay e h

theorem and (h' : Ends may r post') : Ends may r fun a => post a ∧ post' a := by
  cases r with
  | ok a => exact ⟨h, h'⟩
  | error e => exact h

theorem both (h' : Ends may' r post') :
    Ends (fun e => may e ∧ may' e) r fun a => post a ∧ post' a := by
  cases r with
  | ok a => exact ⟨h, h'⟩
  | error e => exact ⟨h, h'⟩

theorem post_of_ok {a : α} (hr : r = .ok a) : post a := by
  subst hr
  exact h

theorem may_of_error {e : ε} (hr : r = .error e) : may e := by
  subst hr
  exact h

end

theorem exists_ok (h : Ends (fun _ => False) r post) : ∃ a, r = .ok a ∧ post a := by
  cases r with
  | ok a => exact ⟨a, rfl, h⟩
  | error e => exact h.elim

/-- A loop over a list, whose invariant speaks of what is left of the list. -/
theorem foldlM {f : σ → κ → Except ε σ} (inv : List κ → σ → Prop)
    (hstep : ∀ x xs s, inv (x :: xs) s → Ends may (f s x) (inv xs)) (l : List κ) (s : σ)
    (h : inv l s) : Ends may (l.foldlM f s) (inv []) := by
  induction l generalizing s with
  | nil => exact h
  | cons x xs ih => exact (hstep x xs s h).bind fun s' hs' => ih s' hs'

end Ends

/-- `while (next element) body`, for at most as many rounds as there is fuel. -/
def whileSome (unfinished : ε) (next : σ → Option κ) (body : σ → κ → Except ε σ) :
    Nat → σ → Except ε σ
  | 0, s => if (next s).isSome then .error unfinished else .ok s
  | fuel + 1, s =>
    match next s with
    | none => .ok s
    | some x => body s x >>= whileSome unfinished next body fuel

def Rounds (next : σ → Option κ) (body : σ → κ → Except ε σ) : σ → σ → Prop :=
  Relation.ReflTransGen fun s s' => ∃ x, next s = some x ∧ body s x = .ok s'

section loops

variable {unfinished : ε} {next : σ → Option κ} {body : σ → κ → Except ε σ}

/-- A loop whose rounds keep an invariant and decrease a measure comes to its end. -/
theorem Ends.whileSome (inv : σ → Prop) (rounds : σ → Nat)
    (hleft : ∀ s x, inv s → next s = some x → 0 < rounds s)
    (hstep : ∀ s x, inv s → next s = some x →
      Ends may (body s x) fun s' => inv s' ∧ rounds s' < rounds s)
    (fuel : Nat) (s : σ) (h : inv s) (hfuel : rounds s ≤ fuel) :
    Ends may (whileSome unfinished next body fuel s) fun s' => inv s' ∧ next s' = none := by
  induction fuel generalizing s with
  | zero =>
    unfold Library.whileSome
    cases hnext : next s with
    | none => exact ⟨h, hnext⟩
    | some x =>
      have hpos := hleft s x h hnext
      omega
  | succ fuel ih =>
    unfold Library.whileSome
    cases hnext : next s with
    | none => exact ⟨h, hnext⟩
    | some x =>
      refine (hstep s x h hnext).bind fun s' hs' => ih s' hs'.1 ?_
      omega

/-- Where running out of fuel is allowed, the invariant is all there is to show. -/
theorem Ends.whileSome_partial (hunfinished : may unfinished) (inv : σ → Prop)
    (hstep : ∀ s x, inv s → next s = some x → Ends may (body s x) inv)
    (fuel : Nat) (s : σ) (h : inv s) :
    Ends may (Library.whileSome unfinished next body fuel s) inv := by
  induction fuel generalizing s with
  | zero =>
    unfold Library.whileSome
    split
    · exact hunfinished
    · exact h
  | succ fuel ih =>
    unfold Library.whileSome
    cases hnext : next s with
    | none => exact h
    | some x => exact (hstep s x h hnext).bind fun s' hs' => ih s' hs'

/-- The loop ends where there is no next element. -/
theorem next_of_whileSome {s r : σ} {fuel : Nat}
    (hr : whileSome unfinished next body fuel s = .ok r) : next r = none := by
  induction fuel generalizing s with
  | zero =>
    rw [whileSome] at hr
    split at hr
    · cases hr
    · cases hr
      exact Option.not_isSome_iff_eq_none.mp ‹_›
  | succ fuel ih =>
    rw [whileSome] at hr
    cases hnext : next s with
    | none =>
      rw [hnext] at hr
      cases hr
      exact hnext
    | some x =>
      simp only [hnext] at hr
      obtain ⟨s', hbody, hr⟩ := exists_of_bind_ok hr
      exact ih hr

/-- A loop over the images of the states of another does what that one does. -/
theorem whileSome_map {ε' τ : Type*} {unfinished' : ε'} {next' : τ → Option κ}
    {body' : τ → κ → Except ε' τ} (f : σ → τ) (inv : σ → Prop)
    (hnext : ∀ s, inv s → next' (f s) = next s)
    (hbody : ∀ s x s', inv s → next s = some x → body s x = .ok s' →
      body' (f s) x = .ok (f s') ∧ inv s')
    {s r : σ} {fuel : Nat} (h : inv s) (hr : whileSome unfinished next body fuel s = .ok r) :
    whileSome unfinished' next' body' fuel (f s) = .ok (f r) ∧ inv r := by
  induction fuel generalizing s with
  | zero =>
    rw [whileSome] at hr ⊢
    rw [hnext s h]
    split at hr
    · cases hr
    · cases hr
      exact ⟨if_neg ‹_›, h⟩
  | succ fuel ih =>
    rw [whileSome] at hr ⊢
    rw [hnext s h]
    cases hs : next s with
    | none =>
      rw [hs] at hr
      cases hr
      exact ⟨rfl, h⟩
    | some x =>
      simp only [hs] at hr
      obtain ⟨s', hround, hrest⟩ := exists_of_bind_ok hr
      obtain ⟨hround', hs'⟩ := hbody s x s' h hs hround
      dsimp only
      rw [hround']
      exact ih hs' hrest

/-- After some of its rounds the loop goes on to the same end. -/
theorem Rounds.whileSome {s s' r : σ} {fuel : Nat} (h : Rounds next body s s')
    (hr : whileSome unfinished next body fuel s = .ok r) :
    ∃ fuel', Library.whileSome unfinished next body fuel' s' = .ok r := by
  induction h with
  | refl => exact ⟨fuel, hr⟩
  | tail _ hround ih =>
    obtain ⟨x, hnext, hbody⟩ := hround
    obtain ⟨fuel', hfuel'⟩ := ih
    cases fuel' with
    | zero =>
      rw [Library.whileSome, hnext] at hfuel'
      cases hfuel'
    | succ fuel' =>
      rw [Library.whileSome, hnext] at hfuel'
      simp only [hbody] at hfuel'
      exact ⟨fuel', hfuel'⟩

/-- What the rounds keep. -/
theorem Rounds.invariant {s s' : σ} (h : Rounds next body s s') (inv : σ → Prop)
    (hstep : ∀ s x s', inv s → next s = some x → body s x = .ok s' → inv s') (hs : inv s) :
    inv s' := by
  induction h with
  | refl => exact hs
  | tail _ hround ih =>
    obtain ⟨x, hnext, hbody⟩ := hround
    exact hstep _ x _ ih hnext hbody

end loops

end LegionServer.Library
