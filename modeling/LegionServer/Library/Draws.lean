import Mathlib.Data.Stream.Init
import Mathlib.Data.List.Basic

/-!
# Computations with random outcomes

A computation takes its outcomes from the front of a stream and leaves the rest.
-/
namespace LegionServer.Library
open StateT

universe u

variable {D α β σ : Type u}

/-- `none` is a computation that cannot go on. -/
abbrev Draws (D α : Type u) := StateT (Stream' D) Option α

def draw : Draws D D := fun s => some (s.head, s.tail)

def ofOption (o : Option α) : Draws D α := fun s => o.map fun a => (a, s)

def Possible (m : Draws D α) (a : α) : Prop := ∀ rest, ∃ s, m.run s = some (a, rest)

/-- What is drawn is at the front: another rest can be put after it. -/
structure Always (stuck : Prop) (m : Draws D α) (post : α → Prop) : Prop where
  returns : ∀ s, (stuck ∧ m.run s = none) ∨ ∃ a rest, m.run s = some (a, rest) ∧ post a
  possible : ∀ s a rest, m.run s = some (a, rest) → Possible m a

namespace Possible

variable {m : Draws D α} {next : α → Draws D β} {a : α} {b : β}

theorem pure (a : α) : Possible (pure a : Draws D α) a := fun rest => ⟨rest, rfl⟩

theorem bind (h : Possible m a) (hnext : Possible (next a) b) : Possible (m >>= next) b := by
  intro rest
  obtain ⟨middle, hmiddle⟩ := hnext rest
  obtain ⟨s, hs⟩ := h middle
  refine ⟨s, ?_⟩
  rw [run_bind, hs]
  exact hmiddle

theorem draw (d : D) : Possible draw d := fun rest => ⟨Stream'.cons d rest, rfl⟩

theorem ofOption {o : Option α} (h : o = some a) : Possible (ofOption o : Draws D α) a := by
  subst h
  exact pure a

theorem cons {f : σ → α → Draws D σ} {x : α} {xs : List α} {s s' s'' : σ}
    (h : Possible (f s x) s') (h' : Possible (xs.foldlM f s') s'') :
    Possible ((x :: xs).foldlM f s) s'' := by
  exact h.bind h'

end Possible

namespace Always

variable {stuck : Prop} {m : Draws D α} {post post' : α → Prop} {next : α → Draws D β}
  {after : β → Prop}

theorem post_of_run (h : Always stuck m post) {s rest : Stream' D} {a : α}
    (hrun : m.run s = some (a, rest)) : post a := by
  rcases h.returns s with ⟨_, hnone⟩ | ⟨b, _, hb, hpost⟩
  · rw [hrun] at hnone
    cases hnone
  · rw [hrun] at hb
    cases hb
    exact hpost

/-- What is possible is among what always holds. -/
theorem post_of_possible [Inhabited D] (h : Always stuck m post) {a : α} (ha : Possible m a) :
    post a := by
  obtain ⟨s, hs⟩ := ha fun _ => default
  exact h.post_of_run hs

theorem total (h : Always False m post) (s : Stream' D) :
    ∃ a rest, m.run s = some (a, rest) ∧ post a :=
  (h.returns s).resolve_left fun hstuck => hstuck.1

theorem exists_possible [Inhabited D] (h : Always False m post) : ∃ a, Possible m a ∧ post a := by
  obtain ⟨a, rest, hrun, ha⟩ := h.total fun _ => default
  exact ⟨a, h.possible _ a rest hrun, ha⟩

theorem mono (h : Always stuck m post) (hpost : ∀ a, post a → post' a) : Always stuck m post' where
  returns s := (h.returns s).imp_right fun ⟨a, rest, hrun, ha⟩ => ⟨a, rest, hrun, hpost a ha⟩
  possible := h.possible

theorem pure {a : α} (h : post a) : Always stuck (pure a : Draws D α) post where
  returns s := .inr ⟨a, s, rfl, h⟩
  possible s b rest hrun := by
    cases hrun
    exact Possible.pure a

/-- What follows may use that what came before is possible. -/
theorem bind_possible (h : Always stuck m post)
    (hnext : ∀ a, Possible m a → post a → Always stuck (next a) after) :
    Always stuck (m >>= next) after where
  returns s := by
    rw [run_bind]
    rcases h.returns s with ⟨hstuck, hnone⟩ | ⟨a, middle, hrun, ha⟩
    · exact .inl ⟨hstuck, by rw [hnone]; rfl⟩
    · rw [hrun]
      exact (hnext a (h.possible s a middle hrun) ha).returns middle
  possible s b rest hrun := by
    rw [run_bind] at hrun
    rcases h.returns s with ⟨_, hnone⟩ | ⟨a, middle, hfirst, ha⟩
    · rw [hnone] at hrun
      cases hrun
    · rw [hfirst] at hrun
      have hpossible := h.possible s a middle hfirst
      exact hpossible.bind ((hnext a hpossible ha).possible middle b rest hrun)

theorem bind (h : Always stuck m post) (hnext : ∀ a, post a → Always stuck (next a) after) :
    Always stuck (m >>= next) after :=
  h.bind_possible fun a _ => hnext a

theorem draw : Always stuck (Library.draw : Draws D D) fun _ => True where
  returns s := .inr ⟨s.head, s.tail, rfl, trivial⟩
  possible _ d _ _ := Possible.draw d

theorem ofOption {o : Option α} (hnone : o = none → stuck) (hsome : ∀ a, o = some a → post a) :
    Always stuck (Library.ofOption o : Draws D α) post := by
  cases o with
  | none => exact ⟨fun _ => .inl ⟨hnone rfl, rfl⟩, fun _ _ _ hrun => (nomatch hrun)⟩
  | some a => exact pure (hsome a rfl)

/-- A loop over a list keeps what its rounds keep. -/
theorem foldlM {f : σ → α → Draws D σ} (inv : σ → Prop) (xs : List α)
    (hstep : ∀ x ∈ xs, ∀ s, inv s → Always stuck (f s x) inv) {s : σ} (h : inv s) :
    Always stuck (xs.foldlM f s) inv := by
  induction xs generalizing s with
  | nil => exact pure h
  | cons x xs ih =>
    exact (hstep x List.mem_cons_self s h).bind fun s' hs' =>
      ih (fun y hy => hstep y (List.mem_cons_of_mem _ hy)) hs'

end Always

end LegionServer.Library
