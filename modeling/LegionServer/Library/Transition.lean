import Mathlib.Order.Basic
import Mathlib.Logic.Relation

/-!
# Labelled transition systems and their invariants

A component is a set of initial states and a step relation whose labels are the requests
(with every answer of its surroundings).
-/
namespace LegionServer.Library

variable {S L : Type*}

structure System (S L : Type*) where
  init : S → Prop
  step : L → S → S → Prop

namespace System

/-- States met along the finite runs that start in an initial state. -/
inductive Reachable (sys : System S L) : S → Prop
  | init {s : S} : sys.init s → Reachable sys s
  | step {s s' : S} (l : L) : Reachable sys s → sys.step l s s' → Reachable sys s'

variable {sys : System S L}

/-- A predicate true initially and kept by every step is true of every reachable state. -/
theorem Reachable.invariant (inv : S → Prop) (hinit : ∀ s, sys.init s → inv s)
    (hstep : ∀ l s s', inv s → sys.step l s s' → inv s') {s : S} (h : sys.Reachable s) : inv s := by
  induction h with
  | init h0 => exact hinit _ h0
  | step l _ hs ih => exact hstep l _ _ ih hs

/-- The system in which a step is taken only where the guard accepts its label. -/
def guarded (sys : System S L) (guard : L → S → Prop) : System S L where
  init := sys.init
  step l s s' := guard l s ∧ sys.step l s s'

variable {guard : L → S → Prop}

/-- Guarding only removes runs. -/
theorem Reachable.of_guarded {s : S} (h : (sys.guarded guard).Reachable s) : sys.Reachable s := by
  induction h with
  | init h0 => exact .init h0
  | step l _ hs ih => exact .step l ih hs.2

/-- A run from any state, with its labels and the states it meets. -/
def Path (sys : System S L) : S → List (L × S) → Prop
  | _, [] => True
  | s, (l, s') :: path => sys.step l s s' ∧ sys.Path s' path

/-- Where each step keeps what is good exactly when the guard accepts it, a run meets
good states only exactly when it is a run of the guarded system. -/
theorem forall_mem_path_iff {good : S → Prop} (inv : S → Prop)
    (hinv : ∀ l s s', inv s → sys.step l s s' → guard l s → inv s')
    (hgood : ∀ l s s', inv s → sys.step l s s' → (good s' ↔ guard l s)) {s : S} (hs : inv s) :
    ∀ {path : List (L × S)}, sys.Path s path →
      ((∀ visit ∈ path, good visit.2) ↔ (sys.guarded guard).Path s path) := by
  intro path
  induction path generalizing s with
  | nil => simp [Path]
  | cons visit path ih =>
    obtain ⟨l, s'⟩ := visit
    rintro ⟨hstep, hpath⟩
    rw [List.forall_mem_cons, hgood l s s' hs hstep]
    simp only [Path, guarded, hstep, and_true]
    exact and_congr_right fun hl => ih (hinv l s s' hs hstep hl) hpath

def Leads (sys : System S L) : S → S → Prop :=
  Relation.ReflTransGen fun s s' => ∃ l, sys.step l s s'

theorem Leads.step {sys : System S L} {s s' s'' : S} (h : sys.Leads s s') (l : L)
    (hs : sys.step l s' s'') : sys.Leads s s'' := h.tail ⟨l, hs⟩

end System

end LegionServer.Library
