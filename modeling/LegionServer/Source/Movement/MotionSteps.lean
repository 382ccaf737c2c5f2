import LegionServer.Source.Movement.Calls

/-!
# Steps of the motion master

What holds between two calls from outside is kept by each of them.
-/
namespace LegionServer.Source.Movement
open Library
open BaseUnitState (Respects)

structure UpdateCallbacks.RespectsStates (u : UpdateCallbacks) : Prop where
  staticInitialize : u.staticInitialize.RespectsStates
  onInitialize : u.onInitialize.RespectsStates
  onReset : u.onReset.RespectsStates
  onUpdate : u.onUpdate.RespectsStates
  onFinalize : u.onFinalize.RespectsStates

/-- The generators do not clear base unit states of their owner in a step. -/
def Step.RespectsStates : Step → Prop
  | .addToWorld c | .call c _ => c.RespectsStates
  | .update c u => c.RespectsStates ∧ u.RespectsStates

namespace MotionMaster

variable {clean : Prop} {s s' : MotionMaster} {c : Callbacks} {u : UpdateCallbacks}
  {mapped leaving hand : List MovementGenerator} {movement top : MovementGenerator}

section Top

theorem Kept.kind_of_pending (h : Kept clean mapped leaving hand s)
    (hflag : (s.flags top).initializationPending = true) : top.kind ≠ .idle := by
  intro hkind
  rw [(h.flags top).1 hkind] at hflag
  cases hflag

theorem Kept.kind_of_deactivated (h : Kept clean mapped leaving hand s)
    (hflag : (s.flags top).deactivated = true) : top.kind = .resumable := by
  cases hkind : top.kind with
  | idle =>
    rw [(h.flags top).1 hkind] at hflag
    cases hflag
  | immediate =>
    rw [(h.flags top).2 hkind] at hflag
    cases hflag
  | resumable => rfl

theorem not_pending_of_calm (hcalm : Calm s s') (h : (s.flags top).initializationPending = false) :
    (s'.flags top).initializationPending = false := by
  by_contra hflag
  rw [(hcalm top).1 (by simpa using hflag)] at h
  cases h

theorem not_deactivated_of_calm (hcalm : Calm s s') (h : (s.flags top).deactivated = false) :
    (s'.flags top).deactivated = false := by
  by_contra hflag
  rw [(hcalm top).2 (by simpa using hflag)] at h
  cases h

def initializeTop (c : Callbacks) (u : UpdateCallbacks) (top : MovementGenerator)
    (r : MotionMaster × InitState) : MotionMaster × InitState :=
  if (r.1.flags top).initializationPending then
    initState (u.onInitialize.run c (r.1.setFlags top ((r.1.flags top).onInitialize top.kind)))
  else r

def resetTop (c : Callbacks) (u : UpdateCallbacks) (top : MovementGenerator)
    (r : MotionMaster × InitState) : MotionMaster × InitState :=
  if (r.1.flags top).deactivated then
    initState (u.onReset.run c (r.1.setFlags top ((r.1.flags top).onReset top.kind)))
  else r

def initializeStatic (c : Callbacks) (u : UpdateCallbacks) (s : MotionMaster)
    (top : MovementGenerator) : MotionMaster × InitState :=
  if s.staticInitializationPending && isStatic top then
    initState (u.staticInitialize.run c { s with staticInitializationPending := false })
  else (s, .alreadyInitialized)

theorem aside_initializeStatic (hdelayed : s.delayed = true) (hu : clean → u.RespectsStates) :
    Aside clean s (initializeStatic c u s top).1 := by
  rw [initializeStatic]
  split
  · have hflag : Aside clean s { s with staticInitializationPending := false } :=
      ⟨⟨rfl, rfl, rfl, rfl, rfl, rfl⟩, fun _ _ _ h =>
        ⟨h.states, h.bits, h.balance, h.finalized, h.ids, h.handed, h.flags, h.assertFailed⟩⟩
    have hdelayed' := hflag.delayed.trans hdelayed
    exact hflag.trans (aside_run hdelayed' u.staticInitialize
      fun hclean => (hu hclean).staticInitialize).1
  · exact .refl s

variable {r : MotionMaster × InitState}

section
variable (hdelayed : r.1.delayed = true) (hu : clean → u.RespectsStates)
  (h : Kept clean mapped leaving hand r.1)
include hdelayed hu h

theorem initializeTop_spec : Aside clean r.1 (initializeTop c u top r).1 ∧
      ((initializeTop c u top r).1.flags top).initializationPending = false := by
  rw [initializeTop]
  split
  · rename_i hpending
    have hflags : Aside clean r.1
        (r.1.setFlags top ((r.1.flags top).onInitialize top.kind)) := aside_flagsOnInitialize
    obtain ⟨haside, hcalm⟩ := aside_run (c := c) (hflags.delayed.trans hdelayed) u.onInitialize
      fun hclean => (hu hclean).onInitialize
    refine ⟨hflags.trans haside, not_pending_of_calm hcalm ?_⟩
    change (Function.update r.1.flags top _ top).initializationPending = false
    rw [Function.update_self]
    cases hkind : top.kind with
    | idle => exact absurd hkind (h.kind_of_pending hpending)
    | immediate | resumable => rfl
  · rename_i hpending
    exact ⟨.refl _, by simpa using hpending⟩

theorem resetTop_spec (hpending : (r.1.flags top).initializationPending = false) :
    Aside clean r.1 (resetTop c u top r).1 ∧
      ((resetTop c u top r).1.flags top).initializationPending = false ∧
      ((resetTop c u top r).1.flags top).deactivated = false := by
  rw [resetTop]
  split
  · rename_i hdeactivated
    have hkind := h.kind_of_deactivated hdeactivated
    have hflags : Aside clean r.1 (r.1.setFlags top ((r.1.flags top).onReset top.kind)) :=
      aside_flagsOnReset
    obtain ⟨haside, hcalm⟩ := aside_run (c := c) (hflags.delayed.trans hdelayed) u.onReset
      fun hclean => (hu hclean).onReset
    have hreset : (r.1.setFlags top ((r.1.flags top).onReset top.kind)).flags top =
        { r.1.flags top with deactivated := false } := by
      change Function.update r.1.flags top _ top = _
      rw [Function.update_self, hkind]
      rfl
    refine ⟨hflags.trans haside, not_pending_of_calm hcalm ?_, not_deactivated_of_calm hcalm ?_⟩
    · rw [hreset]
      exact hpending
    · rw [hreset]
  · rename_i hdeactivated
    exact ⟨.refl _, hpending, by simpa using hdeactivated⟩

end

theorem startTop_spec (hdelayed : s.delayed = true) (hu : clean → u.RespectsStates)
    (h : Kept clean mapped leaving hand s) : Aside clean s (startTop c u s top).1 ∧
      ((startTop c u s top).1.flags top).initializationPending = false ∧
      ((startTop c u s top).1.flags top).deactivated = false := by
  have hstatic : Aside clean s (initializeStatic c u s top).1 := aside_initializeStatic hdelayed hu
  have htop : Aside clean (initializeStatic c u s top).1
      (initializeTop c u top (initializeStatic c u s top)).1 ∧
        ((initializeTop c u top (initializeStatic c u s top)).1.flags top).initializationPending =
          false :=
    initializeTop_spec (hstatic.delayed.trans hdelayed) hu (hstatic.kept _ _ _ h)
  obtain ⟨htop, hpending⟩ := htop
  have hboth := hstatic.trans htop
  obtain ⟨hreset, hflags⟩ := resetTop_spec (c := c) (hboth.delayed.trans hdelayed) hu
    (hboth.kept _ _ _ h) hpending
  exact ⟨hboth.trans hreset, hflags⟩

end Top

structure AtRest (clean : Prop) (s : MotionMaster) : Prop where
  kept : Kept clean [] [] [] s
  updating : s.updating = false
  initializing : s.initializing = false
  started : s.initializationPending = false → s.defaultGenerator.isSome ∧ s.delayedActions = []

theorem atRest_start : AtRest clean ({} : MotionMaster) := ⟨kept_start, rfl, rfl, nofun⟩

theorem atRest_resolve (hc : clean → c.RespectsStates) (h : Kept clean [] [] [] s)
    (hupdating : s.updating = false) (hpending : s.initializationPending = false)
    (hdefault : s.defaultGenerator.isSome) :
    Kept clean [] [] [] (s.resolveDelayedActions c) ∧ (s.resolveDelayedActions c).updating = false ∧
      (s.resolveDelayedActions c).initializationPending = false ∧
      (s.resolveDelayedActions c).initializing = s.initializing ∧
      (s.resolveDelayedActions c).defaultGenerator.isSome ∧
      (s.resolveDelayedActions c).delayedActions = [] := by
  have hdelayed : s.delayed = false := by
    rw [delayed, hupdating, hpending]
    rfl
  have hdirect := direct_resolveDelayedActions hc hdelayed
  exact ⟨kept_resolveDelayedActions hc hdelayed h, hdirect.updating.trans hupdating,
    hdirect.initializationPending.trans hpending, hdirect.initializing,
    hdirect.defaultGenerator hdefault, hdirect.delayedActions⟩

theorem AtRest.addToWorld (hc : clean → c.RespectsStates) (h : AtRest clean s) :
    AtRest clean (s.addToWorld c) ∧ (s.addToWorld c).initializationPending = false := by
  rw [MotionMaster.addToWorld]
  split
  · rename_i hpending
    exact ⟨h, by simpa using hpending⟩
  have hdelayed : ({ s with initializing := true, initializationPending := false } :
      MotionMaster).delayed = false := by
    rw [delayed]
    simp [h.updating]
  have hflags : Kept clean [] [] []
      { s with initializing := true, initializationPending := false } :=
    ⟨h.kept.states, h.kept.bits, h.kept.balance, h.kept.finalized, h.kept.ids, h.kept.handed,
      h.kept.flags, h.kept.assertFailed⟩
  have hdirect := direct_directInitialize hc hdelayed
  obtain ⟨hkept, hupdating, hpending, -, hdefault, hactions⟩ := atRest_resolve hc
    (hdirect.kept [] hflags) (hdirect.updating.trans h.updating) hdirect.initializationPending
    (directInitialize_default hdelayed)
  exact ⟨⟨⟨hkept.states, hkept.bits, hkept.balance, hkept.finalized, hkept.ids, hkept.handed,
    hkept.flags, hkept.assertFailed⟩, hupdating, rfl, fun _ => ⟨hdefault, hactions⟩⟩, hpending⟩

theorem AtRest.request (hc : clean → c.RespectsStates) (h : AtRest clean s) (made : Call) :
    AtRest clean (s.request c (fun movement s => s.onInitialize movement c) made) ∧
      (s.request c (fun movement s => s.onInitialize movement c) made).initializationPending =
        s.initializationPending := by
  cases hpending : s.initializationPending with
  | true =>
    have hdelayed : s.delayed = true := by
      rw [delayed, hpending, Bool.or_true]
    have haside : Aside clean s (s.request c (fun movement s => s.onInitialize movement c) made) :=
      aside_request hdelayed (fun _ _ _ => aside_onInitialize hc) made
    have hpending' := haside.initializationPending.trans hpending
    refine ⟨⟨haside.kept _ _ _ h.kept, haside.updating.trans h.updating,
      haside.initializing.trans h.initializing, fun hnot => ?_⟩, hpending'⟩
    rw [hpending'] at hnot
    cases hnot
  | false =>
    have hdelayed : s.delayed = false := by
      rw [delayed, h.updating, hpending]
      rfl
    have hdirect := direct_request hc hdelayed made
    obtain ⟨hdefault, hactions⟩ := h.started hpending
    exact ⟨⟨hdirect.kept [] h.kept, hdirect.updating.trans h.updating,
      hdirect.initializing.trans h.initializing, fun _ =>
        ⟨hdirect.defaultGenerator hdefault, hdirect.delayedActions.trans hactions⟩⟩,
      hdirect.initializationPending.trans hpending⟩

/-- `Update` behind the first check: the top generator is still there when it is popped. -/
def updateTop (c : Callbacks) (u : UpdateCallbacks) (s : MotionMaster)
    (top : MovementGenerator) : MotionMaster :=
  let (s, state) := startTop c u s top
  let s := s.assert (!(s.flags top).initializationPending && !(s.flags top).deactivated)
  let (s, running) := if state = .failed then (s, false) else u.onUpdate.run c s
  if running then s
  else
    let s := s.assert (s.getCurrentMovementGenerator = some top)
    s.pop fun movement s => (u.onFinalize.run c (s.recordFinalize movement)).1

theorem update_eq (hpending : s.initializationPending = false) (hinitializing : s.initializing = false)
    (hempty : s.empty = false) (htop : s.getCurrentMovementGenerator = some top) :
    s.update c u = resolveDelayedActions { updateTop c u { s with updating := true } top with
      updating := false } c := by
  rw [update, hpending, hinitializing, hempty, htop]
  rfl

theorem pop_spec (hdelayed : s.delayed = true) (hu : clean → u.RespectsStates)
    (h : Kept clean [] leaving hand s) :
    Kept clean [] leaving hand
        (s.pop fun movement s => (u.onFinalize.run c (s.recordFinalize movement)).1) ∧
      (s.pop fun movement s => (u.onFinalize.run c
        (s.recordFinalize movement)).1).initializationPending = s.initializationPending ∧
      (s.pop fun movement s => (u.onFinalize.run c
        (s.recordFinalize movement)).1).initializing = s.initializing ∧
      (s.pop fun movement s => (u.onFinalize.run c
        (s.recordFinalize movement)).1).defaultGenerator = s.defaultGenerator := by
  rw [pop]
  split
  · exact ⟨h, rfl, rfl, rfl⟩
  rename_i movement rest hitems
  have hmem : movement ∈ s.generators.items := by
    rw [hitems]
    exact List.mem_cons_self
  have hdelayed' : (({ s with generators := s.generators.erase movement.order } :
      MotionMaster).recordFinalize movement).delayed = true := hdelayed
  have haside : Aside clean (({ s with generators := s.generators.erase movement.order } :
      MotionMaster).recordFinalize movement) (u.onFinalize.run c
        (({ s with generators := s.generators.erase movement.order } :
          MotionMaster).recordFinalize movement)).1 :=
    (aside_run hdelayed' u.onFinalize fun hclean => (hu hclean).onFinalize).1
  have hframe : ∀ f : MotionMaster → MotionMaster, (s.removeAt movement f).frame =
    (f { s with generators := s.generators.erase movement.order }).frame := fun _ => frame_removeAt
  have hsame := hframe fun s => (u.onFinalize.run c (s.recordFinalize movement)).1
  simp only [frame, Prod.mk.injEq] at hsame
  obtain ⟨-, hpending, hinitializing, -, hdefault⟩ := hsame
  refine ⟨?_, hpending.trans haside.initializationPending,
    hinitializing.trans haside.initializing, hdefault.trans haside.defaultGenerator⟩
  exact h.removeAt hmem (fun hout => haside.kept _ _ _ hout.recordFinalize) haside.generators

theorem assert_true : s.assert true = s := rfl

theorem getCurrent_of_sameSlots (h : SameSlots s s') :
    s'.getCurrentMovementGenerator = s.getCurrentMovementGenerator := by
  rw [getCurrentMovementGenerator, getCurrentMovementGenerator, h.generators, h.defaultGenerator]

theorem updateTop_spec (hdelayed : s.delayed = true) (hu : clean → u.RespectsStates)
    (htop : s.getCurrentMovementGenerator = some top) (h : Kept clean [] [] [] s) :
    Kept clean [] [] [] (updateTop c u s top) ∧
      (updateTop c u s top).initializationPending = s.initializationPending ∧
      (updateTop c u s top).initializing = s.initializing ∧
      (updateTop c u s top).defaultGenerator = s.defaultGenerator := by
  obtain ⟨hstart, hpending, hdeactivated⟩ := startTop_spec (c := c) hdelayed hu h
  rw [updateTop]
  generalize startTop c u s top = r at hstart hpending hdeactivated
  obtain ⟨s₁, state⟩ := r
  dsimp only at hstart hpending hdeactivated ⊢
  rw [hpending, hdeactivated]
  have hassert : s₁.assert (!false && !false) = s₁ := rfl
  rw [hassert]
  have hdelayed₁ := hstart.delayed.trans hdelayed
  have hrun : Aside clean s₁ (if state = .failed then (s₁, false) else u.onUpdate.run c s₁).1 := by
    split
    · exact .refl s₁
    · exact (aside_run hdelayed₁ u.onUpdate fun hclean => (hu hclean).onUpdate).1
  generalize (if state = .failed then (s₁, false) else u.onUpdate.run c s₁) = r at hrun
  obtain ⟨s₂, running⟩ := r
  have hboth : Aside clean s s₂ := hstart.trans hrun
  split
  · exact ⟨hboth.kept _ _ _ h, hboth.initializationPending, hboth.initializing,
      hboth.defaultGenerator⟩
  rw [getCurrent_of_sameSlots hboth.toSameSlots, htop, decide_eq_true rfl, assert_true]
  obtain ⟨hkept, hpending', hinitializing, hdefault⟩ := pop_spec (c := c)
    (hboth.delayed.trans hdelayed) hu (hboth.kept _ _ _ h)
  exact ⟨hkept, hpending'.trans hboth.initializationPending,
    hinitializing.trans hboth.initializing, hdefault.trans hboth.defaultGenerator⟩

theorem empty_eq_false (h : s.defaultGenerator.isSome) : s.empty = false := by
  rw [empty, Option.isNone_eq_false_iff.mpr h]
  rfl

theorem exists_current (h : s.defaultGenerator.isSome) :
    ∃ top, s.getCurrentMovementGenerator = some top := by
  obtain ⟨default, hdefault⟩ := Option.isSome_iff_exists.mp h
  rw [getCurrentMovementGenerator, hdefault]
  cases s.generators.items.head? with
  | none => exact ⟨default, rfl⟩
  | some top => exact ⟨top, rfl⟩

theorem AtRest.update (hc : clean → c.RespectsStates) (hu : clean → u.RespectsStates)
    (h : AtRest clean s) : AtRest clean (s.update c u) ∧
      (s.update c u).initializationPending = s.initializationPending := by
  cases hpending : s.initializationPending with
  | true =>
    rw [MotionMaster.update, hpending]
    exact ⟨h, hpending⟩
  | false =>
    obtain ⟨hdefault, -⟩ := h.started hpending
    obtain ⟨top, htop⟩ := exists_current hdefault
    have hdelayed : ({ s with updating := true } : MotionMaster).delayed = true := rfl
    obtain ⟨hkept, hpending', hinitializing, hdefault'⟩ := updateTop_spec (c := c) hdelayed hu htop
      (kept_updating true h.kept)
    rw [update_eq hpending h.initializing (empty_eq_false hdefault) htop]
    generalize updateTop c u { s with updating := true } top = s₁ at hkept hpending' hinitializing hdefault'
    obtain ⟨hkept, hupdating, hpending₂, hinitializing₂, hdefault₂, hactions⟩ := atRest_resolve hc
      (kept_updating false hkept) rfl (hpending'.trans hpending) (hdefault' ▸ hdefault)
    exact ⟨⟨hkept, hupdating, hinitializing₂.trans (hinitializing.trans h.initializing),
      fun _ => ⟨hdefault₂, hactions⟩⟩, hpending₂⟩

theorem AtRest.exec {step : Step} (hstep : clean → step.RespectsStates) (h : AtRest clean s) :
    AtRest clean (step.exec s) := by
  cases step with
  | addToWorld c => exact (h.addToWorld hstep).1
  | call c made => exact (h.request hstep made).1
  | update c u => exact (h.update (fun hclean => (hstep hclean).1) fun hclean => (hstep hclean).2).1

theorem AtRest.run {steps : List Step}
    (hsteps : clean → ∀ step ∈ steps, step.RespectsStates) (h : AtRest clean s) :
    AtRest clean (steps.foldl Step.exec s) := by
  induction steps generalizing s with
  | nil => exact h
  | cons step steps ih =>
    apply ih
    · exact fun hclean other hother => hsteps hclean other (List.mem_cons_of_mem _ hother)
    · exact h.exec fun hclean => hsteps hclean step List.mem_cons_self

theorem exec_initializationPending (step : Step) (h : AtRest False s)
    (hpending : s.initializationPending = false) :
    (step.exec s).initializationPending = false := by
  cases step with
  | addToWorld c => exact (h.addToWorld nofun).2
  | call c made => exact (h.request nofun made).2.trans hpending
  | update c u => exact (h.update nofun nofun).2.trans hpending

theorem run_initializationPending (steps : List Step) (h : AtRest False s)
    (hpending : s.initializationPending = false) :
    (steps.foldl Step.exec s).initializationPending = false := by
  induction steps generalizing s with
  | nil => exact hpending
  | cons step steps ih =>
    exact ih (h.exec nofun) (exec_initializationPending step h hpending)

end MotionMaster

end LegionServer.Source.Movement
