import LegionServer.Source.Movement.DirectCalls

/-!
# Calls, put off or not

While calls are put off the slots stay. A generator that is handed over has an owner from then on.
-/
namespace LegionServer.Source.Movement
open Library List
open BaseUnitState (Respects)

namespace MotionMaster

variable {clean : Prop} {s s' : MotionMaster} {c : Callbacks}
  {mapped leaving hand : List MovementGenerator} {movement g : MovementGenerator}

theorem Kept.handOver (h : Kept clean mapped leaving hand s) :
    Kept clean mapped leaving ((s.handOver movement).1 :: hand) (s.handOver movement).2 := by
  have hfresh : (s.handOver movement).1 ≠ getIdleMovementGenerator →
      (s.handOver movement).1.id = s.handed.length + 1 := by
    rw [MotionMaster.handOver]
    split
    · exact fun hne => absurd rfl hne
    · exact fun _ => rfl
  have hnew : (s.handOver movement).1 ≠ getIdleMovementGenerator →
      s.handed.count (s.handOver movement).1 = 0 := by
    intro hne
    rw [count_eq_zero]
    intro hmem
    have hid := h.ids _ hmem hne
    rw [hfresh hne] at hid
    omega
  have hhanded : (s.handOver movement).2.handed = (s.handOver movement).1 :: s.handed := rfl
  refine ⟨h.states, h.bits, fun g hg => ?_, h.finalized, ?_, fun g hg => ?_, h.flags,
    h.assertFailed⟩
  · have hbalance := h.balance g hg
    rw [hhanded, count_cons, count_cons]
    change s.deleted g + s.owned.count g + _ + _ = _
    omega
  · rw [hhanded, length_cons]
    intro g hmem hg
    rcases List.mem_cons.mp hmem with rfl | hmem
    · exact (hfresh hg).le
    · have hid := h.ids g hmem hg
      omega
  · rw [hhanded, count_cons]
    have hold := h.handed g hg
    by_cases hsame : (s.handOver movement).1 = g
    · have hzero := hnew (hsame ▸ hg)
      rw [hsame] at hzero
      split <;> omega
    · rw [if_neg (by simpa using hsame)]
      omega

section PutOff

variable {start : MotionMaster → MotionMaster × Bool} {slot : MovementSlot}

/-- An immediate generator is started where it would become top. -/
def starts (s : MotionMaster) (movement : MovementGenerator)
    (start : MotionMaster → MotionMaster × Bool) : MotionMaster × Bool :=
  if movement.kind = .immediate ∧ (s.flags movement).initializationPending then
    if s.generators.lowerBound movement.order = s.generators.items.head? then start s
    else (s, false)
  else (s, true)

theorem add_eq : s.add movement c start slot =
    if !(s.starts movement start).2 then (s.starts movement start).1.deleteObject movement
    else if (s.starts movement start).1.delayed then
      { (s.starts movement start).1 with
        delayedActions := (s.starts movement start).1.delayedActions ++ [.add movement slot] }
    else (s.starts movement start).1.directAdd movement c slot := rfl

/-- What holds of the motion master and of what `Initialize` leaves holds where it started. -/
theorem starts_of {P : MotionMaster → Prop} (hself : P s) (hstart : P (start s).1) :
    P (s.starts movement start).1 := by
  rw [starts]
  split
  · split
    · exact hstart
    · exact hself
  · exact hself

variable {made : Call}

theorem kept_putOff (h : Kept clean mapped leaving ((added made).toList ++ hand) s) :
    Kept clean mapped leaving hand { s with delayedActions := s.delayedActions ++ [made] } := by
  refine h.move h.states h.bits (fun g _ => ?_) rfl rfl rfl rfl rfl
  rw [owned, owned, filterMap_append, count_append, count_append, count_append,
    count_append, count_append, count_append]
  cases hadded : added made with
  | none => simp [hadded]
  | some movement => simp [hadded]; omega

theorem aside_putOff (hadded : added made = none) :
    Aside clean s { s with delayedActions := s.delayedActions ++ [made] } := by
  refine ⟨⟨rfl, rfl, rfl, rfl, rfl, rfl⟩, fun mapped leaving hand h => kept_putOff ?_⟩
  rw [hadded]
  exact h

theorem sameSlots_add (hdelayed : s.delayed = true) (hstart : Aside clean s (start s).1) :
    SameSlots s (s.add movement c start slot) := by
  have hstarts : Aside clean s (s.starts movement start).1 := starts_of (.refl s) hstart
  rw [add_eq]
  split
  · exact hstarts.toSameSlots.trans ⟨rfl, rfl, rfl, rfl, rfl, rfl⟩
  · rw [if_pos (hstarts.delayed.trans hdelayed)]
    exact hstarts.toSameSlots.trans ⟨rfl, rfl, rfl, rfl, rfl, rfl⟩

theorem Kept.add (hdelayed : s.delayed = true) (hstart : Aside clean s (start s).1)
    (h : Kept clean mapped leaving (movement :: hand) s) :
    Kept clean mapped leaving hand (s.add movement c start slot) := by
  have hstarts : Aside clean s (s.starts movement start).1 := starts_of (.refl s) hstart
  have hkept := hstarts.kept _ _ _ h
  rw [add_eq]
  split
  · exact hkept.deleteHand
  · rw [if_pos (hstarts.delayed.trans hdelayed)]
    exact kept_putOff hkept

variable {starting : MovementGenerator → MotionMaster → MotionMaster × Bool}

theorem aside_call (hdelayed : s.delayed = true) (hadded : added made = none) :
    Aside clean s (s.call c starting made) := by
  cases made with
  | add movement slot => cases hadded
  | restart =>
    rw [call]
    split
    · exact .refl s
    rename_i hpending
    have hupdating : s.updating = true := by
      rw [MotionMaster.delayed] at hdelayed
      simpa [hpending] using hdelayed
    rw [if_pos hupdating]
    exact aside_putOff rfl
  | removeType type slot =>
    rw [call]
    split
    · exact .refl s
    · exact aside_putOff rfl
  | remove | clear | clearSlot | clearPriority =>
    change Aside clean s (if s.delayed then _ else _)
    rw [if_pos hdelayed]
    exact aside_putOff rfl

/-- Only `Add` hands a generator over. -/
theorem request_eq_call (hadded : added made = none) :
    s.request c starting made = s.call c starting made := by
  cases made with
  | add movement slot => cases hadded
  | restart | remove | removeType | clear | clearSlot | clearPriority => rfl

/-- A call from a generator during `Update`. -/
theorem aside_request (hdelayed : s.delayed = true)
    (hstart : ∀ movement s, s.delayed = true → Aside clean s (starting movement s).1)
    (made : Call) : Aside clean s (s.request c starting made) := by
  cases made with
  | add movement slot =>
    have hslots : SameSlots s (s.handOver movement).2 := ⟨rfl, rfl, rfl, rfl, rfl, rfl⟩
    have hdelayed' := hslots.delayed.trans hdelayed
    exact ⟨hslots.trans (sameSlots_add hdelayed' (hstart _ _ hdelayed')),
      fun _ _ _ h => h.handOver.add hdelayed' (hstart _ _ hdelayed')⟩
  | restart | remove | removeType | clear | clearSlot | clearPriority =>
    rw [request_eq_call rfl]
    exact aside_call hdelayed rfl

def Calm (s s' : MotionMaster) : Prop := ∀ g,
  ((s'.flags g).initializationPending = true → (s.flags g).initializationPending = true) ∧
    ((s'.flags g).deactivated = true → (s.flags g).deactivated = true)

theorem Calm.refl (s : MotionMaster) : Calm s s := fun _ => ⟨id, id⟩

theorem Calm.trans {s'' : MotionMaster} (h : Calm s s') (h' : Calm s' s'') : Calm s s'' :=
  fun g => ⟨(h g).1 ∘ (h' g).1, (h g).2 ∘ (h' g).2⟩

theorem calm_onInitialize :
    Calm s (s.setFlags movement ((s.flags movement).onInitialize movement.kind)) := by
  intro g
  change ((Function.update s.flags movement _ g).initializationPending = true → _) ∧
    ((Function.update s.flags movement _ g).deactivated = true → _)
  by_cases hg : g = movement
  · subst hg
    rw [Function.update_self]
    cases g.kind with
    | idle => exact ⟨id, id⟩
    | immediate => exact ⟨nofun, id⟩
    | resumable => exact ⟨nofun, nofun⟩
  · rw [Function.update_of_ne hg]
    exact ⟨id, id⟩

theorem calm_request (hdelayed : s.delayed = true)
    (haside : ∀ movement s, s.delayed = true → Aside clean s (starting movement s).1)
    (hstart : ∀ movement s, s.delayed = true → Calm s (starting movement s).1)
    (made : Call) : Calm s (s.request c starting made) := by
  cases made with
  | add movement slot =>
    have hdelayed' : (s.handOver movement).2.delayed = true := hdelayed
    have hcalm : Calm s ((s.handOver movement).2.starts (s.handOver movement).1
        (starting (s.handOver movement).1)).1 := starts_of (.refl s) (hstart _ _ hdelayed')
    have hstarts : Aside clean (s.handOver movement).2 ((s.handOver movement).2.starts
        (s.handOver movement).1 (starting (s.handOver movement).1)).1 :=
      starts_of (.refl _) (haside _ _ hdelayed')
    change Calm s ((s.handOver movement).2.add (s.handOver movement).1 c
      (starting (s.handOver movement).1) slot)
    rw [add_eq]
    split
    · exact hcalm
    · rw [if_pos (hstarts.delayed.trans hdelayed')]
      exact hcalm
  | restart =>
    change Calm s (if s.initializationPending then s else _)
    split
    · exact .refl s
    rename_i hpending
    have hupdating : s.updating = true := by
      rw [MotionMaster.delayed] at hdelayed
      simpa [hpending] using hdelayed
    rw [if_pos hupdating]
    exact .refl s
  | removeType type slot =>
    change Calm s (if isInvalidMovementGeneratorType type then s else _)
    split
    · exact .refl s
    · exact .refl s
  | remove | clear | clearSlot | clearPriority =>
    change Calm s (if s.delayed then _ else _)
    rw [if_pos hdelayed]
    exact .refl s

/-- What a generator does during `Update`. -/
theorem aside_run (hdelayed : s.delayed = true) (b : Behaviour)
    (hb : clean → b.RespectsStates) : Aside clean s (b.run c s).1 ∧ Calm s (b.run c s).1 := by
  induction b generalizing s with
  | done result unitState => exact ⟨aside_unitState fun hclean => hb hclean s.unitState, .refl s⟩
  | call made start rest ihstart ihrest =>
    have hflags : ∀ movement (s : MotionMaster), Aside clean s
        (s.setFlags movement ((s.flags movement).onInitialize movement.kind)) :=
      fun _ _ => aside_flagsOnInitialize
    have hstart : ∀ movement s, s.delayed = true → Aside clean s (start.run c
        (s.setFlags movement ((s.flags movement).onInitialize movement.kind))).1 ∧
          Calm s (start.run c
            (s.setFlags movement ((s.flags movement).onInitialize movement.kind))).1 := by
      intro movement s hdelayed
      obtain ⟨haside, hcalm⟩ := ihstart ((hflags movement s).delayed.trans hdelayed)
        fun hclean => (hb hclean).1
      exact ⟨(hflags movement s).trans haside, calm_onInitialize.trans hcalm⟩
    have hmade : Aside clean s (s.request c (fun movement s => start.run c
        (s.setFlags movement ((s.flags movement).onInitialize movement.kind))) made) :=
      aside_request hdelayed (fun movement s h => (hstart movement s h).1) made
    have hcalm : Calm s (s.request c (fun movement s => start.run c
        (s.setFlags movement ((s.flags movement).onInitialize movement.kind))) made) :=
      calm_request hdelayed (fun movement s h => (hstart movement s h).1)
        (fun movement s h => (hstart movement s h).2) made
    obtain ⟨hrest, hrest'⟩ := ihrest (hmade.delayed.trans hdelayed) fun hclean => (hb hclean).2
    exact ⟨hmade.trans hrest, hcalm.trans hrest'⟩

end PutOff

section NotPutOff

variable {slot : MovementSlot}

section
variable (hc : clean → c.RespectsStates)
include hc

theorem direct_onInitialize : Direct clean [] s (s.onInitialize movement c).1 :=
  direct_of_frame rfl fun _ h => (aside_onInitialize hc).kept _ _ _ h

theorem direct_add (hdelayed : s.delayed = false) :
    Direct clean [movement] s (s.add movement c (fun s => s.onInitialize movement c) slot) := by
  have hstarts : Direct clean [] s (s.starts movement fun s => s.onInitialize movement c).1 :=
    starts_of (.refl s) (direct_onInitialize hc)
  rw [add_eq]
  split
  · exact hstarts.trans (direct_of_frame frame_deleteObject fun _ h => h.deleteHand)
  · rw [if_neg (by rw [hstarts.delayed, hdelayed]; nofun)]
    exact hstarts.trans (direct_directAdd hc slot)

theorem direct_handOver_add (hdelayed : s.delayed = false) :
    Direct clean [] s ((s.handOver movement).2.add (s.handOver movement).1 c
      (fun s' => s'.onInitialize (s.handOver movement).1 c) slot) := by
  have hadd : Direct clean [(s.handOver movement).1] (s.handOver movement).2
      ((s.handOver movement).2.add (s.handOver movement).1 c
        (fun s' => s'.onInitialize (s.handOver movement).1 c) slot) := direct_add hc hdelayed
  exact ⟨hadd.updating, hadd.initializationPending, hadd.initializing, hadd.delayedActions,
    hadd.defaultGenerator, fun hand h => hadd.kept hand h.handOver⟩

theorem direct_directInitialize (hdelayed : s.delayed = false) :
    Direct clean [] s (s.directInitialize c) := by
  have hclear : Direct clean [] s ((s.directClearDefault c).directClear c) :=
    (direct_directClearDefault hc).trans (direct_directClear hc)
  exact hclear.trans (direct_handOver_add hc (hclear.delayed.trans hdelayed))

end

theorem defaultGenerator_directAdd :
    (s.directAdd movement c .default).defaultGenerator = some movement := by
  have hdeleter : ∀ (s : MotionMaster) (before : MovementGenerator),
      (s.movementGeneratorPointerDeleter before).defaultGenerator = s.defaultGenerator := by
    intro s before
    rw [movementGeneratorPointerDeleter]
    split <;> rfl
  have hstatic : ∀ s : MotionMaster, (if isStatic movement then
      { s with staticInitializationPending := true } else s).defaultGenerator =
        s.defaultGenerator := by
    intro s
    split <;> rfl
  refine (hstatic _).trans ?_
  cases s.defaultGenerator with
  | none => rfl
  | some before => exact hdeleter _ before

/-- A generator that is not immediate comes into the default slot. -/
theorem defaultGenerator_add {start : MotionMaster → MotionMaster × Bool}
    (hkind : movement.kind ≠ .immediate) (hdelayed : s.delayed = false) :
    (s.add movement c start .default).defaultGenerator = some movement := by
  have hstarts : s.starts movement start = (s, true) := if_neg fun h => hkind h.1
  rw [add_eq, hstarts]
  dsimp only
  rw [if_neg (by decide), if_neg (by rw [hdelayed]; nofun)]
  exact defaultGenerator_directAdd

theorem directInitialize_default (hdelayed : s.delayed = false) :
    (s.directInitialize c).defaultGenerator.isSome := by
  have hclear : Direct False [] s ((s.directClearDefault c).directClear c) :=
    (direct_directClearDefault nofun).trans (direct_directClear nofun)
  apply Option.isSome_iff_exists.mpr
  refine ⟨_, defaultGenerator_add ?_ (hclear.delayed.trans hdelayed)⟩
  cases c.defaultMovementType <;> nofun

section
variable (hc : clean → c.RespectsStates) (hdelayed : s.delayed = false)
include hc hdelayed

theorem direct_directCall (made : Call) :
    Direct clean (added made).toList s (s.directCall c made) := by
  cases made with
  | restart => exact direct_directInitialize hc hdelayed
  | add movement slot => exact direct_directAdd hc slot
  | remove movement slot =>
    cases slot with
    | default =>
      rw [directCall]
      split
      · exact direct_directClearDefault hc
      · exact .refl s
    | active =>
      rw [directCall]
      split
      · rename_i found hfound
        exact direct_of_frame frame_remove fun _ h =>
          h.remove hc (FlatSet.find_eq_some.mp hfound).1
      · exact .refl s
  | removeType type slot =>
    cases slot with
    | default =>
      rw [directCall]
      split
      · exact direct_directClearDefault hc
      · exact .refl s
    | active => exact direct_directClearIf hc _
  | clear => exact direct_directClear hc
  | clearSlot slot =>
    cases slot with
    | default => exact direct_directClearDefault hc
    | active => exact direct_directClear hc
  | clearPriority priority => exact direct_directClearIf hc _

theorem direct_call (made : Call) :
    Direct clean (added made).toList s
      (s.call c (fun movement s => s.onInitialize movement c) made) := by
  have hdirect := direct_directCall hc hdelayed
  cases made with
  | add movement slot => exact direct_add hc hdelayed
  | restart =>
    simp only [MotionMaster.delayed, Bool.or_eq_false_iff] at hdelayed
    rw [call, if_neg (by simp [hdelayed.2]), if_neg (by simp [hdelayed.1])]
    exact hdirect .restart
  | removeType type slot =>
    rw [call]
    split
    · exact .refl s
    · rw [if_neg (by simp [hdelayed])]
      split
      · exact .refl s
      · exact hdirect (.removeType type slot)
  | remove movement slot =>
    change Direct clean [] s (if s.delayed then _ else _)
    rw [if_neg (by simp [hdelayed])]
    split
    · exact .refl s
    · exact hdirect (.remove movement slot)
  | clear =>
    change Direct clean [] s (if s.delayed then _ else _)
    rw [if_neg (by simp [hdelayed])]
    split
    · exact .refl s
    · exact hdirect .clear
  | clearSlot slot =>
    change Direct clean [] s (if s.delayed then _ else _)
    rw [if_neg (by simp [hdelayed])]
    split
    · exact .refl s
    · exact hdirect (.clearSlot slot)
  | clearPriority priority =>
    change Direct clean [] s (if s.delayed then _ else _)
    rw [if_neg (by simp [hdelayed])]
    split
    · exact .refl s
    · exact hdirect (.clearPriority priority)

/-- A call from outside that is not put off. -/
theorem direct_request (made : Call) : Direct clean [] s
      (s.request c (fun movement s => s.onInitialize movement c) made) := by
  have hother : ∀ made, added made = none → Direct clean [] s
      (s.call c (fun movement s => s.onInitialize movement c) made) := by
    intro made hadded
    have hcall := direct_call hc hdelayed made
    rw [hadded] at hcall
    exact hcall
  cases made with
  | add movement slot => exact direct_handOver_add hc hdelayed
  | restart | remove | removeType | clear | clearSlot | clearPriority =>
    rw [request_eq_call rfl]
    apply hother
    rfl

theorem direct_calls (made : List Call) : Direct clean (made.filterMap added) s
      (made.foldl (fun s made => s.call c (fun movement s => s.onInitialize movement c) made)
        s) := by
  induction made generalizing s with
  | nil => exact .refl s
  | cons first made ih =>
    have hfirst := direct_call hc hdelayed first
    have hrest := hfirst.trans (ih (hfirst.delayed.trans hdelayed))
    have hadded : (first :: made).filterMap added =
        (added first).toList ++ made.filterMap added := by
      rw [filterMap_cons]
      cases added first <;> rfl
    rw [hadded]
    exact hrest

theorem direct_resolveDelayedActions : Direct clean (s.delayedActions.filterMap added)
      { s with delayedActions := [] } (s.resolveDelayedActions c) := by
  have hdelayed' : ({ s with delayedActions := [] } : MotionMaster).delayed = false := hdelayed
  exact direct_calls hc hdelayed' s.delayedActions

theorem kept_resolveDelayedActions (h : Kept clean [] [] hand s) :
    Kept clean [] [] hand (s.resolveDelayedActions c) := by
  apply (direct_resolveDelayedActions hc hdelayed).kept hand
  refine h.move h.states h.bits (fun g _ => ?_) rfl rfl rfl rfl rfl
  rw [owned, owned, count_append, count_append, count_append, count_append,
    count_append, filterMap_nil, count_nil]
  dsimp only
  omega

end

end NotPutOff

end MotionMaster

end LegionServer.Source.Movement
