import LegionServer.Source.Movement.Ownership

/-!
# Calls that are not put off

Each of them keeps the generators, and leaves what is put off alone.
-/
namespace LegionServer.Source.Movement
open Library List FlatSet Option
open BaseUnitState (isIn_or_self)

namespace MotionMaster

def frame (s : MotionMaster) : Bool × Bool × Bool × List Call × Option MovementGenerator :=
  (s.updating, s.initializationPending, s.initializing, s.delayedActions, s.defaultGenerator)

variable {clean : Prop} {s s' : MotionMaster} {c : Callbacks}
  {mapped leaving hand : List MovementGenerator} {movement g : MovementGenerator}

section Frames

variable {active movementInform : Bool}

@[simp] theorem frame_onFinalize :
    (s.onFinalize movement c active movementInform).frame = s.frame := rfl

@[simp] theorem frame_deleteObject : (s.deleteObject movement).frame = s.frame := rfl

@[simp] theorem frame_clearBaseUnitStates : s.clearBaseUnitStates.frame = s.frame := rfl

@[simp] theorem frame_pointerDeleter :
    (s.movementGeneratorPointerDeleter movement).frame = s.frame := by
  rw [movementGeneratorPointerDeleter]
  split <;> rfl

@[simp] theorem generators_pointerDeleter :
    (s.movementGeneratorPointerDeleter movement).generators = s.generators := by
  rw [movementGeneratorPointerDeleter]
  split <;> rfl

@[simp] theorem frame_clearBaseUnitState : (s.clearBaseUnitState movement).frame = s.frame := by
  rw [clearBaseUnitState]
  split <;> rfl

@[simp] theorem generators_clearBaseUnitState :
    (s.clearBaseUnitState movement).generators = s.generators := by
  rw [clearBaseUnitState]
  split <;> rfl

@[simp] theorem frame_addBaseUnitState : (s.addBaseUnitState movement).frame = s.frame := by
  rw [addBaseUnitState]
  split <;> rfl

theorem frame_removeAt {f : MotionMaster → MotionMaster} : (s.removeAt movement f).frame =
    (f { s with generators := s.generators.erase movement.order }).frame := by
  rw [removeAt, delete]
  rw [frame_pointerDeleter, frame_clearBaseUnitState]

@[simp] theorem frame_remove :
    (s.remove movement c active movementInform).frame = s.frame := frame_removeAt

theorem generators_remove : (s.remove movement c active movementInform).generators =
    s.generators.erase movement.order := by
  rw [remove, removeAt, delete]
  rw [generators_pointerDeleter, generators_clearBaseUnitState]
  rfl

theorem frame_foldl_remove (active : MovementGenerator → Bool) (l : List MovementGenerator) :
    (l.foldl (fun s movement => s.remove movement c (active movement) false) s).frame =
      s.frame := by
  induction l generalizing s with
  | nil => rfl
  | cons movement l ih => rw [foldl_cons, ih, frame_remove]

@[simp] theorem frame_directClear : (s.directClear c).frame = s.frame := by
  rw [directClear]
  rw [frame_clearBaseUnitStates]
  split
  · rfl
  · rw [frame_foldl_remove fun _ => false, frame_remove]

@[simp] theorem frame_directClearIf (filter : MovementGenerator → Bool) :
    (s.directClearIf c filter).frame = s.frame :=
  frame_foldl_remove _ _

@[simp] theorem frame_makeRoom : (s.makeRoom movement c).frame = s.frame := by
  rw [makeRoom]
  split
  · split <;> rfl
  split
  · split
    · exact frame_remove
    · split <;> rfl
  · rfl

theorem frame_directAdd_active : (s.directAdd movement c .active).frame = s.frame := by
  rw [directAdd]
  split
  · rw [frame_deleteObject, frame_onFinalize, frame_makeRoom]
  · rw [frame_addBaseUnitState]
    exact frame_makeRoom

end Frames

theorem Kept.clearBaseUnitState (h : Kept clean [movement] leaving hand s)
    (hnot : movement ∉ s.generators.items) :
    Kept clean [] leaving hand (s.clearBaseUnitState movement) := by
  rw [MotionMaster.clearBaseUnitState]
  split
  · rename_i hnone
    have hstates := h.states
    rw [baseUnitStates, singleton_append, filter_cons_of_neg (by simp [hnone])] at hstates
    exact h.move hstates h.bits (fun _ _ => rfl) rfl rfl rfl rfl rfl
  · rename_i hsome
    have hleft : (s.baseUnitStatesMap.filter fun p => p ≠ (movement.baseUnitState, movement)).Perm
        (baseUnitStates s.generators.items) := by
      apply (h.states.filter _).trans
      rw [baseUnitStates, singleton_append, filter_cons_of_pos (by simpa using hsome),
        map_cons, filter_cons_of_neg (by simp)]
      refine List.Perm.of_eq (filter_eq_self.mpr ?_)
      rintro p hp
      obtain ⟨other, hother, rfl⟩ := mem_map.mp hp
      have hne : other ≠ movement := fun hsame =>
        hnot (hsame ▸ (mem_filter.mp hother).1)
      simp [hne]
    refine h.move hleft (fun hclean p hp => ?_) (fun _ _ => rfl) rfl rfl rfl rfl rfl
    have hbits := h.bits hclean p (mem_filter.mp hp).1
    dsimp only
    split
    · rename_i hcount
      have hne : p.1 ≠ movement.baseUnitState := by
        simpa using countP_eq_zero.mp hcount p hp
      exact hbits.and_not hne
    · exact hbits

theorem Kept.removeAt {f : MotionMaster → MotionMaster} (h : Kept clean [] leaving hand s)
    (hmem : movement ∈ s.generators.items)
    (hf : Kept clean [movement] leaving (movement :: hand)
        { s with generators := s.generators.erase movement.order } →
      Kept clean [movement] (movement :: leaving) hand
        (f { s with generators := s.generators.erase movement.order }))
    (hgenerators : (f { s with generators := s.generators.erase movement.order }).generators =
      s.generators.erase movement.order) :
    Kept clean [] leaving hand (s.removeAt movement f) := by
  have hperm := perm_erase hmem
  have hout : Kept clean [movement] leaving (movement :: hand)
      { s with generators := s.generators.erase movement.order } := by
    refine h.move ?_ h.bits (fun g _ => ?_) rfl rfl rfl rfl rfl
    · exact h.states.trans ((hperm.filter _).map _)
    · rw [owned, owned, count_append, count_append, count_append, count_append,
        hperm.count_eq, count_cons, count_cons]
      dsimp only
      omega
  have hnot : movement ∉
      (f { s with generators := s.generators.erase movement.order }).generators.items := by
    rw [hgenerators, mem_erase]
    exact fun hsame => hsame.2 rfl
  exact ((hf hout).clearBaseUnitState hnot).pointerDeleter

theorem Kept.remove {active movementInform : Bool} (hc : clean → c.RespectsStates)
    (h : Kept clean [] leaving hand s) (hmem : movement ∈ s.generators.items) :
    Kept clean [] leaving hand (s.remove movement c active movementInform) :=
  h.removeAt hmem (fun hout => hout.onFinalize hc) rfl

theorem Kept.foldl_remove (active : MovementGenerator → Bool) (hc : clean → c.RespectsStates)
    (l : List MovementGenerator) (h : Kept clean [] leaving hand s) (hnodup : l.Nodup)
    (hmem : ∀ g ∈ l, g ∈ s.generators.items) :
    Kept clean [] leaving hand
      (l.foldl (fun s movement => s.remove movement c (active movement) false) s) := by
  induction l generalizing s with
  | nil => exact h
  | cons movement l ih =>
    rw [nodup_cons] at hnodup
    have hfirst : movement ∈ s.generators.items := hmem movement mem_cons_self
    apply ih (h.remove hc hfirst) hnodup.2
    intro g hg
    have hold : g ∈ s.generators.items := hmem g (mem_cons_of_mem _ hg)
    rw [generators_remove, mem_erase]
    refine ⟨hold, fun horder => ?_⟩
    rw [eq_of_key hold hfirst horder] at hg
    exact hnodup.1 hg

theorem mem_foldl_remove (active : MovementGenerator → Bool) (l : List MovementGenerator)
    (h : g ∈ (l.foldl (fun s movement => s.remove movement c (active movement) false)
      s).generators.items) : g ∈ s.generators.items ∧ g ∉ l := by
  induction l generalizing s with
  | nil => exact ⟨h, not_mem_nil⟩
  | cons movement l ih =>
    obtain ⟨hmem, hnot⟩ := ih h
    rw [generators_remove, mem_erase] at hmem
    refine ⟨hmem.1, fun hlist => ?_⟩
    rcases mem_cons.mp hlist with rfl | hlist
    · exact hmem.2 rfl
    · exact hnot hlist

theorem Kept.directClear (hc : clean → c.RespectsStates) (h : Kept clean [] leaving hand s) :
    Kept clean [] leaving hand (s.directClear c) := by
  rw [MotionMaster.directClear]
  split
  · rename_i hitems
    refine h.move ?_ (fun _ _ hp => absurd hp not_mem_nil) (fun _ _ => rfl) rfl rfl rfl rfl rfl
    rw [clearBaseUnitStates, nil_append, hitems]
    exact List.Perm.refl _
  · rename_i top rest hitems
    have hnodup : (top :: rest).Nodup := hitems ▸ s.generators.nodup
    have htop : top ∈ s.generators.items := by
      rw [hitems]
      exact mem_cons_self
    have hrest : ∀ g ∈ rest, g ∈ (s.remove top c true false).generators.items := by
      intro g hg
      have hold : g ∈ s.generators.items := by
        rw [hitems]
        exact mem_cons_of_mem _ hg
      rw [generators_remove, mem_erase]
      refine ⟨hold, fun horder => ?_⟩
      rw [eq_of_key hold htop horder] at hg
      exact (nodup_cons.mp hnodup).1 hg
    have htop' : Kept clean [] leaving hand (s.remove top c true false) := h.remove hc htop
    have hkept := htop'.foldl_remove (fun _ => false) hc rest (nodup_cons.mp hnodup).2 hrest
    refine hkept.move ?_ (fun _ _ hp => absurd hp not_mem_nil) (fun _ _ => rfl) rfl rfl rfl
      rfl rfl
    have hempty : (rest.foldl (fun s movement => s.remove movement c false false)
        (s.remove top c true false)).generators.items = [] := by
      apply List.eq_nil_iff_forall_not_mem.mpr
      intro g hg
      obtain ⟨hmem, hnot⟩ := mem_foldl_remove (fun _ => false) rest hg
      rw [generators_remove, mem_erase, hitems, mem_cons] at hmem
      rcases hmem.1 with rfl | hmem'
      · exact hmem.2 rfl
      · exact hnot hmem'
    rw [clearBaseUnitStates, nil_append, hempty]
    exact List.Perm.refl _

theorem Kept.directClearIf (hc : clean → c.RespectsStates) (filter : MovementGenerator → Bool)
    (h : Kept clean [] leaving hand s) : Kept clean [] leaving hand (s.directClearIf c filter) :=
  h.foldl_remove _ hc _ (s.generators.nodup.filter _) fun _ hg => (mem_filter.mp hg).1

section Slots

theorem Kept.replaceDefault (active : Bool) {before : MovementGenerator}
    (hc : clean → c.RespectsStates) (hbefore : s.defaultGenerator = some before)
    (h : Kept clean [] leaving (movement :: hand) s) :
    Kept clean [] leaving hand (({ s.onFinalize before c active false with
      defaultGenerator := some movement }).movementGeneratorPointerDeleter before) := by
  apply Kept.pointerDeleter
  have hout : Kept clean [] leaving (before :: hand)
      { s with defaultGenerator := some movement } := by
    refine h.move h.states h.bits (fun g _ => ?_) rfl rfl rfl rfl rfl
    simp only [owned, hbefore, toList_some, count_append, count_cons, count_nil]
    omega
  have hkept := hout.recordFinalize
  exact ⟨hkept.states, fun hclean p hp => (hc hclean).onFinalize _ before active false p.1
    (hkept.bits hclean p hp), hkept.balance, hkept.finalized, hkept.ids, hkept.handed, hkept.flags,
    hkept.assertFailed⟩

theorem Kept.idle_hand (h : Kept clean mapped leaving hand s) :
    Kept clean mapped leaving (getIdleMovementGenerator :: hand) s := by
  refine ⟨h.states, h.bits, fun g hg => ?_, h.finalized, h.ids, h.handed, h.flags, h.assertFailed⟩
  rw [count_cons_of_ne hg.symm]
  exact h.balance g hg

structure Direct (clean : Prop) (taken : List MovementGenerator) (s s' : MotionMaster) : Prop where
  updating : s'.updating = s.updating
  initializationPending : s'.initializationPending = s.initializationPending
  initializing : s'.initializing = s.initializing
  delayedActions : s'.delayedActions = s.delayedActions
  defaultGenerator : s.defaultGenerator.isSome → s'.defaultGenerator.isSome
  kept : ∀ hand, Kept clean [] [] (taken ++ hand) s → Kept clean [] [] hand s'

variable {taken : List MovementGenerator}

theorem Direct.refl (s : MotionMaster) : Direct clean [] s s :=
  ⟨rfl, rfl, rfl, rfl, id, fun _ h => h⟩

theorem Direct.trans {s'' : MotionMaster} {more : List MovementGenerator}
    (h : Direct clean taken s s') (h' : Direct clean more s' s'') :
    Direct clean (taken ++ more) s s'' where
  updating := h'.updating.trans h.updating
  initializationPending := h'.initializationPending.trans h.initializationPending
  initializing := h'.initializing.trans h.initializing
  delayedActions := h'.delayedActions.trans h.delayedActions
  defaultGenerator hdefault := h'.defaultGenerator (h.defaultGenerator hdefault)
  kept hand hkept := h'.kept hand (h.kept _ (by rwa [append_assoc] at hkept))

theorem Direct.delayed (h : Direct clean taken s s') : s'.delayed = s.delayed := by
  rw [MotionMaster.delayed, MotionMaster.delayed, h.updating, h.initializationPending]

theorem direct_of_frame (hframe : s'.frame = s.frame)
    (hkept : ∀ hand, Kept clean [] [] (taken ++ hand) s → Kept clean [] [] hand s') :
    Direct clean taken s s' := by
  simp only [frame, Prod.mk.injEq] at hframe
  obtain ⟨hupdating, hpending, hinitializing, hactions, hdefault⟩ := hframe
  exact ⟨hupdating, hpending, hinitializing, hactions, fun h => hdefault ▸ h, hkept⟩

theorem direct_directClear (hc : clean → c.RespectsStates) : Direct clean [] s (s.directClear c) :=
  direct_of_frame frame_directClear fun _ h => h.directClear hc

theorem direct_directClearIf (hc : clean → c.RespectsStates)
    (filter : MovementGenerator → Bool) : Direct clean [] s (s.directClearIf c filter) :=
  direct_of_frame (frame_directClearIf filter) fun _ h => h.directClearIf hc filter

theorem direct_directClearDefault (hc : clean → c.RespectsStates) :
    Direct clean [] s (s.directClearDefault c) := by
  rw [directClearDefault]
  split
  · rename_i before hbefore
    have hframe : ∀ s : MotionMaster, (s.movementGeneratorPointerDeleter before).frame = s.frame :=
      fun _ => frame_pointerDeleter
    have hsame := hframe { s.onFinalize before c s.generators.items.isEmpty false with
      defaultGenerator := some getIdleMovementGenerator }
    simp only [frame, Prod.mk.injEq] at hsame
    obtain ⟨hupdating, hpending, hinitializing, hactions, hdefault⟩ := hsame
    refine ⟨hupdating, hpending, hinitializing, hactions, fun _ => ?_, fun hand h => ?_⟩
    · exact isSome_iff_exists.mpr ⟨_, hdefault⟩
    · have hkept := Kept.replaceDefault s.generators.items.isEmpty hc hbefore (Kept.idle_hand h)
      exact ⟨hkept.states, hkept.bits, hkept.balance, hkept.finalized, hkept.ids, hkept.handed,
        hkept.flags, hkept.assertFailed⟩
  · exact .refl s

theorem Kept.makeRoom (hc : clean → c.RespectsStates) (h : Kept clean [] leaving hand s) :
    Kept clean [] leaving hand (s.makeRoom movement c) := by
  rw [MotionMaster.makeRoom]
  split
  · split
    · exact (aside_onDeactivate hc).kept _ _ _ h
    · exact h
  · split
    · rename_i found hfound
      split
      · exact h.remove hc (mem_lowerBound hfound).1
      · split
        · exact (aside_onDeactivate hc).kept _ _ _ h
        · exact h
    · exact h

theorem find_makeRoom (hkind : movement.kind ≠ .immediate) :
    (s.makeRoom movement c).generators.find movement.order = none := by
  rw [makeRoom]
  split
  · rename_i hitems
    have hnone : s.generators.find movement.order = none := by
      rw [find, hitems, find?_nil]
    split <;> exact hnone
  · split
    · rename_i found hfound
      split
      · rename_i hreplaces
        rw [generators_remove, hreplaces.2, find_erase, if_pos rfl]
      rename_i hother
      have hnone : s.generators.find movement.order = none := by
        apply find_eq_none_of_lowerBound
        intro other hother' hsame
        rw [hfound, Option.some.injEq] at hother'
        exact hother ⟨hkind, hother' ▸ hsame⟩
      split <;> exact hnone
    · rename_i hnone
      apply find_eq_none_of_lowerBound
      intro other hother
      rw [hnone] at hother
      cases hother

theorem Kept.emplace (h : Kept clean [] leaving (movement :: hand) s)
    (hnew : s.generators.find movement.order = none) :
    Kept clean [] leaving hand
      ({ s with generators := (s.generators.emplace movement).1 }.addBaseUnitState movement) := by
  have hperm := perm_emplace (a := movement) hnew
  have howned : ∀ g, g ≠ getIdleMovementGenerator →
      ({ s with generators := (s.generators.emplace movement).1 } : MotionMaster).owned.count g +
        hand.count g = s.owned.count g + (movement :: hand).count g := by
    intro g _
    simp only [owned, count_append, count_cons, hperm.count_eq]
    omega
  rw [addBaseUnitState]
  split
  · rename_i hnone
    refine h.move ?_ h.bits howned rfl rfl rfl rfl rfl
    refine h.states.trans (List.Perm.symm ?_)
    refine ((hperm.filter _).map _).trans ?_
    rw [filter_cons_of_neg (by simp [hnone])]
    exact List.Perm.refl _
  · rename_i hsome
    refine h.move ?_ (fun hclean p hp => ?_) howned rfl rfl rfl rfl rfl
    · refine List.Perm.trans ?_ ((hperm.filter _).map _).symm
      rw [filter_cons_of_pos (by simpa using hsome), map_cons]
      exact h.states.cons _
    · rcases mem_cons.mp hp with rfl | hp
      · exact isIn_or_self
      · exact (h.bits hclean p hp).or_left

theorem direct_directAdd (hc : clean → c.RespectsStates) (slot : MovementSlot) :
    Direct clean [movement] s (s.directAdd movement c slot) := by
  cases slot with
  | active =>
    apply direct_of_frame frame_directAdd_active
    intro hand h
    have hroom : Kept clean [] [] (movement :: hand) (s.makeRoom movement c) := h.makeRoom hc
    rw [directAdd]
    split
    · exact (hroom.onFinalize hc).deleteLeaving
    · rename_i hkind
      exact hroom.emplace (find_makeRoom hkind)
  | default =>
    have hstatic : ∀ s' : MotionMaster, Direct clean [movement] s s' → Direct clean [movement] s
        (if isStatic movement then { s' with staticInitializationPending := true } else s') := by
      intro s' h
      split
      · refine ⟨h.updating, h.initializationPending, h.initializing, h.delayedActions,
          h.defaultGenerator, fun hand hkept => ?_⟩
        have hkept' := h.kept hand hkept
        exact ⟨hkept'.states, hkept'.bits, hkept'.balance, hkept'.finalized, hkept'.ids,
          hkept'.handed, hkept'.flags, hkept'.assertFailed⟩
      · exact h
    apply hstatic
    cases hbefore : s.defaultGenerator with
    | none =>
      refine ⟨rfl, rfl, rfl, rfl, fun _ => rfl, fun hand h => ?_⟩
      refine h.move h.states h.bits (fun g _ => ?_) rfl rfl rfl rfl rfl
      simp only [owned, hbefore, toList_some, toList_none, count_append, count_cons, count_nil]
      omega
    | some before =>
      have hframe : ∀ s : MotionMaster,
          (s.movementGeneratorPointerDeleter before).frame = s.frame := fun _ => frame_pointerDeleter
      have hsame := hframe { s.onFinalize before c s.generators.items.isEmpty false with
        defaultGenerator := some movement }
      simp only [frame, Prod.mk.injEq] at hsame
      obtain ⟨hupdating, hpending, hinitializing, hactions, hdefault⟩ := hsame
      refine ⟨hupdating, hpending, hinitializing, hactions, fun _ => ?_, fun hand h => ?_⟩
      · exact isSome_iff_exists.mpr ⟨_, hdefault⟩
      · exact Kept.replaceDefault _ hc hbefore h

end Slots

end MotionMaster

end LegionServer.Source.Movement
