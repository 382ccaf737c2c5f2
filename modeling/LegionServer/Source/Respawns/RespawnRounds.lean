import LegionServer.Source.Respawns.RespawnCalls

/-!
# The rounds of `ProcessRespawns`

A round takes the top out of the stores before it runs outside logic, so that
this logic finds the stores together; and every round leaves one due entry less.
-/
namespace LegionServer.Source.Respawns
open Library List

namespace RespawnStores

variable {H : Type} {q : PriorityQueue Pointer RespawnKey H} {c : MapContext}
  {orders : q.Orders} {s s' s₂ : RespawnStores H} {p : Pointer} {e : RespawnInfo} {now : Int}
  {w : Surroundings} {calls : List RespawnCall}

theorem Agrees.getRespawnTime (h : Agrees q c [] s) (type : SpawnObjectType) (spawnId : UInt64) :
    ∃ t, s.getRespawnTime type spawnId = .ok t := by
  unfold RespawnStores.getRespawnTime
  cases hget : s.getRespawnInfo type spawnId with
  | none => exact ⟨0, rfl⟩
  | some p =>
    refine ⟨(s.info p).respawnTime, ?_⟩
    simp only [h.read (.inl (h.stored hget).1)]
    rfl

theorem Agrees.getLinkedRespawnTime (h : Agrees q c [] s) (guid : Objects.ObjectGuid) :
    ∃ t, s.getLinkedRespawnTime c guid = .ok t := by
  unfold RespawnStores.getLinkedRespawnTime
  dsimp only
  split
  · exact h.getRespawnTime ..
  · exact h.getRespawnTime ..
  · exact ⟨0, rfl⟩

theorem Agrees.checkRespawn (h : Agrees q c [] s) (hp : p ∈ s.elements q) (hnow : now < MAX_TIME) :
    ∃ allowed t, s.checkRespawn c w now (s.info p) = .ok (allowed, t) ∧
      (allowed = true → t = (s.info p).respawnTime) ∧ (allowed = false → t = 0 ∨ now < t) := by
  obtain ⟨data, hdata⟩ := Option.isSome_iff_exists.mp (h.data p hp)
  obtain ⟨linked, hlinked⟩ := h.getLinkedRespawnTime (spawnGuid c (s.info p))
  have hexists : ∃ there, alreadyExists w data (s.info p) = .ok there := by
    unfold alreadyExists
    cases htype : (s.info p).type with
    | creature => exact ⟨_, rfl⟩
    | gameObject => exact ⟨_, rfl⟩
    | areaTrigger => exact absurd htype (h.type_ne hp)
  obtain ⟨there, hthere⟩ := hexists
  unfold RespawnStores.checkRespawn
  simp only [hdata, hthere, hlinked, bind, Except.bind]
  by_cases hactive : w.isSpawnGroupActive data.groupId = false
  · exact ⟨false, 0, by rw [if_pos hactive]; rfl, nofun, fun _ => .inl rfl⟩
  by_cases hgone : there = true
  · exact ⟨false, 0, by rw [if_neg hactive, if_pos hgone]; rfl, nofun, fun _ => .inl rfl⟩
  by_cases hzero : linked = 0
  · refine ⟨true, (s.info p).respawnTime, ?_, fun _ => rfl, nofun⟩
    rw [if_neg hactive, if_neg hgone, if_neg (not_not.mpr hzero)]
    rfl
  · refine ⟨false, _, by rw [if_neg hactive, if_neg hgone, if_pos hzero]; rfl, nofun, fun _ => ?_⟩
    right
    have hdelay := w.delay.property
    split
    · omega
    · split
      · unfold WEEK
        omega
      · omega

theorem Agrees.takeOut_eq (h : Agrees q c [] s) (htop : q.top s.respawnTimes = some p)
    (hp : p ∈ s.elements q) : s.takeOut q p = .ok (s.detached q p) := by
  have hlive : s.live p = true := (h.live p).mpr (.inl hp)
  have hpop : s.heapPop q = .ok (s.setHeap (q.erase s.keys s.respawnTimes p)) := by
    unfold heapPop heapErase
    rw [htop]
    simp only [h.compares]
    rfl
  have hread : (s.setHeap (q.erase s.keys s.respawnTimes p)).read p = .ok (s.info p) := if_pos hlive
  unfold takeOut
  simp only [hpop, bind, Except.bind, hread]
  cases htype : (s.info p).type with
  | areaTrigger => exact absurd htype (h.type_ne hp)
  | creature =>
    unfold RespawnStores.detached
    rw [htype]
    rfl
  | gameObject =>
    unfold RespawnStores.detached
    rw [htype]
    rfl

section Steps

variable (hq : q.Contents) (hforgets : orders.Forgets)

include hq hforgets

theorem Agrees.handOver (h : Agrees q c [] s) (htop : q.top s.respawnTimes = some p)
    (hsorted : Sorted orders (s.detached q p)) (hknown : ∀ call ∈ w.calls, call.Known c)
    (pooled : Bool) :
    ∃ s₂, s.handOver q c w pooled p = .ok s₂ ∧
      Performed orders c [p] w.calls (s.detached q p) s₂ := by
  have hp : p ∈ s.elements q := hq.top_mem _ _ htop
  have hok : Ok orders c [p] (s.detached q p) := ⟨h.detached hq hp, hsorted⟩
  have hread := hok.agrees.read (.inr (mem_singleton_self p))
  obtain ⟨s₂, hs₂, hperformed⟩ := hok.performAll hq hforgets hknown
  unfold RespawnStores.handOver
  simp only [h.takeOut_eq htop hp, bind, Except.bind, hread]
  cases pooled with
  | true => exact ⟨s₂, hs₂, hperformed⟩
  | false =>
    unfold doRespawn
    by_cases hgrid : w.isGridLoaded ((s.detached q p).info p).gridId = false
    · simp only [Bool.false_eq_true, ↓reduceIte, hgrid]
      exact ⟨_, rfl, .refl hok⟩
    simp only [Bool.false_eq_true, ↓reduceIte, hgrid]
    rw [detached_info]
    cases htype : (s.info p).type with
    | areaTrigger => exact absurd htype (h.type_ne hp)
    | creature => exact ⟨s₂, hs₂, hperformed⟩
    | gameObject => exact ⟨s₂, hs₂, hperformed⟩

theorem Ok.getRidOf (h : Ok orders c [p] s) (now : Int) :
    ∃ s', s.getRidOf q c p = .ok s' ∧ Ok orders c [] s' ∧ s'.due q now ⊆ s.due q now ∧
      ∀ e, s.entry e.type e.spawnId = some e →
        (e.type ≠ (s.info p).type ∨ e.spawnId ≠ (s.info p).spawnId) →
        s'.entry e.type e.spawnId = some e := by
  obtain ⟨t, ht, hperformed, _⟩ :=
    h.removeRespawnTime hq hforgets (s.info p).type (s.info p).spawnId true
  have hlive : t.live p = true :=
    (hperformed.ok.agrees.live p).mpr (.inr (mem_singleton_self p))
  refine ⟨t.freed p, ?_, ⟨hperformed.ok.agrees.freed not_mem_nil, hperformed.ok.sorted.freed⟩,
    hperformed.due fun call hmem => ?_, fun e he hother => ?_⟩
  · unfold RespawnStores.getRidOf
    rw [h.agrees.read (.inr (mem_singleton_self p))]
    simp only [bind, Except.bind, ht]
    exact free_eq hlive
  · cases List.mem_singleton.mp hmem
    trivial
  · refine hperformed.kept e he fun call hmem hdisplaces => ?_
    cases List.mem_singleton.mp hmem
    rcases hother with htype | hid
    · exact htype hdisplaces.1
    · exact hid hdisplaces.2

end Steps

/-- The round spawns the object or updates the pool, and these are the stores after that. -/
def SpawnsInto (q : PriorityQueue Pointer RespawnKey H) (c : MapContext) (now : Int)
    (w : Surroundings) (s : RespawnStores H) (p : Pointer) (s₂ : RespawnStores H) : Prop :=
  if w.isPartOfAPool (s.info p).type (s.info p).spawnId ≠ 0 then s.handOver q c w true p = .ok s₂
  else ∃ t, s.checkRespawn c w now (s.info p) = .ok (true, t) ∧
    (s.setTime p t).handOver q c w false p = .ok s₂

theorem dueTop_eq_some (h : dueTop q now s = some p) (hagrees : Agrees q c [] s)
    (hq : q.Contents) : q.top s.respawnTimes = some p ∧ p ∈ s.elements q ∧
      (s.info p).respawnTime ≤ now := by
  obtain ⟨htop, hdue⟩ := Option.filter_eq_some_iff.mp h
  have hp := hq.top_mem _ _ htop
  have hlive : s.live p = true := (hagrees.live p).mpr (.inl hp)
  refine ⟨htop, hp, ?_⟩
  simpa [hlive] using hdue

/-- What a round of `ProcessRespawns` does. -/
structure Rounded (orders : q.Orders) (c : MapContext) (now : Int) (w : Surroundings)
    (s : RespawnStores H) (p : Pointer) (s' : RespawnStores H) : Prop where
  ok : Ok orders c [] s'
  due : (∀ call ∈ w.calls, call.Future now) → s'.due q now ⊂ s.due q now
  kept : ∀ e, s.entry e.type e.spawnId = some e → now < e.respawnTime →
    (∀ call ∈ w.calls, ¬ call.Displaces e) → s'.entry e.type e.spawnId = some e
  spawned : ∀ s₂, SpawnsInto q c now w s p s₂ → Ok orders c [p] s₂ ∧
    ∀ e, s₂.entry e.type e.spawnId = some e →
      (e.type ≠ (s.info p).type ∨ e.spawnId ≠ (s.info p).spawnId) →
      s'.entry e.type e.spawnId = some e

theorem info_setTime_of_ne {x : Pointer} (hx : x ≠ p) (t : Int) :
    (s.setTime p t).info x = s.info x := Function.update_of_ne hx ..

theorem due_setTime_erase (t : Int) :
    ((s.setTime p t).due q now).erase p = (s.due q now).erase p := by
  ext x
  rw [Finset.mem_erase, Finset.mem_erase, mem_due, mem_due]
  refine and_congr_right fun hx => ?_
  rw [info_setTime_of_ne hx]
  rfl

/-- An entry of the future is not the one that is due. -/
theorem Agrees.other_of_future (h : Agrees q c [] s) (hp : p ∈ s.elements q)
    (hdue : (s.info p).respawnTime ≤ now) (he : s.entry e.type e.spawnId = some e)
    (hfuture : now < e.respawnTime) :
    ¬ (e.type = (s.info p).type ∧ e.spawnId = (s.info p).spawnId) := by
  rintro ⟨htype, hid⟩
  rw [htype, hid, h.entry_of_mem hp] at he
  cases he
  omega

theorem Agrees.entry_setTime (h : Agrees q c [] s) (hp : p ∈ s.elements q) (t : Int)
    (he : s.entry e.type e.spawnId = some e)
    (hother : ¬ (e.type = (s.info p).type ∧ e.spawnId = (s.info p).spawnId)) :
    (s.setTime p t).entry e.type e.spawnId = some e := by
  obtain ⟨x, hx, hget, hinfo, -, -⟩ := h.entry_eq_some he
  have hne : x ≠ p := by
    rintro rfl
    exact hother ⟨hinfo ▸ rfl, hinfo ▸ rfl⟩
  have hget' : (s.setTime p t).getRespawnInfo e.type e.spawnId = some x := hget
  rw [entry, hget', Option.map_some, info_setTime_of_ne hne, hinfo]

section Round

variable (hq : q.Contents) (hforgets : orders.Forgets) (h : Ok orders c [] s)

include hq hforgets h

theorem Ok.finish (hp : p ∈ s.elements q) (hdue : (s.info p).respawnTime ≤ now) (t : Int)
    (hperformed : Performed orders c [p] calls ((s.setTime p t).detached q p) s₂) :
    ∃ s', s₂.getRidOf q c p = .ok s' ∧ Ok orders c [] s' ∧
      ((∀ call ∈ calls, call.Future now) → s'.due q now ⊂ s.due q now) ∧
      (∀ e, s.entry e.type e.spawnId = some e → now < e.respawnTime →
        (∀ call ∈ calls, ¬ call.Displaces e) → s'.entry e.type e.spawnId = some e) ∧
      ∀ e, s₂.entry e.type e.spawnId = some e →
        (e.type ≠ (s.info p).type ∨ e.spawnId ≠ (s.info p).spawnId) →
        s'.entry e.type e.spawnId = some e := by
  have hset : Agrees q c [] (s.setTime p t) := h.agrees.setTime t
  have hinfo : s₂.info p = (s.setTime p t).info p :=
    (hperformed.info p (mem_singleton_self p)).trans (congrFun detached_info p)
  obtain ⟨s', hs', hok, hsub, hkept⟩ := hperformed.ok.getRidOf hq hforgets now
  rw [hinfo, setTime_type, setTime_spawnId] at hkept
  refine ⟨s', hs', hok, fun hcalls => ?_, fun e he hfuture hcalls => ?_, hkept⟩
  · have herase : s'.due q now ⊆ (s.due q now).erase p := by
      rw [← due_setTime_erase t, ← due_detached hq hset]
      exact hsub.trans (hperformed.due hcalls)
    exact herase.trans_ssubset (Finset.erase_ssubset (mem_due.mpr ⟨hp, hdue⟩))
  · have hother := h.agrees.other_of_future hp hdue he hfuture
    have hdetached : ((s.setTime p t).detached q p).entry e.type e.spawnId = some e := by
      rw [entry_detached hset hp, setTime_type, setTime_spawnId, if_neg hother]
      exact h.agrees.entry_setTime hp t he hother
    exact hkept e (hperformed.kept e hdetached hcalls) (not_and_or.mp hother)

theorem Ok.spawn (hdue : dueTop q now s = some p) (hknown : ∀ call ∈ w.calls, call.Known c)
    (pooled : Bool) (hinto : ∀ t, SpawnsInto q c now w s p t ↔ s.handOver q c w pooled p = .ok t) :
    ∃ s', (s.handOver q c w pooled p >>= fun t => t.getRidOf q c p) = .ok s' ∧
      Rounded orders c now w s p s' := by
  obtain ⟨htop, hp, htime⟩ := dueTop_eq_some hdue h.agrees hq
  have hsorted := h.sorted.detached (p := p) hq hforgets h.agrees (s.info p).respawnTime
  rw [setTime_self] at hsorted
  obtain ⟨t, ht, hperformed⟩ := h.agrees.handOver hq hforgets htop hsorted hknown pooled
  have hself := hperformed
  rw [← setTime_self (s := s) (p := p)] at hself
  obtain ⟨s', hs', hok, hless, hkept, hothers⟩ := h.finish hq hforgets hp htime _ hself
  refine ⟨s', by simp only [ht, bind, Except.bind, hs'], hok, hless, hkept, fun t' ht' => ?_⟩
  rw [hinto, ht] at ht'
  cases ht'
  exact ⟨hperformed.ok, hothers⟩

theorem Ok.round (hdue : dueTop q now s = some p) (hnow : now < MAX_TIME)
    (hknown : ∀ call ∈ w.calls, call.Known c) :
    ∃ s', s.round q c now w p = .ok s' ∧ Rounded orders c now w s p s' := by
  obtain ⟨htop, hp, htime⟩ := dueTop_eq_some hdue h.agrees hq
  unfold RespawnStores.round
  simp only [h.agrees.read (.inl hp), bind, Except.bind]
  by_cases hpool : w.isPartOfAPool (s.info p).type (s.info p).spawnId ≠ 0
  · rw [if_pos hpool]
    exact h.spawn hq hforgets hdue hknown true fun t => by rw [SpawnsInto, if_pos hpool]
  rw [if_neg hpool]
  obtain ⟨allowed, t, hcheck, hyes, hno⟩ := h.agrees.checkRespawn (w := w) hp hnow
  have hset : Agrees q c [] (s.setTime p t) := h.agrees.setTime t
  simp only [hcheck]
  cases allowed with
  | true =>
    have hself : s.setTime p t = s := by
      rw [hyes rfl]
      exact setTime_self
    rw [hself]
    refine h.spawn hq hforgets hdue hknown false fun t' => ?_
    rw [SpawnsInto, if_neg hpool, hcheck]
    constructor
    · rintro ⟨_, heq, hto⟩
      cases heq
      rwa [hself] at hto
    · exact fun hto => ⟨t, rfl, by rwa [hself]⟩
  | false =>
    have hinto : ∀ s₂, ¬ SpawnsInto q c now w s p s₂ := by
      intro s₂ hto
      rw [SpawnsInto, if_neg hpool, hcheck] at hto
      obtain ⟨_, heq, _⟩ := hto
      cases heq
    simp only [Bool.false_eq_true, ↓reduceIte]
    by_cases hzero : t = 0
    · rw [if_pos hzero]
      have hok : Ok orders c [p] ((s.setTime p t).detached q p) :=
        ⟨hset.detached hq hp, h.sorted.detached hq hforgets h.agrees t⟩
      have hrefl : Performed orders c [p] w.calls ((s.setTime p t).detached q p) _ := .refl hok
      obtain ⟨s', hs', hok', hless, hkept, hothers⟩ :=
        h.finish hq hforgets hp htime t hrefl
      refine ⟨s', ?_, hok', hless, hkept, fun s₂ hto => absurd hto (hinto s₂)⟩
      simp only [hset.takeOut_eq htop hp, hs']
    · have hlater : now < t := (hno rfl).resolve_left hzero
      have hagrees : Agrees q c [] ((s.setTime p t).retimed q false p) := hset.retimed hq false
      have hsorted := h.sorted.retimed hq hp false (t := t)
        (by simp only [Bool.false_eq_true, ↓reduceIte]; omega)
      have hmem : p ∈ ((s.setTime p t).retimed q false p).elements q :=
        (mem_elements_retimed hq false).mpr hp
      rw [if_neg hzero]
      simp only [hlater, not_true, ↓reduceIte, hset.heapNotify_eq, hagrees.read (.inl hmem)]
      refine ⟨_, rfl, ⟨hagrees.saveRow _, hsorted.saveRow _⟩, fun _ => ?_, fun e he hfuture _ => ?_,
        fun s₂ hto => absurd hto (hinto s₂)⟩
      · have herase : ((s.setTime p t).due q now).erase p = (s.due q now).erase p :=
          due_setTime_erase t
        refine lt_of_le_of_lt (fun x hx => ?_) (Finset.erase_ssubset (mem_due.mpr ⟨hp, htime⟩))
        rw [mem_due, saveRespawnInfoDB, saveRow_elements, saveRow_info,
          mem_elements_retimed hq] at hx
        rw [← herase, Finset.mem_erase, mem_due]
        refine ⟨?_, hx⟩
        rintro rfl
        have htime' : ((s.setTime x t).info x).respawnTime = t := by
          simp only [setTime, Function.update_self]
        have hle : ((s.setTime x t).info x).respawnTime ≤ now := hx.2
        omega
      · have hother := h.agrees.other_of_future hp htime he hfuture
        rw [saveRespawnInfoDB, entry, saveRow_getRespawnInfo, saveRow_info]
        exact h.agrees.entry_setTime hp t he hother

end Round

end RespawnStores

end LegionServer.Source.Respawns
