import LegionServer.Source.Respawns.RespawnEffects

/-!
# Calls to the respawn stores

Every call keeps the stores together and the heap rightly told; entries of other
spawns stay, and what outside logic adds for later is not due.
-/
namespace LegionServer.Source.Respawns
open Library List Function

def RespawnCall.Displaces (e : RespawnInfo) : RespawnCall → Prop
  | .addRespawnInfo info =>
    e.type = info.type ∧ e.spawnId = info.spawnId ∧ info.respawnTime < e.respawnTime
  | .saveRespawnTime type spawnId _ respawnTime _ _ =>
    e.type = type ∧ e.spawnId = spawnId ∧ (respawnTime = 0 ∨ respawnTime < e.respawnTime)
  | .removeRespawnTime type spawnId _ => e.type = type ∧ e.spawnId = spawnId

def RespawnCall.Future (now : Int) : RespawnCall → Prop
  | .addRespawnInfo info => now < info.respawnTime
  | .saveRespawnTime _ _ _ respawnTime _ _ => respawnTime = 0 ∨ now < respawnTime
  | .removeRespawnTime .. => True

/-- `SaveRespawnTime`, through which all entries come, looks for the spawn first. -/
def RespawnCall.Known (c : MapContext) : RespawnCall → Prop
  | .addRespawnInfo info => (c.getSpawnData info.type info.spawnId).isSome
  | _ => True

namespace RespawnStores

variable {H : Type} {q : PriorityQueue Pointer RespawnKey H} {c : MapContext}
  {orders : q.Orders} {held : List Pointer} {s s' s'' : RespawnStores H} {p : Pointer}
  {type : SpawnObjectType} {spawnId : UInt64} {info e : RespawnInfo} {now : Int}
  {calls : List RespawnCall}

structure Ok (orders : q.Orders) (c : MapContext) (held : List Pointer) (s : RespawnStores H) :
    Prop where
  agrees : Agrees q c held s
  sorted : Sorted orders s

def due (q : PriorityQueue Pointer RespawnKey H) (now : Int) (s : RespawnStores H) :
    Finset Pointer :=
  (s.elements q).toFinset.filter fun p => (s.info p).respawnTime ≤ now

theorem mem_due : p ∈ s.due q now ↔ p ∈ s.elements q ∧ (s.info p).respawnTime ≤ now := by
  simp [due]

section
variable (h : Agrees q c held s)
include h

theorem Agrees.entry_eq_some (he : s.entry type spawnId = some e) :
    ∃ p ∈ s.elements q, s.getRespawnInfo type spawnId = some p ∧ s.info p = e ∧ e.type = type ∧
      e.spawnId = spawnId := by
  obtain ⟨p, hp, rfl⟩ := Option.map_eq_some_iff.mp he
  obtain ⟨hmem, htype, hid⟩ := h.stored hp
  exact ⟨p, hmem, hp, rfl, htype, hid⟩

theorem Agrees.entry_of_mem (hp : p ∈ s.elements q) :
    s.entry (s.info p).type (s.info p).spawnId = some (s.info p) := by
  rw [entry, h.found p hp]
  rfl

theorem entry_removed (hp : p ∈ s.elements q) (type : SpawnObjectType) (spawnId : UInt64) :
    (s.removed q c p).entry type spawnId =
      if type = (s.info p).type ∧ spawnId = (s.info p).spawnId then none
      else s.entry type spawnId := by
  unfold entry
  rw [getRespawnInfo_removed h hp, removed_info]
  split <;> rfl

theorem entry_detached (hp : p ∈ s.elements q) (type : SpawnObjectType) (spawnId : UInt64) :
    (s.detached q p).entry type spawnId =
      if type = (s.info p).type ∧ spawnId = (s.info p).spawnId then none
      else s.entry type spawnId := by
  unfold entry
  rw [getRespawnInfo_detached h hp, detached_info]
  split <;> rfl

theorem entry_inserted (htype : info.type ≠ .areaTrigger) (type : SpawnObjectType)
    (spawnId : UInt64) : (s.inserted q info).entry type spawnId =
      if type = info.type ∧ spawnId = info.spawnId then some info
      else s.entry type spawnId := by
  unfold entry
  rw [getRespawnInfo_inserted htype]
  split
  · simp [inserted_info]
  cases hget : s.getRespawnInfo type spawnId with
  | none => rfl
  | some p =>
    have hne := h.ne_next (h.stored hget).1
    simp [inserted_info, hne]

end

section
variable (hq : q.Contents) (h : Agrees q c held s)
include hq h

theorem due_removed : (s.removed q c p).due q now = (s.due q now).erase p := by
  ext x
  rw [Finset.mem_erase, mem_due, mem_due, mem_elements_removed hq h, removed_info, and_assoc]

theorem due_detached : (s.detached q p).due q now = (s.due q now).erase p := by
  ext x
  rw [Finset.mem_erase, mem_due, mem_due, mem_elements_detached hq h, detached_info, and_assoc]

theorem due_inserted (hfuture : now < info.respawnTime) :
    (s.inserted q info).due q now = s.due q now := by
  ext x
  rw [mem_due, mem_due, mem_elements_inserted hq, inserted_info]
  by_cases hx : x = s.next
  · subst hx
    simp [h.next_not_mem, hfuture]
  · simp [hx]

end

structure Performed (orders : q.Orders) (c : MapContext) (held : List Pointer)
    (calls : List RespawnCall) (s s' : RespawnStores H) : Prop where
  ok : Ok orders c held s'
  info : ∀ p ∈ held, s'.info p = s.info p
  kept : ∀ e, s.entry e.type e.spawnId = some e → (∀ call ∈ calls, ¬ call.Displaces e) →
    s'.entry e.type e.spawnId = some e
  due : ∀ {now}, (∀ call ∈ calls, call.Future now) → s'.due q now ⊆ s.due q now

theorem Performed.refl (h : Ok orders c held s) : Performed orders c held calls s s :=
  ⟨h, fun _ _ => rfl, fun _ he _ => he, fun _ => Finset.Subset.refl _⟩

theorem Performed.trans {calls' : List RespawnCall} (h : Performed orders c held calls s s')
    (h' : Performed orders c held calls' s' s'') :
    Performed orders c held (calls ++ calls') s s'' := by
  refine ⟨h'.ok, fun p hp => (h'.info p hp).trans (h.info p hp), ?_, ?_⟩
  · intro e he hcalls
    have hkept := h.kept e he fun call hcall => hcalls call (mem_append_left _ hcall)
    exact h'.kept e hkept fun call hcall => hcalls call (mem_append_right _ hcall)
  · intro now hcalls
    have hdue := h'.due fun call hcall => hcalls call (mem_append_right _ hcall)
    exact hdue.trans (h.due fun call hcall => hcalls call (mem_append_left _ hcall))

theorem Performed.saveRow (h : Performed orders c held calls s s') (time : Option Int) :
    Performed orders c held calls s (s'.saveRow c type spawnId time) := by
  refine ⟨⟨h.ok.agrees.saveRow time, h.ok.sorted.saveRow time⟩, ?_, ?_, ?_⟩
  · intro p hp
    rw [saveRow_info]
    exact h.info p hp
  · intro e he hcall
    rw [entry, saveRow_getRespawnInfo, saveRow_info]
    exact h.kept e he hcall
  · intro now hfuture x hx
    rw [mem_due, saveRow_elements, saveRow_info, ← mem_due] at hx
    exact h.due hfuture hx

section Calls

variable (hq : q.Contents) (hforgets : orders.Forgets) (h : Ok orders c held s)

include hq hforgets h

theorem Ok.removed (hp : p ∈ s.elements q) : Ok orders c held (s.removed q c p) :=
  ⟨h.agrees.removed hq hp, h.sorted.removed hq hforgets h.agrees⟩

theorem Ok.deleteRespawnInfo (hp : p ∈ s.elements q) (always : Bool) :
    ∃ s', s.deleteRespawnInfo q c p = .ok s' ∧
      Performed orders c held [.removeRespawnTime (s.info p).type (s.info p).spawnId always] s s' := by
  refine ⟨_, h.agrees.deleteRespawnInfo_eq hp, h.removed hq hforgets hp, ?_, ?_, ?_⟩
  · exact fun _ _ => congrFun removed_info _
  · intro e he hcall
    rw [entry_removed h.agrees hp]
    exact (if_neg (hcall _ (mem_singleton_self _))).trans he
  · intro now _
    rw [due_removed hq h.agrees]
    exact Finset.erase_subset _ _

theorem Ok.removeRespawnTime (type : SpawnObjectType) (spawnId : UInt64) (always : Bool) :
    ∃ s', s.removeRespawnTime q c type spawnId always = .ok s' ∧
      Performed orders c held [.removeRespawnTime type spawnId always] s s' ∧
      s'.entry type spawnId = none := by
  have hrow : ∀ {t : RespawnStores H},
      Performed orders c held [.removeRespawnTime type spawnId always] s t →
      t.entry type spawnId = none →
      Performed orders c held [.removeRespawnTime type spawnId always] s
        (if always then t.deleteRespawnInfoFromDB c type spawnId else t) ∧
      (if always then t.deleteRespawnInfoFromDB c type spawnId else t).entry type spawnId =
        none := by
    intro t ht hnone
    split
    · refine ⟨ht.saveRow none, ?_⟩
      rw [deleteRespawnInfoFromDB, entry, saveRow_getRespawnInfo, saveRow_info]
      exact hnone
    · exact ⟨ht, hnone⟩
  unfold RespawnStores.removeRespawnTime
  cases hget : s.getRespawnInfo type spawnId with
  | none =>
    refine ⟨_, rfl, hrow (.refl h) ?_⟩
    rw [entry, hget]
    rfl
  | some p =>
    obtain ⟨hp, rfl, rfl⟩ := h.agrees.stored hget
    obtain ⟨t, ht, hperformed⟩ := h.deleteRespawnInfo hq hforgets hp always
    rw [h.agrees.deleteRespawnInfo_eq hp] at ht
    cases ht
    simp only [h.agrees.deleteRespawnInfo_eq hp]
    refine ⟨_, rfl, hrow hperformed ?_⟩
    rw [entry_removed h.agrees hp, if_pos ⟨rfl, rfl⟩]

omit hforgets in
/-- An entry for a spawn that has none. -/
theorem Ok.inserted (hfree : s.getRespawnInfo info.type info.spawnId = none)
    (htype : info.type ≠ .areaTrigger) (hdata : (c.getSpawnData info.type info.spawnId).isSome) :
    Performed orders c held [.addRespawnInfo info] s (s.inserted q info) := by
  refine ⟨⟨h.agrees.inserted hfree htype hq hdata, h.sorted.inserted h.agrees hq⟩, ?_, ?_, ?_⟩
  · intro x hx
    rw [inserted_info, if_neg]
    rintro rfl
    exact Nat.lt_irrefl _ (h.agrees.fresh _ ((h.agrees.live _).mpr (.inr hx)))
  · intro e he _
    rw [entry_inserted h.agrees htype, if_neg]
    · exact he
    · rintro ⟨hetype, heid⟩
      rw [hetype, heid, entry, hfree] at he
      cases he
  · intro now hfuture
    rw [due_inserted hq h.agrees (hfuture _ (mem_singleton_self _))]

theorem Ok.addRespawnInfo (info : RespawnInfo)
    (hdata : (c.getSpawnData info.type info.spawnId).isSome) :
    ∃ r, s.addRespawnInfo q c info = .ok r ∧
      Performed orders c held [.addRespawnInfo info] s r.1 := by
  unfold RespawnStores.addRespawnInfo
  by_cases hid : info.spawnId = 0
  · exact ⟨(s, false), by rw [if_pos hid]; rfl, .refl h⟩
  by_cases htype : info.type = .areaTrigger
  · exact ⟨(s, false), by rw [if_neg hid, htype]; rfl, .refl h⟩
  obtain ⟨map, hmap, hget⟩ := getRespawnMapForType_isSome (s := s) htype
  have hhas : typeHasData info.type = true := by
    cases info.type <;> rfl
  rw [if_neg hid, hmap]
  simp only [Option.isNone_some, Bool.false_eq_true, Bool.true_eq_false, ↓reduceIte, hhas]
  cases hold : s.getRespawnInfo info.type info.spawnId with
  | none =>
    refine ⟨(s.inserted q info, true), ?_, h.inserted hq hold htype hdata⟩
    simp only [h.agrees.insertRespawnInfo_eq hold]
    rfl
  | some existing =>
    obtain ⟨hmem, hsame⟩ := h.agrees.stored hold
    by_cases hlater : info.respawnTime < (s.info existing).respawnTime
    · have hremoved := h.removed hq hforgets hmem
      have hfree : (s.removed q c existing).getRespawnInfo info.type info.spawnId = none := by
        rw [getRespawnInfo_removed h.agrees hmem, if_pos ⟨hsame.1.symm, hsame.2.symm⟩]
      have hinserted := hremoved.inserted hq hfree htype hdata
      refine ⟨((s.removed q c existing).inserted q info, true), ?_, hinserted.ok, ?_, ?_, ?_⟩
      · have hinsert := hremoved.agrees.insertRespawnInfo_eq hfree
        simp only [h.agrees.read (.inl hmem), h.agrees.deleteRespawnInfo_eq hmem, bind, Except.bind,
          hlater, hfree, hinsert, ↓reduceIte, Option.isSome_none, Bool.false_eq_true]
        rfl
      · intro x hx
        rw [hinserted.info x hx, removed_info]
      · intro e he hcall
        refine hinserted.kept e ?_ hcall
        rw [entry_removed h.agrees hmem, if_neg]
        · exact he
        · rintro ⟨hetype, heid⟩
          rw [hetype, heid, h.agrees.entry_of_mem hmem] at he
          cases he
          exact hcall _ (mem_singleton_self _) ⟨hsame.1, hsame.2, hlater⟩
      · intro now hfuture
        refine (hinserted.due hfuture).trans ?_
        rw [due_removed hq h.agrees]
        exact Finset.erase_subset _ _
    · refine ⟨(s, false), ?_, .refl h⟩
      simp only [h.agrees.read (.inl hmem), bind, Except.bind, hlater, ↓reduceIte]
      rfl

theorem Ok.saveRespawnTime (entry : UInt32) (respawnTime : Int) (gridId : UInt32) (startup : Bool) :
    ∃ s', s.saveRespawnTime q c type spawnId entry respawnTime gridId startup = .ok s' ∧
      Performed orders c held
        [.saveRespawnTime type spawnId entry respawnTime gridId startup] s s' := by
  unfold RespawnStores.saveRespawnTime
  cases hdata : c.getSpawnData type spawnId with
  | none => exact ⟨s, rfl, .refl h⟩
  | some data =>
    obtain ⟨rfl, rfl⟩ := c.spawnData_key hdata
    by_cases htime : respawnTime = 0
    · obtain ⟨t, ht, hperformed, _⟩ :=
        h.removeRespawnTime hq hforgets data.type data.spawnId false
      refine ⟨t, by simp only [htime, ↓reduceIte, ht], hperformed.ok, hperformed.info, ?_, ?_⟩
      · intro e he hcall
        refine hperformed.kept e he fun call hmem hdisplaces => ?_
        cases mem_singleton.mp hmem
        exact hcall _ (mem_singleton_self _) ⟨hdisplaces.1, hdisplaces.2, .inl htime⟩
      · intro now _
        exact hperformed.due fun call hmem => by cases mem_singleton.mp hmem; trivial
    · obtain ⟨r, hr, hperformed⟩ := h.addRespawnInfo hq hforgets
        ⟨data.type, data.spawnId, entry, respawnTime, gridId⟩ (hdata ▸ rfl)
      have hsame : Performed orders c held
          [.saveRespawnTime data.type data.spawnId entry respawnTime gridId startup] s r.1 := by
        refine ⟨hperformed.ok, hperformed.info, ?_, ?_⟩
        · intro e he hcall
          refine hperformed.kept e he fun call hmem hdisplaces => ?_
          cases mem_singleton.mp hmem
          exact hcall _ (mem_singleton_self _) ⟨hdisplaces.1, hdisplaces.2.1, .inr hdisplaces.2.2⟩
        · intro now hfuture
          refine hperformed.due fun call hmem => ?_
          cases mem_singleton.mp hmem
          exact (hfuture _ (mem_singleton_self _)).resolve_left htime
      simp only [htime, ↓reduceIte, hr]
      refine ⟨_, rfl, ?_⟩
      split
      · exact hsame.saveRow _
      · exact hsame

theorem Ok.perform {call : RespawnCall} (hknown : call.Known c) :
    ∃ s', s.perform q c call = .ok s' ∧ Performed orders c held [call] s s' := by
  cases call with
  | addRespawnInfo info =>
    obtain ⟨r, hr, hperformed⟩ := h.addRespawnInfo hq hforgets info hknown
    exact ⟨r.1, by rw [RespawnStores.perform, hr]; rfl, hperformed⟩
  | saveRespawnTime type spawnId entry respawnTime gridId startup =>
    exact h.saveRespawnTime hq hforgets entry respawnTime gridId startup
  | removeRespawnTime type spawnId always =>
    obtain ⟨t, ht, hperformed, _⟩ := h.removeRespawnTime hq hforgets type spawnId always
    exact ⟨t, ht, hperformed⟩

theorem Ok.performAll (hknown : ∀ call ∈ calls, call.Known c) :
    ∃ s', s.performAll q c calls = .ok s' ∧ Performed orders c held calls s s' := by
  induction calls generalizing s with
  | nil => exact ⟨s, rfl, .refl h⟩
  | cons call calls ih =>
    obtain ⟨t, ht, hcall⟩ := h.perform hq hforgets (hknown call (mem_cons_self ..))
    obtain ⟨t', ht', hcalls⟩ :=
      ih hcall.ok fun call hmem => hknown call (mem_cons_of_mem _ hmem)
    refine ⟨t', ?_, hcall.trans hcalls⟩
    unfold RespawnStores.performAll at ht' ⊢
    rw [foldlM_cons, ht]
    exact ht'

end Calls

def retimed (q : PriorityQueue Pointer RespawnKey H) (s : RespawnStores H) (increased : Bool)
    (p : Pointer) : RespawnStores H :=
  { s.setHeap (if increased then q.increase s.keys s.respawnTimes p
      else q.decrease s.keys s.respawnTimes p) with
    seen := Function.update s.seen p (s.keys p)
    notifications := ⟨increased, s.seen p, s.keys p⟩ :: s.notifications }

theorem Agrees.heapNotify_eq (h : Agrees q c held s) (increased : Bool) :
    s.heapNotify q increased p = .ok (s.retimed q increased p) := by
  unfold heapNotify
  rw [h.compares]
  rfl

theorem mem_elements_retimed (hq : q.Contents) (increased : Bool) {x : Pointer} :
    x ∈ (s.retimed q increased p).elements q ↔ x ∈ s.elements q := by
  cases increased
  · exact (hq.elements_decrease _ _ _).mem_iff
  · exact (hq.elements_increase _ _ _).mem_iff

theorem Agrees.retimed (hq : q.Contents) (h : Agrees q c held s) (increased : Bool) :
    Agrees q c held (s.retimed q increased p) := by
  have hmem := fun {x : Pointer} => mem_elements_retimed (s := s) (p := p) (x := x) hq increased
  refine ⟨?_, ?_, ?_, ?_, ?_, h.fresh, ?_⟩
  · unfold elements RespawnStores.retimed setHeap
    cases increased
    · exact ((hq.elements_decrease _ _ _).nodup_iff).mpr h.nodup
    · exact ((hq.elements_increase _ _ _).nodup_iff).mpr h.nodup
  · exact fun x hx hx' => h.apart x hx (hmem.mp hx')
  · intro x
    rw [hmem]
    exact h.live x
  · exact fun x hx => h.found x (hmem.mp hx)
  · intro type spawnId x hx
    obtain ⟨hx, hspawn⟩ := h.stored hx
    exact ⟨hmem.mpr hx, hspawn⟩
  · exact fun x hx => h.data x (hmem.mp hx)

theorem Sorted.retimed (hq : q.Contents) (h : Sorted orders s) (hp : p ∈ s.elements q)
    (increased : Bool) {t : Int}
    (htruth : if increased then t ≤ (s.info p).respawnTime else (s.info p).respawnTime ≤ t) :
    Sorted orders ((s.setTime p t).retimed q increased p) := by
  have hkey : if increased then s.keys p ≤ (s.setTime p t).keys p
      else (s.setTime p t).keys p ≤ s.keys p := by
    simp only [keys, RespawnInfo.key, setTime, update_self, Prod.Lex.toLex_le_toLex,
      OrderDual.toDual_lt_toDual, OrderDual.toDual_inj, le_refl, and_true]
    cases increased <;> simp only [Bool.false_eq_true, ↓reduceIte] at htruth ⊢ <;> omega
  have hothers : ∀ x ∈ q.elements s.respawnTimes, x ≠ p → (s.setTime p t).keys x = s.keys x :=
    fun x _ hx => keys_setTime_of_ne hx t
  refine ⟨?_, ?_, ?_⟩
  · unfold RespawnStores.retimed setHeap
    cases increased
    · exact orders.decrease h.wellFormed hp hothers hkey
    · exact orders.increase h.wellFormed hp hothers hkey
  · intro x hx
    rw [mem_elements_retimed hq] at hx
    change Function.update s.seen p ((s.setTime p t).keys p) x = (s.setTime p t).keys x
    by_cases hxp : x = p
    · subst hxp
      exact update_self ..
    · rw [update_of_ne hxp, keys_setTime_of_ne hxp]
      exact h.seen x hx
  · intro n hn
    rcases mem_cons.mp hn with rfl | hn
    · change if increased then s.seen p ≤ _ else _ ≤ s.seen p
      rw [h.seen p hp]
      exact hkey
    · exact h.told n hn

/-- `Respawn` moves an entry to the front. -/
theorem Ok.respawn (hq : q.Contents) (h : Ok orders c held s) (now : Int)
    (type : SpawnObjectType) (spawnId : UInt64) :
    ∃ s', s.respawn q c now type spawnId = .ok s' ∧ Ok orders c held s' := by
  unfold RespawnStores.respawn
  cases hget : s.getRespawnInfo type spawnId with
  | none => exact ⟨s, rfl, h⟩
  | some p =>
    have hp := (h.agrees.stored hget).1
    simp only [h.agrees.read (.inl hp), bind, Except.bind]
    by_cases hnow : (s.info p).respawnTime ≤ now
    · exact ⟨s, by rw [if_pos hnow]; rfl, h⟩
    have hset : Agrees q c held (s.setTime p now) := h.agrees.setTime now
    have hagrees : Agrees q c held ((s.setTime p now).retimed q true p) := hset.retimed hq true
    have hsorted := h.sorted.retimed hq hp true (t := now) (by simp only [↓reduceIte]; omega)
    rw [if_neg hnow, hset.heapNotify_eq]
    simp only [hagrees.read (.inl ((mem_elements_retimed hq true).mpr hp))]
    exact ⟨_, rfl, hagrees.saveRow _, hsorted.saveRow _⟩

theorem foldlM_free {l : List Pointer} (hnodup : l.Nodup) (hlive : ∀ p ∈ l, s.live p = true) :
    ∃ live, l.foldlM free s = .ok { s with live := live } ∧
      ∀ p, live p = true ↔ s.live p = true ∧ p ∉ l := by
  induction l generalizing s with
  | nil => exact ⟨s.live, rfl, fun p => by simp⟩
  | cons x xs ih =>
    obtain ⟨hx, hnodup⟩ := nodup_cons.mp hnodup
    have hxs : ∀ p ∈ xs, (s.freed x).live p = true := by
      intro p hp
      have hne : p ≠ x := fun heq => hx (heq ▸ hp)
      exact (update_of_ne hne ..).trans (hlive p (mem_cons_of_mem _ hp))
    obtain ⟨live, hfold, hiff⟩ := ih hnodup hxs
    refine ⟨live, ?_, fun p => ?_⟩
    · rw [foldlM_cons, free_eq (hlive x (mem_cons_self ..))]
      exact hfold
    · rw [hiff, mem_cons, not_or, freed]
      by_cases hp : p = x
      · simp [hp]
      · simp [hp]

/-- `UnloadAllRespawnInfos` leaves nothing. -/
theorem Ok.unloadAllRespawnInfos (hq : q.Contents) (h : Ok orders c [] s) :
    ∃ s', s.unloadAllRespawnInfos q = .ok s' ∧ Ok orders c [] s' := by
  obtain ⟨live, hfold, hiff⟩ := foldlM_free h.agrees.nodup
    fun p hp => (h.agrees.live p).mpr (.inl hp)
  have hdead : ∀ p, live p ≠ true := by
    intro p hp
    obtain ⟨hlive, hout⟩ := (hiff p).mp hp
    exact hout (((h.agrees.live p).mp hlive).resolve_right not_mem_nil)
  change ∃ s', (s.elements q).foldlM free s >>= _ = Except.ok s' ∧ _
  rw [hfold]
  refine ⟨_, rfl, ⟨?_, ?_, ?_, ?_, ?_, ?_, ?_⟩, orders.empty _, ?_, h.sorted.told⟩ <;>
    simp only [elements, hq.elements_empty]
  · exact nodup_nil
  · exact fun p hp => absurd hp not_mem_nil
  · exact fun p => by simp [hdead p]
  · exact fun p hp => absurd hp not_mem_nil
  · rintro (_ | _ | _) spawnId p hp <;> cases hp
  · exact fun p hp => absurd hp (hdead p)
  · exact fun p hp => absurd hp not_mem_nil
  · exact fun p hp => absurd hp not_mem_nil

end RespawnStores

end LegionServer.Source.Respawns
