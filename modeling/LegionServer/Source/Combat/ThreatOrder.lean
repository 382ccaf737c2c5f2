import LegionServer.Source.Combat.CombatRuns

/-!
# The heaps are told the truth

A heap stays well formed as long as every notification has the right direction.
The state before `UpdateMyTempModifiers` decides whether its notifications have.
-/
namespace LegionServer.Source.Combat
open Library List Function

namespace ThreatWorld

/-- Setting the modifier moves the key in this direction, if at all: a threat
of zero cannot fall, and one that stays zero does not rise. -/
def MovesAlong {U : Type*} (increased : Bool) (ref : ThreatReference U) (mod : Int) : Prop :=
  if increased then ref.tempModifier ≤ mod ∨ ref.baseAmount + ref.tempModifier ≤ 0
  else mod ≤ ref.tempModifier ∨ ref.baseAmount + mod ≤ 0

theorem truthful_mod_iff {U : Type*} (increased : Bool) (ref : ThreatReference U) (mod : Int) :
    Truthful increased ref.sortKey { ref with tempModifier := mod }.sortKey ↔
      MovesAlong increased ref mod := by
  have hmax : ∀ (b : ℚ) (m n : Int), max (b + m) 0 ≤ max (b + n) 0 ↔ m ≤ n ∨ b + m ≤ 0 := by
    intro b m n
    have hcast : (m : ℚ) ≤ n ↔ m ≤ n := Int.cast_le
    constructor
    · intro h
      by_cases hpos : b + m ≤ 0
      · exact .inr hpos
      · refine .inl (hcast.mp ?_)
        rcases le_max_iff.mp ((le_max_left _ _).trans h) with hle | hle <;> linarith
    · rintro (h | h)
      · have := hcast.mpr h
        exact max_le_max (by linarith) le_rfl
      · exact max_le (h.trans (le_max_right _ _)) (le_max_right _ _)
  cases increased <;>
    simp [Truthful, MovesAlong, ThreatReference.sortKey, Prod.Lex.toLex_le_toLex,
      ThreatReference.getThreat, hmax]

variable {U H : Type*} [DecidableEq U] {q : PriorityQueue RefId SortKey H}
  {w w' : ThreatWorld U H} {a : U} {id : RefId}

/-- The heaps know the keys of all references, were never told wrong, and are
well formed. -/
structure SortedOk (orders : q.Orders) (w : ThreatWorld U H) : Prop where
  seen : ∀ {id}, w.live id = true → w.seen id = w.sortKeys id
  told : ∀ n ∈ w.notifications, Truthful n.increased n.before n.after
  wellFormed : ∀ a, orders.WellFormed w.sortKeys (w.heap a)

variable {orders : q.Orders}

theorem heap_setManager {manager : ThreatManager U H} (hsame : manager.sortedThreatList = w.heap a)
    (x : U) : (w.setManager a manager).heap x = w.heap x :=
  field_setManager ThreatManager.sortedThreatList hsame x

theorem ThreatOk.live_of_heap (hok : ThreatOk q w) (hid : id ∈ q.elements (w.heap a)) :
    w.live id = true ∧ (w.ref id).owner = a := by
  obtain ⟨v, hlookup⟩ := hok.entry_of_heap hid
  exact ⟨(hok.stored hlookup).1, (hok.stored hlookup).2.1⟩

theorem SortedOk.notify (hok : ThreatOk q w) (h : SortedOk orders w) {ref : ThreatReference U}
    (increased : Bool) (hlive : w.live id = true) (howner : ref.owner = (w.ref id).owner)
    (hdirection : Truthful increased (w.ref id).sortKey ref.sortKey) :
    SortedOk orders ((w.setRef id ref).heapNotify q increased id) := by
  have hkey : (w.setRef id ref).sortKeys id = ref.sortKey := by simp [sortKeys, setRef]
  have hother : ∀ x, x ≠ id → (w.setRef id ref).sortKeys x = w.sortKeys x := by
    intro x hx
    simp [sortKeys, setRef, hx]
  have hsame : ((w.setRef id ref).ref id).owner = (w.ref id).owner := by simpa [setRef] using howner
  constructor
  · intro x hx
    change Function.update w.seen id ((w.setRef id ref).sortKeys id) x =
      (w.setRef id ref).sortKeys x
    by_cases heq : x = id
    · subst heq
      simp
    · rw [update_of_ne heq, hother x heq]
      exact h.seen hx
  · intro n hn
    rcases mem_cons.mp hn with rfl | hold
    · change Truthful increased (w.seen id) ((w.setRef id ref).sortKeys id)
      rw [h.seen hlive, hkey]
      exact hdirection
    · exact h.told n hold
  · intro x
    change orders.WellFormed (w.setRef id ref).sortKeys _
    by_cases hx : x = (w.ref id).owner
    · subst hx
      have hmem := hok.heap_of_entry (hok.listed hlive)
      have hheap : ((w.setRef id ref).heapNotify q increased id).heap (w.ref id).owner =
          if increased then q.increase (w.setRef id ref).sortKeys (w.heap (w.ref id).owner) id
          else q.decrease (w.setRef id ref).sortKeys (w.heap (w.ref id).owner) id := by
        simp only [heapNotify, ThreatWorld.heap, hsame, manager_setManager_self]
        rfl
      rw [hheap]
      cases increased with
      | true =>
        refine orders.increase (h.wellFormed _) hmem (fun y _ hne => hother y hne) ?_
        rw [hkey]
        exact hdirection
      | false =>
        refine orders.decrease (h.wellFormed _) hmem (fun y _ hne => hother y hne) ?_
        rw [hkey]
        exact hdirection
    · have hheap : ((w.setRef id ref).heapNotify q increased id).heap x = w.heap x := by
        simp [heapNotify, ThreatWorld.heap, hsame, manager_setManager, hx]
        rfl
      rw [hheap]
      refine orders.congr (h.wellFormed x) fun y hy => hother y ?_
      rintro rfl
      exact hx (hok.live_of_heap hy).2.symm

theorem SortedOk.manage (h : SortedOk orders w) {manager : ThreatManager U H}
    (hheap : manager.sortedThreatList = w.heap a) : SortedOk orders (w.setManager a manager) where
  seen := h.seen
  told := h.told
  wellFormed x := by
    rw [heap_setManager hheap]
    exact h.wellFormed x

section
variable (hok : ThreatOk q w) (h : SortedOk orders w)
include hok h

theorem SortedOk.insert {v : U} (hinserted : Inserted q w w' a v) : SortedOk orders w' := by
  have hold : ∀ {x}, w.live x = true → x ≠ w.nextRef := fun hlive => (hok.fresh hlive).ne
  have hsame : ∀ {x}, x ≠ w.nextRef → w'.sortKeys x = w.sortKeys x := by
    intro x hx
    simp [sortKeys, hinserted.ref, hx]
  constructor
  · intro x hx
    rw [hinserted.seen]
    by_cases heq : x = w.nextRef
    · subst heq
      simp
    · rw [hinserted.live, update_of_ne heq] at hx
      rw [update_of_ne heq, hsame heq]
      exact h.seen hx
  · rw [hinserted.notifications]
    exact h.told
  · intro x
    have hcongr := orders.congr (h.wellFormed x) fun y hy =>
      hsame (hold (hok.live_of_heap hy).1)
    rw [hinserted.heap]
    split
    · rename_i heq
      subst heq
      exact orders.push hcongr
    · exact hcongr

theorem SortedOk.free (hlive : w.live id = true) : SortedOk orders (w.unregisterAndFree q id) := by
  have hfreed := hok.freed hlive
  have hkeys : (w.unregisterAndFree q id).sortKeys = w.sortKeys := by
    funext x
    simp [sortKeys, hfreed.ref]
  constructor
  · intro x hx
    rw [hfreed.live, update_apply] at hx
    split at hx
    · cases hx
    · rw [hfreed.seen, hkeys]
      exact h.seen hx
  · rw [hfreed.notifications]
    exact h.told
  · intro x
    rw [hfreed.heap, hkeys]
    split
    · exact orders.erase (h.wellFormed _)
    · exact h.wellFormed x

theorem SortedOk.change (hchange : Change q Truthful w w') : SortedOk orders w' := by
  cases hchange with
  | notify increased live owner victim base direction => exact h.notify hok increased live owner direction
  | manage heap entries threatened current fixate => exact h.manage heap
  | insert inserted => exact h.insert hok inserted
  | free live => exact h.free hok live

end

theorem SortedOk.changes (hq : q.Contents) (hchanges : Changes q Truthful w w')
    (hok : ThreatOk q w) (h : SortedOk orders w) : SortedOk orders w' := by
  induction hchanges with
  | refl => exact h
  | tail hbefore hchange ih => exact ih.change (Changes.ok hq hbefore hok) hchange

/-- The direction of the first reference is right for all references. -/
def DirectionRight (view : View U) (w : ThreatWorld U H) (a : U) : Prop :=
  ∀ first ∈ (view.entries (w.threatenedByMe a)).head?, ∀ entry ∈ view.entries (w.threatenedByMe a),
      MovesAlong ((w.ref first.2).tempModifier < (view.totalThreatAuras a).sum) (w.ref entry.2)
        (view.totalThreatAuras a).sum

theorem ThreatOk.threatened_ids_nodup (hok : ThreatOk q w) (view : View U) (a : U) :
    ((view.entries (w.threatenedByMe a)).map Sigma.snd).Nodup := by
  have howner : ∀ entry ∈ view.entries (w.threatenedByMe a), (w.ref entry.2).owner = entry.1 :=
    fun entry hentry => (hok.stored (hok.threatened.mp (view.mem_entries.mp hentry))).2.1
  refine List.Nodup.map_on ?_ (List.Nodup.of_map _ (view.entries_keys _))
  rintro ⟨o, id⟩ ho ⟨o', id'⟩ ho' heq
  have hid : id = id' := heq
  subst hid
  have hsame : o = o' := (howner _ ho).symm.trans (howner _ ho')
  rw [hsame]

section modifiers

variable {mod : Int} {increased : Bool} {l : List (Σ _ : U, RefId)}

theorem setTempModifier_ref (w : ThreatWorld U H) (id : RefId) :
    (w.setTempModifier q id mod increased).ref =
      Function.update w.ref id { w.ref id with tempModifier := mod } := rfl

theorem setTempModifiers_truthful (hq : q.Contents) (hok : ThreatOk q w)
    (hnodup : (l.map Sigma.snd).Nodup) (hlive : ∀ entry ∈ l, w.live entry.2 = true)
    (hright : ∀ entry ∈ l, MovesAlong increased (w.ref entry.2) mod) :
    Adjusts q Truthful w
      (l.foldl (fun w entry => w.setTempModifier q entry.2 mod increased) w) := by
  induction l generalizing w with
  | nil => exact .refl w
  | cons entry l ih =>
    obtain ⟨hnotin, hnodup'⟩ := nodup_cons.mp hnodup
    have hentry := hlive entry mem_cons_self
    have hhead : Adjusts q Truthful w (w.setTempModifier q entry.2 mod increased) :=
      .told _ increased hentry rfl rfl (hok.base hentry)
        ((truthful_mod_iff _ _ _).mpr (hright entry mem_cons_self))
    refine hhead.trans (ih (hhead.ok hq hok) hnodup' (fun entry' hentry' => ?_)
      fun entry' hentry' => ?_)
    · rw [hhead.live]
      exact hlive entry' (mem_cons_of_mem entry hentry')
    · have hne : entry'.2 ≠ entry.2 := fun heq => hnotin (heq ▸ mem_map_of_mem hentry')
      rw [setTempModifier_ref, update_of_ne hne]
      exact hright entry' (mem_cons_of_mem entry hentry')

theorem setTempModifiers_remembers (w : ThreatWorld U H) {n : Notification}
    (hn : n ∈ w.notifications) :
    n ∈ (l.foldl (fun w entry => w.setTempModifier q entry.2 mod increased) w).notifications := by
  induction l generalizing w with
  | nil => exact hn
  | cons entry l ih => exact ih _ (mem_cons_of_mem _ hn)

theorem setTempModifiers_told (hnodup : (l.map Sigma.snd).Nodup)
    (hseen : ∀ entry ∈ l, w.seen entry.2 = w.sortKeys entry.2) {entry : Σ _ : U, RefId}
    (hentry : entry ∈ l) :
    ⟨entry.2, increased, (w.ref entry.2).sortKey,
        { w.ref entry.2 with tempModifier := mod }.sortKey⟩ ∈
      (l.foldl (fun w entry => w.setTempModifier q entry.2 mod increased) w).notifications := by
  induction l generalizing w with
  | nil => cases hentry
  | cons head l ih =>
    obtain ⟨hnotin, hnodup'⟩ := nodup_cons.mp hnodup
    rcases mem_cons.mp hentry with rfl | htail
    · refine setTempModifiers_remembers (w.setTempModifier q entry.2 mod increased) ?_
      have hkey : (w.setTempModifier q entry.2 mod increased).notifications =
          ⟨entry.2, increased, w.seen entry.2,
            (w.setRef entry.2 { w.ref entry.2 with tempModifier := mod }).sortKeys entry.2⟩ ::
            w.notifications := rfl
      rw [hkey, hseen entry mem_cons_self]
      simp [sortKeys, setRef]
    · have hne : ∀ entry' ∈ l, entry'.2 ≠ head.2 :=
        fun entry' hentry' heq => hnotin (heq ▸ mem_map_of_mem hentry')
      have htold := ih (w := w.setTempModifier q head.2 mod increased) hnodup'
        (fun entry' hentry' => ?_) htail
      · rwa [setTempModifier_ref, update_of_ne (hne entry htail)] at htold
      · change Function.update w.seen head.2 _ entry'.2 =
          (Function.update w.ref head.2 _ entry'.2).sortKey
        rw [update_of_ne (hne entry' hentry'), update_of_ne (hne entry' hentry')]
        exact hseen entry' (mem_cons_of_mem head hentry')

end modifiers

theorem updateMyTempModifiers_truthful (hq : q.Contents) (hok : ThreatOk q w) {view : View U}
    (hright : DirectionRight view w a) :
    Adjusts q Truthful w (w.updateMyTempModifiers q view a) := by
  unfold updateMyTempModifiers
  have hnodup := hok.threatened_ids_nodup view a
  have hlive : ∀ entry ∈ view.entries (w.threatenedByMe a), w.live entry.2 = true :=
    fun _ hentry => hok.live_of_threatened hentry
  unfold DirectionRight at hright
  split
  · exact .refl w
  · rename_i first rest hentries
    rw [hentries] at hnodup hlive hright
    exact setTempModifiers_truthful hq hok hnodup hlive (hright first rfl)

/-- And only then. -/
theorem directionRight_of_told (hok : ThreatOk q w) (h : SortedOk orders w) {view : View U}
    (htold : ∀ n ∈ (w.updateMyTempModifiers q view a).notifications,
      Truthful n.increased n.before n.after) : DirectionRight view w a := by
  intro first hfirst entry hentry
  have hnodup := hok.threatened_ids_nodup view a
  have hlive : ∀ entry ∈ view.entries (w.threatenedByMe a), w.live entry.2 = true :=
    fun _ hentry => hok.live_of_threatened hentry
  rw [← truthful_mod_iff]
  unfold updateMyTempModifiers at htold
  split at htold
  · rename_i hnone
    rw [hnone] at hentry
    cases hentry
  · rename_i first' rest hentries
    rw [hentries] at hnodup hlive hfirst hentry
    cases hfirst
    exact htold _ (setTempModifiers_told hnodup (fun entry' hentry' => h.seen (hlive entry' hentry'))
      hentry)

end ThreatWorld

end LegionServer.Source.Combat
