import Mathlib.Tactic.Linarith
import LegionServer.Source.Combat.ThreatPlaces

/-!
# What the threat operations do

Every operation on a threat list is a sequence of changes whose notifications
are truthful, with one exception: `UpdateMyTempModifiers` notifies all heaps in
the direction of its first reference.
-/
namespace LegionServer.Source.Combat
open Library List ThreatReference Prod.Lex

namespace ThreatReference

variable {U : Type*} {a b : ThreatReference U}

theorem sortKey_le (honline : a.online = b.online) (htaunted : a.taunted = b.taunted)
    (hthreat : a.getThreat ≤ b.getThreat) : a.sortKey ≤ b.sortKey := by
  simp [sortKey, toLex_le_toLex, honline, htaunted, hthreat]

theorem sortKey_le_of_online (h : a.online.toNat < b.online.toNat) : a.sortKey ≤ b.sortKey := by
  simp [sortKey, toLex_le_toLex, h]

theorem sortKey_le_of_taunted (honline : a.online = b.online) (h : a.taunted < b.taunted) :
    a.sortKey ≤ b.sortKey := by
  simp [sortKey, toLex_le_toLex, honline, h]

theorem sortKey_le_of_base (honline : a.online = b.online) (htaunted : a.taunted = b.taunted)
    (htemp : a.tempModifier = b.tempModifier) (h : a.baseAmount ≤ b.baseAmount) :
    a.sortKey ≤ b.sortKey := by
  refine sortKey_le honline htaunted (max_le_max ?_ le_rfl)
  rw [htemp]
  linarith

end ThreatReference

namespace ThreatWorld

variable {U H : Type*} [DecidableEq U] {q : PriorityQueue RefId SortKey H} {view : View U}
  {may may' : Bool → SortKey → SortKey → Prop} {w w' w'' : ThreatWorld U H} {a v : U} {id : RefId}

structure Adjusts (q : PriorityQueue RefId SortKey H) (may : Bool → SortKey → SortKey → Prop)
    (w w' : ThreatWorld U H) : Prop where
  changes : Changes q may w w'
  entries : ∀ x, w'.entries x = w.entries x
  threatened : ∀ x, w'.threatenedByMe x = w.threatenedByMe x
  live : w'.live = w.live

namespace Adjusts

theorem refl (w : ThreatWorld U H) : Adjusts q may w w := ⟨.refl, fun _ => rfl, fun _ => rfl, rfl⟩

theorem trans (h : Adjusts q may w w') (h' : Adjusts q may w' w'') : Adjusts q may w w'' where
  changes := h.changes.trans h'.changes
  entries x := (h'.entries x).trans (h.entries x)
  threatened x := (h'.threatened x).trans (h.threatened x)
  live := h'.live.trans h.live

theorem ok (hq : q.Contents) (h : Adjusts q may w w') (hok : ThreatOk q w) : ThreatOk q w' :=
  h.changes.ok hq hok

theorem notify {ref : ThreatReference U} (increased : Bool) (hlive : w.live id = true)
    (howner : ref.owner = (w.ref id).owner) (hvictim : ref.victim = (w.ref id).victim)
    (hbase : 0 ≤ ref.baseAmount) (hmay : may increased (w.ref id).sortKey ref.sortKey) :
    Adjusts q may w ((w.setRef id ref).heapNotify q increased id) where
  changes := .single (.notify increased hlive howner hvictim hbase hmay)
  entries := field_setManager (w := w.setRef id ref) ThreatManager.myThreatListEntries rfl
  threatened := field_setManager (w := w.setRef id ref) ThreatManager.threatenedByMe rfl
  live := rfl

theorem told (ref : ThreatReference U) (increased : Bool) (hlive : w.live id = true)
    (howner : ref.owner = (w.ref id).owner) (hvictim : ref.victim = (w.ref id).victim)
    (hbase : 0 ≤ ref.baseAmount) (hkey : Truthful increased (w.ref id).sortKey ref.sortKey) :
    Adjusts q Truthful w ((w.setRef id ref).heapNotify q increased id) :=
  notify increased hlive howner hvictim hbase hkey

theorem manage {manager : ThreatManager U H} (hheap : manager.sortedThreatList = w.heap a)
    (hentries : manager.myThreatListEntries = w.entries a)
    (hthreatened : manager.threatenedByMe = w.threatenedByMe a)
    (hcurrent : ∀ {id}, manager.currentVictimRef = some id → ∃ v, (w.entries a).lookup v = some id)
    (hfixate : ∀ {id}, manager.fixateRef = some id → ∃ v, (w.entries a).lookup v = some id) :
    Adjusts q may w (w.setManager a manager) where
  changes := .single (.manage hheap hentries hthreatened hcurrent hfixate)
  entries := field_setManager ThreatManager.myThreatListEntries hentries
  threatened := field_setManager ThreatManager.threatenedByMe hthreatened
  live := rfl

/-- Changes of the fields that are only read by clients, timers and the AI. -/
theorem remark (hok : ThreatOk q w) {manager : ThreatManager U H}
    (hheap : manager.sortedThreatList = w.heap a)
    (hentries : manager.myThreatListEntries = w.entries a)
    (hthreatened : manager.threatenedByMe = w.threatenedByMe a)
    (hcurrent : manager.currentVictimRef = (w.manager a).currentVictimRef)
    (hfixate : manager.fixateRef = (w.manager a).fixateRef) :
    Adjusts q may w (w.setManager a manager) :=
  manage hheap hentries hthreatened (fun h => hok.current (hcurrent ▸ h))
    (fun h => hok.fixate (hfixate ▸ h))

theorem clientUpdate (hok : ThreatOk q w) (a : U) : Adjusts q may w (w.clientUpdate a) :=
  remark hok rfl rfl rfl rfl rfl

theorem foldl (hq : q.Contents) {κ : Type*} {f : ThreatWorld U H → κ → ThreatWorld U H}
    {refOf : κ → RefId}
    (hf : ∀ w k, ThreatOk q w → w.live (refOf k) = true → Adjusts q may w (f w k))
    (l : List κ) (hok : ThreatOk q w) (hlive : ∀ k ∈ l, w.live (refOf k) = true) :
    Adjusts q may w (l.foldl f w) := by
  induction l generalizing w with
  | nil => exact .refl w
  | cons k l ih =>
    have hhead := hf w k hok (hlive k mem_cons_self)
    refine hhead.trans (ih (hhead.ok hq hok) fun k' hk' => ?_)
    rw [hhead.live]
    exact hlive k' (mem_cons_of_mem k hk')

end Adjusts

section references

variable (hq : q.Contents) (hok : ThreatOk q w) (hlive : w.live id = true)
include hq hok hlive

theorem addRefThreat_adjusts (amount : ℚ) : Adjusts q Truthful w (w.addRefThreat q id amount) := by
  have hbase := hok.base hlive
  unfold addRefThreat
  split
  · exact .refl w
  split
  · rename_i hpos
    have hnotify := Adjusts.told (q := q) (w := w)
      { w.ref id with baseAmount := max ((w.ref id).baseAmount + amount) 0 } true hlive rfl rfl
      (le_max_right _ _) (sortKey_le_of_base rfl rfl rfl ?_)
    · exact hnotify.trans (.clientUpdate (hnotify.ok hq hok) _)
    · exact le_max_of_le_left (by linarith)
  · rename_i hzero hneg
    have hnotify := Adjusts.told (q := q) (w := w)
      { w.ref id with baseAmount := max ((w.ref id).baseAmount + amount) 0 } false hlive rfl rfl
      (le_max_right _ _) (sortKey_le_of_base rfl rfl rfl ?_)
    · exact hnotify.trans (.clientUpdate (hnotify.ok hq hok) _)
    · exact max_le (by linarith) hbase

theorem scaleRefThreat_adjusts {factor : ℚ} (hfactor : 0 ≤ factor) :
    Adjusts q Truthful w (w.scaleRefThreat q id factor) := by
  have hbase := hok.base hlive
  unfold scaleRefThreat
  split
  · exact .refl w
  split
  · rename_i hmore
    have hnotify := Adjusts.told (q := q) (w := w)
      { w.ref id with baseAmount := (w.ref id).baseAmount * factor } true hlive rfl rfl
      (mul_nonneg hbase hfactor) (sortKey_le_of_base rfl rfl rfl ?_)
    · exact hnotify.trans (.clientUpdate (hnotify.ok hq hok) _)
    · exact le_mul_of_one_le_right hbase hmore.le
  · rename_i hless
    have hnotify := Adjusts.told (q := q) (w := w)
      { w.ref id with baseAmount := (w.ref id).baseAmount * factor } false hlive rfl rfl
      (mul_nonneg hbase hfactor) (sortKey_le_of_base rfl rfl rfl ?_)
    · exact hnotify.trans (.clientUpdate (hnotify.ok hq hok) _)
    · exact mul_le_of_le_one_right hbase (not_lt.mp hless)

theorem updateOffline_adjusts : Adjusts q Truthful w (w.updateOffline q view id) := by
  have hbase := hok.base hlive
  unfold updateOffline
  dsimp only
  split
  · exact .refl w
  rename_i hchanged
  split
  · rename_i hoffline
    refine .told _ false hlive rfl rfl hbase (sortKey_le_of_online ?_)
    have honline : (w.ref id).online ≠ .offline := by
      simpa [hoffline, isOffline] using hchanged
    cases hstate : (w.ref id).online with
    | offline => exact absurd hstate honline
    | suppressed => simp [OnlineState.toNat]
    | online => simp [OnlineState.toNat]
  · rename_i hoffline
    have hwas : (w.ref id).online = .offline := by
      simpa [hoffline, isOffline] using hchanged
    have hnotify := Adjusts.told (q := q) (w := w)
      { w.ref id with 
        online := if shouldBeSuppressed view (w.ref id) then .suppressed else .online } true hlive rfl rfl
      hbase (sortKey_le_of_online ?_)
    · exact hnotify.trans (.remark (hnotify.ok hq hok) rfl rfl rfl rfl rfl)
    · rw [hwas]
      split <;> simp [OnlineState.toNat]

theorem updateTauntState_adjusts (state : Nat) :
    Adjusts q Truthful w (w.updateTauntState q view id state) := by
  have hbase := hok.base hlive
  unfold updateTauntState
  dsimp only
  generalize (if state < TAUNT_STATE_TAUNT ∧ view.isDetauntedBy (w.ref id).victim (w.ref id).owner
    then TAUNT_STATE_DETAUNT else state) = state'
  split
  · exact .refl w
  split
  · rename_i hless
    have hnotify := Adjusts.told (q := q) (w := w)
      { w.ref id with taunted := state' } false hlive rfl rfl hbase
      (sortKey_le_of_taunted rfl hless)
    exact hnotify.trans (.clientUpdate (hnotify.ok hq hok) _)
  · rename_i hmore
    have hnotify := Adjusts.told (q := q) (w := w)
      { w.ref id with taunted := state' } true hlive rfl rfl hbase
      (sortKey_le_of_taunted rfl (by show (w.ref id).taunted < state'; omega))
    exact hnotify.trans (.clientUpdate (hnotify.ok hq hok) _)

theorem addOnlineThreat_adjusts (amount : ℚ) :
    Adjusts q Truthful w (w.addOnlineThreat q id amount) := by
  unfold addOnlineThreat
  split
  · exact addRefThreat_adjusts hq hok hlive amount
  · exact .refl w

omit hq in
/-- A reference gets an online state above or below its own. -/
theorem setOnline_adjusts (state : OnlineState) (increased : Bool)
    (hstate : if increased then (w.ref id).online.toNat < state.toNat
      else state.toNat < (w.ref id).online.toNat) :
    Adjusts q Truthful w (w.setOnline q id state increased) := by
  refine .told { w.ref id with online := state } increased hlive rfl rfl (hok.base hlive) ?_
  cases increased with
  | true => exact sortKey_le_of_online hstate
  | false => exact sortKey_le_of_online hstate

omit hq in
theorem resume_adjusts (hsuppressed : (w.ref id).isSuppressed = true) :
    Adjusts q Truthful w (w.setOnline q id .online true) := by
  refine setOnline_adjusts hok hlive .online true ?_
  have hstate : (w.ref id).online = .suppressed := by
    simpa [isSuppressed] using hsuppressed
  simp [hstate, OnlineState.toNat]

omit hq in
theorem evaluateSuppressedRef_adjusts (canExpire : Bool) :
    Adjusts q Truthful w (w.evaluateSuppressedRef q view canExpire id) := by
  unfold evaluateSuppressedRef
  dsimp only
  split
  · rename_i hdown
    have honline : (w.ref id).online = .online := by
      simp only [Bool.and_eq_true, isOnline, decide_eq_true_eq] at hdown
      exact hdown.1
    refine setOnline_adjusts hok hlive .suppressed false ?_
    simp [honline, OnlineState.toNat]
  · split
    · rename_i hup
      simp only [Bool.and_eq_true] at hup
      exact resume_adjusts hok hlive hup.1.2
    · exact .refl w

end references

end ThreatWorld

/-!
# Whole threat lists

The loops over the list of a unit. No assertion fails: the old victim is always found in the heap.
-/

namespace ThreatWorld

theorem searchVictim_found {U H : Type*} (view : View U) (w : ThreatWorld U H) (a : U) {old : RefId} {l : List RefId}
    (hold : old ∈ l) :
    Ends (fun _ => False) (w.searchVictim view a old l) fun found => found ∈ l := by
  induction l with
  | nil => cases hold
  | cons next rest ih =>
    unfold searchVictim
    split
    · exact mem_cons_self
    rename_i hne
    split
    · exact hold
    split
    · exact mem_cons_self
    have hrest : old ∈ rest := by
      cases hold with
      | head => exact absurd rfl hne
      | tail _ hrest => exact hrest
    exact (ih hrest).mono fun _ => mem_cons_of_mem next

variable {U H : Type*} [DecidableEq U] {q : PriorityQueue RefId SortKey H} (view : View U)
  {may : Bool → SortKey → SortKey → Prop} {w w' w'' : ThreatWorld U H} {a v : U} {id : RefId}

theorem ThreatOk.live_of_entry {view : View U} (hok : ThreatOk q w) {entry : Σ _ : U, RefId}
    (hentry : entry ∈ view.entries (w.entries a)) : w.live entry.2 = true :=
  (hok.stored (view.mem_entries.mp hentry)).1

theorem ThreatOk.live_of_threatened {view : View U} (hok : ThreatOk q w) {entry : Σ _ : U, RefId}
    (hentry : entry ∈ view.entries (w.threatenedByMe a)) : w.live entry.2 = true :=
  (hok.stored (hok.threatened.mp (view.mem_entries.mp hentry))).1

section loops

variable (hq : q.Contents) (hok : ThreatOk q w)
include hq hok

theorem updateOnlineStates_adjusts (a : U) : Adjusts q Truthful w (w.updateOnlineStates q view a) :=
  .foldl hq (fun _ _ hok' hlive => updateOffline_adjusts hq hok' hlive) _ hok
    fun _ hentry => hok.live_of_entry hentry

theorem evaluateSuppressed_adjusts (a : U) (canExpire : Bool) :
    Adjusts q Truthful w (w.evaluateSuppressed q view a canExpire) :=
  .foldl hq (fun _ _ hok' hlive => evaluateSuppressedRef_adjusts hok' hlive canExpire) _ hok
    fun _ hentry => hok.live_of_threatened hentry

theorem tauntUpdate_adjusts (a : U) : Adjusts q Truthful w (w.tauntUpdate q view a) := by
  have hstates : Adjusts q Truthful w ((view.entries (w.entries a)).foldl (fun w entry =>
      w.updateTauntState q view entry.2 (tauntStateOf (tauntStates (view.tauntCasters a)) entry.1))
        w) :=
    .foldl hq (fun _ _ hok' hlive => updateTauntState_adjusts hq hok' hlive _) _ hok
      fun _ hentry => hok.live_of_entry hentry
  exact hstates.trans (evaluateSuppressed_adjusts view hq (hstates.ok hq hok) a true)

theorem resetAllThreat_adjusts (a : U) : Adjusts q Truthful w (w.resetAllThreat q view a) :=
  .foldl hq (fun _ _ hok' hlive => scaleRefThreat_adjusts hq hok' hlive le_rfl) _ hok
    fun _ hentry => hok.live_of_entry hentry

theorem scaleThreat_adjusts (a target : U) (factor : ℚ) :
    Adjusts q Truthful w (w.scaleThreat q a target factor) := by
  unfold scaleThreat
  split
  · exact .refl w
  · rename_i id hlookup
    exact scaleRefThreat_adjusts hq hok (hok.stored hlookup).1 (le_max_right _ _)

theorem setTempModifiers_adjusts (mod : Int) (increased : Bool) (l : List (Σ _ : U, RefId))
    (hlive : ∀ entry ∈ l, w.live entry.2 = true) :
    Adjusts q (fun _ _ _ => True) w
      (l.foldl (fun w entry => w.setTempModifier q entry.2 mod increased) w) :=
  .foldl (f := fun w entry => w.setTempModifier q entry.2 mod increased) hq
    (fun _ _ hok' hlive' => .notify increased hlive' rfl rfl (hok'.base hlive') trivial) l hok hlive

theorem updateMyTempModifiers_adjusts (a : U) :
    Adjusts q (fun _ _ _ => True) w (w.updateMyTempModifiers q view a) := by
  unfold updateMyTempModifiers
  split
  · exact .refl w
  · rename_i first rest hentries
    refine setTempModifiers_adjusts hq hok _ _ (first :: rest) fun entry hentry => ?_
    have hmem : entry ∈ view.entries (w.threatenedByMe a) := hentries ▸ hentry
    exact hok.live_of_threatened hmem

end loops

section victims

theorem fixateTarget_adjusts (hok : ThreatOk q w) (a : U) (target : Option U) :
    Adjusts q Truthful w (w.fixateTarget a target) := by
  refine .manage rfl rfl rfl hok.current fun {id} hfixate => ?_
  obtain ⟨v, _, hlookup⟩ := Option.bind_eq_some_iff.mp hfixate
  exact ⟨v, hlookup⟩

theorem ThreatOk.entry_of_heap (hok : ThreatOk q w) (hid : id ∈ q.elements (w.heap a)) :
    ∃ v, (w.entries a).lookup v = some id := by
  obtain ⟨entry, hentry, rfl⟩ := mem_map.mp ((hok.heaped a).mem_iff.mp hid)
  exact ⟨entry.1, AList.mem_lookup_iff.mpr hentry⟩

theorem ThreatOk.heap_of_entry (hok : ThreatOk q w) (hid : (w.entries a).lookup v = some id) :
    id ∈ q.elements (w.heap a) :=
  (hok.heaped a).mem_iff.mpr (List.mem_map.mpr ⟨⟨v, id⟩, AList.mem_lookup_iff.mp hid, rfl⟩)

variable (hq : q.Contents)
include hq

section
variable (hok : ThreatOk q w) (a : U)
include hok

theorem chooseVictim_listed :
    Ends (fun _ => False) (w.chooseVictim q view a) fun victim =>
      ∀ id, victim = some id → ∃ v, (w.entries a).lookup v = some id := by
  unfold chooseVictim
  split
  · rename_i fixateRef hfixate
    rintro id ⟨⟩
    exact hok.fixate (Option.filter_eq_some_iff.mp hfixate).1
  · split
    · rintro id ⟨⟩
    · rename_i highest htop
      have hhighest := hok.entry_of_heap (hq.top_mem _ _ htop)
      split
      · rintro id ⟨⟩
      split
      · rintro id ⟨⟩
        exact hhighest
      rename_i old hold
      have hlisted := hok.current (Option.filter_eq_some_iff.mp hold).1
      split_ifs
      · rintro id ⟨⟩
        exact hhighest
      · rintro id ⟨⟩
        exact hlisted
      · rintro id ⟨⟩
        exact hhighest
      · rintro id ⟨⟩
        exact hhighest
      · obtain ⟨v, hlookup⟩ := hlisted
        have hmem := (hq.ordered_perm w.sortKeys (w.heap a)).mem_iff.mpr (hok.heap_of_entry hlookup)
        refine ((searchVictim_found view w a hmem).mono fun found hfound => ?_).map
        rintro id ⟨⟩
        exact hok.entry_of_heap ((hq.ordered_perm _ _).mem_iff.mp hfound)

theorem updateVictim_adjusts :
    Ends (fun _ => False) (w.updateVictim q view a) (Adjusts q Truthful w) := by
  have hreselect : Ends (fun _ => False) (w.reselectVictim q view a) fun result =>
      Adjusts q Truthful w result.1 ∧
        ∀ id, result.2 = some id → ∃ v, (result.1.entries a).lookup v = some id := by
    unfold reselectVictim
    split
    · exact ⟨.refl w, fun id hid => by cases hid⟩
    · have hstates := updateOnlineStates_adjusts view hq hok a
      refine Ends.map ((chooseVictim_listed view hq (hstates.ok hq hok) a).mono
        fun victim hvictim => ?_)
      exact ⟨hstates, hvictim⟩
  refine hreselect.bind fun result hresult => ?_
  have hresult_ok := hresult.1.ok hq hok
  exact hresult.1.trans (.manage rfl rfl rfl (hresult.2 _) hresult_ok.fixate)

theorem updateMissingVictim_adjusts :
    Ends (fun _ => False) (w.updateMissingVictim q view a) (Adjusts q Truthful w) := by
  unfold updateMissingVictim
  split
  · exact updateVictim_adjusts view hq hok a
  · exact .remark hok rfl rfl rfl rfl rfl

theorem update_adjusts (tdiff : Nat) :
    Ends (fun _ => False) (w.update q view a tdiff) (Adjusts q Truthful w) := by
  unfold update
  split
  · exact .refl w
  · split
    · refine (updateVictim_adjusts view hq hok a).bind fun w' hw' => ?_
      exact hw'.trans (.remark (hw'.ok hq hok) rfl rfl rfl rfl rfl)
    · exact .remark hok rfl rfl rfl rfl rfl

end

end victims

/-- Changes after which no list has an entry that it did not have before. -/
structure Removes (q : PriorityQueue RefId SortKey H) (w w' : ThreatWorld U H) : Prop where
  changes : Changes q Truthful w w'
  fewer : ∀ {x y id}, (w'.entries x).lookup y = some id → (w.entries x).lookup y = some id

namespace Removes

theorem refl (w : ThreatWorld U H) : Removes q w w := ⟨.refl, id⟩

theorem trans (h : Removes q w w') (h' : Removes q w' w'') : Removes q w w'' :=
  ⟨h.changes.trans h'.changes, fun hlookup => h.fewer (h'.fewer hlookup)⟩

theorem ok (hq : q.Contents) (h : Removes q w w') (hok : ThreatOk q w) : ThreatOk q w' :=
  h.changes.ok hq hok

end Removes

theorem Adjusts.removes (h : Adjusts q Truthful w w') : Removes q w w' :=
  ⟨h.changes, fun {x _ _} hlookup => h.entries x ▸ hlookup⟩

theorem ThreatOk.free_removes (hok : ThreatOk q w) (hlive : w.live id = true) :
    Removes q w (w.unregisterAndFree q id) where
  changes := .single (.free hlive)
  fewer hlookup := (hok.left (hok.freed hlive) rfl rfl hlookup).1

section removal

variable (hq : q.Contents) (hok : ThreatOk q w)
include hq hok

/-- `ClearThreat` takes at most the given entry away, and does so if it is there. -/
theorem clearThreat_spec (a target : U) :
    Ends (fun _ => False) (w.clearThreat q view a target) fun w' => Removes q w w' ∧
      ∀ x y, (w'.entries x).lookup y =
          (if x = a ∧ y = target then none else (w.entries x).lookup y) ∧
        (w'.threatenedByMe y).lookup x =
          if x = a ∧ y = target then none else (w.threatenedByMe y).lookup x := by
  unfold clearThreat
  cases hlookup : (w.entries a).lookup target with
  | none =>
    have hthreatened : (w.threatenedByMe target).lookup a = none := by
      rw [Option.eq_none_iff_forall_not_mem]
      intro id hid
      have hlisted := hok.threatened.mp hid
      rw [hlookup] at hlisted
      cases hlisted
    refine ⟨.refl w, fun x y => ⟨?_, ?_⟩⟩
    · split
      · rename_i heq
        rw [heq.1, heq.2, hlookup]
      · rfl
    · split
      · rename_i heq
        rw [heq.1, heq.2, hthreatened]
      · rfl
  | some id =>
    obtain ⟨hlive, howner, hvictim⟩ := hok.stored hlookup
    have hfreed := hok.freed hlive
    have hfree := hok.free_removes hlive
    rw [howner, hvictim] at hfreed
    unfold clearThreatRef
    dsimp only
    split
    · refine (updateVictim_adjusts view hq (hfree.ok hq hok) a).mono fun w' hw' => ?_
      refine ⟨hfree.trans hw'.removes, fun x y => ?_⟩
      rw [hw'.entries, hw'.threatened]
      exact ⟨hfreed.lookup x y, hfreed.lookup_threatened x y⟩
    · exact ⟨hfree, fun x y => ⟨hfreed.lookup x y, hfreed.lookup_threatened x y⟩⟩

/-- `ClearAllThreat` comes to its end. -/
theorem clearAllThreat_removes (a : U) :
    Ends (fun _ => False) (w.clearAllThreat q view a) (Removes q w) := by
  refine Ends.mono (Ends.whileSome (Removes q w) (fun w' => (w'.entries a).entries.length) ?_ ?_ _ w
    (.refl w) le_rfl) fun _ h => h.1
  · intro w' entry _ hentry
    have hmem := mem_of_mem_head? hentry
    rw [← view.length_entries]
    exact length_pos_of_mem hmem
  · intro w' entry hw' hentry
    have hok' := hw'.ok hq hok
    have hlookup := view.mem_entries.mp (mem_of_mem_head? hentry)
    obtain ⟨hlive, howner, hvictim⟩ := hok'.stored hlookup
    have hfreed := hok'.freed hlive
    rw [howner, hvictim] at hfreed
    refine ⟨hw'.trans (hok'.free_removes hlive), ?_⟩
    rw [hfreed.entries, if_pos rfl, (entries_erase hlookup).length_eq]
    exact Nat.lt_succ_self _

/-- `RemoveMeFromThreatLists` comes to its end. -/
theorem removeMeFromThreatLists_removes (a : U) :
    Ends (fun _ => False) (w.removeMeFromThreatLists q view a) (Removes q w) := by
  refine Ends.mono (Ends.whileSome (Removes q w) (fun w' => (w'.threatenedByMe a).entries.length)
    ?_ ?_ _ w (.refl w) le_rfl) fun _ h => h.1
  · intro w' entry _ hentry
    have hmem := mem_of_mem_head? hentry
    rw [← view.length_entries]
    exact length_pos_of_mem hmem
  · intro w' entry hw' hentry
    have hok' := hw'.ok hq hok
    have hlookup := view.mem_entries.mp (mem_of_mem_head? hentry)
    have howner := (hok'.stored (hok'.threatened.mp hlookup)).2.1
    refine (clearThreat_spec view hq hok' _ a).mono fun w'' hw'' => ⟨hw'.trans hw''.1, ?_⟩
    refine length_lt_of_lookup hlookup fun x => ?_
    simpa [howner] using (hw''.2 x a).2

end removal

end ThreatWorld

end LegionServer.Source.Combat
