import LegionServer.Library.Transition
import LegionServer.Source.Respawns.RespawnRounds

/-!
# Agreement of the respawn stores over whole runs

Whatever is added, deleted, moved forward, processed or unloaded, by whoever and
in whichever order, the heap and the maps hold the same live entries, the heap
knows the first of them, and `ProcessRespawns` comes to its end.
-/
namespace LegionServer.Guarantees.RespawnAgreement
open Library Source.Respawns
open RespawnStores

variable {H : Type} {q : PriorityQueue Pointer RespawnKey H} {c : MapContext}

structure World (H : Type) where
  clock : Int
  stores : RespawnStores H

inductive RespawnRequest where
  /-- `AddRespawnInfo`, `DeleteRespawnInfo` and their callers. -/
  | perform (call : RespawnCall)
  | respawn (type : SpawnObjectType) (spawnId : UInt64)
  | processRespawns (surroundings : Nat → Surroundings) (fuel : Nat)
  | unloadAllRespawnInfos
  | tick (elapsed : Nat)

variable (q c) in
def World.serve (w : World H) : RespawnRequest → Except Fault (World H)
  | .perform call => do
    let s ← w.stores.perform q c call
    return { w with stores := s }
  | .respawn type spawnId => do
    let s ← w.stores.respawn q c w.clock type spawnId
    return { w with stores := s }
  | .processRespawns surroundings fuel => do
    let (s, _) ← w.stores.processRespawns q c w.clock surroundings fuel
    return { w with stores := s }
  | .unloadAllRespawnInfos => do
    let s ← w.stores.unloadAllRespawnInfos q
    return { w with stores := s }
  | .tick elapsed => .ok { w with clock := w.clock + elapsed }

/-- Entries are for known spawns, outside logic adds none that is due, and the clock
does not reach the end of time. -/
def RespawnRequest.Allowed (c : MapContext) (clock : Int) : RespawnRequest → Prop
  | .perform call => call.Known c
  | .processRespawns surroundings _ =>
    ∀ n, ∀ call ∈ (surroundings n).calls, call.Known c ∧ call.Future clock
  | .tick elapsed => clock + elapsed < MAX_TIME
  | _ => True

/-- `ProcessRespawns` gets a round for each entry. -/
def RespawnRequest.Fueled (q : PriorityQueue Pointer RespawnKey H) (s : RespawnStores H) :
    RespawnRequest → Prop
  | .processRespawns _ fuel => (s.elements q).length ≤ fuel
  | _ => True

variable (q c) in
def respawnSystem : System (World H) RespawnRequest where
  init w := w.clock < MAX_TIME ∧ w.stores.respawnTimes = q.empty ∧
    w.stores.creatureRespawnTimesBySpawnId = (fun _ => none) ∧
    w.stores.gameObjectRespawnTimesBySpawnId = (fun _ => none) ∧
    w.stores.live = (fun _ => false) ∧ w.stores.notifications = []
  step request w w' := request.Allowed c w.clock ∧ w.serve q c request = .ok w'

structure StoresRight (q : PriorityQueue Pointer RespawnKey H) (c : MapContext)
    (held : List Pointer) (s : RespawnStores H) : Prop where
  agrees : Agrees q c held s
  told : ∀ n ∈ s.notifications, if n.increased then n.before ≤ n.after else n.after ≤ n.before
  top : ∀ p x, q.top s.respawnTimes = some p → x ∈ s.elements q →
    (s.info p).respawnTime ≤ (s.info x).respawnTime

/-- The rounds of `ProcessRespawns`, each with its number. -/
def ProcessRounds (q : PriorityQueue Pointer RespawnKey H) (c : MapContext) (now : Int)
    (surroundings : Nat → Surroundings) (s : RespawnStores H) : RespawnStores H × Nat → Prop :=
  Rounds (fun loop => dueTop q now loop.1) (nextRound q c now surroundings) (s, 0)

/-- What `ProcessRespawns` leaves. -/
structure Processed (q : PriorityQueue Pointer RespawnKey H) (c : MapContext) (now : Int)
    (surroundings : Nat → Surroundings) (s s' : RespawnStores H) : Prop where
  notDue : ∀ p ∈ s'.elements q, now < (s'.info p).respawnTime
  during : ∀ {loop p s₂}, ProcessRounds q c now surroundings s loop →
    dueTop q now loop.1 = some p → SpawnsInto q c now (surroundings loop.2) loop.1 p s₂ →
    StoresRight q c [p] s₂
  kept : ∀ {loop p s₂}, ProcessRounds q c now surroundings s loop →
    dueTop q now loop.1 = some p → SpawnsInto q c now (surroundings loop.2) loop.1 p s₂ →
    ∀ e, s₂.entry e.type e.spawnId = some e →
      (e.type ≠ (loop.1.info p).type ∨ e.spawnId ≠ (loop.1.info p).spawnId) →
      now < e.respawnTime →
      (∀ n > loop.2, ∀ call ∈ (surroundings n).calls, ¬ call.Displaces e) →
      s'.entry e.type e.spawnId = some e

section Loop

variable {orders : q.Orders} {held : List Pointer} {now : Int} {surroundings : Nat → Surroundings}
  {s s' : RespawnStores H}

theorem top_first {p x : Pointer} (hsorted : Sorted orders s)
    (htop : q.top s.respawnTimes = some p) (hx : x ∈ s.elements q) :
    (s.info p).respawnTime ≤ (s.info x).respawnTime := by
  have hle : s.keys x ≤ s.keys p := orders.top_max hsorted.wellFormed htop hx
  simp only [keys, RespawnInfo.key, Prod.Lex.toLex_le_toLex, OrderDual.toDual_lt_toDual,
    OrderDual.toDual_inj] at hle
  omega

theorem storesRight_of_ok (h : Ok orders c held s) : StoresRight q c held s :=
  ⟨h.agrees, h.sorted.told, fun _ _ htop hx => top_first h.sorted htop hx⟩

variable (hq : q.Contents) (hforgets : orders.Forgets) (hnow : now < MAX_TIME)
  (hknown : ∀ n, ∀ call ∈ (surroundings n).calls, call.Known c)

include hq hforgets hnow hknown

variable {loop : RespawnStores H × Nat}

theorem round_ends {p : Pointer} (h : Ok orders c [] loop.1) (hdue : dueTop q now loop.1 = some p) :
    Ends (fun _ : Fault => False) (nextRound q c now surroundings loop p) fun loop' =>
      Rounded orders c now (surroundings loop.2) loop.1 p loop'.1 ∧ loop'.2 = loop.2 + 1 := by
  obtain ⟨t, ht, hrounded⟩ := h.round hq hforgets hdue hnow (hknown loop.2)
  rw [nextRound, ht]
  exact ⟨hrounded, rfl⟩

variable {fuel : Nat}

theorem processRespawns_ends (h : Ok orders c [] s)
    (hfuture : ∀ n, ∀ call ∈ (surroundings n).calls, call.Future now)
    (hfuel : (s.due q now).card ≤ fuel) :
    Ends (fun _ : Fault => False) (s.processRespawns q c now surroundings fuel)
      fun loop => Ok orders c [] loop.1 ∧ dueTop q now loop.1 = none := by
  refine Ends.whileSome (fun loop => Ok orders c [] loop.1) (fun loop => (loop.1.due q now).card)
    ?_ ?_ fuel (s, 0) h hfuel
  · intro loop p hok hdue
    obtain ⟨_, hp, htime⟩ := dueTop_eq_some hdue hok.agrees hq
    exact Finset.card_pos.mpr ⟨p, mem_due.mpr ⟨hp, htime⟩⟩
  · intro loop p hok hdue
    refine (round_ends hq hforgets hnow hknown hok hdue).mono fun loop' hloop' => ?_
    exact ⟨hloop'.1.ok, Finset.card_lt_card (hloop'.1.due (hfuture loop.2))⟩

theorem rounds_ok (h : Ok orders c [] s) (hrounds : ProcessRounds q c now surroundings s loop) :
    Ok orders c [] loop.1 := by
  refine hrounds.invariant (fun loop => Ok orders c [] loop.1) ?_ h
  intro loop p loop' hok hdue hround
  exact ((round_ends hq hforgets hnow hknown hok hdue).post_of_ok hround).1.ok

variable {done : RespawnStores H × Nat}

theorem whileSome_kept (loop : RespawnStores H × Nat) {e : RespawnInfo}
    (h : Ok orders c [] loop.1) (he : loop.1.entry e.type e.spawnId = some e)
    (hlater : now < e.respawnTime)
    (hcalls : ∀ n ≥ loop.2, ∀ call ∈ (surroundings n).calls, ¬ call.Displaces e)
    (hend : whileSome .unfinished (fun loop => dueTop q now loop.1)
      (nextRound q c now surroundings) fuel loop = .ok done) :
    done.1.entry e.type e.spawnId = some e := by
  have hkept : Ends (fun fault => fault = Fault.unfinished)
      (whileSome .unfinished (fun loop => dueTop q now loop.1)
        (nextRound q c now surroundings) fuel loop)
      fun l => Ok orders c [] l.1 ∧ loop.2 ≤ l.2 ∧ l.1.entry e.type e.spawnId = some e := by
    refine Ends.whileSome_partial ?unfinished
      (fun l => Ok orders c [] l.1 ∧ loop.2 ≤ l.2 ∧ l.1.entry e.type e.spawnId = some e)
      ?_ fuel loop ⟨h, le_rfl, he⟩
    case unfinished => rfl
    rintro l p ⟨hok, hle, hentry⟩ hdue
    refine ((round_ends hq hforgets hnow hknown hok hdue).mono fun l' hl' => ?_).allow nofun
    exact ⟨hl'.1.ok, by omega, hl'.1.kept e hentry hlater (hcalls l.2 hle)⟩
  exact (hkept.post_of_ok hend).2.2

section
variable (h : Ok orders c [] s) (hend : s.processRespawns q c now surroundings fuel = .ok done)
include h hend

theorem processed_ok : Ok orders c [] done.1 := by
  have hok : Ends (fun fault => fault = Fault.unfinished)
      (s.processRespawns q c now surroundings fuel) fun l => Ok orders c [] l.1 := by
    refine Ends.whileSome_partial ?unfinished (fun l => Ok orders c [] l.1)
      (fun l p hok hdue => ?_) fuel (s, 0) h
    case unfinished => rfl
    exact ((round_ends hq hforgets hnow hknown hok hdue).mono fun l' hl' => hl'.1.ok).allow nofun
  exact hok.post_of_ok hend

theorem processed : Processed q c now surroundings s done.1 := by
  have hok := processed_ok hq hforgets hnow hknown h hend
  have hspawned : ∀ {loop p s₂}, ProcessRounds q c now surroundings s loop →
      dueTop q now loop.1 = some p → SpawnsInto q c now (surroundings loop.2) loop.1 p s₂ →
      ∃ s₃, Rounded orders c now (surroundings loop.2) loop.1 p s₃ ∧
        ProcessRounds q c now surroundings s (s₃, loop.2 + 1) := by
    intro loop p s₂ hrounds hdue _
    obtain ⟨s₃, hs₃, hrounded⟩ := (rounds_ok hq hforgets hnow hknown h hrounds).round hq hforgets
      hdue hnow (hknown loop.2)
    exact ⟨s₃, hrounded, hrounds.tail ⟨p, hdue, by rw [nextRound, hs₃]; rfl⟩⟩
  refine ⟨fun p hp => ?_, ?_, ?_⟩
  · unfold processRespawns at hend
    have hnext := next_of_whileSome hend
    cases htop : q.top done.1.respawnTimes with
    | none =>
      rw [elements, (hq.top_none _).mp htop] at hp
      cases hp
    | some x =>
      have hx := hq.top_mem _ _ htop
      have hlive : done.1.live x = true := (hok.agrees.live x).mpr (.inl hx)
      have hfirst := top_first hok.sorted htop hp
      rw [dueTop, htop] at hnext
      simp only [Option.filter_some, hlive, Bool.not_true, Bool.false_or, decide_eq_true_eq,
        ite_eq_right_iff, reduceCtorEq, imp_false] at hnext
      omega
  · intro loop p s₂ hrounds hdue hinto
    obtain ⟨s₃, hrounded, _⟩ := hspawned hrounds hdue hinto
    exact storesRight_of_ok (hrounded.spawned s₂ hinto).1
  · intro loop p s₂ hrounds hdue hinto e he hother hlater hcalls
    obtain ⟨s₃, hrounded, hrounds'⟩ := hspawned hrounds hdue hinto
    obtain ⟨fuel', hend'⟩ := hrounds'.whileSome hend
    have hentry := (hrounded.spawned s₂ hinto).2 e he hother
    exact whileSome_kept hq hforgets hnow hknown (s₃, loop.2 + 1) hrounded.ok hentry hlater hcalls
      hend'

end

end Loop

section Runs

variable {orders : q.Orders} {w w' : World H} {request : RespawnRequest}

theorem ok_initial (hq : q.Contents) (h : (respawnSystem q c).init w) :
    Ok orders c [] w.stores ∧ w.clock < MAX_TIME := by
  obtain ⟨hclock, hheap, hcreatures, hgameObjects, hlive, hnotifications⟩ := h
  have hnone : ∀ type spawnId, w.stores.getRespawnInfo type spawnId = none := by
    rintro (_ | _ | _) spawnId
    · exact congrFun hcreatures spawnId
    · exact congrFun hgameObjects spawnId
    · rfl
  refine ⟨⟨⟨?_, ?_, ?_, ?_, ?_, ?_, ?_⟩, ?_, ?_, ?_⟩, hclock⟩
  all_goals simp [elements, hheap, hq.elements_empty, hlive, hnone, hnotifications, orders.empty]

section
variable (hq : q.Contents) (hforgets : orders.Forgets) (h : Ok orders c [] w.stores)
  (hclock : w.clock < MAX_TIME) (hallowed : request.Allowed c w.clock)
include hq hforgets h hclock hallowed

theorem serve_ok (hfueled : request.Fueled q w.stores) : ∃ w', w.serve q c request = .ok w' := by
  cases request with
  | perform call =>
    obtain ⟨s, hs, -⟩ := h.perform hq hforgets hallowed
    exact ⟨_, by rw [World.serve, hs]; rfl⟩
  | respawn type spawnId =>
    obtain ⟨s, hs, -⟩ := h.respawn hq w.clock type spawnId
    exact ⟨_, by rw [World.serve, hs]; rfl⟩
  | processRespawns surroundings fuel =>
    have hcard : (w.stores.due q w.clock).card ≤ fuel :=
      ((Finset.card_filter_le _ _).trans (List.toFinset_card_le _)).trans hfueled
    have hends := processRespawns_ends hq hforgets hclock (fun n call hcall =>
      (hallowed n call hcall).1) h (fun n call hcall => (hallowed n call hcall).2) hcard
    rw [World.serve]
    cases hrun : w.stores.processRespawns q c w.clock surroundings fuel with
    | ok done => exact ⟨_, rfl⟩
    | error fault => exact (hends.may_of_error hrun).elim
  | unloadAllRespawnInfos =>
    obtain ⟨s, hs, -⟩ := h.unloadAllRespawnInfos hq
    exact ⟨_, by rw [World.serve, hs]; rfl⟩
  | tick elapsed => exact ⟨_, rfl⟩

theorem serve_keeps (hstep : w.serve q c request = .ok w') :
    Ok orders c [] w'.stores ∧ w'.clock < MAX_TIME := by
  cases request with
  | perform call =>
    obtain ⟨s, hs, hperformed⟩ := h.perform hq hforgets hallowed
    rw [World.serve, hs] at hstep
    cases hstep
    exact ⟨hperformed.ok, hclock⟩
  | respawn type spawnId =>
    obtain ⟨s, hs, hok⟩ := h.respawn hq w.clock type spawnId
    rw [World.serve, hs] at hstep
    cases hstep
    exact ⟨hok, hclock⟩
  | processRespawns surroundings fuel =>
    rw [World.serve] at hstep
    cases hrun : w.stores.processRespawns q c w.clock surroundings fuel with
    | error fault =>
      rw [hrun] at hstep
      cases hstep
    | ok done =>
      have hok := processed_ok hq hforgets hclock (fun n call hcall => (hallowed n call hcall).1) h
        hrun
      rw [hrun] at hstep
      cases hstep
      exact ⟨hok, hclock⟩
  | unloadAllRespawnInfos =>
    obtain ⟨s, hs, hok⟩ := h.unloadAllRespawnInfos hq
    rw [World.serve, hs] at hstep
    cases hstep
    exact ⟨hok, hclock⟩
  | tick elapsed =>
    cases hstep
    exact ⟨h, hallowed⟩

end

/-- The maps by spawn id and the heap have the same entries, a request is served without a fault,
and `ProcessRespawns` leaves nothing that is due. -/
theorem reachable_respawns_agree (hq : q.Contents) (hforgets : orders.Forgets)
    (h : (respawnSystem q c).Reachable w) :
    StoresRight q c [] w.stores ∧ ∀ request : RespawnRequest, request.Allowed c w.clock →
        (request.Fueled q w.stores → ∃ w', w.serve q c request = .ok w') ∧
        ∀ surroundings fuel w', request = .processRespawns surroundings fuel →
          w.serve q c request = .ok w' →
          Processed q c w.clock surroundings w.stores w'.stores := by
  obtain ⟨hok, hclock⟩ := h.invariant (fun w => Ok orders c [] w.stores ∧ w.clock < MAX_TIME)
    (fun w hinit => ok_initial hq hinit)
    fun request w w' hw hstep => serve_keeps hq hforgets hw.1 hw.2 hstep.1 hstep.2
  refine ⟨storesRight_of_ok hok, fun request hallowed =>
    ⟨serve_ok hq hforgets hok hclock hallowed, ?_⟩⟩
  rintro surroundings fuel w' rfl hstep
  obtain ⟨done, hrun, hstep⟩ := exists_of_bind_ok hstep
  cases hstep
  exact processed hq hforgets hclock (fun n call hcall => (hallowed n call hcall).1) hok hrun

/-- Calls from outside go through, one after the other; a respawn that none of them takes
away stays as it is, and none gets due but by a call that adds one that is. -/
theorem other_respawns_kept (hq : q.Contents) (hforgets : orders.Forgets)
    (h : (respawnSystem q c).Reachable w) (calls : List RespawnCall)
    (hknown : ∀ call ∈ calls, call.Known c) :
    ∃ s', w.stores.performAll q c calls = .ok s' ∧
      (∀ e, w.stores.entry e.type e.spawnId = some e → (∀ call ∈ calls, ¬ call.Displaces e) →
        s'.entry e.type e.spawnId = some e) ∧
      ∀ now, (∀ call ∈ calls, call.Future now) → s'.due q now ⊆ w.stores.due q now := by
  obtain ⟨hok, -⟩ := h.invariant (fun w => Ok orders c [] w.stores ∧ w.clock < MAX_TIME)
    (fun w hinit => ok_initial hq hinit)
    fun request w w' hw hstep => serve_keeps hq hforgets hw.1 hw.2 hstep.1 hstep.2
  obtain ⟨s', hs', hperformed⟩ := hok.performAll hq hforgets hknown
  exact ⟨s', hs', hperformed.kept, fun now => hperformed.due⟩

end Runs

/-! A map where game object 7 spawns, which brings creature 9 and drops creature 5. -/

def forest : MapContext where
  currentRealm := 1
  mapId := 0
  instanceable := false
  getSpawnData type spawnId := some ⟨type, spawnId, 0, 0⟩
  spawnData_key h := by
    cases h
    exact ⟨rfl, rfl⟩
  getLinkedRespawnGuid _ := .empty

def start : World (List Pointer) where
  clock := 0
  stores := ⟨fun _ => ⟨.creature, 0, 0, 0, 0⟩, fun _ => false, 0, [], fun _ => none, fun _ => none,
    fun _ _ => none, fun _ => (⟨.creature, 0, 0, 0, 0⟩ : RespawnInfo).key, []⟩

def World.after (w : World (List Pointer)) (request : RespawnRequest) : World (List Pointer) :=
  match w.serve listQueue forest request with
  | .ok w' => w'
  | .error _ => w

def bringing (calls : List RespawnCall) : Surroundings where
  isPartOfAPool _ _ := 0
  isSpawnGroupActive _ := true
  dynamicEscortNPC := false
  creatureBySpawnIdStore _ := []
  gameobjectBySpawnIdStore _ := 0
  isGridLoaded _ := true
  delay := ⟨5, by decide⟩
  calls := calls

theorem reachable_after {w : World (List Pointer)} {request : RespawnRequest}
    (h : (respawnSystem listQueue forest).Reachable w)
    (hallowed : request.Allowed forest w.clock) :
    (respawnSystem listQueue forest).Reachable (w.after request) := by
  unfold World.after
  split
  · rename_i w' hstep
    exact .step request h ⟨hallowed, hstep⟩
  · exact h

def waiting : World (List Pointer) :=
  ((start.after (.perform (.addRespawnInfo ⟨.creature, 5, 1, 10, 0⟩))).after
    (.perform (.addRespawnInfo ⟨.gameObject, 7, 2, 10, 0⟩))).after (.tick 10)

theorem reachable_waiting : (respawnSystem listQueue forest).Reachable waiting := by
  have hstart : (respawnSystem listQueue forest).Reachable start :=
    .init ⟨by decide, rfl, rfl, rfl, rfl, rfl⟩
  refine reachable_after (reachable_after (reachable_after hstart rfl) rfl) ?_
  unfold RespawnRequest.Allowed
  decide

theorem reachable_respawns_agree_brought :
    let request := RespawnRequest.processRespawns (fun _ => bringing
      [.addRespawnInfo ⟨.creature, 9, 3, 25, 0⟩, .removeRespawnTime .creature 5 false]) 2
    (∃ w', waiting.serve listQueue forest request = .ok w') ∧
      (waiting.after request).stores.entry .creature 5 = none ∧
      (waiting.after request).stores.entry .gameObject 7 = none ∧
      (waiting.after request).stores.entry .creature 9 = some ⟨.creature, 9, 3, 25, 0⟩ := by
  intro request
  have hallowed : request.Allowed forest waiting.clock := by
    intro n call hcall
    rcases List.mem_pair.mp hcall with rfl | rfl
    · refine ⟨rfl, ?_⟩
      unfold RespawnCall.Future
      decide
    · exact ⟨trivial, trivial⟩
  refine ⟨?_, by decide, by decide, by decide⟩
  refine ((reachable_respawns_agree listQueue_contents listQueue_forgets
    reachable_waiting).2 request hallowed).1 ?_
  unfold RespawnRequest.Fueled
  decide

/-- The removal of the creature's respawn leaves that of the game object. -/
theorem other_respawns_kept_removed : ∃ s', waiting.stores.performAll listQueue forest
    [.removeRespawnTime .creature 5 true] = .ok s' ∧
      s'.entry .gameObject 7 = some ⟨.gameObject, 7, 2, 10, 0⟩ := by
  obtain ⟨s', hs', hkept, -⟩ := other_respawns_kept listQueue_contents listQueue_forgets
    reachable_waiting [.removeRespawnTime .creature 5 true] (by simp [RespawnCall.Known])
  refine ⟨s', hs', hkept ⟨.gameObject, 7, 2, 10, 0⟩ (by decide) ?_⟩
  simp [RespawnCall.Displaces]

end LegionServer.Guarantees.RespawnAgreement
