import LegionServer.Library.Pruning
import LegionServer.Source.Instances.SavedScripts
import Mathlib.Data.List.GetD

/-!
# Encounters that are saved and loaded

A fresh instance of a script reads the resting boss states of the saved one and its values, of
which the doubles may be read as others.
-/
namespace LegionServer.Guarantees.SavedEncounters
open Library Source.Instances EncounterState InstanceScript List EncounterState
open Pruning

variable {D : Type} {texts : JsonTexts D} {s s' t : InstanceScript D} {i : Nat}

theorem isDone_iff : s.isDone i = true ↔ s.getBossState i = DONE := by
  rw [isDone, decide_eq_true_iff]

theorem lt_of_isDone (h : s.isDone i = true) : i < s.getEncounterCount := by
  rw [isDone_iff, getBossState] at h
  by_contra hle
  rw [getD_eq_default _ _ (Nat.not_lt.mp hle)] at h
  cases h

theorem getBossState_set (h : i < s.getEncounterCount) (state : EncounterState) (j : Nat) :
    ({ s with bosses := s.bosses.set i state } : InstanceScript D).getBossState j =
      if j = i then state else s.getBossState j := by
  rw [getBossState, getD_eq_getElem?_getD]
  split
  · rename_i heq
    rw [heq, getElem?_set_self h]
    rfl
  · rename_i hne
    rw [getElem?_set_ne fun hij => hne hij.symm, ← getD_eq_getElem?_getD, getBossState]

structure Repaired (s s' : InstanceScript D) : Prop where
  eq : s' = { s with bosses := s'.bosses }
  count : s'.getEncounterCount = s.getEncounterCount
  states : ∀ i, s'.getBossState i = s.getBossState i ∨
    (s.getBossState i = DONE ∧ s'.getBossState i = NOT_STARTED)

theorem Repaired.trans (h : Repaired s s') (h' : Repaired s' t) : Repaired s t := by
  refine ⟨?_, h'.count.trans h.count, fun i => ?_⟩
  · rw [h'.eq, h.eq]
  · rcases h'.states i with heq | ⟨hdone, hreset⟩
    · rw [heq]
      exact h.states i
    · rcases h.states i with heq | ⟨-, hreset'⟩
      · exact .inr ⟨heq ▸ hdone, hreset⟩
      · rw [hreset'] at hdone
        cases hdone

theorem resetUnreachedBoss_spec (s : InstanceScript D) (i : Nat) :
    Repaired s (s.resetUnreachedBoss i) ∧
      (s.resetUnreachedBoss i).isDone = prune s.checkRequiredBosses s.isDone i := by
  rw [resetUnreachedBoss, prune]
  split
  · rename_i hreset
    rw [Bool.and_eq_true] at hreset
    have hlt := lt_of_isDone hreset.1
    refine ⟨⟨rfl, length_set, fun j => ?_⟩, ?_⟩
    · rw [getBossState_set hlt]
      split
      · rename_i heq
        exact .inr ⟨heq ▸ isDone_iff.mp hreset.1, rfl⟩
      · exact .inl rfl
    · funext j
      rw [isDone, getBossState_set hlt, Function.update_apply]
      split
      · rfl
      · rfl
  · exact ⟨⟨rfl, rfl, fun _ => .inl rfl⟩, rfl⟩

theorem resetUnreached_spec (s : InstanceScript D) : Repaired s s.resetUnreached ∧
    s.resetUnreached.isDone = pass s.checkRequiredBosses s.getEncounterCount s.isDone := by
  rw [resetUnreached]
  induction s.getEncounterCount with
  | zero => exact ⟨⟨rfl, rfl, fun _ => .inl rfl⟩, rfl⟩
  | succ n ih =>
    obtain ⟨hrepaired, hdone⟩ := ih
    obtain ⟨hstep, hpruned⟩ := resetUnreachedBoss_spec ((range n).foldl resetUnreachedBoss s) n
    rw [range_succ, foldl_append, pass_succ, ← hdone]
    refine ⟨hrepaired.trans hstep, hpruned.trans ?_⟩
    rw [hrepaired.eq]

/-- Two scripts that differ in bosses only are the same where these have the same states. -/
theorem Repaired.eq_of_isDone (h : Repaired s s') (hdone : s'.isDone = s.isDone) : s' = s := by
  have hbosses : s'.bosses = s.bosses := by
    refine ext_getElem h.count fun i hi hi' => ?_
    have hstate := h.states i
    rw [← isDone_iff, ← hdone, isDone_iff] at hstate
    rcases hstate with hstate | ⟨hdone, hreset⟩
    · rw [getBossState, getBossState, getD_eq_getElem _ _ hi, getD_eq_getElem _ _ hi'] at hstate
      exact hstate
    · rw [hdone] at hreset
      cases hreset
  rw [h.eq, hbosses]

theorem values_resetUnreached (s : InstanceScript D) :
    s.resetUnreached.persistentScriptValues = s.persistentScriptValues := by
  rw [(resetUnreached_spec s).1.eq]

def readOf (s t : InstanceScript D) : InstanceScript D :=
  { s with
    bosses := t.bosses.map EncounterState.resting
    persistentScriptValues := t.persistentScriptValues }

def reread (texts : JsonTexts D) : SaveValue D → Option (SaveValue D)
  | .int64 v => some (.int64 v)
  | .double v => (texts.reread v).map .double

def rereadValues (texts : JsonTexts D) (values : List (String × SaveValue D)) :
    Option (List (String × SaveValue D)) :=
  values.mapM fun value => (reread texts value.2).map (value.1, ·)

section
variable {values values' : List (String × SaveValue D)}

theorem rereadValues_cons {value : String × SaveValue D} :
    rereadValues texts (value :: values) = (reread texts value.2).bind fun v =>
      (rereadValues texts values).map ((value.1, v) :: ·) := by
  rw [rereadValues, mapM_cons]
  cases reread texts value.2 with
  | none => rfl
  | some v => exact Option.map_eq_bind.symm

theorem names_of_rereadValues (h : rereadValues texts values = some values') :
    values'.map Prod.fst = values.map Prod.fst := by
  induction values generalizing values' with
  | nil =>
    cases h
    rfl
  | cons value values ih =>
    rw [rereadValues_cons, Option.bind_eq_some_iff] at h
    obtain ⟨v, -, hmap⟩ := h
    obtain ⟨rest, hrest, rfl⟩ := Option.map_eq_some_iff.mp hmap
    rw [map_cons, map_cons, ih hrest]

def Exact (texts : JsonTexts D) (values : List (String × SaveValue D)) : Prop :=
  ∀ name d, (name, .double d) ∈ values → texts.reread d = some d

theorem reread_eq_iff {v : SaveValue D} :
    reread texts v = some v ↔ ∀ d, v = .double d → texts.reread d = some d := by
  cases v with
  | int64 v => exact iff_of_true rfl nofun
  | double d =>
    rw [reread, Option.map_eq_some_iff]
    constructor
    · rintro ⟨d', hread, heq⟩ _ ⟨⟩
      cases heq
      exact hread
    · exact fun h => ⟨d, h d rfl, rfl⟩

theorem rereadValues_eq_iff : rereadValues texts values = some values ↔ Exact texts values := by
  induction values with
  | nil => exact iff_of_true rfl nofun
  | cons value values ih =>
    have hexact : Exact texts (value :: values) ↔
        (∀ d, value.2 = .double d → texts.reread d = some d) ∧ Exact texts values := by
      obtain ⟨name, v⟩ := value
      refine ⟨fun h => ⟨?_, fun name' d hmem => h name' d (mem_cons_of_mem _ hmem)⟩, ?_⟩
      · rintro d rfl
        exact h name d mem_cons_self
      · rintro ⟨hfirst, hrest⟩ name' d hmem
        rcases mem_cons.mp hmem with heq | hmem
        · cases heq
          exact hfirst d rfl
        · exact hrest name' d hmem
    rw [hexact, ← ih, ← reread_eq_iff, rereadValues_cons, Option.bind_eq_some_iff]
    constructor
    · rintro ⟨v, hv, hmap⟩
      obtain ⟨rest, hrest, heq⟩ := Option.map_eq_some_iff.mp hmap
      rw [cons.injEq] at heq
      obtain ⟨heq, rfl⟩ := heq
      exact ⟨heq ▸ hv, hrest⟩
    · rintro ⟨hv, hrest⟩
      exact ⟨_, hv, by rw [hrest]; rfl⟩

theorem mapDoubles_toJson (v : SaveValue D) :
    v.toJson.mapDoubles texts.reread = (reread texts v).map SaveValue.toJson := by
  cases v with
  | int64 v => rfl
  | double d =>
    rw [SaveValue.toJson, Json.mapDoubles, reread, Option.map_map]
    rfl

theorem mapMembers_values (values : List (String × SaveValue D)) :
    Json.mapMembers texts.reread (values.map fun value => (value.1, value.2.toJson)) =
      (rereadValues texts values).map (map fun value => (value.1, value.2.toJson)) := by
  induction values with
  | nil => rfl
  | cons value values ih =>
    rw [map_cons, Json.mapMembers, mapDoubles_toJson, ih, rereadValues_cons]
    cases reread texts value.2 with
    | none => rfl
    | some v =>
      cases rereadValues texts values with
      | none => rfl
      | some values' => rfl

end

theorem mapElements_states (texts : JsonTexts D) (states : List EncounterState) :
    Json.mapElements texts.reread (states.map fun state => .ofInt64 (Int64.ofInt state.toInt)) =
      some (states.map fun state => .ofInt64 (Int64.ofInt state.toInt)) := by
  induction states with
  | nil => rfl
  | cons state states ih =>
    rw [map_cons, Json.mapElements, ih]
    rfl

theorem fillData_cons {value : String × SaveValue D} {values : List (String × SaveValue D)}
    (h : t.persistentScriptValues = value :: values) :
    InstanceScriptDataWriter.fillData t true = .object [(HeadersKey, .string t.headers),
      (BossStatesSaveDataKey, .array (t.bosses.map fun state =>
        .ofInt64 (Int64.ofInt state.toInt))),
      (MoreSaveDataKey, .object ((value :: values).map fun value =>
        (value.1, value.2.toJson)))] := by
  rw [InstanceScriptDataWriter.fillData, h]
  rfl

/-- The document that is read of a script is that of the script with the values that are read. -/
theorem mapDoubles_fillData (t : InstanceScript D) :
    (InstanceScriptDataWriter.fillData t true).mapDoubles texts.reread =
      (rereadValues texts t.persistentScriptValues).map fun values =>
        InstanceScriptDataWriter.fillData { t with persistentScriptValues := values } true := by
  have hstates := mapElements_states texts t.bosses
  cases h : t.persistentScriptValues with
  | nil =>
    simp [InstanceScriptDataWriter.fillData, h, rereadValues, Json.mapDoubles, Json.mapMembers,
      hstates]
  | cons value values =>
    rw [fillData_cons h]
    simp only [Json.mapDoubles, Json.mapMembers, hstates, mapMembers_values]
    cases hread : rereadValues texts (value :: values) with
    | none => rfl
    | some values' =>
      have hlength := congrArg length (names_of_rereadValues hread)
      cases values' with
      | nil => cases hlength
      | cons value' values' => rfl

theorem load_getSaveData (texts : JsonTexts D) (hfresh : s.Fresh) (hsame : s.SameScript t)
    (hnames : (t.persistentScriptValues.map Prod.fst).Nodup) :
    InstanceScriptDataReader.load texts s (t.getSaveData texts) =
      match rereadValues texts t.persistentScriptValues with
      | none => .ok (.MalformedJson, s)
      | some values => .ok (.Ok, readOf s { t with persistentScriptValues := values }) := by
  rw [InstanceScriptDataReader.load, getSaveData, texts.reads, mapDoubles_fillData]
  cases hread : rereadValues texts t.persistentScriptValues with
  | none => rfl
  | some values =>
    have hsame' := names_of_rereadValues hread
    rw [← hsame'] at hnames
    exact InstanceScriptDataReader.loadDocument_withValues hfresh
      ⟨hsame.headers, hsame.count, hsame'.trans hsame.names, hsame.isUsingEncounterLocks,
        hsame.checkRequiredBosses⟩ hnames

/-- Where the doubles are read as they were printed, what is loaded is the saved script. -/
theorem load_of_exact (hfresh : s.Fresh) (hsame : s.SameScript t)
    (hnames : (t.persistentScriptValues.map Prod.fst).Nodup)
    (hexact : Exact texts t.persistentScriptValues) :
    InstanceScriptDataReader.load texts s (t.getSaveData texts) = .ok (.Ok, readOf s t) ∧
      s.load texts (t.getSaveData texts) = .ok (readOf s t).resetUnreached := by
  have hload := load_getSaveData texts hfresh hsame hnames
  rw [rereadValues_eq_iff.mpr hexact] at hload
  refine ⟨hload, ?_⟩
  rw [InstanceScript.load, hload]
  rfl

theorem getBossState_readOf (i : Nat) :
    (readOf s t).getBossState i = (t.getBossState i).resting := by
  exact getD_map t.bosses TO_BE_DECIDED resting (n := i)

theorem isDone_readOf : (readOf s t).isDone = t.isDone := by
  funext i
  rw [Bool.eq_iff_iff, isDone_iff, isDone_iff, getBossState_readOf, resting_eq_done]

def AtRest (t s' : InstanceScript D) (i : Nat) : Prop :=
  if t.getBossState i = TO_BE_DECIDED then s'.getBossState i = TO_BE_DECIDED
  else s'.getBossState i = NOT_STARTED ∨ s'.getBossState i = DONE

/-- The bosses of a script are in states of the enumeration. -/
def Enumerated (t : InstanceScript D) : Prop := ∀ i n, t.getBossState i ≠ .negative n

theorem atRest_load (s : InstanceScript D) (hstates : Enumerated t) (i : Nat) :
    AtRest t (readOf s t).resetUnreached i := by
  have hstate := (resetUnreached_spec (readOf s t)).1.states i
  rw [getBossState_readOf, resting_eq_done] at hstate
  rw [AtRest]
  split
  · rename_i hundecided
    rcases hstate with hstate | ⟨hdone, -⟩
    · rw [hstate, hundecided]
      rfl
    · rw [hdone] at hundecided
      cases hundecided
  · rename_i hdecided
    rcases hstate with hstate | ⟨-, hreset⟩
    · rw [hstate]
      rcases resting_cases (hstates i) with hresting | hresting | hresting
      · exact .inl hresting
      · exact .inr hresting
      · exact absurd (resting_eq_toBeDecided.mp hresting) hdecided
    · exact .inl hreset

/-- The saved data is read, and what is loaded is the saved script at rest, with the largest set of
bosses that are done and have their required bosses, and stays so when it is saved and loaded
again. -/
structure Restored (texts : JsonTexts D) (s t s' : InstanceScript D) : Prop where
  read : ∃ s₁, InstanceScriptDataReader.load texts s (t.getSaveData texts) = .ok (.Ok, s₁)
  loaded : s.load texts (t.getSaveData texts) = .ok s'
  values : s'.persistentScriptValues = t.persistentScriptValues
  bosses : ∀ i, AtRest t s' i
  done : IsGreatest {set | set ≤ t.isDone ∧ Consistent s.checkRequiredBosses set} s'.isDone
  again : s.load texts (s'.getSaveData texts) = .ok s'

theorem AtRest.resting (h : AtRest t s i) : (s.getBossState i).resting = s.getBossState i := by
  rw [AtRest] at h
  split at h
  · rw [h]
    rfl
  rcases h with h | h
  · rw [h]
    rfl
  · rw [h]
    rfl

section
variable (hfresh : s.Fresh) (hsame : s.SameScript t)
  (hnames : (t.persistentScriptValues.map Prod.fst).Nodup)
include hfresh hsame hnames

/-- What is saved of a read state reads as that state. -/
theorem load_again (hstates : Enumerated t) (hexact : Exact texts t.persistentScriptValues)
    (hcheck : Monotone s.checkRequiredBosses)
    (hdone : Consistent s.checkRequiredBosses (readOf s t).resetUnreached.isDone) :
    s.load texts ((readOf s t).resetUnreached.getSaveData texts) =
      .ok (readOf s t).resetUnreached := by
  have hrepaired := (resetUnreached_spec (readOf s t)).1
  have hrest := atRest_load s hstates
  generalize (readOf s t).resetUnreached = s' at hdone hrepaired hrest
  have hvalues : s'.persistentScriptValues = t.persistentScriptValues := by
    rw [hrepaired.eq]
    rfl
  have hcheck' : s'.checkRequiredBosses = s.checkRequiredBosses := by
    rw [hrepaired.eq]
    rfl
  have hsame' : s.SameScript s' := by
    refine ⟨?_, ?_, ?_, ?_, hcheck'⟩
    · rw [hrepaired.eq]
      rfl
    · rw [hrepaired.count, ← hsame.count]
      exact length_map _
    · rw [hvalues, hsame.names]
    · rw [hrepaired.eq]
      rfl
  have hread : readOf s s' = s' := by
    have hbosses : s'.bosses.map resting = s'.bosses := by
      refine ext_getElem (length_map _) fun i hi hi' => ?_
      have hresting := (hrest i).resting
      rw [getBossState, getD_eq_getElem _ _ hi'] at hresting
      rw [getElem_map, hresting]
    rw [readOf, hbosses, hvalues, hrepaired.eq]
    rfl
  rw [(load_of_exact hfresh hsame' (hvalues ▸ hnames) (hvalues ▸ hexact)).2, hread]
  obtain ⟨hagain, hpass⟩ := resetUnreached_spec s'
  rw [hcheck', pass_consistent hcheck hdone] at hpass
  rw [hagain.eq_of_isDone hpass]

/-- Only values whose doubles are read as they were printed are restored. -/
theorem Restored.exact (h : Restored texts s t s') : Exact texts t.persistentScriptValues := by
  obtain ⟨s₁, hread⟩ := h.read
  have hload := load_getSaveData texts hfresh hsame hnames
  rw [← rereadValues_eq_iff]
  cases hvalues : rereadValues texts t.persistentScriptValues with
  | none =>
    rw [hvalues, hread] at hload
    cases hload
  | some values =>
    rw [hvalues] at hload
    have hloaded := h.loaded
    rw [InstanceScript.load, hload] at hloaded
    cases hloaded
    have hsame := h.values
    rw [values_resetUnreached] at hsame
    exact congrArg some hsame

/-- A load restores what was saved just where the doubles are read as they were printed, and each
boss outside of the largest set fails its check with the bosses of the set and the saved ones from
it on done. -/
theorem restored_iff (hstates : Enumerated t) (hcheck : Monotone s.checkRequiredBosses) :
    (∃ s', Restored texts s t s') ↔ Exact texts t.persistentScriptValues ∧
      ∀ i, t.isDone i = true → largest s.checkRequiredBosses t.isDone i = false →
        s.checkRequiredBosses
          (withLater (largest s.checkRequiredBosses t.isDone) t.isDone i) i = false := by
  have hcount : ∀ i, t.isDone i = true → i < (readOf s t).getEncounterCount := by
    intro i hi
    rw [getEncounterCount, readOf, length_map]
    exact lt_of_isDone hi
  have hpass := (resetUnreached_spec (readOf s t)).2
  rw [isDone_readOf] at hpass
  rw [← pass_eq_largest_iff hcheck hcount]
  have hlargest := isGreatest_largest hcheck t.isDone
  constructor
  · rintro ⟨s', hrestored⟩
    have hexact := hrestored.exact hfresh hsame hnames
    have hloaded := hrestored.loaded
    rw [(load_of_exact hfresh hsame hnames hexact).2] at hloaded
    cases hloaded
    exact ⟨hexact, hpass.symm.trans (hrestored.done.unique hlargest)⟩
  · rintro ⟨hexact, heq⟩
    have hdone := hpass.trans heq
    obtain ⟨hread, hload⟩ := load_of_exact hfresh hsame hnames hexact
    exact ⟨_, ⟨_, hread⟩, hload, values_resetUnreached (readOf s t), atRest_load s hstates,
      hdone ▸ hlargest,
      load_again hfresh hsame hnames hstates hexact hcheck (hdone ▸ hlargest.1.2)⟩

end

def threeBosses (requires : Nat → Option Nat) (bosses : List EncounterState) :
    InstanceScript JsonInteger where
  headers := "BRD"
  bosses := bosses
  persistentScriptValues := [("Kills", .int64 3), ("Health", .double ⟨7, by decide, by decide⟩)]
  isUsingEncounterLocks := false
  checkRequiredBosses done id := (requires id).all done
  hasLivingWorldBossMinion _ := false

section
variable (requires : Nat → Option Nat)

theorem monotone_threeBosses (bosses : List EncounterState) :
    Monotone (threeBosses requires bosses).checkRequiredBosses := by
  intro done done' hle id
  change (requires id).all done ≤ (requires id).all done'
  cases requires id with
  | none => exact le_refl true
  | some required => exact hle required

theorem fresh_threeBosses :
    (threeBosses requires (List.replicate 3 TO_BE_DECIDED)).Fresh := fun _ h =>
  eq_of_mem_replicate h

theorem nodup_threeBosses (bosses : List EncounterState) :
    ((threeBosses requires bosses).persistentScriptValues.map Prod.fst).Nodup := by
  change ["Kills", "Health"].Nodup
  decide

theorem enumerated_of_mem {t : InstanceScript D} (h : ∀ n, .negative n ∉ t.bosses) :
    Enumerated t := by
  intro i n hstate
  rw [getBossState, getD_eq_getElem?_getD] at hstate
  cases hboss : t.bosses[i]? with
  | none =>
    rw [hboss] at hstate
    cases hstate
  | some state =>
    rw [hboss] at hstate
    exact h n (hstate ▸ mem_of_getElem? hboss)

end

def ascending : List EncounterState → InstanceScript JsonInteger :=
  threeBosses fun id => if id = 0 then none else some (id - 1)

/-- Doubles that are whole numbers, of which those from `2 ^ 53` on are too big. -/
def wholeTexts : JsonTexts JsonInteger :=
  JsonText.texts id fun i => if i.value < 2 ^ 53 then some i else none

theorem restored_iff_ascending :
    (∃ s', Restored wholeTexts (ascending (List.replicate 3 TO_BE_DECIDED))
        (ascending [NOT_STARTED, DONE, DONE]) s') ↔
      Exact wholeTexts (ascending [NOT_STARTED, DONE, DONE]).persistentScriptValues ∧
      ∀ i, (ascending [NOT_STARTED, DONE, DONE]).isDone i = true →
        largest (ascending []).checkRequiredBosses
          (ascending [NOT_STARTED, DONE, DONE]).isDone i = false →
        (ascending []).checkRequiredBosses (withLater (largest (ascending []).checkRequiredBosses
            (ascending [NOT_STARTED, DONE, DONE]).isDone)
            (ascending [NOT_STARTED, DONE, DONE]).isDone i) i = false :=
  restored_iff (fresh_threeBosses _) ⟨rfl, rfl, rfl, rfl, rfl⟩ (nodup_threeBosses _ _)
    (enumerated_of_mem fun n => by simp [ascending, threeBosses]) (monotone_threeBosses _ _)

def AlwaysRestored : Prop := ∀ (D : Type) (codec : JsonCodec D) (s t : InstanceScript D), s.Fresh →
  s.SameScript t → (t.persistentScriptValues.map Prod.fst).Nodup → Enumerated t →
    Monotone s.checkRequiredBosses → ∃ s', Restored codec s t s'

def descending : List EncounterState → InstanceScript JsonInteger :=
  threeBosses fun id => some (id + 1)

/-- Doubles that are whole numbers, all of which are read. -/
def wholeCodec : JsonCodec JsonInteger where
  toJsonTexts := JsonText.texts id some
  reread_eq _ := rfl

/-- Of three bosses the first two are done, and the first is found before the second is reset. -/
theorem not_alwaysRestored : ¬AlwaysRestored := by
  intro halways
  have hsame : (descending (replicate 3 TO_BE_DECIDED)).SameScript
      (descending [DONE, DONE, NOT_STARTED]) := ⟨rfl, rfl, rfl, rfl, rfl⟩
  obtain ⟨s', hrestored⟩ := halways JsonInteger wholeCodec _ _ (fresh_threeBosses _) hsame
    (nodup_threeBosses _ _) (enumerated_of_mem fun n => by simp [descending, threeBosses])
    (monotone_threeBosses _ _)
  have hloaded := hrestored.loaded
  rw [(load_of_exact (fresh_threeBosses _) hsame (nodup_threeBosses _ _)
    fun _ _ _ => rfl).2] at hloaded
  cases hloaded
  exact absurd (hrestored.done.1.2 0 (by decide)) (by decide)

end LegionServer.Guarantees.SavedEncounters
