import LegionServer.Library.Json
import Mathlib.Data.List.Forall2

/-!
# Saved data of instance scripts

`InstanceScriptDataReader` and `InstanceScriptDataWriter` (`InstanceScriptData.cpp:29-270`) with the
parts of `InstanceScript` that they use (`InstanceScript.cpp:374-553`). What `SetBossState` does to
players, doors and spawn groups is left out, and so are the locations of the log. Texts of JSON
documents are a parameter.
-/
namespace LegionServer.Source.Instances
open Library List

inductive EncounterState where
  | NOT_STARTED
  | IN_PROGRESS
  | FAIL
  | DONE
  | SPECIAL
  | TO_BE_DECIDED
  /-- A number below those of the states, which saved data may hold: `-(n + 1)`. -/
  | negative (n : Fin (2 ^ 31))
  deriving DecidableEq, Repr

open EncounterState

namespace EncounterState

def toInt : EncounterState → Int
  | NOT_STARTED => 0
  | IN_PROGRESS => 1
  | FAIL => 2
  | DONE => 3
  | SPECIAL => 4
  | TO_BE_DECIDED => 5
  | negative n => .negSucc n

end EncounterState

/-- `std::variant<int64, double>` -/
inductive SaveValue (D : Type) where
  | int64 (v : Int64)
  | double (v : D)
  deriving DecidableEq, Repr

def SaveValue.toJson {D : Type} : SaveValue D → Json D
  | .int64 v => .ofInt64 v
  | .double v => .double v

structure UpdateBossStateSaveDataEvent where
  bossId : Nat
  newState : EncounterState
  deriving DecidableEq, Repr

structure UpdateAdditionalSaveDataEvent (D : Type) where
  key : String
  value : SaveValue D
  deriving DecidableEq, Repr

/-- `RAPIDJSON_ASSERT` -/
inductive JsonFault where
  | assertion
  deriving DecidableEq, Repr

/-- `InstanceScriptDataReader::Result` -/
inductive LoadResult where
  | Ok
  | MalformedJson
  | RootIsNotAnObject
  | MissingHeader
  | UnexpectedHeader
  | MissingBossStates
  | BossStatesIsNotAnObject
  | UnknownBoss
  | BossStateIsNotAnObject
  | AdditionalDataIsNotAnObject
  | AdditionalDataUnexpectedValueType
  deriving DecidableEq, Repr

def HeadersKey : String := "Header"
def BossStatesSaveDataKey : String := "BossStates"
def MoreSaveDataKey : String := "AdditionalData"

variable {D : Type}

structure InstanceScript (D : Type) where
  headers : String
  bosses : List EncounterState
  /-- `_persistentScriptValues` with their names -/
  persistentScriptValues : List (String × SaveValue D)
  /-- `IsUsingEncounterLocks` of the difficulty -/
  isUsingEncounterLocks : Bool
  /-- `CheckRequiredBosses`, told which bosses are done -/
  checkRequiredBosses : (Nat → Bool) → Nat → Bool
  /-- the boss has a living minion that is a world boss -/
  hasLivingWorldBossMinion : Nat → Bool

namespace InstanceScript

def getEncounterCount (s : InstanceScript D) : Nat := s.bosses.length

def getBossState (s : InstanceScript D) (id : Nat) : EncounterState :=
  s.bosses.getD id TO_BE_DECIDED

def isDone (s : InstanceScript D) (id : Nat) : Bool := s.getBossState id = DONE

def setBossState (s : InstanceScript D) (id : Nat) (state : EncounterState) : InstanceScript D :=
  if s.getEncounterCount ≤ id then s
  else if s.getBossState id = TO_BE_DECIDED then { s with bosses := s.bosses.set id state }
  else if s.getBossState id = state then s
  else if s.getBossState id = DONE then s
  else if state = DONE ∧ s.hasLivingWorldBossMinion id = true then s
  else { s with bosses := s.bosses.set id state }

end InstanceScript

namespace InstanceScriptDataReader

def parseHeader (s : InstanceScript D) (doc : List (String × Json D)) : LoadResult :=
  match Json.findMember HeadersKey doc with
  | none => .MissingHeader
  | some (.string header) => if header = s.headers then .Ok else .UnexpectedHeader
  | some _ => .UnexpectedHeader

def isNumber : Json D → Bool
  | .integer _ => true
  | .double _ => true
  | _ => false

def getInt : Json D → Except JsonFault Int
  | .integer i => if -2 ^ 31 ≤ i.value ∧ i.value < 2 ^ 31 then .ok i.value else .error .assertion
  | _ => .error .assertion

/-- What is set of a number: states in which an encounter does not rest are not started. Numbers
that are not less than `TO_BE_DECIDED` are not set; the comparison is signed. -/
def restingState (state : Int) : Option EncounterState :=
  let state := if state = IN_PROGRESS.toInt ∨ state = FAIL.toInt ∨ state = SPECIAL.toInt then
    NOT_STARTED.toInt else state
  if state = NOT_STARTED.toInt then some NOT_STARTED
  else if state = DONE.toInt then some DONE
  else
    match state with
    | .ofNat _ => none
    | .negSucc n => if h : n < 2 ^ 31 then some (.negative ⟨n, h⟩) else none

/-- The elements of the array of boss states from an id on. -/
def parseBossStatesFrom (s : InstanceScript D) (bossId : Nat) : List (Json D) →
    Except JsonFault (LoadResult × InstanceScript D)
  | [] => .ok (.Ok, s)
  | bossState :: bossStates =>
    if s.getEncounterCount ≤ bossId then .ok (.UnknownBoss, s)
    else if !isNumber bossState then .ok (.BossStateIsNotAnObject, s)
    else do
      let state ← getInt bossState
      let s := match restingState state with
        | some state => s.setBossState bossId state
        | none => s
      parseBossStatesFrom s (bossId + 1) bossStates

def parseBossStates (s : InstanceScript D) (doc : List (String × Json D)) :
    Except JsonFault (LoadResult × InstanceScript D) :=
  match Json.findMember BossStatesSaveDataKey doc with
  | none => .ok (.MissingBossStates, s)
  | some (.array bossStates) => parseBossStatesFrom s 0 bossStates
  | some _ => .ok (.BossStatesIsNotAnObject, s)

/-- What is loaded for one persistent value: its value as it is where there is nothing to load,
none where what is there is no number. -/
def parseValue (moreData : List (String × Json D)) (value : String × SaveValue D) :
    Except JsonFault (Option (SaveValue D)) :=
  match Json.findMember value.1 moreData with
  | none => .ok (some value.2)
  | some .null => .ok (some value.2)
  | some (.double v) => .ok (some (.double v))
  | some (.integer i) =>
    if i.value < 2 ^ 63 then .ok (some (.int64 (Int64.ofInt i.value))) else .error .assertion
  | some _ => .ok none

/-- The loop over the persistent values, of which the first ones are loaded. -/
def parseValues (s : InstanceScript D) (moreData : List (String × Json D))
    (loaded : List (String × SaveValue D)) : List (String × SaveValue D) →
    Except JsonFault (LoadResult × InstanceScript D)
  | [] => .ok (.Ok, { s with persistentScriptValues := loaded })
  | value :: values => do
    match ← parseValue moreData value with
    | none => .ok (.AdditionalDataUnexpectedValueType,
        { s with persistentScriptValues := loaded ++ value :: values })
    | some v => parseValues s moreData (loaded ++ [(value.1, v)]) values

def parseAdditionalData (s : InstanceScript D) (doc : List (String × Json D)) :
    Except JsonFault (LoadResult × InstanceScript D) :=
  match Json.findMember MoreSaveDataKey doc with
  | none => .ok (.Ok, s)
  | some (.object moreData) => parseValues s moreData [] s.persistentScriptValues
  | some _ => .ok (.AdditionalDataIsNotAnObject, s)

def loadDocument (s : InstanceScript D) (doc : Json D) :
    Except JsonFault (LoadResult × InstanceScript D) :=
  match doc with
  | .object doc =>
    if parseHeader s doc ≠ .Ok then .ok (parseHeader s doc, s)
    else do
      let (result, s) ← parseBossStates s doc
      if result ≠ .Ok then .ok (result, s) else parseAdditionalData s doc
  | _ => .ok (.RootIsNotAnObject, s)

def load (texts : JsonTexts D) (s : InstanceScript D) (data : String) :
    Except JsonFault (LoadResult × InstanceScript D) :=
  match texts.parse data with
  | none => .ok (.MalformedJson, s)
  | some doc => loadDocument s doc

end InstanceScriptDataReader

namespace InstanceScriptDataWriter

def fillData (s : InstanceScript D) (withValues : Bool) : Json D :=
  .object ([(HeadersKey, .string s.headers),
      (BossStatesSaveDataKey, .array (s.bosses.map fun state =>
        .ofInt64 (Int64.ofInt (if withValues then state else NOT_STARTED).toInt)))] ++
    if s.persistentScriptValues.isEmpty then []
    else [(MoreSaveDataKey, .object (s.persistentScriptValues.map fun value =>
      (value.1, if withValues then value.2.toJson else .null)))])

def fillDataFrom (texts : JsonTexts D) (s : InstanceScript D) (data : String) : Json D :=
  match texts.parse data with
  | none => fillData s false
  | some doc => doc

/-- `SetBossState`: a pointer of two names. -/
def setBossState (doc : Json D) (data : UpdateBossStateSaveDataEvent) : Json D :=
  Json.setByPointer [BossStatesSaveDataKey, toString data.bossId]
    (.ofInt64 (Int64.ofInt data.newState.toInt)) doc

/-- `SetAdditionalData`: a pointer of two names. -/
def setAdditionalData (doc : Json D) (data : UpdateAdditionalSaveDataEvent D) : Json D :=
  Json.setByPointer [MoreSaveDataKey, data.key] data.value.toJson doc

end InstanceScriptDataWriter

namespace InstanceScript

/-- A boss that is done without its required bosses is not started. -/
def resetUnreachedBoss (s : InstanceScript D) (i : Nat) : InstanceScript D :=
  if s.isDone i && !s.checkRequiredBosses s.isDone i then
    { s with bosses := s.bosses.set i NOT_STARTED }
  else s

/-- The repair after a load, in ascending order. -/
def resetUnreached (s : InstanceScript D) : InstanceScript D :=
  (List.range s.getEncounterCount).foldl resetUnreachedBoss s

def load (texts : JsonTexts D) (s : InstanceScript D) (data : String) :
    Except JsonFault (InstanceScript D) := do
  let (result, s) ← InstanceScriptDataReader.load texts s data
  if result = .Ok then .ok s.resetUnreached else .ok s

def getSaveData (texts : JsonTexts D) (s : InstanceScript D) : String :=
  texts.print (InstanceScriptDataWriter.fillData s true)

def updateBossStateSaveData (texts : JsonTexts D) (s : InstanceScript D) (oldData : String)
    (event : UpdateBossStateSaveDataEvent) : String :=
  if !s.isUsingEncounterLocks then s.getSaveData texts
  else texts.print (InstanceScriptDataWriter.setBossState
    (InstanceScriptDataWriter.fillDataFrom texts s oldData) event)

def updateAdditionalSaveData (texts : JsonTexts D) (s : InstanceScript D) (oldData : String)
    (event : UpdateAdditionalSaveDataEvent D) : String :=
  if !s.isUsingEncounterLocks then s.getSaveData texts
  else texts.print (InstanceScriptDataWriter.setAdditionalData
    (InstanceScriptDataWriter.fillDataFrom texts s oldData) event)

end InstanceScript

/-!
# What the reader makes of written data

A fresh script reads what a script with the same header, bosses and values has filled in.
-/

variable {s s' t : InstanceScript D} {doc : Json D} {members : List (String × Json D)}

/-- What stays of a state in an encounter that does not run. -/
def EncounterState.resting (state : EncounterState) : EncounterState :=
  (InstanceScriptDataReader.restingState state.toInt).getD TO_BE_DECIDED

namespace EncounterState

theorem resting_negative (n : Fin (2 ^ 31)) : (negative n).resting = .negative n := by
  rw [resting, InstanceScriptDataReader.restingState]
  simp [toInt]

variable {state : EncounterState}

theorem resting_cases (h : ∀ n, state ≠ .negative n) :
    state.resting = NOT_STARTED ∨ state.resting = DONE ∨ state.resting = TO_BE_DECIDED := by
  cases state with
  | negative n => exact absurd rfl (h n)
  | _ => decide

theorem resting_eq_done : state.resting = DONE ↔ state = DONE := by
  cases state with
  | negative n => rw [resting_negative]
  | _ => decide

theorem resting_eq_toBeDecided : state.resting = TO_BE_DECIDED ↔ state = TO_BE_DECIDED := by
  cases state with
  | negative n => rw [resting_negative]
  | _ => decide

end EncounterState

namespace InstanceScript

def Fresh (s : InstanceScript D) : Prop := ∀ state ∈ s.bosses, state = TO_BE_DECIDED

theorem Fresh.eq_replicate (h : s.Fresh) :
    s.bosses = List.replicate s.getEncounterCount TO_BE_DECIDED :=
  List.eq_replicate_iff.mpr ⟨rfl, h⟩

structure SameScript (s t : InstanceScript D) : Prop where
  headers : t.headers = s.headers
  count : t.getEncounterCount = s.getEncounterCount
  names : t.persistentScriptValues.map Prod.fst = s.persistentScriptValues.map Prod.fst
  isUsingEncounterLocks : t.isUsingEncounterLocks = s.isUsingEncounterLocks
  checkRequiredBosses : t.checkRequiredBosses = s.checkRequiredBosses

end InstanceScript

namespace InstanceScriptDataReader
open InstanceScript

theorem getInt_ofInt64 (state : EncounterState) :
    getInt (D := D) (.ofInt64 (Int64.ofInt state.toInt)) = .ok state.toInt := by
  cases state with
  | negative n =>
    have hn := n.isLt
    have hvalue : (Int64.ofInt (negative n).toInt).toInt = (negative n).toInt :=
      Int64.toInt_ofInt_of_le (by simp only [toInt]; omega) (by simp only [toInt]; omega)
    simp only [getInt, Json.ofInt64, hvalue]
    exact if_pos (by simp only [toInt]; omega)
  | _ => rfl

/-- The reader sets boss after boss of those not decided. -/
theorem parseBossStatesFrom_states (decided states : List EncounterState)
    (hs : s.bosses = decided ++ List.replicate states.length TO_BE_DECIDED) :
    parseBossStatesFrom s decided.length
        (states.map fun state => .ofInt64 (Int64.ofInt state.toInt)) =
      .ok (.Ok, { s with bosses := decided ++ states.map EncounterState.resting }) := by
  induction states generalizing s decided with
  | nil =>
    rw [length_nil, replicate_zero] at hs
    rw [map_nil, map_nil, parseBossStatesFrom, ← hs]
  | cons state states ih =>
    have hid : decided.length < s.getEncounterCount := by
      rw [getEncounterCount, hs, length_append, length_replicate, length_cons]
      omega
    have hstate : s.getBossState decided.length = TO_BE_DECIDED := by
      rw [getBossState, hs, length_cons, replicate_succ]
      simp
    have hset : ∀ new, s.setBossState decided.length new = { s with
        bosses := decided ++ new :: replicate states.length TO_BE_DECIDED } := by
      intro new
      rw [setBossState, if_neg (by omega), if_pos hstate, hs, length_cons,
        replicate_succ, set_append_right _ _ (Nat.le_refl _), Nat.sub_self,
        set_cons_zero]
    have hread : (match restingState state.toInt with
        | some state => s.setBossState decided.length state
        | none => s) = { s with
          bosses := decided ++ state.resting :: replicate states.length TO_BE_DECIDED } := by
      rw [resting]
      cases restingState state.toInt with
      | none =>
        rw [Option.getD_none, ← replicate_succ, ← length_cons (a := state), ← hs]
      | some state => exact hset state
    have hrest := ih (s := { s with
      bosses := decided ++ state.resting :: replicate states.length TO_BE_DECIDED })
      (decided ++ [state.resting]) (by rw [append_assoc]; rfl)
    rw [length_append, length_singleton, append_assoc] at hrest
    rw [map_cons, parseBossStatesFrom, if_neg (by omega), getInt_ofInt64]
    change (if (!true) = true then _ else parseBossStatesFrom (match restingState state.toInt with
        | some state => s.setBossState decided.length state
        | none => s) (decided.length + 1) _) = _
    rw [hread, if_neg (by decide)]
    exact hrest

variable {moreData : List (String × Json D)}

theorem parseValues_eq_ok {loaded values : List (String × SaveValue D)} :
    parseValues s moreData loaded values = .ok (.Ok, s') ↔
      ∃ found, List.Forall₂ (fun value v => v.1 = value.1 ∧
          parseValue moreData value = .ok (some v.2)) values found ∧
        s' = { s with persistentScriptValues := loaded ++ found } := by
  induction values generalizing loaded with
  | nil =>
    rw [parseValues]
    constructor
    · intro h
      cases h
      exact ⟨[], .nil, by rw [append_nil]⟩
    · rintro ⟨found, hfound, rfl⟩
      cases hfound
      rw [append_nil]
  | cons value values ih =>
    rw [parseValues]
    constructor
    · intro h
      cases hvalue : parseValue moreData value with
      | error fault =>
        rw [hvalue] at h
        cases h
      | ok result =>
        rw [hvalue] at h
        cases result with
        | none => cases h
        | some v =>
          obtain ⟨found, hfound, rfl⟩ := ih.mp h
          exact ⟨(value.1, v) :: found, .cons ⟨rfl, hvalue⟩ hfound, by rw [append_assoc]; rfl⟩
    · rintro ⟨found, hfound, rfl⟩
      cases hfound with
      | @cons _ v _ found hv hfound =>
        obtain ⟨hname, hvalue⟩ := hv
        rw [hvalue]
        refine ih.mpr ⟨found, hfound, ?_⟩
        rw [append_assoc, ← hname]
        rfl

theorem parseValue_toJson {value : String × SaveValue D} {v : SaveValue D}
    (h : Json.findMember value.1 moreData = some v.toJson) :
    parseValue moreData value = .ok (some v) := by
  rw [parseValue, h]
  cases v with
  | int64 v =>
    simp only [SaveValue.toJson, Json.ofInt64]
    rw [if_pos v.toInt_lt, Int64.ofInt_toInt]
  | double v => rfl

theorem loadDocument_eq_ok : loadDocument s doc = .ok (.Ok, s') ↔
    ∃ members s₁, doc = .object members ∧ parseHeader s members = .Ok ∧
      parseBossStates s members = .ok (.Ok, s₁) ∧
        parseAdditionalData s₁ members = .ok (.Ok, s') := by
  constructor
  · intro h
    cases doc with
    | object members =>
      rw [loadDocument] at h
      split at h
      · rename_i hheader
        exact absurd (Prod.mk.inj (Except.ok.inj h)).1 hheader
      rename_i hheader
      cases hbosses : parseBossStates s members with
      | error fault =>
        rw [hbosses] at h
        cases h
      | ok result =>
        obtain ⟨result, s₁⟩ := result
        simp only [hbosses, bind, Except.bind] at h
        split at h
        · rename_i hresult
          cases h
          contradiction
        · rename_i hresult
          rw [Decidable.not_not] at hresult
          exact ⟨members, s₁, rfl, Decidable.not_not.mp hheader, hresult ▸ hbosses, h⟩
    | _ => cases h
  · rintro ⟨members, s₁, rfl, hheader, hbosses, hvalues⟩
    rw [loadDocument, if_neg (not_not.mpr hheader), hbosses]
    exact hvalues

theorem parseBossStates_fillData (withValues : Bool) (hfresh : s.Fresh)
    (hcount : t.getEncounterCount = s.getEncounterCount)
    (h : Json.findMember BossStatesSaveDataKey members = some (.array (t.bosses.map fun state =>
      .ofInt64 (Int64.ofInt (if withValues then state else NOT_STARTED).toInt)))) :
    parseBossStates s members = .ok (.Ok, { s with
      bosses := t.bosses.map fun state =>
        (if withValues then state else NOT_STARTED).resting }) := by
  have hs : s.bosses = [] ++ replicate (t.bosses.map fun state =>
      if withValues then state else NOT_STARTED).length TO_BE_DECIDED := by
    rw [nil_append, length_map, hfresh.eq_replicate, ← hcount]
    rfl
  have hread := parseBossStatesFrom_states [] _ hs
  rw [map_map, map_map] at hread
  rw [parseBossStates, h]
  exact hread

theorem loadDocument_fillData (withValues : Bool) (hfresh : s.Fresh) (hsame : s.SameScript t)
    {found : List (String × SaveValue D)}
    (hfound : List.Forall₂ (fun value v => v.1 = value.1 ∧
      parseValue (t.persistentScriptValues.map fun value =>
        (value.1, if withValues then value.2.toJson else .null)) value = .ok (some v.2))
      s.persistentScriptValues found) :
    loadDocument s (InstanceScriptDataWriter.fillData t withValues) = .ok (.Ok, { s with
      bosses := t.bosses.map fun state => (if withValues then state else NOT_STARTED).resting
      persistentScriptValues := found }) := by
  rw [loadDocument_eq_ok]
  refine ⟨_, _, rfl, ?_, parseBossStates_fillData withValues hfresh hsame.count rfl, ?_⟩
  · change (if t.headers = s.headers then LoadResult.Ok else .UnexpectedHeader) = _
    rw [if_pos hsame.headers]
  · have hnames := congrArg length hsame.names
    rw [length_map, length_map] at hnames
    cases hvalues : t.persistentScriptValues with
    | nil =>
      rw [hvalues, length_nil] at hnames
      rw [length_eq_zero_iff.mp hnames.symm] at hfound
      cases hfound
      change Except.ok (LoadResult.Ok, _) = _
      rw [length_eq_zero_iff.mp hnames.symm]
    | cons value values =>
      rw [hvalues] at hfound
      exact parseValues_eq_ok.mpr ⟨found, hfound, rfl⟩

theorem parseValue_nulls (values : List (String × SaveValue D)) (value : String × SaveValue D) :
    parseValue (values.map fun value => (value.1, (Json.null : Json D))) value =
      .ok (some value.2) := by
  have hnull : Json.findMember value.1 (values.map fun value => (value.1, (Json.null : Json D))) =
      none ∨ Json.findMember value.1 (values.map fun value => (value.1, (Json.null : Json D))) =
        some .null := by
    induction values with
    | nil => exact .inl rfl
    | cons value values ih =>
      rw [map_cons, Json.findMember]
      split
      · exact .inr rfl
      · exact ih
  rw [parseValue]
  rcases hnull with hnone | hnull
  · rw [hnone]
  · rw [hnull]

theorem loadDocument_withoutValues (hfresh : s.Fresh) (hsame : s.SameScript t) :
    loadDocument s (InstanceScriptDataWriter.fillData t false) =
      .ok (.Ok, { s with bosses := List.replicate s.getEncounterCount NOT_STARTED }) := by
  have hfound := loadDocument_fillData false hfresh hsame (forall₂_same.mpr fun value _ =>
      ⟨rfl, parseValue_nulls t.persistentScriptValues value⟩)
  have hbosses : t.bosses.map (fun state =>
      (if false = true then state else NOT_STARTED).resting) =
      replicate s.getEncounterCount NOT_STARTED := by
    rw [← hsame.count]
    exact map_const' ..
  rw [hfound, hbosses]

theorem loadDocument_withValues (hfresh : s.Fresh) (hsame : s.SameScript t)
    (hnames : (t.persistentScriptValues.map Prod.fst).Nodup) :
    loadDocument s (InstanceScriptDataWriter.fillData t true) = .ok (.Ok, { s with
      bosses := t.bosses.map EncounterState.resting
      persistentScriptValues := t.persistentScriptValues }) := by
  have hpairs : List.Forall₂ (fun (v value : String × SaveValue D) => v.1 = value.1)
      t.persistentScriptValues s.persistentScriptValues := by
    rw [← forall₂_map_right_iff, ← forall₂_map_left_iff, forall₂_eq_eq_eq]
    exact hsame.names
  have hread : ∀ v ∈ t.persistentScriptValues, Json.findMember v.1
      (t.persistentScriptValues.map fun value => (value.1, value.2.toJson)) = some v.2.toJson :=
    fun v hv => Json.findMember_map (fun value => (value.1, value.2.toJson)) _ hnames hv
  refine loadDocument_fillData true hfresh hsame
    (List.Forall₂.flip (((forall₂_and_left _ _).mpr ⟨hread, hpairs⟩).imp ?_))
  rintro v value ⟨hv, hname⟩
  exact ⟨hname, parseValue_toJson (hname ▸ hv)⟩

end InstanceScriptDataReader

end LegionServer.Source.Instances
