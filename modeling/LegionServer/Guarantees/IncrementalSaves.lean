import LegionServer.Source.Instances.SavedScripts

/-!
# Saves that are updated

Under encounter locks saved data is updated for one boss or one value at a time.
-/
namespace LegionServer.Guarantees.IncrementalSaves
open Library Source.Instances EncounterState InstanceScript List Json
open InstanceScriptDataReader InstanceScriptDataWriter

variable {D : Type} {codec : JsonCodec D} {s s' t : InstanceScript D} {data : String}
  {doc : Json D}

inductive SaveEvent (D : Type) where
  | bossState (event : UpdateBossStateSaveDataEvent)
  | additional (event : UpdateAdditionalSaveDataEvent D)

structure SaveUpdate (D : Type) where
  script : InstanceScript D
  event : SaveEvent D

variable {update : SaveUpdate D} {updates : List (SaveUpdate D)}

def SaveUpdate.run (codec : JsonCodec D) (data : String) (update : SaveUpdate D) : String :=
  match update.event with
  | .bossState event => update.script.updateBossStateSaveData codec data event
  | .additional event => update.script.updateAdditionalSaveData codec data event

def SaveEvent.write (doc : Json D) : SaveEvent D → Json D
  | .bossState event => setBossState doc event
  | .additional event => setAdditionalData doc event

def SaveEvent.isAdditional : SaveEvent D → Prop
  | .bossState _ => False
  | .additional _ => True

/-- What an event says of a script: the state of a boss or the values of a key. -/
def overwrite (s : InstanceScript D) : SaveEvent D → InstanceScript D
  | .bossState event => { s with bosses := s.bosses.set event.bossId event.newState.resting }
  | .additional event =>
    { s with persistentScriptValues := s.persistentScriptValues.map fun value =>
        if value.1 = event.key then (value.1, event.value) else value }

/-- What old data denotes: what is read of it, and no boss started where it is no document. -/
def Denotes (codec : JsonCodec D) (s : InstanceScript D) (data : String)
    (s' : InstanceScript D) : Prop :=
  (codec.parse data = none ∧
      s' = { s with bosses := List.replicate s.getEncounterCount NOT_STARTED }) ∨
    InstanceScriptDataReader.load codec s data = .ok (.Ok, s')

structure Updates (s : InstanceScript D) (updates : List (SaveUpdate D)) : Prop where
  same : ∀ update ∈ updates, s.SameScript update.script
  bosses : ∀ update ∈ updates, ∀ event, update.event = .bossState event →
    event.bossId < s.getEncounterCount

/-- After the updates the data is read, as what the old data denotes overwritten by them. -/
def Overwritten (codec : JsonCodec D) (s denoted : InstanceScript D) (data : String)
    (updates : List (SaveUpdate D)) : Prop :=
  InstanceScriptDataReader.load codec s (updates.foldl (SaveUpdate.run codec) data) =
    .ok (.Ok, (updates.map SaveUpdate.event).foldl overwrite denoted)

theorem run_eq (hlocks : update.script.isUsingEncounterLocks = true) :
    update.run codec data =
      codec.print (update.event.write (fillDataFrom codec update.script data)) := by
  rw [SaveUpdate.run]
  cases update.event with
  | bossState event =>
    simp only [updateBossStateSaveData, hlocks]
    rfl
  | additional event =>
    simp only [updateAdditionalSaveData, hlocks]
    rfl

theorem load_print :
    InstanceScriptDataReader.load codec s (codec.print doc) = loadDocument s doc := by
  rw [InstanceScriptDataReader.load, codec.parse_print]

theorem fillDataFrom_print : fillDataFrom codec s (codec.print doc) = doc := by
  rw [fillDataFrom, codec.parse_print]

theorem loadDocument_fillDataFrom (hfresh : s.Fresh) (hsame : s.SameScript t)
    (hdenotes : Denotes codec s data s') :
    loadDocument s (fillDataFrom codec t data) = .ok (.Ok, s') := by
  rcases hdenotes with ⟨hparse, rfl⟩ | hload
  · rw [fillDataFrom, hparse]
    exact loadDocument_withoutValues hfresh hsame
  rw [InstanceScriptDataReader.load] at hload
  cases hparse : codec.parse data with
  | none =>
    rw [hparse] at hload
    cases hload
  | some doc =>
    rw [hparse] at hload
    rw [fillDataFrom, hparse]
    exact hload

theorem parseValue_changed (moreData : List (String × Json D)) (key : String) (v : SaveValue D)
    {value found : String × SaveValue D} (hname : found.1 = value.1)
    (hfound : parseValue moreData value = .ok (some found.2)) :
    parseValue (Json.changeMember key (fun _ => v.toJson) moreData) value =
      .ok (some (if found.1 = key then (found.1, v) else found).2) := by
  split
  · rename_i hkey
    refine parseValue_toJson ?_
    rw [← hname, hkey, findMember_changeMember]
  · rename_i hkey
    rw [← hfound, parseValue, parseValue,
      findMember_changeMember_of_ne _ fun heq => hkey (hname.trans heq)]

theorem parseValues_changed {moreData : List (String × Json D)}
    (event : UpdateAdditionalSaveDataEvent D)
    (hvalues : parseValues s moreData [] s.persistentScriptValues = .ok (.Ok, s')) :
    parseValues s (Json.changeMember event.key (fun _ => event.value.toJson) moreData) []
      s.persistentScriptValues = .ok (.Ok, overwrite s' (.additional event)) := by
  obtain ⟨found, hfound, rfl⟩ := parseValues_eq_ok.mp hvalues
  refine parseValues_eq_ok.mpr ⟨found.map fun value =>
    if value.1 = event.key then (value.1, event.value) else value, ?_, rfl⟩
  refine forall₂_map_right_iff.mpr (hfound.imp ?_)
  rintro value v ⟨hname, hread⟩
  refine ⟨?_, parseValue_changed moreData event.key event.value hname hread⟩
  rw [← hname]
  split
  · rfl
  · rfl

/-- Values that are not there are read as none. -/
theorem parseValues_nil : parseValues s [] [] s.persistentScriptValues = .ok (.Ok, s) :=
  parseValues_eq_ok.mpr ⟨_, List.forall₂_same.mpr fun _ _ => ⟨rfl, rfl⟩, rfl⟩

theorem setAdditionalData_read (event : UpdateAdditionalSaveDataEvent D)
    (hread : loadDocument s doc = .ok (.Ok, s')) :
    loadDocument s (setAdditionalData doc event) = .ok (.Ok, overwrite s' (.additional event)) := by
  rw [loadDocument_eq_ok] at hread ⊢
  obtain ⟨members, s₁, rfl, hheader, hbosses, hvalues⟩ := hread
  refine ⟨_, s₁, rfl, ?_, ?_, ?_⟩
  · rw [← hheader, parseHeader, parseHeader, findMember_changeMember_of_ne _ (by decide)]
  · rw [← hbosses, parseBossStates, parseBossStates, findMember_changeMember_of_ne _ (by decide)]
  · rw [parseAdditionalData] at hvalues
    rw [parseAdditionalData, findMember_changeMember]
    split at hvalues
    · rename_i hnone
      cases hvalues
      rw [hnone]
      exact parseValues_changed event parseValues_nil
    · rename_i moreData hmore
      rw [hmore]
      exact parseValues_changed event hvalues
    · cases hvalues

/-- The boss states of a document are an object. -/
def Spoiled (doc : Json D) : Prop := ∃ members bosses, doc = .object members ∧
  Json.findMember BossStatesSaveDataKey members = some (.object bosses)

theorem Spoiled.rejected (h : Spoiled doc) : loadDocument s doc ≠ .ok (.Ok, s') := by
  intro hread
  obtain ⟨members, bosses, rfl, hspoiled⟩ := h
  obtain ⟨members', s₁, hmembers, -, hbosses, -⟩ := loadDocument_eq_ok.mp hread
  cases hmembers
  rw [parseBossStates, hspoiled] at hbosses
  cases hbosses

theorem toString_ne_end (n : Nat) : toString n ≠ "-" := by
  intro heq
  have hform : ∀ d < 16, Numerals.digitValue (id d.digitChar) = d := fun d hd =>
    Numerals.digitValue_digitChar hd
  have hdigits := Numerals.isDigit_of_mem_toDigits (by decide : 1 < 10) (by decide) hform n
  have hlist : Nat.toDigits 10 n = ['-'] := by
    rw [← Nat.toList_repr, ← Nat.toString_eq_repr, heq]
    rfl
  rw [map_id, hlist] at hdigits
  exact absurd (hdigits '-' mem_cons_self) (by decide)

theorem setByPointer_single {name : String} (hname : name ≠ "-") (v j : Json D) :
    ∃ members, Json.setByPointer [name] v j = .object members := by
  cases j with
  | array elements =>
    rw [setByPointer, if_neg hname]
    exact ⟨_, rfl⟩
  | _ => exact ⟨_, rfl⟩

theorem setBossState_spoils (event : UpdateBossStateSaveDataEvent)
    {members : List (String × Json D)} : Spoiled (setBossState (.object members) event) := by
  obtain ⟨bosses, hbosses⟩ := setByPointer_single (toString_ne_end event.bossId)
    (.ofInt64 (Int64.ofInt event.newState.toInt))
    ((findMember BossStatesSaveDataKey members).getD .null)
  refine ⟨_, bosses, rfl, ?_⟩
  rw [findMember_changeMember, hbosses]

theorem Spoiled.write (h : Spoiled doc) (event : SaveEvent D) : Spoiled (event.write doc) := by
  obtain ⟨members, bosses, rfl, hspoiled⟩ := h
  cases event with
  | bossState event => exact setBossState_spoils event
  | additional event =>
    refine ⟨_, bosses, rfl, ?_⟩
    rw [findMember_changeMember_of_ne _ (by decide), hspoiled]

theorem foldl_run_print (hlocks : ∀ update ∈ updates, update.script.isUsingEncounterLocks = true) :
    updates.foldl (SaveUpdate.run codec) (codec.print doc) =
      codec.print ((updates.map SaveUpdate.event).foldl SaveEvent.write doc) := by
  induction updates generalizing doc with
  | nil => rfl
  | cons update updates ih =>
    rw [foldl_cons, run_eq (hlocks update mem_cons_self), fillDataFrom_print,
      ih fun update hupdate => hlocks update (mem_cons_of_mem _ hupdate)]
    rfl

theorem spoiled_foldl {events : List (SaveEvent D)} (h : Spoiled doc) :
    Spoiled (events.foldl SaveEvent.write doc) := by
  induction events generalizing doc with
  | nil => exact h
  | cons event events ih => exact ih (h.write event)

theorem foldl_write (events : List (SaveEvent D)) (hread : loadDocument s doc = .ok (.Ok, s')) :
    loadDocument s (events.foldl SaveEvent.write doc) =
        .ok (.Ok, events.foldl overwrite s') ↔ ∀ event ∈ events, event.isAdditional := by
  induction events generalizing doc s' with
  | nil =>
    refine ⟨fun _ _ hmem => ?_, fun _ => hread⟩
    cases hmem
  | cons event events ih =>
    rw [foldl_cons, foldl_cons, forall_mem_cons]
    cases event with
    | bossState event =>
      refine ⟨fun h => ?_, fun h => h.1.elim⟩
      obtain ⟨members, -, rfl, -⟩ := loadDocument_eq_ok.mp hread
      exact absurd h (spoiled_foldl (setBossState_spoils event)).rejected
    | additional event =>
      rw [and_iff_right (show (SaveEvent.additional event).isAdditional from trivial)]
      exact ih (setAdditionalData_read event hread)

/-- The final data is read, as what the old data denotes with the listed bosses and keys
overwritten, just where no boss is listed and there is a document. -/
theorem overwritten_iff (hfresh : s.Fresh) (hlocks : s.isUsingEncounterLocks = true)
    (hdenotes : Denotes codec s data s') (hupdates : Updates s updates) :
    Overwritten codec s s' data updates ↔ (∀ update ∈ updates, update.event.isAdditional) ∧
        (updates ≠ [] ∨ codec.parse data ≠ none) := by
  have hlocks : ∀ update ∈ updates, update.script.isUsingEncounterLocks = true :=
    fun update hupdate => (hupdates.same update hupdate).isUsingEncounterLocks.trans hlocks
  rw [Overwritten]
  cases updates with
  | nil =>
    have hnil : ∀ update ∈ ([] : List (SaveUpdate D)), update.event.isAdditional := nofun
    rw [and_iff_right hnil, or_iff_right (not_not.mpr rfl)]
    rcases hdenotes with ⟨hparse, -⟩ | hload
    · refine ⟨fun h => ?_, fun h => absurd hparse h⟩
      rw [foldl_nil, InstanceScriptDataReader.load, hparse] at h
      cases h
    · refine ⟨fun _ hparse => ?_, fun _ => hload⟩
      rw [InstanceScriptDataReader.load, hparse] at hload
      cases hload
  | cons update updates =>
    have hread := loadDocument_fillDataFrom hfresh (hupdates.same update mem_cons_self) hdenotes
    rw [foldl_cons, run_eq (hlocks update mem_cons_self),
      foldl_run_print fun update hupdate => hlocks update (mem_cons_of_mem _ hupdate),
      load_print]
    have hiff := foldl_write ((update :: updates).map SaveUpdate.event) hread
    rw [forall_mem_map] at hiff
    rw [and_iff_left (.inl (cons_ne_nil _ _))]
    exact hiff

def oneBoss : InstanceScript Empty where
  headers := "RFC"
  bosses := [TO_BE_DECIDED]
  persistentScriptValues := [("Kills", .int64 0)]
  isUsingEncounterLocks := true
  checkRequiredBosses _ _ := true
  hasLivingWorldBossMinion _ := false

theorem fresh_oneBoss : oneBoss.Fresh := fun _ h => List.mem_singleton.mp h

theorem sameScript_refl (s : InstanceScript D) : s.SameScript s := ⟨rfl, rfl, rfl, rfl, rfl⟩

theorem overwritten_iff_oneBoss :
    Overwritten JsonText.codec oneBoss
        { oneBoss with bosses := List.replicate oneBoss.getEncounterCount NOT_STARTED } ""
        [⟨oneBoss, .additional ⟨"Kills", .int64 3⟩⟩] ↔
      (∀ update ∈ [(⟨oneBoss, .additional ⟨"Kills", .int64 3⟩⟩ : SaveUpdate Empty)],
        update.event.isAdditional) ∧
        ([(⟨oneBoss, .additional ⟨"Kills", .int64 3⟩⟩ : SaveUpdate Empty)] ≠ [] ∨
          JsonText.codec.parse "" ≠ none) := by
  refine overwritten_iff fresh_oneBoss rfl (.inl ⟨JsonText.codec.parse_empty, rfl⟩) ⟨?_, ?_⟩
  · rintro _ (_ | ⟨_, ⟨⟩⟩)
    exact sameScript_refl oneBoss
  · rintro _ (_ | ⟨_, ⟨⟩⟩) event hevent
    cases hevent

def AlwaysOverwritten : Prop := ∀ (D : Type) (codec : JsonCodec D) (s denoted : InstanceScript D)
  (data : String) (updates : List (SaveUpdate D)), s.Fresh → s.isUsingEncounterLocks = true →
    Denotes codec s data denoted → Updates s updates → Overwritten codec s denoted data updates

/-- The first kill is saved in data that is never read again. -/
theorem not_alwaysOverwritten : ¬AlwaysOverwritten := by
  intro halways
  have hover := halways Empty JsonText.codec oneBoss _ "" [⟨oneBoss, .bossState ⟨0, DONE⟩⟩]
    fresh_oneBoss rfl (.inl ⟨JsonText.codec.parse_empty, rfl⟩) ⟨by
      rintro _ (_ | ⟨_, ⟨⟩⟩)
      exact sameScript_refl oneBoss, by
      rintro _ (_ | ⟨_, ⟨⟩⟩) event hevent
      cases hevent
      exact Nat.zero_lt_one⟩
  rw [Overwritten, foldl_cons, foldl_nil, run_eq rfl, load_print] at hover
  exact (setBossState_spoils _).rejected hover

end LegionServer.Guarantees.IncrementalSaves
