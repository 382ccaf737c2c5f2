import LegionServer.Source.Chat.ChannelMgr

/-!
# Custom channels by name

The registry of custom channels after a start of the server and any creations.
-/
namespace LegionServer.Guarantees.ChannelNames
open Library.KeyedRows Source.Common Source.Chat List Function Option ChannelMgr

variable {mgr : ChannelMgr} {key : WString} {channel : CustomChannel} {name : List UInt8}
  {config : ChannelConfig}

/-- Channels are found, and refused a second time, by their folded names. -/
structure FoundByName (mgr : ChannelMgr) : Prop where
  getCustomChannel : ∀ name, Utf8.isValid name = true → ∀ channel,
    mgr.getCustomChannel name = some channel ↔
      channel ∈ mgr.custom ∧ foldedName channel.name = foldedName name
  getChannel : ∀ name, Utf8.isValid name = true → ∀ notify zoneEntry channel,
    (mgr.getChannel 0 name notify zoneEntry).1 = some channel ↔
      channel ∈ mgr.custom ∧ foldedName channel.name = foldedName name
  unique : (mgr.custom.map fun channel => foldedName channel.name).Nodup
  createCustomChannel : ∀ name, Utf8.isValid name = true →
    ((mgr.createCustomChannel name).2 = none ↔
      ∃ channel ∈ mgr.custom, foldedName channel.name = foldedName name)

def Folded (mgr : ChannelMgr) : Prop :=
  ∀ entry ∈ mgr.customChannels, foldedName entry.2.name = some entry.1

/-- No key twice, and every channel under its name or its folded name. -/
structure Spelled (mgr : ChannelMgr) : Prop where
  distinct : (mgr.customChannels.map Prod.fst).Nodup
  spelling : ∀ entry ∈ mgr.customChannels, ∃ wide, utf8toWStr entry.2.name = some wide ∧
    (entry.1 = wide ∨ entry.1 = wstrToLower wide)

variable {wide : WString}

theorem foldedName_of_wide (h : utf8toWStr name = some wide) :
    foldedName name = some (wstrToLower wide) := by
  rw [foldedName, h, map_some]

theorem isSome_foldedName : (foldedName name).isSome = Utf8.isValid name := by
  rw [foldedName, isSome_map, isSome_utf8toWStr]

theorem find_eq_some (h : Spelled mgr) :
    mgr.find key = some channel ↔ (key, channel) ∈ mgr.customChannels := by
  rw [find, map_eq_some_iff]
  constructor
  · intro hfound
    obtain ⟨entry, hrow, hchannel⟩ := hfound
    have hkey := key_rowOf hrow
    rw [← hkey, ← hchannel]
    exact mem_rowOf hrow
  · intro hmem
    exact ⟨(key, channel), rowOf_of_mem h.distinct hmem, rfl⟩

theorem Spelled.insert (h : Spelled mgr) (hnew : mgr.find key = none)
    {wide : WString} (hwide : utf8toWStr channel.name = some wide)
    (hkey : key = wide ∨ key = wstrToLower wide) : Spelled (mgr.insert key channel) where
  distinct := by
    rw [customChannels_insert, map_append, map_singleton, nodup_append]
    refine ⟨h.distinct, nodup_singleton _, ?_⟩
    intro other hother last hlast hsame
    rw [mem_singleton] at hlast
    rw [hsame, hlast] at hother
    exact mgr.find_eq_none.mp hnew hother
  spelling := by
    intro entry hentry
    rw [customChannels_insert, mem_append, mem_singleton] at hentry
    cases hentry with
    | inl hold => exact h.spelling entry hold
    | inr hlast => exact ⟨wide, by rw [hlast]; exact hwide, by rw [hlast]; exact hkey⟩

theorem Spelled.loadRow (h : Spelled mgr) {row : ChannelRow} {wide : WString}
    (hwide : utf8toWStr row.name = some wide) : Spelled (mgr.loadRow row wide) := by
  unfold ChannelMgr.loadRow
  cases hfind : mgr.find wide with
  | some found => exact h
  | none => exact h.insert hfind hwide (Or.inl rfl)

theorem Spelled.createCustomChannel (h : Spelled mgr) (name : List UInt8) :
    Spelled (mgr.createCustomChannel name).1 := by
  unfold ChannelMgr.createCustomChannel
  cases hwide : utf8toWStr name with
  | none => exact h
  | some wide =>
    dsimp only
    cases hfind : mgr.find (wstrToLower wide) with
    | some found => exact h
    | none => exact h.insert hfind hwide (Or.inr rfl)

/-- Where all keys are folded, names are found. -/
theorem Folded.foundByName (hspelled : Spelled mgr) (h : Folded mgr) : FoundByName mgr := by
  have hmem : ∀ channel folded, (folded, channel) ∈ mgr.customChannels ↔
      channel ∈ mgr.custom ∧ foldedName channel.name = some folded := by
    intro channel folded
    constructor
    · intro hentry
      exact ⟨mem_map_of_mem (f := Prod.snd) hentry, h _ hentry⟩
    · intro hfolded
      obtain ⟨entry, hentry, hchannel⟩ := mem_map.mp hfolded.1
      have hkey := h entry hentry
      rw [hchannel, hfolded.2, Option.some.injEq] at hkey
      rw [hkey, ← hchannel]
      exact hentry
  have hget : ∀ name, Utf8.isValid name = true → ∀ channel,
      mgr.getCustomChannel name = some channel ↔
        channel ∈ mgr.custom ∧ foldedName channel.name = foldedName name := by
    intro name hvalid channel
    rw [← isSome_foldedName] at hvalid
    obtain ⟨folded, hfolded⟩ := isSome_iff_exists.mp hvalid
    rw [getCustomChannel_eq, hfolded, bind_some, find_eq_some hspelled, hmem]
  refine ⟨hget, ?_, ?_, ?_⟩
  · intro name hvalid notify zoneEntry channel
    rw [getChannel_zero]
    exact hget name hvalid channel
  · have hkeys : (mgr.custom.map fun channel => foldedName channel.name) =
        (mgr.customChannels.map Prod.fst).map some := by
      rw [custom, List.map_map, List.map_map]
      exact List.map_congr_left h
    rw [hkeys]
    exact hspelled.distinct.map fun _ _ => Option.some.inj
  · intro name hvalid
    have hcreate : (mgr.createCustomChannel name).2 = none ↔
        ∃ channel, mgr.getCustomChannel name = some channel := by
      have hwide : (utf8toWStr name).isSome = true := by rw [isSome_utf8toWStr, hvalid]
      obtain ⟨wide, hwide⟩ := isSome_iff_exists.mp hwide
      simp only [createCustomChannel, ChannelMgr.getCustomChannel, hwide]
      cases mgr.find (wstrToLower wide) <;> simp
    rw [hcreate]
    exact exists_congr fun channel => hget name hvalid channel

/-- Only then: a channel under another key is missed, or shares its name with the channel
that is found. -/
theorem folded_of_foundByName (hspelled : Spelled mgr) (h : FoundByName mgr) : Folded mgr := by
  intro entry hentry
  obtain ⟨wide, hwide, hkey⟩ := hspelled.spelling entry hentry
  have hfolded := foldedName_of_wide hwide
  have hvalid : Utf8.isValid entry.2.name = true := by
    rw [← isSome_utf8toWStr, hwide, isSome_some]
  have hget := (h.getCustomChannel _ hvalid entry.2).mpr
    ⟨mem_map_of_mem (f := Prod.snd) hentry, rfl⟩
  rw [getCustomChannel_eq, hfolded, bind_some, find_eq_some hspelled] at hget
  -- The channel stands under its folded name too; the two entries are one.
  have hsame : entry = (wstrToLower wide, entry.2) := by
    have hinjective := inj_on_of_nodup_map (f := Prod.snd) (l := mgr.customChannels)
      (h.unique.of_map _)
    exact hinjective hentry hget rfl
  rw [hfolded, hsame]

theorem foundByName_iff (h : Spelled mgr) : FoundByName mgr ↔ Folded mgr :=
  ⟨folded_of_foundByName h, Folded.foundByName h⟩

/-- A row that `LoadFromDB` keeps, with its manager and its wide name. -/
def Kept (config : ChannelConfig) (row : ChannelRow) (side : ChannelSide) (wide : WString) : Prop :=
  utf8toWStr row.name = some wide ∧ forTeam config row.team = some side

theorem spelled_startingMgrs (side : ChannelSide) : Spelled (startingMgrs config side) := by
  cases side <;> exact ⟨nodup_nil, fun _ hmem => (not_mem_nil hmem).elim⟩

theorem loadStep_cases (config : ChannelConfig) (loaded : ChannelMgrs × List ChannelRow)
    (row : ChannelRow) :
    ((loadStep config loaded row).1 = loaded.1 ∧ ∀ side wide, ¬Kept config row side wide) ∨
      ∃ side wide, Kept config row side wide ∧ (loadStep config loaded row).1 =
        Function.update loaded.1 side ((loaded.1 side).loadRow row wide) := by
  unfold loadStep Kept
  cases hwide : utf8toWStr row.name with
  | none => exact Or.inl ⟨rfl, by simp⟩
  | some wide =>
    cases hside : forTeam config row.team with
    | none => exact Or.inl ⟨rfl, by simp⟩
    | some side => exact Or.inr ⟨side, wide, ⟨rfl, rfl⟩, rfl⟩

variable {motive : ChannelSide → ChannelMgr → Prop} {rows : List ChannelRow}
  {loaded : ChannelMgrs × List ChannelRow}

theorem foldl_loadStep (hstart : ∀ side, motive side (loaded.1 side))
    (hstep : ∀ row ∈ rows, ∀ side wide mgr, Kept config row side wide → motive side mgr →
      motive side (mgr.loadRow row wide)) :
    ∀ side, motive side ((rows.foldl (loadStep config) loaded).1 side) := by
  induction rows generalizing loaded with
  | nil => exact hstart
  | cons row rows ih =>
    apply ih
    · intro side
      obtain ⟨hsame, -⟩ | ⟨changed, wide, hkept, hupdate⟩ := loadStep_cases config loaded row
      · rw [hsame]
        exact hstart side
      rw [hupdate]
      by_cases hside : side = changed
      · subst hside
        rw [update_self]
        exact hstep row mem_cons_self side wide _ hkept (hstart side)
      · rw [update_of_ne hside]
        exact hstart side
    · intro other hother
      exact hstep other (mem_cons_of_mem row hother)

theorem foldl_createForTeam {creations : List (UInt32 × List UInt8)} {mgrs : ChannelMgrs}
    (hstart : ∀ side, motive side (mgrs side))
    (hstep : ∀ name side mgr, motive side mgr → motive side (mgr.createCustomChannel name).1) :
    ∀ side, motive side (creations.foldl (createForTeam config) mgrs side) := by
  induction creations generalizing mgrs with
  | nil => exact hstart
  | cons creation creations ih =>
    apply ih
    intro side
    unfold createForTeam
    cases forTeam config creation.1 with
    | none => exact hstart side
    | some changed =>
      dsimp only
      by_cases hside : side = changed
      · subst hside
        rw [update_self]
        exact hstep creation.2 side _ (hstart side)
      · rw [update_of_ne hside]
        exact hstart side

theorem spelled_channelRun (config : ChannelConfig) (preserve : Bool) (rows : List ChannelRow)
    (creations : List (UInt32 × List UInt8)) (side : ChannelSide) :
    Spelled (channelRun config preserve rows creations side) := by
  apply foldl_createForTeam (motive := fun _ => Spelled)
  · cases preserve with
    | false => exact spelled_startingMgrs
    | true =>
      apply foldl_loadStep (motive := fun _ => Spelled)
      · exact spelled_startingMgrs
      · exact fun _ _ _ _ _ hkept h => h.loadRow hkept.1
  · exact fun name _ _ h => h.createCustomChannel name

theorem Folded.insert (h : Folded mgr) (hkey : foldedName channel.name = some key) :
    Folded (mgr.insert key channel) := by
  intro entry hentry
  rw [customChannels_insert, mem_append, mem_singleton] at hentry
  cases hentry with
  | inl hold => exact h entry hold
  | inr hlast => rw [hlast]; exact hkey

theorem Folded.createCustomChannel (h : Folded mgr) (name : List UInt8) :
    Folded (mgr.createCustomChannel name).1 := by
  unfold ChannelMgr.createCustomChannel
  cases hwide : utf8toWStr name with
  | none => exact h
  | some wide =>
    dsimp only
    cases mgr.find (wstrToLower wide) with
    | some found => exact h
    | none => exact h.insert (foldedName_of_wide hwide)

theorem folded_channelRun {preserve : Bool} (creations : List (UInt32 × List UInt8))
    (h : preserve = true → ∀ row ∈ rows, ∀ side wide, Kept config row side wide →
      wstrToLower wide = wide)
    (side : ChannelSide) : Folded (channelRun config preserve rows creations side) := by
  have hstart : ∀ side, Folded (startingMgrs config side) := by
    intro side
    cases side <;> exact fun _ hmem => (not_mem_nil hmem).elim
  apply foldl_createForTeam (motive := fun _ => Folded)
  · cases preserve with
    | false => exact hstart
    | true =>
      apply foldl_loadStep (motive := fun _ => Folded)
      · exact hstart
      intro row hrow side wide mgr hkept hfolded
      unfold loadRow
      cases mgr.find wide with
      | some found => exact hfolded
      | none =>
        apply hfolded.insert
        rw [foldedName_of_wide hkept.1, h rfl row hrow side wide hkept]
  · exact fun name _ _ hfolded => hfolded.createCustomChannel name

def Stored (wide : WString) (mgr : ChannelMgr) : Prop :=
  ∃ channel, (wide, channel) ∈ mgr.customChannels ∧ utf8toWStr channel.name = some wide

theorem Stored.insert {wide : WString} (h : Stored wide mgr) :
    Stored wide (mgr.insert key channel) := by
  obtain ⟨stored, hmem, hname⟩ := h
  exact ⟨stored, mem_append_left _ hmem, hname⟩

theorem Stored.loadRow {wide : WString} (h : Stored wide mgr) (row : ChannelRow)
    (other : WString) : Stored wide (mgr.loadRow row other) := by
  unfold ChannelMgr.loadRow
  cases mgr.find other with
  | some found => exact h
  | none => exact h.insert

theorem Stored.createCustomChannel {wide : WString} (h : Stored wide mgr)
    (name : List UInt8) : Stored wide (mgr.createCustomChannel name).1 := by
  unfold ChannelMgr.createCustomChannel
  cases utf8toWStr name with
  | none => exact h
  | some other =>
    dsimp only
    cases mgr.find (wstrToLower other) with
    | some found => exact h
    | none => exact h.insert

/-- While the rows are loaded, every channel stands under its own name. -/
def Unfolded (mgr : ChannelMgr) : Prop :=
  ∀ entry ∈ mgr.customChannels, utf8toWStr entry.2.name = some entry.1

theorem Unfolded.loadRow {row : ChannelRow} {wide : WString} (h : Unfolded mgr)
    (hwide : utf8toWStr row.name = some wide) : Unfolded (mgr.loadRow row wide) := by
  unfold ChannelMgr.loadRow
  cases mgr.find wide with
  | some found => exact h
  | none =>
    intro entry hentry
    rw [customChannels_insert, mem_append, mem_singleton] at hentry
    cases hentry with
    | inl hold => exact h entry hold
    | inr hlast => rw [hlast]; exact hwide

variable {row : ChannelRow}

theorem Unfolded.stored_loadRow (h : Unfolded mgr) (hwide : utf8toWStr row.name = some wide) :
    Stored wide (mgr.loadRow row wide) := by
  unfold ChannelMgr.loadRow
  cases hfind : mgr.find wide with
  | none => exact ⟨_, mem_append_right _ (mem_singleton_self _), hwide⟩
  | some found =>
    rw [find, map_eq_some_iff] at hfind
    obtain ⟨entry, hrow, -⟩ := hfind
    have hmem := mem_rowOf hrow
    have hkey := key_rowOf hrow
    refine ⟨entry.2, ?_, ?_⟩
    · rw [← hkey]
      exact hmem
    · rw [← hkey]
      exact h entry hmem

theorem stored_of_kept (hloaded : ∀ side, Unfolded (loaded.1 side)) (hrow : row ∈ rows)
    {side : ChannelSide} (hkept : Kept config row side wide) :
    Stored wide ((rows.foldl (loadStep config) loaded).1 side) := by
  obtain ⟨before, after, rfl⟩ := append_of_mem hrow
  rw [foldl_append, foldl_cons]
  have hbefore : ∀ side, Unfolded ((before.foldl (loadStep config) loaded).1 side) :=
    foldl_loadStep (motive := fun _ => Unfolded) hloaded
      fun _ _ _ _ _ hkept h => h.loadRow hkept.1
  -- The row itself, then the rows after it, which remove nothing.
  have hself : Stored wide
      ((loadStep config (before.foldl (loadStep config) loaded) row).1 side) := by
    have hstep : (loadStep config (before.foldl (loadStep config) loaded) row).1 side =
        ((before.foldl (loadStep config) loaded).1 side).loadRow row wide := by
      simp only [loadStep, hkept.1, hkept.2, update_self]
    rw [hstep]
    exact (hbefore side).stored_loadRow hkept.1
  apply foldl_loadStep (motive := fun other mgr => other = side → Stored wide mgr) _ _ side rfl
  · intro other hother
    subst hother
    exact hself
  · exact fun row _ _ _ mgr _ h hother => (h hother).loadRow row _

/-- After a start of the server and any creations, the custom channels of every team are
found by their folded names exactly when every stored name that is loaded is its own
folded name. -/
theorem found_iff_stored_folded (config : ChannelConfig) (preserve : Bool)
    (rows : List ChannelRow) (creations : List (UInt32 × List UInt8)) :
    (∀ side, FoundByName (channelRun config preserve rows creations side)) ↔
      (preserve = true → ∀ row ∈ rows, ∀ side wide, Kept config row side wide →
        wstrToLower wide = wide) := by
  constructor
  · intro h hpreserve row hrow side wide hkept
    have hstored : Stored wide (channelRun config preserve rows creations side) := by
      subst hpreserve
      apply foldl_createForTeam (motive := fun other mgr => other = side → Stored wide mgr) _ _ side
        rfl
      · intro other hother
        subst hother
        apply stored_of_kept _ hrow hkept
        intro side
        cases side <;> exact fun _ hmem => (not_mem_nil hmem).elim
      · exact fun name _ mgr hmgr hother => (hmgr hother).createCustomChannel name
    obtain ⟨channel, hmem, hname⟩ := hstored
    have hfolded := (foundByName_iff (spelled_channelRun ..)).mp (h side) _ hmem
    rw [foldedName_of_wide hname] at hfolded
    exact Option.some.inj hfolded
  · intro h side
    exact (folded_channelRun creations h side).foundByName (spelled_channelRun ..)

/-- A channel created as `Foo` by the Alliance, as it is stored. -/
def fooRow : ChannelRow where
  name := [0x46, 0x6f, 0x6f]
  team := TEAM_ALLIANCE
  announce := true
  ownership := true
  password := [0x70]
  bannedList := []

/-- After the next start `Foo` is there, is not found under its name, and is created a
second time, without its password. -/
theorem capital_not_found :
    let mgr := channelRun ⟨false, 0⟩ true [fooRow] [] .alliance
    mgr.custom.map (fun channel => channel.name) = [fooRow.name] ∧
      mgr.getCustomChannel fooRow.name = none ∧
      (mgr.createCustomChannel fooRow.name).2.map (fun channel => channel.password) = some [] ∧
      ¬FoundByName mgr := by
  refine ⟨by decide, by decide, by decide, ?_⟩
  intro h
  have hget := (h.getCustomChannel fooRow.name (by decide) ⟨(3, 1), fooRow.name, TEAM_ALLIANCE,
    true, true, [0x70], [], false⟩).mpr ⟨by decide, rfl⟩
  cases hget

end LegionServer.Guarantees.ChannelNames
