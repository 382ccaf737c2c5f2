import LegionServer.Library.KeyedRows
import Mathlib.Data.List.Induction

/-!
# The update fetcher

`UpdateFetcher::Update` with the statements it issues and what they do to the `updates` table
(`UpdateFetcher.cpp:113-131`, `173-416`). Every file is applied with success, and files do not
write to `updates`. The digest of a content is a parameter; a row without a hash has none. The
statements compare names by their keys in the collation of the column, which is the primary key;
`Update` itself compares them as they are.
-/
namespace LegionServer.Source.Updater
open Library List KeyedRows

inductive State
  | released | archived
  deriving DecidableEq, Repr

/-- A row of `updates`. -/
structure AppliedFileEntry (D : Type*) where
  name : String
  hash : Option D
  state : State
  deriving DecidableEq

structure LocaleFileEntry (B : Type*) where
  filename : String
  content : B
  state : State

/-- A file that is applied, or a statement on `updates`. -/
inductive Command (D : Type*)
  | applyFile (filename : String)
  | replaceInto (entry : AppliedFileEntry D)
  | deleteWhereName (names : List String)
  | updateName (source target : String)
  | updateState (name : String) (state : State)

def Command.exec {D K : Type*} [DecidableEq K] (key : String → K)
    (rows : List (AppliedFileEntry D)) : Command D → List (AppliedFileEntry D)
  | applyFile _ => rows
  | replaceInto entry => rows.filter (fun row => ¬key row.name = key entry.name) ++ [entry]
  | deleteWhereName names => rows.filter fun row => ¬key row.name ∈ names.map key
  | updateName source target =>
    rows.map fun row => if key row.name = key source then { row with name := target } else row
  | updateState name state =>
    rows.map fun row => if key row.name = key name then { row with state } else row

structure UpdateResult where
  updated : Nat
  recent : Nat
  archived : Nat
  deriving DecidableEq, Repr

structure UpdateOptions where
  redundancyChecks : Bool
  allowRehash : Bool
  archivedRedundancy : Bool
  cleanDeadReferencesMaxCount : Int

namespace UpdateFetcher

variable {D B : Type*} [DecidableEq D]

/-- Where the loop of `Update` is: the rows not yet seen, what was issued and the files applied. -/
structure Progress (D : Type*) where
  applied : List (AppliedFileEntry D)
  commands : List (Command D) := []
  importedUpdates : Nat := 0

namespace Progress

variable (s : Progress D)

/-- `applied.erase` of a name. -/
def erase (name : String) : Progress D :=
  { s with applied := s.applied.filter fun row => ¬row.name = name }

def issue (commands : List (Command D)) : Progress D :=
  { s with commands := s.commands ++ commands }

end Progress

variable (digest : B → D) (options : UpdateOptions) (available : List (LocaleFileEntry B))
  (hashToName : D → Option String) (s : Progress D) (file : LocaleFileEntry B)

def entryOf : AppliedFileEntry D := ⟨file.filename, some (digest file.content), file.state⟩

/-- `MODE_APPLY` -/
def applyUpdate : Progress D :=
  let s := s.issue [.applyFile file.filename, .replaceInto (entryOf digest file)]
  { s with importedUpdates := s.importedUpdates + 1 }

def renameEntry (source target : String) : List (Command D) :=
  [.deleteWhereName [target], .updateName source target]

/-- A file that has a row. -/
def checkApplied (entry : AppliedFileEntry D) : Progress D :=
  if !options.redundancyChecks then s.erase file.filename
  -- archived updates never change
  else if !options.archivedRedundancy && entry.state = .archived && file.state = .archived then
    s.erase file.filename
  else if options.allowRehash && entry.hash = none then
    -- `MODE_REHASH`
    (s.issue [.replaceInto (entryOf digest file)]).erase file.filename
  else if entry.hash ≠ some (digest file.content) then
    (applyUpdate digest s file).erase file.filename
  else if entry.state ≠ file.state then
    (s.issue [.updateState file.filename file.state]).erase file.filename
  else s.erase file.filename

/-- A file that has no row. -/
def checkNew : Progress D :=
  match hashToName (digest file.content) with
  | some name =>
    -- a copy of a file that is still there
    if name ∈ available.map LocaleFileEntry.filename then applyUpdate digest s file
    else (s.issue (renameEntry name file.filename)).erase name
  | none => applyUpdate digest s file

/-- One round of the loop over the available files. -/
def checkUpdate : Progress D :=
  match KeyedRows.rowOf AppliedFileEntry.name s.applied file.filename with
  | some entry => checkApplied digest options s file entry
  | none => checkNew digest available hashToName s file

/-- The cache of hashes: the first row with a hash, in the order of the rows. -/
def hashToNameOf (rows : List (AppliedFileEntry D)) (hash : D) : Option String :=
  (rows.find? (·.hash = some hash)).map AppliedFileEntry.name

/-- The loop of `Update`. -/
def checkUpdates (rows : List (AppliedFileEntry D)) : Progress D :=
  available.foldl (checkUpdate digest options available (hashToNameOf rows)) { applied := rows }

/-- The statement that deletes the rows of files that are gone. -/
def cleanUp : List (Command D) :=
  if s.applied = [] then []
  else if options.cleanDeadReferencesMaxCount < 0 ∨
      s.applied.length ≤ options.cleanDeadReferencesMaxCount then
    [.deleteWhereName (s.applied.map AppliedFileEntry.name)]
  else []

/-- What `Update` issues and returns, where the rows come in this order. -/
def update (rows : List (AppliedFileEntry D)) : List (Command D) × UpdateResult :=
  let s := checkUpdates digest options available rows
  (s.commands ++ cleanUp options s,
    { updated := s.importedUpdates
      recent := rows.countP (·.state = .released)
      archived := rows.countP (·.state ≠ .released) })

/-- The rows after `Update`. -/
def updatedRows {K : Type*} [DecidableEq K] (key : String → K) (rows : List (AppliedFileEntry D)) :
    List (AppliedFileEntry D) :=
  (update digest options available rows).1.foldl (Command.exec key) rows

end UpdateFetcher

/-!
# The loop over the available files

What the commands do to single rows, and what has become of the rows of all files that the loop
has seen.
-/

variable {D B : Type*} {rows : List (AppliedFileEntry D)} {n : String}

abbrev row (rows : List (AppliedFileEntry D)) (n : String) : Option (AppliedFileEntry D) :=
  KeyedRows.rowOf AppliedFileEntry.name rows n

abbrev NamesNodup (rows : List (AppliedFileEntry D)) : Prop :=
  (rows.map AppliedFileEntry.name).Nodup

theorem row_replaceInto (entry : AppliedFileEntry D) (n : String) :
    row ((Command.replaceInto entry).exec id rows) n =
      if n = entry.name then some entry else row rows n := by
  change rowOf _ (rows.filter (fun row => ¬row.name = entry.name) ++ [entry]) n = _
  rw [rowOf_append_one, rowOf_filter (p := (· = entry.name))]
  by_cases hn : n = entry.name
  · simp [hn]
  · simp [hn, Ne.symm hn]

theorem row_deleteWhereName (names : List String) (n : String) :
    row ((Command.deleteWhereName names).exec id rows) n =
      if n ∈ names then none else row rows n := by
  rw [Command.exec, map_id]
  exact rowOf_filter (p := (· ∈ names)) n

theorem row_updateState (name : String) (state : State) (n : String) :
    row ((Command.updateState name state).exec id rows) n =
      if n = name then (row rows n).map fun entry => { entry with state } else row rows n := by
  have hname : ∀ entry : AppliedFileEntry D,
      (if entry.name = name then { entry with state } else entry).name = entry.name := by
    intro entry
    split <;> rfl
  refine (rowOf_map hname n).trans ?_
  change (row rows n).map _ = _
  cases hrow : row rows n with
  | none => split <;> rfl
  | some entry =>
    rw [Option.map_some, key_rowOf hrow]
    split
    · rw [Option.map_some, key_rowOf hrow]
    · rfl

/-- `RenameEntry` with two different names: the row has the other name. -/
theorem row_renameEntry {source target : String} (hne : target ≠ source) (n : String) :
    row ((UpdateFetcher.renameEntry source target).foldl (Command.exec id) rows) n =
      if n = target then (row rows source).map fun entry => { entry with name := target }
      else if n = source then none else row rows n := by
  have hdeleted : ∀ n, row ((Command.deleteWhereName [target]).exec id rows) n =
      if n = target then none else row rows n := by
    intro n
    rw [row_deleteWhereName]
    simp only [mem_singleton]
  have habsent : target ∉ ((Command.deleteWhereName [target]).exec id rows).map
      AppliedFileEntry.name := by
    rw [← rowOf_eq_none]
    exact (hdeleted target).trans (if_pos rfl)
  have hrekey := rowOf_rekey (f := fun entry => if entry.name = source then
    { entry with name := target } else entry) hne habsent
    (by intro entry h; rw [if_pos h]) (by intro entry h; rw [if_neg h]) n
  refine hrekey.trans ?_
  have hsource := hdeleted source
  rw [if_neg hne.symm] at hsource
  by_cases hn : n = target
  · rw [if_pos hn, if_pos hn]
    change (row _ source).map _ = _
    rw [hsource]
    cases hrow : row rows source with
    | none => rfl
    | some entry => simp [key_rowOf hrow]
  · rw [if_neg hn, if_neg hn]
    split
    · rfl
    · exact (hdeleted n).trans (if_neg hn)

section Keys

variable {K : Type*} [DecidableEq K] (key : String → K)

abbrev KeysNodup (key : String → K) (rows : List (AppliedFileEntry D)) : Prop :=
  (rows.map fun row => key row.name).Nodup

theorem keysNodup_replaceInto (entry : AppliedFileEntry D) (h : KeysNodup key rows) :
    KeysNodup key ((Command.replaceInto entry).exec key rows) := by
  rw [KeysNodup, Command.exec, map_append, nodup_append']
  refine ⟨(filter_sublist.map _).nodup h, nodup_singleton _, ?_⟩
  intro name hname hentry
  obtain ⟨other, hother, rfl⟩ := mem_map.mp hname
  exact absurd hentry (by simpa using (mem_filter.mp hother).2)

theorem keysNodup_deleteWhereName (names : List String) (h : KeysNodup key rows) :
    KeysNodup key ((Command.deleteWhereName names).exec key rows) :=
  (filter_sublist.map _).nodup h

theorem keysNodup_updateState (name : String) (state : State) (h : KeysNodup key rows) :
    KeysNodup key ((Command.updateState name state).exec key rows) := by
  have hname : ((Command.updateState name state).exec key rows).map (fun row => key row.name) =
      rows.map fun row => key row.name := by
    rw [Command.exec, map_map]
    apply map_congr_left
    intro entry _
    rw [Function.comp]
    split <;> rfl
  rw [KeysNodup, hname]
  exact h

/-- What `RenameEntry` leaves of the rows: the target has no row, but for that of the source. -/
theorem keysNodup_renameEntry (source target : String) (h : KeysNodup key rows) :
    KeysNodup key ((UpdateFetcher.renameEntry source target).foldl (Command.exec key) rows) := by
  have hdeleted : KeysNodup key ((Command.deleteWhereName [target]).exec key rows) :=
    keysNodup_deleteWhereName key [target] h
  have habsent : key target ∉ ((Command.deleteWhereName [target]).exec key rows).map
      fun row => key row.name := by
    simp [Command.exec]
  have hnames : ((UpdateFetcher.renameEntry source target).foldl (Command.exec key) rows).map
      (fun row => key row.name) = (((Command.deleteWhereName [target]).exec key rows).map
        fun row => key row.name).map fun name =>
          if name = key source then key target else name := by
    rw [UpdateFetcher.renameEntry, foldl_cons, foldl_cons, foldl_nil]
    generalize (Command.deleteWhereName [target]).exec key rows = deleted
    rw [Command.exec, map_map, map_map]
    apply map_congr_left
    intro entry _
    rw [Function.comp, Function.comp]
    split <;> rfl
  rw [KeysNodup, hnames]
  apply hdeleted.map_on
  intro name hname other hother hsame
  split at hsame <;> split at hsame
  · rename_i hsource hsource'
    rw [hsource, hsource']
  · exact absurd (hsame ▸ hother) habsent
  · exact absurd (hsame ▸ hname) habsent
  · exact hsame

end Keys

namespace UpdateFetcher.Progress

theorem row_erase (s : Progress D) (name n : String) :
    row (s.erase name).applied n = if n = name then none else row s.applied n :=
  rowOf_filter (p := (· = name)) n

end UpdateFetcher.Progress

section Loop

/-- Redundancy checks and rehashing are on, and all rows of files that are gone are deleted. -/
def checkedOptions (archivedRedundancy : Bool) : UpdateOptions :=
  ⟨true, true, archivedRedundancy, -1⟩

/-- An update with all checks. The available files are a set by name. -/
structure CheckedUpdate (D B : Type*) where
  digest : B → D
  available : List (LocaleFileEntry B)
  rows : List (AppliedFileEntry D)
  archivedRedundancy : Bool
  available_nodup : (available.map LocaleFileEntry.filename).Nodup

namespace CheckedUpdate
open UpdateFetcher

variable (u : CheckedUpdate D B)

def table (s : Progress D) : List (AppliedFileEntry D) := s.commands.foldl (Command.exec id) u.rows

variable {u} {done rest : List (LocaleFileEntry B)} {s s' : Progress D} {file : LocaleFileEntry B}

theorem table_issue {commands : List (Command D)} :
    u.table (s.issue commands) = commands.foldl (Command.exec id) (u.table s) :=
  foldl_append

theorem split_append (hall : u.available = (done ++ [file]) ++ rest) :
    u.available = done ++ file :: rest := by
  rw [hall, append_assoc, singleton_append]

/-- The file of a turn of the loop, and those before. -/
theorem turn_files (hall : u.available = done ++ file :: rest) :
    (∀ other ∈ done, other ∈ u.available) ∧ file ∈ u.available ∧
      ∀ other ∈ done, other.filename ≠ file.filename := by
  have hnodup := u.available_nodup
  rw [hall] at hnodup ⊢
  refine ⟨fun other => mem_append_left _, mem_append_right _ mem_cons_self, ?_⟩
  intro other hother hsame
  rw [map_append, nodup_append'] at hnodup
  exact hnodup.2.2 (mem_map_of_mem hother) (by rw [hsame]; exact mem_map_of_mem mem_cons_self)

variable [DecidableEq D] (u)

/-- One turn of the loop, and all turns of these files. -/
def turn (s : Progress D) (file : LocaleFileEntry B) : Progress D :=
  checkUpdate u.digest (checkedOptions u.archivedRedundancy) u.available (hashToNameOf u.rows) s
    file

def behind (done : List (LocaleFileEntry B)) : Progress D := done.foldl u.turn { applied := u.rows }

/-- A new file that is taken for a row whose file is gone. -/
def Renames (file : LocaleFileEntry B) (name : String) : Prop :=
  row u.rows file.filename = none ∧ hashToNameOf u.rows (u.digest file.content) = some name ∧
    name ∉ u.available.map LocaleFileEntry.filename

def Skipped (file : LocaleFileEntry B) : Prop :=
  u.archivedRedundancy = false ∧ file.state = .archived ∧
    ∃ entry, row u.rows file.filename = some entry ∧ entry.state = .archived

/-- The row of a name is that of a file that the loop has seen. -/
def Seen (done : List (LocaleFileEntry B)) (n : String) : Prop :=
  ∃ file ∈ done, file.filename = n ∨ u.Renames file n

structure Updated (done : List (LocaleFileEntry B)) (s : Progress D) : Prop where
  nodup : NamesNodup (u.table s)
  applied_seen : ∀ n, u.Seen done n → row s.applied n = none
  applied_unseen : ∀ n, ¬u.Seen done n → row s.applied n = row u.rows n
  unseen : ∀ n, ¬u.Seen done n → row (u.table s) n = row u.rows n
  skipped : ∀ file ∈ done, u.Skipped file →
    row (u.table s) file.filename = row u.rows file.filename
  current : ∀ file ∈ done, ¬u.Skipped file → (∀ name, ¬u.Renames file name) →
    row (u.table s) file.filename = some (entryOf u.digest file)
  renamed : ∀ file ∈ done, ∀ name, u.Renames file name →
    (row (u.table s) file.filename = none ∧
      ∃ other ∈ done, other.filename ≠ file.filename ∧ u.Renames other name) ∨
    row (u.table s) file.filename =
      (row u.rows name).map fun entry => { entry with name := file.filename }
  gone : ∀ file ∈ done, ∀ name, u.Renames file name → row (u.table s) name = none
  once : ∀ file ∈ done, ∀ other ∈ done, ∀ name, u.Renames file name → u.Renames other name →
    row (u.table s) file.filename ≠ none → row (u.table s) other.filename ≠ none → file.filename = other.filename

variable {u}

theorem updated_start (hnodup : NamesNodup u.rows) : u.Updated [] { applied := u.rows } := by
  have hunseen : ∀ n, ¬u.Seen [] n := by
    rintro n ⟨file, hmem, -⟩
    cases hmem
  exact ⟨hnodup, fun n h => absurd h (hunseen n), fun _ _ => rfl, fun _ _ => rfl, nofun, nofun,
    nofun, nofun, nofun⟩

theorem Renames.ne (h : u.Renames file n) {other : LocaleFileEntry B}
    (hother : other ∈ u.available) : n ≠ other.filename := by
  rintro rfl
  exact h.2.2 (mem_map_of_mem hother)

theorem Renames.unique {m : String} (h : u.Renames file n) (h' : u.Renames file m) : n = m :=
  Option.some.inj (h.2.1.symm.trans h'.2.1)

theorem seen_append : u.Seen (done ++ [file]) n ↔
    u.Seen done n ∨ file.filename = n ∨ u.Renames file n := by
  simp only [Seen, mem_append, mem_singleton]
  constructor
  · rintro ⟨other, hother | rfl, h⟩
    · exact Or.inl ⟨other, hother, h⟩
    · exact Or.inr h
  · rintro (⟨other, hother, h⟩ | h)
    · exact ⟨other, Or.inl hother, h⟩
    · exact ⟨file, Or.inr rfl, h⟩

section
variable (h : u.Updated done s) (hall : u.available = done ++ file :: rest)
include h hall

/-- What is known of the files before stays so if their rows are kept. -/
theorem Updated.snoc (hnodup : NamesNodup (u.table s'))
    (hkept : ∀ other ∈ done, row (u.table s') other.filename = row (u.table s) other.filename)
    (hseen : ∀ n, u.Seen (done ++ [file]) n → row s'.applied n = none)
    (hunseen : ∀ n, ¬u.Seen (done ++ [file]) n → row s'.applied n = row s.applied n ∧
      row (u.table s') n = row (u.table s) n)
    (hskipped : u.Skipped file → row (u.table s') file.filename = row u.rows file.filename)
    (hcurrent : ¬u.Skipped file → (∀ name, ¬u.Renames file name) →
      row (u.table s') file.filename = some (entryOf u.digest file))
    (hrenamed : ∀ name, u.Renames file name → (row (u.table s') file.filename = none ∧
        ∃ other ∈ done, other.filename ≠ file.filename ∧ u.Renames other name) ∨
      row (u.table s') file.filename =
        (row u.rows name).map fun entry => { entry with name := file.filename })
    (hgone : ∀ other ∈ done ++ [file], ∀ name, u.Renames other name → row (u.table s') name = none)
    (honce : ∀ other ∈ done, ∀ name, u.Renames other name → u.Renames file name →
      row (u.table s') file.filename = none) : u.Updated (done ++ [file]) s' := by
  have hbefore : ∀ n, ¬u.Seen (done ++ [file]) n → ¬u.Seen done n :=
    fun n hn hold => hn (seen_append.mpr (.inl hold))
  have hmem : ∀ other ∈ done ++ [file], other ∈ done ∨ other = file := by
    intro other h
    simpa using h
  refine ⟨hnodup, hseen, fun n hn => ?_, fun n hn => ?_, ?_, ?_, ?_, hgone, ?_⟩
  · exact (hunseen n hn).1.trans (h.applied_unseen n (hbefore n hn))
  · exact (hunseen n hn).2.trans (h.unseen n (hbefore n hn))
  · intro other hother hskip
    rcases hmem other hother with hold | rfl
    · rw [hkept other hold]
      exact h.skipped other hold hskip
    · exact hskipped hskip
  · intro other hother hskip hnot
    rcases hmem other hother with hold | rfl
    · rw [hkept other hold]
      exact h.current other hold hskip hnot
    · exact hcurrent hskip hnot
  · intro other hother name hren
    rcases hmem other hother with hold | rfl
    · rw [hkept other hold]
      rcases h.renamed other hold name hren with ⟨hnone, first, hfirst, hne, hren'⟩ | hrow
      · exact Or.inl ⟨hnone, first, mem_append_left _ hfirst, hne, hren'⟩
      · exact Or.inr hrow
    · rcases hrenamed name hren with ⟨hnone, first, hfirst, hne, hren'⟩ | hrow
      · exact Or.inl ⟨hnone, first, mem_append_left _ hfirst, hne, hren'⟩
      · exact Or.inr hrow
  · intro other hother second hsecond name hren hren' hrow hrow'
    rcases hmem other hother with hold | rfl
    · rcases hmem second hsecond with hold' | rfl
      · rw [hkept other hold] at hrow
        rw [hkept second hold'] at hrow'
        exact h.once other hold second hold' name hren hren' hrow hrow'
      · exact absurd (honce other hold name hren hren') hrow'
    · rcases hmem second hsecond with hold' | rfl
      · exact absurd (honce second hold' name hren' hren) hrow
      · rfl

theorem Updated.own_row (hnodup : NamesNodup (u.table s'))
    (hother : ∀ n ≠ file.filename, row (u.table s') n = row (u.table s) n)
    (happlied : ∀ n, row s'.applied n = if n = file.filename then none else row s.applied n)
    (hskipped : u.Skipped file → row (u.table s') file.filename = row u.rows file.filename)
    (hcurrent : ¬u.Skipped file → row (u.table s') file.filename = some (entryOf u.digest file))
    (hrenames : ∀ name, ¬u.Renames file name) : u.Updated (done ++ [file]) s' := by
  obtain ⟨-, hfile, hnew⟩ := turn_files hall
  have hseen : ∀ n, u.Seen (done ++ [file]) n ↔ u.Seen done n ∨ n = file.filename := by
    intro n
    rw [seen_append, or_iff_left (hrenames n), eq_comm]
  refine h.snoc hall hnodup (fun other hmem => hother _ (hnew other hmem)) (fun n hn => ?_)
    (fun n hn => ?_) hskipped (fun hskip _ => hcurrent hskip)
    (fun name hren => absurd hren (hrenames name)) (fun other hmem name hren => ?_)
    (fun _ _ name _ hren => absurd hren (hrenames name))
  · rw [happlied]
    split
    · rfl
    · rename_i hne
      exact h.applied_seen n (((hseen n).mp hn).resolve_right hne)
  · rw [hseen, not_or] at hn
    exact ⟨(happlied n).trans (if_neg hn.2), hother n hn.2⟩
  · rcases mem_append.mp hmem with hold | hlast
    · rw [hother name (hren.ne hfile)]
      exact h.gone other hold name hren
    · exact absurd (mem_singleton.mp hlast ▸ hren) (hrenames name)

theorem Updated.take_row {old : String} (hren : u.Renames file old)
    (hnodup : NamesNodup (u.table s')) (htable : ∀ n, row (u.table s') n =
      if n = file.filename then
        (row (u.table s) old).map fun entry => { entry with name := file.filename }
      else if n = old then none else row (u.table s) n)
    (happlied : ∀ n, row s'.applied n = if n = old then none else row s.applied n) :
    u.Updated (done ++ [file]) s' := by
  obtain ⟨hdone, hfile, hnew⟩ := turn_files hall
  have hseen : ∀ n, u.Seen (done ++ [file]) n ↔
      u.Seen done n ∨ n = file.filename ∨ n = old := by
    intro n
    rw [seen_append, @eq_comm _ file.filename]
    exact or_congr_right (or_congr_right ⟨fun h => h.unique hren, fun h => h ▸ hren⟩)
  have hown := htable file.filename
  rw [if_pos rfl] at hown
  refine h.snoc hall hnodup (fun other hmem => ?_) (fun n hn => ?_) (fun n hn => ?_)
    (fun hskip => ?_) (fun _ hnot => absurd hren (hnot old)) (fun name hren' => ?_)
    (fun other hother name hren' => ?_) (fun other hother name hren' hren'' => ?_)
  · rw [htable, if_neg (hnew other hmem), if_neg fun h => hren.ne (hdone other hmem) h.symm]
  · rw [happlied]
    split
    · rfl
    rename_i hne
    rcases (hseen n).mp hn with hold | rfl | heq
    · exact h.applied_seen n hold
    · by_cases hold : u.Seen done file.filename
      · exact h.applied_seen _ hold
      · exact (h.applied_unseen _ hold).trans hren.1
    · exact absurd heq hne
  · rw [hseen, not_or, not_or] at hn
    rw [happlied, htable, if_neg hn.2.1, if_neg hn.2.2, if_neg hn.2.2]
    exact ⟨rfl, rfl⟩
  · obtain ⟨-, -, entry, hrow, -⟩ := hskip
    exact absurd (hren.1.symm.trans hrow) nofun
  · obtain rfl := hren.unique hren'
    rw [hown]
    by_cases hold : u.Seen done old
    · -- the row is gone: a file before was taken for it
      obtain ⟨first, hfirst, hname | hfirst'⟩ := hold
      · exact absurd hname.symm (hren.ne (hdone first hfirst))
      · rw [h.gone first hfirst old hfirst']
        exact Or.inl ⟨rfl, first, hfirst, hnew first hfirst, hfirst'⟩
    · rw [h.unseen old hold]
      exact Or.inr rfl
  · rw [htable, if_neg (hren'.ne hfile)]
    split
    · rfl
    rename_i hne
    rcases mem_append.mp hother with hold | hlast
    · exact h.gone other hold name hren'
    · exact absurd ((mem_singleton.mp hlast ▸ hren').unique hren) hne
  · obtain rfl := hren.unique hren''
    rw [hown, h.gone other hother old hren']
    rfl

theorem Updated.write_row
    (htable : u.table s' = (Command.replaceInto (entryOf u.digest file)).exec id (u.table s))
    (happlied : ∀ n, row s'.applied n = if n = file.filename then none else row s.applied n)
    (hskipped : ¬u.Skipped file) (hrenames : ∀ name, ¬u.Renames file name) :
    u.Updated (done ++ [file]) s' := by
  have hrow : ∀ n, row ((Command.replaceInto (entryOf u.digest file)).exec id (u.table s)) n =
      if n = file.filename then some (entryOf u.digest file) else row (u.table s) n :=
    row_replaceInto (entryOf u.digest file)
  apply h.own_row hall
  · rw [htable]
    exact keysNodup_replaceInto id _ h.nodup
  · intro n hn
    rw [htable, hrow]
    exact if_neg hn
  · exact happlied
  · exact fun hskip => absurd hskip hskipped
  · intro _
    rw [htable, hrow]
    exact if_pos rfl
  · exact hrenames

theorem Updated.checkApplied {entry : AppliedFileEntry D}
    (hentry : row s.applied file.filename = some entry) : u.Updated (done ++ [file])
      (UpdateFetcher.checkApplied u.digest (checkedOptions u.archivedRedundancy) s file entry) := by
  have hunseen : ¬u.Seen done file.filename := by
    intro hseen
    rw [h.applied_seen _ hseen] at hentry
    cases hentry
  have hrow : row u.rows file.filename = some entry :=
    (h.applied_unseen _ hunseen).symm.trans hentry
  have htable : row (u.table s) file.filename = some entry := (h.unseen _ hunseen).trans hrow
  have hrenames : ∀ name, ¬u.Renames file name := by
    rintro name ⟨hnone, -⟩
    rw [hrow] at hnone
    cases hnone
  have hname : entry.name = file.filename := key_rowOf hrow
  have happlied : ∀ (commands : List (Command D)) (n : String),
      row ((s.issue commands).erase file.filename).applied n =
        if n = file.filename then none else row s.applied n :=
    fun commands => Progress.row_erase (s.issue commands) file.filename
  rw [UpdateFetcher.checkApplied]
  simp only [checkedOptions, Bool.not_true, Bool.false_eq_true, if_false, Bool.true_and]
  split
  · rename_i hskip
    simp only [Bool.and_eq_true, Bool.not_eq_true', decide_eq_true_eq] at hskip
    have hskipped : u.Skipped file :=
      ⟨hskip.1.1, hskip.2, entry, hrow, hskip.1.2⟩
    exact h.own_row hall h.nodup (fun _ _ => rfl) (Progress.row_erase s _)
      (fun _ => htable.trans hrow.symm) (absurd hskipped) hrenames
  · rename_i hskip
    have hskipped : ¬u.Skipped file := by
      rintro ⟨hredundancy, hstate, other, hother, harchived⟩
      obtain rfl := Option.some.inj (hrow.symm.trans hother)
      simp [hredundancy, hstate, harchived] at hskip
    split
    · exact h.write_row hall table_issue (happlied _) hskipped hrenames
    split
    · exact h.write_row hall table_issue
        (Progress.row_erase (applyUpdate u.digest s file) file.filename) hskipped hrenames
    rename_i hhash
    have hsame : { entry with state := file.state } = entryOf u.digest file := by
      rw [entryOf, ← hname, not_not.mp hhash]
    split
    · have hstate : ∀ n, row (u.table ((s.issue [.updateState file.filename file.state]).erase
          file.filename)) n = if n = file.filename then
            (row (u.table s) n).map fun entry => { entry with state := file.state }
          else row (u.table s) n := by
        intro n
        exact (congrArg (row · n) table_issue).trans (row_updateState _ _ n)
      apply h.own_row hall
      · have hnodup : NamesNodup (u.table (s.issue [.updateState file.filename file.state])) := by
          rw [table_issue]
          exact keysNodup_updateState id _ _ h.nodup
        exact hnodup
      · intro n hn
        rw [hstate, if_neg hn]
      · exact happlied _
      · exact fun hskip => absurd hskip hskipped
      · intro _
        rw [hstate, if_pos rfl, htable, Option.map_some, hsame]
      · exact hrenames
    · rename_i hstate
      have hown : row (u.table s) file.filename = some (entryOf u.digest file) := by
        rw [htable, ← hsame, ← not_not.mp hstate]
      exact h.own_row hall h.nodup (fun _ _ => rfl) (Progress.row_erase s _)
        (fun hskip => absurd hskip hskipped) (fun _ => hown) hrenames

theorem Updated.checkNew (hentry : row s.applied file.filename = none) : u.Updated (done ++ [file])
      (UpdateFetcher.checkNew u.digest u.available (hashToNameOf u.rows) s file) := by
  obtain ⟨-, hfile, hnew⟩ := turn_files hall
  have hunseen : ¬u.Seen done file.filename := by
    rintro ⟨other, hother, hname | hren⟩
    · exact hnew other hother hname
    · exact hren.ne hfile rfl
  have hrow : row u.rows file.filename = none := (h.applied_unseen _ hunseen).symm.trans hentry
  have hskipped : ¬u.Skipped file := by
    rintro ⟨-, -, entry, hsome, -⟩
    rw [hrow] at hsome
    cases hsome
  have happlied : ∀ n, row (applyUpdate u.digest s file).applied n =
      if n = file.filename then none else row s.applied n := by
    intro n
    split
    · rename_i hn
      rw [hn]
      exact hentry
    · rfl
  rw [UpdateFetcher.checkNew]
  split
  · rename_i name hname
    split
    · rename_i hthere
      apply h.write_row hall table_issue happlied hskipped
      rintro other ⟨-, hother, hgone⟩
      rw [Option.some.inj (hname.symm.trans hother)] at hthere
      exact hgone hthere
    · rename_i hgone
      have hren : u.Renames file name := ⟨hrow, hname, hgone⟩
      have htable : u.table ((s.issue (renameEntry name file.filename)).erase name) =
          (renameEntry name file.filename).foldl (Command.exec id) (u.table s) := table_issue
      apply h.take_row hall hren
      · rw [htable]
        exact keysNodup_renameEntry id _ _ h.nodup
      · intro n
        rw [htable]
        exact row_renameEntry (hren.ne hfile).symm n
      · exact Progress.row_erase _ name
  · rename_i hname
    apply h.write_row hall table_issue happlied hskipped
    rintro other ⟨-, hother, -⟩
    rw [hname] at hother
    cases hother

theorem Updated.turn : u.Updated (done ++ [file]) (u.turn s file) := by
  rw [CheckedUpdate.turn, checkUpdate]
  cases hentry : rowOf AppliedFileEntry.name s.applied file.filename with
  | some entry => exact h.checkApplied hall hentry
  | none => exact h.checkNew hall hentry

end

theorem behind_append : u.behind (done ++ [file]) = u.turn (u.behind done) file := by
  rw [behind, foldl_append]
  rfl

theorem updated_behind (hrows : NamesNodup u.rows) (hall : u.available = done ++ rest) :
    u.Updated done (u.behind done) := by
  induction done using reverseRecOn generalizing rest with
  | nil => exact updated_start hrows
  | append_singleton done file ih =>
    have hturn := split_append hall
    rw [behind_append]
    exact (ih hturn).turn hturn

end CheckedUpdate

end Loop

/-!
# The statements of a file

A statement that compares keys does what it means where no two of the names that it meets have the
same key.
-/

section Statements

variable {K : Type*} [DecidableEq K] {key : String → K} {command : Command D}
  {commands : List (Command D)} {names : String → Prop} {x : AppliedFileEntry D}

namespace Command

def looked : Command D → List String
  | applyFile _ => []
  | replaceInto entry => [entry.name]
  | deleteWhereName names => names
  | updateName source _ => [source]
  | updateState name _ => [name]

def made : Command D → List String
  | replaceInto entry => [entry.name]
  | updateName _ target => [target]
  | _ => []

theorem name_of_exec (h : x ∈ command.exec key rows) :
    x.name ∈ rows.map AppliedFileEntry.name ∨ x.name ∈ command.made := by
  cases command with
  | applyFile filename => exact .inl (mem_map_of_mem h)
  | replaceInto entry =>
    rcases mem_append.mp h with h | h
    · exact .inl (mem_map_of_mem (mem_filter.mp h).1)
    · exact .inr (mem_singleton.mp h ▸ mem_singleton_self _)
  | deleteWhereName names => exact .inl (mem_map_of_mem (mem_filter.mp h).1)
  | updateName source target =>
    obtain ⟨old, hold, rfl⟩ := mem_map.mp h
    split
    · exact .inr (mem_singleton_self _)
    · exact .inl (mem_map_of_mem hold)
  | updateState name state =>
    obtain ⟨old, hold, rfl⟩ := mem_map.mp h
    split
    · exact .inl (mem_map.mpr ⟨old, hold, rfl⟩)
    · exact .inl (mem_map_of_mem hold)

theorem exec_eq_id (h : ∀ x ∈ rows, ∀ n ∈ command.looked, key x.name = key n → x.name = n) :
    command.exec key rows = command.exec id rows := by
  have hname : ∀ x ∈ rows, ∀ n ∈ command.looked, key x.name = key n ↔ id x.name = id n :=
    fun x hx n hn => ⟨h x hx n hn, congrArg key⟩
  cases command with
  | applyFile filename => rfl
  | replaceInto entry =>
    refine congrArg (· ++ [entry]) (filter_congr fun x hx => ?_)
    rw [decide_eq_decide, hname x hx _ (mem_singleton_self _)]
  | deleteWhereName names =>
    refine filter_congr fun x hx => ?_
    rw [decide_eq_decide, not_iff_not, mem_map, mem_map]
    exact ⟨fun ⟨n, hn, heq⟩ => ⟨n, hn, ((hname x hx n hn).mp heq.symm).symm⟩,
      fun ⟨n, hn, heq⟩ => ⟨n, hn, ((hname x hx n hn).mpr heq.symm).symm⟩⟩
  | updateName source target =>
    exact map_congr_left fun x hx => if_congr (hname x hx _ (mem_singleton_self _)) rfl rfl
  | updateState name state =>
    exact map_congr_left fun x hx => if_congr (hname x hx _ (mem_singleton_self _)) rfl rfl

end Command

theorem foldl_exec_eq_id (hnames : ∀ n m, names n → names m → key n = key m → n = m)
    (hlooked : ∀ command ∈ commands, ∀ n ∈ command.looked, names n)
    (hmade : ∀ command ∈ commands, ∀ n ∈ command.made, names n)
    (hrows : ∀ x ∈ rows, ∀ n, names n → key x.name = key n → x.name = n) :
    commands.foldl (Command.exec key) rows = commands.foldl (Command.exec id) rows := by
  induction commands generalizing rows with
  | nil => rfl
  | cons command commands ih =>
    rw [forall_mem_cons] at hlooked hmade
    rw [foldl_cons, foldl_cons,
      Command.exec_eq_id fun x hx n hn => hrows x hx n (hlooked.1 n hn)]
    refine ih hlooked.2 hmade.2 fun x hx n hn => ?_
    rcases Command.name_of_exec hx with hold | hnew
    · obtain ⟨old, hold, hsame⟩ := mem_map.mp hold
      exact hsame ▸ hrows old hold n hn
    · exact hnames _ n (hmade.1 _ hnew) hn

theorem names_of_foldl (h : x ∈ commands.foldl (Command.exec key) rows)
    (hmade : ∀ command ∈ commands, ∀ n ∈ command.made, names n) :
    x.name ∈ rows.map AppliedFileEntry.name ∨ names x.name := by
  induction commands generalizing rows with
  | nil => exact .inl (mem_map_of_mem h)
  | cons command commands ih =>
    rw [forall_mem_cons] at hmade
    rcases ih h hmade.2 with hold | hnew
    · obtain ⟨old, hold, hsame⟩ := mem_map.mp hold
      rw [← hsame]
      exact (Command.name_of_exec hold).imp_right (hmade.1 _)
    · exact .inr hnew

/-- `RenameEntry` leaves no row with the key of the source or of the target but the renamed one. -/
theorem mem_renameEntry {source target : String}
    (h : x ∈ (UpdateFetcher.renameEntry source target).foldl (Command.exec key) rows) :
    (x.name = target ∧ ∃ old ∈ rows, key old.name = key source ∧ key old.name ≠ key target) ∨
      (key x.name ≠ key source ∧ key x.name ≠ key target) := by
  obtain ⟨old, hold, rfl⟩ := mem_map.mp h
  obtain ⟨hold, hkept⟩ := mem_filter.mp hold
  have hkept := of_decide_eq_true hkept
  rw [map_singleton, mem_singleton] at hkept
  split
  · rename_i hsource
    exact .inl ⟨rfl, old, hold, hsource, hkept⟩
  · rename_i hsource
    exact .inr ⟨hsource, hkept⟩

namespace CheckedUpdate
open UpdateFetcher

variable [DecidableEq D]

structure OwnStatements (u : CheckedUpdate D B) (file : LocaleFileEntry B) (key : String → K)
    (commands : List (Command D)) : Prop where
  looked : ∀ command ∈ commands, ∀ n ∈ command.looked, n = file.filename ∨ u.Renames file n
  made : ∀ command ∈ commands, ∀ n ∈ command.made, n = file.filename
  nodup : ∀ table : List (AppliedFileEntry D), KeysNodup key table →
    KeysNodup key (commands.foldl (Command.exec key) table)

variable {u : CheckedUpdate D B} {file : LocaleFileEntry B} {s : Progress D}

theorem ownStatements_nil : u.OwnStatements file key [] := ⟨nofun, nofun, fun _ h => h⟩

theorem ownStatements_replace : u.OwnStatements file key [.replaceInto (entryOf u.digest file)] :=
  ⟨by simp [Command.looked, entryOf], by simp [Command.made, entryOf],
    fun _ h => keysNodup_replaceInto key _ h⟩

theorem ownStatements_apply : u.OwnStatements file key
    [.applyFile file.filename, .replaceInto (entryOf u.digest file)] :=
  ⟨by simp [Command.looked, entryOf], by simp [Command.made, entryOf],
    fun _ h => keysNodup_replaceInto key _ h⟩

theorem ownStatements_state : u.OwnStatements file key [.updateState file.filename file.state] :=
  ⟨by simp [Command.looked], by simp [Command.made], fun _ h => keysNodup_updateState key _ _ h⟩

theorem ownStatements_rename {name : String} (h : u.Renames file name) :
    u.OwnStatements file key (renameEntry name file.filename) :=
  ⟨by simp [renameEntry, Command.looked, h], by simp [renameEntry, Command.made],
    fun _ hrows => keysNodup_renameEntry key _ _ hrows⟩

/-- A file that is taken for a renamed one issues the statements of `RenameEntry`. -/
theorem turn_renames {name : String} (h : u.Renames file name)
    (hrow : row s.applied file.filename = none) :
    (u.turn s file).commands = s.commands ++ renameEntry name file.filename := by
  rw [turn, checkUpdate, show rowOf AppliedFileEntry.name s.applied file.filename = none from hrow]
  simp only [checkNew, h.2.1]
  rw [if_neg h.2.2]
  rfl

variable (key) in
theorem exists_ownStatements
    (hrow : row s.applied file.filename = none → row u.rows file.filename = none) :
    ∃ commands, (u.turn s file).commands = s.commands ++ commands ∧
      u.OwnStatements file key commands := by
  cases hentry : rowOf AppliedFileEntry.name s.applied file.filename with
  | some entry =>
    simp only [turn, checkUpdate, hentry]
    rw [checkApplied]
    split
    · exact ⟨[], (append_nil _).symm, ownStatements_nil⟩
    split
    · exact ⟨[], (append_nil _).symm, ownStatements_nil⟩
    split
    · exact ⟨_, rfl, ownStatements_replace⟩
    split
    · exact ⟨_, rfl, ownStatements_apply⟩
    split
    · exact ⟨_, rfl, ownStatements_state⟩
    · exact ⟨[], (append_nil _).symm, ownStatements_nil⟩
  | none =>
    by_cases hren : ∃ name, u.Renames file name
    · obtain ⟨name, hren⟩ := hren
      exact ⟨_, turn_renames hren hentry, ownStatements_rename hren⟩
    · simp only [turn, checkUpdate, hentry]
      rw [checkNew]
      split
      · rename_i name hname
        split
        · exact ⟨_, rfl, ownStatements_apply⟩
        · rename_i hgone
          exact absurd ⟨name, hrow hentry, hname, hgone⟩ hren
      · exact ⟨_, rfl, ownStatements_apply⟩

end CheckedUpdate

end Statements

end LegionServer.Source.Updater
