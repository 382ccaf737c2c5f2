import LegionServer.Source.Updater.UpdateLoop

/-!
# Convergence of database updates

After an update with all checks the rows are those of the available files and a second update has
nothing to do, as long as every new file that is taken for a renamed one is the only one with its
content and has the state of the row that it takes, and the statements, which compare names by their
keys, meet no other row than `Update` means.
-/
namespace LegionServer.Guarantees.UpdateConvergence
open Library Source.Updater UpdateFetcher CheckedUpdate List KeyedRows

variable {D B K : Type*} [DecidableEq D] [DecidableEq K]

section

variable (key : String → K) (u : CheckedUpdate D B)

def checkedRows : List (AppliedFileEntry D) :=
  updatedRows u.digest (checkedOptions u.archivedRedundancy) u.available key u.rows

/-- The rows after the update are those of the available files, and in whatever order they come, a
second update issues nothing. -/
structure Converged : Prop where
  nodup : NamesNodup (checkedRows key u)
  names : ∀ n, n ∈ (checkedRows key u).map AppliedFileEntry.name ↔
    n ∈ u.available.map LocaleFileEntry.filename
  current : ∀ file ∈ u.available, ¬u.Skipped file →
    row (checkedRows key u) file.filename = some (entryOf u.digest file)
  again : ∀ order : List (AppliedFileEntry D), order.Perm (checkedRows key u) →
    (update u.digest (checkedOptions u.archivedRedundancy) u.available order).1 = []

/-- A new file that is taken for a renamed one has the state of the row, and no other file is taken
for it. -/
def RenamesApart : Prop :=
  ∀ file ∈ u.available, ∀ name, u.Renames file name →
    (∀ entry, row u.rows name = some entry → entry.state = file.state) ∧
      ∀ other ∈ u.available, u.Renames other name → other = file

/-- No two files have the same key, and a row with the key of a file but another name is taken
before the turn of the file. -/
structure KeysApart : Prop where
  files : (u.available.map fun file => key file.filename).Nodup
  rows : ∀ before file after, u.available = before ++ file :: after → ∀ entry ∈ u.rows,
    key entry.name = key file.filename → entry.name ≠ file.filename →
      ∃ other ∈ before, u.Renames other entry.name

end

section

variable {key : String → K} {u : CheckedUpdate D B} {file : LocaleFileEntry B}

/-- The rows after the statement of `CleanUp`. -/
theorem checkedRows_eq : checkedRows key u =
    (Command.deleteWhereName ((u.behind u.available).applied.map AppliedFileEntry.name)).exec key
      ((u.behind u.available).commands.foldl (Command.exec key) u.rows) := by
  rw [checkedRows, updatedRows, update, foldl_append, cleanUp]
  change foldl _ _ (if (u.behind u.available).applied = [] then _ else _) = _
  split
  · rename_i hempty
    rw [hempty, foldl_nil, map_nil, Command.exec, filter_eq_self.mpr]
    · rfl
    · simp
  · have hmax := Int.negSucc_lt_zero 0
    rfl

section
variable (hrows : NamesNodup u.rows)
include hrows

theorem updated_end : u.Updated u.available (u.behind u.available) :=
  updated_behind hrows (append_nil _).symm

theorem row_updatedRows (n : String) :
    row (checkedRows id u) n = if n ∈ u.available.map LocaleFileEntry.filename then
      row (u.table (u.behind u.available)) n else none := by
  have hupdated := updated_end hrows
  rw [checkedRows_eq, row_deleteWhereName]
  by_cases hn : n ∈ u.available.map LocaleFileEntry.filename
  · obtain ⟨file, hfile, rfl⟩ := mem_map.mp hn
    have hseen := hupdated.applied_seen file.filename ⟨file, hfile, Or.inl rfl⟩
    rw [if_pos hn, if_neg (rowOf_eq_none.mp hseen)]
    rfl
  · rw [if_neg hn]
    split
    · rfl
    rename_i hgone
    by_cases hseen : u.Seen u.available n
    · obtain ⟨file, hfile, rfl | hren⟩ := hseen
      · exact absurd (mem_map_of_mem hfile) hn
      · exact hupdated.gone file hfile n hren
    · refine (hupdated.unseen n hseen).trans ?_
      rw [← hupdated.applied_unseen n hseen]
      exact rowOf_eq_none.mpr hgone

theorem namesNodup_checkedRows : NamesNodup (checkedRows id u) := by
  rw [checkedRows_eq]
  exact keysNodup_deleteWhereName id _ (updated_end hrows).nodup

end

theorem hash_cached {hash : D} {name : String} (h : hashToNameOf u.rows hash = some name)
    (hrows : NamesNodup u.rows) :
    ∃ entry, row u.rows name = some entry ∧ entry.hash = some hash := by
  obtain ⟨entry, hentry, rfl⟩ := Option.map_eq_some_iff.mp h
  have hfound := find?_some hentry
  exact ⟨entry, rowOf_of_mem hrows (mem_of_find?_eq_some hentry), by simpa using hfound⟩

def Settled (u : CheckedUpdate D B) (file : LocaleFileEntry B) : Prop :=
  ∃ entry, row u.rows file.filename = some entry ∧ (entry = entryOf u.digest file ∨
    u.archivedRedundancy = false ∧ entry.state = .archived ∧ file.state = .archived)

theorem turn_settled {s : Progress D}
    (hrow : row s.applied file.filename = row u.rows file.filename) (h : Settled u file) : u.turn s file = s.erase file.filename := by
  obtain ⟨entry, hentry, hsettled⟩ := h
  rw [turn, checkUpdate, show rowOf AppliedFileEntry.name s.applied file.filename = some entry from
    hrow.trans hentry]
  dsimp only
  rw [checkApplied]
  rcases hsettled with rfl | ⟨hredundancy, hstate, hfile⟩
  · simp [checkedOptions, entryOf]
  · simp [checkedOptions, hredundancy, hstate, hfile]

/-- Where all rows are settled, the loop only goes through them. -/
theorem foldl_settled {s : Progress D} {rest : List (LocaleFileEntry B)}
    (hfiles : (rest.map LocaleFileEntry.filename).Nodup)
    (hrow : ∀ n ∈ rest.map LocaleFileEntry.filename, row s.applied n = row u.rows n)
    (hsettled : ∀ file ∈ rest, Settled u file) :
    rest.foldl u.turn s = rest.foldl (fun s file => s.erase file.filename) s := by
  induction rest generalizing s with
  | nil => rfl
  | cons file rest ih =>
    rw [map_cons, nodup_cons] at hfiles
    rw [foldl_cons, foldl_cons,
      turn_settled (hrow _ mem_cons_self) (hsettled file mem_cons_self)]
    apply ih hfiles.2
    · intro n hn
      have hne : n ≠ file.filename := by
        rintro rfl
        exact hfiles.1 hn
      rw [Progress.row_erase, if_neg hne]
      exact hrow n (mem_cons_of_mem _ hn)
    · exact fun other hother => hsettled other (mem_cons_of_mem _ hother)

omit [DecidableEq D] in
theorem foldl_erase (files : List (LocaleFileEntry B)) (s : Progress D) :
    (files.foldl (fun s file => s.erase file.filename) s).commands = s.commands ∧
      (files.foldl (fun s file => s.erase file.filename) s).applied =
        s.applied.filter fun entry => ¬entry.name ∈ files.map LocaleFileEntry.filename := by
  induction files generalizing s with
  | nil => exact ⟨rfl, by simp⟩
  | cons file files ih =>
    obtain ⟨hcommands, happlied⟩ := ih (s.erase file.filename)
    refine ⟨hcommands, happlied.trans ?_⟩
    rw [Progress.erase, filter_filter]
    apply filter_congr
    intro entry _
    by_cases hentry : entry.name = file.filename
    · simp [hentry]
    · simp [hentry, mem_cons]

theorem update_settled
    (hnames : ∀ n ∈ u.rows.map AppliedFileEntry.name, n ∈ u.available.map LocaleFileEntry.filename)
    (hsettled : ∀ file ∈ u.available, Settled u file) :
    (update u.digest (checkedOptions u.archivedRedundancy) u.available u.rows).1 = [] := by
  have hloop : u.behind u.available =
      u.available.foldl (fun s file => s.erase file.filename) { applied := u.rows } :=
    foldl_settled u.available_nodup (fun _ _ => rfl) hsettled
  obtain ⟨hcommands, happlied⟩ := foldl_erase u.available ({ applied := u.rows } : Progress D)
  have hempty : (u.behind u.available).applied = [] := by
    rw [hloop, happlied, filter_eq_nil_iff]
    intro entry hentry
    simpa using hnames entry.name (mem_map_of_mem hentry)
  change (u.behind u.available).commands ++ cleanUp _ (u.behind u.available) = []
  rw [cleanUp, if_pos hempty, hloop, hcommands]
  rfl

theorem row_updated (hrows : NamesNodup u.rows) (hfile : file ∈ u.available) :
    row (checkedRows id u) file.filename = row (u.table (u.behind u.available)) file.filename :=
  (row_updatedRows hrows _).trans (if_pos (mem_map_of_mem hfile))

omit [DecidableEq D] in
/-- A new file is not skipped. -/
theorem not_skipped (h : row u.rows file.filename = none) : ¬u.Skipped file := by
  rintro ⟨-, -, entry, hentry, -⟩
  rw [h] at hentry
  cases hentry

section
variable (hrows : NamesNodup u.rows)
include hrows

theorem renamesApart_of_converged (h : Converged id u) : RenamesApart u := by
  have hupdated := updated_end hrows
  have hcurrent : ∀ file ∈ u.available, ∀ name, u.Renames file name →
      row (u.table (u.behind u.available)) file.filename = some (entryOf u.digest file) := by
    intro file hfile name hren
    rw [← row_updated hrows hfile]
    exact h.current file hfile (not_skipped hren.1)
  intro file hfile name hren
  have hrow := hcurrent file hfile name hren
  constructor
  · intro entry hentry
    rcases hupdated.renamed file hfile name hren with ⟨hnone, -⟩ | htaken
    · rw [hnone] at hrow
      cases hrow
    · rw [hrow, hentry, Option.map_some, Option.some.injEq] at htaken
      exact (congrArg AppliedFileEntry.state htaken).symm
  · intro other hother hren'
    have hsame : other.filename = file.filename := by
      apply hupdated.once other hother file hfile name hren' hren
      · rw [hcurrent other hother name hren']
        nofun
      · rw [hrow]
        nofun
    exact inj_on_of_nodup_map u.available_nodup hother hfile hsame

/-- The row of a file that is not skipped. -/
theorem current_of_renamesApart (h : RenamesApart u)
    (hfile : file ∈ u.available) (hskipped : ¬u.Skipped file) :
    row (checkedRows id u) file.filename = some (entryOf u.digest file) := by
  have hupdated := updated_end hrows
  rw [row_updated hrows hfile]
  by_cases hrenames : ∃ name, u.Renames file name
  · obtain ⟨name, hren⟩ := hrenames
    obtain ⟨hstate, halone⟩ := h file hfile name hren
    rcases hupdated.renamed file hfile name hren with ⟨-, other, hother, hne, hren'⟩ | htaken
    · exact absurd (congrArg LocaleFileEntry.filename (halone other hother hren')) hne
    · obtain ⟨entry, hentry, hhash⟩ := hash_cached hren.2.1 hrows
      rw [htaken, hentry, Option.map_some, hhash, hstate entry hentry]
      rfl
  · exact hupdated.current file hfile hskipped fun name hren => hrenames ⟨name, hren⟩

theorem converged_of_renamesApart (h : RenamesApart u) : Converged id u := by
  have hupdated := updated_end hrows
  have hnodup : NamesNodup (checkedRows id u) := namesNodup_checkedRows hrows
  have hskipped : ∀ file ∈ u.available, u.Skipped file →
      row (checkedRows id u) file.filename = row u.rows file.filename := by
    intro file hfile hskip
    rw [row_updated hrows hfile]
    exact hupdated.skipped file hfile hskip
  have hnames : ∀ n, n ∈ (checkedRows id u).map AppliedFileEntry.name ↔
      n ∈ u.available.map LocaleFileEntry.filename := by
    intro n
    rw [← not_iff_not, ← rowOf_eq_none]
    constructor
    · intro hnone hn
      obtain ⟨file, hfile, rfl⟩ := mem_map.mp hn
      by_cases hskip : u.Skipped file
      · rw [← row, hskipped file hfile hskip] at hnone
        exact not_skipped hnone hskip
      · exact absurd (hnone.symm.trans (current_of_renamesApart hrows h hfile hskip)) (by simp)
    · intro hn
      exact (row_updatedRows hrows n).trans (if_neg hn)
  refine ⟨hnodup, hnames, fun file hfile => current_of_renamesApart hrows h hfile, ?_⟩
  intro order hperm
  have hnodup' : NamesNodup order := (hperm.map _).nodup_iff.mpr hnodup
  have hrow : ∀ n, row order n = row (checkedRows id u) n := rowOf_perm hnodup' hperm
  apply update_settled (u := { u with rows := order })
  · intro n hn
    exact (hnames n).mp ((hperm.map _).mem_iff.mp hn)
  · intro file hfile
    rw [Settled, hrow]
    by_cases hskip : u.Skipped file
    · have hrow' := hskipped file hfile hskip
      obtain ⟨hredundancy, hstate, entry, hentry, harchived⟩ := hskip
      exact ⟨entry, hrow'.trans hentry, Or.inr ⟨hredundancy, harchived, hstate⟩⟩
    · exact ⟨entryOf u.digest file, current_of_renamesApart hrows h hfile hskip, Or.inl rfl⟩

end

/-- The rows that the statements of these files leave. -/
def left (key : String → K) (u : CheckedUpdate D B) (done : List (LocaleFileEntry B)) :
    List (AppliedFileEntry D) :=
  (u.behind done).commands.foldl (Command.exec key) u.rows

variable {done rest l : List (LocaleFileEntry B)} {x entry : AppliedFileEntry D} {n : String}

omit [DecidableEq D] [DecidableEq K] in
theorem namesNodup_of_keysNodup (h : KeysNodup key u.rows) : NamesNodup u.rows := by
  refine Nodup.of_map key ?_
  rw [map_map]
  exact h

omit [DecidableEq K] in
theorem eq_of_key (hrows : KeysNodup key u.rows) (hren : u.Renames file n)
    (hx : x ∈ u.rows) (hkey : key x.name = key n) : x.name = n := by
  obtain ⟨entry, hentry, -⟩ := hash_cached hren.2.1 (namesNodup_of_keysNodup hrows)
  have hname : entry.name = n := key_rowOf hentry
  rw [← hname] at hkey ⊢
  rw [inj_on_of_nodup_map hrows hx (mem_rowOf hentry) hkey]

omit [DecidableEq K] in
theorem exists_taken (hapart : KeysApart key u)
    (hall : u.available = done ++ rest) (hfile : file ∈ done) (hentry : entry ∈ u.rows)
    (hkey : key entry.name = key file.filename) (hne : entry.name ≠ file.filename) :
    ∃ other ∈ done, u.Renames other entry.name := by
  obtain ⟨before, after, rfl⟩ := append_of_mem hfile
  rw [append_assoc, cons_append] at hall
  obtain ⟨other, hother, hren⟩ := hapart.rows before file _ hall entry hentry hkey hne
  exact ⟨other, mem_append_left _ hother, hren⟩

section
variable (hrows : KeysNodup key u.rows)
include hrows

theorem exists_turn (hall : u.available = done ++ file :: rest) : ∃ commands,
    left key u (done ++ [file]) = commands.foldl (Command.exec key) (left key u done) ∧
    left id u (done ++ [file]) = commands.foldl (Command.exec id) (left id u done) ∧
    u.OwnStatements file key commands ∧ ∀ name, u.Renames file name →
      commands = renameEntry name file.filename := by
  have hupdated := updated_behind (namesNodup_of_keysNodup hrows) hall
  obtain ⟨-, hfile, hnew⟩ := turn_files hall
  have hunseen : ¬u.Seen done file.filename := by
    rintro ⟨other, hother, hname | hren⟩
    · exact hnew other hother hname
    · exact hren.ne hfile rfl
  have hown := hupdated.applied_unseen _ hunseen
  obtain ⟨commands, hcommands, hstatements⟩ :=
    exists_ownStatements key fun hnone => hown.symm.trans hnone
  rw [← behind_append] at hcommands
  refine ⟨commands, ?_, ?_, hstatements, fun name hren => ?_⟩
  · rw [left, hcommands, foldl_append, left]
  · rw [left, hcommands, foldl_append, left]
  · have hrename := turn_renames hren (hown.trans hren.1)
    rw [← behind_append, hcommands] at hrename
    exact append_cancel_left hrename

theorem keysNodup_left (hall : u.available = done ++ rest) : KeysNodup key (left key u done) := by
  induction done using reverseRecOn generalizing rest with
  | nil => exact hrows
  | append_singleton done file ih =>
    obtain ⟨commands, hleft, -, hstatements, -⟩ := exists_turn hrows (split_append hall)
    rw [hleft]
    exact hstatements.nodup _ (ih (split_append hall))

theorem names_left (hall : u.available = done ++ rest) (hx : x ∈ left key u done) :
    x.name ∈ u.rows.map AppliedFileEntry.name ∨ ∃ file ∈ done, file.filename = x.name := by
  induction done using reverseRecOn generalizing rest x with
  | nil => exact .inl (mem_map_of_mem hx)
  | append_singleton done file ih =>
    obtain ⟨commands, hleft, -, hstatements, -⟩ := exists_turn hrows (split_append hall)
    rw [hleft] at hx
    rcases names_of_foldl hx hstatements.made with hold | hnew
    · obtain ⟨old, hold, hsame⟩ := mem_map.mp hold
      rw [← hsame]
      refine (ih (split_append hall) hold).imp_right ?_
      rintro ⟨other, hother, hname⟩
      exact ⟨other, mem_append_left _ hother, hname⟩
    · exact .inr ⟨file, mem_append_right _ (mem_singleton_self _), hnew.symm⟩

/-- A name without a row gets one in the turn of its file only. -/
theorem absent_left (hall : u.available = (done ++ rest) ++ l)
    (h : n ∉ (left key u done).map AppliedFileEntry.name)
    (hother : ∀ file ∈ rest, file.filename ≠ n) :
    n ∉ (left key u (done ++ rest)).map AppliedFileEntry.name := by
  induction rest using reverseRecOn generalizing l with
  | nil =>
    rw [append_nil]
    exact h
  | append_singleton rest file ih =>
    rw [← append_assoc] at hall ⊢
    obtain ⟨commands, hleft, -, hstatements, -⟩ := exists_turn hrows (split_append hall)
    have hbefore := ih (split_append hall) fun other hmem => hother other (mem_append_left _ hmem)
    intro hn
    obtain ⟨x, hx, rfl⟩ := mem_map.mp hn
    rw [hleft] at hx
    rcases names_of_foldl hx hstatements.made with hold | hnew
    · exact hbefore hold
    · exact hother file (mem_append_right _ (mem_singleton_self _)) hnew.symm

/-- What is left after a file was taken for a renamed one. -/
theorem mem_left_renamed (hall : u.available = done ++ file :: rest) (hren : u.Renames file n)
    (hx : x ∈ left key u (done ++ [file])) : (x.name = file.filename ∧ ∃ old ∈ left key u done,
      key old.name = key n ∧ key old.name ≠ key file.filename) ∨
    (key x.name ≠ key n ∧ key x.name ≠ key file.filename) := by
  obtain ⟨commands, hleft, -, -, hrename⟩ := exists_turn hrows hall
  rw [hleft, hrename n hren] at hx
  exact mem_renameEntry hx

omit [DecidableEq K] in
/-- A row that is left is that of a file before, or one that was there and is not seen. -/
theorem left_cases (hall : u.available = done ++ rest) (hx : x ∈ u.table (u.behind done)) :
    (∃ file ∈ done, file.filename = x.name) ∨
      (x.name ∈ u.rows.map AppliedFileEntry.name ∧ ¬u.Seen done x.name) := by
  have hupdated := updated_behind (namesNodup_of_keysNodup hrows) hall
  have hthere : row (u.table (u.behind done)) x.name ≠ none := fun hnone =>
    rowOf_eq_none.mp hnone (mem_map_of_mem hx)
  by_cases hseen : u.Seen done x.name
  · obtain ⟨file, hfile, hname | hren⟩ := hseen
    · exact .inl ⟨file, hfile, hname⟩
    · exact absurd (hupdated.gone file hfile _ hren) hthere
  · refine .inr ⟨?_, hseen⟩
    rw [hupdated.unseen _ hseen] at hthere
    by_contra hnone
    exact hthere (rowOf_eq_none.mpr hnone)

section Exact
variable (hapart : KeysApart key u)
  (halone : ∀ file ∈ u.available, ∀ other ∈ u.available, ∀ name,
    u.Renames file name → u.Renames other name → other = file)
include hapart halone

omit [DecidableEq K] in
theorem apart_turn (hall : u.available = done ++ file :: rest) (hx : x ∈ u.table (u.behind done))
    (hn : n = file.filename ∨ u.Renames file n) (hkey : key x.name = key n) : x.name = n := by
  obtain ⟨hdone, hfile, hnew⟩ := turn_files hall
  rcases left_cases hrows hall hx with ⟨other, hother, hname⟩ | ⟨hold, hseen⟩
  · rcases hn with rfl | hren
    · rw [← hname] at hkey
      have hsame := inj_on_of_nodup_map hapart.files (hdone other hother) hfile hkey
      exact absurd (congrArg LocaleFileEntry.filename hsame) (hnew other hother)
    · obtain ⟨entry, hentry, -⟩ := hash_cached hren.2.1 (namesNodup_of_keysNodup hrows)
      obtain rfl : entry.name = n := key_rowOf hentry
      by_contra hne
      rw [← hname] at hkey hne
      obtain ⟨taker, htaker, hren'⟩ := exists_taken hapart hall hother
        (mem_rowOf hentry) hkey.symm (Ne.symm hne)
      have hsame := halone file hfile taker (hdone taker htaker) _ hren hren'
      exact hnew taker htaker (congrArg LocaleFileEntry.filename hsame)
  · obtain ⟨old, hmem, hsame⟩ := mem_map.mp hold
    rw [← hsame] at hkey hseen ⊢
    rcases hn with rfl | hren
    · by_contra hne
      obtain ⟨other, hother, hren⟩ := hapart.rows done file rest hall old hmem hkey hne
      exact hseen ⟨other, hother, .inr hren⟩
    · exact eq_of_key hrows hren hmem hkey

/-- The statements do what they mean. -/
theorem left_eq (hall : u.available = done ++ rest) : left key u done = left id u done := by
  induction done using reverseRecOn generalizing rest with
  | nil => rfl
  | append_singleton done file ih =>
    have hturn := split_append hall
    obtain ⟨hdone, hfile, hnew⟩ := turn_files hturn
    obtain ⟨commands, hleft, hleft', hstatements, -⟩ := exists_turn hrows hturn
    rw [hleft, hleft', ih hturn]
    have hrenamed : ∀ name, u.Renames file name → key name ≠ key file.filename := by
      intro name hren hkey
      obtain ⟨entry, hentry, -⟩ := hash_cached hren.2.1 (namesNodup_of_keysNodup hrows)
      obtain rfl : entry.name = name := key_rowOf hentry
      obtain ⟨taker, htaker, hren'⟩ := hapart.rows done file rest hturn entry (mem_rowOf hentry)
        hkey (hren.ne hfile)
      have hsame := halone file hfile taker (hdone taker htaker) _ hren hren'
      exact hnew taker htaker (congrArg LocaleFileEntry.filename hsame)
    refine foldl_exec_eq_id ?_ hstatements.looked
      (fun command hcommand n hn => .inl (hstatements.made command hcommand n hn))
      fun x hx n hn hkey => apart_turn hrows hapart halone hturn hx hn hkey
    rintro n m (rfl | hn) (rfl | hm) hkey
    · rfl
    · exact absurd hkey.symm (hrenamed m hm)
    · exact absurd hkey (hrenamed n hn)
    · exact hn.unique hm

theorem checkedRows_eq_id : checkedRows key u = checkedRows id u := by
  have hall : u.available = u.available ++ [] := (append_nil _).symm
  have hupdated := updated_end (namesNodup_of_keysNodup hrows)
  have hleft : (u.behind u.available).commands.foldl (Command.exec key) u.rows =
      (u.behind u.available).commands.foldl (Command.exec id) u.rows :=
    left_eq hrows hapart halone hall
  rw [checkedRows_eq, checkedRows_eq, hleft]
  refine Command.exec_eq_id fun x hx n hn hkey => ?_
  have hunseen : ¬u.Seen u.available n := fun hseen =>
    rowOf_eq_none.mp (hupdated.applied_seen n hseen) hn
  have hold : n ∈ u.rows.map AppliedFileEntry.name := by
    by_contra hnone
    have hrow := hupdated.applied_unseen n hunseen
    exact rowOf_eq_none.mp (hrow.trans (rowOf_eq_none.mpr hnone)) hn
  obtain ⟨entry, hentry, rfl⟩ := mem_map.mp hold
  rcases left_cases hrows hall hx with ⟨other, hother, hname⟩ | ⟨hthere, -⟩
  · by_contra hne
    rw [← hname] at hkey hne
    obtain ⟨taker, htaker, hren⟩ := exists_taken hapart hall hother hentry
      hkey.symm (Ne.symm hne)
    exact hunseen ⟨taker, htaker, .inr hren⟩
  · obtain ⟨old, hmem, hsame⟩ := mem_map.mp hthere
    rw [← hsame] at hkey ⊢
    rw [inj_on_of_nodup_map hrows hmem hentry hkey]

end Exact

section Necessary
variable (h : Converged key u)
include h

theorem files_apart : (u.available.map fun file => key file.filename).Nodup := by
  have hperm := (perm_ext_iff_of_nodup h.nodup u.available_nodup).mpr h.names
  have hnodup : KeysNodup key (checkedRows key u) := by
    rw [checkedRows_eq]
    exact keysNodup_deleteWhereName key _ (keysNodup_left hrows (append_nil _).symm)
  have hkeys := (hperm.map key).nodup_iff.mp (by rwa [map_map])
  rwa [map_map] at hkeys

/-- A file that has lost its row has none in the end. -/
theorem name_left (hall : u.available = done ++ file :: rest) {other : LocaleFileEntry B}
    (hother : other ∈ done ++ [file]) :
    other.filename ∈ (left key u (done ++ [file])).map AppliedFileEntry.name := by
  rw [← singleton_append, ← append_assoc] at hall
  by_contra habsent
  have hapart : ∀ later ∈ rest, later.filename ≠ other.filename := by
    intro later hlater hsame
    have hfiles := u.available_nodup
    rw [hall, map_append, nodup_append'] at hfiles
    exact hfiles.2.2 (mem_map_of_mem hother) (hsame ▸ mem_map_of_mem hlater)
  have hend := absent_left hrows (l := []) (by rw [append_nil, hall]) habsent hapart
  have hname := (h.names other.filename).mpr (by
    rw [hall]
    exact mem_map_of_mem (mem_append_left _ hother))
  obtain ⟨x, hx, hsame⟩ := mem_map.mp hname
  rw [checkedRows_eq] at hx
  rw [← hall] at hend
  exact hend (hsame ▸ mem_map_of_mem (mem_filter.mp hx).1)

theorem alone_before {other : LocaleFileEntry B} (hall : u.available = done ++ file :: rest)
    (hother : other ∈ done) (hren : u.Renames file n) (hren' : u.Renames other n) : False := by
  obtain ⟨hdone, hfile, hnew⟩ := turn_files hall
  have hown := name_left hrows h hall (mem_append_right _ (mem_singleton_self file))
  obtain ⟨x, hx, hname⟩ := mem_map.mp hown
  rcases mem_left_renamed hrows hall hren hx with ⟨-, old, hold, hkey, -⟩ | ⟨-, hkey⟩
  · rcases names_left hrows hall hold with hthere | ⟨third, hthird, hsame⟩
    · -- the row is the one that the other file took before
      obtain ⟨entry, hentry, hsame⟩ := mem_map.mp hthere
      have hsame := hsame.symm.trans (eq_of_key hrows hren hentry (hsame ▸ hkey))
      obtain ⟨before, after, rfl⟩ := append_of_mem hother
      have htaken : n ∉ (left key u (before ++ [other])).map AppliedFileEntry.name := by
        intro hn
        obtain ⟨y, hy, hyname⟩ := mem_map.mp hn
        have hall' : u.available = before ++ other :: (after ++ file :: rest) := by
          rw [hall, append_assoc, cons_append]
        rcases mem_left_renamed hrows hall' hren' hy with ⟨hrenamed, -⟩ | ⟨hkey', -⟩
        · exact hren'.ne (hdone other hother) (hyname.symm.trans hrenamed)
        · exact hkey' (congrArg key hyname)
      have hsplit : u.available = ((before ++ [other]) ++ after) ++ file :: rest := by
        rw [hall]
        simp
      have hbefore := absent_left hrows hsplit htaken fun later hlater => (hren.ne (hdone later
          (mem_append_right _ (mem_cons_of_mem _ hlater)))).symm
      rw [append_assoc, singleton_append] at hbefore
      exact hbefore (hsame ▸ mem_map_of_mem hold)
    · -- the row of another file is renamed instead
      have hlost := name_left hrows h hall (mem_append_left _ hthird)
      obtain ⟨y, hy, hyname⟩ := mem_map.mp hlost
      rcases mem_left_renamed hrows hall hren hy with ⟨hrenamed, -⟩ | ⟨hkey', -⟩
      · exact hnew third hthird (hyname.symm.trans hrenamed)
      · exact hkey' (by rw [hyname, hsame, hkey])
  · exact hkey (congrArg key hname)

theorem alone_of_converged : ∀ file ∈ u.available, ∀ other ∈ u.available, ∀ name,
    u.Renames file name → u.Renames other name → other = file := by
  intro file hfile other hother name hren hren'
  obtain ⟨before, after, hall⟩ := append_of_mem hfile
  rw [hall, mem_append, mem_cons] at hother
  rcases hother with hother | rfl | hother
  · exact (alone_before hrows h hall hother hren hren').elim
  · rfl
  · obtain ⟨between, rest, rfl⟩ := append_of_mem hother
    exact (alone_before hrows h (by rw [hall, append_assoc, cons_append])
      (mem_append_right before mem_cons_self) hren' hren).elim

/-- A second run that applies nothing needs the keys apart. -/
theorem keysApart_of_converged : KeysApart key u := by
  have hkeys := files_apart hrows h
  refine ⟨hkeys, fun before file after hall entry hentry hkey hne => ?_⟩
  obtain ⟨-, hfile, -⟩ := turn_files hall
  have hgone : ∀ other ∈ u.available, other.filename ≠ entry.name := by
    intro other hother hsame
    rw [← hsame] at hkey hne
    exact hne (congrArg LocaleFileEntry.filename (inj_on_of_nodup_map hkeys hother hfile hkey))
  by_cases htaken : ∃ other ∈ u.available, u.Renames other entry.name
  · obtain ⟨other, hother, hren⟩ := htaken
    rw [hall, mem_append] at hother
    rcases hother with hother | hother
    · exact ⟨other, hother, hren⟩
    obtain ⟨between, rest, hbetween⟩ := append_of_mem hother
    have hall' : u.available = (before ++ between) ++ other :: rest := by
      rw [hall, hbetween, append_assoc]
    have hmem : file ∈ (before ++ between) ++ [other] := by
      cases between with
      | nil =>
        cases hbetween
        exact mem_append_right _ (mem_singleton_self _)
      | cons first between =>
        cases hbetween
        exact mem_append_left _ (mem_append_right _ mem_cons_self)
    have hlost := name_left hrows h hall' hmem
    obtain ⟨x, hx, hname⟩ := mem_map.mp hlost
    rw [← hname] at hkey
    rcases mem_left_renamed hrows hall' hren hx with ⟨hrenamed, old, -, hold, hother⟩ | hx
    · exact absurd (by rw [hold, hkey, hrenamed]) hother
    · exact absurd hkey.symm hx.1
  · -- the row stays among those whose files are gone, and its key is deleted
    have hupdated := updated_end (namesNodup_of_keysNodup hrows)
    have hunseen : ¬u.Seen u.available entry.name := by
      rintro ⟨other, hother, hname | hren⟩
      · exact hgone other hother hname
      · exact htaken ⟨other, hother, hren⟩
    have hdead : entry.name ∈ (u.behind u.available).applied.map AppliedFileEntry.name := by
      by_contra hnone
      have hrow := (hupdated.applied_unseen _ hunseen).symm.trans (rowOf_eq_none.mpr hnone)
      exact rowOf_eq_none.mp hrow (mem_map_of_mem hentry)
    have hname := (h.names file.filename).mpr (mem_map_of_mem hfile)
    obtain ⟨x, hx, hsame⟩ := mem_map.mp hname
    rw [checkedRows_eq] at hx
    have hkept := of_decide_eq_true (mem_filter.mp hx).2
    exact absurd (mem_map.mpr ⟨_, hdead, by rw [hkey, hsame]⟩) hkept

end Necessary

end

theorem Converged.congr {L : Type*} [DecidableEq L] {other : String → L} (h : Converged key u)
    (hsame : checkedRows key u = checkedRows other u) : Converged other u :=
  ⟨hsame ▸ h.nodup, hsame ▸ h.names, hsame ▸ h.current, hsame ▸ h.again⟩

end

/-- A collation that does not tell cases apart. -/
def folded (name : String) : List Char := name.toList.map Char.toLower

/-- The row of one file is taken by another with its content before a file of the same key comes. -/
def renamedFile : CheckedUpdate Nat Nat where
  digest := id
  available :=
    [⟨"2016_07_30_00_world.sql", 7, .released⟩, ⟨"2016_07_31_00_world.sql", 8, .released⟩]
  rows := [⟨"2016_07_31_00_WORLD.sql", some 7, .released⟩]
  archivedRedundancy := false
  available_nodup := by decide

/-- Two new files with the content of a file that is gone: the second of them has no row. -/
def twoCopies : CheckedUpdate Nat Nat where
  digest := id
  available :=
    [⟨"2016_08_01_00_world.sql", 7, .released⟩, ⟨"2016_08_01_01_world.sql", 7, .released⟩]
  rows := [⟨"2016_07_31_00_world.sql", some 7, .released⟩]
  archivedRedundancy := false
  available_nodup := by decide

end LegionServer.Guarantees.UpdateConvergence
