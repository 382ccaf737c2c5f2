import LegionServer.Source.Chat.ChatCommand

/-!
# The command that a token names

A node of a level is named by a token when it is visible and has the token as its name, or
is the only visible node whose name begins with it.
-/
namespace LegionServer.Guarantees.CommandResolution
open Library Source.Chat List PrefixOrder

variable {C P I : Type*} [LinearOrder C] {charToLower : C → C} {delimiter : C}
  {handler : ChatHandler P}

section Levels

variable {level entries : List (CommandEntry C P I)} {token : List C} {entry : CommandEntry C P I}

/-- A visible node whose name begins with the token. -/
def Candidate (charToLower : C → C) (handler : ChatHandler P) (token : List C)
    (entry : CommandEntry C P I) : Prop :=
  entry.2.isVisible handler = true ∧ stringStartsWithI charToLower entry.1 token = true

instance : DecidablePred (Candidate (I := I) charToLower handler token) :=
  fun entry => inferInstanceAs (Decidable (entry.2.isVisible handler = true ∧
    stringStartsWithI charToLower entry.1 token = true))

/-- The node of a level that a token names. -/
structure Names (charToLower : C → C) (handler : ChatHandler P) (level : List (CommandEntry C P I))
    (token : List C) (entry : CommandEntry C P I) : Prop where
  mem : entry ∈ level
  visible : entry.2.isVisible handler = true
  name : stringEqualI charToLower entry.1 token = true ∨
    stringStartsWithI charToLower entry.1 token = true ∧
      ∀ other ∈ level, Candidate charToLower handler token other → other = entry

def NamesNone (charToLower : C → C) (handler : ChatHandler P) (level : List (CommandEntry C P I))
    (token : List C) : Prop :=
  ∀ entry ∈ level, ¬Candidate charToLower handler token entry

structure NamesSeveral (charToLower : C → C) (handler : ChatHandler P)
    (level : List (CommandEntry C P I)) (token : List C) : Prop where
  several : ∃ entry ∈ level, ∃ other ∈ level, entry ≠ other ∧
    Candidate charToLower handler token entry ∧ Candidate charToLower handler token other
  noneEqual : ∀ entry ∈ level, entry.2.isVisible handler = true →
    stringEqualI charToLower entry.1 token = false

/-- The visible nodes that begin with the token, in their order. -/
def candidates (charToLower : C → C) (handler : ChatHandler P)
    (level : List (CommandEntry C P I)) (token : List C) : List (CommandEntry C P I) :=
  level.filter fun entry => Candidate charToLower handler token entry

theorem mem_candidates : entry ∈ candidates charToLower handler level token ↔
    entry ∈ level ∧ Candidate charToLower handler token entry := by
  rw [candidates, mem_filter, decide_eq_true_iff]

theorem candidate_of_mem (hcandidates : candidates charToLower handler level token = entries)
    (hmem : entry ∈ entries) : entry ∈ level ∧ Candidate charToLower handler token entry :=
  mem_candidates.mp (hcandidates ▸ hmem)

theorem stringStartsWithI_iff {haystack needle : List C} :
    stringStartsWithI charToLower haystack needle = true ↔
      needle.map charToLower <+: haystack.map charToLower := by
  rw [stringStartsWithI, stringEqualI, decide_eq_true_iff, map_take, prefix_iff_eq_take, length_map]
  exact eq_comm

theorem startsWith_of_equal (h : stringEqualI charToLower entry.1 token = true) :
    stringStartsWithI charToLower entry.1 token = true := by
  have hname : entry.1.map charToLower = token.map charToLower := of_decide_eq_true h
  exact stringStartsWithI_iff.mpr (hname ▸ prefix_rfl)

theorem pairwise_of_ordered (h : OrderedCommands charToLower level) :
    level.Pairwise fun a b => a.1.map charToLower < b.1.map charToLower := by
  induction level with
  | nil => exact List.Pairwise.nil
  | cons entry level ih =>
    obtain ⟨habove, -, hrest⟩ := h
    exact pairwise_cons.mpr ⟨fun other hmem => of_decide_eq_true (habove other hmem), ih hrest⟩

theorem ordered_of_mem (h : OrderedCommands charToLower level) (hmem : entry ∈ level) :
    OrderedCommands charToLower entry.2.subCommands := by
  induction level with
  | nil => cases hmem
  | cons first level ih =>
    obtain ⟨-, hfirst, hrest⟩ := h
    rcases mem_cons.mp hmem with rfl | hmem
    · obtain ⟨name, ⟨invoker, permission, subCommands⟩⟩ := entry
      exact hfirst
    · exact ih hrest hmem

theorem filteredFrom_eq : filteredFrom charToLower handler token entries =
    (entries.takeWhile fun entry => stringStartsWithI charToLower entry.1 token).filter
      fun entry => entry.2.isVisible handler := by
  induction entries with
  | nil => rfl
  | cons entry entries ih =>
    rw [filteredFrom, takeWhile_cons]
    cases stringStartsWithI charToLower entry.1 token with
    | false => rfl
    | true =>
      rw [if_neg (by simp), if_pos rfl, filter_cons, ih]
      cases entry.2.isVisible handler <;> rfl

theorem filteredFrom_skip : filteredFrom charToLower handler token entries =
    match skip charToLower handler token entries with
    | [] => []
    | entry :: rest => entry :: filteredFrom charToLower handler token rest := by
  induction entries with
  | nil => rfl
  | cons entry entries ih =>
    rw [filteredFrom, skip]
    cases stringStartsWithI charToLower entry.1 token with
    | false => rfl
    | true =>
      cases entry.2.isVisible handler with
      | false => exact ih
      | true => rfl

section
variable (h : OrderedCommands charToLower level)
include h

theorem filteredFrom_lowerBound :
    filteredFrom charToLower handler token
        (level.dropWhile fun entry => stringCompareLessI charToLower entry.1 token) =
      candidates charToLower handler level token := by
  have hrun := filter_prefix (t := token.map charToLower) (pairwise_of_ordered h)
  have hstarts : (fun entry : CommandEntry C P I => stringStartsWithI charToLower entry.1 token) =
      fun entry => decide (token.map charToLower <+: entry.1.map charToLower) := by
    funext entry
    rw [Bool.eq_iff_iff, stringStartsWithI_iff, decide_eq_true_iff]
  rw [filteredFrom_eq, hstarts]
  unfold stringCompareLessI
  rw [hrun, filter_filter, candidates]
  apply filter_congr
  intro entry _
  rw [Bool.eq_iff_iff, decide_eq_true_iff, Bool.and_eq_true, decide_eq_true_iff, Candidate,
    stringStartsWithI_iff]

theorem matchToken_eq :
    matchToken charToLower handler level token =
      match candidates charToLower handler level token with
      | [] => .none
      | [entry] => .found entry
      | entry :: other :: rest =>
        if stringEqualI charToLower entry.1 token then .found entry
        else .ambiguous (entry :: other :: rest) := by
  rw [← filteredFrom_lowerBound h, filteredFrom_skip, matchToken, filteredBegin]
  cases skip charToLower handler token
      (level.dropWhile fun entry => stringCompareLessI charToLower entry.1 token) with
  | nil => rfl
  | cons it1 rest =>
    dsimp only
    rw [@filteredFrom_skip _ _ _ _ _ _ rest]
    cases skip charToLower handler token rest with
    | nil => cases stringEqualI charToLower it1.1 token <;> rfl
    | cons it2 rest =>
      dsimp only
      cases stringEqualI charToLower it1.1 token <;> rfl

theorem pairwise_candidates (hcandidates : candidates charToLower handler level token = entries) :
    entries.Pairwise fun a b => a.1.map charToLower < b.1.map charToLower := by
  rw [← hcandidates]
  exact (pairwise_of_ordered h).sublist filter_sublist

end

variable {rest : List (CommandEntry C P I)}

section
variable (h : OrderedCommands charToLower level)
include h

theorem head_of_equal {first : CommandEntry C P I}
    (hcandidates : candidates charToLower handler level token = first :: rest)
    (hmem : entry ∈ first :: rest) (hequal : stringEqualI charToLower entry.1 token = true) :
    entry = first := by
  rcases mem_cons.mp hmem with rfl | hrest
  · rfl
  have hfirst := candidate_of_mem hcandidates mem_cons_self
  have hprefix := stringStartsWithI_iff.mp hfirst.2.2
  have hlt := (pairwise_cons.mp (pairwise_candidates h hcandidates)).1 entry hrest
  rw [of_decide_eq_true hequal] at hlt
  exact absurd hlt (prefix_not_lt hprefix)

theorem second_ne {first second : CommandEntry C P I}
    (hcandidates : candidates charToLower handler level token = first :: second :: rest) :
    first ≠ second := by
  have hsorted := pairwise_cons.mp (pairwise_candidates h hcandidates)
  have hlt := hsorted.1 second mem_cons_self
  rintro rfl
  exact lt_irrefl _ hlt

/-- An exact name, or the only prefix that is visible. -/
theorem matchToken_found_iff :
    matchToken charToLower handler level token = .found entry ↔
      Names charToLower handler level token entry := by
  rw [matchToken_eq h]
  constructor
  · intro hmatch
    cases hcandidates : candidates charToLower handler level token with
    | nil =>
      rw [hcandidates] at hmatch
      cases hmatch
    | cons first rest =>
      rw [hcandidates] at hmatch
      have hfirst := candidate_of_mem hcandidates mem_cons_self
      cases rest with
      | nil =>
        cases hmatch
        refine ⟨hfirst.1, hfirst.2.1, Or.inr ⟨hfirst.2.2, fun other hmem hother => ?_⟩⟩
        have honly : other ∈ candidates charToLower handler level token :=
          mem_candidates.mpr ⟨hmem, hother⟩
        rw [hcandidates] at honly
        exact mem_singleton.mp honly
      | cons second rest =>
        dsimp only at hmatch
        by_cases hequal : stringEqualI charToLower first.1 token = true
        · rw [if_pos hequal] at hmatch
          cases hmatch
          exact ⟨hfirst.1, hfirst.2.1, Or.inl hequal⟩
        · rw [if_neg hequal] at hmatch
          cases hmatch
  · rintro ⟨hmem, hvisible, hname⟩
    have hstarts : stringStartsWithI charToLower entry.1 token = true :=
      hname.elim startsWith_of_equal And.left
    have hentry : entry ∈ candidates charToLower handler level token :=
      mem_candidates.mpr ⟨hmem, hvisible, hstarts⟩
    cases hcandidates : candidates charToLower handler level token with
    | nil =>
      rw [hcandidates] at hentry
      cases hentry
    | cons first rest =>
      rw [hcandidates] at hentry
      cases rest with
      | nil => rw [mem_singleton.mp hentry]
      | cons second rest =>
        rcases hname with hequal | ⟨-, honly⟩
        · have hfirst := head_of_equal h hcandidates hentry hequal
          dsimp only
          rw [← hfirst, if_pos hequal]
        · -- two candidates differ, so none of them is the only one
          have hone := candidate_of_mem hcandidates mem_cons_self
          have htwo := candidate_of_mem hcandidates (mem_cons_of_mem first mem_cons_self)
          exact absurd ((honly first hone.1 hone.2).trans (honly second htwo.1 htwo.2).symm)
            (second_ne h hcandidates)

theorem matchToken_none_iff :
    matchToken charToLower handler level token = .none ↔
      NamesNone charToLower handler level token := by
  have hnil : candidates charToLower handler level token = [] ↔
      NamesNone charToLower handler level token := by
    rw [candidates, filter_eq_nil_iff, NamesNone]
    simp only [decide_eq_true_iff]
  rw [matchToken_eq h, ← hnil]
  cases candidates charToLower handler level token with
  | nil => exact iff_of_true rfl rfl
  | cons first rest =>
    refine iff_of_false ?_ (cons_ne_nil first rest)
    cases rest with
    | nil => exact fun h => nomatch h
    | cons second rest =>
      dsimp only
      split <;> exact fun h => nomatch h

theorem matchToken_ambiguous_iff {possibilities : List (CommandEntry C P I)} :
    matchToken charToLower handler level token = .ambiguous possibilities ↔
      NamesSeveral charToLower handler level token ∧
        possibilities = candidates charToLower handler level token := by
  rw [matchToken_eq h]
  constructor
  · intro hmatch
    cases hcandidates : candidates charToLower handler level token with
    | nil =>
      rw [hcandidates] at hmatch
      cases hmatch
    | cons first rest =>
      rw [hcandidates] at hmatch
      cases rest with
      | nil => cases hmatch
      | cons second rest =>
        dsimp only at hmatch
        by_cases hequal : stringEqualI charToLower first.1 token = true
        · rw [if_pos hequal] at hmatch
          cases hmatch
        rw [if_neg hequal] at hmatch
        cases hmatch
        have hone := candidate_of_mem hcandidates mem_cons_self
        have htwo := candidate_of_mem hcandidates (mem_cons_of_mem first mem_cons_self)
        refine ⟨⟨⟨first, hone.1, second, htwo.1, second_ne h hcandidates, hone.2, htwo.2⟩,
          fun entry hmem hvisible => ?_⟩, rfl⟩
        by_contra hname
        have hentry := (Bool.not_eq_false _).mp hname
        have hcandidate : entry ∈ candidates charToLower handler level token :=
          mem_candidates.mpr ⟨hmem, hvisible, startsWith_of_equal hentry⟩
        rw [hcandidates] at hcandidate
        rw [head_of_equal h hcandidates hcandidate hentry] at hentry
        exact hequal hentry
  · rintro ⟨⟨⟨entry, hentry, other, hother, hne, hcand, hcand'⟩, hnone⟩, rfl⟩
    have hmem := mem_candidates.mpr ⟨hentry, hcand⟩
    have hmem' := mem_candidates.mpr ⟨hother, hcand'⟩
    cases hcandidates : candidates charToLower handler level token with
    | nil =>
      rw [hcandidates] at hmem
      cases hmem
    | cons first rest =>
      rw [hcandidates] at hmem hmem'
      cases rest with
      | nil =>
        exact absurd ((mem_singleton.mp hmem).trans (mem_singleton.mp hmem').symm) hne
      | cons second rest =>
        have hone := candidate_of_mem hcandidates mem_cons_self
        dsimp only
        rw [hnone first hone.1 hone.2.1]
        rfl

end

end Levels

section Descents

def firstToken (delimiter : C) (oldTail : List C) : List C := (tokenizeArgs delimiter oldTail).1

/-- The way down along named nodes: the node reached, the level below it and the unmatched rest. -/
inductive Reaches (charToLower : C → C) (delimiter : C) (handler : ChatHandler P) :
    Option (ChatCommandNode C P I) → List (CommandEntry C P I) → List C →
      Option (ChatCommandNode C P I) → List (CommandEntry C P I) → List C → Prop
  | here {cmd level oldTail} :
      Reaches charToLower delimiter handler cmd level oldTail cmd level oldTail
  | down {cmd cmd' level level' oldTail rest} {entry : CommandEntry C P I} (hne : oldTail ≠ [])
      (hnames : Names charToLower handler level (firstToken delimiter oldTail) entry)
      (hrest : Reaches charToLower delimiter handler (some entry.2) entry.2.subCommands
        (tokenizeArgs delimiter oldTail).2 cmd' level' rest) :
      Reaches charToLower delimiter handler cmd level oldTail cmd' level' rest

variable {cmd cmd' : Option (ChatCommandNode C P I)} {level level' : List (CommandEntry C P I)}
  {oldTail rest : List C}

/-- The descent ends here, at the end of the input or at a token that names no node. -/
def Stopped (charToLower : C → C) (delimiter : C) (handler : ChatHandler P)
    (level : List (CommandEntry C P I)) (rest : List C) : Prop :=
  rest = [] ∨ NamesNone charToLower handler level (firstToken delimiter rest)

def Ready (delimiter : C) (oldTail : List C) : Prop := oldTail.head? ≠ some delimiter

theorem ready_dropWhile (str : List C) : Ready delimiter (str.dropWhile (· = delimiter)) := by
  intro h
  have hhead := head?_dropWhile_not (fun c => decide (c = delimiter)) str
  rw [h] at hhead
  simp at hhead

theorem ready_trimmed (cmdStr : List C) : Ready delimiter (trimmed delimiter cmdStr) := by
  intro h
  have hprefix := rdropWhile_prefix (· = delimiter) (cmdStr.dropWhile (· = delimiter))
  obtain ⟨rest, hrest⟩ := hprefix
  have hhead : (cmdStr.dropWhile (· = delimiter)).head? = some delimiter := by
    rw [← hrest, head?_append]
    rw [trimmed] at h
    rw [h]
    rfl
  exact ready_dropWhile cmdStr hhead

theorem firstToken_ne_nil (h : Ready delimiter oldTail) (hne : oldTail ≠ []) :
    firstToken delimiter oldTail ≠ [] := by
  obtain ⟨c, str, rfl⟩ := exists_cons_of_ne_nil hne
  have hc : c ≠ delimiter := fun hc => h (by rw [hc, head?_cons])
  rw [firstToken, tokenizeArgs, takeWhile_cons, if_pos (decide_eq_true hc)]
  exact cons_ne_nil _ _

theorem descend_eq (hready : Ready delimiter oldTail) (hne : oldTail ≠ []) :
    descend charToLower delimiter handler cmd level oldTail =
      match matchToken charToLower handler level (firstToken delimiter oldTail) with
      | .none => .stopped cmd oldTail
      | .ambiguous possibilities => .ambiguous cmd (firstToken delimiter oldTail) possibilities
      | .found entry =>
        descend charToLower delimiter handler (some entry.2) entry.2.subCommands
          (tokenizeArgs delimiter oldTail).2 := by
  rw [descend, if_neg hne]
  exact dif_neg (firstToken_ne_nil hready hne)

section
variable (hordered : OrderedCommands charToLower level) (hready : Ready delimiter oldTail)
include hordered hready

theorem descend_of_reaches
    (h : Reaches charToLower delimiter handler cmd level oldTail cmd' level' rest) :
    descend charToLower delimiter handler cmd level oldTail =
        descend charToLower delimiter handler cmd' level' rest ∧
      OrderedCommands charToLower level' ∧ Ready delimiter rest := by
  induction h with
  | here => exact ⟨rfl, hordered, hready⟩
  | down hne hnames hrest ih =>
    obtain ⟨hrun, hlast⟩ := ih (ordered_of_mem hordered hnames.mem) (ready_dropWhile _)
    refine ⟨?_, hlast⟩
    rw [descend_eq hready hne, (matchToken_found_iff hordered).mpr hnames]
    exact hrun

theorem descend_stopped (h : Stopped charToLower delimiter handler level oldTail) :
    descend charToLower delimiter handler cmd level oldTail = .stopped cmd oldTail := by
  by_cases hne : oldTail = []
  · rw [descend, if_pos hne]
  · rw [descend_eq hready hne, (matchToken_none_iff hordered).mpr (h.resolve_left hne)]

theorem descend_ambiguous (hne : oldTail ≠ [])
    (h : NamesSeveral charToLower handler level (firstToken delimiter oldTail)) :
    descend charToLower delimiter handler cmd level oldTail =
      .ambiguous cmd (firstToken delimiter oldTail)
        (candidates charToLower handler level (firstToken delimiter oldTail)) := by
  rw [descend_eq hready hne, (matchToken_ambiguous_iff hordered).mpr ⟨h, rfl⟩]

theorem exists_reaches (cmd : Option (ChatCommandNode C P I)) :
    ∃ cmd' level' rest, Reaches charToLower delimiter handler cmd level oldTail cmd' level' rest ∧
      (Stopped charToLower delimiter handler level' rest ∨
        rest ≠ [] ∧ NamesSeveral charToLower handler level' (firstToken delimiter rest)) := by
  induction hlength : oldTail.length using Nat.strong_induction_on
    generalizing cmd level oldTail with
  | _ n ih =>
    by_cases hne : oldTail = []
    · exact ⟨cmd, level, oldTail, .here, Or.inl (Or.inl hne)⟩
    cases hmatch : matchToken charToLower handler level (firstToken delimiter oldTail) with
    | none =>
      exact ⟨cmd, level, oldTail, .here, Or.inl (Or.inr ((matchToken_none_iff hordered).mp hmatch))⟩
    | ambiguous possibilities =>
      exact ⟨cmd, level, oldTail, .here,
        Or.inr ⟨hne, ((matchToken_ambiguous_iff hordered).mp hmatch).1⟩⟩
    | found entry =>
      have hnames := (matchToken_found_iff hordered).mp hmatch
      have hshorter : (tokenizeArgs delimiter oldTail).2.length < n :=
        hlength ▸ length_tail_lt delimiter (firstToken_ne_nil hready hne)
      obtain ⟨cmd', level', rest, hreaches, hend⟩ := ih _ hshorter
        (ordered_of_mem hordered hnames.mem) (ready_dropWhile _) (some entry.2) rfl
      exact ⟨cmd', level', rest, .down hne hnames hreaches, hend⟩

end

theorem Reaches.suffix
    (h : Reaches charToLower delimiter handler cmd level oldTail cmd' level' rest) :
    rest <:+ oldTail := by
  induction h with
  | here => exact suffix_rfl
  | @down _ _ _ _ oldTail _ _ _ _ _ ih =>
    exact ih.trans ((dropWhile_suffix _).trans (dropWhile_suffix _))

end Descents

section Execution

variable {invoke : I → List C → Invocation} {cmd : ChatCommandNode C P I}
  {rest cmdStr : List C}

omit [LinearOrder C] in
/-- An invoker is executed where it is visible, with the rest. -/
theorem invoke_mem {invoker : I} {args : List C} :
    .invoke invoker args ∈ executeCommand handler invoke cmd rest cmdStr ↔
      cmd.invoker = some invoker ∧ cmd.isInvokerVisible handler = true ∧ args = rest := by
  rw [executeCommand]
  cases hinvoker : cmd.invoker with
  | none => simp
  | some known =>
    dsimp only
    by_cases hvisible : cmd.isInvokerVisible handler = true
    · have hmore : .invoke invoker args ∉ (if (invoke known rest).success then
          if handler.isConsole then []
          else [CommandEffect.logCommandUsage cmd.permission.requiredPermission cmdStr]
        else if (invoke known rest).sentErrorMessage then []
        else [.sendCommandHelp cmd] : List (CommandEffect C P I)) := by
        split <;> split <;> simp
      rw [if_pos hvisible, mem_cons]
      constructor
      · rintro (heq | hmem)
        · cases heq
          exact ⟨rfl, hvisible, rfl⟩
        · exact absurd hmem hmore
      · rintro ⟨heq, -, rfl⟩
        cases heq
        exact Or.inl rfl
    · rw [if_neg hvisible]
      simp [hvisible]

end Execution

/-- A token is resolved to the node that it names. -/
theorem command_resolution (charToLower : C → C) (delimiter : C) (handler : ChatHandler P)
    (invoke : I → List C → Invocation) :
    (∀ (map : ChatSubCommandMap C P I charToLower) (token : List C) (entry : CommandEntry C P I),
      matchToken charToLower handler map.entries token = .found entry ↔
        Names charToLower handler map.entries token entry) ∧
    ∀ (map : ChatSubCommandMap C P I charToLower) (cmdStr : List C), (∃ cmd level rest,
        Reaches charToLower delimiter handler none map.entries (trimmed delimiter cmdStr)
          cmd level rest ∧
        (Stopped charToLower delimiter handler level rest ∨
          rest ≠ [] ∧ NamesSeveral charToLower handler level (firstToken delimiter rest))) ∧
      ∀ cmd level rest,
        Reaches charToLower delimiter handler none map.entries (trimmed delimiter cmdStr)
          cmd level rest →
        rest <:+ trimmed delimiter cmdStr ∧
        (Stopped charToLower delimiter handler level rest →
          ∃ effects, tryExecuteCommand charToLower delimiter handler invoke map cmdStr =
              .ok (cmd.isSome, effects) ∧
            ∀ invoker args, .invoke invoker args ∈ effects ↔ ∃ node, cmd = some node ∧
              node.invoker = some invoker ∧ node.isInvokerVisible handler = true ∧ args = rest) ∧
        (rest ≠ [] → NamesSeveral charToLower handler level (firstToken delimiter rest) →
          tryExecuteCommand charToLower delimiter handler invoke map cmdStr =
            .ok (true, [.ambiguous cmd (firstToken delimiter rest)
              (candidates charToLower handler level (firstToken delimiter rest))])) := by
  refine ⟨fun map token entry => matchToken_found_iff map.ordered, fun map cmdStr =>
    ⟨exists_reaches map.ordered (ready_trimmed cmdStr) none, fun cmd level rest h => ?_⟩⟩
  obtain ⟨hrun, hordered, hready⟩ := descend_of_reaches map.ordered (ready_trimmed cmdStr) h
  refine ⟨h.suffix, fun hstopped => ?_, fun hne hseveral => ?_⟩
  · rw [tryExecuteCommand, hrun, descend_stopped hordered hready hstopped]
    cases cmd with
    | none => exact ⟨[], rfl, by simp⟩
    | some node =>
      refine ⟨_, rfl, fun invoker args => ?_⟩
      rw [invoke_mem]
      constructor
      · exact fun hinvoked => ⟨node, rfl, hinvoked⟩
      · rintro ⟨_, ⟨⟩, hinvoked⟩
        exact hinvoked
  · rw [tryExecuteCommand, hrun, descend_ambiguous hordered hready hne hseveral]

end LegionServer.Guarantees.CommandResolution
