import LegionServer.Library.PrefixOrder
import Mathlib.Data.List.DropRight

/-!
# Chat commands

The tree of commands, who sees a node of it and how a command is looked up and executed
(`ChatCommand.cpp:215-321`, `472-487`, `ChatCommandHelpers.h:54-73`, `Util.cpp:849-863`).
`charToLower` is `std::tolower` of the locale and a parameter; so are the permissions and what an
invoker does. The texts of the messages and of the help are left out.
-/
namespace LegionServer.Source.Chat
open Library

structure CommandPermissions (P : Type*) where
  requiredPermission : P
  /-- `Console::Yes` -/
  allowConsole : Bool

/-- A node with its `_subCommands`, the entries of the map in their order. -/
inductive ChatCommandNode (C P I : Type*) where
  | node (invoker : Option I) (permission : CommandPermissions P)
      (subCommands : List (List C × ChatCommandNode C P I))

structure ChatHandler (P : Type*) where
  isConsole : Bool
  hasPermission : P → Bool

variable {C P I : Type*}

abbrev CommandEntry (C P I : Type*) := List C × ChatCommandNode C P I

namespace ChatCommandNode

def invoker : ChatCommandNode C P I → Option I
  | node invoker _ _ => invoker

def permission : ChatCommandNode C P I → CommandPermissions P
  | node _ permission _ => permission

def subCommands : ChatCommandNode C P I → List (CommandEntry C P I)
  | node _ _ subCommands => subCommands

variable (who : ChatHandler P)

def isInvokerVisible (cmd : ChatCommandNode C P I) : Bool :=
  if cmd.invoker.isNone then false
  else if who.isConsole && !cmd.permission.allowConsole then false
  else who.hasPermission cmd.permission.requiredPermission

mutual

def isVisible : ChatCommandNode C P I → Bool
  | node invoker permission subCommands =>
    isInvokerVisible who (node invoker permission subCommands) || anyVisible subCommands

/-- `HasVisibleSubCommands`. -/
def anyVisible : List (List C × ChatCommandNode C P I) → Bool
  | [] => false
  | (_, cmd) :: subCommands => isVisible cmd || anyVisible subCommands

end

end ChatCommandNode

section Order

variable [LinearOrder C] (charToLower : C → C)

def stringEqualI (a b : List C) : Bool := a.map charToLower = b.map charToLower

def stringCompareLessI (a b : List C) : Bool := a.map charToLower < b.map charToLower

def stringStartsWithI (haystack needle : List C) : Bool :=
  stringEqualI charToLower (haystack.take needle.length) needle

mutual

/-- All maps of a tree are ordered by `StringCompareLessI`. -/
def ChatCommandNode.Ordered : ChatCommandNode C P I → Prop
  | .node _ _ subCommands => OrderedCommands subCommands

def OrderedCommands : List (List C × ChatCommandNode C P I) → Prop
  | [] => True
  | (name, cmd) :: commands =>
    (∀ entry ∈ commands, stringCompareLessI charToLower name entry.1 = true) ∧
      ChatCommandNode.Ordered cmd ∧ OrderedCommands commands

end

structure ChatSubCommandMap (C P I : Type*) [LinearOrder C] (charToLower : C → C) where
  entries : List (CommandEntry C P I)
  ordered : OrderedCommands charToLower entries

end Order

section Lookup

variable [LinearOrder C] (charToLower : C → C) (delimiter : C) (handler : ChatHandler P)

/-- `FilteredCommandListIterator::_skip`; an iterator is the list of the entries from it on. -/
def skip (token : List C) : List (CommandEntry C P I) → List (CommandEntry C P I)
  | [] => []
  | entry :: entries =>
    if !stringStartsWithI charToLower entry.1 token then []
    else if !entry.2.isVisible handler then skip token entries
    else entry :: entries

/-- A new `FilteredCommandListIterator`, from `lower_bound` on. -/
def filteredBegin (entries : List (CommandEntry C P I)) (token : List C) :
    List (CommandEntry C P I) :=
  skip charToLower handler token
    (entries.dropWhile fun entry => stringCompareLessI charToLower entry.1 token)

/-- What an iterator goes through from an entry on. -/
def filteredFrom (token : List C) : List (CommandEntry C P I) → List (CommandEntry C P I)
  | [] => []
  | entry :: entries =>
    if !stringStartsWithI charToLower entry.1 token then []
    else if !entry.2.isVisible handler then filteredFrom token entries
    else entry :: filteredFrom token entries

/-- A token and the tail behind the delimiters that follow it. -/
def tokenizeArgs (args : List C) : List C × List C :=
  (args.takeWhile (· ≠ delimiter), (args.dropWhile (· ≠ delimiter)).dropWhile (· = delimiter))

def trimmed (cmdStr : List C) : List C :=
  (cmdStr.dropWhile (· = delimiter)).rdropWhile (· = delimiter)

inductive TokenMatch (C P I : Type*) where
  | none
  | ambiguous (possibilities : List (CommandEntry C P I))
  | found (entry : CommandEntry C P I)

/-- The body of the loop of `TryExecuteCommand` for a token. -/
def matchToken (entries : List (CommandEntry C P I)) (token : List C) : TokenMatch C P I :=
  match filteredBegin charToLower handler entries token with
  | [] => .none
  | it1 :: rest =>
    if !stringEqualI charToLower it1.1 token then
      match skip charToLower handler token rest with
      | it2 :: rest => .ambiguous (it1 :: it2 :: filteredFrom charToLower handler token rest)
      | [] => .found it1
    else .found it1

inductive Descent (C P I : Type*) where
  /-- `ASSERT(!token.empty())` fails. -/
  | assertion
  | ambiguous (cmd : Option (ChatCommandNode C P I)) (token : List C)
      (possibilities : List (CommandEntry C P I))
  | stopped (cmd : Option (ChatCommandNode C P I)) (oldTail : List C)

theorem length_tail_lt {oldTail : List C} (htoken : (tokenizeArgs delimiter oldTail).1 ≠ []) :
    (tokenizeArgs delimiter oldTail).2.length < oldTail.length := by
  have hsplit := congrArg List.length
    (List.takeWhile_append_dropWhile (p := fun c => decide (c ≠ delimiter)) (l := oldTail))
  have hpos : 0 < (oldTail.takeWhile (· ≠ delimiter)).length := List.length_pos_iff.mpr htoken
  have hdrop := (List.dropWhile_suffix (l := oldTail.dropWhile (· ≠ delimiter))
    (· = delimiter)).length_le
  rw [List.length_append] at hsplit
  dsimp only [tokenizeArgs]
  omega

/-- The loop of `TryExecuteCommand`. -/
def descend (cmd : Option (ChatCommandNode C P I)) (map : List (CommandEntry C P I))
    (oldTail : List C) : Descent C P I :=
  if oldTail = [] then .stopped cmd oldTail
  else if _htoken : (tokenizeArgs delimiter oldTail).1 = [] then .assertion
  else
    match matchToken charToLower handler map (tokenizeArgs delimiter oldTail).1 with
    | .none => .stopped cmd oldTail
    | .ambiguous possibilities =>
      .ambiguous cmd (tokenizeArgs delimiter oldTail).1 possibilities
    | .found entry =>
      descend (some entry.2) entry.2.subCommands (tokenizeArgs delimiter oldTail).2
termination_by oldTail.length
decreasing_by exact length_tail_lt delimiter _htoken

structure Invocation where
  success : Bool
  sentErrorMessage : Bool

inductive CommandEffect (C P I : Type*) where
  | ambiguous (cmd : Option (ChatCommandNode C P I)) (token : List C)
      (possibilities : List (CommandEntry C P I))
  | invoke (invoker : I) (args : List C)
  | logCommandUsage (permission : P) (cmdStr : List C)
  | sendCommandHelp (cmd : ChatCommandNode C P I)

inductive ChatCommandError where
  | assertion
  deriving DecidableEq

variable (invoke : I → List C → Invocation)

/-- The end of `TryExecuteCommand` for a command that was matched. -/
def executeCommand (cmd : ChatCommandNode C P I) (oldTail cmdStr : List C) :
    List (CommandEffect C P I) :=
  match cmd.invoker with
  | none => [.sendCommandHelp cmd]
  | some invoker =>
    if cmd.isInvokerVisible handler then
      let result := invoke invoker oldTail
      .invoke invoker oldTail ::
        if result.success then
          if handler.isConsole then []
          else [.logCommandUsage cmd.permission.requiredPermission cmdStr]
        else if result.sentErrorMessage then []
        else [.sendCommandHelp cmd]
    else [.sendCommandHelp cmd]

/-- `TryExecuteCommand`: what it returns and what it does, in the order. -/
def tryExecuteCommand (map : ChatSubCommandMap C P I charToLower) (cmdStr : List C) :
    Except ChatCommandError (Bool × List (CommandEffect C P I)) :=
  match descend charToLower delimiter handler none map.entries (trimmed delimiter cmdStr) with
  | .assertion => .error .assertion
  | .ambiguous cmd token possibilities => .ok (true, [.ambiguous cmd token possibilities])
  | .stopped (some cmd) oldTail =>
    .ok (true, executeCommand handler invoke cmd oldTail (trimmed delimiter cmdStr))
  | .stopped none _ => .ok (false, [])

end Lookup

end LegionServer.Source.Chat
