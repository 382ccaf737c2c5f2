import LegionServer.Library.Scanning

/-!
# Hyperlinks

The parser of a link and the check of all links of a message (`Hyperlinks.cpp:38-133`,
`880-926`). A text is a list of characters; reading one at an index that the text does not have
is a fault. What `ValidateLinkInfo` says of a link is left to the caller.
-/
namespace LegionServer.Source.Chat
open Library

inductive Fault
  | outsideOfString
  deriving DecidableEq, Repr

def charAt (str : List Char) (pos : Nat) : Except Fault Char :=
  match str[pos]? with
  | some c => .ok c
  | none => .error .outsideOfString

def removePrefix (start str : List Char) : Option (List Char) :=
  if start.isPrefixOf str then some (str.drop start.length) else none

structure HyperlinkInfo where
  tail : List Char
  color : List Char
  tag : List Char
  data : List Char
  text : List Char
  deriving DecidableEq, Repr

namespace Hyperlinks

/-- The color: an id after an `n`, or eight characters. -/
def colorPart (str : List Char) : Option (List Char × List Char) :=
  if str.length < 8 then none
  else
    match str with
    -- numeric color id
    | 'n' :: str => Scanning.cut ':' str
    -- hex color
    | str => some (str.take 8, str.drop 8)

/-- The tag, split at the first data separator if there is one. -/
def splitTag (tag : List Char) : List Char × List Char :=
  (Scanning.cut ':' tag).getD (tag, [])

/-- The link up to the end of its data: color, tag with data and what follows. -/
def linkHead (str : List Char) : Option (List Char × List Char × List Char) := do
  let str ← removePrefix ['|', 'c'] str
  let (color, str) ← colorPart str
  let str ← removePrefix ['|', 'H'] str
  let (tag, str) ← Scanning.cut '|' str
  -- next should be the link data end tag
  let str ← removePrefix ['h'] str
  some (color, tag, str)

/-- The text between the brackets and what follows. Where the first bracket is not closed, the
text is empty and all of the string is left. -/
def linkText (str : List Char) : List Char × List Char :=
  match Scanning.close '[' ']' 0 str with
  | some (name, str) => (name.drop 1, str)
  | none => ([], str)

def parseSingleHyperlink (str : List Char) : Except Fault (Option HyperlinkInfo) :=
  match linkHead str with
  | none => .ok none
  | some (color, tag, str) => do
    let (tag, data) := splitTag tag
    -- there may be nothing behind the end tag
    let first ← charAt str 0
    if first ≠ '[' then return none
    let (text, str) := linkText str
    match removePrefix ['|', 'h', '|', 'r'] str with
    | none => return none
    | some tail => return some { tail, color, tag, data, text }

/-- What may stand behind a `|`. -/
def allowed (next : Char) : Bool :=
  next = 'H' || next = 'h' || next = 'c' || next = 'A' || next = 'a' || next = 'r' || next = '|'

/-- Step 1 of `CheckAllLinks`. -/
def controlSequencesAllowed : List Char → Bool
  | [] => true
  | '|' :: [] => false
  | '|' :: next :: str => allowed next && controlSequencesAllowed str
  | _ :: str => controlSequencesAllowed str

variable (validateLinkInfo : HyperlinkInfo → Bool)

/-- Step 2, with fuel for the loop. -/
def linksValid : Nat → List Char → Except Fault Bool
  | 0, _ => .ok true
  | fuel + 1, str =>
    match str.dropWhile (· ≠ '|') with
    | [] => .ok true
    | link => do
      let next ← charAt link 1
      if next = '|' then
        -- an escaped pipe character
        linksValid fuel (link.drop 2)
      else
        match ← parseSingleHyperlink link with
        | none => return false
        | some info => if validateLinkInfo info then linksValid fuel info.tail else return false

def checkAllLinks (str : List Char) : Except Fault Bool :=
  if controlSequencesAllowed str then linksValid validateLinkInfo (str.length + 1) str
  else .ok false

end Hyperlinks

end LegionServer.Source.Chat
