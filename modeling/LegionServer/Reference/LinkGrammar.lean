import LegionServer.Source.Chat.Hyperlinks

/-!
# The grammar of links

What a link is made of, and which messages are made of links, without the parser. A link that
ends behind its data is `CutOff`: the parser has all that it wants before the text, and no text.
-/
namespace LegionServer.Reference.LinkGrammar
open Library Source.Chat

/-- How a color is written: an id after an `n` up to a colon, or eight characters. -/
inductive ColorPart : List Char → List Char → Prop
  | numeric (color : List Char) (h : ':' ∉ color) : ColorPart ('n' :: (color ++ [':'])) color
  | hex (color : List Char) (hlength : color.length = 8) (h : color.head? ≠ some 'n') :
    ColorPart color color

/-- `|c` color `|H` tag `|h` -/
def LinkHead (head color tag : List Char) : Prop :=
  ∃ part, ColorPart part color ∧ '|' ∉ tag ∧
    head = '|' :: 'c' :: (part ++ '|' :: 'H' :: (tag ++ ['|', 'h']))

/-- A tag without data, or a tag and its data. -/
inductive TagData : List Char → List Char → List Char → Prop
  | alone (tag : List Char) (h : ':' ∉ tag) : TagData tag tag []
  | data (tag data : List Char) (h : ':' ∉ tag) : TagData (tag ++ ':' :: data) tag data

/-- A text between brackets of which the second is the one that matches the first. -/
structure Matched (text : List Char) : Prop where
  inside : Scanning.Open '[' ']' 1 text
  closed : text.count '[' = text.count ']'

/-- A string that begins with a link, and the parts of the link. -/
def IsLink (str : List Char) (info : HyperlinkInfo) : Prop :=
  ∃ head tag, LinkHead head info.color tag ∧ TagData tag info.tag info.data ∧ Matched info.text ∧
    str = head ++ '[' :: (info.text ++ ']' :: '|' :: 'h' :: '|' :: 'r' :: info.tail)

/-- A string that ends where the text of a link would begin. -/
def CutOff (str : List Char) : Prop := 10 ≤ str.length ∧ ∃ color tag, LinkHead str color tag

/-- Every `|`, read in pairs from the left, has an allowed character behind it. -/
inductive Paired : List Char → Prop
  | nil : Paired []
  | char {c : Char} {str : List Char} (hc : c ≠ '|') (h : Paired str) : Paired (c :: str)
  | pair {next : Char} {str : List Char} (hnext : Hyperlinks.allowed next = true)
    (h : Paired str) : Paired ('|' :: next :: str)

/-- Text, escapes and accepted links, and then a rest with some property. -/
inductive Sequence (accepts : HyperlinkInfo → Bool) (last : List Char → Prop) : List Char → Prop
  | last {str : List Char} (h : last str) : Sequence accepts last str
  | char {c : Char} {str : List Char} (hc : c ≠ '|') (h : Sequence accepts last str) :
    Sequence accepts last (c :: str)
  | escape {str : List Char} (h : Sequence accepts last str) :
    Sequence accepts last ('|' :: '|' :: str)
  | link {str : List Char} {info : HyperlinkInfo} (hlink : IsLink str info)
    (haccepted : accepts info = true) (h : Sequence accepts last info.tail) :
    Sequence accepts last str

def LinksOnly (accepts : HyperlinkInfo → Bool) (str : List Char) : Prop :=
  Sequence accepts (· = []) str

/-- A message that is cut off in a link, which the check reaches. -/
def CutOffLater (accepts : HyperlinkInfo → Bool) (str : List Char) : Prop :=
  Paired str ∧ Sequence accepts CutOff str

end LegionServer.Reference.LinkGrammar
