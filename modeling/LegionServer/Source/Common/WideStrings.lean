import Mathlib.Data.List.Basic

/-!
# UTF-8 validity

`utf8::is_valid` (`utf8cpp/utf8/core.h:129-385`, `443-471`): `find_invalid` goes on while
`validate_next` accepts a sequence.
-/
namespace LegionServer.Source.Common.Utf8

def LEAD_SURROGATE_MIN : Nat := 0xd800
def TRAIL_SURROGATE_MAX : Nat := 0xdfff
def CODE_POINT_MAX : Nat := 0x10ffff

def isTrail (oc : UInt8) : Bool := oc >>> 6 == 0x2

def isSurrogate (cp : Nat) : Bool :=
  decide (cp ≥ LEAD_SURROGATE_MIN) && decide (cp ≤ TRAIL_SURROGATE_MAX)

def isCodePointValid (cp : Nat) : Bool := decide (cp ≤ CODE_POINT_MAX) && !isSurrogate cp

def sequenceLength (lead : UInt8) : Nat :=
  if lead < 0x80 then 1
  else if lead >>> 5 == 0x6 then 2
  else if lead >>> 4 == 0xe then 3
  else if lead >>> 3 == 0x1e then 4
  else 0

def isOverlongSequence (cp length : Nat) : Bool :=
  if cp < 0x80 then length != 1
  else if cp < 0x800 then length != 2
  else if cp < 0x10000 then length != 3
  else false

/-- The security checks of `validate_next`. -/
def accepts (cp length : Nat) : Bool := isCodePointValid cp && !isOverlongSequence cp length

/-- `is_valid`; the sequences of two to four octets are those of `get_sequence_2` to
`get_sequence_4`. -/
def isValid : List UInt8 → Bool
  | [] => true
  | lead :: rest =>
    match sequenceLength lead with
    | 1 => accepts lead.toNat 1 && isValid rest
    | 2 =>
      match rest with
      | second :: rest =>
        isTrail second &&
          accepts (((lead.toNat <<< 6) &&& 0x7ff) + (second.toNat &&& 0x3f)) 2 && isValid rest
      | [] => false
    | 3 =>
      match rest with
      | second :: third :: rest =>
        isTrail second && isTrail third &&
          accepts (((lead.toNat <<< 12) &&& 0xffff) + ((second.toNat <<< 6) &&& 0xfff) +
            (third.toNat &&& 0x3f)) 3 && isValid rest
      | _ => false
    | 4 =>
      match rest with
      | second :: third :: fourth :: rest =>
        isTrail second && isTrail third && isTrail fourth &&
          accepts (((lead.toNat <<< 18) &&& 0x1fffff) + ((second.toNat <<< 12) &&& 0x3ffff) +
            ((third.toNat <<< 6) &&& 0xfff) + (fourth.toNat &&& 0x3f)) 4 && isValid rest
      | _ => false
    | _ => false

end LegionServer.Source.Common.Utf8

/-!
# Wide strings

`Utf8toWStr` (`Util.cpp:367-381`, with `utf8::utf8to16` of `utf8cpp/utf8/checked.h:253-266`)
and `wstrToLower` (`Util.cpp:433`, `Util.h:309-337`). A wide character holds a unit of
UTF-16, so that the narrowing in `wcharToLower` loses nothing.
-/
namespace LegionServer.Source.Common
open Utf8

abbrev WString : Type := List Nat

def LEAD_OFFSET : Nat := 0xd800 - (0x10000 >>> 10)
def TRAIL_SURROGATE_MIN : Nat := 0xdc00

/-- What `utf8to16` writes for a code point. -/
def utf16Units (cp : Nat) : WString :=
  if cp > 0xffff then [(cp >>> 10) + LEAD_OFFSET, (cp &&& 0x3ff) + TRAIL_SURROGATE_MIN]
  else [cp]

/-- One code point of `length` octets before what the others give; `next` throws for one that
is not accepted. -/
def utf16Next (cp length : Nat) (rest : Option WString) : Option WString :=
  if accepts cp length then rest.map (utf16Units cp ++ ·) else none

/-- The sequences are those of `Utf8.isValid`. -/
def utf8toWStr : List UInt8 → Option WString
  | [] => some []
  | lead :: rest =>
    match sequenceLength lead with
    | 1 => utf16Next lead.toNat 1 (utf8toWStr rest)
    | 2 =>
      match rest with
      | second :: rest =>
        if isTrail second then
          utf16Next (((lead.toNat <<< 6) &&& 0x7ff) + (second.toNat &&& 0x3f)) 2 (utf8toWStr rest)
        else none
      | [] => none
    | 3 =>
      match rest with
      | second :: third :: rest =>
        if isTrail second && isTrail third then
          utf16Next (((lead.toNat <<< 12) &&& 0xffff) + ((second.toNat <<< 6) &&& 0xfff) +
            (third.toNat &&& 0x3f)) 3 (utf8toWStr rest)
        else none
      | _ => none
    | 4 =>
      match rest with
      | second :: third :: fourth :: rest =>
        if isTrail second && isTrail third && isTrail fourth then
          utf16Next (((lead.toNat <<< 18) &&& 0x1fffff) + ((second.toNat <<< 12) &&& 0x3ffff) +
            ((third.toNat <<< 6) &&& 0xfff) + (fourth.toNat &&& 0x3f)) 4 (utf8toWStr rest)
        else none
      | _ => none
    | _ => none

@[simp] theorem isSome_utf16Next (cp length : Nat) (rest : Option WString) :
    (utf16Next cp length rest).isSome = (accepts cp length && rest.isSome) := by
  unfold utf16Next
  cases accepts cp length <;> simp

/-- A conversion fails exactly for the strings that are not valid. -/
theorem isSome_utf8toWStr (utf8str : List UInt8) :
    (utf8toWStr utf8str).isSome = isValid utf8str := by
  fun_induction utf8toWStr utf8str with
  | case1 => rfl
  | _ =>
    rw [isValid.eq_def]
    grind [isSome_utf16Next]

def wcharToLower (wchar : Nat) : Nat :=
  if wchar ≥ 0x41 ∧ wchar ≤ 0x5a then wchar + 0x0020
  else if wchar ≥ 0x00c0 ∧ wchar ≤ 0x00d6 then wchar + 0x0020
  else if wchar ≥ 0x00d8 ∧ wchar ≤ 0x00de then wchar + 0x0020
  else if wchar ≥ 0x0100 ∧ wchar ≤ 0x012e ∧ wchar % 2 = 0 then wchar + 0x0001
  else if wchar = 0x1e9e then 0x00df
  else if wchar = 0x0401 then 0x0451
  else if wchar = 0x0152 then 0x0153
  else if wchar = 0x0178 then 0x00ff
  else if wchar ≥ 0x0410 ∧ wchar ≤ 0x042f then wchar + 0x0020
  else wchar

def wstrToLower (str : WString) : WString := str.map wcharToLower

end LegionServer.Source.Common
