import LegionServer.Library.Scanning

/-!
# JSON documents

Documents with members in order, the first member of a name, and writes through a pointer of
names: each step of the pointer makes an object of what is none.
-/
open List
namespace LegionServer.Library

/-- An integer that a document can hold. -/
structure JsonInteger where
  value : Int
  lower : -2 ^ 63 ≤ value
  upper : value < 2 ^ 64
  deriving DecidableEq

/-- Documents over a type of finite doubles. -/
inductive Json (D : Type) where
  | null
  | bool (b : Bool)
  | integer (i : JsonInteger)
  | double (d : D)
  | string (s : String)
  | array (elements : List (Json D))
  | object (members : List (String × Json D))

namespace Json

variable {D : Type} {name other : String} {path : List String} {v : Json D}
  {members : List (String × Json D)}

def ofInt64 (i : Int64) : Json D :=
  .integer ⟨i.toInt, i.le_toInt, Int.lt_trans i.toInt_lt (by decide)⟩

/-- `FindMember`: the first member of a name. -/
def findMember (name : String) : List (String × Json D) → Option (Json D)
  | [] => none
  | member :: members => if member.1 = name then some member.2 else findMember name members

/-- The value of the first member of a name is changed; a new member of null comes last. -/
def changeMember (name : String) (f : Json D → Json D) : List (String × Json D) →
    List (String × Json D)
  | [] => [(name, f .null)]
  | member :: members =>
    if member.1 = name then (member.1, f member.2) :: members
    else member :: changeMember name f members

/-- `Set` through a pointer whose tokens have no index. -/
def setByPointer : List String → Json D → Json D → Json D
  | [], v, _ => v
  | name :: path, v, j =>
    match j with
    | .array elements =>
      if name = "-" then .array (elements ++ [setByPointer path v .null])
      else .object [(name, setByPointer path v .null)]
    | .object members => .object (changeMember name (setByPointer path v) members)
    | _ => .object [(name, setByPointer path v .null)]

theorem findMember_changeMember (f : Json D → Json D) :
    findMember name (changeMember name f members) =
      some (f ((findMember name members).getD .null)) := by
  induction members with
  | nil => simp [changeMember, findMember]
  | cons member members ih =>
    rw [changeMember, findMember]
    split
    · rename_i hname
      simp [findMember, hname]
    · rename_i hname
      rw [findMember, if_neg hname, ih]

theorem findMember_changeMember_of_ne (f : Json D → Json D) (hne : other ≠ name) :
    findMember other (changeMember name f members) = findMember other members := by
  induction members with
  | nil => simp [changeMember, findMember, hne.symm]
  | cons member members ih =>
    rw [changeMember]
    split
    · rename_i hname
      rw [findMember, findMember, if_neg (by rw [hname]; exact hne.symm),
        if_neg (by rw [hname]; exact hne.symm)]
    · rw [findMember, findMember, ih]

theorem findMember_map {α : Type} (f : α → String × Json D) (xs : List α)
    (hnodup : (xs.map fun x => (f x).1).Nodup) {x : α} (hx : x ∈ xs) :
    findMember (f x).1 (xs.map f) = some (f x).2 := by
  induction xs with
  | nil => cases hx
  | cons y ys ih =>
    rw [map_cons, nodup_cons] at hnodup
    rw [map_cons, findMember]
    rcases List.mem_cons.mp hx with rfl | hmem
    · rw [if_pos rfl]
    · rw [if_neg fun (heq : (f y).1 = (f x).1) =>
        hnodup.1 (heq ▸ mem_map_of_mem hmem), ih hnodup.2 hmem]

mutual

/-- A document whose doubles are read as others, or none where one of them is not read. -/
def mapDoubles (f : D → Option D) : Json D → Option (Json D)
  | .null => some .null
  | .bool b => some (.bool b)
  | .integer i => some (.integer i)
  | .double d => (f d).map .double
  | .string s => some (.string s)
  | .array elements => (mapElements f elements).map .array
  | .object members => (mapMembers f members).map .object

def mapElements (f : D → Option D) : List (Json D) → Option (List (Json D))
  | [] => some []
  | element :: elements => do
    let element ← mapDoubles f element
    let elements ← mapElements f elements
    some (element :: elements)

def mapMembers (f : D → Option D) : List (String × Json D) → Option (List (String × Json D))
  | [] => some []
  | (name, v) :: members => do
    let v ← mapDoubles f v
    let members ← mapMembers f members
    some ((name, v) :: members)

end

mutual

/-- Where every double is read as it is, so is the document. -/
theorem mapDoubles_some : (j : Json D) → mapDoubles some j = some j
  | .null => rfl
  | .bool _ => rfl
  | .integer _ => rfl
  | .double _ => rfl
  | .string _ => rfl
  | .array elements => by rw [mapDoubles, mapElements_some elements, Option.map_some]
  | .object members => by rw [mapDoubles, mapMembers_some members, Option.map_some]

theorem mapElements_some : (elements : List (Json D)) → mapElements some elements = some elements
  | [] => rfl
  | element :: elements => by
    rw [mapElements, mapDoubles_some element, mapElements_some elements]
    rfl

theorem mapMembers_some : (members : List (String × Json D)) →
    mapMembers some members = some members
  | [] => rfl
  | (_, v) :: members => by
    rw [mapMembers, mapDoubles_some v, mapMembers_some members]
    rfl

end

end Json

/-- Texts of documents: what is printed is parsed to the same document but for the doubles, of which
each has one that is read of what is printed of it, or none where that is too big. The empty text
is no document. -/
structure JsonTexts (D : Type) where
  parse : String → Option (Json D)
  print : Json D → String
  reread : D → Option D
  reads : ∀ j, parse (print j) = j.mapDoubles reread
  parse_empty : parse "" = none

/-- Texts whose doubles are read as they were printed. -/
structure JsonCodec (D : Type) extends JsonTexts D where
  reread_eq : ∀ d, reread d = some d

instance {D : Type} : Coe (JsonCodec D) (JsonTexts D) := ⟨JsonCodec.toJsonTexts⟩

theorem JsonCodec.parse_print {D : Type} (codec : JsonCodec D) (j : Json D) :
    codec.parse (codec.print j) = some j := by
  rw [codec.reads, funext codec.reread_eq, Json.mapDoubles_some]

end LegionServer.Library

/-!
# JSON texts

Documents are printed in their shortest form and read again. The doubles are whole numbers, which
are printed with a point and may be read as others.
-/
namespace LegionServer.Library.JsonText
open Library Json

variable {D : Type}

/-- Quotes and backslashes are escaped. -/
def printChars : List Char → List Char
  | [] => ['"']
  | c :: cs => if c = '"' ∨ c = '\\' then '\\' :: c :: printChars cs else c :: printChars cs

def printString (s : String) : List Char := '"' :: printChars s.toList

def printInteger (i : Int) : List Char :=
  if i < 0 then '-' :: Nat.toDigits 10 i.natAbs else Nat.toDigits 10 i.natAbs

section
variable (toInteger : D → JsonInteger)

mutual

def printValue : Json D → List Char
  | .null => ['n', 'u', 'l', 'l']
  | .bool true => ['t', 'r', 'u', 'e']
  | .bool false => ['f', 'a', 'l', 's', 'e']
  | .integer i => printInteger i.value
  | .double d => printInteger (toInteger d).value ++ ['.', '0']
  | .string s => printString s
  | .array [] => ['[', ']']
  | .array (element :: elements) => '[' :: (printValue element ++ printElements elements)
  | .object [] => ['{', '}']
  | .object ((name, v) :: members) =>
    '{' :: (printString name ++ ':' :: (printValue v ++ printMembers members))

def printElements : List (Json D) → List Char
  | [] => [']']
  | element :: elements => ',' :: (printValue element ++ printElements elements)

def printMembers : List (String × Json D) → List Char
  | [] => ['}']
  | (name, v) :: members =>
    ',' :: (printString name ++ ':' :: (printValue v ++ printMembers members))

end

def print (j : Json D) : String := String.ofList (printValue toInteger j)

end

def parseChars : List Char → Option (List Char × List Char)
  | [] => none
  | '"' :: text => some ([], text)
  | '\\' :: c :: text => (parseChars text).map fun (cs, text) => (c :: cs, text)
  | c :: text => (parseChars text).map fun (cs, text) => (c :: cs, text)

def parseName : List Char → Option (String × List Char)
  | '"' :: text =>
    match parseChars text with
    | some (cs, ':' :: text) => some (String.ofList cs, text)
    | _ => none
  | _ => none

def parseInteger (text : List Char) : Option (JsonInteger × List Char) :=
  match text with
  | '-' :: text =>
    match Numerals.fromChars 10 64 text with
    | some (n, text) =>
      if h : n ≤ 2 ^ 63 then some (⟨-n, by omega, by omega⟩, text) else none
    | none => none
  | text =>
    match Numerals.fromChars 10 64 text with
    | some (n, text) =>
      if h : n < 2 ^ 64 then some (⟨n, by omega, by omega⟩, text) else none
    | none => none

section
variable (ofInteger : JsonInteger → Option D)

def parseNumber (text : List Char) : Option (Json D × List Char) :=
  match parseInteger text with
  | some (i, '.' :: '0' :: text) => (ofInteger i).map fun d => (.double d, text)
  | some (i, text) => some (.integer i, text)
  | none => none

mutual

def parseValue : Nat → List Char → Option (Json D × List Char)
  | 0, _ => none
  | fuel + 1, text =>
    match text with
    | 'n' :: 'u' :: 'l' :: 'l' :: text => some (.null, text)
    | 't' :: 'r' :: 'u' :: 'e' :: text => some (.bool true, text)
    | 'f' :: 'a' :: 'l' :: 's' :: 'e' :: text => some (.bool false, text)
    | '"' :: text => (parseChars text).map fun (cs, text) => (.string (String.ofList cs), text)
    | '[' :: ']' :: text => some (.array [], text)
    | '[' :: text => do
      let (element, text) ← parseValue fuel text
      let (elements, text) ← parseElements fuel text
      some (.array (element :: elements), text)
    | '{' :: '}' :: text => some (.object [], text)
    | '{' :: text => do
      let (name, text) ← parseName text
      let (v, text) ← parseValue fuel text
      let (members, text) ← parseMembers fuel text
      some (.object ((name, v) :: members), text)
    | text => parseNumber ofInteger text

def parseElements : Nat → List Char → Option (List (Json D) × List Char)
  | 0, _ => none
  | fuel + 1, text =>
    match text with
    | ']' :: text => some ([], text)
    | ',' :: text => do
      let (element, text) ← parseValue fuel text
      let (elements, text) ← parseElements fuel text
      some (element :: elements, text)
    | _ => none

def parseMembers : Nat → List Char → Option (List (String × Json D) × List Char)
  | 0, _ => none
  | fuel + 1, text =>
    match text with
    | '}' :: text => some ([], text)
    | ',' :: text => do
      let (name, text) ← parseName text
      let (v, text) ← parseValue fuel text
      let (members, text) ← parseMembers fuel text
      some ((name, v) :: members, text)
    | _ => none

end

def parse (text : String) : Option (Json D) :=
  match parseValue ofInteger text.toList.length text.toList with
  | some (j, []) => some j
  | _ => none

end

variable {toInteger : D → JsonInteger} {ofInteger : JsonInteger → Option D} {fuel n : Nat}
  {cs text : List Char} {c : Char} {name : String} {i : JsonInteger}

theorem parseChars_plain (hquote : c ≠ '"') (hbackslash : c ≠ '\\') (text : List Char) :
    parseChars (c :: text) = (parseChars text).map fun (cs, text) => (c :: cs, text) := by
  rw [parseChars]
  · exact fun hc => hquote hc
  · exact fun _ _ hc _ => hbackslash hc

theorem parseChars_append (cs text : List Char) :
    parseChars (printChars cs ++ text) = some (cs, text) := by
  induction cs with
  | nil => rfl
  | cons c cs ih =>
    rw [printChars]
    split
    · rw [cons_append, cons_append]
      simp only [parseChars, ih, Option.map_some]
    · rename_i hplain
      rw [not_or] at hplain
      rw [cons_append, parseChars_plain hplain.1 hplain.2, ih]
      rfl

theorem parseName_append (name : String) (text : List Char) :
    parseName (printString name ++ ':' :: text) = some (name, text) := by
  rw [printString, cons_append]
  simp only [parseName, parseChars_append, String.ofList_toList]

theorem fromChars_toDigits (htext : ∀ c ∈ text.head?, Numerals.isDigit 10 c = false) :
    Numerals.fromChars 10 64 (Nat.toDigits 10 n ++ text) =
      if n < 2 ^ 64 then some (n, text) else none := by
  have hform : ∀ d < 16, Numerals.digitValue (id d.digitChar) = d := fun d hd =>
    Numerals.digitValue_digitChar hd
  have hvalue := Numerals.value_map_toDigits (by decide : 1 < 10) (by decide) hform n
  have hdigits := Numerals.isDigit_of_mem_toDigits (by decide : 1 < 10) (by decide) hform n
  rw [map_id] at hvalue hdigits
  rw [Numerals.fromChars_append hdigits Nat.toDigits_ne_nil htext, hvalue]

theorem isDigit_of_head (hhead : c :: cs = Nat.toDigits 10 n) : Numerals.isDigit 10 c = true := by
  have hform : ∀ d < 16, Numerals.digitValue (id d.digitChar) = d := fun d hd =>
    Numerals.digitValue_digitChar hd
  have hdigits := Numerals.isDigit_of_mem_toDigits (by decide : 1 < 10) (by decide) hform n
  exact hdigits c (hhead ▸ mem_cons_self)

/-- Numbers are printed as a sign or a digit and more. -/
theorem printInteger_cases (i : Int) : ∃ c cs, printInteger i = c :: cs ∧
    ((c = '-' ∧ i < 0 ∧ cs = Nat.toDigits 10 i.natAbs) ∨
      (Numerals.isDigit 10 c = true ∧ 0 ≤ i ∧ c :: cs = Nat.toDigits 10 i.natAbs)) := by
  rw [printInteger]
  split
  · rename_i hneg
    exact ⟨_, _, rfl, .inl ⟨rfl, hneg, rfl⟩⟩
  · rename_i hnonneg
    obtain ⟨c, cs, hdigits⟩ := exists_cons_of_ne_nil (Nat.toDigits_ne_nil (n := i.natAbs) (b := 10))
    exact ⟨c, cs, hdigits, .inr ⟨isDigit_of_head hdigits.symm, by omega, hdigits.symm⟩⟩

theorem parseInteger_append (htext : ∀ c ∈ text.head?, Numerals.isDigit 10 c = false) :
    parseInteger (printInteger i.value ++ text) = some (i, text) := by
  have hlower := i.lower
  have hupper := i.upper
  obtain ⟨c, cs, hprint, ⟨rfl, hneg, rfl⟩ | ⟨hdigit, hnonneg, hcs⟩⟩ := printInteger_cases i.value
  · rw [hprint, cons_append]
    simp only [parseInteger]
    rw [fromChars_toDigits htext, if_pos (by omega)]
    have hle : i.value.natAbs ≤ 2 ^ 63 := by omega
    have hvalue : -(i.value.natAbs : Int) = i.value := by omega
    simp only [hle, hvalue, dite_true]
  · have hplain : c ≠ '-' := by
      rintro rfl
      exact absurd hdigit (by decide)
    rw [hprint, hcs, parseInteger.eq_def]
    split
    · rename_i heq
      rw [← hcs, cons_append, List.cons.injEq] at heq
      exact absurd heq.1 hplain
    · rw [fromChars_toDigits htext, if_pos (by omega)]
      have hlt : i.value.natAbs < 2 ^ 64 := by omega
      have hvalue : (i.value.natAbs : Int) = i.value := by omega
      simp only [hlt, hvalue, dite_true]

theorem parseValue_number (hc : c = '-' ∨ Numerals.isDigit 10 c = true) (text : List Char) :
    parseValue ofInteger (fuel + 1) (c :: text) = parseNumber ofInteger (c :: text) := by
  have hother : ∀ other, (decide (other = '-') || Numerals.isDigit 10 other) = false →
      ∀ more, c :: text ≠ other :: more := by
    intro other hother more heq
    rw [Bool.or_eq_false_iff, decide_eq_false_iff_not] at hother
    cases heq
    rcases hc with hc | hc
    · exact hother.1 hc
    · exact absurd hc (Bool.not_eq_true _ ▸ hother.2)
  rw [parseValue]
  · exact fun _ => hother 'n' (by decide) _
  · exact fun _ => hother 't' (by decide) _
  · exact fun _ => hother 'f' (by decide) _
  · exact fun _ => hother '"' (by decide) _
  · exact fun _ => hother '[' (by decide) _
  · exact fun _ => hother '[' (by decide) _
  · exact fun _ => hother '{' (by decide) _
  · exact fun _ => hother '{' (by decide) _

theorem parseValue_printInteger (text : List Char) :
    parseValue ofInteger (fuel + 1) (printInteger i.value ++ text) =
      parseNumber ofInteger (printInteger i.value ++ text) := by
  obtain ⟨c, cs, hprint, hcases⟩ := printInteger_cases i.value
  rw [hprint]
  refine parseValue_number ?_ (cs ++ text)
  rcases hcases with ⟨hc, -⟩ | ⟨hc, -⟩
  · exact .inl hc
  · exact .inr hc

/-- What may follow a value. -/
def Ended (text : List Char) : Prop :=
  ∀ c ∈ text.head?, Numerals.isDigit 10 c = false ∧ c ≠ '.'

theorem parseValue_integer (htext : Ended text) :
    parseValue ofInteger (fuel + 1) (printInteger i.value ++ text) = some (.integer i, text) := by
  rw [parseValue_printInteger, parseNumber, parseInteger_append fun c hc => (htext c hc).1]
  split
  · rename_i heq
    cases heq
    exact absurd rfl (htext '.' rfl).2
  · rename_i heq
    cases heq
    rfl
  · rename_i heq
    cases heq

theorem parseValue_double (text : List Char) :
    parseValue ofInteger (fuel + 1) (printInteger i.value ++ '.' :: '0' :: text) =
      (ofInteger i).map fun d => (.double d, text) := by
  have htext : ∀ c ∈ ('.' :: '0' :: text).head?, Numerals.isDigit 10 c = false := by
    rintro _ ⟨⟩
    decide
  rw [parseValue_printInteger, parseNumber, parseInteger_append htext]
  rfl

theorem ended_cons (hc : (!Numerals.isDigit 10 c && c != '.') = true) : Ended (c :: text) := by
  rintro _ ⟨⟩
  rw [Bool.and_eq_true, Bool.not_eq_true', bne_iff_ne] at hc
  exact hc

theorem ended_printElements (elements : List (Json D)) :
    Ended (printElements toInteger elements ++ text) := by
  cases elements with
  | nil => exact ended_cons (by decide)
  | cons element elements => exact ended_cons (by decide)

theorem ended_printMembers (members : List (String × Json D)) :
    Ended (printMembers toInteger members ++ text) := by
  cases members with
  | nil => exact ended_cons (by decide)
  | cons member members => exact ended_cons (by decide)

theorem printInteger_ne_bracket (i : Int) (more more' : List Char) :
    printInteger i ++ more' ≠ ']' :: more := by
  intro heq
  obtain ⟨c, cs, hprint, hcases⟩ := printInteger_cases i
  rw [hprint, cons_append, List.cons.injEq] at heq
  rw [heq.1] at hcases
  rcases hcases with ⟨hc, -⟩ | ⟨hc, -⟩
  · exact absurd hc (by decide)
  · exact absurd hc (by decide)

/-- No value starts like the end of an array. -/
theorem printValue_ne_bracket (j : Json D) (more : List Char) :
    printValue toInteger j ++ text ≠ ']' :: more := by
  cases j with
  | null => exact nofun
  | bool b => cases b <;> exact nofun
  | integer i => exact printInteger_ne_bracket i.value more text
  | double d =>
    rw [printValue, append_assoc]
    exact printInteger_ne_bracket (toInteger d).value more _
  | string s => exact nofun
  | array elements => cases elements <;> exact nofun
  | object members => cases members <;> exact nofun

theorem length_printInteger_pos (i : Int) : 0 < (printInteger i).length := by
  obtain ⟨c, cs, hprint, -⟩ := printInteger_cases i
  rw [hprint]
  exact Nat.zero_lt_succ _

theorem length_printValue_pos (j : Json D) : 0 < (printValue toInteger j).length := by
  cases j with
  | null => exact Nat.zero_lt_succ _
  | bool b => cases b <;> exact Nat.zero_lt_succ _
  | integer i => exact length_printInteger_pos i.value
  | double d =>
    rw [printValue, length_append]
    exact Nat.add_pos_right _ (Nat.zero_lt_succ _)
  | string s => exact Nat.zero_lt_succ _
  | array elements => cases elements <;> exact Nat.zero_lt_succ _
  | object members => cases members <;> exact Nat.zero_lt_succ _

/-- The three parsers with some fuel read what is printed in at most as many characters, with its
doubles as they are read. -/
structure ReadsBack (toInteger : D → JsonInteger) (ofInteger : JsonInteger → Option D)
    (fuel : Nat) : Prop where
  value : ∀ j text, (printValue toInteger j).length ≤ fuel → Ended text →
    parseValue ofInteger fuel (printValue toInteger j ++ text) =
      (mapDoubles (ofInteger ∘ toInteger) j).map (·, text)
  elements : ∀ elements text, (printElements toInteger elements).length ≤ fuel →
    parseElements ofInteger fuel (printElements toInteger elements ++ text) =
      (mapElements (ofInteger ∘ toInteger) elements).map (·, text)
  members : ∀ members text, (printMembers toInteger members).length ≤ fuel →
    parseMembers ofInteger fuel (printMembers toInteger members ++ text) =
      (mapMembers (ofInteger ∘ toInteger) members).map (·, text)

section
variable (h : ReadsBack toInteger ofInteger fuel)
include h

/-- An element and those that follow. -/
theorem parseElement_printed {α : Type} (element : Json D) (elements : List (Json D))
    (text : List Char) (f : List (Json D) → α)
    (hfuel : (printValue toInteger element).length + (printElements toInteger elements).length ≤
      fuel) :
    (do
      let (element, text) ← parseValue ofInteger fuel
        (printValue toInteger element ++ (printElements toInteger elements ++ text))
      let (elements, text) ← parseElements ofInteger fuel text
      some (f (element :: elements), text)) =
    ((mapElements (ofInteger ∘ toInteger) (element :: elements)).map f).map (·, text) := by
  rw [h.value element _ (by omega) (ended_printElements elements), mapElements]
  cases mapDoubles (ofInteger ∘ toInteger) element with
  | none => rfl
  | some element' =>
    simp only [Option.map_some, bind, Option.bind, h.elements elements text (by omega)]
    cases mapElements (ofInteger ∘ toInteger) elements with
    | none => rfl
    | some elements' => rfl

/-- A name, a value and the members that follow. -/
theorem parseMember_printed {α : Type} (name : String) (v : Json D)
    (members : List (String × Json D)) (text : List Char) (f : List (String × Json D) → α)
    (hfuel : (printValue toInteger v).length + (printMembers toInteger members).length ≤ fuel) :
    (do
      let (name, text) ← parseName (printString name ++
        ':' :: (printValue toInteger v ++ printMembers toInteger members) ++ text)
      let (v, text) ← parseValue ofInteger fuel text
      let (members, text) ← parseMembers ofInteger fuel text
      some (f ((name, v) :: members), text)) =
    ((mapMembers (ofInteger ∘ toInteger) ((name, v) :: members)).map f).map (·, text) := by
  rw [append_assoc, cons_append, parseName_append, append_assoc, mapMembers]
  simp only [h.value v _ (by omega) (ended_printMembers members), bind, Option.bind]
  cases mapDoubles (ofInteger ∘ toInteger) v with
  | none => rfl
  | some v' =>
    simp only [Option.map_some, h.members members text (by omega)]
    cases mapMembers (ofInteger ∘ toInteger) members with
    | none => rfl
    | some members' => rfl

theorem parseValue_printed (j : Json D) (text : List Char)
    (hfuel : (printValue toInteger j).length ≤ fuel + 1) (htext : Ended text) :
    parseValue ofInteger (fuel + 1) (printValue toInteger j ++ text) =
      (mapDoubles (ofInteger ∘ toInteger) j).map (·, text) := by
  cases j with
  | null => rfl
  | bool b => cases b <;> rfl
  | integer i => exact parseValue_integer htext
  | double d =>
    rw [printValue, append_assoc, mapDoubles, Option.map_map]
    exact parseValue_double text
  | string s =>
    change (parseChars (printChars s.toList ++ text)).map _ = _
    simp only [parseChars_append, Option.map_some, String.ofList_toList]
    rfl
  | array elements =>
    cases elements with
    | nil => rfl
    | cons element elements =>
      rw [printValue, length_cons, length_append] at hfuel
      rw [printValue, cons_append, append_assoc, parseValue]
      · exact parseElement_printed h element elements text Json.array (by omega)
      · exact printValue_ne_bracket element
  | object members =>
    cases members with
    | nil => rfl
    | cons member members =>
      rw [printValue, length_cons, length_append, length_cons, length_append] at hfuel
      rw [printValue, cons_append, parseValue]
      · exact parseMember_printed h member.1 member.2 members text Json.object (by omega)
      · exact nofun

end

theorem readsBack (fuel : Nat) : ReadsBack toInteger ofInteger fuel := by
  induction fuel with
  | zero =>
    refine ⟨fun j text hfuel => ?_, fun elements text hfuel => ?_, fun members text hfuel => ?_⟩
    · exact absurd hfuel (Nat.not_le.mpr (length_printValue_pos j))
    · cases elements <;> exact absurd hfuel (Nat.not_succ_le_zero _)
    · cases members <;> exact absurd hfuel (Nat.not_succ_le_zero _)
  | succ fuel ih =>
    refine ⟨parseValue_printed ih, fun elements text hfuel => ?_, fun members text hfuel => ?_⟩
    · cases elements with
      | nil => rfl
      | cons element elements =>
        rw [printElements, length_cons, length_append] at hfuel
        have hread := parseElement_printed ih element elements text id (by omega)
        rw [Option.map_id] at hread
        rw [printElements, cons_append, append_assoc]
        exact hread
    · cases members with
      | nil => rfl
      | cons member members =>
        rw [printMembers, length_cons, length_append, length_cons, length_append] at hfuel
        have hread := parseMember_printed ih member.1 member.2 members text id (by omega)
        rw [Option.map_id] at hread
        exact hread

theorem parse_print (j : Json D) :
    parse ofInteger (print toInteger j) = mapDoubles (ofInteger ∘ toInteger) j := by
  have hreads : ReadsBack toInteger ofInteger _ := readsBack (printValue toInteger j).length
  have hread := hreads.value j [] (Nat.le_refl _) nofun
  rw [append_nil] at hread
  rw [parse, print, String.toList_ofList, hread]
  cases mapDoubles (ofInteger ∘ toInteger) j with
  | none => rfl
  | some j' => rfl

def texts (toInteger : D → JsonInteger) (ofInteger : JsonInteger → Option D) : JsonTexts D where
  parse := parse ofInteger
  print := print toInteger
  reread := ofInteger ∘ toInteger
  reads := parse_print
  parse_empty := rfl

def codec : JsonCodec Empty where
  toJsonTexts := texts nofun fun _ => none
  reread_eq := nofun

end LegionServer.Library.JsonText
