import LegionServer.Reference.LinkGrammar

/-!
# Hyperlinks against their grammar

The parser takes what the grammar derives, in its parts, and the check of a message agrees
with the grammar.
-/
namespace LegionServer.Guarantees.HyperlinkGrammar
open Library Source.Chat Hyperlinks Reference.LinkGrammar List Option Scanning

section Parts

variable {str rest start color tag data text : List Char} {info : HyperlinkInfo}

theorem removePrefix_eq_some : removePrefix start str = some rest ↔ str = start ++ rest := by
  rw [removePrefix]
  constructor
  · intro h
    split at h
    · rename_i hprefix
      obtain ⟨rest', rfl⟩ := isPrefixOf_iff_prefix.mp hprefix
      rw [drop_left] at h
      rw [Option.some.inj h]
    · cases h
  · rintro rfl
    rw [if_pos (List.isPrefixOf_iff_prefix.mpr (prefix_append _ _)), drop_left]

theorem colorPart_eq_some : colorPart str = some (color, rest) ↔
    8 ≤ str.length ∧ ∃ part, ColorPart part color ∧ str = part ++ rest := by
  unfold colorPart
  by_cases hshort : str.length < 8
  · rw [if_pos hshort]
    constructor
    · nofun
    · rintro ⟨hlength, -⟩
      omega
  · rw [if_neg hshort, and_iff_right (Nat.le_of_not_lt hshort)]
    split
    · rename_i id
      rw [cut_eq_some]
      constructor
      · rintro ⟨rfl, hnot⟩
        exact ⟨_, .numeric color hnot, by simp⟩
      · rintro ⟨part, hpart, hstr⟩
        cases hpart with
        | numeric _ hnot => simpa [hnot] using hstr
        | hex _ hlength hhead =>
          cases color with
          | nil => cases hlength
          | cons c color => exact absurd (congrArg some (cons.inj hstr).1.symm) hhead
    · rename_i hnumeric
      constructor
      · rintro ⟨⟩
        refine ⟨_, .hex _ (by rw [length_take]; omega) ?_, (take_append_drop 8 str).symm⟩
        cases str with
        | nil => simp at hshort
        | cons c str =>
          intro hc
          simp at hc
          exact hnumeric str (by rw [hc])
      · rintro ⟨part, hpart, rfl⟩
        cases hpart with
        | numeric _ _ => exact absurd rfl (hnumeric _)
        | hex _ hlength _ => rw [← hlength, take_left, drop_left]

theorem linkHead_eq_some : linkHead str = some (color, tag, rest) ↔
    10 ≤ str.length ∧ ∃ head, LinkHead head color tag ∧ str = head ++ rest := by
  simp only [linkHead, bind_eq_bind, bind_eq_some_iff, Prod.exists, Option.some.injEq,
    Prod.mk.injEq, removePrefix_eq_some, colorPart_eq_some, cut_eq_some]
  constructor
  · rintro ⟨afterStart, rfl, _, afterColor, ⟨hlength, part, hpart, rfl⟩, afterColorEnd, rfl, _,
      afterTag, ⟨rfl, hnot⟩, _, rfl, rfl, rfl, rfl⟩
    refine ⟨?_, _, ⟨part, hpart, hnot, rfl⟩, ?_⟩
    · simp only [length_append, length_cons, length_nil] at hlength ⊢
      omega
    · simp
  · rintro ⟨hlength, head, ⟨part, hpart, hnot, rfl⟩, rfl⟩
    refine ⟨part ++ '|' :: 'H' :: (tag ++ '|' :: 'h' :: rest), by simp, color,
      '|' :: 'H' :: (tag ++ '|' :: 'h' :: rest), ⟨?_, part, hpart, rfl⟩,
      tag ++ '|' :: 'h' :: rest, rfl, tag, 'h' :: rest, ⟨rfl, hnot⟩, rest, rfl, rfl, rfl, rfl⟩
    simp only [length_append, length_cons, length_nil] at hlength ⊢
    omega

theorem splitTag_iff {tagText : List Char} :
    splitTag tagText = (tag, data) ↔ TagData tagText tag data := by
  rw [splitTag]
  constructor
  · intro h
    cases hcut : cut ':' tagText with
    | none =>
      rw [hcut] at h
      cases h
      exact .alone _ (cut_eq_none.mp hcut)
    | some parts =>
      rw [hcut, getD_some] at h
      rw [h] at hcut
      obtain ⟨rfl, hnot⟩ := cut_eq_some.mp hcut
      exact .data _ _ hnot
  · rintro (⟨_, hnot⟩ | ⟨_, _, hnot⟩)
    · rw [cut_eq_none.mpr hnot, getD_none]
    · rw [cut_eq_some.mpr ⟨rfl, hnot⟩, getD_some]

theorem close_eq_some {name : List Char} :
    Scanning.close '[' ']' 0 ('[' :: str) = some (name, rest) ↔
      ∃ text, name = '[' :: text ∧ Matched text ∧ str = text ++ ']' :: rest := by
  rw [close, show deepen '[' ']' 0 '[' = 1 from rfl, if_neg Nat.one_ne_zero,
    map_eq_some_iff]
  constructor
  · rintro ⟨⟨text, rest⟩, hclose, ⟨⟩⟩
    obtain ⟨rfl, hopen, hcount⟩ := (Scanning.close_eq_some (by decide) Nat.one_pos).mp hclose
    exact ⟨text, rfl, ⟨hopen, by omega⟩, rfl⟩
  · rintro ⟨text, rfl, hmatched, rfl⟩
    refine ⟨(text, rest), (Scanning.close_eq_some (by decide) Nat.one_pos).mpr
      ⟨rfl, hmatched.inside, ?_⟩, rfl⟩
    rw [hmatched.closed]
    omega

end Parts

section Single

variable {str : List Char} {info : HyperlinkInfo}

theorem parse_none (h : linkHead str = none) : parseSingleHyperlink str = .ok none := by
  rw [parseSingleHyperlink, h]

theorem parse_end {color tag : List Char} (h : linkHead str = some (color, tag, [])) :
    parseSingleHyperlink str = .error .outsideOfString := by
  rw [parseSingleHyperlink, h]
  rfl

theorem parse_cons {color tag rest : List Char} {c : Char}
    (h : linkHead str = some (color, tag, c :: rest)) :
    parseSingleHyperlink str = .ok (if c ≠ '[' then none
      else (removePrefix ['|', 'h', '|', 'r'] (linkText (c :: rest)).2).map fun tail =>
        ⟨tail, color, (splitTag tag).1, (splitTag tag).2, (linkText (c :: rest)).1⟩) := by
  rw [parseSingleHyperlink, h]
  dsimp only
  change (if c ≠ '[' then Except.ok none else _) = _
  split
  · rfl
  · cases removePrefix ['|', 'h', '|', 'r'] (linkText (c :: rest)).2 <;> rfl

theorem parse_fault {fault : Fault} : parseSingleHyperlink str = .error fault ↔ CutOff str := by
  constructor
  · intro h
    cases hhead : linkHead str with
    | none =>
      rw [parse_none hhead] at h
      cases h
    | some parts =>
      obtain ⟨color, tag, rest⟩ := parts
      cases rest with
      | nil =>
        obtain ⟨hlength, head, hlink, rfl⟩ := linkHead_eq_some.mp hhead
        exact ⟨hlength, color, tag, (append_nil head).symm ▸ hlink⟩
      | cons c rest =>
        rw [parse_cons hhead] at h
        cases h
  · rintro ⟨hlength, color, tag, hlink⟩
    cases fault
    exact parse_end (linkHead_eq_some.mpr ⟨hlength, str, hlink, (append_nil str).symm⟩)

theorem IsLink.head (h : IsLink str info) : ∃ tag, linkHead str = some (info.color, tag,
      '[' :: (info.text ++ ']' :: '|' :: 'h' :: '|' :: 'r' :: info.tail)) ∧
    TagData tag info.tag info.data ∧ Matched info.text := by
  obtain ⟨head, tag, hhead, htag, htext, rfl⟩ := h
  refine ⟨tag, linkHead_eq_some.mpr ⟨?_, head, hhead, rfl⟩, htag, htext⟩
  obtain ⟨part, -, -, rfl⟩ := hhead
  simp only [length_append, length_cons, length_nil]
  omega

theorem text_eq_some {rest text tail : List Char} :
    (linkText ('[' :: rest)).1 = text ∧
        removePrefix ['|', 'h', '|', 'r'] (linkText ('[' :: rest)).2 = some tail ↔
      Matched text ∧ rest = text ++ ']' :: '|' :: 'h' :: '|' :: 'r' :: tail := by
  rw [linkText, removePrefix_eq_some]
  constructor
  · intro h
    cases hclose : close '[' ']' 0 ('[' :: rest) with
    | none =>
      rw [hclose] at h
      cases h.2
    | some parts =>
      obtain ⟨name, after⟩ := parts
      obtain ⟨_, rfl, hmatched, rfl⟩ := close_eq_some.mp hclose
      rw [hclose] at h
      obtain ⟨rfl, rfl⟩ := h
      exact ⟨hmatched, rfl⟩
  · rintro ⟨hmatched, rfl⟩
    rw [close_eq_some.mpr ⟨text, rfl, hmatched, rfl⟩]
    exact ⟨rfl, rfl⟩

theorem parse_of_not_cutOff (h : ¬CutOff str) : ∃ result, parseSingleHyperlink str = .ok result ∧
    ∀ info, result = some info ↔ IsLink str info := by
  cases hhead : linkHead str with
  | none =>
    refine ⟨none, parse_none hhead, fun info => iff_of_false nofun fun hlink => ?_⟩
    obtain ⟨tag, hsome, -⟩ := IsLink.head hlink
    rw [hhead] at hsome
    cases hsome
  | some parts =>
    obtain ⟨color, tag, rest⟩ := parts
    cases rest with
    | nil => exact absurd (parse_fault.mp (parse_end hhead)) h
    | cons c rest =>
      refine ⟨_, parse_cons hhead, fun info => ?_⟩
      constructor
      · intro hresult
        split at hresult
        · cases hresult
        rename_i hc
        obtain rfl := not_not.mp hc
        obtain ⟨tail, hend, rfl⟩ := map_eq_some_iff.mp hresult
        obtain ⟨hmatched, hrest⟩ := text_eq_some.mp ⟨rfl, hend⟩
        obtain ⟨-, head, hlink, rfl⟩ := linkHead_eq_some.mp hhead
        exact ⟨head, tag, hlink, splitTag_iff.mp rfl, hmatched, by rw [← hrest]⟩
      · intro hlink
        obtain ⟨tag', hsome, htag, hmatched⟩ := IsLink.head hlink
        rw [hhead] at hsome
        obtain ⟨rfl, rfl, rfl, rfl⟩ : color = info.color ∧ tag = tag' ∧ c = '[' ∧
            rest = info.text ++ ']' :: '|' :: 'h' :: '|' :: 'r' :: info.tail := by
          simpa using hsome
        obtain ⟨htext, hend⟩ := text_eq_some.mpr ⟨hmatched, rfl⟩
        rw [if_neg (by decide), hend, map_some, htext, splitTag_iff.mpr htag]

end Single

section Messages

variable {accepts : HyperlinkInfo → Bool} {last : List Char → Prop} {str : List Char}
  {info : HyperlinkInfo} {c next : Char}

theorem controlSequencesAllowed_iff : controlSequencesAllowed str = true ↔ Paired str := by
  fun_induction controlSequencesAllowed str with
  | case1 => exact iff_of_true rfl .nil
  | case2 =>
    refine iff_of_false Bool.false_ne_true fun h => ?_
    cases h with
    | char hc _ => exact hc rfl
  | case3 next str ih =>
    rw [Bool.and_eq_true, ih]
    constructor
    · rintro ⟨hnext, h⟩
      exact .pair hnext h
    · intro h
      cases h with
      | char hc _ => exact absurd rfl hc
      | pair hnext h => exact ⟨hnext, h⟩
  | case4 c str hend hpair ih =>
    have hc : c ≠ '|' := by
      intro hc
      cases str with
      | nil => exact hend hc rfl
      | cons next str => exact hpair next str hc rfl
    rw [ih]
    constructor
    · exact .char hc
    · intro h
      cases h with
      | char _ h => exact h
      | pair _ _ => exact absurd rfl hc

/-- A pair does not end in a bracket, so what follows a bracket is in pairs too. -/
theorem Paired.after_bracket (h : Paired str) : ∀ {before after : List Char},
    str = before ++ ']' :: after → Paired after := by
  induction h with
  | nil => simp
  | char hc h ih =>
    intro before after hstr
    cases before with
    | nil => rwa [(cons.inj hstr).2] at h
    | cons b before => exact ih (cons.inj hstr).2
  | pair hnext h ih =>
    intro before after hstr
    cases before with
    | nil => exact absurd (cons.inj hstr).1 (by decide)
    | cons b before =>
      cases before with
      | nil =>
        rw [(cons.inj (cons.inj hstr).2).1] at hnext
        exact absurd hnext (by decide)
      | cons b before => exact ih (cons.inj (cons.inj hstr).2).2

theorem Paired.tail (h : Paired str) (hlink : IsLink str info) : Paired info.tail := by
  obtain ⟨head, tag, -, -, -, rfl⟩ := hlink
  have hend : Paired ('|' :: 'h' :: '|' :: 'r' :: info.tail) :=
    @Paired.after_bracket _ h (head ++ '[' :: info.text) _ (by simp)
  cases hend with
  | char hc _ => exact absurd rfl hc
  | pair _ hend =>
    cases hend with
    | char hc _ => exact absurd rfl hc
    | pair _ hend => exact hend

theorem IsLink.start (h : IsLink str info) : ∃ rest, str = '|' :: 'c' :: rest := by
  obtain ⟨head, tag, ⟨part, -, -, rfl⟩, -, -, rfl⟩ := h
  exact ⟨_, rfl⟩

theorem CutOff.start (h : CutOff str) : ∃ rest, str = '|' :: 'c' :: rest := by
  obtain ⟨-, color, tag, part, -, -, rfl⟩ := h
  exact ⟨_, rfl⟩

theorem sequence_char (hlast : ¬last (c :: str)) (hc : c ≠ '|') :
    Sequence accepts last (c :: str) ↔ Sequence accepts last str := by
  constructor
  · intro h
    cases h with
    | last h => exact absurd h hlast
    | char _ h => exact h
    | escape h => exact absurd rfl hc
    | link hlink _ _ =>
      obtain ⟨rest, hstr⟩ := IsLink.start hlink
      exact absurd (cons.inj hstr).1 hc
  · exact .char hc

theorem sequence_escape (hlast : ¬last ('|' :: '|' :: str)) :
    Sequence accepts last ('|' :: '|' :: str) ↔ Sequence accepts last str := by
  constructor
  · intro h
    cases h with
    | last h => exact absurd h hlast
    | char hc _ => exact absurd rfl hc
    | escape h => exact h
    | link hlink _ _ =>
      obtain ⟨rest, hstr⟩ := IsLink.start hlink
      simp at hstr
  · exact .escape

theorem sequence_link (hnext : next ≠ '|') : Sequence accepts last ('|' :: next :: str) ↔
    last ('|' :: next :: str) ∨ ∃ info, IsLink ('|' :: next :: str) info ∧ accepts info = true ∧
      Sequence accepts last info.tail := by
  constructor
  · intro h
    cases h with
    | last h => exact Or.inl h
    | char hc _ => exact absurd rfl hc
    | escape h => exact absurd rfl hnext
    | link hlink haccepted h => exact Or.inr ⟨_, hlink, haccepted, h⟩
  · rintro (h | ⟨info, hlink, haccepted, h⟩)
    · exact .last h
    · exact .link hlink haccepted h

structure Decided (accepts : HyperlinkInfo → Bool) (str : List Char) (result : Except Fault Bool) :
    Prop where
  fault : (∃ fault, result = .error fault) ↔ Sequence accepts CutOff str
  valid : ∀ b, result = .ok b → (b = true ↔ LinksOnly accepts str)

variable {result : Except Fault Bool}

theorem Decided.of_iff {str' : List Char} (h : Decided accepts str' result)
    (hcut : Sequence accepts CutOff str ↔ Sequence accepts CutOff str')
    (hlinks : LinksOnly accepts str ↔ LinksOnly accepts str') : Decided accepts str result :=
  ⟨h.fault.trans hcut.symm, fun b hb => (h.valid b hb).trans hlinks.symm⟩

theorem decided_false (hcut : ¬Sequence accepts CutOff str) (hlinks : ¬LinksOnly accepts str) :
    Decided accepts str (.ok false) := by
  constructor
  · exact iff_of_false nofun hcut
  · rintro b ⟨⟩
    exact iff_of_false Bool.false_ne_true hlinks

theorem not_cutOff_char (hc : c ≠ '|') : ¬CutOff (c :: str) := by
  intro h
  obtain ⟨rest, hstr⟩ := CutOff.start h
  exact hc (cons.inj hstr).1

theorem not_cutOff_escape : ¬CutOff ('|' :: '|' :: str) := by
  intro h
  obtain ⟨rest, hstr⟩ := CutOff.start h
  simp at hstr

/-- The characters before the first `|` decide nothing. -/
theorem Decided.of_dropWhile (h : Decided accepts (str.dropWhile (· ≠ '|')) result) :
    Decided accepts str result := by
  induction str with
  | nil => exact h
  | cons c str ih =>
    by_cases hc : c = '|'
    · rw [hc, dropWhile_cons_of_neg (by decide)] at h
      exact hc ▸ h
    · rw [dropWhile_cons_of_pos (by simpa using hc)] at h
      exact (ih h).of_iff (sequence_char (not_cutOff_char hc) hc) (sequence_char nofun hc)

theorem Paired.dropWhile (h : Paired str) : Paired (str.dropWhile (· ≠ '|')) := by
  induction h with
  | nil => exact .nil
  | char hc h ih =>
    rw [dropWhile_cons_of_pos (by simpa using hc)]
    exact ih
  | pair hnext h ih =>
    exact .pair hnext h

theorem dropWhile_eq_cons {rest : List Char} (h : str.dropWhile (· ≠ '|') = c :: rest) :
    c = '|' := by
  induction str with
  | nil => cases h
  | cons b str ih =>
    rw [dropWhile_cons] at h
    split at h
    · exact ih h
    · rename_i hb
      rw [← (cons.inj h).1]
      simpa using hb

theorem IsLink.length_lt (h : IsLink str info) : info.tail.length < str.length := by
  obtain ⟨head, tag, -, -, -, rfl⟩ := h
  simp only [length_append, length_cons]
  omega

theorem decided_nil : Decided accepts [] (.ok true) := by
  constructor
  · refine iff_of_false nofun fun h => ?_
    cases h with
    | last h =>
      obtain ⟨rest, hstr⟩ := CutOff.start h
      cases hstr
    | link hlink _ _ =>
      obtain ⟨rest, hstr⟩ := IsLink.start hlink
      cases hstr
  · rintro b ⟨⟩
    exact iff_of_true rfl (.last rfl)

theorem decided_link {fuel : Nat} (hnext : next ≠ '|')
    (htail : ∀ info, IsLink ('|' :: next :: str) info →
      Decided accepts info.tail (linksValid accepts fuel info.tail)) :
    Decided accepts ('|' :: next :: str) (do
      match ← parseSingleHyperlink ('|' :: next :: str) with
      | none => return false
      | some info => if accepts info then linksValid accepts fuel info.tail else return false) := by
  by_cases hcut : CutOff ('|' :: next :: str)
  · rw [(@parse_fault _ .outsideOfString).mpr hcut]
    exact ⟨iff_of_true ⟨_, rfl⟩ (.last hcut), nofun⟩
  obtain ⟨result, hresult, hparsed⟩ := parse_of_not_cutOff hcut
  have hcutOff : Sequence accepts CutOff ('|' :: next :: str) ↔ ∃ info, result = some info ∧
      accepts info = true ∧ Sequence accepts CutOff info.tail := by
    rw [sequence_link hnext, or_iff_right hcut]
    simp only [hparsed]
  have hlinks : LinksOnly accepts ('|' :: next :: str) ↔ ∃ info, result = some info ∧
      accepts info = true ∧ LinksOnly accepts info.tail := by
    rw [LinksOnly, sequence_link hnext, or_iff_right nofun]
    simp only [hparsed, LinksOnly]
  rw [hresult]
  cases result with
  | none =>
    apply decided_false
    · rw [hcutOff]
      rintro ⟨info, ⟨⟩, -⟩
    · rw [hlinks]
      rintro ⟨info, ⟨⟩, -⟩
  | some info =>
    change Decided accepts _ (if accepts info then linksValid accepts fuel info.tail
      else .ok false)
    have honly : ∀ {p : HyperlinkInfo → Prop},
        (∃ other, some info = some other ∧ accepts other = true ∧ p other) ↔
          accepts info = true ∧ p info := by
      intro p
      constructor
      · rintro ⟨_, ⟨⟩, h⟩
        exact h
      · exact fun h => ⟨info, rfl, h⟩
    rw [honly] at hcutOff hlinks
    split
    · rename_i haccepted
      exact (htail info ((hparsed info).mp rfl)).of_iff
        (hcutOff.trans (and_iff_right haccepted)) (hlinks.trans (and_iff_right haccepted))
    · rename_i hrejected
      exact decided_false (fun h => hrejected (hcutOff.mp h).1) fun h => hrejected (hlinks.mp h).1

theorem linksValid_decided (fuel : Nat) (hfuel : str.length < fuel) (hpaired : Paired str) :
    Decided accepts str (linksValid accepts fuel str) := by
  induction fuel generalizing str with
  | zero => omega
  | succ fuel ih =>
    apply Decided.of_dropWhile
    rw [linksValid]
    have hlink := Paired.dropWhile hpaired
    have hlength : (str.dropWhile (· ≠ '|')).length ≤ str.length :=
      (dropWhile_suffix _).length_le
    cases hdrop : str.dropWhile (· ≠ '|') with
    | nil => exact decided_nil
    | cons c rest =>
      obtain rfl := dropWhile_eq_cons hdrop
      rw [hdrop] at hlink hlength
      -- the index behind the `|` is in the string, since the pairs are complete
      cases hlink with
      | char hc _ => exact absurd rfl hc
      | @pair next rest hnext hrest =>
        simp only [length_cons] at hlength
        change Decided accepts _ (if next = '|' then linksValid accepts fuel rest else _)
        split
        · rename_i hescape
          rw [hescape]
          exact (ih (by omega) hrest).of_iff (sequence_escape not_cutOff_escape)
            (sequence_escape nofun)
        · rename_i hpipe
          apply decided_link hpipe
          intro info hinfo
          have hshort := IsLink.length_lt hinfo
          simp only [length_cons] at hshort
          exact ih (by omega) (Paired.tail (.pair hnext hrest) hinfo)

end Messages

/-- The parser and the check read no character outside the string; the parser takes what is a
link, in its parts, and the check takes strings in pairs that are made of accepted links. -/
structure Agrees (accepts : HyperlinkInfo → Bool) (str : List Char) : Prop where
  parse : ∃ result, parseSingleHyperlink str = .ok result ∧
    ∀ info, result = some info ↔ IsLink str info
  check : ∃ result, checkAllLinks accepts str = .ok result ∧
    (result = true ↔ Paired str ∧ LinksOnly accepts str)

theorem checkAllLinks_agrees {accepts : HyperlinkInfo → Bool} {str : List Char} :
    (∃ result, checkAllLinks accepts str = .ok result ∧
      (result = true ↔ Paired str ∧ LinksOnly accepts str)) ↔ ¬CutOffLater accepts str := by
  rw [CutOffLater, checkAllLinks]
  by_cases hpaired : Paired str
  · rw [if_pos (controlSequencesAllowed_iff.mpr hpaired), and_iff_right hpaired,
      and_iff_right hpaired]
    have hdecided : Decided accepts str (linksValid accepts (str.length + 1) str) :=
      linksValid_decided _ (Nat.lt_succ_self _) hpaired
    rw [← hdecided.fault]
    cases hresult : linksValid accepts (str.length + 1) str with
    | error fault => exact iff_of_false (by rintro ⟨_, ⟨⟩, _⟩) (not_not.mpr ⟨fault, rfl⟩)
    | ok result => simpa using hdecided.valid result hresult
  · rw [if_neg (mt controlSequencesAllowed_iff.mp hpaired)]
    simp [hpaired]

/-- Both agree with the grammar just where no link is cut off behind its data: in the string itself,
or where the check comes to it behind text, escapes and accepted links. -/
theorem agrees_iff (accepts : HyperlinkInfo → Bool) (str : List Char) :
    Agrees accepts str ↔ ¬CutOff str ∧ ¬CutOffLater accepts str := by
  constructor
  · rintro ⟨⟨result, hparse, -⟩, hcheck⟩
    refine ⟨fun hcut => ?_, checkAllLinks_agrees.mp hcheck⟩
    rw [(@parse_fault _ .outsideOfString).mpr hcut] at hparse
    cases hparse
  · rintro ⟨hcut, hlater⟩
    exact ⟨parse_of_not_cutOff hcut, checkAllLinks_agrees.mpr hlater⟩

/-- A link that ends behind its data. -/
theorem not_agrees : ¬∀ (accepts : HyperlinkInfo → Bool) (str : List Char), Agrees accepts str := by
  intro h
  obtain ⟨result, hparse, -⟩ := (h (fun _ => true) "|cffffffff|Hitem:25|h".toList).parse
  revert hparse
  nofun

end LegionServer.Guarantees.HyperlinkGrammar
