import Mathlib.Data.List.Basic
import Mathlib.Tactic.IntervalCases

/-!
# Numerals

Numbers written in a base up to sixteen and read again, with either case of letters and any
number of leading zeros.
-/
open List
open Option
namespace LegionServer.Library.Numerals

def digitValue (c : Char) : Nat :=
  if '0' ≤ c ∧ c ≤ '9' then c.toNat - 48
  else if 'a' ≤ c ∧ c ≤ 'z' then c.toNat - 87
  else if 'A' ≤ c ∧ c ≤ 'Z' then c.toNat - 55
  else 36

def isDigit (base : Nat) (c : Char) : Bool := digitValue c < base

def value (base : Nat) (digits : List Char) : Nat :=
  digits.foldl (fun v c => v * base + digitValue c) 0

/-- `std::from_chars` for an unsigned number of some bits: the longest run of digits and what
follows it, where there is a run and its value fits. -/
def fromChars (base bits : Nat) (text : List Char) : Option (Nat × List Char) :=
  let digits := text.takeWhile (isDigit base)
  if digits = [] then none
  else if value base digits < 2 ^ bits then some (value base digits, text.dropWhile (isDigit base))
  else none

variable {base bits n d : Nat} {digits rest : List Char}

theorem value_append_one (c : Char) :
    value base (digits ++ [c]) = value base digits * base + digitValue c := by
  rw [value, foldl_append, foldl_cons, foldl_nil, value]

theorem digitValue_digitChar (h : d < 16) : digitValue d.digitChar = d := by
  interval_cases d <;> rfl

theorem digitValue_toUpper (h : d < 16) : digitValue d.digitChar.toUpper = d := by
  interval_cases d <;> rfl

variable {form : Char → Char}

section
variable (hbase : 1 < base) (h16 : base ≤ 16) (hform : ∀ d < 16, digitValue (form d.digitChar) = d)
  (n : Nat)
include hbase h16 hform

/-- What is written for a number, with each digit in a form of its own, is read as the number. -/
theorem value_map_toDigits : value base ((Nat.toDigits base n).map form) = n := by
  induction n using Nat.strong_induction_on with
  | _ n ih =>
    rw [Nat.toDigits_eq_if hbase]
    split
    · rename_i hlt
      simp [value, hform n (by omega)]
    have hmod : n % base < base := Nat.mod_lt _ (by omega)
    rw [map_append, map_singleton, value_append_one,
      ih (n / base) (Nat.div_lt_self (by omega) hbase), hform _ (by omega), Nat.mul_comm]
    exact Nat.div_add_mod n base

theorem isDigit_of_mem_toDigits : ∀ c ∈ (Nat.toDigits base n).map form, isDigit base c = true := by
  induction n using Nat.strong_induction_on with
  | _ n ih =>
    intro c hc
    rw [Nat.toDigits_eq_if hbase] at hc
    split at hc
    · rename_i hlt
      simp only [map_singleton, mem_singleton] at hc
      rw [hc, isDigit, hform n (by omega)]
      exact decide_eq_true hlt
    · rename_i hle
      have hmod : n % base < base := Nat.mod_lt _ (by omega)
      rw [map_append, mem_append] at hc
      rcases hc with hhigh | hlast
      · exact ih (n / base) (Nat.div_lt_self (by omega) hbase) c hhigh
      · simp only [map_singleton, mem_singleton] at hlast
        rw [hlast, isDigit, hform _ (by omega)]
        exact decide_eq_true hmod

end

theorem value_leading_zeros (zeros : Nat) (digits : List Char) :
    value base (List.replicate zeros '0' ++ digits) = value base digits := by
  have hzeros : value base (replicate zeros '0') = 0 := by
    induction zeros with
    | zero => rfl
    | succ zeros ih =>
      rw [replicate_succ', value_append_one, ih, Nat.zero_mul]
      rfl
  rw [value, foldl_append, ← value, hzeros, value]

/-- Digits up to something that is none of them. -/
theorem fromChars_append (hdigits : ∀ c ∈ digits, isDigit base c = true) (hne : digits ≠ [])
    (hrest : ∀ c ∈ rest.head?, isDigit base c = false) :
    fromChars base bits (digits ++ rest) =
      if value base digits < 2 ^ bits then some (value base digits, rest) else none := by
  have htake : (digits ++ rest).takeWhile (isDigit base) = digits := by
    rw [takeWhile_append_of_pos hdigits]
    cases rest with
    | nil => rw [takeWhile_nil, append_nil]
    | cons c rest =>
      rw [takeWhile_cons, if_neg (by rw [hrest c rfl]; exact Bool.false_ne_true), append_nil]
  have hdrop : (digits ++ rest).dropWhile (isDigit base) = rest := by
    rw [dropWhile_append_of_pos hdigits]
    cases rest with
    | nil => rfl
    | cons c rest => rw [dropWhile_cons, if_neg (by rw [hrest c rfl]; exact Bool.false_ne_true)]
  rw [fromChars, htake, hdrop, if_neg hne]

end LegionServer.Library.Numerals

/-!
# Scanning lists
-/
namespace LegionServer.Library.Scanning

variable {α : Type*} [DecidableEq α] {a l r : α} {text before after : List α} {depth : Nat}

/-- What is before the first `a` and what is behind it. -/
def cut (a : α) : List α → Option (List α × List α)
  | [] => none
  | b :: text =>
    if b = a then some ([], text) else (cut a text).map fun (before, after) => (b :: before, after)

theorem cut_eq_some : cut a text = some (before, after) ↔
    text = before ++ a :: after ∧ a ∉ before := by
  induction text generalizing before with
  | nil => simp [cut]
  | cons b text ih =>
    rw [cut]
    by_cases hb : b = a
    · rw [if_pos hb, hb]
      constructor
      · rintro ⟨⟩
        exact ⟨rfl, not_mem_nil⟩
      · rintro ⟨htext, hnot⟩
        cases before with
        | nil => simp at htext; rw [htext]
        | cons c before => simp at htext; simp [htext.1] at hnot
    · rw [if_neg hb, map_eq_some_iff]
      constructor
      · rintro ⟨⟨tail, rest⟩, hcut, ⟨⟩⟩
        obtain ⟨rfl, hnot⟩ := ih.mp hcut
        exact ⟨rfl, fun hmem => hnot ((mem_cons.mp hmem).resolve_left fun h => hb h.symm)⟩
      · rintro ⟨htext, hnot⟩
        cases before with
        | nil => simp at htext; exact absurd htext.1 hb
        | cons c before =>
          obtain ⟨rfl, rfl⟩ := htext
          exact ⟨(before, after), ih.mpr ⟨rfl, fun h => hnot (mem_cons_of_mem _ h)⟩, rfl⟩

theorem cut_eq_none : cut a text = none ↔ a ∉ text := by
  induction text with
  | nil => simp [cut]
  | cons b text ih =>
    rw [cut]
    by_cases hb : b = a
    · simp [hb]
    · rw [if_neg hb, map_eq_none_iff, ih, mem_cons, not_or]
      exact ⟨fun h => ⟨fun h' => hb h'.symm, h⟩, And.right⟩

/-- How many brackets are open after an element. -/
def deepen (l r : α) (depth : Nat) (b : α) : Nat :=
  if b = l then depth + 1 else if b = r then depth - 1 else depth

/-- What is before the element that leaves no bracket open, and what is behind it. -/
def close (l r : α) : Nat → List α → Option (List α × List α)
  | _, [] => none
  | depth, b :: text =>
    if deepen l r depth b = 0 then some ([], text)
    else (close l r (deepen l r depth b) text).map fun (before, after) => (b :: before, after)

/-- Some brackets are open all along a list: no beginning of it closes them. -/
def Open (l r : α) (depth : Nat) (text : List α) : Prop :=
  ∀ before after, text = before ++ after → before.count r < depth + before.count l

theorem open_nil (hdepth : 0 < depth) : Open l r depth [] := by
  intro before after h
  obtain ⟨rfl, rfl⟩ := append_eq_nil_iff.mp h.symm
  exact Nat.lt_add_right _ hdepth

/-- Counts after one element more, against the depth after it. -/
theorem count_deepen (hlr : l ≠ r) (hdepth : 0 < depth) (b : α) (before : List α) :
    (b :: before).count r + deepen l r depth b = before.count r + depth + (if b = l then 1 else 0) ∧
      (b :: before).count l = before.count l + (if b = l then 1 else 0) := by
  rw [deepen, count_cons, count_cons]
  by_cases hl : b = l
  · simp [hl, hlr]
    omega
  · by_cases hr : b = r <;> simp [hl, hr]
    · have hrl : r ≠ l := hlr.symm
      simp [hrl]
      omega

theorem open_cons (hlr : l ≠ r) (hdepth : 0 < depth) (b : α) : Open l r depth (b :: text) ↔
    0 < deepen l r depth b ∧ Open l r (deepen l r depth b) text := by
  constructor
  · intro h
    have hrest : Open l r (deepen l r depth b) text := by
      intro before after htext
      have hcount := h (b :: before) after (by rw [htext, cons_append])
      have hdeepen := count_deepen hlr hdepth b before
      omega
    exact ⟨by simpa using hrest [] text rfl, hrest⟩
  · rintro ⟨hpos, h⟩ before after htext
    cases before with
    | nil => exact Nat.lt_add_right _ hdepth
    | cons c before =>
      obtain ⟨rfl, rfl⟩ := cons.inj htext
      have hcount := h before after rfl
      have hdeepen := count_deepen hlr hdepth b before
      omega

/-- The scan stops at the first element that closes all that is open. -/
theorem close_eq_some (hlr : l ≠ r) (hdepth : 0 < depth) :
    close l r depth text = some (before, after) ↔
      text = before ++ r :: after ∧ Open l r depth before ∧
        depth + before.count l = before.count r + 1 := by
  induction text generalizing depth before with
  | nil => simp [close]
  | cons b text ih =>
    rw [close]
    by_cases hzero : deepen l r depth b = 0
    · rw [if_pos hzero]
      have hlast : b = r ∧ depth = 1 := by
        rw [deepen] at hzero
        split at hzero
        · omega
        · split at hzero
          · exact ⟨by assumption, by omega⟩
          · omega
      obtain ⟨rfl, rfl⟩ := hlast
      constructor
      · rintro ⟨⟩
        exact ⟨rfl, open_nil hdepth, rfl⟩
      · rintro ⟨htext, hopen, -⟩
        cases before with
        | nil => rw [(cons.inj htext).2]
        | cons c before =>
          obtain ⟨rfl, -⟩ := cons.inj htext
          exact absurd ((open_cons hlr hdepth _).mp hopen).1 (by omega)
    · rw [if_neg hzero, map_eq_some_iff]
      constructor
      · rintro ⟨⟨tail, rest⟩, hclose, ⟨⟩⟩
        obtain ⟨rfl, hopen, hcount⟩ := (ih (Nat.pos_of_ne_zero hzero)).mp hclose
        have hdeepen := count_deepen hlr hdepth b tail
        exact ⟨rfl, (open_cons hlr hdepth b).mpr ⟨Nat.pos_of_ne_zero hzero, hopen⟩, by omega⟩
      · rintro ⟨htext, hopen, hcount⟩
        cases before with
        | nil =>
          obtain ⟨rfl, rfl⟩ := cons.inj htext
          have hone : depth = 1 := by simpa using hcount
          rw [deepen, if_neg hlr.symm, if_pos rfl, hone] at hzero
          exact absurd rfl hzero
        | cons c before =>
          obtain ⟨rfl, rfl⟩ := cons.inj htext
          have hrest := (open_cons hlr hdepth b).mp hopen
          have hdeepen := count_deepen hlr hdepth b before
          exact ⟨(before, after), (ih hrest.1).mpr ⟨rfl, hrest.2, by omega⟩, rfl⟩

end LegionServer.Library.Scanning

/-!
# Joined words

A word of the common length is found in the text exactly where it is one of the words.
-/
namespace LegionServer.Library.JoinedWords

variable {α : Type*} {sep : α} {word : List α} {words : List (List α)} {n : Nat}

def joined (sep : α) (words : List (List α)) : List α := [sep].intercalate words

end LegionServer.Library.JoinedWords
