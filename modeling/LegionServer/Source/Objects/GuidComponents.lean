import Mathlib.Data.List.Nodup
import LegionServer.Source.Objects.GuidText
import LegionServer.Source.Objects.GuidFields

/-!
# Texts of guids read again

A component is read as it was written where its type holds it, and the name of a type leads to
its parser.
-/
namespace LegionServer.Source.Objects
open Library List Option Numerals

namespace ObjectGuidInfo
open ObjectGuidFactory

def body (width base : Nat) (component : UInt64) : Text := (appendComponent width base component).tail

theorem appendComponent_eq (width base : Nat) (component : UInt64) :
    appendComponent width base component = '-' :: body width base component := rfl

section Component

variable {width base bits : Nat} {component : UInt64} {rest : Text}

theorem body_eq (width base : Nat) (component : UInt64) : body width base component =
    List.replicate (width - (Nat.toDigits base component.toNat).length) '0' ++
      (Nat.toDigits base component.toNat).map (if 10 < base then Char.toUpper else id) := by
  rw [body, appendComponent, tail_cons]
  split
  · rfl
  · rw [List.map_id]

theorem form_digit (base : Nat) : ∀ d < 16,
    Numerals.digitValue ((if 10 < base then Char.toUpper else id) d.digitChar) = d := by
  intro d hd
  split
  · exact digitValue_toUpper hd
  · exact digitValue_digitChar hd

theorem isDigit_body (hbase : 1 < base) (h16 : base ≤ 16) :
    ∀ c ∈ body width base component, Numerals.isDigit base c = true := by
  intro c hc
  rw [body_eq, mem_append] at hc
  rcases hc with hzero | hdigit
  · rw [eq_of_mem_replicate hzero, isDigit]
    exact decide_eq_true (Nat.lt_trans Nat.zero_lt_one hbase)
  · exact isDigit_of_mem_toDigits hbase h16 (form_digit base) _ c hdigit

theorem value_body (hbase : 1 < base) (h16 : base ≤ 16) :
    Numerals.value base (body width base component) = component.toNat := by
  rw [body_eq, value_leading_zeros, value_map_toDigits hbase h16 (form_digit base)]

theorem body_ne_nil : body width base component ≠ [] := by
  simp [body_eq, Nat.toDigits_ne_nil]

theorem not_isDigit_dash (h16 : base ≤ 16) : Numerals.isDigit base '-' = false := by
  rw [isDigit, show digitValue '-' = 36 from rfl]
  exact decide_eq_false (by omega)

variable {α : Type} {read : Nat × Text → Option α} (hbase : 1 < base) (h16 : base ≤ 16)
include hbase h16

theorem parse_append (width' base' : Nat) (component' : UInt64) :
    (parseComponent base bits
        (body width base component ++ (appendComponent width' base' component' ++ rest)) >>= read) =
      if component.toNat < 2 ^ bits then
        read (component.toNat, body width' base' component' ++ rest)
      else none := by
  have hread : fromChars base bits
      (body width base component ++ (appendComponent width' base' component' ++ rest)) =
      if component.toNat < 2 ^ bits then
        some (component.toNat, appendComponent width' base' component' ++ rest)
      else none := by
    rw [fromChars_append (isDigit_body hbase h16) body_ne_nil
      (by rintro c ⟨⟩; exact not_isDigit_dash h16), value_body hbase h16]
  rw [parseComponent, hread]
  by_cases hfits : component.toNat < 2 ^ bits
  · simp [hfits, appendComponent_eq]
  · simp [hfits]

theorem parse_append_last (width' base' : Nat) (component' : UInt64) :
    (parseComponent base bits
        (body width base component ++ appendComponent width' base' component') >>= read) =
      if component.toNat < 2 ^ bits then read (component.toNat, body width' base' component')
      else none := by
  rw [← append_nil (appendComponent width' base' component'), parse_append hbase h16, append_nil]

theorem parse_last :
    (parseComponent base bits (body width base component) >>= read) =
      if component.toNat < 2 ^ bits then read (component.toNat, []) else none := by
  have hread : fromChars base bits (body width base component ++ []) =
      if component.toNat < 2 ^ bits then some (component.toNat, []) else none := by
    rw [fromChars_append (isDigit_body hbase h16) body_ne_nil (by intro c hc; cases hc),
      value_body hbase h16]
  rw [append_nil] at hread
  rw [parseComponent, hread]
  by_cases hfits : component.toNat < 2 ^ bits <;> simp [hfits]

end Component

section Names

variable (currentRealm : UInt32)

theorem name_eq (type : HighGuid) : (info currentRealm type).name = (info 0 type).name := by
  cases type <;> rfl

theorem mem_all (type : HighGuid) : type ∈ HighGuid.all := mem_of_getElem? type.all_value

theorem dash_not_in_names : ∀ type ∈ HighGuid.all, '-' ∉ (info 0 type).name.toList := by
  decide +kernel

theorem names_nodup : (HighGuid.all.map fun type => (info 0 type).name).Nodup := by
  decide +kernel

theorem find_name (type : HighGuid) : HighGuid.all.find? (fun other =>
    (info 0 type).name.toList = (info 0 other).name.toList) = some type := by
  have hsome : (HighGuid.all.find? fun other =>
      (info 0 type).name.toList = (info 0 other).name.toList).isSome := by
    rw [find?_isSome]
    exact ⟨type, mem_all type, decide_eq_true rfl⟩
  obtain ⟨other, hother⟩ := isSome_iff_exists.mp hsome
  have hfound := find?_some hother
  have hname : (info 0 type).name.toList = (info 0 other).name.toList := by simpa using hfound
  rw [hother, inj_on_of_nodup_map names_nodup (mem_all type) (mem_all other)
    (String.toList_injective hname)]

theorem parse_name (type : HighGuid) (rest : Text) :
    parse currentRealm ((info currentRealm type).name.toList ++ '-' :: rest) =
      (info currentRealm type).clientParseFunction type rest := by
  have hname : ∀ c ∈ (info 0 type).name.toList, (decide (c ≠ '-')) = true :=
    fun c hc => decide_eq_true fun h => dash_not_in_names type (mem_all type) (h ▸ hc)
  have htake : ((info 0 type).name.toList ++ '-' :: rest).takeWhile (· ≠ '-') =
      (info 0 type).name.toList := by
    rw [takeWhile_append_of_pos hname, takeWhile_cons_of_neg (by decide), append_nil]
  have hdrop : ((info 0 type).name.toList ++ '-' :: rest).dropWhile (· ≠ '-') = '-' :: rest := by
    rw [dropWhile_append_of_pos hname, dropWhile_cons_of_neg (by decide)]
  rw [parse, name_eq, htake, hdrop]
  simp only [name_eq currentRealm]
  rw [find_name]

theorem fromString_toString {guid : ObjectGuid} {type : HighGuid} (width base : Nat)
    (component : UInt64) (rest : Text) (hhigh : guid.getHigh = some type)
    (hformat : (info currentRealm type).clientFormatFunction (info currentRealm type).name.toList
      guid = (info currentRealm type).name.toList ++ (appendComponent width base component ++ rest)) :
    ObjectGuid.fromString currentRealm (ObjectGuid.toString currentRealm guid) =
      (info currentRealm type).clientParseFunction type (body width base component ++ rest) := by
  rw [ObjectGuid.toString, hhigh]
  dsimp only
  rw [hformat, ObjectGuid.fromString, appendComponent_eq, cons_append, parse_name]

end Names

section Kinds

theorem fits_mask {bits : Nat} (a : UInt64) {mask : UInt64} (h : mask.toNat < 2 ^ bits) :
    ((a &&& mask).toNat < 2 ^ bits) = True := by
  exact eq_true (Nat.lt_of_le_of_lt Nat.and_le_right h)

theorem fits_uint64 (a : UInt64) : (a.toNat < 2 ^ 64) = True := eq_true a.toNat_lt

theorem fits_uint32 (a : UInt32) : (a.toUInt64.toNat < 2 ^ 32) = True := by
  exact eq_true a.toNat_lt

theorem fits_subType (guid : ObjectGuid) : (guid.getSubType.toUInt64.toNat < 2 ^ 8) = True := by
  rw [UInt32.toNat_toUInt64, guid.toNat_getSubType]
  exact eq_true (by omega)

theorem fits_mapId (guid : ObjectGuid) : (guid.getMapId.toUInt64.toNat < 2 ^ 16) = True := by
  rw [UInt32.toNat_toUInt64, guid.toNat_getMapId]
  exact eq_true (by omega)

theorem ofNat_uint32 (a : UInt32) : UInt32.ofNat a.toUInt64.toNat = a := by
  rw [UInt32.toNat_toUInt64, UInt32.ofNat_toNat]

variable (currentRealm : UInt32) {guid : ObjectGuid} {type : HighGuid}

theorem info_worldObject (h : type.formatType = .worldObject) : info currentRealm type =
    ⟨(info currentRealm type).name, formatWorldObject, parseWorldObject currentRealm⟩ := by
  cases type <;> first | rfl | cases h

theorem info_global (h : type.formatType = .global) : info currentRealm type =
    ⟨(info currentRealm type).name, formatGlobal, parseGlobal⟩ := by
  cases type <;> first | rfl | cases h

theorem info_client (h : type.formatType = .client) : info currentRealm type =
    ⟨(info currentRealm type).name, formatClient, parseClient currentRealm⟩ := by
  cases type <;> first | rfl | cases h

theorem info_transport (h : type.formatType = .transport) : info currentRealm type =
    ⟨(info currentRealm type).name, formatTransport, parseTransport⟩ := by
  cases type <;> first | rfl | cases h

theorem parsed_some (guid : ObjectGuid) : parsed (some (guid, [])) = guid := rfl

theorem parsed_cases {p : ObjectGuid → Prop} {components : Option (ObjectGuid × Text)}
    (h : ∀ guid guidString, components = some (guid, guidString) → p guid) :
    parsed components = ObjectGuid.fromStringFailed ∨ p (parsed components) := by
  cases hread : components with
  | none => exact Or.inl rfl
  | some components =>
    rw [parsed]
    split
    · exact Or.inr (h _ _ hread)
    · exact Or.inl rfl

theorem parsePlayer_cases (guidString : Text) :
    parsePlayer currentRealm type guidString = ObjectGuid.fromStringFailed ∨
      ∃ realmId dbId, parsePlayer currentRealm type guidString =
        createPlayer currentRealm realmId dbId := by
  apply parsed_cases (p := fun guid => ∃ realmId dbId, guid = createPlayer currentRealm realmId dbId)
  intro guid rest hread
  simp only [bind_eq_bind, bind_eq_some_iff] at hread
  obtain ⟨realmId, -, dbId, -, hread⟩ := hread
  split at hread
  · cases hread
    exact ⟨_, _, rfl⟩
  split at hread
  · simp only [bind_eq_some_iff] at hread
    obtain ⟨_, -, dbId, -, hread⟩ := hread
    cases hread
    exact ⟨_, _, rfl⟩
  · split at hread
    · simp only [bind_eq_some_iff] at hread
      obtain ⟨_, -, dbId, -, hread⟩ := hread
      cases hread
      exact ⟨_, _, rfl⟩
    · cases hread

theorem fromString_null (h : guid.getHigh = some .null) :
    ObjectGuid.fromString currentRealm (ObjectGuid.toString currentRealm guid) =
      ObjectGuid.empty := by
  rw [ObjectGuid.toString, h]
  rfl

theorem parseUniq_name : ∀ id < uniqNames.length, ∀ name ∈ uniqName id,
    parseUniq .uniq name.toList = createUniq (.ofNat id) := by
  decide +kernel

theorem uniqName_lt {id : Nat} {name : String} (h : uniqName id = some name) :
    id < uniqNames.length := by
  by_contra hge
  rw [uniqName, getElem?_eq_none (by omega)] at h
  cases h

theorem parse_uniq (id : Nat) {name : String} (h : uniqName id = some name) :
    parse currentRealm ("Uniq".toList ++ '-' :: name.toList) = createUniq (.ofNat id) := by
  have hread := parse_name currentRealm .uniq name.toList
  exact hread.trans (parseUniq_name id (uniqName_lt h) name h)

theorem fromString_uniq (h : guid.getHigh = some .uniq) :
    ObjectGuid.fromString currentRealm (ObjectGuid.toString currentRealm guid) =
      createUniq (if (uniqName guid.getCounter.toNat).isSome then guid.getCounter else 3) := by
  rw [ObjectGuid.toString, h, ObjectGuid.fromString]
  change parse currentRealm (formatUniq "Uniq".toList guid) = _
  rw [formatUniq]
  cases hname : uniqName guid.getCounter.toNat with
  | none => exact parse_uniq currentRealm 3 rfl
  | some name =>
    rw [getD_some, parse_uniq currentRealm _ hname, isSome_some, if_pos rfl, UInt64.ofNat_toNat]

/-- A type that does not exist has the text of a failure. -/
theorem fromString_none (h : guid.getHigh = none) :
    ObjectGuid.fromString currentRealm (ObjectGuid.toString currentRealm guid) =
      ObjectGuid.toStringFailed := by
  rw [ObjectGuid.toString, h, ObjectGuid.fromString]
  exact parse_uniq currentRealm 3 (by decide +kernel : uniqName 3 = some "WOWGUID_TO_STRING_FAILED")

end Kinds

end ObjectGuidInfo

end LegionServer.Source.Objects
