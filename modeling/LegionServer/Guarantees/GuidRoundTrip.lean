import LegionServer.Source.Objects.GuidComponents

/-!
# Guids through their text

Which guids are read from their own text.
-/
namespace LegionServer.Guarantees.GuidRoundTrip
open Source.Objects ObjectGuidFactory ObjectGuidInfo List ObjectGuid UInt32

variable (currentRealm : UInt32)

/-- A realm that is not zero is read again; zero is read as the realm of the server, which is to
add no bits. -/
def WholeRealmKept (type : HighGuid) (guid : ObjectGuid) : Prop :=
  guid.getRealmId ≠ 0 ∨ typeBits type ||| (currentRealm.toUInt64 <<< 42) = typeBits type

/-- The same where 13 bits are read. -/
def MaskedRealmKept (guid : ObjectGuid) : Prop :=
  guid.getRealmId.toNat < 2 ^ 13 ∧ (guid.getRealmId ≠ 0 ∨ currentRealm.toNat % 2 ^ 13 = 0)

/-- The bits that the format of a guid leaves out are those that are read without it. -/
def Kept (guid : ObjectGuid) : Prop :=
  match guid.getHigh with
  | none => False
  | some type =>
    match type.formatType with
    | .null => guid.high = 0 ∧ guid.low = 0
    | .uniq => guid.high.toNat % 2 ^ 58 = 0 ∧ (uniqName guid.low.toNat).isSome
    | .player | .item | .guild =>
      guid.high.toNat % 2 ^ 42 = 0 ∧ WholeRealmKept currentRealm type guid
    | .mobileSession => guid.high.toNat % 2 ^ 33 = 0 ∧ WholeRealmKept currentRealm type guid
    | .worldObject => MaskedRealmKept currentRealm guid
    | .transport => guid.high.toNat % 2 ^ 58 = 0 ∧ guid.low = 0
    | .clientActor =>
      guid.high.toNat % 2 ^ 26 = 0 ∧ guid.high.toNat / 2 ^ 42 % 2 ^ 8 = 0 ∧
        guid.getRealmId.toNat < 2 ^ 13 ∧ guid.low.toNat < 2 ^ 32
    | .chatChannel =>
      guid.high.toNat % 2 ^ 4 = 0 ∧ guid.high.toNat / 2 ^ 26 % 2 ^ 16 = 0 ∧
        MaskedRealmKept currentRealm guid
    | .global => True
    | .webObj => guid.high.toNat % 2 ^ 35 = 0 ∧ MaskedRealmKept currentRealm guid
    | .lfgObject => guid.high.toNat % 2 ^ 35 = 0
    -- what is read is an `LFGObject`
    | .lfgList => False
    | .client => guid.high.toNat % 2 ^ 10 = 0 ∧ MaskedRealmKept currentRealm guid

def ReadBack (guid : ObjectGuid) : Prop :=
  ObjectGuid.fromString currentRealm (ObjectGuid.toString currentRealm guid) = guid

section Bits

variable {currentRealm} {guid : ObjectGuid} {type : HighGuid}

theorem masked_iff : (getRealmIdForObjectGuid currentRealm guid.getRealmId).toNat % 2 ^ 13 =
    guid.high.toNat / 2 ^ 42 % 2 ^ 16 ↔ MaskedRealmKept currentRealm guid := by
  have hrealm := guid.toNat_getRealmId
  rw [getRealmIdForObjectGuid, MaskedRealmKept]
  by_cases hzero : guid.getRealmId = 0
  · rw [if_neg (not_not.mpr hzero), ← hrealm, hzero]
    simp
  · rw [if_pos hzero, ← hrealm]
    simp only [ne_eq, hzero, not_false_eq_true, true_or, and_true]
    omega

/-- The bits of a realm that is not masked begin where those of the type begin. -/
theorem whole_mod (type : HighGuid) (realm : UInt32) :
    (typeBits type ||| (realm.toUInt64 <<< 42)).toNat % 2 ^ 42 = 0 := by
  have hshl : (realm.toUInt64 <<< 42).toNat % 2 ^ 42 = 0 := by
    rw [UInt64.toNat_shiftLeft, show (42 : UInt64).toNat % 64 = 42 from rfl, Nat.shiftLeft_eq]
    omega
  have htype : (typeBits type).toNat % 2 ^ 42 = 0 := by
    rw [toNat_typeBits]
    omega
  rw [UInt64.toNat_or, Nat.or_mod_two_pow, hshl, htype]
  rfl

theorem whole_iff (hhigh : guid.getHigh = some type) :
    (typeBits type |||
      ((getRealmIdForObjectGuid currentRealm guid.getRealmId).toUInt64 <<< 42)).toNat =
        guid.high.toNat / 2 ^ 42 * 2 ^ 42 ↔ WholeRealmKept currentRealm type guid := by
  have hrealm := guid.toNat_getRealmId
  have htype := guid.getHigh_eq_some.mp hhigh
  rw [getRealmIdForObjectGuid, WholeRealmKept]
  by_cases hzero : guid.getRealmId = 0
  · rw [hzero] at hrealm
    have hbits : guid.high.toNat / 2 ^ 42 * 2 ^ 42 = (typeBits type).toNat := by
      have hzero' : (0 : UInt32).toNat = 0 := rfl
      rw [toNat_typeBits]
      omega
    rw [if_neg (not_not.mpr hzero), hbits, UInt64.toNat_inj]
    simp [hzero]
  · rw [if_pos hzero, toNat_wholeRealm _ _ (by omega)]
    simp only [ne_eq, hzero, not_false_eq_true, true_or, iff_true]
    omega

theorem whole_guid_iff (hhigh : guid.getHigh = some type) :
    (⟨typeBits type ||| ((getRealmIdForObjectGuid currentRealm guid.getRealmId).toUInt64 <<< 42),
      guid.low⟩ : ObjectGuid) = guid ↔
        guid.high.toNat % 2 ^ 42 = 0 ∧ WholeRealmKept currentRealm type guid := by
  have hmod := whole_mod type (getRealmIdForObjectGuid currentRealm guid.getRealmId)
  rw [← whole_iff hhigh, ext_toNat]
  dsimp only
  omega

theorem masked_guid_iff (hhigh : guid.getHigh = some type) {low : Nat} (hlow : low < 2 ^ 42) :
    type.value * 2 ^ 58 +
        ((getRealmIdForObjectGuid currentRealm guid.getRealmId).toNat % 2 ^ 13 * 2 ^ 42 + low) =
      guid.high.toNat ↔ low = guid.high.toNat % 2 ^ 42 ∧ MaskedRealmKept currentRealm guid := by
  have hvalue := guid.getHigh_eq_some.mp hhigh
  rw [← masked_iff]
  omega

theorem readBack_item (hhigh : guid.getHigh = some .item) :
    ReadBack currentRealm guid ↔ Kept currentRealm guid := by
  rw [ReadBack, fromString_toString currentRealm 0 10 _ _ hhigh
    (by simp only [info, formatItem, append_assoc]; rfl), Kept, hhigh]
  simp (disch := decide) only [info, parseItem, parse_append, parse_append_last, parse_last,
    if_true, fits_mask, fits_uint64, fits_uint32, parsed_some, ofNat_uint32, UInt64.ofNat_toNat,
    -Nat.reducePow]
  exact whole_guid_iff hhigh

theorem readBack_guild (hhigh : guid.getHigh = some .guild) :
    ReadBack currentRealm guid ↔ Kept currentRealm guid := by
  rw [ReadBack, fromString_toString currentRealm 0 10 _ _ hhigh
    (by simp only [info, formatGuild, append_assoc]; rfl), Kept, hhigh]
  simp (disch := decide) only [info, parseGuild, parse_append_last, parse_last, if_true,
    fits_uint64, fits_uint32, parsed_some, ofNat_uint32, UInt64.ofNat_toNat, -Nat.reducePow]
  exact whole_guid_iff hhigh

theorem worldObject_low (n : Nat) :
    n / 2 ^ 29 % 2 ^ 13 * 2 ^ 29 + (n / 2 ^ 6 % 2 ^ 23 * 2 ^ 6 + n % 2 ^ 6) = n % 2 ^ 42 := by
  omega

theorem readBack_worldObject (hhigh : guid.getHigh = some type)
    (htype : type.formatType = .worldObject) :
    ReadBack currentRealm guid ↔ Kept currentRealm guid := by
  have hnot : guid.getHigh ≠ some .transport := by
    rw [hhigh]
    rintro ⟨⟩
    cases htype
  have hlt := guid.low.toNat_lt
  have hlow : guid.low.toNat / 2 ^ 40 % 2 ^ 24 % 2 ^ 32 % 2 ^ 24 * 2 ^ 40
      + guid.low.toNat % 2 ^ 40 % 2 ^ 40 = guid.low.toNat := by omega
  have hmap : guid.high.toNat / 2 ^ 29 % 2 ^ 13 % 2 ^ 16 % 2 ^ 13 =
      guid.high.toNat / 2 ^ 29 % 2 ^ 13 := by omega
  have hsubType : guid.high.toNat % 2 ^ 6 % 2 ^ 8 % 2 ^ 6 = guid.high.toNat % 2 ^ 6 := by omega
  have hinfo := info_worldObject currentRealm htype
  rw [ReadBack, fromString_toString currentRealm 0 10 _ _ hhigh
    (by rw [hinfo]; simp only [formatWorldObject, append_assoc]; rfl), hinfo, Kept, hhigh]
  simp (disch := decide) only [parseWorldObject, parse_append, parse_append_last, parse_last,
    if_true, fits_mask, fits_uint64, fits_uint32, parsed_some, ofNat_uint32, UInt64.ofNat_toNat,
    fits_subType, fits_mapId, htype, -Nat.reducePow]
  rw [ext_toNat, high_createWorldObject, low_createWorldObject,
    guid.toNat_getCounter hnot, guid.toNat_getEntry, UInt8.toNat_ofNat', UInt16.toNat_ofNat',
    toNat_ofNat', toNat_toUInt64, toNat_toUInt64, guid.toNat_getMapId,
    guid.toNat_getSubType, toNat_bits 40 24 rfl (by decide) rfl, hlow, hmap, hsubType, Nat.mod_mod,
    Nat.add_assoc, Nat.add_assoc, Nat.add_assoc, worldObject_low,
    masked_guid_iff hhigh (Nat.mod_lt _ (Nat.two_pow_pos 42))]
  simp only [true_and, and_true]

/-- A text that is not read gives a guid of another type. -/
theorem failed_ne (hhigh : guid.getHigh = some type) (htype : type ≠ .uniq) :
    ObjectGuid.fromStringFailed ≠ guid := by
  rintro rfl
  exact htype (Option.some.inj hhigh).symm

theorem readBack_transport (hhigh : guid.getHigh = some type)
    (htype : type.formatType = .transport) :
    ReadBack currentRealm guid ↔ Kept currentRealm guid := by
  have hvalue := guid.getHigh_eq_some.mp hhigh
  have hzero : (createTransport type (.ofNat (0 : UInt64).toNat)).high.toNat =
      type.value * 2 ^ 58 + 0 * 2 ^ 38 := high_createTransport type (by decide)
  have hinfo := info_transport currentRealm htype
  rw [ReadBack, fromString_toString currentRealm 0 10 _ _ hhigh
    (by rw [hinfo]; simp only [formatTransport, append_assoc]; rfl), hinfo, Kept, hhigh]
  simp (disch := decide) only [parseTransport, parse_append_last, parse_last, if_true, fits_uint32,
    htype, -Nat.reducePow]
  by_cases hlow : guid.low = 0
  · rw [hlow, if_pos (by decide), parsed_some, ext_toNat, hzero, hlow]
    simp only [createTransport, and_true]
    omega
  · constructor
    · intro h
      split at h
      · exact absurd (by rw [← h, parsed_some, createTransport]) hlow
      · exact absurd h (failed_ne hhigh (by rintro rfl; cases htype))
    · exact fun h => absurd h.2 hlow

theorem readBack_clientActor (hhigh : guid.getHigh = some .clientActor) :
    ReadBack currentRealm guid ↔ Kept currentRealm guid := by
  have hvalue := guid.getHigh_eq_some.mp hhigh
  have hrealm : (guid.getRealmId.toUInt64.toNat < 2 ^ 16) = True := by
    rw [toNat_toUInt64, guid.toNat_getRealmId]
    exact eq_true (by omega)
  rw [ReadBack, fromString_toString currentRealm 0 10 _ _ hhigh
    (by simp only [info, formatClientActor, append_assoc]; rfl), Kept, hhigh]
  simp (disch := decide) only [info, parseClientActor, parse_append, parse_append_last, parse_last,
    if_true, hrealm, fits_mask, HighGuid.formatType, -Nat.reducePow]
  rw [toNat_bits 26 24 rfl (by decide) rfl]
  split
  · have hlow : (createClientActor (.ofNat guid.getRealmId.toUInt64.toNat)
        (.ofNat (guid.high.toNat / 2 ^ 26 % 2 ^ 24))
        (.ofNat (guid.low &&& 0xFFFFFFFF).toNat)).low.toNat = guid.low.toNat % 2 ^ 32 := by
      rw [createClientActor, toNat_toUInt64, toNat_ofNat', toNat_mask 32 rfl]
      omega
    rw [parsed_some, ext_toNat, high_createClientActor, hlow, UInt16.toNat_ofNat',
      UInt16.toNat_ofNat', toNat_toUInt64, guid.toNat_getRealmId]
    omega
  · constructor
    · exact fun h => absurd h (failed_ne hhigh (by decide))
    · omega

theorem flag_bit (n : Nat) : (n % 2 ^ 1 != 0).toNat = n % 2 ^ 1 := by
  rcases Nat.mod_two_eq_zero_or_one n with h | h <;> simp [h]

theorem readBack_chatChannel (hhigh : guid.getHigh = some .chatChannel) :
    ReadBack currentRealm guid ↔ Kept currentRealm guid := by
  have hbits : guid.high.toNat / 2 ^ 25 % 2 ^ 1 * 2 ^ 25 + (guid.high.toNat / 2 ^ 24 % 2 ^ 1 * 2 ^ 24
      + (guid.high.toNat / 2 ^ 10 % 2 ^ 14 % 2 ^ 16 % 2 ^ 14 * 2 ^ 10
        + guid.high.toNat / 2 ^ 4 % 2 ^ 6 % 2 ^ 8 % 2 ^ 6 * 2 ^ 4)) =
      guid.high.toNat % 2 ^ 26 / 2 ^ 4 * 2 ^ 4 := by omega
  rw [ReadBack, fromString_toString currentRealm 0 10 _ _ hhigh
    (by simp only [info, formatChatChannel, append_assoc]; rfl), Kept, hhigh]
  simp (disch := decide) only [info, parseChatChannel, parse_append, parse_append_last, parse_last,
    if_true, fits_mask, fits_uint64, fits_uint32, parsed_some, ofNat_uint32, UInt64.ofNat_toNat,
    HighGuid.formatType, -Nat.reducePow]
  rw [ext_toNat, high_createChatChannel, UInt16.toNat_ofNat',
    UInt8.toNat_ofNat', toNat_bits 25 1 rfl (by decide) rfl, toNat_bits 24 1 rfl (by decide) rfl,
    toNat_bits 10 14 rfl (by decide) rfl, toNat_bits 4 6 rfl (by decide) rfl, flag_bit, flag_bit,
    Nat.add_assoc, Nat.add_assoc, Nat.add_assoc, Nat.add_assoc, hbits,
    masked_guid_iff hhigh (by omega)]
  simp only [createChatChannel, and_true, ← and_assoc]
  rw [and_congr_left_iff]
  intro _
  omega

theorem readBack_global (hhigh : guid.getHigh = some type) (htype : type.formatType = .global) :
    ReadBack currentRealm guid ↔ Kept currentRealm guid := by
  have hvalue := guid.getHigh_eq_some.mp hhigh
  have hinfo := info_global currentRealm htype
  rw [ReadBack, fromString_toString currentRealm 0 10 _ _ hhigh
    (by rw [hinfo]; simp only [formatGlobal, append_assoc]; rfl), hinfo, Kept, hhigh]
  simp (disch := decide) only [parseGlobal, parse_append_last, parse_last, if_true, fits_uint64,
    parsed_some, UInt64.ofNat_toNat, htype, -Nat.reducePow]
  rw [ext_toNat, high_createGlobal, toNat_mask 58 rfl]
  exact iff_of_true ⟨by omega, rfl⟩ trivial

theorem readBack_mobileSession (hhigh : guid.getHigh = some .mobileSession) :
    ReadBack currentRealm guid ↔ Kept currentRealm guid := by
  have hmod := whole_mod .mobileSession (getRealmIdForObjectGuid currentRealm guid.getRealmId)
  have hmask : (UInt16.ofNat (guid.high >>> 33 &&& 0x1FF).toNat &&& 0x1FF).toUInt64.toNat =
      guid.high.toNat / 2 ^ 33 % 2 ^ 9 := by
    rw [toNat_mask16 9 rfl, UInt16.toNat_ofNat', toNat_bits 33 9 rfl (by decide) rfl]
    omega
  have harg1 : ((UInt16.ofNat (guid.high >>> 33 &&& 0x1FF).toNat &&& 0x1FF).toUInt64 <<< 33).toNat =
      guid.high.toNat / 2 ^ 33 % 2 ^ 9 * 2 ^ 33 := toNat_place 33 9 hmask rfl (by decide) (by decide)
  rw [ReadBack, fromString_toString currentRealm 0 10 _ _ hhigh
    (by simp only [info, formatMobileSession, append_assoc]; rfl), Kept, hhigh]
  simp (disch := decide) only [info, parseMobileSession, parse_append, parse_append_last,
    parse_last, if_true, fits_mask, fits_uint64, fits_uint32, parsed_some, ofNat_uint32,
    UInt64.ofNat_toNat, HighGuid.formatType, -Nat.reducePow]
  rw [← whole_iff hhigh, ext_toNat, createMobileSession,
    toNat_or_add 42 rfl harg1 (Nat.dvd_of_mod_eq_zero hmod) (by omega)]
  dsimp only
  omega

theorem readBack_webObj (hhigh : guid.getHigh = some .webObj) :
    ReadBack currentRealm guid ↔ Kept currentRealm guid := by
  rw [ReadBack, fromString_toString currentRealm 0 10 _ _ hhigh
    (by simp only [info, formatWebObj, append_assoc]; rfl), Kept, hhigh]
  simp (disch := decide) only [info, parseWebObj, parse_append, parse_append_last, parse_last,
    if_true, fits_mask, fits_uint64, fits_uint32, parsed_some, ofNat_uint32, UInt64.ofNat_toNat,
    HighGuid.formatType, -Nat.reducePow]
  rw [ext_toNat, high_createWebObj, UInt8.toNat_ofNat', UInt8.toNat_ofNat',
    toNat_bits 37 5 rfl (by decide) rfl, toNat_bits 35 2 rfl (by decide) rfl, Nat.add_assoc,
    Nat.add_assoc, masked_guid_iff hhigh (by omega)]
  simp only [createWebObj, and_true]
  rw [and_congr_left_iff]
  intro _
  omega

theorem join_bits (n i width k : Nat) (hk : k = i + width) :
    n / 2 ^ k * 2 ^ k + n / 2 ^ i % 2 ^ width * 2 ^ i = n / 2 ^ i * 2 ^ i := by
  rw [hk, Nat.pow_add, ← Nat.div_div_eq_div_mul, Nat.mul_comm (2 ^ i), ← Nat.mul_assoc,
    ← Nat.add_mul, Nat.div_add_mod']

theorem readBack_lfgObject (hhigh : guid.getHigh = some .lfgObject) :
    ReadBack currentRealm guid ↔ Kept currentRealm guid := by
  have harg : ∀ i width, width ≤ 8 →
      guid.high.toNat / 2 ^ i % 2 ^ width % 2 ^ 8 % 2 ^ width = guid.high.toNat / 2 ^ i % 2 ^ width := by
    intro i width hwidth
    rw [Nat.mod_mod_of_dvd _ (Nat.pow_dvd_pow 2 hwidth), Nat.mod_mod]
  rw [ReadBack, fromString_toString currentRealm 0 10 _ _ hhigh
    (by simp only [info, formatLFGObject, append_assoc]; rfl), Kept, hhigh]
  simp (disch := decide) only [info, parseLFGObject, parse_append, parse_append_last, parse_last,
    if_true, fits_mask, fits_uint64, parsed_some, UInt64.ofNat_toNat, HighGuid.formatType,
    -Nat.reducePow]
  rw [ext_toNat, high_createLFGObject, UInt8.toNat_ofNat', UInt8.toNat_ofNat',
    UInt8.toNat_ofNat', UInt8.toNat_ofNat', UInt8.toNat_ofNat',
    toNat_bits 54 4 rfl (by decide) rfl, toNat_bits 50 4 rfl (by decide) rfl,
    toNat_bits 46 4 rfl (by decide) rfl, toNat_bits 38 8 rfl (by decide) rfl,
    toNat_bits 37 1 rfl (by decide) rfl, toNat_bits 35 2 rfl (by decide) rfl,
    flag_bit, harg 54 4 (by decide), harg 50 4 (by decide),
    harg 46 4 (by decide), harg 38 8 (by decide), harg 35 2 (by decide),
    ← guid.getHigh_eq_some.mp hhigh, join_bits _ 54 4 58 rfl, join_bits _ 50 4 54 rfl,
    join_bits _ 46 4 50 rfl, join_bits _ 38 8 46 rfl, join_bits _ 37 1 38 rfl,
    join_bits _ 35 2 37 rfl]
  dsimp only [createLFGObject]
  omega

theorem readBack_lfgList (hhigh : guid.getHigh = some .lfgList) :
    ReadBack currentRealm guid ↔ Kept currentRealm guid := by
  have hvalue := guid.getHigh_eq_some.mp hhigh
  rw [ReadBack, fromString_toString currentRealm 0 10 _ _ hhigh
    (by simp only [info, formatLFGList, append_assoc]; rfl), Kept, hhigh]
  simp (disch := decide) only [info, parseLFGList, parse_append_last, parse_last, if_true,
    fits_mask, fits_uint64, parsed_some, UInt64.ofNat_toNat, HighGuid.formatType, -Nat.reducePow]
  rw [ext_toNat, high_createLFGList, show HighGuid.lfgObject.value = 37 from rfl]
  rw [show HighGuid.lfgList.value = 38 from rfl] at hvalue
  exact iff_of_false (by omega) id

theorem readBack_client (hhigh : guid.getHigh = some type) (htype : type.formatType = .client) :
    ReadBack currentRealm guid ↔ Kept currentRealm guid := by
  have hinfo := info_client currentRealm htype
  rw [ReadBack, fromString_toString currentRealm 0 10 _ _ hhigh
    (by rw [hinfo]; simp only [formatClient, append_assoc]; rfl), hinfo, Kept, hhigh]
  simp (disch := decide) only [parseClient, parse_append, parse_append_last, parse_last, if_true,
    fits_mask, fits_uint64, fits_uint32, parsed_some, ofNat_uint32, UInt64.ofNat_toNat, htype,
    -Nat.reducePow]
  rw [ext_toNat, high_createClient, toNat_ofNat',
    toNat_bits 10 32 rfl (by decide) rfl, Nat.add_assoc, masked_guid_iff hhigh (by omega)]
  simp only [createClient, and_true]
  rw [and_congr_left_iff]
  intro _
  omega

theorem low_bits (hmod : guid.high.toNat % 2 ^ 42 = 0) : (guid.high >>> 40) &&& 0x3 = 0 := by
  apply UInt64.toNat_inj.mp
  rw [toNat_bits 40 2 rfl (by decide) rfl, show (0 : UInt64).toNat = 0 from rfl]
  omega

theorem readBack_player (hhigh : guid.getHigh = some .player) :
    ReadBack currentRealm guid ↔ Kept currentRealm guid := by
  rw [ReadBack, Kept, hhigh]
  by_cases hmod : guid.high.toNat % 2 ^ 42 = 0
  · rw [fromString_toString currentRealm 0 10 _ _ hhigh
      (by simp only [info, formatPlayer, low_bits hmod, if_true, append_assoc]; rfl)]
    simp (disch := decide) only [info, parsePlayer, parse_append_last, parse_last, if_true,
      fits_uint64, fits_uint32, parsed_some, parseDone, isEmpty_nil, ofNat_uint32,
      UInt64.ofNat_toNat, -Nat.reducePow]
    exact whole_guid_iff hhigh
  constructor
  · intro h
    rw [fromString_toString currentRealm 0 10 _ _ hhigh
      (by simp only [info, formatPlayer, append_assoc]; rfl)] at h
    rcases @parsePlayer_cases currentRealm .player _ with hfailed | ⟨realmId, dbId, hread⟩
    · exact absurd (hfailed.symm.trans h) (failed_ne hhigh (by decide))
    · rw [← hread.symm.trans h] at hmod
      exact absurd (whole_mod .player _) hmod
  · exact fun h => absurd h.1 hmod

theorem readBack_uniq (hhigh : guid.getHigh = some .uniq) :
    ReadBack currentRealm guid ↔ Kept currentRealm guid := by
  have hvalue := guid.getHigh_eq_some.mp hhigh
  have hcounter := guid.toNat_getCounter (by rw [hhigh]; nofun)
  have hhighBits : (typeBits .uniq).toNat = guid.high.toNat ↔ guid.high.toNat % 2 ^ 58 = 0 := by
    rw [toNat_typeBits]
    omega
  rw [ReadBack, fromString_uniq currentRealm hhigh, Kept, hhigh, ext_toNat, createUniq, hhighBits]
  dsimp only [HighGuid.formatType]
  rw [and_congr_right_iff]
  intro _
  -- a named id is below the bits that the counter leaves out
  have hlow : (uniqName guid.low.toNat).isSome → guid.getCounter.toNat = guid.low.toNat := by
    intro hnamed
    obtain ⟨name, hname⟩ := Option.isSome_iff_exists.mp hnamed
    have hlt : guid.low.toNat < 20 := uniqName_lt hname
    omega
  by_cases hnamed : (uniqName guid.getCounter.toNat).isSome
  · rw [if_pos hnamed]
    exact ⟨fun h => h ▸ hnamed, hlow⟩
  rw [if_neg hnamed]
  constructor
  · intro h
    rw [← h, show (3 : UInt64).toNat % 2 ^ 40 = 3 from rfl] at hcounter
    rw [hcounter] at hnamed
    exact absurd (by decide +kernel) hnamed
  · exact fun h => absurd (hlow h ▸ h) hnamed

theorem single (other : HighGuid)
    (hsingle : (HighGuid.all.filter (·.formatType = other.formatType)) = [other])
    (htype : type.formatType = other.formatType) : type = other := by
  have hmem : type ∈ HighGuid.all.filter (·.formatType = other.formatType) :=
    mem_filter.mpr ⟨mem_all type, decide_eq_true htype⟩
  rw [hsingle] at hmem
  exact mem_singleton.mp hmem

end Bits

theorem readBack_iff (guid : ObjectGuid) : ReadBack currentRealm guid ↔ Kept currentRealm guid := by
  cases hhigh : guid.getHigh with
  | none =>
    rw [ReadBack, Kept, hhigh, fromString_none currentRealm hhigh]
    constructor
    · rintro rfl
      cases hhigh
    · exact False.elim
  | some type =>
    cases htype : type.formatType with
    | null =>
      obtain rfl := single .null rfl htype
      rw [ReadBack, fromString_null currentRealm hhigh, empty, Kept, hhigh, eq_comm]
      exact iff_of_eq (ObjectGuid.mk.injEq ..)
    | uniq => exact readBack_uniq (single .uniq rfl htype ▸ hhigh)
    | player => exact readBack_player (single .player rfl htype ▸ hhigh)
    | item => exact readBack_item (single .item rfl htype ▸ hhigh)
    | worldObject => exact readBack_worldObject hhigh htype
    | transport => exact readBack_transport hhigh htype
    | clientActor => exact readBack_clientActor (single .clientActor rfl htype ▸ hhigh)
    | chatChannel => exact readBack_chatChannel (single .chatChannel rfl htype ▸ hhigh)
    | global => exact readBack_global hhigh htype
    | guild => exact readBack_guild (single .guild rfl htype ▸ hhigh)
    | mobileSession => exact readBack_mobileSession (single .mobileSession rfl htype ▸ hhigh)
    | webObj => exact readBack_webObj (single .webObj rfl htype ▸ hhigh)
    | lfgObject => exact readBack_lfgObject (single .lfgObject rfl htype ▸ hhigh)
    | lfgList => exact readBack_lfgList (single .lfgList rfl htype ▸ hhigh)
    | client => exact readBack_client hhigh htype

inductive GuidArgs
  | uniq (id : UInt64) (named : (uniqName id.toNat).isSome)
  | player (realmId : UInt32) (dbId : UInt64)
  | item (realmId : UInt32) (dbId : UInt64)
  | worldObject (type : HighGuid) (format : type.formatType = .worldObject) (subType : UInt8)
      (realmId : UInt32) (mapId : UInt16) (serverId entry : UInt32) (counter : UInt64)
  | transport (type : HighGuid) (format : type.formatType = .transport) (counter : UInt32)
  | clientActor (ownerType ownerId : UInt16) (counter : UInt32)
  | chatChannel (realmId : UInt32) (builtIn trade : Bool) (zoneId : UInt16)
      (factionGroupMask : UInt8) (counter : UInt64)
  | global (type : HighGuid) (format : type.formatType = .global) (dbIdHigh dbId : UInt64)
  | guild (realmId : UInt32) (dbId : UInt64)
  | mobileSession (realmId : UInt32) (arg1 : UInt16) (counter : UInt64)
  | webObj (realmId : UInt32) (arg1 arg2 : UInt8) (counter : UInt64)
  | lfgObject (arg1 arg2 arg3 arg4 : UInt8) (arg5 : Bool) (arg6 : UInt8) (counter : UInt64)
  | lfgList (arg1 : UInt8) (counter : UInt64)
  | client (type : HighGuid) (format : type.formatType = .client) (realmId arg1 : UInt32)
      (counter : UInt64)

namespace GuidArgs

def create : GuidArgs → ObjectGuid
  | uniq id _ => createUniq id
  | player realmId dbId => createPlayer currentRealm realmId dbId
  | item realmId dbId => createItem currentRealm realmId dbId
  | worldObject type _ subType realmId mapId serverId entry counter =>
    createWorldObject currentRealm type subType realmId mapId serverId entry counter
  | transport type _ counter => createTransport type counter
  | clientActor ownerType ownerId counter => createClientActor ownerType ownerId counter
  | chatChannel realmId builtIn trade zoneId factionGroupMask counter =>
    createChatChannel currentRealm realmId builtIn trade zoneId factionGroupMask counter
  | global type _ dbIdHigh dbId => createGlobal type dbIdHigh dbId
  | guild realmId dbId => createGuild currentRealm .guild realmId dbId
  | mobileSession realmId arg1 counter => createMobileSession currentRealm realmId arg1 counter
  | webObj realmId arg1 arg2 counter => createWebObj currentRealm realmId arg1 arg2 counter
  | lfgObject arg1 arg2 arg3 arg4 arg5 arg6 counter =>
    createLFGObject arg1 arg2 arg3 arg4 arg5 arg6 counter
  | lfgList arg1 counter => createLFGList arg1 counter
  | client type _ realmId arg1 counter => createClient currentRealm type realmId arg1 counter

def realmId? : GuidArgs → Option UInt32
  | player realmId _ | item realmId _ | worldObject _ _ _ realmId _ _ _ _
  | chatChannel realmId _ _ _ _ _ | guild realmId _ | mobileSession realmId _ _
  | webObj realmId _ _ _ | client _ _ realmId _ _ => some realmId
  | _ => none

def Survives (args : GuidArgs) : Prop :=
  match args with
  | uniq _ _ | global _ _ _ _ | lfgObject _ _ _ _ _ _ _ | lfgList _ _ => True
  -- the 13 bits of the realm are not all zero, or zero is what the realm of the server gives
  | worldObject _ _ _ realmId _ _ _ _ | chatChannel realmId _ _ _ _ _ | webObj realmId _ _ _
  | client _ _ realmId _ _ => realmId.toNat % 2 ^ 13 ≠ 0 ∨ currentRealm.toNat % 2 ^ 13 = 0
  -- the lower bits of the owner's type are written as part of its id
  | clientActor ownerType _ _ => ownerType.toNat % 2 ^ 8 = 0
  -- the counter is not written; from 20 bits on it changes the type
  | transport _ _ counter =>
    if counter.toNat < 2 ^ 20 then counter = 0 else Kept currentRealm (args.create currentRealm)
  -- from 16 bits on a realm changes the type
  | player realmId _ | item realmId _ | guild realmId _ | mobileSession realmId _ _ =>
    realmId.toNat < 2 ^ 16 ∨ Kept currentRealm (args.create currentRealm)

end GuidArgs

section Arguments

variable {currentRealm} {guid : ObjectGuid} {realmId : UInt32}

theorem wholeRealmKept_of (type : HighGuid) (h : guid.high.toNat / 2 ^ 42 % 2 ^ 16 = realmId.toNat)
    (hrealm : realmId ≠ 0) : WholeRealmKept currentRealm type guid := by
  left
  rw [← guid.toNat_getRealmId, UInt32.toNat_inj] at h
  rw [h]
  exact hrealm

theorem maskedRealmKept_iff (h : guid.high.toNat / 2 ^ 42 % 2 ^ 16 = realmId.toNat % 2 ^ 13) :
    MaskedRealmKept currentRealm guid ↔
      realmId.toNat % 2 ^ 13 ≠ 0 ∨ currentRealm.toNat % 2 ^ 13 = 0 := by
  have hzero : guid.getRealmId = 0 ↔ guid.getRealmId.toNat = 0 := UInt32.toNat_inj.symm
  rw [MaskedRealmKept, ne_eq, hzero, guid.toNat_getRealmId, h]
  omega

theorem kept_whole {type : HighGuid} (dbId : UInt64) (hrealm : realmId ≠ 0)
    (hlt : realmId.toNat < 2 ^ 16)
    (htype : type.formatType = .player ∨ type.formatType = .item ∨ type.formatType = .guild) :
    Kept currentRealm
      ⟨typeBits type ||| ((getRealmIdForObjectGuid currentRealm realmId).toUInt64 <<< 42), dbId⟩ := by
  have hbits := toNat_wholeRealm realmId type hlt
  have hhigh : (⟨typeBits type |||
      ((getRealmIdForObjectGuid currentRealm realmId).toUInt64 <<< 42), dbId⟩ : ObjectGuid).getHigh =
        some type := by
    rw [getHigh_eq_some, getRealmIdForObjectGuid, if_pos hrealm]
    dsimp only
    omega
  have hkept : WholeRealmKept currentRealm type ⟨typeBits type |||
      ((getRealmIdForObjectGuid currentRealm realmId).toUInt64 <<< 42), dbId⟩ := by
    apply wholeRealmKept_of type _ hrealm
    rw [getRealmIdForObjectGuid, if_pos hrealm]
    dsimp only
    omega
  have hmod := whole_mod type (getRealmIdForObjectGuid currentRealm realmId)
  rw [Kept, hhigh]
  dsimp only
  rcases htype with htype | htype | htype <;> rw [htype] <;> exact ⟨hmod, hkept⟩

theorem high_eq {type : HighGuid} {high : Nat} (hbits : guid.high.toNat = high)
    (htype : high / 2 ^ 58 = type.value) : guid.getHigh = some type := by
  rw [getHigh_eq_some, hbits, htype]

theorem realmOf (h : realmId ≠ 0) : getRealmIdForObjectGuid currentRealm realmId = realmId :=
  if_pos h

theorem kept_mobileSession (arg1 : UInt16) (counter : UInt64) (hrealm : realmId ≠ 0)
    (hlt : realmId.toNat < 2 ^ 16) :
    Kept currentRealm (createMobileSession currentRealm realmId arg1 counter) := by
  have hbits := high_createMobileSession currentRealm realmId arg1 counter
    (by rw [realmOf hrealm]; exact hlt)
  rw [realmOf hrealm] at hbits
  have hhigh : _ = some HighGuid.mobileSession := high_eq hbits (by omega)
  rw [Kept, hhigh]
  exact ⟨by rw [hbits]; omega, wholeRealmKept_of _ (by rw [hbits]; omega) hrealm⟩

theorem kept_worldObject_iff {type : HighGuid} (htype : type.formatType = .worldObject)
    (subType : UInt8) (mapId : UInt16) (serverId entry : UInt32) (counter : UInt64)
    (hrealm : realmId ≠ 0) :
    Kept currentRealm
        (createWorldObject currentRealm type subType realmId mapId serverId entry counter) ↔
      realmId.toNat % 2 ^ 13 ≠ 0 ∨ currentRealm.toNat % 2 ^ 13 = 0 := by
  have hbits := high_createWorldObject currentRealm realmId type subType mapId serverId entry counter
  rw [realmOf hrealm] at hbits
  have hhigh : _ = some type := high_eq hbits (by omega)
  rw [Kept, hhigh]
  dsimp only
  rw [htype]
  exact maskedRealmKept_iff (by rw [hbits]; omega)

theorem kept_chatChannel_iff (builtIn trade : Bool) (zoneId : UInt16) (factionGroupMask : UInt8)
    (counter : UInt64) (hrealm : realmId ≠ 0) :
    Kept currentRealm
        (createChatChannel currentRealm realmId builtIn trade zoneId factionGroupMask counter) ↔
      realmId.toNat % 2 ^ 13 ≠ 0 ∨ currentRealm.toNat % 2 ^ 13 = 0 := by
  have hbits := high_createChatChannel currentRealm realmId builtIn trade zoneId factionGroupMask
    counter
  have hbuiltIn := builtIn.toNat_lt
  have htrade := trade.toNat_lt
  rw [realmOf hrealm] at hbits
  have hhigh : _ = some HighGuid.chatChannel := high_eq hbits (by omega)
  have hrealmBits : (createChatChannel currentRealm realmId builtIn trade zoneId factionGroupMask
      counter).high.toNat / 2 ^ 42 % 2 ^ 16 = realmId.toNat % 2 ^ 13 := by
    omega
  rw [Kept, hhigh, ← maskedRealmKept_iff hrealmBits]
  exact ⟨fun h => h.2.2, fun h => ⟨by rw [hbits]; omega, by rw [hbits]; omega, h⟩⟩

theorem kept_webObj_iff (arg1 arg2 : UInt8) (counter : UInt64) (hrealm : realmId ≠ 0) :
    Kept currentRealm (createWebObj currentRealm realmId arg1 arg2 counter) ↔
      realmId.toNat % 2 ^ 13 ≠ 0 ∨ currentRealm.toNat % 2 ^ 13 = 0 := by
  have hbits := high_createWebObj currentRealm realmId arg1 arg2 counter
  rw [realmOf hrealm] at hbits
  have hhigh : _ = some HighGuid.webObj := high_eq hbits (by omega)
  rw [Kept, hhigh, ← maskedRealmKept_iff (by rw [hbits]; omega)]
  exact and_iff_right (by rw [hbits]; omega)

theorem kept_client_iff {type : HighGuid} (htype : type.formatType = .client) (arg1 : UInt32)
    (counter : UInt64) (hrealm : realmId ≠ 0) :
    Kept currentRealm (createClient currentRealm type realmId arg1 counter) ↔
      realmId.toNat % 2 ^ 13 ≠ 0 ∨ currentRealm.toNat % 2 ^ 13 = 0 := by
  have hbits := high_createClient currentRealm realmId type arg1 counter
  have hlt := arg1.toNat_lt
  rw [realmOf hrealm] at hbits
  have hhigh : _ = some type := high_eq hbits (by omega)
  rw [Kept, hhigh]
  dsimp only
  rw [htype, ← maskedRealmKept_iff (by rw [hbits]; omega)]
  exact and_iff_right (by rw [hbits]; omega)

theorem kept_clientActor_iff (ownerType ownerId : UInt16) (counter : UInt32) :
    Kept currentRealm (createClientActor ownerType ownerId counter) ↔
      ownerType.toNat % 2 ^ 8 = 0 := by
  have hbits := high_createClientActor ownerType ownerId counter
  have hlt := ownerId.toNat_lt
  have hcounter := counter.toNat_lt
  have hlow : (createClientActor ownerType ownerId counter).low.toNat = counter.toNat := by
    rw [createClientActor, toNat_toUInt64]
  have hhigh : _ = some HighGuid.clientActor := high_eq hbits (by omega)
  rw [Kept, hhigh]
  dsimp only [HighGuid.formatType]
  rw [toNat_getRealmId, hbits, hlow]
  omega

theorem kept_transport_iff {type : HighGuid} (htype : type.formatType = .transport)
    {counter : UInt32} (hlt : counter.toNat < 2 ^ 20) :
    Kept currentRealm (createTransport type counter) ↔ counter = 0 := by
  have hbits := high_createTransport type hlt
  have hzero : counter = 0 ↔ counter.toNat = 0 := UInt32.toNat_inj.symm
  have hhigh : _ = some type := high_eq hbits (by omega)
  rw [Kept, hhigh]
  dsimp only
  rw [htype, hzero]
  exact ⟨fun h => by omega, fun h => ⟨by omega, rfl⟩⟩

theorem kept_global {type : HighGuid} (htype : type.formatType = .global)
    (dbIdHigh dbId : UInt64) : Kept currentRealm (createGlobal type dbIdHigh dbId) := by
  have hbits := high_createGlobal type dbIdHigh dbId
  have hhigh : _ = some type := high_eq hbits (by omega)
  rw [Kept, hhigh]
  dsimp only
  rw [htype]
  trivial

theorem kept_lfgObject (arg1 arg2 arg3 arg4 : UInt8) (arg5 : Bool) (arg6 : UInt8)
    (counter : UInt64) :
    Kept currentRealm (createLFGObject arg1 arg2 arg3 arg4 arg5 arg6 counter) := by
  have hbits := high_createLFGObject arg1 arg2 arg3 arg4 arg5 arg6 counter
  have hflag := arg5.toNat_lt
  have hhigh : _ = some HighGuid.lfgObject := high_eq hbits (by omega)
  rw [Kept, hhigh]
  dsimp only [HighGuid.formatType]
  omega

theorem kept_lfgList (arg1 : UInt8) (counter : UInt64) :
    Kept currentRealm (createLFGList arg1 counter) := by
  have hbits := high_createLFGList arg1 counter
  have hhigh : _ = some HighGuid.lfgObject := high_eq hbits (by omega)
  rw [Kept, hhigh]
  dsimp only [HighGuid.formatType]
  omega

theorem kept_uniq {id : UInt64} (hnamed : (uniqName id.toNat).isSome) :
    Kept currentRealm (createUniq id) := by
  have hbits : (createUniq id).high.toNat = HighGuid.uniq.value * 2 ^ 58 := toNat_typeBits _
  have hhigh : _ = some HighGuid.uniq := high_eq hbits (by rfl)
  rw [Kept, hhigh]
  exact ⟨by rw [hbits]; omega, hnamed⟩

theorem GuidArgs.kept_iff (args : GuidArgs) (hrealm : args.realmId? ≠ some 0) :
    Kept currentRealm (args.create currentRealm) ↔ args.Survives currentRealm := by
  cases args with
  | uniq id named => exact iff_of_true (kept_uniq named) trivial
  | player realmId dbId =>
    exact (or_iff_right_of_imp fun hlt =>
      kept_whole dbId (fun h => hrealm (congrArg some h)) hlt (Or.inl rfl)).symm
  | item realmId dbId =>
    exact (or_iff_right_of_imp fun hlt =>
      kept_whole dbId (fun h => hrealm (congrArg some h)) hlt (Or.inr (Or.inl rfl))).symm
  | worldObject type format subType realmId mapId serverId entry counter =>
    exact kept_worldObject_iff format _ _ _ _ _ fun h => hrealm (congrArg some h)
  | transport type format counter =>
    by_cases hlt : counter.toNat < 2 ^ 20
    · rw [Survives, if_pos hlt]
      exact kept_transport_iff format hlt
    · rw [Survives, if_neg hlt]
  | clientActor ownerType ownerId counter => exact kept_clientActor_iff _ _ _
  | chatChannel realmId builtIn trade zoneId factionGroupMask counter =>
    exact kept_chatChannel_iff _ _ _ _ _ fun h => hrealm (congrArg some h)
  | global type format dbIdHigh dbId => exact iff_of_true (kept_global format _ _) trivial
  | guild realmId dbId =>
    exact (or_iff_right_of_imp fun hlt =>
      kept_whole dbId (fun h => hrealm (congrArg some h)) hlt (Or.inr (Or.inr rfl))).symm
  | mobileSession realmId arg1 counter =>
    exact (or_iff_right_of_imp fun hlt =>
      kept_mobileSession arg1 counter (fun h => hrealm (congrArg some h)) hlt).symm
  | webObj realmId arg1 arg2 counter => exact kept_webObj_iff _ _ _ fun h => hrealm (congrArg some h)
  | lfgObject arg1 arg2 arg3 arg4 arg5 arg6 counter =>
    exact iff_of_true (kept_lfgObject _ _ _ _ _ _ _) trivial
  | lfgList arg1 counter => exact iff_of_true (kept_lfgList _ _) trivial
  | client type format realmId arg1 counter =>
    exact kept_client_iff format _ _ fun h => hrealm (congrArg some h)

end Arguments

/-- A guid of the factory, with a realm that is not zero where it has one, is read from its text
just where its arguments survive the text. -/
theorem read_back_iff (args : GuidArgs) (hrealm : args.realmId? ≠ some 0) :
    ObjectGuid.fromString currentRealm
        (ObjectGuid.toString currentRealm (args.create currentRealm)) = args.create currentRealm ↔
      args.Survives currentRealm := by
  exact (readBack_iff currentRealm _).trans (args.kept_iff hrealm)

theorem read_back_creature :
    ObjectGuid.fromString 1 (ObjectGuid.toString 1
      (createWorldObject 1 .creature 0 1 530 0 1234 77)) =
        createWorldObject 1 .creature 0 1 530 0 1234 77 :=
  (read_back_iff 1 (.worldObject .creature rfl 0 1 530 0 1234 77) (by decide)).mpr
    (Or.inl (by decide))

/-- The counter of a transport is lost. -/
theorem transport_not_read_back : ¬∀ (currentRealm : UInt32) (args : GuidArgs),
    args.realmId? ≠ some 0 → ObjectGuid.fromString currentRealm
        (ObjectGuid.toString currentRealm (args.create currentRealm)) = args.create currentRealm := by
  intro h
  have htransport := h 1 (.transport .transport rfl 1) (by decide)
  revert htransport
  decide +kernel

end LegionServer.Guarantees.GuidRoundTrip
