import LegionServer.Source.Objects.ObjectGuid

/-!
# Fields of guids as numbers

What the functions that build guids put where, and what the getters read.
-/
namespace LegionServer.Source.Objects
open UInt64

section Bits

variable {a b : UInt64}

theorem toNat_or_add {x y : Nat} (i : Nat) (ha : a.toNat = x) (hb : b.toNat = y) (hx : 2 ^ i ∣ x)
    (hy : y < 2 ^ i) : (a ||| b).toNat = x + y := by
  obtain ⟨k, rfl⟩ := hx
  rw [UInt64.toNat_or, ha, hb, ← Nat.two_pow_add_eq_or_of_lt hy]

variable {shift : UInt64}

theorem toNat_shl (i : Nat) (hshift : shift.toNat = i) (hi : i < 64)
    (h : a.toNat * 2 ^ i < 2 ^ 64) : (a <<< shift).toNat = a.toNat * 2 ^ i := by
  rw [UInt64.toNat_shiftLeft, hshift, Nat.mod_eq_of_lt hi, Nat.shiftLeft_eq, Nat.mod_eq_of_lt h]

variable {mask : UInt64}

theorem toNat_mask (width : Nat) (h : mask.toNat = 2 ^ width - 1) :
    (a &&& mask).toNat = a.toNat % 2 ^ width := by
  rw [UInt64.toNat_and, h, Nat.and_two_pow_sub_one_eq_mod]

theorem toNat_place {n : Nat} (i width : Nat) (ha : a.toNat = n % 2 ^ width)
    (hshift : shift.toNat = i) (hi : i < 64) (hfit : i + width ≤ 64) :
    (a <<< shift).toNat = n % 2 ^ width * 2 ^ i := by
  rw [toNat_shl i hshift hi, ha]
  calc a.toNat * 2 ^ i < 2 ^ width * 2 ^ i := by
        rw [ha]
        exact Nat.mul_lt_mul_of_pos_right (Nat.mod_lt _ (Nat.two_pow_pos width)) (Nat.two_pow_pos i)
    _ = 2 ^ (i + width) := by rw [← Nat.pow_add, Nat.add_comm]
    _ ≤ 2 ^ 64 := Nat.pow_le_pow_right (by decide) hfit

theorem toNat_mask8 {x mask : UInt8} (width : Nat) (h : mask.toNat = 2 ^ width - 1) :
    (x &&& mask).toUInt64.toNat = x.toNat % 2 ^ width := by
  rw [UInt8.toNat_toUInt64, UInt8.toNat_and, h, Nat.and_two_pow_sub_one_eq_mod]

theorem toNat_mask16 {x mask : UInt16} (width : Nat) (h : mask.toNat = 2 ^ width - 1) :
    (x &&& mask).toUInt64.toNat = x.toNat % 2 ^ width := by
  rw [UInt16.toNat_toUInt64, UInt16.toNat_and, h, Nat.and_two_pow_sub_one_eq_mod]

theorem toNat_mask32 {x mask : UInt32} (width : Nat) (h : mask.toNat = 2 ^ width - 1) :
    (x &&& mask).toUInt64.toNat = x.toNat % 2 ^ width := by
  rw [UInt32.toNat_toUInt64, UInt32.toNat_and, h, Nat.and_two_pow_sub_one_eq_mod]

theorem toNat_bits (i width : Nat) (hshift : shift.toNat = i) (hi : i < 64)
    (h : mask.toNat = 2 ^ width - 1) :
    ((a >>> shift) &&& mask).toNat = a.toNat / 2 ^ i % 2 ^ width := by
  rw [toNat_mask width h, UInt64.toNat_shiftRight, hshift, Nat.mod_eq_of_lt hi,
    Nat.shiftRight_eq_div_pow]

end Bits

namespace HighGuid

theorem value_lt (type : HighGuid) : type.value < 48 := by
  cases type <;> decide

theorem all_value (type : HighGuid) : all[type.value]? = some type := by
  cases type <;> rfl

theorem value_eq {n : Nat} {type : HighGuid} (h : all[n]? = some type) : type.value = n := by
  have hall : ∀ i : Fin 48, (all.get (i.cast rfl)).value = i := by decide
  obtain ⟨hlt, rfl⟩ := List.getElem?_eq_some_iff.mp h
  exact hall ⟨n, hlt⟩

end HighGuid

namespace ObjectGuid

variable (guid : ObjectGuid)

theorem getHigh_eq_some {type : HighGuid} :
    guid.getHigh = some type ↔ guid.high.toNat / 2 ^ 58 = type.value := by
  have hbits : ((guid.high >>> 58) &&& 0x3F).toNat = guid.high.toNat / 2 ^ 58 := by
    have hlt := guid.high.toNat_lt
    rw [toNat_bits 58 6 rfl (by decide) rfl]
    omega
  rw [getHigh, hbits]
  constructor
  · exact fun h => (HighGuid.value_eq h).symm
  · rintro h
    rw [h, HighGuid.all_value]

theorem toNat_getRealmId : guid.getRealmId.toNat = guid.high.toNat / 2 ^ 42 % 2 ^ 16 := by
  rw [getRealmId, toNat_toUInt32, toNat_bits 42 16 rfl (by decide) rfl]
  omega

theorem toNat_getMapId : guid.getMapId.toNat = guid.high.toNat / 2 ^ 29 % 2 ^ 13 := by
  rw [getMapId, toNat_toUInt32, toNat_bits 29 13 rfl (by decide) rfl]
  omega

theorem toNat_getEntry : guid.getEntry.toNat = guid.high.toNat / 2 ^ 6 % 2 ^ 23 := by
  rw [getEntry, toNat_toUInt32, toNat_bits 6 23 rfl (by decide) rfl]
  omega

theorem toNat_getSubType : guid.getSubType.toNat = guid.high.toNat % 2 ^ 6 := by
  rw [getSubType, toNat_toUInt32, toNat_mask 6 rfl]
  omega

theorem toNat_getCounter (h : guid.getHigh ≠ some .transport) :
    guid.getCounter.toNat = guid.low.toNat % 2 ^ 40 := by
  rw [getCounter, if_neg h, toNat_mask 40 rfl]

theorem ext_toNat {other : ObjectGuid} : guid = other ↔
    guid.high.toNat = other.high.toNat ∧ guid.low.toNat = other.low.toNat := by
  rw [UInt64.toNat_inj, UInt64.toNat_inj, ObjectGuid.mk.injEq]

end ObjectGuid

namespace ObjectGuidFactory

variable (realm : UInt32)

theorem toNat_typeBits (type : HighGuid) : (typeBits type).toNat = type.value * 2 ^ 58 := by
  have hlt := type.value_lt
  have hvalue : (UInt64.ofNat type.value).toNat = type.value := by
    rw [toNat_ofNat']
    omega
  rw [typeBits, toNat_shl 58 rfl (by decide) (by omega), hvalue]

theorem toNat_realmBits :
    ((realm &&& 0x1FFF).toUInt64 <<< 42).toNat = realm.toNat % 2 ^ 13 * 2 ^ 42 :=
  toNat_place 42 13 (toNat_mask32 13 rfl) rfl (by decide) (by decide)

/-- A realm that is not masked, where it is below the bits of the type. -/
theorem toNat_wholeRealm (type : HighGuid) (h : realm.toNat < 2 ^ 16) :
    (typeBits type ||| (realm.toUInt64 <<< 42)).toNat =
      type.value * 2 ^ 58 + realm.toNat * 2 ^ 42 := by
  have hshl : (realm.toUInt64 <<< 42).toNat = realm.toNat * 2 ^ 42 :=
    toNat_shl 42 rfl (by decide) (by rw [UInt32.toNat_toUInt64]; omega)
  exact toNat_or_add 58 (toNat_typeBits type) hshl (by omega) (by omega)

variable (currentRealm realmId : UInt32)

theorem high_createWorldObject (type : HighGuid) (subType : UInt8) (mapId : UInt16)
    (serverId entry : UInt32) (counter : UInt64) :
    (createWorldObject currentRealm type subType realmId mapId serverId entry counter).high.toNat =
      type.value * 2 ^ 58 + (getRealmIdForObjectGuid currentRealm realmId).toNat % 2 ^ 13 * 2 ^ 42
        + mapId.toNat % 2 ^ 13 * 2 ^ 29 + entry.toNat % 2 ^ 23 * 2 ^ 6 + subType.toNat % 2 ^ 6 := by
  have hmap : ((mapId &&& 0x1FFF).toUInt64 <<< 29).toNat = mapId.toNat % 2 ^ 13 * 2 ^ 29 :=
    toNat_place 29 13 (toNat_mask16 13 rfl) rfl (by decide) (by decide)
  have hentry : ((entry &&& 0x7FFFFF).toUInt64 <<< 6).toNat = entry.toNat % 2 ^ 23 * 2 ^ 6 :=
    toNat_place 6 23 (toNat_mask32 23 rfl) rfl (by decide) (by decide)
  have hsub : (subType.toUInt64 &&& 0x3F).toNat = subType.toNat % 2 ^ 6 := by
    rw [toNat_mask 6 rfl, UInt8.toNat_toUInt64]
  have htop := toNat_or_add 58 (toNat_typeBits type)
    (toNat_realmBits (getRealmIdForObjectGuid currentRealm realmId)) (by omega) (by omega)
  exact toNat_or_add 6 (toNat_or_add 29 (toNat_or_add 42 htop hmap (by omega) (by omega)) hentry
    (by omega) (by omega)) hsub (by omega) (by omega)

theorem low_createWorldObject (type : HighGuid) (subType : UInt8) (mapId : UInt16)
    (serverId entry : UInt32) (counter : UInt64) :
    (createWorldObject currentRealm type subType realmId mapId serverId entry counter).low.toNat =
      serverId.toNat % 2 ^ 24 * 2 ^ 40 + counter.toNat % 2 ^ 40 := by
  have hserver : ((serverId &&& 0xFFFFFF).toUInt64 <<< 40).toNat =
      serverId.toNat % 2 ^ 24 * 2 ^ 40 :=
    toNat_place 40 24 (toNat_mask32 24 rfl) rfl (by decide) (by decide)
  exact toNat_or_add 40 hserver (toNat_mask 40 rfl) (by omega) (by omega)

theorem high_createTransport (type : HighGuid) {counter : UInt32} (h : counter.toNat < 2 ^ 20) :
    (createTransport type counter).high.toNat = type.value * 2 ^ 58 + counter.toNat * 2 ^ 38 := by
  have hcounter : (counter.toUInt64 <<< 38).toNat = counter.toNat * 2 ^ 38 :=
    toNat_shl 38 rfl (by decide) (by rw [UInt32.toNat_toUInt64]; omega)
  exact toNat_or_add 58 (toNat_typeBits type) hcounter (by omega) (by omega)

theorem high_createClientActor (ownerType ownerId : UInt16) (counter : UInt32) :
    (createClientActor ownerType ownerId counter).high.toNat =
      HighGuid.clientActor.value * 2 ^ 58 + ownerType.toNat % 2 ^ 13 * 2 ^ 42
        + ownerId.toNat * 2 ^ 26 := by
  have howner : ((ownerType &&& 0x1FFF).toUInt64 <<< 42).toNat =
      ownerType.toNat % 2 ^ 13 * 2 ^ 42 :=
    toNat_place 42 13 (toNat_mask16 13 rfl) rfl (by decide) (by decide)
  have hlt := ownerId.toNat_lt
  have hid : ((ownerId.toUInt32 &&& 0xFFFFFF).toUInt64 <<< 26).toNat = ownerId.toNat * 2 ^ 26 := by
    rw [toNat_place 26 24 (toNat_mask32 24 rfl) rfl (by decide) (by decide), UInt16.toNat_toUInt32]
    omega
  exact toNat_or_add 42 (toNat_or_add 58 (toNat_typeBits _) howner (by omega) (by omega)) hid
    (by omega) (by omega)

theorem toNat_flag (flag : Bool) : flag.toUInt64.toNat = flag.toNat := by
  cases flag <;> rfl

theorem high_createChatChannel (builtIn trade : Bool) (zoneId : UInt16) (factionGroupMask : UInt8)
    (counter : UInt64) :
    (createChatChannel currentRealm realmId builtIn trade zoneId factionGroupMask
      counter).high.toNat =
      HighGuid.chatChannel.value * 2 ^ 58
        + (getRealmIdForObjectGuid currentRealm realmId).toNat % 2 ^ 13 * 2 ^ 42
        + builtIn.toNat * 2 ^ 25 + trade.toNat * 2 ^ 24 + zoneId.toNat % 2 ^ 14 * 2 ^ 10
        + factionGroupMask.toNat % 2 ^ 6 * 2 ^ 4 := by
  have hbuiltIn := builtIn.toNat_lt
  have htrade := trade.toNat_lt
  have hflag : (builtIn.toUInt64 <<< 25).toNat = builtIn.toNat * 2 ^ 25 := by
    rw [toNat_shl 25 rfl (by decide) (by rw [toNat_flag]; omega), toNat_flag]
  have hflag' : (trade.toUInt64 <<< 24).toNat = trade.toNat * 2 ^ 24 := by
    rw [toNat_shl 24 rfl (by decide) (by rw [toNat_flag]; omega), toNat_flag]
  have hzone : ((zoneId &&& 0x3FFF).toUInt64 <<< 10).toNat = zoneId.toNat % 2 ^ 14 * 2 ^ 10 :=
    toNat_place 10 14 (toNat_mask16 14 rfl) rfl (by decide) (by decide)
  have hfaction : ((factionGroupMask &&& 0x3F).toUInt64 <<< 4).toNat =
      factionGroupMask.toNat % 2 ^ 6 * 2 ^ 4 :=
    toNat_place 4 6 (toNat_mask8 6 rfl) rfl (by decide) (by decide)
  have htop := toNat_or_add 58 (toNat_typeBits .chatChannel)
    (toNat_realmBits (getRealmIdForObjectGuid currentRealm realmId)) (by omega) (by omega)
  exact toNat_or_add 10 (toNat_or_add 24 (toNat_or_add 25 (toNat_or_add 42 htop hflag (by omega)
    (by omega)) hflag' (by omega) (by omega)) hzone (by omega) (by omega)) hfaction (by omega)
    (by omega)

theorem high_createGlobal (type : HighGuid) (dbIdHigh dbId : UInt64) :
    (createGlobal type dbIdHigh dbId).high.toNat = type.value * 2 ^ 58 + dbIdHigh.toNat % 2 ^ 58 :=
  toNat_or_add 58 (toNat_typeBits type) (toNat_mask 58 rfl) (by omega) (by omega)

theorem high_createMobileSession (arg1 : UInt16) (counter : UInt64)
    (h : (getRealmIdForObjectGuid currentRealm realmId).toNat < 2 ^ 16) :
    (createMobileSession currentRealm realmId arg1 counter).high.toNat =
      HighGuid.mobileSession.value * 2 ^ 58
        + (getRealmIdForObjectGuid currentRealm realmId).toNat * 2 ^ 42
        + arg1.toNat % 2 ^ 9 * 2 ^ 33 :=
  toNat_or_add 42 (toNat_wholeRealm _ _ h)
    (toNat_place 33 9 (toNat_mask16 9 rfl) rfl (by decide) (by decide)) (by omega) (by omega)

theorem high_createWebObj (arg1 arg2 : UInt8) (counter : UInt64) :
    (createWebObj currentRealm realmId arg1 arg2 counter).high.toNat =
      HighGuid.webObj.value * 2 ^ 58
        + (getRealmIdForObjectGuid currentRealm realmId).toNat % 2 ^ 13 * 2 ^ 42
        + arg1.toNat % 2 ^ 5 * 2 ^ 37 + arg2.toNat % 2 ^ 2 * 2 ^ 35 := by
  have harg1 : ((arg1 &&& 0x1F).toUInt64 <<< 37).toNat = arg1.toNat % 2 ^ 5 * 2 ^ 37 :=
    toNat_place 37 5 (toNat_mask8 5 rfl) rfl (by decide) (by decide)
  have harg2 : ((arg2 &&& 0x3).toUInt64 <<< 35).toNat = arg2.toNat % 2 ^ 2 * 2 ^ 35 :=
    toNat_place 35 2 (toNat_mask8 2 rfl) rfl (by decide) (by decide)
  have htop := toNat_or_add 58 (toNat_typeBits .webObj)
    (toNat_realmBits (getRealmIdForObjectGuid currentRealm realmId)) (by omega) (by omega)
  exact toNat_or_add 37 (toNat_or_add 42 htop harg1 (by omega) (by omega)) harg2 (by omega)
    (by omega)

theorem high_createLFGList (arg1 : UInt8) (counter : UInt64) :
    (createLFGList arg1 counter).high.toNat =
      HighGuid.lfgObject.value * 2 ^ 58 + arg1.toNat % 2 ^ 4 * 2 ^ 54 :=
  toNat_or_add 58 (toNat_typeBits _)
    (toNat_place 54 4 (toNat_mask8 4 rfl) rfl (by decide) (by decide)) (by omega) (by omega)

theorem high_createLFGObject (arg1 arg2 arg3 arg4 : UInt8) (arg5 : Bool) (arg6 : UInt8)
    (counter : UInt64) :
    (createLFGObject arg1 arg2 arg3 arg4 arg5 arg6 counter).high.toNat =
      HighGuid.lfgObject.value * 2 ^ 58 + arg1.toNat % 2 ^ 4 * 2 ^ 54
        + arg2.toNat % 2 ^ 4 * 2 ^ 50 + arg3.toNat % 2 ^ 4 * 2 ^ 46 + arg4.toNat % 2 ^ 8 * 2 ^ 38
        + arg5.toNat * 2 ^ 37 + arg6.toNat % 2 ^ 2 * 2 ^ 35 := by
  have hflag := arg5.toNat_lt
  have harg2 : ((arg2 &&& 0xF).toUInt64 <<< 50).toNat = arg2.toNat % 2 ^ 4 * 2 ^ 50 :=
    toNat_place 50 4 (toNat_mask8 4 rfl) rfl (by decide) (by decide)
  have harg3 : ((arg3 &&& 0xF).toUInt64 <<< 46).toNat = arg3.toNat % 2 ^ 4 * 2 ^ 46 :=
    toNat_place 46 4 (toNat_mask8 4 rfl) rfl (by decide) (by decide)
  have harg4 : ((arg4 &&& 0xFF).toUInt64 <<< 38).toNat = arg4.toNat % 2 ^ 8 * 2 ^ 38 :=
    toNat_place 38 8 (toNat_mask8 8 rfl) rfl (by decide) (by decide)
  have harg5 : (arg5.toUInt64 <<< 37).toNat = arg5.toNat * 2 ^ 37 := by
    rw [toNat_shl 37 rfl (by decide) (by rw [toNat_flag]; omega), toNat_flag]
  have harg6 : ((arg6 &&& 0x3).toUInt64 <<< 35).toNat = arg6.toNat % 2 ^ 2 * 2 ^ 35 :=
    toNat_place 35 2 (toNat_mask8 2 rfl) rfl (by decide) (by decide)
  have h2 := toNat_or_add 54 (high_createLFGList arg1 counter) harg2 (by omega) (by omega)
  have h4 := toNat_or_add 46 (toNat_or_add 50 h2 harg3 (by omega) (by omega)) harg4 (by omega)
    (by omega)
  exact toNat_or_add 37 (toNat_or_add 38 h4 harg5 (by omega) (by omega)) harg6 (by omega) (by omega)

theorem high_createClient (type : HighGuid) (arg1 : UInt32) (counter : UInt64) :
    (createClient currentRealm type realmId arg1 counter).high.toNat = type.value * 2 ^ 58
        + (getRealmIdForObjectGuid currentRealm realmId).toNat % 2 ^ 13 * 2 ^ 42
        + arg1.toNat * 2 ^ 10 := by
  have hlt := arg1.toNat_lt
  have harg1 : ((arg1 &&& 0xFFFFFFFF).toUInt64 <<< 10).toNat = arg1.toNat * 2 ^ 10 := by
    rw [toNat_place 10 32 (toNat_mask32 32 rfl) rfl (by decide) (by decide)]
    omega
  have htop := toNat_or_add 58 (toNat_typeBits type)
    (toNat_realmBits (getRealmIdForObjectGuid currentRealm realmId)) (by omega) (by omega)
  exact toNat_or_add 42 htop harg1 (by omega) (by omega)

end ObjectGuidFactory

end LegionServer.Source.Objects
