import Mathlib.Data.Nat.Bitwise
import Mathlib.Data.Prod.Lex

/-!
# Object guids

The layout of a guid, its fields and the functions that build one (`ObjectGuid.h:90-330`,
`ObjectGuid.cpp:793-934`). The realm of the server is the parameter `currentRealm`.
-/
namespace LegionServer.Source.Objects

inductive HighGuid
  | null | uniq | player | item | worldTransaction | staticDoor
  | transport | conversation | creature | vehicle | pet | gameObject
  | dynamicObject | areaTrigger | corpse | lootObject | sceneObject | scenario
  | aiGroup | dynamicDoor | clientActor | vignette | callForHelp | aiResource
  | aiLock | aiLockTicket | chatChannel | party | guild | wowAccount
  | bnetAccount | gmTask | mobileSession | raidGroup | spell | mail
  | webObj | lfgObject | lfgList | userRouter | pvpQueueGroup | userClient
  | petBattle | uniqUserClient | battlePet | commerceObj | clientSession | cast
  deriving DecidableEq, Repr

inductive ObjectGuidFormatType
  | null | uniq | player | item | worldObject | transport | clientActor | chatChannel
  | global | guild | mobileSession | webObj | lfgObject | lfgList | client
  deriving DecidableEq, Repr

/-- `ObjectGuidTraits<high>::Format`. -/
def HighGuid.formatType : HighGuid → ObjectGuidFormatType
  | .null => .null
  | .uniq => .uniq
  | .player => .player
  | .item => .item
  | .worldTransaction | .conversation | .creature | .vehicle | .pet
  | .gameObject | .dynamicObject | .areaTrigger | .corpse | .lootObject
  | .sceneObject | .scenario | .aiGroup | .dynamicDoor | .vignette
  | .callForHelp | .aiResource | .aiLock | .aiLockTicket | .cast => .worldObject
  | .staticDoor | .transport => .transport
  | .clientActor => .clientActor
  | .chatChannel => .chatChannel
  | .party | .wowAccount | .bnetAccount | .gmTask | .raidGroup
  | .spell | .mail | .userRouter | .pvpQueueGroup | .userClient
  | .battlePet | .commerceObj => .global
  | .guild => .guild
  | .mobileSession => .mobileSession
  | .webObj => .webObj
  | .lfgObject => .lfgObject
  | .lfgList => .lfgList
  | .petBattle | .uniqUserClient | .clientSession => .client

/-- The enumerators in their order. `Count` is their number. -/
def HighGuid.all : List HighGuid :=
  [.null, .uniq, .player, .item, .worldTransaction, .staticDoor,
   .transport, .conversation, .creature, .vehicle, .pet, .gameObject,
   .dynamicObject, .areaTrigger, .corpse, .lootObject, .sceneObject, .scenario,
   .aiGroup, .dynamicDoor, .clientActor, .vignette, .callForHelp, .aiResource,
   .aiLock, .aiLockTicket, .chatChannel, .party, .guild, .wowAccount,
   .bnetAccount, .gmTask, .mobileSession, .raidGroup, .spell, .mail,
   .webObj, .lfgObject, .lfgList, .userRouter, .pvpQueueGroup, .userClient,
   .petBattle, .uniqUserClient, .battlePet, .commerceObj, .clientSession, .cast]

def HighGuid.value (type : HighGuid) : Nat := type.ctorIdx

structure ObjectGuid where
  /-- `_data[1]` -/
  high : UInt64
  /-- `_data[0]` -/
  low : UInt64
  deriving DecidableEq, Repr

namespace ObjectGuid

def empty : ObjectGuid := ⟨0, 0⟩

variable (guid : ObjectGuid)

/-- `GetHigh`, where it is less than `Count`. -/
def getHigh : Option HighGuid :=
  HighGuid.all[((guid.high >>> 58) &&& 0x3F).toNat]?

def isEmpty : Bool := guid.low == 0 && guid.high == 0

def isParty : Bool := guid.getHigh == some .party

/-- `operator<=>`: `_data[1]` is compared before `_data[0]`. -/
instance : LinearOrder ObjectGuid :=
  LinearOrder.lift' (fun guid : ObjectGuid => toLex (guid.high.toNat, guid.low.toNat))
    fun a b h => by
      obtain ⟨hhigh, hlow⟩ := Prod.mk.inj (toLex.injective h)
      cases a
      cases b
      exact congrArg₂ mk (UInt64.toNat_inj.mp hhigh) (UInt64.toNat_inj.mp hlow)

/-- `{:016X}`. -/
def formatHex (value : UInt64) : List Char :=
  let digits := (Nat.toDigits 16 value.toNat).map Char.toUpper
  List.replicate (16 - digits.length) '0' ++ digits

def toHexString : List Char :=
  '0' :: 'x' :: (formatHex guid.high ++ formatHex guid.low)

def getRealmId : UInt32 := ((guid.high >>> 42) &&& 0xFFFF).toUInt32

def getMapId : UInt32 := ((guid.high >>> 29) &&& 0x1FFF).toUInt32

def getEntry : UInt32 := ((guid.high >>> 6) &&& 0x7FFFFF).toUInt32

def getSubType : UInt32 := (guid.high &&& 0x3F).toUInt32

def getCounter : UInt64 :=
  if guid.getHigh = some .transport then (guid.high >>> 38) &&& 0xFFFFF
  else guid.low &&& 0x000000FFFFFFFFFF

end ObjectGuid

namespace ObjectGuidFactory

/-- `uint64(type) << 58` -/
def typeBits (type : HighGuid) : UInt64 := UInt64.ofNat type.value <<< 58

def createUniq (id : UInt64) : ObjectGuid := ⟨typeBits .uniq, id⟩

variable (currentRealm : UInt32)

variable (realmId : UInt32)

def getRealmIdForObjectGuid : UInt32 :=
  if realmId ≠ 0 then realmId else currentRealm

def createPlayer (dbId : UInt64) : ObjectGuid :=
  ⟨typeBits .player ||| ((getRealmIdForObjectGuid currentRealm realmId).toUInt64 <<< 42), dbId⟩

def createItem (dbId : UInt64) : ObjectGuid :=
  ⟨typeBits .item ||| ((getRealmIdForObjectGuid currentRealm realmId).toUInt64 <<< 42), dbId⟩

def createWorldObject (type : HighGuid) (subType : UInt8) (realmId : UInt32) (mapId : UInt16)
    (serverId entry : UInt32) (counter : UInt64) : ObjectGuid :=
  ⟨typeBits type
    ||| ((getRealmIdForObjectGuid currentRealm realmId &&& 0x1FFF).toUInt64 <<< 42)
    ||| ((mapId &&& 0x1FFF).toUInt64 <<< 29)
    ||| ((entry &&& 0x7FFFFF).toUInt64 <<< 6)
    ||| (subType.toUInt64 &&& 0x3F),
    ((serverId &&& 0xFFFFFF).toUInt64 <<< 40) ||| (counter &&& 0xFFFFFFFFFF)⟩

def createTransport (type : HighGuid) (counter : UInt32) : ObjectGuid :=
  ⟨typeBits type ||| (counter.toUInt64 <<< 38), 0⟩

def createClientActor (ownerType ownerId : UInt16) (counter : UInt32) : ObjectGuid :=
  ⟨typeBits .clientActor
    ||| ((ownerType &&& 0x1FFF).toUInt64 <<< 42)
    -- the mask of 24 bits leaves all 16
    ||| ((ownerId.toUInt32 &&& 0xFFFFFF).toUInt64 <<< 26),
    counter.toUInt64⟩

def createChatChannel (builtIn trade : Bool) (zoneId : UInt16) (factionGroupMask : UInt8)
    (counter : UInt64) : ObjectGuid :=
  ⟨typeBits .chatChannel
    ||| ((getRealmIdForObjectGuid currentRealm realmId &&& 0x1FFF).toUInt64 <<< 42)
    ||| (builtIn.toUInt64 <<< 25)
    ||| (trade.toUInt64 <<< 24)
    ||| ((zoneId &&& 0x3FFF).toUInt64 <<< 10)
    ||| ((factionGroupMask &&& 0x3F).toUInt64 <<< 4),
    counter⟩

def createGlobal (type : HighGuid) (dbIdHigh dbId : UInt64) : ObjectGuid :=
  ⟨typeBits type ||| (dbIdHigh &&& 0x3FFFFFFFFFFFFFF), dbId⟩

def createGuild (type : HighGuid) (realmId : UInt32) (dbId : UInt64) : ObjectGuid :=
  ⟨typeBits type ||| ((getRealmIdForObjectGuid currentRealm realmId).toUInt64 <<< 42), dbId⟩

def createMobileSession (arg1 : UInt16) (counter : UInt64) : ObjectGuid :=
  ⟨typeBits .mobileSession
    ||| ((getRealmIdForObjectGuid currentRealm realmId).toUInt64 <<< 42)
    ||| ((arg1 &&& 0x1FF).toUInt64 <<< 33),
    counter⟩

def createWebObj (arg1 arg2 : UInt8) (counter : UInt64) : ObjectGuid :=
  ⟨typeBits .webObj
    ||| ((getRealmIdForObjectGuid currentRealm realmId &&& 0x1FFF).toUInt64 <<< 42)
    ||| ((arg1 &&& 0x1F).toUInt64 <<< 37)
    ||| ((arg2 &&& 0x3).toUInt64 <<< 35),
    counter⟩

def createLFGObject (arg1 arg2 arg3 arg4 : UInt8) (arg5 : Bool) (arg6 : UInt8)
    (counter : UInt64) : ObjectGuid :=
  ⟨typeBits .lfgObject
    ||| ((arg1 &&& 0xF).toUInt64 <<< 54)
    ||| ((arg2 &&& 0xF).toUInt64 <<< 50)
    ||| ((arg3 &&& 0xF).toUInt64 <<< 46)
    ||| ((arg4 &&& 0xFF).toUInt64 <<< 38)
    ||| (arg5.toUInt64 <<< 37)
    ||| ((arg6 &&& 0x3).toUInt64 <<< 35),
    counter⟩

/-- The type is that of an `LFGObject`. -/
def createLFGList (arg1 : UInt8) (counter : UInt64) : ObjectGuid :=
  ⟨typeBits .lfgObject ||| ((arg1 &&& 0xF).toUInt64 <<< 54), counter⟩

def createClient (type : HighGuid) (realmId arg1 : UInt32) (counter : UInt64) : ObjectGuid :=
  ⟨typeBits type
    ||| ((getRealmIdForObjectGuid currentRealm realmId &&& 0x1FFF).toUInt64 <<< 42)
    ||| ((arg1 &&& 0xFFFFFFFF).toUInt64 <<< 10),
    counter⟩

end ObjectGuidFactory

namespace ObjectGuid

def toStringFailed : ObjectGuid := ObjectGuidFactory.createUniq 3

def fromStringFailed : ObjectGuid := ObjectGuidFactory.createUniq 4

end ObjectGuid

end LegionServer.Source.Objects
