import LegionServer.Library.Scanning
import LegionServer.Source.Objects.ObjectGuid

/-!
# The text of a guid

`ToString` and `FromString` with a formatter and a parser for each format
(`ObjectGuid.cpp:34-561`, `704-791`). A text is a list of ASCII characters. `ParsePlayer` uses
`arg1` and `subType` without a declaration; they are a number of 32 bits and a value that is not
read again.
-/
namespace LegionServer.Source.Objects
open Library

abbrev Text := List Char

namespace ObjectGuidInfo
open ObjectGuidFactory

def appendComponent (width base : Nat) (component : UInt64) : Text :=
  let buf := Nat.toDigits base component.toNat
  '-' :: (List.replicate (width - buf.length) '0'
    ++ if 10 < base then buf.map Char.toUpper else buf)

/-- A component of type `T` with `bits` bits, and the rest of the input. -/
def parseComponent (base bits : Nat) (input : Text) : Option (Nat × Text) :=
  match Numerals.fromChars base bits input with
  | none => none
  | some (component, []) => some (component, [])
  | some (component, c :: rest) => if c ≠ '-' then none else some (component, rest)

def parseDone (input : Text) : Bool := input.isEmpty

def formatNull (_typeName : Text) (_guid : ObjectGuid) : Text := List.replicate 16 '0'

def parseNull (_type : HighGuid) (_guidString : Text) : ObjectGuid := ObjectGuid.empty

def uniqNames : List String :=
  ["", "WOWGUID_UNIQUE_PROBED_DELETE", "WOWGUID_UNIQUE_JAM_TEMP", "WOWGUID_TO_STRING_FAILED",
   "WOWGUID_FROM_STRING_FAILED",
   "WOWGUID_UNIQUE_SERVER_SELF",
   "WOWGUID_UNIQUE_MAGIC_SELF",
   "WOWGUID_UNIQUE_MAGIC_PET",
   "WOWGUID_UNIQUE_INVALID_TRANSPORT",
   "WOWGUID_UNIQUE_AMMO_ID",
   "WOWGUID_SPELL_TARGET_TRADE_ITEM",
   "WOWGUID_SCRIPT_TARGET_INVALID",
   "WOWGUID_SCRIPT_TARGET_NONE",
   "",
   "WOWGUID_FAKE_MODERATOR",
   "",
   "",
   "WOWGUID_UNIQUE_ACCOUNT_OBJ_INITIALIZATION",
   "",
   "WOWGUID_PENDING_PERMANENT_CHARACTER_ASSIGNMENT"]

/-- The name at an index, where there is one that is not empty. -/
def uniqName (id : Nat) : Option String := uniqNames[id]?.filter (· ≠ "")

variable (typeName : Text)

def formatUniq (guid : ObjectGuid) : Text :=
  typeName ++ '-' :: ((uniqName guid.getCounter.toNat).getD "WOWGUID_TO_STRING_FAILED").toList

def parseUniq (_type : HighGuid) (guidString : Text) : ObjectGuid :=
  match (List.range uniqNames.length).find? fun id =>
      (uniqName id).any fun name => guidString = name.toList with
  | some id => createUniq (UInt64.ofNat id)
  | none => ObjectGuid.fromStringFailed

def formatPlayer (guid : ObjectGuid) : Text :=
  let subType := (guid.high >>> 40) &&& 0x3
  typeName ++ appendComponent 0 10 guid.getRealmId.toUInt64 ++ if subType = 0 then
        appendComponent 8 16 guid.low
      else if subType = 1 then
        appendComponent 0 10 subType ++ appendComponent 16 16 guid.low
      else if subType = 2 then
        appendComponent 0 10 subType ++ appendComponent 0 10 (guid.high >>> 16 &&& 0xFFFFFF)
          ++ appendComponent 16 16 guid.low
      else []

def formatItem (guid : ObjectGuid) : Text :=
  typeName ++ appendComponent 0 10 guid.getRealmId.toUInt64
    ++ appendComponent 0 10 (guid.high >>> 18 &&& 0xFFFFFF)
    ++ appendComponent 16 16 guid.low

def formatWorldObject (guid : ObjectGuid) : Text :=
  typeName ++ appendComponent 0 10 guid.getSubType.toUInt64
    ++ appendComponent 0 10 guid.getRealmId.toUInt64
    ++ appendComponent 0 10 guid.getMapId.toUInt64
    ++ appendComponent 0 10 (guid.low >>> 40 &&& 0xFFFFFF)
    ++ appendComponent 0 10 guid.getEntry.toUInt64
    ++ appendComponent 10 16 guid.getCounter

def formatTransport (guid : ObjectGuid) : Text :=
  typeName ++ appendComponent 0 10 guid.getEntry.toUInt64 ++ appendComponent 16 16 guid.low

def formatClientActor (guid : ObjectGuid) : Text :=
  typeName ++ appendComponent 0 10 guid.getRealmId.toUInt64
    ++ appendComponent 0 10 (guid.high >>> 26 &&& 0xFFFFFF)
    ++ appendComponent 0 10 (guid.low &&& 0xFFFFFFFF)

def formatChatChannel (guid : ObjectGuid) : Text :=
  typeName ++ appendComponent 0 10 guid.getRealmId.toUInt64
    ++ appendComponent 0 10 (guid.high >>> 25 &&& 0x1)
    ++ appendComponent 0 10 (guid.high >>> 24 &&& 0x1)
    ++ appendComponent 0 10 (guid.high >>> 10 &&& 0x3FFF)
    ++ appendComponent 0 10 (guid.high >>> 4 &&& 0x3F)
    ++ appendComponent 8 16 guid.low

def formatGlobal (guid : ObjectGuid) : Text :=
  typeName ++ appendComponent 0 10 (guid.high &&& 0x3FFFFFFFFFFFFFF)
    ++ appendComponent 12 16 guid.low

def formatGuild (guid : ObjectGuid) : Text :=
  typeName ++ appendComponent 0 10 guid.getRealmId.toUInt64 ++ appendComponent 12 16 guid.low

def formatMobileSession (guid : ObjectGuid) : Text :=
  typeName ++ appendComponent 0 10 guid.getRealmId.toUInt64
    ++ appendComponent 0 10 (guid.high >>> 33 &&& 0x1FF)
    ++ appendComponent 8 16 guid.low

def formatWebObj (guid : ObjectGuid) : Text :=
  typeName ++ appendComponent 0 10 guid.getRealmId.toUInt64
    ++ appendComponent 0 10 (guid.high >>> 37 &&& 0x1F)
    ++ appendComponent 0 10 (guid.high >>> 35 &&& 0x3)
    ++ appendComponent 12 16 guid.low

def formatLFGObject (guid : ObjectGuid) : Text :=
  typeName ++ appendComponent 0 10 (guid.high >>> 54 &&& 0xF)
    ++ appendComponent 0 10 (guid.high >>> 50 &&& 0xF)
    ++ appendComponent 0 10 (guid.high >>> 46 &&& 0xF)
    ++ appendComponent 0 10 (guid.high >>> 38 &&& 0xFF)
    ++ appendComponent 0 10 (guid.high >>> 37 &&& 0x1)
    ++ appendComponent 0 10 (guid.high >>> 35 &&& 0x3)
    ++ appendComponent 6 16 guid.low

def formatLFGList (guid : ObjectGuid) : Text :=
  typeName ++ appendComponent 0 10 (guid.high >>> 54 &&& 0xF) ++ appendComponent 6 16 guid.low

def formatClient (guid : ObjectGuid) : Text :=
  typeName ++ appendComponent 0 10 guid.getRealmId.toUInt64
    ++ appendComponent 0 10 (guid.high >>> 10 &&& 0xFFFFFFFF)
    ++ appendComponent 12 16 guid.low

variable (currentRealm : UInt32)

/-- What a parser returns where all components are read and nothing follows. -/
def parsed (components : Option (ObjectGuid × Text)) : ObjectGuid :=
  match components with
  | none => ObjectGuid.fromStringFailed
  | some (guid, guidString) => if parseDone guidString then guid else ObjectGuid.fromStringFailed

def parsePlayer (_type : HighGuid) (guidString : Text) : ObjectGuid :=
  parsed do
    let (realmId, guidString) ← parseComponent 10 32 guidString
    let (dbId, guidString) ← parseComponent 16 64 guidString
    if parseDone guidString then
      some (createPlayer currentRealm (.ofNat realmId) (.ofNat dbId), guidString)
    else
      -- dbId holds playerType at this point
      let guidString ←
        if dbId = 1 then some guidString
        else if dbId = 2 then (parseComponent 10 32 guidString).map Prod.snd
        else none
      let (dbId, guidString) ← parseComponent 16 64 guidString
      some (createPlayer currentRealm (.ofNat realmId) (.ofNat dbId), guidString)

def parseItem (_type : HighGuid) (guidString : Text) : ObjectGuid :=
  parsed do
    let (realmId, guidString) ← parseComponent 10 32 guidString
    let (_arg1, guidString) ← parseComponent 10 32 guidString
    let (dbId, guidString) ← parseComponent 16 64 guidString
    some (createItem currentRealm (.ofNat realmId) (.ofNat dbId), guidString)

variable (type : HighGuid)

def parseWorldObject (guidString : Text) : ObjectGuid :=
  parsed do
    let (subType, guidString) ← parseComponent 10 8 guidString
    let (realmId, guidString) ← parseComponent 10 32 guidString
    let (mapId, guidString) ← parseComponent 10 16 guidString
    let (serverId, guidString) ← parseComponent 10 32 guidString
    let (id, guidString) ← parseComponent 10 32 guidString
    let (counter, guidString) ← parseComponent 16 64 guidString
    some (createWorldObject currentRealm type (.ofNat subType) (.ofNat realmId) (.ofNat mapId)
      (.ofNat serverId) (.ofNat id) (.ofNat counter), guidString)

def parseTransport (guidString : Text) : ObjectGuid :=
  parsed do
    let (_id, guidString) ← parseComponent 10 32 guidString
    let (counter, guidString) ← parseComponent 16 32 guidString
    some (createTransport type (.ofNat counter), guidString)

def parseClientActor (_type : HighGuid) (guidString : Text) : ObjectGuid :=
  parsed do
    let (ownerType, guidString) ← parseComponent 10 16 guidString
    let (ownerId, guidString) ← parseComponent 10 16 guidString
    let (counter, guidString) ← parseComponent 10 32 guidString
    some (createClientActor (.ofNat ownerType) (.ofNat ownerId) (.ofNat counter), guidString)

def parseChatChannel (_type : HighGuid) (guidString : Text) : ObjectGuid :=
  parsed do
    let (realmId, guidString) ← parseComponent 10 32 guidString
    let (builtIn, guidString) ← parseComponent 10 32 guidString
    let (trade, guidString) ← parseComponent 10 32 guidString
    let (zoneId, guidString) ← parseComponent 10 16 guidString
    let (factionGroupMask, guidString) ← parseComponent 10 8 guidString
    let (id, guidString) ← parseComponent 16 64 guidString
    some (createChatChannel currentRealm (.ofNat realmId) (builtIn != 0) (trade != 0)
      (.ofNat zoneId) (.ofNat factionGroupMask) (.ofNat id), guidString)

def parseGlobal (guidString : Text) : ObjectGuid :=
  parsed do
    let (dbIdHigh, guidString) ← parseComponent 10 64 guidString
    let (dbIdLow, guidString) ← parseComponent 16 64 guidString
    some (createGlobal type (.ofNat dbIdHigh) (.ofNat dbIdLow), guidString)

def parseGuild (guidString : Text) : ObjectGuid :=
  parsed do
    let (realmId, guidString) ← parseComponent 10 32 guidString
    let (dbId, guidString) ← parseComponent 16 64 guidString
    some (createGuild currentRealm type (.ofNat realmId) (.ofNat dbId), guidString)

def parseMobileSession (_type : HighGuid) (guidString : Text) : ObjectGuid :=
  parsed do
    let (realmId, guidString) ← parseComponent 10 32 guidString
    let (arg1, guidString) ← parseComponent 10 16 guidString
    let (counter, guidString) ← parseComponent 16 64 guidString
    some (createMobileSession currentRealm (.ofNat realmId) (.ofNat arg1) (.ofNat counter),
      guidString)

def parseWebObj (_type : HighGuid) (guidString : Text) : ObjectGuid :=
  parsed do
    let (realmId, guidString) ← parseComponent 10 32 guidString
    let (arg1, guidString) ← parseComponent 10 8 guidString
    let (arg2, guidString) ← parseComponent 10 8 guidString
    let (counter, guidString) ← parseComponent 16 64 guidString
    some (createWebObj currentRealm (.ofNat realmId) (.ofNat arg1) (.ofNat arg2) (.ofNat counter),
      guidString)

def parseLFGObject (_type : HighGuid) (guidString : Text) : ObjectGuid :=
  parsed do
    let (arg1, guidString) ← parseComponent 10 8 guidString
    let (arg2, guidString) ← parseComponent 10 8 guidString
    let (arg3, guidString) ← parseComponent 10 8 guidString
    let (arg4, guidString) ← parseComponent 10 8 guidString
    let (arg5, guidString) ← parseComponent 10 8 guidString
    let (arg6, guidString) ← parseComponent 10 8 guidString
    let (counter, guidString) ← parseComponent 16 64 guidString
    some (createLFGObject (.ofNat arg1) (.ofNat arg2) (.ofNat arg3) (.ofNat arg4) (arg5 != 0)
      (.ofNat arg6) (.ofNat counter), guidString)

def parseLFGList (_type : HighGuid) (guidString : Text) : ObjectGuid :=
  parsed do
    let (arg1, guidString) ← parseComponent 10 8 guidString
    let (counter, guidString) ← parseComponent 16 64 guidString
    some (createLFGList (.ofNat arg1) (.ofNat counter), guidString)

def parseClient (guidString : Text) : ObjectGuid :=
  parsed do
    let (realmId, guidString) ← parseComponent 10 32 guidString
    let (arg1, guidString) ← parseComponent 10 32 guidString
    let (counter, guidString) ← parseComponent 16 64 guidString
    some (createClient currentRealm type (.ofNat realmId) (.ofNat arg1) (.ofNat counter),
      guidString)

end ObjectGuidInfo

/-- What `SET_GUID_INFO` sets for a type. -/
structure ObjectGuidInfo where
  name : String
  clientFormatFunction : Text → ObjectGuid → Text
  clientParseFunction : HighGuid → Text → ObjectGuid

namespace ObjectGuidInfo

variable (currentRealm : UInt32)

def info : HighGuid → ObjectGuidInfo
  | .null => ⟨"Null", formatNull, parseNull⟩
  | .uniq => ⟨"Uniq", formatUniq, parseUniq⟩
  | .player => ⟨"Player", formatPlayer, parsePlayer currentRealm⟩
  | .item => ⟨"Item", formatItem, parseItem currentRealm⟩
  | .worldTransaction => ⟨"WorldTransaction", formatWorldObject, parseWorldObject currentRealm⟩
  | .staticDoor => ⟨"StaticDoor", formatTransport, parseTransport⟩
  | .transport => ⟨"Transport", formatTransport, parseTransport⟩
  | .conversation => ⟨"Conversation", formatWorldObject, parseWorldObject currentRealm⟩
  | .creature => ⟨"Creature", formatWorldObject, parseWorldObject currentRealm⟩
  | .vehicle => ⟨"Vehicle", formatWorldObject, parseWorldObject currentRealm⟩
  | .pet => ⟨"Pet", formatWorldObject, parseWorldObject currentRealm⟩
  | .gameObject => ⟨"GameObject", formatWorldObject, parseWorldObject currentRealm⟩
  | .dynamicObject => ⟨"DynamicObject", formatWorldObject, parseWorldObject currentRealm⟩
  | .areaTrigger => ⟨"AreaTrigger", formatWorldObject, parseWorldObject currentRealm⟩
  | .corpse => ⟨"Corpse", formatWorldObject, parseWorldObject currentRealm⟩
  | .lootObject => ⟨"LootObject", formatWorldObject, parseWorldObject currentRealm⟩
  | .sceneObject => ⟨"SceneObject", formatWorldObject, parseWorldObject currentRealm⟩
  | .scenario => ⟨"Scenario", formatWorldObject, parseWorldObject currentRealm⟩
  | .aiGroup => ⟨"AIGroup", formatWorldObject, parseWorldObject currentRealm⟩
  | .dynamicDoor => ⟨"DynamicDoor", formatWorldObject, parseWorldObject currentRealm⟩
  | .clientActor => ⟨"ClientActor", formatClientActor, parseClientActor⟩
  | .vignette => ⟨"Vignette", formatWorldObject, parseWorldObject currentRealm⟩
  | .callForHelp => ⟨"CallForHelp", formatWorldObject, parseWorldObject currentRealm⟩
  | .aiResource => ⟨"AIResource", formatWorldObject, parseWorldObject currentRealm⟩
  | .aiLock => ⟨"AILock", formatWorldObject, parseWorldObject currentRealm⟩
  | .aiLockTicket => ⟨"AILockTicket", formatWorldObject, parseWorldObject currentRealm⟩
  | .chatChannel => ⟨"ChatChannel", formatChatChannel, parseChatChannel currentRealm⟩
  | .party => ⟨"Party", formatGlobal, parseGlobal⟩
  | .guild => ⟨"Guild", formatGuild, parseGuild currentRealm⟩
  | .wowAccount => ⟨"WowAccount", formatGlobal, parseGlobal⟩
  | .bnetAccount => ⟨"BNetAccount", formatGlobal, parseGlobal⟩
  | .gmTask => ⟨"GMTask", formatGlobal, parseGlobal⟩
  | .mobileSession => ⟨"MobileSession", formatMobileSession, parseMobileSession currentRealm⟩
  | .raidGroup => ⟨"RaidGroup", formatGlobal, parseGlobal⟩
  | .spell => ⟨"Spell", formatGlobal, parseGlobal⟩
  | .mail => ⟨"Mail", formatGlobal, parseGlobal⟩
  | .webObj => ⟨"WebObj", formatWebObj, parseWebObj currentRealm⟩
  | .lfgObject => ⟨"LFGObject", formatLFGObject, parseLFGObject⟩
  | .lfgList => ⟨"LFGList", formatLFGList, parseLFGList⟩
  | .userRouter => ⟨"UserRouter", formatGlobal, parseGlobal⟩
  | .pvpQueueGroup => ⟨"PVPQueueGroup", formatGlobal, parseGlobal⟩
  | .userClient => ⟨"UserClient", formatGlobal, parseGlobal⟩
  | .petBattle => ⟨"PetBattle", formatClient, parseClient currentRealm⟩
  | .uniqUserClient => ⟨"UniqUserClient", formatClient, parseClient currentRealm⟩
  | .battlePet => ⟨"BattlePet", formatGlobal, parseGlobal⟩
  | .commerceObj => ⟨"CommerceObj", formatGlobal, parseGlobal⟩
  | .clientSession => ⟨"ClientSession", formatClient, parseClient currentRealm⟩
  | .cast => ⟨"Cast", formatWorldObject, parseWorldObject currentRealm⟩

def parse (guidString : Text) : ObjectGuid :=
  let typeStr := guidString.takeWhile (· ≠ '-')
  match guidString.dropWhile (· ≠ '-') with
  | [] =>
    if guidString = "0000000000000000".toList then ObjectGuid.empty
    else ObjectGuid.fromStringFailed
  | _ :: guidString =>
    match HighGuid.all.find? fun type => typeStr = (info currentRealm type).name.toList with
    | some type => (info currentRealm type).clientParseFunction type guidString
    | none => ObjectGuid.fromStringFailed

end ObjectGuidInfo

namespace ObjectGuid

variable (currentRealm : UInt32)

def toString (guid : ObjectGuid) : Text :=
  match guid.getHigh with
  | none => ObjectGuidInfo.formatUniq "Uniq".toList toStringFailed
  | some type =>
    let info := ObjectGuidInfo.info currentRealm type
    info.clientFormatFunction info.name.toList guid

def fromString (guidString : Text) : ObjectGuid := ObjectGuidInfo.parse currentRealm guidString

end ObjectGuid

end LegionServer.Source.Objects
