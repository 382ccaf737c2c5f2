import LegionServer.Library.KeyedRows
import LegionServer.Source.Common.WideStrings

/-!
# The custom channels of a team

`ChannelMgr` (`ChannelMgr.h:30-69`, `ChannelMgr.cpp:44-145`, `199-263`, `287-290`). The
built-in channels are read only, and the ban list of a row is kept as its text.
-/
namespace LegionServer.Source.Chat
open Library.KeyedRows Source.Common

def TEAM_HORDE : UInt32 := 67
def TEAM_ALLIANCE : UInt32 := 469

structure ChannelRow where
  name : List UInt8
  team : UInt32
  announce : Bool
  ownership : Bool
  password : List UInt8
  bannedList : List UInt8
  deriving DecidableEq

/-- The data of a `Channel` that its constructor and the loader set. -/
structure CustomChannel where
  /-- The type and the counter of its guid. -/
  guid : Nat × Nat
  name : List UInt8
  team : UInt32
  announce : Bool := true
  ownership : Bool := true
  password : List UInt8 := []
  banList : List UInt8 := []
  isDirty : Bool := false
  deriving DecidableEq

/-- The name under which a channel is looked up. -/
def foldedName (name : List UInt8) : Option WString := (utf8toWStr name).map wstrToLower

structure ChannelMgr where
  team : UInt32
  customChannels : List (WString × CustomChannel) := []
  /-- The built-in channels by id and zone. -/
  channels : UInt32 → Option UInt32 → Option CustomChannel := fun _ _ => none
  guidGenerator : Nat := 1

namespace ChannelMgr

variable (mgr : ChannelMgr)

def find (key : WString) : Option CustomChannel :=
  (rowOf Prod.fst mgr.customChannels key).map Prod.snd

def createCustomChannelGuid : Nat × Nat :=
  (if mgr.team = TEAM_ALLIANCE then 3 else 5, mgr.guidGenerator)

/-- A channel under a new key; its guid is the next one. -/
def insert (key : WString) (channel : CustomChannel) : ChannelMgr :=
  { mgr with
    customChannels := mgr.customChannels ++ [(key, channel)]
    guidGenerator := mgr.guidGenerator + 1 }

/-- The body of the loop of `LoadFromDB`, for a row of this manager whose name is valid. -/
def loadRow (row : ChannelRow) (channelName : WString) : ChannelMgr :=
  match mgr.find channelName with
  | some _ => mgr
  | none =>
    mgr.insert channelName
      { guid := mgr.createCustomChannelGuid
        name := row.name
        team := row.team
        announce := row.announce
        ownership := row.ownership
        password := row.password
        banList := row.bannedList }

/-- The manager after it, and the channel returned. -/
def createCustomChannel (name : List UInt8) : ChannelMgr × Option CustomChannel :=
  match utf8toWStr name with
  | none => (mgr, none)
  | some channelName =>
    match mgr.find (wstrToLower channelName) with
    | some _ => (mgr, none)
    | none =>
      let newChannel : CustomChannel :=
        { guid := mgr.createCustomChannelGuid, name := name, team := mgr.team, isDirty := true }
      (mgr.insert (wstrToLower channelName) newChannel, some newChannel)

def getCustomChannel (name : List UInt8) : Option CustomChannel :=
  match utf8toWStr name with
  | none => none
  | some channelName => mgr.find (wstrToLower channelName)

/-- The channel, and whether the player is told that it is on none. -/
def getChannel (channelId : UInt32) (name : List UInt8) (notify : Bool)
    (zoneEntry : Option UInt32) : Option CustomChannel × Bool :=
  if channelId ≠ 0 then
    let result := mgr.channels channelId zoneEntry
    (result, result.isNone && notify)
  else
    match utf8toWStr name with
    | none => (none, false)
    | some channelName =>
      let result := mgr.find (wstrToLower channelName)
      (result, result.isNone && notify)

def custom : List CustomChannel := mgr.customChannels.map Prod.snd

@[simp] theorem customChannels_insert (key : WString) (channel : CustomChannel) :
    (mgr.insert key channel).customChannels = mgr.customChannels ++ [(key, channel)] := rfl

theorem getCustomChannel_eq (name : List UInt8) :
    mgr.getCustomChannel name = (foldedName name).bind mgr.find := by
  unfold getCustomChannel foldedName
  cases utf8toWStr name <;> rfl

theorem getChannel_zero (name : List UInt8) (notify : Bool) (zoneEntry : Option UInt32) :
    (mgr.getChannel 0 name notify zoneEntry).1 = mgr.getCustomChannel name := by
  unfold getChannel getCustomChannel
  cases utf8toWStr name <;> simp

theorem find_eq_none {key : WString} :
    mgr.find key = none ↔ key ∉ mgr.customChannels.map Prod.fst := by
  rw [find, Option.map_eq_none_iff, rowOf_eq_none]

end ChannelMgr

/-- The three managers of `ForTeam`. -/
inductive ChannelSide where
  | alliance | horde | neutral
  deriving DecidableEq

/-- What `ForTeam` reads: `CONFIG_ALLOW_TWO_SIDE_INTERACTION_CHANNEL`, and the team
`PANDARIA_NEUTRAL`, whose value no enumeration of the repository gives. -/
structure ChannelConfig where
  allowTwoSideInteraction : Bool
  pandariaNeutral : UInt32

variable (config : ChannelConfig)

def forTeam (team : UInt32) : Option ChannelSide :=
  if config.allowTwoSideInteraction then some .neutral
  else if team = TEAM_HORDE then some .horde
  else if team = TEAM_ALLIANCE then some .alliance
  else if team = config.pandariaNeutral then some .neutral
  else none

abbrev ChannelMgrs : Type := ChannelSide → ChannelMgr

/-- The managers as `ForTeam` first builds them. -/
def startingMgrs : ChannelMgrs
  | .alliance => { team := TEAM_ALLIANCE }
  | .horde => { team := TEAM_HORDE }
  | .neutral => { team := config.pandariaNeutral }

/-- One row of the result; the rows to delete are those with an invalid name or team. -/
def loadStep (loaded : ChannelMgrs × List ChannelRow) (row : ChannelRow) :
    ChannelMgrs × List ChannelRow :=
  match utf8toWStr row.name with
  | none => (loaded.1, loaded.2 ++ [row])
  | some channelName =>
    match forTeam config row.team with
    | none => (loaded.1, loaded.2 ++ [row])
    | some side =>
      (Function.update loaded.1 side ((loaded.1 side).loadRow row channelName), loaded.2)

/-- `LoadFromDB` on the rows that are left when the old channels are deleted. -/
def loadFromDB (preserveCustomChannels : Bool) (mgrs : ChannelMgrs) (rows : List ChannelRow) :
    ChannelMgrs × List ChannelRow :=
  if preserveCustomChannels then rows.foldl (loadStep config) (mgrs, [])
  else (mgrs, [])

/-- `CreateCustomChannel` on the manager of a team. -/
def createForTeam (mgrs : ChannelMgrs) (creation : UInt32 × List UInt8) : ChannelMgrs :=
  match forTeam config creation.1 with
  | none => mgrs
  | some side => Function.update mgrs side ((mgrs side).createCustomChannel creation.2).1

/-- The managers after a start of the server and some creations. -/
def channelRun (preserveCustomChannels : Bool) (rows : List ChannelRow)
    (creations : List (UInt32 × List UInt8)) : ChannelMgrs :=
  creations.foldl (createForTeam config)
    (loadFromDB config preserveCustomChannels (startingMgrs config) rows).1

end LegionServer.Source.Chat
