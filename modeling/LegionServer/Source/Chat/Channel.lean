import LegionServer.Library.Transition
import Mathlib.Data.Finset.Basic
import Mathlib.Data.List.Sort
import LegionServer.Library.Scanning
import LegionServer.Source.Objects.ObjectGuid
import Mathlib.Data.Finset.Lattice.Lemmas

/-!
# Chat channels

The members, the owner and the ban list of a `Channel` (`Channel.h:118-292`,
`Channel.cpp:159-603`, `861-894`). Guids are a linear order with an absent one for
`ObjectGuid::Empty`; the packets to the members are left out.
-/
namespace LegionServer.Source.Chat
open Library Numerals

def MEMBER_FLAG_OWNER : UInt8 := 0x01
def MEMBER_FLAG_MODERATOR : UInt8 := 0x02
def MEMBER_FLAG_MUTED : UInt8 := 0x08
def CHANNEL_FLAG_CUSTOM : UInt8 := 0x01
def CHANNEL_FLAG_LFG : UInt8 := 0x40

structure PlayerInfo where
  flags : UInt8 := 0
  invisible : Bool := false
  deriving DecidableEq

namespace PlayerInfo

def hasFlag (info : PlayerInfo) (flag : UInt8) : Bool := info.flags &&& flag != 0

def changeFlag (info : PlayerInfo) (flag : UInt8) (state : Bool) : PlayerInfo :=
  { info with flags := if state then info.flags ||| flag else info.flags &&& ~~~flag }

def isOwner (info : PlayerInfo) : Bool := info.hasFlag MEMBER_FLAG_OWNER
def setOwner (state : Bool) (info : PlayerInfo) : PlayerInfo :=
  info.changeFlag MEMBER_FLAG_OWNER state
def isModerator (info : PlayerInfo) : Bool := info.hasFlag MEMBER_FLAG_MODERATOR
def setModerator (state : Bool) (info : PlayerInfo) : PlayerInfo :=
  info.changeFlag MEMBER_FLAG_MODERATOR state
def setMuted (state : Bool) (info : PlayerInfo) : PlayerInfo :=
  info.changeFlag MEMBER_FLAG_MUTED state
def setInvisible (on : Bool) (info : PlayerInfo) : PlayerInfo := { info with invisible := on }

variable (info : PlayerInfo) (state : Bool)

@[simp] theorem isOwner_setOwner : (info.setOwner state).isOwner = state := by
  obtain ⟨⟨⟨flags⟩⟩, invisible⟩ := info
  revert flags state invisible
  decide +kernel

@[simp] theorem isOwner_setModerator : (info.setModerator state).isOwner = info.isOwner := by
  obtain ⟨⟨⟨flags⟩⟩, invisible⟩ := info
  revert flags state invisible
  decide +kernel

@[simp] theorem isOwner_setMuted : (info.setMuted state).isOwner = info.isOwner := by
  obtain ⟨⟨⟨flags⟩⟩, invisible⟩ := info
  revert flags state invisible
  decide +kernel

@[simp] theorem isModerator_setModerator : (info.setModerator state).isModerator = state := by
  obtain ⟨⟨⟨flags⟩⟩, invisible⟩ := info
  revert flags state invisible
  decide +kernel

@[simp] theorem isModerator_setOwner : (info.setOwner state).isModerator = info.isModerator := by
  obtain ⟨⟨⟨flags⟩⟩, invisible⟩ := info
  revert flags state invisible
  decide +kernel

@[simp] theorem isModerator_setMuted : (info.setMuted state).isModerator = info.isModerator := by
  obtain ⟨⟨⟨flags⟩⟩, invisible⟩ := info
  revert flags state invisible
  decide +kernel

end PlayerInfo

structure Player (G : Type*) where
  guid : G
  name : String
  team : UInt32 := 0
  isGMVisible : Bool := true
  inGroup : Bool := false
  /-- `AccountMgr::IsPlayerAccount`. -/
  playerAccount : Bool := true
  /-- `RBAC_PERM_CHANGE_CHANNEL_NOT_MODERATOR`. -/
  changeChannelNotModerator : Bool := false
  /-- `RBAC_PERM_TWO_SIDE_INTERACTION_CHANNEL`. -/
  twoSideInteraction : Bool := false
  deriving DecidableEq

structure World (G : Type*) where
  normalizePlayerName : String → Option String
  restrictedLfgChannel : Bool := false
  players : List (Player G)
  guid_unique : ∀ p ∈ players, ∀ q ∈ players, p.guid = q.guid → p = q

def World.findConnectedPlayerByName {G : Type*} (world : World G) (name : String) :
    Option (Player G) :=
  match world.normalizePlayerName name with
  | none => none
  | some charName => world.players.find? fun player => player.name = charName

/-- `players` is the ordered map `_playersStore`. -/
structure Channel (G : Type*) where
  channelId : UInt32 := 0
  channelFlags : UInt8 := CHANNEL_FLAG_CUSTOM
  channelPassword : String := ""
  isDirty : Bool := false
  ownershipEnabled : Bool := true
  isOwnerInvisible : Bool := false
  ownerGuid : Option G := none
  players : List (G × PlayerInfo) := []
  bannedStore : Finset G

inductive ChannelFault where
  /-- A reference into `_playersStore` is used after its element was erased. -/
  | infoErased
  deriving DecidableEq

namespace Channel

variable {G : Type*} [LinearOrder G] (channel : Channel G)

def isConstant : Bool := channel.channelId != 0

def hasFlag (flag : UInt8) : Bool := channel.channelFlags &&& flag != 0

def checkPassword (password : String) : Bool :=
  channel.channelPassword = "" ∨ channel.channelPassword = password

/-- `_playersStore.find`. -/
def find (guid : G) : Option PlayerInfo :=
  (channel.players.find? fun entry => entry.1 = guid).map Prod.snd

def isOn (guid : G) : Bool := (channel.find guid).isSome

def isBanned (guid : G) : Bool := guid ∈ channel.bannedStore

def change (guid : G) (f : PlayerInfo → PlayerInfo) : Channel G :=
  { channel with
    players := channel.players.map fun entry =>
      if entry.1 = guid then (entry.1, f entry.2) else entry }

def insert (guid : G) (info : PlayerInfo) : Channel G :=
  { channel with
    players := channel.players.orderedInsert (fun left right => left.1 ≤ right.1) (guid, info) }

def erase (guid : G) : Channel G :=
  { channel with players := channel.players.filter fun entry => entry.1 ≠ guid }

/-- The part of `SetOwner` about the owner before. -/
def clearOwner : Channel G :=
  match channel.ownerGuid with
  | some owner => channel.change owner (PlayerInfo.setOwner false)
  | none => channel

/-- `SetOwner(ObjectGuid const&, bool)` for a guid that is not empty. -/
def setOwner (guid : G) : Channel G :=
  let channel := { channel.clearOwner with ownerGuid := some guid }
  if channel.isOn guid then
    { channel.change guid fun info => (info.setModerator true).setOwner true with isDirty := true }
  else channel

variable (world : World G)

def joinChannel (player : Player G) (pass : String) : Channel G :=
  if channel.isOn player.guid then channel
  else if channel.isBanned player.guid then channel
  else if !channel.checkPassword pass then channel
  else if channel.hasFlag CHANNEL_FLAG_LFG && world.restrictedLfgChannel && player.playerAccount &&
      player.inGroup then channel
  else
    let newChannel := channel.players.isEmpty
    let invisible := !player.isGMVisible
    let channel := channel.insert player.guid { invisible }
    if !channel.isConstant && channel.ownershipEnabled && (newChannel || !invisible) &&
        (channel.ownerGuid.isNone || channel.isOwnerInvisible) then
      let channel := { channel with isOwnerInvisible := invisible }
      (channel.setOwner player.guid).change player.guid (PlayerInfo.setModerator true)
    else channel

/-- The player who takes over from an owner who left: the first who is visible, or the first. -/
def nextOwner : Option (G × PlayerInfo) :=
  match channel.players.find? fun entry => !entry.2.invisible with
  | some entry => some entry
  | none => channel.players.head?

def leaveChannel (player : Player G) : Channel G :=
  match channel.find player.guid with
  | none => channel
  | some info =>
    let changeowner := info.isOwner
    let channel := channel.erase player.guid
    if !channel.isConstant && changeowner && channel.ownershipEnabled then
      match channel.nextOwner with
      | none => channel
      | some (newOwner, newInfo) =>
        let channel := channel.change newOwner (PlayerInfo.setModerator true)
        let channel := channel.setOwner newOwner
        if newInfo.invisible then { channel with isOwnerInvisible := true } else channel
    else channel

def kickOrBan (player : Player G) (badname : String) (ban : Bool) :
    Except ChannelFault (Channel G) :=
  match channel.find player.guid with
  | none => .ok channel
  | some info =>
    if !info.isModerator && !player.changeChannelNotModerator then .ok channel
    else
      match world.findConnectedPlayerByName badname with
      | none => .ok channel
      | some bad =>
        let victim := bad.guid
        if !channel.isOn victim then .ok channel
        else
          let changeowner : Bool := channel.ownerGuid = some victim
          if !player.changeChannelNotModerator && changeowner &&
              !(channel.ownerGuid = some player.guid : Bool) then .ok channel
          else
            let channel :=
              if ban && !channel.isBanned victim then
                { channel with bannedStore := Insert.insert victim channel.bannedStore, isDirty := true }
              else channel
            let channel := channel.erase victim
            if changeowner && channel.ownershipEnabled && !channel.players.isEmpty then
              -- `info` refers into the store
              if channel.isOn player.guid then
                .ok ((channel.change player.guid (PlayerInfo.setModerator true)).setOwner player.guid)
              else .error .infoErased
            else .ok channel

def unBan (player : Player G) (badname : String) : Channel G :=
  match channel.find player.guid with
  | none => channel
  | some info =>
    if !info.isModerator && !player.changeChannelNotModerator then channel
    else
      match world.findConnectedPlayerByName badname with
      | none => channel
      | some bad =>
        if !channel.isBanned bad.guid then channel
        else { channel with bannedStore := channel.bannedStore.erase bad.guid, isDirty := true }

/-- `SetModerator(ObjectGuid const&, bool)`. -/
def setModerator (guid : G) (set : Bool) : Channel G := channel.change guid (PlayerInfo.setModerator set)

def setMute (guid : G) (set : Bool) : Channel G := channel.change guid (PlayerInfo.setMuted set)

/-- The players of two teams do not see each other here. -/
def strangers (player newp : Player G) : Bool :=
  player.team != newp.team && (!player.twoSideInteraction || !newp.twoSideInteraction)

def setMode (player : Player G) (p2n : String) (mod set : Bool) : Channel G :=
  match channel.find player.guid with
  | none => channel
  | some info =>
    if !info.isModerator && !player.changeChannelNotModerator then channel
    else if channel.ownerGuid = some player.guid ∧ p2n = player.name ∧ mod = true then channel
    else
      match world.findConnectedPlayerByName p2n with
      | none => channel
      | some newp =>
        if !channel.isOn newp.guid || strangers player newp then channel
        else if channel.ownerGuid = some newp.guid ∧ channel.ownerGuid ≠ some player.guid then channel
        else if mod then channel.setModerator newp.guid set
        else channel.setMute newp.guid set

/-- `SetOwner(Player const*, std::string const&)`. -/
def setOwnerByName (player : Player G) (newname : String) : Channel G :=
  match channel.find player.guid with
  | none => channel
  | some _ =>
    if !player.changeChannelNotModerator && !(channel.ownerGuid = some player.guid : Bool) then channel
    else
      match world.findConnectedPlayerByName newname with
      | none => channel
      | some newp =>
        if !channel.isOn newp.guid || strangers player newp then channel
        else (channel.change newp.guid (PlayerInfo.setModerator true)).setOwner newp.guid

def setInvisible (player : Player G) (on : Bool) : Channel G :=
  match channel.find player.guid with
  | none => channel
  | some _ =>
    let channel := channel.change player.guid (PlayerInfo.setInvisible on)
    if channel.ownerGuid = some player.guid then { channel with isOwnerInvisible := on } else channel

end Channel

/-- The requests, with the names as `HandleChannelPlayerCommand` passes them on. -/
inductive ChannelRequest where
  | joinChannel (pass : String)
  | leaveChannel
  | kickOrBan (badname : String) (ban : Bool)
  | unBan (badname : String)
  | setMode (p2n : String) (mod set : Bool)
  | setOwner (newname : String)
  | setInvisible (on : Bool)

def ChannelRequest.name? : ChannelRequest → Option String
  | .kickOrBan badname _ => some badname
  | .unBan badname => some badname
  | .setMode p2n _ _ => some p2n
  | .setOwner newname => some newname
  | _ => none

structure ChannelCall (G : Type*) where
  world : World G
  player : Player G
  request : ChannelRequest
  connected : player ∈ world.players
  normalized : ∀ name ∈ request.name?, world.normalizePlayerName name = some name

variable {G : Type*} [LinearOrder G]

def ChannelCall.run (call : ChannelCall G) (channel : Channel G) :
    Except ChannelFault (Channel G) :=
  match call.request with
  | .joinChannel pass => .ok (channel.joinChannel call.world call.player pass)
  | .leaveChannel => .ok (channel.leaveChannel call.player)
  | .kickOrBan badname ban => channel.kickOrBan call.world call.player badname ban
  | .unBan badname => .ok (channel.unBan call.world call.player badname)
  | .setMode p2n mod set => .ok (channel.setMode call.world call.player p2n mod set)
  | .setOwner newname => .ok (channel.setOwnerByName call.world call.player newname)
  | .setInvisible on => .ok (channel.setInvisible call.player on)

/-- A custom channel with ownership, from its constructor on. -/
def channelSystem (G : Type*) [LinearOrder G] :
    System (Except ChannelFault (Channel G)) (ChannelCall G) where
  init s := ∃ channelPassword bannedStore, s = .ok { channelPassword, bannedStore }
  step call s s' := ∃ channel, s = .ok channel ∧ s' = call.run channel

/-!
# The stored ban list of a channel

The text that `UpdateChannelInDB` writes and the constructor of a custom channel reads
(`Channel.cpp:63-95`, `124-135`), with `Trinity::Tokenize` (`Util.cpp:57-75`) and
`Trinity::StringTo` (`StringConvert.h:43-76`). A text is a list of ASCII characters.
-/
open Source.Objects

/-- The tokens of a text where `token` is what was read since the last separator. -/
def tokenizeFrom (sep : Char) (keepEmpty : Bool) (token : List Char) :
    List Char → List (List Char)
  | [] => if keepEmpty || !token.isEmpty then [token] else []
  | c :: str =>
    if c = sep then
      (if keepEmpty || !token.isEmpty then [token] else []) ++ tokenizeFrom sep keepEmpty [] str
    else tokenizeFrom sep keepEmpty (token ++ [c]) str

def tokenize (str : List Char) (sep : Char) (keepEmpty : Bool) : List (List Char) :=
  tokenizeFrom sep keepEmpty [] str

/-- `StringTo<uint64>` in a base that is given: all of the text is the number. -/
def stringToUInt64 (str : List Char) (base : Nat) : Option UInt64 :=
  match Numerals.fromChars base 64 str with
  | some (val, []) => some (UInt64.ofNat val)
  | _ => none

inductive TextFault where
  /-- `substr` from behind the end. -/
  | outOfRange
  deriving DecidableEq

def substr (str : List Char) (pos count : Nat) : Except TextFault (List Char) :=
  if str.length < pos then .error .outOfRange else .ok ((str.drop pos).take count)

/-- The prefix `0x` is looked for, and as many characters are taken from the end. -/
def withoutPrefix (guid : List Char) : List Char :=
  if 2 < guid.length ∧ guid.take 2 = ['0', 'x'] then guid.take (guid.length - 2) else guid

def readBan (token : List Char) : Except TextFault (Option ObjectGuid) := do
  let guid := withoutPrefix token
  let high := stringToUInt64 (← substr guid 0 16) 16
  let low := stringToUInt64 (← substr guid 16 16) 16
  match high, low with
  | some high, some low =>
    let banned : ObjectGuid := ⟨high, low⟩
    pure (if banned.isEmpty then none else some banned)
  | _, _ => pure none

def readBans (bannedStore : Finset ObjectGuid) :
    List (List Char) → Except TextFault (Finset ObjectGuid)
  | [] => .ok bannedStore
  | token :: tokens => do
    match ← readBan token with
    | none => readBans bannedStore tokens
    | some banned => readBans (insert banned bannedStore) tokens

/-- The constructor of a custom channel. -/
def Channel.ofBanList (banList : List Char) : Except TextFault (Channel ObjectGuid) := do
  let bannedStore ← readBans ∅ (tokenize banList ' ' false)
  pure { bannedStore }

/-- The list that `UpdateChannelInDB` writes, for the order in which the store is gone through. -/
def banList (guids : List ObjectGuid) : List Char :=
  guids.flatMap fun guid => guid.toHexString ++ [' ']

section Tokens

variable {sep : Char} {token word str : List Char} {words : List (List Char)}

theorem tokenizeFrom_append (hword : sep ∉ word) :
    tokenizeFrom sep false token (word ++ str) = tokenizeFrom sep false (token ++ word) str := by
  induction word generalizing token with
  | nil => simp
  | cons c word ih =>
    have hc : c ≠ sep := fun h => hword (h ▸ List.mem_cons_self)
    have hrest : sep ∉ word := fun h => hword (List.mem_cons_of_mem c h)
    rw [List.cons_append, tokenizeFrom, if_neg hc, ih hrest, List.append_assoc,
      List.singleton_append]

theorem tokenize_words (hwords : ∀ word ∈ words, word ≠ [] ∧ sep ∉ word) :
    tokenize (words.flatMap fun word => word ++ [sep]) sep false = words := by
  rw [tokenize]
  induction words with
  | nil => rfl
  | cons word words ih =>
    obtain ⟨hne, hsep⟩ := hwords word List.mem_cons_self
    have hkept : (false || !word.isEmpty) = true := by simpa using hne
    rw [List.flatMap_cons, List.append_assoc, tokenizeFrom_append hsep, List.nil_append,
      List.singleton_append, tokenizeFrom, if_pos rfl, if_pos hkept,
      ih fun word hword => hwords word (List.mem_cons_of_mem _ hword), List.singleton_append]

end Tokens

section Hex

variable (value : UInt64) (guid : ObjectGuid)

theorem length_formatHex : (ObjectGuid.formatHex value).length = 16 := by
  have hdigits : (Nat.toDigits 16 value.toNat).length ≤ 16 :=
    (Nat.length_toDigits_le_iff (by decide) (by decide)).mpr value.toNat_lt
  rw [ObjectGuid.formatHex, List.length_append, List.length_replicate, List.length_map]
  omega

theorem isDigit_formatHex : ∀ c ∈ ObjectGuid.formatHex value, Numerals.isDigit 16 c = true := by
  intro c hc
  rcases List.mem_append.mp hc with hzero | hdigit
  · rw [List.eq_of_mem_replicate hzero]
    rfl
  · exact isDigit_of_mem_toDigits (by decide) (by decide) (fun _ => digitValue_toUpper) _ c hdigit

theorem stringToUInt64_formatHex : stringToUInt64 (ObjectGuid.formatHex value) 16 = some value := by
  have hvalue : Numerals.value 16 (ObjectGuid.formatHex value) = value.toNat := by
    rw [ObjectGuid.formatHex, value_leading_zeros,
      value_map_toDigits (by decide) (by decide) fun _ => digitValue_toUpper]
  have hne : ObjectGuid.formatHex value ≠ [] :=
    List.ne_nil_of_length_pos (by rw [length_formatHex]; decide)
  have hread : fromChars 16 64 (ObjectGuid.formatHex value ++ []) =
      some (value.toNat, []) := by
    rw [fromChars_append (isDigit_formatHex value) hne (by intro c hc; cases hc), hvalue,
      if_pos value.toNat_lt]
  rw [List.append_nil] at hread
  rw [stringToUInt64, hread]
  exact congrArg some UInt64.ofNat_toNat

def digits : List Char := ObjectGuid.formatHex guid.high ++ ObjectGuid.formatHex guid.low

theorem toHexString_eq : guid.toHexString = '0' :: 'x' :: digits guid := rfl

theorem length_digits : (digits guid).length = 32 := by
  rw [digits, List.length_append, length_formatHex, length_formatHex]

theorem not_mem_digits {c : Char} (hc : Numerals.isDigit 16 c = false) : c ∉ digits guid := by
  intro hmem
  have hdigit : isDigit 16 c = true := by
    rcases List.mem_append.mp hmem with h | h
    · exact isDigit_formatHex _ c h
    · exact isDigit_formatHex _ c h
  rw [hc] at hdigit
  cases hdigit

theorem withoutPrefix_toHexString :
    withoutPrefix guid.toHexString = '0' :: 'x' :: (digits guid).take 30 := by
  have hlength : guid.toHexString.length = 34 := by
    rw [toHexString_eq, List.length_cons, List.length_cons, length_digits]
  rw [withoutPrefix, hlength, if_pos ⟨by decide, rfl⟩]
  rfl

theorem withoutPrefix_digits : withoutPrefix (digits guid) = digits guid := by
  have hno : (digits guid).take 2 ≠ ['0', 'x'] := by
    intro htake
    have hmem : 'x' ∈ (digits guid).take 2 := by
      rw [htake]
      exact List.mem_cons_of_mem _ List.mem_cons_self
    exact not_mem_digits guid rfl (List.mem_of_mem_take hmem)
  rw [withoutPrefix, if_neg fun h => hno h.2]

/-- A number does not go on behind a letter `x`. -/
theorem stringToUInt64_of_x (str : List Char) : stringToUInt64 ('0' :: 'x' :: str) 16 = none := by
  have hdigit : ∀ c ∈ ['0'], isDigit 16 c = true := by simp; rfl
  have hread : fromChars 16 64 (['0'] ++ 'x' :: str) = some (0, 'x' :: str) :=
    fromChars_append hdigit (List.cons_ne_nil _ _) (by rintro c ⟨⟩; rfl)
  rw [List.singleton_append] at hread
  rw [stringToUInt64, hread]

theorem readBan_toHexString : readBan guid.toHexString = .ok none := by
  have hlength : ('0' :: 'x' :: (digits guid).take 30).length = 32 := by
    rw [List.length_cons, List.length_cons, List.length_take, length_digits]
    rfl
  rw [readBan, withoutPrefix_toHexString, substr, substr, hlength, if_neg (by decide),
    if_neg (by decide), List.drop_zero, List.take_succ_cons, List.take_succ_cons]
  simp only [stringToUInt64_of_x, bind, Except.bind, pure, Except.pure]

theorem readBan_digits : readBan (digits guid) =
    .ok (if guid.isEmpty then none else some guid) := by
  have hhigh : (digits guid).take 16 = ObjectGuid.formatHex guid.high := by
    rw [digits, List.take_append_of_le_length (length_formatHex _).ge,
      List.take_of_length_le (length_formatHex _).le]
  have hlow : ((digits guid).drop 16).take 16 = ObjectGuid.formatHex guid.low := by
    rw [digits, List.drop_left' (length_formatHex _),
      List.take_of_length_le (length_formatHex _).le]
  rw [readBan, withoutPrefix_digits, substr, substr, length_digits, if_neg (by decide),
    if_neg (by decide), List.drop_zero, hhigh, hlow]
  simp only [stringToUInt64_formatHex, bind, Except.bind, pure, Except.pure]

end Hex

variable {bannedStore : Finset ObjectGuid}

theorem readBans_skip {tokens : List (List Char)}
    (hskip : ∀ token ∈ tokens, readBan token = .ok none) :
    readBans bannedStore tokens = .ok bannedStore := by
  induction tokens with
  | nil => rfl
  | cons token tokens ih =>
    rw [readBans, hskip token List.mem_cons_self]
    exact ih fun token htoken => hskip token (List.mem_cons_of_mem _ htoken)

theorem readBans_digits {guids : List ObjectGuid} (hguids : ∀ guid ∈ guids, guid.isEmpty = false) :
    readBans bannedStore (guids.map digits) = .ok (bannedStore ∪ guids.toFinset) := by
  induction guids generalizing bannedStore with
  | nil => simp [readBans]
  | cons guid guids ih =>
    rw [List.map_cons, readBans, readBan_digits, hguids guid List.mem_cons_self]
    have hrest : readBans (insert guid bannedStore) (guids.map digits) =
        .ok (insert guid bannedStore ∪ guids.toFinset) :=
      ih fun guid hmem => hguids guid (List.mem_cons_of_mem _ hmem)
    rw [List.toFinset_cons, Finset.union_insert, ← Finset.insert_union]
    exact hrest

end LegionServer.Source.Chat
