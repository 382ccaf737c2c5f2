import Mathlib.Data.List.Basic
import Mathlib.Algebra.Ring.Int.Defs

/-!
# The handshake of the world socket

The handlers of `WorldSocket.cpp:361-438`, `613-1116` with the callbacks of their queries and
`Socket.h`'s states of the connection. Hashes, the state of the world and what the queries find are
parameters; what handlers do to a session is left out. A read through a null `_worldSession` is a
fault. What the socket does to the world and to its encryption is kept in a trace, newest first.
-/
namespace LegionServer.Source.Handshake

abbrev Bytes := List UInt8

/-- `AuthSession::DigestLength`, `AuthContinuedSession::DigestLength` -/
def DigestLength : Nat := 24

inductive ConnectionType where
  | REALM
  | INSTANCE
  deriving DecidableEq, Repr

structure WorldSession where
  accountId : UInt32
  gameaccount : String
  security : UInt8
  deriving DecidableEq, Repr

structure RealmJoinTicket where
  gameaccount : String
  platform : UInt32
  clientarch : UInt32
  type : UInt32
  deriving DecidableEq, Repr

/-- `AuthSession`, with the ticket where it can be deserialized. -/
structure AuthSession where
  realmId : UInt32
  localChallenge : Bytes
  digest : Bytes
  realmJoinTicket : Option RealmJoinTicket
  deriving DecidableEq, Repr

structure AuthContinuedSession where
  key : UInt64
  localChallenge : Bytes
  digest : Bytes
  deriving DecidableEq, Repr

/-- `ConnectToKey::Fields.ConnectionType` -/
def connectionTypeOf (key : UInt64) : ConnectionType :=
  if key >>> 32 &&& 1 = 0 then .REALM else .INSTANCE

/-- A packet by its opcode; none is a content that cannot be read. -/
inductive ClientPacket where
  /-- not decrypted, or no opcode -/
  | invalid
  | ping (now : Int) (latency : Option UInt32)
  | authSession (packet : Option AuthSession)
  | authContinuedSession (packet : Option AuthContinuedSession)
  | keepAlive
  | logDisconnect (reason : Option UInt32)
  | enableNagle
  | connectToFailed (serial : Option UInt32)
  | enterEncryptedModeAck
  | other (opcode : UInt32)
  deriving DecidableEq, Repr

structure AuthKey where
  platform : UInt32
  arch : UInt32
  type : UInt32
  key : Bytes
  deriving DecidableEq, Repr

structure AccountInfo where
  id : UInt32
  keyData : Bytes
  build : UInt32
  isLockedToIP : Bool
  lastIP : String
  lockCountry : String
  bnetIsBanned : Bool
  gameIsBanned : Bool
  security : UInt8
  deriving DecidableEq, Repr

def AccountInfo.isBanned (account : AccountInfo) : Bool :=
  account.bnetIsBanned || account.gameIsBanned

/-- What a callback finds: the rows of its query and the world at that time. -/
structure Answer where
  account : Option AccountInfo
  /-- the session key of the row of a continued session -/
  sessionKey : Option Bytes
  isClosed : Bool
  realmId : UInt32
  playerSecurityLimit : UInt8
  ipCountry : String
  deriving DecidableEq, Repr

structure Surroundings where
  sha512 : Bytes → Bytes
  hmacSha512 : Bytes → Bytes → Bytes
  generateSessionKey : Bytes → Bytes
  authCheckSeed : Bytes
  sessionKeySeed : Bytes
  continuedSessionSeed : Bytes
  encryptionKeySeed : Bytes
  /-- the bytes of a key in memory -/
  keyBytes : UInt64 → Bytes
  authKeys : UInt32 → Option (List AuthKey)
  address : String
  maxOverspeedPings : Nat
  skipsOverspeedPings : WorldSession → Bool
  /-- the handler of an opcode -/
  hasHandler : UInt32 → Bool

/-- An authentication whose digest was verified, and the key derived in it. -/
inductive Exchange where
  | session (session : WorldSession) (encryptKey : Bytes)
  | continued (key : UInt64) (encryptKey : Bytes)
  deriving DecidableEq, Repr

inductive Effect where
  | authenticated (exchange : Exchange)
  /-- `EnterEncryptedMode` is sent. -/
  | enterEncryptedMode (encryptKey : Bytes)
  /-- `_authCrypt.Init` -/
  | initCrypt (encryptKey : Bytes)
  | addSession (session : Option WorldSession)
  | addInstanceSocket (key : UInt64)
  deriving DecidableEq, Repr

inductive Query where
  | accountInfo (authSession : AuthSession) (ticket : RealmJoinTicket)
  | permissions
  | continuedSession (authSession : AuthContinuedSession)
  deriving DecidableEq, Repr

inductive OpenState where
  | opened
  | closing
  | closed
  deriving DecidableEq, Repr

inductive ReadDataHandlerResult where
  | Ok
  | Error
  | WaitingForQuery
  deriving DecidableEq, Repr

inductive SocketFault where
  | nullSession
  deriving DecidableEq, Repr

structure WorldSocket where
  openState : OpenState := .opened
  /-- An asynchronous read is under way. -/
  reading : Bool := true
  type : ConnectionType := .REALM
  key : UInt64 := 0
  serverChallenge : Bytes
  sessionKey : Bytes := List.replicate 40 0
  encryptKey : Bytes := List.replicate 32 0
  /-- in nanoseconds, zero is no time -/
  lastPingTime : Int := 0
  overSpeedPings : Nat := 0
  worldSession : Option WorldSession := none
  authed : Bool := false
  queries : List Query := []
  trace : List Effect := []
  deriving DecidableEq, Repr

namespace WorldSocket

variable (c : Surroundings) (s : WorldSocket)

def record (effect : Effect) : WorldSocket := { s with trace := effect :: s.trace }

def closeSocket : WorldSocket :=
  if s.openState = .closed then s else { s with openState := .closed, worldSession := none }

/-- `DelayedCloseSocket`: what is still to be written is written first. -/
def delayedCloseSocket : WorldSocket :=
  if s.openState = .opened then { s with openState := .closing } else s

def asyncRead : WorldSocket := if s.openState = .opened then { s with reading := true } else s

def queueQuery (query : Query) : WorldSocket := { s with queries := s.queries ++ [query] }

/-- `_worldSession->GetPlayerInfo()` -/
def getPlayerInfo : Except SocketFault Unit :=
  if s.worldSession.isSome then .ok () else .error .nullSession

def setWorldSession (session : WorldSession) : WorldSocket :=
  { s with worldSession := some session, authed := true }

/-- `World::ProcessLinkInstanceSocket` (`World.cpp:436-458`), with the session that has the key. -/
def processLinkInstanceSocket (session : Option WorldSession) : WorldSocket :=
  if s.openState ≠ .opened then s
  else
    match session with
    | none => s.delayedCloseSocket
    | some session => s.setWorldSession session

def handleAuthSession (packet : Option AuthSession) :
    Except SocketFault (ReadDataHandlerResult × WorldSocket) :=
  if s.authed then do
    s.getPlayerInfo
    .ok (.Error, s)
  else
    match packet with
    | none => .ok (.Error, s)
    | some authSession =>
      match authSession.realmJoinTicket with
      | none => .ok (.Error, s.delayedCloseSocket)
      | some ticket => .ok (.WaitingForQuery, s.queueQuery (.accountInfo authSession ticket))

def handleAuthContinuedSession (packet : Option AuthContinuedSession) :
    Except SocketFault (ReadDataHandlerResult × WorldSocket) :=
  if s.authed then do
    s.getPlayerInfo
    .ok (.Error, s)
  else
    match packet with
    | none => .ok (.Error, s)
    | some authSession =>
      let s := { s with type := connectionTypeOf authSession.key }
      if s.type ≠ .INSTANCE then .ok (.Error, s.delayedCloseSocket)
      else .ok (.WaitingForQuery, s.queueQuery (.continuedSession authSession))

def handleKeepAlive : ReadDataHandlerResult × WorldSocket :=
  if s.worldSession.isNone then (.Error, s) else (.Ok, s)

def handleRead (content : Option UInt32) : ReadDataHandlerResult × WorldSocket :=
  if content.isNone then (.Error, s) else (.Ok, s)

def handleEnterEncryptedModeAck : ReadDataHandlerResult × WorldSocket :=
  let s := s.record (.initCrypt s.encryptKey)
  if s.type = .REALM then (.Ok, s.record (.addSession s.worldSession))
  else (.Ok, s.record (.addInstanceSocket s.key))

/-- The last part of `HandlePing`: the latency of the session. -/
def setLatency : ReadDataHandlerResult × WorldSocket :=
  if s.worldSession.isSome then (.Ok, s) else (.Error, s)

def handlePing (now : Int) (latency : Option UInt32) :
    Except SocketFault (ReadDataHandlerResult × WorldSocket) :=
  if latency.isNone then .ok (.Error, s)
  else
    let lastPingTime := s.lastPingTime
    let s := { s with lastPingTime := now }
    if lastPingTime = 0 then .ok s.setLatency
    else if now - lastPingTime < 27 * 10 ^ 9 then
      let s := { s with overSpeedPings := s.overSpeedPings + 1 }
      if c.maxOverspeedPings ≠ 0 ∧ s.overSpeedPings > c.maxOverspeedPings ∧
          s.worldSession.any c.skipsOverspeedPings = false then do
        s.getPlayerInfo
        .ok (.Error, s)
      else .ok s.setLatency
    else .ok { s with overSpeedPings := 0 }.setLatency

/-- The packets that are queued for the session. -/
def handleOther (opcode : UInt32) : Except SocketFault (ReadDataHandlerResult × WorldSocket) :=
  if s.worldSession.isNone then .ok (.Error, s)
  else if !c.hasHandler opcode then do
    s.getPlayerInfo
    .ok (.Ok, s)
  else .ok (.Ok, s)

def readDataHandler : ClientPacket → Except SocketFault (ReadDataHandlerResult × WorldSocket)
  | .invalid => .ok (.Error, s)
  | .ping now latency => s.handlePing c now latency
  | .authSession packet => s.handleAuthSession packet
  | .authContinuedSession packet => s.handleAuthContinuedSession packet
  | .keepAlive => .ok s.handleKeepAlive
  | .logDisconnect reason => .ok (s.handleRead reason)
  | .enableNagle => .ok (.Ok, s)
  | .connectToFailed serial => .ok (s.handleRead serial)
  | .enterEncryptedModeAck => .ok s.handleEnterEncryptedModeAck
  | .other opcode => s.handleOther c opcode

/-- One packet of `ReadHandler`. -/
def readPacket (packet : ClientPacket) : Except SocketFault WorldSocket :=
  if s.openState = .opened ∧ s.reading = true then do
    let (result, s) ← s.readDataHandler c packet
    match result with
    | .Ok => .ok s
    | .Error => .ok { s with reading := false }.closeSocket
    | .WaitingForQuery => .ok { s with reading := false }
  else .ok s

/-- The digest that a client has to send with its authentication. -/
def expectedDigest (account : AccountInfo) (authKey : AuthKey) (authSession : AuthSession) : Bytes :=
  c.hmacSha512 (c.sha512 (account.keyData ++ authKey.key))
    (authSession.localChallenge ++ s.serverChallenge ++ c.authCheckSeed)

def encryptKeyOf (sessionKey localChallenge : Bytes) : Bytes :=
  (c.hmacSha512 sessionKey (localChallenge ++ s.serverChallenge ++ c.encryptionKeySeed)).take 32

/-- The refusals after the digest is verified. -/
def isRefused (authSession : AuthSession) (account : AccountInfo) (answer : Answer) : Bool :=
  answer.isClosed || authSession.realmId ≠ answer.realmId ||
    (if account.isLockedToIP then account.lastIP ≠ c.address
    else account.lockCountry ≠ "" && account.lockCountry ≠ "00" && answer.ipCountry ≠ "" &&
      account.lockCountry ≠ answer.ipCountry) ||
    account.isBanned ||
    (answer.playerSecurityLimit > 0 && account.security < answer.playerSecurityLimit)

def handleAuthSessionCallback (authSession : AuthSession) (ticket : RealmJoinTicket)
    (answer : Answer) : WorldSocket :=
  match answer.account with
  | none => s.delayedCloseSocket
  | some account =>
    match c.authKeys account.build with
    | none => s.delayedCloseSocket
    | some authKeys =>
      match authKeys.find? fun authKey => authKey.platform = ticket.platform ∧
          authKey.arch = ticket.clientarch ∧ authKey.type = ticket.type with
      | none => s.delayedCloseSocket
      | some authKey =>
        if (s.expectedDigest c account authKey authSession).take DigestLength ≠
            authSession.digest then s.delayedCloseSocket
        else
          let sessionKey := c.generateSessionKey (c.hmacSha512 (c.sha512 account.keyData)
            (s.serverChallenge ++ authSession.localChallenge ++ c.sessionKeySeed))
          let encryptKey := s.encryptKeyOf c sessionKey authSession.localChallenge
          let s := { s with sessionKey, encryptKey }
          if isRefused c authSession account answer then s.delayedCloseSocket
          else
            let session : WorldSession := ⟨account.id, ticket.gameaccount, account.security⟩
            let s := { s with authed := true, worldSession := some session }
            ((s.record (.authenticated (.session session encryptKey))).queueQuery
              .permissions).asyncRead

def loadSessionPermissionsCallback : Except SocketFault WorldSocket := do
  s.getPlayerInfo
  .ok (s.record (.enterEncryptedMode s.encryptKey))

def handleAuthContinuedSessionCallback (authSession : AuthContinuedSession) (answer : Answer) :
    WorldSocket :=
  match answer.sessionKey with
  | none => s.delayedCloseSocket
  | some sessionKey =>
    let s := { s with key := authSession.key, sessionKey }
    if (c.hmacSha512 sessionKey (c.keyBytes authSession.key ++ authSession.localChallenge ++
        s.serverChallenge ++ c.continuedSessionSeed)).take DigestLength ≠
        authSession.digest then s.delayedCloseSocket
    else
      let encryptKey := s.encryptKeyOf c sessionKey authSession.localChallenge
      let s := { s with encryptKey }
      ((s.record (.authenticated (.continued authSession.key encryptKey))).record
        (.enterEncryptedMode encryptKey)).asyncRead

def invoke (query : Query) (answer : Answer) : Except SocketFault WorldSocket :=
  match query with
  | .accountInfo authSession ticket => .ok (s.handleAuthSessionCallback c authSession ticket answer)
  | .permissions => s.loadSessionPermissionsCallback
  | .continuedSession authSession => .ok (s.handleAuthContinuedSessionCallback c authSession answer)

/-- `ProcessReadyCallbacks`, with an answer for each query that is ready. -/
def processReadyCallbacks (answers : List (Option Answer)) : Except SocketFault WorldSocket := do
  let pending := s.queries.zip answers
  let left := (pending.filter (·.2.isNone)).map Prod.fst ++ s.queries.drop answers.length
  let s ← pending.foldlM (fun s (query, answer) => match answer with
    | some answer => s.invoke c query answer
    | none => .ok s) { s with queries := [] }
  .ok { s with queries := s.queries ++ left }

/-- `Update`, in which the rest of what is to be written may be flushed. -/
def update (flushed : Bool) (answers : List (Option Answer)) : Except SocketFault WorldSocket :=
  if s.openState = .closed then .ok s
  else if s.openState = .closing ∧ flushed = true then
    s.closeSocket.processReadyCallbacks c answers
  else s.processReadyCallbacks c answers

end WorldSocket

end LegionServer.Source.Handshake
