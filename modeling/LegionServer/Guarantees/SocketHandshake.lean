import LegionServer.Library.Outcome
import LegionServer.Library.Transition
import LegionServer.Source.Handshake.WorldSocket

/-!
# The handshake

The acknowledgement of the encrypted mode has no check of its own: what it does to the
world is as the handshake wants it just where the client sends it once, and after the last
authentication. A socket whose link is refused may be closed by the update that then goes on with
its queries.
-/
namespace LegionServer.Guarantees.SocketHandshake
open Library Source.Handshake List Option Bool

variable {c : Surroundings} {s s' : WorldSocket} {trace : List Effect} {session : WorldSession}

def isContinued : Effect → Bool
  | .authenticated (.continued _ _) => true
  | _ => false

def isInitCrypt : Effect → Bool
  | .initCrypt _ => true
  | _ => false

def isAddSession : Effect → Bool
  | .addSession _ => true
  | _ => false

def isAddInstanceSocket : Effect → Bool
  | .addInstanceSocket _ => true
  | _ => false

def keyOf : Exchange → Bytes
  | .session _ encryptKey => encryptKey
  | .continued _ encryptKey => encryptKey

/-- The last authentication of a trace, and whether `EnterEncryptedMode` was sent after it. -/
def lastExchange : List Effect → Option (Exchange × Bool)
  | [] => none
  | .authenticated exchange :: _ => some (exchange, false)
  | .enterEncryptedMode _ :: trace =>
    (lastExchange trace).map fun (exchange, _) => (exchange, true)
  | _ :: trace => lastExchange trace

/-- What the handshake allows after what came before. -/
def Allowed (earlier : List Effect) : Effect → Prop
  | .initCrypt encryptKey => ∃ exchange sent,
    lastExchange earlier = some (exchange, sent) ∧ keyOf exchange = encryptKey
  | .addSession session => ∃ created encryptKey, session = some created ∧
    lastExchange earlier = some (.session created encryptKey, true) ∧
      earlier.any isAddSession = false
  | .addInstanceSocket key => ∃ encryptKey sent,
    lastExchange earlier = some (.continued key encryptKey, sent) ∧
      earlier.any isAddInstanceSocket = false
  | _ => True

def Safe : List Effect → Prop
  | [] => True
  | effect :: earlier => Allowed earlier effect ∧ Safe earlier

/-- A packet of the client, an update of the socket, the end of the connection, and what the world
does with the link of the socket: the session it finds, or none. -/
inductive Label where
  | packet (packet : ClientPacket)
  | update (flushed : Bool) (answers : List (Option Answer))
  | close
  | link (session : Option WorldSession)

def run (c : Surroundings) (s : WorldSocket) : Label → Except SocketFault WorldSocket
  | .packet packet => s.readPacket c packet
  | .update flushed answers => s.update c flushed answers
  | .close => .ok s.closeSocket
  | .link session =>
    if s.trace.any isAddInstanceSocket then .ok (s.processLinkInstanceSocket session) else .ok s

def handshake (c : Surroundings) : System WorldSocket Label where
  init s := ∃ serverChallenge, s = { serverChallenge }
  step l s s' := run c s l = .ok s'

/-- The acknowledgement is read once, after `EnterEncryptedMode` was sent for the last
authentication, and that is no new session on a connection that was continued before. The update
that writes the last of a closing socket finds no permissions. -/
def Proper (l : Label) (s : WorldSocket) : Prop :=
  match l with
  | .packet .enterEncryptedModeAck => s.openState = .opened ∧ s.reading = true →
    s.trace.any isInitCrypt = false ∧ ∃ exchange, lastExchange s.trace = some (exchange, true) ∧
      ((∃ key encryptKey, exchange = .continued key encryptKey) ∨ s.trace.any isContinued = false)
  | .update flushed answers => s.openState = .closing ∧ flushed = true →
    ∀ answer, (.permissions, some answer) ∉ s.queries.zip answers
  | _ => True

variable {l : Label}

/-- The query that an open socket waits for. -/
inductive Waits (s : WorldSocket) : Prop
  | none (h : s.queries = [])
  | account (authSession : AuthSession) (ticket : RealmJoinTicket)
      (h : s.queries = [.accountInfo authSession ticket]) (hreading : s.reading = false)
  | continued (authSession : AuthContinuedSession)
      (h : s.queries = [.continuedSession authSession]) (hreading : s.reading = false)
      (htype : s.type = .INSTANCE) (hadded : s.trace.any isAddSession = false)
  | permissions (h : s.queries = [.permissions]) (hauthed : s.authed = true)

theorem Waits.of_eq (h : Waits s) (hqueries : s'.queries = s.queries)
    (hreading : s'.reading = s.reading) (hauthed : s.authed = true → s'.authed = true)
    (htype : s'.type = s.type)
    (hadded : s.reading = false → s'.trace.any isAddSession = s.trace.any isAddSession) :
    Waits s' := by
  cases h with
  | none h => exact .none (hqueries.trans h)
  | account authSession ticket h hr =>
    exact .account authSession ticket (hqueries.trans h) (hreading.trans hr)
  | continued authSession h hr ht ha =>
    exact .continued authSession (hqueries.trans h) (hreading.trans hr) (htype.trans ht)
      ((hadded hr).trans ha)
  | permissions h ha => exact .permissions (hqueries.trans h) (hauthed ha)

/-- The last authentication is the one whose key and session the socket has. -/
def Matches (s : WorldSocket) : Exchange × Bool → Prop
  | (.session session encryptKey, _) => encryptKey = s.encryptKey ∧
    (s.trace.any isInitCrypt = false → s.worldSession = some session)
  | (.continued key encryptKey, sent) => encryptKey = s.encryptKey ∧ key = s.key ∧ sent = true

structure Opened (s : WorldSocket) : Prop where
  authed : s.authed = s.worldSession.isSome
  waits : Waits s
  type : (∀ authSession, s.queries ≠ [.continuedSession authSession]) →
    (s.type = .INSTANCE ↔ s.trace.any isContinued = true)
  exchange : ∀ last, lastExchange s.trace = some last → Matches s last
  acknowledged : s.trace.any isInitCrypt = true →
    if s.trace.any isContinued then s.trace.any isAddInstanceSocket = true
    else s.trace.any isAddSession = true
  added : s.trace.any isAddSession = true ∨ s.trace.any isAddInstanceSocket = true →
    s.trace.any isInitCrypt = true
  session : s.trace.any isAddSession = true → s.authed = true
  pinged : s.worldSession = none → s.lastPingTime = 0

/-- The query that a socket which is not open has left. -/
def Pending (s : WorldSocket) : Prop :=
  s.queries = [] ∨ ∃ query, s.queries = [query] ∧
    (query = .permissions → s.worldSession.isSome = true)

structure Ordered (s : WorldSocket) : Prop where
  safe : Safe s.trace
  opened : s.openState = .opened → Opened s
  closing : s.openState = .closing → Pending s

theorem ordered_closeSocket (h : Safe s.trace) : Ordered s.closeSocket := by
  rw [WorldSocket.closeSocket]
  split
  · rename_i hclosed
    exact ⟨h, fun hopen => absurd (hclosed.symm.trans hopen) nofun,
      fun hclosing => absurd (hclosed.symm.trans hclosing) nofun⟩
  · exact ⟨h, nofun, nofun⟩

def Handled : ReadDataHandlerResult × WorldSocket → Prop
  | (.Ok, s) => s.openState = .opened ∧ Opened s
  | (.Error, _) => True
  | (.WaitingForQuery, s) => s.openState = .opened ∧ Opened { s with reading := false }

theorem getPlayerInfo_some (h : s.worldSession.isSome = true) : s.getPlayerInfo = .ok () := by
  rw [WorldSocket.getPlayerInfo, if_pos h]

theorem trace_delayedCloseSocket (s : WorldSocket) : s.delayedCloseSocket.trace = s.trace := by
  rw [WorldSocket.delayedCloseSocket]
  split
  · rfl
  · rfl

section
variable (h : Opened s)
include h

/-- A socket that reads and is not authenticated waits for no query. -/
theorem Opened.queries_nil (hreading : s.reading = true) (hauthed : s.authed = false) :
    s.queries = [] := by
  cases h.waits with
  | none hnil => exact hnil
  | account _ _ _ hnot => exact absurd (hreading.symm.trans hnot) nofun
  | continued _ _ hnot _ _ => exact absurd (hreading.symm.trans hnot) nofun
  | permissions _ hyes => exact absurd (hauthed.symm.trans hyes) nofun

theorem Opened.type_iff (hreading : s.reading = true) :
    s.type = .INSTANCE ↔ s.trace.any isContinued = true := by
  refine h.type fun authSession hqueries => ?_
  cases h.waits with
  | none hnil => rw [hnil] at hqueries; cases hqueries
  | account _ _ _ hnot => exact absurd (hreading.symm.trans hnot) nofun
  | continued _ _ hnot _ _ => exact absurd (hreading.symm.trans hnot) nofun
  | permissions hyes _ => rw [hyes] at hqueries; cases hqueries

theorem handled_handleAuthSession (hopen : s.openState = .opened) (hreading : s.reading = true)
    (packet : Option AuthSession) :
    Ends (fun _ => False) (s.handleAuthSession packet) fun r =>
      Handled r ∧ r.2.trace = s.trace := by
  unfold WorldSocket.handleAuthSession
  split
  · rename_i hauthed
    rw [getPlayerInfo_some (h.authed ▸ hauthed)]
    exact ⟨trivial, rfl⟩
  · rename_i hauthed
    rw [not_eq_true] at hauthed
    have hnil := h.queries_nil hreading hauthed
    split
    · exact ⟨trivial, rfl⟩
    rename_i authSession
    split
    · exact ⟨trivial, trace_delayedCloseSocket s⟩
    rename_i ticket _
    have hqueries : (s.queueQuery (.accountInfo authSession ticket)).queries =
        [.accountInfo authSession ticket] := by
      rw [WorldSocket.queueQuery, hnil]
      rfl
    refine ⟨⟨hopen, h.authed, .account authSession ticket hqueries rfl, fun _ => ?_,
      h.exchange, h.acknowledged, h.added, h.session, h.pinged⟩, rfl⟩
    exact h.type_iff hreading

theorem handled_handleAuthContinuedSession (hopen : s.openState = .opened)
    (hreading : s.reading = true) (packet : Option AuthContinuedSession) :
    Ends (fun _ => False) (s.handleAuthContinuedSession packet) fun r =>
      Handled r ∧ r.2.trace = s.trace := by
  unfold WorldSocket.handleAuthContinuedSession
  split
  · rename_i hauthed
    rw [getPlayerInfo_some (h.authed ▸ hauthed)]
    exact ⟨trivial, rfl⟩
  · rename_i hauthed
    rw [not_eq_true] at hauthed
    have hnil := h.queries_nil hreading hauthed
    split
    · exact ⟨trivial, rfl⟩
    rename_i authSession
    dsimp only
    split
    · exact ⟨trivial, trace_delayedCloseSocket _⟩
    rename_i htype
    have hqueries : (s.queueQuery (.continuedSession authSession)).queries =
        [.continuedSession authSession] := by
      rw [WorldSocket.queueQuery, hnil]
      rfl
    have hadded : s.trace.any isAddSession = false := by
      rw [← not_eq_true]
      exact fun hadded => absurd (hauthed.symm.trans (h.session hadded)) nofun
    refine ⟨⟨hopen, h.authed, .continued authSession hqueries rfl
      (Decidable.not_not.mp htype) hadded, fun hother => absurd hqueries (hother authSession),
      h.exchange, h.acknowledged, h.added, h.session, h.pinged⟩, rfl⟩

theorem Opened.pending : Pending s := by
  cases h.waits with
  | none hnil => exact .inl hnil
  | account authSession ticket hqueries => exact .inr ⟨_, hqueries, nofun⟩
  | continued authSession hqueries => exact .inr ⟨_, hqueries, nofun⟩
  | permissions hqueries hauthed => exact .inr ⟨_, hqueries, fun _ => h.authed ▸ hauthed⟩

theorem Opened.ping (hsession : s.worldSession.isSome = true) (now : Int) (n : Nat) :
    Opened { s with lastPingTime := now, overSpeedPings := n } := by
  refine ⟨h.authed, h.waits.of_eq rfl rfl id rfl fun _ => rfl, h.type, h.exchange, h.acknowledged, h.added,
    h.session, fun hnone => ?_⟩
  rw [isSome_iff_ne_none] at hsession
  exact absurd hnone hsession

theorem handled_setLatency (hopen : s.openState = .opened) (now : Int) (n : Nat) :
    Handled ({ s with lastPingTime := now, overSpeedPings := n } : WorldSocket).setLatency ∧
      ({ s with lastPingTime := now, overSpeedPings := n } : WorldSocket).setLatency.2.trace =
        s.trace := by
  rw [WorldSocket.setLatency]
  split
  · rename_i hsession
    exact ⟨⟨hopen, h.ping hsession now n⟩, rfl⟩
  · exact ⟨trivial, rfl⟩

theorem handled_handlePing (hopen : s.openState = .opened) (now : Int) (latency : Option UInt32) :
    Ends (fun _ => False) (s.handlePing c now latency) fun r =>
      Handled r ∧ r.2.trace = s.trace := by
  unfold WorldSocket.handlePing
  split
  · exact ⟨trivial, rfl⟩
  dsimp only
  split
  · exact handled_setLatency h hopen now s.overSpeedPings
  rename_i hpinged
  have hsession : s.worldSession.isSome = true := by
    rw [isSome_iff_ne_none]
    exact fun hnone => hpinged (h.pinged hnone)
  split
  · split
    · exact Ends.bind_ok (getPlayerInfo_some hsession) ⟨trivial, rfl⟩
    · exact handled_setLatency h hopen now (s.overSpeedPings + 1)
  · exact handled_setLatency h hopen now 0

theorem handled_handleOther (hopen : s.openState = .opened) (opcode : UInt32) :
    Ends (fun _ => False) (s.handleOther c opcode) fun r => Handled r ∧ r.2.trace = s.trace := by
  unfold WorldSocket.handleOther
  split
  · exact ⟨trivial, rfl⟩
  rename_i hsession
  rw [isNone_iff_eq_none, ← ne_eq, ← isSome_iff_ne_none] at hsession
  split
  · rw [getPlayerInfo_some hsession]
    exact ⟨⟨hopen, h⟩, rfl⟩
  · exact ⟨⟨hopen, h⟩, rfl⟩

theorem handled_handleRead (hopen : s.openState = .opened) (content : Option UInt32) :
    Handled (s.handleRead content) ∧ (s.handleRead content).2.trace = s.trace := by
  rw [WorldSocket.handleRead]
  split
  · exact ⟨trivial, rfl⟩
  · exact ⟨⟨hopen, h⟩, rfl⟩

theorem handled_handleKeepAlive (hopen : s.openState = .opened) :
    Handled s.handleKeepAlive ∧ s.handleKeepAlive.2.trace = s.trace := by
  rw [WorldSocket.handleKeepAlive]
  split
  · exact ⟨trivial, rfl⟩
  · exact ⟨⟨hopen, h⟩, rfl⟩

theorem handled_readDataHandler (hopen : s.openState = .opened) (hreading : s.reading = true)
    {packet : ClientPacket} (hother : packet ≠ .enterEncryptedModeAck) :
    Ends (fun _ => False) (s.readDataHandler c packet) fun r =>
      Handled r ∧ r.2.trace = s.trace := by
  cases packet with
  | invalid => exact ⟨trivial, rfl⟩
  | ping now latency => exact handled_handlePing h hopen now latency
  | authSession packet => exact handled_handleAuthSession h hopen hreading packet
  | authContinuedSession packet => exact handled_handleAuthContinuedSession h hopen hreading packet
  | keepAlive => exact handled_handleKeepAlive h hopen
  | logDisconnect reason => exact handled_handleRead h hopen reason
  | enableNagle => exact ⟨⟨hopen, h⟩, rfl⟩
  | connectToFailed serial => exact handled_handleRead h hopen serial
  | enterEncryptedModeAck => exact absurd rfl hother
  | other opcode => exact handled_handleOther h hopen opcode

end

def afterAck (s : WorldSocket) : WorldSocket := s.handleEnterEncryptedModeAck.2

theorem afterAck_realm (htype : s.type = .REALM) : afterAck s =
    { s with trace := .addSession s.worldSession :: .initCrypt s.encryptKey :: s.trace } := by
  simp only [afterAck, WorldSocket.handleEnterEncryptedModeAck, WorldSocket.record, htype, if_true]

theorem afterAck_instance (htype : s.type = .INSTANCE) : afterAck s =
    { s with trace := .addInstanceSocket s.key :: .initCrypt s.encryptKey :: s.trace } := by
  simp only [afterAck, WorldSocket.handleEnterEncryptedModeAck, WorldSocket.record, htype,
    reduceCtorEq, if_false]

theorem handleEnterEncryptedModeAck_eq : s.handleEnterEncryptedModeAck = (.Ok, afterAck s) := by
  rw [afterAck, WorldSocket.handleEnterEncryptedModeAck]
  cases htype : s.type with
  | REALM => simp only [WorldSocket.record, htype, if_true]
  | INSTANCE => simp only [WorldSocket.record, htype, reduceCtorEq, if_false]

theorem openState_afterAck : (afterAck s).openState = s.openState := by
  cases htype : s.type with
  | REALM => rw [afterAck_realm htype]
  | INSTANCE => rw [afterAck_instance htype]

theorem any_of_lastExchange {key : UInt64} {encryptKey : Bytes} {sent : Bool}
    (h : lastExchange trace = some (.continued key encryptKey, sent)) :
    trace.any isContinued = true := by
  induction trace generalizing sent with
  | nil => cases h
  | cons effect trace ih =>
    rw [any_cons, or_eq_true]
    cases effect with
    | authenticated exchange =>
      cases h
      exact .inl rfl
    | enterEncryptedMode encryptKey =>
      rw [lastExchange, map_eq_some_iff] at h
      obtain ⟨⟨exchange, sent'⟩, hlast, heq⟩ := h
      cases heq
      exact .inr (ih hlast)
    | initCrypt encryptKey => exact .inr (ih h)
    | addSession session => exact .inr (ih h)
    | addInstanceSocket key => exact .inr (ih h)

theorem safe_afterAck_realm (h : Opened s) (hsafe : Safe s.trace)
    (hcontinued : s.trace.any isContinued = false) :
    Safe (.addSession s.worldSession :: .initCrypt s.encryptKey :: s.trace) ↔
      s.trace.any isInitCrypt = false ∧
        ∃ session encryptKey, lastExchange s.trace = some (.session session encryptKey, true) := by
  constructor
  · rintro ⟨⟨session, encryptKey, -, hlast, hnone⟩, -⟩
    refine ⟨?_, session, encryptKey, hlast⟩
    rw [← not_eq_true]
    intro hacked
    have hadded := h.acknowledged hacked
    rw [hcontinued, if_neg Bool.false_ne_true] at hadded
    exact absurd (hadded.symm.trans hnone) nofun
  · rintro ⟨hfirst, session, encryptKey, hlast⟩
    obtain ⟨hkey, hsession⟩ := h.exchange _ hlast
    refine ⟨⟨session, encryptKey, hsession hfirst, hlast, ?_⟩, ⟨_, _, hlast, hkey⟩, hsafe⟩
    rw [← not_eq_true]
    exact fun hadded => absurd (hfirst.symm.trans (h.added (.inl hadded))) nofun

theorem safe_afterAck_instance (h : Opened s) (hsafe : Safe s.trace)
    (hcontinued : s.trace.any isContinued = true) :
    Safe (.addInstanceSocket s.key :: .initCrypt s.encryptKey :: s.trace) ↔
      s.trace.any isInitCrypt = false ∧
        ∃ key encryptKey, lastExchange s.trace = some (.continued key encryptKey, true) := by
  constructor
  · rintro ⟨⟨encryptKey, sent, hlast, hnone⟩, -⟩
    obtain ⟨-, -, rfl⟩ := h.exchange _ hlast
    refine ⟨?_, s.key, encryptKey, hlast⟩
    rw [← not_eq_true]
    intro hacked
    have hadded := h.acknowledged hacked
    rw [hcontinued, if_pos rfl] at hadded
    exact absurd (hadded.symm.trans hnone) nofun
  · rintro ⟨hfirst, key, encryptKey, hlast⟩
    obtain ⟨hencrypt, rfl, -⟩ := h.exchange _ hlast
    refine ⟨⟨encryptKey, true, hlast, ?_⟩, ⟨_, _, hlast, hencrypt⟩, hsafe⟩
    rw [← not_eq_true]
    exact fun hadded => absurd (hfirst.symm.trans (h.added (.inr hadded))) nofun

theorem safe_afterAck (h : Opened s) (hsafe : Safe s.trace) (hreading : s.reading = true) :
    Safe (afterAck s).trace ↔ s.trace.any isInitCrypt = false ∧
      ∃ exchange, lastExchange s.trace = some (exchange, true) ∧
        ((∃ key encryptKey, exchange = .continued key encryptKey) ∨
          s.trace.any isContinued = false) := by
  cases htype : s.type with
  | REALM =>
    have hcontinued : s.trace.any isContinued = false := by
      rw [← not_eq_true, ← h.type_iff hreading, htype]
      exact nofun
    rw [afterAck_realm htype, safe_afterAck_realm h hsafe hcontinued]
    refine and_congr_right fun _ => ⟨?_, ?_⟩
    · rintro ⟨session, encryptKey, hlast⟩
      exact ⟨_, hlast, .inr hcontinued⟩
    · rintro ⟨exchange, hlast, -⟩
      cases exchange with
      | session session encryptKey => exact ⟨session, encryptKey, hlast⟩
      | continued key encryptKey =>
        exact absurd (hcontinued.symm.trans (any_of_lastExchange hlast)) nofun
  | INSTANCE =>
    have hcontinued := (h.type_iff hreading).mp htype
    rw [afterAck_instance htype, safe_afterAck_instance h hsafe hcontinued]
    refine and_congr_right fun _ => ⟨?_, ?_⟩
    · rintro ⟨key, encryptKey, hlast⟩
      exact ⟨_, hlast, .inl ⟨key, encryptKey, rfl⟩⟩
    · rintro ⟨exchange, hlast, ⟨key, encryptKey, rfl⟩ | hnot⟩
      · exact ⟨key, encryptKey, hlast⟩
      · exact absurd (hcontinued.symm.trans hnot) nofun

theorem opened_afterAck (h : Opened s) (hreading : s.reading = true)
    (hsafe : Safe (afterAck s).trace) : Opened (afterAck s) := by
  have hread : s.reading = false → ∀ effects : List Effect, effects.any isAddSession =
      s.trace.any isAddSession := fun hnot => absurd (hreading.symm.trans hnot) nofun
  have hkept : ∀ last, lastExchange s.trace = some last → ∀ effects : List Effect,
      effects.any isInitCrypt = true → Matches { s with trace := effects } last := by
    rintro ⟨exchange, sent⟩ hlast effects hacked
    have hmatches := h.exchange _ hlast
    cases exchange with
    | session session encryptKey =>
      exact ⟨hmatches.1, fun hnot => absurd (hacked.symm.trans hnot) nofun⟩
    | continued key encryptKey => exact hmatches
  cases htype : s.type with
  | REALM =>
    have hcontinued : s.trace.any isContinued = false := by
      rw [← not_eq_true, ← h.type_iff hreading, htype]
      exact nofun
    rw [afterAck_realm htype] at hsafe ⊢
    obtain ⟨⟨session, -, hsession, -, -⟩, -⟩ := hsafe
    refine ⟨h.authed, h.waits.of_eq rfl rfl id rfl fun hnot => hread hnot _, h.type,
      fun last hlast => hkept last hlast _ rfl, fun _ => ?_,
      fun _ => rfl, fun _ => ?_, h.pinged⟩
    · change if s.trace.any isContinued = true then _ else _
      rw [hcontinued, if_neg Bool.false_ne_true]
      rfl
    · change s.authed = true
      rw [h.authed, hsession]
      rfl
  | INSTANCE =>
    have hcontinued := (h.type_iff hreading).mp htype
    rw [afterAck_instance htype]
    refine ⟨h.authed, h.waits.of_eq rfl rfl id rfl fun hnot => hread hnot _, h.type,
      fun last hlast => hkept last hlast _ rfl, fun _ => ?_,
      fun _ => rfl, h.session, h.pinged⟩
    · change if s.trace.any isContinued = true then _ else _
      rw [if_pos hcontinued]
      rfl

theorem ordered_readPacket (h : Ordered s) (packet : ClientPacket)
    (hproper : Proper (.packet packet) s) :
    Ends (fun _ => False) (s.readPacket c packet) Ordered := by
  rw [WorldSocket.readPacket]
  split
  · rename_i hreads
    obtain ⟨hopen, hreading⟩ := hreads
    have hs := h.opened hopen
    by_cases hack : packet = .enterEncryptedModeAck
    · subst hack
      have hsafe := (safe_afterAck hs h.safe hreading).mpr (hproper ⟨hopen, hreading⟩)
      have hopen' := openState_afterAck.trans hopen
      rw [WorldSocket.readDataHandler, handleEnterEncryptedModeAck_eq]
      exact ⟨hsafe, fun _ => opened_afterAck hs hreading hsafe,
        fun hclosing => absurd (hopen'.symm.trans hclosing) nofun⟩
    · refine (handled_readDataHandler hs hopen hreading hack).bind ?_
      rintro ⟨result, s'⟩ ⟨hhandled, htrace⟩
      have hsafe : Safe s'.trace := htrace ▸ h.safe
      cases result with
      | Ok =>
        exact ⟨hsafe, fun _ => hhandled.2,
          fun hclosing => absurd (hhandled.1.symm.trans hclosing) nofun⟩
      | Error => exact ordered_closeSocket hsafe
      | WaitingForQuery =>
        exact ⟨hsafe, fun _ => hhandled.2,
          fun hclosing => absurd (hhandled.1.symm.trans hclosing) nofun⟩
  · exact h

theorem processReadyCallbacks_single {query : Query} (hqueries : s.queries = [query])
    (answers : List (Option Answer)) :
    (s.processReadyCallbacks c answers = .ok s ∧
      ∀ answer, (query, some answer) ∉ s.queries.zip answers) ∨
    ∃ answer, (query, some answer) ∈ s.queries.zip answers ∧ s.processReadyCallbacks c answers =
      ({ s with queries := [] } : WorldSocket).invoke c query answer := by
  have hsame : ({ s with queries := [query] } : WorldSocket) = s := by rw [← hqueries]
  rw [WorldSocket.processReadyCallbacks, hqueries]
  cases answers with
  | nil =>
    refine .inl ⟨?_, fun _ => not_mem_nil⟩
    exact congrArg Except.ok hsame
  | cons answer answers =>
    rw [zip_cons_cons, zip_nil_left, length_cons, drop_succ_cons, drop_nil]
    cases answer with
    | none =>
      refine .inl ⟨congrArg Except.ok hsame, fun answer hmem => ?_⟩
      cases mem_singleton.mp hmem
    | some answer =>
      refine .inr ⟨answer, mem_cons_self, ?_⟩
      change (({ s with queries := [] } : WorldSocket).invoke c query answer >>= fun s' =>
        Except.ok s') >>= (fun s' => .ok { s' with queries := s'.queries ++ [] }) = _
      cases ({ s with queries := [] } : WorldSocket).invoke c query answer with
      | error fault => rfl
      | ok s' => exact congrArg Except.ok (by rw [append_nil])

theorem processReadyCallbacks_nil (hqueries : s.queries = []) (answers : List (Option Answer)) :
    s.processReadyCallbacks c answers = .ok s := by
  have hsame : ({ s with queries := [] } : WorldSocket) = s := by rw [← hqueries]
  rw [WorldSocket.processReadyCallbacks, hqueries, zip_nil_left]
  change Except.ok { s with queries := [] ++ ([] ++ [].drop answers.length) } = _
  rw [drop_nil, append_nil, append_nil, hsame]

theorem ordered_delayedCloseSocket (h : Safe s.trace) (hopen : s.openState = .opened)
    (hpending : Pending s) : Ordered s.delayedCloseSocket := by
  rw [WorldSocket.delayedCloseSocket, if_pos hopen]
  exact ⟨h, nofun, fun _ => hpending⟩

theorem asyncRead_opened (hopen : s.openState = .opened) :
    s.asyncRead = { s with reading := true } := by
  rw [WorldSocket.asyncRead, if_pos hopen]

variable {authSession : AuthSession} {ticket : RealmJoinTicket}

theorem opened_authenticated (h : Opened s)
    (hqueries : s.queries = [.accountInfo authSession ticket]) (session : WorldSession)
    (sessionKey encryptKey : Bytes) :
    Opened { s with
      sessionKey, encryptKey, authed := true, worldSession := some session, reading := true
      queries := [.permissions]
      trace := .authenticated (.session session encryptKey) :: s.trace } := by
  have htype := h.type fun other heq => by
    rw [hqueries] at heq
    cases heq
  refine ⟨rfl, .permissions rfl rfl, fun _ => htype, ?_, h.acknowledged, h.added, fun _ => rfl,
    nofun⟩
  intro last hlast
  cases hlast
  exact ⟨rfl, fun _ => rfl⟩

theorem ordered_handleAuthSessionCallback (h : Ordered s) (hopen : s.openState = .opened)
    (hqueries : s.queries = [.accountInfo authSession ticket]) (answer : Answer) :
    Ordered (({ s with queries := [] } : WorldSocket).handleAuthSessionCallback
      c authSession ticket answer) := by
  have hrefused : Ordered ({ s with queries := [] } : WorldSocket).delayedCloseSocket :=
    ordered_delayedCloseSocket h.safe hopen (.inl rfl)
  unfold WorldSocket.handleAuthSessionCallback
  split
  · exact hrefused
  split
  · exact hrefused
  split
  · exact hrefused
  split
  · exact hrefused
  split
  · exact ordered_delayedCloseSocket h.safe hopen (.inl rfl)
  · rw [asyncRead_opened (by exact hopen)]
    exact ⟨⟨trivial, h.safe⟩, fun _ => opened_authenticated (h.opened hopen) hqueries _ _ _,
      fun hclosing => absurd (hopen.symm.trans hclosing) nofun⟩

theorem opened_permissions (h : Opened s) (hqueries : s.queries = [.permissions]) :
    Opened { s with queries := [], trace := .enterEncryptedMode s.encryptKey :: s.trace } := by
  have htype := h.type fun other heq => by
    rw [hqueries] at heq
    cases heq
  refine ⟨h.authed, .none rfl, fun _ => htype, ?_, h.acknowledged, h.added, h.session, h.pinged⟩
  intro last hlast
  rw [lastExchange, map_eq_some_iff] at hlast
  obtain ⟨⟨exchange, sent⟩, hlast, rfl⟩ := hlast
  have hmatches := h.exchange _ hlast
  cases exchange with
  | session session encryptKey => exact hmatches
  | continued key encryptKey => exact ⟨hmatches.1, hmatches.2.1, rfl⟩

theorem ordered_loadSessionPermissionsCallback (h : Ordered s) (hopen : s.openState = .opened)
    (hqueries : s.queries = [.permissions]) (hauthed : s.authed = true) :
    Ends (fun _ => False)
      ({ s with queries := [] } : WorldSocket).loadSessionPermissionsCallback Ordered := by
  have hs := h.opened hopen
  have hopened := opened_permissions hs hqueries
  refine Ends.bind_ok (getPlayerInfo_some (hs.authed ▸ hauthed)) ?_
  exact ⟨⟨trivial, h.safe⟩, fun _ => hopened,
    fun hclosing => absurd (hopen.symm.trans hclosing) nofun⟩

theorem opened_continued (h : Opened s) (htype : s.type = .INSTANCE)
    (hnone : s.trace.any isAddSession = false)
    (key : UInt64) (sessionKey encryptKey : Bytes) :
    Opened { s with
      key, sessionKey, encryptKey, reading := true, queries := []
      trace := .enterEncryptedMode encryptKey ::
        .authenticated (.continued key encryptKey) :: s.trace } := by
  refine ⟨h.authed, .none rfl, fun _ => ⟨fun _ => rfl, fun _ => htype⟩, ?_, fun hacked => ?_,
    h.added, h.session, h.pinged⟩
  · intro last hlast
    cases hlast
    exact ⟨rfl, rfl, rfl⟩
  · change s.trace.any isAddInstanceSocket = true
    have hadded := h.acknowledged hacked
    split at hadded
    · exact hadded
    · exact absurd (hnone.symm.trans hadded) nofun

theorem ordered_handleAuthContinuedSessionCallback (h : Ordered s) (hopen : s.openState = .opened)
    (htype : s.type = .INSTANCE) (hnone : s.trace.any isAddSession = false)
    (authSession : AuthContinuedSession) (answer : Answer) :
    Ordered (({ s with queries := [] } : WorldSocket).handleAuthContinuedSessionCallback
      c authSession answer) := by
  unfold WorldSocket.handleAuthContinuedSessionCallback
  split
  · exact ordered_delayedCloseSocket h.safe hopen (.inl rfl)
  dsimp only
  split
  · exact ordered_delayedCloseSocket h.safe hopen (.inl rfl)
  · rw [asyncRead_opened (by exact hopen)]
    exact ⟨⟨trivial, trivial, h.safe⟩,
      fun _ => opened_continued (h.opened hopen) htype hnone _ _ _,
      fun hclosing => absurd (hopen.symm.trans hclosing) nofun⟩

theorem ordered_processReadyCallbacks (h : Ordered s) (hopen : s.openState = .opened)
    (answers : List (Option Answer)) :
    Ends (fun _ => False) (s.processReadyCallbacks c answers) Ordered := by
  cases (h.opened hopen).waits with
  | none hnil =>
    rw [processReadyCallbacks_nil hnil]
    exact h
  | account authSession ticket hqueries _ =>
    rcases processReadyCallbacks_single hqueries answers with ⟨heq, -⟩ | ⟨answer, -, heq⟩
    · rw [heq]
      exact h
    · rw [heq]
      exact ordered_handleAuthSessionCallback h hopen hqueries answer
  | continued authSession hqueries _ htype hnone =>
    rcases processReadyCallbacks_single hqueries answers with ⟨heq, -⟩ | ⟨answer, -, heq⟩
    · rw [heq]
      exact h
    · rw [heq]
      exact ordered_handleAuthContinuedSessionCallback h hopen htype hnone authSession answer
  | permissions hqueries hauthed =>
    rcases processReadyCallbacks_single hqueries answers with ⟨heq, -⟩ | ⟨answer, -, heq⟩
    · rw [heq]
      exact h
    · rw [heq]
      exact ordered_loadSessionPermissionsCallback h hopen hqueries hauthed

theorem delayedCloseSocket_not_opened (hopen : s.openState ≠ .opened) :
    s.delayedCloseSocket = s := if_neg hopen

theorem asyncRead_not_opened (hopen : s.openState ≠ .opened) : s.asyncRead = s := if_neg hopen

/-- A callback of a socket that is not open any more opens nothing. -/
theorem ordered_invoke (h : Safe s.trace) (hopen : s.openState ≠ .opened)
    (hnil : s.queries = []) {query : Query}
    (hsession : query = .permissions → s.worldSession.isSome = true) (answer : Answer) :
    Ends (fun _ => False) (s.invoke c query answer) Ordered := by
  have hkept : ∀ s' : WorldSocket, s'.openState = s.openState → Safe s'.trace → Pending s' →
      Ordered s' := fun s' hsame hsafe hpending =>
    ⟨hsafe, fun hopen' => absurd (hsame.symm.trans hopen') hopen, fun _ => hpending⟩
  cases query with
  | accountInfo authSession ticket =>
    change Ordered (s.handleAuthSessionCallback c authSession ticket answer)
    have hrefused : Ordered s.delayedCloseSocket := by
      rw [delayedCloseSocket_not_opened hopen]
      exact hkept s rfl h (.inl hnil)
    unfold WorldSocket.handleAuthSessionCallback
    split
    · exact hrefused
    split
    · exact hrefused
    split
    · exact hrefused
    split
    · exact hrefused
    split
    · rw [delayedCloseSocket_not_opened (by exact hopen)]
      exact hkept _ rfl h (.inl hnil)
    · rw [asyncRead_not_opened (by exact hopen)]
      exact hkept _ rfl ⟨trivial, h⟩ (.inr ⟨.permissions,
        congrArg (· ++ [Query.permissions]) hnil, fun _ => rfl⟩)
  | permissions =>
    exact Ends.bind_ok (getPlayerInfo_some (hsession rfl)) (hkept _ rfl ⟨trivial, h⟩ (.inl hnil))
  | continuedSession authSession =>
    change Ordered (s.handleAuthContinuedSessionCallback c authSession answer)
    unfold WorldSocket.handleAuthContinuedSessionCallback
    split
    · rw [delayedCloseSocket_not_opened hopen]
      exact hkept s rfl h (.inl hnil)
    dsimp only
    split
    · rw [delayedCloseSocket_not_opened (by exact hopen)]
      exact hkept _ rfl h (.inl hnil)
    · rw [asyncRead_not_opened (by exact hopen)]
      exact hkept _ rfl ⟨trivial, trivial, h⟩ (.inl hnil)

theorem Pending.single (h : Pending s) : s.queries = [] ∨ ∃ query, s.queries = [query] := by
  obtain hnil | ⟨query, hquery, -⟩ := h
  · exact .inl hnil
  · exact .inr ⟨query, hquery⟩

/-- The callbacks of a socket that is not open, where those that want a session find it. -/
theorem ordered_processReadyCallbacks_not_opened (h : Ordered s) (hopen : s.openState ≠ .opened)
    (hsingle : s.queries = [] ∨ ∃ query, s.queries = [query]) (answers : List (Option Answer))
    (hsession : ∀ answer, (.permissions, some answer) ∈ s.queries.zip answers →
      s.worldSession.isSome = true) :
    Ends (fun _ => False) (s.processReadyCallbacks c answers) Ordered := by
  rcases hsingle with hnil | ⟨query, hquery⟩
  · rw [processReadyCallbacks_nil hnil]
    exact h
  rcases processReadyCallbacks_single hquery answers with ⟨heq, -⟩ | ⟨answer, hmem, heq⟩
  · rw [heq]
    exact h
  · rw [heq]
    exact ordered_invoke (c := c) (s := { s with queries := [] }) h.safe hopen rfl
      (fun hpermissions => hsession answer (hpermissions ▸ hmem)) answer

theorem processReadyCallbacks_nullSession
    (hsingle : s.queries = [] ∨ ∃ query, s.queries = [query]) {answers : List (Option Answer)}
    {answer : Answer} (hmem : (.permissions, some answer) ∈ s.queries.zip answers)
    (hsession : s.worldSession = none) :
    s.processReadyCallbacks c answers = .error .nullSession := by
  rcases hsingle with hnil | ⟨query, hquery⟩
  · rw [hnil, zip_nil_left] at hmem
    cases hmem
  have hpermissions := (List.of_mem_zip hmem).1
  rw [hquery, mem_singleton] at hpermissions
  subst hpermissions
  rcases processReadyCallbacks_single hquery answers with ⟨-, hnone⟩ | ⟨answer', -, heq⟩
  · exact absurd hmem (hnone answer)
  · rw [heq, WorldSocket.invoke, WorldSocket.loadSessionPermissionsCallback,
      WorldSocket.getPlayerInfo, if_neg (by rw [hsession]; exact nofun)]
    rfl

theorem closeSocket_closing (hclosing : s.openState = .closing) :
    s.closeSocket = { s with openState := .closed, worldSession := none } :=
  if_neg (by rw [hclosing]; exact nofun)

theorem ordered_update (h : Ordered s) {flushed : Bool} {answers : List (Option Answer)}
    (hproper : Proper (.update flushed answers) s) :
    Ends (fun _ => False) (s.update c flushed answers) Ordered := by
  rw [WorldSocket.update]
  split
  · exact h
  rename_i hnotClosed
  split
  · rename_i hflushed
    have hordered : Ordered s.closeSocket := ordered_closeSocket h.safe
    rw [closeSocket_closing hflushed.1] at hordered ⊢
    exact ordered_processReadyCallbacks_not_opened hordered nofun
      (h.closing hflushed.1).single answers
      fun answer hmem => absurd hmem (hproper hflushed answer)
  · cases hstate : s.openState with
    | opened => exact ordered_processReadyCallbacks h hstate answers
    | closing =>
      have hpending := h.closing hstate
      refine ordered_processReadyCallbacks_not_opened h (by rw [hstate]; exact nofun)
        hpending.single answers fun answer hmem => ?_
      have hpermissions := (List.of_mem_zip hmem).1
      obtain hnil | ⟨query, hquery, hsome⟩ := hpending
      · rw [hnil] at hpermissions
        cases hpermissions
      · rw [hquery, mem_singleton] at hpermissions
        exact hsome hpermissions.symm
    | closed => exact absurd hstate hnotClosed

theorem ordered_link (h : Ordered s) (hadded : s.trace.any isAddInstanceSocket = true)
    (session : Option WorldSession) : Ordered (s.processLinkInstanceSocket session) := by
  unfold WorldSocket.processLinkInstanceSocket
  split
  · exact h
  rename_i hopen
  have hopen := Decidable.not_not.mp hopen
  have hs := h.opened hopen
  cases session with
  | none => exact ordered_delayedCloseSocket h.safe hopen hs.pending
  | some session =>
    have hacked := hs.added (.inr hadded)
    refine ⟨h.safe, fun _ => ⟨rfl, hs.waits.of_eq rfl rfl (fun _ => rfl) rfl fun _ => rfl, hs.type,
      ?_, hs.acknowledged, hs.added, fun _ => rfl, nofun⟩,
      fun hclosing => absurd (hopen.symm.trans hclosing) nofun⟩
    rintro ⟨exchange, sent⟩ hlast
    have hmatches := hs.exchange _ hlast
    cases exchange with
    | session session encryptKey =>
      exact ⟨hmatches.1, fun hnot => absurd (hacked.symm.trans hnot) nofun⟩
    | continued key encryptKey => exact hmatches

theorem ordered_run (h : Ordered s) (hproper : Proper l s) :
    Ends (fun _ => False) (run c s l) Ordered := by
  cases l with
  | packet packet => exact ordered_readPacket h packet hproper
  | update flushed answers => exact ordered_update h hproper
  | close => exact ordered_closeSocket h.safe
  | link session =>
    rw [run]
    split
    · rename_i hadded
      exact ordered_link h hadded session
    · exact h

theorem ordered_start (serverChallenge : Bytes) : Ordered { serverChallenge } := by
  refine ⟨trivial, fun _ => ⟨rfl, .none rfl, fun _ => ⟨nofun, nofun⟩, nofun, nofun, ?_, nofun,
    fun _ => rfl⟩, nofun⟩
  rintro (hadded | hadded)
  · cases hadded
  · cases hadded

theorem ordered_reachable (h : ((handshake c).guarded Proper).Reachable s) : Ordered s := by
  refine h.invariant Ordered ?_ ?_
  · rintro s ⟨serverChallenge, rfl⟩
    exact ordered_start serverChallenge
  · rintro l s s' hs ⟨hproper, hstep⟩
    exact (ordered_run hs hproper).post_of_ok hstep

/-- An acknowledgement that is read and not proper does what the handshake does not allow. -/
theorem safe_readPacket_ack (h : Ordered s)
    (hends : Ends (fun _ => False) (s.readPacket c .enterEncryptedModeAck)
      fun s' => Safe s'.trace) : Proper (.packet .enterEncryptedModeAck) s := by
  intro hreads
  rw [WorldSocket.readPacket, if_pos hreads, WorldSocket.readDataHandler,
    handleEnterEncryptedModeAck_eq] at hends
  exact (safe_afterAck (h.opened hreads.1) h.safe hreads.2).mp hends

/-- A closed socket has no session for the permissions that it still loads. -/
theorem proper_of_update (h : Ordered s) {flushed : Bool} {answers : List (Option Answer)}
    {post : WorldSocket → Prop} (hends : Ends (fun _ => False) (s.update c flushed answers) post) :
    Proper (.update flushed answers) s := by
  intro hflushed answer hmem
  have hnotClosed : s.openState ≠ .closed := by
    rw [hflushed.1]
    exact nofun
  have hnull := processReadyCallbacks_nullSession (c := c)
    (s := { s with openState := .closed, worldSession := none })
    (h.closing hflushed.1).single hmem rfl
  rw [WorldSocket.update, if_neg hnotClosed, if_pos hflushed, closeSocket_closing hflushed.1,
    hnull] at hends
  exact hends

def alike : Surroundings where
  sha512 _ := []
  hmacSha512 _ _ := List.replicate 64 0
  generateSessionKey _ := List.replicate 40 0
  authCheckSeed := []
  sessionKeySeed := []
  continuedSessionSeed := []
  encryptionKeySeed := []
  keyBytes _ := []
  authKeys _ := some [⟨1, 2, 3, []⟩]
  address := ""
  maxOverspeedPings := 2
  skipsOverspeedPings _ := false
  hasHandler _ := true

def connected : WorldSocket := { serverChallenge := List.replicate 16 0 }

theorem init_connected : (handshake alike).init connected := ⟨_, rfl⟩

def found : Answer where
  account := some ⟨7, [], 0, false, "", "", false, false, 0⟩
  sessionKey := some []
  isClosed := false
  realmId := 1
  playerSecurityLimit := 0
  ipCountry := ""

def asking : AuthSession :=
  ⟨1, [], List.replicate DigestLength 0, some ⟨"7#1", 1, 2, 3⟩⟩

/-- The verified session, and what the handshake did before the last packet. -/
def verified (queries : List Query) (trace : List Effect) : WorldSocket where
  serverChallenge := List.replicate 16 0
  authed := true
  worldSession := some ⟨7, "7#1", 0⟩
  queries
  trace := trace ++ [.authenticated (.session ⟨7, "7#1", 0⟩ (List.replicate 32 0))]

/-- The client authenticates, gets the encrypted mode and acknowledges it. -/
def joined : WorldSocket :=
  verified [] [.addSession (some ⟨7, "7#1", 0⟩), .initCrypt (List.replicate 32 0),
    .enterEncryptedMode (List.replicate 32 0)]

theorem reachable_joined : ((handshake alike).guarded Proper).Reachable joined := by
  have hasked : ((handshake alike).guarded Proper).Reachable { connected with
      reading := false, queries := [.accountInfo asking ⟨"7#1", 1, 2, 3⟩] } :=
    .step (.packet (.authSession (some asking))) (.init init_connected) ⟨trivial, rfl⟩
  have hverified : ((handshake alike).guarded Proper).Reachable (verified [.permissions] []) :=
    .step (.update false [some found]) hasked ⟨nofun, rfl⟩
  have hencrypted : ((handshake alike).guarded Proper).Reachable
      (verified [] [.enterEncryptedMode (List.replicate 32 0)]) :=
    .step (.update true [some found]) hverified ⟨nofun, rfl⟩
  exact .step (.packet .enterEncryptedModeAck) hencrypted
    ⟨fun _ => ⟨rfl, _, rfl, .inr rfl⟩, rfl⟩

def AlwaysSafe (c : Surroundings) : Prop := ∀ s, (handshake c).Reachable s → Safe s.trace

end LegionServer.Guarantees.SocketHandshake
