import LegionServer.Library.Memory
import LegionServer.Library.Outcome

/-!
# Message buffers

`MessageBuffer` (`MessageBuffer.h`): a vector of bytes with a position for reads and one for writes.
The differences are those of `size_type`. A write outside the vector is `none`.
-/
namespace LegionServer.Source.Network
open Library List

structure MessageBuffer where
  wpos : Nat := 0
  rpos : Nat := 0
  storage : List UInt8
  deriving DecidableEq, Repr

/-- A difference in `size_type`. -/
def sizeDiff (a b : Nat) : Nat := if b ≤ a then a - b else 2 ^ 64 - (b - a)

namespace MessageBuffer

def ofSize (initialSize : Nat) : MessageBuffer := { storage := List.replicate initialSize 0 }

def reset (b : MessageBuffer) : MessageBuffer := { b with wpos := 0, rpos := 0 }

def resize (b : MessageBuffer) (bytes : Nat) : MessageBuffer :=
  { b with storage := b.storage.take bytes ++ List.replicate (bytes - b.storage.length) 0 }

def readPointer (b : MessageBuffer) : List UInt8 := b.storage.drop b.rpos

def readCompleted (b : MessageBuffer) (bytes : Nat) : MessageBuffer :=
  { b with rpos := b.rpos + bytes }

def getActiveSize (b : MessageBuffer) : Nat := sizeDiff b.wpos b.rpos

def getRemainingSpace (b : MessageBuffer) : Nat := sizeDiff b.storage.length b.wpos

def normalize (b : MessageBuffer) : MessageBuffer :=
  if b.rpos ≠ 0 then
    { wpos := b.wpos - b.rpos, rpos := 0
      storage := (b.readPointer.take b.getActiveSize) ++ b.storage.drop b.getActiveSize }
  else b

def ensureFreeSpace (b : MessageBuffer) : MessageBuffer :=
  if b.getRemainingSpace = 0 then b.resize (b.storage.length * 3 / 2) else b

def write (b : MessageBuffer) (data : List UInt8) : Option MessageBuffer :=
  if data = [] then some b
  else (store b.storage b.wpos data).map fun storage =>
    { b with storage, wpos := b.wpos + data.length }

/-- `Release`: the bytes, and what is left of the buffer. -/
def release (b : MessageBuffer) : List UInt8 × MessageBuffer := (b.storage, { storage := [] })

structure Active (b : MessageBuffer) (bytes : List UInt8) : Prop where
  wpos : b.wpos = b.rpos + bytes.length
  fits : b.wpos ≤ b.storage.length
  bytes : b.readPointer.take bytes.length = bytes

variable {b : MessageBuffer} {bytes data more : List UInt8} {n : Nat}

theorem active_ofSize (n : Nat) : (ofSize n).Active [] := ⟨rfl, Nat.zero_le _, rfl⟩

theorem Active.getActiveSize (h : b.Active bytes) : b.getActiveSize = bytes.length := by
  have := h.wpos
  rw [MessageBuffer.getActiveSize, sizeDiff, if_pos (by omega)]
  omega

theorem Active.getRemainingSpace (h : b.Active bytes) :
    b.getRemainingSpace = b.storage.length - b.wpos := by
  rw [MessageBuffer.getRemainingSpace, sizeDiff, if_pos h.fits]

theorem active_reset (b : MessageBuffer) : b.reset.Active [] := ⟨rfl, Nat.zero_le _, rfl⟩

theorem Active.take_readPointer (h : b.Active (data ++ more)) :
    b.readPointer.take data.length = data := by
  have hbytes := congrArg (List.take data.length) h.bytes
  rwa [take_take, length_append, Nat.min_eq_left (Nat.le_add_right ..), take_left]
    at hbytes

theorem Active.readCompleted (h : b.Active (data ++ more)) :
    (b.readCompleted data.length).Active more := by
  have hwpos := h.wpos
  rw [length_append] at hwpos
  refine ⟨by rw [MessageBuffer.readCompleted]; simp only; omega, h.fits, ?_⟩
  have hbytes := congrArg (List.drop data.length) h.bytes
  rw [drop_left, drop_take, length_append, Nat.add_sub_cancel_left] at hbytes
  rw [MessageBuffer.readPointer, MessageBuffer.readCompleted, ← drop_drop]
  exact hbytes

theorem Active.write (h : b.Active bytes) (data : List UInt8)
    (hfits : b.wpos + data.length ≤ b.storage.length) :
    ∃ b', b.write data = some b' ∧ b'.Active (bytes ++ data) ∧
      b'.storage.length = b.storage.length ∧ b'.rpos = b.rpos := by
  rw [MessageBuffer.write]
  split
  · rename_i hnil
    refine ⟨b, rfl, ?_, rfl, rfl⟩
    rwa [hnil, append_nil]
  · obtain ⟨storage, hstore⟩ : ∃ storage, store b.storage b.wpos data = some storage :=
      ⟨_, store_of_fits hfits⟩
    have hlength := length_store hstore
    have hwpos := h.wpos
    refine ⟨{ b with storage, wpos := b.wpos + data.length }, by rw [hstore]; rfl, ⟨?_, ?_, ?_⟩,
      hlength, rfl⟩
    · rw [length_append]
      simp only
      omega
    · simp only
      omega
    · have hold : Holds b.storage b.rpos bytes := ⟨by rw [← h.wpos]; exact h.fits, h.bytes⟩
      have hkept := hold.frame hstore (.inl (by omega))
      have hnew := Holds.of_store hstore
      rw [MessageBuffer.readPointer, length_append]
      rw [take_add, hkept.2, drop_drop, ← hwpos, hnew.2]

theorem write_eq_none (hdata : data ≠ []) (h : b.storage.length < b.wpos + data.length) :
    b.write data = none := by
  rw [MessageBuffer.write, if_neg hdata, store, if_neg (by omega)]
  rfl

theorem length_resize : (b.resize n).storage.length = n := by
  rw [resize, length_append, length_take, length_replicate]
  omega

theorem Active.resize (h : b.Active bytes) (hn : b.wpos ≤ n) : (b.resize n).Active bytes := by
  have hwpos := h.wpos
  have hfits := h.fits
  refine ⟨h.wpos, by rw [length_resize]; exact hn, ?_⟩
  rw [readPointer, MessageBuffer.resize]
  simp only
  rw [drop_append_of_le_length (by rw [length_take]; omega), take_append_of_le_length
    (by rw [length_drop, length_take]; omega), drop_take, take_take,
    Nat.min_eq_left (by omega)]
  exact h.bytes

theorem Active.normalize (h : b.Active bytes) : b.normalize.Active bytes ∧ b.normalize.rpos = 0 ∧
    b.normalize.storage.length = b.storage.length := by
  have hwpos := h.wpos
  have hfits := h.fits
  rw [MessageBuffer.normalize]
  split
  · rw [h.getActiveSize, h.bytes]
    have hlength : (bytes ++ b.storage.drop bytes.length).length = b.storage.length := by
      rw [length_append, length_drop]
      omega
    refine ⟨⟨?_, ?_, ?_⟩, rfl, hlength⟩
    · simp only
      omega
    · simp only [hlength]
      omega
    · rw [readPointer, drop_zero, take_left]
  · rename_i hrpos
    exact ⟨h, not_not.mp hrpos, rfl⟩

end MessageBuffer

def prepareReadBuffer (readBuffer : MessageBuffer) : MessageBuffer :=
  readBuffer.normalize.ensureFreeSpace

theorem active_prepareReadBuffer {b : MessageBuffer} {bytes : List UInt8} (h : b.Active bytes)
    (hsize : 2 ≤ b.storage.length) : (prepareReadBuffer b).Active bytes ∧
      2 ≤ (prepareReadBuffer b).storage.length ∧ 0 < (prepareReadBuffer b).getRemainingSpace := by
  obtain ⟨hactive, -, hlength⟩ := h.normalize
  rw [prepareReadBuffer, MessageBuffer.ensureFreeSpace]
  split
  · rename_i hfull
    have hfits := hactive.fits
    have hgrown : b.normalize.wpos < b.normalize.storage.length * 3 / 2 := by omega
    have hresized := hactive.resize (Nat.le_of_lt hgrown)
    refine ⟨hresized, ?_, ?_⟩
    · rw [MessageBuffer.length_resize]
      omega
    · rw [hresized.getRemainingSpace, MessageBuffer.length_resize]
      exact Nat.sub_pos_of_lt hgrown
  · rename_i hfree
    exact ⟨hactive, hlength ▸ hsize, Nat.pos_of_ne_zero hfree⟩

/-!
# Reading from a world socket

`WorldSocket::ReadHandler`, `ReadHeaderHandler` and the framing part of `ReadDataHandler`
(`WorldSocket.cpp:266-380`), and the reads of its base class (`Socket.h:54-59,202-214`). What the
crypt answers and what the handlers of packets do is a parameter with a state of its own.
-/

inductive ReadDataHandlerResult where
  | Ok
  | Error
  | WaitingForQuery
  deriving DecidableEq, Repr

/-- What `ReadDataHandler` is given: the header and the payload with the encrypted opcode in
front. -/
structure Packet where
  size : Nat
  tag : List UInt8
  data : List UInt8
  deriving DecidableEq, Repr

def CMSG_HOTFIX_REQUEST : UInt32 := 0x35E5

/-- The crypt and the handlers of packets; a packet that does not decrypt is an error. -/
structure Handlers (σ : Type) where
  /-- `PeekDecryptRecv` of an encrypted opcode -/
  peekDecryptRecv : σ → UInt32 → UInt32
  canRequestHotfixes : σ → Bool
  readData : σ → Packet → σ × ReadDataHandlerResult

inductive Fault where
  | assertion
  | outOfBounds
  | unfinished
  deriving DecidableEq, Repr

inductive Status where
  | reading
  | waitingForQuery
  | closed
  deriving DecidableEq, Repr

/-- `sizeof(PacketHeader)` -/
def PACKET_HEADER_SIZE : Nat := 16

/-- `sizeof(IncomingPacketHeader)` -/
def INCOMING_PACKET_HEADER_SIZE : Nat := 20

structure WorldSocket (σ : Type) where
  state : σ
  status : Status := .reading
  readBuffer : MessageBuffer := .ofSize 0x1000
  headerBuffer : MessageBuffer := .ofSize INCOMING_PACKET_HEADER_SIZE
  packetBuffer : MessageBuffer := .ofSize 4096
  /-- the packets `ReadDataHandler` was given -/
  handed : List Packet := []
  deriving Repr

def headerSize (header : List UInt8) : Nat := (PlainData.uint32.read header).toNat

def headerTag (header : List UInt8) : List UInt8 := (header.drop 4).take 12

/-- `header->EncryptedOpcode` -/
def headerOpcode (header : List UInt8) : UInt32 :=
  PlainData.uint32.read (header.drop PACKET_HEADER_SIZE)

variable {σ : Type}

/-- The checks of `ReadHeaderHandler`. -/
def Handlers.admits (h : Handlers σ) (state : σ) (header : List UInt8) : Bool :=
  if headerSize header < 0x10000 then true
  else if h.peekDecryptRecv state (headerOpcode header) ≠ CMSG_HOTFIX_REQUEST ∨
      headerSize header > 0x100000 ∨ h.canRequestHotfixes state = false then
    false
  else true

namespace WorldSocket

def orFault {α : Type} (x : Option α) : Except Fault α :=
  match x with
  | some a => .ok a
  | none => .error .outOfBounds

variable (h : Handlers σ)

/-- `ReadHeaderHandler`: false where the packet is malformed. -/
def readHeaderHandler (s : WorldSocket σ) : Except Fault (Bool × WorldSocket σ) :=
  if s.headerBuffer.getActiveSize ≠ INCOMING_PACKET_HEADER_SIZE then .error .assertion
  else
    let header := s.headerBuffer.readPointer
    if !h.admits s.state header then .ok (false, s)
    else do
      let packetBuffer ← orFault ((s.packetBuffer.resize (headerSize header)).write
        ((header.drop PACKET_HEADER_SIZE).take 4))
      .ok (true, { s with packetBuffer })

/-- `ReadDataHandler` as far as the buffers are concerned. -/
def readDataHandler (s : WorldSocket σ) : ReadDataHandlerResult × WorldSocket σ :=
  let header := s.headerBuffer.readPointer
  let (data, packetBuffer) := s.packetBuffer.release
  let packet : Packet := ⟨headerSize header, headerTag header, data⟩
  let (state, result) := h.readData s.state packet
  (result, { s with state, packetBuffer, handed := s.handed ++ [packet] })

/-- Bytes of the read buffer go to the header buffer; true when the header is complete. -/
def fillHeader (s : WorldSocket σ) : Except Fault (Bool × WorldSocket σ) := do
  let readHeaderSize := min s.readBuffer.getActiveSize s.headerBuffer.getRemainingSpace
  let headerBuffer ← orFault
    (s.headerBuffer.write (s.readBuffer.readPointer.take readHeaderSize))
  let s := { s with headerBuffer, readBuffer := s.readBuffer.readCompleted readHeaderSize }
  if s.headerBuffer.getRemainingSpace > 0 then
    if s.readBuffer.getActiveSize ≠ 0 then .error .assertion else .ok (false, s)
  else .ok (true, s)

/-- Bytes of the read buffer go to the packet buffer; true when the payload is complete. -/
def fillPacket (s : WorldSocket σ) : Except Fault (Bool × WorldSocket σ) := do
  let readDataSize := min s.readBuffer.getActiveSize s.packetBuffer.getRemainingSpace
  let packetBuffer ← orFault (s.packetBuffer.write (s.readBuffer.readPointer.take readDataSize))
  let s := { s with packetBuffer, readBuffer := s.readBuffer.readCompleted readDataSize }
  if s.packetBuffer.getRemainingSpace > 0 then
    if s.readBuffer.getActiveSize ≠ 0 then .error .assertion else .ok (false, s)
  else .ok (true, s)

/-- "We have full read header, now check the data payload" -/
def checkPayload (s : WorldSocket σ) : Except Fault (Bool × WorldSocket σ) :=
  if s.packetBuffer.getRemainingSpace > 0 then s.fillPacket else .ok (true, s)

/-- "just received fresh new payload" -/
def handlePayload (s : WorldSocket σ) : WorldSocket σ :=
  let (result, s) := s.readDataHandler h
  let s := { s with headerBuffer := s.headerBuffer.reset }
  match result with
  | .Ok => s
  | .WaitingForQuery => { s with status := .waitingForQuery }
  | .Error => { s with status := .closed }

/-- The end of the body of the loop in `ReadHandler`. -/
def readPayload (s : WorldSocket σ) : Except Fault (WorldSocket σ) := do
  let (complete, s) ← s.checkPayload
  if !complete then .ok s else .ok (s.handlePayload h)

/-- The body of the loop in `ReadHandler`. -/
def readRound (s : WorldSocket σ) : Except Fault (WorldSocket σ) :=
  if s.headerBuffer.getRemainingSpace > 0 then do
    let (complete, s) ← s.fillHeader
    if !complete then .ok s
    else
      let (valid, s) ← s.readHeaderHandler h
      if !valid then .ok { s with status := .closed } else s.readPayload h
  else s.readPayload h

/-- The condition of the loop, while it has not been left. -/
def unread (s : WorldSocket σ) : Option Unit :=
  if s.status = .reading ∧ s.readBuffer.getActiveSize > 0 then some () else none

def readHandler (fuel : Nat) (s : WorldSocket σ) : Except Fault (WorldSocket σ) :=
  whileSome .unfinished unread (fun s _ => s.readRound h) fuel s

/-- One completed `AsyncRead`: a chunk lies in the prepared read buffer. After a wait it is the
callback of the query that reads again; a closed socket reads no more. -/
def receive (s : WorldSocket σ) (chunk : List UInt8) : Except Fault (WorldSocket σ) :=
  if s.status = .closed then .ok s
  else do
    let readBuffer ← orFault ((prepareReadBuffer s.readBuffer).write chunk)
    { s with readBuffer, status := .reading }.readHandler h (readBuffer.getActiveSize)

end WorldSocket

end LegionServer.Source.Network
