import LegionServer.Source.Network.WorldSocketReading

/-!
# Sending of the world socket

`WorldSocket::Update` and `WritePacketToBuffer` (`WorldSocket.cpp:202-244`, `474-546`) with the write
queue of an open socket (`Socket.h:312-380`). zlib and the crypt are given; the sizes are those of
`ByteBuffer`, which stay below 2^32.
-/
namespace LegionServer.Source.Network
open Library

structure EncryptablePacket where
  opcode : Nat
  data : List UInt8
  needsEncryption : Bool

structure PacketCodec (σ : Type) where
  deflateBound : Nat → Nat
  adler32 : Nat → List UInt8 → Nat
  compressPacket : EncryptablePacket → σ → List UInt8 × σ
  /-- the encrypted bytes and the tag -/
  encryptSend : List UInt8 → σ → (List UInt8 × List UInt8) × σ
  length_compressPacket : ∀ packet state,
    (compressPacket packet state).1.length ≤ deflateBound (packet.data.length + 4)
  length_encryptSend : ∀ data state, (encryptSend data state).1.1.length = data.length
  length_tag : ∀ data state, (encryptSend data state).1.2.length = 12

def MinSizeForCompression : Nat := 0x400
def SMSG_COMPRESSED_PACKET : Nat := 0x3052

/-- `sizeof(PacketHeader)`, `sizeof(opcode)` and `sizeof(CompressedWorldPacket)` -/
def sizeofPacketHeader : Nat := 16
def sizeofOpcode : Nat := 4
def sizeofCompressedWorldPacket : Nat := 12

namespace MessageBuffer

def writeCompleted (b : MessageBuffer) (bytes : Nat) : MessageBuffer :=
  { b with wpos := b.wpos + bytes }

/-- `memcpy` to a pointer into the buffer -/
def copyTo (b : MessageBuffer) (position : Nat) (data : List UInt8) : Option MessageBuffer :=
  (store b.storage position data).map fun storage => { b with storage }

end MessageBuffer

namespace PacketCodec

variable {σ : Type} (codec : PacketCodec σ) (packet : EncryptablePacket) (state : σ)

def compresses : Bool :=
  MinSizeForCompression < packet.data.length && packet.needsEncryption

def compressedWorldPacket (compressed : List UInt8) : List UInt8 :=
  bytesOf 4 (packet.data.length + sizeofOpcode) ++
    bytesOf 4 (codec.adler32 (codec.adler32 0x9827D8F1 (bytesOf 4 packet.opcode)) packet.data) ++
    bytesOf 4 (codec.adler32 0x9827D8F1 compressed)

/-- The data behind the place for the opcode: the opcode that goes there and the size. -/
def writeData (buffer : MessageBuffer) : Option ((Nat × Nat × MessageBuffer) × σ) :=
  if compresses packet then do
    let compressionInfo := buffer.wpos
    let buffer := buffer.writeCompleted sizeofCompressedWorldPacket
    let (compressed, state) := codec.compressPacket packet state
    let buffer ← buffer.copyTo buffer.wpos compressed
    let buffer ← buffer.copyTo compressionInfo (codec.compressedWorldPacket packet compressed)
    let buffer := buffer.writeCompleted compressed.length
    return ((SMSG_COMPRESSED_PACKET, compressed.length + sizeofCompressedWorldPacket, buffer), state)
  else do
    let buffer ← buffer.write packet.data
    return ((packet.opcode, packet.data.length, buffer), state)

def writePacketToBuffer (buffer : MessageBuffer) : Option (MessageBuffer × σ) := do
  let headerPos := buffer.wpos
  let buffer := buffer.writeCompleted sizeofPacketHeader
  let dataPos := buffer.wpos
  let buffer := buffer.writeCompleted sizeofOpcode
  let ((opcode, packetSize, buffer), state) ← codec.writeData packet state buffer
  let buffer ← buffer.copyTo dataPos (bytesOf 4 opcode)
  let size := packetSize + sizeofOpcode
  let data ← load buffer.storage dataPos size
  let ((data, tag), state) := codec.encryptSend data state
  let buffer ← buffer.copyTo dataPos data
  let buffer ← buffer.copyTo headerPos (bytesOf 4 size ++ tag)
  return (buffer, state)

/-- The space that `Update` wants for a packet, with its header. -/
def reserved : Nat :=
  let packetSize := packet.data.length + 4
  let packetSize := if MinSizeForCompression < packetSize && packet.needsEncryption then
    codec.deflateBound packetSize + sizeofCompressedWorldPacket else packetSize
  packetSize + sizeofPacketHeader

end PacketCodec

structure SendingSocket (σ : Type) where
  state : σ
  writeQueue : List MessageBuffer := []
  isWritingAsync : Bool := false
  stream : List UInt8 := []

namespace SendingSocket

variable {σ : Type} (codec : PacketCodec σ) (sendBufferSize : Nat) (s : SendingSocket σ)

def queuePacket (buffer : MessageBuffer) : SendingSocket σ :=
  { s with writeQueue := s.writeQueue ++ [buffer] }

/-- A packet that was dequeued, with the buffer that is filled. -/
def writeQueued (buffer : MessageBuffer) (queued : EncryptablePacket) :
    Option (SendingSocket σ × MessageBuffer) := do
  let (s, buffer) := if buffer.getRemainingSpace < codec.reserved queued then
      -- Nothing is left of the buffer that was moved.
      (s.queuePacket buffer, MessageBuffer.resize { storage := [] } sendBufferSize)
    else (s, buffer)
  if codec.reserved queued ≤ buffer.getRemainingSpace then
    let (buffer, state) ← codec.writePacketToBuffer queued s.state buffer
    return ({ s with state }, buffer)
  else
    let (packetBuffer, state) ← codec.writePacketToBuffer queued s.state
      (MessageBuffer.ofSize (codec.reserved queued))
    return ({ s with state }.queuePacket packetBuffer, buffer)

/-- One write, which would block or takes at least one byte where there is one. It goes on if there
is more to write. -/
def handleQueue (write : Option Nat) : Bool × SendingSocket σ :=
  match s.writeQueue with
  | [] => (false, s)
  | queuedMessage :: rest =>
    match write with
    | none => (false, { s with isWritingAsync := true })
    | some more =>
      let bytesToSend := queuedMessage.getActiveSize
      let bytesSent := min (more + 1) bytesToSend
      let s := { s with stream := s.stream ++ queuedMessage.readPointer.take bytesSent }
      if bytesSent = 0 then (false, { s with writeQueue := rest })
      else if bytesSent < bytesToSend then
        (false, { s with
          writeQueue := queuedMessage.readCompleted bytesSent :: rest
          isWritingAsync := true })
      else (!rest.isEmpty, { s with writeQueue := rest })

/-- The loop over the queue. Each turn that goes on has sent a buffer. -/
def handleQueues : Nat → (Nat → Option Nat) → SendingSocket σ → SendingSocket σ
  | 0, _, s => s
  | turns + 1, writes, s =>
    let (goesOn, s) := s.handleQueue (writes turns)
    if goesOn then handleQueues turns writes s else s

def socketUpdate (writes : Nat → Option Nat) : SendingSocket σ :=
  if s.isWritingAsync || s.writeQueue.isEmpty then s
  else handleQueues s.writeQueue.length writes s

/-- `WorldSocket::Update` with the packets of the queue -/
def update (bufferQueue : List EncryptablePacket) (writes : Nat → Option Nat) :
    Option (SendingSocket σ) := do
  if bufferQueue.isEmpty then return s.socketUpdate writes
  else
    let (s, buffer) ← bufferQueue.foldlM (fun r queued =>
      r.1.writeQueued codec sendBufferSize r.2 queued) (s, MessageBuffer.ofSize sendBufferSize)
    let s := if buffer.getActiveSize > 0 then s.queuePacket buffer else s
    return s.socketUpdate writes

/-- `WriteHandlerWrapper`, once the stream can be written to -/
def writeHandlerWrapper (write : Option Nat) : SendingSocket σ :=
  ({ s with isWritingAsync := false }.handleQueue write).2

end SendingSocket

inductive SendingStep
  | update (bufferQueue : List EncryptablePacket) (writes : Nat → Option Nat)
  | writeHandlerWrapper (write : Option Nat)

def SendingStep.exec {σ : Type} (codec : PacketCodec σ) (sendBufferSize : Nat)
    (s : SendingSocket σ) : SendingStep → Option (SendingSocket σ)
  | update bufferQueue writes => s.update codec sendBufferSize bufferQueue writes
  | writeHandlerWrapper write => some (s.writeHandlerWrapper write)

/-- A socket after some steps, where no write was outside a buffer. -/
def SendingSocket.run {σ : Type} (codec : PacketCodec σ) (sendBufferSize : Nat)
    (s : SendingSocket σ) (steps : List SendingStep) : Option (SendingSocket σ) :=
  steps.foldlM (SendingStep.exec codec sendBufferSize) s

end LegionServer.Source.Network
