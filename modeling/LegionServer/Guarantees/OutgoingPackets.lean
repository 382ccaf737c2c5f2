import LegionServer.Source.Network.WorldSocketSending
import Mathlib.Data.List.Forall2

/-!
# Outgoing packets

Packets are written to buffers one behind the other, and the stream takes the bytes of the
buffers in their order.
-/
namespace LegionServer.Guarantees.OutgoingPackets
open Library Source.Network List Option MessageBuffer Holds
open PacketCodec (compresses)

variable {σ : Type} {codec : PacketCodec σ} {sendBufferSize remaining : Nat}
  {packet : EncryptablePacket} {state : σ} {b : MessageBuffer} {bytes sent more : List UInt8}
  {s : SendingSocket σ}

def payload (codec : PacketCodec σ) (packet : EncryptablePacket) (state : σ) :
    (Nat × List UInt8) × σ :=
  if compresses packet then
    let (compressed, state) := codec.compressPacket packet state
    ((SMSG_COMPRESSED_PACKET, codec.compressedWorldPacket packet compressed ++ compressed), state)
  else ((packet.opcode, packet.data), state)

/-- The size, the tag and the encrypted opcode and data. -/
def frame (codec : PacketCodec σ) (packet : EncryptablePacket) (state : σ) : List UInt8 × σ :=
  let ((opcode, data), state) := payload codec packet state
  let ((encrypted, tag), state) := codec.encryptSend (bytesOf 4 opcode ++ data) state
  (bytesOf 4 (data.length + 4) ++ tag ++ encrypted, state)

def frames (codec : PacketCodec σ) : List EncryptablePacket → σ → List UInt8 × σ
  | [], state => ([], state)
  | packet :: packets, state =>
    let (first, state) := frame codec packet state
    let (rest, state) := frames codec packets state
    (first ++ rest, state)

def framesOf (codec : PacketCodec σ) : List SendingStep → σ → List UInt8
  | [], _ => []
  | .update bufferQueue _ :: steps, state =>
    let (first, state) := frames codec bufferQueue state
    first ++ framesOf codec steps state
  | .writeHandlerWrapper _ :: steps, state => framesOf codec steps state

/-- The space for a packet: what remains of the buffer that is filled, a new one of the same size,
or one of the size that is wanted. -/
def spaceFor (sendBufferSize remaining reserved : Nat) : Nat :=
  if reserved ≤ remaining then remaining
  else if reserved ≤ sendBufferSize then sendBufferSize
  else reserved

def remainsOf (sendBufferSize remaining reserved length : Nat) : Nat :=
  if reserved ≤ remaining then remaining - length
  else if reserved ≤ sendBufferSize then sendBufferSize - length
  else sendBufferSize

/-- The packets of an update fit, with what remains of the buffer that is filled. -/
def Fits (codec : PacketCodec σ) (sendBufferSize : Nat) : Nat → List EncryptablePacket → σ → Prop
  | _, [], _ => True
  | remaining, packet :: packets, state =>
    let (first, state) := frame codec packet state
    first.length ≤ spaceFor sendBufferSize remaining (codec.reserved packet) ∧
      Fits codec sendBufferSize
        (remainsOf sendBufferSize remaining (codec.reserved packet) first.length) packets state

def AllFit (codec : PacketCodec σ) (sendBufferSize : Nat) : List SendingStep → σ → Prop
  | [], _ => True
  | .update bufferQueue _ :: steps, state =>
    Fits codec sendBufferSize sendBufferSize bufferQueue state ∧
      AllFit codec sendBufferSize steps (frames codec bufferQueue state).2
  | .writeHandlerWrapper _ :: steps, state => AllFit codec sendBufferSize steps state

/-- What the stream has taken and what the buffers hold are these bytes. -/
def Delivers (s : SendingSocket σ) (sent : List UInt8) : Prop :=
  ∃ parts, List.Forall₂ MessageBuffer.Active s.writeQueue parts ∧ s.stream ++ parts.flatten = sent

theorem length_frame :
    (frame codec packet state).1.length = 20 + (payload codec packet state).1.2.length := by
  rw [frame]
  generalize payload codec packet state = written
  obtain ⟨⟨opcode, data⟩, state'⟩ := written
  dsimp only
  rw [length_append, length_append, length_bytesOf, codec.length_tag,
    codec.length_encryptSend, length_append, length_bytesOf]
  omega

theorem frame_eq {opcode : Nat} {data encrypted tag : List UInt8} {state' state'' : σ}
    (hpayload : payload codec packet state = ((opcode, data), state'))
    (hencrypt : codec.encryptSend (bytesOf 4 opcode ++ data) state' = ((encrypted, tag), state'')) :
    frame codec packet state = (bytesOf 4 (data.length + 4) ++ tag ++ encrypted, state'') := by
  simp only [frame, hpayload, hencrypt]

theorem length_compressedWorldPacket (compressed : List UInt8) :
    (codec.compressedWorldPacket packet compressed).length = 12 := by
  rw [PacketCodec.compressedWorldPacket, length_append, length_append, length_bytesOf,
    length_bytesOf, length_bytesOf]

/-- A packet that does not fit is compressed, to more than the bound less the opcode. -/
theorem frame_fits (hbound : ∀ n, n ≤ codec.deflateBound n)
    (h : compresses packet = true → (codec.compressPacket packet state).1.length + 4 ≤
      codec.deflateBound (packet.data.length + 4)) :
    (frame codec packet state).1.length ≤
      spaceFor sendBufferSize remaining (codec.reserved packet) := by
  have hreserved : (frame codec packet state).1.length ≤ codec.reserved packet := by
    have hsize := hbound (packet.data.length + 4)
    rw [length_frame, payload, PacketCodec.reserved, sizeofCompressedWorldPacket,
      sizeofPacketHeader]
    split
    · rename_i hcompresses
      have hlength := h hcompresses
      rw [compresses, Bool.and_eq_true, decide_eq_true_iff] at hcompresses
      generalize codec.compressPacket packet state = compressed at hlength ⊢
      rw [if_pos (by grind), length_append, length_compressedWorldPacket]
      omega
    · dsimp only
      split <;> omega
  unfold spaceFor
  split_ifs <;> omega

theorem copyTo_fits (b : MessageBuffer) (position : Nat) (bytes : List UInt8)
    (h : position + bytes.length ≤ b.storage.length) :
    ∃ storage, store b.storage position bytes = some storage ∧
      b.copyTo position bytes = some { b with storage } := by
  refine ⟨_, store_of_fits h, ?_⟩
  rw [copyTo, store_of_fits h]
  rfl

theorem copyTo_eq_none {position : Nat} (h : b.storage.length < position + bytes.length) :
    b.copyTo position bytes = none := by
  rw [copyTo, store, if_neg (by omega)]
  rfl

section
variable (codec : PacketCodec σ) (packet : EncryptablePacket) (state : σ)

theorem writeData_fits (h : b.wpos + (payload codec packet state).1.2.length ≤ b.storage.length) :
    ∃ storage, codec.writeData packet state b =
        some (((payload codec packet state).1.1, (payload codec packet state).1.2.length,
          { b with storage, wpos := b.wpos + (payload codec packet state).1.2.length }),
          (payload codec packet state).2) ∧
      storage.length = b.storage.length ∧
      Holds storage b.wpos (payload codec packet state).1.2 ∧
      ∀ position bytes, Holds b.storage position bytes → position + bytes.length ≤ b.wpos →
        Holds storage position bytes := by
  unfold PacketCodec.writeData
  unfold payload at h ⊢
  by_cases hcompresses : compresses packet = true
  · rw [if_pos hcompresses] at h ⊢
    rw [if_pos hcompresses]
    generalize codec.compressPacket packet state = compressed at h ⊢
    obtain ⟨compressed, state⟩ := compressed
    have hinfo : (codec.compressedWorldPacket packet compressed).length = 12 :=
      length_compressedWorldPacket compressed
    rw [length_append, hinfo] at h
    obtain ⟨first, hfirst, hcopy⟩ := copyTo_fits
      (b.writeCompleted sizeofCompressedWorldPacket) (b.wpos + 12) compressed
      (by change _ ≤ b.storage.length; omega)
    have hlength : first.length = b.storage.length := length_store hfirst
    obtain ⟨second, hsecond, hcopy'⟩ := copyTo_fits
      { b with storage := first, wpos := b.wpos + 12 } b.wpos
      (codec.compressedWorldPacket packet compressed) (by dsimp only; omega)
    refine ⟨second, ?_, (length_store hsecond).trans hlength, ?_, ?_⟩
    · change ((b.writeCompleted sizeofCompressedWorldPacket).copyTo (b.wpos + 12)
        compressed).bind _ = _
      rw [hcopy, bind_some]
      change (({ b with storage := first, wpos := b.wpos + 12 } : MessageBuffer).copyTo b.wpos
        (codec.compressedWorldPacket packet compressed)).bind _ = _
      rw [hcopy', bind_some, length_append, hinfo, ← Nat.add_assoc, Nat.add_comm 12]
      rfl
    · have hdata : Holds second (b.wpos + 12) compressed :=
        (of_store hfirst).frame hsecond (.inr (by rw [hinfo]))
      exact (of_store hsecond).append (by rw [hinfo]; exact hdata)
    · intro position bytes hholds hbefore
      exact (hholds.frame hfirst (.inl (by omega))).frame hsecond (.inl (by omega))
  · rw [if_neg hcompresses] at h ⊢
    rw [if_neg hcompresses]
    dsimp only at h ⊢
    have hwrite : ∃ storage, b.write packet.data =
        some { b with storage, wpos := b.wpos + packet.data.length } ∧
          storage.length = b.storage.length ∧ Holds storage b.wpos packet.data ∧
          ∀ position bytes, Holds b.storage position bytes → position + bytes.length ≤ b.wpos →
            Holds storage position bytes := by
      rw [write]
      split
      · rename_i hnil
        rw [hnil] at h ⊢
        exact ⟨b.storage, rfl, rfl, ⟨h, rfl⟩, fun _ _ hholds _ => hholds⟩
      · obtain hstore := store_of_fits h
        refine ⟨_, by rw [hstore]; rfl, length_store hstore, of_store hstore,
          fun position bytes hholds hbefore => hholds.frame hstore (.inl hbefore)⟩
    obtain ⟨storage, hwrite, hrest⟩ := hwrite
    refine ⟨storage, ?_, hrest⟩
    rw [bind_eq_bind, hwrite, bind_some]
    rfl

/-- A packet that fits goes behind what is in the buffer. -/
theorem writePacketToBuffer_fits (h : b.Active bytes)
    (hfits : b.wpos + (frame codec packet state).1.length ≤ b.storage.length) :
    ∃ b', codec.writePacketToBuffer packet state b = some (b', (frame codec packet state).2) ∧
      b'.Active (bytes ++ (frame codec packet state).1) ∧
      b'.storage.length = b.storage.length ∧ b'.rpos = b.rpos := by
  have hwpos := h.wpos
  rw [length_frame] at hfits
  obtain ⟨storage, hwrite, hlength, hdata, hkept⟩ := writeData_fits codec packet state
    (b := (b.writeCompleted sizeofPacketHeader).writeCompleted sizeofOpcode)
    (by change b.wpos + 16 + 4 + _ ≤ b.storage.length; omega)
  change Holds storage (b.wpos + 16 + 4) _ at hdata
  change storage.length = b.storage.length at hlength
  have hold : Holds storage b.rpos bytes := by
    refine hkept _ _ ⟨hwpos ▸ h.fits, h.bytes⟩ ?_
    change b.rpos + bytes.length ≤ b.wpos + 16 + 4
    omega
  obtain ⟨opcode, data, state', hpayload⟩ :
      ∃ opcode data state', payload codec packet state = ((opcode, data), state') :=
    ⟨_, _, _, rfl⟩
  obtain ⟨encrypted, tag, state'', hencrypt⟩ : ∃ encrypted tag state'',
      codec.encryptSend (bytesOf 4 opcode ++ data) state' = ((encrypted, tag), state'') :=
    ⟨_, _, _, rfl⟩
  rw [hpayload] at hfits hdata hwrite
  rw [frame_eq hpayload hencrypt]
  dsimp only at hfits hdata
  -- The opcode
  obtain ⟨first, hfirst, hcopy⟩ := copyTo_fits
    { b with storage, wpos := b.wpos + 16 + 4 + data.length } (b.wpos + 16) (bytesOf 4 opcode)
    (by rw [length_bytesOf]; dsimp only; omega)
  have hlength₁ : first.length = b.storage.length := (length_store hfirst).trans hlength
  have hbody : Holds first (b.wpos + 16) (bytesOf 4 opcode ++ data) :=
    (of_store hfirst).append (by
      exact hdata.frame hfirst (.inr (by rw [length_bytesOf])))
  have hbodyLength : (bytesOf 4 opcode ++ data).length = data.length + 4 := by
    rw [length_append, length_bytesOf, Nat.add_comm]
  have hload : load first (b.wpos + 16) (data.length + 4) = some (bytesOf 4 opcode ++ data) := by
    exact hbody.load
  have hlengthEncrypted := codec.length_encryptSend (bytesOf 4 opcode ++ data) state'
  have hlengthTag := codec.length_tag (bytesOf 4 opcode ++ data) state'
  rw [hencrypt] at hlengthEncrypted hlengthTag
  -- The encrypted bytes, and the header before them
  obtain ⟨second, hsecond, hcopy₂⟩ := copyTo_fits
    { b with storage := first, wpos := b.wpos + 16 + 4 + data.length } (b.wpos + 16) encrypted
    (by rw [hlengthEncrypted]; dsimp only; omega)
  have hheader : (bytesOf 4 (data.length + 4) ++ tag).length = 16 := by
    rw [length_append, length_bytesOf, hlengthTag]
  obtain ⟨third, hthird, hcopy₃⟩ := copyTo_fits
    { b with storage := second, wpos := b.wpos + 16 + 4 + data.length } b.wpos
    (bytesOf 4 (data.length + 4) ++ tag)
    (by rw [hheader]; dsimp only; rw [length_store hsecond]; dsimp only; omega)
  have hlength₃ : third.length = b.storage.length :=
    (length_store hthird).trans ((length_store hsecond).trans hlength₁)
  have hall : Holds third b.rpos (bytes ++ (bytesOf 4 (data.length + 4) ++ tag ++ encrypted)) := by
    have hold₃ : Holds third b.rpos bytes :=
      ((hold.frame hfirst (.inl (by omega))).frame hsecond (.inl (by omega))).frame hthird
        (.inl (by omega))
    have hencrypted : Holds third (b.wpos + 16) encrypted :=
      (of_store hsecond).frame hthird (.inr (by rw [hheader]))
    refine hold₃.append ?_
    rw [← hwpos]
    exact (of_store hthird).append (by rw [hheader]; exact hencrypted)
  refine ⟨{ b with storage := third, wpos := b.wpos + 16 + 4 + data.length }, ?_, ⟨?_, ?_, hall.2⟩,
    hlength₃, rfl⟩
  · rw [PacketCodec.writePacketToBuffer, bind_eq_bind, hwrite, bind_some]
    change (({ b with storage, wpos := b.wpos + 16 + 4 + data.length } : MessageBuffer).copyTo
      (b.wpos + 16) (bytesOf 4 opcode)).bind _ = _
    rw [hcopy, bind_some]
    change (load first (b.wpos + 16) (data.length + 4)).bind _ = _
    rw [hload, bind_some, hencrypt]
    change (({ b with storage := first, wpos := b.wpos + 16 + 4 + data.length } :
      MessageBuffer).copyTo (b.wpos + 16) encrypted).bind _ = _
    rw [hcopy₂, bind_some]
    change (({ b with storage := second, wpos := b.wpos + 16 + 4 + data.length } :
      MessageBuffer).copyTo b.wpos (bytesOf 4 (data.length + 4) ++ tag)).bind _ = _
    rw [hcopy₃, bind_some]
    rfl
  · rw [length_append, length_append, hheader, hlengthEncrypted]
    dsimp only
    omega
  · dsimp only
    omega

end

/-- Where a packet does not fit, something is written behind the end of the buffer. -/
theorem writePacketToBuffer_eq_none
    (h : b.storage.length < b.wpos + (frame codec packet state).1.length) :
    codec.writePacketToBuffer packet state b = none := by
  rw [length_frame] at h
  unfold payload at h
  have hwrite : codec.writeData packet state
      ((b.writeCompleted sizeofPacketHeader).writeCompleted sizeofOpcode) = none ∨
      packet.data = [] ∧ compresses packet = false := by
    unfold PacketCodec.writeData
    by_cases hcompresses : compresses packet = true
    · rw [if_pos hcompresses] at h ⊢
      generalize codec.compressPacket packet state = compressed at h ⊢
      obtain ⟨compressed, state⟩ := compressed
      rw [length_append, length_compressedWorldPacket] at h
      refine .inl ?_
      dsimp only
      rw [bind_eq_bind, copyTo_eq_none, bind_none]
      change b.storage.length < b.wpos + 16 + 4 + 12 + compressed.length
      omega
    · rw [if_neg hcompresses] at h ⊢
      dsimp only at h
      by_cases hnil : packet.data = []
      · exact .inr ⟨hnil, Bool.not_eq_true _ ▸ hcompresses⟩
      · refine .inl ?_
        rw [bind_eq_bind, write_eq_none hnil, bind_none]
        change b.storage.length < b.wpos + 16 + 4 + packet.data.length
        omega
  rw [PacketCodec.writePacketToBuffer, bind_eq_bind]
  rcases hwrite with hnone | ⟨hnil, hplain⟩
  · rw [hnone, bind_none]
  rw [hplain, if_neg Bool.false_ne_true, hnil] at h
  have hempty : codec.writeData packet state
      ((b.writeCompleted sizeofPacketHeader).writeCompleted sizeofOpcode) = some ((packet.opcode, 0,
          (b.writeCompleted sizeofPacketHeader).writeCompleted sizeofOpcode), state) := by
    rw [PacketCodec.writeData, hplain, if_neg Bool.false_ne_true, hnil, write,
      if_pos rfl]
    rfl
  rw [hempty, bind_some]
  dsimp only
  rw [bind_eq_bind, copyTo_eq_none, bind_none]
  change b.storage.length < b.wpos + 16 + 4
  omega

theorem Delivers.queuePacket (h : Delivers s sent) (hb : b.Active bytes) :
    Delivers (s.queuePacket b) (sent ++ bytes) := by
  obtain ⟨parts, hparts, hsent⟩ := h
  refine ⟨parts ++ [bytes], rel_append hparts (.cons hb .nil), ?_⟩
  rw [flatten_append, ← append_assoc, ← hsent]
  simp [SendingSocket.queuePacket]

/-- A round of the queue loses no packet and swaps none. -/
theorem Delivers.handleQueue (h : Delivers s sent) (write : Option Nat) :
    Delivers (s.handleQueue write).2 sent := by
  obtain ⟨parts, hparts, hsent⟩ := h
  rw [SendingSocket.handleQueue]
  cases hqueue : s.writeQueue with
  | nil => exact ⟨parts, hparts, hsent⟩
  | cons queuedMessage rest =>
    rw [hqueue] at hparts
    cases hparts with
    | @cons _ part _ parts hpart hrest =>
      cases write with
      | none => exact ⟨part :: parts, .cons hpart hrest, hsent⟩
      | some count =>
        rw [flatten_cons, ← append_assoc] at hsent
        dsimp only
        rw [hpart.getActiveSize]
        have hle : min (count + 1) part.length ≤ part.length := Nat.min_le_right _ _
        generalize hsize : min (count + 1) part.length = bytesSent at hle ⊢
        have hlength : (part.take bytesSent).length = bytesSent := length_take_of_le hle
        have hactive : queuedMessage.Active (part.take bytesSent ++ part.drop bytesSent) := by
          rw [take_append_drop]
          exact hpart
        have htake := hactive.take_readPointer
        rw [hlength] at htake
        split
        · rename_i hzero
          have hnil : part = [] := eq_nil_of_length_eq_zero (by omega)
          refine ⟨parts, hrest, ?_⟩
          rw [htake, hnil, take_nil, append_nil]
          rw [hnil, append_nil] at hsent
          exact hsent
        · split
          · refine ⟨part.drop bytesSent :: parts, .cons ?_ hrest, ?_⟩
            · have hread := hactive.readCompleted
              rw [hlength] at hread
              exact hread
            · rw [htake, flatten_cons, ← append_assoc, append_assoc s.stream, take_append_drop]
              exact hsent
          · refine ⟨parts, hrest, ?_⟩
            rw [htake, take_of_length_le (by omega)]
            exact hsent

theorem state_handleQueue (write : Option Nat) : (s.handleQueue write).2.state = s.state := by
  rw [SendingSocket.handleQueue]
  split
  · rfl
  split
  · rfl
  · dsimp only
    repeat' split
    all_goals rfl

theorem Delivers.handleQueues (h : Delivers s sent) (turns : Nat) (writes : Nat → Option Nat) :
    Delivers (s.handleQueues turns writes) sent ∧
      (s.handleQueues turns writes).state = s.state := by
  induction turns generalizing s with
  | zero => exact ⟨h, rfl⟩
  | succ turns ih =>
    rw [SendingSocket.handleQueues]
    have hfirst := h.handleQueue (writes turns)
    have hstate : (s.handleQueue (writes turns)).2.state = s.state := state_handleQueue _
    dsimp only
    split
    · exact ⟨(ih hfirst).1, (ih hfirst).2.trans hstate⟩
    · exact ⟨hfirst, hstate⟩

theorem Delivers.socketUpdate (h : Delivers s sent) (writes : Nat → Option Nat) :
    Delivers (s.socketUpdate writes) sent ∧ (s.socketUpdate writes).state = s.state := by
  rw [SendingSocket.socketUpdate]
  split
  · exact ⟨h, rfl⟩
  · exact h.handleQueues _ writes

theorem Delivers.writeHandlerWrapper (h : Delivers s sent) (write : Option Nat) :
    Delivers (s.writeHandlerWrapper write) sent ∧
      (s.writeHandlerWrapper write).state = s.state := by
  have hwaited : Delivers { s with isWritingAsync := false } sent := h
  exact ⟨hwaited.handleQueue write, state_handleQueue write⟩

section Fill

/-- The bytes that are queued and those of the buffer that is filled, which has some space. -/
structure Filling (sendBufferSize : Nat) (s : SendingSocket σ) (b : MessageBuffer)
    (total : List UInt8) (remaining : Nat) : Prop where
  delivers : ∃ sent bytes, Delivers s sent ∧ b.Active bytes ∧ sent ++ bytes = total
  size : b.storage.length = sendBufferSize
  remaining : b.getRemainingSpace = remaining

variable {total : List UInt8}

section
variable (h : Filling sendBufferSize s b total remaining)
include h

theorem Filling.space : b.wpos + remaining = b.storage.length := by
  obtain ⟨sent, bytes, -, hactive, -⟩ := h.delivers
  have hfits := hactive.fits
  rw [← h.remaining, hactive.getRemainingSpace]
  omega

theorem Filling.write (hfits : (frame codec packet s.state).1.length ≤ remaining) : ∃ b',
      codec.writePacketToBuffer packet s.state b = some (b', (frame codec packet s.state).2) ∧
      Filling sendBufferSize { s with state := (frame codec packet s.state).2 } b'
        (total ++ (frame codec packet s.state).1)
        (remaining - (frame codec packet s.state).1.length) := by
  have hspace := h.space
  obtain ⟨sent, bytes, hdelivers, hactive, htotal⟩ := h.delivers
  obtain ⟨b', hwrite, hactive', hlength, hrpos⟩ := writePacketToBuffer_fits codec packet
    s.state hactive (by omega)
  refine ⟨b', hwrite, ⟨sent, _, hdelivers, hactive', ?_⟩, hlength.trans h.size, ?_⟩
  · rw [← append_assoc, htotal]
  · have hwpos := hactive.wpos
    have hwpos' := hactive'.wpos
    rw [length_append] at hwpos'
    rw [hactive'.getRemainingSpace]
    omega

theorem Filling.write_eq_none (hfits : remaining < (frame codec packet s.state).1.length) :
    codec.writePacketToBuffer packet s.state b = none :=
  writePacketToBuffer_eq_none (by have := h.space; omega)

theorem Filling.flush :
    Delivers (s.queuePacket b) total ∧ Filling sendBufferSize (s.queuePacket b)
      (MessageBuffer.resize { storage := [] } sendBufferSize) total sendBufferSize := by
  obtain ⟨sent, bytes, hdelivers, hactive, htotal⟩ := h.delivers
  have hqueued : Delivers (s.queuePacket b) total := htotal ▸ hdelivers.queuePacket hactive
  have hempty : (resize { storage := [] } sendBufferSize).Active [] :=
    ⟨rfl, Nat.zero_le _, rfl⟩
  have hsize : (resize { storage := [] } sendBufferSize).storage.length =
      sendBufferSize := length_resize
  refine ⟨hqueued, ⟨total, [], hqueued, hempty, append_nil _⟩, hsize, ?_⟩
  rw [hempty.getRemainingSpace, hsize]
  exact Nat.sub_zero _

end

section
variable (codec : PacketCodec σ) (h : Filling sendBufferSize s b total remaining)
include h

/-- A packet that fits is written behind the others; one that does not is written behind the end of
its buffer. -/
theorem writeQueued_spec (packet : EncryptablePacket) :
    if (frame codec packet s.state).1.length ≤
        spaceFor sendBufferSize remaining (codec.reserved packet) then
      ∃ s' b', s.writeQueued codec sendBufferSize b packet = some (s', b') ∧
        Filling sendBufferSize s' b' (total ++ (frame codec packet s.state).1)
          (remainsOf sendBufferSize remaining (codec.reserved packet)
            (frame codec packet s.state).1.length) ∧
        s'.state = (frame codec packet s.state).2
    else s.writeQueued codec sendBufferSize b packet = none := by
  have hshared : ∀ {s : SendingSocket σ} {b : MessageBuffer} {remaining : Nat},
      Filling sendBufferSize s b total remaining →
      if (frame codec packet s.state).1.length ≤ remaining then
        ∃ s' b', ((codec.writePacketToBuffer packet s.state b).bind fun r =>
            some ({ s with state := r.2 }, r.1)) = some (s', b') ∧
          Filling sendBufferSize s' b' (total ++ (frame codec packet s.state).1)
            (remaining - (frame codec packet s.state).1.length) ∧
          s'.state = (frame codec packet s.state).2
      else ((codec.writePacketToBuffer packet s.state b).bind fun r =>
        some (({ s with state := r.2 } : SendingSocket σ), r.1)) = none := by
    intro s b remaining h
    split
    · rename_i hfits
      obtain ⟨b', hwrite, hfilling⟩ := h.write hfits
      exact ⟨_, b', by rw [hwrite, bind_some], hfilling, rfl⟩
    · rename_i hfits
      rw [h.write_eq_none (by omega), bind_none]
  obtain ⟨hqueued, hfresh⟩ := h.flush
  unfold SendingSocket.writeQueued spaceFor remainsOf
  by_cases hremaining : codec.reserved packet ≤ remaining
  · simp only [h.remaining, if_pos hremaining, Nat.not_lt.mpr hremaining, if_false]
    exact hshared h
  simp only [h.remaining, if_neg hremaining, Nat.not_le.mp hremaining, if_true, hfresh.remaining]
  by_cases hsize : codec.reserved packet ≤ sendBufferSize
  · simp only [if_pos hsize]
    exact hshared hfresh
  simp only [if_neg hsize]
  have hown : (ofSize (codec.reserved packet)).Active [] :=
    active_ofSize _
  have hlength : (ofSize (codec.reserved packet)).storage.length =
      codec.reserved packet := length_replicate
  have hwpos : (ofSize (codec.reserved packet)).wpos = 0 := rfl
  have hstate : (s.queuePacket b).state = s.state := rfl
  split
  · rename_i hfits
    obtain ⟨b', hwrite, hactive, -, -⟩ := writePacketToBuffer_fits codec packet
      s.state hown (by omega)
    have hdone := Delivers.queuePacket (s := { s.queuePacket b with
        state := (frame codec packet s.state).2 }) hqueued hactive
    refine ⟨_, _, by rw [bind_eq_bind, hstate, hwrite, bind_some]; rfl,
      ⟨⟨_, [], hdone, ⟨rfl, Nat.zero_le _, rfl⟩, append_nil _⟩, hfresh.size, hfresh.remaining⟩, rfl⟩
  · rw [bind_eq_bind, hstate, writePacketToBuffer_eq_none (by omega), bind_none]

theorem foldlM_writeQueued (packets : List EncryptablePacket) :
    (Fits codec sendBufferSize remaining packets s.state → ∃ s' b' remaining',
      packets.foldlM (fun r queued => r.1.writeQueued codec sendBufferSize r.2 queued) (s, b) =
        some (s', b') ∧
      Filling sendBufferSize s' b' (total ++ (frames codec packets s.state).1) remaining' ∧
      s'.state = (frames codec packets s.state).2) ∧
    (¬Fits codec sendBufferSize remaining packets s.state →
      packets.foldlM (fun r queued => r.1.writeQueued codec sendBufferSize r.2 queued) (s, b) =
        none) := by
  induction packets generalizing s b total remaining with
  | nil =>
    refine ⟨fun _ => ⟨s, b, remaining, rfl, ?_, rfl⟩, fun hfits => absurd trivial hfits⟩
    rw [frames, append_nil]
    exact h
  | cons packet packets ih =>
    have hwrite := writeQueued_spec codec h packet
    rw [foldlM_cons, Fits]
    split at hwrite
    · rename_i hfits
      obtain ⟨s', b', hwrite, hfilling, hstate⟩ := hwrite
      have hrest := ih hfilling
      rw [hstate, append_assoc] at hrest
      rw [hwrite, bind_eq_bind, bind_some]
      exact ⟨fun hall => hrest.1 hall.2, fun hall => hrest.2 fun hothers => hall ⟨hfits, hothers⟩⟩
    · rename_i hfits
      rw [hwrite, bind_eq_bind, bind_none]
      exact ⟨fun hall => absurd hall.1 hfits, fun _ => rfl⟩

end

end Fill

theorem Delivers.filling (h : Delivers s sent) (sendBufferSize : Nat) :
    Filling sendBufferSize s (MessageBuffer.ofSize sendBufferSize) sent sendBufferSize := by
  have hempty : (ofSize sendBufferSize).Active [] := active_ofSize _
  have hsize : (ofSize sendBufferSize).storage.length = sendBufferSize :=
    length_replicate
  refine ⟨⟨sent, [], h, hempty, append_nil _⟩, hsize, ?_⟩
  rw [hempty.getRemainingSpace, hsize]
  exact Nat.sub_zero _

theorem Filling.finish {total : List UInt8} (h : Filling sendBufferSize s b total remaining) :
    Delivers (if b.getActiveSize > 0 then s.queuePacket b else s) total := by
  obtain ⟨sent, bytes, hdelivers, hactive, htotal⟩ := h.delivers
  split
  · exact htotal ▸ hdelivers.queuePacket hactive
  rename_i hnone
  rw [hactive.getActiveSize] at hnone
  have hnil : bytes = [] := eq_nil_of_length_eq_zero (by omega)
  rw [hnil, append_nil] at htotal
  exact htotal ▸ hdelivers

theorem update_spec (codec : PacketCodec σ) (sendBufferSize : Nat) (h : Delivers s sent)
    (bufferQueue : List EncryptablePacket) (writes : Nat → Option Nat) :
    (Fits codec sendBufferSize sendBufferSize bufferQueue s.state → ∃ s',
      s.update codec sendBufferSize bufferQueue writes = some s' ∧
      Delivers s' (sent ++ (frames codec bufferQueue s.state).1) ∧
      s'.state = (frames codec bufferQueue s.state).2) ∧
    (¬Fits codec sendBufferSize sendBufferSize bufferQueue s.state →
      s.update codec sendBufferSize bufferQueue writes = none) := by
  rw [SendingSocket.update]
  cases bufferQueue with
  | nil =>
    obtain ⟨hdelivers, hstate⟩ := h.socketUpdate writes
    refine ⟨fun _ => ⟨s.socketUpdate writes, rfl, ?_, hstate⟩, fun hfits => absurd trivial hfits⟩
    rw [frames, append_nil]
    exact hdelivers
  | cons packet packets =>
    rw [if_neg (by simp)]
    obtain ⟨hfits, hnone⟩ := foldlM_writeQueued codec (h.filling sendBufferSize) (packet :: packets)
    refine ⟨fun hall => ?_, fun hall => ?_⟩
    · obtain ⟨s', b', remaining', hfold, hfilling, hstate⟩ := hfits hall
      obtain ⟨hdelivers, hlast⟩ := hfilling.finish.socketUpdate writes
      rw [hfold, bind_eq_bind, bind_some]
      refine ⟨_, rfl, hdelivers, hlast.trans (Eq.trans ?_ hstate)⟩
      split
      · rfl
      · rfl
    · rw [hnone hall, bind_eq_bind, bind_none]

theorem run_spec (codec : PacketCodec σ) (sendBufferSize : Nat) (h : Delivers s sent)
    (steps : List SendingStep) :
    (AllFit codec sendBufferSize steps s.state → ∃ s', s.run codec sendBufferSize steps = some s' ∧
      Delivers s' (sent ++ framesOf codec steps s.state)) ∧
    (¬AllFit codec sendBufferSize steps s.state → s.run codec sendBufferSize steps = none) := by
  induction steps generalizing s sent with
  | nil =>
    refine ⟨fun _ => ⟨s, rfl, ?_⟩, fun hfits => absurd trivial hfits⟩
    rw [framesOf, append_nil]
    exact h
  | cons step steps ih =>
    cases step with
    | update bufferQueue writes =>
      have hupdate := update_spec codec sendBufferSize h bufferQueue writes
      rw [SendingSocket.run, foldlM_cons, SendingStep.exec, AllFit, framesOf]
      by_cases hfits : Fits codec sendBufferSize sendBufferSize bufferQueue s.state
      · obtain ⟨s', hdone, hdelivers, hstate⟩ := hupdate.1 hfits
        have hrest := ih hdelivers
        rw [hstate, append_assoc] at hrest
        rw [hdone, bind_eq_bind, bind_some]
        exact ⟨fun hall => hrest.1 hall.2,
          fun hall => hrest.2 fun hothers => hall ⟨hfits, hothers⟩⟩
      · rw [hupdate.2 hfits, bind_eq_bind, bind_none]
        exact ⟨fun hall => absurd hall.1 hfits, fun _ => rfl⟩
    | writeHandlerWrapper write =>
      obtain ⟨hdelivers, hstate⟩ := h.writeHandlerWrapper write
      have hrest := ih hdelivers
      rw [hstate] at hrest
      exact hrest

/-- No write of a run is outside a buffer, and the stream gets the frames of the packets in their
order, exactly when the packets fit. -/
theorem outgoing_packets (codec : PacketCodec σ) (sendBufferSize : Nat) (steps : List SendingStep)
    (state : σ) :
    (∃ s, SendingSocket.run codec sendBufferSize { state } steps = some s ∧
      Delivers s (framesOf codec steps state)) ↔ AllFit codec sendBufferSize steps state := by
  have hempty : Delivers ({ state } : SendingSocket σ) [] := ⟨[], .nil, rfl⟩
  have hrun := run_spec codec sendBufferSize hempty steps
  constructor
  · rintro ⟨s, hdone, -⟩
    by_contra hall
    rw [hrun.2 hall] at hdone
    cases hdone
  · exact hrun.1

/-- A stream that gives back as many bytes as it may, as one that cannot compress them does. -/
def incompressible : PacketCodec Unit where
  deflateBound n := n + 7
  adler32 _ _ := 0
  compressPacket packet _ := (List.replicate (packet.data.length + 4 + 7) 0, ())
  encryptSend data _ := ((data, List.replicate 12 0), ())
  length_compressPacket _ _ := Nat.le_of_eq length_replicate
  length_encryptSend _ _ := rfl
  length_tag _ _ := length_replicate

theorem reserved_incompressible (opcode : Nat) (data : List UInt8)
    (h : MinSizeForCompression < data.length) :
    incompressible.reserved ⟨opcode, data, true⟩ = data.length + 39 ∧
      (frame incompressible ⟨opcode, data, true⟩ ()).1.length = data.length + 43 := by
  have hcompresses : compresses ⟨opcode, data, true⟩ = true := by
    rw [compresses, Bool.and_true]
    exact decide_eq_true h
  have hwanted : (MinSizeForCompression < data.length + 4 && true) = true := by
    rw [Bool.and_true]
    exact decide_eq_true (Nat.lt_add_right 4 h)
  have hlength : (incompressible.compressPacket ⟨opcode, data, true⟩ ()).1.length =
      data.length + 11 := length_replicate
  rw [length_frame, payload, if_pos hcompresses, PacketCodec.reserved, if_pos hwanted,
    length_append, length_compressedWorldPacket, hlength]
  exact ⟨rfl, by omega⟩

/-- 1025 bytes with a send buffer of 1024: the packet has a buffer of its own, and its last bytes
are behind the end of it. -/
theorem opcode_outside : ¬∀ (codec : PacketCodec Unit) (sendBufferSize : Nat)
    (steps : List SendingStep) (state : Unit),
    ∃ s, SendingSocket.run codec sendBufferSize { state } steps = some s ∧
      Delivers s (framesOf codec steps state) := by
  intro h
  have hempty : Delivers ({ state := () } : SendingSocket Unit) [] := ⟨[], .nil, rfl⟩
  have hlength : (replicate 1025 (0 : UInt8)).length = 1025 := length_replicate
  generalize replicate 1025 (0 : UInt8) = data at hlength
  have hrun := run_spec incompressible 1024 hempty [.update [⟨1, data, true⟩] fun _ => none]
  obtain ⟨s, hdone, -⟩ := h incompressible 1024 [.update [⟨1, data, true⟩] fun _ => none] ()
  obtain ⟨hreserved, hframe⟩ := reserved_incompressible 1 data (by rw [hlength]; decide)
  rw [hrun.2 ?_] at hdone
  · cases hdone
  · intro hall
    have hfits : (frame incompressible ⟨1, data, true⟩ ()).1.length ≤
        spaceFor 1024 1024 (incompressible.reserved ⟨1, data, true⟩) := hall.1.1
    rw [hframe, hreserved, hlength] at hfits
    exact absurd hfits (by decide)

end LegionServer.Guarantees.OutgoingPackets
