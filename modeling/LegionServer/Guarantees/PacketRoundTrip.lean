import LegionServer.Source.Packets.ReaderEffects

/-!
# What is written into a packet can be read from it

The reader runs behind the writer: what the writer has written so far are the bits that
the reader has passed, and they agree on where bytes start.
-/
namespace LegionServer.Guarantees.PacketRoundTrip
open Library Source.Common Source.Packets List
open Source.Packets.ByteBuffer

variable {w w' r final : ByteBuffer} {field : PacketField} {fields : List PacketField}

/-- What a call may write so that the mirrored call reads it: at most 32 bits at once, no NUL in
a string that ends with one, no empty string while bits are pending, and valid UTF-8 where
the reader requires it. -/
def Readable (w : ByteBuffer) : PacketField → Prop
  | .bits _ count => 0 < count ∧ count ≤ 32
  | .cString value requireValidUtf8 =>
    0 ∉ value ∧ (requireValidUtf8 = true → Utf8.isValid value = true)
  | .string value requireValidUtf8 => (value ≠ [] ∨ w.hasUnfinishedBitPack = false) ∧
    (requireValidUtf8 = true → Utf8.isValid value = true)
  | _ => True

def AllReadable : List PacketField → ByteBuffer → Prop
  | [], _ => True
  | field :: fields, w => Readable w field ∧ ∀ w', field.write w = .ok w' → AllReadable fields w'

/-- The reader `r` of the final bytes is where the writer `w` was. -/
structure Mirrors (w r final : ByteBuffer) : Prop where
  writing : Writing w
  reading : Reading r
  storage : r.storage = final.storage
  stream : bitsOfBytes final.storage = w.stream ++ r.unread

theorem write_ends (h : Writing w) (field : PacketField) :
    Ends (fun _ => True) (field.write w) fun w' => Writing w' ∧ Extends w w' := by
  cases field with
  | bit value => exact (writeBit_ends h value).mono fun after hafter => ⟨hafter.1, hafter.2.1⟩
  | bits value count =>
    exact (writeBits_ends h value count).mono fun after hafter => ⟨hafter.1, hafter.2.1⟩
  | integer type value =>
    exact (appendInteger_ends h type value).mono fun after hafter =>
      ⟨hafter.writing, hafter.extends⟩
  | flushBits =>
    exact (flushBits_ends h).mono fun after hafter => ⟨hafter.1.writing, hafter.1.extends⟩
  | cString value _ =>
    exact (writeCString_ends h value).mono fun after hafter => ⟨hafter.writing, hafter.extends⟩
  | string value _ =>
    refine (writeString_ends h value).mono fun after hafter => ?_
    by_cases hvalue : value = []
    · rw [hafter.2 hvalue]
      exact ⟨h, Extends.refl w⟩
    · exact ⟨(hafter.1 hvalue).writing, (hafter.1 hvalue).extends⟩

theorem writePacket_ends (h : Writing w) (fields : List PacketField) :
    Ends (fun _ => True) (writePacket fields w) fun w' => Writing w' ∧ Extends w w' := by
  induction fields generalizing w with
  | nil => exact Ends.ok ⟨h, Extends.refl w⟩
  | cons field fields ih =>
    refine (write_ends h field).bind fun after hafter => ?_
    exact (ih hafter.1).mono fun ended hended => ⟨hended.1, hafter.2.trans hended.2⟩

theorem Mirrors.bytes (h : Mirrors w r final) {src : List UInt8} (hwritten : Appended w w' src)
    (hfinal : w'.storage <+: final.storage) :
    ∃ more, r.storage.drop r.rpos = src ++ more ∧
      Mirrors w' { r with bitpos := 8, curbitval := 0, rpos := r.rpos + src.length } final := by
  obtain ⟨base, pad, hstorage, hbits, hpad, _⟩ := hwritten.follows
  obtain ⟨more, hmore⟩ := hfinal
  have hbase : base.length = r.rpos := by
    have hall := congrArg List.length h.stream
    have hpadded := congrArg List.length hbits
    rw [← h.storage, unread, length_append, length_append, length_bitsOfBytes,
      length_bitsOfBytes, length_msbBits, length_drop] at hall
    rw [length_append, length_bitsOfBytes] at hpadded
    have hrpos := h.reading.rpos
    have hpos := h.reading.bitpos_pos
    omega
  have hsplit : r.storage = base ++ (src ++ more) := by
    rw [h.storage, ← hmore, hstorage, append_assoc]
  have hdrop : r.storage.drop r.rpos = src ++ more := by
    rw [hsplit, ← hbase, drop_left]
  refine ⟨more, hdrop, hwritten.writing, ⟨?_, Nat.succ_pos 7, Nat.le_refl 8⟩, h.storage, ?_⟩
  · dsimp only
    rw [hsplit, ← hbase, length_append, length_append]
    omega
  · rw [unread_of_reset rfl, stream_of_flushed hwritten.bitpos]
    rw [drop_add hdrop, ← bitsOfBytes_append, hmore]

theorem Mirrors.bits (h : Mirrors w r final) {bits : List Bool} (hwriting : Writing w')
    (hstream : w'.stream = w.stream ++ bits) (hfinal : w'.stream <+: bitsOfBytes final.storage) :
    ∃ rest, r.unread = bits ++ rest ∧ ∀ r', Took r r' rest → Mirrors w' r' final := by
  obtain ⟨rest, hrest⟩ := hfinal
  have hunread : r.unread = bits ++ rest := by
    rw [hstream, h.stream, append_assoc] at hrest
    exact (append_cancel_left hrest).symm
  refine ⟨rest, hunread, fun r' htook => ⟨hwriting, htook.reading, htook.storage.trans h.storage, ?_⟩⟩
  rw [htook.unread, hrest]

/-- The reader follows the writer, field by field. -/
theorem Mirrors.read (h : Mirrors w r final) (hreadable : Readable w field)
    (hwrite : field.write w = .ok w') (hfinal : Extends w' final) (hflushed : final.bitpos = 8) :
    ∃ r', field.read r = .ok (field.written, r') ∧ Mirrors w' r' final := by
  have hstream : w'.stream <+: bitsOfBytes final.storage := by
    rw [← stream_of_flushed hflushed]
    exact hfinal.stream
  cases field with
  | bit value =>
    obtain ⟨hwriting, _, hbits⟩ := (writeBit_ends h.writing value).post_of_ok hwrite
    obtain ⟨rest, hunread, hnext⟩ := h.bits hwriting hbits hstream
    obtain ⟨r', hread, htook⟩ := readBit_spec h.reading hunread
    refine ⟨r', ?_, hnext r' htook⟩
    rw [PacketField.read, hread]
    rfl
  | bits value count =>
    obtain ⟨hwriting, _, hbits⟩ := (writeBits_ends h.writing value count).post_of_ok hwrite
    obtain ⟨rest, hunread, hnext⟩ := h.bits hwriting hbits hstream
    obtain ⟨r', hread, htook⟩ := readBits_spec h.reading hunread
    refine ⟨r', ?_, hnext r' htook⟩
    rw [PacketField.read, hread]
    rfl
  | integer type value =>
    have hwritten := (appendInteger_ends h.writing type value).post_of_ok hwrite
    obtain ⟨more, hdrop, hnext⟩ := h.bytes hwritten hfinal.storage
    rw [length_bytesOf] at hnext
    refine ⟨_, ?_, hnext⟩
    rw [PacketField.read, readInteger_eq hdrop]
    rfl
  | flushBits =>
    have hwritten := ((flushBits_ends h.writing).post_of_ok hwrite).1
    obtain ⟨_, _, hnext⟩ := h.bytes hwritten hfinal.storage
    exact ⟨_, rfl, hnext⟩
  | cString value requireValidUtf8 =>
    have hwritten := (writeCString_ends h.writing value).post_of_ok hwrite
    obtain ⟨more, hdrop, hnext⟩ := h.bytes hwritten hfinal.storage
    rw [length_append, length_singleton] at hnext
    refine ⟨_, ?_, hnext⟩
    rw [PacketField.read, readCString_eq hdrop hreadable.1 hreadable.2]
    rfl
  | string value requireValidUtf8 =>
    obtain ⟨hsome, hnone⟩ := (writeString_ends h.writing value).post_of_ok hwrite
    by_cases hvalue : value = []
    · -- nothing was written, and there was nothing to flush
      have hw : w.bitpos = 8 := by
        simpa [hasUnfinishedBitPack, hvalue] using hreadable.1
      have hempty : Appended w w' [] := by
        rw [hnone hvalue]
        exact ((flushBits_ends h.writing).post_of_ok (if_pos hw)).1
      obtain ⟨_, _, hnext⟩ := h.bytes hempty hfinal.storage
      refine ⟨_, ?_, hnext⟩
      rw [PacketField.read, hvalue]
      exact congrArg (Except.map _) (readString_empty h.reading.rpos)
    · obtain ⟨more, hdrop, hnext⟩ := h.bytes (hsome hvalue) hfinal.storage
      refine ⟨_, ?_, hnext⟩
      rw [PacketField.read, readString_eq hdrop hvalue hreadable.2]
      rfl

theorem readPacket_mirrors (h : Mirrors w r final) (hreadable : AllReadable fields w)
    (hwrite : writePacket fields w = .ok final) (hflushed : final.bitpos = 8) :
    ∃ r', readPacket fields r = .ok (fields.map PacketField.written, r') ∧
      Mirrors final r' final := by
  induction fields generalizing w r with
  | nil =>
    cases hwrite
    exact ⟨r, rfl, h⟩
  | cons field fields ih =>
    cases hfirst : field.write w with
    | error e =>
      rw [writePacket, hfirst] at hwrite
      cases hwrite
    | ok w' =>
      rw [writePacket, hfirst] at hwrite
      have hw' := (write_ends h.writing field).post_of_ok hfirst
      have hfinal := ((writePacket_ends hw'.1 fields).post_of_ok hwrite).2
      obtain ⟨r', hread, hnext⟩ := h.read hreadable.1 hfirst hfinal hflushed
      obtain ⟨r'', hrest, hlast⟩ := ih hnext (hreadable.2 w' hfirst) hwrite
      refine ⟨r'', ?_, hlast⟩
      rw [readPacket, hread]
      change (readPacket fields r' >>= _) = _
      rw [hrest]
      rfl

theorem allReadable_flushed (h : AllReadable fields w) :
    AllReadable (fields ++ [.flushBits]) w := by
  induction fields generalizing w with
  | nil => exact ⟨trivial, fun _ _ => trivial⟩
  | cons field fields ih => exact ⟨h.1, fun w' hw' => ih (h.2 w' hw')⟩

theorem writing_empty : Writing {} := ⟨rfl, Nat.succ_pos 7, Nat.le_refl 8, rfl⟩

/-- A sequence of writes to an empty buffer that ends with `FlushBits` gives bytes from which
the mirrored sequence of reads returns what was written, without an exception, and reads
all of them. -/
theorem packet_round_trip (hreadable : AllReadable fields {})
    (hwrite : writePacket (fields ++ [.flushBits]) {} = .ok final) :
    ∃ r, readPacket (fields ++ [.flushBits]) (ofBytes final.storage) =
        .ok ((fields ++ [PacketField.flushBits]).map PacketField.written, r) ∧ r.rpos = r.size ∧
      r.storage = final.storage := by
  have hflushed : final.bitpos = 8 := by
    rw [writePacket_append] at hwrite
    cases hbefore : writePacket fields {} with
    | error e =>
      rw [hbefore] at hwrite
      cases hwrite
    | ok before =>
      have hwriting := ((writePacket_ends writing_empty fields).post_of_ok hbefore).1
      rw [hbefore] at hwrite
      change before.flushBits >>= pure = .ok final at hwrite
      rw [bind_pure] at hwrite
      exact ((flushBits_ends hwriting).post_of_ok hwrite).1.bitpos
  have hstart : Mirrors {} (ofBytes final.storage) final :=
    ⟨writing_empty, ⟨Nat.zero_le _, Nat.succ_pos 7, Nat.le_refl 8⟩, rfl, rfl⟩
  obtain ⟨r, hread, hlast⟩ :=
    readPacket_mirrors hstart (allReadable_flushed hreadable) hwrite hflushed
  refine ⟨r, hread, ?_, hlast.storage⟩
  have hnone := congrArg List.length hlast.stream
  rw [stream_of_flushed hflushed, unread, length_append, length_append,
    length_bitsOfBytes (r.storage.drop r.rpos), length_drop] at hnone
  have hrpos := hlast.reading.rpos
  unfold size
  omega

/-- Bits, an integer, strings and bits between them. -/
theorem packet_round_trip_mixed :
    ∃ final r, writePacket ([.bits 0x2f5 10, .bit true, .integer .uint16 0xbeef#16,
        .string [0x41, 0xc3, 0xa9] true, .bits 7 2, .cString [0x42] true] ++ [.flushBits]) {} =
          .ok final ∧
      readPacket ([.bits 0x2f5 10, .bit true, .integer .uint16 0xbeef#16,
        .string [0x41, 0xc3, 0xa9] true, .bits 7 2, .cString [0x42] true] ++ [.flushBits])
        (ofBytes final.storage) = .ok ([.bits 0x2f5, .bit true, .integer .uint16 0xbeef#16,
          .string [0x41, 0xc3, 0xa9], .bits 3, .string [0x42], .nothing], r) := by
  obtain ⟨final, hwrite⟩ : ∃ final, writePacket ([.bits 0x2f5 10, .bit true,
      .integer .uint16 0xbeef#16, .string [0x41, 0xc3, 0xa9] true, .bits 7 2,
      .cString [0x42] true] ++ [.flushBits]) {} = .ok final := ⟨_, rfl⟩
  have hreadable : AllReadable [.bits 0x2f5 10, .bit true, .integer .uint16 0xbeef#16,
      .string [0x41, 0xc3, 0xa9] true, .bits 7 2, .cString [0x42] true] {} := by
    refine ⟨⟨by decide, by decide⟩, fun _ _ => ⟨trivial, fun _ _ => ⟨trivial, fun _ _ => ⟨?_,
      fun _ _ => ⟨⟨by decide, by decide⟩, fun _ _ => ⟨?_, fun _ _ => trivial⟩⟩⟩⟩⟩⟩
    · exact ⟨.inl (cons_ne_nil _ _), fun _ => by decide⟩
    · exact ⟨by decide, fun _ => by decide⟩
  obtain ⟨r, hread, _⟩ := packet_round_trip hreadable hwrite
  exact ⟨final, r, hwrite, hread⟩

/-- A string that is not valid UTF-8 can be written, but `ReadString` does not accept it. -/
theorem invalid_utf8_not_read :
    ∃ final, writePacket [.string [0xff] true, .flushBits] {} = .ok final ∧
      readPacket [.string [0xff] true, .flushBits] (ofBytes final.storage) =
        .error (.invalidValueException "utf8 string" [0xff]) :=
  ⟨ofBytes [0xff], rfl, rfl⟩

end LegionServer.Guarantees.PacketRoundTrip
