import LegionServer.Reference.BitStream
import LegionServer.Source.Packets.ReaderEffects

/-!
# Many bits at once are as many single bits

`WriteBits` and the calls of `WriteBit` append the same bits to the stream, which tells
what buffer is left.
-/
namespace LegionServer.Guarantees.BitPacking
open Library Source.Packets Reference.BitStream List
open Source.Packets.ByteBuffer

variable {b b' b'' : ByteBuffer} {bits more : List Bool}

section Reading

/-- Calls of `ReadBit`, one after the other. -/
def readEachBit : Nat → ByteBuffer → Except ByteBufferError (List Bool × ByteBuffer)
  | 0, b => .ok ([], b)
  | n + 1, b => do
    let (bit, b) ← b.readBit
    let (bits, b) ← readEachBit n b
    .ok (bit :: bits, b)

/-- Bits were taken from the front of what is unread. -/
structure Taken (b b' : ByteBuffer) (bits : List Bool) : Prop where
  storage : b'.storage = b.storage
  bitpos_pos : 0 < b'.bitpos
  bitpos_le : b'.bitpos ≤ 8
  position : 8 * b'.rpos + b'.bitpos = 8 * b.rpos + b.bitpos + bits.length
  unread : b.unread = bits ++ b'.unread

/-- The exception of a reader that has come to the end of the bytes. -/
def outOfBytes (b : ByteBuffer) : ByteBufferError :=
  .positionException (max b.rpos b.size) b.size 1

/-- The same place in the same bytes, with the same bits left. -/
structure SamePlace (b b' : ByteBuffer) : Prop where
  storage : b'.storage = b.storage
  rpos : b'.rpos = b.rpos
  bitpos : b'.bitpos = b.bitpos
  unread : b'.unread = b.unread

theorem Taken.samePlace (h : Taken b b' bits) (h' : Taken b b'' bits) : SamePlace b' b'' := by
  have hposition := h.position
  have hposition' := h'.position
  have hpos := h.bitpos_pos
  have hpos' := h'.bitpos_pos
  have hle := h.bitpos_le
  have hle' := h'.bitpos_le
  refine ⟨h'.storage.trans h.storage.symm, by omega, by omega, ?_⟩
  exact append_cancel_left (h'.unread.symm.trans h.unread)

theorem Taken.trans (h : Taken b b' bits) (h' : Taken b' b'' more) :
    Taken b b'' (bits ++ more) := by
  refine ⟨h'.storage.trans h.storage, h'.bitpos_pos, h'.bitpos_le, ?_, ?_⟩
  · rw [h'.position, h.position, length_append, Nat.add_assoc]
  · rw [h.unread, h'.unread, append_assoc]

theorem length_unread (b : ByteBuffer) :
    b.unread.length = (8 - b.bitpos) + 8 * (b.size - b.rpos) := by
  rw [unread, length_append, length_msbBits, length_bitsOfBytes, length_drop, size]

variable {rest : List Bool}

theorem Taken.of_took (h : Reading b) (htook : Took b b' rest) (hunread : b.unread = bits ++ rest) :
    Taken b b' bits := by
  have hlength := length_unread b
  have hlength' := length_unread b'
  have hrpos := h.rpos
  have hrpos' := htook.reading.rpos
  have hle := h.bitpos_le
  have hle' := htook.reading.bitpos_le
  rw [htook.unread] at hlength'
  rw [hunread, length_append] at hlength
  simp only [size] at hlength hlength'
  rw [htook.storage] at hlength' hrpos'
  refine ⟨htook.storage, htook.reading.bitpos_pos, hle', ?_, htook.unread ▸ hunread⟩
  omega

/-- Where the bit pack is not enough, there are bytes to read. -/
theorem reading_of_more (hpos : 0 < b.bitpos) (hle : b.bitpos ≤ 8)
    (hmore : 8 - b.bitpos < b.unread.length) : Reading b := by
  rw [length_unread, size] at hmore
  exact ⟨by omega, hpos, hle⟩

theorem readBit_taken (hpos : 0 < b.bitpos) (hle : b.bitpos ≤ 8) {bit : Bool}
    (hunread : b.unread = bit :: rest) : ∃ b', b.readBit = .ok (bit, b') ∧ Taken b b' [bit] := by
  rcases Nat.lt_or_ge b.bitpos 8 with hpack | hfull
  · obtain ⟨hbit, hrest⟩ := nextBit_eq hpack hunread
    refine ⟨{ b with bitpos := b.bitpos + 1 }, ?_, rfl, Nat.succ_pos _, hpack, rfl, ?_⟩
    · unfold readBit
      rw [if_neg (Nat.not_le_of_lt hpack)]
      exact congrArg (fun bit => Except.ok (bit, _)) hbit
    · rw [hunread, hrest]
      rfl
  · have hreading : Reading b := reading_of_more hpos hle (by rw [hunread, length_cons]; omega)
    obtain ⟨b', hread, htook⟩ := readBit_spec hreading hunread
    exact ⟨b', hread, Taken.of_took hreading htook hunread⟩

theorem read_outOfBytes (hend : b.size ≤ b.rpos) : b.read 1 = .error (outOfBytes b) := by
  unfold ByteBuffer.read outOfBytes
  rw [if_pos (Nat.lt_succ_of_le hend), Nat.max_eq_left hend]

theorem readBit_outOfBytes (hle : b.bitpos ≤ 8) (hnone : b.unread = []) :
    b.readBit = .error (outOfBytes b) := by
  have hlength := length_unread b
  rw [hnone, length_nil] at hlength
  unfold readBit readCurbitval
  rw [if_pos (by omega), read_outOfBytes (by omega)]
  rfl

theorem Taken.outOfBytes (h : Taken b b' bits) (hpos : 0 < b.bitpos) (hle : b.bitpos ≤ 8) :
    outOfBytes b' = outOfBytes b := by
  have hsize : b'.size = b.size := congrArg List.length h.storage
  have hlength := length_unread b
  have hlength' := length_unread b'
  have hposition := h.position
  have hle' := h.bitpos_le
  rw [h.unread, length_append] at hlength
  have hmax : max b'.rpos b.size = max b.rpos b.size := by omega
  rw [BitPacking.outOfBytes, BitPacking.outOfBytes, hsize, hmax]

variable {n : Nat}

section
variable (hpos : 0 < b.bitpos) (hle : b.bitpos ≤ 8)
include hpos hle

theorem readEachBit_taken (hn : n ≤ b.unread.length) :
    ∃ bits b', readEachBit n b = .ok (bits, b') ∧ bits.length = n ∧ Taken b b' bits := by
  induction n generalizing b with
  | zero => exact ⟨[], b, rfl, rfl, rfl, hpos, hle, rfl, rfl⟩
  | succ n ih =>
    cases hunread : b.unread with
    | nil =>
      rw [hunread] at hn
      exact absurd hn (Nat.not_succ_le_zero n)
    | cons bit rest =>
      obtain ⟨b', hread, htaken⟩ := readBit_taken hpos hle hunread
      have hlength := congrArg List.length htaken.unread
      rw [length_append, length_singleton] at hlength
      obtain ⟨bits, b'', hrest, hbits, htaken'⟩ :=
        ih htaken.bitpos_pos htaken.bitpos_le (by omega)
      refine ⟨bit :: bits, b'', ?_, ?_, htaken.trans htaken'⟩
      · rw [readEachBit, hread]
        change (readEachBit n b' >>= fun r => Except.ok (bit :: r.1, r.2)) = _
        rw [hrest]
        rfl
      · rw [length_cons, hbits]

theorem readEachBit_outOfBytes (hn : b.unread.length < n) :
    readEachBit n b = .error (outOfBytes b) := by
  induction n generalizing b with
  | zero => exact absurd hn (Nat.not_lt_zero _)
  | succ n ih =>
    rw [readEachBit]
    cases hunread : b.unread with
    | nil =>
      rw [readBit_outOfBytes hle hunread]
      rfl
    | cons bit rest =>
      obtain ⟨b', hread, htaken⟩ := readBit_taken hpos hle hunread
      have hlength := congrArg List.length htaken.unread
      rw [length_append, length_singleton] at hlength
      rw [hread]
      change (readEachBit n b' >>= fun r => Except.ok (bit :: r.1, r.2)) = _
      rw [ih htaken.bitpos_pos htaken.bitpos_le (by omega), htaken.outOfBytes hpos hle]
      rfl

theorem readBits_taken (hbits : bits.length ≤ 32) (hunread : b.unread = bits ++ rest) :
    ∃ value b', b.readBits bits.length = .ok (value, b') ∧ value.toNat = numberOf bits ∧
      Taken b b' bits := by
  have hlt := numberOf_lt bits
  have hvalue : numberOf bits % 2 ^ bits.length = numberOf bits := Nat.mod_eq_of_lt hlt
  have hnumber : (UInt32.ofNat (numberOf bits)).toNat = numberOf bits := by
    rw [UInt32.toNat_ofNat', Nat.mod_eq_of_lt]
    exact Nat.lt_of_lt_of_le hlt (Nat.pow_le_pow_right (by decide) hbits)
  have hbitsOf : b.unread = msbBits bits.length (numberOf bits) ++ rest := by
    rw [msbBits_numberOf, hunread]
  by_cases hfits : bits.length ≤ 8 - b.bitpos
  · obtain ⟨hread, hrest⟩ := packedBits_eq hfits hbitsOf
    rw [hvalue] at hread
    refine ⟨UInt32.ofNat (numberOf bits), { b with bitpos := b.bitpos + bits.length }, ?_, hnumber,
      rfl, Nat.add_pos_left hpos _, ?_, (Nat.add_assoc ..).symm, ?_⟩
    · unfold readBits
      rw [if_neg (Nat.not_lt_of_le hfits)]
      exact congrArg (fun value => Except.ok (UInt32.ofNat value, _)) hread
    · dsimp only
      omega
    · rw [hunread, hrest]
  · have hlength : 8 - b.bitpos < b.unread.length := by
      rw [hunread, length_append]
      omega
    have hreading := reading_of_more hpos hle hlength
    obtain ⟨b', hread, htook⟩ := readBits_spec hreading hbitsOf
    rw [hvalue] at hread
    exact ⟨_, b', hread, hnumber, Taken.of_took hreading htook hunread⟩

end

theorem readFullBytes_outOfBytes (b : ByteBuffer) (bits value : Nat) (hn : 8 * (b.size - b.rpos) < bits) :
    Ends (fun e => e = outOfBytes b) (readFullBytes bits value b)
      fun r => r.1.2 ≠ 0 ∧ r.2.size ≤ r.2.rpos ∧ outOfBytes r.2 = outOfBytes b := by
  induction bits using Nat.strongRecOn generalizing b value with
  | ind bits ih =>
    rcases Nat.lt_or_ge bits 8 with hless | hge
    · rw [readFullBytes]
      · have hsome : bits ≠ 0 := Nat.ne_of_gt (Nat.zero_lt_of_lt hn)
        have hend : b.size ≤ b.rpos := by omega
        exact Ends.ok ⟨hsome, hend, rfl⟩
      · intro k hk
        omega
    · obtain ⟨k, rfl⟩ : ∃ k, bits = k + 8 := ⟨bits - 8, (Nat.sub_add_cancel hge).symm⟩
      rw [readFullBytes]
      rcases Nat.lt_or_ge b.rpos b.storage.length with hbyte | hend
      · obtain ⟨byte, hdrop⟩ := exists_byte hbyte
        have hnext : outOfBytes { b with bitpos := 8, curbitval := 0, rpos := b.rpos + 1 } =
            outOfBytes b := by
          unfold outOfBytes size
          rw [Nat.max_eq_right hbyte, Nat.max_eq_right (Nat.le_of_lt hbyte)]
        refine Ends.bind_ok (readByte_eq hdrop) ?_
        have hrest := ih k (by omega) { b with
          bitpos := 8, curbitval := 0, rpos := b.rpos + 1 } (value |||
            (BitVec.ofNat 8 byte.toNat).toNat <<< k) (by unfold size at hn ⊢; dsimp only; omega)
        rw [hnext] at hrest
        exact hrest
      · have hread : b.read IntegerType.uint8.sizeof = .error (outOfBytes b) :=
          read_outOfBytes hend
        unfold readInteger
        rw [hread]
        exact Ends.error rfl

theorem readBits_outOfBytes (hn : b.unread.length < n) :
    Ends (fun e => e = outOfBytes b) (b.readBits n) fun _ => False := by
  rw [length_unread] at hn
  unfold readBits
  rw [if_pos (by omega)]
  refine (readFullBytes_outOfBytes _ (n - (8 - b.bitpos)) _ (by omega)).bind ?_
  rintro ⟨⟨value, bits⟩, b'⟩ ⟨hsome, hend, hout⟩
  have hlast : b'.readCurbitval = .error (outOfBytes b) := by
    unfold readCurbitval
    rw [read_outOfBytes hend, hout]
    rfl
  dsimp only at hsome ⊢
  rw [if_pos hsome, hlast]
  exact Ends.error rfl

/-- Two reads that return the same number and stop at the same place, or throw the same. -/
def ReadAlike : Except ByteBufferError (UInt32 × ByteBuffer) →
    Except ByteBufferError (List Bool × ByteBuffer) → Prop
  | .ok (value, b), .ok (bits, b') => value.toNat = numberOf bits ∧ SamePlace b b'
  | .error e, .error e' => e = e'
  | _, _ => False

theorem readBits_alike (hpos : 0 < b.bitpos) (hle : b.bitpos ≤ 8) (hn : n ≤ 32) :
    ReadAlike (b.readBits n) (readEachBit n b) := by
  rcases Nat.lt_or_ge b.unread.length n with hshort | henough
  · have hbits := readBits_outOfBytes hshort
    rw [readEachBit_outOfBytes hpos hle hshort]
    cases hread : b.readBits n with
    | ok r =>
      rw [hread] at hbits
      exact hbits.elim
    | error e =>
      rw [hread] at hbits
      exact hbits
  · obtain ⟨bits, b', hread, rfl, htaken⟩ := readEachBit_taken hpos hle henough
    obtain ⟨value, b'', hreadBits, hvalue, htaken'⟩ := readBits_taken hpos hle hn htaken.unread
    rw [hread, hreadBits]
    exact ⟨hvalue, htaken'.samePlace htaken⟩

end Reading

theorem writeBits_eq (h : Writing b) (value : UInt64) (n : Nat) :
    b.writeBits value n = (msbBits n value.toNat).foldlM writeBit b := by
  have heach := writeEachBit_outputs h (msbBits n value.toNat)
  rw [length_msbBits] at heach
  exact (writeBits_outputs h value n).eq heach

/-- After any writes, `WriteBits` does what a call of `WriteBit` for each bit does, and at any
place of any bytes `ReadBits` does what as many calls of `ReadBit` do. -/
theorem packed_eq_each :
    (∀ (bytes : List UInt8) (fields : List PacketField) (b : ByteBuffer),
      writePacket fields (ofBytes bytes) = .ok b → ∀ (value : UInt64) (n : Nat), 1 ≤ n → n ≤ 63 →
        b.writeBits value n = (msbBits n value.toNat).foldlM writeBit b) ∧
    (∀ b : ByteBuffer, 0 < b.bitpos → b.bitpos ≤ 8 → ∀ n : Nat, 1 ≤ n → n ≤ 32 →
      ReadAlike (b.readBits n) (readEachBit n b)) := by
  constructor
  · intro bytes fields b hwrite value n _ _
    exact writeBits_eq (writing_of_writePacket (writing_ofBytes bytes) hwrite) value n
  · intro b hpos hle n _ hn
    exact readBits_alike hpos hle hn

/-- Thirteen bits after three, and eleven bits of two bytes. -/
theorem packed_eq_each_thirteen :
    (∃ b, writePacket [.bits 5 3] {} = .ok b ∧
      b.writeBits 0x1abc 13 = (msbBits 13 0x1abc).foldlM writeBit b) ∧
    ReadAlike (readBits (ofBytes [0xa5, 0x3c]) 11) (readEachBit 11 (ofBytes [0xa5, 0x3c])) := by
  constructor
  · obtain ⟨b, hwrite⟩ : ∃ b, writePacket [.bits 5 3] (ofBytes []) = .ok b := ⟨_, rfl⟩
    exact ⟨b, hwrite, packed_eq_each.1 [] _ b hwrite 0x1abc 13 (by decide) (by decide)⟩
  · exact packed_eq_each.2 _ (by decide) (by decide) 11 (by decide) (by decide)

end LegionServer.Guarantees.BitPacking
