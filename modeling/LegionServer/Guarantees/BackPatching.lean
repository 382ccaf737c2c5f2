import LegionServer.Reference.BitStream

/-!
# Bits that are put in later

A placeholder that `PutBits` fills in at the end gives the bytes that writing the value at
once gives.
-/
namespace LegionServer.Guarantees.BackPatching
open Library Source.Packets Reference.BitStream
open Source.Packets.ByteBuffer

variable {b b' : ByteBuffer} {storage : List UInt8} {front old new : List Bool}

theorem testBit_putBit (byte : UInt8) (value : Bool) {bit k : Nat} (hbit : bit < 8) (hk : k < 8) :
    (if value then byte ||| UInt8.ofNat (1 <<< (7 - bit))
      else byte &&& ~~~UInt8.ofNat (1 <<< (7 - bit))).toNat.testBit (7 - k) =
        if bit = k then value else byte.toNat.testBit (7 - k) := by
  have hlt : 2 ^ (7 - bit) < 2 ^ 8 := Nat.pow_lt_pow_right (by decide) (by omega)
  have hmask : (UInt8.ofNat (1 <<< (7 - bit))).toNat = 2 ^ (7 - bit) := by
    rw [Nat.one_shiftLeft, UInt8.toNat_ofNat', Nat.mod_eq_of_lt hlt]
  have hsame : 7 - bit = 7 - k ↔ bit = k := by omega
  cases value with
  | true =>
    rw [if_pos rfl, UInt8.toNat_or, hmask, Nat.testBit_or, Nat.testBit_two_pow]
    simp only [hsame]
    by_cases h : bit = k
    · rw [decide_eq_true h, Bool.or_true, if_pos h]
    · rw [decide_eq_false h, Bool.or_false, if_neg h]
  | false =>
    have hnot : (~~~UInt8.ofNat (1 <<< (7 - bit))).toNat = 2 ^ 8 - (2 ^ (7 - bit) + 1) := by
      rw [UInt8.toNat_not, hmask, UInt8.size]
      omega
    have hin : 7 - k < 8 := by omega
    rw [if_neg Bool.false_ne_true, UInt8.toNat_and, hnot, Nat.testBit_and,
      Nat.testBit_two_pow_sub_succ hlt, Nat.testBit_two_pow, decide_eq_true hin]
    simp only [hsame]
    by_cases h : bit = k
    · rw [decide_eq_true h, if_pos h]
      exact Bool.and_false _
    · rw [decide_eq_false h, if_neg h]
      exact Bool.and_true _

theorem bitsOfBytes_putBit (storage : List UInt8) (pos : Nat) (value : Bool) :
    bitsOfBytes (putBit storage pos value) = (bitsOfBytes storage).set pos value := by
  apply List.ext_getElem?
  intro i
  have hi : 8 * (i / 8) + i % 8 = i := Nat.div_add_mod i 8
  have hbit : i % 8 < 8 := Nat.mod_lt i (by decide)
  have hat (bytes : List UInt8) := getElem?_bitsOfBytes bytes (i / 8) hbit
  rw [hi] at hat
  rw [hat, List.getElem?_set, hat, putBit, List.getElem?_modify, length_bitsOfBytes]
  cases hbyte : storage[i / 8]? with
  | none =>
    have hend := List.getElem?_eq_none_iff.mp hbyte
    by_cases hpos : pos = i
    · rw [if_pos hpos, if_neg (by omega)]
      rfl
    · rw [if_neg hpos]
      rfl
  | some byte =>
    have hin := (List.getElem?_eq_some_iff.mp hbyte).1
    simp only [Option.map_eq_map, Option.map_some]
    by_cases hword : pos / 8 = i / 8
    · rw [if_pos hword, testBit_putBit byte value (Nat.mod_lt pos (by decide)) hbit]
      by_cases hpos : pos = i
      · rw [if_pos hpos, if_pos (by omega), if_pos (by omega)]
      · rw [if_neg hpos, if_neg (by omega)]
    · have hpos : pos ≠ i := fun h => hword (congrArg (· / 8) h)
      rw [if_neg hword, if_neg hpos]

theorem foldl_set (front old new back : List Bool) (hlength : old.length = new.length) (m : Nat)
    (hm : m ≤ new.length) :
    (List.range m).foldl (fun bits i => bits.set (front.length + i) (new.getD i false))
      (front ++ (old ++ back)) = front ++ (new.take m ++ old.drop m ++ back) := by
  induction m with
  | zero => rw [List.range_zero, List.foldl_nil, List.take_zero, List.drop_zero, List.nil_append]
  | succ m ih =>
    have hnew : m < new.length := hm
    have hold : m < old.length := hlength ▸ hm
    rw [List.range_succ, List.foldl_append, ih (Nat.le_of_lt hm), List.foldl_cons, List.foldl_nil,
      List.set_append_right _ _ (Nat.le_add_right ..), Nat.add_sub_cancel_left,
      List.take_succ_eq_append_getElem hnew, List.drop_eq_getElem_cons hold, List.append_assoc,
      List.append_assoc, List.append_assoc]
    have hset : (new.take m ++ (old[m] :: old.drop (m + 1) ++ back)).set m (new.getD m false) =
        new.take m ++ (new[m] :: (old.drop (m + 1) ++ back)) := by
      have hat : (new.take m).length = m := List.length_take_of_le (Nat.le_of_lt hnew)
      rw [List.set_append_right _ _ (Nat.le_of_eq hat), hat, Nat.sub_self,
        List.getD_eq_getElem _ _ hnew]
      rfl
    exact congrArg (front ++ ·) hset

theorem putBits_eq {pos n : Nat} (value : UInt64) {back : List Bool}
    (hstorage : bitsOfBytes b.storage = front ++ (old ++ back)) (hpos : pos = front.length)
    (hold : old.length = n) (hn : n ≠ 0) :
    ∃ storage, b.putBits pos value n = .ok { b with storage } ∧
      bitsOfBytes storage = front ++ (msbBits n value.toNat ++ back) := by
  have hlength := congrArg List.length hstorage
  rw [length_bitsOfBytes, List.length_append, List.length_append] at hlength
  have hbit (i : Nat) (hi : i < n) : ((value.toNat >>> (n - i - 1)) &&& 1 != 0) =
      (msbBits n value.toNat).getD i false := by
    have hindex : n - i - 1 = n - 1 - i := by omega
    rw [List.getD_eq_getElem?_getD, getElem?_msbBits, if_pos hi, hindex, Option.getD_some,
      Nat.testBit, Nat.and_comm]
  have hloop (m : Nat) (hm : m ≤ n) (storage : List UInt8) :
      bitsOfBytes ((List.range m).foldl (fun storage i =>
        putBit storage (pos + i) ((value.toNat >>> (n - i - 1)) &&& 1 != 0)) storage) =
      (List.range m).foldl (fun bits i =>
        bits.set (front.length + i) ((msbBits n value.toNat).getD i false)) (bitsOfBytes storage) := by
    induction m with
    | zero => rfl
    | succ m ih =>
      rw [List.range_succ, List.foldl_append, List.foldl_append, List.foldl_cons, List.foldl_nil,
        List.foldl_cons, List.foldl_nil, bitsOfBytes_putBit, ih (Nat.le_of_lt hm), hbit m hm, hpos]
  refine ⟨(List.range n).foldl (fun storage i =>
    putBit storage (pos + i) ((value.toNat >>> (n - i - 1)) &&& 1 != 0)) b.storage, ?_, ?_⟩
  · unfold putBits size
    rw [if_pos (by omega), if_pos hn]
  · rw [hloop n (Nat.le_refl n), hstorage]
    have hset := foldl_set front old (msbBits n value.toNat) back
      (hold.trans (length_msbBits _ _).symm) n (Nat.le_of_eq (length_msbBits _ _).symm)
    rw [hset, List.drop_eq_nil_of_le (Nat.le_of_eq hold), List.append_nil,
      List.take_of_length_le (Nat.le_of_eq (length_msbBits _ _))]

section Runs

/-- Two buffers whose streams differ in a placeholder only. -/
structure Differ (front old new : List Bool) (b b' : ByteBuffer) : Prop where
  writing : Writing b
  writing' : Writing b'
  rpos : b'.rpos = b.rpos
  stream : ∃ back, b.stream = front ++ (old ++ back) ∧ b'.stream = front ++ (new ++ back)

/-- Both calls append the same bits, or both fail. -/
def Alike (front old new : List Bool) (r r' : Except ByteBufferError ByteBuffer) : Prop :=
  (∃ c c', r = .ok c ∧ r' = .ok c' ∧ Differ front old new c c') ∨ ∃ e, r = .error e ∧ r' = .error e

variable {r r' : Except ByteBufferError ByteBuffer}

theorem Alike.bind {next : ByteBuffer → Except ByteBufferError ByteBuffer}
    (h : Alike front old new r r')
    (hnext : ∀ c c', Differ front old new c c' → Alike front old new (next c) (next c')) :
    Alike front old new (r >>= next) (r' >>= next) := by
  obtain ⟨c, c', rfl, rfl, hdiffer⟩ | ⟨e, rfl, rfl⟩ := h
  · exact hnext c c' hdiffer
  · exact .inr ⟨e, rfl, rfl⟩

theorem alike_of_outputs {refused : Prop} {bits bits' : List Bool} (h : Outputs b refused bits r)
    (h' : Outputs b' refused bits' r')
    (hnext : ∀ c c', Written b c bits → Written b' c' bits' → Differ front old new c c') :
    Alike front old new r r' := by
  cases r with
  | ok c =>
    cases r' with
    | ok c' => exact .inl ⟨c, c', rfl, rfl, hnext c c' h.2 h'.2⟩
    | error e' => exact absurd h'.2 h.1
  | error e =>
    cases r' with
    | ok c' => exact absurd h.2 h'.1
    | error e' => exact .inr ⟨e, rfl, by rw [h.1, h'.1]⟩

theorem Differ.write (h : Differ front old new b b') (hlength : old.length = new.length)
    (field : PacketField) : Alike front old new (field.write b) (field.write b') := by
  obtain ⟨back, hstream, hstream'⟩ := h.stream
  have hsame : b'.stream.length = b.stream.length := by
    rw [hstream, hstream']
    simp only [List.length_append, hlength]
  have hright := write_outputs h.writing' field
  rw [hsame] at hright
  refine alike_of_outputs (write_outputs h.writing field) hright fun c c' hc hc' => ?_
  refine ⟨hc.writing, hc'.writing, (hc'.rpos.trans h.rpos).trans hc.rpos.symm,
    back ++ encoded b.stream.length field, ?_, ?_⟩
  · rw [hc.stream, hstream]
    simp only [List.append_assoc]
  · rw [hc'.stream, hstream']
    simp only [List.append_assoc]

theorem Differ.writePacket (h : Differ front old new b b') (hlength : old.length = new.length)
    (fields : List PacketField) :
    Alike front old new (writePacket fields b) (writePacket fields b') := by
  induction fields generalizing b b' with
  | nil => exact .inl ⟨b, b', rfl, rfl, h⟩
  | cons field fields ih => exact (h.write hlength field).bind fun c c' hnext => ih hnext

/-- A sequence of writes with a placeholder that is filled in after the last flush. -/
def writePatched (before after : List PacketField) (value : UInt64) (n : Nat) (b : ByteBuffer) :
    Except ByteBufferError ByteBuffer := do
  let b ← writePacket before b
  let pos := b.bitwpos
  let b ← b.writeBits 0 n
  let b ← writePacket (after ++ [.flushBits]) b
  b.putBits pos value n

def writeInPlace (before after : List PacketField) (value : UInt64) (n : Nat) (b : ByteBuffer) :
    Except ByteBufferError ByteBuffer := do
  let b ← writePacket before b
  let b ← b.writeBits value n
  writePacket (after ++ [.flushBits]) b

theorem bitwpos_eq (h : Writing b) : b.bitwpos = b.stream.length := by
  have hle := h.bitpos_le
  rw [bitwpos, h.wpos, length_stream, size]
  omega

theorem flushed_of_writePacket {fields : List PacketField} (h : Writing b)
    (hwrite : writePacket (fields ++ [.flushBits]) b = .ok b') : b'.bitpos = 8 := by
  rw [writePacket_append] at hwrite
  cases hbefore : writePacket fields b with
  | error e =>
    rw [hbefore] at hwrite
    cases hwrite
  | ok c =>
    have hwriting := writing_of_writePacket h hbefore
    rw [hbefore] at hwrite
    change c.flushBits >>= pure = .ok b' at hwrite
    rw [bind_pure] at hwrite
    exact bitpos_of_padded ((flushBits_outputs hwriting).post_of_ok hwrite).2

theorem Differ.putBits {value : UInt64} {n : Nat}
    (h : Differ front (msbBits n 0) (msbBits n value.toNat) b b') (hflushed : b.bitpos = 8)
    (hn : n ≠ 0) : b.putBits front.length value n = .ok b' := by
  obtain ⟨back, hstream, hstream'⟩ := h.stream
  have hbits := (stream_of_flushed hflushed).symm.trans hstream
  obtain ⟨storage, hput, hstorage⟩ := putBits_eq _ hbits rfl (length_msbBits n 0) hn
  have hsize : storage.length = b.storage.length := by
    have hleft := congrArg List.length hstorage
    have hright := congrArg List.length hbits
    simp only [List.length_append, length_bitsOfBytes, length_msbBits] at hleft hright
    omega
  rw [hput]
  congr 1
  refine eq_of_stream h.writing' ⟨?_, ?_, ?_, ?_⟩ h.rpos.symm ?_
  · exact h.writing.wpos.trans hsize.symm
  · exact h.writing.bitpos_pos
  · exact h.writing.bitpos_le
  · exact h.writing.low
  · rw [hstream', ← hstorage]
    exact stream_of_flushed hflushed

theorem writeBits_alike (h : Writing b) (value : UInt64) (n : Nat) :
    Alike b.stream (msbBits n 0) (msbBits n value.toNat) (b.writeBits 0 n)
      (b.writeBits value n) := by
  refine alike_of_outputs (writeBits_outputs h 0 n) (writeBits_outputs h value n)
    fun c c' hc hc' => ⟨hc.writing, hc'.writing, hc'.rpos.trans hc.rpos.symm, [], ?_, ?_⟩
  · rw [hc.stream, List.append_nil]
    rfl
  · rw [hc'.stream, List.append_nil]

theorem writePatched_eq (h : Writing b) (before after : List PacketField) (value : UInt64) {n : Nat}
    (hn : n ≠ 0) : writePatched before after value n b = writeInPlace before after value n b := by
  unfold writePatched writeInPlace
  cases hbefore : writePacket before b with
  | error e => rfl
  | ok c =>
    have hwriting := writing_of_writePacket h hbefore
    have hlength : (msbBits n 0).length = (msbBits n value.toNat).length := by
      rw [length_msbBits, length_msbBits]
    change (c.writeBits 0 n >>= fun b => writePacket (after ++ [.flushBits]) b >>= fun b =>
        b.putBits c.bitwpos value n) =
      (c.writeBits value n >>= writePacket (after ++ [.flushBits]))
    rw [bitwpos_eq hwriting]
    obtain ⟨d, d', hzeros, hvalue, hdiffer⟩ | ⟨e, hzeros, hvalue⟩ :=
      writeBits_alike hwriting value n
    · rw [hzeros, hvalue]
      change (writePacket (after ++ [.flushBits]) d >>= fun b =>
        b.putBits c.stream.length value n) = writePacket (after ++ [.flushBits]) d'
      obtain ⟨f, f', hrest, hrest', hended⟩ | ⟨e, hrest, hrest'⟩ :=
        hdiffer.writePacket hlength (after ++ [.flushBits])
      · have hflushed := flushed_of_writePacket hdiffer.writing hrest
        have hflushed' := flushed_of_writePacket hdiffer.writing' hrest'
        rw [hrest, hrest']
        exact hended.putBits hflushed hn
      · rw [hrest, hrest']
        rfl
    · rw [hzeros, hvalue]
      rfl

end Runs

/-- Only the bits of the patch change. -/
theorem putBits_frame {pos n : Nat} {value : UInt64} (hput : b.putBits pos value n = .ok b') :
    b' = { b with storage := b'.storage } ∧ b'.size = b.size ∧ ∀ i, i < pos ∨ pos + n ≤ i →
        (bitsOfBytes b'.storage)[i]? = (bitsOfBytes b.storage)[i]? := by
  have hfits : pos + n ≤ b.size * 8 := by
    unfold putBits at hput
    split at hput
    · assumption
    · cases hput
  have hn : n ≠ 0 := by
    unfold putBits at hput
    rw [if_pos hfits] at hput
    split at hput
    · assumption
    · cases hput
  generalize hbits : bitsOfBytes b.storage = bits
  have hlength : bits.length = 8 * b.size := by
    rw [← hbits, length_bitsOfBytes, size]
  have hfront : (bits.take pos).length = pos := List.length_take_of_le (by omega)
  have hold : ((bits.drop pos).take n).length = n :=
    List.length_take_of_le (by rw [List.length_drop]; omega)
  have hsplit : bits = bits.take pos ++ ((bits.drop pos).take n ++ (bits.drop pos).drop n) := by
    rw [List.take_append_drop, List.take_append_drop]
  obtain ⟨storage, hput', hstorage⟩ := putBits_eq value (hbits.trans hsplit) hfront.symm hold hn
  rw [hput] at hput'
  cases hput'
  have hsize := congrArg List.length hstorage
  rw [length_bitsOfBytes, List.length_append, List.length_append, hfront, length_msbBits,
    List.length_drop, List.length_drop, hlength] at hsize
  refine ⟨rfl, ?_, ?_⟩
  · change storage.length = b.storage.length
    unfold size at hfits hsize
    omega
  · rintro i (hbefore | hafter)
    · rw [hstorage, List.getElem?_append_left (by omega), List.getElem?_take_of_lt hbefore]
    · rw [hstorage, List.getElem?_append_right (by omega), hfront,
        List.getElem?_append_right (by rw [length_msbBits]; omega), length_msbBits, List.drop_drop,
        List.getElem?_drop]
      congr 1
      omega

/-- A placeholder, filled in at the position that was recorded before it, gives the buffer that
has the value in its place, and the other bits are those that were written. -/
theorem back_patching (bytes : List UInt8) (before after : List PacketField) (value : UInt64)
    {n : Nat} (hpos : 1 ≤ n) (_hle : n ≤ 63) :
    writePatched before after value n (ofBytes bytes) =
        writeInPlace before after value n (ofBytes bytes) ∧
      ∀ start placed flushed patched, writePacket before (ofBytes bytes) = .ok start →
        start.writeBits 0 n = .ok placed → writePacket (after ++ [.flushBits]) placed = .ok flushed →
        flushed.putBits start.bitwpos value n = .ok patched →
        patched = { flushed with storage := patched.storage } ∧ patched.size = flushed.size ∧
          ∀ i, i < start.bitwpos ∨ start.bitwpos + n ≤ i →
            (bitsOfBytes patched.storage)[i]? = (bitsOfBytes flushed.storage)[i]? :=
  ⟨writePatched_eq (writing_ofBytes bytes) before after value (Nat.ne_of_gt hpos),
    fun _ _ _ _ _ _ _ hput => putBits_frame hput⟩

/-- A count of eleven bits that starts inside a byte, is put in after a string. -/
theorem back_patching_count :
    writePatched [.bits 5 3] [.bit true, .string [0x41, 0x42] true] 0x2a5 11 (ofBytes []) =
      writeInPlace [.bits 5 3] [.bit true, .string [0x41, 0x42] true] 0x2a5 11 (ofBytes []) :=
  (back_patching [] _ _ _ (by decide) (by decide)).1

end LegionServer.Guarantees.BackPatching
