import LegionServer.Source.Packets.WriterEffects

/-!
# A packet as a stream of bits

What a sequence of writes is for: every call appends its bits to a stream, the bytes after
a padding up to where a byte starts, and a call is refused where `append` asserts that the
complete bytes stay below a limit.
-/
namespace LegionServer.Reference.BitStream
open Library Source.Packets Source.Packets.ByteBuffer List

variable {b b' b'' : ByteBuffer} {bits more : List Bool}

/-- The limit of `append`. -/
def sizeLimit : Nat := 100000000

/-- The zeros up to where the next byte starts. -/
def padding (length : Nat) : List Bool := List.replicate ((8 - length % 8) % 8) false

/-- The bits that a call appends to a stream of this length. -/
def encoded (length : Nat) : PacketField → List Bool
  | .bit value => [value]
  | .bits value count => msbBits count value.toNat
  | .integer type value => padding length ++ bitsOfBytes (bytesOf type.sizeof value.toNat)
  | .flushBits => padding length
  | .cString value _ => padding length ++ bitsOfBytes (value ++ [0])
  | .string value _ => if value = [] then [] else padding length ++ bitsOfBytes value

/-- More bits would complete a byte beyond the limit. -/
def Overfull (length count : Nat) : Prop :=
  length / 8 < (length + count) / 8 ∧ sizeLimit ≤ (length + count) / 8

/-- `append` checks the bytes before it flushes. -/
def BytesRefused (length : Nat) (src : List UInt8) : Prop :=
  src = [] ∨ sizeLimit ≤ length / 8 + src.length

def Refused (length : Nat) : PacketField → Prop
  | .bit _ => Overfull length 1
  | .bits _ count => Overfull length count
  | .integer type value => BytesRefused length (bytesOf type.sizeof value.toNat)
  | .flushBits => Overfull length (padding length).length
  | .cString value _ =>
    (value ≠ [] ∧ BytesRefused length value) ∨
      BytesRefused (if value = [] then length else (length + 7) / 8 * 8 + 8 * value.length) [0]
  | .string value _ => value ≠ [] ∧ BytesRefused length value

theorem overfull_add (length count more : Nat) :
    Overfull length (count + more) ↔ Overfull length count ∨ Overfull (length + count) more := by
  unfold Overfull sizeLimit
  omega

theorem not_overfull_zero (length : Nat) : ¬Overfull length 0 :=
  fun h => absurd h.1 (Nat.lt_irrefl _)

/-- Bits were appended to the stream, and nothing else changed. -/
structure Written (b b' : ByteBuffer) (bits : List Bool) : Prop where
  writing : Writing b'
  rpos : b'.rpos = b.rpos
  stream : b'.stream = b.stream ++ bits

/-- A call that appends the bits unless it is refused. -/
def Outputs (b : ByteBuffer) (refused : Prop) (bits : List Bool)
    (r : Except ByteBufferError ByteBuffer) : Prop :=
  Ends (fun e => e = .assertion ∧ refused) r fun b' => ¬refused ∧ Written b b' bits

theorem length_stream (b : ByteBuffer) : b.stream.length = 8 * b.size + (8 - b.bitpos) := by
  rw [stream, length_append, length_bitsOfBytes, length_msbBits, size]

theorem size_eq (h : Writing b) : b.size = b.stream.length / 8 := by
  have hlength := length_stream b
  have hpos := h.bitpos_pos
  omega

theorem length_padding (h : Writing b) :
    (padding b.stream.length).length = if b.bitpos = 8 then 0 else b.bitpos := by
  have hlength := length_stream b
  have hle := h.bitpos_le
  rw [padding, length_replicate]
  split <;> omega

theorem padding_of_flushed (h : Writing b) (hpos : b.bitpos = 8) : padding b.stream.length = [] :=
  eq_nil_of_length_eq_zero ((length_padding h).trans (if_pos hpos))

theorem eq_of_stream (h : Writing b) (h' : Writing b') (hrpos : b'.rpos = b.rpos)
    (hstream : b'.stream = b.stream) : b' = b := by
  have hlength := length_stream b
  have hlength' := length_stream b'
  have hpos := h.bitpos_pos
  have hpos' := h'.bitpos_pos
  have hle := h.bitpos_le
  have hle' := h'.bitpos_le
  rw [hstream] at hlength'
  have hsize : b'.size = b.size := by omega
  have hbitpos : b'.bitpos = b.bitpos := by omega
  have hsplit := hstream
  unfold stream at hsplit
  rw [hbitpos] at hsplit
  obtain ⟨hbytes, hpack⟩ := append_inj hsplit (by
    rw [length_bitsOfBytes, length_bitsOfBytes]
    exact congrArg (8 * ·) hsize)
  have hstorage := bitsOfBytes_injective hbytes
  have hhigh : b'.curbitval.toNat >>> b.bitpos = b.curbitval.toNat >>> b.bitpos := by
    have hlt (cur : UInt8) : cur.toNat >>> b.bitpos < 2 ^ (8 - b.bitpos) := by
      rw [Nat.shiftRight_eq_div_pow]
      apply Nat.div_lt_of_lt_mul
      rw [← Nat.pow_add, Nat.add_sub_cancel' hle]
      exact cur.toNat_lt
    rw [eq_of_msbBits (hlt _) hpack, Nat.mod_eq_of_lt (hlt _)]
  have hcur : b'.curbitval = b.curbitval := by
    have hlow' := h'.low
    rw [hbitpos] at hlow'
    rw [Nat.shiftRight_eq_div_pow, Nat.shiftRight_eq_div_pow] at hhigh
    apply UInt8.toNat_inj.mp
    rw [← Nat.div_add_mod b'.curbitval.toNat (2 ^ b.bitpos), hlow', hhigh, ← h.low, Nat.div_add_mod]
  have hwpos : b'.wpos = b.wpos := by rw [h'.wpos, h.wpos, hstorage]
  cases b
  cases b'
  simp only at hrpos hwpos hbitpos hcur hstorage
  rw [hrpos, hwpos, hbitpos, hcur, hstorage]

theorem Written.refl (h : Writing b) : Written b b [] := ⟨h, rfl, (append_nil _).symm⟩

theorem Written.trans (h : Written b b' bits) (h' : Written b' b'' more) :
    Written b b'' (bits ++ more) :=
  ⟨h'.writing, h'.rpos.trans h.rpos, by rw [h'.stream, h.stream, append_assoc]⟩

theorem Written.length (h : Written b b' bits) :
    b'.stream.length = b.stream.length + bits.length := by
  rw [h.stream, length_append]

theorem Written.unique (h : Written b b' bits) (h' : Written b b'' bits) : b' = b'' :=
  eq_of_stream h'.writing h.writing (h.rpos.trans h'.rpos.symm) (h.stream.trans h'.stream.symm)

theorem stream_padded (h : Writing b) (hpos : b.bitpos ≠ 8) :
    bitsOfBytes (b.storage ++ [b.curbitval]) = b.stream ++ padding b.stream.length := by
  have hpad : padding b.stream.length = msbBits b.bitpos b.curbitval.toNat := by
    have hlength := length_padding h
    rw [if_neg hpos, padding, length_replicate] at hlength
    rw [padding, hlength, msbBits_of_low_zero h.low]
  have hsplit := msbBits_add (8 - b.bitpos) b.bitpos b.curbitval.toNat
  rw [Nat.sub_add_cancel h.bitpos_le] at hsplit
  rw [bitsOfBytes_append, bitsOfBytes_singleton, hsplit, hpad, stream, append_assoc]

theorem checkAppend_ends (b : ByteBuffer) (src : List UInt8) :
    Ends (fun e => e = .assertion ∧ (src = [] ∨ sizeLimit ≤ b.size + src.length))
      (b.checkAppend src) fun _ => src ≠ [] ∧ b.size + src.length < sizeLimit := by
  unfold checkAppend
  split
  · rename_i hnone
    exact Ends.error ⟨rfl, .inl (eq_nil_of_length_eq_zero hnone)⟩
  rename_i hsome
  split
  · rename_i hroom
    exact Ends.ok ⟨fun hnil => hsome (hnil ▸ rfl), hroom⟩
  · rename_i hfull
    exact Ends.error ⟨rfl, .inr (Nat.le_of_not_lt hfull)⟩

theorem flushBits_outputs (h : Writing b) :
    Outputs b (Overfull b.stream.length (padding b.stream.length).length)
      (padding b.stream.length) b.flushBits := by
  have hlength := length_stream b
  have hpadding := length_padding h
  have hle := h.bitpos_le
  have hpositive := h.bitpos_pos
  unfold flushBits
  split
  · rename_i hpos
    rw [padding_of_flushed h hpos]
    exact Ends.ok ⟨not_overfull_zero _, Written.refl h⟩
  · rename_i hpos
    rw [if_neg hpos] at hpadding
    have hcheck := checkAppend_ends { b with bitpos := 8 } [b.curbitval]
    simp only [size, length_singleton] at hcheck hlength
    refine Ends.bind ((hcheck.allow ?_).bind fun _ hroom =>
      (Ends.ok ⟨rfl, hroom.2⟩ : Ends _ _ fun stored =>
        stored = store { b with bitpos := 8 } [b.curbitval] ∧ b.storage.length + 1 < sizeLimit))
        fun stored hstored => ?_
    · rintro e ⟨he, hnil | hfull⟩
      · cases hnil
      · refine ⟨he, ?_⟩
        unfold Overfull
        omega
    · obtain ⟨rfl, hroom⟩ := hstored
      refine Ends.ok ⟨fun hover => ?_, ?_⟩
      · unfold Overfull at hover
        omega
      · rw [store_eq (b := { b with bitpos := 8 }) h.wpos]
        refine ⟨⟨rfl, Nat.succ_pos 7, Nat.le_refl 8, rfl⟩, rfl, ?_⟩
        exact (stream_of_flushed rfl).trans (stream_padded h hpos)

theorem store_written (h : Writing b) (hpos : b.bitpos = 8) (src : List UInt8) :
    Written b (b.store src) (bitsOfBytes src) := by
  rw [store_eq h.wpos]
  refine ⟨⟨rfl, h.bitpos_pos, h.bitpos_le, h.low⟩, rfl, ?_⟩
  rw [stream_of_flushed hpos]
  refine Eq.trans (stream_of_flushed ?_) (bitsOfBytes_append _ _)
  exact hpos

theorem bitpos_of_padded (h : Written b b' (padding b.stream.length)) : b'.bitpos = 8 := by
  have hlength := length_stream b'
  rw [h.length, padding, length_replicate] at hlength
  have hle := h.writing.bitpos_le
  have hpos := h.writing.bitpos_pos
  omega

theorem append_outputs (h : Writing b) (src : List UInt8) :
    Outputs b (BytesRefused b.stream.length src)
      (padding b.stream.length ++ bitsOfBytes src) (b.append src) := by
  unfold append BytesRefused
  rw [← size_eq h]
  refine (checkAppend_ends b src).bind fun _ hroom => ?_
  refine ((flushBits_outputs h).allow ?_).bind fun flushed hflushed => ?_
  · rintro e ⟨_, hover, hlimit⟩
    -- the byte that is flushed fits where the bytes were checked
    have hlength := length_stream b
    have hpadding := length_padding h
    have hpos := h.bitpos_pos
    have hle := h.bitpos_le
    have hsome := List.length_pos_iff.mpr hroom.1
    split at hpadding <;> omega
  · have hpos := bitpos_of_padded hflushed.2
    refine Ends.ok ⟨?_, hflushed.2.trans (store_written hflushed.2.writing hpos src)⟩
    rintro (hnil | hfull)
    · exact hroom.1 hnil
    · omega

/-- Without an unfinished bit pack, all that `append` does is to store the bytes. -/
theorem append_limits (hpos : b.bitpos = 8) (hwpos : b.wpos = b.storage.length) (src : List UInt8) :
    Ends (fun e => e = .assertion ∧ (src = [] ∨ sizeLimit ≤ b.size + src.length)) (b.append src)
      fun b' => b.size + src.length < sizeLimit ∧
        b' = { b with storage := b.storage ++ src, wpos := (b.storage ++ src).length } := by
  have hlimits : Ends (fun e => e = .assertion ∧ (src = [] ∨ sizeLimit ≤ b.size + src.length))
      (b.append src) fun _ => b.size + src.length < sizeLimit := by
    refine (checkAppend_ends b src).bind fun _ hroom => ?_
    unfold flushBits
    rw [if_pos hpos]
    exact Ends.ok hroom.2
  exact (hlimits.both (append_aligned hpos hwpos src)).allow fun _ he => he.1

theorem settle_limits (hwpos : b.wpos = b.storage.length) :
    Ends (fun e => e = .assertion ∧ b.bitpos = 0 ∧ sizeLimit ≤ b.size + 1) b.settle
      fun b' => ¬(b.bitpos = 0 ∧ sizeLimit ≤ b.size + 1) ∧ b'.rpos = b.rpos := by
  unfold ByteBuffer.settle
  split
  · rename_i hfull
    have happended := append_limits (b := { b with bitpos := 8 }) rfl hwpos [b.curbitval]
    refine (happended.allow ?_).bind fun after hafter => Ends.ok ⟨?_, ?_⟩
    · rintro e ⟨he, hnil | hlimit⟩
      · cases hnil
      · exact ⟨he, hfull, hlimit⟩
    · exact fun hover => absurd hafter.1 (Nat.not_lt.mpr hover.2)
    · rw [hafter.2]
  · rename_i hfree
    exact Ends.ok ⟨fun hover => hfree hover.1, rfl⟩

theorem pushed_outputs (h : Writing b) {n value : Nat} (hn : n ≤ b.bitpos)
    (hvalue : value < 2 ^ n) :
    Outputs b (Overfull b.stream.length n) (msbBits n value) (b.push n value).settle := by
  have hlimits := settle_limits (b := b.push n value) h.wpos
  have hlength := length_stream b
  have hpos := h.bitpos_pos
  have hle := h.bitpos_le
  have hover : ((b.push n value).bitpos = 0 ∧ sizeLimit ≤ (b.push n value).size + 1) ↔
      Overfull b.stream.length n := by
    unfold Overfull
    simp only [push, size] at hlength ⊢
    omega
  rw [hover] at hlimits
  refine ((hlimits.both (pushed_ends h hn hvalue)).allow fun _ he => he.1).mono fun after hafter => ?_
  obtain ⟨⟨haccepted, hrpos⟩, hwriting, _, hstream⟩ := hafter
  exact ⟨haccepted, hwriting, hrpos, hstream⟩

theorem writeBit_outputs (h : Writing b) (bit : Bool) :
    Outputs b (Overfull b.stream.length 1) [bit] (b.writeBit bit) := by
  have hbit : msbBits 1 bit.toNat = [bit] := by
    cases bit <;> rfl
  rw [writeBit_eq, ← hbit]
  apply pushed_outputs h h.bitpos_pos
  cases bit <;> decide

theorem writeFullBytes_limits (value bits : Nat) (hpos : b.bitpos = 8)
    (hwpos : b.wpos = b.storage.length) :
    Ends (fun e => e = .assertion ∧ 8 ≤ bits ∧ sizeLimit ≤ b.size + bits / 8)
      (writeFullBytes value bits b)
      fun r => ¬(8 ≤ bits ∧ sizeLimit ≤ b.size + bits / 8) ∧ r.1.rpos = b.rpos := by
  induction bits, b using writeFullBytes.induct with
  | case1 bits b ih =>
    rw [writeFullBytes, appendByte_eq]
    refine ((append_limits hpos hwpos _).allow ?_).bind fun after hafter => ?_
    · rintro e ⟨he, hnil | hlimit⟩
      · cases hnil
      · rw [length_singleton] at hlimit
        exact ⟨he, by omega, by omega⟩
    · obtain ⟨hroom, hafter⟩ := hafter
      have hsize : after.size = b.size + 1 := by
        rw [hafter, size, length_append, length_singleton, size]
      have hrest := ih after (hafter ▸ hpos) (by rw [hafter])
      rw [length_singleton] at hroom
      refine (hrest.allow ?_).mono ?_
      · rintro e ⟨he, hmore, hlimit⟩
        exact ⟨he, by omega, by omega⟩
      · rintro r ⟨haccepted, hrpos⟩
        exact ⟨by omega, hrpos.trans (by rw [hafter])⟩
  | case2 bits b hfew =>
    have hless : bits < 8 := by
      rcases Nat.lt_or_ge bits 8 with hlt | hge
      · exact hlt
      · exact (hfew (bits - 8) (by omega)).elim
    rw [writeFullBytes]
    · exact Ends.ok ⟨fun hover => absurd hover.1 (Nat.not_le.mpr hless), rfl⟩
    · exact hfew

theorem writeBits_outputs (h : Writing b) (value : UInt64) (bits : Nat) :
    Outputs b (Overfull b.stream.length bits) (msbBits bits value.toNat)
      (b.writeBits value bits) := by
  have hlimits : Ends (fun e => e = .assertion ∧ Overfull b.stream.length bits)
      (b.writeBits value bits)
      fun b' => ¬Overfull b.stream.length bits ∧ b'.rpos = b.rpos := by
    have hlength := length_stream b
    have hpos := h.bitpos_pos
    have hle := h.bitpos_le
    unfold writeBits
    simp only [mask_eq]
    have hlow : value.toNat % 2 ^ bits < 2 ^ bits := Nat.mod_lt _ (Nat.two_pow_pos bits)
    generalize value.toNat % 2 ^ bits = value at hlow
    split
    · rename_i hmore
      generalize b.curbitval ||| UInt8.ofNat (value >>> (bits - b.bitpos)) = filled
      have happended := append_limits (b := { b with curbitval := filled, bitpos := 8 }) rfl
        h.wpos [filled]
      rw [length_singleton] at happended
      refine (happended.allow ?_).bind fun after hafter => ?_
      · rintro e ⟨he, hnil | hlimit⟩
        · cases hnil
        · unfold Overfull
          simp only [size] at hlimit hlength
          exact ⟨he, by omega⟩
      · obtain ⟨hroom, hafter⟩ := hafter
        have hsize : after.size = b.size + 1 := by
          rw [hafter, size, length_append, length_singleton, size]
        have hfull := writeFullBytes_limits (b := after) value (bits - b.bitpos) (by rw [hafter])
          (by rw [hafter])
        simp only [size] at hroom hsize hlength hfull
        refine (hfull.allow ?_).bind fun r hr => Ends.ok ?_
        · rintro e ⟨he, hbytes, hlimit⟩
          unfold Overfull
          exact ⟨he, by omega⟩
        · unfold Overfull
          exact ⟨by omega, hr.2.trans (by rw [hafter])⟩
    · rename_i hfits
      exact (pushed_outputs h (Nat.le_of_not_lt hfits) hlow).mono fun after hafter =>
        ⟨hafter.1, hafter.2.rpos⟩
  refine ((hlimits.both (writeBits_ends h value bits)).allow fun _ he => he.1).mono ?_
  rintro after ⟨⟨haccepted, hrpos⟩, hwriting, _, hstream⟩
  exact ⟨haccepted, hwriting, hrpos, hstream⟩

section Runs

variable {r r' : Except ByteBufferError ByteBuffer} {refused : Prop}

theorem Outputs.eq (h : Outputs b refused bits r) (h' : Outputs b refused bits r') : r = r' := by
  cases r with
  | ok c =>
    cases r' with
    | ok c' => rw [h.2.unique h'.2]
    | error e' => exact absurd h'.2 h.1
  | error e =>
    cases r' with
    | ok c' => exact absurd h.2 h'.1
    | error e' => rw [h.1, h'.1]

/-- Calls of `WriteBit`, one after the other. -/
theorem writeEachBit_outputs (h : Writing b) (bits : List Bool) :
    Outputs b (Overfull b.stream.length bits.length) bits (bits.foldlM writeBit b) := by
  induction bits generalizing b with
  | nil => exact Ends.ok ⟨not_overfull_zero _, Written.refl h⟩
  | cons bit bits ih =>
    have hsplit := overfull_add b.stream.length 1 bits.length
    rw [Nat.add_comm 1] at hsplit
    rw [foldlM_cons, length_cons, hsplit]
    refine ((writeBit_outputs h bit).allow fun e he => ⟨he.1, .inl he.2⟩).bind fun after hafter => ?_
    obtain ⟨haccepted, hwritten⟩ := hafter
    have hrest := ih hwritten.writing
    rw [hwritten.length, length_singleton] at hrest
    refine (hrest.allow fun e he => ⟨he.1, .inr he.2⟩).mono fun ended hended => ?_
    exact ⟨fun hover => hover.elim haccepted hended.1, hwritten.trans hended.2⟩

theorem writeCString_outputs (h : Writing b) (value : List UInt8) (requireValidUtf8 : Bool) :
    Outputs b (Refused b.stream.length (.cString value requireValidUtf8))
      (encoded b.stream.length (.cString value requireValidUtf8)) (b.writeCString value) := by
  unfold writeCString
  split
  · rename_i hsome
    have hne : value ≠ [] := fun hnil => hsome (hnil ▸ rfl)
    have happended := append_outputs h value
    refine (happended.allow fun e he => ⟨he.1, .inl ⟨hne, he.2⟩⟩).bind fun after hafter => ?_
    obtain ⟨haccepted, hwritten⟩ := hafter
    have hlength : after.stream.length = (b.stream.length + 7) / 8 * 8 + 8 * value.length := by
      rw [hwritten.length, length_append, length_bitsOfBytes, padding, length_replicate]
      omega
    have haligned : padding after.stream.length = [] := by
      have hzero : (8 - after.stream.length % 8) % 8 = 0 := by omega
      rw [padding, hzero, replicate_zero]
    have hended := append_outputs hwritten.writing [0]
    rw [haligned, nil_append, hlength] at hended
    refine (hended.allow ?_).mono ?_
    · rintro e ⟨he, hrefused⟩
      refine ⟨he, .inr ?_⟩
      rw [if_neg hne]
      exact hrefused
    · rintro ended ⟨hroom, hzero⟩
      constructor
      · rintro (hrefused | hrefused)
        · exact haccepted hrefused.2
        · rw [if_neg hne] at hrefused
          exact hroom hrefused
      · rw [encoded, bitsOfBytes_append, ← append_assoc]
        exact hwritten.trans hzero
  · rename_i hnone
    have hnil := eq_nil_of_length_eq_zero (not_not.mp hnone)
    subst hnil
    refine Ends.mono ((append_outputs h [0]).allow fun e he => ⟨he.1, .inr he.2⟩) fun after hafter =>
      ⟨?_, hafter.2⟩
    rintro (hrefused | hrefused)
    · exact hrefused.1 rfl
    · exact hafter.1 hrefused

theorem writeString_outputs (h : Writing b) (value : List UInt8) (requireValidUtf8 : Bool) :
    Outputs b (Refused b.stream.length (.string value requireValidUtf8))
      (encoded b.stream.length (.string value requireValidUtf8)) (b.writeString value) := by
  unfold writeString
  rw [encoded]
  by_cases hnil : value = []
  · rw [if_pos hnil, if_neg (by rw [hnil]; exact fun h => h rfl)]
    exact Ends.ok ⟨fun hrefused => hrefused.1 hnil, Written.refl h⟩
  · have hsome : value.length ≠ 0 := fun hzero => hnil (eq_nil_of_length_eq_zero hzero)
    rw [if_neg hnil, if_pos hsome]
    exact ((append_outputs h value).allow fun e he => ⟨he.1, hnil, he.2⟩).mono fun after hafter =>
      ⟨fun hrefused => hafter.1 hrefused.2, hafter.2⟩

theorem write_outputs (h : Writing b) (field : PacketField) :
    Outputs b (Refused b.stream.length field) (encoded b.stream.length field) (field.write b) := by
  cases field with
  | bit value => exact writeBit_outputs h value
  | bits value count => exact writeBits_outputs h value count
  | integer type value => exact append_outputs h _
  | flushBits => exact flushBits_outputs h
  | cString value requireValidUtf8 => exact writeCString_outputs h value requireValidUtf8
  | string value requireValidUtf8 => exact writeString_outputs h value requireValidUtf8

theorem writing_ofBytes (bytes : List UInt8) : Writing (ofBytes bytes) :=
  ⟨rfl, Nat.succ_pos 7, Nat.le_refl 8, rfl⟩

theorem writing_of_writePacket {fields : List PacketField} (h : Writing b)
    (hwrite : writePacket fields b = .ok b') : Writing b' := by
  induction fields generalizing b with
  | nil =>
    cases hwrite
    exact h
  | cons field fields ih =>
    obtain ⟨after, hfirst, hwrite⟩ := exists_of_bind_ok hwrite
    exact ih ((write_outputs h field).post_of_ok hfirst).2.writing hwrite

end Runs

end LegionServer.Reference.BitStream
